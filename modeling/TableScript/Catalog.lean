import TableScript.Schema.Basic
import TableScript.Token

/-!
The catalog of a database: what it reports about its tables, and the schema that this makes. Keys
and constraints are reported beside the columns, and are looked up by the names of the columns;
of two columns with one name the first counts. A unique constraint over several columns has no
place in a schema.
-/

namespace TableScript

structure CatalogColumn (ν φ : Type) where
  name : ν
  dataType : ν
  nullable : φ

/-- A primary key as it is reported, which may be without its columns. -/
structure CatalogKey (ν : Type) where
  columns : Option (List ν)

structure CatalogForeignKey (ν : Type) where
  columns : List ν
  targetTable : ν
  targetColumns : List ν

structure CatalogTable (ν φ : Type) where
  name : ν
  columns : List (CatalogColumn ν φ)
  primaryKey : Option (CatalogKey ν)
  unique : List (List ν)
  foreignKeys : List (CatalogForeignKey ν)

/-- The columns of the primary key. Without a key, or a key without columns, there are none. -/
def CatalogTable.keyColumns {ν φ : Type} (reported : CatalogTable ν φ) : List ν :=
  (reported.primaryKey.bind (·.columns)).getD []

namespace Catalog

open Journal

variable {ν φ : Type} [OfText ν] [OfFlag φ]

def columnOf (column : CatalogColumn ν φ) : Column ν φ :=
  { name := column.name
    dataType := ofText (normalizeType (inWords column.dataType))
    primaryKey := ofFlag false
    nullable := column.nullable
    unique := ofFlag false
    reference := none }

def markKey (table : Table ν φ) (name : ν) : Table ν φ :=
  table.changeColumn name fun column =>
    { column with primaryKey := ofFlag true, nullable := ofFlag false }

def markUnique (table : Table ν φ) : List ν → Table ν φ
  | [name] => table.changeColumn name fun column => { column with unique := ofFlag true }
  | _ => table

-- A pair without a column to point at says nothing.
def pointPair (target : ν) (table : Table ν φ) (pair : ν × ν) : Table ν φ :=
  if holdsStored pair.2 then
    table.changeColumn pair.1 fun column => { column with reference := some ⟨target, pair.2⟩ }
  else table

def point (table : Table ν φ) (key : CatalogForeignKey ν) : Table ν φ :=
  (key.columns.zip key.targetColumns).foldl (pointPair key.targetTable) table

def tableOf (reported : CatalogTable ν φ) : Table ν φ :=
  let plain : Table ν φ := ⟨reported.name, reported.columns.map columnOf, none⟩
  let keyed := reported.keyColumns.foldl markKey plain
  let unique := reported.unique.foldl markUnique keyed
  reported.foreignKeys.foldl point unique

def introspected (table : Table ν φ) : Record :=
  .debug "introspector"
    ("Introspected table " ++ inWords table.name ++ " (" ++ toString table.columns.length ++
      " columns)")
    (.onTable (toValue table.name) "introspect")

def addReported (state : Schema ν φ × List Record) (reported : CatalogTable ν φ) :
    Schema ν φ × List Record :=
  let table := tableOf reported
  let (schema, records) := state.1.addTable table
  (schema, state.2 ++ records ++ [introspected table])

/-- The schema of a database, from what its catalog reports. -/
def introspect (reported : List (CatalogTable ν φ)) : Schema ν φ × List Record :=
  reported.foldl addReported (.empty, [])

end Catalog

end TableScript
