import TableScript.Document.Display
import TableScript.Journal.Basic

/-!
Schemas: tables with columns, and the references between columns. Names and flags are texts and
truth values where a script was read, and may be any value where a document was; the definitions
here only compare them. A table may have a place in a diagram, which says nothing about its
structure and is never compared.
-/

namespace TableScript

structure Reference (ν : Type) where
  table : ν
  column : ν
  deriving DecidableEq

structure Column (ν φ : Type) where
  name : ν
  dataType : ν
  primaryKey : φ
  nullable : φ
  unique : φ
  reference : Option (Reference ν)
  deriving DecidableEq

structure Position where
  x : Value
  y : Value

structure Table (ν φ : Type) where
  name : ν
  columns : List (Column ν φ)
  position : Option Position

structure Schema (ν φ : Type) where
  tables : List (Table ν φ)

/-- A reference between columns, as an edge of a diagram. -/
structure Relationship (ν : Type) where
  source : ν
  sourceColumn : ν
  target : ν
  targetColumn : ν
  deriving DecidableEq

/-- What a script can say. -/
abbrev PlainColumn := Column String Bool
abbrev PlainTable := Table String Bool
abbrev PlainSchema := Schema String Bool

def changeFirst {α : Type} (isIt : α → Bool) (change : α → α) : List α → List α
  | [] => []
  | a :: rest => if isIt a then change a :: rest else a :: changeFirst isIt change rest

def removeFirst {α : Type} (isIt : α → Bool) : List α → List α
  | [] => []
  | a :: rest => if isIt a then rest else a :: removeFirst isIt rest

variable {ν φ : Type}

namespace Table

def empty (name : ν) : Table ν φ :=
  ⟨name, [], none⟩

def primaryKeyColumns [OfFlag φ] (table : Table ν φ) : List (Column ν φ) :=
  table.columns.filter fun column => holdsStored column.primaryKey

def column? [OfText ν] (table : Table ν φ) (name : ν) : Option (Column ν φ) :=
  table.columns.find? fun column => sameStored column.name name

def changeColumn [OfText ν] (name : ν) (change : Column ν φ → Column ν φ)
    (table : Table ν φ) : Table ν φ :=
  let columns := changeFirst (fun column => sameStored column.name name) change table.columns
  { table with columns := columns }

end Table

namespace Schema

def empty : Schema ν φ := ⟨[]⟩

def table? [OfText ν] (schema : Schema ν φ) (name : ν) : Option (Table ν φ) :=
  schema.tables.find? fun table => sameStored table.name name

def changeTable [OfText ν] (name : ν) (change : Table ν φ → Table ν φ)
    (schema : Schema ν φ) : Schema ν φ :=
  ⟨changeFirst (fun table => sameStored table.name name) change schema.tables⟩

def duplicateRecord [OfText ν] (name : ν) : Journal.Record :=
  .error "models" ("Duplicate table definition: " ++ inWords name ++ ", keeping the latest")
    (.onTable (toValue name) "add_table")

/-- Adds a table. A second table of one name takes the place of the first one, and that is put
on record. -/
def addTable [OfText ν] (schema : Schema ν φ) (table : Table ν φ) :
    Schema ν φ × List Journal.Record :=
  match schema.table? table.name with
  | some _ => (schema.changeTable table.name fun _ => table, [duplicateRecord table.name])
  | none => (⟨schema.tables ++ [table]⟩, [])

/-- The references of a schema in the order of its tables and their columns. -/
def relationships (schema : Schema ν φ) : List (Relationship ν) :=
  schema.tables.flatMap fun table =>
    table.columns.filterMap fun column =>
      column.reference.map fun reference =>
        ⟨table.name, column.name, reference.table, reference.column⟩

def references (schema : Schema ν φ) : List (Reference ν) :=
  schema.tables.flatMap fun table => table.columns.filterMap (·.reference)

end Schema

-- Equality of structure: names, data types and flags are parts of what they belong to.
section Same

variable [OfText ν] [OfFlag φ]

def Reference.same (a b : Reference ν) : Bool :=
  sameStoredPart a.table b.table && sameStoredPart a.column b.column

def sameReference : Option (Reference ν) → Option (Reference ν) → Bool
  | none, none => true
  | some a, some b => a.same b
  | _, _ => false

def Column.same (a b : Column ν φ) : Bool :=
  sameStoredPart a.name b.name && sameStoredPart a.dataType b.dataType &&
    sameStoredPart a.primaryKey b.primaryKey && sameStoredPart a.nullable b.nullable &&
    sameStoredPart a.unique b.unique && sameReference a.reference b.reference

def sameLists {α : Type} (same : α → α → Bool) : List α → List α → Bool
  | [], [] => true
  | a :: restA, b :: restB => same a b && sameLists same restA restB
  | _, _ => false

def Table.same (a b : Table ν φ) : Bool :=
  sameStoredPart a.name b.name && sameLists Column.same a.columns b.columns

def Schema.same (a b : Schema ν φ) : Bool :=
  sameLists Table.same a.tables b.tables

end Same

section Shown

variable [OfText ν]

def Reference.text (reference : Reference ν) : String :=
  inWords reference.table ++ "." ++ inWords reference.column

def Column.text (column : Column ν φ) : String :=
  "Column(name='" ++ inWords column.name ++ "', type='" ++ inWords column.dataType ++ "')"

def Relationship.id (edge : Relationship ν) : String :=
  "e-" ++ inWords edge.source ++ "-" ++ inWords edge.sourceColumn ++ "-" ++ inWords edge.target

end Shown

section Map

variable {μ ψ : Type} (onName : ν → μ) (onFlag : φ → ψ)

def Reference.map (reference : Reference ν) : Reference μ :=
  ⟨onName reference.table, onName reference.column⟩

def Column.map (column : Column ν φ) : Column μ ψ :=
  { name := onName column.name
    dataType := onName column.dataType
    primaryKey := onFlag column.primaryKey
    nullable := onFlag column.nullable
    unique := onFlag column.unique
    reference := column.reference.map (Reference.map onName) }

def Table.map (table : Table ν φ) : Table μ ψ :=
  ⟨onName table.name, table.columns.map (Column.map onName onFlag), table.position⟩

def Schema.map (schema : Schema ν φ) : Schema μ ψ :=
  ⟨schema.tables.map (Table.map onName onFlag)⟩

end Map

end TableScript
