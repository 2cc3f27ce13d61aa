import TableScript.Schema.Basic
import TableScript.Document.Misuse
import TableScript.Identifier

/-!
Writing a schema as a script: a statement for each table that makes it, and after all of them a
statement for each reference, so the order of the tables never matters.
-/

namespace TableScript

namespace PlainColumn

def marks (column : PlainColumn) : List String :=
  (if column.primaryKey then ["PRIMARY KEY"]
    else if column.nullable then [] else ["NOT NULL"]) ++
    (if column.unique then ["UNIQUE"] else [])

def definition (column : PlainColumn) : String :=
  let dataType := Text.trim column.dataType
  let typed := if dataType == "" then [] else [dataType]
  " ".intercalate (Identifier.write column.name :: typed ++ marks column)

end PlainColumn

namespace PlainTable

def createScript (table : PlainTable) : String :=
  let lines := table.columns.map fun column => "  " ++ PlainColumn.definition column
  let body := if lines.isEmpty then "" else ",\n".intercalate lines ++ "\n"
  "CREATE TABLE " ++ Identifier.write table.name ++ " (\n" ++ body ++ ");"

def referenceScript (table column : String) (reference : Reference String) : String :=
  "ALTER TABLE " ++ Identifier.write table ++ " ADD FOREIGN KEY (" ++ Identifier.write column ++
    ") REFERENCES " ++ Identifier.write reference.table ++ " (" ++
    Identifier.write reference.column ++ ");"

def referenceScripts (table : PlainTable) : List String :=
  table.columns.filterMap fun column =>
    column.reference.map (referenceScript table.name column.name)

end PlainTable

namespace PlainSchema

/-- The script of a schema; an empty schema has an empty script. -/
def script (schema : PlainSchema) : String :=
  let creates := schema.tables.map PlainTable.createScript
  let references := schema.tables.flatMap PlainTable.referenceScripts
  let sections :=
    (if creates.isEmpty then [] else ["\n\n".intercalate creates]) ++
      (if references.isEmpty then [] else ["\n".intercalate references])
  if sections.isEmpty then "" else "\n\n".intercalate sections ++ "\n"

end PlainSchema

/-! Writing any schema: what stands in the place of a name or a data type has to be a text. The
tables are looked at first and then the references, each in order, and the first fault counts. -/

section Texts

variable {ν φ : Type} [OfText ν] [OfFlag φ]

def nameText (name : ν) : Except Misuse String :=
  (toValue name).textFor .writing

def Column.texts (column : Column ν φ) : Except Misuse PlainColumn := do
  let name ← nameText column.name
  let dataType ← (toValue column.dataType).textFor .trimming
  return ⟨name, dataType, holdsStored column.primaryKey, holdsStored column.nullable,
    holdsStored column.unique, none⟩

def Table.texts (table : Table ν φ) : Except Misuse PlainTable := do
  let columns ← table.columns.mapM Column.texts
  let name ← nameText table.name
  return ⟨name, columns, none⟩

def referenceTexts : Option (Reference ν) → Except Misuse (Option (Reference String))
  | none => .ok none
  | some reference => do
      let table ← nameText reference.table
      let column ← nameText reference.column
      return some ⟨table, column⟩

def Table.referenceTexts (table : Table ν φ) : Except Misuse (List (Option (Reference String))) :=
  table.columns.mapM fun column => TableScript.referenceTexts column.reference

def withReferences (table : PlainTable) (references : List (Option (Reference String))) :
    PlainTable :=
  let columns := List.zipWith (fun (column : PlainColumn) reference =>
    { column with reference := reference }) table.columns references
  { table with columns := columns }

/-- The schema with every name and data type as a text, and every flag as a truth value. -/
def Schema.texts (schema : Schema ν φ) : Except Misuse PlainSchema := do
  let tables ← schema.tables.mapM Table.texts
  let references ← schema.tables.mapM Table.referenceTexts
  return ⟨List.zipWith withReferences tables references⟩

def Schema.script (schema : Schema ν φ) : Except Misuse String :=
  schema.texts.map PlainSchema.script

end Texts

end TableScript
