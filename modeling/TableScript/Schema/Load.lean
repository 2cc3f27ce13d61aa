import TableScript.Schema.Basic
import TableScript.Document.Misuse
import TableScript.Token

/-!
Loading a schema from a document. Names are kept as they are, flags become truth values, and data
types get the spelling that reading a script gives them. A document that would break the rules of
a schema is refused with the first reason found.
-/

namespace TableScript

inductive LoadFault where
  | notASchema
  | namelessTable (found : Value)
  | namelessColumn (found : Value)
  | incompleteReference (column found : Value)
  | missingReference (column : Value)
  | duplicateColumn (column table : Value)
  | duplicateTable (table : Value)
  | misuse (misuse : Misuse)

def LoadFault.message (standIns : Text.StandIns) : LoadFault → String
  | .notASchema => "Schema document must be an object with a 'tables' list"
  | .namelessTable found => "Table without a name: " ++ found.displayWith standIns
  | .namelessColumn found => "Column without a name: " ++ found.displayWith standIns
  | .incompleteReference column found =>
      "Incomplete foreign key reference on column " ++ column.inWordsWith standIns ++ ": " ++ found.displayWith standIns
  | .missingReference column =>
      "Column " ++ column.inWordsWith standIns ++ " is flagged as foreign key but has no reference"
  | .duplicateColumn column table =>
      "Duplicate column " ++ column.inWordsWith standIns ++ " in table " ++ table.inWordsWith standIns
  | .duplicateTable table => "Duplicate table " ++ table.inWordsWith standIns
  | .misuse wrong => wrong.message

namespace Load

abbrev Loaded (α : Type) := Except LoadFault α

def orMisuse {α : Type} : Except Misuse α → Loaded α
  | .ok a => .ok a
  | .error misuse => .error (.misuse misuse)

def fieldOr (default : Value) (key : String) (fields : List (String × Value)) : Value :=
  (Value.lookup key fields).getD default

-- The fields and the name of an object whose name holds.
def named? (value : Value) : Option (List (String × Value) × Value) :=
  match value with
  | .object fields =>
      let name := fieldOr .null "name" fields
      if name.holds then some (fields, name) else none
  | _ => none

def reference (column found : Value) : Loaded (Option (Reference Value)) :=
  if !found.holds then .ok none
  else
    match found.fields? with
    | .error misuse => .error (.misuse misuse)
    | .ok fields =>
        let table := fieldOr .null "table" fields
        let target := fieldOr .null "column" fields
        if table.holds && target.holds then .ok (some ⟨table, target⟩)
        else .error (.incompleteReference column found)

def dataType (found : Value) : Loaded String :=
  if found.holds then (orMisuse (found.textFor .trimming)).map normalizeType
  else .ok (normalizeType "")

def column (value : Value) : Loaded (Column Value Bool) :=
  match named? value with
  | none => .error (.namelessColumn value)
  | some (fields, name) => do
      let reference ← reference name (fieldOr .null "foreign_key_reference" fields)
      if (fieldOr .null "is_foreign_key" fields).holds && reference.isNone then
        throw (.missingReference name)
      let primaryKey := (fieldOr (.bool false) "is_primary_key" fields).holds
      let dataType ← dataType (fieldOr .null "data_type" fields)
      return {
        name := name
        dataType := .text dataType
        primaryKey := primaryKey
        nullable := (fieldOr (.bool true) "is_nullable" fields).holds && !primaryKey
        unique := (fieldOr (.bool false) "is_unique" fields).holds
        reference := reference }

def columnsInto (table : Table Value Bool) : List Value → Loaded (Table Value Bool)
  | [] => .ok table
  | item :: rest => do
      let column ← column item
      if (table.column? column.name).isSome then
        throw (.duplicateColumn column.name table.name)
      columnsInto { table with columns := table.columns ++ [column] } rest

def position : Value → Loaded (Option Position)
  | .null => .ok none
  | found => do
      let fields ← orMisuse found.fields?
      return some ⟨fieldOr (.int 0) "x" fields, fieldOr (.int 0) "y" fields⟩

def table (value : Value) : Loaded (Table Value Bool) :=
  match named? value with
  | none => .error (.namelessTable value)
  | some (fields, name) => do
      let items ← orMisuse (fieldOr (.list []) "columns" fields).items?
      let table ← columnsInto (.empty name) items
      let position ← position (fieldOr .null "position" fields)
      return { table with position := position }

def tablesInto (schema : Schema Value Bool) : List Value → Loaded (Schema Value Bool)
  | [] => .ok schema
  | item :: rest => do
      let table ← table item
      if (schema.table? table.name).isSome then throw (.duplicateTable table.name)
      tablesInto ⟨schema.tables ++ [table]⟩ rest

end Load

/-- The schema that a document describes. -/
def Schema.ofDocument (value : Value) : Except LoadFault (Schema Value Bool) :=
  match value with
  | .object fields =>
      match Load.fieldOr (.list []) "tables" fields with
      | .list items => Load.tablesInto .empty items
      | _ => .error .notASchema
  | _ => .error .notASchema

end TableScript
