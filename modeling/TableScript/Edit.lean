import TableScript.Schema.Basic
import TableScript.Document.Misuse
import TableScript.Token

/-!
Edits of a schema, one at a time and in place: an edit is checked first, refused for the first
reason found, and makes its changes after that. Names stay unique, a primary key column is never
nullable, and references follow the tables and columns that are renamed.
-/

namespace TableScript

inductive Subject where
  | table
  | column
  deriving DecidableEq

namespace Subject

def name : Subject → String
  | .table => "Table"
  | .column => "Column"

end Subject

inductive EditFault where
  | blankName (subject : Subject)
  | tableExists (name : Value)
  | columnExists (table column : Value)
  | unknownTable (name : Value)
  | unknownColumn (table column : Value)
  | nullableKey (table column : Value)
  | incompleteTarget
  | misuse (misuse : Misuse)

def EditFault.message : EditFault → String
  | .blankName subject => subject.name ++ " name cannot be empty"
  | .tableExists name => "Table " ++ name.inWords ++ " already exists"
  | .columnExists table column =>
      "Column " ++ column.inWords ++ " already exists in table " ++ table.inWords
  | .unknownTable name => "Unknown table: " ++ name.inWords
  | .unknownColumn table column => "Unknown column: " ++ table.inWords ++ "." ++ column.inWords
  | .nullableKey table column =>
      "Primary key column " ++ table.inWords ++ "." ++ column.inWords ++ " cannot be nullable"
  | .incompleteTarget => "A foreign key needs both a referenced table and column"
  | .misuse wrong => wrong.message

inductive Edit (ν φ : Type) where
  | addTable (name : ν) (position : Option Position)
  | renameTable (old new : ν)
  | removeTable (name : ν)
  | moveTable (name : ν) (position : Position)
  | addColumn (table name dataType : ν)
  | removeColumn (table name : ν)
  | renameColumn (table old new : ν)
  | setColumnType (table name dataType : ν)
  | setPrimaryKey (table name : ν) (flag : φ)
  | setNullable (table name : ν) (flag : φ)
  | setUnique (table name : ν) (flag : φ)
  | setForeignKey (table name targetTable targetColumn : ν)
  | clearForeignKey (table name : ν)

/-- What an edit gives back beside the schema. -/
inductive Added (ν φ : Type) where
  | nothing
  | table (table : Table ν φ)
  | column (column : Column ν φ)

namespace Edit

variable {ν φ : Type} [OfText ν] [OfFlag φ]

-- What is taken where nothing else is said.
def newTableName : String := "New_Table"
def newColumnName : String := "new_column"
def newColumnType : String := "VARCHAR(255)"
def newPosition : Position := ⟨.int 100, .int 100⟩

def requireTable (schema : Schema ν φ) (name : ν) : Except EditFault (Table ν φ) :=
  match schema.table? name with
  | some table => .ok table
  | none => .error (.unknownTable (toValue name))

def requireColumn (table : Table ν φ) (name : ν) : Except EditFault (Column ν φ) :=
  match table.column? name with
  | some column => .ok column
  | none => .error (.unknownColumn (toValue table.name) (toValue name))

def findColumn (schema : Schema ν φ) (table name : ν) :
    Except EditFault (Table ν φ × Column ν φ) := do
  let found ← requireTable schema table
  let column ← requireColumn found name
  return (found, column)

-- A name must be a text with something in it that is not blank.
def requireName (subject : Subject) (name : ν) : Except EditFault Unit :=
  let value := toValue name
  if !value.holds then .error (.blankName subject)
  else
    match value.textFor .trimming with
    | .error misuse => .error (.misuse misuse)
    | .ok content => if Text.trim content == "" then .error (.blankName subject) else .ok ()

def requireNewTable (schema : Schema ν φ) (name : ν) : Except EditFault Unit := do
  requireName .table name
  if (schema.table? name).isSome then throw (.tableExists (toValue name))

def requireNewColumn (table : Table ν φ) (written name : ν) : Except EditFault Unit := do
  requireName .column name
  if (table.column? name).isSome then throw (.columnExists (toValue written) (toValue name))

def normalized (dataType : ν) : Except EditFault ν :=
  match (toValue dataType).textFor .trimming with
  | .error misuse => .error (.misuse misuse)
  | .ok content => .ok (ofText (normalizeType content))

def onColumn (table name : ν) (change : Column ν φ → Column ν φ) (schema : Schema ν φ) :
    Schema ν φ :=
  schema.changeTable table fun found => found.changeColumn name change

def onReferences (change : Reference ν → Reference ν) (schema : Schema ν φ) : Schema ν φ :=
  ⟨schema.tables.map fun table =>
    let columns := table.columns.map fun column =>
      { column with reference := column.reference.map change }
    { table with columns := columns }⟩

def retargetTable (old new : ν) (reference : Reference ν) : Reference ν :=
  if sameStored reference.table old then { reference with table := new } else reference

def retargetColumn (table old new : ν) (reference : Reference ν) : Reference ν :=
  if sameStored reference.table table && sameStored reference.column old then ⟨table, new⟩
  else reference

/-- Editing one schema in place. What is changed before a refusal stays changed. -/
abbrev Editing (ν φ : Type) := ExceptT EditFault (StateM (Schema ν φ))

def check {α : Type} (test : Schema ν φ → Except EditFault α) : Editing ν φ α :=
  ExceptT.mk (do return test (← get))

def alter (change : Schema ν φ → Schema ν φ) : Editing ν φ Unit :=
  modify change

/-- Checks an edit against the schema and makes its changes. -/
def apply : Edit ν φ → Editing ν φ (Added ν φ)
  | .addTable name position => do
      check (requireNewTable · name)
      let table : Table ν φ := ⟨name, [], some (position.getD newPosition)⟩
      alter fun schema => ⟨schema.tables ++ [table]⟩
      return .table table
  | .renameTable old new => do
      let _ ← check (requireTable · old)
      if sameStored old new then return .nothing
      check (requireNewTable · new)
      alter (·.changeTable old fun table => { table with name := new })
      alter (onReferences (retargetTable old new))
      return .nothing
  | .removeTable name => do
      let table ← check (requireTable · name)
      alter fun schema => ⟨removeFirst table.same schema.tables⟩
      return .nothing
  | .moveTable name position => do
      let _ ← check (requireTable · name)
      alter (·.changeTable name fun table => { table with position := some position })
      return .nothing
  | .addColumn table name dataType => do
      let found ← check (requireTable · table)
      check fun _ => requireNewColumn found table name
      let dataType ← check fun _ => normalized dataType
      let column : Column ν φ :=
        ⟨name, dataType, ofFlag false, ofFlag true, ofFlag false, none⟩
      alter (·.changeTable table fun found => { found with columns := found.columns ++ [column] })
      return .column column
  | .removeColumn table name => do
      let (_, column) ← check (findColumn · table name)
      alter (·.changeTable table fun found =>
        { found with columns := removeFirst column.same found.columns })
      return .nothing
  | .renameColumn table old new => do
      let (found, _) ← check (findColumn · table old)
      if sameStored old new then return .nothing
      check fun _ => requireNewColumn found table new
      alter (onColumn table old fun column => { column with name := new })
      alter (onReferences (retargetColumn table old new))
      return .nothing
  | .setColumnType table name dataType => do
      let dataType ← check fun _ => normalized dataType
      let _ ← check (findColumn · table name)
      alter (onColumn table name fun column => { column with dataType := dataType })
      return .nothing
  | .setPrimaryKey table name flag => do
      let _ ← check (findColumn · table name)
      alter (onColumn table name fun column => { column with primaryKey := flag })
      if holdsStored flag then
        alter (onColumn table name fun column => { column with nullable := ofFlag false })
      return .nothing
  | .setNullable table name flag => do
      let (_, column) ← check (findColumn · table name)
      if holdsStored flag && holdsStored column.primaryKey then
        throw (.nullableKey (toValue table) (toValue name))
      alter (onColumn table name fun column => { column with nullable := flag })
      return .nothing
  | .setUnique table name flag => do
      let _ ← check (findColumn · table name)
      alter (onColumn table name fun column => { column with unique := flag })
      return .nothing
  | .setForeignKey table name targetTable targetColumn => do
      let _ ← check (findColumn · table name)
      if !(holdsStored targetTable && holdsStored targetColumn) then throw .incompleteTarget
      alter (onColumn table name fun column =>
        { column with reference := some ⟨targetTable, targetColumn⟩ })
      return .nothing
  | .clearForeignKey table name => do
      let _ ← check (findColumn · table name)
      alter (onColumn table name fun column => { column with reference := none })
      return .nothing

/-- Performs an edit: what it gives back, or why it is refused, and the schema behind it. -/
def perform (schema : Schema ν φ) (edit : Edit ν φ) :
    Except EditFault (Added ν φ) × Schema ν φ :=
  Id.run ((apply edit).run.run schema)

end Edit

end TableScript
