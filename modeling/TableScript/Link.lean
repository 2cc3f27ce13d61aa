import TableScript.Resolution
import TableScript.Schema.Basic
import TableScript.Statement.Basic

/-!
Linking: from statements to a schema. A constraint is bound to the columns it names, and what it
names but is not there is put on record and dropped. A table that a reference points at does not
have to exist.

Sequential linking binds each constraint as soon as it is read. Deferred linking first makes all
tables and then binds the constraints in the order in which they were read. A constraint that was
written inside a table belongs to that definition of the table and goes with it when a later
definition takes its place; one that was written outside belongs to whatever table has the name
in the end.
-/

namespace TableScript.Link

open Journal

def source : String := "linker"

/-- A table with the number of the statement that made it. -/
structure Draft where
  number : Nat
  table : PlainTable

/-- A constraint that waits to be bound. -/
structure Pending where
  owner : Option Nat
  table : String
  constraint : Constraint

structure Linking where
  drafts : List Draft
  pending : List Pending
  journal : List Record

def Linking.start : Linking := ⟨[], [], []⟩

def Linking.tables (linking : Linking) : List PlainTable :=
  linking.drafts.map (·.table)

def Linking.schema (linking : Linking) : PlainSchema :=
  ⟨linking.tables⟩

def Linking.note (linking : Linking) (records : List Record) : Linking :=
  { linking with journal := linking.journal ++ records }

def onLink (table : String) : Context := .onTable (.text table) "link"
def onCreate (table : String) : Context := .onTable (.text table) "create_table"

def unknownTable (table : String) : Record :=
  .debug source ("Constraint on unknown table " ++ table ++ " dropped") (onLink table)

def unknownColumn (table column : String) : Record :=
  .debug source ("Constraint on unknown column " ++ column ++ " dropped") (onLink table)

def unknownSource (table column : String) : Record :=
  .debug source ("Foreign key on unknown column " ++ column ++ " dropped") (onLink table)

def severalUnique (table : String) (columns : List String) : Record :=
  .debug source ("Multi-column UNIQUE " ++ displayTexts columns ++ " has no per-column form")
    (onLink table)

def unpaired (table : String) (columns : List String) (target : String)
    (targets : List String) : Record :=
  .debug source ("Foreign key " ++ displayTexts columns ++ " -> " ++ target ++
    displayTexts targets ++ " cannot be paired column by column") (onLink table)

def ignoredAction (table : String) (action : Ignored) : Record :=
  .debug source ("Ignored ALTER TABLE action (" ++ action.reason ++ "): " ++
    excerpt 50 action.text) (.onTable (.text table) "alter_table")

def ignoredStatement (statement : Ignored) : Record :=
  .debug source ("Ignored statement (" ++ statement.reason ++ "): " ++
    excerpt 50 statement.text) (.onStatement (excerpt 100 statement.text) "classify")

def ignoredClause (table : String) (clause : Ignored) : Record :=
  .debug source ("Ignored clause (" ++ clause.reason ++ "): " ++ excerpt 50 clause.text)
    (onCreate table)

def missingBody (table : String) : Record :=
  .debug source ("No parseable column list for table " ++ table) (onCreate table)

def repeatedColumn (table column : String) : Record :=
  .debug source ("Duplicate column " ++ column ++ ", keeping the first definition")
    (onCreate table)

/-- Changes the columns that have one of some names, and gives the names that no column has. -/
def changeNamed (change : PlainColumn → PlainColumn) (table : PlainTable) :
    List String → PlainTable × List String
  | [] => (table, [])
  | name :: names =>
      match table.column? name with
      | some _ => changeNamed change (table.changeColumn name change) names
      | none =>
          let (changed, missing) := changeNamed change table names
          (changed, name :: missing)

def asKey (column : PlainColumn) : PlainColumn :=
  { column with primaryKey := true, nullable := false }

def asUnique (column : PlainColumn) : PlainColumn :=
  { column with unique := true }

def pointingAt (table target : String) (column : PlainColumn) : PlainColumn :=
  { column with reference := some ⟨table, target⟩ }

-- Each pair is a column of the table and the column it is to point at.
def pointPairs (target : String) (table : PlainTable) :
    List (String × String) → PlainTable × List String
  | [] => (table, [])
  | (name, column) :: pairs =>
      match table.column? name with
      | some _ => pointPairs target (table.changeColumn name (pointingAt target column)) pairs
      | none =>
          let (changed, missing) := pointPairs target table pairs
          (changed, name :: missing)

/-- The names of the primary key columns of a table. The table that is being made counts where
no known one has the name. -/
def keyOf (known : List PlainTable) (name : String) (current : PlainTable) : List String :=
  let found := match (Schema.mk known).table? name with
    | some table => some table
    | none => if current.name == name then some current else none
  (found.map fun table => table.primaryKeyColumns.map (·.name)).getD []

/-- Binds a constraint to a table, among the tables that are known; `written` is the name that
the constraint was written for. -/
def bind (known : List PlainTable) (table : PlainTable) (written : String) :
    Constraint → PlainTable × List Record
  | .primaryKey columns _ =>
      let (changed, missing) := changeNamed asKey table columns
      (changed, missing.map (unknownColumn table.name))
  | .unique columns _ =>
      if columns.length = 1 then
        let (changed, missing) := changeNamed asUnique table columns
        (changed, missing.map (unknownColumn table.name))
      else (table, [severalUnique written columns])
  | .foreignKey columns target _ =>
      let targets :=
        if target.columns.isEmpty then keyOf known target.table table else target.columns
      if targets.length = columns.length then
        let (changed, missing) := pointPairs target.table table (columns.zip targets)
        (changed, missing.map (unknownSource written))
      else (table, [unpaired written columns target.table targets])

def bindDraft (isIt : Draft → Bool) (written : String) (constraint : Constraint)
    (linking : Linking) : Linking :=
  match linking.drafts.find? isIt with
  | none => linking.note [unknownTable written]
  | some draft =>
      let (table, records) := bind linking.tables draft.table written constraint
      let drafts := changeFirst isIt (fun draft => { draft with table := table }) linking.drafts
      ({ linking with drafts := drafts }).note records

def hasName (name : String) (draft : Draft) : Bool :=
  draft.table.name == name

def bindNamed (name : String) (constraint : Constraint) (linking : Linking) : Linking :=
  bindDraft (hasName name) name constraint linking

def bindPending (linking : Linking) (pending : Pending) : Linking :=
  match pending.owner with
  | some number =>
      bindDraft (fun draft => draft.number == number) pending.table pending.constraint linking
  | none => bindNamed pending.table pending.constraint linking

structure Building where
  table : PlainTable
  pending : List Pending
  journal : List Record

namespace Building

def note (building : Building) (records : List Record) : Building :=
  { building with journal := building.journal ++ records }

/-- Binds a constraint of a table that is being made, or lets it wait. -/
def place (mode : Resolution) (known : List PlainTable) (number : Nat) (building : Building)
    (constraint : Constraint) : Building :=
  match mode with
  | .deferred =>
      let waiting : Pending := ⟨some number, building.table.name, constraint⟩
      { building with pending := building.pending ++ [waiting] }
  | .sequential =>
      let (table, records) := bind known building.table building.table.name constraint
      ({ building with table := table }).note records

-- The first of the columns that a target names, as a reference.
def directReference? (definition : ColumnDefinition) : Option (Reference String) :=
  definition.reference.bind fun target =>
    target.columns.head?.map fun column => ⟨target.table, column⟩

-- A target without columns means the primary key of its table.
def openReference? (definition : ColumnDefinition) : Option Constraint :=
  definition.reference.bind fun target =>
    if target.columns.isEmpty then some (.foreignKey [definition.name] target none) else none

def columnOf (definition : ColumnDefinition) : PlainColumn :=
  { name := definition.name
    dataType := definition.dataType
    primaryKey := definition.primaryKey
    nullable := !(definition.notNull || definition.primaryKey)
    unique := definition.unique
    reference := directReference? definition }

def addColumn (mode : Resolution) (known : List PlainTable) (number : Nat)
    (building : Building) (definition : ColumnDefinition) : Building :=
  match building.table.column? definition.name with
  | some _ => building.note [repeatedColumn building.table.name definition.name]
  | none =>
      let columns := building.table.columns ++ [columnOf definition]
      let building := { building with table := { building.table with columns := columns } }
      match openReference? definition with
      | some constraint => building.place mode known number constraint
      | none => building

def addClause (mode : Resolution) (known : List PlainTable) (number : Nat)
    (building : Building) : Clause → Building
  | .column definition => building.addColumn mode known number definition
  | .constraint constraint => building.place mode known number constraint
  | .ignored clause => building.note [ignoredClause building.table.name clause]

end Building

def build (mode : Resolution) (known : List PlainTable) (number : Nat) (name : String)
    (clauses : List Clause) (hasBody : Bool) : Building :=
  let start : Building := ⟨.empty name, [], if hasBody then [] else [missingBody name]⟩
  clauses.foldl (Building.addClause mode known number) start

-- A new draft takes the place of an earlier one of the same name.
def register (draft : Draft) (drafts : List Draft) : List Draft × List Record :=
  match drafts.find? (hasName draft.table.name) with
  | some _ =>
      (changeFirst (hasName draft.table.name) (fun _ => draft) drafts,
        [Schema.duplicateRecord draft.table.name])
  | none => (drafts ++ [draft], [])

def addAction (mode : Resolution) (table : String) (linking : Linking) : Action → Linking
  | .ignored action => linking.note [ignoredAction table action]
  | .add constraint =>
      match mode with
      | .deferred =>
          let waiting : Pending := ⟨none, table, constraint⟩
          { linking with pending := linking.pending ++ [waiting] }
      | .sequential => bindNamed table constraint linking

def addStatement (mode : Resolution) (number : Nat) (linking : Linking) : Statement → Linking
  | .createTable name clauses hasBody =>
      let building := build mode linking.tables number name clauses hasBody
      let (drafts, records) := register ⟨number, building.table⟩ linking.drafts
      { drafts := drafts
        pending := linking.pending ++ building.pending
        journal := linking.journal ++ building.journal ++ records }
  | .alterTable table actions => actions.foldl (addAction mode table) linking
  | .ignored statement => linking.note [ignoredStatement statement]

def addStatements (mode : Resolution) : Nat → Linking → List Statement → Linking
  | _, linking, [] => linking
  | number, linking, statement :: rest =>
      addStatements mode (number + 1) (addStatement mode number linking statement) rest

def finish (linking : Linking) : Linking :=
  linking.pending.foldl bindPending linking

end TableScript.Link

namespace TableScript

/-- The schema that statements describe, and the records made on the way. -/
def link (mode : Resolution) (statements : List Statement) :
    PlainSchema × List Journal.Record :=
  let linking := Link.finish (Link.addStatements mode 0 .start statements)
  (linking.schema, linking.journal)

end TableScript
