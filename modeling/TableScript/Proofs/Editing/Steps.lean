import TableScript.Edit
import TableScript.Proofs.Linking.Binding

/-!
What one edit can do. An edit looks at the schema first, and either it is refused and the schema
stays as it was, or it makes its changes. The relation below says for each edit under which
conditions it makes which changes.
-/

namespace TableScript.Edit

variable {ν φ : Type}

/-- What an editing program gives back for a schema, and the schema behind it. -/
def ran {α : Type} (program : Editing ν φ α) (schema : Schema ν φ) :
    Except EditFault α × Schema ν φ :=
  Id.run (program.run.run schema)

theorem ran_bind {α β : Type} (program : Editing ν φ α) (next : α → Editing ν φ β)
    (schema : Schema ν φ) :
    ran (program >>= next) schema =
      match ran program schema with
      | (.ok a, later) => ran (next a) later
      | (.error fault, later) => (.error fault, later) := by
  unfold ran ExceptT.run StateT.run Id.run
  simp only [bind, ExceptT.bind, ExceptT.mk, StateT.bind, ExceptT.bindCont]
  cases program schema with
  | mk result later => cases result <;> rfl

theorem ran_check {α : Type} (test : Schema ν φ → Except EditFault α) (schema : Schema ν φ) :
    ran (check test) schema = (test schema, schema) := rfl

theorem ran_alter (change : Schema ν φ → Schema ν φ) (schema : Schema ν φ) :
    ran (alter change) schema = (.ok (), change schema) := rfl

variable [OfText ν]

/-- A name is a text with something in it that is not blank. -/
def Visible (name : ν) : Prop :=
  ∃ content, toValue name = .text content ∧ Text.trim content ≠ ""

theorem requireName_ok (subject : Subject) (name : ν) (passed : requireName subject name = .ok ()) :
    Visible name := by
  simp only [requireName] at passed
  split at passed
  · cases passed
  · split at passed
    · cases passed
    case h_2 content text =>
      split at passed
      · cases passed
      case isFalse occupied =>
        refine ⟨content, ?_, by simpa using occupied⟩
        cases found : toValue name with
        | text written =>
            rw [found] at text
            cases text
            rfl
        | _ =>
            rw [found] at text
            cases text

theorem requireTable_ok (schema : Schema ν φ) (name : ν) (table : Table ν φ)
    (found : requireTable schema name = .ok table) : schema.table? name = some table := by
  rw [requireTable] at found
  split at found
  · cases found
    assumption
  · cases found

theorem requireNewTable_ok (schema : Schema ν φ) (name : ν)
    (passed : requireNewTable schema name = .ok ()) : Visible name ∧ schema.table? name = none := by
  simp only [requireNewTable, bind, Except.bind] at passed
  split at passed
  · cases passed
  case h_2 named =>
    split at passed
    · cases passed
    case isFalse fresh =>
      exact ⟨requireName_ok _ name named, by simpa using fresh⟩

theorem requireNewColumn_ok (table : Table ν φ) (written name : ν)
    (passed : requireNewColumn table written name = .ok ()) :
    Visible name ∧ table.column? name = none := by
  simp only [requireNewColumn, bind, Except.bind] at passed
  split at passed
  · cases passed
  case h_2 named =>
    split at passed
    · cases passed
    case isFalse fresh =>
      exact ⟨requireName_ok _ name named, by simpa using fresh⟩

theorem findColumn_ok (schema : Schema ν φ) (table name : ν) (found : Table ν φ × Column ν φ)
    (there : findColumn schema table name = .ok found) :
    schema.table? table = some found.1 ∧ found.1.column? name = some found.2 := by
  simp only [findColumn, requireColumn, bind, Except.bind] at there
  split at there
  · cases there
  case h_2 owner known =>
    split at there
    · cases there
    case h_2 column among =>
      split at among
      · cases among
        cases there
        exact ⟨requireTable_ok schema table owner known, ‹_›⟩
      · cases among

variable [OfFlag φ]

/-- The changes of each edit, and what they require of the schema before it. -/
inductive Performs (schema : Schema ν φ) : Edit ν φ → Schema ν φ → Prop
  | addTable {name : ν} {position : Option Position} (named : Visible name)
      (fresh : schema.table? name = none) :
      Performs schema (.addTable name position)
        ⟨schema.tables ++ [⟨name, [], some (position.getD newPosition)⟩]⟩
  | keepTable {old new : ν} {table : Table ν φ} (found : schema.table? old = some table)
      (same : sameStored old new = true) : Performs schema (.renameTable old new) schema
  | renameTable {old new : ν} {table : Table ν φ} (found : schema.table? old = some table)
      (other : sameStored old new = false) (named : Visible new) (fresh : schema.table? new = none) :
      Performs schema (.renameTable old new)
        (onReferences (retargetTable old new)
          (schema.changeTable old fun table => { table with name := new }))
  | removeTable {name : ν} {table : Table ν φ} (found : schema.table? name = some table) :
      Performs schema (.removeTable name) ⟨removeFirst table.same schema.tables⟩
  | moveTable {name : ν} {position : Position} {table : Table ν φ}
      (found : schema.table? name = some table) :
      Performs schema (.moveTable name position)
        (schema.changeTable name fun table => { table with position := some position })
  | addColumn {table name dataType written : ν} {found : Table ν φ}
      (known : schema.table? table = some found) (named : Visible name)
      (fresh : found.column? name = none) (spelled : normalized dataType = .ok written) :
      Performs schema (.addColumn table name dataType)
        (schema.changeTable table fun found => { found with columns := found.columns ++
          [⟨name, written, ofFlag false, ofFlag true, ofFlag false, none⟩] })
  | removeColumn {table name : ν} {found : Table ν φ} {column : Column ν φ}
      (known : schema.table? table = some found) (among : found.column? name = some column) :
      Performs schema (.removeColumn table name)
        (schema.changeTable table fun found =>
          { found with columns := removeFirst column.same found.columns })
  | keepColumn {table old new : ν} {found : Table ν φ} {column : Column ν φ}
      (known : schema.table? table = some found) (among : found.column? old = some column)
      (same : sameStored old new = true) : Performs schema (.renameColumn table old new) schema
  | renameColumn {table old new : ν} {found : Table ν φ} {column : Column ν φ}
      (known : schema.table? table = some found) (among : found.column? old = some column)
      (other : sameStored old new = false) (named : Visible new) (fresh : found.column? new = none) :
      Performs schema (.renameColumn table old new)
        (onReferences (retargetColumn table old new)
          (onColumn table old (fun column => { column with name := new }) schema))
  | setColumnType {table name dataType written : ν} {found : Table ν φ} {column : Column ν φ}
      (known : schema.table? table = some found) (among : found.column? name = some column)
      (spelled : normalized dataType = .ok written) :
      Performs schema (.setColumnType table name dataType)
        (onColumn table name (fun column => { column with dataType := written }) schema)
  | setPrimaryKey {table name : ν} {flag : φ} {found : Table ν φ} {column : Column ν φ}
      (known : schema.table? table = some found) (among : found.column? name = some column)
      (holds : holdsStored flag = true) :
      Performs schema (.setPrimaryKey table name flag)
        (onColumn table name (fun column => { column with nullable := ofFlag false })
          (onColumn table name (fun column => { column with primaryKey := flag }) schema))
  | clearPrimaryKey {table name : ν} {flag : φ} {found : Table ν φ} {column : Column ν φ}
      (known : schema.table? table = some found) (among : found.column? name = some column)
      (fails : holdsStored flag = false) :
      Performs schema (.setPrimaryKey table name flag)
        (onColumn table name (fun column => { column with primaryKey := flag }) schema)
  | setNullable {table name : ν} {flag : φ} {found : Table ν φ} {column : Column ν φ}
      (known : schema.table? table = some found) (among : found.column? name = some column)
      (allowed : (holdsStored flag && holdsStored column.primaryKey) = false) :
      Performs schema (.setNullable table name flag)
        (onColumn table name (fun column => { column with nullable := flag }) schema)
  | setUnique {table name : ν} {flag : φ} {found : Table ν φ} {column : Column ν φ}
      (known : schema.table? table = some found) (among : found.column? name = some column) :
      Performs schema (.setUnique table name flag)
        (onColumn table name (fun column => { column with unique := flag }) schema)
  | setForeignKey {table name targetTable targetColumn : ν} {found : Table ν φ}
      {column : Column ν φ} (known : schema.table? table = some found)
      (among : found.column? name = some column)
      (complete : (holdsStored targetTable && holdsStored targetColumn) = true) :
      Performs schema (.setForeignKey table name targetTable targetColumn)
        (onColumn table name
          (fun column => { column with reference := some ⟨targetTable, targetColumn⟩ }) schema)
  | clearForeignKey {table name : ν} {found : Table ν φ} {column : Column ν φ}
      (known : schema.table? table = some found) (among : found.column? name = some column) :
      Performs schema (.clearForeignKey table name)
        (onColumn table name (fun column => { column with reference := none }) schema)

/-- An edit is refused without a change, or does what it does under its conditions. -/
def Outcome (schema : Schema ν φ) (edit : Edit ν φ)
    (outcome : Except EditFault (Added ν φ) × Schema ν φ) : Prop :=
  match outcome with
  | (.ok _, later) => Performs schema edit later
  | (.error _, later) => later = schema

theorem outcome_check {α : Type} (schema : Schema ν φ) (edit : Edit ν φ)
    (test : Schema ν φ → Except EditFault α) (next : α → Editing ν φ (Added ν φ))
    (passes : ∀ a, test schema = .ok a → Outcome schema edit (ran (next a) schema)) :
    Outcome schema edit (ran (check test >>= next) schema) := by
  rw [ran_bind, ran_check]
  cases found : test schema with
  | ok a => exact passes a found
  | error fault => rfl

theorem perform_outcome (schema : Schema ν φ) (edit : Edit ν φ) :
    Outcome schema edit (perform schema edit) := by
  change Outcome schema edit (ran (apply edit) schema)
  cases edit with
  | addTable name position =>
      refine outcome_check _ _ _ _ fun _ passed => ?_
      obtain ⟨named, fresh⟩ := requireNewTable_ok schema name passed
      exact .addTable named fresh
  | renameTable old new =>
      refine outcome_check _ _ _ _ fun table passed => ?_
      have found := requireTable_ok schema old table passed
      split
      case isTrue same => exact .keepTable found same
      case isFalse other =>
        refine outcome_check _ _ _ _ fun _ passed => ?_
        obtain ⟨named, fresh⟩ := requireNewTable_ok schema new passed
        exact .renameTable found (Bool.not_eq_true _ |>.mp other) named fresh
  | removeTable name =>
      refine outcome_check _ _ _ _ fun table passed => ?_
      exact .removeTable (requireTable_ok schema name table passed)
  | moveTable name position =>
      refine outcome_check _ _ _ _ fun table passed => ?_
      exact .moveTable (requireTable_ok schema name table passed)
  | addColumn table name dataType =>
      refine outcome_check _ _ _ _ fun found passed => ?_
      have known := requireTable_ok schema table found passed
      refine outcome_check _ _ _ _ fun _ passed => ?_
      obtain ⟨named, fresh⟩ := requireNewColumn_ok found table name passed
      refine outcome_check _ _ _ _ fun written spelled => ?_
      exact .addColumn known named fresh spelled
  | removeColumn table name =>
      refine outcome_check _ _ _ _ fun found passed => ?_
      obtain ⟨known, among⟩ := findColumn_ok schema table name found passed
      exact .removeColumn known among
  | renameColumn table old new =>
      refine outcome_check _ _ _ _ fun found passed => ?_
      obtain ⟨known, among⟩ := findColumn_ok schema table old found passed
      dsimp only
      split
      case isTrue same => exact .keepColumn known among same
      case isFalse other =>
        refine outcome_check _ _ _ _ fun _ passed => ?_
        obtain ⟨named, fresh⟩ := requireNewColumn_ok found.1 table new passed
        exact .renameColumn known among (Bool.not_eq_true _ |>.mp other) named fresh
  | setColumnType table name dataType =>
      refine outcome_check _ _ _ _ fun written spelled => ?_
      refine outcome_check _ _ _ _ fun found passed => ?_
      obtain ⟨known, among⟩ := findColumn_ok schema table name found passed
      exact .setColumnType known among spelled
  | setPrimaryKey table name flag =>
      refine outcome_check _ _ _ _ fun found passed => ?_
      obtain ⟨known, among⟩ := findColumn_ok schema table name found passed
      rw [ran_bind, ran_alter]
      dsimp only
      split
      case isTrue holds => exact .setPrimaryKey known among holds
      case isFalse fails => exact .clearPrimaryKey known among (Bool.not_eq_true _ |>.mp fails)
  | setNullable table name flag =>
      refine outcome_check _ _ _ _ fun found passed => ?_
      obtain ⟨known, among⟩ := findColumn_ok schema table name found passed
      dsimp only
      split
      case isTrue => rfl
      case isFalse allowed => exact .setNullable known among (Bool.not_eq_true _ |>.mp allowed)
  | setUnique table name flag =>
      refine outcome_check _ _ _ _ fun found passed => ?_
      obtain ⟨known, among⟩ := findColumn_ok schema table name found passed
      exact .setUnique known among
  | setForeignKey table name targetTable targetColumn =>
      refine outcome_check _ _ _ _ fun found passed => ?_
      obtain ⟨known, among⟩ := findColumn_ok schema table name found passed
      dsimp only
      split
      case isTrue => rfl
      case isFalse complete => exact .setForeignKey known among (by simpa using complete)
  | clearForeignKey table name =>
      refine outcome_check _ _ _ _ fun found passed => ?_
      obtain ⟨known, among⟩ := findColumn_ok schema table name found passed
      exact .clearForeignKey known among

end TableScript.Edit
