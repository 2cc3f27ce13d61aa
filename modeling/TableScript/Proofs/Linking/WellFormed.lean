import TableScript.Proofs.Linking.Ordered
import TableScript.Proofs.Linking.Within
import TableScript.Identifier

/-!
What holds of every linked schema. The names of its tables are those that are made, each once; the
columns of a table have different names; and a property of columns that holds of each as it is
made, and that no constraint takes away, holds of every column in the end. Both modes are alike
in this.
-/

namespace TableScript

namespace Link

theorem link_names (mode : Resolution) (statements : List Statement) :
    tableNames (link mode statements).1.tables = (createdNames statements).eraseDups := by
  cases mode with
  | sequential =>
      rw [link_sequential, backed_names _ _ _ (sequential_backed statements), bare_table_names]
  | deferred => rw [link_deferred, bind_all_names, bare_table_names]

theorem created_once (statements : List Statement) : (createdNames statements).eraseDups.Nodup := by
  have orderly := orderly_drafts 0 [] orderly_start statements
  have names : (addDrafts 0 [] statements).map (·.table.name) = (createdNames statements).eraseDups := by
    rw [← bare_table_names, ← first_pass_tables, tableNames, List.map_map]
    rfl
  exact names ▸ orderly.names

theorem bare_tables_distinct (statements : List Statement) :
    ∀ table ∈ bareTables statements, table.Distinct := by
  intro table member
  obtain ⟨name, _, rfl⟩ := List.mem_map.mp member
  exact bare_table_distinct name _

theorem link_distinct (mode : Resolution) (statements : List Statement) :
    ∀ table ∈ (link mode statements).1.tables, table.Distinct := by
  cases mode with
  | sequential =>
      rw [link_sequential]
      exact sequential_distinct statements
  | deferred =>
      rw [link_deferred, bind_all_eq_map]
      intro table member
      obtain ⟨old, made, rfl⟩ := List.mem_map.mp member
      exact Table.distinct_mapColumns _ (evolve_keeps _ _ old) old (bare_tables_distinct statements old made)

theorem grow_position (known : List PlainTable) (table : PlainTable) (clause : Clause) :
    (growBy known table clause).position = table.position := by
  cases clause with
  | column definition =>
      rw [growBy]
      split
      · rfl
      · cases Building.openReference? definition <;> rfl
  | constraint constraint => rfl
  | ignored clause => rfl

theorem grown_position (known : List PlainTable) (clauses : List Clause) (table : PlainTable) :
    (clauses.foldl (growBy known) table).position = table.position := by
  induction clauses generalizing table with
  | nil => rfl
  | cons clause rest ih => exact (ih _).trans (grow_position known table clause)

theorem bind_all_positions (items : List (String × Constraint)) (tables : List PlainTable)
    (nowhere : ∀ table ∈ tables, table.position = none) :
    ∀ table ∈ items.foldl bindTo tables, table.position = none := by
  rw [bind_all_eq_map]
  exact List.forall_mem_map.mpr nowhere

theorem step_positions (tables : List PlainTable) (statement : Statement)
    (nowhere : ∀ table ∈ tables, table.position = none) :
    ∀ table ∈ sequentialStep tables statement, table.position = none := by
  cases statement with
  | createTable name clauses hasBody =>
      have grown : (grownTable tables name clauses).position = none :=
        grown_position tables clauses (.empty name)
      intro table member
      rw [sequentialStep, putTable] at member
      split at member
      · obtain ⟨old, among, rfl⟩ := List.mem_map.mp member
        split
        · exact grown
        · exact nowhere old among
      · rcases List.mem_append.mp member with among | last
        · exact nowhere table among
        · rw [List.mem_singleton.mp last]
          exact grown
  | alterTable table actions => exact bind_all_positions _ tables nowhere
  | ignored statement => exact nowhere

/-- A linked table has no place. -/
theorem link_positions (mode : Resolution) (statements : List Statement) :
    ∀ table ∈ (link mode statements).1.tables, table.position = none := by
  cases mode with
  | sequential =>
      rw [link_sequential]
      induction statements using List.reverseRecOn with
      | nil => exact fun table member => absurd member List.not_mem_nil
      | append_singleton before statement ih =>
          rw [sequential_append]
          exact step_positions _ statement ih
  | deferred =>
      rw [link_deferred]
      refine bind_all_positions _ _ fun table member => ?_
      obtain ⟨name, _, rfl⟩ := List.mem_map.mp member
      rfl

def AllColumns (property : PlainColumn → Prop) (tables : List PlainTable) : Prop :=
  ∀ table ∈ tables, ∀ column ∈ table.columns, property column

/-- A property that columns have when they are made and that no constraint takes away, as long as
all columns of the tables around have it. -/
structure Kept (property : PlainColumn → Prop) (clauses : List Clause) : Prop where
  made : ∀ definition, .column definition ∈ clauses → property (Building.columnOf definition)
  bound : ∀ clause ∈ clauses, ∀ constraint ∈ constraintsOf clause, ∀ known table,
    AllColumns property (table :: known) →
    ∀ column, property column → property (boundColumn known table constraint column)

section Kept

variable {property : PlainColumn → Prop} {clauses : List Clause} (kept : Kept property clauses)

include kept

theorem bind_own_kept (clause : Clause) (member : clause ∈ clauses) (constraint : Constraint)
    (stated : constraint ∈ constraintsOf clause) (known : List PlainTable) (table : PlainTable)
    (others : AllColumns property known) (columns : ∀ column ∈ table.columns, property column) :
    ∀ column ∈ (bindOwn known table constraint).columns, property column := by
  intro column inside
  obtain ⟨old, among, rfl⟩ := List.mem_map.mp inside
  exact kept.bound clause member constraint stated known table
    (List.forall_mem_cons.mpr ⟨columns, others⟩) old (columns old among)

theorem grow_kept (known : List PlainTable) (others : AllColumns property known)
    (clause : Clause) (member : clause ∈ clauses) (table : PlainTable)
    (columns : ∀ column ∈ table.columns, property column) :
    ∀ column ∈ (growBy known table clause).columns, property column := by
  cases clause with
  | column definition =>
      rw [growBy]
      split
      · exact columns
      · have added : ∀ column ∈ (withColumns table [Building.columnOf definition]).columns,
            property column :=
          List.forall_mem_append.mpr ⟨columns, List.forall_mem_singleton.mpr (kept.made definition member)⟩
        cases opened : Building.openReference? definition with
        | none => exact added
        | some constraint =>
            exact bind_own_kept kept _ member constraint (by simp [constraintsOf, opened]) known _ others
              added
  | constraint constraint =>
      exact bind_own_kept kept _ member constraint (by simp [constraintsOf]) known table others columns
  | ignored clause => exact columns

theorem grow_all_kept (known : List PlainTable) (others : AllColumns property known)
    (grown : List Clause) (inside : ∀ clause ∈ grown, clause ∈ clauses) (table : PlainTable)
    (columns : ∀ column ∈ table.columns, property column) :
    ∀ column ∈ (grown.foldl (growBy known) table).columns, property column := by
  induction grown generalizing table with
  | nil => exact columns
  | cons clause rest ih =>
      obtain ⟨member, later⟩ := List.forall_mem_cons.mp inside
      exact ih later _ (grow_kept kept known others clause member table columns)

theorem bind_to_kept (item : String × Constraint) (clause : Clause) (member : clause ∈ clauses)
    (stated : item.2 ∈ constraintsOf clause) (tables : List PlainTable)
    (columns : AllColumns property tables) : AllColumns property (bindTo tables item) := by
  intro table inside
  obtain ⟨old, among, rfl⟩ := List.mem_map.mp inside
  split
  · exact bind_own_kept kept clause member item.2 stated tables old columns (columns old among)
  · exact columns old among

theorem bind_all_kept (items : List (String × Constraint))
    (stated : ∀ item ∈ items, ∃ clause ∈ clauses, item.2 ∈ constraintsOf clause)
    (tables : List PlainTable) (columns : AllColumns property tables) :
    AllColumns property (items.foldl bindTo tables) := by
  induction items generalizing tables with
  | nil => exact columns
  | cons item rest ih =>
      obtain ⟨⟨clause, member, found⟩, others⟩ := List.forall_mem_cons.mp stated
      exact ih others _ (bind_to_kept kept item clause member found tables columns)

theorem step_kept (statement : Statement) (inside : ∀ clause ∈ clausesOf statement, clause ∈ clauses)
    (tables : List PlainTable) (columns : AllColumns property tables) :
    AllColumns property (sequentialStep tables statement) := by
  cases statement with
  | createTable name made hasBody =>
      have grown := grow_all_kept kept tables columns made inside (.empty name) (by simp [Table.empty])
      intro table member
      rw [sequentialStep, putTable] at member
      split at member
      · obtain ⟨old, among, rfl⟩ := List.mem_map.mp member
        split
        · exact grown
        · exact columns old among
      · rcases List.mem_append.mp member with among | last
        · exact columns table among
        · rw [List.mem_singleton.mp last]
          exact grown
  | alterTable table actions =>
      refine bind_all_kept kept (addedTo table actions) (fun item member => ?_) tables columns
      obtain ⟨constraint, added, rfl⟩ := List.mem_map.mp member
      have stated := (mem_added actions constraint).mp added
      exact ⟨.constraint constraint, inside _ (List.mem_map.mpr ⟨_, stated, rfl⟩), by simp [constraintsOf]⟩
  | ignored statement => exact columns

theorem sequential_kept (statements : List Statement)
    (inside : ∀ statement ∈ statements, ∀ clause ∈ clausesOf statement, clause ∈ clauses) :
    AllColumns property (sequentialTables statements) := by
  induction statements using List.reverseRecOn with
  | nil => exact fun table member => absurd member List.not_mem_nil
  | append_singleton before statement ih =>
      rw [sequential_append]
      exact step_kept kept statement (inside statement (by simp)) _
        (ih fun other member => inside other (List.mem_append_left _ member))

theorem deferred_kept (statements : List Statement)
    (inside : ∀ statement ∈ statements, ∀ clause ∈ clausesOf statement, clause ∈ clauses) :
    AllColumns property ((bindOrder statements).foldl bindTo (bareTables statements)) := by
  refine bind_all_kept kept _ (fun item member => ?_) _ ?_
  · obtain ⟨table, constraint⟩ := item
    obtain ⟨statement, among, clause, found, stated⟩ := bound_origin statements table constraint member
    exact ⟨clause, inside statement among clause found, stated⟩
  · intro table member column among
    obtain ⟨name, created, rfl⟩ := List.mem_map.mp member
    obtain ⟨definition, first, rfl⟩ := List.mem_map.mp among
    cases last : lastClauses? name statements with
    | none =>
        rw [last] at first
        cases first
    | some made =>
        rw [last, Option.getD_some] at first
        obtain ⟨hasBody, there⟩ := last_clauses_made name made statements last
        exact kept.made definition
          (inside _ there _ (first_definitions_written [] made definition first))

/-- A property that is kept holds of every column that is linked, in either mode. -/
theorem link_kept (mode : Resolution) (statements : List Statement)
    (inside : ∀ statement ∈ statements, ∀ clause ∈ clausesOf statement, clause ∈ clauses) :
    AllColumns property (link mode statements).1.tables := by
  cases mode with
  | sequential =>
      rw [link_sequential]
      exact sequential_kept kept statements inside
  | deferred =>
      rw [link_deferred]
      exact deferred_kept kept statements inside

end Kept

end Link

/-- A name that something written in a script means. -/
def Identifier.IsRead (name : String) : Prop :=
  ∃ written, name = Identifier.clean written

/-- A name that is read and that is not empty. -/
structure Identifier.IsFull (name : String) : Prop where
  occupied : name ≠ ""
  read : Identifier.IsRead name

structure Target.Named (target : Target) : Prop where
  table : Identifier.IsFull target.table
  columns : ∀ column ∈ target.columns, Identifier.IsRead column

def Clause.Named : Clause → Prop
  | .column definition =>
      Identifier.IsFull definition.name ∧ ∀ target ∈ definition.reference, target.Named
  | .constraint stated => ∀ target ∈ Link.constraintTargets stated, target.Named
  | .ignored _ => True

/-- A statement in which every table and column has a name, also those that are pointed at. -/
structure Statement.Named (statement : Statement) : Prop where
  created : ∀ name ∈ Link.createdName? statement, Identifier.IsFull name
  clauses : ∀ clause ∈ Link.clausesOf statement, clause.Named

theorem named_targets (clause : Clause) (named : clause.Named) :
    ∀ target ∈ Link.clauseTargets clause, target.Named := by
  cases clause with
  | column definition => simpa [Link.clauseTargets] using named.2
  | constraint constraint => exact named
  | ignored clause => simp [Link.clauseTargets]

structure Column.WellFormed (column : PlainColumn) : Prop where
  named : column.name ≠ ""
  key : column.primaryKey = true → column.nullable = false
  reference : ∀ reference ∈ column.reference, reference.table ≠ ""

structure Table.WellFormed (table : PlainTable) : Prop where
  named : table.name ≠ ""
  distinct : table.Distinct
  columns : ∀ column ∈ table.columns, column.WellFormed

/-- A schema in which everything has a name of its own, no key column can be left empty, and every
reference points at a table with a name. -/
structure Schema.WellFormed (schema : PlainSchema) : Prop where
  distinct : (schema.tables.map (·.name)).Nodup
  tables : ∀ table ∈ schema.tables, table.WellFormed

namespace Link

/-- What holds of a column that is linked from statements in which everything has a name. -/
structure Settles (column : PlainColumn) : Prop where
  name : Identifier.IsFull column.name
  key : column.primaryKey = true → column.nullable = false
  reference : ∀ reference ∈ column.reference,
    Identifier.IsFull reference.table ∧ Identifier.IsRead reference.column

theorem key_columns (known : List PlainTable) (name : String) (current : PlainTable) :
    ∀ key ∈ keyOf known name current, ∃ table ∈ current :: known, ∃ column ∈ table.columns,
      key = column.name := by
  intro key member
  have keys : ∀ table : PlainTable, key ∈ table.primaryKeyColumns.map (·.name) →
      ∃ column ∈ table.columns, key = column.name := by
    intro table inside
    obtain ⟨column, among, rfl⟩ := List.mem_map.mp inside
    exact ⟨column, List.mem_of_mem_filter among, rfl⟩
  simp only [keyOf] at member
  split at member
  case h_1 table found =>
    exact ⟨table, List.mem_cons_of_mem _ (List.mem_of_find?_eq_some found), keys table member⟩
  case h_2 =>
    split at member
    · exact ⟨current, List.mem_cons_self, keys current member⟩
    · cases member

theorem lastTarget_mem (name found : String) (pairs : List (String × String))
    (last : lastTarget? name pairs = some found) : found ∈ pairs.map (·.2) := by
  induction pairs with
  | nil => cases last
  | cons pair pairs ih =>
      rw [lastTarget?, Option.or_eq_some_iff] at last
      rcases last with later | ⟨_, here⟩
      · exact List.mem_cons_of_mem _ (ih later)
      · split at here
        · cases here
          exact List.mem_cons_self
        · cases here

theorem bound_settles (constraint : Constraint)
    (named : ∀ target ∈ constraintTargets constraint, target.Named) (known : List PlainTable)
    (table : PlainTable) (around : AllColumns Settles (table :: known)) (column : PlainColumn)
    (settles : Settles column) : Settles (boundColumn known table constraint column) := by
  cases constraint with
  | primaryKey columns label =>
      rw [boundColumn]
      split
      · exact ⟨settles.name, fun _ => rfl, settles.reference⟩
      · exact settles
  | unique columns label =>
      rw [boundColumn]
      split
      · exact ⟨settles.name, settles.key, settles.reference⟩
      · exact settles
  | foreignKey columns target label =>
      have targetNamed := named target (by simp [constraintTargets])
      simp only [boundColumn, repoint]
      split
      case isFalse => exact settles
      split
      case h_2 => exact settles
      case h_1 found last =>
        refine ⟨settles.name, settles.key, ?_⟩
        rintro reference ⟨rfl⟩
        refine ⟨targetNamed.table, ?_⟩
        obtain ⟨pair, paired, rfl⟩ := List.mem_map.mp (lastTarget_mem _ found _ last)
        have among := (List.of_mem_zip paired).2
        rw [targetsOf] at among
        split at among
        · obtain ⟨other, inside, key, keyed, same⟩ := key_columns known target.table table pair.2 among
          exact same ▸ (around other inside key keyed).name.read
        · exact targetNamed.columns pair.2 among

theorem settles_kept (clauses : List Clause) (named : ∀ clause ∈ clauses, clause.Named) :
    Kept Settles clauses where
  made := by
    intro definition member
    obtain ⟨name, targets⟩ := named _ member
    refine ⟨name, by simp +contextual [Building.columnOf], ?_⟩
    intro reference found
    simp only [Building.columnOf, Building.directReference?, Option.mem_def, Option.bind_eq_some_iff,
      Option.map_eq_some_iff] at found
    obtain ⟨target, pointed, column, first, rfl⟩ := found
    have targetNamed := targets target pointed
    exact ⟨targetNamed.table, targetNamed.columns column (List.mem_of_mem_head? first)⟩
  bound := by
    intro clause member constraint stated
    refine bound_settles constraint fun target pointed => ?_
    exact named_targets clause (named clause member) target
      (stated_targets clause constraint stated target pointed)

theorem link_settles (mode : Resolution) (statements : List Statement)
    (named : ∀ statement ∈ statements, statement.Named) :
    AllColumns Settles (link mode statements).1.tables :=
  link_kept (settles_kept (statements.flatMap clausesOf) (fun clause member => by
    obtain ⟨statement, inside, found⟩ := List.mem_flatMap.mp member
    exact (named statement inside).clauses clause found)) mode statements
    fun statement inside clause found => List.mem_flatMap.mpr ⟨statement, inside, found⟩

theorem link_named (mode : Resolution) (statements : List Statement)
    (named : ∀ statement ∈ statements, statement.Named) :
    ∀ table ∈ (link mode statements).1.tables, Identifier.IsFull table.name := by
  intro table member
  have created : table.name ∈ createdNames statements := by
    rw [← List.mem_eraseDups, ← link_names mode]
    exact List.mem_map_of_mem member
  obtain ⟨statement, inside, made⟩ := List.mem_filterMap.mp created
  exact (named statement inside).created table.name made

/-- Statements in which everything has a name make a well-formed schema. -/
theorem link_wellFormed (mode : Resolution) (statements : List Statement)
    (named : ∀ statement ∈ statements, statement.Named) : (link mode statements).1.WellFormed := by
  have settled := link_settles mode statements named
  have tables := link_named mode statements named
  refine ⟨?_, fun table member => ⟨(tables table member).occupied, link_distinct mode statements table member,
    fun column among => ?_⟩⟩
  · have names := link_names mode statements
    rw [tableNames] at names
    rw [names]
    exact created_once statements
  · have settles := settled table member column among
    exact ⟨settles.name.occupied, settles.key, fun reference found => (settles.reference reference found).1.occupied⟩

end Link

end TableScript
