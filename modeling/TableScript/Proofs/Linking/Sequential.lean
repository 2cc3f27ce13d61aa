import TableScript.Proofs.Linking.Modes

/-!
Sequential linking in one go. Every statement is a step from the tables before it to the tables
after it: a new table grows clause by clause among the tables that are known so far, and an
altered table has its constraints bound at once. Nothing waits until the end.
-/

namespace TableScript.Link

/-- A table with a constraint of its own bound. -/
def bindOwn (known : List PlainTable) (table : PlainTable) (constraint : Constraint) : PlainTable :=
  table.mapColumns (boundColumn known table constraint)

def withColumns (table : PlainTable) (columns : List PlainColumn) : PlainTable :=
  { table with columns := table.columns ++ columns }

/-- A table with one more of its clauses. A column that points at a table has this bound before
the clauses behind it are looked at. -/
def growBy (known : List PlainTable) (table : PlainTable) : Clause → PlainTable
  | .column definition =>
      if definition.name ∈ table.columns.map (·.name) then table
      else (Building.openReference? definition).toList.foldl (bindOwn known)
        (withColumns table [Building.columnOf definition])
  | .constraint constraint => bindOwn known table constraint
  | .ignored _ => table

def grownTable (known : List PlainTable) (name : String) (clauses : List Clause) : PlainTable :=
  clauses.foldl (growBy known) (.empty name)

@[simp] theorem bindOwn_name (known : List PlainTable) (table : PlainTable)
    (constraint : Constraint) : (bindOwn known table constraint).name = table.name := rfl

@[simp] theorem withColumns_name (table : PlainTable) (columns : List PlainColumn) :
    (withColumns table columns).name = table.name := rfl

@[simp] theorem withColumns_nil (table : PlainTable) : withColumns table [] = table := by
  simp [withColumns]

theorem bindOwn_columns (known : List PlainTable) (table : PlainTable) (constraint : Constraint) :
    (bindOwn known table constraint).columns.map (·.name) = table.columns.map (·.name) :=
  Table.mapColumns_names _ (bound_keeps_names known table constraint) table

theorem bindOwn_distinct (known : List PlainTable) (table : PlainTable) (constraint : Constraint)
    (distinct : table.Distinct) : (bindOwn known table constraint).Distinct :=
  Table.distinct_mapColumns _ (bound_keeps_names known table constraint) table distinct

theorem bind_all_own_name (known : List PlainTable) (constraints : List Constraint)
    (table : PlainTable) : (constraints.foldl (bindOwn known) table).name = table.name := by
  induction constraints generalizing table with
  | nil => rfl
  | cons constraint rest ih => exact ih (bindOwn known table constraint)

theorem bind_all_own_columns (known : List PlainTable) (constraints : List Constraint)
    (table : PlainTable) :
    (constraints.foldl (bindOwn known) table).columns.map (·.name) = table.columns.map (·.name) := by
  induction constraints generalizing table with
  | nil => rfl
  | cons constraint rest ih => exact (ih _).trans (bindOwn_columns known table constraint)

theorem growBy_name (known : List PlainTable) (table : PlainTable) (clause : Clause) :
    (growBy known table clause).name = table.name := by
  cases clause with
  | column definition =>
      simp only [growBy]
      split
      · rfl
      · exact bind_all_own_name known _ _
  | constraint constraint => rfl
  | ignored clause => rfl

theorem grown_name (known : List PlainTable) (name : String) (clauses : List Clause) :
    (grownTable known name clauses).name = name := by
  have each : ∀ table : PlainTable, (clauses.foldl (growBy known) table).name = table.name := by
    induction clauses with
    | nil => exact fun _ => rfl
    | cons clause rest ih => exact fun table => (ih _).trans (growBy_name known table clause)
  exact each (.empty name)

theorem withColumn_distinct (table : PlainTable) (definition : ColumnDefinition)
    (distinct : table.Distinct) (fresh : definition.name ∉ table.columns.map (·.name)) :
    (withColumns table [Building.columnOf definition]).Distinct := by
  have names : (withColumns table [Building.columnOf definition]).columns.map (·.name) =
      table.columns.map (·.name) ++ [definition.name] := by
    simp [withColumns, Building.columnOf]
  rw [Table.Distinct, names]
  refine List.nodup_append.mpr ⟨distinct, List.nodup_singleton _, ?_⟩
  rintro name member other last rfl
  exact fresh (List.mem_singleton.mp last ▸ member)

/-- One clause, bound as soon as it is read, lets nothing wait. -/
theorem sequential_clause (known : List PlainTable) (number : Nat) (building : Building)
    (clause : Clause) (distinct : building.table.Distinct) :
    (building.addClause .sequential known number clause).table = growBy known building.table clause ∧
    (building.addClause .sequential known number clause).pending = building.pending ∧
    (growBy known building.table clause).Distinct := by
  cases clause with
  | column definition =>
      have absent := building.table.column_eq_none definition.name
      cases found : building.table.column? definition.name with
      | some column =>
          have repeated : definition.name ∈ building.table.columns.map (·.name) := by
            by_contra fresh
            simp [absent.mpr fresh] at found
          simp only [Building.addClause, Building.addColumn, found, growBy, if_pos repeated]
          exact ⟨rfl, rfl, distinct⟩
      | none =>
          have fresh := absent.mp found
          have grown := withColumn_distinct building.table definition distinct fresh
          simp only [Building.addClause, Building.addColumn, found, growBy, if_neg fresh]
          cases Building.openReference? definition with
          | none => exact ⟨rfl, rfl, grown⟩
          | some constraint =>
              exact ⟨bind_eq_map known _ _ constraint grown, rfl, bindOwn_distinct known _ constraint grown⟩
  | constraint constraint =>
      exact ⟨bind_eq_map known _ _ constraint distinct, rfl, bindOwn_distinct known _ constraint distinct⟩
  | ignored clause => exact ⟨rfl, rfl, distinct⟩

theorem sequential_clauses (known : List PlainTable) (number : Nat) (clauses : List Clause)
    (building : Building) (distinct : building.table.Distinct) :
    (clauses.foldl (Building.addClause .sequential known number) building).table =
      clauses.foldl (growBy known) building.table ∧
    (clauses.foldl (Building.addClause .sequential known number) building).pending =
      building.pending ∧
    (clauses.foldl (growBy known) building.table).Distinct := by
  induction clauses generalizing building with
  | nil => exact ⟨rfl, rfl, distinct⟩
  | cons clause rest ih =>
      obtain ⟨table, pending, grown⟩ := sequential_clause known number building clause distinct
      obtain ⟨tables, waiting, last⟩ := ih (building.addClause .sequential known number clause)
        (table ▸ grown)
      rw [table] at tables last
      exact ⟨tables, waiting.trans pending, last⟩

theorem sequential_build (known : List PlainTable) (number : Nat) (name : String)
    (clauses : List Clause) (hasBody : Bool) :
    (build .sequential known number name clauses hasBody).table = grownTable known name clauses ∧
    (build .sequential known number name clauses hasBody).pending = [] ∧
    (grownTable known name clauses).Distinct :=
  sequential_clauses known number clauses
    ⟨.empty name, [], if hasBody then [] else [missingBody name]⟩ List.nodup_nil

/-- Tables with one more, which takes the place of an earlier one of its name. -/
def putTable (table : PlainTable) (tables : List PlainTable) : List PlainTable :=
  if table.name ∈ tableNames tables then
    tables.map fun old => if old.name = table.name then table else old
  else tables ++ [table]

def addedTo (table : String) (actions : List Action) : List (String × Constraint) :=
  (actions.filterMap added?).map (table, ·)

/-- The tables after a statement, when each constraint is bound as soon as it is read. -/
def sequentialStep (tables : List PlainTable) : Statement → List PlainTable
  | .createTable name clauses _ => putTable (grownTable tables name clauses) tables
  | .alterTable table actions => (addedTo table actions).foldl bindTo tables
  | .ignored _ => tables

def sequentialTables (statements : List Statement) : List PlainTable :=
  statements.foldl sequentialStep []

theorem register_tables (draft : Draft) (drafts : List Draft)
    (names : (drafts.map (·.table.name)).Nodup) :
    (register draft drafts).1.map (·.table) = putTable draft.table (drafts.map (·.table)) := by
  have same : tableNames (drafts.map (·.table)) = drafts.map (·.table.name) := by
    simp [tableNames]
  rw [register_eq draft drafts names, putTable, same]
  split
  · rw [List.map_map, List.map_map]
    exact List.map_congr_left fun old _ => apply_ite Draft.table _ _ _
  · rw [List.map_append]
    rfl

theorem orderly_later (next : Nat) (drafts : List Draft) (orderly : Orderly next drafts) :
    Orderly (next + 1) drafts :=
  ⟨orderly.names, orderly.apart,
    fun draft member => Nat.lt_succ_of_lt (orderly.earlier draft member), orderly.distinct⟩

theorem sequential_statement (number : Nat) (linking : Linking) (statement : Statement)
    (orderly : Orderly number linking.drafts) :
    (addStatement .sequential number linking statement).tables =
      sequentialStep linking.tables statement ∧
    (addStatement .sequential number linking statement).pending = linking.pending ∧
    Orderly (number + 1) (addStatement .sequential number linking statement).drafts := by
  cases statement with
  | createTable name clauses hasBody =>
      obtain ⟨table, pending, distinct⟩ := sequential_build linking.tables number name clauses hasBody
      simp only [addStatement, table, pending, List.append_nil, true_and]
      exact ⟨register_tables _ _ orderly.names,
        orderly_register number linking.drafts orderly _ distinct⟩
  | alterTable table actions =>
      obtain ⟨tables, pending, orderly'⟩ := sequential_actions number table actions linking orderly
      exact ⟨tables, pending, orderly_later number _ orderly'⟩
  | ignored statement => exact ⟨rfl, rfl, orderly_later number _ orderly⟩

theorem sequential_run (number : Nat) (linking : Linking) (statements : List Statement)
    (orderly : Orderly number linking.drafts) :
    (addStatements .sequential number linking statements).tables =
      statements.foldl sequentialStep linking.tables ∧
    (addStatements .sequential number linking statements).pending = linking.pending ∧
    Orderly (number + statements.length) (addStatements .sequential number linking statements).drafts := by
  induction statements generalizing number linking with
  | nil => exact ⟨rfl, rfl, orderly⟩
  | cons statement rest ih =>
      obtain ⟨tables, pending, orderly'⟩ := sequential_statement number linking statement orderly
      obtain ⟨tables', pending', orderly''⟩ := ih (number + 1) _ orderly'
      rw [tables] at tables'
      rw [Nat.add_assoc, Nat.add_comm 1] at orderly''
      exact ⟨tables', pending'.trans pending, orderly''⟩

/-- Sequential linking takes the statements one after the other. -/
theorem link_sequential (statements : List Statement) :
    (link .sequential statements).1 = ⟨sequentialTables statements⟩ := by
  obtain ⟨tables, pending, _⟩ := sequential_run 0 .start statements orderly_start
  have settled : (addStatements .sequential 0 .start statements).pending = [] := pending
  simp only [link, finish, settled, List.foldl_nil, Linking.schema, Schema.mk.injEq]
  exact tables

theorem sequential_distinct (statements : List Statement) :
    ∀ table ∈ sequentialTables statements, table.Distinct := by
  obtain ⟨tables, _, orderly⟩ := sequential_run 0 .start statements orderly_start
  have made : sequentialTables statements = (addStatements .sequential 0 .start statements).tables :=
    tables.symm
  rw [made]
  intro table member
  obtain ⟨draft, inside, rfl⟩ := List.mem_map.mp member
  exact orderly.distinct draft inside

theorem sequential_append (before : List Statement) (statement : Statement) :
    sequentialTables (before ++ [statement]) = sequentialStep (sequentialTables before) statement :=
  List.foldl_concat ..

end TableScript.Link
