import TableScript.Proofs.Linking.Deferred
import TableScript.Proofs.Linking.Evolution
import Mathlib.Data.List.Perm.Subperm

/-!
Foreign keys that name a table and no columns of it. Such a key means the primary key of the
table, and deferred linking takes that to be what is known of the primary key when the turn of
the foreign key comes. A primary key constraint that is declared after it comes too late: the
foreign key is dropped although the tables and the columns are all there in the end.
-/

namespace TableScript.Link

theorem lastTarget_isSome (name : String) (pairs : List (String × String)) :
    (lastTarget? name pairs).isSome = true ↔ name ∈ pairs.map Prod.fst := by
  induction pairs with
  | nil => simp [lastTarget?]
  | cons pair rest ih =>
      obtain ⟨source, target⟩ := pair
      by_cases same : source = name
      · simp [lastTarget?, same]
      · simp only [lastTarget?, if_neg same, Option.or_none, ih, List.map_cons, List.mem_cons,
          Ne.symm same, false_or]

theorem step_reference (tables : List PlainTable) (item : String × Constraint) (table : PlainTable)
    (column : PlainColumn) :
    (stepColumn tables item table column).reference.isSome = true ↔
      column.reference.isSome = true ∨ ∃ columns target label,
        item = (table.name, .foreignKey columns target label) ∧ column.name ∈ columns ∧
        (targetsOf tables table target).length = columns.length := by
  obtain ⟨name, constraint⟩ := item
  by_cases same : table.name = name
  · rw [stepColumn, if_pos same]
    cases constraint with
    | primaryKey columns label =>
        by_cases member : column.name ∈ columns <;> simp [boundColumn, member, asKey]
    | unique columns label =>
        by_cases alone : columns = [column.name] <;> simp [boundColumn, alone, asUnique]
    | foreignKey columns target label =>
        by_cases paired : (targetsOf tables table target).length = columns.length
        · have sources : (columns.zip (targetsOf tables table target)).map Prod.fst = columns :=
            List.map_fst_zip (Nat.le_of_eq paired.symm)
          have named := lastTarget_isSome column.name (columns.zip (targetsOf tables table target))
          rw [sources] at named
          cases found : lastTarget? column.name (columns.zip (targetsOf tables table target)) with
          | none => simp_all [boundColumn, repoint]
          | some _ => simp_all [boundColumn, repoint, pointingAt]
        · simp only [boundColumn, if_neg paired]
          refine (or_iff_left ?_).symm
          rintro ⟨_, _, _, equal, _, fits⟩
          cases equal
          exact paired fits
  · rw [stepColumn, if_neg same]
    refine (or_iff_left ?_).symm
    rintro ⟨_, _, _, equal, _⟩
    exact same (congrArg Prod.fst equal).symm

theorem evolve_reference (items : List (String × Constraint)) (tables : List PlainTable)
    (table : PlainTable) (column : PlainColumn) :
    (evolve items tables table column).reference.isSome = true ↔
      column.reference.isSome = true ∨ ∃ before columns target label after,
        items = before ++ (table.name, .foreignKey columns target label) :: after ∧
        column.name ∈ columns ∧
        (targetsOf (before.foldl bindTo tables) (table.mapColumns (evolve before tables table))
          target).length = columns.length := by
  induction items generalizing tables table column with
  | nil => simp [evolve]
  | cons item rest ih =>
      have named := (step_flagged tables item table column).name
      rw [evolve, ih, step_reference, named, stepTable, Table.mapColumns_name, or_assoc]
      apply or_congr_right
      constructor
      · rintro (⟨columns, target, label, rfl, member, fits⟩ |
          ⟨before, columns, target, label, after, rfl, member, fits⟩)
        · refine ⟨[], columns, target, label, rest, rfl, member, ?_⟩
          simpa [evolve, Table.mapColumns_id] using fits
        · refine ⟨item :: before, columns, target, label, after, rfl, member, ?_⟩
          rw [Table.mapColumns_mapColumns] at fits
          exact fits
      · rintro ⟨before, columns, target, label, after, split, member, fits⟩
        cases before with
        | nil =>
            obtain ⟨rfl, rfl⟩ := List.cons.inj split
            refine Or.inl ⟨columns, target, label, rfl, member, ?_⟩
            simpa [evolve, Table.mapColumns_id] using fits
        | cons first before =>
            obtain ⟨rfl, rfl⟩ := List.cons.inj split
            refine Or.inr ⟨before, columns, target, label, after, rfl, member, ?_⟩
            rw [Table.mapColumns_mapColumns]
            exact fits

def makesKey (table column : String) : String × Constraint → Bool
  | (name, .primaryKey columns _) => decide (name = table ∧ column ∈ columns)
  | _ => false

theorem keyed_iff_any (items : List (String × Constraint)) (table column : String) :
    Keyed items table column ↔ items.any (makesKey table column) = true := by
  rw [Keyed, List.any_eq_true]
  constructor
  · rintro ⟨columns, label, member, inside⟩
    exact ⟨_, member, by simp [makesKey, inside]⟩
  · rintro ⟨⟨name, constraint⟩, member, makes⟩
    cases constraint with
    | primaryKey columns label =>
        obtain ⟨rfl, inside⟩ := of_decide_eq_true makes
        exact ⟨columns, label, member, inside⟩
    | foreignKey columns target label => cases makes
    | unique columns label => cases makes

/-- The primary key columns of a table, as they are known when some constraints are bound: those
that are declared as such and those that a bound constraint names. -/
def knownKey (statements : List Statement) (bound : List (String × Constraint)) (table : String) :
    List String :=
  match lastClauses? table statements with
  | none => []
  | some clauses =>
      ((firstDefinitions [] clauses).filter fun definition =>
        definition.primaryKey || bound.any (makesKey table definition.name)).map (·.name)

theorem bound_key (bound : List (String × Constraint)) (tables : List PlainTable) (name : String)
    (clauses : List Clause) :
    ((bareTable name clauses).mapColumns
        (evolve bound tables (bareTable name clauses))).primaryKeyColumns.map (·.name) =
      ((firstDefinitions [] clauses).filter fun definition =>
        definition.primaryKey || bound.any (makesKey name definition.name)).map (·.name) := by
  have key : ∀ definition, (evolve bound tables (bareTable name clauses)
      (Building.columnOf definition)).primaryKey =
      (definition.primaryKey || bound.any (makesKey name definition.name)) := by
    intro definition
    rw [Bool.eq_iff_iff, (evolve_flagged bound tables (bareTable name clauses) _).primaryKey,
      Bool.or_eq_true, ← keyed_iff_any]
    rfl
  simp only [Table.primaryKeyColumns, Table.mapColumns, holds_stored_flag]
  simp only [bareTable] at key ⊢
  simp only [List.map_map, List.filter_map, Function.comp_def, key]
  exact List.map_congr_left fun definition _ => evolve_keeps bound tables _ _

/-- The columns that a foreign key points at when its turn comes. -/
theorem targets_known (statements : List Statement) (bound : List (String × Constraint))
    (table : PlainTable) (created : table.name ∈ createdNames statements) (target : Target) :
    targetsOf (bound.foldl bindTo (bareTables statements)) table target =
      if target.columns.isEmpty then knownKey statements bound target.table else target.columns := by
  unfold targetsOf
  refine if_congr Iff.rfl ?_ rfl
  simp only [keyOf, knownKey, bound_table]
  cases last : lastClauses? target.table statements with
  | none =>
      have other : ¬ table.name = target.table := fun same =>
        (last_clauses_none target.table statements).mp last (same ▸ created)
      simp [other]
  | some clauses => exact bound_key bound _ target.table clauses

theorem knownKey_sublist (statements : List Statement) (before after : List (String × Constraint))
    (table : String) :
    (knownKey statements before table).Sublist (knownKey statements (before ++ after) table) := by
  unfold knownKey
  split
  · exact List.Sublist.refl _
  · refine (List.monotone_filter_right _ fun definition known => ?_).map _
    rcases Bool.or_eq_true_iff.mp known with declared | bound
    · simp [declared]
    · simp [List.any_append, bound]

theorem knownKey_distinct (statements : List Statement) (bound : List (String × Constraint))
    (table : String) : (knownKey statements bound table).Nodup := by
  unfold knownKey
  split
  · exact List.nodup_nil
  case h_2 clauses _ =>
    exact (first_definitions_nodup [] clauses).sublist (List.filter_sublist.map _)

/-- A foreign key is paired with the columns it points at, if its turn comes when some constraints
are bound. -/
def Pairs (statements : List Statement) (bound : List (String × Constraint)) (columns : List String)
    (target : Target) : Prop :=
  (if target.columns.isEmpty then knownKey statements bound target.table
    else target.columns).length = columns.length

/-- Something other than the constraint at a place of the order gives a column its reference. -/
def PointsElsewhere (statements : List Statement) (place : Nat) (source name : String) : Prop :=
  (∃ clauses, lastClauses? source statements = some clauses ∧
    ∃ definition ∈ firstDefinitions [] clauses, definition.name = name ∧
      (Building.directReference? definition).isSome = true) ∨
  ∃ before columns target label after,
    bindOrder statements = before ++ (source, .foreignKey columns target label) :: after ∧
    before.length ≠ place ∧ name ∈ columns ∧ Pairs statements before columns target

theorem deferred_reference (statements : List Statement) (source : String) (clauses : List Clause)
    (last : lastClauses? source statements = some clauses) (definition : ColumnDefinition) :
    (evolve (bindOrder statements) (bareTables statements) (bareTable source clauses)
      (Building.columnOf definition)).reference.isSome = true ↔
    (Building.directReference? definition).isSome = true ∨ ∃ before columns target label after,
      bindOrder statements = before ++ (source, .foreignKey columns target label) :: after ∧
      definition.name ∈ columns ∧ Pairs statements before columns target := by
  have created : source ∈ createdNames statements := by
    by_contra absent
    rw [(last_clauses_none source statements).mpr absent] at last
    cases last
  rw [evolve_reference]
  apply or_congr Iff.rfl
  simp only [targets_known statements _ ((bareTable source clauses).mapColumns _) created]
  rfl

/-- A column of a foreign key has a reference if the foreign key is paired, or by other means. -/
theorem column_reference (statements : List Statement) (before after : List (String × Constraint))
    (source : String) (columns : List String) (target : Target) (label : Option String)
    (place : bindOrder statements =
      before ++ (source, .foreignKey columns target label) :: after)
    (table : PlainTable) (found : (link .deferred statements).1.table? source = some table)
    (column : PlainColumn) (present : table.column? column.name = some column)
    (member : column.name ∈ columns) :
    column.reference.isSome = true ↔
      Pairs statements before columns target ∨
        PointsElsewhere statements before.length source column.name := by
  rw [link_deferred, bound_table, Option.map_eq_some_iff] at found
  obtain ⟨clauses, last, rfl⟩ := found
  obtain ⟨bare, isBare, rfl⟩ := List.mem_map.mp (List.mem_of_find?_eq_some present)
  obtain ⟨definition, first, rfl⟩ := List.mem_map.mp isBare
  rw [evolve_keeps] at member ⊢
  rw [deferred_reference statements source clauses last]
  constructor
  · rintro (direct | ⟨before', columns', target', label', after', split, named, pairs⟩)
    · exact Or.inr (Or.inl ⟨clauses, last, definition, first, rfl, direct⟩)
    · by_cases here : before'.length = before.length
      · obtain ⟨rfl, same⟩ := List.append_inj (split.symm.trans place) here
        cases same
        exact Or.inl pairs
      · exact Or.inr (Or.inr ⟨before', columns', target', label', after', split, here, named, pairs⟩)
  · rintro (pairs | ⟨clauses', last', definition', first', named, direct⟩ |
      ⟨before', columns', target', label', after', split, _, named, pairs⟩)
    · exact Or.inr ⟨before, columns, target, label, after, place, member, pairs⟩
    · obtain rfl := Option.some.inj (last.symm.trans last')
      have same : definition' = definition :=
        List.inj_on_of_nodup_map (first_definitions_nodup [] clauses) first' first named
      exact Or.inl (same ▸ direct)
    · exact Or.inr ⟨before', columns', target', label', after', split, named, pairs⟩

/-- A foreign key that names no columns is paired if no column of the final primary key is still
unknown when its turn comes. -/
theorem pairs_iff_known (statements : List Statement) (before after : List (String × Constraint))
    (columns : List String) (target : Target) (opened : target.columns = [])
    (place : bindOrder statements = before ++ after) (goal : PlainTable)
    (aimed : (link .deferred statements).1.table? target.table = some goal)
    (fits : goal.primaryKeyColumns.length = columns.length) :
    Pairs statements before columns target ↔
      ∀ key ∈ goal.primaryKeyColumns, key.name ∈ knownKey statements before target.table := by
  have final : goal.primaryKeyColumns.map (·.name) =
      knownKey statements (before ++ after) target.table := by
    rw [link_deferred, bound_table, Option.map_eq_some_iff] at aimed
    obtain ⟨clauses, last, rfl⟩ := aimed
    rw [place, bound_key, knownKey, last]
  have part := knownKey_sublist statements before after target.table
  have size : (knownKey statements (before ++ after) target.table).length = columns.length := by
    rw [← final, List.length_map, fits]
  have names : (∀ key ∈ goal.primaryKeyColumns, key.name ∈ knownKey statements before target.table) ↔
      ∀ name ∈ knownKey statements (before ++ after) target.table,
        name ∈ knownKey statements before target.table := by
    simp [← final]
  rw [names, Pairs, opened, List.isEmpty_nil, if_pos rfl, ← size]
  constructor
  · intro same key member
    rwa [part.eq_of_length same]
  · intro known
    have most : (knownKey statements (before ++ after) target.table).length ≤
        (knownKey statements before target.table).length :=
      (List.subperm_of_subset (knownKey_distinct statements _ target.table) known).length_le
    exact Nat.le_antisymm part.length_le most

/-- A foreign key that names no columns, between tables and columns that are there in the end,
with as many columns as the final primary key has: it is kept if and only if every column of the
primary key was known when its turn came, or its columns get their references by other means. -/
theorem open_reference_kept (statements : List Statement)
    (before after : List (String × Constraint)) (source : String) (columns : List String)
    (target : Target) (label : Option String) (opened : target.columns = [])
    (place : bindOrder statements =
      before ++ (source, .foreignKey columns target label) :: after)
    (table goal : PlainTable) (found : (link .deferred statements).1.table? source = some table)
    (existing : ∀ name ∈ columns, (table.column? name).isSome = true)
    (aimed : (link .deferred statements).1.table? target.table = some goal)
    (fits : goal.primaryKeyColumns.length = columns.length) :
    (∀ name ∈ columns, ∃ column, table.column? name = some column ∧
      column.reference.isSome = true) ↔
    (∀ key ∈ goal.primaryKeyColumns, key.name ∈ knownKey statements before target.table) ∨
      ∀ name ∈ columns, PointsElsewhere statements before.length source name := by
  rw [← pairs_iff_known statements before _ columns target opened place goal aimed fits]
  have each : ∀ name ∈ columns, (∃ column, table.column? name = some column ∧
      column.reference.isSome = true) ↔ Pairs statements before columns target ∨
        PointsElsewhere statements before.length source name := by
    intro name member
    obtain ⟨column, present⟩ := Option.isSome_iff_exists.mp (existing name member)
    have named : column.name = name := by simpa using List.find?_some present
    subst named
    rw [← column_reference statements before after source columns target label place table found
      column present member]
    simp [present]
  constructor
  · intro kept
    by_cases pairs : Pairs statements before columns target
    · exact Or.inl pairs
    · exact Or.inr fun name member => ((each name member).mp (kept name member)).resolve_left pairs
  · intro reasons name member
    exact (each name member).mpr (reasons.imp_right fun elsewhere => elsewhere name member)

/-- A table that points at the key of a table, and then that table with a key clause. -/
def userBeforeRole : List Statement :=
  [.createTable "user" [.column ⟨"role_id", "INT", false, false, false, some ⟨"role", []⟩⟩] true,
    .createTable "role" [.column ⟨"id", "INT", false, false, false, none⟩,
      .constraint (.primaryKey ["id"] none)] true]

theorem user_reference_dropped :
    ∃ user role, (link .deferred userBeforeRole).1.table? "user" = some user ∧
      (link .deferred userBeforeRole).1.table? "role" = some role ∧
      role.primaryKeyColumns.length = 1 ∧ (user.column? "role_id").isSome = true ∧
      ¬ ∀ name ∈ ["role_id"], ∃ column, user.column? name = some column ∧
        column.reference.isSome = true := by
  refine ⟨_, _, rfl, rfl, rfl, rfl, fun kept => ?_⟩
  have reasons := (open_reference_kept userBeforeRole [] [("role", .primaryKey ["id"] none)]
    "user" ["role_id"] ⟨"role", []⟩ none rfl rfl _ _ rfl (by decide) rfl rfl).mp kept
  rcases reasons with known | elsewhere
  · exact absurd (known _ (List.mem_singleton_self _)) (by decide)
  · rcases elsewhere "role_id" (by decide) with ⟨clauses, last, definition, first, _, direct⟩ |
      ⟨before, columns, target, label, after, split, other, _⟩
    · cases last
      simp [firstDefinitions] at first
      simp [first, Building.directReference?] at direct
    · cases before with
      | nil => exact other rfl
      | cons item before =>
          cases before <;> simp [userBeforeRole, bindOrder, ownConstraints,
            Building.openReference?] at split

end TableScript.Link
