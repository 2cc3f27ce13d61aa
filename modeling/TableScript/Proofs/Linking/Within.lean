import TableScript.Proofs.Linking.Meaning
import TableScript.Proofs.Linking.Sequential

/-!
What sequential linking knows. A constraint that it has bound to a definition which is still there
in the end is one of those that deferred linking binds. So the two modes make the same tables with
the same columns, and every flag that sequential linking sets is set by deferred linking as well.
-/

namespace TableScript

/-- A column is another one with some of its flags. That a column is not nullable counts as a
flag of it, and its reference is left aside. -/
structure Column.Within (less more : PlainColumn) : Prop where
  name : less.name = more.name
  dataType : less.dataType = more.dataType
  primaryKey : less.primaryKey = true → more.primaryKey = true
  unique : less.unique = true → more.unique = true
  notNull : less.nullable = false → more.nullable = false

structure Table.Within (less more : PlainTable) : Prop where
  name : less.name = more.name
  columns : List.Forall₂ Column.Within less.columns more.columns

namespace Link

/-- Each flag of a column is one of the column as it was made, or comes from a constraint. -/
structure Backed (items : List (String × Constraint)) (table : String)
    (bare bound : PlainColumn) : Prop where
  name : bound.name = bare.name
  dataType : bound.dataType = bare.dataType
  primaryKey : bound.primaryKey = true → bare.primaryKey = true ∨ Keyed items table bare.name
  unique : bound.unique = true → bare.unique = true ∨ Single items table bare.name
  notNull : bound.nullable = false → bare.nullable = false ∨ Keyed items table bare.name

theorem backed_self (items : List (String × Constraint)) (table : String) (column : PlainColumn) :
    Backed items table column column :=
  ⟨rfl, rfl, Or.inl, Or.inl, Or.inl⟩

/-- More constraints on a table leave no flag without its reason. -/
theorem backed_more (items more : List (String × Constraint)) (table : String)
    (grows : ∀ constraint, (table, constraint) ∈ items → (table, constraint) ∈ more)
    (bare bound : PlainColumn) (backed : Backed items table bare bound) :
    Backed more table bare bound := by
  have keyed : Keyed items table bare.name → Keyed more table bare.name := by
    rintro ⟨columns, label, member, named⟩
    exact ⟨columns, label, grows _ member, named⟩
  have single : Single items table bare.name → Single more table bare.name := by
    rintro ⟨label, member⟩
    exact ⟨label, grows _ member⟩
  exact ⟨backed.name, backed.dataType, fun set => (backed.primaryKey set).imp_right keyed,
    fun set => (backed.unique set).imp_right single, fun set => (backed.notNull set).imp_right keyed⟩

theorem bound_backed (items : List (String × Constraint)) (known : List PlainTable)
    (table : PlainTable) (constraint : Constraint) (counts : (table.name, constraint) ∈ items)
    (bare bound : PlainColumn) (backed : Backed items table.name bare bound) :
    Backed items table.name bare (boundColumn known table constraint bound) := by
  have step := step_flagged known (table.name, constraint) table bound
  rw [stepColumn, if_pos rfl] at step
  obtain ⟨sameName, sameType, primaryKey, unique, nullable⟩ := step
  rw [backed.name] at primaryKey unique nullable
  have keyed : Keyed [(table.name, constraint)] table.name bare.name → Keyed items table.name bare.name := by
    rintro ⟨columns, label, member, named⟩
    exact ⟨columns, label, List.mem_singleton.mp member ▸ counts, named⟩
  have single : Single [(table.name, constraint)] table.name bare.name →
      Single items table.name bare.name := by
    rintro ⟨label, member⟩
    exact ⟨label, List.mem_singleton.mp member ▸ counts⟩
  refine ⟨sameName.trans backed.name, sameType.trans backed.dataType, ?_, ?_, ?_⟩
  · intro set
    exact (primaryKey.mp set).elim backed.primaryKey fun named => Or.inr (keyed named)
  · intro set
    exact (unique.mp set).elim backed.unique fun named => Or.inr (single named)
  · intro unset
    by_cases named : Keyed [(table.name, constraint)] table.name bare.name
    · exact Or.inr (keyed named)
    · cases before : bound.nullable with
      | true => exact absurd (nullable.mpr ⟨before, named⟩) (by simp [unset])
      | false => exact backed.notNull before

structure TableBacked (items : List (String × Constraint)) (bare bound : PlainTable) : Prop where
  name : bound.name = bare.name
  columns : List.Forall₂ (Backed items bare.name) bare.columns bound.columns

theorem table_backed_more (items more : List (String × Constraint)) (bare bound : PlainTable)
    (grows : ∀ constraint, (bare.name, constraint) ∈ items → (bare.name, constraint) ∈ more)
    (backed : TableBacked items bare bound) : TableBacked more bare bound :=
  ⟨backed.name, backed.columns.imp (backed_more items more bare.name grows)⟩

theorem bind_own_backed (items : List (String × Constraint)) (known : List PlainTable)
    (bare bound : PlainTable) (constraint : Constraint) (counts : (bare.name, constraint) ∈ items)
    (backed : TableBacked items bare bound) : TableBacked items bare (bindOwn known bound constraint) := by
  refine ⟨backed.name, List.forall₂_map_right_iff.mpr (backed.columns.imp fun column changed kept => ?_)⟩
  rw [← backed.name] at counts kept ⊢
  exact bound_backed items known bound constraint counts column changed kept

theorem bind_all_own_backed (items : List (String × Constraint)) (known : List PlainTable)
    (bare : PlainTable) (constraints : List Constraint)
    (count : ∀ constraint ∈ constraints, (bare.name, constraint) ∈ items) (bound : PlainTable)
    (backed : TableBacked items bare bound) :
    TableBacked items bare (constraints.foldl (bindOwn known) bound) := by
  induction constraints generalizing bound with
  | nil => exact backed
  | cons constraint rest ih =>
      obtain ⟨first, others⟩ := List.forall_mem_cons.mp count
      exact ih others _ (bind_own_backed items known bare bound constraint first backed)

theorem with_columns_backed (items : List (String × Constraint)) (bare bound : PlainTable)
    (columns : List PlainColumn) (backed : TableBacked items bare bound) :
    TableBacked items (withColumns bare columns) (withColumns bound columns) :=
  ⟨backed.name, List.rel_append backed.columns
    (List.forall₂_same.mpr fun column _ => backed_self items bare.name column)⟩

/-- A table grows by the columns that its clauses define, whatever is bound in between. -/
theorem grow_backed (items : List (String × Constraint)) (known : List PlainTable)
    (clauses : List Clause) (bare bound : PlainTable)
    (count : ∀ constraint ∈ ownConstraints (bound.columns.map (·.name)) clauses,
      (bare.name, constraint) ∈ items)
    (backed : TableBacked items bare bound) :
    TableBacked items
      (withColumns bare ((firstDefinitions (bound.columns.map (·.name)) clauses).map
        Building.columnOf))
      (clauses.foldl (growBy known) bound) := by
  induction clauses generalizing bare bound with
  | nil => simpa [firstDefinitions] using backed
  | cons clause rest ih =>
      rw [List.foldl_cons]
      cases clause with
      | column definition =>
          by_cases taken : definition.name ∈ bound.columns.map (·.name)
          · simp only [ownConstraints, firstDefinitions, if_pos taken, growBy] at count ⊢
            exact ih bare bound count backed
          · simp only [ownConstraints, firstDefinitions, if_neg taken, growBy, List.mem_append] at count ⊢
            have added := with_columns_backed items bare bound [Building.columnOf definition] backed
            have grown := bind_all_own_backed items known (withColumns bare _)
              (Building.openReference? definition).toList
              (fun constraint member => count constraint (Or.inl member)) _ added
            have names : ((Building.openReference? definition).toList.foldl (bindOwn known)
                (withColumns bound [Building.columnOf definition])).columns.map (·.name) =
                bound.columns.map (·.name) ++ [definition.name] := by
              rw [bind_all_own_columns]
              simp [withColumns, Building.columnOf]
            have later := ih _ _ (by rw [names]; exact fun constraint member => count constraint (Or.inr member)) grown
            rw [names] at later
            simpa [withColumns] using later
      | constraint constraint =>
          obtain ⟨first, others⟩ := List.forall_mem_cons.mp count
          have bound' := bind_own_backed items known bare bound constraint first backed
          have later := ih bare (bindOwn known bound constraint) (by rwa [bindOwn_columns]) bound'
          rwa [bindOwn_columns] at later
      | ignored clause => exact ih bare bound count backed

/-- The columns of a table have their reasons in the constraints among its own clauses. -/
theorem grown_backed (items : List (String × Constraint)) (known : List PlainTable) (name : String)
    (clauses : List Clause)
    (count : ∀ constraint ∈ ownConstraints [] clauses, (name, constraint) ∈ items) :
    TableBacked items (bareTable name clauses) (grownTable known name clauses) :=
  grow_backed items known clauses (.empty name) (.empty name) count ⟨rfl, .nil⟩

theorem backed_names (items : List (String × Constraint)) (bares bounds : List PlainTable)
    (backed : List.Forall₂ (TableBacked items) bares bounds) : tableNames bounds = tableNames bares := by
  induction backed with
  | nil => rfl
  | cons first _ ih => exact congrArg₂ List.cons first.name ih

theorem bind_to_backed (items : List (String × Constraint)) (item : String × Constraint)
    (counts : item ∈ items) (bares bounds : List PlainTable)
    (backed : List.Forall₂ (TableBacked items) bares bounds) :
    List.Forall₂ (TableBacked items) bares (bindTo bounds item) := by
  refine List.forall₂_map_right_iff.mpr (backed.imp fun bare bound kept => ?_)
  split
  case isTrue same =>
    exact bind_own_backed items bounds bare bound item.2 (kept.name ▸ same ▸ counts) kept
  case isFalse => exact kept

theorem bind_all_backed (items added : List (String × Constraint)) (count : ∀ item ∈ added, item ∈ items)
    (bares bounds : List PlainTable) (backed : List.Forall₂ (TableBacked items) bares bounds) :
    List.Forall₂ (TableBacked items) bares (added.foldl bindTo bounds) := by
  induction added generalizing bounds with
  | nil => exact backed
  | cons item rest ih =>
      obtain ⟨first, others⟩ := List.forall_mem_cons.mp count
      exact ih others _ (bind_to_backed items item first bares bounds backed)

/-- What counts for a table counts on unless the table is made again. -/
theorem bind_order_grows (before : List Statement) (statement : Statement) (table : String)
    (constraint : Constraint) (other : createdName? statement ≠ some table)
    (member : (table, constraint) ∈ bindOrder before) :
    (table, constraint) ∈ bindOrder (before ++ [statement]) := by
  have last : lastClauses? table (before ++ [statement]) = lastClauses? table before := by
    have absent : lastClauses? table [statement] = none := by
      rw [last_clauses_none]
      simp only [createdNames, List.mem_filterMap, List.mem_singleton]
      rintro ⟨_, rfl, made⟩
      exact other made
    rw [last_clauses_append, absent, Option.none_or]
  rw [mem_bindOrder, last]
  rcases (mem_bindOrder before table constraint).mp member with own | ⟨actions, altered, added⟩
  · exact Or.inl own
  · exact Or.inr ⟨actions, List.mem_append_left _ altered, added⟩

theorem backed_other (before : List Statement) (statement : Statement)
    (other : createdName? statement = none) (bares bounds : List PlainTable)
    (backed : List.Forall₂ (TableBacked (bindOrder before)) bares bounds) :
    List.Forall₂ (TableBacked (bindOrder (before ++ [statement]))) bares bounds :=
  backed.imp fun bare bound => table_backed_more _ _ bare bound fun constraint =>
    bind_order_grows before statement bare.name constraint (by simp [other])

theorem bare_tables_put (before : List Statement) (name : String) (clauses : List Clause)
    (hasBody : Bool) :
    bareTables (before ++ [.createTable name clauses hasBody]) =
      putTable (bareTable name clauses) (bareTables before) := by
  rw [bare_tables_create, putTable, bare_table_names]
  simp only [List.mem_eraseDups]
  rfl

theorem put_backed (items more : List (String × Constraint)) (bare made : PlainTable)
    (new : TableBacked more bare made)
    (grows : ∀ table constraint, table ≠ bare.name → (table, constraint) ∈ items →
      (table, constraint) ∈ more)
    (bares bounds : List PlainTable) (backed : List.Forall₂ (TableBacked items) bares bounds) :
    List.Forall₂ (TableBacked more) (putTable bare bares) (putTable made bounds) := by
  have names := backed_names items bares bounds backed
  have kept : ∀ old bound, old.name ≠ bare.name → TableBacked items old bound →
      TableBacked more old bound := fun old bound apart =>
    table_backed_more items more old bound fun constraint => grows old.name constraint apart
  rw [putTable, putTable, names, new.name]
  split
  case isTrue present =>
    rw [List.forall₂_map_left_iff, List.forall₂_map_right_iff]
    refine backed.imp fun old bound reason => ?_
    rw [reason.name]
    split
    case isTrue same => exact new
    case isFalse other => exact kept old bound other reason
  case isFalse absent =>
    have apart : ∀ old ∈ bares, old.name ≠ bare.name := fun old member same =>
      absent (same ▸ List.mem_map_of_mem member)
    have others := (List.forall₂_and_left bares bounds).mpr ⟨apart, backed⟩
    exact List.rel_append (others.imp fun old bound both => kept old bound both.1 both.2) (.cons new .nil)

/-- Every flag of a table that sequential linking makes is there from the start or comes from a
constraint that counts in the end. -/
theorem sequential_backed (statements : List Statement) :
    List.Forall₂ (TableBacked (bindOrder statements)) (bareTables statements)
      (sequentialTables statements) := by
  induction statements using List.reverseRecOn with
  | nil => exact .nil
  | append_singleton before statement ih =>
      rw [sequential_append]
      cases statement with
      | createTable name clauses hasBody =>
          have own : ∀ constraint ∈ ownConstraints [] clauses,
              (name, constraint) ∈ bindOrder (before ++ [.createTable name clauses hasBody]) := by
            intro constraint member
            rw [mem_bindOrder, last_clauses_here before [] name clauses hasBody List.not_mem_nil]
            exact Or.inl ⟨clauses, rfl, member⟩
          rw [bare_tables_put]
          refine put_backed (bindOrder before) _ _ _ (grown_backed _ _ name clauses own) ?_ _ _ ih
          intro table constraint apart
          exact bind_order_grows before _ table constraint (fun same => apart (Option.some.inj same).symm)
      | alterTable table actions =>
          rw [bare_tables_other before _ rfl]
          refine bind_all_backed _ (addedTo table actions) ?_ _ _ (backed_other before _ rfl _ _ ih)
          intro item member
          obtain ⟨constraint, added, rfl⟩ := List.mem_map.mp member
          rw [mem_bindOrder]
          exact Or.inr ⟨actions, by simp, (mem_added actions constraint).mp added⟩
      | ignored statement =>
          rw [bare_tables_other before _ rfl]
          exact backed_other before _ rfl _ _ ih

/-- A flag with a reason is set where every constraint is bound. -/
theorem backed_within (items : List (String × Constraint)) (tables : List PlainTable)
    (bare bound : PlainTable) (backed : TableBacked items bare bound) :
    bound.Within (bare.mapColumns (evolve items tables bare)) := by
  refine ⟨backed.name, List.forall₂_map_right_iff.mpr (backed.columns.flip.imp ?_)⟩
  intro less column reason
  have flagged := evolve_flagged items tables bare column
  refine ⟨reason.name.trans flagged.name.symm, reason.dataType.trans flagged.dataType.symm, ?_, ?_, ?_⟩
  · exact fun set => flagged.primaryKey.mpr (reason.primaryKey set)
  · exact fun set => flagged.unique.mpr (reason.unique set)
  · intro unset
    rw [← Bool.not_eq_true, flagged.nullable]
    rintro ⟨nullable, unkeyed⟩
    rcases reason.notNull unset with made | keyed
    · simp [nullable] at made
    · exact unkeyed keyed

/-- Sequential linking makes the tables of deferred linking, and knows no more of their columns. -/
theorem sequential_within_deferred (statements : List Statement) :
    List.Forall₂ Table.Within (link .sequential statements).1.tables
      (link .deferred statements).1.tables := by
  rw [link_sequential, link_deferred, bind_all_eq_map]
  refine List.forall₂_map_right_iff.mpr ?_
  exact (sequential_backed statements).flip.imp fun bound bare backed => backed_within _ _ bare bound backed

end Link

end TableScript
