import TableScript.Proofs.Linking.OpenReference
import TableScript.Proofs.Linking.Touched

/-!
Tables that are made without a record. Nothing that a clause or a constraint has given to a column
is taken away by later ones, so what is there of a table lasts while it is being made. What a
clause does not give is put on record, so where there is none, every clause is carried out: its
column is there, and its constraint holds of the table or waits.
-/

namespace TableScript

/-- A column lasts in a later one that has all of its flags, and a reference if it had one. -/
structure Column.Lasts (before after : PlainColumn) : Prop where
  within : before.Within after
  pointing : before.reference.isSome = true → after.reference.isSome = true

theorem Column.Lasts.refl (column : PlainColumn) : column.Lasts column :=
  ⟨Link.within_self column, id⟩

theorem Column.Lasts.trans {first second third : PlainColumn} (one : first.Lasts second)
    (two : second.Lasts third) : first.Lasts third :=
  ⟨⟨one.within.name.trans two.within.name, one.within.dataType.trans two.within.dataType,
    two.within.primaryKey ∘ one.within.primaryKey, two.within.unique ∘ one.within.unique,
    two.within.notNull ∘ one.within.notNull⟩, two.pointing ∘ one.pointing⟩

/-- Every column that can be looked up in a table lasts in the later table. -/
structure Table.Lasts (before after : PlainTable) : Prop where
  name : after.name = before.name
  columns : ∀ name column, before.column? name = some column →
    ∃ later, after.column? name = some later ∧ column.Lasts later

theorem Table.Lasts.refl (table : PlainTable) : table.Lasts table :=
  ⟨rfl, fun _ column found => ⟨column, found, Column.Lasts.refl column⟩⟩

theorem Table.Lasts.trans {first second third : PlainTable} (one : first.Lasts second)
    (two : second.Lasts third) : first.Lasts third := by
  refine ⟨two.name.trans one.name, fun name column found => ?_⟩
  obtain ⟨later, there, lasts⟩ := one.columns name column found
  obtain ⟨last, still, lasts'⟩ := two.columns name later there
  exact ⟨last, still, lasts.trans lasts'⟩

namespace Link

theorem column_mapColumns (change : PlainColumn → PlainColumn) (keeps : Table.KeepsNames change)
    (table : PlainTable) (name : String) :
    (table.mapColumns change).column? name = (table.column? name).map change := by
  simp only [Table.column?, Table.mapColumns, List.find?_map, Function.comp_def, keeps _]

theorem bound_lasts (known : List PlainTable) (table : PlainTable) (constraint : Constraint)
    (column : PlainColumn) : column.Lasts (boundColumn known table constraint column) := by
  refine ⟨(bound_touched known table constraint column).within, fun pointing => ?_⟩
  have stepped := step_reference known (table.name, constraint) table column
  rw [stepColumn, if_pos rfl] at stepped
  exact stepped.mpr (Or.inl pointing)

theorem bind_lasts (known : List PlainTable) (table : PlainTable) (written : String)
    (constraint : Constraint) (distinct : table.Distinct) :
    table.Lasts (bind known table written constraint).1 := by
  rw [bind_eq_map known table written constraint distinct]
  refine ⟨rfl, fun name column found => ⟨_, ?_, bound_lasts known table constraint column⟩⟩
  rw [column_mapColumns _ (bound_keeps_names known table constraint), found, Option.map_some]

def Has (table : PlainTable) (name : String) (property : PlainColumn → Prop) : Prop :=
  ∃ column, table.column? name = some column ∧ property column

theorem has_lasts {before after : PlainTable} (lasts : before.Lasts after) (name : String)
    {property later : PlainColumn → Prop} (has : Has before name property)
    (kept : ∀ column column', column.Lasts column' → property column → later column') :
    Has after name later := by
  obtain ⟨column, found, holds⟩ := has
  obtain ⟨column', there, lasts'⟩ := lasts.columns name column found
  exact ⟨column', there, kept column column' lasts' holds⟩

/-- A constraint holds of the columns that it names, and each of them is there. -/
def Holds (table : PlainTable) : Constraint → Prop
  | .primaryKey columns _ => ∀ name ∈ columns,
      Has table name fun column => column.primaryKey = true ∧ column.nullable = false
  | .unique columns _ => ∃ name, columns = [name] ∧ Has table name fun column => column.unique = true
  | .foreignKey columns _ _ => ∀ name ∈ columns,
      Has table name fun column => column.reference.isSome = true

theorem holds_lasts {before after : PlainTable} (lasts : before.Lasts after)
    (constraint : Constraint) (holds : Holds before constraint) : Holds after constraint := by
  cases constraint with
  | primaryKey columns label =>
      exact fun name member => has_lasts lasts name (holds name member) fun _ _ kept =>
        And.imp kept.within.primaryKey kept.within.notNull
  | unique columns label =>
      obtain ⟨name, alone, has⟩ := holds
      exact ⟨name, alone, has_lasts lasts name has fun _ _ kept => kept.within.unique⟩
  | foreignKey columns target label =>
      exact fun name member => has_lasts lasts name (holds name member) fun _ _ kept => kept.pointing

theorem point_pairs_missing (target : String) (table : PlainTable) (distinct : table.Distinct)
    (pairs : List (String × String)) :
    (pointPairs target table pairs).2 =
      (pairs.map Prod.fst).filter fun name => (table.column? name).isNone := by
  induction pairs generalizing table with
  | nil => rfl
  | cons pair pairs ih =>
      obtain ⟨name, column⟩ := pair
      cases found : table.column? name with
      | none => simp [pointPairs, found, ih table distinct]
      | some _ =>
          have kept := Table.onNamed_keeps name (pointingAt target column) fun _ => rfl
          have changed := table.changeColumn_eq_map name (pointingAt target column) distinct
          simp only [pointPairs, found, changed, ih _ (Table.distinct_mapColumns _ kept table distinct)]
          simp [found, column_mapColumns _ kept]

theorem none_missing (table : PlainTable) (names : List String)
    (quiet : names.filter (fun name => (table.column? name).isNone) = []) (name : String)
    (member : name ∈ names) : ∃ column, table.column? name = some column := by
  have there := List.filter_eq_nil_iff.mp quiet name member
  exact Option.ne_none_iff_exists'.mp fun absent => there (by rw [absent]; rfl)

/-- A column that is there and that binding gives a property. -/
theorem has_bound (known : List PlainTable) (table : PlainTable) (constraint : Constraint)
    (name : String) (there : ∃ column, table.column? name = some column)
    (property : PlainColumn → Prop) (bound : ∀ column : PlainColumn, column.name = name →
      property (boundColumn known table constraint column)) :
    Has (table.mapColumns (boundColumn known table constraint)) name property := by
  obtain ⟨column, found⟩ := there
  have named : column.name = name := by simpa using List.find?_some found
  refine ⟨_, ?_, bound column named⟩
  rw [column_mapColumns _ (bound_keeps_names known table constraint), found, Option.map_some]

theorem quiet_bind (known : List PlainTable) (table : PlainTable) (written : String)
    (constraint : Constraint) (distinct : table.Distinct)
    (quiet : (bind known table written constraint).2 = []) :
    Holds (bind known table written constraint).1 constraint := by
  rw [bind_eq_map known table written constraint distinct]
  cases constraint with
  | primaryKey columns label =>
      simp only [bind, change_named_eq_map asKey (fun _ => rfl) (fun _ => rfl) table distinct,
        List.map_eq_nil_iff] at quiet
      intro name listed
      refine has_bound known table _ name (none_missing table columns quiet name listed) _ ?_
      rintro column rfl
      rw [boundColumn, if_pos listed]
      exact ⟨rfl, rfl⟩
  | unique columns label =>
      rw [bind] at quiet
      split at quiet
      case isFalse => cases quiet
      case isTrue single =>
        obtain ⟨name, rfl⟩ := List.length_eq_one_iff.mp single
        simp only [change_named_eq_map asUnique (fun _ => rfl) (fun _ => rfl) table distinct,
          List.map_eq_nil_iff] at quiet
        have there := none_missing table [name] quiet name (List.mem_singleton_self name)
        refine ⟨name, rfl, has_bound known table _ name there _ ?_⟩
        rintro column rfl
        rw [boundColumn, if_pos rfl]
        rfl
  | foreignKey columns target label =>
      by_cases paired : (targetsOf known table target).length = columns.length
      case neg =>
        have unpaired := paired
        rw [targetsOf] at unpaired
        simp only [bind, if_neg unpaired] at quiet
        cases quiet
      case pos =>
        have fits := paired
        rw [targetsOf] at fits
        simp only [bind, if_pos fits, List.map_eq_nil_iff,
          point_pairs_missing target.table table distinct,
          List.map_fst_zip (Nat.le_of_eq fits.symm)] at quiet
        intro name listed
        refine has_bound known table _ name (none_missing table columns quiet name listed) _ ?_
        rintro column rfl
        have stepped := step_reference known (table.name, .foreignKey columns target label) table column
        rw [stepColumn, if_pos rfl] at stepped
        exact stepped.mpr (Or.inr ⟨columns, target, label, rfl, listed, paired⟩)

/-- A clause is carried out in a table, where `done` says which constraints are. -/
def Carried (table : PlainTable) (done : Constraint → Prop) : Clause → Prop
  | .column definition =>
      Has table definition.name (fun column => column.dataType = definition.dataType ∧
        ((Building.directReference? definition).isSome = true → column.reference.isSome = true)) ∧
      ∀ constraint, Building.openReference? definition = some constraint → done constraint
  | .constraint constraint => done constraint
  | .ignored _ => False

theorem carried_lasts {before after : PlainTable} (lasts : before.Lasts after)
    {done later : Constraint → Prop} (grows : ∀ constraint, done constraint → later constraint)
    (clause : Clause) (carried : Carried before done clause) : Carried after later clause := by
  cases clause with
  | column definition =>
      refine ⟨?_, fun constraint opened => grows constraint (carried.2 constraint opened)⟩
      refine has_lasts lasts definition.name carried.1 fun column column' kept made => ?_
      exact ⟨kept.within.dataType.symm.trans made.1, kept.pointing ∘ made.2⟩
  | constraint constraint => exact grows constraint carried
  | ignored clause => exact carried

namespace Building

/-- What is there of a table that is being made lasts, and a record does so too. -/
structure Lasts (before after : Building) : Prop where
  table : before.table.Lasts after.table
  distinct : before.table.Distinct → after.table.Distinct
  pending : ∀ waiting ∈ before.pending, waiting ∈ after.pending
  quiet : after.journal = [] → before.journal = []

theorem Lasts.refl (building : Building) : building.Lasts building :=
  ⟨Table.Lasts.refl _, id, fun _ => id, id⟩

theorem Lasts.trans {first second third : Building} (one : first.Lasts second)
    (two : second.Lasts third) : first.Lasts third :=
  ⟨one.table.trans two.table, two.distinct ∘ one.distinct,
    fun waiting member => two.pending waiting (one.pending waiting member), one.quiet ∘ two.quiet⟩

theorem note_lasts (building : Building) (records : List Journal.Record) :
    building.Lasts (building.note records) :=
  ⟨Table.Lasts.refl _, id, fun _ => id, fun quiet => (List.append_eq_nil_iff.mp quiet).1⟩

/-- A constraint of a table that is being made holds, or it waits. -/
def Accounted (number : Nat) (building : Building) (constraint : Constraint) : Prop :=
  Holds building.table constraint ∨
    ⟨some number, building.table.name, constraint⟩ ∈ building.pending

theorem accounted_lasts (number : Nat) {before after : Building} (lasts : before.Lasts after)
    (constraint : Constraint) (accounted : before.Accounted number constraint) :
    after.Accounted number constraint := by
  refine accounted.imp (holds_lasts lasts.table constraint) fun waits => ?_
  rw [lasts.table.name]
  exact lasts.pending _ waits

variable (mode : Resolution) (known : List PlainTable) (number : Nat) (building : Building)
  (distinct : building.table.Distinct)

include distinct

theorem place_lasts (constraint : Constraint) :
    building.Lasts (building.place mode known number constraint) := by
  cases mode with
  | deferred =>
      exact ⟨Table.Lasts.refl _, id, fun _ => List.mem_append_left _, id⟩
  | sequential =>
      refine ⟨bind_lasts known building.table _ constraint distinct, fun _ => ?_, fun _ => id,
        fun quiet => (List.append_eq_nil_iff.mp quiet).1⟩
      have bound := bind_eq_map known building.table building.table.name constraint distinct
      change (bind known building.table building.table.name constraint).1.Distinct
      rw [bound]
      exact Table.distinct_mapColumns _ (bound_keeps_names known _ constraint) _ distinct

theorem place_accounted (constraint : Constraint)
    (quiet : (building.place mode known number constraint).journal = []) :
    (building.place mode known number constraint).Accounted number constraint := by
  cases mode with
  | deferred => exact Or.inr (List.mem_append_right _ (List.mem_singleton_self _))
  | sequential =>
      exact Or.inl (quiet_bind known building.table _ constraint distinct
        (List.append_eq_nil_iff.mp quiet).2)

theorem column_lasts (definition : ColumnDefinition)
    (fresh : building.table.column? definition.name = none) :
    building.Lasts (building.withColumn definition) := by
  refine ⟨⟨rfl, fun name column found => ⟨column, ?_, Column.Lasts.refl column⟩⟩, fun _ => ?_,
    fun _ => id, id⟩
  · rw [Table.column?] at found
    rw [withColumn, Table.column?, List.find?_append, found, Option.some_or]
  · exact withColumn_distinct building.table definition distinct
      ((building.table.column_eq_none definition.name).mp fresh)

omit distinct in
theorem column_made (definition : ColumnDefinition)
    (fresh : building.table.column? definition.name = none) :
    (building.withColumn definition).table.column? definition.name = some (columnOf definition) := by
  rw [Table.column?] at fresh
  rw [withColumn, Table.column?, List.find?_append, fresh, Option.none_or]
  simp [columnOf]

omit distinct in
theorem addColumn_fresh (definition : ColumnDefinition)
    (fresh : building.table.column? definition.name = none) :
    building.addColumn mode known number definition =
      match openReference? definition with
      | some constraint => (building.withColumn definition).place mode known number constraint
      | none => building.withColumn definition := by
  simp only [addColumn, fresh]
  rfl

omit distinct in
theorem addColumn_quiet (definition : ColumnDefinition)
    (quiet : (building.addColumn mode known number definition).journal = []) :
    building.table.column? definition.name = none := by
  by_contra there
  obtain ⟨column, found⟩ := Option.ne_none_iff_exists'.mp there
  rw [addColumn, found] at quiet
  cases (List.append_eq_nil_iff.mp quiet).2

theorem addColumn_lasts (definition : ColumnDefinition) :
    building.Lasts (building.addColumn mode known number definition) := by
  cases found : building.table.column? definition.name with
  | some column =>
      rw [addColumn, found]
      exact note_lasts building _
  | none =>
      have made := column_lasts building distinct definition found
      rw [addColumn_fresh mode known number building definition found]
      split
      · exact made.trans (place_lasts mode known number _ (made.distinct distinct) _)
      · exact made

theorem addColumn_carried (definition : ColumnDefinition)
    (quiet : (building.addColumn mode known number definition).journal = []) :
    Carried (building.addColumn mode known number definition).table
      ((building.addColumn mode known number definition).Accounted number) (.column definition) := by
  have fresh := addColumn_quiet mode known number building definition quiet
  have here := column_made building definition fresh
  have distinct' := (column_lasts building distinct definition fresh).distinct distinct
  rw [addColumn_fresh mode known number building definition fresh] at quiet ⊢
  cases opened : openReference? definition with
  | none =>
      refine ⟨⟨_, here, rfl, id⟩, fun constraint other => ?_⟩
      rw [opened] at other
      cases other
  | some constraint =>
      simp only [opened] at quiet ⊢
      have lasts := place_lasts mode known number _ distinct' constraint
      refine ⟨?_, fun other same => ?_⟩
      · refine has_lasts lasts.table definition.name ⟨_, here, rfl⟩ fun column column' kept same => ?_
        subst same
        exact ⟨kept.within.dataType.symm, kept.pointing⟩
      · rw [opened] at same
        obtain rfl := Option.some.inj same
        exact place_accounted mode known number _ distinct' constraint quiet

theorem clause_lasts (clause : Clause) :
    building.Lasts (building.addClause mode known number clause) := by
  cases clause with
  | column definition => exact addColumn_lasts mode known number building distinct definition
  | constraint constraint => exact place_lasts mode known number building distinct constraint
  | ignored clause => exact note_lasts building _

theorem clause_carried (clause : Clause)
    (quiet : (building.addClause mode known number clause).journal = []) :
    Carried (building.addClause mode known number clause).table
      ((building.addClause mode known number clause).Accounted number) clause := by
  cases clause with
  | column definition => exact addColumn_carried mode known number building distinct definition quiet
  | constraint constraint => exact place_accounted mode known number building distinct constraint quiet
  | ignored clause => cases (List.append_eq_nil_iff.mp quiet).2

theorem clauses_lasts (clauses : List Clause) :
    building.Lasts (clauses.foldl (addClause mode known number) building) := by
  induction clauses generalizing building with
  | nil => exact Lasts.refl building
  | cons clause rest ih =>
      have first := clause_lasts mode known number building distinct clause
      exact first.trans (ih _ (first.distinct distinct))

theorem clauses_carried (clauses : List Clause)
    (quiet : (clauses.foldl (addClause mode known number) building).journal = []) :
    ∀ clause ∈ clauses, Carried (clauses.foldl (addClause mode known number) building).table
      ((clauses.foldl (addClause mode known number) building).Accounted number) clause := by
  induction clauses generalizing building with
  | nil => exact fun clause member => absurd member List.not_mem_nil
  | cons clause rest ih =>
      have distinct' := (clause_lasts mode known number building distinct clause).distinct distinct
      have later := clauses_lasts mode known number _ distinct' rest
      refine List.forall_mem_cons.mpr ⟨?_, ih _ distinct' quiet⟩
      exact carried_lasts later.table (accounted_lasts number later) clause
        (clause_carried mode known number building distinct clause (later.quiet quiet))

/-- Without a record every definition makes a column of its own. -/
theorem definitions_fresh (clauses : List Clause)
    (quiet : (clauses.foldl (addClause mode known number) building).journal = []) :
    ((clauses.filterMap definition?).map (·.name)).Nodup ∧
    ∀ definition ∈ clauses.filterMap definition?,
      building.table.column? definition.name = none := by
  induction clauses generalizing building with
  | nil => exact ⟨List.nodup_nil, fun _ member => absurd member List.not_mem_nil⟩
  | cons clause rest ih =>
      have first := clause_lasts mode known number building distinct clause
      have later := clauses_lasts mode known number _ (first.distinct distinct) rest
      obtain ⟨nodup, fresh⟩ := ih _ (first.distinct distinct) quiet
      have before : ∀ definition ∈ rest.filterMap definition?,
          building.table.column? definition.name = none := by
        intro definition member
        by_contra there
        obtain ⟨column, found⟩ := Option.ne_none_iff_exists'.mp there
        obtain ⟨column', found', _⟩ := first.table.columns _ _ found
        rw [fresh definition member] at found'
        cases found'
      cases clause with
      | constraint constraint => exact ⟨nodup, before⟩
      | ignored clause => exact ⟨nodup, before⟩
      | column definition =>
          have carried := clause_carried mode known number building distinct (.column definition)
            (later.quiet quiet)
          obtain ⟨⟨column, made, _⟩, _⟩ := carried
          have free := addColumn_quiet mode known number building definition (later.quiet quiet)
          change (definition.name :: (rest.filterMap definition?).map (·.name)).Nodup ∧
            ∀ other ∈ definition :: rest.filterMap definition?, building.table.column? other.name = none
          refine ⟨List.nodup_cons.mpr ⟨fun again => ?_, nodup⟩, List.forall_mem_cons.mpr ⟨free, before⟩⟩
          obtain ⟨other, member, same⟩ := List.mem_map.mp again
          have absent := fresh other member
          rw [show other.name = definition.name from same, made] at absent
          cases absent

end Building

end Link

end TableScript
