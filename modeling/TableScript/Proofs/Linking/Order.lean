import TableScript.Proofs.Linking.Deferred
import TableScript.Proofs.Linking.Evolution
import Mathlib.Data.List.Pairwise
import Mathlib.Data.List.Perm.Basic
import Mathlib.Data.List.Forall2

/-!
When the order of declarations does not matter. Deferred linking binds constraints one after the
other, so it does not depend on their order where any two of them commute: where every foreign key
names the columns it points at, and no column has two foreign keys.
-/

namespace TableScript.Link

def constraintTargets : Constraint → List Target
  | .foreignKey _ target _ => [target]
  | _ => []

/-- The columns that a constraint gives a reference. -/
def sources : Constraint → List String
  | .foreignKey columns _ _ => columns
  | _ => []

def clauseTargets : Clause → List Target
  | .column definition => definition.reference.toList
  | .constraint constraint => constraintTargets constraint
  | .ignored _ => []

def clauseSources : Clause → List String
  | .column definition => definition.reference.toList.map fun _ => definition.name
  | .constraint constraint => sources constraint
  | .ignored _ => []

def clausesOf : Statement → List Clause
  | .createTable _ clauses _ => clauses
  | .alterTable _ actions => actions.map Action.toClause
  | .ignored _ => []

def tableOf? : Statement → Option String
  | .createTable name _ _ => some name
  | .alterTable table _ => some table
  | .ignored _ => none

/-- The clauses that are about a table, from all the statements. -/
def clausesOn (table : String) (statements : List Statement) : List Clause :=
  (statements.filter fun statement => tableOf? statement = some table).flatMap clausesOf

/-- Every foreign key in some clauses names the columns it points at. -/
def AllExplicit (clauses : List Clause) : Prop :=
  ∀ clause ∈ clauses, ∀ target ∈ clauseTargets clause, target.columns ≠ []

/-- Statements in which constraints commute: no table is made twice, every foreign key names the
columns it points at, and the foreign keys on one table name each column at most once. -/
structure OrderFree (statements : List Statement) : Prop where
  once : (createdNames statements).Nodup
  explicit : AllExplicit (statements.flatMap clausesOf)
  apart : ∀ table, ((clausesOn table statements).flatMap clauseSources).Nodup

def definition? : Clause → Option ColumnDefinition
  | .column definition => some definition
  | _ => none

/-- The same statement, up to the places of the clauses of a table among which the columns keep
their order. -/
inductive Relocated : Statement → Statement → Prop where
  | createTable (name : String) (hasBody : Bool) {clauses moved : List Clause}
      (permuted : clauses.Perm moved)
      (columns : clauses.filterMap definition? = moved.filterMap definition?) :
      Relocated (.createTable name clauses hasBody) (.createTable name moved hasBody)
  | alterTable (table : String) (actions : List Action) :
      Relocated (.alterTable table actions) (.alterTable table actions)
  | ignored (statement : Ignored) : Relocated (.ignored statement) (.ignored statement)

def Rearranged (statements rearranged : List Statement) : Prop :=
  ∃ permuted, statements.Perm permuted ∧ List.Forall₂ Relocated permuted rearranged

def Explicit (constraint : Constraint) : Prop :=
  ∀ target ∈ constraintTargets constraint, target.columns ≠ []

/-- What an explicit constraint does to a column, whatever tables there are. -/
def settle (table : String) (column : PlainColumn) (item : String × Constraint) : PlainColumn :=
  if table = item.1 then boundColumn [] (.empty table) item.2 column else column

theorem bound_explicit (known : List PlainTable) (table other : PlainTable) (constraint : Constraint)
    (explicit : Explicit constraint) (column : PlainColumn) :
    boundColumn known table constraint column = boundColumn [] other constraint column := by
  cases constraint with
  | primaryKey columns label => rfl
  | unique columns label => rfl
  | foreignKey columns target label =>
      have named : target.columns ≠ [] := explicit target (by simp [constraintTargets])
      have same : ∀ known table, targetsOf known table target = target.columns := by
        intro known table
        simp [targetsOf, named]
      simp [boundColumn, same]

theorem evolve_explicit (items : List (String × Constraint))
    (explicit : ∀ item ∈ items, Explicit item.2) (tables : List PlainTable) (table : PlainTable)
    (column : PlainColumn) :
    evolve items tables table column = items.foldl (settle table.name) column := by
  induction items generalizing tables table column with
  | nil => rfl
  | cons item rest ih =>
      obtain ⟨first, others⟩ := List.forall_mem_cons.mp explicit
      rw [evolve, ih others, List.foldl_cons, stepTable, Table.mapColumns_name]
      congr 1
      simp only [stepColumn, settle, bound_explicit tables table (.empty table.name) item.2 first]

theorem settle_name (table : String) (column : PlainColumn) (item : String × Constraint) :
    (settle table column item).name = column.name := by
  unfold settle
  split
  · exact bound_keeps_names _ _ item.2 column
  · rfl

/-- What is added to a column: that it is a key, that it is unique, a reference. -/
structure Addition where
  key : Bool
  unique : Bool
  reference : Option (Reference String)

namespace Addition

def nothing : Addition := ⟨false, false, none⟩

def addTo (addition : Addition) (column : PlainColumn) : PlainColumn :=
  { column with
    primaryKey := column.primaryKey || addition.key
    nullable := column.nullable && !addition.key
    unique := column.unique || addition.unique
    reference := addition.reference.or column.reference }

theorem nothing_addTo (column : PlainColumn) : nothing.addTo column = column := by
  simp [nothing, addTo]

theorem commutes (first second : Addition) (column : PlainColumn)
    (apart : first.reference = none ∨ second.reference = none) :
    second.addTo (first.addTo column) = first.addTo (second.addTo column) := by
  have references : second.reference.or (first.reference.or column.reference) =
      first.reference.or (second.reference.or column.reference) := by
    rcases apart with none | none <;> simp [none]
  simp only [addTo, references, Bool.or_right_comm, Bool.and_right_comm]

end Addition

/-- What an explicit constraint adds to the columns with a name. -/
def additionOf (constraint : Constraint) (name : String) : Addition :=
  match constraint with
  | .primaryKey columns _ => ⟨decide (name ∈ columns), false, none⟩
  | .unique columns _ => ⟨false, decide (columns = [name]), none⟩
  | .foreignKey columns target _ =>
      let found := if target.columns.length = columns.length then
          lastTarget? name (columns.zip target.columns)
        else none
      ⟨false, false, found.map fun column => ⟨target.table, column⟩⟩

theorem bound_addition (other : PlainTable) (constraint : Constraint)
    (explicit : Explicit constraint) (column : PlainColumn) :
    boundColumn [] other constraint column = (additionOf constraint column.name).addTo column := by
  cases constraint with
  | primaryKey columns label =>
      by_cases member : column.name ∈ columns <;>
        simp [boundColumn, additionOf, Addition.addTo, asKey, member]
  | unique columns label =>
      by_cases alone : columns = [column.name] <;>
        simp [boundColumn, additionOf, Addition.addTo, asUnique, alone]
  | foreignKey columns target label =>
      have named : target.columns ≠ [] := explicit target (by simp [constraintTargets])
      have same : targetsOf [] other target = target.columns := by simp [targetsOf, named]
      by_cases paired : target.columns.length = columns.length
      · cases found : lastTarget? column.name (columns.zip target.columns) <;>
          simp [boundColumn, additionOf, Addition.addTo, same, paired, repoint, pointingAt, found]
      · simp [boundColumn, additionOf, Addition.addTo, same, paired]

theorem lastTarget_none (name : String) (pairs : List (String × String))
    (absent : name ∉ pairs.map Prod.fst) : lastTarget? name pairs = none := by
  induction pairs with
  | nil => rfl
  | cons pair rest ih =>
      obtain ⟨source, target⟩ := pair
      simp only [List.map_cons, List.mem_cons, not_or] at absent
      simp [lastTarget?, ih absent.2, Ne.symm absent.1]

theorem addition_reference (constraint : Constraint) (name : String)
    (other : name ∉ sources constraint) : (additionOf constraint name).reference = none := by
  cases constraint with
  | primaryKey columns label => rfl
  | unique columns label => rfl
  | foreignKey columns target label =>
      have absent : name ∉ (columns.zip target.columns).map Prod.fst := by
        intro member
        obtain ⟨pair, inside, rfl⟩ := List.mem_map.mp member
        exact other (List.of_mem_zip inside).1
      simp [additionOf, lastTarget_none name _ absent]

theorem settle_addition (table : String) (column : PlainColumn) (item : String × Constraint)
    (explicit : Explicit item.2) :
    settle table column item =
      (if table = item.1 then additionOf item.2 column.name else .nothing).addTo column := by
  unfold settle
  split
  · exact bound_addition _ item.2 explicit column
  · exact (Addition.nothing_addTo column).symm

/-- Two constraints commute on a column unless both give it a reference. -/
theorem settle_commutes (table : String) (column : PlainColumn) (first second : String × Constraint)
    (explicitFirst : Explicit first.2) (explicitSecond : Explicit second.2)
    (apart : table = first.1 → table = second.1 →
      column.name ∉ sources first.2 ∨ column.name ∉ sources second.2) :
    settle table (settle table column first) second =
      settle table (settle table column second) first := by
  rw [settle_addition table (settle table column first) second explicitSecond,
    settle_addition table (settle table column second) first explicitFirst, settle_name, settle_name,
    settle_addition table column first explicitFirst,
    settle_addition table column second explicitSecond]
  apply Addition.commutes _ _ column
  by_cases onFirst : table = first.1
  · by_cases onSecond : table = second.1
    · rw [if_pos onFirst, if_pos onSecond]
      exact (apart onFirst onSecond).imp (addition_reference _ _) (addition_reference _ _)
    · exact Or.inr (by simp [onSecond, Addition.nothing])
  · exact Or.inl (by simp [onFirst, Addition.nothing])

def made? : Statement → Option PlainTable
  | .createTable name clauses _ => some (bareTable name clauses)
  | _ => none

def stated? : Clause → Option Constraint
  | .constraint constraint => some constraint
  | _ => none

/-- The constraints that a statement states, each with its table. -/
def statedBy (statement : Statement) : List (String × Constraint) :=
  match tableOf? statement with
  | some table => ((clausesOf statement).filterMap stated?).map (table, ·)
  | none => []

theorem bareTables_once (statements : List Statement) (once : (createdNames statements).Nodup) :
    bareTables statements = statements.filterMap made? := by
  induction statements using List.reverseRecOn with
  | nil => rfl
  | append_singleton before statement ih =>
      rw [created_names_append] at once
      obtain ⟨earlier, _, apart⟩ := List.nodup_append.mp once
      cases statement with
      | createTable name clauses hasBody =>
          have fresh : name ∉ createdNames before := fun member =>
            apart name member name (by simp) rfl
          rw [bare_tables_create, if_neg fresh, ih earlier, List.filterMap_append]
          rfl
      | alterTable table actions =>
          rw [bare_tables_other before _ rfl, ih earlier, List.filterMap_append]
          simp [made?]
      | ignored statement =>
          rw [bare_tables_other before _ rfl, ih earlier, List.filterMap_append]
          simp [made?]

theorem openReference_explicit (definition : ColumnDefinition)
    (explicit : ∀ target ∈ clauseTargets (.column definition), target.columns ≠ []) :
    Building.openReference? definition = none := by
  cases reference : definition.reference with
  | none => simp [Building.openReference?, reference]
  | some target =>
      have named := explicit target (by simp [clauseTargets, reference])
      simp [Building.openReference?, reference, named]

theorem ownConstraints_explicit (taken : List String) (clauses : List Clause)
    (explicit : AllExplicit clauses) :
    ownConstraints taken clauses = clauses.filterMap stated? := by
  induction clauses generalizing taken with
  | nil => rfl
  | cons clause rest ih =>
      obtain ⟨first, others⟩ := List.forall_mem_cons.mp explicit
      cases clause with
      | column definition =>
          simp [ownConstraints, List.filterMap_cons, stated?, openReference_explicit definition first,
            ih _ others]
      | constraint constraint => simp [ownConstraints, stated?, ih _ others]
      | ignored clause => simp [ownConstraints, List.filterMap_cons, stated?, ih _ others]

theorem added_stated (actions : List Action) :
    actions.filterMap added? = (actions.map Action.toClause).filterMap stated? := by
  rw [List.filterMap_map]
  apply List.filterMap_congr
  intro action _
  cases action <;> rfl

theorem bindOrder_explicit (statements : List Statement) (once : (createdNames statements).Nodup)
    (explicit : AllExplicit (statements.flatMap clausesOf)) :
    bindOrder statements = statements.flatMap statedBy := by
  induction statements with
  | nil => rfl
  | cons statement rest ih =>
      have first : AllExplicit (clausesOf statement) := fun clause member =>
        explicit clause (List.mem_append_left _ member)
      have others : AllExplicit (rest.flatMap clausesOf) := fun clause member =>
        explicit clause (List.mem_append_right _ member)
      cases statement with
      | createTable name clauses hasBody =>
          obtain ⟨fresh, once⟩ := List.nodup_cons.mp (created_names_create name clauses hasBody rest ▸ once)
          simp [bindOrder, fresh, ih once others, statedBy, tableOf?, clausesOf,
            ownConstraints_explicit [] clauses first]
      | alterTable table actions =>
          simp only [bindOrder, added_stated, ih once others]
          rfl
      | ignored statement => simp [bindOrder, ih once others, statedBy, tableOf?]

theorem stated_explicit (statements : List Statement)
    (explicit : AllExplicit (statements.flatMap clausesOf)) :
    ∀ item ∈ statements.flatMap statedBy, Explicit item.2 := by
  intro item member
  obtain ⟨statement, inside, stated⟩ := List.mem_flatMap.mp member
  unfold statedBy at stated
  split at stated
  · obtain ⟨constraint, inClauses, rfl⟩ := List.mem_map.mp stated
    obtain ⟨clause, clauseMember, same⟩ := List.mem_filterMap.mp inClauses
    cases clause with
    | constraint other =>
        exact Option.some.inj same ▸ explicit _ (List.mem_flatMap.mpr ⟨statement, inside, clauseMember⟩)
    | column definition => cases same
    | ignored clause => cases same
  · cases stated

/-- With explicit foreign keys the constraints settle every column by itself. -/
theorem deferred_settled (statements : List Statement) (once : (createdNames statements).Nodup)
    (explicit : AllExplicit (statements.flatMap clausesOf)) :
    (link .deferred statements).1.tables = (statements.filterMap made?).map fun table =>
      table.mapColumns fun column => (statements.flatMap statedBy).foldl (settle table.name) column := by
  have items := stated_explicit statements explicit
  rw [link_deferred, bindOrder_explicit statements once explicit, bind_all_eq_map,
    bareTables_once statements once]
  apply List.map_congr_left
  intro table _
  exact table.mapColumns_congr _ _ fun column _ => evolve_explicit _ items _ table column

def sourcesOn (table : String) (item : String × Constraint) : List String :=
  if table = item.1 then sources item.2 else []

theorem stated_clause_sources (clauses : List Clause) :
    ((clauses.filterMap stated?).flatMap sources).Sublist (clauses.flatMap clauseSources) := by
  induction clauses with
  | nil => exact List.Sublist.refl _
  | cons clause rest ih =>
      cases clause with
      | column definition => exact ih.trans (List.sublist_append_right _ _)
      | constraint constraint =>
          simpa [stated?, clauseSources] using (List.Sublist.refl (sources constraint)).append ih
      | ignored clause => exact ih

/-- The columns of a table that its constraints give a reference are named by its clauses, in the
same order. -/
theorem stated_sources (table : String) (statements : List Statement) :
    ((statements.flatMap statedBy).flatMap (sourcesOn table)).Sublist
      ((clausesOn table statements).flatMap clauseSources) := by
  induction statements with
  | nil => exact List.Sublist.refl _
  | cons statement rest ih =>
      rw [List.flatMap_cons, List.flatMap_append]
      cases named : tableOf? statement with
      | none =>
          simp only [statedBy, named, List.flatMap_nil, List.nil_append]
          simpa [clausesOn, named] using ih
      | some other =>
          have single : (statedBy statement).flatMap (sourcesOn table) =
              if table = other then ((clausesOf statement).filterMap stated?).flatMap sources else [] := by
            simp only [statedBy, named, List.flatMap_map]
            by_cases same : table = other <;> simp [sourcesOn, same]
          rw [single]
          by_cases same : table = other
          · subst same
            simpa [clausesOn, named] using (stated_clause_sources (clausesOf statement)).append ih
          · simpa [clausesOn, named, same, Ne.symm same] using ih

theorem settle_all_commute (statements : List Statement) (orderFree : OrderFree statements)
    (table : String) :
    ∀ first ∈ statements.flatMap statedBy, ∀ second ∈ statements.flatMap statedBy, ∀ column,
      settle table (settle table column first) second =
        settle table (settle table column second) first := by
  intro first firstMember second secondMember column
  by_cases same : first = second
  · rw [same]
  have explicit := stated_explicit statements orderFree.explicit
  refine settle_commutes table column first second (explicit first firstMember)
    (explicit second secondMember) fun onFirst onSecond => ?_
  have apart := ((orderFree.apart table).sublist (stated_sources table statements))
  have symmetric : Std.Symm (Function.onFun List.Disjoint (sourcesOn table)) :=
    ⟨fun _ _ disjoint _ left right => disjoint right left⟩
  have disjoint := (List.nodup_flatMap.mp apart).2.forall firstMember secondMember same
  by_contra both
  rw [not_or, not_not, not_not] at both
  exact disjoint (by simpa [sourcesOn, onFirst] using both.1)
    (by simpa [sourcesOn, onSecond] using both.2)

theorem firstDefinitions_columns (taken : List String) (clauses : List Clause) :
    firstDefinitions taken clauses =
      firstDefinitions taken ((clauses.filterMap definition?).map Clause.column) := by
  induction clauses generalizing taken with
  | nil => rfl
  | cons clause rest ih =>
      cases clause with
      | column definition =>
          simp only [List.filterMap_cons, definition?, List.map_cons, firstDefinitions]
          rw [← ih, ← ih]
      | constraint constraint => exact ih taken
      | ignored clause => exact ih taken

theorem relocated_statement {statement moved : Statement} (relocated : Relocated statement moved) :
    tableOf? statement = tableOf? moved ∧ createdName? statement = createdName? moved ∧
      made? statement = made? moved ∧ (clausesOf statement).Perm (clausesOf moved) := by
  cases relocated with
  | createTable name hasBody permuted columns =>
      refine ⟨rfl, rfl, ?_, permuted⟩
      rw [made?, made?, bareTable, bareTable, firstDefinitions_columns, columns,
        ← firstDefinitions_columns]
  | alterTable table actions => exact ⟨rfl, rfl, rfl, List.Perm.refl _⟩
  | ignored statement => exact ⟨rfl, rfl, rfl, List.Perm.refl _⟩

theorem relocated_stated {statement moved : Statement} (relocated : Relocated statement moved) :
    (statedBy statement).Perm (statedBy moved) := by
  obtain ⟨table, _, _, clauses⟩ := relocated_statement relocated
  unfold statedBy
  rw [← table]
  split
  · exact (clauses.filterMap _).map _
  · exact List.Perm.refl _

theorem relocated_statements {statements moved : List Statement}
    (relocated : List.Forall₂ Relocated statements moved) :
    createdNames statements = createdNames moved ∧
      statements.filterMap made? = moved.filterMap made? ∧
      (statements.flatMap statedBy).Perm (moved.flatMap statedBy) ∧
      (statements.flatMap clausesOf).Perm (moved.flatMap clausesOf) := by
  induction relocated with
  | nil => exact ⟨rfl, rfl, List.Perm.refl _, List.Perm.refl _⟩
  | @cons statement other rest others first _ ih =>
      obtain ⟨names, tables, items, clauses⟩ := ih
      obtain ⟨_, name, table, clausesFirst⟩ := relocated_statement first
      refine ⟨?_, ?_, (relocated_stated first).append items, clausesFirst.append clauses⟩
      · simp only [createdNames, List.filterMap_cons, name] at names ⊢
        rw [names]
      · simp only [List.filterMap_cons, table, tables]

def userId : Clause := .column ⟨"user_id", "INT", false, false, false, none⟩

/-- A table that is altered before it is made. -/
def alteredFirst : List Statement :=
  [.alterTable "order" [.add (.foreignKey ["user_id"] ⟨"user", ["id"]⟩ none)],
    .createTable "order" [userId, .constraint (.unique ["user_id"] none)] true]

/-- The same table altered afterwards, its column and its constraint the other way round. -/
def alteredLast : List Statement :=
  [.createTable "order" [.constraint (.unique ["user_id"] none), userId] true,
    .alterTable "order" [.add (.foreignKey ["user_id"] ⟨"user", ["id"]⟩ none)]]

theorem altered_rearranged : Rearranged alteredFirst alteredLast :=
  ⟨_, List.Perm.swap _ _ [], .cons (.createTable "order" true (List.Perm.swap _ _ []) rfl)
    (.cons (.alterTable "order" _) .nil)⟩

theorem altered_order_free : OrderFree alteredFirst := by
  refine ⟨by decide, by unfold AllExplicit; decide, fun table => ?_⟩
  by_cases same : "order" = table
  · simp [same, clausesOn, alteredFirst, tableOf?, clausesOf, Action.toClause, userId, clauseSources,
      sources]
  · simp [same, clausesOn, alteredFirst, tableOf?]

end TableScript.Link
