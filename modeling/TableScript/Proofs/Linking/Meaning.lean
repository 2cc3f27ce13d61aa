import TableScript.Proofs.Linking.Deferred
import TableScript.Proofs.Linking.Evolution

/-!
What deferred linking means. The tables, columns and flags of the result are read off the
statements: a table is what its last definition says, and a constraint on it counts wherever in
the list it stands. A definition that is made again later leaves no trace but its place.
-/

namespace TableScript.Link

/-- A constraint on a table is declared in the clauses of its definition or by altering it. -/
def Declares (statements : List Statement) (table : String) (clauses : List Clause)
    (constraint : Constraint) : Prop :=
  .constraint constraint ∈ clauses ∨
    ∃ actions, .alterTable table actions ∈ statements ∧ .add constraint ∈ actions

/-- A column is what a definition of it and the constraints on its table say. -/
structure Describes (statements : List Statement) (table : String) (clauses : List Clause)
    (definition : ColumnDefinition) (column : PlainColumn) : Prop where
  name : column.name = definition.name
  dataType : column.dataType = definition.dataType
  primaryKey : column.primaryKey = true ↔ definition.primaryKey = true ∨
    ∃ columns label, Declares statements table clauses (.primaryKey columns label) ∧
      definition.name ∈ columns
  unique : column.unique = true ↔ definition.unique = true ∨
    ∃ label, Declares statements table clauses (.unique [definition.name] label)
  nullable : column.nullable = true ↔ definition.notNull = false ∧ column.primaryKey = false

theorem mem_ownConstraints (taken : List String) (clauses : List Clause) (constraint : Constraint) :
    constraint ∈ ownConstraints taken clauses ↔ .constraint constraint ∈ clauses ∨
      ∃ definition ∈ firstDefinitions taken clauses,
        Building.openReference? definition = some constraint := by
  induction clauses generalizing taken with
  | nil => simp [ownConstraints, firstDefinitions]
  | cons clause rest ih =>
      cases clause with
      | column definition =>
          simp only [ownConstraints, firstDefinitions]
          split
          · simp [ih]
          · simp [ih, or_left_comm]
      | constraint other => simp [ownConstraints, firstDefinitions, ih, or_assoc]
      | ignored clause => simp [ownConstraints, firstDefinitions, ih]

theorem mem_added (actions : List Action) (constraint : Constraint) :
    constraint ∈ actions.filterMap added? ↔ .add constraint ∈ actions := by
  rw [List.mem_filterMap]
  constructor
  · rintro ⟨action, member, same⟩
    cases action with
    | add other => exact Option.some.inj same ▸ member
    | ignored action => cases same
  · exact fun member => ⟨_, member, rfl⟩

/-- A constraint is bound if it was declared inside the last definition of its table, or by
altering the table. -/
theorem mem_bindOrder (statements : List Statement) (table : String) (constraint : Constraint) :
    (table, constraint) ∈ bindOrder statements ↔
      (∃ clauses, lastClauses? table statements = some clauses ∧
        constraint ∈ ownConstraints [] clauses) ∨
      ∃ actions, .alterTable table actions ∈ statements ∧ .add constraint ∈ actions := by
  induction statements with
  | nil => simp [bindOrder, lastClauses?]
  | cons statement rest ih =>
      cases statement with
      | createTable name clauses hasBody =>
          by_cases same : name = table
          · by_cases again : name ∈ createdNames rest
            · have there : lastClauses? table rest ≠ none := fun absent =>
                (last_clauses_none table rest).mp absent (same ▸ again)
              obtain ⟨last, found⟩ := Option.ne_none_iff_exists'.mp there
              simp [bindOrder, again, ih, lastClauses?, found]
            · subst same
              have absent := (last_clauses_none name rest).mpr again
              simp [bindOrder, again, ih, lastClauses?, clausesFor?, absent]
          · by_cases again : name ∈ createdNames rest <;>
              simp [bindOrder, again, ih, lastClauses?, clausesFor?, same]
      | alterTable name actions =>
          by_cases same : name = table
          · subst same
            have here : (name, constraint) ∈ (actions.filterMap added?).map (name, ·) ↔
                .add constraint ∈ actions := by
              rw [← mem_added]
              simp
            rw [bindOrder, List.mem_append, here, ih]
            simp [lastClauses?, clausesFor?, or_and_right, exists_or, or_left_comm]
          · simp [bindOrder, ih, lastClauses?, clausesFor?, same, Ne.symm same]
      | ignored statement => simp [bindOrder, ih, lastClauses?, clausesFor?]

/-- Constraints other than foreign keys are bound exactly if they are declared. -/
theorem mem_bindOrder_declared (statements : List Statement) (table : String)
    (clauses : List Clause) (last : lastClauses? table statements = some clauses)
    (constraint : Constraint) (plain : ∀ columns target label,
      constraint ≠ .foreignKey columns target label) :
    (table, constraint) ∈ bindOrder statements ↔ Declares statements table clauses constraint := by
  have own : constraint ∈ ownConstraints [] clauses ↔ .constraint constraint ∈ clauses := by
    rw [mem_ownConstraints]
    apply or_iff_left
    rintro ⟨definition, _, reference⟩
    simp only [Building.openReference?, Option.bind_eq_some_iff] at reference
    obtain ⟨target, _, opened⟩ := reference
    split at opened
    · exact plain _ _ _ (Option.some.inj opened).symm
    · cases opened
  rw [mem_bindOrder, Declares, last]
  simp [own]

theorem last_clauses_here (before after : List Statement) (name : String) (clauses : List Clause)
    (hasBody : Bool) (last : name ∉ createdNames after) :
    lastClauses? name (before ++ .createTable name clauses hasBody :: after) = some clauses := by
  rw [last_clauses_append, lastClauses?, (last_clauses_none name after).mpr last]
  simp [clausesFor?]

/-- The table with a name in the result of deferred linking. -/
theorem deferred_table (statements : List Statement) (name : String) (clauses : List Clause)
    (last : lastClauses? name statements = some clauses) :
    (link .deferred statements).1.table? name =
      some ((bareTable name clauses).mapColumns (evolve (bindOrder statements)
        (bareTables statements) (bareTable name clauses))) := by
  rw [link_deferred, bound_table, last, Option.map_some]

theorem evolved_describes (statements : List Statement) (name : String) (clauses : List Clause)
    (last : lastClauses? name statements = some clauses) (definition : ColumnDefinition) :
    Describes statements name clauses definition (evolve (bindOrder statements)
      (bareTables statements) (bareTable name clauses) (Building.columnOf definition)) := by
  have flagged := evolve_flagged (bindOrder statements) (bareTables statements)
    (bareTable name clauses) (Building.columnOf definition)
  have keyed : Keyed (bindOrder statements) name definition.name ↔ ∃ columns label,
      Declares statements name clauses (.primaryKey columns label) ∧ definition.name ∈ columns := by
    refine exists_congr fun columns => exists_congr fun label => and_congr_left fun _ => ?_
    exact mem_bindOrder_declared statements name clauses last _ (by simp)
  have single : Single (bindOrder statements) name definition.name ↔ ∃ label,
      Declares statements name clauses (.unique [definition.name] label) :=
    exists_congr fun label => mem_bindOrder_declared statements name clauses last _ (by simp)
  have primaryKey := flagged.primaryKey
  have nullable := flagged.nullable
  refine ⟨flagged.name, flagged.dataType, primaryKey.trans (or_congr Iff.rfl keyed),
    flagged.unique.trans (or_congr Iff.rfl single), nullable.trans ?_⟩
  rw [← Bool.not_eq_true (evolve _ _ _ _).primaryKey, primaryKey]
  simp [Building.columnOf, bareTable, and_assoc]

theorem bindOrder_replaced (before after : List Statement) (name : String)
    (clauses other : List Clause) (hasBody otherBody : Bool) (again : name ∈ createdNames after) :
    bindOrder (before ++ .createTable name other otherBody :: after) =
      bindOrder (before ++ .createTable name clauses hasBody :: after) := by
  induction before with
  | nil => simp [bindOrder, again]
  | cons statement rest ih => cases statement <;> simp [bindOrder, ih]

theorem bareTables_replaced (before after : List Statement) (name : String)
    (clauses other : List Clause) (hasBody otherBody : Bool) (again : name ∈ createdNames after) :
    bareTables (before ++ .createTable name other otherBody :: after) =
      bareTables (before ++ .createTable name clauses hasBody :: after) := by
  have last : ∀ table, lastClauses? table (before ++ .createTable name other otherBody :: after) =
      lastClauses? table (before ++ .createTable name clauses hasBody :: after) := by
    intro table
    simp only [last_clauses_append, lastClauses?]
    by_cases same : name = table
    · have there : lastClauses? table after ≠ none := fun absent =>
        (last_clauses_none table after).mp absent (same ▸ again)
      obtain ⟨found, present⟩ := Option.ne_none_iff_exists'.mp there
      simp [present]
    · simp [clausesFor?, same]
  simp [bareTables, last]

/-- The tables of the result are those that were made, in the order in which their names first
come up. The columns of a table are the definitions that count in the last statement that makes
it, with the flags that they and the constraints on the table give them. The clauses of a
statement that makes a table anew later do not count for anything. -/
theorem deferred_meaning (statements : List Statement) :
    (link .deferred statements).1.tables.map (·.name) = (createdNames statements).eraseDups ∧
    (∀ before name clauses hasBody after,
      statements = before ++ .createTable name clauses hasBody :: after →
      name ∉ createdNames after →
      ∃ table, (link .deferred statements).1.table? name = some table ∧
        List.Forall₂ (Describes statements name clauses) (firstDefinitions [] clauses)
          table.columns) ∧
    (∀ before name clauses hasBody after,
      statements = before ++ .createTable name clauses hasBody :: after →
      name ∈ createdNames after → ∀ other otherBody,
      (link .deferred (before ++ .createTable name other otherBody :: after)).1 =
        (link .deferred statements).1) := by
  refine ⟨?_, ?_, ?_⟩
  · have names := bind_all_names (bindOrder statements) (bareTables statements)
    rw [bare_table_names] at names
    rw [link_deferred]
    exact names
  · intro before name clauses hasBody after same final
    have last : lastClauses? name statements = some clauses :=
      same ▸ last_clauses_here before after name clauses hasBody final
    refine ⟨_, deferred_table statements name clauses last, ?_⟩
    simp only [Table.mapColumns, bareTable, List.map_map, List.forall₂_map_right_iff]
    exact List.forall₂_same.mpr fun definition _ =>
      evolved_describes statements name clauses last definition
  · intro before name clauses hasBody after same again other otherBody
    subst same
    rw [link_deferred, link_deferred,
      bindOrder_replaced before after name clauses other hasBody otherBody again,
      bareTables_replaced before after name clauses other hasBody otherBody again]

def itemId : Clause := .column ⟨"id", "INT", false, false, false, none⟩

/-- A table that is made and altered, and then made again. -/
def itemTwice : List Statement :=
  [.createTable "item" [itemId, .constraint (.unique ["id"] none)] true,
    .alterTable "item" [.add (.primaryKey ["id"] none)], .createTable "item" [itemId] true]

theorem item_twice_meaning :
    (link .deferred itemTwice).1.tables.map (·.name) = ["item"] ∧
      ∃ table, (link .deferred itemTwice).1.table? "item" = some table ∧
        List.Forall₂ (Describes itemTwice "item" [itemId]) (firstDefinitions [] [itemId])
          table.columns :=
  ⟨(deferred_meaning itemTwice).1, (deferred_meaning itemTwice).2.1 (itemTwice.take 2) "item"
    [itemId] true [] rfl (by decide)⟩

end TableScript.Link
