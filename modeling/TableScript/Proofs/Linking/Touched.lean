import TableScript.Proofs.Linking.Order
import TableScript.Proofs.Linking.Within

/-!
What a single constraint touches. Only the columns that it lists change, in the one table that it
is bound to, and nothing that is known of them is lost. A foreign key is paired place by place:
a column that is listed gets the reference of the last place at which it is listed, and a name
that no column has takes up its place like any other.
-/

namespace TableScript.Link

/-- A place in a list is the last one at which a name stands. -/
def LastAt (names : List String) (name : String) (place : Nat) : Prop :=
  names[place]? = some name ∧ ∀ later, place < later → names[later]? ≠ some name

theorem lastAt_behind (first name : String) (names : List String) (place : Nat)
    (last : LastAt (first :: names) name (place + 1)) : LastAt names name place := by
  obtain ⟨here, others⟩ := last
  rw [List.getElem?_cons_succ] at here
  refine ⟨here, fun later behind => ?_⟩
  have other := others (later + 1) (Nat.succ_lt_succ behind)
  rwa [List.getElem?_cons_succ] at other

theorem lastAt_first (first name : String) (names : List String)
    (last : LastAt (first :: names) name 0) : first = name ∧ name ∉ names := by
  obtain ⟨here, others⟩ := last
  rw [List.getElem?_cons_zero, Option.some.injEq] at here
  refine ⟨here, fun again => ?_⟩
  obtain ⟨place, there⟩ := List.getElem?_of_mem again
  exact others (place + 1) (Nat.succ_pos place) (by rw [List.getElem?_cons_succ, there])

/-- The last of the pairs with a name is the one at the last place of the name. -/
theorem lastTarget_placed (name : String) (names targets : List String) (place : Nat) (found : String)
    (last : LastAt names name place) (aimed : targets[place]? = some found) :
    lastTarget? name (names.zip targets) = some found := by
  induction names generalizing targets place with
  | nil => cases last.1
  | cons first names ih =>
      cases targets with
      | nil => cases aimed
      | cons target targets =>
          rw [List.zip_cons_cons, lastTarget?]
          cases place with
          | zero =>
              obtain ⟨same, absent⟩ := lastAt_first first name names last
              have nowhere : name ∉ (names.zip targets).map Prod.fst := by
                intro inside
                obtain ⟨pair, paired, named⟩ := List.mem_map.mp inside
                exact absent (named ▸ (List.of_mem_zip paired).1)
              rw [List.getElem?_cons_zero] at aimed
              rw [lastTarget_none name _ nowhere, Option.none_or, if_pos same, aimed]
          | succ place =>
              rw [List.getElem?_cons_succ] at aimed
              rw [ih targets place (lastAt_behind first name names place last) aimed, Option.some_or]

/-- What a constraint that is bound to a table makes of a column that it is about: the fields that
are set, and all the others as they were. -/
def Effect (known : List PlainTable) (table : PlainTable) (before after : PlainColumn) :
    Constraint → Prop
  | .primaryKey columns _ =>
      before.name ∈ columns → after = { before with primaryKey := true, nullable := false }
  | .unique columns _ =>
      (columns = [before.name] → after = { before with unique := true }) ∧
        (columns.length ≠ 1 → after = before)
  | .foreignKey columns target _ =>
      ((targetsOf known table target).length ≠ columns.length → after = before) ∧
        ((targetsOf known table target).length = columns.length →
          ∀ place, LastAt columns before.name place →
            ∃ found, (targetsOf known table target)[place]? = some found ∧
              after = { before with reference := some ⟨target.table, found⟩ })

/-- How a column behind a constraint compares to the column before it. -/
structure Touched (known : List PlainTable) (table : PlainTable) (constraint : Constraint)
    (before after : PlainColumn) : Prop where
  within : before.Within after
  unlisted : before.name ∉ constraint.columns → after = before
  effect : Effect known table before after constraint

theorem within_self (column : PlainColumn) : column.Within column :=
  ⟨rfl, rfl, id, id, id⟩

theorem key_touched (known : List PlainTable) (table : PlainTable) (columns : List String)
    (label : Option String) (column : PlainColumn) :
    Touched known table (.primaryKey columns label) column
      (boundColumn known table (.primaryKey columns label) column) := by
  by_cases listed : column.name ∈ columns
  · rw [boundColumn, if_pos listed]
    exact ⟨⟨rfl, rfl, fun _ => rfl, id, fun _ => rfl⟩, fun absent => absurd listed absent, fun _ => rfl⟩
  · rw [boundColumn, if_neg listed]
    exact ⟨within_self column, fun _ => rfl, fun member => absurd member listed⟩

theorem unique_touched (known : List PlainTable) (table : PlainTable) (columns : List String)
    (label : Option String) (column : PlainColumn) :
    Touched known table (.unique columns label) column
      (boundColumn known table (.unique columns label) column) := by
  by_cases alone : columns = [column.name]
  · rw [boundColumn, if_pos alone]
    refine ⟨⟨rfl, rfl, id, fun _ => rfl, id⟩, fun absent => ?_, fun _ => rfl, fun several => ?_⟩
    · exact absurd (by rw [Constraint.columns, alone]; exact List.mem_singleton_self _) absent
    · exact absurd (by rw [alone]; rfl) several
  · rw [boundColumn, if_neg alone]
    exact ⟨within_self column, fun _ => rfl, fun same => absurd same alone, fun _ => rfl⟩

theorem repoint_within (target : String) (pairs : List (String × String)) (column : PlainColumn) :
    column.Within (repoint target pairs column) := by
  rw [repoint]
  split
  · exact ⟨rfl, rfl, id, id, id⟩
  · exact within_self column

theorem repoint_unlisted (target : String) (names targets : List String) (column : PlainColumn)
    (absent : column.name ∉ names) : repoint target (names.zip targets) column = column := by
  have nowhere : column.name ∉ (names.zip targets).map Prod.fst := by
    intro inside
    obtain ⟨pair, paired, named⟩ := List.mem_map.mp inside
    exact absent (named ▸ (List.of_mem_zip paired).1)
  rw [repoint, lastTarget_none column.name _ nowhere]

/-- Paired lists have the same places, so the last place of a name has something to point at. -/
theorem repoint_placed (target : String) (names targets : List String) (column : PlainColumn)
    (paired : targets.length = names.length) (place : Nat) (last : LastAt names column.name place) :
    ∃ found, targets[place]? = some found ∧
      repoint target (names.zip targets) column =
        { column with reference := some ⟨target, found⟩ } := by
  have inside : place < targets.length := by
    rw [paired]
    exact (List.getElem?_eq_some_iff.mp last.1).1
  have aimed := List.getElem?_eq_getElem inside
  refine ⟨targets[place], aimed, ?_⟩
  rw [repoint, lastTarget_placed column.name names targets place _ last aimed]
  rfl

theorem pointed_touched (known : List PlainTable) (table : PlainTable) (columns : List String)
    (target : Target) (label : Option String) (column : PlainColumn) :
    Touched known table (.foreignKey columns target label) column
      (boundColumn known table (.foreignKey columns target label) column) := by
  by_cases paired : (targetsOf known table target).length = columns.length
  · rw [boundColumn, if_pos paired]
    exact ⟨repoint_within target.table _ column, repoint_unlisted target.table columns _ column,
      fun unpaired => absurd paired unpaired,
      fun _ => repoint_placed target.table columns _ column paired⟩
  · rw [boundColumn, if_neg paired]
    exact ⟨within_self column, fun _ => rfl, fun _ => rfl, fun same => absurd same paired⟩

theorem bound_touched (known : List PlainTable) (table : PlainTable) (constraint : Constraint)
    (column : PlainColumn) :
    Touched known table constraint column (boundColumn known table constraint column) := by
  cases constraint with
  | primaryKey columns label => exact key_touched known table columns label column
  | unique columns label => exact unique_touched known table columns label column
  | foreignKey columns target label => exact pointed_touched known table columns target label column

/-- How a table behind a constraint compares to the table before it. -/
structure Applied (known : List PlainTable) (constraint : Constraint) (before after : PlainTable) :
    Prop where
  name : after.name = before.name
  position : after.position = before.position
  columns : List.Forall₂ (Touched known before constraint) before.columns after.columns

theorem bind_applied (known : List PlainTable) (table : PlainTable) (written : String)
    (constraint : Constraint) (distinct : table.Distinct) :
    Applied known constraint table (bind known table written constraint).1 := by
  rw [bind_eq_map known table written constraint distinct]
  exact ⟨rfl, rfl, List.forall₂_map_right_iff.mpr
    (List.forall₂_same.mpr fun column _ => bound_touched known table constraint column)⟩

/-- A constraint is applied to the table that is made, or to the one that is looked for among the
tables there are. Every other table stays as it is, and so do all of them if there is no such
table. -/
theorem listed_columns_touched (constraint : Constraint) :
    (∀ known table written, table.Distinct →
      Applied known constraint table (bind known table written constraint).1) ∧
    ∀ (linking : Linking) (isIt : Draft → Bool) (written : String),
      (∀ draft ∈ linking.drafts, draft.table.Distinct) →
      (linking.drafts.find? isIt = none →
        (bindDraft isIt written constraint linking).drafts = linking.drafts) ∧
      ∀ draft, linking.drafts.find? isIt = some draft → ∃ before after table,
        linking.drafts = before ++ draft :: after ∧
        (bindDraft isIt written constraint linking).drafts =
          before ++ { draft with table := table } :: after ∧
        Applied linking.tables constraint draft.table table := by
  refine ⟨fun known table written => bind_applied known table written constraint, ?_⟩
  intro linking isIt written distinct
  constructor
  · intro absent
    rw [bindDraft, absent]
    rfl
  · intro draft found
    have applied := bind_applied linking.tables draft.table written constraint
      (distinct draft (List.mem_of_find?_eq_some found))
    obtain ⟨before, after, split, changed⟩ := change_first_found isIt
      (fun old => { old with table := (bind linking.tables draft.table written constraint).1 })
      linking.drafts draft found
    refine ⟨before, after, _, split, ?_, applied⟩
    simp only [bindDraft, found, Linking.note]
    exact changed

def stayTable : PlainTable :=
  ⟨"stay", [⟨"guest", "INT", false, true, false, none⟩, ⟨"room", "INT", false, true, false, none⟩], none⟩

-- A column is listed twice here, and another name is not one of a column.
def stayKey : Constraint :=
  .foreignKey ["guest", "floor", "room", "guest"] ⟨"booking", ["by", "level", "room", "guest"]⟩ none

def stayLinking : Linking :=
  ⟨[⟨0, .empty "hotel"⟩, ⟨1, stayTable⟩, ⟨2, .empty "booking"⟩], [], []⟩

theorem stay_touched :
    Applied [] stayKey stayTable (bind [] stayTable "stay" stayKey).1 ∧
    (bindDraft (hasName "guest") "guest" stayKey stayLinking).drafts = stayLinking.drafts ∧
    ∃ before after table, stayLinking.drafts = before ++ ⟨1, stayTable⟩ :: after ∧
      (bindDraft (hasName "stay") "stay" stayKey stayLinking).drafts =
        before ++ ⟨1, table⟩ :: after ∧
      Applied stayLinking.tables stayKey stayTable table := by
  have distinct : ∀ draft ∈ stayLinking.drafts, draft.table.Distinct := by
    simp [stayLinking, stayTable, Table.empty, Table.Distinct]
  have own : stayTable.Distinct := distinct ⟨1, stayTable⟩ (by simp [stayLinking])
  obtain ⟨made, among⟩ := listed_columns_touched stayKey
  exact ⟨made [] stayTable "stay" own, (among stayLinking (hasName "guest") "guest" distinct).1 rfl,
    (among stayLinking (hasName "stay") "stay" distinct).2 _ rfl⟩

example : (bind [] stayTable "stay" stayKey).1.columns.map (·.reference) =
    [some ⟨"booking", "guest"⟩, some ⟨"booking", "room"⟩] := by
  decide

end TableScript.Link
