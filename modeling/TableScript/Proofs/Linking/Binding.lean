import TableScript.Link
import Mathlib.Data.List.Nodup

/-!
Binding one constraint to one table, column by column. In a table whose columns have different
names each column changes on its own: binding neither adds nor moves a column, and what happens
to a column is a function of that column, the constraint and the columns a foreign key points at.
-/

namespace TableScript

@[simp] theorem same_stored_text (a b : String) : sameStored a b = (a == b) := by
  simp [sameStored, toValue, Value.same]

@[simp] theorem holds_stored_flag (flag : Bool) : holdsStored flag = flag := rfl

theorem change_first_only {α : Type} (isIt : α → Bool) (change : α → α) (items : List α)
    (only : items.Pairwise fun one other => isIt one = true → isIt other = false) :
    changeFirst isIt change items = items.map fun item => if isIt item then change item else item := by
  induction items with
  | nil => rfl
  | cons item rest ih =>
      obtain ⟨head, later⟩ := List.pairwise_cons.mp only
      cases here : isIt item with
      | true =>
          have others : ∀ other ∈ rest, (if isIt other then change other else other) = other :=
            fun other member => if_neg (by simp [head other member here])
          simp [changeFirst, here, List.map_congr_left others]
      | false => simp [changeFirst, here, ih later]

/-- Where no two elements share a key, the first element with a key is the only one. -/
theorem change_first_keyed {α κ : Type} [DecidableEq κ] (keyOf : α → κ) (isIt : α → Bool)
    (key : κ) (change : α → α) (items : List α)
    (keyed : ∀ item ∈ items, isIt item = true ↔ keyOf item = key)
    (distinct : (items.map keyOf).Nodup) :
    changeFirst isIt change items =
      items.map fun item => if keyOf item = key then change item else item := by
  have only : items.Pairwise fun one other => isIt one = true → isIt other = false := by
    refine (List.pairwise_map.mp distinct).imp_of_mem fun {one other} member member' different here => ?_
    rw [Bool.eq_false_iff, ne_eq, keyed other member']
    exact fun same => different (((keyed one member).mp here).trans same.symm)
  rw [change_first_only isIt change items only]
  exact List.map_congr_left fun item member => by simp only [keyed item member]

/-- Only the first element with a property is changed. -/
theorem change_first_found {α : Type} (isIt : α → Bool) (change : α → α) (items : List α) (item : α)
    (found : items.find? isIt = some item) :
    ∃ before after, items = before ++ item :: after ∧
      changeFirst isIt change items = before ++ change item :: after := by
  induction items with
  | nil => cases found
  | cons head rest ih =>
      cases here : isIt head with
      | true =>
          rw [List.find?_cons_of_pos here] at found
          cases found
          exact ⟨[], rest, rfl, by simp [changeFirst, here]⟩
      | false =>
          rw [List.find?_cons_of_neg (by simp [here])] at found
          obtain ⟨before, after, split, changed⟩ := ih found
          exact ⟨head :: before, after, by rw [split]; rfl, by simp [changeFirst, here, changed]⟩

namespace Table

/-- No two columns of a table have one name. -/
def Distinct (table : PlainTable) : Prop :=
  (table.columns.map (·.name)).Nodup

/-- The table with each of its columns changed. -/
def mapColumns (change : PlainColumn → PlainColumn) (table : PlainTable) : PlainTable :=
  { table with columns := table.columns.map change }

def KeepsNames (change : PlainColumn → PlainColumn) : Prop :=
  ∀ column, (change column).name = column.name

@[simp] theorem mapColumns_name (change : PlainColumn → PlainColumn) (table : PlainTable) :
    (table.mapColumns change).name = table.name := rfl

theorem mapColumns_id (table : PlainTable) : table.mapColumns (fun column => column) = table := by
  simp [mapColumns]

theorem mapColumns_mapColumns (first second : PlainColumn → PlainColumn) (table : PlainTable) :
    (table.mapColumns first).mapColumns second =
      table.mapColumns fun column => second (first column) := by
  simp [mapColumns]

theorem mapColumns_congr (table : PlainTable) (first second : PlainColumn → PlainColumn)
    (agree : ∀ column ∈ table.columns, first column = second column) :
    table.mapColumns first = table.mapColumns second := by
  simp only [mapColumns, List.map_congr_left agree]

theorem mapColumns_names (change : PlainColumn → PlainColumn) (keeps : KeepsNames change)
    (table : PlainTable) :
    (table.mapColumns change).columns.map (·.name) = table.columns.map (·.name) := by
  simp [mapColumns, Function.comp_def, keeps _]

theorem distinct_mapColumns (change : PlainColumn → PlainColumn) (keeps : KeepsNames change)
    (table : PlainTable) (distinct : table.Distinct) : (table.mapColumns change).Distinct := by
  simpa only [Distinct, mapColumns_names change keeps] using distinct

theorem column_eq_none (table : PlainTable) (name : String) :
    table.column? name = none ↔ name ∉ table.columns.map (·.name) := by
  simp [column?]

theorem column_mapColumns_none (change : PlainColumn → PlainColumn) (keeps : KeepsNames change)
    (table : PlainTable) (name : String) :
    (table.mapColumns change).column? name = none ↔ table.column? name = none := by
  rw [column_eq_none, column_eq_none, mapColumns_names change keeps]

/-- A change of the columns with one name only. -/
def onNamed (name : String) (change : PlainColumn → PlainColumn) (column : PlainColumn) :
    PlainColumn :=
  if column.name = name then change column else column

theorem onNamed_same (name : String) (change : PlainColumn → PlainColumn) (column : PlainColumn)
    (same : column.name = name) : onNamed name change column = change column :=
  if_pos same

theorem onNamed_other (name : String) (change : PlainColumn → PlainColumn) (column : PlainColumn)
    (other : column.name ≠ name) : onNamed name change column = column :=
  if_neg other

theorem onNamed_keeps (name : String) (change : PlainColumn → PlainColumn)
    (keeps : KeepsNames change) : KeepsNames (onNamed name change) := by
  intro column
  by_cases same : column.name = name
  · rw [onNamed_same name change column same, keeps column]
  · rw [onNamed_other name change column same]

theorem changeColumn_eq_map (table : PlainTable) (name : String)
    (change : PlainColumn → PlainColumn) (distinct : table.Distinct) :
    table.changeColumn name change = table.mapColumns (onNamed name change) := by
  simp only [changeColumn, mapColumns]
  rw [change_first_keyed (fun column : PlainColumn => column.name) _ name change table.columns
    (by simp) distinct]
  rfl

end Table

namespace Link

/-- The last of the pairs that begin with a name decides. -/
def lastTarget? (name : String) : List (String × String) → Option String
  | [] => none
  | (source, target) :: pairs =>
      (lastTarget? name pairs).or (if source = name then some target else none)

def repoint (target : String) (pairs : List (String × String)) (column : PlainColumn) :
    PlainColumn :=
  match lastTarget? column.name pairs with
  | some found => pointingAt target found column
  | none => column

/-- The columns a foreign key of a table points at, among the tables that are known. -/
def targetsOf (known : List PlainTable) (table : PlainTable) (target : Target) : List String :=
  if target.columns.isEmpty then keyOf known target.table table else target.columns

/-- What binding a constraint to a table does to a column of it. -/
def boundColumn (known : List PlainTable) (table : PlainTable) (constraint : Constraint)
    (column : PlainColumn) : PlainColumn :=
  match constraint with
  | .primaryKey columns _ => if column.name ∈ columns then asKey column else column
  | .unique columns _ => if columns = [column.name] then asUnique column else column
  | .foreignKey columns target _ =>
      if (targetsOf known table target).length = columns.length then
        repoint target.table (columns.zip (targetsOf known table target)) column
      else column

theorem repoint_keeps_names (target : String) (pairs : List (String × String)) :
    Table.KeepsNames (repoint target pairs) := by
  intro column
  unfold repoint
  split <;> rfl

theorem bound_keeps_names (known : List PlainTable) (table : PlainTable)
    (constraint : Constraint) : Table.KeepsNames (boundColumn known table constraint) := by
  intro column
  cases constraint with
  | primaryKey columns label => simp only [boundColumn]; split <;> rfl
  | unique columns label => simp only [boundColumn]; split <;> rfl
  | foreignKey columns target label =>
      simp only [boundColumn]
      split
      · exact repoint_keeps_names _ _ column
      · rfl

/-- A change that only looks at the name and that a second time does nothing may be made once for
all the names of a list, whatever names are repeated in it. -/
theorem change_named_eq_map (change : PlainColumn → PlainColumn) (keeps : Table.KeepsNames change)
    (once : ∀ column, change (change column) = change column) (table : PlainTable)
    (distinct : table.Distinct) (names : List String) :
    changeNamed change table names =
      (table.mapColumns fun column => if column.name ∈ names then change column else column,
        names.filter fun name => (table.column? name).isNone) := by
  induction names generalizing table with
  | nil => simp [changeNamed, Table.mapColumns_id]
  | cons name names ih =>
      cases found : table.column? name with
      | none =>
          have absent := (table.column_eq_none name).mp found
          simp only [changeNamed, found, ih table distinct]
          refine Prod.ext (table.mapColumns_congr _ _ fun column member => ?_) (by simp [found])
          have other : column.name ≠ name := fun same => absent (same ▸ List.mem_map_of_mem member)
          simp [other]
      | some _ =>
          have kept := Table.onNamed_keeps name change keeps
          have distinct' := Table.distinct_mapColumns _ kept table distinct
          simp only [changeNamed, found, table.changeColumn_eq_map name change distinct]
          rw [ih _ distinct', Table.mapColumns_mapColumns]
          refine Prod.ext (table.mapColumns_congr _ _ fun column _ => ?_) ?_
          · by_cases same : column.name = name
            · rw [Table.onNamed_same name change column same, keeps column, same]
              by_cases again : name ∈ names <;> simp [again, once column]
            · rw [Table.onNamed_other name change column same]
              simp [same]
          · simp only [List.filter_cons, found, Option.isNone_some, Bool.false_eq_true, ↓reduceIte]
            apply List.filter_congr
            intro other _
            rw [Bool.eq_iff_iff, Option.isNone_iff_eq_none, Option.isNone_iff_eq_none]
            exact Table.column_mapColumns_none _ kept table other

theorem point_pairs_eq_map (target : String) (table : PlainTable) (distinct : table.Distinct)
    (pairs : List (String × String)) :
    (pointPairs target table pairs).1 = table.mapColumns (repoint target pairs) := by
  induction pairs generalizing table with
  | nil => exact (table.mapColumns_id).symm
  | cons pair pairs ih =>
      obtain ⟨name, column⟩ := pair
      cases found : table.column? name with
      | none =>
          have absent := (table.column_eq_none name).mp found
          simp only [pointPairs, found, ih table distinct]
          apply table.mapColumns_congr _ _
          intro other member
          have different : name ≠ other.name := fun same =>
            absent (same ▸ List.mem_map_of_mem member)
          simp [repoint, lastTarget?, different]
      | some _ =>
          have kept := Table.onNamed_keeps name (pointingAt target column) fun _ => rfl
          have distinct' := Table.distinct_mapColumns _ kept table distinct
          simp only [pointPairs, found, table.changeColumn_eq_map name _ distinct]
          rw [ih _ distinct', Table.mapColumns_mapColumns]
          apply table.mapColumns_congr _ _
          intro other _
          by_cases same : other.name = name
          · rw [Table.onNamed_same name _ other same]
            cases later : lastTarget? name pairs <;>
              simp [repoint, lastTarget?, same, pointingAt, later]
          · rw [Table.onNamed_other name _ other same]
            simp [repoint, lastTarget?, Ne.symm same]

/-- Binding a constraint changes each column by itself, by `boundColumn`. -/
theorem bind_eq_map (known : List PlainTable) (table : PlainTable) (written : String)
    (constraint : Constraint) (distinct : table.Distinct) :
    (bind known table written constraint).1 =
      table.mapColumns (boundColumn known table constraint) := by
  cases constraint with
  | primaryKey columns label =>
      simp only [bind]
      rw [change_named_eq_map asKey (fun _ => rfl) (fun _ => rfl) table distinct]
      rfl
  | unique columns label =>
      simp only [bind]
      split
      case isTrue single =>
        obtain ⟨name, rfl⟩ := List.length_eq_one_iff.mp single
        rw [change_named_eq_map asUnique (fun _ => rfl) (fun _ => rfl) table distinct]
        exact table.mapColumns_congr _ _ fun column _ => by simp [boundColumn, eq_comm]
      case isFalse several =>
        refine (table.mapColumns_id).symm.trans (table.mapColumns_congr _ _ fun column _ => ?_)
        exact (if_neg fun equal => several (by simp [equal])).symm
  | foreignKey columns target label =>
      change (bind known table written (.foreignKey columns target label)).1 =
        table.mapColumns fun column =>
          if (targetsOf known table target).length = columns.length then
            repoint target.table (columns.zip (targetsOf known table target)) column
          else column
      by_cases paired : (targetsOf known table target).length = columns.length
      · simp only [if_pos paired]
        rw [← point_pairs_eq_map _ table distinct]
        simp only [bind, targetsOf] at paired ⊢
        rw [if_pos paired]
      · simp only [if_neg paired, Table.mapColumns_id]
        simp only [bind, targetsOf] at paired ⊢
        rw [if_neg paired]

end Link

end TableScript
