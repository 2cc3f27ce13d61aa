import TableScript.Proofs.Editing.Made
import TableScript.Proofs.Editing.Tidy
import TableScript.Proofs.RoundTrip.Schema

/-!
Where edits take effect. Apart from renames an edit is about one table or one column, the one with
the name that it is given: that one is put behind all others, changed or taken out, and everything
else stays what it is and where it is. What an edit adds, its counterpart takes out again.
-/

namespace TableScript

/-- The one item with a key gives way to what it becomes. All others stay, in their order. -/
inductive Replaced {α κ : Type} (keyOf : α → κ) (key : κ) (becomes : α → List α → Prop) :
    List α → List α → Prop
  | intro {before after : List α} {item : α} {now : List α} (named : keyOf item = key)
      (others : ∀ other ∈ before ++ after, keyOf other ≠ key) (turned : becomes item now) :
      Replaced keyOf key becomes (before ++ item :: after) (before ++ now ++ after)

def Into {α : Type} (change : α → α) (item : α) (now : List α) : Prop :=
  now = [change item]

def Away {α : Type} (_ : α) (now : List α) : Prop :=
  now = []

/-- An item is taken out that nothing before it is taken for. -/
theorem remove_first_behind {α : Type} (isIt : α → Bool) (before after : List α) (item : α)
    (unlike : ∀ other ∈ before, isIt other = false) (itself : isIt item = true) :
    removeFirst isIt (before ++ item :: after) = before ++ after := by
  induction before with
  | nil => simp [removeFirst, itself]
  | cons other before ih =>
      obtain ⟨head, others⟩ := List.forall_mem_cons.mp unlike
      simp [removeFirst, head, ih others]

/-- What is put behind items with other keys is what is taken out again. -/
theorem remove_appended {α κ : Type} (keyOf : α → κ) (isIt : α → Bool) (items : List α) (item : α)
    (fresh : keyOf item ∉ items.map keyOf) (itself : isIt item = true)
    (alike : ∀ other, isIt other = true → keyOf other = keyOf item) :
    removeFirst isIt (items ++ [item]) = items := by
  have unlike : ∀ other ∈ items, isIt other = false := fun other member =>
    Bool.not_eq_true _ |>.mp fun like => fresh (alike other like ▸ List.mem_map_of_mem member)
  rw [remove_first_behind isIt items [] item unlike itself, List.append_nil]

/-- What is found first is found again when it has been changed. -/
theorem find_changed {α : Type} (isIt : α → Bool) (change : α → α) (items : List α) (item : α)
    (found : items.find? isIt = some item) (kept : isIt (change item) = isIt item) :
    (changeFirst isIt change items).find? isIt = some (change item) := by
  induction items with
  | nil => cases found
  | cons head rest ih =>
      cases here : isIt head with
      | true =>
          rw [List.find?_cons_of_pos here] at found
          cases found
          rw [changeFirst, if_pos here, List.find?_cons_of_pos (kept.trans here)]
      | false =>
          have other : ¬ isIt head = true := by simp [here]
          rw [List.find?_cons_of_neg other] at found
          rw [changeFirst, if_neg other, List.find?_cons_of_neg other, ih found]

theorem change_undone {α : Type} (isIt : α → Bool) (change back : α → α) (items : List α) (item : α)
    (found : items.find? isIt = some item) (kept : ∀ item, isIt (change item) = isIt item)
    (undone : back (change item) = item) :
    changeFirst isIt back (changeFirst isIt change items) = items := by
  obtain ⟨before, after, split, changed⟩ :=
    change_first_found isIt (fun item => back (change item)) items item found
  rw [change_first_twice isIt change back items kept, changed, undone, ← split]

theorem others_apart {α κ : Type} (keyOf : α → κ) (before after : List α) (item : α)
    (distinct : ((before ++ item :: after).map keyOf).Nodup) :
    ∀ other ∈ before ++ after, keyOf other ≠ keyOf item := by
  intro other member same
  rw [List.map_append, List.map_cons, List.nodup_middle, List.nodup_cons, ← List.map_append] at distinct
  exact distinct.1 (same ▸ List.mem_map_of_mem member)

section Keyed

variable {α κ : Type} (keyOf : α → κ) {items : List α} {item : α} {isIt : α → Bool} {key : κ}
  (distinct : (items.map keyOf).Nodup) (found : items.find? isIt = some item)
  (named : keyOf item = key)

include distinct found named

theorem change_replaced (change : α → α) (becomes : α → List α → Prop)
    (turned : becomes item [change item]) :
    Replaced keyOf key becomes items (changeFirst isIt change items) := by
  subst named
  obtain ⟨before, after, rfl, changed⟩ := change_first_found isIt change items item found
  have replaced := Replaced.intro rfl (others_apart keyOf before after item distinct) turned
  rwa [List.append_assoc, List.singleton_append, ← changed] at replaced

theorem remove_replaced (same : α → Bool) (itself : same item = true)
    (alike : ∀ other, same other = true → keyOf other = keyOf item) :
    Replaced keyOf key Away items (removeFirst same items) := by
  subst named
  obtain ⟨before, after, rfl⟩ := List.append_of_mem (List.mem_of_find?_eq_some found)
  have others := others_apart keyOf before after item distinct
  have unlike : ∀ other ∈ before, same other = false := fun other member =>
    Bool.not_eq_true _ |>.mp fun like => others other (List.mem_append_left after member) (alike other like)
  have replaced : Replaced keyOf (keyOf item) Away (before ++ item :: after) (before ++ [] ++ after) :=
    .intro rfl others rfl
  rwa [List.append_nil, ← remove_first_behind same before after item unlike itself] at replaced

end Keyed

/-- No two tables of a schema have one name, and no two columns of a table. -/
structure Schema.Distinct (schema : PlainSchema) : Prop where
  tables : (schema.tables.map (·.name)).Nodup
  columns : ∀ table ∈ schema.tables, table.Distinct

namespace Edit

/-- The one table with a name gives way to what it becomes, and nothing else changes. -/
def OnTable (name : String) (becomes : PlainTable → List PlainTable → Prop)
    (schema later : PlainSchema) : Prop :=
  Replaced (fun table : PlainTable => table.name) name becomes schema.tables later.tables

/-- The one column with a name in the one table with a name gives way to what it becomes, and
nothing else changes. -/
def OnColumn (table name : String) (becomes : PlainColumn → List PlainColumn → Prop) :
    PlainSchema → PlainSchema → Prop :=
  OnTable table fun owner now => ∃ columns,
    Replaced (fun column : PlainColumn => column.name) name becomes owner.columns columns ∧
      now = [{ owner with columns := columns }]

theorem table_alike (table other : PlainTable) (same : table.same other = true) :
    other.name = table.name :=
  (congrArg (fun table : PlainTable => table.name) ((Table.same_iff table other).mp same)).symm

theorem column_alike (column other : PlainColumn) (same : column.same other = true) :
    other.name = column.name := by
  rw [(Column.same_iff column other).mp same]

theorem table_named (schema : PlainSchema) (name : String) (table : PlainTable)
    (found : schema.table? name = some table) : table.name = name := by
  simpa using List.find?_some found

theorem column_named (table : PlainTable) (name : String) (column : PlainColumn)
    (found : table.column? name = some column) : column.name = name := by
  simpa using List.find?_some found

section Confined

variable {schema : PlainSchema} (distinct : schema.Distinct)

include distinct

theorem table_confined {name : String} {table : PlainTable} (found : schema.table? name = some table)
    (change : PlainTable → PlainTable) (becomes : PlainTable → List PlainTable → Prop)
    (turned : becomes table [change table]) :
    OnTable name becomes schema (schema.changeTable name change) := by
  have named := table_named schema name table found
  exact change_replaced (fun table : PlainTable => table.name) distinct.tables found named change
    becomes turned

theorem column_confined {table name : String} {owner : PlainTable} {column : PlainColumn}
    (known : schema.table? table = some owner) (among : owner.column? name = some column)
    (change : PlainColumn → PlainColumn) :
    OnColumn table name (Into change) schema (onColumn table name change schema) := by
  have named := column_named owner name column among
  have inside := distinct.columns owner (List.mem_of_find?_eq_some known)
  refine table_confined distinct known _ _ ⟨_, ?_, rfl⟩
  exact change_replaced (fun column : PlainColumn => column.name) inside among named change
    (Into change) rfl

end Confined

/-- What an edit leaves behind, where it is no rename. -/
def Confined (schema later : PlainSchema) : Edit String Bool → Prop
  | .addTable name position =>
      later.tables = schema.tables ++ [⟨name, [], some (position.getD newPosition)⟩]
  | .removeTable name => OnTable name Away schema later
  | .moveTable name position =>
      OnTable name (Into fun table => { table with position := some position }) schema later
  | .addColumn table name dataType =>
      OnTable table (Into fun owner => { owner with columns := owner.columns ++
        [⟨name, normalizeType dataType, false, true, false, none⟩] }) schema later
  | .removeColumn table name => OnColumn table name Away schema later
  | .setColumnType table name dataType =>
      OnColumn table name (Into fun column => { column with dataType := normalizeType dataType })
        schema later
  | .setPrimaryKey table name flag =>
      OnColumn table name (Into fun column =>
        { column with primaryKey := flag, nullable := !flag && column.nullable }) schema later
  | .setNullable table name flag =>
      OnColumn table name (Into fun column => { column with nullable := flag }) schema later
  | .setUnique table name flag =>
      OnColumn table name (Into fun column => { column with unique := flag }) schema later
  | .setForeignKey table name targetTable targetColumn =>
      OnColumn table name (Into fun column =>
        { column with reference := some ⟨targetTable, targetColumn⟩ }) schema later
  | .clearForeignKey table name =>
      OnColumn table name (Into fun column => { column with reference := none }) schema later
  | .renameTable .. | .renameColumn .. => True

theorem normalized_text (dataType written : String) (spelled : normalized dataType = .ok written) :
    written = normalizeType dataType := by
  simpa [normalized, toValue, Value.textFor, Value.text?, ofText, eq_comm] using spelled

theorem performs_confined (schema later : PlainSchema) (distinct : schema.Distinct)
    (edit : Edit String Bool) (performs : Performs schema edit later) : Confined schema later edit := by
  cases performs with
  | addTable => rfl
  | keepTable | renameTable | keepColumn | renameColumn => trivial
  | @removeTable name table found =>
      have named := table_named schema name table found
      exact remove_replaced (fun table : PlainTable => table.name) distinct.tables found named
        table.same ((Table.same_iff table table).mpr rfl) (table_alike table)
  | moveTable found => exact table_confined distinct found _ _ rfl
  | addColumn known named fresh spelled =>
      rw [normalized_text _ _ spelled]
      exact table_confined distinct known _ _ rfl
  | @removeColumn table name owner column known among =>
      have named := column_named owner name column among
      have inside := distinct.columns owner (List.mem_of_find?_eq_some known)
      refine table_confined distinct known _ _ ⟨_, ?_, rfl⟩
      exact remove_replaced (fun column : PlainColumn => column.name) inside among named column.same
        ((Column.same_iff column column).mpr rfl) (column_alike column)
  | setColumnType known among spelled =>
      rw [normalized_text _ _ spelled]
      exact column_confined distinct known among _
  | @setPrimaryKey table name flag owner column known among holds =>
      rw [onColumn_twice table name (fun column => { column with primaryKey := flag }) _ fun _ => rfl]
      have flagged : flag = true := holds
      subst flagged
      exact column_confined distinct known among _
  | @clearPrimaryKey table name flag owner column known among fails =>
      have cleared : flag = false := fails
      subst cleared
      exact column_confined distinct known among _
  | setNullable known among allowed => exact column_confined distinct known among _
  | setUnique known among => exact column_confined distinct known among _
  | setForeignKey known among complete => exact column_confined distinct known among _
  | clearForeignKey known among => exact column_confined distinct known among _

theorem table_restored (schema later : PlainSchema) (name : String) (position : Option Position)
    (performs : Performs schema (.addTable name position) later) :
    Performs later (.removeTable name) schema := by
  cases performs with
  | addTable visible fresh =>
      have absent := (Schema.table_eq_none schema name).mp fresh
      let table : PlainTable := ⟨name, [], some (position.getD newPosition)⟩
      have found : Schema.table? (⟨schema.tables ++ [table]⟩ : PlainSchema) name = some table := by
        rw [Schema.table?, List.find?_append, show schema.tables.find? _ = none from fresh]
        simp [table]
      have removes := Performs.removeTable found
      rwa [remove_appended (fun table : PlainTable => table.name) table.same _ table absent
        ((Table.same_iff _ _).mpr rfl) (table_alike table)] at removes

theorem column_restored (schema later : PlainSchema) (table name dataType : String)
    (performs : Performs schema (.addColumn table name dataType) later) :
    Performs later (.removeColumn table name) schema := by
  cases performs with
  | @addColumn _ _ _ written owner known visible fresh spelled =>
      have absent := (owner.column_eq_none name).mp fresh
      let column : PlainColumn := ⟨name, written, false, true, false, none⟩
      let add (found : PlainTable) : PlainTable := { found with columns := found.columns ++ [column] }
      let remove (found : PlainTable) : PlainTable :=
        { found with columns := removeFirst column.same found.columns }
      have undone : remove (add owner) = owner := by
        simp only [remove, add]
        rw [remove_appended (fun column : PlainColumn => column.name) column.same _ column absent
          ((Column.same_iff _ _).mpr rfl) (column_alike column)]
      have there : (schema.changeTable table add).table? table = some (add owner) :=
        find_changed _ add schema.tables owner known rfl
      have among : (add owner).column? name = some column := by
        simp only [add, Table.column?, List.find?_append]
        rw [show owner.columns.find? _ = none from fresh]
        simp [column]
      have back : (schema.changeTable table add).changeTable table remove = schema := by
        simp only [Schema.changeTable]
        rw [change_undone _ add remove schema.tables owner known (fun _ => rfl) undone]
      have removes : Performs (schema.changeTable table add) (.removeColumn table name)
          ((schema.changeTable table add).changeTable table remove) := .removeColumn there among
      rwa [back] at removes

/-- Where names are unique, an edit that is no rename changes the one thing that it names and
nothing else. A table or a column that is added and removed again leaves no trace. -/
theorem edits_confined (schema : PlainSchema) (distinct : schema.Distinct) :
    (∀ edit later, Ends (perform schema edit) later → Confined schema later edit) ∧
      (∀ name position later, Ends (perform schema (.addTable name position)) later →
        Ends (perform later (.removeTable name)) schema) ∧
      ∀ table name dataType later, Ends (perform schema (.addColumn table name dataType)) later →
        Ends (perform later (.removeColumn table name)) schema := by
  refine ⟨fun edit later made => ?_, fun name position later made => ?_,
    fun table name dataType later made => ?_⟩
  · exact performs_confined schema later distinct edit ((made_iff schema later edit).mp made)
  · have adds := (made_iff schema later _).mp made
    exact (made_iff later schema _).mpr (table_restored schema later name position adds)
  · have adds := (made_iff schema later _).mp made
    exact (made_iff later schema _).mpr (column_restored schema later table name dataType adds)

/-- The table `staff` without its key, which the other column still points at. -/
def keyless : PlainSchema :=
  ⟨[⟨"staff", [⟨"boss", "INT", false, true, false, some ⟨"staff", "id"⟩⟩], none⟩]⟩

theorem staff_edits_confined :
    OnColumn "staff" "id" Away staff keyless ∧
      (∃ later, Ends (perform staff (.addTable "team" none)) later ∧
        Ends (perform later (.removeTable "team")) staff) ∧
      ∃ later, Ends (perform staff (.addColumn "staff" "note" "TEXT")) later ∧
        Ends (perform later (.removeColumn "staff" "note")) staff := by
  have distinct : staff.Distinct :=
    ⟨by decide, List.forall_mem_singleton.mpr (by simp [Table.Distinct])⟩
  obtain ⟨confined, table, column⟩ := edits_confined staff distinct
  have removed : Ends (perform staff (.removeColumn "staff" "id")) keyless := ⟨_, rfl⟩
  have opened : Ends (perform staff (.addTable "team" none)) _ := ⟨_, rfl⟩
  have noted : Ends (perform staff (.addColumn "staff" "note" "TEXT")) _ := ⟨_, rfl⟩
  exact ⟨confined _ keyless removed, ⟨_, opened, table _ _ _ opened⟩, ⟨_, noted, column _ _ _ _ noted⟩⟩

end Edit
end TableScript
