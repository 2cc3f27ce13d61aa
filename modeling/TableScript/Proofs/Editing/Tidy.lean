import TableScript.Proofs.Editing.Steps

/-!
What edits keep. However a tidy schema is edited, and whichever edits are refused on the way, the
schema behind each of them is tidy: names are unique and not blank, a key column cannot be left
empty, and every reference names a table and a column.
-/

namespace TableScript

theorem remove_first_sublist {α : Type} (isIt : α → Bool) (items : List α) :
    (removeFirst isIt items).Sublist items := by
  induction items with
  | nil => exact .slnil
  | cons head rest ih =>
      rw [removeFirst]
      split
      · exact List.sublist_cons_self head rest
      · exact ih.cons_cons head

/-- Two changes of the first element with a property, which the first change keeps, are one. -/
theorem change_first_twice {α : Type} (isIt : α → Bool) (first second : α → α) (items : List α)
    (same : ∀ item, isIt (first item) = isIt item) :
    changeFirst isIt second (changeFirst isIt first items) =
      changeFirst isIt (fun item => second (first item)) items := by
  induction items with
  | nil => rfl
  | cons item rest ih =>
      cases here : isIt item <;> simp [changeFirst, here, same, ih]

/-- An element may be changed among elements with different keys, if its key is kept or is new. -/
theorem distinct_changed {α κ : Type} (keyOf : α → κ) (before after : List α) (item changed : α)
    (distinct : ((before ++ item :: after).map keyOf).Nodup)
    (key : keyOf changed = keyOf item ∨ keyOf changed ∉ (before ++ item :: after).map keyOf) :
    ((before ++ changed :: after).map keyOf).Nodup := by
  simp only [List.map_append, List.map_cons] at distinct key ⊢
  rw [List.nodup_middle, List.nodup_cons] at distinct ⊢
  refine ⟨?_, distinct.2⟩
  rcases key with kept | new
  · rw [kept]
    exact distinct.1
  · intro there
    rcases List.mem_append.mp there with left | right
    · exact new (List.mem_append_left _ left)
    · exact new (List.mem_append_right _ (List.mem_cons_of_mem _ right))

theorem forall_changed {α : Type} (property : α → Prop) (before after : List α) (item changed : α)
    (each : ∀ other ∈ before ++ item :: after, property other) (kept : property changed) :
    ∀ other ∈ before ++ changed :: after, property other := by
  intro other member
  rcases List.mem_append.mp member with left | right
  · exact each other (List.mem_append_left _ left)
  · rcases List.mem_cons.mp right with rfl | later
    · exact kept
    · exact each other (List.mem_append_right _ (List.mem_cons_of_mem _ later))

structure PlainColumn.Tidy (column : PlainColumn) : Prop where
  named : Text.trim column.name ≠ ""
  key : column.primaryKey = true → column.nullable = false
  reference : ∀ reference ∈ column.reference, reference.table ≠ "" ∧ reference.column ≠ ""

structure PlainTable.Tidy (table : PlainTable) : Prop where
  named : Text.trim table.name ≠ ""
  distinct : table.Distinct
  columns : ∀ column ∈ table.columns, PlainColumn.Tidy column

/-- A schema in which every table and every column has a name of its own that is not blank, no key
column can be left empty, and every reference names a table and a column. -/
structure PlainSchema.Tidy (schema : PlainSchema) : Prop where
  distinct : (schema.tables.map (·.name)).Nodup
  tables : ∀ table ∈ schema.tables, PlainTable.Tidy table

theorem Schema.table_eq_none (schema : PlainSchema) (name : String) :
    schema.table? name = none ↔ name ∉ schema.tables.map (·.name) := by
  simp [Schema.table?]

namespace PlainTable

variable {table : PlainTable} (tidy : Tidy table)

include tidy

/-- A column of a tidy table may be changed, if it keeps its name or gets a new one. -/
theorem tidy_changeColumn {name : String} {column : PlainColumn}
    (found : table.column? name = some column) (change : PlainColumn → PlainColumn)
    (key : (change column).name = column.name ∨ (change column).name ∉ table.columns.map (·.name))
    (kept : PlainColumn.Tidy column → PlainColumn.Tidy (change column)) :
    Tidy (table.changeColumn name change) := by
  obtain ⟨before, after, split, changed⟩ := change_first_found _ change table.columns column found
  have distinct := tidy.distinct
  have columns := tidy.columns
  rw [Table.Distinct, split] at distinct
  rw [split] at columns key
  refine ⟨tidy.named, ?_, ?_⟩
  · rw [Table.Distinct, Table.changeColumn, changed]
    exact distinct_changed _ before after column _ distinct key
  · rw [Table.changeColumn, changed]
    exact forall_changed _ before after column _ columns (kept (columns column (by simp)))

theorem tidy_addColumn (column : PlainColumn) (fresh : table.column? column.name = none)
    (kept : PlainColumn.Tidy column) : Tidy { table with columns := table.columns ++ [column] } := by
  refine ⟨tidy.named, ?_, List.forall_mem_append.mpr ⟨tidy.columns, List.forall_mem_singleton.mpr kept⟩⟩
  have apart := (table.column_eq_none column.name).mp fresh
  rw [Table.Distinct, List.map_append, List.map_singleton]
  exact List.Nodup.append tidy.distinct (List.nodup_singleton _) (List.disjoint_singleton.mpr apart)

theorem tidy_removeColumn (isIt : PlainColumn → Bool) :
    Tidy { table with columns := removeFirst isIt table.columns } := by
  have fewer := remove_first_sublist isIt table.columns
  exact ⟨tidy.named, tidy.distinct.sublist (fewer.map _),
    fun column member => tidy.columns column (fewer.mem member)⟩

end PlainTable

namespace PlainSchema

variable {schema : PlainSchema} (tidy : Tidy schema)

include tidy

/-- A table of a tidy schema may be changed, if it keeps its name or gets a new one. -/
theorem tidy_changeTable {name : String} {table : PlainTable} (found : schema.table? name = some table)
    (change : PlainTable → PlainTable)
    (key : (change table).name = table.name ∨ (change table).name ∉ schema.tables.map (·.name))
    (kept : PlainTable.Tidy table → PlainTable.Tidy (change table)) :
    Tidy (schema.changeTable name change) := by
  obtain ⟨before, after, split, changed⟩ := change_first_found _ change schema.tables table found
  obtain ⟨distinct, tables⟩ := tidy
  rw [split] at distinct tables key
  constructor
  · rw [Schema.changeTable, changed]
    exact distinct_changed _ before after table _ distinct key
  · rw [Schema.changeTable, changed]
    exact forall_changed _ before after table _ tables (kept (tables table (by simp)))

theorem tidy_onColumn {table name : String} {owner : PlainTable} {column : PlainColumn}
    (known : schema.table? table = some owner) (among : owner.column? name = some column)
    (change : PlainColumn → PlainColumn)
    (key : (change column).name = column.name ∨ (change column).name ∉ owner.columns.map (·.name))
    (kept : PlainColumn.Tidy column → PlainColumn.Tidy (change column)) :
    Tidy (Edit.onColumn table name change schema) :=
  tidy_changeTable tidy known _ (Or.inl rfl) fun tidy =>
    PlainTable.tidy_changeColumn tidy among change key kept

theorem tidy_onReferences (change : Reference String → Reference String)
    (full : ∀ reference, reference.table ≠ "" ∧ reference.column ≠ "" →
      (change reference).table ≠ "" ∧ (change reference).column ≠ "") :
    Tidy (Edit.onReferences change schema) := by
  constructor
  · simpa [Edit.onReferences, Function.comp_def] using tidy.distinct
  · intro table member
    obtain ⟨old, inside, rfl⟩ := List.mem_map.mp member
    obtain ⟨named, distinct, columns⟩ := tidy.tables old inside
    refine ⟨named, by simpa [Table.Distinct, Function.comp_def] using distinct, fun column among => ?_⟩
    obtain ⟨before, there, rfl⟩ := List.mem_map.mp among
    refine ⟨(columns before there).named, (columns before there).key, fun reference found => ?_⟩
    obtain ⟨old, pointed, rfl⟩ := Option.map_eq_some_iff.mp found
    exact full old ((columns before there).reference old pointed)

end PlainSchema

namespace Edit

theorem visible_iff (name : String) : Visible name ↔ Text.trim name ≠ "" := by
  constructor
  · rintro ⟨content, same, occupied⟩
    cases same
    exact occupied
  · exact fun occupied => ⟨name, rfl, occupied⟩

theorem visible_occupied (name : String) (visible : Visible name) : name ≠ "" := by
  rintro rfl
  exact (visible_iff "").mp visible rfl

theorem holds_stored_text (name : String) : holdsStored name = true ↔ name ≠ "" := by
  simp [holdsStored, toValue, Value.holds]

/-- Two changes of a column, the first of which keeps its name, are one change. -/
theorem onColumn_twice (table name : String) (first second : PlainColumn → PlainColumn)
    (keeps : Table.KeepsNames first) (schema : PlainSchema) :
    onColumn table name second (onColumn table name first schema) =
      onColumn table name (fun column => second (first column)) schema := by
  have columns : ∀ found : PlainTable, (found.changeColumn name first).changeColumn name second =
      found.changeColumn name fun column => second (first column) := by
    intro found
    simp only [Table.changeColumn]
    rw [change_first_twice _ first second _ fun column => by rw [keeps column]]
  simp only [onColumn, Schema.changeTable]
  rw [change_first_twice]
  · simp only [columns]
  · exact fun found => rfl

/-- Every edit that is made leaves a tidy schema tidy. -/
theorem performs_tidy (schema later : PlainSchema) (edit : Edit String Bool)
    (tidy : PlainSchema.Tidy schema) (performs : Performs schema edit later) :
    PlainSchema.Tidy later := by
  cases performs with
  | @addTable name position named fresh =>
      have apart := (Schema.table_eq_none schema name).mp fresh
      constructor
      · rw [List.map_append, List.map_singleton]
        exact List.Nodup.append tidy.distinct (List.nodup_singleton _) (List.disjoint_singleton.mpr apart)
      · refine List.forall_mem_append.mpr ⟨tidy.tables, List.forall_mem_singleton.mpr ?_⟩
        exact ⟨(visible_iff name).mp named, List.nodup_nil, by simp⟩
  | keepTable => exact tidy
  | @renameTable old new table found other named fresh =>
      have apart := (Schema.table_eq_none schema new).mp fresh
      have renamed := PlainSchema.tidy_changeTable tidy found (fun table => { table with name := new })
        (Or.inr apart) fun tidy => ⟨(visible_iff new).mp named, tidy.distinct, tidy.columns⟩
      refine PlainSchema.tidy_onReferences renamed _ fun reference full => ?_
      rw [retargetTable]
      split
      · exact ⟨visible_occupied new named, full.2⟩
      · exact full
  | @removeTable name table found =>
      have fewer := remove_first_sublist table.same schema.tables
      exact ⟨tidy.distinct.sublist (fewer.map _), fun table member => tidy.tables table (fewer.mem member)⟩
  | moveTable found =>
      exact PlainSchema.tidy_changeTable tidy found _ (Or.inl rfl)
        fun tidy => ⟨tidy.named, tidy.distinct, tidy.columns⟩
  | addColumn known named fresh spelled =>
      exact PlainSchema.tidy_changeTable tidy known _ (Or.inl rfl) fun tidy =>
        PlainTable.tidy_addColumn tidy _ fresh ⟨(visible_iff _).mp named, by rintro ⟨⟩, by simp⟩
  | removeColumn known among =>
      exact PlainSchema.tidy_changeTable tidy known _ (Or.inl rfl) fun tidy =>
        PlainTable.tidy_removeColumn tidy _
  | keepColumn => exact tidy
  | @renameColumn table old new owner column known among other named fresh =>
      have apart := (owner.column_eq_none new).mp fresh
      have renamed := PlainSchema.tidy_onColumn tidy known among (fun column => { column with name := new })
        (Or.inr apart) fun tidy => ⟨(visible_iff new).mp named, tidy.key, tidy.reference⟩
      refine PlainSchema.tidy_onReferences renamed _ fun reference full => ?_
      rw [retargetColumn]
      split
      case isTrue same =>
        have target : (reference.table == table) = true := by simpa using (Bool.and_eq_true_iff.mp same).1
        exact ⟨beq_iff_eq.mp target ▸ full.1, visible_occupied new named⟩
      case isFalse => exact full
  | setColumnType known among spelled =>
      exact PlainSchema.tidy_onColumn tidy known among _ (Or.inl rfl)
        fun tidy => ⟨tidy.named, tidy.key, tidy.reference⟩
  | @setPrimaryKey table name flag owner column known among holds =>
      rw [onColumn_twice table name (fun column => { column with primaryKey := flag }) _ fun _ => rfl]
      exact PlainSchema.tidy_onColumn tidy known among _ (Or.inl rfl)
        fun tidy => ⟨tidy.named, fun _ => rfl, tidy.reference⟩
  | @setNullable table name flag owner column known among allowed =>
      refine PlainSchema.tidy_onColumn tidy known among _ (Or.inl rfl)
        fun tidy => ⟨tidy.named, fun key => ?_, tidy.reference⟩
      have keyed : column.primaryKey = true := key
      simpa [keyed] using allowed
  | clearPrimaryKey known among fails =>
      exact PlainSchema.tidy_onColumn tidy known among _ (Or.inl rfl)
        fun tidy => ⟨tidy.named, fun key => absurd (fails.symm.trans key) Bool.false_ne_true, tidy.reference⟩
  | setUnique known among =>
      exact PlainSchema.tidy_onColumn tidy known among _ (Or.inl rfl)
        fun tidy => ⟨tidy.named, tidy.key, tidy.reference⟩
  | setForeignKey known among complete =>
      obtain ⟨table, column⟩ := Bool.and_eq_true_iff.mp complete
      refine PlainSchema.tidy_onColumn tidy known among _ (Or.inl rfl)
        fun tidy => ⟨tidy.named, tidy.key, ?_⟩
      rintro reference ⟨rfl⟩
      exact ⟨(holds_stored_text _).mp table, (holds_stored_text _).mp column⟩
  | clearForeignKey known among =>
      exact PlainSchema.tidy_onColumn tidy known among _ (Or.inl rfl)
        fun tidy => ⟨tidy.named, tidy.key, by simp⟩

theorem perform_tidy (schema : PlainSchema) (edit : Edit String Bool) (tidy : PlainSchema.Tidy schema) :
    PlainSchema.Tidy (perform schema edit).2 := by
  have outcome := perform_outcome schema edit
  cases performed : perform schema edit with
  | mk result later =>
      rw [performed] at outcome
      cases result with
      | ok added => exact performs_tidy schema later edit tidy outcome
      | error fault => exact (show later = schema from outcome) ▸ tidy

/-- The schema behind each of some edits, made or refused one after the other. -/
def states (schema : PlainSchema) : List (Edit String Bool) → List PlainSchema
  | [] => []
  | edit :: rest => (perform schema edit).2 :: states (perform schema edit).2 rest

/-- However a tidy schema is edited, it is tidy behind every edit. -/
theorem states_tidy (schema : PlainSchema) (tidy : PlainSchema.Tidy schema)
    (edits : List (Edit String Bool)) : ∀ later ∈ states schema edits, PlainSchema.Tidy later := by
  induction edits generalizing schema with
  | nil => simp [states]
  | cons edit rest ih =>
      have first := perform_tidy schema edit tidy
      exact List.forall_mem_cons.mpr ⟨first, ih _ first⟩

/-- A table that points at itself. -/
def staff : PlainSchema :=
  ⟨[⟨"staff", [⟨"id", "INT", true, false, false, none⟩,
      ⟨"boss", "INT", false, true, false, some ⟨"staff", "id"⟩⟩], none⟩]⟩

-- The second and the last of these are refused.
def staffEdits : List (Edit String Bool) :=
  [.renameTable "staff" "people", .setNullable "people" "id" true, .renameColumn "people" "id" "number",
    .setPrimaryKey "people" "boss" true, .addTable "people" none]

theorem staff_states_tidy : PlainSchema.Tidy staff ∧
    (states staff staffEdits).length = 5 ∧ ∀ later ∈ states staff staffEdits, PlainSchema.Tidy later := by
  have tidy : PlainSchema.Tidy staff := by
    refine ⟨by decide, List.forall_mem_singleton.mpr ⟨by decide +kernel, by simp [Table.Distinct], ?_⟩⟩
    refine List.forall_mem_cons.mpr ⟨⟨by decide +kernel, fun _ => rfl, by simp⟩,
      List.forall_mem_singleton.mpr ⟨by decide +kernel, by decide, ?_⟩⟩
    rintro reference ⟨rfl⟩
    exact ⟨by decide, by decide⟩
  exact ⟨tidy, rfl, states_tidy staff tidy staffEdits⟩

end Edit

end TableScript
