import TableScript.Proofs.Editing.Confined

/-!
Renames. A rename gives one table or one column another name, and every reference to it follows, in
whichever table it stands. What comes of it is the schema under a renaming that replaces one name.
The way back is a renaming as well, and the two together change what had the new name before.
-/

namespace TableScript

/-- New names for tables, and for the columns of a table, which is given by the name it had. -/
structure Renaming where
  table : String → String
  column : String → String → String

namespace Renaming

def ofReference (names : Renaming) (reference : Reference String) : Reference String :=
  ⟨names.table reference.table, names.column reference.table reference.column⟩

def ofColumn (names : Renaming) (owner : String) (column : PlainColumn) : PlainColumn :=
  { column with
    name := names.column owner column.name
    reference := column.reference.map names.ofReference }

def ofTable (names : Renaming) (table : PlainTable) : PlainTable :=
  { table with
    name := names.table table.name
    columns := table.columns.map (names.ofColumn table.name) }

def ofSchema (names : Renaming) (schema : PlainSchema) : PlainSchema :=
  ⟨schema.tables.map names.ofTable⟩

/-- One renaming behind another. Columns are named by the table they are in at the time. -/
def andThen (first second : Renaming) : Renaming where
  table name := second.table (first.table name)
  column owner name := second.column (first.table owner) (first.column owner name)

theorem ofColumn_andThen (first second : Renaming) (owner : String) (column : PlainColumn) :
    second.ofColumn (first.table owner) (first.ofColumn owner column) =
      (first.andThen second).ofColumn owner column := by
  obtain ⟨name, dataType, primaryKey, nullable, unique, reference⟩ := column
  cases reference <;> rfl

theorem ofSchema_andThen (first second : Renaming) (schema : PlainSchema) :
    second.ofSchema (first.ofSchema schema) = (first.andThen second).ofSchema schema := by
  simp only [ofSchema, ofTable, List.map_map, Function.comp_def, ofColumn_andThen]
  rfl

variable (names : Renaming)

theorem names_ofTable (table : PlainTable) :
    (names.ofTable table).columns.map (·.name) =
      (table.columns.map (·.name)).map (names.column table.name) := by
  simp [ofTable, ofColumn, Function.comp_def]

theorem names_ofSchema (schema : PlainSchema) :
    (names.ofSchema schema).tables.map (·.name) =
      (schema.tables.map (·.name)).map names.table := by
  simp [ofSchema, ofTable, Function.comp_def]

/-- A renaming that keeps different names apart leads from distinct names to distinct names. -/
theorem distinct_ofSchema (schema : PlainSchema) (distinct : schema.Distinct)
    (tables : ∀ a ∈ schema.tables.map (·.name), ∀ b ∈ schema.tables.map (·.name),
      names.table a = names.table b → a = b)
    (columns : ∀ table ∈ schema.tables, ∀ a ∈ table.columns.map (·.name),
      ∀ b ∈ table.columns.map (·.name),
        names.column table.name a = names.column table.name b → a = b) :
    (names.ofSchema schema).Distinct := by
  constructor
  · rw [names_ofSchema]
    exact distinct.tables.map_on tables
  · intro later member
    obtain ⟨table, inside, rfl⟩ := List.mem_map.mp member
    rw [Table.Distinct, names_ofTable]
    exact (distinct.columns table inside).map_on (columns table inside)

theorem map_eq_self_iff {α : Type} (change : α → α) (items : List α) :
    items.map change = items ↔ ∀ item ∈ items, change item = item := by
  simpa using List.map_inj_left (f := change) (g := id) (l := items)

theorem ofColumn_eq_self_iff (owner : String) (column : PlainColumn) :
    names.ofColumn owner column = column ↔ names.column owner column.name = column.name ∧
      ∀ reference ∈ column.reference, names.ofReference reference = reference := by
  obtain ⟨name, dataType, primaryKey, nullable, unique, reference⟩ := column
  cases reference <;> simp [ofColumn]

theorem ofTable_eq_self_iff (table : PlainTable) :
    names.ofTable table = table ↔ names.table table.name = table.name ∧
      ∀ column ∈ table.columns, names.ofColumn table.name column = column := by
  obtain ⟨name, columns, position⟩ := table
  simp [ofTable, map_eq_self_iff]

/-- A schema is left as it is where all names in it and all references are. -/
theorem ofSchema_eq_self_iff (schema : PlainSchema) :
    names.ofSchema schema = schema ↔
      (∀ table ∈ schema.tables, names.table table.name = table.name ∧
        ∀ column ∈ table.columns, names.column table.name column.name = column.name) ∧
      ∀ reference ∈ schema.references, names.ofReference reference = reference := by
  obtain ⟨tables⟩ := schema
  simp only [ofSchema, Schema.mk.injEq, map_eq_self_iff, ofTable_eq_self_iff, ofColumn_eq_self_iff,
    Schema.references, List.mem_flatMap, List.mem_filterMap]
  constructor
  · intro same
    refine ⟨fun table member => ⟨(same table member).1, fun column among => ?_⟩, ?_⟩
    · exact ((same table member).2 column among).1
    · rintro reference ⟨table, member, column, among, pointed⟩
      exact ((same table member).2 column among).2 reference pointed
  · rintro ⟨named, pointed⟩ table member
    refine ⟨(named table member).1, fun column among => ⟨(named table member).2 column among, ?_⟩⟩
    exact fun reference found => pointed reference ⟨table, member, column, among, found⟩

end Renaming

def replaced (old new name : String) : String :=
  if name = old then new else name

theorem replaced_injective (old new : String) (taken : List String) (fresh : new ∉ taken) :
    ∀ a ∈ taken, ∀ b ∈ taken, replaced old new a = replaced old new b → a = b := by
  intro a first b second same
  rw [replaced, replaced] at same
  split at same
  case isTrue isOld =>
    split at same
    case isTrue isOldToo => exact isOld.trans isOldToo.symm
    case isFalse => exact absurd (same ▸ second) fresh
  case isFalse =>
    split at same
    case isTrue => exact absurd (same ▸ first) fresh
    case isFalse => exact same

theorem new_mem_replaced (old new : String) (taken : List String) (there : old ∈ taken) :
    new ∈ taken.map (replaced old new) :=
  List.mem_map.mpr ⟨old, there, if_pos rfl⟩

theorem old_not_mem_replaced (old new : String) (taken : List String) (other : old ≠ new) :
    old ∉ taken.map (replaced old new) := by
  intro member
  obtain ⟨name, -, same⟩ := List.mem_map.mp member
  rw [replaced] at same
  split at same
  case isTrue => exact other same.symm
  case isFalse different => exact different same

/-- A name that is replaced and replaced back is the same, unless it was the new one before. -/
theorem replaced_back (old new name : String) (other : old ≠ new) :
    replaced new old (replaced old new name) = name ↔ name ≠ new := by
  by_cases isOld : name = old
  · subst isOld
    simp [replaced, other]
  · by_cases isNew : name = new
    · subst isNew
      simp [replaced, other]
    · simp [replaced, isOld, isNew]

namespace Renaming

def ofOneTable (old new : String) : Renaming where
  table := replaced old new
  column _ name := name

def ofOneColumn (table old new : String) : Renaming where
  table name := name
  column owner name := if owner = table then replaced old new name else name

theorem ofOneTable_back (schema : PlainSchema) (old new : String) (other : old ≠ new)
    (fresh : new ∉ schema.tables.map (·.name)) :
    (ofOneTable new old).ofSchema ((ofOneTable old new).ofSchema schema) = schema ↔
      ∀ reference ∈ schema.references, reference.table ≠ new := by
  rw [ofSchema_andThen, ofSchema_eq_self_iff]
  have references : ∀ reference,
      ((ofOneTable old new).andThen (ofOneTable new old)).ofReference reference = reference ↔
        reference.table ≠ new := by
    intro ⟨target, column⟩
    simp [andThen, ofOneTable, ofReference, replaced_back old new target other]
  simp only [references]
  refine and_iff_right fun table member => ⟨?_, fun column _ => rfl⟩
  refine (replaced_back old new table.name other).mpr fun same => fresh ?_
  exact same ▸ List.mem_map_of_mem member

theorem ofOneColumn_back (schema : PlainSchema) (distinct : schema.Distinct) (owner : PlainTable)
    (member : owner ∈ schema.tables) (old new : String) (other : old ≠ new)
    (fresh : new ∉ owner.columns.map (·.name)) :
    (ofOneColumn owner.name new old).ofSchema ((ofOneColumn owner.name old new).ofSchema schema) =
        schema ↔
      ∀ reference ∈ schema.references, reference ≠ ⟨owner.name, new⟩ := by
  rw [ofSchema_andThen, ofSchema_eq_self_iff]
  have columns : ∀ table name,
      ((ofOneColumn owner.name old new).andThen (ofOneColumn owner.name new old)).column table name =
        name ↔ ¬ (table = owner.name ∧ name = new) := by
    intro table name
    by_cases onTable : table = owner.name
    · simp [andThen, ofOneColumn, onTable, replaced_back old new name other]
    · simp [andThen, ofOneColumn, onTable]
  have references : ∀ reference,
      ((ofOneColumn owner.name old new).andThen (ofOneColumn owner.name new old)).ofReference
        reference = reference ↔ reference ≠ ⟨owner.name, new⟩ := by
    intro ⟨target, column⟩
    rw [ofReference, Reference.mk.injEq, columns]
    simp [andThen, ofOneColumn]
  simp only [references]
  refine and_iff_right fun table inside => ⟨rfl, fun column among => (columns _ _).mpr ?_⟩
  rintro ⟨onTable, isNew⟩
  -- The table with that name is the one that has no column with the new name.
  have same := List.inj_on_of_nodup_map distinct.tables inside member onTable
  exact fresh (same ▸ isNew ▸ List.mem_map_of_mem among)

end Renaming

theorem Table.column_known (table : PlainTable) (name : String) :
    name ∈ table.columns.map (·.name) ↔ ∃ column, table.column? name = some column := by
  rw [← Option.ne_none_iff_exists', Ne, column_eq_none, not_not]

namespace Schema

theorem table_known (schema : PlainSchema) (name : String) :
    name ∈ schema.tables.map (·.name) ↔ ∃ table, schema.table? name = some table := by
  rw [← Option.ne_none_iff_exists', Ne, table_eq_none, not_not]

variable {schema : PlainSchema} (distinct : schema.Distinct)

include distinct

theorem table_found (table : PlainTable) (member : table ∈ schema.tables) :
    schema.table? table.name = some table := by
  obtain ⟨other, found⟩ := (table_known schema table.name).mp (List.mem_map_of_mem member)
  have named := Edit.table_named schema table.name other found
  have there := List.mem_of_find?_eq_some found
  rw [found, List.inj_on_of_nodup_map distinct.tables there member named]

theorem changeTable_eq_map (name : String) (change : PlainTable → PlainTable) :
    schema.changeTable name change =
      ⟨schema.tables.map fun table => if table.name = name then change table else table⟩ := by
  rw [changeTable, change_first_keyed (fun table : PlainTable => table.name) _ name change
    schema.tables (by simp) distinct.tables]

end Schema

namespace Edit

open Renaming

theorem retargetTable_eq (old new : String) :
    retargetTable old new = (ofOneTable old new).ofReference := by
  funext reference
  simp only [retargetTable, ofReference, ofOneTable, replaced, same_stored_text, beq_iff_eq]
  split <;> rfl

theorem retargetColumn_eq (table old new : String) :
    retargetColumn table old new = (ofOneColumn table old new).ofReference := by
  funext ⟨target, column⟩
  by_cases onTable : target = table <;> by_cases onOld : column = old <;>
    simp [retargetColumn, ofReference, ofOneColumn, replaced, onTable, onOld]

section Renamed

variable {schema : PlainSchema} (distinct : schema.Distinct)

include distinct

theorem table_renamed (old new : String) :
    onReferences (retargetTable old new)
        (schema.changeTable old fun table => { table with name := new }) =
      (ofOneTable old new).ofSchema schema := by
  rw [Schema.changeTable_eq_map distinct, retargetTable_eq, onReferences, ofSchema, List.map_map]
  congr 1
  refine List.map_congr_left fun table _ => ?_
  by_cases named : table.name = old
  · simp [named, ofTable, ofColumn, ofOneTable, replaced]
  · simp [named, ofTable, ofColumn, ofOneTable, replaced]

theorem column_renamed (table old new : String) :
    onReferences (retargetColumn table old new)
        (onColumn table old (fun column => { column with name := new }) schema) =
      (ofOneColumn table old new).ofSchema schema := by
  rw [onColumn, Schema.changeTable_eq_map distinct, retargetColumn_eq, onReferences, ofSchema,
    List.map_map]
  congr 1
  refine List.map_congr_left fun owner member => ?_
  by_cases named : owner.name = table
  · rw [Function.comp_apply, if_pos named,
      owner.changeColumn_eq_map old _ (distinct.columns owner member)]
    simp only [Table.mapColumns, List.map_map, ofTable]
    congr 1
    refine List.map_congr_left fun column _ => ?_
    by_cases isOld : column.name = old
    · simp [named, isOld, Table.onNamed, ofColumn, ofOneColumn, replaced]
    · simp [named, isOld, Table.onNamed, ofColumn, ofOneColumn, replaced]
  · simp [named, ofTable, ofColumn, ofOneColumn]

/-- When a table gets another name, and what comes of it. -/
theorem renameTable_iff (old new : String) (other : old ≠ new) (later : PlainSchema) :
    Ends (perform schema (.renameTable old new)) later ↔
      old ∈ schema.tables.map (·.name) ∧ Text.trim new ≠ "" ∧
        new ∉ schema.tables.map (·.name) ∧ later = (ofOneTable old new).ofSchema schema := by
  rw [made_iff, ← table_renamed distinct old new]
  constructor
  · intro performs
    cases performs with
    | keepTable found same => exact absurd (by simpa using same) other
    | renameTable found _ named fresh =>
        exact ⟨(schema.table_known old).mpr ⟨_, found⟩, (visible_iff new).mp named,
          (schema.table_eq_none new).mp fresh, rfl⟩
  · rintro ⟨there, named, fresh, rfl⟩
    obtain ⟨table, found⟩ := (schema.table_known old).mp there
    exact .renameTable found (by simpa using other) ((visible_iff new).mpr named)
      ((schema.table_eq_none new).mpr fresh)

/-- When a column of a table gets another name, and what comes of it. -/
theorem renameColumn_iff (table old new : String) (other : old ≠ new) (later : PlainSchema) :
    Ends (perform schema (.renameColumn table old new)) later ↔
      ∃ owner ∈ schema.tables, owner.name = table ∧
        old ∈ owner.columns.map (·.name) ∧ Text.trim new ≠ "" ∧
        new ∉ owner.columns.map (·.name) ∧ later = (ofOneColumn table old new).ofSchema schema := by
  rw [made_iff, ← column_renamed distinct table old new]
  constructor
  · intro performs
    cases performs with
    | keepColumn known among same => exact absurd (by simpa using same) other
    | @renameColumn _ _ _ owner column known among _ named fresh =>
        exact ⟨owner, List.mem_of_find?_eq_some known, table_named schema table owner known,
          (owner.column_known old).mpr ⟨column, among⟩, (visible_iff new).mp named,
          (owner.column_eq_none new).mp fresh, rfl⟩
  · rintro ⟨owner, member, rfl, there, named, fresh, rfl⟩
    obtain ⟨column, among⟩ := (owner.column_known old).mp there
    exact .renameColumn (Schema.table_found distinct owner member) among (by simpa using other)
      ((visible_iff new).mpr named) ((owner.column_eq_none new).mpr fresh)

/-- A table that got another name can be given its old name again, and what comes of it is the
schema before, where its old name is not blank and nothing pointed at the other name. -/
theorem table_undone_iff (old new : String) (other : old ≠ new) (later : PlainSchema)
    (made : Ends (perform schema (.renameTable old new)) later) :
    Ends (perform later (.renameTable new old)) schema ↔
      Text.trim old ≠ "" ∧ ∀ reference ∈ schema.references, reference.table ≠ new := by
  obtain ⟨there, -, fresh, rfl⟩ := (renameTable_iff distinct old new other later).mp made
  have apart : ((ofOneTable old new).ofSchema schema).Distinct :=
    distinct_ofSchema _ schema distinct (replaced_injective old new _ fresh) fun _ _ _ _ _ _ same => same
  have renamed := new_mem_replaced old new _ there
  have gone := old_not_mem_replaced old new (schema.tables.map (·.name)) other
  rw [renameTable_iff apart new old other.symm, names_ofSchema, eq_comm (a := schema),
    ofOneTable_back schema old new other fresh]
  exact ⟨fun ⟨_, named, _, free⟩ => ⟨named, free⟩, fun ⟨named, free⟩ => ⟨renamed, named, gone, free⟩⟩

theorem column_undone_iff (table old new : String) (other : old ≠ new) (later : PlainSchema)
    (made : Ends (perform schema (.renameColumn table old new)) later) :
    Ends (perform later (.renameColumn table new old)) schema ↔
      Text.trim old ≠ "" ∧ ∀ reference ∈ schema.references, reference ≠ ⟨table, new⟩ := by
  obtain ⟨owner, member, rfl, there, -, fresh, rfl⟩ :=
    (renameColumn_iff distinct table old new other later).mp made
  have columns : ∀ table ∈ schema.tables, ∀ a ∈ table.columns.map (·.name),
      ∀ b ∈ table.columns.map (·.name), (ofOneColumn owner.name old new).column table.name a =
        (ofOneColumn owner.name old new).column table.name b → a = b := by
    intro table inside
    by_cases onTable : table.name = owner.name
    · have same := List.inj_on_of_nodup_map distinct.tables inside member onTable
      subst same
      simpa only [ofOneColumn, if_true] using replaced_injective old new _ fresh
    · simp [ofOneColumn, onTable]
  have apart : ((ofOneColumn owner.name old new).ofSchema schema).Distinct :=
    distinct_ofSchema _ schema distinct (fun _ _ _ _ same => same) columns
  have names : ((ofOneColumn owner.name old new).ofTable owner).columns.map (·.name) =
      (owner.columns.map (·.name)).map (replaced old new) := by
    rw [names_ofTable]
    simp only [ofOneColumn, if_true]
  rw [renameColumn_iff apart owner.name new old other.symm, eq_comm (a := schema),
    ofOneColumn_back schema distinct owner member old new other fresh]
  constructor
  · rintro ⟨_, _, _, _, named, _, free⟩
    exact ⟨named, free⟩
  · rintro ⟨named, free⟩
    refine ⟨_, List.mem_map_of_mem member, rfl, ?_, named, ?_, free⟩
    · exact names ▸ new_mem_replaced old new _ there
    · exact names ▸ old_not_mem_replaced old new _ other

end Renamed

/-- Where names are unique, a rename replaces one name and what refers to it, and nothing else. It
can be undone exactly where its old name is not blank and nothing pointed at the new one before:
what did would be taken along on the way back. -/
theorem renames_replace (schema : PlainSchema) (distinct : schema.Distinct) :
    (∀ old new later, old ≠ new → Ends (perform schema (.renameTable old new)) later →
      later = (ofOneTable old new).ofSchema schema ∧
        (Ends (perform later (.renameTable new old)) schema ↔
          Text.trim old ≠ "" ∧ ∀ reference ∈ schema.references, reference.table ≠ new)) ∧
      ∀ table old new later, old ≠ new → Ends (perform schema (.renameColumn table old new)) later →
        later = (ofOneColumn table old new).ofSchema schema ∧
          (Ends (perform later (.renameColumn table new old)) schema ↔
            Text.trim old ≠ "" ∧ ∀ reference ∈ schema.references, reference ≠ ⟨table, new⟩) := by
  constructor
  · intro old new later other made
    obtain ⟨-, -, -, renamed⟩ := (renameTable_iff distinct old new other later).mp made
    exact ⟨renamed, table_undone_iff distinct old new other later made⟩
  · intro table old new later other made
    obtain ⟨_, -, -, -, -, -, renamed⟩ := (renameColumn_iff distinct table old new other later).mp made
    exact ⟨renamed, column_undone_iff distinct table old new other later made⟩

/-- Tables that point at themselves, at each other and at a table that is not there. -/
def offices (people number : String) : PlainSchema :=
  ⟨[⟨people, [⟨number, "INT", true, false, false, none⟩,
      ⟨"boss", "INT", false, true, false, some ⟨people, number⟩⟩], none⟩,
    ⟨"room", [⟨"id", "INT", true, false, false, none⟩,
      ⟨"tenant", "INT", false, true, false, some ⟨people, number⟩⟩,
      ⟨"floor", "INT", false, true, false, some ⟨"storey", "id"⟩⟩], some ⟨.int 1, .int 2⟩⟩]⟩

-- The last of these takes the reference to `storey` along on the way back.
theorem offices_renamed :
    Ends (perform (offices "staff" "id") (.renameTable "staff" "people")) (offices "people" "id") ∧
      Ends (perform (offices "people" "id") (.renameTable "people" "staff")) (offices "staff" "id") ∧
      Ends (perform (offices "staff" "id") (.renameColumn "staff" "id" "no")) (offices "staff" "no") ∧
      Ends (perform (offices "staff" "no") (.renameColumn "staff" "no" "id")) (offices "staff" "id") ∧
      ∃ later, Ends (perform (offices "staff" "id") (.renameTable "staff" "storey")) later ∧
        ¬ Ends (perform later (.renameTable "storey" "staff")) (offices "staff" "id") := by
  have distinct : (offices "staff" "id").Distinct :=
    ⟨by decide, List.forall_mem_cons.mpr ⟨by simp [Table.Distinct],
      List.forall_mem_singleton.mpr (by simp [Table.Distinct])⟩⟩
  obtain ⟨tables, columns⟩ := renames_replace (offices "staff" "id") distinct
  have visible : Text.trim "staff" ≠ "" ∧ Text.trim "id" ≠ "" := by decide +kernel
  have table : Ends (perform (offices "staff" "id") (.renameTable "staff" "people"))
      (offices "people" "id") := ⟨_, rfl⟩
  have column : Ends (perform (offices "staff" "id") (.renameColumn "staff" "id" "no"))
      (offices "staff" "no") := ⟨_, rfl⟩
  have captured : Ends (perform (offices "staff" "id") (.renameTable "staff" "storey")) _ := ⟨_, rfl⟩
  refine ⟨table, ?_, column, ?_, _, captured, ?_⟩
  · exact (tables _ _ _ (by decide) table).2.mpr ⟨visible.1, by decide⟩
  · exact (columns _ _ _ _ (by decide) column).2.mpr ⟨visible.2, by decide⟩
  · exact fun back => absurd ((tables _ _ _ (by decide) captured).2.mp back).2 (by decide)

end Edit

end TableScript
