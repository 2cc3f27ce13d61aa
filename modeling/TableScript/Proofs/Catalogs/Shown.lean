import TableScript.Proofs.Catalogs.Columns
import TableScript.Proofs.Documents.Loading
import TableScript.Proofs.RoundTrip.Linked

/-!
The schema of a database is what its catalog reports and nothing else: one table for each reported
one, one column for each reported one, and of each column just what the lists of its table say about
it. So a catalog that reports what a schema has shows that schema again.
-/

namespace TableScript

/-- Texts, each once. -/
def DistinctTexts (names : List Value) : Prop :=
  ∃ texts : List String, texts.Nodup ∧ names = texts.map .text

theorem DistinctTexts.apart {names : List Value} (distinct : DistinctTexts names) :
    names.Pairwise fun one other => sameStored one other = false := by
  obtain ⟨texts, once, rfl⟩ := distinct
  exact (Load.distinct_stored id .text id (fun _ => rfl) texts).mpr ((List.map_id texts).symm ▸ once)

theorem DistinctTexts.text {names : List Value} (distinct : DistinctTexts names) (name : Value)
    (member : name ∈ names) : ∃ text : String, name = .text text := by
  obtain ⟨texts, _, rfl⟩ := distinct
  obtain ⟨text, _, rfl⟩ := List.mem_map.mp member
  exact ⟨text, rfl⟩

theorem same_text_iff (text : String) (name : Value) :
    sameStored (.text text) name = true ↔ name = .text text := by
  cases name with
  | text other => rw [Load.text_same, beq_iff_eq, Value.text.injEq, eq_comm]
  | _ => simp [sameStored, toValue, Value.same, Value.sameNumber, Value.whole?]

namespace Catalog

/-- Tables with names of their own, columns with names of their own in each table, and of each column
whether it can be empty. What keys and constraints name is not restricted. -/
structure Regular (reports : List (CatalogTable Value Value)) : Prop where
  tables : DistinctTexts (reports.map (·.name))
  columns : ∀ reported ∈ reports, DistinctTexts (reported.columns.map (·.name))
  nullable : ∀ reported ∈ reports, ∀ found ∈ reported.columns, ∃ flag, found.nullable = .bool flag

/-- A truth value that tells whether something is so. -/
def Says (flag : Value) (fact : Prop) : Prop :=
  ∃ holds, flag = .bool holds ∧ (holds = true ↔ fact)

/-- The last pair with a name that points at anything, or that there is none. -/
def LastTarget (name : Value) (pairs : List (Value × Reference Value)) :
    Option (Reference Value) → Prop
  | some target => ∃ before after, pairs = before ++ (name, target) :: after ∧
      target.column.holds = true ∧ ∀ pair ∈ after, pair.1 = name → pair.2.column.holds = false
  | none => ∀ pair ∈ pairs, pair.1 = name → pair.2.column.holds = false

structure ShowsColumn (reported : CatalogTable Value Value) (found : CatalogColumn Value Value)
    (column : Column Value Value) : Prop where
  name : column.name = found.name
  dataType : column.dataType = .text (normalizeType (inWords found.dataType))
  primaryKey : Says column.primaryKey (found.name ∈ reported.keyColumns)
  nullable : Says column.nullable (found.nullable = .bool true ∧ found.name ∉ reported.keyColumns)
  unique : Says column.unique ([found.name] ∈ reported.unique)
  reference : LastTarget found.name reported.targets column.reference

structure ShowsTable (reported : CatalogTable Value Value) (table : Table Value Value) : Prop where
  name : table.name = reported.name
  columns : List.Forall₂ (ShowsColumn reported) reported.columns table.columns
  unplaced : table.position = none

theorem says_flag (holds : Bool) (fact : Prop) (same : holds = true ↔ fact) :
    Says (ofFlag holds) fact :=
  ⟨holds, rfl, same⟩

theorem says_once (first second : Value) (fact : Prop) (one : Says first fact)
    (other : Says second fact) : first = second := by
  obtain ⟨holds, rfl, same⟩ := one
  obtain ⟨holds', rfl, same'⟩ := other
  rw [Bool.eq_iff_iff.mpr (same.trans same'.symm)]

theorem points_iff (text : String) (pair : Value × Reference Value) :
    points (.text text) pair = true ↔ pair.1 = .text text ∧ pair.2.column.holds = true := by
  rw [points, Bool.and_eq_true, same_text_iff, and_comm]
  rfl

theorem points_not_iff (text : String) (pair : Value × Reference Value) :
    points (.text text) pair = false ↔ (pair.1 = .text text → pair.2.column.holds = false) := by
  rw [← Bool.not_eq_true, points_iff, not_and, Bool.not_eq_true]

theorem lastTarget_iff (text : String) (pairs : List (Value × Reference Value))
    (reference : Option (Reference Value)) :
    LastTarget (.text text) pairs reference ↔ lastTarget? (.text text) pairs = reference := by
  cases reference with
  | none =>
      simp only [LastTarget, lastTarget?, Option.map_eq_none_iff, List.getLast?_eq_none_iff,
        List.filter_eq_nil_iff, Bool.not_eq_true, points_not_iff]
  | some target =>
      rw [LastTarget, lastTarget?, Option.map_eq_some_iff]
      constructor
      · rintro ⟨before, after, rfl, holds, later⟩
        refine ⟨(.text text, target), ?_, rfl⟩
        have here : points (.text text) (.text text, target) = true :=
          (points_iff text _).mpr ⟨rfl, holds⟩
        have none : after.filter (points (.text text)) = [] :=
          List.filter_eq_nil_iff.mpr fun pair member =>
            Bool.not_eq_true _ ▸ (points_not_iff text pair).mpr (later pair member)
        rw [List.filter_append, List.filter_cons, if_pos here, none, List.getLast?_append]
        rfl
      · rintro ⟨pair, last, rfl⟩
        obtain ⟨earlier, parts⟩ := List.getLast?_eq_some_iff.mp last
        obtain ⟨before, rest, rfl, -, tail⟩ := List.filter_eq_append_iff.mp parts
        obtain ⟨skipped, after, rfl, -, here, none⟩ := List.filter_eq_cons_iff.mp tail
        obtain ⟨named, holds⟩ := (points_iff text pair).mp here
        refine ⟨before ++ skipped, after, ?_, holds, ?_⟩
        · rw [← named, List.append_assoc]
        · intro later member
          exact (points_not_iff text later).mp
            (Bool.not_eq_true _ ▸ List.filter_eq_nil_iff.mp none later member)

theorem isAlone_iff (text : String) (constraint : List Value) :
    isAlone (.text text) constraint = true ↔ constraint = [.text text] := by
  match constraint with
  | [only] => rw [isAlone, same_text_iff, List.cons.injEq, and_iff_left rfl]
  | [] => simp [isAlone]
  | _ :: _ :: _ => simp [isAlone]

theorem column_shown (reported : CatalogTable Value Value) (found : CatalogColumn Value Value)
    (text : String) (flag : Bool) (named : found.name = .text text) (known : found.nullable = .bool flag) :
    ShowsColumn reported found (reportedColumn reported found) := by
  have key : reported.keyColumns.any (sameStored found.name) = true ↔
      found.name ∈ reported.keyColumns := by
    simp [List.any_eq_true, named, same_text_iff]
  constructor
  case name => rfl
  case dataType => rfl
  case primaryKey => exact says_flag _ _ key
  case nullable =>
    rw [← key, reportedColumn, known]
    cases reported.keyColumns.any (sameStored found.name) with
    | true => exact says_flag false _ (by simp)
    | false => exact says_flag flag _ (by simp)
  case unique =>
    apply says_flag
    simp [List.any_eq_true, named, isAlone_iff]
  case reference =>
    rw [named]
    exact (lastTarget_iff text _ _).mpr (by rw [reportedColumn, named])

theorem named_apart (reported : CatalogTable Value Value)
    (columns : DistinctTexts (reported.columns.map (·.name))) :
    NamedApart (reported.columns.map (columnOf : _ → Column Value Value)) := by
  intro name
  have texts : ∀ found ∈ reported.columns, ∃ text : String, found.name = .text text :=
    fun found member => columns.text _ (List.mem_map_of_mem member)
  rw [List.pairwise_map]
  refine (List.pairwise_map.mp columns.apart).imp_of_mem ?_
  intro one other member member' different same
  -- Equality of values is no equivalence, but the values that equal a text are that text.
  obtain ⟨text, named⟩ := texts one member
  obtain ⟨text', named'⟩ := texts other member'
  have same : sameStored one.name name = true := same
  rw [named, same_text_iff] at same
  subst same
  rw [named, named', Load.text_same] at different
  show sameStored other.name (.text text) = false
  rw [named', Load.text_same]
  exact beq_false_of_ne fun same => ne_of_beq_false different same.symm

theorem column_shown_once (reported : CatalogTable Value Value) (found : CatalogColumn Value Value)
    (text : String) (named : found.name = .text text) (one other : Column Value Value)
    (first : ShowsColumn reported found one) (second : ShowsColumn reported found other) :
    one = other := by
  have reference : one.reference = other.reference := by
    have shown := first.reference
    have shown' := second.reference
    rw [named, lastTarget_iff] at shown shown'
    exact shown.symm.trans shown'
  obtain ⟨name, dataType, key, nullable, unique, target⟩ := one
  obtain ⟨name', dataType', key', nullable', unique', target'⟩ := other
  rw [Column.mk.injEq]
  exact ⟨first.name.trans second.name.symm, first.dataType.trans second.dataType.symm,
    says_once _ _ _ first.primaryKey second.primaryKey,
    says_once _ _ _ first.nullable second.nullable, says_once _ _ _ first.unique second.unique,
    reference⟩

/-- What is related to each of some items in one way only. -/
theorem forall₂_made {α β : Type} (relation : α → β → Prop) (make : α → β) (items : List α)
    (results : List β) (only : ∀ item ∈ items, ∀ result, relation item result ↔ make item = result) :
    List.Forall₂ relation items results ↔ items.map make = results := by
  induction items generalizing results with
  | nil => rw [List.forall₂_nil_left_iff, List.map_nil, eq_comm]
  | cons item rest ih =>
      obtain ⟨here, later⟩ := List.forall_mem_cons.mp only
      cases results with
      | nil => simp
      | cons result others =>
          rw [List.forall₂_cons, List.map_cons, List.cons.injEq, here, ih others later]

theorem table_shown_iff (reported : CatalogTable Value Value) (table : Table Value Value)
    (columns : DistinctTexts (reported.columns.map (·.name)))
    (nullable : ∀ found ∈ reported.columns, ∃ flag, found.nullable = .bool flag) :
    ShowsTable reported table ↔ tableOf reported = table := by
  have shown := forall₂_made (ShowsColumn reported) (reportedColumn reported) reported.columns
    table.columns fun found member column => by
      obtain ⟨text, named⟩ := columns.text _ (List.mem_map_of_mem member)
      obtain ⟨flag, known⟩ := nullable found member
      constructor
      · exact column_shown_once reported found text named _ _
          (column_shown reported found text flag named known)
      · rintro rfl
        exact column_shown reported found text flag named known
  rw [tableOf_eq reported (named_apart reported columns)]
  obtain ⟨name, made, position⟩ := table
  rw [Table.mk.injEq, ← shown]
  constructor
  · rintro ⟨rfl, same, rfl⟩
    exact ⟨rfl, same, rfl⟩
  · rintro ⟨rfl, same, rfl⟩
    exact ⟨rfl, same, rfl⟩

theorem added_distinct {ν φ : Type} [OfText ν] [OfFlag φ] (reports : List (CatalogTable ν φ))
    (tables : List (Table ν φ)) (records : List Journal.Record)
    (distinct : (tables ++ reports.map tableOf).Pairwise fun one other =>
      sameStored one.name other.name = false) :
    reports.foldl addReported (⟨tables⟩, records) = (⟨tables ++ reports.map tableOf⟩,
      records ++ (reports.map tableOf).map introspected) := by
  induction reports generalizing tables records with
  | nil => simp
  | cons reported rest ih =>
      have fresh : tables.find? (fun table => sameStored table.name (tableOf reported).name) = none := by
        rw [List.find?_eq_none]
        intro table member
        simp [(List.pairwise_append.mp distinct).2.2 table member (tableOf reported) (by simp)]
      have added : addReported (⟨tables⟩, records) reported =
          (⟨tables ++ [tableOf reported]⟩, records ++ [introspected (tableOf reported)]) := by
        simp [addReported, Schema.addTable, Schema.table?, fresh]
      rw [List.foldl_cons, added, ih _ _ (by simpa using distinct)]
      simp

theorem introspect_distinct (reports : List (CatalogTable Value Value)) (regular : Regular reports) :
    introspect reports = (⟨reports.map tableOf⟩, (reports.map tableOf).map introspected) := by
  apply added_distinct reports [] []
  have names : (reports.map tableOf).map (·.name) = reports.map (·.name) := by
    rw [List.map_map]
    apply List.map_congr_left
    intro reported member
    rw [Function.comp, tableOf_eq reported (named_apart reported (regular.columns reported member))]
  exact List.pairwise_map.mp (names ▸ regular.tables.apart)

theorem introspect_shows (reports : List (CatalogTable Value Value)) (regular : Regular reports)
    (tables : List (Table Value Value)) :
    (introspect reports).1 = ⟨tables⟩ ↔ List.Forall₂ ShowsTable reports tables := by
  have shown := forall₂_made ShowsTable tableOf reports tables fun reported member table =>
    table_shown_iff reported table (regular.columns reported member) (regular.nullable reported member)
  rw [introspect_distinct reports regular, shown, Schema.mk.injEq]

end Catalog

/-- A column that refers to another, with what it refers to. -/
def PlainColumn.target? (column : PlainColumn) : Option (Value × Reference Value) :=
  column.reference.map fun reference => (.text column.name, reference.map .text)

namespace PlainTable

/-- A table as a catalog reports it: the names of its key columns, each unique column on its own, and
a foreign key for each reference. -/
def reported (table : PlainTable) : CatalogTable Value Value where
  name := .text table.name
  columns := table.columns.map fun column =>
    ⟨.text column.name, .text column.dataType, .bool column.nullable⟩
  primaryKey := some ⟨some (table.primaryKeyColumns.map (.text ·.name))⟩
  unique := (table.columns.filter (·.unique)).map fun column => [.text column.name]
  foreignKeys := table.columns.filterMap fun column => column.reference.map fun reference =>
    ⟨[.text column.name], .text reference.table, [.text reference.column]⟩

theorem reported_key (table : PlainTable) :
    table.reported.keyColumns = table.primaryKeyColumns.map (.text ·.name) := rfl

theorem reported_targets (table : PlainTable) :
    table.reported.targets = table.columns.filterMap PlainColumn.target? := by
  rw [CatalogTable.targets, reported]
  induction table.columns with
  | nil => rfl
  | cons column rest ih =>
      rw [List.filterMap_cons, List.filterMap_cons, PlainColumn.target?]
      cases column.reference with
      | none => exact ih
      | some reference => exact congrArg (List.cons _) ih

variable {table : PlainTable}

theorem named_flag (distinct : table.Distinct) {column : PlainColumn} (member : column ∈ table.columns)
    (flag : PlainColumn → Bool) :
    (∃ other ∈ table.columns.filter flag, other.name = column.name) ↔ flag column = true := by
  constructor
  · rintro ⟨other, among, same⟩
    obtain ⟨member', holds⟩ := List.mem_filter.mp among
    rwa [List.inj_on_of_nodup_map distinct member' member same] at holds
  · intro holds
    exact ⟨column, List.mem_filter.mpr ⟨member, holds⟩, rfl⟩

theorem target_shown (distinct : table.Distinct) {column : PlainColumn} (member : column ∈ table.columns)
    (complete : PlainColumn.Complete column) :
    Catalog.LastTarget (.text column.name) table.reported.targets
      (column.reference.map (Reference.map .text)) := by
  rw [reported_targets]
  cases found : column.reference with
  | none =>
      intro pair among named
      obtain ⟨other, member', made⟩ := List.mem_filterMap.mp among
      obtain ⟨reference, points, rfl⟩ := Option.map_eq_some_iff.mp made
      have same : other = column :=
        List.inj_on_of_nodup_map distinct member' member (Value.text.inj named)
      rw [same, found] at points
      cases points
  | some reference =>
      obtain ⟨before, after, split⟩ := List.append_of_mem member
      have names : ((before ++ column :: after).map (·.name)).Nodup := split ▸ distinct
      rw [List.map_append, List.map_cons, List.nodup_append] at names
      -- No column behind this one has its name, so its own pair is the last that names it.
      have fresh := (List.nodup_cons.mp names.2.1).1
      refine ⟨before.filterMap PlainColumn.target?, after.filterMap PlainColumn.target?, ?_, ?_, ?_⟩
      · rw [split, List.filterMap_append, List.filterMap_cons, PlainColumn.target?, found]
        rfl
      · exact (bne_iff_ne ..).mpr (complete reference found)
      · intro pair among named
        obtain ⟨other, later, made⟩ := List.mem_filterMap.mp among
        obtain ⟨_, _, rfl⟩ := Option.map_eq_some_iff.mp made
        exact absurd (List.mem_map.mpr ⟨other, later, Value.text.inj named⟩) fresh

theorem column_shown (wellFormed : table.WellFormed) {column : PlainColumn}
    (member : column ∈ table.columns) (complete : PlainColumn.Complete column)
    (spelled : normalizeType column.dataType = column.dataType) :
    Catalog.ShowsColumn table.reported ⟨.text column.name, .text column.dataType, .bool column.nullable⟩
      (column.map .text .bool) := by
  have distinct := wellFormed.distinct
  have key : Value.text column.name ∈ table.reported.keyColumns ↔ column.primaryKey = true := by
    rw [reported_key, ← named_flag distinct member (·.primaryKey)]
    simp only [List.mem_map, Value.text.injEq]
    rfl
  have unique : [Value.text column.name] ∈ table.reported.unique ↔ column.unique = true := by
    rw [← named_flag distinct member (·.unique), reported]
    simp only [List.mem_map, List.cons.injEq, Value.text.injEq, and_true]
  constructor
  case name => rfl
  case dataType => exact congrArg Value.text spelled.symm
  case primaryKey => exact ⟨column.primaryKey, rfl, key.symm⟩
  case nullable =>
    refine ⟨column.nullable, rfl, ?_⟩
    rw [key, Value.bool.injEq]
    constructor
    · intro empty
      refine ⟨empty, fun isKey => ?_⟩
      cases empty.symm.trans ((wellFormed.columns column member).key isKey)
    · exact And.left
  case unique => exact ⟨column.unique, rfl, unique.symm⟩
  case reference => exact target_shown distinct member complete

theorem table_shown (wellFormed : table.WellFormed)
    (storable : ∀ column ∈ table.columns,
      PlainColumn.Complete column ∧ normalizeType column.dataType = column.dataType) :
    Catalog.ShowsTable table.reported (Table.map .text .bool { table with position := none }) := by
  refine ⟨rfl, ?_, rfl⟩
  rw [reported, Table.map, List.forall₂_map_left_iff, List.forall₂_map_right_iff, List.forall₂_same]
  intro column member
  exact column_shown wellFormed member (storable column member).1 (storable column member).2

end PlainTable

namespace PlainSchema

def reported (schema : PlainSchema) : List (CatalogTable Value Value) :=
  schema.tables.map PlainTable.reported

theorem reported_regular {schema : PlainSchema} (wellFormed : schema.WellFormed) :
    Catalog.Regular (reported schema) where
  tables := ⟨schema.tables.map (·.name), wellFormed.distinct, by simp [reported, PlainTable.reported]⟩
  columns := by
    intro report member
    obtain ⟨table, among, rfl⟩ := List.mem_map.mp member
    have distinct : (table.columns.map (·.name)).Nodup := (wellFormed.tables table among).distinct
    exact ⟨_, distinct, by simp [PlainTable.reported]⟩
  nullable := by
    intro report member found made
    obtain ⟨table, _, rfl⟩ := List.mem_map.mp member
    obtain ⟨column, _, rfl⟩ := List.mem_map.mp made
    exact ⟨column.nullable, rfl⟩

theorem schema_shown {schema : PlainSchema} (wellFormed : schema.WellFormed) (storable : Storable schema) :
    (Catalog.introspect (reported schema)).1 = (unplaced schema).map .text .bool := by
  apply (Catalog.introspect_shows _ (reported_regular wellFormed) _).mpr
  rw [reported, unplaced, List.map_map, List.forall₂_map_left_iff, List.forall₂_map_right_iff,
    List.forall₂_same]
  intro table member
  exact PlainTable.table_shown (wellFormed.tables table member) (storable table member)

end PlainSchema

namespace Catalog

/-- Of a catalog with names of their own, introspection shows what it reports and nothing else;
names of no column add nothing to it; and a catalog that reports a schema shows that schema. -/
theorem catalogs_shown :
    (∀ reports, Regular reports → ∀ tables : List (Table Value Value),
      (introspect reports).1 = ⟨tables⟩ ↔ List.Forall₂ ShowsTable reports tables) ∧
    (∀ reports : List (CatalogTable Value Value),
      introspect (reports.map (·.known)) = introspect reports) ∧
    ∀ schema : PlainSchema, schema.WellFormed → PlainSchema.Storable schema →
      (introspect (PlainSchema.reported schema)).1 = (PlainSchema.unplaced schema).map .text .bool :=
  ⟨introspect_shows, introspect_known, fun _ => PlainSchema.schema_shown⟩

-- A key column that is listed twice, a constraint over two columns, two foreign keys for one column of
-- which the later one points at nothing, and a name of no column in each list.
def staffReports : List (CatalogTable Value Value) :=
  [{ name := .text "staff"
     columns :=
       [⟨.text "id", .text "INTEGER", .bool true⟩, ⟨.text "team", .text "CHAR ( 8 )", .bool true⟩]
     primaryKey := some ⟨some [.text "id", .text "nobody", .text "id"]⟩
     unique := [[.text "team"], [.text "id", .text "team"], [.text "nobody"]]
     foreignKeys :=
       [⟨[.text "team", .text "id"], .text "team", [.text "name"]⟩,
        ⟨[.text "nobody", .text "team"], .text "staff", [.text "id", .null]⟩] },
   { name := .text "team"
     columns := [⟨.text "name", .text "CHAR(8)", .bool false⟩]
     primaryKey := some ⟨none⟩
     unique := []
     foreignKeys := [] }]

def staffTables : List (Table Value Value) :=
  [⟨.text "staff",
    [⟨.text "id", .text "INTEGER", .bool true, .bool false, .bool false, none⟩,
     ⟨.text "team", .text "CHAR(8)", .bool false, .bool true, .bool true,
       some ⟨.text "team", .text "name"⟩⟩], none⟩,
   ⟨.text "team", [⟨.text "name", .text "CHAR(8)", .bool false, .bool false, .bool false, none⟩], none⟩]

theorem staff_regular : Regular staffReports where
  tables := ⟨["staff", "team"], by decide, rfl⟩
  columns := by
    refine List.forall_mem_cons.mpr ⟨?_, List.forall_mem_singleton.mpr ?_⟩
    · exact ⟨["id", "team"], by decide, rfl⟩
    · exact ⟨["name"], by decide, rfl⟩
  nullable := by simp [staffReports]

theorem staff_introspected : (introspect staffReports).1 = ⟨staffTables⟩ := by
  rw [introspect_distinct _ staff_regular]
  simp [staffReports, staffTables, tableOf, CatalogTable.keyColumns, markKey, markUnique, point, pointPair,
    Table.changeColumn, changeFirst, columnOf, sameStored, holdsStored, toValue, Value.same, Value.holds,
    inWords, ofText, ofFlag]
  decide +kernel

def playSchema : PlainSchema :=
  ⟨[⟨"player", [⟨"id", "INTEGER", true, false, false, none⟩,
      ⟨"nick", "", false, true, true, none⟩], none⟩,
    ⟨"match", [⟨"white", "INTEGER", true, false, false, some ⟨"player", "id"⟩⟩,
      ⟨"black", "INTEGER", true, false, false, some ⟨"player", "id"⟩⟩], some ⟨.int 3, .int 0⟩⟩]⟩

theorem play_wellFormed : playSchema.WellFormed where
  distinct := by decide
  tables := by
    refine List.forall_mem_cons.mpr ⟨⟨by decide, by simp [Table.Distinct], ?_⟩,
      List.forall_mem_singleton.mpr ⟨by decide, by simp [Table.Distinct], ?_⟩⟩
    · exact List.forall_mem_cons.mpr ⟨⟨by decide, by simp, by simp⟩,
        List.forall_mem_singleton.mpr ⟨by decide, by simp, by simp⟩⟩
    · exact List.forall_mem_cons.mpr ⟨⟨by decide, by simp, by simp⟩,
        List.forall_mem_singleton.mpr ⟨by decide, by simp, by simp⟩⟩

theorem staff_catalogs_shown :
    Regular staffReports ∧ List.Forall₂ ShowsTable staffReports staffTables ∧
      playSchema.WellFormed ∧ PlainSchema.Storable playSchema ∧
      (introspect (PlainSchema.reported playSchema)).1 =
        (PlainSchema.unplaced playSchema).map .text .bool := by
  obtain ⟨shows, _, restores⟩ := catalogs_shown
  have storable : PlainSchema.Storable playSchema := by decide +kernel
  exact ⟨staff_regular, (shows _ staff_regular _).mp staff_introspected, play_wellFormed, storable,
    restores playSchema play_wellFormed storable⟩

end Catalog

end TableScript
