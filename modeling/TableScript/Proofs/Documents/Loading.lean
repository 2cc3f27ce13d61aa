import TableScript.Schema.Document
import TableScript.Schema.Write
import TableScript.Proofs.Documents.Described
import TableScript.Proofs.Linking.WellFormed

/-!
Schemas that are stored and loaded. Loading the document of a well-formed schema never misses a
name or a key, so there are two things left that it can object to or change: a reference to a
column without a name is refused, and a data type gets the spelling that reading gives it.
-/

namespace TableScript

/-- Every reference of a column names a column. -/
def PlainColumn.Complete (column : PlainColumn) : Prop :=
  ∀ reference ∈ column.reference, reference.column ≠ ""

instance (column : PlainColumn) : Decidable column.Complete :=
  inferInstanceAs (Decidable (∀ reference ∈ column.reference, _))

def PlainTable.Complete (table : PlainTable) : Prop :=
  ∀ column ∈ table.columns, PlainColumn.Complete column

def PlainSchema.Complete (schema : PlainSchema) : Prop :=
  ∀ table ∈ schema.tables, PlainTable.Complete table

def PlainColumn.respelled (column : PlainColumn) : PlainColumn :=
  { column with dataType := normalizeType column.dataType }

@[simp] theorem PlainColumn.respelled_name (column : PlainColumn) :
    (PlainColumn.respelled column).name = column.name := by
  rw [PlainColumn.respelled]

def PlainTable.respelled (table : PlainTable) : PlainTable :=
  { table with columns := table.columns.map PlainColumn.respelled }

@[simp] theorem PlainTable.respelled_name (table : PlainTable) :
    (PlainTable.respelled table).name = table.name := by
  rw [PlainTable.respelled]

def PlainSchema.respelled (schema : PlainSchema) : PlainSchema :=
  ⟨schema.tables.map PlainTable.respelled⟩

def PlainColumn.stored (column : PlainColumn) : Column Value Bool :=
  column.map .text id

@[simp] theorem PlainColumn.stored_name (column : PlainColumn) :
    (PlainColumn.stored column).name = .text column.name := rfl

def PlainTable.stored (table : PlainTable) : Table Value Bool :=
  table.map .text id

@[simp] theorem PlainTable.stored_name (table : PlainTable) :
    (PlainTable.stored table).name = .text table.name := rfl

def PlainSchema.stored (schema : PlainSchema) : Schema Value Bool :=
  schema.map .text id

namespace Load

@[simp] theorem text_holds (content : String) : (Value.text content).holds = (content != "") := rfl

@[simp] theorem bool_holds (flag : Bool) : (Value.bool flag).holds = flag := rfl

/-- Two values that are texts are the same when the texts are. -/
theorem text_same (first second : String) :
    sameStored (Value.text first) (Value.text second) = (first == second) := by
  simp [sameStored, toValue, Value.same]

/-- Texts are different just where they are so as values. -/
theorem distinct_stored {α β : Type} (name : α → String) (store : α → β) (storedName : β → Value)
    (kept : ∀ a, storedName (store a) = .text (name a)) (items : List α) :
    ((items.map store).Pairwise fun one other =>
      sameStored (storedName one) (storedName other) = false) ↔ (items.map name).Nodup := by
  rw [List.pairwise_map, List.Nodup, List.pairwise_map]
  simp only [kept, text_same, beq_eq_false_iff_ne]

theorem reference_described (reference : Option (Reference String))
    (complete : ∀ found ∈ reference, found.table ≠ "" ∧ found.column ≠ "") :
    DescribesReference ((reference.map Reference.toDocument).getD .null)
      (reference.map (Reference.map .text)) := by
  cases reference with
  | none => rfl
  | some found =>
      obtain ⟨table, column⟩ := complete found rfl
      simp [DescribesReference, Reference.toDocument, Reference.map, Value.part, Value.field?,
        Value.lookup, toValue, table, column]

theorem stored_respelled (column : PlainColumn) :
    PlainColumn.stored (PlainColumn.respelled column) =
      ⟨.text column.name, .text (normalizeType column.dataType), column.primaryKey, column.nullable,
        column.unique, column.reference.map (Reference.map .text)⟩ := by
  rw [PlainColumn.stored, PlainColumn.respelled, Column.map]
  simp only [id]

/-- What the document of a column has in its fields. -/
theorem column_fields (column : PlainColumn) :
    Value.part "name" column.toDocument = .text column.name ∧
      Value.part "data_type" column.toDocument = .text column.dataType ∧
      Value.part "is_primary_key" column.toDocument = .bool column.primaryKey ∧
      Value.part "is_foreign_key" column.toDocument = .bool column.reference.isSome ∧
      Value.field? "is_nullable" column.toDocument = some (.bool column.nullable) ∧
      Value.part "is_unique" column.toDocument = .bool column.unique ∧
      Value.part "foreign_key_reference" column.toDocument =
        (column.reference.map Reference.toDocument).getD .null := by
  simp [Column.toDocument, Value.part, Value.field?, Value.lookup, toValue]

theorem column_described (column : PlainColumn) (wellFormed : column.WellFormed)
    (complete : PlainColumn.Complete column) :
    DescribesColumn column.toDocument (PlainColumn.stored (PlainColumn.respelled column)) := by
  have known : column.nullable = (column.nullable && !column.primaryKey) := by
    cases key : column.primaryKey with
    | false => simp
    | true => simp [wellFormed.key key]
  obtain ⟨name, dataType, primaryKey, foreignKey, nullable, unique, reference⟩ := column_fields column
  rw [stored_respelled]
  constructor
  case name => exact name
  case named => simpa using wellFormed.named
  case dataType =>
    exact ⟨normalizeType column.dataType, ⟨column.dataType, Or.inl dataType, rfl⟩, rfl⟩
  case primaryKey => rw [primaryKey]; rfl
  case nullable => rw [nullable]; exact known
  case unique => rw [unique]; rfl
  case reference =>
    rw [reference]
    exact reference_described column.reference fun found member =>
      ⟨wellFormed.reference found member, complete found member⟩
  case pointed =>
    rw [foreignKey]
    intro points
    exact (Option.isSome_map ..).trans points

/-- Whatever is loaded of the document of a column, its reference names a column. -/
theorem column_complete (column : PlainColumn) (loaded : Column Value Bool)
    (described : DescribesColumn column.toDocument loaded) : PlainColumn.Complete column := by
  intro reference found
  have points := described.reference
  obtain ⟨_, _, _, _, _, _, place⟩ := column_fields column
  rw [place, Option.mem_def.mp found] at points
  cases same : loaded.reference with
  | none =>
      rw [same] at points
      cases points
  | some target =>
      rw [same] at points
      obtain ⟨_, _, column, holds⟩ := points
      rw [← column] at holds
      simpa [Reference.toDocument, Value.part, Value.field?, Value.lookup, toValue] using holds

theorem position_described (position : Option Position) :
    DescribesPosition ((position.map Position.toDocument).getD .null) position := by
  cases position with
  | none => rfl
  | some position => exact ⟨rfl, rfl, rfl⟩

theorem table_fields (table : PlainTable) :
    Value.part "name" table.toDocument = .text table.name ∧
      Value.entries? "columns" table.toDocument = some (table.columns.map Column.toDocument) ∧
      Value.part "position" table.toDocument = (table.position.map Position.toDocument).getD .null := by
  simp [Table.toDocument, Value.part, Value.entries?, Value.field?, Value.lookup, Value.items?,
    Except.toOption, toValue]

theorem table_described (table : PlainTable) (wellFormed : table.WellFormed)
    (complete : PlainTable.Complete table) :
    DescribesTable table.toDocument (PlainTable.stored (PlainTable.respelled table)) := by
  have columns : List.Forall₂ DescribesColumn (table.columns.map Column.toDocument)
      ((table.columns.map PlainColumn.respelled).map PlainColumn.stored) := by
    rw [List.map_map, List.forall₂_map_left_iff, List.forall₂_map_right_iff, List.forall₂_same]
    intro column member
    exact column_described column (wellFormed.columns column member) (complete column member)
  have names : (table.columns.map PlainColumn.respelled).map (·.name) = table.columns.map (·.name) := by
    simp [Function.comp_def]
  obtain ⟨name, entries, position⟩ := table_fields table
  constructor
  case name => exact name
  case named => simpa using wellFormed.named
  case columns => exact ⟨_, entries, columns⟩
  case distinct =>
    apply (distinct_stored (·.name) PlainColumn.stored _ PlainColumn.stored_name _).mpr
    exact names ▸ wellFormed.distinct
  case position =>
    rw [position]
    exact position_described table.position

theorem table_complete (table : PlainTable) (loaded : Table Value Bool)
    (described : DescribesTable table.toDocument loaded) : PlainTable.Complete table := by
  obtain ⟨entries, listed, columns⟩ := described.columns
  rw [(table_fields table).2.1] at listed
  cases listed
  rw [List.forall₂_map_left_iff] at columns
  intro column member
  obtain ⟨found, _, same⟩ := forall₂_left columns column member
  exact column_complete column found same

end Load

namespace PlainSchema

variable {schema : PlainSchema}

theorem document_tables (schema : PlainSchema) :
    Value.field? "tables" schema.toDocument = some (.list (schema.tables.map Table.toDocument)) := by
  simp [Schema.toDocument, Value.field?, Value.lookup]

theorem document_described (wellFormed : schema.WellFormed) (complete : Complete schema) :
    Load.Describes schema.toDocument (stored (respelled schema)) := by
  have tables : List.Forall₂ Load.DescribesTable (schema.tables.map Table.toDocument)
      ((schema.tables.map PlainTable.respelled).map PlainTable.stored) := by
    rw [List.map_map, List.forall₂_map_left_iff, List.forall₂_map_right_iff, List.forall₂_same]
    intro table member
    exact Load.table_described table (wellFormed.tables table member) (complete table member)
  have names : (schema.tables.map PlainTable.respelled).map (·.name) = schema.tables.map (·.name) := by
    simp [Function.comp_def]
  constructor
  case object => rfl
  case tables =>
    rw [document_tables]
    exact ⟨_, rfl, tables⟩
  case distinct =>
    apply (Load.distinct_stored (·.name) PlainTable.stored _ PlainTable.stored_name _).mpr
    exact names ▸ wellFormed.distinct

/-- A complete schema is loaded again, with the one spelling of each data type. -/
theorem complete_loaded (wellFormed : schema.WellFormed) (complete : Complete schema) :
    Schema.ofDocument schema.toDocument = .ok (stored (respelled schema)) :=
  (Schema.ofDocument_ok _ _).mpr (document_described wellFormed complete)

/-- A schema that is not complete cannot be loaded. -/
theorem incomplete_refused (incomplete : ¬ Complete schema) :
    ∃ fault, Schema.ofDocument schema.toDocument = .error fault := by
  cases read : Schema.ofDocument schema.toDocument with
  | error fault => exact ⟨fault, rfl⟩
  | ok loaded =>
      obtain ⟨_, ⟨entries, listed, tables⟩, _⟩ := (Schema.ofDocument_ok _ _).mp read
      rw [document_tables] at listed
      cases listed
      rw [List.forall₂_map_left_iff] at tables
      apply absurd _ incomplete
      intro table member
      obtain ⟨found, _, same⟩ := Load.forall₂_left tables table member
      exact Load.table_complete table found same

/-- A schema that loading finds nothing to object to and nothing to change in. -/
def Storable (schema : PlainSchema) : Prop :=
  ∀ table ∈ schema.tables, ∀ column ∈ table.columns,
    PlainColumn.Complete column ∧ normalizeType column.dataType = column.dataType

instance (schema : PlainSchema) : Decidable (Storable schema) :=
  inferInstanceAs (Decidable (∀ table ∈ schema.tables, ∀ column ∈ table.columns, _ ∧ _))

theorem stored_injective : Function.Injective stored := by
  let text (value : Value) := value.text?.getD ""
  have column : ∀ column : PlainColumn, Column.map text id (PlainColumn.stored column) = column := by
    rintro ⟨name, dataType, key, nullable, unique, _ | reference⟩ <;> rfl
  have table : ∀ table : PlainTable, Table.map text id (PlainTable.stored table) = table := by
    rintro ⟨name, columns, position⟩
    have columns : (columns.map PlainColumn.stored).map (Column.map text id) = columns := by
      rw [List.map_map]
      exact (List.map_congr_left fun old _ => column old).trans (List.map_id columns)
    exact congrArg (Table.mk name · position) columns
  apply Function.LeftInverse.injective (g := Schema.map text id)
  intro schema
  have tables : (schema.tables.map PlainTable.stored).map (Table.map text id) = schema.tables := by
    rw [List.map_map]
    exact (List.map_congr_left fun old _ => table old).trans (List.map_id schema.tables)
  exact congrArg Schema.mk tables

theorem map_self {α : Type} (change : α → α) (items : List α) :
    items.map change = items ↔ ∀ item ∈ items, change item = item := by
  conv => lhs; rhs; rw [← List.map_id items]
  exact List.map_inj_left

theorem respelled_self (schema : PlainSchema) :
    respelled schema = schema ↔ ∀ table ∈ schema.tables, ∀ column ∈ table.columns,
      normalizeType column.dataType = column.dataType := by
  have column : ∀ column : PlainColumn, PlainColumn.respelled column = column ↔
      normalizeType column.dataType = column.dataType := by
    intro column
    obtain ⟨name, dataType, key, nullable, unique, reference⟩ := column
    simp [PlainColumn.respelled]
  have table : ∀ table : PlainTable, PlainTable.respelled table = table ↔
      ∀ column ∈ table.columns, normalizeType column.dataType = column.dataType := by
    intro table
    obtain ⟨name, columns, position⟩ := table
    simp [PlainTable.respelled, map_self, column]
  obtain ⟨tables⟩ := schema
  simp [respelled, map_self, table]

/-- The document of a well-formed schema is loaded as the schema itself just where nothing in it
is objected to or changed. -/
theorem loaded_iff (wellFormed : schema.WellFormed) :
    Schema.ofDocument schema.toDocument = .ok (stored schema) ↔ Storable schema := by
  constructor
  · intro loaded
    by_cases complete : Complete schema
    · have changed := complete_loaded wellFormed complete
      have same := stored_injective (Except.ok.inj (loaded.symm.trans changed))
      have spelled := (respelled_self schema).mp same.symm
      exact fun table member column among =>
        ⟨complete table member column among, spelled table member column among⟩
    · obtain ⟨fault, refused⟩ := incomplete_refused complete
      cases loaded.symm.trans refused
  · intro storable
    have spelled := (respelled_self schema).mpr fun table member column among =>
      (storable table member column among).2
    have loaded := complete_loaded wellFormed fun table member column among =>
      (storable table member column among).1
    rwa [spelled] at loaded

/-- A stored schema is written as the same script. -/
theorem stored_script (schema : PlainSchema) : (stored schema).script = Schema.script schema := by
  have reference : (fun column : Column Value Bool => referenceTexts column.reference) ∘
      PlainColumn.stored = fun column : PlainColumn => referenceTexts column.reference := by
    funext ⟨name, dataType, key, nullable, unique, found⟩
    cases found <;> rfl
  have table : (Table.texts ∘ PlainTable.stored : PlainTable → _) = Table.texts := by
    funext table
    have columns : (PlainTable.stored table).columns.mapM Column.texts =
        table.columns.mapM Column.texts := List.mapM_map
    simp only [Function.comp, Table.texts, columns]
    rfl
  have references : (Table.referenceTexts ∘ PlainTable.stored : PlainTable → _) =
      Table.referenceTexts := by
    funext table
    have columns := List.mapM_map (m := Except Misuse) (f := PlainColumn.stored)
      (g := fun column => referenceTexts column.reference) (l := table.columns)
    rw [reference] at columns
    exact columns
  have tables : (stored schema).tables = schema.tables.map PlainTable.stored := rfl
  simp only [Schema.script, Schema.texts, tables, List.mapM_map, table, references]

end PlainSchema

end TableScript
