import TableScript.Proofs.Documents.Loading

/-!
Documents in which names are texts. Whatever is loaded of such a document is a schema of texts,
and a well-formed one; and every well-formed schema has a document of this kind, of which it is
loaded again.
-/

namespace TableScript

/-- Whatever an object has in a field is a text. -/
def Value.TextIn (key : String) (value : Value) : Prop :=
  ∀ found ∈ value.field? key, found.text?.isSome = true

instance (key : String) (value : Value) : Decidable (value.TextIn key) :=
  inferInstanceAs (Decidable (∀ found ∈ value.field? key, _))

namespace Load

def NamedColumn (value : Value) : Prop :=
  value.TextIn "name" ∧ (value.part "foreign_key_reference").TextIn "table" ∧
    (value.part "foreign_key_reference").TextIn "column"

instance (value : Value) : Decidable (NamedColumn value) :=
  inferInstanceAs (Decidable (_ ∧ _))

def NamedTable (value : Value) : Prop :=
  value.TextIn "name" ∧
    ∀ entries ∈ value.entries? "columns", ∀ entry ∈ entries, NamedColumn entry

instance (value : Value) : Decidable (NamedTable value) :=
  inferInstanceAs (Decidable (_ ∧ _))

def Named (value : Value) : Prop :=
  ∀ entries ∈ value.entries? "tables", ∀ entry ∈ entries, NamedTable entry

instance (value : Value) : Decidable (Named value) :=
  inferInstanceAs (Decidable (∀ entries ∈ value.entries? "tables", _))

theorem part_text {key : String} {value : Value} (texts : value.TextIn key)
    (holds : (value.part key).holds = true) :
    ∃ content, value.part key = .text content ∧ content ≠ "" := by
  rw [Value.part] at holds ⊢
  cases found : value.field? key with
  | none =>
      rw [found] at holds
      cases holds
  | some field =>
      have text := texts field found
      cases field with
      | text content =>
          rw [found] at holds
          exact ⟨content, rfl, by simpa using holds⟩
      | _ => cases text

theorem reference_plain (found : Value) (reference : Option (Reference Value))
    (described : DescribesReference found reference) (table : found.TextIn "table")
    (column : found.TextIn "column") :
    ∃ plain : Option (Reference String), plain.map (Reference.map .text) = reference ∧
      ∀ target ∈ plain, target.table ≠ "" ∧ target.column ≠ "" := by
  cases reference with
  | none => exact ⟨none, rfl, by simp⟩
  | some reference =>
      obtain ⟨source, target⟩ := reference
      obtain ⟨rfl, named, rfl, pointed⟩ := described
      obtain ⟨tableName, tableText, tableFull⟩ := part_text table named
      obtain ⟨columnName, columnText, columnFull⟩ := part_text column pointed
      refine ⟨some ⟨tableName, columnName⟩, ?_, ?_⟩
      · rw [tableText, columnText]
        rfl
      · rintro target ⟨⟩
        exact ⟨tableFull, columnFull⟩

theorem column_plain (value : Value) (column : Column Value Bool)
    (described : DescribesColumn value column) (named : NamedColumn value) :
    ∃ plain, PlainColumn.stored plain = column ∧ plain.WellFormed ∧ PlainColumn.Complete plain := by
  obtain ⟨texts, tables, columns⟩ := named
  obtain ⟨name, text, occupied⟩ := part_text texts (described.name ▸ described.named)
  obtain ⟨dataType, _, typed⟩ := described.dataType
  obtain ⟨reference, points, complete⟩ :=
    reference_plain _ column.reference described.reference tables columns
  refine ⟨⟨name, dataType, column.primaryKey, column.nullable, column.unique, reference⟩, ?_, ?_, ?_⟩
  · change Column.mk (.text name) (.text dataType) column.primaryKey column.nullable column.unique
      (reference.map (Reference.map .text)) = column
    rw [points, ← text, described.name, ← typed]
  · constructor
    case named => exact occupied
    case key =>
      intro key
      have known := described.nullable
      rw [show column.primaryKey = true from key] at known
      simpa using known
    case reference => exact fun target member => (complete target member).1
  · exact fun target member => (complete target member).2

/-- Where each of some values is the stored form of a thing with a property, they are the stored
forms of a list of such things. -/
theorem list_plain {α β : Type} {describes : Value → β → Prop} {store : α → β} {property : α → Prop}
    {entries : List Value} {items : List β} (described : List.Forall₂ describes entries items)
    (each : ∀ entry ∈ entries, ∀ item, describes entry item →
      ∃ plain, store plain = item ∧ property plain) :
    ∃ plains : List α, plains.map store = items ∧ ∀ plain ∈ plains, property plain := by
  induction described with
  | nil => exact ⟨[], rfl, by simp⟩
  | cons head _ ih =>
      obtain ⟨first, others⟩ := List.forall_mem_cons.mp each
      obtain ⟨plain, rfl, holds⟩ := first _ head
      obtain ⟨plains, rfl, all⟩ := ih others
      exact ⟨plain :: plains, rfl, List.forall_mem_cons.mpr ⟨holds, all⟩⟩

theorem table_plain (value : Value) (table : Table Value Bool)
    (described : DescribesTable value table) (named : NamedTable value) :
    ∃ plain, PlainTable.stored plain = table ∧ plain.WellFormed ∧ PlainTable.Complete plain := by
  obtain ⟨texts, inside⟩ := named
  obtain ⟨name, text, occupied⟩ := part_text texts (described.name ▸ described.named)
  obtain ⟨entries, listed, each⟩ := described.columns
  obtain ⟨columns, stored, properties⟩ := list_plain each fun entry member column =>
    (column_plain entry column · (inside entries listed entry member))
  refine ⟨⟨name, columns, table.position⟩, ?_, ?_, fun column member => (properties column member).2⟩
  · change Table.mk (.text name) (columns.map PlainColumn.stored) table.position = table
    rw [stored, ← text, described.name]
  · constructor
    case named => exact occupied
    case distinct =>
      have distinct := described.distinct
      rw [← stored] at distinct
      exact (distinct_stored (·.name) PlainColumn.stored _ PlainColumn.stored_name columns).mp distinct
    case columns => exact fun column member => (properties column member).1

/-- What is loaded of a document in which names are texts is a well-formed schema of texts. -/
theorem schema_plain (value : Value) (schema : Schema Value Bool) (described : Describes value schema)
    (named : Named value) :
    ∃ plain, PlainSchema.stored plain = schema ∧ plain.WellFormed ∧ PlainSchema.Complete plain := by
  obtain ⟨entries, listed, each⟩ := described.tables
  have among : value.entries? "tables" = some entries := by
    rw [Value.entries?, listed]
    rfl
  obtain ⟨tables, stored, properties⟩ := list_plain each fun entry member table =>
    (table_plain entry table · (named entries among entry member))
  refine ⟨⟨tables⟩, congrArg Schema.mk stored, ?_, fun table member => (properties table member).2⟩
  constructor
  case distinct =>
    have distinct := described.distinct
    rw [← stored] at distinct
    exact (distinct_stored (·.name) PlainTable.stored _ PlainTable.stored_name tables).mp distinct
  case tables => exact fun table member => (properties table member).1

end Load

namespace PlainSchema

/-- A document in which names are texts is loaded, if at all, as a well-formed and complete schema
with one table for each entry of the document and one column for each entry of a table, in order;
and every such schema in which data types have their one spelling is loaded of its own document,
with the places of its tables. -/
theorem documents_loaded :
    (∀ (value : Value) (loaded : Schema Value Bool), Load.Named value →
      Schema.ofDocument value = .ok loaded →
        Load.Describes value loaded ∧
          ∃ schema : PlainSchema, loaded = stored schema ∧ schema.WellFormed ∧ Complete schema) ∧
    ∀ schema : PlainSchema, schema.WellFormed → Storable schema →
      Schema.ofDocument schema.toDocument = .ok (stored schema) := by
  constructor
  · intro value loaded named read
    have described := (Schema.ofDocument_ok value loaded).mp read
    obtain ⟨schema, same, wellFormed, complete⟩ := Load.schema_plain value loaded described named
    exact ⟨described, schema, same.symm, wellFormed, complete⟩
  · intro schema wellFormed storable
    exact (loaded_iff wellFormed).mpr storable

-- A document without what is not needed, and with a data type in a spelling of its own.
def clubDocument : Value :=
  .object
    [("tables", .list
      [.object
        [("name", .text "club"),
         ("columns", .list
          [.object [("name", .text "id"), ("is_primary_key", .int 1), ("is_nullable", .bool true)],
           .object [("name", .text "town"), ("data_type", .text " varchar ( 80 )")]]),
         ("position", .object [("x", .int 3)])],
       .object
        [("name", .text "member"),
         ("columns", .list
          [.object
            [("name", .text "club"), ("is_foreign_key", .bool true),
             ("foreign_key_reference", .object [("table", .text "club"), ("column", .text "id")])]])]])]

def clubSchema : PlainSchema :=
  ⟨[⟨"club", [⟨"id", "", true, false, false, none⟩, ⟨"town", "varchar(80)", false, true, false, none⟩],
      some ⟨.int 3, .int 0⟩⟩,
    ⟨"member", [⟨"club", "", false, true, false, some ⟨"club", "id"⟩⟩], none⟩]⟩

theorem club_named : Load.Named clubDocument := by decide +kernel

theorem club_loaded : Schema.ofDocument clubDocument = .ok (stored clubSchema) := by
  have dataType : normalizeType " varchar ( 80 )" = "varchar(80)" := by decide +kernel
  have nothing : normalizeType "" = "" := by decide +kernel
  simp [clubDocument, clubSchema, stored, Schema.map, Table.map, Column.map, Reference.map,
    Schema.ofDocument, Load.tablesInto, Load.table, Load.columnsInto, Load.column, Load.named?,
    Load.fieldOr, Load.reference, Load.dataType, Load.position, Load.orMisuse, Value.lookup,
    Value.items?, Value.fields?, Value.textFor, Value.text?, Value.holds, Table.column?, Table.empty,
    Schema.table?, Schema.empty, Except.map, bind, Except.bind, pure, Except.pure, sameStored, toValue,
    Value.same, dataType, nothing]

theorem club_documents_loaded :
    Load.Named clubDocument ∧ Schema.ofDocument clubDocument = .ok (stored clubSchema) ∧
      Load.Describes clubDocument (stored clubSchema) ∧ clubSchema.WellFormed ∧ Storable clubSchema ∧
      Schema.ofDocument clubSchema.toDocument = .ok (stored clubSchema) := by
  obtain ⟨loads, restores⟩ := documents_loaded
  obtain ⟨described, schema, same, wellFormed, _⟩ := loads clubDocument _ club_named club_loaded
  obtain rfl := stored_injective same
  have storable : Storable clubSchema := by decide +kernel
  exact ⟨club_named, club_loaded, described, wellFormed, storable, restores clubSchema wellFormed storable⟩

end PlainSchema

end TableScript
