import TableScript.Proofs.Documents.Bytes
import TableScript.Proofs.Documents.Loading

/-!
Schemas stored as bytes. The document of a schema of texts has no numbers in it as long as no table
has a position, and it is no deeper than six lists and objects, so its bytes are read as the very
document.
-/

namespace TableScript

open Value (Plain)

variable {room : Nat}

theorem Reference.document_plain (reference : Reference String) :
    Plain (room + 1) reference.toDocument := by
  refine .object (by simp) ?_
  simp [toValue, Plain.text]

theorem PlainColumn.document_plain (column : PlainColumn) :
    Plain (room + 2) (Column.toDocument column) := by
  refine .object (by simp) ?_
  have reference : Plain (room + 1) ((column.reference.map Reference.toDocument).getD .null) := by
    cases column.reference with
    | none => exact .null
    | some reference => exact reference.document_plain
  simp [toValue, Plain.text, Plain.bool, reference]

theorem PlainTable.document_plain (table : PlainTable) (nowhere : table.position = none) :
    Plain (room + 4) (Table.toDocument table) := by
  refine .object (by simp) ?_
  have columns : Plain (room + 3) (.list (table.columns.map Column.toDocument)) :=
    .list (List.forall_mem_map.mpr fun column _ => PlainColumn.document_plain column)
  simp [toValue, Plain.text, Plain.null, nowhere, columns]

theorem Relationship.document_plain (edge : Relationship String) :
    Plain (room + 1) edge.toDocument := by
  refine .object (by simp) ?_
  simp [toValue, Plain.text]

theorem PlainSchema.document_plain (schema : PlainSchema)
    (nowhere : ∀ table ∈ schema.tables, table.position = none) :
    Plain (room + 6) (Schema.toDocument schema) := by
  refine .object (by simp) ?_
  have tables : Plain (room + 5) (.list (schema.tables.map Table.toDocument)) :=
    .list (List.forall_mem_map.mpr fun table member =>
      PlainTable.document_plain table (nowhere table member))
  have edges : Plain (room + 5) (.list (schema.relationships.map Relationship.toDocument)) :=
    .list (List.forall_mem_map.mpr fun edge _ => edge.document_plain)
  simp [tables, edges]

/-- The bytes of a document are read as that document. -/
theorem Document.bytes_restored (value : Value) (plain : Plain Reading.deepest value) :
    ∃ text, Text.decode (Text.encode (value.indented .none)) = .ok text ∧
      Document.read (Text.withLineFeeds text) = .ok ⟨value, .none⟩ := by
  have printed : ∀ c ∈ (value.indented .none).toList, IsPrinted c := Value.written_printed plain 0
  refine ⟨_, Text.decode_encode _ printed, ?_⟩
  rw [Text.lineFeeds_printed _ printed]
  exact Document.read_written value plain

end TableScript
