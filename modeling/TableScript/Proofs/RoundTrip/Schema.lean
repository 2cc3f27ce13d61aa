import TableScript.Proofs.Reading.Named
import TableScript.Proofs.RoundTrip.Linked

/-!
Schemas come back from their scripts. A schema of texts can always be written, and what its script
is read as has the same tables, columns and references in the same order, whichever mode links it.
-/

namespace TableScript

@[simp] theorem same_part_text (a b : String) : sameStoredPart a b = (a == b) := by
  simp [sameStoredPart, toValue, Value.samePart, Value.areNoNumbers, Value.same]

@[simp] theorem same_part_flag (a b : Bool) : sameStoredPart a b = (a == b) := by
  cases a <;> cases b <;> rfl

theorem sameLists_iff {α β : Type} (same : α → α → Bool) (image : α → β)
    (each : ∀ a b, same a b = true ↔ image a = image b) (first second : List α) :
    sameLists same first second = true ↔ first.map image = second.map image := by
  induction first generalizing second with
  | nil => cases second <;> simp [sameLists]
  | cons a rest ih =>
      cases second with
      | nil => simp [sameLists]
      | cons b others => simp [sameLists, each, ih]

theorem Column.same_iff (a b : PlainColumn) : a.same b = true ↔ a = b := by
  obtain ⟨nameA, typeA, keyA, nullableA, uniqueA, referenceA⟩ := a
  obtain ⟨nameB, typeB, keyB, nullableB, uniqueB, referenceB⟩ := b
  have references : sameReference referenceA referenceB = true ↔ referenceA = referenceB := by
    cases referenceA with
    | none => cases referenceB <;> simp [sameReference]
    | some first =>
        cases referenceB with
        | none => simp [sameReference]
        | some second =>
            cases first
            cases second
            simp [sameReference, Reference.same]
  simp [Column.same, references, and_assoc]

/-- Only the place of a table does not count when tables are compared. -/
theorem Table.same_iff (a b : PlainTable) : a.same b = true ↔
    ({ a with position := none } : PlainTable) = { b with position := none } := by
  have columns := sameLists_iff Column.same id Column.same_iff a.columns b.columns
  rw [List.map_id, List.map_id] at columns
  simp [Table.same, columns]

theorem Schema.same_iff (a b : PlainSchema) :
    Schema.same a b = true ↔ PlainSchema.unplaced a = PlainSchema.unplaced b := by
  rw [Schema.same, sameLists_iff Table.same _ Table.same_iff, PlainSchema.unplaced,
    PlainSchema.unplaced, Schema.mk.injEq]

namespace PlainSchema

/-- The texts of a schema of texts are the schema itself. -/
theorem texts_plain (schema : PlainSchema) : Schema.texts schema = .ok (unplaced schema) := by
  have column : (Column.texts : PlainColumn → Except Misuse PlainColumn) =
      fun column => pure { column with reference := none } := rfl
  have reference : ∀ found : Option (Reference String), referenceTexts found = pure found := by
    intro found
    cases found <;> rfl
  have table : (Table.texts : PlainTable → Except Misuse PlainTable) = fun table =>
      pure ⟨table.name, table.columns.map fun column => { column with reference := none }, none⟩ := by
    funext table
    rw [Table.texts, column, List.mapM_pure]
    rfl
  have references : (Table.referenceTexts : PlainTable → Except Misuse _) = fun table =>
      pure (table.columns.map (·.reference)) := by
    funext table
    simp only [Table.referenceTexts, reference, List.mapM_pure]
  have together : ∀ table : PlainTable, withReferences
      ⟨table.name, table.columns.map fun column => { column with reference := none }, none⟩
      (table.columns.map (·.reference)) = { table with position := none } := by
    intro table
    simp [withReferences, List.zipWith_map]
  have zipped : List.zipWith withReferences
      (schema.tables.map fun table => (⟨table.name,
        table.columns.map fun column => { column with reference := none }, none⟩ : PlainTable))
      (schema.tables.map fun table => table.columns.map (·.reference)) =
      (unplaced schema).tables := by
    rw [List.zipWith_map, List.zipWith_self]
    exact List.map_congr_left fun table _ => together table
  rw [Schema.texts, table, references, List.mapM_pure, List.mapM_pure]
  exact congrArg (fun tables => Except.ok (Schema.mk tables)) zipped

/-- The place of a table is not written. -/
theorem unplaced_script (schema : PlainSchema) : script (unplaced schema) = script schema := by
  have creates : (unplaced schema).tables.map PlainTable.createScript =
      schema.tables.map PlainTable.createScript := by
    rw [unplaced, List.map_map]
    rfl
  have references : (unplaced schema).tables.flatMap PlainTable.referenceScripts =
      schema.tables.flatMap PlainTable.referenceScripts := by
    rw [unplaced, List.flatMap_map]
    rfl
  simp only [script, creates, references]

/-- The script of a schema is read as that schema, but for the places of its tables. -/
theorem script_restored (mode : Resolution) (schema : PlainSchema) (restorable : Restorable schema) :
    (parse mode (script schema)).1 = unplaced schema := by
  rw [parse_schema, statements_read schema restorable, statements_linked mode schema restorable]

theorem script_written (schema : PlainSchema) : Schema.script schema = .ok (script schema) := by
  rw [Schema.script, texts_plain, Except.map, unplaced_script]

/-- A sound schema is written, and its script is read as the same schema. -/
theorem schema_restored (mode : Resolution) (schema : PlainSchema) (sound : Sound schema) :
    ∃ script, Schema.script schema = .ok script ∧ (parse mode script).1 = unplaced schema ∧
      Schema.same (parse mode script).1 schema = true := by
  have written := script_written schema
  have read := script_restored mode schema sound.restorable
  have again : unplaced (unplaced schema) = unplaced schema := by
    simp [unplaced]
  refine ⟨script schema, written, read, ?_⟩
  rw [Schema.same_iff, read, again]

/-- Orders that point at a table whose name is a word of the language. -/
def shop : PlainSchema :=
  ⟨[⟨"order", [⟨"id", "INT UNSIGNED", true, false, false, none⟩,
      ⟨"unit; price", "NUMERIC(10,2)", false, true, false, none⟩], none⟩,
    ⟨"a \"b\"", [⟨"key", "ENUM('x;','y')[]", false, false, true, some ⟨"order", "id"⟩⟩,
      ⟨"note", "", false, true, false, none⟩], none⟩]⟩

theorem shop_sound : Sound shop := by
  have number : CanonicalType "INT UNSIGNED" :=
    Or.inr ⟨⟨"INT", [], ["UNSIGNED"], 0⟩,
      ⟨isWord_leads "INT" (by decide) rfl, by decide +kernel, by simp, by
        rintro modifier member
        rw [List.mem_singleton.mp member]
        exact ⟨isWord_leads "UNSIGNED" (by decide) rfl, by decide +kernel⟩⟩, rfl⟩
  have amount : CanonicalType "NUMERIC(10,2)" :=
    Or.inr ⟨⟨"NUMERIC", [.number "10", .number "2"], [], 0⟩,
      ⟨isWord_leads "NUMERIC" (by decide) rfl, by decide +kernel, by
        simp [TypeArgument.Valid], by simp⟩, rfl⟩
  have choice : CanonicalType "ENUM('x;','y')[]" :=
    Or.inr ⟨⟨"ENUM", [.literal "x;", .literal "y"], [], 1⟩,
      ⟨isWord_leads "ENUM" (by decide) rfl, by decide +kernel, by
        simp [TypeArgument.Valid], by simp⟩, rfl⟩
  have order : ∀ column ∈ shop.tables[0].columns, PlainColumn.Sound column :=
    List.forall_mem_cons.mpr ⟨⟨by decide +kernel, number, by decide, by simp⟩,
      List.forall_mem_singleton.mpr ⟨by decide +kernel, amount, by decide, by simp⟩⟩
  have other : ∀ column ∈ shop.tables[1].columns, PlainColumn.Sound column := by
    refine List.forall_mem_cons.mpr ⟨⟨by decide +kernel, choice, by decide, ?_⟩,
      List.forall_mem_singleton.mpr ⟨by decide +kernel, Or.inl rfl, by decide, by simp⟩⟩
    rintro reference ⟨rfl⟩
    exact ⟨by decide +kernel, by decide +kernel⟩
  exact ⟨List.forall_mem_cons.mpr ⟨⟨by decide +kernel, order, by decide⟩,
    List.forall_mem_singleton.mpr ⟨by decide +kernel, other, by decide⟩⟩, by decide⟩

/-- The shop comes back in sequential linking as well. -/
theorem shop_restored : Sound shop ∧
    ∃ script, Schema.script shop = .ok script ∧ (parse .sequential script).1 = unplaced shop ∧
      Schema.same (parse .sequential script).1 shop = true :=
  ⟨shop_sound, schema_restored .sequential shop shop_sound⟩

end PlainSchema

end TableScript
