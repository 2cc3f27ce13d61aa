import TableScript.Proofs.RoundTrip.Statement
import TableScript.Parse
import Mathlib.Data.List.Forall2

/-!
The script of a schema, read back as statements: one that makes each table, in order, and then one
for each reference.
-/

namespace TableScript

open Lexeme

namespace Script

/-- Line feeds before a statement. -/
def breaks (count : Nat) : List Ink :=
  List.replicate count (.gap '\n')

/-- Statements with line feeds before the first one and between them. -/
def spaced (before between : Nat) : List (List Ink) → List (List Ink)
  | [] => []
  | first :: rest => (breaks before ++ first) :: rest.map (breaks between ++ ·)

theorem breaks_text (count : Nat) : inkText (breaks count) = List.replicate count '\n' := by
  induction count with
  | zero => rfl
  | succ count ih =>
      rw [List.replicate_succ, ← ih]
      rfl

theorem breaks_tokens (count : Nat) : inkTokens (breaks count) = [] := by
  induction count with
  | zero => rfl
  | succ count ih => exact ih

/-- The pieces of a statement that begins with a word and ends with a parenthesis. -/
structure Standing (inks : List Ink) : Prop where
  written : ∀ following, Written inks following
  occupied : inkTokens inks ≠ []
  lead : ∃ c rest, inkText inks = c :: rest ∧ Identifier.isLead c = true
  closed : (inkText inks).getLast? = some ')'
  heeded : isIgnored (String.ofList (inkText inks)) = false

theorem breaks_written (count : Nat) (inks : List Ink) (standing : Standing inks)
    (following : List Char) : Written (breaks count ++ inks) following := by
  obtain ⟨c, rest, same, lead⟩ := standing.lead
  induction count with
  | zero => exact standing.written following
  | succ count ih =>
      have step : breaks (count + 1) ++ inks = .gap '\n' :: (breaks count ++ inks) := rfl
      rw [step]
      refine ⟨?_, ih⟩
      rw [inkText_append, breaks_text, same]
      cases count with
      | zero => exact gap_before '\n' c _ rfl (Or.inr (Or.inr lead))
      | succ count => exact gap_before '\n' '\n' _ rfl (Or.inr (Or.inl rfl))

theorem trim_breaks (count : Nat) (inks : List Ink) (standing : Standing inks) :
    Text.trim (String.ofList (inkText (breaks count ++ inks))) = String.ofList (inkText inks) := by
  obtain ⟨c, rest, same, lead⟩ := standing.lead
  have head : ∀ d ∈ (inkText inks).head?, Text.isBlank d = false := by
    rw [same]
    rintro d ⟨rfl⟩
    exact (plain_inner c (lead_inner c lead)).solid
  have last : ∀ d ∈ (inkText inks).getLast?, Text.isBlank d = false := by
    rw [standing.closed]
    rintro d ⟨rfl⟩
    rfl
  have front : ∀ d ∈ List.replicate count '\n', Text.isBlank d = true := by
    intro d member
    rw [List.eq_of_mem_replicate member]
    rfl
  have trimmed := Text.trimChars_inner (List.replicate count '\n') (inkText inks) [] front
    (by simp) head last (by simp [same])
  rw [List.append_nil] at trimmed
  rw [Text.trim, String.toList_ofList, inkText_append, breaks_text, trimmed]

theorem breaks_kept (count : Nat) (inks : List Ink) (standing : Standing inks) :
    Kept (breaks count ++ inks) where
  written := fun rest => breaks_written count inks standing (';' :: rest)
  occupied := by simpa [breaks_tokens] using standing.occupied
  heeded := by
    rw [trim_breaks count inks standing]
    exact standing.heeded

theorem spaced_kept (before between : Nat) (statements : List (List Ink))
    (standing : ∀ inks ∈ statements, Standing inks) :
    ∀ inks ∈ spaced before between statements, Kept inks := by
  cases statements with
  | nil => simp [spaced]
  | cons first rest =>
      obtain ⟨head, others⟩ := List.forall_mem_cons.mp standing
      refine List.forall_mem_cons.mpr ⟨breaks_kept before first head, fun inks member => ?_⟩
      obtain ⟨inner, inside, rfl⟩ := List.mem_map.mp member
      exact breaks_kept between inner (others inner inside)

/-- Line feeds before a statement are no part of it. -/
theorem breaks_raw (count : Nat) (inks : List Ink) (standing : Standing inks) :
    rawOf (breaks count ++ inks) = rawOf inks := by
  have plain : Text.trim (String.ofList (inkText inks)) = String.ofList (inkText inks) :=
    trim_breaks 0 inks standing
  rw [rawOf, rawOf, trim_breaks count inks standing, plain, inkTokens_append, breaks_tokens,
    List.nil_append]

theorem spaced_raw (before between : Nat) (statements : List (List Ink))
    (standing : ∀ inks ∈ statements, Standing inks) :
    (spaced before between statements).map rawOf = statements.map rawOf := by
  cases statements with
  | nil => rfl
  | cons first rest =>
      obtain ⟨head, others⟩ := List.forall_mem_cons.mp standing
      rw [spaced, List.map_cons, List.map_map, breaks_raw before first head, List.map_cons]
      exact congrArg _ (List.map_congr_left fun inks member =>
        breaks_raw between inks (others inks member))

/-- The text of statements, from the texts of each of them with its semicolon. -/
theorem spaced_text (before between : Nat) (texts : List String) (statements : List (List Ink))
    (same : List.Forall₂ (fun text inks => text.toList = inkText inks ++ [';']) texts statements) :
    (spaced before between statements).flatMap (fun inks => inkText inks ++ [';']) =
      (if texts.isEmpty then [] else List.replicate before '\n') ++
        ((String.ofList (List.replicate between '\n')).intercalate texts).toList := by
  have rest : ∀ (texts : List String) (statements : List (List Ink)),
      List.Forall₂ (fun text inks => text.toList = inkText inks ++ [';']) texts statements →
      (statements.map (breaks between ++ ·)).flatMap (fun inks => inkText inks ++ [';']) =
        (String.join (texts.map (String.ofList (List.replicate between '\n') ++ ·))).toList := by
    intro texts statements same
    induction same with
    | nil => rfl
    | cons head _ ih =>
        rw [List.map_cons, List.flatMap_cons, ih, List.map_cons, String.join_cons]
        simp [head, breaks_text]
  cases same with
  | nil => rfl
  | cons head tail =>
      rw [spaced, List.flatMap_cons, rest _ _ tail, Text.intercalate_cons]
      simp [head, breaks_text]

end Script

namespace PlainTable

theorem create_standing (table : PlainTable) (restorable : Restorable table) :
    Script.Standing (createInks table) where
  written := create_written table restorable
  occupied := by
    rw [create_tokens table restorable]
    exact List.cons_ne_nil _ _
  lead := ⟨'C', _, rfl, rfl⟩
  closed := by
    rw [createInks, inkText_append, inkText_append, ← List.append_assoc]
    exact List.getLast?_concat
  heeded := Script.create_heeded _

/-- The statement that makes a table. -/
def createOf (table : PlainTable) : Statement :=
  .createTable table.name (table.columns.map (.column ∘ PlainColumn.definitionOf)) true

end PlainTable

namespace Relationship

theorem inks_standing (edge : Relationship String) (restorable : Restorable edge) :
    Script.Standing (inks edge) where
  written := inks_written edge restorable
  occupied := by
    rw [inks_tokens]
    exact List.cons_ne_nil _ _
  lead := ⟨'A', _, rfl, rfl⟩
  closed := by
    have split : inkText (inks edge) = inkText (inks edge).dropLast ++ [')'] := by
      simp [inks]
    rw [split]
    exact List.getLast?_concat
  heeded := Script.alter_heeded _

/-- The statement that adds a reference. -/
def alterOf (edge : Relationship String) : Statement :=
  .alterTable edge.source [.add (constraintOf edge)]

end Relationship

namespace PlainSchema

/-- A schema that can be read back. -/
structure Sound (schema : PlainSchema) : Prop where
  tables : ∀ table ∈ schema.tables, PlainTable.Sound table
  distinct : (schema.tables.map (·.name)).Nodup

/-- What a schema has to be for its script to be read back. -/
structure Restorable (schema : PlainSchema) : Prop where
  tables : ∀ table ∈ schema.tables, PlainTable.Restorable table
  distinct : (schema.tables.map (·.name)).Nodup

theorem Sound.restorable {schema : PlainSchema} (sound : Sound schema) : Restorable schema where
  tables := fun table member => (sound.tables table member).restorable
  distinct := sound.distinct

theorem mem_relationships (schema : PlainSchema) (edge : Relationship String) :
    edge ∈ schema.relationships ↔ ∃ table ∈ schema.tables, ∃ column ∈ table.columns,
      ∃ reference ∈ column.reference,
        ⟨table.name, column.name, reference.table, reference.column⟩ = edge := by
  simp [Schema.relationships]

theorem relationship_restorable (schema : PlainSchema) (restorable : Restorable schema) :
    ∀ edge ∈ schema.relationships, Relationship.Restorable edge := by
  intro edge member
  obtain ⟨table, inside, column, among, reference, found, rfl⟩ :=
    (mem_relationships schema edge).mp member
  have source := (restorable.tables table inside).columns column among
  obtain ⟨target, key⟩ := source.reference reference found
  exact ⟨(restorable.tables table inside).name, source.name, target, key⟩

theorem relationship_scripts (schema : PlainSchema) :
    schema.tables.flatMap PlainTable.referenceScripts =
      schema.relationships.map Relationship.script := by
  simp only [Schema.relationships, List.map_flatMap, List.map_filterMap, Option.map_map]
  rfl

noncomputable def inks (schema : PlainSchema) : List (List Ink) :=
  Script.spaced 0 2 (schema.tables.map PlainTable.createInks) ++
    Script.spaced 2 1 (schema.relationships.map Relationship.inks)

/-- The statements that a written schema is read as. -/
def statements (schema : PlainSchema) : List Statement :=
  schema.tables.map PlainTable.createOf ++ schema.relationships.map Relationship.alterOf

theorem creates_standing (schema : PlainSchema) (restorable : Restorable schema) :
    ∀ inks ∈ schema.tables.map PlainTable.createInks, Script.Standing inks :=
  List.forall_mem_map.mpr fun table inside =>
    PlainTable.create_standing table (restorable.tables table inside)

theorem alters_standing (schema : PlainSchema) (restorable : Restorable schema) :
    ∀ inks ∈ schema.relationships.map Relationship.inks, Script.Standing inks :=
  List.forall_mem_map.mpr fun edge inside =>
    Relationship.inks_standing edge (relationship_restorable schema restorable edge inside)

theorem inks_kept (schema : PlainSchema) (restorable : Restorable schema) :
    ∀ inks ∈ PlainSchema.inks schema, Script.Kept inks := by
  intro inks member
  rcases List.mem_append.mp member with made | altered
  · exact Script.spaced_kept 0 2 _ (creates_standing schema restorable) inks made
  · exact Script.spaced_kept 2 1 _ (alters_standing schema restorable) inks altered

theorem inks_read (schema : PlainSchema) (restorable : Restorable schema) :
    ((PlainSchema.inks schema).map Script.rawOf).map Statement.ofRaw = statements schema := by
  rw [PlainSchema.inks, List.map_append, Script.spaced_raw 0 2 _ (creates_standing schema restorable),
    Script.spaced_raw 2 1 _ (alters_standing schema restorable), List.map_append, List.map_map,
    List.map_map, List.map_map, List.map_map, statements]
  congr 1
  · apply List.map_congr_left
    intro table inside
    have made := restorable.tables table inside
    rw [Function.comp_apply, Function.comp_apply, Script.rawOf, PlainTable.create_tokens table made]
    exact PlainTable.create_read table made _
  · apply List.map_congr_left
    intro edge inside
    rw [Function.comp_apply, Function.comp_apply, Script.rawOf, Relationship.inks_tokens edge]
    exact Relationship.statement_read edge (relationship_restorable schema restorable edge inside) _

theorem script_text (schema : PlainSchema) (restorable : Restorable schema) (occupied : schema.tables ≠ []) :
    (script schema).toList = Script.statementsText (PlainSchema.inks schema) := by
  have create := Script.spaced_text 0 2 (schema.tables.map PlainTable.createScript)
    (schema.tables.map PlainTable.createInks)
    (List.forall₂_map_left_iff.mpr (List.forall₂_map_right_iff.mpr (List.forall₂_same.mpr
      fun table inside => PlainTable.create_text table (restorable.tables table inside))))
  have alter := Script.spaced_text 2 1 (schema.relationships.map Relationship.script)
    (schema.relationships.map Relationship.inks)
    (List.forall₂_map_left_iff.mpr (List.forall₂_map_right_iff.mpr (List.forall₂_same.mpr
      fun edge _ => Relationship.inks_text edge)))
  rw [Script.statementsText, PlainSchema.inks, List.flatMap_append, create, alter]
  unfold script
  rw [relationship_scripts]
  by_cases edges : schema.relationships = []
  · simp [occupied, edges]
  · simp [occupied, edges, String.intercalate_cons_cons]

/-- The script of a schema is read as the statements it was written for. -/
theorem statements_read (schema : PlainSchema) (restorable : Restorable schema) :
    (readStatements (script schema)).1 = statements schema := by
  by_cases occupied : schema.tables = []
  · have empty : schema = ⟨[]⟩ := by
      cases schema
      exact congrArg Schema.mk occupied
    rw [empty]
    rfl
  · have text : script schema = String.ofList (Script.statementsText (PlainSchema.inks schema)) := by
      rw [← script_text schema restorable occupied, String.ofList_toList]
    have split := Script.split_statements (PlainSchema.inks schema) (inks_kept schema restorable)
    have read := inks_read schema restorable
    rw [text, readStatements, split]
    exact read

end PlainSchema

end TableScript
