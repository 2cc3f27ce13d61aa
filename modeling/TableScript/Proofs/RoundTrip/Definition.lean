import TableScript.Proofs.RoundTrip.Spelling
import TableScript.Schema.Write
import TableScript.Statement.Reader

/-!
Column definitions, written and read back: the name, the data type and the flags of a column come
back from the pieces that its definition is written from.
-/

namespace TableScript

open Lexeme TypeShape

namespace PlainColumn

/-- The words that a column is marked with behind its data type. -/
def markWords (column : PlainColumn) : List String :=
  (if column.primaryKey then ["PRIMARY", "KEY"]
    else if column.nullable then [] else ["NOT", "NULL"]) ++
    (if column.unique then ["UNIQUE"] else [])

/-- A column that a definition can be read back from. -/
structure Sound (column : PlainColumn) : Prop where
  name : Identifier.Safe column.name
  dataType : CanonicalType column.dataType
  key : column.primaryKey = true → column.nullable = false
  reference : ∀ reference ∈ column.reference,
    Identifier.Safe reference.table ∧ Identifier.Safe reference.column

/-- What a column has to be for its definition to be read back. -/
structure Restorable (column : PlainColumn) : Prop where
  name : Identifier.Proper column.name
  dataType : SpelledType column.dataType
  key : column.primaryKey = true → column.nullable = false
  reference : ∀ reference ∈ column.reference,
    Identifier.Proper reference.table ∧ Identifier.Legible reference.column

theorem Sound.restorable {column : PlainColumn} (sound : Sound column) : Restorable column where
  name := sound.name.proper
  dataType := canonical_spelled column.dataType sound.dataType
  key := sound.key
  reference := by
    intro reference found
    obtain ⟨table, target⟩ := sound.reference reference found
    exact ⟨table.proper, target.proper.toLegible⟩

noncomputable def inks (column : PlainColumn) : List Ink :=
  Identifier.ink column.name :: (typeInks column.dataType ++ wordInks column.markWords)

noncomputable def tokens (column : PlainColumn) : List Token :=
  Identifier.token column.name :: (typeTokens column.dataType ++ column.markWords.map wordToken)

theorem inks_tokens (column : PlainColumn) (restorable : Restorable column) :
    inkTokens column.inks = column.tokens := by
  rw [inks, inkTokens_cons, inkTokens_append, wordInks_tokens, Identifier.ink_tokens, tokens]
  rcases spelled_cases column.dataType restorable.dataType with
    ⟨_, none_written, none_read⟩ | ⟨pieces, first, rest, _, same, written, read⟩
  · rw [none_written, none_read]
    rfl
  · rw [written, read, inkTokens_cons, same]
    rfl

theorem marks_text (column : PlainColumn) :
    String.join ((PlainColumn.marks column).map (" " ++ ·)) =
      String.join ((markWords column).map (" " ++ ·)) := by
  unfold PlainColumn.marks markWords
  cases column.primaryKey <;> cases column.nullable <;> cases column.unique <;> rfl

theorem inks_text (column : PlainColumn) (restorable : Restorable column) :
    inkText (inks column) = (PlainColumn.definition column).toList := by
  obtain ⟨pieces, spelled⟩ := restorable.dataType
  have trimmed := spelled_trimmed spelled
  rw [inks, inkText_cons, inkText_append, wordInks_text, Identifier.ink_chars, ← marks_text,
    PlainColumn.definition, trimmed, List.cons_append, Text.intercalate_cons]
  rcases spelled_cases column.dataType restorable.dataType with
    ⟨empty, none_written, _⟩ | ⟨pieces, first, rest, spells, same, written, _⟩
  · rw [none_written, empty]
    simp
  · obtain ⟨c, chars, text, _⟩ := spelled_head spells first rest same
    have occupied : (column.dataType == "") = false := by
      refine beq_eq_false_iff_ne.mpr fun empty => ?_
      rw [empty] at text
      cases text
    rw [written, occupied, inkText_cons, spells.text]
    simp [Ink.chars]

theorem markWords_known (column : PlainColumn) :
    ∀ word ∈ markWords column, word ∈ ["PRIMARY", "KEY", "NOT", "NULL", "UNIQUE"] := by
  unfold markWords
  cases column.primaryKey <;> cases column.nullable <;> cases column.unique <;> decide

theorem mark_isWord : ∀ word ∈ ["PRIMARY", "KEY", "NOT", "NULL", "UNIQUE"],
    IsWord word ∧ Text.upper word ∉ operatorWords := by
  have each : ∀ word ∈ ["PRIMARY", "KEY", "NOT", "NULL", "UNIQUE"],
      word ≠ "" ∧ word.toList.all Identifier.isLead = true ∧ Text.upper word ∉ operatorWords := by
    decide +kernel
  intro word known
  obtain ⟨occupied, leads, free⟩ := each word known
  exact ⟨isWord_leads word occupied leads, free⟩

theorem follows_name (following : List Char) (follows : Follows following) :
    ∀ c ∈ following.head?, c ∈ [' ', '\n', '(', ')', ','] := by
  intro c head
  rcases follows c head with rfl | rfl | rfl <;> decide

/-- A definition can be written in a list of definitions. -/
theorem inks_written (column : PlainColumn) (restorable : Restorable column) (following : List Char)
    (follows : Follows following) : Written (inks column) following := by
  obtain ⟨marks, next⟩ := wordInks_written (fun c => c = ' ' ∨ c = ',' ∨ c = '\n') (Or.inl rfl)
    (by rintro c (rfl | rfl | rfl) <;> decide) (markWords column)
    (fun word member => mark_isWord word (markWords_known column word member)) following follows
  have named := Identifier.ink_stands column.name restorable.name.toClear
  rw [inks, Written, written_append, inkText_append, List.append_assoc]
  rcases spelled_cases column.dataType restorable.dataType with
    ⟨_, none_written, _⟩ | ⟨pieces, first, rest, spells, same, written, _⟩
  · rw [none_written]
    exact ⟨named _ (follows_name _ next), trivial, marks⟩
  · rw [written]
    obtain ⟨c, chars, text, begins⟩ := spelled_head spells first rest same
    refine ⟨named _ (by rintro d ⟨rfl⟩; decide), ⟨?_, spells_written pieces _ spells _ next⟩, marks⟩
    rw [spells.text, text, List.cons_append]
    exact gap_before ' ' c _ rfl (begins.imp (by rintro rfl; decide) Or.inr)

/-- What a definition says of a column. -/
def definitionOf (column : PlainColumn) : ColumnDefinition :=
  { name := column.name
    dataType := column.dataType
    primaryKey := column.primaryKey
    notNull := !column.primaryKey && !column.nullable
    unique := column.unique
    reference := none }

theorem marks_end (column : PlainColumn) :
    ∀ token ∈ ((markWords column).map wordToken).head?, EndsType token := by
  have each : ∀ word ∈ ["PRIMARY", "NOT", "UNIQUE"], Text.upper word ∈ ["PRIMARY", "NOT", "UNIQUE"] := by
    decide +kernel
  intro token head
  unfold markWords at head
  cases key : column.primaryKey <;> cases nullable : column.nullable <;>
    cases unique : column.unique <;> simp [key, nullable, unique] at head
  all_goals exact ⟨_, head.symm, each _ (by decide)⟩

theorem marks_read (column : PlainColumn) :
    Token.readType ((markWords column).map wordToken) = ([], (markWords column).map wordToken) := by
  unfold markWords
  cases column.primaryKey <;> cases column.nullable <;> cases column.unique <;> rfl

theorem options_read (column : PlainColumn) :
    columnOptions 0 0 ⟨column.name, column.dataType, false, false, false, none⟩
      ((markWords column).map wordToken) = definitionOf column := by
  unfold markWords definitionOf
  cases column.primaryKey <;> cases column.nullable <;> cases column.unique <;> rfl

theorem type_read (column : PlainColumn) (restorable : Restorable column) :
    Token.readType (typeTokens column.dataType ++ (markWords column).map wordToken) =
      (typeTokens column.dataType, (markWords column).map wordToken) ∧
    Token.render (typeTokens column.dataType) = column.dataType := by
  rcases spelled_cases column.dataType restorable.dataType with
    ⟨empty, _, none_read⟩ | ⟨pieces, first, rest, spells, same, _, read⟩
  · rw [none_read, empty]
    exact ⟨marks_read column, rfl⟩
  · rw [read, ← same]
    have whole := spells.read
    refine ⟨?_, spells.rendered⟩
    rw [same] at whole ⊢
    exact Token.type_behind first rest _ whole (typeLength_ended _ (marks_end column))

/-- What stands behind the name of a column does not make another clause of it. -/
theorem behind_name (column : PlainColumn) (restorable : Restorable column) :
    ∀ token ∈ (typeTokens column.dataType ++ (markWords column).map wordToken).head?,
      token.isFlat = true ∧ token.isOneOf ["USING", "FOR"] = false := by
  rcases spelled_cases column.dataType restorable.dataType with
    ⟨_, _, none_read⟩ | ⟨pieces, first, rest, spells, same, _, read⟩
  · rw [none_read]
    intro token head
    obtain ⟨word, same, known⟩ := marks_end column token head
    have apart : ∀ word ∈ ["PRIMARY", "NOT", "UNIQUE"], word ∉ ["USING", "FOR"] := by decide
    have other := apart _ known
    rw [same]
    exact ⟨rfl, by simpa [Token.isOneOf, wordToken, Token.upper] using other⟩
  · rw [read]
    rintro token ⟨rfl⟩
    exact ⟨Token.identifier_flat (spelled_begins spells first rest same), spells.free first (by simp [same])⟩

theorem behind_starts (column : PlainColumn) (restorable : Restorable column) (accepts : Token → Bool)
    (refuses : ∀ token : Token, token.isFlat = true → token.isOneOf ["USING", "FOR"] = false →
      accepts token = false) :
    Token.startsWith accepts (typeTokens column.dataType ++ (markWords column).map wordToken) =
      false := by
  have behind := behind_name column restorable
  cases rest : typeTokens column.dataType ++ (markWords column).map wordToken with
  | nil => rfl
  | cons token others =>
      rw [rest] at behind
      obtain ⟨flat, free⟩ := behind token rfl
      exact refuses token flat free

theorem not_ignored (column : PlainColumn) (restorable : Restorable column) :
    ignoredReason? (Identifier.token column.name)
      (typeTokens column.dataType ++ (markWords column).map wordToken) = none := by
  have index := Identifier.token_isOneOf column.name Keyword.indexClause (by decide)
  have check := Identifier.token_isWord column.name "CHECK" (by decide)
  have like := Identifier.token_isWord column.name "LIKE" (by decide)
  have exclusion := behind_starts column restorable (fun token => token.isOpen || token.isWord "USING")
    (fun token flat free => by
      have other := Token.isOneOf_fewer token _ ["USING"] free (by decide)
      simp [(Token.flat_parts flat).1, Token.isWord, other])
  have period := behind_starts column restorable (·.isWord "FOR")
    (fun token _ free => Token.isOneOf_fewer token _ ["FOR"] free (by decide))
  simp [ignoredReason?, index, check, like, exclusion, period]

/-- A written definition is read as the column it was written for. -/
theorem clause_read (column : PlainColumn) (restorable : Restorable column) :
    Clause.ofTokens? (tokens column) = some (.column (definitionOf column)) := by
  have constraint := Identifier.token_isWord column.name "CONSTRAINT" (by decide)
  have start := Identifier.token_isOneOf column.name ["PRIMARY", "FOREIGN", "UNIQUE"] (by decide)
  have cleaned := Identifier.clean_token column.name restorable.name.toLegible
  obtain ⟨read, rendered⟩ := type_read column restorable
  have clause : columnClause (Token.render (tokens column)) (Identifier.token column.name)
      (typeTokens column.dataType ++ (markWords column).map wordToken) =
      .column (definitionOf column) := by
    rw [columnClause, Identifier.token_isIdentifier, cleaned]
    simp [restorable.name.occupied, read, rendered, options_read column]
  rw [tokens] at clause ⊢
  simp only [Clause.ofTokens?, constraint, isConstraintStart, start,
    not_ignored column restorable, clause]
  rfl

theorem words_whole (words : List String) : Token.Whole (words.map wordToken) := by
  induction words with
  | nil => exact .nil
  | cons word words ih => exact .flat rfl rfl ih

/-- A definition is one part of a list of definitions. -/
theorem tokens_whole (column : PlainColumn) (restorable : Restorable column) : Token.Whole (tokens column) := by
  have flat : (Identifier.token column.name).isFlat = true := by
    simp [Token.isFlat, Token.isOpen, Token.isClose, Identifier.token_isPunct]
  refine .flat flat (Identifier.token_isPunct column.name ",")
    (Token.whole_append ?_ (words_whole (markWords column)))
  rcases spelled_cases column.dataType restorable.dataType with
    ⟨_, _, none_read⟩ | ⟨pieces, first, rest, spells, same, _, read⟩
  · rw [none_read]
    exact .nil
  · rw [read, ← same]
    exact Token.type_whole _ spells.read

end PlainColumn

end TableScript
