import TableScript.Proofs.RoundTrip.TypeShape

/-!
Data types that read back as they are spelled. What matters of such a type is that its text is cut
into pieces that do not run into one another, and that their tokens are one data type and put
together are the text again. The types with a shape are spelled this way, and so are others such as
`public.mood` or `VARCHAR(80 CHAR)`.
-/

namespace TableScript

open Lexeme TypeShape

/-- No blank ends a text. -/
def EndsSolid (chars : List Char) : Prop :=
  ∀ c ∈ chars.getLast?, Text.isBlank c = false

theorem endsSolid_behind (front chars : List Char) (occupied : chars ≠ []) (ends : EndsSolid chars) :
    EndsSolid (front ++ chars) := by
  intro c last
  rw [List.getLast?_append_of_ne_nil front occupied] at last
  exact ends c last

theorem endsSolid_all (chars : List Char) (solid : ∀ c ∈ chars, Text.isBlank c = false) :
    EndsSolid chars :=
  fun c last => solid c (List.mem_of_getLast? last)

theorem quoted_endsSolid (quote : Char) (content : List Char) (solid : Text.isBlank quote = false) :
    EndsSolid (quoted quote content) := by
  intro c last
  rw [quoted_last] at last
  cases last
  exact solid

/-- What a piece that stands makes of itself: a token of the same text, with no blank at its end. -/
theorem token_solid (ink : Ink) (following : List Char) (stands : ink.Stands following)
    (token : Token) (member : token ∈ ink.tokens) :
    token.value.toList ≠ [] ∧ EndsSolid token.value.toList := by
  cases ink with
  | gap c => cases member
  | word chars =>
      rw [List.mem_singleton.mp member, String.toList_ofList]
      exact ⟨stands.1, endsSolid_all chars fun c inside => (plain_inner c (stands.2.1 c inside)).solid⟩
  | symbol content =>
      rw [List.mem_singleton.mp member, String.toList_ofList]
      exact ⟨by simp [quoted], quoted_endsSolid '"' content rfl⟩
  | literal content =>
      rw [List.mem_singleton.mp member, String.toList_ofList]
      exact ⟨by simp [quoted], quoted_endsSolid '\'' content rfl⟩
  | number digits =>
      rw [List.mem_singleton.mp member, String.toList_ofList]
      refine ⟨stands.1, endsSolid_all digits fun c inside => ?_⟩
      have inner : Identifier.isInner c = true := by
        simp [Identifier.isInner, Char.isAlphanum, stands.2.1 c inside]
      exact (plain_inner c inner).solid
  | mark c =>
      rw [List.mem_singleton.mp member, String.toList_ofList]
      refine ⟨by simp, endsSolid_all [c] fun d inside => ?_⟩
      rw [List.mem_singleton.mp inside]
      have each : ∀ c ∈ ['(', ')', ',', ']', '[', '.'], Text.isBlank c = false :=
        Text.each_char _ _ (by decide)
      exact each c (mark_known c following stands)

theorem identifier_head (ink : Ink) (following : List Char) (stands : ink.Stands following)
    (token : Token) (member : token ∈ ink.tokens) (identifier : token.isIdentifier = true) :
    ∀ c ∈ token.value.toList.head?, c = '"' ∨ Identifier.isLead c = true := by
  cases ink with
  | word chars =>
      rw [List.mem_singleton.mp member, String.toList_ofList]
      exact fun c head => Or.inr (stands.2.2.1.lead c head)
  | symbol content =>
      rw [List.mem_singleton.mp member, String.toList_ofList]
      rintro c ⟨rfl⟩
      exact Or.inl rfl
  | gap c => cases member
  | literal content => cases List.mem_singleton.mp member ▸ identifier
  | number digits => cases List.mem_singleton.mp member ▸ identifier
  | mark c => cases List.mem_singleton.mp member ▸ identifier

/-- Each token of a written text is from a piece of it that stands. -/
theorem written_token (inks : List Ink) (tail : List Char) (written : Written inks tail)
    (token : Token) (member : token ∈ inkTokens inks) :
    ∃ (ink : Ink) (following : List Char), ink.Stands following ∧ token ∈ ink.tokens := by
  induction inks with
  | nil => cases member
  | cons ink inks ih =>
      obtain ⟨stands, later⟩ := written
      rcases List.mem_append.mp member with here | behind
      · exact ⟨ink, _, stands, here⟩
      · exact ih later behind

theorem render_solid (before : Token) (tokens : List Token) (front : List Char)
    (solid : ∀ token ∈ tokens, token.value.toList ≠ [] ∧ EndsSolid token.value.toList)
    (ends : EndsSolid front) : EndsSolid (front ++ (Token.renderAfter before tokens).toList) := by
  induction tokens generalizing before front with
  | nil => simpa [Token.renderAfter] using ends
  | cons token tokens ih =>
      obtain ⟨⟨occupied, head⟩, others⟩ := List.forall_mem_cons.mp solid
      rw [Token.renderAfter, String.toList_append, String.toList_append, ← List.append_assoc]
      refine ih token _ others ?_
      rw [← List.append_assoc]
      exact endsSolid_behind _ _ occupied head

/-- What stands behind a data type begins with one of these, or is nothing. -/
def followings : List (List Char) :=
  [[], [' '], [','], ['\n']]

/-- A data type is spelled by some pieces. -/
structure Spells (pieces : List Ink) (dataType : String) : Prop where
  text : inkText pieces = dataType.toList
  written : ∀ following ∈ followings, Written pieces following
  read : Token.readType (inkTokens pieces) = (inkTokens pieces, [])
  rendered : Token.render (inkTokens pieces) = dataType
  -- With these words behind it, a name may begin another clause.
  free : ∀ token ∈ (inkTokens pieces).head?, token.isOneOf ["USING", "FOR"] = false

instance (pieces : List Ink) (dataType : String) : Decidable (Spells pieces dataType) :=
  decidable_of_iff (inkText pieces = dataType.toList ∧
      (∀ following ∈ followings, Written pieces following) ∧
      Token.readType (inkTokens pieces) = (inkTokens pieces, []) ∧
      Token.render (inkTokens pieces) = dataType ∧
      ∀ token ∈ (inkTokens pieces).head?, token.isOneOf ["USING", "FOR"] = false)
    ⟨fun ⟨text, written, read, rendered, free⟩ => ⟨text, written, read, rendered, free⟩,
      fun spells => ⟨spells.text, spells.written, spells.read, spells.rendered, spells.free⟩⟩

theorem spells_written (pieces : List Ink) (dataType : String) (spells : Spells pieces dataType)
    (following : List Char) (follows : Follows following) : Written pieces following := by
  cases following with
  | nil => exact spells.written [] (by decide)
  | cons c rest =>
      have known : [c] ∈ followings := by
        rcases follows c rfl with rfl | rfl | rfl <;> decide
      exact written_head pieces [c] (c :: rest) rfl (spells.written [c] known)

theorem followings_follow : ∀ following ∈ followings, Follows following := by
  intro following member
  simp only [followings, List.mem_cons, List.not_mem_nil, or_false] at member
  rcases member with rfl | rfl | rfl | rfl <;> simp [Follows]

/-- A data type that reads back as it is spelled, piece by piece. Some types that read back as well
have no such pieces: an array bound as in `INT[3]`, a number with a sign or a fraction, and a name in
backquotes or brackets, or with letters beyond ASCII, are none. -/
def SpelledType (dataType : String) : Prop :=
  ∃ pieces, Spells pieces dataType

theorem canonical_spelled (dataType : String) (canonical : CanonicalType dataType) :
    SpelledType dataType := by
  rcases canonical with rfl | ⟨shape, valid, rfl⟩
  · exact ⟨[], rfl, fun _ _ => trivial, rfl, rfl, by simp⟩
  · have tokens := inks_tokens shape valid
    refine ⟨shape.inks, inks_text shape valid, fun following member =>
      inks_written shape valid following (followings_follow following member), ?_, ?_, ?_⟩
    · rw [tokens, readType_tokens shape valid]
    · rw [tokens, render_tokens shape]
    · rw [tokens]
      rintro token ⟨rfl⟩
      have barred : ∀ word ∈ ["USING", "FOR"], word ∈ barredWords := by decide
      have apart : Text.upper shape.name ∉ ["USING", "FOR"] := fun member =>
        valid.free (barred _ member)
      simpa [Token.isOneOf, wordToken, Token.upper] using apart

-- A type in a schema, with a length in characters, has no such shape.
example : SpelledType "public.code(80 char)[]" :=
  ⟨[.word "public".toList, .mark '.', .word "code".toList, .mark '(', .number "80".toList, .gap ' ',
    .word "char".toList, .mark ')', .mark '[', .mark ']'], by decide +kernel⟩

section Spells

variable {pieces : List Ink} {dataType : String} (spells : Spells pieces dataType)

include spells

/-- A spelled type without tokens is no type. -/
theorem spelled_empty (empty : inkTokens pieces = []) : dataType = "" := by
  rw [← spells.rendered, empty]
  rfl

theorem spelled_token (token : Token) (member : token ∈ inkTokens pieces) :
    ∃ (ink : Ink) (following : List Char), ink.Stands following ∧ token ∈ ink.tokens :=
  written_token pieces [] (spells.written [] (by decide)) token member

theorem spelled_begins (first : Token) (rest : List Token) (same : inkTokens pieces = first :: rest) :
    first.isIdentifier = true := by
  have read := spells.read
  rw [same] at read
  exact (Bool.and_eq_true_iff.mp ((Token.type_parts_iff first rest).mp read).1).1

/-- A spelled type begins with a word or with a quote. -/
theorem spelled_head (first : Token) (rest : List Token) (same : inkTokens pieces = first :: rest) :
    ∃ c chars, dataType.toList = c :: chars ∧ (c = '"' ∨ Identifier.isLead c = true) := by
  obtain ⟨ink, following, stands, member⟩ := spelled_token spells first (by simp [same])
  have occupied := (token_solid ink following stands first member).1
  have heads := identifier_head ink following stands first member (spelled_begins spells first rest same)
  obtain ⟨c, chars, value⟩ := List.exists_cons_of_ne_nil occupied
  refine ⟨c, chars ++ (Token.renderAfter first rest).toList, ?_, heads c (by rw [value]; rfl)⟩
  rw [← spells.rendered, same, Token.render, String.toList_append, value, List.cons_append]

theorem spelled_trimmed : Text.trim dataType = dataType := by
  cases same : inkTokens pieces with
  | nil =>
      rw [spelled_empty spells same]
      rfl
  | cons first rest =>
      have solid : ∀ token ∈ first :: rest,
          token.value.toList ≠ [] ∧ EndsSolid token.value.toList := by
        intro token member
        obtain ⟨ink, following, stands, made⟩ := spelled_token spells token (same ▸ member)
        exact token_solid ink following stands token made
      obtain ⟨⟨_, head⟩, others⟩ := List.forall_mem_cons.mp solid
      have ends := render_solid first rest first.value.toList others head
      rw [← String.toList_append, ← Token.render, ← same, spells.rendered] at ends
      obtain ⟨c, chars, text, begins⟩ := spelled_head spells first rest same
      have starts : Text.isBlank c = false := by
        rcases begins with rfl | lead
        · rfl
        · exact (plain_inner c (lead_inner c lead)).solid
      rw [Text.trim, Text.trimChars_self _ (by rw [text]; rintro d ⟨rfl⟩; exact starts) ends,
        String.ofList_toList]

end Spells

open Classical in
/-- The pieces of a data type behind a name. There are none for no data type. -/
noncomputable def typeInks (dataType : String) : List Ink :=
  if spelled : dataType ≠ "" ∧ SpelledType dataType then .gap ' ' :: spelled.2.choose else []

open Classical in
noncomputable def typeTokens (dataType : String) : List Token :=
  if spelled : dataType ≠ "" ∧ SpelledType dataType then inkTokens spelled.2.choose else []

/-- A spelled type is none at all, or begins with a token of its pieces. -/
theorem spelled_cases (dataType : String) (spelled : SpelledType dataType) :
    (dataType = "" ∧ typeInks dataType = [] ∧ typeTokens dataType = []) ∨
      ∃ pieces first rest, Spells pieces dataType ∧ inkTokens pieces = first :: rest ∧
        typeInks dataType = .gap ' ' :: pieces ∧ typeTokens dataType = first :: rest := by
  by_cases occupied : dataType ≠ "" ∧ SpelledType dataType
  · have spells := occupied.2.choose_spec
    cases same : inkTokens occupied.2.choose with
    | nil => exact absurd (spelled_empty spells same) occupied.1
    | cons first rest =>
        refine Or.inr ⟨occupied.2.choose, first, rest, spells, same, ?_, ?_⟩
        · rw [typeInks, dif_pos occupied]
        · rw [typeTokens, dif_pos occupied, same]
  · have empty : dataType = "" := by
      by_contra other
      exact occupied ⟨other, spelled⟩
    refine Or.inl ⟨empty, ?_, ?_⟩
    · rw [typeInks, dif_neg occupied]
    · rw [typeTokens, dif_neg occupied]

end TableScript
