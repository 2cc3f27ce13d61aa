import TableScript.Proofs.Reading.TypeParts
import TableScript.Proofs.RoundTrip.Name

/-!
Data types in the spelling that reading them gives: a word, then perhaps arguments in parentheses,
words that go on with a type, and array brackets. Such a type is written from pieces, is read as
one data type, and its tokens put together are its text again.
-/

namespace TableScript

open Lexeme

/-- An argument of a data type. -/
inductive TypeArgument where
  | number (digits : String)
  | literal (content : String)

namespace TypeArgument

def text : TypeArgument → String
  | .number digits => digits
  | .literal content => "'" ++ content ++ "'"

def Valid : TypeArgument → Prop
  | .number digits => digits ≠ "" ∧ ∀ c ∈ digits.toList, c.isDigit = true
  | .literal content => '\'' ∉ content.toList ∧ '\\' ∉ content.toList

def ink : TypeArgument → Ink
  | .number digits => .number digits.toList
  | .literal content => .literal content.toList

def token : TypeArgument → Token
  | .number digits => ⟨.number, digits⟩
  | .literal content => ⟨.string, "'" ++ content ++ "'"⟩

end TypeArgument

/-- The parts of a data type. Without arguments it has no parentheses. -/
structure TypeShape where
  name : String
  arguments : List TypeArgument
  modifiers : List String
  brackets : Nat

/-- A word of ASCII letters, digits and underscores that does not begin with a digit. -/
def IsWord (word : String) : Prop :=
  ∃ c rest, word.toList = c :: rest ∧ Identifier.isLead c = true ∧
    ∀ d ∈ rest, Identifier.isInner d = true

theorem isWord_leads (word : String) (occupied : word ≠ "")
    (leads : word.toList.all Identifier.isLead = true) : IsWord word := by
  obtain ⟨c, rest, same⟩ := List.exists_cons_of_ne_nil fun empty =>
    occupied (String.toList_eq_nil_iff.mp empty)
  rw [same, List.all_eq_true] at leads
  obtain ⟨head, others⟩ := List.forall_mem_cons.mp leads
  exact ⟨c, rest, same, head, fun d member => lead_inner d (others d member)⟩

/-- A gap stands before a word. -/
theorem gap_word (c : Char) (gap : isGap c = true) (word : String) (isWord : IsWord word)
    (inks : List Ink) (rest : List Char) :
    (Ink.gap c).Stands (inkText (.word word.toList :: inks) ++ rest) := by
  obtain ⟨first, more, same, lead, _⟩ := isWord
  rw [inkText_cons, Ink.chars_word, same, List.cons_append, List.cons_append]
  exact gap_before c first _ gap (Or.inr (Or.inr lead))

def wordToken (word : String) : Token := ⟨.word, word⟩

/-- Words with a gap before each of them. -/
def wordInks (words : List String) : List Ink :=
  words.flatMap fun word => [.gap ' ', .word word.toList]

theorem wordInks_tokens (words : List String) : inkTokens (wordInks words) = words.map wordToken := by
  induction words with
  | nil => rfl
  | cons word words ih =>
      simp only [wordInks, List.flatMap_cons, inkTokens_append] at ih ⊢
      rw [ih]
      simp [Ink.tokens, wordToken]

theorem wordInks_text (words : List String) :
    inkText (wordInks words) = (String.join (words.map (" " ++ ·))).toList := by
  induction words with
  | nil => rfl
  | cons word words ih =>
      simp only [wordInks, List.flatMap_cons, inkText_append] at ih ⊢
      rw [ih]
      simp [Ink.chars]

theorem word_stands (word : String) (isWord : IsWord word)
    (free : Text.upper word ∉ operatorWords) (following : List Char)
    (next : ∀ c ∈ following.head?, c ∈ stoppers ∨ isGap c = true) :
    (Ink.word word.toList).Stands following := by
  obtain ⟨c, rest, same, lead, inner⟩ := isWord
  refine ⟨by simp [same], ?_, ⟨?_, by rwa [String.ofList_toList]⟩,
    fun d head => (next d head).imp_right Or.inr⟩
  · rw [same]
    exact List.forall_mem_cons.mpr ⟨lead_inner c lead, inner⟩
  · rw [same]
    rintro d ⟨rfl⟩
    exact lead

/-- Words stand before whatever a word stands before, and so does what is before them. -/
theorem wordInks_written (allowed : Char → Prop) (space : allowed ' ')
    (stops : ∀ c, allowed c → c ∈ stoppers ∨ isGap c = true) (words : List String)
    (valid : ∀ word ∈ words, IsWord word ∧ Text.upper word ∉ operatorWords) (following : List Char)
    (next : ∀ c ∈ following.head?, allowed c) :
    Written (wordInks words) following ∧
      ∀ c ∈ (inkText (wordInks words) ++ following).head?, allowed c := by
  induction words with
  | nil => exact ⟨trivial, next⟩
  | cons word words ih =>
      obtain ⟨head, others⟩ := List.forall_mem_cons.mp valid
      obtain ⟨written, later⟩ := ih others
      have step : wordInks (word :: words) = .gap ' ' :: .word word.toList :: wordInks words := rfl
      rw [step]
      constructor
      · refine ⟨gap_word ' ' rfl word head.1 _ _, word_stands word head.1 head.2 _ ?_, written⟩
        intro c first
        exact stops c (later c first)
      · rintro c ⟨rfl⟩
        exact space

namespace TypeShape

def argumentText : List TypeArgument → String
  | [] => ""
  | first :: rest => "(" ++ ",".intercalate ((first :: rest).map (·.text)) ++ ")"

def text (shape : TypeShape) : String :=
  shape.name ++ argumentText shape.arguments ++ String.join (shape.modifiers.map (" " ++ ·)) ++
    String.join (List.replicate shape.brackets "[]")

-- The words that end a type, that are operators, or that make another clause of a definition.
def barredWords : List String :=
  Keyword.columnConstraint ++ ["DIV", "LIKE", "ILIKE", "RLIKE", "REGEXP", "USING", "FOR"]

structure Valid (shape : TypeShape) : Prop where
  word : IsWord shape.name
  free : Text.upper shape.name ∉ barredWords
  arguments : ∀ argument ∈ shape.arguments, argument.Valid
  modifiers : ∀ modifier ∈ shape.modifiers, IsWord modifier ∧
    Text.upper modifier ∈ Keyword.typeModifiers

def argumentInks : List TypeArgument → List Ink
  | [] => []
  | first :: rest =>
      .mark '(' :: first.ink :: rest.flatMap (fun argument => [.mark ',', argument.ink]) ++ [.mark ')']

def bracketInks (count : Nat) : List Ink :=
  (List.replicate count [Ink.mark '[', .mark ']']).flatten

def inks (shape : TypeShape) : List Ink :=
  .word shape.name.toList :: (argumentInks shape.arguments ++
    (wordInks shape.modifiers ++ bracketInks shape.brackets))

def argumentTokens : List TypeArgument → List Token
  | [] => []
  | first :: rest =>
      Token.openMark :: (first.token :: rest.flatMap (fun argument => [Token.comma, argument.token]) ++
        [Token.closeMark])

def bracketTokens (count : Nat) : List Token :=
  (List.replicate count [Token.openBracket, Token.closeBracket]).flatten

def tokens (shape : TypeShape) : List Token :=
  wordToken shape.name :: (argumentTokens shape.arguments ++
    (shape.modifiers.map wordToken ++ bracketTokens shape.brackets))

theorem argument_ink_tokens (argument : TypeArgument) (valid : argument.Valid) :
    argument.ink.tokens = [argument.token] := by
  cases argument with
  | number digits => simp [TypeArgument.ink, TypeArgument.token, Ink.tokens]
  | literal content =>
      have same : String.ofList (quoted '\'' content.toList) = "'" ++ content ++ "'" := by
        rw [← String.toList_inj, String.toList_ofList, quoted,
          Identifier.double_plain '\'' content.toList valid.1]
        simp
      simp [TypeArgument.ink, TypeArgument.token, Ink.tokens, same]

theorem argument_ink_text (argument : TypeArgument) (valid : argument.Valid) :
    argument.ink.chars = argument.text.toList := by
  cases argument with
  | number digits => rfl
  | literal content =>
      simp [TypeArgument.ink, TypeArgument.text, Ink.chars, quoted,
        Identifier.double_plain '\'' content.toList valid.1]

theorem inks_tokens (shape : TypeShape) (valid : shape.Valid) :
    inkTokens shape.inks = shape.tokens := by
  have rest : ∀ arguments : List TypeArgument, (∀ argument ∈ arguments, argument.Valid) →
      inkTokens (arguments.flatMap fun argument => [.mark ',', argument.ink]) =
        arguments.flatMap fun argument => [Token.comma, argument.token] := by
    intro arguments each
    induction arguments with
    | nil => rfl
    | cons first arguments ih =>
        obtain ⟨head, others⟩ := List.forall_mem_cons.mp each
        simp only [List.flatMap_cons, inkTokens_append, ih others, inkTokens_cons, inkTokens_nil,
          argument_ink_tokens first head, List.append_nil]
        rfl
  have arguments : inkTokens (argumentInks shape.arguments) = argumentTokens shape.arguments := by
    cases same : shape.arguments with
    | nil => rfl
    | cons first others =>
        obtain ⟨head, tail⟩ := List.forall_mem_cons.mp (same ▸ valid.arguments)
        simp only [argumentInks, argumentTokens, inkTokens_append, inkTokens_cons, inkTokens_nil,
          argument_ink_tokens first head, rest others tail, List.cons_append]
        rfl
  have brackets : inkTokens (bracketInks shape.brackets) = bracketTokens shape.brackets := by
    induction shape.brackets with
    | zero => rfl
    | succ count ih =>
        simp only [bracketInks, bracketTokens, List.replicate_succ, List.flatten_cons,
          inkTokens_append] at ih ⊢
        rw [ih]
        rfl
  simp only [inks, tokens, inkTokens_cons, inkTokens_append, arguments, wordInks_tokens, brackets]
  simp [Ink.tokens, wordToken]

theorem inks_text (shape : TypeShape) (valid : shape.Valid) :
    inkText shape.inks = shape.text.toList := by
  have rest : ∀ arguments : List TypeArgument, (∀ argument ∈ arguments, argument.Valid) →
      inkText (arguments.flatMap fun argument => [.mark ',', argument.ink]) =
        (String.join (arguments.map fun argument => "," ++ argument.text)).toList := by
    intro arguments each
    induction arguments with
    | nil => rfl
    | cons first arguments ih =>
        obtain ⟨head, others⟩ := List.forall_mem_cons.mp each
        simp only [List.flatMap_cons, inkText_append, ih others, inkText_cons, inkText_nil,
          argument_ink_text first head, List.map_cons, String.join_cons, String.toList_append]
        simp [Ink.chars]
  have arguments : inkText (argumentInks shape.arguments) =
      (argumentText shape.arguments).toList := by
    cases same : shape.arguments with
    | nil => rfl
    | cons first others =>
        obtain ⟨head, tail⟩ := List.forall_mem_cons.mp (same ▸ valid.arguments)
        simp only [argumentInks, argumentText, inkText_append, inkText_cons, inkText_nil,
          argument_ink_text first head, rest others tail, List.map_cons, Text.intercalate_cons,
          String.toList_append, List.map_map, List.cons_append]
        simp [Ink.chars, Function.comp_def]
  have brackets : inkText (bracketInks shape.brackets) =
      (String.join (List.replicate shape.brackets "[]")).toList := by
    induction shape.brackets with
    | zero => rfl
    | succ count ih =>
        simp only [bracketInks, List.replicate_succ, List.flatten_cons, inkText_append] at ih ⊢
        rw [ih, String.join_cons, String.toList_append]
        rfl
  simp only [inks, text, inkText_cons, inkText_append, arguments, wordInks_text, brackets,
    String.toList_append, Ink.chars, List.append_assoc]

/-- What may follow a data type. -/
def Follows (following : List Char) : Prop :=
  ∀ c ∈ following.head?, c = ' ' ∨ c = ',' ∨ c = '\n'

theorem brackets_written (count : Nat) (following : List Char) :
    Written (bracketInks count) following := by
  induction count with
  | zero => trivial
  | succ count ih => exact ⟨Or.inr (Or.inl ⟨rfl, rfl⟩), Or.inl (by decide), ih⟩

theorem modifier_free (modifier : String) (known : Text.upper modifier ∈ Keyword.typeModifiers) :
    Text.upper modifier ∉ operatorWords := by
  have each : ∀ word ∈ Keyword.typeModifiers, word ∉ operatorWords := by decide
  exact each _ known

theorem brackets_head (count : Nat) (following : List Char) (follows : Follows following) :
    ∀ c ∈ (inkText (bracketInks count) ++ following).head?, c ∈ stoppers ∨ isGap c = true := by
  cases count with
  | zero =>
      intro c head
      rcases follows c head with rfl | rfl | rfl <;> decide
  | succ count =>
      rintro c ⟨rfl⟩
      decide

theorem argument_stands (argument : TypeArgument) (valid : argument.Valid) (following : List Char)
    (next : ∀ c ∈ following.head?, c = ',' ∨ c = ')') : argument.ink.Stands following := by
  cases argument with
  | number digits =>
      refine ⟨fun empty => valid.1 (String.toList_eq_nil_iff.mp empty), valid.2, fun c head => ?_⟩
      rcases next c head with rfl | rfl <;> decide
  | literal content =>
      constructor
      · exact calm_plain '\'' content.toList valid.2
      · intro head
        rcases next '\'' head with same | same <;> cases same

theorem arguments_written (rest : List TypeArgument) (following : List Char)
    (valid : ∀ argument ∈ rest, argument.Valid) :
    Written (rest.flatMap (fun argument => [.mark ',', argument.ink]) ++ [.mark ')']) following ∧
      ∀ c ∈ (inkText (rest.flatMap (fun argument => [.mark ',', argument.ink]) ++ [.mark ')']) ++
        following).head?, c = ',' ∨ c = ')' := by
  induction rest with
  | nil =>
      constructor
      · exact ⟨Or.inl (by decide), trivial⟩
      · rintro c ⟨rfl⟩
        exact Or.inr rfl
  | cons argument rest ih =>
      obtain ⟨head, others⟩ := List.forall_mem_cons.mp valid
      obtain ⟨written, next⟩ := ih others
      constructor
      · exact ⟨Or.inl (by decide), argument_stands argument head _ next, written⟩
      · rintro c ⟨rfl⟩
        exact Or.inl rfl

theorem barred_operators (word : String) (free : Text.upper word ∉ barredWords) :
    Text.upper word ∉ operatorWords := by
  have each : ∀ operator ∈ operatorWords, operator ∈ barredWords := by decide
  exact fun operator => free (each _ operator)

/-- A data type can be written in a definition. -/
theorem inks_written (shape : TypeShape) (valid : shape.Valid) (following : List Char)
    (follows : Follows following) : Written shape.inks following := by
  have brackets := brackets_written shape.brackets following
  obtain ⟨modifiers, next⟩ := wordInks_written (fun c => c ∈ stoppers ∨ isGap c = true) (Or.inr rfl)
    (fun c allowed => allowed) shape.modifiers
    (fun modifier member => ⟨(valid.modifiers modifier member).1,
      modifier_free modifier (valid.modifiers modifier member).2⟩)
    (inkText (bracketInks shape.brackets) ++ following)
    (brackets_head shape.brackets following follows)
  have word := word_stands shape.name valid.word (barred_operators shape.name valid.free)
  rw [inks, Written, written_append, written_append, inkText_append, inkText_append,
    List.append_assoc, List.append_assoc]
  cases same : shape.arguments with
  | nil => exact ⟨word _ next, trivial, modifiers, brackets⟩
  | cons first others =>
      obtain ⟨head, tail⟩ := List.forall_mem_cons.mp (same ▸ valid.arguments)
      obtain ⟨written, comma⟩ := arguments_written others (inkText (wordInks shape.modifiers) ++
        (inkText (bracketInks shape.brackets) ++ following)) tail
      refine ⟨word _ ?_, ⟨Or.inl (by decide), argument_stands first head _ comma, written⟩,
        modifiers, brackets⟩
      rintro c ⟨rfl⟩
      exact Or.inl (by decide)

-- Its own lemma, since only the first argument has no comma before it.
theorem arguments_flat (rest : List TypeArgument) :
    ∀ token ∈ rest.flatMap (fun argument => [Token.comma, argument.token]), token.isFlat = true := by
  intro token member
  obtain ⟨argument, _, found⟩ := List.mem_flatMap.mp member
  simp only [List.mem_cons, List.not_mem_nil, or_false] at found
  rcases found with rfl | rfl
  · rfl
  · cases argument <;> rfl

theorem inside_flat (first : TypeArgument) (rest : List TypeArgument) :
    ∀ token ∈ first.token :: rest.flatMap (fun argument => [Token.comma, argument.token]),
      token.isFlat = true := by
  refine List.forall_mem_cons.mpr ⟨?_, arguments_flat rest⟩
  cases first <;> rfl

/-- Behind its name a shape is parts of a type. -/
theorem shape_rest (shape : TypeShape) (valid : shape.Valid) :
    Token.TypeRest (argumentTokens shape.arguments ++
      (shape.modifiers.map wordToken ++ bracketTokens shape.brackets)) := by
  have brackets : ∀ count, Token.TypeRest (bracketTokens count) := by
    intro count
    induction count with
    | zero => exact .nil
    | succ count ih => exact .part .brackets ih
  have modifiers : ∀ words : List String, (∀ word ∈ words, Text.upper word ∈ Keyword.typeModifiers) →
      Token.TypeRest (words.map wordToken ++ bracketTokens shape.brackets) := by
    intro words known
    induction words with
    | nil => exact brackets shape.brackets
    | cons word words ih =>
        obtain ⟨head, others⟩ := List.forall_mem_cons.mp known
        have isModifier : (wordToken word).isModifier = true := by
          simpa [Token.isModifier, Token.isOneOf, wordToken, Token.upper] using head
        have more : Token.TypeRest ([wordToken word] ++
            (words.map wordToken ++ bracketTokens shape.brackets)) :=
          .part (.modifier isModifier) (ih others)
        exact more
  have rest := modifiers shape.modifiers fun word member => (valid.modifiers word member).2
  cases same : shape.arguments with
  | nil => exact rest
  | cons first others => exact .part (.group (Token.balanced_flat _ (inside_flat first others))) rest

/-- A word that no data type begins or goes on with. -/
def EndsType (token : Token) : Prop :=
  ∃ word, token = wordToken word ∧ Text.upper word ∈ ["PRIMARY", "NOT", "UNIQUE"]

theorem typeLength_ended (options : List Token) (ended : ∀ token ∈ options.head?, EndsType token) :
    Token.typeLength 0 options = 0 := by
  cases options with
  | nil => rfl
  | cons token options =>
      obtain ⟨word, rfl, known⟩ := ended token rfl
      have unmarked : ∀ value, (wordToken word).isPunct value = false := fun _ => rfl
      have other : ∀ words : List String, "PRIMARY" ∉ words → "NOT" ∉ words → "UNIQUE" ∉ words →
          (wordToken word).isOneOf words = false := by
        intro words primary not_ unique
        simp only [List.mem_cons, List.not_mem_nil, or_false] at known
        rcases known with same | same | same <;>
          simp [Token.isOneOf, wordToken, Token.upper, same, primary, not_, unique]
      simp [Token.typeLength, Token.isOpen, unmarked, Token.isModifier,
        other Keyword.typeModifiers (by decide) (by decide) (by decide),
        other ["WITH", "WITHOUT"] (by decide) (by decide) (by decide)]

/-- A shape is read as one data type. -/
theorem readType_tokens (shape : TypeShape) (valid : shape.Valid) :
    Token.readType shape.tokens = (shape.tokens, []) := by
  have free : (wordToken shape.name).isOneOf Keyword.columnConstraint = false := by
    have absent : Text.upper shape.name ∉ Keyword.columnConstraint := fun member =>
      valid.free (List.mem_append_left _ member)
    simpa [Token.isOneOf, wordToken, Token.upper] using absent
  have begins : (wordToken shape.name).beginsType = true := by
    rw [Token.beginsType, free]
    rfl
  exact (Token.type_parts_iff _ _).mpr ⟨begins, shape_rest shape valid⟩

/-- A token that a word behind it is set apart from. -/
def Parts (token : Token) : Prop :=
  token.isSolid = true ∨ token.isPunct ")" = true

theorem render_mark (before : Token) (value : String) (rest : List Token) :
    Token.renderAfter before (⟨.punct, value⟩ :: rest) =
      value ++ Token.renderAfter ⟨.punct, value⟩ rest := by
  simp [Token.renderAfter, Token.needsSpace, Token.isSolid]

theorem render_argument (before : Token) (argument : TypeArgument) (rest : List Token)
    (soft : before.isSolid = false) (unclosed : before.isPunct ")" = false) :
    Token.renderAfter before (argument.token :: rest) =
      argument.text ++ Token.renderAfter argument.token rest := by
  have value : argument.token.value = argument.text := by cases argument <;> rfl
  simp [Token.renderAfter, Token.needsSpace, soft, unclosed, value]

theorem render_brackets (before : Token) (count : Nat) :
    Token.renderAfter before (bracketTokens count) =
      String.join (List.replicate count "[]") := by
  induction count generalizing before with
  | zero => rfl
  | succ count ih =>
      have step : bracketTokens (count + 1) = Token.openBracket :: Token.closeBracket :: bracketTokens count := rfl
      rw [step, List.replicate_succ, String.join_cons, Token.openBracket, Token.closeBracket, render_mark,
        render_mark, ih, ← String.append_assoc]
      rfl

theorem render_modifiers (before : Token) (modifiers : List String) (count : Nat)
    (parts : Parts before) :
    Token.renderAfter before (modifiers.map wordToken ++ bracketTokens count) =
      String.join (modifiers.map (" " ++ ·)) ++ String.join (List.replicate count "[]") := by
  induction modifiers generalizing before with
  | nil => simpa using render_brackets before count
  | cons modifier modifiers ih =>
      have spaced : Token.needsSpace before (wordToken modifier) = true := by
        rcases parts with solid | closed
        · simp [Token.needsSpace, Token.isSolid, wordToken] at solid ⊢
          exact Or.inl solid
        · simp [Token.needsSpace, Token.isSolid, wordToken, closed]
      have later := ih (wordToken modifier) (Or.inl rfl)
      rw [List.map_cons, List.cons_append, Token.renderAfter, spaced, later, List.map_cons,
        String.join_cons, if_pos rfl, String.append_assoc, String.append_assoc, String.append_assoc]
      rfl

theorem render_rest (before : Token) (rest : List TypeArgument) (more : List Token) :
    Token.renderAfter before (rest.flatMap (fun argument => [Token.comma, argument.token]) ++
      Token.closeMark :: more) =
        String.join (rest.map fun argument => "," ++ argument.text) ++
          (")" ++ Token.renderAfter Token.closeMark more) := by
  induction rest generalizing before with
  | nil =>
      rw [List.flatMap_nil, List.nil_append, List.map_nil, String.join_nil, String.empty_append]
      exact render_mark before ")" more
  | cons argument rest ih =>
      have step : (argument :: rest).flatMap (fun argument => [Token.comma, argument.token]) ++
          Token.closeMark :: more = Token.comma :: argument.token ::
            (rest.flatMap (fun argument => [Token.comma, argument.token]) ++
              Token.closeMark :: more) := rfl
      rw [step, Token.comma, render_mark, render_argument _ argument _ rfl rfl, ← Token.comma, ih,
        List.map_cons, String.join_cons, String.append_assoc, String.append_assoc]

theorem render_tokens (shape : TypeShape) : Token.render shape.tokens = shape.text := by
  rw [tokens, Token.render, text]
  cases same : shape.arguments with
  | nil =>
      have modifiers := render_modifiers (wordToken shape.name) shape.modifiers shape.brackets
        (Or.inl rfl)
      rw [argumentTokens, List.nil_append, modifiers, argumentText, String.append_assoc,
        String.append_empty]
      rfl
  | cons first others =>
      have modifiers := render_modifiers Token.closeMark shape.modifiers shape.brackets (Or.inr rfl)
      rw [argumentTokens, List.cons_append, List.append_assoc, List.cons_append, List.singleton_append,
        Token.openMark, render_mark, render_argument _ first _ rfl rfl, render_rest, modifiers,
        argumentText, List.map_cons, Text.intercalate_cons, List.map_map]
      simp only [Function.comp_def, String.append_assoc]
      rfl

end TypeShape

/-- A data type as reading it spells it. -/
def CanonicalType (dataType : String) : Prop :=
  dataType = "" ∨ ∃ shape : TypeShape, shape.Valid ∧ shape.text = dataType

end TableScript
