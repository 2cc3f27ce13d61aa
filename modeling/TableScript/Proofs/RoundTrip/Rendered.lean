import TableScript.Proofs.RoundTrip.Spelling

/-!
Rendered tokens that are read again. Rendering puts a space between some tokens and none between
others, and forgets what stood between them before. So tokens may run into one another in the
rendered text: an operator `-` and a number become a negative number, a point and a number become
a fraction. Where no token is an operator and no two neighbours run into one another, reading the
rendered text gives the tokens back, and normalizing a data type a second time changes nothing.
-/

namespace TableScript

open Lexeme

namespace Lexeme

open Pattern

-- Behind these a bracket is no quote of a name.
def bindsBracket (c : Char) : Bool :=
  Text.isWordChar c || c == ']' || c == ')'

theorem bracketed_behind (c : Char) (tail : List Char) (behind : bindsBracket c = true) :
    bracketed.stop? ⟨some c, '[' :: tail⟩ = none := by
  have accepted : (Text.isWordChar c || c == ']' || c == ')') = true := behind
  simp only [bracketed, notBehind, stop?, Pattern.sequence, run, Option.any_some, accepted]
  rfl

/-- A name in brackets. -/
def bracketName (content : List Char) : List Char :=
  '[' :: (content ++ [']'])

theorem scan_bracketName (before : Option Char) (content tail : List Char) (occupied : content ≠ [])
    (plain : ∀ c ∈ content, c ∉ [']', '[']) (closed : ∀ c ∈ before, bindsBracket c = false) :
    scanAfter before (bracketName content ++ tail) =
      ⟨.name, bracketName content⟩ :: scanAfter (some ']') tail := by
  have last : (bracketName content).getLast? = some ']' := by
    rw [bracketName, ← List.cons_append, List.getLast?_concat]
  have text : bracketName content ++ tail = '[' :: (content ++ ']' :: tail) := by simp [bracketName]
  have free : (!before.any fun c => Text.isWordChar c || c == ']' || c == ')') = true := by
    cases before with
    | none => rfl
    | some c => exact (congrArg (!·) (closed c rfl)).trans rfl
  have found : bracketed.stop? ⟨before, '[' :: (content ++ ']' :: tail)⟩ = some ⟨some ']', tail⟩ := by
    obtain ⟨first, others, rfl⟩ := List.exists_cons_of_ne_nil occupied
    obtain ⟨head, inner⟩ := List.forall_mem_cons.mp plain
    have taken : ∀ c, c ∉ [']', '['] → (!"][".toList.contains c) = true := by
      intro c other
      simpa using other
    have behind := greedy_all (fun c => !"][".toList.contains c) (run (char ']') some) others
      (']' :: tail) (some first) ⟨some ']', tail⟩ (others ++ ']' :: tail) (by simp)
      (fun c member => taken c (inner c member)) (by rintro c ⟨rfl⟩; rfl) (by simp [run, char])
    simp only [char, run] at behind
    simp only [bracketed, notBehind, stop?, Pattern.sequence, run, free, if_true, char,
      atLeastOnce, noneOf, beq_self_eq_true, List.cons_append, taken first head]
    exact behind
  rw [← last]
  apply scan_cut before _ tail .name (by simp [bracketName])
  rw [text, measure_first before '[' _ (by decide) (by decide)
    (spaceRules ++ markRules ++ nameRules ++ numberRules ++ quotedRules.take 3) ⟨.name, bracketed⟩ _
    rfl (all_skipped _ before '[' _ (by decide +kernel)) _ found, ← text]
  simp

end Lexeme

namespace Token

def marks : List Char :=
  ['(', ')', ',', '[', ']', '.']

/-- A token that is read again wherever it does not run into its neighbours. -/
inductive Steady : Token → Prop
  | word (chars : List Char) (occupied : chars ≠ []) (inner : ∀ c ∈ chars, Identifier.isInner c = true)
      (tame : Tame chars) : Steady ⟨.word, String.ofList chars⟩
  | name (content : List Char) (calm : isCalm '"' content = true) :
      Steady ⟨.quoted, String.ofList (quoted '"' content)⟩
  | bracket (content : List Char) (occupied : content ≠ []) (plain : ∀ c ∈ content, c ∉ [']', '[']) :
      Steady ⟨.quoted, String.ofList (bracketName content)⟩
  | text (content : List Char) (calm : isCalm '\'' content = true) :
      Steady ⟨.string, String.ofList (quoted '\'' content)⟩
  | number (numeral : List Char) (isNumeral : IsNumeral numeral) :
      Steady ⟨.number, String.ofList numeral⟩
  | mark (c : Char) (known : c ∈ marks) :
      Steady ⟨.punct, String.ofList [c]⟩

/-- Behind such a token a bracket opens an index. -/
def isIndexed (token : Token) : Bool :=
  token.kind == .word || token.kind == .number || token.isPunct "]" || token.isPunct ")"

/-- A token between the ones before and behind it, as rendering puts them. -/
structure Fits (before : Token) (next : Option Token) (token : Token) : Prop where
  -- `.5` is a number, `GO 5` one lexeme, and `AT TIME ZONE 'x'` another.
  number : token.kind = .number → before.isPunct "." = false ∧ before.isOneOf ["GO", "ZONE"] = false
  text : token.kind = .string → before.isOneOf ["GO", "ZONE"] = false
  point : token.isPunct "." = true → before.kind ≠ .number
  -- A bracket before something else would quote a name.
  index : token.isPunct "[" = true → before.isIndexed = true ∨ next = some ⟨.punct, "]"⟩
  bracket : token.kind = .quoted → token.value.toList.head? = some '[' → before.isPunct "]" = false

instance (before : Token) (next : Option Token) (token : Token) : Decidable (Fits before next token) :=
  decidable_of_iff ((token.kind = .number →
      before.isPunct "." = false ∧ before.isOneOf ["GO", "ZONE"] = false) ∧
      (token.kind = .string → before.isOneOf ["GO", "ZONE"] = false) ∧
      (token.isPunct "." = true → before.kind ≠ .number) ∧
      (token.isPunct "[" = true → before.isIndexed = true ∨ next = some ⟨.punct, "]"⟩) ∧
      (token.kind = .quoted → token.value.toList.head? = some '[' → before.isPunct "]" = false))
    ⟨fun ⟨number, text, point, index, bracket⟩ => ⟨number, text, point, index, bracket⟩,
      fun fits => ⟨fits.number, fits.text, fits.point, fits.index, fits.bracket⟩⟩

/-- Tokens that do not run into one another when they are rendered behind a token. -/
def Settled : Token → List Token → Prop
  | _, [] => True
  | before, token :: rest => Steady token ∧ Fits before rest.head? token ∧ Settled token rest

theorem numeral_ends (numeral : List Char) (isNumeral : IsNumeral numeral) :
    ∃ c d, numeral.head? = some c ∧ (c.isDigit = true ∨ c = '-') ∧ numeral.getLast? = some d ∧
      d.isDigit = true := by
  obtain ⟨sign, first, others, rfl, signed, digits⟩ := isNumeral
  obtain ⟨d, last⟩ : ∃ d, (first :: others).getLast? = some d :=
    ⟨_, List.getLast?_eq_some_getLast (by simp)⟩
  have digit := digits d (List.mem_of_getLast? last)
  rcases signed with rfl | rfl
  · exact ⟨first, d, rfl, Or.inl (digits first (by simp)), last, digit⟩
  · exact ⟨'-', d, rfl, Or.inr rfl, by simpa using last, digit⟩

theorem steady_occupied (token : Token) (steady : Steady token) : token.value.toList ≠ [] := by
  cases steady with
  | word chars occupied inner tame => simpa using occupied
  | name content calm => simp [quoted]
  | bracket content occupied plain => simp [bracketName]
  | text content calm => simp [quoted]
  | number numeral isNumeral =>
      obtain ⟨sign, first, others, rfl, _⟩ := isNumeral
      simp
  | mark c known => simp

/-- A token that is not solid is a mark. -/
theorem steady_mark (token : Token) (steady : Steady token) (mark : token.isSolid = false) :
    ∃ c ∈ marks, token = ⟨.punct, String.ofList [c]⟩ := by
  cases steady with
  | mark c known => exact ⟨c, known, rfl⟩
  | word chars occupied inner tame => cases mark
  | name content calm => cases mark
  | bracket content occupied plain => cases mark
  | text content calm => cases mark
  | number numeral isNumeral => cases mark

theorem inner_binds (c : Char) (inner : Identifier.isInner c = true) : bindsBracket c = true := by
  simp [bindsBracket, (plain_inner c inner).wordChar]

theorem digit_inner (c : Char) (digit : c.isDigit = true) : Identifier.isInner c = true := by
  simp [Identifier.isInner, Char.isAlphanum, digit]

theorem steady_last (token : Token) (steady : Steady token) (c : Char)
    (last : token.value.toList.getLast? = some c) :
    (token.isIndexed = true → bindsBracket c = true) ∧
    (token.isSolid = false → token.isPunct "]" = false → token.isPunct ")" = false →
      bindsBracket c = false) := by
  cases steady with
  | word chars occupied inner tame =>
      rw [String.toList_ofList] at last
      exact ⟨fun _ => inner_binds c (inner c (List.mem_of_getLast? last)), nofun⟩
  | name content calm => exact ⟨nofun, nofun⟩
  | bracket content occupied plain => exact ⟨nofun, nofun⟩
  | text content calm => exact ⟨nofun, nofun⟩
  | number numeral isNumeral =>
      obtain ⟨_, d, _, _, ending, digit⟩ := numeral_ends numeral isNumeral
      rw [String.toList_ofList, ending] at last
      obtain rfl := Option.some.inj last
      exact ⟨fun _ => inner_binds d (digit_inner d digit), nofun⟩
  | mark d known =>
      have each : ∀ d ∈ marks, (isIndexed ⟨.punct, String.ofList [d]⟩ = true → bindsBracket d = true) ∧
          (isPunct ⟨.punct, String.ofList [d]⟩ "]" = false →
            isPunct ⟨.punct, String.ofList [d]⟩ ")" = false → bindsBracket d = false) :=
        Text.each_char _ _ (by decide +kernel)
      rw [String.toList_ofList] at last
      obtain rfl : d = c := by simpa using last
      exact ⟨(each d known).1, fun _ => (each d known).2⟩

/-- No blank begins or ends a steady token. -/
theorem steady_edges (token : Token) (steady : Steady token) :
    (∀ c ∈ token.value.toList.head?, Text.isBlank c = false) ∧ EndsSolid token.value.toList := by
  have closed (chars : List Char) (solid : ∀ c ∈ chars, Text.isBlank c = false) :
      (∀ c ∈ chars.head?, Text.isBlank c = false) ∧ EndsSolid chars :=
    ⟨fun c head => solid c (List.mem_of_head? head), endsSolid_all chars solid⟩
  have sign : Text.isBlank '-' = false := rfl
  cases steady with
  | word chars occupied inner tame =>
      rw [String.toList_ofList]
      exact closed chars fun c member => (plain_inner c (inner c member)).solid
  | name content calm =>
      rw [String.toList_ofList]
      exact ⟨by rintro c ⟨rfl⟩; rfl, quoted_endsSolid '"' content rfl⟩
  | bracket content occupied plain =>
      rw [String.toList_ofList]
      refine ⟨by rintro c ⟨rfl⟩; rfl, ?_⟩
      exact endsSolid_behind ('[' :: content) [']'] (by simp) (by rintro c ⟨rfl⟩; rfl)
  | text content calm =>
      rw [String.toList_ofList]
      exact ⟨by rintro c ⟨rfl⟩; rfl, quoted_endsSolid '\'' content rfl⟩
  | number numeral isNumeral =>
      obtain ⟨c, d, head, first, last, digit⟩ := numeral_ends numeral isNumeral
      have solid (c : Char) (digit : c.isDigit = true) : Text.isBlank c = false :=
        (plain_inner c (digit_inner c digit)).solid
      rw [String.toList_ofList, EndsSolid, head, last]
      refine ⟨?_, by rintro c ⟨rfl⟩; exact solid _ digit⟩
      rintro c ⟨rfl⟩
      exact first.elim (solid _) fun same => same ▸ sign
  | mark c known =>
      have each : ∀ c ∈ marks, Text.isBlank c = false := Text.each_char _ _ (by decide)
      rw [String.toList_ofList]
      exact closed [c] fun d member => List.mem_singleton.mp member ▸ each c known

theorem renderAfter_cons (before token : Token) (rest : List Token) :
    (renderAfter before (token :: rest)).toList =
      (if needsSpace before token then [' '] else []) ++ (token.value.toList ++
        (renderAfter token rest).toList) := by
  rw [renderAfter, String.toList_append, String.toList_append, List.append_assoc]
  split <;> rfl

theorem render_head (before : Token) (tokens : List Token) (settled : Settled before tokens) (c : Char)
    (head : c ∈ (renderAfter before tokens).toList.head?) :
    c = ' ' ∨ ∃ next, tokens.head? = some next ∧ Steady next ∧ Fits before (tokens.drop 1).head? next ∧
      needsSpace before next = false ∧ next.value.toList.head? = some c := by
  cases tokens with
  | nil => cases head
  | cons next rest =>
      obtain ⟨steady, fits, _⟩ := settled
      rw [renderAfter_cons] at head
      split at head
      · exact Or.inl (Option.some.inj head).symm
      case isFalse spaceless =>
        refine Or.inr ⟨next, rfl, steady, fits, by simpa using spaceless, ?_⟩
        obtain ⟨d, more, same⟩ := List.exists_cons_of_ne_nil (steady_occupied next steady)
        rw [same] at head ⊢
        exact head

/-- Behind a solid token there is a space or a mark. -/
theorem render_behind_solid (token : Token) (rest : List Token) (settled : Settled token rest)
    (solid : token.isSolid = true) (c : Char) (head : c ∈ (renderAfter token rest).toList.head?) :
    c = ' ' ∨ c ∈ marks ∧ ∃ next, rest.head? = some next ∧ next = ⟨.punct, String.ofList [c]⟩ ∧
      Fits token (rest.drop 1).head? next := by
  rcases render_head token rest settled c head with space | ⟨next, first, steady, fits, spaceless, begins⟩
  · exact Or.inl space
  · have mark : next.isSolid = false := by simpa [needsSpace, solid] using spaceless
    obtain ⟨d, known, rfl⟩ := steady_mark next steady mark
    obtain rfl : d = c := by simpa using begins
    exact Or.inr ⟨known, _, first, rfl, fits⟩

theorem number_ended (token : Token) (rest : List Token) (settled : Settled token rest)
    (number : token.kind = .number) :
    ∀ c ∈ (renderAfter token rest).toList.head?, c ∈ numberEnds := by
  intro c head
  have solid : token.isSolid = true := by simp [isSolid, number]
  rcases render_behind_solid token rest settled solid c head with rfl | ⟨known, next, _, rfl, fits⟩
  · decide
  · have other : c ≠ '.' := by
      rintro rfl
      exact fits.point rfl number
    have each : ∀ c ∈ marks, c = '.' ∨ c ∈ numberEnds := Text.each_char _ _ (by decide)
    exact (each c known).resolve_left other

theorem quote_ended (token : Token) (rest : List Token) (settled : Settled token rest)
    (solid : token.isSolid = true) (quote : Char) (special : quote ∉ ' ' :: marks) :
    (renderAfter token rest).toList.head? ≠ some quote := by
  intro head
  rcases render_behind_solid token rest settled solid quote head with rfl | ⟨known, _⟩
  · exact special (by simp)
  · exact special (List.mem_cons_of_mem _ known)

theorem steady_digitless (token : Token) (steady : Steady token) (other : token.kind ≠ .number)
    (c : Char) (head : token.value.toList.head? = some c) : Text.isDecimalDigit c = false := by
  cases steady with
  | word chars occupied inner tame =>
      rw [String.toList_ofList] at head
      exact plain_digitless c (Or.inl (tame.lead c head))
  | name content calm =>
      rw [String.toList_ofList] at head
      obtain rfl : '"' = c := Option.some.inj head
      decide +kernel
  | bracket content occupied plain =>
      rw [String.toList_ofList] at head
      obtain rfl : '[' = c := Option.some.inj head
      decide +kernel
  | text content calm =>
      rw [String.toList_ofList] at head
      obtain rfl : '\'' = c := Option.some.inj head
      decide +kernel
  | number numeral isNumeral => exact absurd rfl other
  | mark d known =>
      have each : ∀ d ∈ marks, Text.isDecimalDigit d = false := Text.each_char _ _ (by decide +kernel)
      obtain rfl : d = c := by simpa using head
      exact each d known

theorem point_ended (token : Token) (rest : List Token) (settled : Settled token rest)
    (point : token.isPunct "." = true) :
    ∀ c ∈ (renderAfter token rest).toList.head?, Text.isDecimalDigit c = false := by
  intro c head
  rcases render_head token rest settled c head with rfl | ⟨next, _, steady, fits, _, begins⟩
  · decide +kernel
  · refine steady_digitless next steady (fun number => ?_) c begins
    exact Bool.false_ne_true ((fits.number number).1.symm.trans point)

theorem closing_head (token : Token) (rest : List Token)
    (closing : rest.head? = some ⟨.punct, "]"⟩) :
    (renderAfter token rest).toList.head? = some ']' := by
  cases rest with
  | nil => cases closing
  | cons next rest =>
      obtain rfl := Option.some.inj closing
      rw [renderAfter_cons, if_neg (by simp [needsSpace, isSolid])]
      rfl

/-- What stands before a steady token, so that it is read as it is. -/
structure Behind (before : Option Char) (token : Token) (next : Option Token) : Prop where
  index : token.isPunct "[" = true →
    (∃ c, before = some c ∧ bindsBracket c = true) ∨ next = some ⟨.punct, "]"⟩
  bracket : token.kind = .quoted → token.value.toList.head? = some '[' →
    ∀ c ∈ before, bindsBracket c = false

theorem reads_steady (token : Token) (rest : List Token) (steady : Steady token)
    (other : token.kind ≠ .word) (settled : Settled token rest) (before : Option Char)
    (behind : Behind before token rest.head?) :
    ReadsAfter before token.value.toList (renderAfter token rest).toList [token] := by
  cases steady with
  | word chars occupied inner tame => exact absurd rfl other
  | name content calm =>
      rw [String.toList_ofList]
      exact reads_symbol content _ (calm_contained _ _ _ calm)
        (quote_ended _ rest settled rfl '"' (by decide)) before
  | text content calm =>
      rw [String.toList_ofList]
      exact reads_literal content _ (calm_contained _ _ _ calm)
        (quote_ended _ rest settled rfl '\'' (by decide)) before
  | number numeral isNumeral =>
      have scan := scan_number before numeral _ isNumeral (number_ended _ rest settled rfl)
      obtain ⟨c, _, head, _⟩ := numeral_ends numeral isNumeral
      rw [String.toList_ofList]
      exact readsAfter_one before numeral _ .number (by rintro rfl; cases head) scan rfl
  | bracket content occupied plain =>
      have first : (bracketName content).head? = some '[' := rfl
      have closed := behind.bracket rfl (by rw [String.toList_ofList]; exact first)
      have scan := scan_bracketName before content
        (renderAfter ⟨.quoted, String.ofList (bracketName content)⟩ rest).toList occupied plain closed
      have last : (bracketName content).getLast? = some ']' := by
        rw [bracketName, ← List.cons_append, List.getLast?_concat]
      rw [← last] at scan
      rw [String.toList_ofList]
      have named : ofLexeme ⟨.name, bracketName content⟩ =
          [⟨.quoted, String.ofList (bracketName content)⟩] := by
        simp [ofLexeme, ofName, bracketName]
      rw [← named]
      exact readsAfter_one before (bracketName content) _ .name (by simp [bracketName]) scan rfl
  | mark c known =>
      rw [String.toList_ofList]
      have parts : ∀ c ∈ marks, c ∈ ['(', ')', ',', ']'] ∨ c = '[' ∨ c = '.' :=
        Text.each_char _ _ (by decide)
      rcases parts c known with plain | rfl | rfl
      · exact reads_mark c _ (Or.inl plain) before
      · have unbracketed : Lexeme.bracketed.stop?
            ⟨before, '[' :: (renderAfter ⟨.punct, String.ofList ['[']⟩ rest).toList⟩ = none := by
          rcases behind.index rfl with ⟨d, rfl, binds⟩ | closing
          · exact bracketed_behind d _ binds
          · have head := closing_head ⟨.punct, String.ofList ['[']⟩ rest closing
            obtain ⟨tail, same⟩ : ∃ tail,
                (renderAfter ⟨.punct, String.ofList ['[']⟩ rest).toList = ']' :: tail :=
              List.head?_eq_some_iff.mp head
            rw [same]
            exact bracketed_empty before tail
        exact readsAfter_one before ['['] _ .punctuation (by simp)
          (scan_bracket before _ unbracketed) rfl
      · exact readsAfter_one before ['.'] _ .punctuation (by simp)
          (scan_point before _ (point_ended _ rest settled rfl)) rfl

/-- A rendered text is read up to a token, apart from the run of words at the end. -/
structure Reached (before : Option Char) (run : List Char) (token : Token) : Prop where
  soft : Soft run
  word : run ≠ [] → token.kind = .word ∧ (wordTokens run).getLast? = some token
  indexed : token.isIndexed = true → ∃ c, run.getLast?.or before = some c ∧ bindsBracket c = true
  bare : token.isSolid = false → token.isPunct "]" = false → token.isPunct ")" = false →
    ∀ c ∈ run.getLast?.or before, bindsBracket c = false

/-- What rendering puts between two tokens. -/
def gapBetween (token next : Token) : List Char :=
  if needsSpace token next then [' '] else []

section Reached

variable {before : Option Char} {run : List Char} {token : Token} (reached : Reached before run token)

include reached

theorem gap_soft (next : Token) : Soft (run ++ gapBetween token next) ∧
    wordTokens (run ++ gapBetween token next) = wordTokens run := by
  unfold gapBetween
  split
  · obtain ⟨soft, none⟩ := soft_gap ' ' rfl
    obtain ⟨soft', tokens⟩ := soft_continues run [' '] soft reached.soft
      (Or.inr (Or.inr (Or.inr (by rintro c ⟨rfl⟩; rfl))))
    exact ⟨soft', tokens.trans (by rw [none, List.append_nil])⟩
  · rw [List.append_nil]
    exact ⟨reached.soft, rfl⟩

/-- A run of words does not end right before a solid token. -/
theorem gap_before_solid (next : Token) (solid : next.isSolid = true) :
    ∀ c ∈ (run ++ gapBetween token next).getLast?, isGap c = true := by
  unfold gapBetween
  by_cases space : needsSpace token next = true
  · rw [if_pos space]
    intro c last
    obtain rfl : ' ' = c := by simpa using last
    rfl
  · rw [if_neg space, List.append_nil]
    have empty : run = [] := by
      by_contra occupied
      have word : token.isSolid = true := by simp [isSolid, (reached.word occupied).1]
      exact space (by rw [needsSpace, solid, word]; rfl)
    simp [empty]

theorem gap_heldOff (next : Token) (solid : next.isSolid = true)
    (free : token.isOneOf ["GO", "ZONE"] = false) : HeldOff (run ++ gapBetween token next) := by
  refine ⟨gap_before_solid reached next solid, fun word last => ?_⟩
  have final : (wordTokens (run ++ gapBetween token next)).getLast? =
      some ⟨.word, String.ofList word⟩ := by
    rw [wordTokens, List.getLast?_map, last]
    rfl
  rw [(gap_soft reached next).2] at final
  have occupied : run ≠ [] := by
    rintro rfl
    cases final
  obtain ⟨_, same⟩ := reached.word occupied
  obtain rfl := Option.some.inj (final.symm.trans same)
  simpa [isOneOf, upper] using free

theorem gap_ends (next : Token) (rest : List Char) (steady : Steady next) (other : next.kind ≠ .word)
    (fits : next.kind = .number ∨ next.kind = .string → token.isOneOf ["GO", "ZONE"] = false) :
    Ends (run ++ gapBetween token next) (next.value.toList ++ rest) := by
  cases steady with
  | word chars occupied inner tame => exact absurd rfl other
  | name content calm =>
      exact closed_ends _ _ (by rw [String.toList_ofList]; rintro c ⟨rfl⟩; decide)
  | bracket content occupied plain =>
      exact closed_ends _ _ (by rw [String.toList_ofList]; rintro c ⟨rfl⟩; decide)
  | text content calm =>
      refine ⟨?_, fun c _ => Or.inr (Or.inr (gap_heldOff reached _ rfl (fits (Or.inr rfl))))⟩
      rw [String.toList_ofList]
      rintro c ⟨rfl⟩
      decide
  | number numeral isNumeral =>
      have held := gap_heldOff reached ⟨.number, String.ofList numeral⟩ rfl (fits (Or.inl rfl))
      refine ⟨fun c head => ?_, fun c _ => Or.inr (Or.inr held)⟩
      obtain ⟨d, _, first, digit, _⟩ := numeral_ends numeral isNumeral
      rw [String.toList_ofList, List.head?_append, first] at head
      obtain rfl : d = c := Option.some.inj head
      have each : ∀ d : Char, d.toNat < 128 → d.isDigit = true ∨ d = '-' → d ∈ closers :=
        Text.ascii_cases _ (by decide +kernel)
      refine each d ?_ digit
      rcases digit with digit | rfl
      · exact digit_ascii d digit
      · decide
  | mark d known =>
      have each : ∀ d ∈ marks, d ∈ closers ∧ (d ∈ stoppers ∨ d = '.') := Text.each_char _ _ (by decide)
      have first : ∀ c ∈ (([d] : List Char) ++ rest).head?, c ∈ marks := by
        rintro c ⟨rfl⟩
        exact known
      rw [String.toList_ofList]
      exact ⟨fun c head => (each c (first c head)).1,
        fun c head => (each c (first c head)).2.imp_right Or.inl⟩

/-- A word goes on with the run. -/
theorem reached_word (chars : List Char) (occupied : chars ≠ [])
    (inner : ∀ c ∈ chars, Identifier.isInner c = true) (tame : Tame chars) :
    let next : Token := ⟨.word, String.ofList chars⟩
    Reached before (run ++ gapBetween token next ++ chars) next ∧
      wordTokens (run ++ gapBetween token next ++ chars) = wordTokens run ++ [next] := by
  intro next
  obtain ⟨soft, same⟩ := gap_soft reached next
  obtain ⟨soft_chars, one⟩ := soft_word chars occupied inner tame
  have apart : Text.Apart (run ++ gapBetween token next) chars :=
    Or.inr (Or.inr (Or.inl fun c last => gap_blank c (gap_before_solid reached next rfl c last)))
  obtain ⟨soft', tokens⟩ := soft_continues _ chars soft_chars soft apart
  rw [same, one] at tokens
  have last : (run ++ gapBetween token next ++ chars).getLast? = chars.getLast? :=
    List.getLast?_append_of_ne_nil _ occupied
  refine ⟨⟨soft', fun _ => ⟨rfl, by rw [tokens, List.getLast?_concat]⟩, fun _ => ?_, nofun⟩, tokens⟩
  obtain ⟨c, ending⟩ : ∃ c, chars.getLast? = some c := ⟨_, List.getLast?_eq_some_getLast occupied⟩
  exact ⟨c, by rw [last, ending]; rfl, inner_binds c (inner c (List.mem_of_getLast? ending))⟩

theorem reached_behind (next : Token) (following : Option Token)
    (fits : Fits token following next) :
    Behind ((run ++ gapBetween token next).getLast?.or before) next following := by
  constructor
  · intro index
    refine (fits.index index).imp_left fun indexed => ?_
    have spaceless : gapBetween token next = [] := by
      have mark : next.isSolid = false := by
        simp only [isPunct, Bool.and_eq_true, beq_iff_eq] at index
        simp [isSolid, index.1]
      simp [gapBetween, needsSpace, mark]
    rw [spaceless, List.append_nil]
    exact reached.indexed indexed
  · intro quoted bracket c last
    have solid : next.isSolid = true := by simp [isSolid, quoted]
    unfold gapBetween at last
    by_cases space : needsSpace token next = true
    · rw [if_pos space, List.getLast?_concat] at last
      obtain rfl : ' ' = c := Option.some.inj last
      decide +kernel
    · rw [if_neg space, List.append_nil] at last
      simp only [needsSpace, solid, Bool.true_and, Bool.not_eq_true, Bool.or_eq_false_iff] at space
      exact reached.bare space.1 (fits.bracket quoted bracket) space.2 c last

end Reached

theorem reached_hard (before : Option Char) (token : Token) (steady : Steady token) :
    Reached (token.value.toList.getLast?.or before) [] token := by
  obtain ⟨c, last⟩ : ∃ c, token.value.toList.getLast? = some c :=
    ⟨_, List.getLast?_eq_some_getLast (steady_occupied token steady)⟩
  obtain ⟨indexed, bare⟩ := steady_last token steady c last
  rw [last]
  refine ⟨⟨by simp, by simp⟩, fun occupied => absurd rfl occupied,
    fun index => ⟨c, rfl, indexed index⟩, ?_⟩
  rintro mark index parenthesis d ⟨rfl⟩
  exact bare mark index parenthesis

/-- Rendered tokens that are settled are read again. -/
theorem reads_rendered (tokens : List Token) (token : Token) (before : Option Char) (run : List Char)
    (reached : Reached before run token) (settled : Settled token tokens) :
    ReadsAfter before (run ++ (renderAfter token tokens).toList) [] (wordTokens run ++ tokens) := by
  induction tokens generalizing token before run with
  | nil =>
      have closed : Ends run [] := closed_ends run [] (by simp [Closed])
      simpa [renderAfter] using reads_soft run [] reached.soft (Or.inr closed) before
  | cons next rest ih =>
      obtain ⟨steady, fits, later⟩ := settled
      rw [renderAfter_cons]
      change ReadsAfter before (run ++ (gapBetween token next ++ (next.value.toList ++ _))) [] _
      by_cases word : next.kind = .word
      · cases steady with
        | word chars occupied inner tame =>
            obtain ⟨reached', tokens⟩ := reached_word reached chars occupied inner tame
            have go := ih _ before _ reached' later
            rw [tokens] at go
            simpa using go
        | name content calm => cases word
        | bracket content occupied plain => cases word
        | text content calm => cases word
        | number numeral isNumeral => cases word
        | mark c known => cases word
      · obtain ⟨soft, same⟩ := gap_soft reached next
        have ends := gap_ends reached next (renderAfter next rest).toList steady word
          fun hard => hard.elim (fun number => (fits.number number).2) fits.text
        have first := reads_soft (run ++ gapBetween token next) _ soft (Or.inr ends) before
        have piece := reads_steady next rest steady word later _ (reached_behind reached next _ fits)
        have hard := reached_hard ((run ++ gapBetween token next).getLast?.or before) next steady
        have go := ih next _ [] hard later
        rw [same] at first
        have whole := readsAfter_append before (run ++ gapBetween token next)
          (next.value.toList ++ (renderAfter next rest).toList) [] (wordTokens run) (next :: rest)
          (by simpa using first)
          (readsAfter_append _ next.value.toList (renderAfter next rest).toList [] [next] rest
            (by simpa using piece) (by simpa [wordTokens] using go))
        simpa using whole

/-- Tokens that do not run into one another in a text of their own. -/
structure Apart (tokens : List Token) : Prop where
  -- Nothing runs into an opening parenthesis, and rendering puts no space behind it.
  settled : Settled ⟨.punct, "("⟩ tokens

theorem render_opened (tokens : List Token) : renderAfter ⟨.punct, "("⟩ tokens = render tokens := by
  cases tokens with
  | nil => rfl
  | cons token rest =>
      have spaceless : needsSpace ⟨.punct, "("⟩ token = false := by
        simp [needsSpace, isSolid, isPunct]
      rw [renderAfter, spaceless, render]
      simp

theorem reached_opened : Reached none [] ⟨.punct, "("⟩ where
  soft := ⟨by simp, by simp⟩
  word := fun occupied => absurd rfl occupied
  indexed := nofun
  bare := by simp

theorem tokenize_render (tokens : List Token) (apart : Apart tokens) :
    tokenize (render tokens) = tokens := by
  obtain ⟨lexemes, scan, _, same, _⟩ := reads_rendered tokens _ none [] reached_opened apart.settled
  rw [render_opened, List.nil_append, List.append_nil] at scan
  have scanned : Lexeme.scan (render tokens) = lexemes := scan.trans (List.append_nil lexemes)
  rw [tokenize, scanned, same]
  rfl

theorem settled_steady (before : Token) (tokens : List Token) (settled : Settled before tokens) :
    ∀ token ∈ tokens, Steady token := by
  induction tokens generalizing before with
  | nil => simp
  | cons token rest ih =>
      obtain ⟨steady, _, later⟩ := settled
      exact List.forall_mem_cons.mpr ⟨steady, ih token later⟩

theorem render_trimmed (tokens : List Token) (apart : Apart tokens) :
    Text.trim (render tokens) = render tokens := by
  cases tokens with
  | nil => rfl
  | cons token rest =>
      obtain ⟨steady, others⟩ := List.forall_mem_cons.mp (settled_steady _ _ apart.settled)
      obtain ⟨head, last⟩ := steady_edges token steady
      have ends := render_solid token rest token.value.toList
        (fun token member => ⟨steady_occupied token (others token member),
          (steady_edges token (others token member)).2⟩) last
      obtain ⟨c, chars, same⟩ := List.exists_cons_of_ne_nil (steady_occupied token steady)
      have starts : ∀ d ∈ (token.value.toList ++ (renderAfter token rest).toList).head?,
          Text.isBlank d = false := by
        rw [same] at head ⊢
        exact head
      rw [render, Text.trim, String.toList_append, Text.trimChars_self _ starts ends,
        ← String.toList_append, String.ofList_toList]

end Token

/-- Where the tokens of a data type stay apart, normalizing it keeps them, and normalizing it again
changes nothing. -/
theorem normalized_twice (dataType : String)
    (apart : Token.Apart (Token.tokenize (Text.trim dataType))) :
    Token.tokenize (normalizeType dataType) = Token.tokenize (Text.trim dataType) ∧
      normalizeType (normalizeType dataType) = normalizeType dataType := by
  have read : Token.tokenize (normalizeType dataType) = Token.tokenize (Text.trim dataType) := by
    rw [normalizeType, Token.tokenize_render _ apart]
  have trimmed : Text.trim (normalizeType dataType) = normalizeType dataType := by
    rw [normalizeType, Token.render_trimmed _ apart]
  refine ⟨read, ?_⟩
  rw [normalizeType, trimmed, read, normalizeType]

theorem scaled_normalized_twice :
    Token.Apart (Token.tokenize (Text.trim "public . numeric ( 10, -2 )")) ∧
      normalizeType (normalizeType "public . numeric ( 10, -2 )") = "public.numeric(10,-2)" := by
  have tokens : Token.tokenize (Text.trim "public . numeric ( 10, -2 )") =
      [⟨.word, "public"⟩, ⟨.punct, "."⟩, ⟨.word, "numeric"⟩, ⟨.punct, "("⟩, ⟨.number, "10"⟩,
        ⟨.punct, ","⟩, ⟨.number, "-2"⟩, ⟨.punct, ")"⟩] := by
    decide +kernel
  have apart : Token.Apart (Token.tokenize (Text.trim "public . numeric ( 10, -2 )")) := by
    rw [tokens]
    exact ⟨.word "public".toList (by decide) (Text.each_char _ _ (by decide)) (by decide), by decide +kernel,
      .mark '.' (by decide), by decide +kernel,
      .word "numeric".toList (by decide) (Text.each_char _ _ (by decide)) (by decide), by decide +kernel,
      .mark '(' (by decide), by decide +kernel,
      .number "10".toList ⟨[], '1', ['0'], rfl, Or.inl rfl, Text.each_char _ _ (by decide)⟩,
      by decide +kernel,
      .mark ',' (by decide), by decide +kernel,
      .number "-2".toList ⟨['-'], '2', [], rfl, Or.inr rfl, Text.each_char _ _ (by decide)⟩,
      by decide +kernel,
      .mark ')' (by decide), by decide +kernel, trivial⟩
  refine ⟨apart, (normalized_twice _ apart).2.trans ?_⟩
  rw [normalizeType, tokens]
  rfl

-- Between a number and a minus rendering puts no space, so the second reading takes a sign.
example : normalizeType "DECIMAL(10 - 2)" = "DECIMAL(10-2)" ∧
    normalizeType "DECIMAL(10-2)" = "DECIMAL(10 -2)" := by
  decide +kernel

end TableScript
