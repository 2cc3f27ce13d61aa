import TableScript.Proofs.Lexing.RunTokens

/-!
Text that is put together from pieces: words and gaps, quoted texts, numbers and marks. Where each
piece stands before something it cannot run into, the tokens of the text are those of its pieces.
-/

namespace TableScript.Lexeme

/-- A piece of text. -/
inductive Ink where
  | gap (c : Char)
  | word (chars : List Char)
  | symbol (content : List Char)
  | literal (content : List Char)
  | number (digits : List Char)
  | mark (c : Char)

namespace Ink

def chars : Ink → List Char
  | .gap c => [c]
  | .word chars => chars
  | .symbol content => quoted '"' content
  | .literal content => quoted '\'' content
  | .number digits => digits
  | .mark c => [c]

def tokens : Ink → List Token
  | .gap _ => []
  | .word chars => [⟨.word, String.ofList chars⟩]
  | .symbol content => [⟨.quoted, String.ofList (quoted '"' content)⟩]
  | .literal content => [⟨.string, String.ofList (quoted '\'' content)⟩]
  | .number digits => [⟨.number, String.ofList digits⟩]
  | .mark c => [⟨.punct, String.ofList [c]⟩]

@[simp] theorem chars_gap (c : Char) : (gap c).chars = [c] := rfl

@[simp] theorem chars_word (word : List Char) : (Ink.word word).chars = word := rfl

@[simp] theorem chars_mark (c : Char) : (mark c).chars = [c] := rfl

@[simp] theorem tokens_gap (c : Char) : (gap c).tokens = [] := rfl

@[simp] theorem tokens_word (word : List Char) :
    (Ink.word word).tokens = [⟨.word, String.ofList word⟩] := rfl

@[simp] theorem tokens_mark (c : Char) : (mark c).tokens = [⟨.punct, String.ofList [c]⟩] := rfl

/-- A piece is well formed and cannot run into the text that follows it. -/
def Stands (following : List Char) : Ink → Prop
  | .gap c => isGap c = true ∧
      ∀ d ∈ following.head?, d ∈ stoppers ∨ isGap d = true ∨ Identifier.isLead d = true
  | .word chars => chars ≠ [] ∧ (∀ c ∈ chars, Identifier.isInner c = true) ∧ Tame chars ∧
      ∀ d ∈ following.head?, d ∈ stoppers ∨ d = '.' ∨ isGap d = true
  | .symbol content => isCalm '"' content = true ∧ following.head? ≠ some '"'
  | .literal content => isCalm '\'' content = true ∧ following.head? ≠ some '\''
  | .number digits => digits ≠ [] ∧ (∀ c ∈ digits, c.isDigit = true) ∧
      ∀ d ∈ following.head?, d ∈ numberEnds
  | .mark c => c ∈ ['(', ')', ',', ']'] ∨ c = '[' ∧ following.head? = some ']' ∨
      c = '.' ∧ ∀ d ∈ following.head?, Text.isDecimalDigit d = false

def standsBefore (following : List Char) : Ink → Bool
  | .gap c => isGap c &&
      following.head?.all fun d => stoppers.contains d || isGap d || Identifier.isLead d
  | .word chars => !chars.isEmpty && chars.all Identifier.isInner && decide (Tame chars) &&
      following.head?.all fun d => stoppers.contains d || d == '.' || isGap d
  | .symbol content => isCalm '"' content && following.head? != some '"'
  | .literal content => isCalm '\'' content && following.head? != some '\''
  | .number digits => !digits.isEmpty && digits.all Char.isDigit &&
      following.head?.all fun d => numberEnds.contains d
  | .mark c => ['(', ')', ',', ']'].contains c || c == '[' && following.head? == some ']' ||
      c == '.' && following.head?.all fun d => !Text.isDecimalDigit d

theorem standsBefore_iff (following : List Char) (ink : Ink) :
    ink.standsBefore following = true ↔ ink.Stands following := by
  cases ink <;> simp [standsBefore, Stands, Option.all_eq_true, and_assoc, or_assoc]

instance (following : List Char) (ink : Ink) : Decidable (ink.Stands following) :=
  decidable_of_iff _ (standsBefore_iff following ink)

/-- Only the first character of what follows matters. -/
theorem stands_head (ink : Ink) (first second : List Char) (same : first.head? = second.head?)
    (stands : ink.Stands first) : ink.Stands second := by
  cases ink <;> simpa only [Stands, same] using stands

end Ink

theorem mark_known (c : Char) (following : List Char) (stands : (Ink.mark c).Stands following) :
    c ∈ ['(', ')', ',', ']', '[', '.'] := by
  rcases stands with mark | ⟨rfl, _⟩ | ⟨rfl, _⟩
  · exact List.mem_append_left ['[', '.'] mark
  · decide
  · decide

theorem gap_before (c next : Char) (rest : List Char) (gap : isGap c = true)
    (allowed : next ∈ stoppers ∨ isGap next = true ∨ Identifier.isLead next = true) :
    (Ink.gap c).Stands (next :: rest) := by
  constructor
  · exact gap
  · rintro d ⟨rfl⟩
    exact allowed

def inkText (inks : List Ink) : List Char :=
  inks.flatMap Ink.chars

def inkTokens (inks : List Ink) : List Token :=
  inks.flatMap Ink.tokens

/-- Every piece of a text stands before the rest of it and a tail. -/
def Written : List Ink → List Char → Prop
  | [], _ => True
  | ink :: inks, tail => ink.Stands (inkText inks ++ tail) ∧ Written inks tail

instance : (inks : List Ink) → (tail : List Char) → Decidable (Written inks tail)
  | [], _ => isTrue trivial
  | ink :: inks, tail =>
      have := instDecidableWritten inks tail
      inferInstanceAs (Decidable (ink.Stands (inkText inks ++ tail) ∧ Written inks tail))

theorem written_head (inks : List Ink) (first second : List Char)
    (same : first.head? = second.head?) (written : Written inks first) : Written inks second := by
  induction inks with
  | nil => trivial
  | cons ink inks ih =>
      obtain ⟨stands, later⟩ := written
      refine ⟨Ink.stands_head ink _ _ ?_ stands, ih later⟩
      rw [List.head?_append, List.head?_append, same]

@[simp] theorem inkText_nil : inkText [] = [] := rfl

@[simp] theorem inkText_cons (ink : Ink) (inks : List Ink) :
    inkText (ink :: inks) = ink.chars ++ inkText inks := rfl

@[simp] theorem inkText_append (first second : List Ink) :
    inkText (first ++ second) = inkText first ++ inkText second := by
  simp [inkText]

@[simp] theorem inkTokens_nil : inkTokens [] = [] := rfl

@[simp] theorem inkTokens_cons (ink : Ink) (inks : List Ink) :
    inkTokens (ink :: inks) = ink.tokens ++ inkTokens inks := rfl

@[simp] theorem inkTokens_append (first second : List Ink) :
    inkTokens (first ++ second) = inkTokens first ++ inkTokens second := by
  simp [inkTokens]

theorem written_append (first second : List Ink) (tail : List Char) :
    Written (first ++ second) tail ↔
      Written first (inkText second ++ tail) ∧ Written second tail := by
  induction first with
  | nil => simp [Written]
  | cons ink first ih =>
      simp only [List.cons_append, Written, inkText_append, List.append_assoc, ih, and_assoc]

theorem reads_mark (c : Char) (following : List Char)
    (stands : (Ink.mark c).Stands following) :
    Reads [c] following [⟨.punct, String.ofList [c]⟩] := by
  intro before
  rcases stands with mark | ⟨rfl, closing⟩ | ⟨rfl, whole⟩
  · have known : c ∈ ['(', ')', ',', ';', ']'] := by
      simp only [List.mem_cons, List.not_mem_nil, or_false] at mark ⊢
      tauto
    have plain : Script.isSeparator ⟨.punctuation, [c]⟩ = false := by
      simp only [List.mem_cons, List.not_mem_nil, or_false] at mark
      rcases mark with rfl | rfl | rfl | rfl <;> rfl
    exact readsAfter_one before [c] following .punctuation (by simp) (scan_mark before c _ known) plain
  · cases following with
    | nil => cases closing
    | cons d following =>
        cases closing
        exact readsAfter_one before ['['] _ .punctuation (by simp)
          (scan_bracket before _ (bracketed_empty before following)) rfl
  · exact readsAfter_one before ['.'] _ .punctuation (by simp) (scan_point before _ whole) rfl

theorem soft_word (word : List Char) (occupied : word ≠ [])
    (inner : ∀ c ∈ word, Identifier.isInner c = true) (tame : Tame word) :
    Soft word ∧ wordTokens word = [⟨.word, String.ofList word⟩] := by
  have runs := Text.word_runs_solid word (fun c member => (plain_inner c (inner c member)).solid) occupied
  refine ⟨⟨fun c member => Or.inl (inner c member), ?_⟩, ?_⟩
  · rw [runs]
    simpa using tame
  · rw [wordTokens, runs]
    rfl

theorem soft_gap (c : Char) (gap : isGap c = true) : Soft [c] ∧ wordTokens [c] = [] := by
  have runs : Text.wordRuns [c] = [] := Text.word_runs_blank c [] (gap_blank c gap)
  refine ⟨⟨fun d member => ?_, ?_⟩, ?_⟩
  · rw [List.mem_singleton.mp member]
    exact Or.inr gap
  · rw [runs]
    simp
  · rw [wordTokens, runs]
    rfl

theorem wordTokens_append (first second : List Char) (apart : Text.Apart first second) :
    wordTokens (first ++ second) = wordTokens first ++ wordTokens second := by
  rw [wordTokens, Text.word_runs_append first second apart, List.map_append]
  rfl

/-- A run that does not go on as a word in the text behind it. -/
def Stops (run following : List Char) : Prop :=
  ∀ d ∈ following.head?, d ∈ stoppers ∨ d = '.' ∨ isGap d = true ∨
    Identifier.isLead d = true ∧ ∀ c ∈ run.getLast?, isGap c = true

theorem lead_hard (c : Char) (lead : Identifier.isLead c = true) : c ∉ stoppers ∧ isGap c = false := by
  have unmarked := (plain_inner c (lead_inner c lead)).unmarked
  have each : ∀ d ∈ stoppers, Identifier.isLead d = false := Text.each_char _ _ (by decide)
  constructor
  · intro stopper
    exact absurd ((each c stopper).symm.trans lead) Bool.false_ne_true
  · simp only [List.mem_cons, List.not_mem_nil, or_false, not_or] at unmarked
    simp [isGap, unmarked]

/-- The inks that are no part of a run of words. -/
def Ink.isHard : Ink → Bool
  | .gap _ | .word _ => false
  | .symbol _ | .literal _ | .number _ | .mark _ => true

theorem reads_symbol (content following : List Char) (contained : Contained '"' content following)
    (closed : following.head? ≠ some '"') :
    Reads (quoted '"' content) following [⟨.quoted, String.ofList (quoted '"' content)⟩] := by
  intro before
  have scan := scan_symbol before content following contained closed
  rw [← quoted_last '"' content] at scan
  exact readsAfter_one before _ following .symbol (by simp [quoted]) scan rfl

theorem reads_literal (content following : List Char) (contained : Contained '\'' content following)
    (closed : following.head? ≠ some '\'') :
    Reads (quoted '\'' content) following [⟨.string, String.ofList (quoted '\'' content)⟩] := by
  intro before
  have scan := scan_literal before content following contained closed
  rw [← quoted_last '\'' content] at scan
  exact readsAfter_one before _ following .literal (by simp [quoted]) scan rfl

theorem reads_hard (ink : Ink) (following : List Char) (hard : ink.isHard = true)
    (stands : ink.Stands following) : Reads ink.chars following ink.tokens := by
  intro before
  cases ink with
  | gap c => cases hard
  | word chars => cases hard
  | symbol content =>
      exact reads_symbol content following (calm_contained _ _ _ stands.1) stands.2 before
  | literal content =>
      exact reads_literal content following (calm_contained _ _ _ stands.1) stands.2 before
  | number digits =>
      obtain ⟨occupied, all, closed⟩ := stands
      obtain ⟨first, others, rfl⟩ := List.exists_cons_of_ne_nil occupied
      have numeral : IsNumeral (first :: others) := ⟨[], first, others, rfl, Or.inl rfl, all⟩
      exact readsAfter_one before _ following .number occupied
        (scan_number before _ following numeral closed) rfl
  | mark c => exact reads_mark c following stands before

theorem digit_hard (c : Char) (digit : c.isDigit = true) :
    isGap c = false ∧ Identifier.isLead c = false := by
  have facts := refuses_digit c digit
  constructor
  · cases gap : isGap c with
    | false => rfl
    | true =>
        simp only [isGap, Bool.or_eq_true, beq_iff_eq] at gap
        rcases gap with rfl | rfl <;> cases digit
  · have name := facts.name
    simp only [isNameLead, Bool.or_eq_false_iff] at name
    simp [Identifier.isLead, name]

/-- A hard piece begins with a character that is neither a gap nor the start of a word. -/
theorem hard_head (ink : Ink) (following : List Char) (hard : ink.isHard = true)
    (stands : ink.Stands following) :
    ∃ c rest, ink.chars = c :: rest ∧ isGap c = false ∧ Identifier.isLead c = false := by
  cases ink with
  | gap c => cases hard
  | word chars => cases hard
  | symbol content => exact ⟨'"', _, rfl, rfl, rfl⟩
  | literal content => exact ⟨'\'', _, rfl, rfl, rfl⟩
  | number digits =>
      obtain ⟨occupied, all, _⟩ := stands
      obtain ⟨c, rest, rfl⟩ := List.exists_cons_of_ne_nil occupied
      exact ⟨c, rest, rfl, digit_hard c (all c (by simp))⟩
  | mark c =>
      have each : ∀ c ∈ ['(', ')', ',', ']', '[', '.'],
          isGap c = false ∧ Identifier.isLead c = false := Text.each_char _ _ (by decide)
      exact ⟨c, [], rfl, each c (mark_known c following stands)⟩

/-- A run ends before a hard piece. -/
theorem hard_ends (ink : Ink) (run following : List Char) (hard : ink.isHard = true)
    (stands : ink.Stands following) (stops : Stops run (ink.chars ++ following)) :
    Ends run (ink.chars ++ following) := by
  obtain ⟨c, rest, same, gapless, leadless⟩ := hard_head ink following hard stands
  have marked : ∀ d ∈ (ink.chars ++ following).head?, d ∈ stoppers ∨ d = '.' := by
    intro d head
    rw [same, List.cons_append] at head stops
    obtain rfl : c = d := Option.some.inj head
    rcases stops c rfl with stopper | point | gap | ⟨lead, _⟩
    · exact Or.inl stopper
    · exact Or.inr point
    · exact absurd (gapless.symm.trans gap) Bool.false_ne_true
    · exact absurd (leadless.symm.trans lead) Bool.false_ne_true
  refine ⟨fun d head => ?_, fun d head => (marked d head).imp_right Or.inl⟩
  rcases marked d head with stopper | rfl
  · exact List.mem_append_left _ (List.mem_append_left _ stopper)
  · decide

/-- A run can go on with a piece that is a part of such a run. -/
theorem soft_continues (run chars : List Char) (softChars : Soft chars) (soft : Soft run)
    (apart : Text.Apart run chars) :
    Soft (run ++ chars) ∧ wordTokens (run ++ chars) = wordTokens run ++ wordTokens chars :=
  ⟨soft_append run chars apart soft softChars, wordTokens_append run chars apart⟩

theorem word_apart (run word following : List Char) (occupied : word ≠ []) (tame : Tame word)
    (stops : run = [] ∨ Stops run (word ++ following)) : Text.Apart run word := by
  rcases stops with rfl | stops
  · exact Or.inl rfl
  · obtain ⟨c, rest, rfl⟩ := List.exists_cons_of_ne_nil occupied
    obtain ⟨stopperless, gapless⟩ := lead_hard c (tame.lead c rfl)
    rcases stops c rfl with stopper | rfl | gap | ⟨_, last⟩
    · exact absurd stopper stopperless
    · exact absurd (tame.lead '.' rfl) (by decide)
    · exact absurd (gapless.symm.trans gap) Bool.false_ne_true
    · exact Or.inr (Or.inr (Or.inl fun d final => gap_blank d (last d final)))

theorem reads_inks_behind (inks : List Ink) (run tail : List Char) (soft : Soft run)
    (stops : run = [] ∨ Stops run (inkText inks ++ tail)) (written : Written inks tail)
    (closed : Closed tail) :
    Reads (run ++ inkText inks) tail (wordTokens run ++ inkTokens inks) := by
  induction inks generalizing run with
  | nil =>
      rw [inkText_nil, inkTokens_nil, List.append_nil, List.append_nil]
      exact reads_soft run tail soft (Or.inr (closed_ends run tail closed))
  | cons ink inks ih =>
      obtain ⟨stands, written⟩ := written
      rw [inkText_cons, inkTokens_cons]
      rw [inkText_cons, List.append_assoc] at stops
      by_cases hard : ink.isHard = true
      · have rest := ih [] ⟨by simp, by simp⟩ (Or.inl rfl) written
        have piece := reads_hard ink _ hard stands
        refine reads_append run _ tail _ _ ?_ (reads_append ink.chars _ tail _ _ piece rest)
        rw [List.append_assoc]
        rcases stops with rfl | stops
        · exact reads_nil _
        · exact reads_soft run _ soft (Or.inr (hard_ends ink run _ hard stands stops))
      · rw [← List.append_assoc, ← List.append_assoc]
        cases ink with
        | gap c =>
            obtain ⟨gap, next⟩ := stands
            have apart : Text.Apart run [c] :=
              Or.inr (Or.inr (Or.inr (by simpa using gap_blank c gap)))
            obtain ⟨soft_gap, no_tokens⟩ := soft_gap c gap
            obtain ⟨soft, tokens⟩ := soft_continues run [c] soft_gap soft apart
            have rest := ih (run ++ [c]) soft (Or.inr fun d head => ?_) written
            · rw [tokens, no_tokens] at rest
              exact rest
            · rcases next d head with stopper | gap' | lead
              · exact Or.inl stopper
              · exact Or.inr (Or.inr (Or.inl gap'))
              · exact Or.inr (Or.inr (Or.inr ⟨lead, by simpa using gap⟩))
        | word chars =>
            obtain ⟨occupied, inner, tame, next⟩ := stands
            obtain ⟨soft_chars, one_token⟩ := soft_word chars occupied inner tame
            have apart := word_apart run chars _ occupied tame stops
            obtain ⟨soft, tokens⟩ := soft_continues run chars soft_chars soft apart
            have rest := ih (run ++ chars) soft (Or.inr fun d head => ?_) written
            · rw [tokens, one_token] at rest
              exact rest
            · exact (next d head).imp_right (Or.imp_right Or.inl)
        | symbol content => exact absurd rfl hard
        | literal content => exact absurd rfl hard
        | number digits => exact absurd rfl hard
        | mark c => exact absurd rfl hard

/-- The tokens of a text are those of its pieces. -/
theorem reads_inks (inks : List Ink) (tail : List Char) (written : Written inks tail)
    (closed : Closed tail) : Reads (inkText inks) tail (inkTokens inks) :=
  reads_inks_behind inks [] tail ⟨by simp, by simp⟩ (Or.inl rfl) written closed

end TableScript.Lexeme
