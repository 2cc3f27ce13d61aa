import TableScript.Proofs.Lexing.Margin
import TableScript.Proofs.Lexing.Uncommented
import Mathlib.Data.List.TakeWhile

/-!
How a script ends. Removing comments leaves something open at the end of a script: a quoted text,
a tag, a comment, or nothing. Behind nothing, or behind a line comment, what follows is stripped on
its own, if it begins with a character that ends whatever may go on, such as a semicolon.
-/

namespace TableScript.Comment

/-- What is open at the end of a text. -/
def modeAfter : Mode → List Char → Mode
  | mode, [] => mode
  | .line, c :: rest => if c = '\n' then modeAfter .plain rest else modeAfter .line rest
  | .block depth, [_] => .block depth
  | .block depth, c :: d :: rest =>
      if c = '/' ∧ d = '*' then modeAfter (.block (depth + 1)) rest
      else if c = '*' ∧ d = '/' then
        if depth = 0 then modeAfter .plain rest else modeAfter (.block (depth - 1)) rest
      else modeAfter (.block depth) (d :: rest)
  | .quoted quote, [c] => if c = quote then .plain else .quoted quote
  | .quoted quote, c :: d :: rest =>
      if (c = '\\' ∧ quote = '\'') ∨ (c = quote ∧ d = quote) then modeAfter (.quoted quote) rest
      else if c = quote then modeAfter .plain (d :: rest)
      else modeAfter (.quoted quote) (d :: rest)
  | .opening left tag, _ :: rest => modeAfter (afterOpening (left - 1) tag) rest
  | .closing left, _ :: rest => modeAfter (afterClosing (left - 1)) rest
  | .tagged tag, c :: rest =>
      if tag.isPrefixOf (c :: rest) then modeAfter (afterClosing (tag.length - 1)) rest
      else modeAfter (.tagged tag) rest
  | .plain, c :: rest =>
      if isQuote c then modeAfter (.quoted c) rest
      else
        match Text.dollarTag? isTagLead isTagInner (c :: rest) with
        | some tag => modeAfter (afterOpening (tag.length - 1) tag) rest
        | none =>
            match rest with
            | [] => .plain
            | d :: more =>
                if c = '-' ∧ d = '-' then modeAfter .line more
                else if c = '/' ∧ d = '*' then modeAfter (.block 0) more
                else modeAfter .plain (d :: more)

theorem after_line (c : Char) (rest : List Char) :
    modeAfter .line (c :: rest) = if c = '\n' then modeAfter .plain rest else modeAfter .line rest :=
  rfl

theorem after_block (depth : Nat) (c d : Char) (rest : List Char) :
    modeAfter (.block depth) (c :: d :: rest) =
      if c = '/' ∧ d = '*' then modeAfter (.block (depth + 1)) rest
      else if c = '*' ∧ d = '/' then
        if depth = 0 then modeAfter .plain rest else modeAfter (.block (depth - 1)) rest
      else modeAfter (.block depth) (d :: rest) :=
  rfl

theorem after_quoted (quote c d : Char) (rest : List Char) :
    modeAfter (.quoted quote) (c :: d :: rest) =
      if (c = '\\' ∧ quote = '\'') ∨ (c = quote ∧ d = quote) then modeAfter (.quoted quote) rest
      else if c = quote then modeAfter .plain (d :: rest)
      else modeAfter (.quoted quote) (d :: rest) :=
  rfl

theorem after_single (quote c : Char) :
    modeAfter (.quoted quote) [c] = if c = quote then .plain else .quoted quote :=
  rfl

theorem after_opening (left : Nat) (tag : List Char) (c : Char) (rest : List Char) :
    modeAfter (.opening left tag) (c :: rest) = modeAfter (afterOpening (left - 1) tag) rest :=
  rfl

theorem after_closing (left : Nat) (c : Char) (rest : List Char) :
    modeAfter (.closing left) (c :: rest) = modeAfter (afterClosing (left - 1)) rest :=
  rfl

theorem after_tagged (tag : List Char) (c : Char) (rest : List Char) :
    modeAfter (.tagged tag) (c :: rest) =
      if tag.isPrefixOf (c :: rest) then modeAfter (afterClosing (tag.length - 1)) rest
      else modeAfter (.tagged tag) rest :=
  rfl

theorem after_quote (c : Char) (rest : List Char) (quote : isQuote c = true) :
    modeAfter .plain (c :: rest) = modeAfter (.quoted c) rest := by
  cases rest <;> simp [modeAfter, quote]

theorem after_tag (c : Char) (rest tag : List Char) (unquoted : ¬ isQuote c = true)
    (opened : Text.dollarTag? isTagLead isTagInner (c :: rest) = some tag) :
    modeAfter .plain (c :: rest) = modeAfter (afterOpening (tag.length - 1) tag) rest := by
  cases rest <;> simp [modeAfter, unquoted, opened]

theorem after_last (c : Char) (unquoted : ¬ isQuote c = true)
    (untagged : Text.dollarTag? isTagLead isTagInner [c] = none) : modeAfter .plain [c] = .plain := by
  simp [modeAfter, unquoted, untagged]

theorem after_pair (c d : Char) (rest : List Char) (unquoted : ¬ isQuote c = true)
    (untagged : Text.dollarTag? isTagLead isTagInner (c :: d :: rest) = none) :
    modeAfter .plain (c :: d :: rest) =
      if c = '-' ∧ d = '-' then modeAfter .line rest
      else if c = '/' ∧ d = '*' then modeAfter (.block 0) rest
      else modeAfter .plain (d :: rest) := by
  simp [modeAfter, unquoted, untagged]

/-- What is open has been opened: by a quote, or by a dollar tag. -/
def Mode.Opened : Mode → Prop
  | .quoted quote => isQuote quote = true
  | .opening _ tag => ∀ c ∈ tag, isTagInner c = true ∨ c = '$'
  | .tagged tag => ∀ c ∈ tag, isTagInner c = true ∨ c = '$'
  | .plain | .closing _ | .line | .block _ => True

theorem opened_opening (left : Nat) (tag : List Char) (marks : ∀ c ∈ tag, isTagInner c = true ∨ c = '$') :
    (afterOpening left tag).Opened := by
  unfold afterOpening
  split <;> exact marks

theorem opened_closing (left : Nat) : (afterClosing left).Opened := by
  unfold afterClosing
  split <;> trivial

theorem tag_chars (chars tag : List Char)
    (found : Text.dollarTag? isTagLead isTagInner chars = some tag) :
    ∀ c ∈ tag, isTagInner c = true ∨ c = '$' := by
  unfold Text.dollarTag? at found
  split at found
  case h_1 rest =>
    dsimp only at found
    split at found
    · cases found
      intro c member
      have places : c = '$' ∨ c ∈ rest.takeWhile isTagInner ∨ c = '$' := by simpa using member
      rcases places with sign | name | sign
      · exact Or.inr sign
      · exact Or.inl (List.mem_takeWhile_imp name)
      · exact Or.inr sign
    · cases found
  · cases found

/-- A character that ends whatever may go on: it is no quote and no part of a tag, and no star that
may make a slash the start of a comment. -/
def isBarrier (c : Char) : Bool :=
  !isQuote c && !isTagInner c && c != '$' && c != '*'

/-- What the scan makes of a barrier. -/
structure Barrier (c : Char) : Prop where
  unquoted : isQuote c = false
  inner : isTagInner c = false
  sign : c ≠ '$'
  star : c ≠ '*'

theorem barrier_parts (c : Char) (barrier : isBarrier c = true) : Barrier c := by
  simp only [isBarrier, Bool.and_eq_true, Bool.not_eq_true', bne_iff_ne] at barrier
  obtain ⟨⟨⟨unquoted, inner⟩, sign⟩, star⟩ := barrier
  exact ⟨unquoted, inner, sign, star⟩

theorem prefix_barrier (tag chars rest : List Char) (barrier : Char) (foreign : barrier ∉ tag) :
    tag.isPrefixOf (chars ++ barrier :: rest) = tag.isPrefixOf chars := by
  by_cases fits : tag.length ≤ chars.length
  · exact Lexeme.prefix_extended tag chars _ fits
  · rw [Bool.eq_iff_iff, List.isPrefixOf_iff_prefix, List.isPrefixOf_iff_prefix]
    constructor
    · intro there
      have marked : chars ++ [barrier] <+: tag :=
        List.prefix_of_prefix_length_le (by simp) there (by simp; omega)
      exact absurd (marked.subset (by simp)) foreign
    · exact fun here => absurd here.length_le fits

theorem tag_barrier (chars rest : List Char) (c : Char) (barrier : Barrier c) :
    Text.dollarTag? isTagLead isTagInner (chars ++ c :: rest) =
      Text.dollarTag? isTagLead isTagInner chars :=
  Lexeme.dollarTag_extended _ _ chars (by simp [barrier.inner, barrier.sign])

/-- No two hyphens meet where a text goes on with a character. -/
def HyphensApart (chars : List Char) (c : Char) : Prop :=
  c = '-' → chars.getLast? ≠ some '-'

theorem HyphensApart.rest {c d : Char} {chars : List Char} (apart : HyphensApart (c :: chars) d) :
    HyphensApart chars d := by
  intro hyphen last
  exact apart hyphen (by simp [List.getLast?_cons, last])

theorem strip_nothing (mode : Mode) : stripChars mode [] = [] := by
  cases mode <;> rfl

theorem strip_quote (c : Char) (rest : List Char) (quote : isQuote c = true) :
    stripChars .plain (c :: rest) = c :: stripChars (.quoted c) rest := by
  cases rest <;> simp [stripChars, quote]

/-- Between quotes a character that neither guards the next one nor closes the text is kept. -/
theorem strip_inside (quote c : Char) (rest : List Char) (unguarded : ¬ (c = '\\' ∧ quote = '\''))
    (other : c ≠ quote) :
    stripChars (.quoted quote) (c :: rest) = c :: stripChars (.quoted quote) rest := by
  cases rest <;> simp [stripChars, unguarded, other]

/-- A quote that no second one follows closes the text. -/
theorem strip_closing (quote : Char) (rest : List Char) (guardless : quote ≠ '\\')
    (single : rest.head? ≠ some quote) :
    stripChars (.quoted quote) (quote :: rest) = quote :: stripChars .plain rest := by
  cases rest with
  | nil => rfl
  | cons d rest =>
      have other : d ≠ quote := fun same => single (same ▸ rfl)
      simp [stripChars, guardless, other]

theorem strip_tag (c : Char) (rest tag : List Char) (unquoted : ¬ isQuote c = true)
    (opened : Text.dollarTag? isTagLead isTagInner (c :: rest) = some tag) :
    stripChars .plain (c :: rest) = c :: stripChars (afterOpening (tag.length - 1) tag) rest := by
  cases rest <;> simp [stripChars, unquoted, opened]

theorem strip_pair (c d : Char) (rest : List Char) (unquoted : ¬ isQuote c = true)
    (untagged : Text.dollarTag? isTagLead isTagInner (c :: d :: rest) = none) :
    stripChars .plain (c :: d :: rest) =
      if c = '-' ∧ d = '-' then stripChars .line rest
      else if c = '/' ∧ d = '*' then stripChars (.block 0) rest
      else c :: stripChars .plain (d :: rest) := by
  simp [stripChars, unquoted, untagged]

/-- What two characters are does not change where a barrier stands behind the text they begin. -/
theorem strip_pair_behind (c d : Char) (more rest : List Char) (b : Char) (barrier : Barrier b)
    (unquoted : ¬ isQuote c = true)
    (untagged : Text.dollarTag? isTagLead isTagInner (c :: d :: more) = none) :
    stripChars .plain (c :: d :: more ++ b :: rest) =
      if c = '-' ∧ d = '-' then stripChars .line (more ++ b :: rest)
      else if c = '/' ∧ d = '*' then stripChars (.block 0) (more ++ b :: rest)
      else c :: stripChars .plain (d :: more ++ b :: rest) := by
  have there := (tag_barrier (c :: d :: more) rest b barrier).trans untagged
  rw [List.cons_append, List.cons_append] at there ⊢
  rw [strip_pair c d _ unquoted there]

/-- A scan goes on in another mode with a text that is one or two characters shorter, so what is shown
in one mode may be taken for granted of the shorter texts in every mode. -/
theorem each_mode {motive : Mode → List Char → Prop} (nothing : ∀ mode, motive mode [])
    (step : ∀ c rest, (∀ mode text, text.length ≤ rest.length → motive mode text) →
      ∀ mode, motive mode (c :: rest)) (mode : Mode) (chars : List Char) : motive mode chars := by
  induction size : chars.length using Nat.strong_induction_on generalizing mode chars with
  | _ size ih =>
      cases chars with
      | nil => exact nothing mode
      | cons c rest =>
          refine step c rest (fun mode text shorter => ih text.length ?_ mode text rfl) mode
          rw [← size, List.length_cons]
          exact Nat.lt_succ_of_le shorter

/-- If a text leaves nothing open but a line comment, what follows it is stripped on its own. -/
def StripsApart (b : Char) (rest : List Char) (mode : Mode) (chars : List Char) : Prop :=
  HyphensApart chars b → mode.Opened →
    modeAfter mode chars = .plain ∨ modeAfter mode chars = .line →
    stripChars mode (chars ++ b :: rest) =
      stripChars mode chars ++ stripChars (modeAfter mode chars) (b :: rest)

section

variable {b : Char} {rest : List Char} (c : Char) (chars : List Char)
  (later : ∀ mode text, text.length ≤ chars.length → StripsApart b rest mode text)

include later

theorem line_apart : StripsApart b rest .line (c :: chars) := by
  intro apart _ ended
  rw [after_line] at ended ⊢
  by_cases feed : c = '\n'
  · rw [if_pos feed] at ended ⊢
    simp only [List.cons_append, stripChars, if_pos feed,
      later .plain chars le_rfl apart.rest trivial ended]
  · rw [if_neg feed] at ended ⊢
    simp only [List.cons_append, stripChars, if_neg feed,
      later .line chars le_rfl apart.rest trivial ended]

theorem block_apart (depth : Nat) : StripsApart b rest (.block depth) (c :: chars) := by
  intro apart _ ended
  cases chars with
  | nil => rcases ended with open_ | open_ <;> cases open_
  | cons d more =>
      have shorter : more.length ≤ (d :: more).length := Nat.le_succ _
      rw [after_block] at ended ⊢
      by_cases opens : c = '/' ∧ d = '*'
      · rw [if_pos opens] at ended ⊢
        simp only [List.cons_append, stripChars, if_pos opens,
          later (.block (depth + 1)) more shorter apart.rest.rest trivial ended]
      by_cases closes : c = '*' ∧ d = '/'
      · by_cases outer : depth = 0
        · rw [if_neg opens, if_pos closes, if_pos outer] at ended ⊢
          simp only [List.cons_append, stripChars, if_neg opens, if_pos closes, if_pos outer,
            later .plain more shorter apart.rest.rest trivial ended]
        · rw [if_neg opens, if_pos closes, if_neg outer] at ended ⊢
          simp only [List.cons_append, stripChars, if_neg opens, if_pos closes, if_neg outer,
            later (.block (depth - 1)) more shorter apart.rest.rest trivial ended]
      · rw [if_neg opens, if_neg closes] at ended ⊢
        have behind := later (.block depth) (d :: more) le_rfl apart.rest trivial ended
        simp only [List.cons_append, stripChars, if_neg opens, if_neg closes] at behind ⊢
        exact behind

theorem quoted_apart (barrier : Barrier b) (quote : Char) :
    StripsApart b rest (.quoted quote) (c :: chars) := by
  intro apart opened ended
  have guardless : quote ≠ '\\' := by
    rintro rfl
    cases opened
  cases chars with
  | nil =>
      rw [after_single] at ended ⊢
      -- A quote at the end closes the text, since the barrier is no second one.
      obtain rfl : c = quote := by
        by_contra inside
        simp [inside] at ended
      have single : (b :: rest).head? ≠ some c := by
        rintro ⟨⟩
        exact absurd (barrier.unquoted.symm.trans opened) Bool.false_ne_true
      rw [List.singleton_append, strip_closing c (b :: rest) guardless single, if_pos rfl,
        strip_closing c [] guardless nofun, strip_nothing, List.singleton_append]
  | cons d more =>
      rw [after_quoted] at ended ⊢
      by_cases kept : (c = '\\' ∧ quote = '\'') ∨ (c = quote ∧ d = quote)
      · rw [if_pos kept] at ended ⊢
        simp only [List.cons_append, stripChars, if_pos kept,
          later (.quoted quote) more (Nat.le_succ _) apart.rest.rest opened ended]
      obtain ⟨unguarded, undoubled⟩ := not_or.mp kept
      by_cases closes : c = quote
      · subst closes
        have single : ∀ tail, (d :: tail).head? ≠ some c :=
          fun tail head => undoubled ⟨rfl, Option.some.inj head⟩
        rw [if_neg kept, if_pos rfl] at ended ⊢
        rw [List.cons_append, List.cons_append, strip_closing c _ guardless (single _),
          strip_closing c _ guardless (single _), ← List.cons_append,
          later .plain (d :: more) le_rfl apart.rest trivial ended, List.cons_append]
      · rw [if_neg kept, if_neg closes] at ended ⊢
        rw [List.cons_append, strip_inside quote c _ unguarded closes,
          strip_inside quote c _ unguarded closes,
          later (.quoted quote) (d :: more) le_rfl apart.rest opened ended, List.cons_append]

theorem opening_apart (left : Nat) (tag : List Char) :
    StripsApart b rest (.opening left tag) (c :: chars) := by
  intro apart opened ended
  rw [after_opening] at ended ⊢
  simp only [List.cons_append, stripChars,
    later _ chars le_rfl apart.rest (opened_opening _ tag opened) ended]

theorem closing_apart (left : Nat) : StripsApart b rest (.closing left) (c :: chars) := by
  intro apart _ ended
  rw [after_closing] at ended ⊢
  simp only [List.cons_append, stripChars, later _ chars le_rfl apart.rest (opened_closing _) ended]

theorem tagged_apart (barrier : Barrier b) (tag : List Char) :
    StripsApart b rest (.tagged tag) (c :: chars) := by
  intro apart opened ended
  have foreign : b ∉ tag := by
    intro member
    rcases opened b member with inner | sign
    · exact absurd (barrier.inner.symm.trans inner) Bool.false_ne_true
    · exact barrier.sign sign
  have same := prefix_barrier tag (c :: chars) rest b foreign
  rw [after_tagged] at ended ⊢
  by_cases here : tag.isPrefixOf (c :: chars) = true
  · rw [if_pos here] at ended ⊢
    have behind := later _ chars le_rfl apart.rest (opened_closing _) ended
    have there := same.trans here
    rw [List.cons_append] at there ⊢
    simp only [stripChars, if_pos there, if_pos here, behind, List.cons_append]
  · rw [if_neg here] at ended ⊢
    have behind := later (.tagged tag) chars le_rfl apart.rest opened ended
    have elsewhere := same ▸ here
    rw [List.cons_append] at elsewhere ⊢
    simp only [stripChars, if_neg elsewhere, if_neg here, behind, List.cons_append]

theorem plain_apart (barrier : Barrier b) : StripsApart b rest .plain (c :: chars) := by
  intro apart _ ended
  by_cases quote : isQuote c = true
  · rw [after_quote c chars quote] at ended ⊢
    rw [List.cons_append, strip_quote c _ quote, strip_quote c _ quote,
      later (.quoted c) chars le_rfl apart.rest quote ended, List.cons_append]
  have same := tag_barrier (c :: chars) rest b barrier
  cases found : Text.dollarTag? isTagLead isTagInner (c :: chars) with
  | some tag =>
      rw [after_tag c chars tag quote found] at ended ⊢
      rw [found, List.cons_append] at same
      rw [List.cons_append, strip_tag c _ tag quote same, strip_tag c _ tag quote found,
        later _ chars le_rfl apart.rest (opened_opening _ tag (tag_chars _ tag found)) ended,
        List.cons_append]
  | none =>
      cases chars with
      | nil =>
          have hyphens : ¬ (c = '-' ∧ b = '-') := by
            rintro ⟨rfl, hyphen⟩
            exact apart hyphen rfl
          have comment : ¬ (c = '/' ∧ b = '*') := fun both => barrier.star both.2
          rw [found, List.singleton_append] at same
          rw [List.singleton_append, strip_pair c b rest quote same, if_neg hyphens, if_neg comment,
            after_last c quote found]
          simp [stripChars, quote, found]
      | cons d more =>
          rw [after_pair c d more quote found] at ended ⊢
          rw [strip_pair_behind c d more rest b barrier quote found, strip_pair c d more quote found]
          by_cases hyphens : c = '-' ∧ d = '-'
          · rw [if_pos hyphens] at ended
            simp only [if_pos hyphens, later .line more (Nat.le_succ _) apart.rest.rest trivial ended]
          by_cases comment : c = '/' ∧ d = '*'
          · rw [if_neg hyphens, if_pos comment] at ended
            simp only [if_neg hyphens, if_pos comment,
              later (.block 0) more (Nat.le_succ _) apart.rest.rest trivial ended]
          · rw [if_neg hyphens, if_neg comment] at ended
            simp only [if_neg hyphens, if_neg comment]
            rw [later .plain (d :: more) le_rfl apart.rest trivial ended, List.cons_append]

end

/-- Behind a text where nothing is open but a line comment, the rest is stripped on its own, if a
barrier begins it that makes no comment together with the text. -/
theorem strip_behind (mode : Mode) (chars rest : List Char) (b : Char) (barrier : Barrier b)
    (apart : HyphensApart chars b) (opened : mode.Opened)
    (ended : modeAfter mode chars = .plain ∨ modeAfter mode chars = .line) :
    stripChars mode (chars ++ b :: rest) =
      stripChars mode chars ++ stripChars (modeAfter mode chars) (b :: rest) := by
  refine each_mode (motive := StripsApart b rest) ?_ ?_ mode chars apart opened ended
  · intro mode _ _ _
    rw [strip_nothing, modeAfter, List.nil_append, List.nil_append]
  · intro c chars later mode
    cases mode with
    | plain => exact plain_apart c chars later barrier
    | quoted quote => exact quoted_apart c chars later barrier quote
    | opening left tag => exact opening_apart c chars later left tag
    | tagged tag => exact tagged_apart c chars later barrier tag
    | closing left => exact closing_apart c chars later left
    | line => exact line_apart c chars later
    | block depth => exact block_apart c chars later depth

end TableScript.Comment
