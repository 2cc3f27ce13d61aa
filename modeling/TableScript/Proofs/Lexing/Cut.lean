import TableScript.Identifier
import TableScript.Token
import TableScript.Proofs.Lexing.Reach
import TableScript.Proofs.Lexing.Words
import Mathlib.Data.List.Basic

/-!
Cutting single lexemes off the front of a text. Most rules are ruled out by the first character
alone, so the lexeme that begins with a given character is found by looking at the few rules that
are left.
-/

namespace TableScript.Lexeme

open Pattern

/-- The lexemes of a text that stands behind some character. -/
def scanAfter [TagReading] (before : Option Char) (chars : List Char) : List Lexeme :=
  scanFrom chars.length before chars

theorem scan_steps [TagReading] (steps : Nat) (before : Option Char) (chars : List Char)
    (enough : chars.length ≤ steps) : scanFrom steps before chars = scanAfter before chars := by
  induction steps using Nat.strongRecOn generalizing before chars with
  | _ steps ih =>
      cases chars with
      | nil => cases steps <;> rfl
      | cons c rest =>
          cases steps with
          | zero => cases enough
          | succ steps =>
              have shorter : (rest.drop ((measure ⟨before, c :: rest⟩).2 - 1)).length ≤ rest.length := by
                rw [List.length_drop]
                omega
              have fits : rest.length ≤ steps := Nat.le_of_succ_le_succ enough
              simp only [scanAfter, scanFrom, List.length_cons]
              rw [ih steps (Nat.lt_succ_self steps) _ _ (Nat.le_trans shorter fits),
                ih rest.length (Nat.lt_succ_of_le fits) _ _ shorter]

theorem scan_cut [TagReading] (before : Option Char) (taken tail : List Char) (kind : Kind)
    (occupied : taken ≠ [])
    (measured : measure ⟨before, taken ++ tail⟩ = (kind, taken.length)) :
    scanAfter before (taken ++ tail) = ⟨kind, taken⟩ :: scanAfter taken.getLast? tail := by
  cases taken with
  | nil => exact absurd rfl occupied
  | cons c taken =>
      rw [List.cons_append] at measured ⊢
      simp only [scanAfter, List.length_cons, scanFrom, measured, Nat.add_sub_cancel,
        List.take_left, List.drop_left]
      exact congrArg _ (scan_steps _ _ _ (by simp))

theorem firstRule_skips (spot : Spot) (earlier later : List Rule)
    (skipped : ∀ rule ∈ earlier, rule.pattern.stop? spot = none) :
    firstRule? spot (earlier ++ later) = firstRule? spot later := by
  induction earlier with
  | nil => rfl
  | cons rule earlier ih =>
      obtain ⟨head, others⟩ := List.forall_mem_cons.mp skipped
      simp [firstRule?, head, ih others]

theorem firstRule_matches (spot : Spot) (rule : Rule) (later : List Rule) (stop : Spot)
    (found : rule.pattern.stop? spot = some stop) :
    firstRule? spot (rule :: later) = some (rule.kind, spot.rest.length - stop.rest.length) := by
  simp [firstRule?, found]

theorem firstRule_from (spot : Spot) (candidates : List Rule) (found : Kind × Nat)
    (first : firstRule? spot candidates = some found) :
    ∃ rule ∈ candidates, ∃ stop, rule.pattern.stop? spot = some stop ∧
      found = (rule.kind, spot.rest.length - stop.rest.length) := by
  induction candidates with
  | nil => cases first
  | cons rule candidates ih =>
      simp only [firstRule?] at first
      split at first
      case h_1 stop here => exact ⟨rule, by simp, stop, here, (Option.some.inj first).symm⟩
      case h_2 =>
        obtain ⟨other, member, matched⟩ := ih first
        exact ⟨other, List.mem_cons_of_mem _ member, matched⟩

theorem span_none [TagReading] (before : Option Char) (c : Char) (rest : List Char) (slash : c ≠ '/')
    (dollar : c ≠ '$') : span? ⟨before, c :: rest⟩ = none := by
  have comment : commentSpan? (c :: rest) = none := by
    unfold commentSpan?
    split
    · simp_all
    · rfl
  have tag : Text.dollarTag? isTagLead Text.isWordChar (c :: rest) = none := by
    unfold Text.dollarTag?
    split
    · simp_all
    · rfl
  simp [span?, comment, dollarSpan?, tag]

/-- All the rules that stand before one are ruled out by the first character. -/
theorem measure_first [TagReading] (before : Option Char) (c : Char) (rest : List Char) (slash : c ≠ '/')
    (dollar : c ≠ '$') (earlier : List Rule) (rule : Rule) (later : List Rule)
    (split : rules = earlier ++ rule :: later)
    (skipped : ∀ other ∈ earlier, other.pattern.stop? ⟨before, c :: rest⟩ = none) (stop : Spot)
    (found : rule.pattern.stop? ⟨before, c :: rest⟩ = some stop) :
    measure ⟨before, c :: rest⟩ = (rule.kind, (c :: rest).length - stop.rest.length) := by
  rw [measure, span_none before c rest slash dollar, split, firstRule_skips _ _ _ skipped,
    firstRule_matches _ rule later stop found]
  rfl

theorem all_skipped (earlier : List Rule) (before : Option Char) (c : Char) (rest : List Char)
    (refused : (earlier.all fun rule => refuses c rule.pattern) = true) :
    ∀ rule ∈ earlier, rule.pattern.stop? ⟨before, c :: rest⟩ = none :=
  fun rule member => stop_refused rule.pattern before c rest (List.all_eq_true.mp refused rule member)

/-- One rule among them does not match for a reason of its own. -/
theorem others_skipped (earlier : List Rule) (rule : Rule) (later : List Rule) (before : Option Char)
    (c : Char) (rest : List Char)
    (refused : ((earlier ++ later).all fun other => refuses c other.pattern) = true)
    (unmatched : rule.pattern.stop? ⟨before, c :: rest⟩ = none) :
    ∀ other ∈ earlier ++ rule :: later, other.pattern.stop? ⟨before, c :: rest⟩ = none := by
  intro other member
  rcases List.mem_cons.mp (List.perm_middle.mem_iff.mp member) with rfl | elsewhere
  · exact unmatched
  · exact all_skipped (earlier ++ later) before c rest refused other elsewhere

def beforeMarks : List Rule :=
  spaceRules ++ markRules ++ nameRules ++ numberRules ++ quotedRules ++ phraseRules ++
    [⟨.word, anyWord⟩]

/-- A mark that begins nothing longer is a lexeme. -/
theorem scan_alone [TagReading] (before : Option Char) (c : Char) (tail : List Char)
    (mark : c ∈ ";:()[],.".toList)
    (skipped : ∀ rule ∈ beforeMarks, rule.pattern.stop? ⟨before, c :: tail⟩ = none) :
    scanAfter before (c :: tail) = ⟨.punctuation, [c]⟩ :: scanAfter (some c) tail := by
  have taken : (oneOf ";:()[],.").stop? ⟨before, c :: tail⟩ = some ⟨some c, tail⟩ := by
    simp only [oneOf, stop?, run, List.contains_iff_mem.mpr mark, if_true]
  apply scan_cut before [c] tail .punctuation (by simp)
  rw [List.singleton_append, measure_first before c tail ?_ ?_ beforeMarks
    ⟨.punctuation, oneOf ";:()[],."⟩ _ rfl skipped _ taken]
  · simp
  · rintro rfl
    simp at mark
  · rintro rfl
    simp at mark

theorem marks_refused :
    ∀ c ∈ ['(', ')', ',', ';', ']'], (beforeMarks.all fun rule => refuses c rule.pattern) = true :=
  Text.each_char _ _ (by decide +kernel)

theorem scan_mark [TagReading] (before : Option Char) (c : Char) (tail : List Char)
    (mark : c ∈ ['(', ')', ',', ';', ']']) :
    scanAfter before (c :: tail) = ⟨.punctuation, [c]⟩ :: scanAfter (some c) tail := by
  have known : ∀ c ∈ ['(', ')', ',', ';', ']'], c ∈ ";:()[],.".toList := Text.each_char _ _ (by decide)
  exact scan_alone before c tail (known c mark) (all_skipped _ _ _ _ (marks_refused c mark))

theorem bracketed_empty (before : Option Char) (tail : List Char) :
    bracketed.stop? ⟨before, '[' :: ']' :: tail⟩ = none := by
  simp only [bracketed, stop?, Pattern.sequence, run, notBehind]
  split <;> rfl

/-- A bracket that quotes no name. -/
theorem scan_bracket [TagReading] (before : Option Char) (tail : List Char)
    (unbracketed : bracketed.stop? ⟨before, '[' :: tail⟩ = none) :
    scanAfter before ('[' :: tail) = ⟨.punctuation, ['[']⟩ :: scanAfter (some '[') tail := by
  have skipped := others_skipped
    (spaceRules ++ markRules ++ nameRules ++ numberRules ++ quotedRules.take 3) ⟨.name, bracketed⟩
    (phraseRules ++ [⟨.word, anyWord⟩]) before '[' tail (by decide +kernel) unbracketed
  exact scan_alone before '[' tail (by decide) skipped

theorem scan_space [TagReading] (before : Option Char) (tail : List Char) :
    scanAfter before (' ' :: tail) = ⟨.blank, [' ']⟩ :: scanAfter (some ' ') tail := by
  apply scan_cut before [' '] tail .blank (by simp)
  rw [List.singleton_append, measure_first before ' ' tail (by decide) (by decide)
    (spaceRules.take 3) ⟨.blank, blank⟩ _ rfl (all_skipped _ _ _ _ (by decide +kernel))
    ⟨some ' ', tail⟩ rfl]
  simp

theorem scan_lineFeed [TagReading] (before : Option Char) (tail : List Char) :
    scanAfter before ('\n' :: tail) = ⟨.blank, ['\n']⟩ :: scanAfter (some '\n') tail := by
  apply scan_cut before ['\n'] tail .blank (by simp)
  rw [List.singleton_append, measure_first before '\n' tail (by decide) (by decide)
    (spaceRules.take 2) ⟨.blank, lineEnd⟩ _ rfl (all_skipped _ _ _ _ (by decide +kernel))
    ⟨some '\n', tail⟩ rfl]
  simp

/-- No backslash stands before a quote or at the end. -/
def isCalm (quote : Char) : List Char → Bool
  | [] => true
  | [c] => c != '\\'
  | c :: d :: rest => !(c == '\\' && d == quote) && isCalm quote (d :: rest)

theorem calm_plain (quote : Char) (content : List Char) (plain : '\\' ∉ content) :
    isCalm quote content = true := by
  induction content with
  | nil => rfl
  | cons c content ih =>
      simp only [List.mem_cons, not_or] at plain
      have later := ih plain.2
      cases content with
      | nil => simpa [isCalm] using Ne.symm plain.1
      | cons d content => simpa [isCalm, Ne.symm plain.1] using later

theorem calm_rest (quote c : Char) (content : List Char) (calm : isCalm quote (c :: content) = true) :
    isCalm quote content = true := by
  cases content with
  | nil => rfl
  | cons d content => exact (Bool.and_eq_true_iff.mp calm).2

/-- A backslash stands before another character, and that is no quote. -/
theorem calm_guard (quote : Char) (content : List Char) (calm : isCalm quote ('\\' :: content) = true) :
    ∃ d rest, content = d :: rest ∧ d ≠ quote := by
  cases content with
  | nil => cases calm
  | cons d content =>
      refine ⟨d, content, rfl, ?_⟩
      simpa using (Bool.and_eq_true_iff.mp calm).1

theorem double_other (quote c : Char) (content : List Char) (other : c ≠ quote) :
    Identifier.double quote (c :: content) = c :: Identifier.double quote content := by
  simp [Identifier.double, other]

/-- A text that stays inside its quotes: no backslash stands before a quote in it, and one at its
end only where nothing stands behind the closing quote. -/
structure Contained (quote : Char) (content tail : List Char) : Prop where
  unguarded : ¬ ['\\', quote] <:+: content
  ended : content.getLast? = some '\\' → tail = []

theorem Contained.rest {quote c : Char} {content tail : List Char}
    (contained : Contained quote (c :: content) tail) : Contained quote content tail where
  unguarded := fun inside => contained.unguarded (List.infix_cons inside)
  ended := fun last => contained.ended (by rw [List.getLast?_cons, last]; rfl)

theorem calm_contained (quote : Char) (content tail : List Char)
    (calm : isCalm quote content = true) : Contained quote content tail := by
  induction content with
  | nil => exact ⟨by simp, nofun⟩
  | cons c content ih =>
      have later := ih (calm_rest quote c content calm)
      constructor
      · intro inside
        rcases List.infix_cons_iff.mp inside with first | inside
        · obtain ⟨behind, same⟩ := first
          cases same
          obtain ⟨d, rest, same, other⟩ := calm_guard quote _ calm
          cases same
          exact other rfl
        · exact later.unguarded inside
      · intro last
        cases content with
        | nil =>
            cases last
            cases calm
        | cons d content => exact later.ended (by simpa using last)

theorem quoted_rest (quote : Char) (content tail : List Char) (guardless : quote ≠ '\\')
    (contained : Contained quote content tail) (closed : tail.head? ≠ some quote)
    (before : Option Char) (rounds : List Char) (enough : content.length ≤ rounds.length) :
    greedy (run (choice [.seq (char quote) (char quote), .seq (char '\\') (char quote),
        .one (· != quote)])) (run (char quote) some) rounds
      ⟨before, Identifier.double quote content ++ quote :: tail⟩ = some ⟨some quote, tail⟩ := by
  induction content generalizing before rounds with
  | nil =>
      cases rounds with
      | nil => simp [Identifier.double, greedy, run, char]
      | cons _ rounds =>
          cases tail with
          | nil => simp [Identifier.double, greedy, run, char, choice, guardless]
          | cons c tail =>
              have other : c ≠ quote := fun same => closed (same ▸ rfl)
              simp [Identifier.double, greedy, run, char, choice, guardless, other]
  | cons c content ih =>
      cases rounds with
      | nil => cases enough
      | cons _ rounds =>
          have ih := fun before =>
            ih contained.rest before rounds (Nat.le_of_succ_le_succ enough)
          by_cases same : c = quote
          · simp [Identifier.double, greedy, run, char, choice, same] at ih ⊢
            rw [ih]
          rw [double_other quote c content same]
          by_cases guard : c = '\\'
          · subst guard
            cases content with
            | nil =>
                -- The backslash guards the closing quote at first, but then no quote is left.
                obtain rfl := contained.ended rfl
                cases rounds <;>
                  simp [Identifier.double, greedy, run, char, choice, guardless, Ne.symm guardless]
            | cons d rest =>
                have other : d ≠ quote := by
                  rintro rfl
                  exact contained.unguarded (List.prefix_append ['\\', d] rest).isInfix
                rw [double_other quote d rest other] at ih ⊢
                simp [greedy, run, char, choice, Ne.symm guardless, other] at ih ⊢
                rw [ih]
          · simp [greedy, run, char, choice, same, guard] at ih ⊢
            rw [ih]

theorem double_longer (quote : Char) (content : List Char) :
    content.length ≤ (Identifier.double quote content).length := by
  induction content with
  | nil => exact Nat.le_refl 0
  | cons c content ih =>
      by_cases same : c = quote
      · simp only [Identifier.double, List.flatMap_cons, if_pos same, List.length_append,
          List.length_cons, List.length_nil] at ih ⊢
        omega
      · simp only [Identifier.double, List.flatMap_cons, if_neg same, List.length_append,
          List.length_cons, List.length_nil] at ih ⊢
        omega

theorem quoted_stop (quote : Char) (content tail : List Char) (guardless : quote ≠ '\\')
    (contained : Contained quote content tail) (closed : tail.head? ≠ some quote)
    (before : Option Char) :
    (quotedBy quote true).stop?
      ⟨before, quote :: (Identifier.double quote content ++ quote :: tail)⟩ =
        some ⟨some quote, tail⟩ := by
  have enough : content.length ≤ (Identifier.double quote content ++ quote :: tail).length := by
    rw [List.length_append]
    exact Nat.le_add_right_of_le (double_longer quote content)
  have inner := quoted_rest quote content tail guardless contained closed (some quote) _ enough
  simpa [quotedBy, stop?, run, char] using inner

/-- A text between quotes with the quotes inside doubled. -/
def quoted (quote : Char) (content : List Char) : List Char :=
  quote :: (Identifier.double quote content ++ [quote])

theorem quoted_last (quote : Char) (content : List Char) :
    (quoted quote content).getLast? = some quote := by
  rw [quoted, ← List.cons_append, List.getLast?_concat]

theorem scan_quoted [TagReading] (before : Option Char) (quote : Char) (content tail : List Char)
    (kind : Kind) (earlier later : List Rule) (split : rules = earlier ++ ⟨kind, quotedBy quote true⟩ :: later)
    (refused : (earlier.all fun rule => refuses quote rule.pattern) = true)
    (special : quote ∉ ['/', '$', '\\']) (contained : Contained quote content tail)
    (closed : tail.head? ≠ some quote) :
    scanAfter before (quoted quote content ++ tail) =
      ⟨kind, quoted quote content⟩ :: scanAfter (some quote) tail := by
  simp only [List.mem_cons, List.not_mem_nil, or_false, not_or] at special
  have text : quoted quote content ++ tail =
      quote :: (Identifier.double quote content ++ quote :: tail) := by
    simp [quoted]
  rw [← quoted_last quote content]
  apply scan_cut before _ tail kind (by simp [quoted])
  rw [text, measure_first before quote _ special.1 special.2.1 earlier _ later split
    (all_skipped earlier before quote _ refused) _
    (quoted_stop quote content tail special.2.2 contained closed before), ← text]
  simp

theorem scan_literal [TagReading] (before : Option Char) (content tail : List Char)
    (contained : Contained '\'' content tail)
    (closed : tail.head? ≠ some '\'') :
    scanAfter before (quoted '\'' content ++ tail) =
      ⟨.literal, quoted '\'' content⟩ :: scanAfter (some '\'') tail :=
  scan_quoted before '\'' content tail .literal
    (spaceRules ++ markRules ++ nameRules ++ numberRules) _ rfl (by decide +kernel) (by decide)
    contained closed

theorem scan_symbol [TagReading] (before : Option Char) (content tail : List Char)
    (contained : Contained '"' content tail)
    (closed : tail.head? ≠ some '"') :
    scanAfter before (quoted '"' content ++ tail) =
      ⟨.symbol, quoted '"' content⟩ :: scanAfter (some '"') tail :=
  scan_quoted before '"' content tail .symbol
    (spaceRules ++ markRules ++ nameRules ++ numberRules ++ quotedRules.take 1) _ rfl
    (by decide +kernel) (by decide) contained closed

/-- A greedy repetition of characters takes all of them, if what follows can go on from there. -/
theorem greedy_all (accepts : Char → Bool) (next : Spot → Option Spot) (chars tail : List Char)
    (before : Option Char) (stop : Spot) (rounds : List Char) (enough : chars.length ≤ rounds.length)
    (all : ∀ c ∈ chars, accepts c = true) (closed : ∀ c ∈ tail.head?, accepts c = false)
    (ended : next ⟨chars.getLast?.or before, tail⟩ = some stop) :
    greedy (run (.one accepts)) next rounds ⟨before, chars ++ tail⟩ = some stop := by
  induction chars generalizing before rounds with
  | nil =>
      cases rounds with
      | nil => exact ended
      | cons _ rounds =>
          have stuck : run (.one accepts) (greedy (run (.one accepts)) next rounds) ⟨before, tail⟩ =
              none := by
            cases tail with
            | nil => rfl
            | cons c tail => simp [run, closed c rfl]
          simp only [List.nil_append, greedy, stuck]
          exact ended
  | cons c chars ih =>
      cases rounds with
      | nil => cases enough
      | cons _ rounds =>
          obtain ⟨head, others⟩ := List.forall_mem_cons.mp all
          have later : next ⟨chars.getLast?.or (some c), tail⟩ = some stop := by
            rw [← ended, List.getLast?_cons]
            cases chars.getLast? <;> rfl
          have again := ih (some c) rounds (Nat.le_of_succ_le_succ enough) others later
          simp only [List.cons_append, greedy, run, head, if_true] at again ⊢
          rw [again]

/-- A greedy repetition that nothing follows leaves no character that it accepts. -/
theorem greedy_stop (accepts : Char → Bool) (before : Option Char) (chars : List Char) (stop : Spot)
    (found : greedy (run (.one accepts)) some chars ⟨before, chars⟩ = some stop) :
    ∀ c ∈ stop.rest.head?, accepts c = false := by
  induction chars generalizing before with
  | nil =>
      cases found
      simp
  | cons c chars ih =>
      cases accepted : accepts c with
      | true =>
          simp only [greedy, run, accepted, if_true] at found
          split at found
          case h_1 stop' again =>
            cases found
            exact ih _ again
          case h_2 stuck =>
            cases chars <;> simp [greedy] at stuck
            split at stuck <;> cases stuck
      | false =>
          simp [greedy, run, accepted] at found
          cases found
          simpa using accepted

def beforeIntegers : List Rule :=
  spaceRules ++ markRules ++ nameRules

/-- What the rules make of a digit at the front. -/
structure RefusesDigit (c : Char) : Prop where
  earlier : (beforeIntegers.all fun rule => refuses c rule.pattern) = true
  hexadecimal : refuses c (letters "X") = true
  exponential : refuses c (letters "E") = true
  fractional : refuses c (char '.') = true
  name : (c == '_' || isNameLead c) = false
  decimal : Text.isDecimalDigit c = true
  unmarked : c ∉ ['/', '$', '-']

theorem digit_ascii (c : Char) (digit : c.isDigit = true) : c.toNat < 128 := by
  obtain ⟨_, upTo⟩ := Bool.and_eq_true_iff.mp digit
  exact Text.upTo_ascii c '9' (by decide) (of_decide_eq_true upTo)

theorem refuses_digit (c : Char) (digit : c.isDigit = true) : RefusesDigit c := by
  have each : ∀ c : Char, c.toNat < 128 → c.isDigit = true →
      (beforeIntegers.all fun rule => refuses c rule.pattern) = true ∧
      refuses c (letters "X") = true ∧ refuses c (letters "E") = true ∧
      refuses c (char '.') = true ∧ (c == '_' || isNameLead c) = false ∧
      Text.isDecimalDigit c = true ∧ c ∉ ['/', '$', '-'] :=
    Text.ascii_cases _ (by decide +kernel)
  obtain ⟨earlier, hexadecimal, exponential, fractional, name, decimal, unmarked⟩ :=
    each c (digit_ascii c digit) digit
  exact ⟨earlier, hexadecimal, exponential, fractional, name, decimal, unmarked⟩

/-- What may follow a number. -/
def numberEnds : List Char :=
  [',', '(', ')', '[', ']', ' ', '\n']

/-- What a number is made of, and no other rule for numbers takes. -/
structure InNumber (c : Char) : Prop where
  hexadecimal : refuses c (letters "X") = true
  exponential : refuses c (letters "E") = true
  fractional : refuses c (char '.') = true

theorem digit_inNumber (c : Char) (digit : c.isDigit = true) : InNumber c :=
  ⟨(refuses_digit c digit).hexadecimal, (refuses_digit c digit).exponential,
    (refuses_digit c digit).fractional⟩

theorem minus_inNumber : InNumber '-' := by
  constructor <;> decide

/-- Nothing but digits behind a minus, if there is one. -/
def IsNumeral (numeral : List Char) : Prop :=
  ∃ sign first others, numeral = sign ++ first :: others ∧ (sign = [] ∨ sign = ['-']) ∧
    ∀ c ∈ first :: others, c.isDigit = true

theorem numeral_inNumber (numeral : List Char) (isNumeral : IsNumeral numeral) :
    ∀ c ∈ numeral, InNumber c := by
  obtain ⟨sign, first, others, rfl, signed, digits⟩ := isNumeral
  intro c member
  rcases List.mem_append.mp member with before | digit
  · rcases signed with rfl | rfl
    · cases before
    · exact List.mem_singleton.mp before ▸ minus_inNumber
  · exact digit_inNumber c (digits c digit)

theorem other_numbers_skipped (before : Option Char) (numeral tail : List Char)
    (inner : ∀ c ∈ numeral, InNumber c) (closed : ∀ c ∈ tail.head?, c ∈ numberEnds) :
    ∀ rule ∈ numberRules.take 3, rule.pattern.stop? ⟨before, numeral ++ tail⟩ = none := by
  have known : ∀ c ∈ numberEnds, refuses c (letters "X") = true ∧
      refuses c (letters "E") = true ∧ refuses c (char '.') = true ∧
      takes c (.seq minus (char '0')) = false ∧
      takes c (.seq minus (.seq digits (optional (.seq (char '.') digits)))) = false ∧
      takes c (.seq nameEdge (.seq minus digits)) = false ∧
      takes c (.seq nameEdge minus) = false :=
    Text.each_char _ _ (by decide +kernel)
  intro rule member
  apply Option.eq_none_iff_forall_ne_some.mpr
  intro stop found
  have reached := stop_reached rule.pattern _ stop found
  simp only [numberRules, List.take, List.mem_cons, List.not_mem_nil, or_false] at member
  -- Each of them needs a character that neither the number nor what follows it has.
  have blocked : ∀ first second : Pattern, ∀ middle stop,
      Reaches first ⟨before, numeral ++ tail⟩ middle → Reaches second middle stop →
      (∀ c ∈ tail.head?, takes c first = false) → mayBeEmpty second = false →
      (∀ c ∈ numeral, refuses c second = true) → (∀ c ∈ tail.head?, refuses c second = true) →
      False :=
    fun first second middle stop one two =>
      unreached_after first second _ middle stop numeral tail rfl one two
  rcases member with rfl | rfl | rfl
  · obtain ⟨m, sign, n, zero, o, letter, _⟩ := reached
    exact blocked (.seq minus (char '0')) (letters "X") n o ⟨m, sign, zero⟩ letter
      (fun c head => (known c (closed c head)).2.2.2.1) rfl
      (fun c member => (inner c member).hexadecimal) (fun c head => (known c (closed c head)).1)
  · obtain ⟨m, sign, n, whole, o, part, p, letter, _⟩ := reached
    exact blocked (.seq minus (.seq digits (optional (.seq (char '.') digits)))) (letters "E") o p
      ⟨m, sign, n, whole, part⟩ letter (fun c head => (known c (closed c head)).2.2.2.2.1) rfl
      (fun c member => (inner c member).exponential) (fun c head => (known c (closed c head)).2.1)
  · obtain ⟨m, edge, n, sign, o, ⟨p, whole, q, dot, _⟩ | ⟨p, dot, _⟩, _⟩ := reached
    · exact blocked (.seq nameEdge (.seq minus digits)) (char '.') p q ⟨m, edge, n, sign, whole⟩ dot
        (fun c head => (known c (closed c head)).2.2.2.2.2.1) rfl
        (fun c member => (inner c member).fractional) (fun c head => (known c (closed c head)).2.2.1)
    · exact blocked (.seq nameEdge minus) (char '.') n p ⟨m, edge, sign⟩ dot
        (fun c head => (known c (closed c head)).2.2.2.2.2.2) rfl
        (fun c member => (inner c member).fractional) (fun c head => (known c (closed c head)).2.2.1)

theorem run_nameEdge (next : Spot → Option Spot) (before : Option Char) (c : Char) (rest : List Char)
    (other : (c == '_' || isNameLead c) = false) :
    run nameEdge next ⟨before, c :: rest⟩ = next ⟨before, c :: rest⟩ := by
  simp only [nameEdge, run, other]
  rfl

theorem run_minus (next : Spot → Option Spot) (before : Option Char) (c : Char) (rest : List Char)
    (other : c ≠ '-') : run minus next ⟨before, c :: rest⟩ = next ⟨before, c :: rest⟩ := by
  simp [minus, Pattern.optional, char, run, other]

theorem digits_stop (before : Option Char) (first : Char) (others tail : List Char)
    (all : ∀ c ∈ first :: others, c.isDigit = true) (closed : ∀ c ∈ tail.head?, c ∈ numberEnds) :
    run digits (run nameEdge some) ⟨before, first :: (others ++ tail)⟩ =
      some ⟨(first :: others).getLast?, tail⟩ := by
  obtain ⟨first_digit, digits_behind⟩ := List.forall_mem_cons.mp all
  have head := refuses_digit first first_digit
  have last : others.getLast?.or (some first) = (first :: others).getLast? := by
    rw [List.getLast?_cons]
    cases others.getLast? <;> rfl
  have known : ∀ c ∈ numberEnds, (c == '_' || isNameLead c) = false ∧ Text.isDecimalDigit c = false :=
    Text.each_char _ _ (by decide +kernel)
  have ended : run nameEdge some ⟨others.getLast?.or (some first), tail⟩ =
      some ⟨(first :: others).getLast?, tail⟩ := by
    rw [last]
    cases tail with
    | nil => rfl
    | cons c tail => exact run_nameEdge some _ c tail (known c (closed c rfl)).1
  have inner : ∀ c ∈ others, Text.isDecimalDigit c = true :=
    fun c member => (refuses_digit c (digits_behind c member)).decimal
  have outer : ∀ c ∈ tail.head?, Text.isDecimalDigit c = false :=
    fun c inTail => (known c (closed c inTail)).2
  simp only [digits, atLeastOnce, digit, run, head.decimal, if_true]
  exact greedy_all _ _ others tail _ _ _ (by simp) inner outer ended

theorem integral_stop (before : Option Char) (numeral tail : List Char) (isNumeral : IsNumeral numeral)
    (closed : ∀ c ∈ tail.head?, c ∈ numberEnds) :
    integral.stop? ⟨before, numeral ++ tail⟩ = some ⟨numeral.getLast?, tail⟩ := by
  obtain ⟨sign, first, others, rfl, signed, all⟩ := isNumeral
  have head := refuses_digit first (all first (by simp))
  rcases signed with rfl | rfl
  · calc run nameEdge (run minus (run digits (run nameEdge some))) ⟨before, first :: (others ++ tail)⟩
        = run minus (run digits (run nameEdge some)) ⟨before, first :: (others ++ tail)⟩ :=
          run_nameEdge _ before first _ head.name
      _ = run digits (run nameEdge some) ⟨before, first :: (others ++ tail)⟩ :=
          run_minus _ before first _ (by rintro rfl; exact head.unmarked (by simp))
      _ = some ⟨(first :: others).getLast?, tail⟩ := digits_stop before first others tail all closed
  · have whole := digits_stop (some '-') first others tail all closed
    have last : (['-'] ++ first :: others).getLast? = (first :: others).getLast? := by simp
    rw [last]
    calc run nameEdge (run minus (run digits (run nameEdge some)))
          ⟨before, '-' :: first :: (others ++ tail)⟩
        = run minus (run digits (run nameEdge some)) ⟨before, '-' :: first :: (others ++ tail)⟩ :=
          run_nameEdge _ before '-' _ (by decide +kernel)
      _ = some ⟨(first :: others).getLast?, tail⟩ := by
          simp only [minus, Pattern.optional, char, run, beq_self_eq_true, if_true] at whole ⊢
          rw [whole]

/-- A minus that no second one follows begins no comment. -/
theorem before_numbers_skipped (before : Option Char) (numeral tail : List Char)
    (isNumeral : IsNumeral numeral) :
    ∀ rule ∈ beforeIntegers, rule.pattern.stop? ⟨before, numeral ++ tail⟩ = none := by
  obtain ⟨sign, first, others, rfl, signed, all⟩ := isNumeral
  have head := refuses_digit first (all first (by simp))
  rcases signed with rfl | rfl
  · exact all_skipped _ before first _ head.earlier
  · have single : first ≠ '-' := by
      rintro rfl
      exact head.unmarked (by simp)
    intro rule member
    rcases List.mem_append.mp
      (show rule ∈ spaceRules.take 2 ++ (spaceRules.drop 2 ++ markRules ++ nameRules) from member) with
        comment | later
    · simp only [spaceRules, List.take, List.mem_cons, List.not_mem_nil, or_false] at comment
      rcases comment with rfl | rfl <;>
        simp [stop?, Pattern.sequence, run, lineComment, exactly, char, single]
    · exact all_skipped _ before '-' _ (by decide +kernel) rule later

theorem scan_number [TagReading] (before : Option Char) (numeral tail : List Char)
    (isNumeral : IsNumeral numeral) (closed : ∀ c ∈ tail.head?, c ∈ numberEnds) :
    scanAfter before (numeral ++ tail) = ⟨.number, numeral⟩ :: scanAfter numeral.getLast? tail := by
  have skipped := before_numbers_skipped before numeral tail isNumeral
  have skipped' := other_numbers_skipped before numeral tail (numeral_inNumber numeral isNumeral) closed
  have found := integral_stop before numeral tail isNumeral closed
  obtain ⟨c, rest, same, slash, dollar⟩ : ∃ c rest, numeral = c :: rest ∧ c ≠ '/' ∧ c ≠ '$' := by
    obtain ⟨sign, first, others, rfl, signed, all⟩ := isNumeral
    have head := refuses_digit first (all first (by simp))
    rcases signed with rfl | rfl
    · refine ⟨first, others, rfl, ?_, ?_⟩ <;>
        · rintro rfl
          exact head.unmarked (by simp)
    · exact ⟨'-', first :: others, rfl, by decide, by decide⟩
  apply scan_cut before numeral tail .number (by simp [same])
  subst same
  rw [List.cons_append] at skipped skipped' found ⊢
  rw [measure_first before c _ slash dollar (beforeIntegers ++ numberRules.take 3)
    ⟨.number, integral⟩ _ rfl ?_ _ found]
  · simp only [List.length_cons, List.length_append, Prod.mk.injEq, true_and]
    omega
  · intro rule member
    exact (List.mem_append.mp member).elim (skipped rule) (skipped' rule)

/-- A point begins a number only before a digit. -/
theorem point_fractionless (before : Option Char) (tail : List Char)
    (whole : ∀ c ∈ tail.head?, Text.isDecimalDigit c = false) :
    fractional.stop? ⟨before, '.' :: tail⟩ = none := by
  have edge := run_nameEdge
    (run (.seq minus (.seq (.alt (sequence [digits, char '.', .many digit])
      (.seq (char '.') digits)) nameEdge)) some) before '.' tail (by decide +kernel)
  have sign := run_minus (run (.seq (.alt (sequence [digits, char '.', .many digit])
    (.seq (char '.') digits)) nameEdge) some) before '.' tail (by decide)
  refine (edge.trans sign).trans ?_
  have point : Text.isDecimalDigit '.' = false := by decide +kernel
  cases tail with
  | nil => simp [run, Pattern.sequence, digits, atLeastOnce, digit, char, point]
  | cons c tail =>
      have other := whole c rfl
      simp [run, Pattern.sequence, digits, atLeastOnce, digit, char, point, other]

theorem scan_point [TagReading] (before : Option Char) (tail : List Char)
    (whole : ∀ c ∈ tail.head?, Text.isDecimalDigit c = false) :
    scanAfter before ('.' :: tail) = ⟨.punctuation, ['.']⟩ :: scanAfter (some '.') tail := by
  have skipped := others_skipped (spaceRules ++ markRules ++ nameRules ++ numberRules.take 2)
    ⟨.number, fractional⟩ (numberRules.drop 3 ++ quotedRules ++ phraseRules ++ [⟨.word, anyWord⟩])
    before '.' tail (by decide +kernel) (point_fractionless before tail whole)
  exact scan_alone before '.' tail (by decide) skipped

end TableScript.Lexeme
