import TableScript.Proofs.Lexing.Foresight
import TableScript.Proofs.Lexing.RunTokens

/-!
What stands in front of a text. Blanks in front of a text are lexemes of their own, and behind a
line feed a text has the lexemes that it has alone: the rules that look back tell a line feed
from a word, a quote or a bracket, but not from nothing at all.
-/

namespace TableScript

namespace Pattern

/-- What a pattern asks of the characters around a spot. -/
def conditions : Pattern → List (Option Char → Option Char → Bool)
  | .place accepts => [accepts]
  | .seq first second => conditions first ++ conditions second
  | .alt first second => conditions first ++ conditions second
  | .many body => conditions body
  | .few body => conditions body
  | .ahead body => conditions body
  | .notAhead body => conditions body
  | .nothing | .one _ => []

variable {first second : Option Char}

/-- Matches from two spots that end at the same place, or both not at all. -/
def SameEnd (one two : Option Spot) : Prop :=
  one.map Spot.rest = two.map Spot.rest

/-- A matcher that ends at the same place, whichever of two characters it starts behind. -/
def Blind (first second : Option Char) (next : Spot → Option Spot) : Prop :=
  ∀ rest, SameEnd (next ⟨first, rest⟩) (next ⟨second, rest⟩)

theorem sameEnd_or {one two other another : Option Spot} :
    SameEnd one two → SameEnd other another →
      SameEnd (match one with | some stop => some stop | none => other)
        (match two with | some stop => some stop | none => another) := by
  intro same others
  cases one <;> cases two
  · exact others
  · cases same
  · cases same
  · exact same

theorem sameEnd_isSome {one two : Option Spot} (same : SameEnd one two) : one.isSome = two.isSome := by
  rw [← Option.isSome_map (f := Spot.rest), same, Option.isSome_map]

theorem greedy_blind (step : Matcher) (blind : ∀ next, Blind first second next →
    Blind first second (step next)) (next : Spot → Option Spot) (blindNext : Blind first second next)
    (rounds : List Char) : Blind first second (greedy step next rounds) := by
  induction rounds with
  | nil => exact blindNext
  | cons _ rounds ih => exact fun rest => sameEnd_or (blind _ ih rest) (blindNext rest)

theorem reluctant_blind (step : Matcher) (blind : ∀ next, Blind first second next →
    Blind first second (step next)) (next : Spot → Option Spot) (blindNext : Blind first second next)
    (rounds : List Char) : Blind first second (reluctant step next rounds) := by
  induction rounds with
  | nil => exact blindNext
  | cons _ rounds ih => exact fun rest => sameEnd_or (blindNext rest) (blind _ ih rest)

theorem some_blind : Blind first second some :=
  fun _ => rfl

/-- A pattern is blind to a difference that none of its conditions makes. -/
theorem run_blind (pattern : Pattern)
    (alike : ∀ accepts ∈ conditions pattern, accepts first = accepts second) :
    ∀ next, Blind first second next → Blind first second (run pattern next) := by
  induction pattern with
  | nothing => exact fun next blind => blind
  | one accepts =>
      intro next _ rest
      cases rest <;> rfl
  | seq one two one_blind two_blind =>
      obtain ⟨alikeOne, alikeTwo⟩ := List.forall_mem_append.mp alike
      exact fun next blind => one_blind alikeOne _ (two_blind alikeTwo next blind)
  | alt one two one_blind two_blind =>
      obtain ⟨alikeOne, alikeTwo⟩ := List.forall_mem_append.mp alike
      exact fun next blind rest =>
        sameEnd_or (one_blind alikeOne next blind rest) (two_blind alikeTwo next blind rest)
  | many body body_blind =>
      exact fun next blind rest => greedy_blind _ (body_blind alike) next blind rest rest
  | few body body_blind =>
      exact fun next blind rest => reluctant_blind _ (body_blind alike) next blind rest rest
  | ahead body body_blind =>
      intro next blind rest
      have seen := sameEnd_isSome (body_blind alike some some_blind rest)
      simp only [run, seen]
      split
      · exact blind rest
      · rfl
  | notAhead body body_blind =>
      intro next blind rest
      have seen := sameEnd_isSome (body_blind alike some some_blind rest)
      simp only [run, seen]
      split
      · rfl
      · exact blind rest
  | place accepts =>
      intro next blind rest
      have here := congrFun (alike accepts (by simp [conditions])) rest.head?
      simp only [run, here]
      split
      · exact blind rest
      · rfl

end Pattern

namespace Lexeme

open Pattern

theorem rules_alike : ∀ rule ∈ rules, ∀ accepts ∈ conditions rule.pattern,
    accepts none = accepts (some '\n') := by
  have all : (rules.flatMap fun rule => conditions rule.pattern).map (fun accepts => accepts none) =
      (rules.flatMap fun rule => conditions rule.pattern).map fun accepts => accepts (some '\n') :=
    rfl
  intro rule member accepts condition
  exact List.map_inj_left.mp all accepts (List.mem_flatMap.mpr ⟨rule, member, condition⟩)

theorem firstRule_alike (chars : List Char) (candidates : List Rule)
    (alike : ∀ rule ∈ candidates, ∀ accepts ∈ conditions rule.pattern,
      accepts none = accepts (some '\n')) :
    firstRule? ⟨none, chars⟩ candidates = firstRule? ⟨some '\n', chars⟩ candidates := by
  induction candidates with
  | nil => rfl
  | cons rule candidates ih =>
      obtain ⟨head, others⟩ := List.forall_mem_cons.mp alike
      have same := run_blind rule.pattern head some some_blind chars
      simp only [firstRule?, stop?, ih others]
      revert same
      cases run rule.pattern some ⟨none, chars⟩ <;> cases run rule.pattern some ⟨some '\n', chars⟩ <;>
        simp_all [SameEnd]

/-- A text has the same lexemes behind a line feed and alone. -/
theorem scan_behind_lineFeed [TagReading] (chars : List Char) :
    scanAfter (some '\n') chars = scanAfter none chars := by
  cases chars with
  | nil => rfl
  | cons c rest =>
      have span : span? ⟨none, c :: rest⟩ = span? ⟨some '\n', c :: rest⟩ := by
        have unbound : (some '\n').any bindsTag = false := by decide +kernel
        simp [span?, dollarSpan?, unbound]
      have same : measure ⟨none, c :: rest⟩ = measure ⟨some '\n', c :: rest⟩ := by
        rw [measure, measure, span, firstRule_alike _ rules rules_alike]
      rw [scan_step, scan_step, same]

theorem blank_unlike (c d : Char) (blank : Text.isBlank c = true) (other : Text.isBlank d = false) :
    c ≠ d := by
  rintro rfl
  exact absurd (other.symm.trans blank) Bool.false_ne_true

theorem comments_skipped (before : Option Char) (c : Char) (tail : List Char)
    (blank : Text.isBlank c = true) :
    ∀ rule ∈ spaceRules.take 2, rule.pattern.stop? ⟨before, c :: tail⟩ = none := by
  have hyphen := blank_unlike c '-' blank rfl
  have hash := blank_unlike c '#' blank rfl
  apply all_skipped
  simp [spaceRules, refuses, mayBeEmpty, mayLead, Pattern.sequence, lineComment, exactly, char,
    hyphen, hash]

theorem scan_lineEnd [TagReading] (before : Option Char) (c : Char) (taken tail : List Char)
    (blank : Text.isBlank c = true)
    (found : lineEnd.stop? ⟨before, c :: (taken ++ tail)⟩ = some ⟨(c :: taken).getLast?, tail⟩) :
    scanAfter before (c :: (taken ++ tail)) =
      ⟨.blank, c :: taken⟩ :: scanAfter (c :: taken).getLast? tail := by
  apply scan_cut before (c :: taken) tail .blank (by simp)
  rw [List.cons_append, measure_first before c _ (blank_unlike c '/' blank rfl)
    (blank_unlike c '$' blank rfl) (spaceRules.take 2) ⟨.blank, lineEnd⟩ _ rfl
    (comments_skipped before c _ blank) _ found]
  simp only [List.length_cons, List.length_append, Prod.mk.injEq, true_and]
  omega

theorem scan_otherBlank [TagReading] (before : Option Char) (c : Char) (tail : List Char)
    (blank : Text.isBlank c = true) (other : c ∉ ['\r', '\n']) :
    scanAfter before (c :: tail) = ⟨.blank, [c]⟩ :: scanAfter (some c) tail := by
  simp only [List.mem_cons, List.not_mem_nil, or_false, not_or] at other
  have skipped : ∀ rule ∈ spaceRules.take 3, rule.pattern.stop? ⟨before, c :: tail⟩ = none := by
    intro rule member
    rcases List.mem_append.mp (show rule ∈ spaceRules.take 2 ++ [⟨.blank, lineEnd⟩] from member) with
      comment | last
    · exact comments_skipped before c tail blank rule comment
    · rw [List.mem_singleton.mp last]
      simp [lineEnd, choice, exactly, Pattern.sequence, char, stop?, run, other]
  apply scan_cut before [c] tail .blank (by simp)
  rw [List.singleton_append, measure_first before c tail (blank_unlike c '/' blank rfl)
    (blank_unlike c '$' blank rfl) (spaceRules.take 3) ⟨.blank, Lexeme.blank⟩ _ rfl skipped
    ⟨some c, tail⟩ (by simp [Lexeme.blank, stop?, run, blank])]
  simp

theorem reads_lineBreak [TagReading] (tail : List Char) : Reads ['\r', '\n'] tail [] := fun before =>
  readsAfter_one before _ tail .blank (by simp) (scan_lineEnd before '\r' ['\n'] tail rfl rfl) rfl

theorem reads_blank [TagReading] (c : Char) (tail : List Char) (blank : Text.isBlank c = true)
    (apart : c = '\r' → tail.head? ≠ some '\n') : Reads [c] tail [] := by
  intro before
  apply readsAfter_one before [c] tail .blank (by simp) _ rfl
  by_cases return_ : c = '\r'
  · subst return_
    apply scan_lineEnd before '\r' [] tail blank
    have closed := apart rfl
    cases tail with
    | nil => rfl
    | cons d tail =>
        have other : d ≠ '\n' := fun same => closed (same ▸ rfl)
        simp [lineEnd, choice, exactly, Pattern.sequence, char, stop?, run, other]
  by_cases feed : c = '\n'
  · subst feed
    exact scan_lineEnd before '\n' [] tail blank rfl
  · exact scan_otherBlank before c tail blank (by simp [return_, feed])

/-- Blanks have no tokens, and what follows them stands on its own, unless a line break that they
begin goes on there. -/
theorem reads_blanks [TagReading] (gap tail : List Char) (blank : ∀ c ∈ gap, Text.isBlank c = true)
    (apart : gap.getLast? = some '\r' → tail.head? ≠ some '\n') : Reads gap tail [] := by
  induction same : gap.length using Nat.strongRecOn generalizing gap with
  | _ size ih =>
      rcases gap with _ | ⟨c, gap⟩
      · exact reads_nil tail
      obtain ⟨head, others⟩ := List.forall_mem_cons.mp blank
      by_cases lineBreak : c = '\r' ∧ gap.head? = some '\n'
      · -- The two characters are one lexeme.
        obtain ⟨rfl, feed⟩ := lineBreak
        obtain ⟨gap, rfl⟩ := List.head?_eq_some_iff.mp feed
        have later := ih gap.length (by rw [← same, List.length_cons, List.length_cons]; omega) gap
          (List.forall_mem_cons.mp others).2
          (fun last => apart (by simp [List.getLast?_cons, last])) rfl
        exact reads_append ['\r', '\n'] gap tail [] [] (reads_lineBreak _) later
      · have later := ih gap.length (by rw [← same]; simp) gap others
          (fun last => apart (by simp [List.getLast?_cons, last])) rfl
        refine reads_append [c] gap tail [] [] (reads_blank c _ head ?_) later
        intro return_ feed
        cases gap with
        | nil => exact apart (by simp [return_]) feed
        | cons d gap => exact lineBreak ⟨return_, feed⟩

end Lexeme

end TableScript
