import TableScript.Identifier
import Mathlib.Data.List.Basic

/-!
The words of a text, and what cutting and trimming do to them. A text may be cut wherever that
does not go through a word.
-/

namespace TableScript.Text

/-- The words of a text as lists of characters. -/
def wordRuns (chars : List Char) : List (List Char) :=
  let (current, done) := splitWords chars
  if current.isEmpty then done else current :: done

theorem words_eq (text : String) : words text = (wordRuns text.toList).map String.ofList := rfl

theorem split_words_run (run rest : List Char) (solid : ∀ c ∈ run, isBlank c = false) :
    splitWords (run ++ rest) = (run ++ (splitWords rest).1, (splitWords rest).2) := by
  induction run with
  | nil => rfl
  | cons c run ih =>
      obtain ⟨head, others⟩ := List.forall_mem_cons.mp solid
      simp [splitWords, ih others, head]

theorem split_words_blank (c : Char) (rest : List Char) (blank : isBlank c = true) :
    splitWords (c :: rest) = ([], wordRuns rest) := by
  simp [splitWords, wordRuns, blank]

@[simp] theorem word_runs_nil : wordRuns [] = [] := rfl

theorem word_runs_blank (c : Char) (rest : List Char) (blank : isBlank c = true) :
    wordRuns (c :: rest) = wordRuns rest := by
  rw [wordRuns, split_words_blank c rest blank]
  rfl

theorem word_runs_solid (run : List Char) (solid : ∀ c ∈ run, isBlank c = false)
    (occupied : run ≠ []) : wordRuns run = [run] := by
  have split := split_words_run run [] solid
  rw [List.append_nil] at split
  simp [wordRuns, split, splitWords, occupied]

theorem split_words_append_blank (first : List Char) (c : Char) (rest : List Char)
    (blank : isBlank c = true) :
    splitWords (first ++ c :: rest) =
      ((splitWords first).1, (splitWords first).2 ++ wordRuns rest) := by
  induction first with
  | nil => exact split_words_blank c rest blank
  | cons d first ih =>
      simp only [List.cons_append, splitWords, ih]
      split
      · split <;> rfl
      · rfl

theorem word_runs_append_blank (first : List Char) (c : Char) (rest : List Char)
    (blank : isBlank c = true) :
    wordRuns (first ++ c :: rest) = wordRuns first ++ wordRuns (c :: rest) := by
  rw [word_runs_blank c rest blank, wordRuns, split_words_append_blank first c rest blank]
  unfold wordRuns
  by_cases open_ : (splitWords first).1.isEmpty = true <;> simp [open_]

/-- There is a blank on one side of the place between two texts, or nothing at all. -/
def Apart (first second : List Char) : Prop :=
  first = [] ∨ second = [] ∨ (∀ c ∈ first.getLast?, isBlank c = true) ∨
    ∀ c ∈ second.head?, isBlank c = true

theorem word_runs_append (first second : List Char) (apart : Apart first second) :
    wordRuns (first ++ second) = wordRuns first ++ wordRuns second := by
  rcases apart with rfl | rfl | before | after
  · rfl
  · simp
  · rcases List.eq_nil_or_concat first with rfl | ⟨front, last, rfl⟩
    · rfl
    · have blank : isBlank last = true := before last (by simp)
      rw [List.concat_eq_append, List.append_assoc, List.singleton_append,
        word_runs_append_blank front last second blank, word_runs_append_blank front last [] blank,
        word_runs_blank last second blank, word_runs_blank last [] blank, word_runs_nil,
        List.append_nil]
  · cases second with
    | nil => simp
    | cons c rest => exact word_runs_append_blank first c rest (after c rfl)

theorem word_runs_head (c : Char) (rest : List Char) (solid : isBlank c = false) :
    ∃ more others, wordRuns (c :: rest) = (c :: more) :: others := by
  refine ⟨(splitWords rest).1, (splitWords rest).2, ?_⟩
  simp [wordRuns, splitWords, solid]

theorem trimChars_inner (front inner back : List Char) (frontBlank : ∀ c ∈ front, isBlank c = true)
    (backBlank : ∀ c ∈ back, isBlank c = true) (head : ∀ c ∈ inner.head?, isBlank c = false)
    (last : ∀ c ∈ inner.getLast?, isBlank c = false) (occupied : inner ≠ []) :
    trimChars (front ++ (inner ++ back)) = inner := by
  have left : (front ++ (inner ++ back)).dropWhile isBlank = inner ++ back := by
    rw [List.dropWhile_append_of_pos frontBlank]
    cases inner with
    | nil => exact absurd rfl occupied
    | cons c rest => simp [head c rfl]
  have right : (inner ++ back).reverse.dropWhile isBlank = inner.reverse := by
    rw [List.reverse_append, List.dropWhile_append_of_pos
      (fun c member => backBlank c (List.mem_reverse.mp member))]
    rcases List.eq_nil_or_concat inner with rfl | ⟨rest, c, rfl⟩
    · rfl
    · simp [last c (by simp)]
  rw [trimChars, left, right, List.reverse_reverse]

theorem trimChars_self (inner : List Char) (head : ∀ c ∈ inner.head?, isBlank c = false)
    (last : ∀ c ∈ inner.getLast?, isBlank c = false) : trimChars inner = inner := by
  by_cases occupied : inner = []
  · rw [occupied]
    rfl
  · simpa using trimChars_inner [] inner [] (by simp) (by simp) head last occupied

theorem intercalate_cons (separator first : String) (rest : List String) :
    separator.intercalate (first :: rest) = first ++ String.join (rest.map (separator ++ ·)) := by
  induction rest generalizing first with
  | nil => simp
  | cons second rest ih =>
      rw [String.intercalate_cons_cons, ih, List.map_cons, String.join_cons, String.append_assoc,
        String.append_assoc]

-- Deciding the statement as it stands would go through all characters there are.
theorem each_char (holds : Char → Prop) [DecidablePred holds] (chars : List Char)
    (all : (chars.all fun c => decide (holds c)) = true) : ∀ c ∈ chars, holds c :=
  fun c member => of_decide_eq_true (List.all_eq_true.mp all c member)

def blankCodes : List Nat :=
  List.range' 9 5 ++ List.range' 0x1C 5 ++ List.range' 0x2000 11 ++
    [0x85, 0xA0, 0x1680, 0x2028, 0x2029, 0x202F, 0x205F, 0x3000]

theorem blank_code (c : Char) (blank : isBlank c = true) : c.toNat ∈ blankCodes := by
  simp only [isBlank, Bool.or_eq_true, Bool.and_eq_true, decide_eq_true_eq, beq_iff_eq] at blank
  simp only [blankCodes, List.mem_append, List.mem_range'_1, List.mem_cons, List.not_mem_nil, or_false]
  omega

theorem blank_each (holds : Char → Prop) (each : ∀ code ∈ blankCodes, holds (Char.ofNat code)) (c : Char)
    (blank : isBlank c = true) : holds c := by
  have there := each c.toNat (blank_code c blank)
  rwa [Char.ofNat_toNat] at there

theorem upTo_ascii (c last : Char) (ascii : last.toNat < 128) (upTo : c.val ≤ last.val) :
    c.toNat < 128 :=
  Nat.lt_of_le_of_lt (UInt32.le_iff_toNat_le.mp upTo) ascii

theorem ascii_cases (holds : Char → Prop) (each : ∀ code < 128, holds (Char.ofNat code)) (c : Char)
    (ascii : c.toNat < 128) : holds c := by
  have there := each c.toNat ascii
  rwa [Char.ofNat_toNat] at there

theorem upper_ascii (chars : List Char) (ascii : ∀ c ∈ chars, c.toNat < 128) :
    upper (String.ofList chars) = String.ofList (chars.map Char.toUpper) := by
  have each : chars.flatMap upperChar = chars.flatMap fun c => [c.toUpper] :=
    List.flatMap_congr fun c member => by rw [upperChar, if_pos (ascii c member)]
  rw [upper, String.toList_ofList, each, List.map_eq_flatMap]

end TableScript.Text
