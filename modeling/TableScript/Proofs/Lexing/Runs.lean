import TableScript.Proofs.Lexing.Cut

/-!
Runs of plain words: letters, digits and underscores with spaces and line feeds between them.
Some rules take several words at once, such as `PRIMARY KEY`, but a lexeme never ends inside a
word, so the tokens of a run are its words, whichever rules took them. Only the words that are
operators have to be kept out.
-/

namespace TableScript.Lexeme

open Pattern

def isGap (c : Char) : Bool :=
  c == ' ' || c == '\n'

/-- What the rules make of a character of a word. -/
structure PlainInner (c : Char) : Prop where
  ascii : c.toNat < 128
  solid : Text.isBlank c = false
  wordChar : Text.isWordChar c = true
  unmarked : c ∉ ['\'', '"', '\x60', '[', '/', '$', '-', '.', ';', '\\', ' ', '\n']

theorem plain_inner (c : Char) (inner : Identifier.isInner c = true) : PlainInner c := by
  have ascii : c.toNat < 128 := by
    have parts : (((c.isUpper || c.isLower) || c.isDigit) || c == '_') = true := inner
    simp only [Bool.or_eq_true, beq_iff_eq] at parts
    rcases parts with ((upper | lower) | digit) | rfl
    · exact Text.upTo_ascii c 'Z' (by decide) (of_decide_eq_true upper).2
    · exact Text.upTo_ascii c 'z' (by decide) (of_decide_eq_true (Bool.and_eq_true_iff.mp lower).2)
    · exact digit_ascii c digit
    · decide
  have each : ∀ c : Char, c.toNat < 128 → Identifier.isInner c = true →
      Text.isBlank c = false ∧ Text.isWordChar c = true ∧
      c ∉ ['\'', '"', '\x60', '[', '/', '$', '-', '.', ';', '\\', ' ', '\n'] :=
    Text.ascii_cases _ (by decide +kernel)
  obtain ⟨solid, wordChar, unmarked⟩ := each c ascii inner
  exact ⟨ascii, solid, wordChar, unmarked⟩

theorem lead_inner (c : Char) (lead : Identifier.isLead c = true) : Identifier.isInner c = true := by
  simp only [Identifier.isLead, Identifier.isInner, Char.isAlphanum, Bool.or_eq_true] at lead ⊢
  exact lead.imp_left Or.inl

/-- The rules that no word can begin. -/
def foreignRules : List Rule :=
  spaceRules ++ markRules ++ numberRules ++ quotedRules ++ otherRules.drop 1 ++
    (nameRules.drop 1).take 1

theorem foreign_refused (c : Char) (lead : Identifier.isLead c = true) :
    (foreignRules.all fun rule => refuses c rule.pattern) = true := by
  have each : ∀ c : Char, c.toNat < 128 → Identifier.isLead c = true →
      (foreignRules.all fun rule => refuses c rule.pattern) = true :=
    Text.ascii_cases _ (by decide +kernel)
  exact each c (plain_inner c (lead_inner c lead)).ascii lead

/-- What may follow a run. -/
def stoppers : List Char :=
  ['(', ')', ',', ';', '[', ']', '"']

def Closed (tail : List Char) : Prop :=
  ∀ c ∈ tail.head?, c ∈ stoppers

/-- The rules for words, except those with a quote in them. -/
def wordRules : List Rule :=
  nameRules ++ phraseRules.take 16 ++ phraseRules.drop 17 ++ [⟨.word, anyWord⟩]

theorem words_occupied : ∀ rule ∈ wordRules, mayBeEmpty rule.pattern = false := by
  have each : (wordRules.all fun rule => !mayBeEmpty rule.pattern) = true := by
    decide +kernel
  intro rule member
  simpa using List.all_eq_true.mp each rule member

/-- A spot that is not inside a word. -/
def Clean (spot : Spot) : Prop :=
  isWordAt spot.before = false ∨ isWordAt spot.rest.head? = false

/-- The best match of a pattern never ends inside a word. -/
def EndsClean (pattern : Pattern) : Prop :=
  ∀ start stop, pattern.stop? start = some stop → Clean stop

/-- No match of a pattern ends inside a word. -/
def AlwaysClean (pattern : Pattern) : Prop :=
  ∀ start stop, Reaches pattern start stop → Clean stop

theorem always_clean_ends (pattern : Pattern) (always : AlwaysClean pattern) : EndsClean pattern :=
  fun start stop found => always start stop (stop_reached pattern start stop found)

theorem clean_edge : AlwaysClean wordEdge := by
  rintro start stop ⟨rfl, edge⟩
  have differ : isWordAt stop.before ≠ isWordAt stop.rest.head? := by simpa using edge
  cases before : isWordAt stop.before with
  | false => exact Or.inl before
  | true =>
      rw [before] at differ
      exact Or.inr (Bool.eq_false_iff.mpr (Ne.symm differ))

theorem clean_seq (first second : Pattern) (always : AlwaysClean second) :
    AlwaysClean (.seq first second) := by
  rintro start stop ⟨middle, _, two⟩
  exact always middle stop two

theorem blank_not_word (c : Char) (blank : Text.isBlank c = true) : Text.isWordChar c = false :=
  Text.blank_each (fun c => Text.isWordChar c = false) (by decide +kernel) c blank

/-- A name that something has to follow ends where that begins. -/
theorem clean_ahead (body : Pattern) (occupied : mayBeEmpty body = false)
    (apart : ∀ c, mayLead c body = true → Text.isWordChar c = false) :
    AlwaysClean (.ahead body) := by
  rintro start stop ⟨rfl, seen, reached⟩
  rcases reaches_leads body stop seen reached with ⟨_, empty⟩ | ⟨c, rest, same, lead⟩
  · exact absurd (occupied.symm.trans empty) Bool.false_ne_true
  · apply Or.inr
    rw [same]
    exact apart c lead

/-- A greedy repetition at the end takes the whole word. -/
theorem clean_many (accepts : Char → Bool)
    (wide : ∀ c, Text.isWordChar c = true → accepts c = true) (start stop : Spot)
    (found : run (.many (.one accepts)) some start = some stop) : Clean stop := by
  apply Or.inr
  have last := greedy_stop accepts start.before start.rest stop found
  cases head : stop.rest.head? with
  | none => rfl
  | some c =>
      have refused := last c head
      cases wordChar : Text.isWordChar c with
      | false => exact wordChar
      | true => exact absurd (refused.symm.trans (wide c wordChar)) Bool.false_ne_true

theorem ends_clean_seq (first second : Pattern)
    (last : ∀ start stop, run second some start = some stop → Clean stop) :
    EndsClean (.seq first second) := by
  intro start stop found
  obtain ⟨middle, _, two⟩ := run_follows first _ _ _ found
  exact last middle stop two

theorem phrases_clean : ∀ rule ∈ phraseRules.take 16, rule.kind = .keyword ∧ AlwaysClean rule.pattern := by
  intro rule member
  simp only [phraseRules, List.take, List.mem_cons, List.not_mem_nil, or_false] at member
  rcases member with rfl | rfl | rfl | rfl | rfl | rfl | rfl | rfl | rfl | rfl | rfl | rfl | rfl |
    rfl | rfl | rfl
  all_goals
    constructor
    · rfl
    · repeat first | exact clean_edge | refine clean_seq _ _ ?_

theorem names_clean : ∀ rule ∈ nameRules.take 1 ++ nameRules.drop 2,
    (rule.kind = .keyword ∨ rule.kind = .name) ∧ EndsClean rule.pattern := by
  have name_clean : ∀ start stop, run name some start = some stop → Clean stop := by
    intro start stop found
    obtain ⟨middle, _, rest⟩ := run_follows nameLead _ _ _ found
    exact clean_many Text.isWordChar (fun _ wordChar => wordChar) middle stop rest
  have point : ∀ c, mayLead c (sequence [.many blank, char '.', .notAhead Lexeme.digit]) = true →
      Text.isWordChar c = false := by
    intro c lead
    have cases_lead : Text.isBlank c = true ∨ c = '.' := by
      simpa [Pattern.sequence, mayLead, mayBeEmpty, blank, char] using lead
    rcases cases_lead with blank | rfl
    · exact blank_not_word c blank
    · decide +kernel
  have parenthesis : ∀ c, mayLead c (char '(') = true → Text.isWordChar c = false := by
    intro c lead
    have same : c = '(' := by simpa [mayLead, char] using lead
    rw [same]
    decide +kernel
  intro rule member
  simp only [nameRules, List.take, List.drop, List.cons_append, List.nil_append, List.mem_cons,
    List.not_mem_nil, or_false] at member
  rcases member with rfl | rfl | rfl | rfl
  · exact ⟨Or.inl rfl, always_clean_ends _ (clean_seq _ _ clean_edge)⟩
  · exact ⟨Or.inr rfl, always_clean_ends _ (clean_seq _ _ (clean_ahead _ rfl point))⟩
  · exact ⟨Or.inr rfl, ends_clean_seq _ _ name_clean⟩
  · exact ⟨Or.inr rfl, always_clean_ends _ (clean_seq _ _ (clean_ahead _ rfl parenthesis))⟩

theorem anyWord_clean : EndsClean anyWord := by
  refine ends_clean_seq _ _ (clean_many isWordInner fun c wordChar => ?_)
  simp [isWordInner, wordChar]

theorem anyWord_matches (before : Option Char) (c : Char) (rest : List Char)
    (wordChar : Text.isWordChar c = true) : anyWord.stop? ⟨before, c :: rest⟩ ≠ none := by
  simp only [anyWord, stop?, run, Lexeme.wordChar, wordChar, if_true]
  cases rest with
  | nil => simp [greedy]
  | cons d rest =>
      simp only [greedy]
      split <;> simp

def operatorWords : List String :=
  ["DIV", "LIKE", "ILIKE", "RLIKE", "REGEXP"]

/-- A word that begins like a name and is no operator. -/
structure Tame (word : List Char) : Prop where
  lead : ∀ c ∈ word.head?, Identifier.isLead c = true
  free : Text.upper (String.ofList word) ∉ operatorWords

-- A quantifier over the characters of a list is decided by way of the list, not of all characters.
instance (word : List Char) : Decidable (Tame word) :=
  decidable_of_iff (word.head?.all Identifier.isLead = true ∧
      Text.upper (String.ofList word) ∉ operatorWords)
    ⟨fun ⟨lead, free⟩ => ⟨(Option.all_eq_true _ _).mp lead, free⟩,
      fun tame => ⟨(Option.all_eq_true _ _).mpr tame.lead, tame.free⟩⟩

/-- Tame words with spaces and line feeds between them. -/
structure Soft (run : List Char) : Prop where
  plain : ∀ c ∈ run, Identifier.isInner c = true ∨ isGap c = true
  tame : ∀ word ∈ Text.wordRuns run, Tame word

theorem gap_blank (c : Char) (gap : isGap c = true) : Text.isBlank c = true := by
  simp only [isGap, Bool.or_eq_true, beq_iff_eq] at gap
  rcases gap with rfl | rfl <;> rfl

theorem soft_part (first second : List Char) (apart : Text.Apart first second)
    (soft : Soft (first ++ second)) : Soft first ∧ Soft second := by
  obtain ⟨plain, tame⟩ := soft
  rw [Text.word_runs_append first second apart] at tame
  exact ⟨⟨fun c member => plain c (List.mem_append_left _ member),
      fun word member => tame word (List.mem_append_left _ member)⟩,
    ⟨fun c member => plain c (List.mem_append_right _ member),
      fun word member => tame word (List.mem_append_right _ member)⟩⟩

theorem soft_append (first second : List Char) (apart : Text.Apart first second)
    (softFirst : Soft first) (softSecond : Soft second) : Soft (first ++ second) := by
  constructor
  · intro c member
    exact (List.mem_append.mp member).elim (softFirst.plain c) (softSecond.plain c)
  · intro word member
    rw [Text.word_runs_append first second apart] at member
    exact (List.mem_append.mp member).elim (softFirst.tame word) (softSecond.tame word)

/-- A cut that is not inside a word. -/
theorem clean_apart (first second tail : List Char) (before : Option Char)
    (plain : ∀ c ∈ first ++ second, Identifier.isInner c = true ∨ isGap c = true)
    (clean : Clean ⟨first.getLast?.or before, second ++ tail⟩) : Text.Apart first second := by
  have gap : ∀ c ∈ first ++ second, Text.isWordChar c = false → Text.isBlank c = true := by
    intro c member other
    rcases plain c member with inner | gap
    · exact absurd (other.symm.trans (plain_inner c inner).wordChar) Bool.false_ne_true
    · exact gap_blank c gap
  rcases clean with other | other
  · refine Or.inr (Or.inr (Or.inl fun c last => ?_))
    have inFirst : c ∈ first := List.mem_of_getLast? last
    apply gap c (List.mem_append_left _ inFirst)
    rw [Option.mem_def] at last
    simpa [last, isWordAt] using other
  · cases second with
    | nil => exact Or.inr (Or.inl rfl)
    | cons c second =>
        refine Or.inr (Or.inr (Or.inr fun d head => ?_))
        cases head
        exact gap c (by simp) (by simpa [isWordAt] using other)

end TableScript.Lexeme
