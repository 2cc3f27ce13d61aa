import TableScript.Script
import TableScript.Proofs.Lexing.Runs

/-!
Where a run of plain words ends. No match that begins at a word of it goes on in the mark behind
it, nor in the number or quoted text behind it if there is a gap between, and no match of a run
is an operator.
-/

namespace TableScript.Lexeme

open Pattern

theorem reaches_sequence (first : Pattern) (others : List Pattern) (start stop : Spot)
    (reached : Reaches (sequence (first :: others)) start stop) :
    ∃ middle, Reaches first start middle ∧ Reaches (sequence others) middle stop := by
  cases others with
  | nil => exact ⟨stop, reached, rfl⟩
  | cons second others => exact reached

theorem reaches_choice (options : List Pattern) (start stop : Spot)
    (reached : Reaches (choice options) start stop) :
    ∃ option ∈ options, Reaches option start stop := by
  induction options with
  | nil =>
      obtain ⟨c, rest, _, accepted, _⟩ := reached
      cases accepted
  | cons first options ih =>
      cases options with
      | nil => exact ⟨first, by simp, reached⟩
      | cons second options =>
          rcases reached with one | other
          · exact ⟨first, by simp, one⟩
          · obtain ⟨option, member, two⟩ := ih other
            exact ⟨option, List.mem_cons_of_mem _ member, two⟩

/-- Characters that spell a word. -/
def Spells (word spelled : List Char) : Prop :=
  List.Forall₂ (fun letter c => readsAs letter c = true) word spelled

theorem reaches_letters (word : List Char) (start stop : Spot)
    (reached : Reaches (sequence (word.map fun letter => .one (readsAs letter))) start stop) :
    ∃ spelled, start.rest = spelled ++ stop.rest ∧ stop.before = spelled.getLast?.or start.before ∧
      Spells word spelled := by
  induction word generalizing start with
  | nil =>
      cases reached
      exact ⟨[], rfl, rfl, .nil⟩
  | cons letter word ih =>
      obtain ⟨middle, ⟨c, rest, same, accepted, rfl⟩, others⟩ := reaches_sequence _ _ start stop reached
      obtain ⟨spelled, split, before, spells⟩ := ih _ others
      refine ⟨c :: spelled, by rw [same, List.cons_append, ← split], ?_, .cons accepted spells⟩
      rw [before, List.getLast?_cons]
      cases spelled.getLast? <;> rfl

theorem reaches_blanks (start stop : Spot) (reached : Reaches blanks start stop) :
    ∃ c, stop.before = some c ∧ Text.isBlank c = true := by
  obtain ⟨passed, split, before, each⟩ := reaches_passes blanks start stop reached
  have shorter := reaches_shorter blanks rfl start stop reached
  rcases List.eq_nil_or_concat passed with rfl | ⟨front, c, rfl⟩
  · rw [split] at shorter
    exact absurd shorter (Nat.lt_irrefl _)
  · refine ⟨c, by simpa using before, ?_⟩
    have taken := each c (by simp)
    simpa [blanks, atLeastOnce, blank, takes] using taken

theorem readsAs_upper (letter c : Char) (ascii : c.toNat < 128) (reads : readsAs letter c = true) :
    c.toUpper = letter := by
  simp only [readsAs, Bool.or_eq_true, Bool.and_eq_true, beq_iff_eq] at reads
  rcases reads with ((same | ⟨_, code | code⟩) | ⟨_, code⟩) | ⟨_, code⟩
  · exact same
  all_goals omega

theorem plain_ascii (c : Char) (plain : Identifier.isInner c = true ∨ isGap c = true) :
    c.toNat < 128 := by
  rcases plain with inner | gap
  · exact (plain_inner c inner).ascii
  · simp only [isGap, Bool.or_eq_true, beq_iff_eq] at gap
    rcases gap with rfl | rfl <;> decide

theorem spells_upper (word spelled : List Char) (spells : Spells word spelled)
    (plain : ∀ c ∈ spelled, Identifier.isInner c = true ∨ isGap c = true) :
    spelled.map Char.toUpper = word := by
  induction spells with
  | nil => rfl
  | @cons letter c word spelled reads _ ih =>
      obtain ⟨head, others⟩ := List.forall_mem_cons.mp plain
      rw [List.map_cons, ih others, readsAs_upper letter c (plain_ascii c head) reads]

/-- A soft run is no operator as a whole. -/
theorem soft_not_operator (run : List Char) (soft : Soft run) :
    Text.upper (String.ofList run) ∉ operatorWords := by
  intro operator
  have upper := Text.upper_ascii run fun c member => plain_ascii c (soft.plain c member)
  have absent : ∀ word ∈ operatorWords, word ≠ "" ∧ ' '.toUpper ∉ word.toList ∧
      '\n'.toUpper ∉ word.toList := by
    decide
  obtain ⟨named, space, lineFeed⟩ := absent _ operator
  have solid : ∀ c ∈ run, Text.isBlank c = false := by
    intro c member
    rcases soft.plain c member with inner | gap
    · exact (plain_inner c inner).solid
    · have inWord : c.toUpper ∈ (Text.upper (String.ofList run)).toList := by
        rw [upper, String.toList_ofList]
        exact List.mem_map_of_mem member
      simp only [isGap, Bool.or_eq_true, beq_iff_eq] at gap
      rcases gap with rfl | rfl
      · exact absurd inWord space
      · exact absurd inWord lineFeed
  have occupied : run ≠ [] := by
    rintro rfl
    exact named upper
  have tame := soft.tame run
    (by rw [Text.word_runs_solid run solid occupied]; exact List.mem_singleton_self _)
  exact tame.free operator

/-- No part of a soft run that is cut off between words spells an operator. -/
theorem operator_unspelled (word : String) (operator : word ∈ operatorWords)
    (front spelled left : List Char) (soft : Soft (front ++ (spelled ++ left)))
    (apartFront : Text.Apart front (spelled ++ left)) (apartLeft : Text.Apart spelled left)
    (spells : Spells word.toList spelled) : False := by
  have softSpelled := (soft_part spelled left apartLeft (soft_part front _ apartFront soft).2).1
  have same := spells_upper word.toList spelled spells softSpelled.plain
  have upper : Text.upper (String.ofList spelled) = word := by
    rw [Text.upper_ascii spelled fun c member => plain_ascii c (softSpelled.plain c member), same,
      String.ofList_toList]
  exact soft_not_operator spelled softSpelled (upper ▸ operator)

/-- What may follow a run. -/
def closers : List Char :=
  stoppers ++ ['.', '-', '\''] ++ ['0', '1', '2', '3', '4', '5', '6', '7', '8', '9']

/-- Numbers and texts in single quotes are held off from a run by a gap, and some words are not
the last ones before them: `GO 5` is one lexeme, and `AT TIME ZONE 'x'` is another. -/
def HeldOff (run : List Char) : Prop :=
  (∀ c ∈ run.getLast?, isGap c = true) ∧
    ∀ word ∈ (Text.wordRuns run).getLast?, Text.upper (String.ofList word) ∉ ["GO", "ZONE"]

/-- A run that does not go on in what follows it. -/
structure Ends (run tail : List Char) : Prop where
  closed : ∀ c ∈ tail.head?, c ∈ closers
  heldOff : ∀ c ∈ tail.head?, c ∈ stoppers ∨ c = '.' ∨ HeldOff run

theorem gapped_run (run : List Char) (occupied : run ≠ []) (gapped : ∀ c ∈ run.getLast?, isGap c = true) :
    ∃ front g, run = front ++ [g] ∧ isGap g = true := by
  rcases List.eq_nil_or_concat run with rfl | ⟨front, g, rfl⟩
  · exact absurd rfl occupied
  · exact ⟨front, g, List.concat_eq_append, gapped g (by simp)⟩

theorem closed_ends (run tail : List Char) (closed : Closed tail) : Ends run tail where
  closed := fun c head => List.mem_append_left _ (List.mem_append_left _ (closed c head))
  heldOff := fun c head => Or.inl (closed c head)

/-- The end of a run is the end of its last part. -/
theorem ends_behind (front run tail : List Char) (apart : Text.Apart front run) (occupied : run ≠ [])
    (ends : Ends (front ++ run) tail) : Ends run tail := by
  refine ⟨ends.closed, fun c head => (ends.heldOff c head).imp_right (Or.imp_right ?_)⟩
  rintro ⟨gap, words⟩
  refine ⟨fun d last => gap d ?_, fun word last => words word ?_⟩
  · rw [List.getLast?_append_of_ne_nil front occupied]
    exact last
  · rw [Text.word_runs_append front run apart, List.getLast?_append, last]
    rfl

theorem operators_closed : ∀ c ∈ closers, takes c negation = false ∧
    ∀ word ∈ operatorWords, takes c (.seq negation (letters word)) = false :=
  Text.each_char _ _ (by decide +kernel)

theorem negation_apart (start middle : Spot) (run tail : List Char) (rest : start.rest = run ++ tail)
    (closed : ∀ c ∈ tail.head?, c ∈ closers) (reached : Reaches negation start middle) :
    ∃ front left, run = front ++ left ∧ middle.rest = left ++ tail ∧ Text.Apart front left := by
  have untaken : ∀ c ∈ tail.head?, takes c negation = false :=
    fun c head => (operators_closed c (closed c head)).1
  obtain ⟨passed, left, split, rest', before⟩ :=
    reaches_inside negation start middle run tail reached rest untaken
  refine ⟨passed, left, split, rest', ?_⟩
  rcases reached with ⟨_, _, spaced⟩ | same
  · obtain ⟨c, last, blank⟩ := reaches_blanks _ middle spaced
    rcases List.eq_nil_or_concat passed with rfl | ⟨front, d, rfl⟩
    · exact Or.inl rfl
    · refine Or.inr (Or.inr (Or.inl fun e final => ?_))
      rw [last] at before
      simp only [List.concat_eq_append, List.getLast?_concat, Option.some_or, Option.some.injEq,
        Option.mem_def] at before final
      rw [← final, ← before]
      exact blank
  · cases same
    rw [rest, split, List.append_assoc] at rest'
    exact Or.inl (List.append_left_eq_self.mp rest')

/-- No operator word, perhaps behind the word NOT, begins a soft run. -/
theorem operator_unreached (word : String) (operator : word ∈ operatorWords)
    (start middle stop : Spot) (run tail : List Char) (rest : start.rest = run ++ tail)
    (soft : Soft run) (closed : ∀ c ∈ tail.head?, c ∈ closers) (negated : Reaches negation start middle)
    (spelled : Reaches (letters word) middle stop) (clean : Clean stop) : False := by
  obtain ⟨front, behind, split, rest', apart⟩ := negation_apart start middle run tail rest closed negated
  obtain ⟨passed, left, inside, rest'', _⟩ :=
    reaches_inside (.seq negation (letters word)) start stop run tail ⟨middle, negated, spelled⟩ rest
      fun c head => (operators_closed c (closed c head)).2 word operator
  obtain ⟨chars, spelledRest, before, spells⟩ := reaches_letters word.toList middle stop spelled
  have same : behind = chars ++ left := by
    rw [rest', rest'', ← List.append_assoc] at spelledRest
    exact List.append_cancel_right spelledRest
  subst same
  subst split
  have softBehind := (soft_part front _ apart soft).2
  have cut : Text.Apart chars left := by
    apply clean_apart chars left tail middle.before softBehind.plain
    rwa [← before, ← rest'']
  exact operator_unspelled word operator front chars left soft apart cut spells

theorem likeness_unreached (start stop : Spot) (run tail : List Char)
    (rest : start.rest = run ++ tail) (soft : Soft run) (closed : ∀ c ∈ tail.head?, c ∈ closers)
    (reached : Reaches likeness start stop) : False := by
  obtain ⟨middle, negated, reached⟩ := reaches_sequence _ _ start stop reached
  obtain ⟨last, chosen, edge⟩ := reaches_sequence _ _ middle stop reached
  obtain ⟨option, member, spelled⟩ := reaches_choice _ middle last chosen
  have clean : Clean last := by
    have clean := clean_edge last stop edge
    rwa [edge.1] at clean
  obtain ⟨word, operator, rfl⟩ := List.mem_map.mp member
  have known : ∀ word ∈ ["LIKE", "ILIKE", "RLIKE"], word ∈ operatorWords := by decide
  exact operator_unreached word (known word operator) start middle last run tail rest soft closed
    negated spelled clean

theorem regularLikeness_unreached (start stop : Spot) (run tail : List Char)
    (rest : start.rest = run ++ tail) (soft : Soft run) (closed : ∀ c ∈ tail.head?, c ∈ closers)
    (reached : Reaches regularLikeness start stop) : False := by
  obtain ⟨middle, negated, last, spelled, other, more, edge⟩ := reached
  refine operator_unreached "REGEXP" (by decide) start middle last run tail rest soft closed negated
    spelled ?_
  rcases more with ⟨behind, spaced, _⟩ | rfl
  · rcases reaches_leads blanks last behind spaced with ⟨_, empty⟩ | ⟨c, after, same, lead⟩
    · cases empty
    · apply Or.inr
      have blank : Text.isBlank c = true := by
        simpa [blanks, atLeastOnce, Lexeme.blank, mayLead, mayBeEmpty] using lead
      rw [same]
      exact blank_not_word c blank
  · have clean := clean_edge _ stop edge
    rwa [edge.1] at clean

/-- A word that is spelled at the end of a run is its last one. -/
theorem spelled_last (word : String) (occupied : word ≠ "") (solid : ∀ c ∈ word.toList, isGap c = false)
    (front spelled gaps : List Char) (soft : Soft (front ++ (spelled ++ gaps)))
    (apart : Text.Apart front (spelled ++ gaps)) (blanks : ∀ c ∈ gaps, Text.isBlank c = true)
    (spells : Spells word.toList spelled) :
    ∃ last ∈ (Text.wordRuns (front ++ (spelled ++ gaps))).getLast?,
      Text.upper (String.ofList last) = word := by
  have plain : ∀ c ∈ spelled, Identifier.isInner c = true ∨ isGap c = true :=
    fun c member => soft.plain c (by simp [member])
  have same := spells_upper word.toList spelled spells plain
  have named : spelled ≠ [] := by
    rintro rfl
    exact occupied (String.toList_eq_nil_iff.mp same.symm)
  have inner : ∀ c ∈ spelled, Text.isBlank c = false := by
    intro c member
    rcases plain c member with inner | gap
    · exact (plain_inner c inner).solid
    · have upper : isGap c.toUpper = true := by
        simp only [isGap, Bool.or_eq_true, beq_iff_eq] at gap
        rcases gap with rfl | rfl <;> rfl
      have other := solid c.toUpper (same ▸ List.mem_map_of_mem member)
      exact absurd (other.symm.trans upper) Bool.false_ne_true
  have gapless : Text.wordRuns gaps = [] := by
    clear soft apart
    induction gaps with
    | nil => rfl
    | cons c gaps ih =>
        obtain ⟨head, others⟩ := List.forall_mem_cons.mp blanks
        rw [Text.word_runs_blank c gaps head, ih others]
  have behind : Text.Apart spelled gaps := by
    cases gaps with
    | nil => exact Or.inr (Or.inl rfl)
    | cons c gaps => exact Or.inr (Or.inr (Or.inr (by simpa using (List.forall_mem_cons.mp blanks).1)))
  refine ⟨spelled, ?_, ?_⟩
  · rw [Text.word_runs_append front _ apart, Text.word_runs_append spelled gaps behind, gapless,
      Text.word_runs_solid spelled inner named]
    simp
  · rw [Text.upper_ascii spelled fun c member => plain_ascii c (plain c member), same,
      String.ofList_toList]

def goRule : Rule :=
  ⟨.keyword, sequence [letters "GO", blank, digits, wordEdge]⟩

theorem go_closed : ∀ c ∈ closers, takes c (.seq (letters "GO") blank) = false :=
  Text.each_char _ _ (by decide +kernel)

theorem plain_digitless (c : Char) (plain : Identifier.isLead c = true ∨ isGap c = true) :
    Text.isDecimalDigit c = false := by
  have each : ∀ c : Char, c.toNat < 128 → Identifier.isLead c = true ∨ isGap c = true →
      Text.isDecimalDigit c = false :=
    Text.ascii_cases _ (by decide +kernel)
  exact each c (plain_ascii c (plain.imp_left (lead_inner c))) plain

theorem go_unreached (start stop : Spot) (run tail : List Char) (rest : start.rest = run ++ tail)
    (soft : Soft run) (closed : ∀ c ∈ tail.head?, c ∈ closers) (held : HeldOff run)
    (reached : Reaches goRule.pattern start stop) : False := by
  obtain ⟨middle, spelled, last, spaced, _, number, _⟩ := reached
  obtain ⟨passed, left, split, rest', _⟩ := reaches_inside (.seq (letters "GO") blank) start last run
    tail ⟨middle, spelled, spaced⟩ rest fun c head => go_closed c (closed c head)
  obtain ⟨word, wordRest, _, spells⟩ := reaches_letters "GO".toList start middle spelled
  obtain ⟨b, more, gap, blank, rfl⟩ := spaced
  have whole : run = word ++ b :: left := by
    have parts : run ++ tail = (word ++ b :: left) ++ tail := by
      rw [← rest, wordRest, gap, show more = left ++ tail from rest']
      simp
    exact List.append_cancel_right parts
  rcases reaches_leads digits _ _ number with ⟨_, empty⟩ | ⟨d, _, same, lead⟩
  · cases empty
  have digit : Text.isDecimalDigit d = true := by
    simpa [digits, atLeastOnce, Lexeme.digit, mayLead, mayBeEmpty] using lead
  cases left with
  | nil =>
      obtain ⟨final, ending, upper⟩ := spelled_last "GO" (by decide)
        (Text.each_char _ _ (by decide)) [] word [b] (by simpa [whole] using soft) (Or.inl rfl)
        (by simpa using blank) spells
      exact held.2 final (by simpa [whole] using ending) (by simp [upper])
  | cons e left =>
      -- A word does not begin with a digit.
      have first : e = d := by
        rw [show more = (e :: left) ++ tail from rest'] at same
        exact (List.cons.inj same).1
      have part := (soft_part (word ++ [b]) (e :: left)
        (Or.inr (Or.inr (Or.inl (by simpa using blank)))) (by simpa [whole] using soft)).2
      have plain : Identifier.isLead e = true ∨ isGap e = true := by
        rcases part.plain e (by simp) with inner | gap
        · obtain ⟨more, others, words⟩ := Text.word_runs_head e left (plain_inner e inner).solid
          exact Or.inl ((part.tame (e :: more) (by simp [words])).lead e rfl)
        · exact Or.inr gap
      rw [first] at plain
      exact absurd ((plain_digitless d plain).symm.trans digit) Bool.false_ne_true

/-- The words of a time zone before its name. -/
def zoneWords : List Pattern :=
  [blanks, phrase ["TIME", "ZONE"], blanks]

theorem zone_quoteless : takes '\'' (sequence zoneWords) = false := by
  decide +kernel

theorem quoted_leads (start stop : Spot)
    (reached : Reaches (sequence [char '\'', atLeastOnce (noneOf "'"), char '\'']) start stop) :
    start.rest.head? = some '\'' := by
  obtain ⟨_, ⟨c, rest, same, quote, _⟩, _⟩ := reached
  rw [same]
  simpa using quote

/-- The words of a time zone up to the end of a run end with the word ZONE. -/
theorem zone_last (start middle stop : Spot) (run tail : List Char) (rest : start.rest = run ++ tail)
    (soft : Soft run) (option : Pattern) (before : Reaches option start middle)
    (words : Reaches (sequence zoneWords) middle stop) (ended : stop.rest = tail) :
    ∃ last ∈ (Text.wordRuns run).getLast?, Text.upper (String.ofList last) = "ZONE" := by
  obtain ⟨one, first, two, ⟨three, time, four, second, zone⟩, third⟩ := words
  obtain ⟨spelled, spelledRest, _, spells⟩ := reaches_letters "ZONE".toList four two zone
  obtain ⟨gaps, gapsRest, _, taken⟩ := reaches_passes blanks two stop third
  have blank : ∀ c ∈ gaps, Text.isBlank c = true := by
    intro c member
    have := taken c member
    simpa [blanks, atLeastOnce, Lexeme.blank, takes] using this
  -- All that stands before the word is closed by blanks.
  obtain ⟨front, frontRest, frontBefore, _⟩ : Passes (fun _ => True) start four := by
    have one_passed := passes_mono (fun _ _ => trivial) (reaches_passes option start middle before)
    have two_passed := passes_mono (fun _ _ => trivial) (reaches_passes _ middle one first)
    have three_passed := passes_mono (fun _ _ => trivial) (reaches_passes _ one three time)
    have four_passed := passes_mono (fun _ _ => trivial) (reaches_passes _ three four second)
    exact passes_trans one_passed (passes_trans two_passed (passes_trans three_passed four_passed))
  obtain ⟨b, last, gap⟩ := reaches_blanks three four second
  have apart : Text.Apart front (spelled ++ gaps) := by
    rcases List.eq_nil_or_concat front with rfl | ⟨more, c, rfl⟩
    · exact Or.inl rfl
    · refine Or.inr (Or.inr (Or.inl fun d final => ?_))
      rw [last] at frontBefore
      simp only [List.concat_eq_append, List.getLast?_concat, Option.some_or, Option.some.injEq,
        Option.mem_def] at frontBefore final
      rw [← final, ← frontBefore]
      exact gap
  have whole : run = front ++ (spelled ++ gaps) := by
    have parts : run ++ tail = (front ++ (spelled ++ gaps)) ++ tail := by
      rw [← rest, frontRest, spelledRest, gapsRest, ended]
      simp
    exact List.append_cancel_right parts
  rw [whole] at soft ⊢
  exact spelled_last "ZONE" (by decide) (Text.each_char _ _ (by decide)) front spelled gaps soft apart
    blank spells

theorem quote_unsoft (run : List Char) (soft : Soft run) : '\'' ∉ run := by
  intro member
  rcases soft.plain '\'' member with inner | gap
  · cases inner
  · cases gap

theorem timeZone_unreached (start stop : Spot) (run tail : List Char)
    (rest : start.rest = run ++ tail) (soft : Soft run) (occupied : run ≠ []) (ends : Ends run tail)
    (reached : Reaches timeZone start stop) : False := by
  obtain ⟨middle, zone, quote⟩ := reached
  obtain ⟨last, chosen, words⟩ := reaches_sequence _ _ start middle zone
  have opened := quoted_leads middle stop quote
  by_cases behind : '\'' ∈ tail.head?
  · -- Here the run ends with a gap, and no word goes on from there.
    obtain ⟨gapped, unlike⟩ : HeldOff run := by
      rcases ends.heldOff _ behind with stopper | dot | held
      · exact absurd stopper (by decide)
      · cases dot
      · exact held
    obtain ⟨front, g, rfl, gap⟩ := gapped_run run occupied gapped
    have gapless : ∀ c, isGap c = true → takes c (anyOf ["AT", "WITH'"]) = false := by
      intro c gap
      simp only [isGap, Bool.or_eq_true, beq_iff_eq] at gap
      rcases gap with rfl | rfl <;> decide +kernel
    obtain ⟨passed, left, split, rest', _⟩ := reaches_inside _ start last front (g :: tail) chosen
      (by rw [rest]; simp) (by rintro c ⟨rfl⟩; exact gapless g gap)
    obtain ⟨passed', left', split', rest'', _⟩ := reaches_inside (sequence zoneWords) last middle
      (left ++ [g]) tail words (by rw [rest']; simp)
      (by intro c head; rw [Option.mem_unique head behind]; exact zone_quoteless)
    have empty : left' = [] := by
      cases left' with
      | nil => rfl
      | cons e left' =>
          rw [rest''] at opened
          obtain rfl : e = '\'' := by simpa using opened
          refine absurd ?_ (quote_unsoft _ soft)
          rw [split, List.append_assoc, split']
          simp
    rw [empty] at rest''
    obtain ⟨final, ending, upper⟩ :=
      zone_last start last middle (front ++ [g]) tail rest soft _ chosen words rest''
    exact unlike final ending (by simp [upper])
  · have other : ∀ c, c ≠ '\'' →
        refuses c (sequence [char '\'', atLeastOnce (noneOf "'"), char '\'']) = true := by
      intro c other
      simp [refuses, Pattern.sequence, mayBeEmpty, mayLead, char, other]
    have untaken : ∀ c ∈ closers, c = '\'' ∨
        takes c (sequence [anyOf ["AT", "WITH'"], blanks, phrase ["TIME", "ZONE"], blanks]) = false :=
      Text.each_char _ _ (by decide +kernel)
    have unquoted : ∀ c ∈ tail.head?, c ≠ '\'' := fun c head same => behind (same ▸ head)
    exact unreached_after _ _ start middle stop run tail rest zone quote
      (fun c head => (untaken c (ends.closed c head)).resolve_left (unquoted c head)) rfl
      (fun c member => other c fun same => quote_unsoft run soft (same ▸ member))
      (fun c head => other c (unquoted c head))

/-- The rules for words that take no number behind a gap. -/
def wordwiseRules : List Rule :=
  nameRules ++ phraseRules.take 14 ++ (phraseRules.drop 15).take 1 ++ phraseRules.drop 17 ++
    [⟨.word, anyWord⟩]

theorem word_rule_cases (rule : Rule) (member : rule ∈ wordRules) :
    rule = goRule ∨ rule ∈ wordwiseRules := by
  have phrases : phraseRules.take 16 =
      phraseRules.take 14 ++ goRule :: (phraseRules.drop 15).take 1 := rfl
  simp only [wordRules, phrases, List.mem_append, List.mem_cons] at member
  simp only [wordwiseRules, List.mem_append, List.mem_singleton, List.not_mem_nil, or_false] at member ⊢
  tauto

theorem words_barred : ∀ rule ∈ wordRules, ∀ c ∈ stoppers ++ ['.'], takes c rule.pattern = false := by
  have each : (wordRules.all fun rule =>
      (stoppers ++ ['.']).all fun c => !takes c rule.pattern) = true := by
    decide +kernel
  intro rule member c barred
  simpa using List.all_eq_true.mp (List.all_eq_true.mp each rule member) c barred

theorem wordwise_closed : ∀ rule ∈ wordwiseRules,
    (∀ c ∈ closers, takes c rule.pattern = false) ∨
      takes ' ' rule.pattern = false ∧ takes '\n' rule.pattern = false := by
  have each : (wordwiseRules.all fun rule => (closers.all fun c => !takes c rule.pattern) ||
      (!takes ' ' rule.pattern && !takes '\n' rule.pattern)) = true := by
    decide +kernel
  intro rule member
  simpa using List.all_eq_true.mp each rule member

/-- A match of a rule for words that begins in a run ends there. -/
theorem words_inside (rule : Rule) (member : rule ∈ wordRules) (start stop : Spot)
    (run tail : List Char) (rest : start.rest = run ++ tail) (occupied : run ≠ []) (soft : Soft run)
    (ends : Ends run tail) (reached : Reaches rule.pattern start stop) :
    ∃ passed left, run = passed ++ left ∧ stop.rest = left ++ tail ∧
      stop.before = passed.getLast?.or start.before := by
  cases tail with
  | nil => exact reaches_inside rule.pattern start stop run [] reached rest (by simp)
  | cons c tail =>
      have untaken : takes c rule.pattern = false → _ := fun untaken =>
        reaches_inside rule.pattern start stop run (c :: tail) reached rest
          (by rintro d ⟨rfl⟩; exact untaken)
      rcases ends.heldOff c rfl with stopper | dot | held
      · exact untaken (words_barred rule member c (List.mem_append_left _ stopper))
      · exact untaken (words_barred rule member c (by simp [dot]))
      · rcases word_rule_cases rule member with rfl | wordwise
        · exact (go_unreached start stop run (c :: tail) rest soft ends.closed held reached).elim
        · rcases wordwise_closed rule wordwise with closed | gapless
          · exact untaken (closed c (ends.closed c rfl))
          · obtain ⟨front, g, rfl, gap⟩ := gapped_run run occupied held.1
            have untaken : takes g rule.pattern = false := by
              simp only [isGap, Bool.or_eq_true, beq_iff_eq] at gap
              rcases gap with rfl | rfl
              · exact gapless.1
              · exact gapless.2
            obtain ⟨passed, left, split, rest', before⟩ := reaches_inside rule.pattern start stop front
              (g :: c :: tail) reached (by rw [rest]; simp) (by rintro d ⟨rfl⟩; exact untaken)
            exact ⟨passed, left ++ [g], by rw [split]; simp, by rw [rest']; simp, before⟩

end TableScript.Lexeme
