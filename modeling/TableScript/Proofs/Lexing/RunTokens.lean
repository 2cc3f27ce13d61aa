import TableScript.Proofs.Lexing.RunEnds

/-!
The tokens of a run of plain words are its words. Each lexeme takes one or more whole words, so
the run is used up from the left, and what follows it is scanned as if the run were not there.
-/

namespace TableScript.Lexeme

open Pattern

theorem rule_cases (rule : Rule) (member : rule ∈ rules) :
    rule ∈ foreignRules ∨ rule ∈ nameRules.take 1 ++ nameRules.drop 2 ∨
      rule ∈ phraseRules.take 16 ∨ rule = ⟨.word, anyWord⟩ ∨ rule.pattern = timeZone ∨
      rule.pattern = likeness ∨ rule.pattern = regularLikeness := by
  have names : nameRules = nameRules.take 1 ++ ((nameRules.drop 1).take 1 ++ nameRules.drop 2) := rfl
  have phrases : phraseRules = phraseRules.take 16 ++
      [⟨.keyword, timeZone⟩, ⟨.operator, likeness⟩, ⟨.operator, regularLikeness⟩] := rfl
  have others : otherRules = ⟨.word, anyWord⟩ :: otherRules.drop 1 := rfl
  simp only [foreignRules, List.mem_append]
  simp only [rules, List.mem_append] at member
  rcases member with (((((space | mark) | name) | number) | quote) | phrase) | other
  · exact Or.inl (by simp [space])
  · exact Or.inl (by simp [mark])
  · rw [names, List.mem_append, List.mem_append] at name
    rcases name with first | second | later
    · exact Or.inr (Or.inl (Or.inl first))
    · exact Or.inl (Or.inr second)
    · exact Or.inr (Or.inl (Or.inr later))
  · exact Or.inl (by simp [number])
  · exact Or.inl (by simp [quote])
  · rw [phrases, List.mem_append] at phrase
    rcases phrase with first | last
    · exact Or.inr (Or.inr (Or.inl first))
    · simp only [List.mem_cons, List.not_mem_nil, or_false] at last
      rcases last with rfl | rfl | rfl <;> simp
  · rw [others, List.mem_cons] at other
    rcases other with rfl | later
    · simp
    · exact Or.inl (Or.inl (Or.inr later))

/-- A match that begins with a word of a soft run takes whole words of it. -/
theorem soft_match (before : Option Char) (c : Char) (rest tail : List Char)
    (lead : Identifier.isLead c = true) (soft : Soft (c :: rest)) (ends : Ends (c :: rest) tail)
    (rule : Rule) (member : rule ∈ rules) (stop : Spot)
    (found : rule.pattern.stop? ⟨before, c :: (rest ++ tail)⟩ = some stop) :
    (rule.kind = .keyword ∨ rule.kind = .name ∨ rule.kind = .word) ∧
      ∃ passed left, c :: rest = passed ++ left ∧ stop.rest = left ++ tail ∧ passed ≠ [] ∧
        Text.Apart passed left := by
  have reached := stop_reached rule.pattern _ stop found
  have whole : rule ∈ wordRules → EndsClean rule.pattern → ∃ passed left,
      c :: rest = passed ++ left ∧ stop.rest = left ++ tail ∧ passed ≠ [] ∧
        Text.Apart passed left := by
    intro word clean
    obtain ⟨passed, left, split, rest', before'⟩ := words_inside rule word _ stop (c :: rest) tail rfl
      (by simp) soft ends reached
    have shorter := reaches_shorter rule.pattern (words_occupied rule word) _ stop reached
    refine ⟨passed, left, split, rest', ?_, ?_⟩
    · rintro rfl
      rw [rest', ← List.cons_append, split] at shorter
      exact absurd shorter (Nat.lt_irrefl _)
    · apply clean_apart passed left tail before (split ▸ soft.plain)
      rw [← rest', ← before']
      exact clean _ stop found
  rcases rule_cases rule member with foreign | name | phrase | rfl | same | same | same
  · have refused := List.all_eq_true.mp (foreign_refused c lead) rule foreign
    rw [stop_refused rule.pattern before c _ refused] at found
    cases found
  · obtain ⟨kind, clean⟩ := names_clean rule name
    refine ⟨kind.imp_right Or.inl, whole ?_ clean⟩
    have inNames : rule ∈ nameRules := by
      rcases List.mem_append.mp name with first | later
      · exact List.mem_of_mem_take first
      · exact List.mem_of_mem_drop later
    simp [wordRules, inNames]
  · obtain ⟨kind, always⟩ := phrases_clean rule phrase
    exact ⟨Or.inl kind, whole (by simp [wordRules, phrase]) (always_clean_ends _ always)⟩
  · exact ⟨Or.inr (Or.inr rfl), whole (by simp [wordRules]) anyWord_clean⟩
  · exact (timeZone_unreached _ stop (c :: rest) tail rfl soft (by simp) ends (same ▸ reached)).elim
  · exact (likeness_unreached _ stop (c :: rest) tail rfl soft ends.closed (same ▸ reached)).elim
  · exact (regularLikeness_unreached _ stop (c :: rest) tail rfl soft ends.closed (same ▸ reached)).elim

theorem firstRule_none (spot : Spot) (candidates : List Rule)
    (nothing : firstRule? spot candidates = none) :
    ∀ rule ∈ candidates, rule.pattern.stop? spot = none := by
  induction candidates with
  | nil => simp
  | cons rule candidates ih =>
      simp only [firstRule?] at nothing
      split at nothing
      · cases nothing
      case h_2 none => exact List.forall_mem_cons.mpr ⟨none, ih nothing⟩

theorem soft_measure [TagReading] (before : Option Char) (c : Char) (rest tail : List Char)
    (lead : Identifier.isLead c = true) (soft : Soft (c :: rest)) (ends : Ends (c :: rest) tail) :
    ∃ kind passed left, c :: rest = passed ++ left ∧ passed ≠ [] ∧ Text.Apart passed left ∧
      (kind = Kind.keyword ∨ kind = Kind.name ∨ kind = Kind.word) ∧
      measure ⟨before, c :: (rest ++ tail)⟩ = (kind, passed.length) := by
  have inner := plain_inner c (lead_inner c lead)
  have span := span_none before c (rest ++ tail) (by rintro rfl; exact inner.unmarked (by simp))
    (by rintro rfl; exact inner.unmarked (by simp))
  cases first : firstRule? ⟨before, c :: (rest ++ tail)⟩ rules with
  | none =>
      have none := firstRule_none _ rules first ⟨.word, anyWord⟩ (by simp [rules, otherRules])
      exact absurd none (anyWord_matches before c _ inner.wordChar)
  | some found =>
      obtain ⟨rule, member, stop, matched, rfl⟩ := firstRule_from _ rules found first
      obtain ⟨kind, passed, left, split, rest', occupied, apart⟩ :=
        soft_match before c rest tail lead soft ends rule member stop matched
      refine ⟨rule.kind, passed, left, split, occupied, apart, kind, ?_⟩
      rw [measure, span, first, rest', ← List.cons_append, split]
      simp

/-- The words of a text as tokens. -/
def wordTokens (run : List Char) : List Token :=
  (Text.wordRuns run).map fun word => ⟨.word, String.ofList word⟩

theorem wordsOf_eq (run : List Char) : Token.wordsOf (String.ofList run) = wordTokens run := by
  simp [Token.wordsOf, Text.words_eq, wordTokens]

theorem ofLexeme_words (kind : Kind) (c : Char) (rest : List Char)
    (lead : Identifier.isLead c = true) (soft : Soft (c :: rest))
    (known : kind = Kind.keyword ∨ kind = Kind.name ∨ kind = Kind.word) :
    Token.ofLexeme ⟨kind, c :: rest⟩ = wordTokens (c :: rest) := by
  rcases known with rfl | rfl | rfl
  · exact wordsOf_eq (c :: rest)
  · have unmarked := (plain_inner c (lead_inner c lead)).unmarked
    simp only [Token.ofLexeme, Token.ofName, String.toList_ofList, List.head?_cons]
    split
    · simp_all
    · simp_all
    · exact wordsOf_eq (c :: rest)
  · have other : (Text.upper (String.ofList (c :: rest)) == "DIV") = false := by
      refine beq_eq_false_iff_ne.mpr fun same => soft_not_operator (c :: rest) soft ?_
      rw [same]
      decide
    simp only [Token.ofLexeme, Token.ofWord, other]
    exact wordsOf_eq (c :: rest)

/-- Behind some character and before some tail, a text is scanned to some tokens and no separator,
and then the scan goes on with the tail. -/
def ReadsAfter [TagReading] (before : Option Char) (text tail : List Char) (tokens : List Token) : Prop :=
  ∃ lexemes, scanAfter before (text ++ tail) =
      lexemes ++ scanAfter (text.getLast?.or before) tail ∧
    lexemes.flatMap Lexeme.chars = text ∧ lexemes.flatMap Token.ofLexeme = tokens ∧
    ∀ lexeme ∈ lexemes, Script.isSeparator lexeme = false

def Reads [TagReading] (text tail : List Char) (tokens : List Token) : Prop :=
  ∀ before, ReadsAfter before text tail tokens

theorem readsAfter_append [TagReading] (before : Option Char) (first second tail : List Char)
    (one two : List Token) (readsFirst : ReadsAfter before first (second ++ tail) one)
    (readsSecond : ReadsAfter (first.getLast?.or before) second tail two) :
    ReadsAfter before (first ++ second) tail (one ++ two) := by
  obtain ⟨lexemes, scan, chars, tokens, plain⟩ := readsFirst
  obtain ⟨others, scan', chars', tokens', plain'⟩ := readsSecond
  refine ⟨lexemes ++ others, ?_, ?_, ?_, ?_⟩
  · rw [List.append_assoc, scan, scan', List.getLast?_append, Option.or_assoc, List.append_assoc]
  · rw [List.flatMap_append, chars, chars']
  · rw [List.flatMap_append, tokens, tokens']
  · exact fun lexeme member => (List.mem_append.mp member).elim (plain lexeme) (plain' lexeme)

/-- A text that is one lexeme. -/
theorem readsAfter_one [TagReading] (before : Option Char) (text tail : List Char) (kind : Kind)
    (occupied : text ≠ [])
    (scan : scanAfter before (text ++ tail) = ⟨kind, text⟩ :: scanAfter text.getLast? tail)
    (plain : Script.isSeparator ⟨kind, text⟩ = false) :
    ReadsAfter before text tail (Token.ofLexeme ⟨kind, text⟩) := by
  refine ⟨[⟨kind, text⟩], ?_, by simp, by simp, by simpa using plain⟩
  rw [scan]
  rcases List.eq_nil_or_concat text with rfl | ⟨front, c, rfl⟩
  · exact absurd rfl occupied
  · simp

/-- The tokens of a whole text. -/
theorem tokenize_reads (text : String) (tokens : List Token) (reads : Reads text.toList [] tokens) :
    Token.tokenize text = tokens := by
  obtain ⟨lexemes, scan, _, same, _⟩ := reads none
  have scanned : Lexeme.scan text = lexemes := by
    rw [List.append_nil] at scan
    exact scan.trans (List.append_nil lexemes)
  rw [Token.tokenize, scanned, same]

theorem reads_nil [TagReading] (tail : List Char) : Reads [] tail [] :=
  fun _ => ⟨[], rfl, rfl, rfl, by simp⟩

theorem reads_append [TagReading] (first second tail : List Char) (one two : List Token)
    (readsFirst : Reads first (second ++ tail) one) (readsSecond : Reads second tail two) :
    Reads (first ++ second) tail (one ++ two) :=
  fun before => readsAfter_append before first second tail one two (readsFirst before) (readsSecond _)

theorem reads_gap [TagReading] (c : Char) (tail : List Char) (gap : isGap c = true) : Reads [c] tail [] := by
  intro before
  simp only [isGap, Bool.or_eq_true, beq_iff_eq] at gap
  rcases gap with rfl | rfl
  · exact readsAfter_one before _ tail .blank (by simp) (scan_space before tail) rfl
  · exact readsAfter_one before _ tail .blank (by simp) (scan_lineFeed before tail) rfl

theorem soft_head (c : Char) (rest : List Char) (soft : Soft (c :: rest))
    (inner : Identifier.isInner c = true) : Identifier.isLead c = true := by
  obtain ⟨more, others, words⟩ := Text.word_runs_head c rest (plain_inner c inner).solid
  exact (soft.tame (c :: more) (by simp [words])).lead c rfl

/-- The tokens of a soft run are its words. -/
theorem reads_soft [TagReading] (run tail : List Char) (soft : Soft run) (ends : run = [] ∨ Ends run tail) :
    Reads run tail (wordTokens run) := by
  induction same : run.length using Nat.strongRecOn generalizing run with
  | _ size ih =>
      intro before
      cases run with
      | nil => exact reads_nil tail before
      | cons c rest =>
          have ends := ends.resolve_left (by simp)
          rcases soft.plain c (by simp) with inner | gap
          · have lead := soft_head c rest soft inner
            obtain ⟨kind, passed, left, split, occupied, apart, known, measured⟩ :=
              soft_measure before c rest tail lead soft ends
            obtain ⟨d, more, rfl⟩ := List.exists_cons_of_ne_nil occupied
            obtain ⟨rfl, rfl⟩ := List.cons.inj (split.trans (List.cons_append ..))
            have parts := soft_part (c :: more) left apart soft
            have shorter : left.length < size := by
              rw [← same, List.length_cons, List.length_append]
              omega
            have later := ih left.length shorter left parts.2
              (or_iff_not_imp_left.mpr fun occupied => ends_behind _ left tail apart occupied ends) rfl
            have tokens : wordTokens (c :: more ++ left) =
                Token.ofLexeme ⟨kind, c :: more⟩ ++ wordTokens left := by
              rw [ofLexeme_words kind c more lead parts.1 known, wordTokens,
                Text.word_runs_append (c :: more) left apart, List.map_append]
              rfl
            rw [List.append_assoc] at measured
            have scan := scan_cut before (c :: more) (left ++ tail) kind occupied measured
            have plain : Script.isSeparator ⟨kind, c :: more⟩ = false := by
              rcases known with rfl | rfl | rfl <;> rfl
            rw [← List.cons_append, tokens]
            exact readsAfter_append before _ left tail _ _
              (readsAfter_one before _ _ kind occupied scan plain) (later _)
          · have blank := gap_blank c gap
            have apart : Text.Apart [c] rest := Or.inr (Or.inr (Or.inl (by simpa using blank)))
            have soft_rest := (soft_part [c] rest apart soft).2
            have later := ih rest.length (by simp [← same]) rest soft_rest
              (or_iff_not_imp_left.mpr fun occupied => ends_behind [c] rest tail apart occupied ends) rfl
            have tokens : wordTokens (c :: rest) = [] ++ wordTokens rest := by
              rw [wordTokens, Text.word_runs_blank c rest blank]
              rfl
            rw [tokens]
            exact reads_append [c] rest tail [] _ (reads_gap c _ gap) later before

end TableScript.Lexeme
