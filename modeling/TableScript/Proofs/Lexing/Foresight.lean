import TableScript.Proofs.Lexing.Cut

/-!
What a text settles by itself. A match that never looks beyond the end of a text is the same
whatever stands behind the text, and one that only looks at a semicolon there is the same as far
as the semicolon shows. So the lexemes of a text can be known before the rest is, and a text is
shut when all of them are.
-/

namespace TableScript

/-- What stands behind a text: nothing, or a semicolon and anything behind that. -/
def Behind (more : List Char) : Prop :=
  ∀ c ∈ more.head?, c = ';'

namespace Spot

def extend (more : List Char) (spot : Spot) : Spot :=
  ⟨spot.before, spot.rest ++ more⟩

@[simp] theorem extend_before (more : List Char) (spot : Spot) :
    (spot.extend more).before = spot.before := rfl

@[simp] theorem extend_nothing (spot : Spot) : spot.extend [] = spot := by
  simp [extend]

end Spot

namespace Pattern

/-- What is known of the best match: nothing yet, that there is none, or its end. -/
abbrev Outlook := Option (Option Spot)

abbrev Forecast := Spot → Outlook

def orElse (first second : Outlook) : Outlook :=
  match first with
  | some none => second
  | found => found

-- One round more than there are characters, so that the last one meets the end of the text.
def foreseeGreedy (step : Forecast → Forecast) (next : Forecast) : Nat → Forecast
  | 0, _ => none
  | rounds + 1, spot => orElse (step (foreseeGreedy step next rounds) spot) (next spot)

def foreseeReluctant (step : Forecast → Forecast) (next : Forecast) : Nat → Forecast
  | 0, _ => none
  | rounds + 1, spot => orElse (next spot) (step (foreseeReluctant step next rounds) spot)

/-- Matches a pattern as far as it is settled when a semicolon may stand behind the text. -/
def foresee : Pattern → Forecast → Forecast
  | .nothing, next, spot => next spot
  | .one accepts, next, spot =>
      match spot.rest with
      | [] => if accepts ';' then none else some none
      | c :: rest => if accepts c then next ⟨some c, rest⟩ else some none
  | .seq first second, next, spot => foresee first (foresee second next) spot
  | .alt first second, next, spot => orElse (foresee first next spot) (foresee second next spot)
  | .many body, next, spot => foreseeGreedy (foresee body) next (spot.rest.length + 1) spot
  | .few body, next, spot => foreseeReluctant (foresee body) next (spot.rest.length + 1) spot
  | .ahead body, next, spot =>
      match foresee body (fun stop => some (some stop)) spot with
      | some (some _) => next spot
      | found => found
  | .notAhead body, next, spot =>
      match foresee body (fun stop => some (some stop)) spot with
      | some (some _) => some none
      | some none => next spot
      | none => none
  | .place accepts, next, spot =>
      if spot.rest = [] ∧ accepts spot.before none ≠ accepts spot.before (some ';') then none
      else if accepts spot.before spot.rest.head? then next spot
      else some none

/-- The body of each repetition takes something. -/
def sturdy : Pattern → Bool
  | .seq first second => sturdy first && sturdy second
  | .alt first second => sturdy first && sturdy second
  | .many body => !mayBeEmpty body && sturdy body
  | .few body => !mayBeEmpty body && sturdy body
  | .ahead body => sturdy body
  | .notAhead body => sturdy body
  | .nothing | .one _ | .place _ => true

/-- What is known agrees with what is found when something stands behind the text. -/
def Agrees (more : List Char) (outlook : Outlook) (found : Option Spot) : Prop :=
  ∀ known, outlook = some known → found = known.map (Spot.extend more)

/-- A forecast agrees with a matcher at every spot where a relation leads. -/
def AgreeWhere (more : List Char) (leads : Spot → Prop) (forecast : Forecast)
    (next : Spot → Option Spot) : Prop :=
  ∀ spot, leads spot → Agrees more (forecast spot) (next (spot.extend more))

variable {more : List Char}

theorem agrees_known (known : Option Spot) : Agrees more (some known) (known.map (Spot.extend more)) :=
  fun _ same => by rw [Option.some.inj same]

theorem agrees_orElse (first second : Outlook) (found other : Option Spot) :
    Agrees more first found → Agrees more second other →
      Agrees more (orElse first second)
        (match found with | some stop => some stop | none => other) := by
  intro agrees agreesOther
  cases first with
  | none => exact fun known same => nomatch same
  | some known =>
      rw [agrees known rfl]
      cases known with
      | none => exact agreesOther
      | some stop => exact agrees_known (some stop)

/-- A forecast of a pattern is right wherever the forecast of what follows is. -/
def Sound (pattern : Pattern) (more : List Char) : Prop :=
  ∀ forecast next start, AgreeWhere more (Reaches pattern start) forecast next →
    Agrees more (foresee pattern forecast start) (run pattern next (start.extend more))

/-- A pattern that takes something has no match where nothing is left. -/
theorem foresee_end (pattern : Pattern) (occupied : mayBeEmpty pattern = false)
    (sound : Sound pattern []) (forecast : Forecast) (start : Spot) (ended : start.rest = []) :
    Agrees more (foresee pattern forecast start) none := by
  intro known same
  -- Any matcher will do that finds what the forecast says.
  let next : Spot → Option Spot := fun spot => (forecast spot).join.map (Spot.extend [])
  have agree : AgreeWhere [] (Reaches pattern start) forecast next := by
    intro spot _ known same
    simp [next, same]
  have found := sound forecast next start agree known same
  cases known with
  | none => rfl
  | some stop =>
      obtain ⟨middle, reached, _⟩ := run_follows pattern _ _ _ found
      have shorter := reaches_shorter pattern occupied _ _ reached
      rw [Spot.extend_nothing, ended] at shorter
      exact absurd shorter (Nat.not_lt_zero _)

section Repetitions

variable {body : Pattern}

theorem agree_later {forecast : Forecast} {next : Spot → Option Spot} {start middle : Spot}
    (agree : AgreeWhere more (Relation.ReflTransGen (Reaches body) start) forecast next)
    (first : Reaches body start middle) :
    AgreeWhere more (Relation.ReflTransGen (Reaches body) middle) forecast next :=
  fun spot later => agree spot (.head first later)

theorem foreseeGreedy_sound (occupied : mayBeEmpty body = false) (sound : Sound body more)
    (soundEnd : Sound body []) (forecast : Forecast) (next : Spot → Option Spot) (count : Nat)
    (rounds : List Char) (start : Spot) (enough : start.rest.length ≤ rounds.length)
    (agree : AgreeWhere more (Relation.ReflTransGen (Reaches body) start) forecast next) :
    Agrees more (foreseeGreedy (foresee body) forecast count start)
      (greedy (run body) next rounds (start.extend more)) := by
  induction count generalizing rounds start with
  | zero => exact fun known same => nomatch same
  | succ count ih =>
      have here := agree start .refl
      cases rounds with
      | nil =>
          have ended := List.eq_nil_of_length_eq_zero (Nat.le_zero.mp enough)
          exact agrees_orElse _ _ none _ (foresee_end body occupied soundEnd _ start ended) here
      | cons c rounds =>
          refine agrees_orElse _ _ _ _ (sound _ _ _ ?_) here
          intro middle reached
          have shorter := reaches_shorter body occupied start middle reached
          exact ih rounds middle (Nat.le_of_lt_succ (Nat.lt_of_lt_of_le shorter enough))
            (agree_later agree reached)

theorem foreseeReluctant_sound (occupied : mayBeEmpty body = false) (sound : Sound body more)
    (soundEnd : Sound body []) (forecast : Forecast) (next : Spot → Option Spot) (count : Nat)
    (rounds : List Char) (start : Spot) (enough : start.rest.length ≤ rounds.length)
    (agree : AgreeWhere more (Relation.ReflTransGen (Reaches body) start) forecast next) :
    Agrees more (foreseeReluctant (foresee body) forecast count start)
      (reluctant (run body) next rounds (start.extend more)) := by
  induction count generalizing rounds start with
  | zero => exact fun known same => nomatch same
  | succ count ih =>
      have here := agree start .refl
      cases rounds with
      | nil =>
          have ended := List.eq_nil_of_length_eq_zero (Nat.le_zero.mp enough)
          have stuck : Agrees more _ none := foresee_end body occupied soundEnd
            (foreseeReluctant (foresee body) forecast count) start ended
          have both := agrees_orElse _ _ _ none here stuck
          change Agrees more _ (next (start.extend more))
          cases found : next (start.extend more) <;> rwa [found] at both
      | cons c rounds =>
          refine agrees_orElse _ _ _ _ here (sound _ _ _ ?_)
          intro middle reached
          have shorter := reaches_shorter body occupied start middle reached
          exact ih rounds middle (Nat.le_of_lt_succ (Nat.lt_of_lt_of_le shorter enough))
            (agree_later agree reached)

end Repetitions

theorem foresee_reached (pattern : Pattern) (sound : Sound pattern []) (start stop : Spot)
    (found : foresee pattern (fun stop => some (some stop)) start = some (some stop)) :
    Reaches pattern start stop := by
  have there := sound _ some start (fun stop _ => agrees_known (some stop)) _ found
  rw [Spot.extend_nothing, Option.map_some, Spot.extend_nothing] at there
  exact stop_reached pattern start stop there

theorem one_sound (accepts : Char → Bool) (behind : Behind more) : Sound (.one accepts) more := by
  rintro forecast next ⟨before, rest⟩ agree
  cases rest with
  | cons c rest =>
      simp only [foresee, run, Spot.extend, List.cons_append]
      cases accepted : accepts c with
      | false => exact agrees_known none
      | true => exact agree _ ⟨c, rest, rfl, accepted, rfl⟩
  | nil =>
      intro known same
      simp only [foresee] at same
      split at same
      · cases same
      case isFalse refused =>
        cases same
        cases more with
        | nil => rfl
        | cons c more =>
            rw [behind c rfl]
            simp [Spot.extend, run, refused]

theorem ahead_sound (sound : Sound body more) (soundEnd : Sound body []) : Sound (.ahead body) more := by
  intro forecast next start agree known same
  have seen := sound _ some start fun stop _ => agrees_known (some stop)
  simp only [foresee] at same
  split at same
  case h_1 stop found =>
    have reached := foresee_reached body soundEnd start stop found
    have here := agree start ⟨rfl, stop, reached⟩ known same
    simpa [run, seen _ found] using here
  case h_2 others =>
    cases known with
    | some stop => exact absurd same (others stop)
    | none => simp [run, seen _ same]

theorem notAhead_sound (sound : Sound body more) : Sound (.notAhead body) more := by
  intro forecast next start agree known same
  have seen := sound _ some start fun stop _ => agrees_known (some stop)
  simp only [foresee] at same
  split at same
  case h_1 stop found =>
    cases same
    simp [run, seen _ found]
  case h_2 found => simpa [run, seen _ found] using agree start rfl known same
  case h_3 => cases same

theorem place_sound (accepts : Option Char → Option Char → Bool) (behind : Behind more) :
    Sound (.place accepts) more := by
  intro forecast next start agree known same
  simp only [foresee] at same
  split at same
  · cases same
  case isFalse plain =>
    have head : accepts start.before (start.extend more).rest.head? =
        accepts start.before start.rest.head? := by
      obtain ⟨before, rest⟩ := start
      cases rest with
      | cons c rest => rfl
      | nil =>
          cases more with
          | nil => rfl
          | cons c more =>
              rw [behind c rfl]
              simpa [Spot.extend, eq_comm] using plain
    split at same
    case isTrue accepted =>
      have here := agree start ⟨rfl, accepted⟩ known same
      simpa only [run, Spot.extend_before, head, accepted, if_true] using here
    case isFalse refused =>
      cases same
      simp [run, head, refused]

/-- What is foreseen of a sturdy pattern is what is found. -/
theorem foresee_sound (pattern : Pattern) (firm : sturdy pattern = true) (more : List Char)
    (behind : Behind more) : Sound pattern more := by
  have nothing : Behind [] := by simp [Behind]
  induction pattern generalizing more with
  | nothing => exact fun forecast next start agree => agree start rfl
  | one accepts => exact one_sound accepts behind
  | seq first second first_sound second_sound =>
      obtain ⟨firmFirst, firmSecond⟩ := Bool.and_eq_true_iff.mp firm
      intro forecast next start agree
      apply first_sound firmFirst more behind
      intro middle one
      apply second_sound firmSecond more behind
      exact fun stop two => agree stop ⟨middle, one, two⟩
  | alt first second first_sound second_sound =>
      obtain ⟨firmFirst, firmSecond⟩ := Bool.and_eq_true_iff.mp firm
      intro forecast next start agree
      refine agrees_orElse _ _ _ _ ?_ ?_
      · exact first_sound firmFirst more behind _ _ _ fun stop one => agree stop (Or.inl one)
      · exact second_sound firmSecond more behind _ _ _ fun stop two => agree stop (Or.inr two)
  | many body sound =>
      obtain ⟨occupied, firm⟩ := Bool.and_eq_true_iff.mp firm
      intro forecast next start agree
      apply foreseeGreedy_sound (Bool.not_eq_true' _ ▸ occupied) (sound firm more behind)
        (sound firm [] nothing) forecast next _ _ start _ agree
      simp [Spot.extend]
  | few body sound =>
      obtain ⟨occupied, firm⟩ := Bool.and_eq_true_iff.mp firm
      intro forecast next start agree
      apply foreseeReluctant_sound (Bool.not_eq_true' _ ▸ occupied) (sound firm more behind)
        (sound firm [] nothing) forecast next _ _ start _ agree
      simp [Spot.extend]
  | ahead body sound => exact ahead_sound (sound firm more behind) (sound firm [] nothing)
  | notAhead body sound => exact notAhead_sound (sound firm more behind)
  | place accepts => exact place_sound accepts behind

end Pattern

namespace Lexeme

open Pattern

theorem rules_sturdy : ∀ rule ∈ rules, sturdy rule.pattern = true :=
  List.all_eq_true.mp (by decide +kernel : (rules.all fun rule => sturdy rule.pattern) = true)

/-- A comment or a tagged text begins here, closed or not. -/
def opensSpan (spot : Spot) : Bool :=
  ['/', '*'].isPrefixOf spot.rest ||
    !spot.before.any bindsTag && (Text.dollarTag? isTagLead Text.isWordChar spot.rest).isSome

def settledRule? (spot : Spot) : List Rule → Option (Option (Kind × Nat))
  | [] => some none
  | rule :: others =>
      match foresee rule.pattern (fun stop => some (some stop)) spot with
      | none => none
      | some none => settledRule? spot others
      | some (some stop) => some (some (rule.kind, spot.rest.length - stop.rest.length))

/-- The kind and the length of the lexeme at a spot, if the text settles them. -/
def settledMeasure [TagReading] (spot : Spot) : Option (Kind × Nat) :=
  match span? spot with
  | some found => some found
  | none =>
      if opensSpan spot then none
      else (settledRule? spot rules).map fun found => found.getD (.operator, 1)

def shutFrom [TagReading] : Nat → Option Char → List Char → Bool
  | _, _, [] => true
  | 0, _, _ :: _ => false
  | steps + 1, before, c :: rest =>
      match settledMeasure ⟨before, c :: rest⟩ with
      | none => false
      | some (_, length) =>
          shutFrom steps (c :: rest.take (length - 1)).getLast? (rest.drop (length - 1))

/-- No lexeme of a text can change, or reach beyond it, when a semicolon and anything else is put
behind the text. -/
def Shut [TagReading] (chars : List Char) : Prop :=
  shutFrom chars.length none chars = true

instance [TagReading] (chars : List Char) : Decidable (Shut chars) :=
  inferInstanceAs (Decidable (_ = true))

variable {more : List Char}

theorem settledRule_sound (behind : Behind more) (spot : Spot) (candidates : List Rule)
    (firm : ∀ rule ∈ candidates, sturdy rule.pattern = true) (known : Option (Kind × Nat))
    (settled : settledRule? spot candidates = some known) :
    firstRule? (spot.extend more) candidates = known := by
  induction candidates with
  | nil => exact Option.some.inj settled
  | cons rule others ih =>
      obtain ⟨firmRule, firmOthers⟩ := List.forall_mem_cons.mp firm
      have agrees := foresee_sound rule.pattern firmRule more behind _ some spot
        fun stop _ => agrees_known (some stop)
      simp only [settledRule?] at settled
      split at settled
      · cases settled
      case h_2 found =>
        have skipped : rule.pattern.stop? (spot.extend more) = none := agrees _ found
        rw [firstRule?, skipped]
        exact ih firmOthers settled
      case h_3 stop found =>
        have matched : rule.pattern.stop? (spot.extend more) = some (stop.extend more) :=
          agrees _ found
        rw [firstRule_matches _ rule others _ matched, ← Option.some.inj settled]
        simp [Spot.extend, Nat.add_sub_add_right]

theorem distance_within (mark chars : List Char) (distance : Nat)
    (found : distanceTo mark chars = some distance) : distance + mark.length ≤ chars.length := by
  induction chars generalizing distance with
  | nil => cases found
  | cons c chars ih =>
      simp only [distanceTo] at found
      split at found
      case isTrue here =>
        cases found
        simpa using (List.isPrefixOf_iff_prefix.mp here).length_le
      case isFalse =>
        obtain ⟨earlier, later, rfl⟩ := Option.map_eq_some_iff.mp found
        have within := ih earlier later
        simp only [List.length_cons]
        omega

theorem prefix_extended (mark chars more : List Char) (fits : mark.length ≤ chars.length) :
    mark.isPrefixOf (chars ++ more) = mark.isPrefixOf chars := by
  rw [Bool.eq_iff_iff, List.isPrefixOf_iff_prefix, List.isPrefixOf_iff_prefix]
  constructor
  · exact fun there => List.prefix_of_prefix_length_le there (List.prefix_append chars more) fits
  · exact fun here => here.trans (List.prefix_append chars more)

theorem distance_extended (mark chars more : List Char) (distance : Nat)
    (found : distanceTo mark chars = some distance) :
    distanceTo mark (chars ++ more) = some distance := by
  induction chars generalizing distance with
  | nil => cases found
  | cons c chars ih =>
      have within := distance_within mark (c :: chars) distance found
      have same := prefix_extended mark (c :: chars) more (by omega)
      rw [List.cons_append] at same ⊢
      simp only [distanceTo, same] at found ⊢
      split at found
      case isTrue here => rw [if_pos here, found]
      case isFalse elsewhere =>
        obtain ⟨earlier, later, rfl⟩ := Option.map_eq_some_iff.mp found
        rw [if_neg elsewhere, ih earlier later]
        rfl

theorem dollarTag_prefix (lead inner : Char → Bool) (chars tag : List Char)
    (found : Text.dollarTag? lead inner chars = some tag) : ∃ rest, chars = tag ++ rest := by
  unfold Text.dollarTag? at found
  split at found
  case h_1 rest =>
    dsimp only at found
    split at found
    case isTrue closed =>
      cases found
      obtain ⟨_, last⟩ := Bool.and_eq_true_iff.mp closed
      cases left : rest.dropWhile inner with
      | nil => simp [left] at last
      | cons c more =>
          have sign : c = '$' := by simpa [left] using last
          refine ⟨more, ?_⟩
          have parts := List.takeWhile_append_dropWhile (p := inner) (l := rest)
          rw [left, sign] at parts
          simpa using parts.symm
    · cases found
  · cases found

/-- A tag does not go on in a text that neither goes on with its name nor closes it. -/
theorem dollarTag_extended (lead inner : Char → Bool) (chars : List Char)
    (outside : ∀ c ∈ more.head?, inner c = false ∧ c ≠ '$') :
    Text.dollarTag? lead inner (chars ++ more) = Text.dollarTag? lead inner chars := by
  have names : ∀ rest : List Char, (rest ++ more).takeWhile inner = rest.takeWhile inner ∧
      (rest ++ more).dropWhile inner = rest.dropWhile inner ++ more := by
    intro rest
    induction rest with
    | nil =>
        cases more with
        | nil => simp
        | cons c more => simp [(outside c rfl).1]
    | cons c rest ih => by_cases inside : inner c = true <;> simp [inside, ih]
  have unsigned : more.head? ≠ some '$' := fun sign => (outside _ sign).2 rfl
  cases chars with
  | nil =>
      cases more with
      | nil => rfl
      | cons c more =>
          have other := (outside c rfl).2
          unfold Text.dollarTag?
          split <;> simp_all
  | cons c rest =>
      by_cases sign : c = '$'
      · obtain ⟨taken, left⟩ := names rest
        subst sign
        simp only [Text.dollarTag?, List.cons_append, taken, left]
        cases rest.dropWhile inner with
        | nil => simp [unsigned]
        | cons d others => rfl
      · unfold Text.dollarTag?
        split <;> simp_all

theorem commentSpan_extended (chars : List Char) (length : Nat)
    (found : commentSpan? chars = some length) : commentSpan? (chars ++ more) = some length := by
  unfold commentSpan? at found
  split at found
  case h_1 rest =>
    obtain ⟨distance, closed, rfl⟩ := Option.map_eq_some_iff.mp found
    simp [commentSpan?, distance_extended _ rest more distance closed]
  case h_2 => cases found

theorem commentSpan_opened (chars : List Char) (length : Nat)
    (found : commentSpan? chars = some length) : ['/', '*'].isPrefixOf chars = true := by
  unfold commentSpan? at found
  split at found
  · rfl
  · cases found

theorem commentSpan_unopened (chars : List Char) (unopened : ['/', '*'].isPrefixOf chars = false) :
    commentSpan? chars = none := by
  cases found : commentSpan? chars with
  | none => rfl
  | some length => exact absurd ((commentSpan_opened chars length found).symm.trans unopened) (by decide)

theorem opening_extended (behind : Behind more) (chars : List Char) :
    ['/', '*'].isPrefixOf (chars ++ more) = ['/', '*'].isPrefixOf chars := by
  rcases chars with _ | ⟨c, _ | ⟨d, chars⟩⟩
  · cases more with
    | nil => rfl
    | cons c more =>
        rw [behind c rfl]
        rfl
  · cases more with
    | nil => rfl
    | cons d more =>
        rw [behind d rfl]
        simp [List.isPrefixOf]
  · simp [List.isPrefixOf]

theorem tag_extended (behind : Behind more) (chars : List Char) :
    Text.dollarTag? isTagLead Text.isWordChar (chars ++ more) =
      Text.dollarTag? isTagLead Text.isWordChar chars :=
  dollarTag_extended _ _ chars fun c head => behind c head ▸ by decide +kernel

/-- A text between tags: a tag that may stand there opens it, and it goes up to the first place where a
tag is seen to be the same. -/
theorem dollarSpan_iff [TagReading] (before : Option Char) (chars : List Char) (length : Nat) :
    dollarSpan? ⟨before, chars⟩ = some length ↔ before.any bindsTag = false ∧
      ∃ tag rest distance, Text.dollarTag? isTagLead Text.isWordChar chars = some tag ∧
        chars = tag ++ rest ∧
        distanceTo (tag.map TagReading.seen) (rest.map TagReading.seen) = some distance ∧
        distance + 2 * tag.length = length := by
  cases bound : before.any bindsTag with
  | true => simp [dollarSpan?, bound]
  | false =>
      cases opened : Text.dollarTag? isTagLead Text.isWordChar chars with
      | none => simp [dollarSpan?, opened]
      | some tag =>
          obtain ⟨rest, rfl⟩ := dollarTag_prefix _ _ _ _ opened
          simp only [dollarSpan?, bound, opened, List.drop_left, Option.map_eq_some_iff,
            Bool.false_eq_true, if_false, true_and]
          constructor
          · rintro ⟨distance, closed, size⟩
            exact ⟨tag, rest, distance, rfl, rfl, closed, size⟩
          · rintro ⟨_, others, distance, ⟨⟩, split, closed, size⟩
            obtain rfl := List.append_cancel_left split
            exact ⟨distance, closed, size⟩

-- The tag in the other case belongs to the text, or closes it.
example : dollarSpan? ⟨none, "$t$a$T$b$t$".toList⟩ = some 11 ∧
    @dollarSpan? .caseless ⟨none, "$t$a$T$b$t$".toList⟩ = some 7 := by
  decide +kernel

theorem dollarSpan_extended [TagReading] (behind : Behind more) (before : Option Char)
    (chars : List Char) (length : Nat) (found : dollarSpan? ⟨before, chars⟩ = some length) :
    dollarSpan? ⟨before, chars ++ more⟩ = some length := by
  obtain ⟨unbound, tag, rest, distance, opened, rfl, closed, size⟩ := (dollarSpan_iff ..).mp found
  have stillClosed := distance_extended _ _ (more.map TagReading.seen) _ closed
  rw [← List.map_append] at stillClosed
  exact (dollarSpan_iff ..).mpr ⟨unbound, tag, rest ++ more, distance,
    (tag_extended behind _).trans opened, List.append_assoc .., stillClosed, size⟩

theorem dollarSpan_within [TagReading] (before : Option Char) (chars : List Char) (length : Nat)
    (found : dollarSpan? ⟨before, chars⟩ = some length) : length ≤ chars.length := by
  obtain ⟨_, tag, rest, distance, _, rfl, closed, size⟩ := (dollarSpan_iff ..).mp found
  have within := distance_within _ _ _ closed
  rw [List.length_map, List.length_map] at within
  rw [List.length_append]
  omega

theorem dollarSpan_sign [TagReading] (before : Option Char) (chars : List Char) (length : Nat)
    (found : dollarSpan? ⟨before, chars⟩ = some length) : ∃ rest, chars = '$' :: rest := by
  simp only [dollarSpan?, Text.dollarTag?] at found
  split at found
  · cases found
  · split at found
    · cases found
    case h_2 tag opened =>
      split at opened
      case h_1 rest => exact ⟨rest, rfl⟩
      · cases opened

theorem span_extended [TagReading] (behind : Behind more) (before : Option Char) (chars : List Char)
    (found : Kind × Nat) (span : span? ⟨before, chars⟩ = some found) :
    span? ⟨before, chars ++ more⟩ = some found := by
  simp only [span?] at span ⊢
  split at span
  case h_1 length comment =>
    rw [commentSpan_extended chars length comment]
    exact span
  case h_2 uncommented =>
    obtain ⟨length, tagged, rfl⟩ := Option.map_eq_some_iff.mp span
    obtain ⟨rest, rfl⟩ := dollarSpan_sign before chars length tagged
    rw [dollarSpan_extended behind before _ length tagged]
    rfl

theorem span_unopened [TagReading] (spot : Spot) (unopened : opensSpan spot = false) : span? spot = none := by
  obtain ⟨comment, tag⟩ := Bool.or_eq_false_iff.mp unopened
  have untagged : dollarSpan? spot = none := by
    simp only [dollarSpan?]
    split
    · rfl
    case isFalse unbound =>
      simp only [unbound, Bool.not_false, Bool.true_and] at tag
      rw [Option.not_isSome_iff_eq_none.mp (Bool.eq_false_iff.mp tag)]
  simp [span?, commentSpan_unopened _ comment, untagged]

theorem opens_extended (behind : Behind more) (spot : Spot) :
    opensSpan (spot.extend more) = opensSpan spot := by
  simp only [opensSpan, Spot.extend, opening_extended behind, tag_extended behind]

theorem settled_measure [TagReading] (behind : Behind more) (spot : Spot) (known : Kind × Nat)
    (settled : settledMeasure spot = some known) : measure (spot.extend more) = known := by
  simp only [settledMeasure] at settled
  split at settled
  case h_1 span =>
    cases settled
    rw [measure, Spot.extend, span_extended behind _ _ known span]
  case h_2 =>
    split at settled
    · cases settled
    case isFalse unopened =>
      obtain ⟨found, first, rfl⟩ := Option.map_eq_some_iff.mp settled
      have stillUnopened : opensSpan (spot.extend more) = false :=
        (opens_extended behind spot).trans (Bool.not_eq_true _ ▸ unopened)
      rw [measure, span_unopened _ stillUnopened,
        settledRule_sound behind spot rules rules_sturdy found first]

/-- A lexeme ends within the text. -/
theorem measure_within [TagReading] (before : Option Char) (c : Char) (rest : List Char) :
    (measure ⟨before, c :: rest⟩).2 ≤ rest.length + 1 := by
  simp only [measure]
  split
  case h_1 found span =>
    simp only [span?] at span
    split at span
    case h_1 length comment =>
      cases span
      unfold commentSpan? at comment
      split at comment
      case h_1 inner same =>
        obtain ⟨distance, closed, rfl⟩ := Option.map_eq_some_iff.mp comment
        have within := distance_within _ _ _ closed
        have size := congrArg List.length same
        simp only [List.length_cons, List.length_nil] at within size ⊢
        omega
      · cases comment
    case h_2 =>
      obtain ⟨length, tagged, rfl⟩ := Option.map_eq_some_iff.mp span
      exact dollarSpan_within before _ length tagged
  case h_2 =>
    cases first : firstRule? ⟨before, c :: rest⟩ rules with
    | none => exact Nat.le_add_left 1 rest.length
    | some found =>
        obtain ⟨rule, _, stop, _, rfl⟩ := firstRule_from _ _ _ first
        exact Nat.sub_le _ _

theorem scan_step [TagReading] (before : Option Char) (c : Char) (rest : List Char) :
    let length := (measure ⟨before, c :: rest⟩).2
    scanAfter before (c :: rest) =
      ⟨(measure ⟨before, c :: rest⟩).1, c :: rest.take (length - 1)⟩ ::
        scanAfter (c :: rest.take (length - 1)).getLast? (rest.drop (length - 1)) := by
  simp only [scanAfter, List.length_cons, scanFrom]
  exact congrArg _ (scan_steps _ _ _ (by simp))

/-- The lexemes of a settled text come out the same whatever stands behind it. -/
theorem scan_shut_from [TagReading] (behind : Behind more) (steps : Nat) (before : Option Char)
    (chars : List Char) (shut : shutFrom steps before chars = true) :
    scanAfter before (chars ++ more) =
      scanAfter before chars ++ scanAfter (chars.getLast?.or before) more := by
  induction steps generalizing before chars with
  | zero =>
      cases chars with
      | nil => rfl
      | cons c rest => cases shut
  | succ steps ih =>
      cases chars with
      | nil => rfl
      | cons c rest =>
          simp only [shutFrom] at shut
          split at shut
          · cases shut
          case h_2 length settled =>
            have nothing : Behind [] := by simp [Behind]
            have alone := settled_measure nothing _ _ settled
            have extended := settled_measure behind _ _ settled
            rw [Spot.extend_nothing] at alone
            rw [Spot.extend, List.cons_append] at extended
            have within : length - 1 ≤ rest.length := by
              have bound := measure_within before c rest
              rw [alone] at bound
              omega
            have last : (c :: rest).getLast? =
                ((rest.drop (length - 1)).getLast?.or (c :: rest.take (length - 1)).getLast?) := by
              rw [← List.getLast?_append, List.cons_append, List.take_append_drop]
            rw [List.cons_append, scan_step before c (rest ++ more), scan_step before c rest, extended,
              alone, List.take_append_of_le_length within, List.drop_append_of_le_length within,
              ih _ _ shut, last, List.cons_append]
            simp [List.getLast?_cons]

end Lexeme

end TableScript
