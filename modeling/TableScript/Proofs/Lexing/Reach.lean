import TableScript.Lexeme.Pattern
import Mathlib.Logic.Relation

/-!
What a pattern can match, leaving the order of preference aside. Whatever the best match of a
pattern is, it is one of these, so a character that none of them can begin with rules the pattern
out, and a character that no part of the pattern takes ends every match before it.
-/

namespace TableScript.Pattern

/-- Some match of a pattern leads from one spot to another. -/
def Reaches : Pattern → Spot → Spot → Prop
  | .nothing, start, stop => stop = start
  | .one accepts, start, stop =>
      ∃ c rest, start.rest = c :: rest ∧ accepts c = true ∧ stop = ⟨some c, rest⟩
  | .seq first second, start, stop =>
      ∃ middle, Reaches first start middle ∧ Reaches second middle stop
  | .alt first second, start, stop => Reaches first start stop ∨ Reaches second start stop
  | .many body, start, stop => Relation.ReflTransGen (Reaches body) start stop
  | .few body, start, stop => Relation.ReflTransGen (Reaches body) start stop
  | .ahead body, start, stop => stop = start ∧ ∃ seen, Reaches body start seen
  | .notAhead _, start, stop => stop = start
  | .place accepts, start, stop =>
      stop = start ∧ accepts start.before start.rest.head? = true

/-- A matcher only hands on spots that some relation leads to. -/
def Follows (step : Matcher) (leads : Spot → Spot → Prop) : Prop :=
  ∀ next start stop, step next start = some stop →
    ∃ middle, leads start middle ∧ next middle = some stop

theorem greedy_follows (step : Matcher) (leads : Spot → Spot → Prop) (follows : Follows step leads)
    (rounds : List Char) :
    Follows (fun next => greedy step next rounds) (Relation.ReflTransGen leads) := by
  induction rounds with
  | nil => exact fun next start stop found => ⟨start, .refl, found⟩
  | cons _ rounds ih =>
      intro next start stop found
      simp only [greedy] at found
      split at found
      case h_1 stop' again =>
        obtain ⟨middle, first, found'⟩ := follows _ _ _ again
        obtain ⟨last, others, ended⟩ := ih next middle stop' found'
        exact ⟨last, .head first others, ended.trans found⟩
      case h_2 => exact ⟨start, .refl, found⟩

theorem reluctant_follows (step : Matcher) (leads : Spot → Spot → Prop)
    (follows : Follows step leads) (rounds : List Char) :
    Follows (fun next => reluctant step next rounds) (Relation.ReflTransGen leads) := by
  induction rounds with
  | nil => exact fun next start stop found => ⟨start, .refl, found⟩
  | cons _ rounds ih =>
      intro next start stop found
      simp only [reluctant] at found
      split at found
      case h_1 stop' ended => exact ⟨start, .refl, ended.trans found⟩
      case h_2 =>
        obtain ⟨middle, first, found'⟩ := follows _ _ _ found
        obtain ⟨last, others, ended⟩ := ih next middle stop found'
        exact ⟨last, .head first others, ended⟩

theorem run_follows (pattern : Pattern) : Follows (run pattern) (Reaches pattern) := by
  induction pattern with
  | nothing => exact fun next start stop found => ⟨start, rfl, found⟩
  | one accepts =>
      intro next start stop found
      simp only [run] at found
      split at found
      · cases found
      case h_2 c rest same =>
        split at found
        case isTrue accepted => exact ⟨_, ⟨c, rest, same, accepted, rfl⟩, found⟩
        · cases found
  | seq first second first_follows second_follows =>
      intro next start stop found
      obtain ⟨middle, one, found⟩ := first_follows _ _ _ found
      obtain ⟨last, two, found⟩ := second_follows _ _ _ found
      exact ⟨last, ⟨middle, one, two⟩, found⟩
  | alt first second first_follows second_follows =>
      intro next start stop found
      simp only [run] at found
      split at found
      case h_1 stop' matched =>
        obtain ⟨middle, one, ended⟩ := first_follows _ _ _ matched
        exact ⟨middle, Or.inl one, ended.trans found⟩
      case h_2 =>
        obtain ⟨middle, two, ended⟩ := second_follows _ _ _ found
        exact ⟨middle, Or.inr two, ended⟩
  | many body follows =>
      exact fun next start => greedy_follows (run body) _ follows start.rest next start
  | few body follows =>
      exact fun next start => reluctant_follows (run body) _ follows start.rest next start
  | ahead body follows =>
      intro next start stop found
      simp only [run] at found
      split at found
      case isTrue seen =>
        obtain ⟨stop', matched⟩ := Option.isSome_iff_exists.mp seen
        obtain ⟨middle, reached, _⟩ := follows _ _ _ matched
        exact ⟨start, ⟨rfl, middle, reached⟩, found⟩
      · cases found
  | notAhead body _ =>
      intro next start stop found
      simp only [run] at found
      split at found
      · cases found
      · exact ⟨start, rfl, found⟩
  | place accepts =>
      intro next start stop found
      simp only [run] at found
      split at found
      case isTrue accepted => exact ⟨start, ⟨rfl, accepted⟩, found⟩
      · cases found

theorem stop_reached (pattern : Pattern) (start stop : Spot) (found : pattern.stop? start = some stop) :
    Reaches pattern start stop := by
  obtain ⟨middle, reached, same⟩ := run_follows pattern _ _ _ found
  exact Option.some.inj same ▸ reached

/-- Some part of a pattern takes a character. -/
def takes (c : Char) : Pattern → Bool
  | .one accepts => accepts c
  | .seq first second => takes c first || takes c second
  | .alt first second => takes c first || takes c second
  | .many body => takes c body
  | .few body => takes c body
  | .nothing | .ahead _ | .notAhead _ | .place _ => false

/-- From one spot to another some characters are passed, each of which has a property. -/
def Passes (allowed : Char → Prop) (start stop : Spot) : Prop :=
  ∃ passed, start.rest = passed ++ stop.rest ∧ stop.before = passed.getLast?.or start.before ∧
    ∀ c ∈ passed, allowed c

theorem passes_refl (allowed : Char → Prop) (spot : Spot) : Passes allowed spot spot :=
  ⟨[], rfl, rfl, by simp⟩

theorem passes_trans {allowed : Char → Prop} {start middle stop : Spot}
    (first : Passes allowed start middle) (second : Passes allowed middle stop) :
    Passes allowed start stop := by
  obtain ⟨one, rest, before, allowedOne⟩ := first
  obtain ⟨two, rest', before', allowedTwo⟩ := second
  refine ⟨one ++ two, by rw [rest, rest', List.append_assoc], ?_, ?_⟩
  · rw [before', before, List.getLast?_append, Option.or_assoc]
  · intro c member
    exact (List.mem_append.mp member).elim (allowedOne c) (allowedTwo c)

theorem passes_mono {allowed more : Char → Prop} {start stop : Spot}
    (implied : ∀ c, allowed c → more c) (passes : Passes allowed start stop) :
    Passes more start stop := by
  obtain ⟨passed, rest, before, each⟩ := passes
  exact ⟨passed, rest, before, fun c member => implied c (each c member)⟩

theorem passes_many {allowed : Char → Prop} {leads : Spot → Spot → Prop}
    (each : ∀ start stop, leads start stop → Passes allowed start stop) {start stop : Spot}
    (reached : Relation.ReflTransGen leads start stop) : Passes allowed start stop := by
  induction reached with
  | refl => exact passes_refl allowed start
  | tail _ last ih => exact passes_trans ih (each _ _ last)

theorem reaches_passes (pattern : Pattern) :
    ∀ start stop, Reaches pattern start stop → Passes (fun c => takes c pattern = true) start stop := by
  induction pattern with
  | nothing => exact fun start stop same => same ▸ passes_refl _ stop
  | one accepts =>
      rintro start stop ⟨c, rest, same, accepted, rfl⟩
      exact ⟨[c], same, rfl, by simpa [takes] using accepted⟩
  | seq first second first_passes second_passes =>
      rintro start stop ⟨middle, one, two⟩
      refine passes_trans (passes_mono (fun c => ?_) (first_passes _ _ one))
        (passes_mono (fun c => ?_) (second_passes _ _ two))
      · exact fun taken => by simp [takes, taken]
      · exact fun taken => by simp [takes, taken]
  | alt first second first_passes second_passes =>
      rintro start stop (one | two)
      · exact passes_mono (fun c taken => by simp [takes, taken]) (first_passes _ _ one)
      · exact passes_mono (fun c taken => by simp [takes, taken]) (second_passes _ _ two)
  | many body passes => exact fun start stop reached => passes_many passes reached
  | few body passes => exact fun start stop reached => passes_many passes reached
  | ahead body _ => exact fun start stop seen => seen.1 ▸ passes_refl _ stop
  | notAhead body _ => exact fun start stop same => same ▸ passes_refl _ stop
  | place accepts => exact fun start stop here => here.1 ▸ passes_refl _ stop

/-- A match ends inside a text, if what follows the text begins with a character that no part of
the pattern takes. -/
theorem reaches_inside (pattern : Pattern) (start stop : Spot) (text tail : List Char)
    (reached : Reaches pattern start stop) (rest : start.rest = text ++ tail)
    (closed : ∀ c ∈ tail.head?, takes c pattern = false) :
    ∃ passed left, text = passed ++ left ∧ stop.rest = left ++ tail ∧
      stop.before = passed.getLast?.or start.before := by
  obtain ⟨passed, split, before, taken⟩ := reaches_passes pattern start stop reached
  rw [rest] at split
  rcases List.append_eq_append_iff.mp split with ⟨more, beyond, left⟩ | ⟨left, inside, tailed⟩
  · cases more with
    | nil => exact ⟨passed, [], by simpa using beyond.symm, by simpa using left.symm, before⟩
    | cons c more =>
        have refused := closed c (by simp [left])
        have taken := taken c (by simp [beyond])
        exact absurd (refused.symm.trans taken) Bool.false_ne_true
  · exact ⟨passed, left, inside, tailed, before⟩

def mayBeEmpty : Pattern → Bool
  | .one _ => false
  | .seq first second => mayBeEmpty first && mayBeEmpty second
  | .alt first second => mayBeEmpty first || mayBeEmpty second
  | .nothing | .many _ | .few _ | .ahead _ | .notAhead _ | .place _ => true

/-- A match of a pattern may begin with a character. -/
def mayLead (c : Char) : Pattern → Bool
  | .one accepts => accepts c
  | .seq first second => mayLead c first || mayBeEmpty first && mayLead c second
  | .alt first second => mayLead c first || mayLead c second
  | .many body => mayLead c body
  | .few body => mayLead c body
  | .nothing | .ahead _ | .notAhead _ | .place _ => false

theorem reaches_within (pattern : Pattern) (start stop : Spot)
    (reached : Reaches pattern start stop) : stop.rest.length ≤ start.rest.length := by
  obtain ⟨passed, rest, _⟩ := reaches_passes pattern start stop reached
  rw [rest, List.length_append]
  omega

theorem reaches_shorter (pattern : Pattern) (occupied : mayBeEmpty pattern = false) :
    ∀ start stop, Reaches pattern start stop → stop.rest.length < start.rest.length := by
  induction pattern with
  | one accepts =>
      rintro start stop ⟨c, rest, same, _, rfl⟩
      rw [same]
      exact Nat.lt_succ_self _
  | seq first second first_shorter second_shorter =>
      rintro start stop ⟨middle, one, two⟩
      have within_one := reaches_within first start middle one
      have within_two := reaches_within second middle stop two
      rcases Bool.and_eq_false_iff.mp occupied with empty | empty
      · have shorter := first_shorter empty start middle one
        omega
      · have shorter := second_shorter empty middle stop two
        omega
  | alt first second first_shorter second_shorter =>
      obtain ⟨one_empty, two_empty⟩ := Bool.or_eq_false_iff.mp occupied
      rintro start stop (one | two)
      · exact first_shorter one_empty start stop one
      · exact second_shorter two_empty start stop two
  | nothing => cases occupied
  | many body => cases occupied
  | few body => cases occupied
  | ahead body => cases occupied
  | notAhead body => cases occupied
  | place accepts => cases occupied

/-- A match stays where it is or takes the next character first. -/
def Leads (empty : Bool) (lead : Char → Bool) (start stop : Spot) : Prop :=
  (stop = start ∧ empty = true) ∨ ∃ c rest, start.rest = c :: rest ∧ lead c = true

theorem leads_many {empty : Bool} {lead : Char → Bool} {leads : Spot → Spot → Prop}
    (each : ∀ start stop, leads start stop → Leads empty lead start stop) {start stop : Spot}
    (reached : Relation.ReflTransGen leads start stop) : Leads true lead start stop := by
  induction reached using Relation.ReflTransGen.head_induction_on with
  | refl => exact Or.inl ⟨rfl, rfl⟩
  | head first _ ih =>
      rcases each _ _ first with ⟨same, _⟩ | found
      · exact same ▸ ih
      · exact Or.inr found

theorem reaches_leads (pattern : Pattern) :
    ∀ start stop, Reaches pattern start stop →
      Leads (mayBeEmpty pattern) (fun c => mayLead c pattern) start stop := by
  induction pattern with
  | nothing => exact fun start stop same => Or.inl ⟨same, rfl⟩
  | one accepts =>
      rintro start stop ⟨c, rest, same, accepted, rfl⟩
      exact Or.inr ⟨c, rest, same, accepted⟩
  | seq first second first_leads second_leads =>
      rintro start stop ⟨middle, one, two⟩
      rcases first_leads _ _ one with ⟨rfl, empty⟩ | ⟨c, rest, same, lead⟩
      · rcases second_leads _ _ two with ⟨same, empty'⟩ | ⟨c, rest, same, lead⟩
        · exact Or.inl ⟨same, by simp [mayBeEmpty, empty, empty']⟩
        · exact Or.inr ⟨c, rest, same, by simp [mayLead, empty, lead]⟩
      · exact Or.inr ⟨c, rest, same, by simp [mayLead, lead]⟩
  | alt first second first_leads second_leads =>
      rintro start stop (one | two)
      · rcases first_leads _ _ one with ⟨same, empty⟩ | ⟨c, rest, same, lead⟩
        · exact Or.inl ⟨same, by simp [mayBeEmpty, empty]⟩
        · exact Or.inr ⟨c, rest, same, by simp [mayLead, lead]⟩
      · rcases second_leads _ _ two with ⟨same, empty⟩ | ⟨c, rest, same, lead⟩
        · exact Or.inl ⟨same, by simp [mayBeEmpty, empty]⟩
        · exact Or.inr ⟨c, rest, same, by simp [mayLead, lead]⟩
  | many body leads => exact fun start stop reached => leads_many leads reached
  | few body leads => exact fun start stop reached => leads_many leads reached
  | ahead body _ => exact fun start stop seen => Or.inl ⟨seen.1, rfl⟩
  | notAhead body _ => exact fun start stop same => Or.inl ⟨same, rfl⟩
  | place accepts => exact fun start stop here => Or.inl ⟨here.1, rfl⟩

/-- A pattern that takes something, but cannot begin with the next character. -/
def refuses (c : Char) (pattern : Pattern) : Bool :=
  !mayBeEmpty pattern && !mayLead c pattern

theorem stop_refused (pattern : Pattern) (before : Option Char) (c : Char) (rest : List Char)
    (refused : refuses c pattern = true) : pattern.stop? ⟨before, c :: rest⟩ = none := by
  simp only [refuses, Bool.and_eq_true, Bool.not_eq_true'] at refused
  cases found : pattern.stop? ⟨before, c :: rest⟩ with
  | none => rfl
  | some stop =>
      rcases reaches_leads pattern _ _ (stop_reached pattern _ _ found) with
        ⟨_, empty⟩ | ⟨d, more, same, lead⟩
      · exact absurd (refused.1.symm.trans empty) Bool.false_ne_true
      · cases same
        exact absurd (refused.2.symm.trans lead) Bool.false_ne_true

theorem reached_refused (pattern : Pattern) (start stop : Spot)
    (reached : Reaches pattern start stop) (occupied : mayBeEmpty pattern = false)
    (refused : ∀ c ∈ start.rest.head?, refuses c pattern = true) : False := by
  rcases reaches_leads pattern start stop reached with ⟨_, empty⟩ | ⟨c, rest, same, lead⟩
  · exact absurd (occupied.symm.trans empty) Bool.false_ne_true
  · have refused := refused c (by rw [same]; rfl)
    simp [refuses, lead] at refused

/-- A pattern does not match after another one, if the other stays inside a text and the pattern
can neither begin with a character of the text nor with the one after it. -/
theorem unreached_after (first second : Pattern) (start middle stop : Spot)
    (text tail : List Char) (rest : start.rest = text ++ tail)
    (one : Reaches first start middle) (two : Reaches second middle stop)
    (closed : ∀ c ∈ tail.head?, takes c first = false) (occupied : mayBeEmpty second = false)
    (inner : ∀ c ∈ text, refuses c second = true)
    (outer : ∀ c ∈ tail.head?, refuses c second = true) : False := by
  obtain ⟨passed, left, split, rest', _⟩ := reaches_inside first start middle text tail one rest closed
  apply reached_refused second middle stop two occupied
  intro c head
  rw [rest'] at head
  cases left with
  | nil => exact outer c head
  | cons d left =>
      cases head
      exact inner _ (by simp [split])

end TableScript.Pattern
