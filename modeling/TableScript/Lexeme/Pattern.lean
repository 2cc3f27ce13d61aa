/-!
Patterns of text with an order of preference: of two alternatives the first is tried first, a
greedy repetition tries one more round before it stops, a reluctant one tries to stop before one
more round. The match is the first that lets everything after it match too. Conditions look at
the characters around a spot without taking them.
-/

namespace TableScript

/-- A place in a text: the character before it, if there is one, and the text from there on. -/
structure Spot where
  before : Option Char
  rest : List Char

inductive Pattern where
  | nothing
  | one (accepts : Char → Bool)
  | seq (first second : Pattern)
  | alt (first second : Pattern)
  | many (body : Pattern)
  | few (body : Pattern)
  | ahead (body : Pattern)
  | notAhead (body : Pattern)
  | place (accepts : Option Char → Option Char → Bool)

namespace Pattern

abbrev Matcher := (Spot → Option Spot) → Spot → Option Spot

-- One round for each character of a text, at most.
def greedy (step : Matcher) (next : Spot → Option Spot) : List Char → Spot → Option Spot
  | [], spot => next spot
  | _ :: rounds, spot =>
      match step (greedy step next rounds) spot with
      | some stop => some stop
      | none => next spot

def reluctant (step : Matcher) (next : Spot → Option Spot) : List Char → Spot → Option Spot
  | [], spot => next spot
  | _ :: rounds, spot =>
      match next spot with
      | some stop => some stop
      | none => step (reluctant step next rounds) spot

/-- Matches a pattern and hands every end it finds, best first, to `next`, until one succeeds.
A body of a repetition takes at least one character, so the text left bounds the rounds. -/
def run : Pattern → Matcher
  | .nothing, next, spot => next spot
  | .one accepts, next, spot =>
      match spot.rest with
      | [] => none
      | c :: rest => if accepts c then next ⟨some c, rest⟩ else none
  | .seq first second, next, spot => run first (run second next) spot
  | .alt first second, next, spot =>
      match run first next spot with
      | some stop => some stop
      | none => run second next spot
  | .many body, next, spot => greedy (run body) next spot.rest spot
  | .few body, next, spot => reluctant (run body) next spot.rest spot
  | .ahead body, next, spot => if (run body some spot).isSome then next spot else none
  | .notAhead body, next, spot => if (run body some spot).isSome then none else next spot
  | .place accepts, next, spot =>
      if accepts spot.before spot.rest.head? then next spot else none

/-- The end of the best match at a spot. -/
def stop? (pattern : Pattern) (spot : Spot) : Option Spot :=
  run pattern some spot

def sequence : List Pattern → Pattern
  | [] => .nothing
  | [last] => last
  | first :: rest => .seq first (sequence rest)

-- The last of no alternatives at all matches nowhere.
def choice : List Pattern → Pattern
  | [] => .one fun _ => false
  | [last] => last
  | first :: rest => .alt first (choice rest)

def optional (body : Pattern) : Pattern :=
  .alt body .nothing

def atLeastOnce (body : Pattern) : Pattern :=
  .seq body (.many body)

def char (c : Char) : Pattern :=
  .one (· == c)

def exactly (text : String) : Pattern :=
  sequence (text.toList.map char)

end Pattern

end TableScript
