/-!
Wildcards in names: a star stands for any characters, a question mark for one, and a class in
brackets for one of its members or, behind an exclamation mark, for none of them. A bracket that
opens no class stands for itself. A range whose ends are in the wrong order is as good as not
written: an exclamation mark behind it can be the first of what is left.
-/

namespace TableScript.Command

namespace Wildcard

def isWild (name : String) : Bool :=
  name.toList.any fun c => c == '*' || c == '?' || c == '['

/-- The inside of a class and the pattern behind it. A closing bracket that comes first is
inside. -/
def class? (pattern : List Char) : Option (List Char × List Char) :=
  let (mark, rest) := match pattern with
    | '!' :: rest => (['!'], rest)
    | rest => ([], rest)
  let (first, more) := match rest with
    | ']' :: more => ([']'], more)
    | more => ([], more)
  match more.dropWhile (· != ']') with
  | ']' :: after => some (mark ++ first ++ more.takeWhile (· != ']'), after)
  | _ => none

inductive Member where
  | single (c : Char)
  | range (low high : Char)
  deriving DecidableEq

def Member.accepts (c : Char) : Member → Bool
  | .single other => c == other
  | .range low high => low ≤ c && c ≤ high

def ranges : List Char → List Member
  | low :: '-' :: high :: rest => .range low high :: ranges rest
  | c :: rest => .single c :: ranges rest
  | [] => []

-- A leading exclamation mark begins no range.
def members : List Char → List Member
  | '!' :: rest => .single '!' :: ranges rest
  | inside => ranges inside

def Member.isProper : Member → Bool
  | .single _ => true
  | .range low high => low ≤ high

/-- Whether a class, given by its inside, accepts a character. -/
def accepts (inside : List Char) (c : Char) : Bool :=
  match (members inside).filter Member.isProper with
  | .single '!' :: rest => !rest.any (Member.accepts c)
  | .range '!' high :: rest => !(.single '-' :: .single high :: rest).any (Member.accepts c)
  | proper => proper.any (Member.accepts c)

/-- A pattern in parts: any number of characters, or one character of a kind. -/
inductive Part where
  | star
  | one (accepts : Char → Bool)

-- Every part takes a character of the pattern, so its length bounds their number.
def partsFrom : Nat → List Char → List Part
  | 0, _ => []
  | _, [] => []
  | steps + 1, '*' :: rest => .star :: partsFrom steps rest
  | steps + 1, '?' :: rest => .one (fun _ => true) :: partsFrom steps rest
  | steps + 1, c :: rest =>
      match if c == '[' then class? rest else none with
      | some (inside, after) => .one (accepts inside) :: partsFrom steps after
      | none => .one (· == c) :: partsFrom steps rest

def parts (pattern : String) : List Part :=
  partsFrom pattern.length pattern.toList

def tails : List Char → List (List Char)
  | [] => [[]]
  | c :: rest => (c :: rest) :: tails rest

/-- What may be left of a name behind a part, from what may be left before it, longest first. -/
def advance (lefts : List (List Char)) : Part → List (List Char)
  | .star => (lefts.head?.map tails).getD []
  | .one accepts => lefts.filterMap fun left =>
      match left with
      | c :: rest => if accepts c then some rest else none
      | [] => none

def matchesParts (parts : List Part) (name : List Char) : Bool :=
  (parts.foldl advance [name]).any (·.isEmpty)

def isHidden (name : String) : Bool :=
  name.toList.head? == some '.'

/-- Whether a name fits a pattern. Hidden names fit only patterns that are hidden themselves. -/
def fits (pattern name : String) : Bool :=
  (isHidden pattern || !isHidden name) && matchesParts (parts pattern) name.toList

end Wildcard

end TableScript.Command
