import TableScript.Lexeme.Rules
import TableScript.Text.DollarTag
import TableScript.Text.Lower

/-!
Cutting a script into lexemes. A block comment and a text between dollar tags are taken whole
when they are closed; elsewhere the rules decide, and a character that no rule takes is a lexeme
of its own. The lexemes of a script, put together, are the script.
-/

namespace TableScript

structure Lexeme where
  kind : Lexeme.Kind
  chars : List Char

namespace Lexeme

-- How many characters stand before the first place where `mark` stands in a text.
def distanceTo (mark : List Char) : List Char → Option Nat
  | [] => none
  | c :: rest =>
      if mark.isPrefixOf (c :: rest) then some 0 else (distanceTo mark rest).map (· + 1)

def commentSpan? : List Char → Option Nat
  | '/' :: '*' :: rest => (distanceTo ['*', '/'] rest).map (· + 4)
  | _ => none

-- What a dollar tag may not follow, to open a text.
def bindsTag (c : Char) : Bool :=
  Text.isWordChar c || c == '"' || c == '$'

def isTagLead (c : Char) : Bool :=
  c == '_' || isNameLead c

/-- What is seen of a character where the tag that closes a text is compared with the one that opened
it. Lexers of different releases do not agree on that: for newer ones `$t$a$T$b$t$` is one text, and
for older ones, which leave the letter case out of account, `$t$a$T$` is. -/
class TagReading where
  seen : Char → Char

/-- Only the same tag closes a text, as in the newer releases. Scripts are read this way if nothing
else is said. -/
instance TagReading.exact : TagReading := ⟨id⟩

/-- A tag closes a text in any letter case, as in the older releases. -/
@[reducible] def TagReading.caseless : TagReading := ⟨Text.lowerChar⟩

section Scan

variable [TagReading]

def dollarSpan? (spot : Spot) : Option Nat :=
  if spot.before.any bindsTag then none
  else
    match Text.dollarTag? isTagLead Text.isWordChar spot.rest with
    | none => none
    | some tag =>
        let behind := spot.rest.drop tag.length
        (distanceTo (tag.map TagReading.seen) (behind.map TagReading.seen)).map (· + 2 * tag.length)

def span? (spot : Spot) : Option (Kind × Nat) :=
  match commentSpan? spot.rest with
  | some length => some (.comment, length)
  | none => (dollarSpan? spot).map fun length => (.literal, length)

def firstRule? (spot : Spot) : List Rule → Option (Kind × Nat)
  | [] => none
  | rule :: others =>
      match rule.pattern.stop? spot with
      | some stop => some (rule.kind, spot.rest.length - stop.rest.length)
      | none => firstRule? spot others

/-- The kind and the length of the lexeme at a spot. -/
def measure (spot : Spot) : Kind × Nat :=
  match span? spot with
  | some found => found
  | none => (firstRule? spot rules).getD (.operator, 1)

-- A lexeme takes at least one character, so the length of the text bounds their number.
def scanFrom : Nat → Option Char → List Char → List Lexeme
  | 0, _, _ => []
  | _, _, [] => []
  | steps + 1, before, c :: rest =>
      let (kind, length) := measure ⟨before, c :: rest⟩
      let chars := c :: rest.take (length - 1)
      ⟨kind, chars⟩ :: scanFrom steps chars.getLast? (rest.drop (length - 1))

def scanChars (chars : List Char) : List Lexeme :=
  scanFrom chars.length none chars

def scan (script : String) : List Lexeme :=
  scanChars script.toList

end Scan

end Lexeme

end TableScript
