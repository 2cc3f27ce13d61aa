import TableScript.Statement.Group
import TableScript.Keyword

/-!
The data type at the front of a list of tokens: a name, and then parameters in parentheses, parts
behind points, array brackets and the words that go on with a type. Only the number of tokens is
counted, so a type is always the tokens as they stand.
-/

namespace TableScript.Token

def isModifier (token : Token) : Bool :=
  token.isOneOf Keyword.typeModifiers

def isTimeZone : List Token → Bool
  | time :: zone :: _ => time.isWord "TIME" && zone.isWord "ZONE"
  | _ => false

-- The tokens of an array suffix behind its opening bracket.
def bracketLength : List Token → Option Nat
  | [] => none
  | first :: rest =>
      if first.isPunct "]" then some 1
      else if first.kind == .number && startsWith (·.isPunct "]") rest then some 2
      else none

/-- How many tokens at the front go on with a data type, when the first `taken` of them are
already known to belong to it. -/
def typeLength : Nat → List Token → Nat
  | _, [] => 0
  | taken + 1, _ :: rest => typeLength taken rest + 1
  | 0, token :: rest =>
      if token.isOpen then
        match groupFrom 0 rest with
        | some (inside, _) => typeLength (inside.length + 1) rest + 1
        | none => 0
      else if token.isPunct "." && startsWith isIdentifier rest then typeLength 1 rest + 1
      else if token.isPunct "[" then
        match bracketLength rest with
        | some length => typeLength length rest + 1
        | none => 0
      else if token.isModifier then typeLength 0 rest + 1
      else if token.isOneOf ["WITH", "WITHOUT"] && isTimeZone rest then typeLength 2 rest + 1
      else 0

def beginsType (token : Token) : Bool :=
  token.isIdentifier && !token.isOneOf Keyword.columnConstraint

/-- The tokens of the data type at the front, which may be none, and the tokens behind it. -/
def readType : List Token → List Token × List Token
  | [] => ([], [])
  | token :: rest =>
      if token.beginsType then
        let length := typeLength 0 rest
        (token :: rest.take length, rest.drop length)
      else ([], token :: rest)

end TableScript.Token
