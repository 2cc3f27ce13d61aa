import TableScript.Token
import TableScript.Identifier

/-!
Reading parts of statements from the front of a list of tokens: groups in parentheses, lists with
separators, and names. A reader gives what it read together with the tokens behind it.
-/

namespace TableScript.Token

def isOpen (token : Token) : Bool := token.isPunct "("
def isClose (token : Token) : Bool := token.isPunct ")"

def startsWith (accepts : Token → Bool) : List Token → Bool
  | [] => false
  | token :: _ => accepts token

def takeWord? (word : String) : List Token → Option (List Token)
  | [] => none
  | token :: rest => if token.isWord word then some rest else none

/-- The tokens behind some words, if all of them stand there in order. -/
def takeWords? : List String → List Token → Option (List Token)
  | [], tokens => some tokens
  | word :: words, tokens => (takeWord? word tokens).bind (takeWords? words)

def skipWords (words : List String) (tokens : List Token) : List Token :=
  (takeWords? words tokens).getD tokens

/-- The rest of a group behind its opening parenthesis, with `depth` inner groups open: what is
inside, and the tokens behind the parenthesis that closes the group. -/
def groupFrom (depth : Nat) : List Token → Option (List Token × List Token)
  | [] => none
  | token :: rest =>
      if token.isClose ∧ depth = 0 then some ([], rest)
      else
        let inner := if token.isOpen then depth + 1 else if token.isClose then depth - 1 else depth
        (groupFrom inner rest).map fun (inside, after) => (token :: inside, after)

def group? : List Token → Option (List Token × List Token)
  | [] => none
  | token :: rest => if token.isOpen then groupFrom 0 rest else none

-- The part that is open at the left end, and the parts after it.
def splitFrom (separator : String) (depth : Nat) : List Token → List Token × List (List Token)
  | [] => ([], [])
  | token :: rest =>
      if token.isOpen then
        let (part, parts) := splitFrom separator (depth + 1) rest
        (token :: part, parts)
      else if token.isClose then
        let (part, parts) := splitFrom separator (depth - 1) rest
        (token :: part, parts)
      else if token.isPunct separator ∧ depth = 0 then
        let (part, parts) := splitFrom separator depth rest
        ([], part :: parts)
      else
        let (part, parts) := splitFrom separator depth rest
        (token :: part, parts)

/-- The parts between separators that stand outside of all parentheses. A parenthesis that closes
nothing is skipped in the count, and empty parts are left out. -/
def splitTopLevel (separator : String) (tokens : List Token) : List (List Token) :=
  let (part, parts) := splitFrom separator 0 tokens
  (part :: parts).filter fun part => !part.isEmpty

-- The last part of a dotted name.
def lastPart (written : String) : List Token → String × List Token
  | dot :: token :: rest =>
      if dot.isPunct "." && token.isIdentifier then lastPart token.value rest
      else (written, dot :: token :: rest)
  | tokens => (written, tokens)

/-- The name at the front, cleaned. Of a dotted name only the last part counts. -/
def readName : List Token → Option String × List Token
  | [] => (none, [])
  | token :: rest =>
      if token.isIdentifier then
        let (written, after) := lastPart token.value rest
        (some (Identifier.clean written), after)
      else (none, token :: rest)

/-- Like `readName`, for places where an empty name is no name. -/
def readFullName (tokens : List Token) : Option String × List Token :=
  match readName tokens with
  | (some name, after) => (if name == "" then none else some name, after)
  | (none, after) => (none, after)

def headName? : List Token → Option String
  | [] => none
  | token :: _ => if token.isIdentifier then some (Identifier.clean token.value) else none

/-- The names of a list in parentheses. Each part gives its first token, if that is a name. A
list that is never closed takes all tokens that are left. -/
def readNames (tokens : List Token) : Option (List String) × List Token :=
  if startsWith isOpen tokens then
    match group? tokens with
    | some (inside, after) => (some ((splitTopLevel "," inside).filterMap headName?), after)
    | none => (none, [])
  else (none, tokens)

-- Index names and methods before a list of columns.
def skipToGroup (tokens : List Token) : List Token :=
  tokens.dropWhile isIdentifier

end TableScript.Token
