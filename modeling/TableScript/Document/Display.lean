import TableScript.Document.Basic
import TableScript.Number.Shortest
import TableScript.Text.Printable
import TableScript.Text.Surrogate

/-!
How values are shown in messages. A text is quoted with single quotes, or with double quotes
when it holds a single quote and no double one; what has no visible form is escaped by its code.
-/

namespace TableScript

def hexDigits (width code : Nat) : List Char :=
  let digits := Nat.toDigits 16 code
  List.replicate (width - digits.length) '0' ++ digits

namespace Value

def displaySpelling : Number.Spelling :=
  { infinite := "inf", notANumber := "nan" }

def quoteFor (chars : List Char) : Char :=
  if chars.contains '\'' && !chars.contains '"' then '"' else '\''

def displayChar (standIns : Text.StandIns) (quote c : Char) : List Char :=
  if c == quote || c == '\\' then ['\\', c]
  else if c == '\n' then ['\\', 'n']
  else if c == '\r' then ['\\', 'r']
  else if c == '\t' then ['\\', 't']
  else if Text.isPrintable c then [c]
  else
    let code := (standIns.unit? c).getD c.toNat
    if code ≤ 0xFF then '\\' :: 'x' :: hexDigits 2 code
    else if code ≤ 0xFFFF then '\\' :: 'u' :: hexDigits 4 code
    else '\\' :: 'U' :: hexDigits 8 code

def displayText (standIns : Text.StandIns) (text : String) : String :=
  let quote := quoteFor text.toList
  String.ofList (quote :: text.toList.flatMap (displayChar standIns quote) ++ [quote])

mutual

/-- The display of a value in which some characters may stand for lone surrogates. -/
def displayWith (standIns : Text.StandIns) : Value → String
  | .null => "None"
  | .bool flag => if flag then "True" else "False"
  | .int number => toString number
  | .real number => number.text displaySpelling
  | .text content => displayText standIns content
  | .list items => "[" ++ ", ".intercalate (displayItems standIns items) ++ "]"
  | .object fields => "\x7b" ++ ", ".intercalate (displayFields standIns fields) ++ "\x7d"

def displayItems (standIns : Text.StandIns) : List Value → List String
  | [] => []
  | item :: rest => displayWith standIns item :: displayItems standIns rest

def displayFields (standIns : Text.StandIns) : List (String × Value) → List String
  | [] => []
  | (key, value) :: rest =>
      (displayText standIns key ++ ": " ++ displayWith standIns value) ::
        displayFields standIns rest

end

def display (value : Value) : String :=
  value.displayWith .none

def inWordsWith (standIns : Text.StandIns) : Value → String
  | .text content => content
  | value => value.displayWith standIns

/-- A value inside a sentence: a text stands for itself, anything else is displayed. -/
def inWords (value : Value) : String :=
  value.inWordsWith .none

end Value

def inWords {α : Type} [ToValue α] (a : α) : String :=
  (toValue a).inWords

def displayTexts (texts : List String) : String :=
  (Value.list (texts.map .text)).display

end TableScript
