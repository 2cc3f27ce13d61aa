import TableScript.Document.Basic
import TableScript.Text.Surrogate

/-!
Reading a JSON text as a document. The first fault stops the reading and is reported with its
place. A repeated key keeps its first place among the fields and takes its last value. Whole
numbers and the nesting of lists and objects have a limit; beyond it a text is not malformed, but
is not read either. A code escape may give a lone surrogate, which a character stands for that the
document does not use.
-/

namespace TableScript

namespace Reading

inductive Fault where
  | value
  | propertyName
  | colon
  | comma
  | extra
  | openText
  | controlCharacter
  | escape
  | codeEscape
  | byteOrderMark
  deriving DecidableEq

def Fault.message : Fault → String
  | .value => "Expecting value"
  | .propertyName => "Expecting property name enclosed in double quotes"
  | .colon => "Expecting ':' delimiter"
  | .comma => "Expecting ',' delimiter"
  | .extra => "Extra data"
  | .openText => "Unterminated string starting at"
  | .controlCharacter => "Invalid control character at"
  | .escape => "Invalid \\escape"
  | .codeEscape => "Invalid \\uXXXX escape"
  | .byteOrderMark => "Unexpected UTF-8 BOM (decode using utf-8-sig)"

inductive Shape where
  | list
  | object
  deriving DecidableEq

def Shape.name : Shape → String
  | .list => "array"
  | .object => "object"

inductive Failure where
  | malformed (fault : Fault) (position : Nat)
  | longNumber (digits : Nat)
  | deepNesting (shape : Shape)

def mostDigits : Nat := 4300
def deepest : Nat := 988

/-- What is left to read, and how many characters stand before it. -/
structure Cursor where
  position : Nat
  rest : List Char

abbrev Result (α : Type) := Except Failure (α × Cursor)

def isSpace (c : Char) : Bool :=
  c == ' ' || c == '\t' || c == '\n' || c == '\r'

def skipSpaces (position : Nat) : List Char → Cursor
  | [] => ⟨position, []⟩
  | c :: rest => if isSpace c then skipSpaces (position + 1) rest else ⟨position, c :: rest⟩

def Cursor.skip (cursor : Cursor) : Cursor :=
  skipSpaces cursor.position cursor.rest

def failAt {α : Type} (fault : Fault) (cursor : Cursor) : Result α :=
  .error (.malformed fault cursor.position)

def hexValue? (c : Char) : Option Nat :=
  if c.isDigit then some (c.toNat - '0'.toNat)
  else if 'a' ≤ c && c ≤ 'f' then some (c.toNat - 'a'.toNat + 10)
  else if 'A' ≤ c && c ≤ 'F' then some (c.toNat - 'A'.toNat + 10)
  else none

/-- The unit of four hexadecimal digits. A text cannot end right behind them, so there has to be
one more character. -/
def hexUnit? : List Char → Option (Nat × List Char)
  | a :: b :: c :: d :: next :: rest => do
      let a ← hexValue? a
      let b ← hexValue? b
      let c ← hexValue? c
      let d ← hexValue? d
      some (((a * 16 + b) * 16 + c) * 16 + d, next :: rest)
  | _ => none

def simpleEscape? : Char → Option Char
  | '"' => some '"'
  | '\\' => some '\\'
  | '/' => some '/'
  | 'b' => some '\x08'
  | 'f' => some '\x0c'
  | 'n' => some '\n'
  | 'r' => some '\r'
  | 't' => some '\t'
  | _ => none

section

variable (standIns : Text.StandIns)

/-- The character of a code escape, with the text behind its letter `u` given; a pair of escapes
for one character counts as one. -/
def codeEscape (position : Nat) (chars : List Char) : Result Char :=
  match hexUnit? chars with
  | none => .error (.malformed .codeEscape position)
  | some (unit, rest) =>
      let alone : Char × Cursor := (standIns.charOf unit, ⟨position + 5, rest⟩)
      match Text.isHighUnit unit, rest with
      | true, '\\' :: 'u' :: more =>
          match hexUnit? more with
          | none => .error (.malformed .codeEscape (position + 6))
          | some (low, after) =>
              if Text.isLowUnit low then .ok (Text.ofPair unit low, ⟨position + 11, after⟩)
              else .ok alone
      | _, _ => .ok alone

-- The rest of a text whose opening quote stands at `start`. Every step reads a character.
def textBody (start : Nat) : Nat → Nat → List Char → List Char → Result String
  | _, _, [], _ => .error (.malformed .openText start)
  | 0, _, _, _ => .error (.malformed .openText start)
  | fuel + 1, position, c :: rest, done =>
      if c == '"' then .ok (String.ofList done.reverse, ⟨position + 1, rest⟩)
      else if c.toNat < 0x20 then .error (.malformed .controlCharacter position)
      else if c != '\\' then textBody start fuel (position + 1) rest (c :: done)
      else
        match rest with
        | [] => .error (.malformed .openText start)
        | 'u' :: more =>
            match codeEscape standIns (position + 1) more with
            | .error failure => .error failure
            | .ok (decoded, after) => textBody start fuel after.position after.rest (decoded :: done)
        | escaped :: more =>
            match simpleEscape? escaped with
            | none => .error (.malformed .escape position)
            | some decoded => textBody start fuel (position + 2) more (decoded :: done)

-- With the cursor behind the opening quote.
def readText (cursor : Cursor) : Result String :=
  textBody standIns (cursor.position - 1) cursor.rest.length cursor.position cursor.rest []

end

def digitsValue (digits : List Char) : Nat :=
  digits.foldl (fun total c => total * 10 + (c.toNat - '0'.toNat)) 0

def wholePart? : List Char → Option (List Char × List Char)
  | '0' :: rest => some (['0'], rest)
  | c :: rest =>
      if c.isDigit then some (c :: rest.takeWhile Char.isDigit, rest.dropWhile Char.isDigit)
      else none
  | [] => none

-- The digits behind a point; a point without digits is not part of the number.
def fraction : List Char → List Char × List Char
  | '.' :: rest =>
      let digits := rest.takeWhile Char.isDigit
      if digits.isEmpty then ([], '.' :: rest) else (digits, rest.dropWhile Char.isDigit)
  | rest => ([], rest)

def power? (chars : List Char) : Option (Int × List Char) :=
  match chars with
  | e :: rest =>
      if e == 'e' || e == 'E' then
        let (negative, rest) := match rest with
          | '-' :: more => (true, more)
          | '+' :: more => (false, more)
          | more => (false, more)
        let digits := rest.takeWhile Char.isDigit
        if digits.isEmpty then none
        else
          let size : Int := digitsValue digits
          some (if negative then -size else size, rest.dropWhile Char.isDigit)
      else none
  | [] => none

def wholeNumber (negative : Bool) (digits : List Char) : Except Failure Value :=
  if mostDigits < digits.length then .error (.longNumber digits.length)
  else
    let size : Int := digitsValue digits
    .ok (.int (if negative then -size else size))

/-- The number at the start of a text, if there is one. Without a fraction and a power it is
whole. -/
def number? (chars : List Char) : Option (Except Failure Value × List Char) :=
  let (negative, unsigned) := match chars with
    | '-' :: rest => (true, rest)
    | rest => (false, rest)
  match wholePart? unsigned with
  | none => none
  | some (whole, afterWhole) =>
      let (decimals, afterFraction) := fraction afterWhole
      match power? afterFraction with
      | some (power, rest) =>
          some (.ok (.real (Number.ofDecimal negative (digitsValue (whole ++ decimals))
            (power - decimals.length))), rest)
      | none =>
          if decimals.isEmpty then some (wholeNumber negative whole, afterFraction)
          else
            some (.ok (.real (Number.ofDecimal negative (digitsValue (whole ++ decimals))
              (-(decimals.length : Int)))), afterFraction)

def stripWord? : List Char → List Char → Option (List Char)
  | [], rest => some rest
  | c :: word, d :: rest => if c = d then stripWord? word rest else none
  | _ :: _, [] => none

def constants : List (String × Value) :=
  [("null", .null), ("true", .bool true), ("false", .bool false), ("NaN", .real .notANumber),
   ("Infinity", .real (.infinite false)), ("-Infinity", .real (.infinite true))]

def constant? (chars : List Char) : Option (Except Failure Value × List Char) :=
  constants.findSome? fun (word, value) =>
    (stripWord? word.toList chars).map fun rest => (.ok value, rest)

def scalar (cursor : Cursor) : Result Value :=
  match (constant? cursor.rest).orElse fun _ => number? cursor.rest with
  | some (found, rest) =>
      found.map fun value =>
        (value, ⟨cursor.position + (cursor.rest.length - rest.length), rest⟩)
  | none => failAt .value cursor

section

variable (standIns : Text.StandIns)

mutual

-- With `room` for so many lists and objects inside of each other.
def readValue : Nat → Nat → Cursor → Result Value
  | 0, _, cursor => failAt .value cursor
  | fuel + 1, room, cursor =>
      match cursor.rest, room with
      | '"' :: rest, _ =>
          (readText standIns ⟨cursor.position + 1, rest⟩).map fun (text, after) => (.text text, after)
      | '[' :: _, 0 => .error (.deepNesting .list)
      | '[' :: rest, room + 1 =>
          let inside := skipSpaces (cursor.position + 1) rest
          match inside.rest with
          | ']' :: after => .ok (.list [], ⟨inside.position + 1, after⟩)
          | _ => readItems fuel room inside []
      | '\x7b' :: _, 0 => .error (.deepNesting .object)
      | '\x7b' :: rest, room + 1 =>
          let inside := skipSpaces (cursor.position + 1) rest
          match inside.rest with
          | '\x7d' :: after => .ok (.object [], ⟨inside.position + 1, after⟩)
          | _ => readFields fuel room inside []
      | _, _ => scalar cursor

-- From the start of an item; the items before it come in reverse.
def readItems : Nat → Nat → Cursor → List Value → Result Value
  | 0, _, cursor, _ => failAt .value cursor
  | fuel + 1, room, cursor, done =>
      match readValue fuel room cursor with
      | .error failure => .error failure
      | .ok (item, after) =>
          let next := after.skip
          match next.rest with
          | ']' :: rest => .ok (.list (item :: done).reverse, ⟨next.position + 1, rest⟩)
          | ',' :: rest => readItems fuel room (skipSpaces (next.position + 1) rest) (item :: done)
          | _ => failAt .comma next

-- From the start of a key.
def readFields : Nat → Nat → Cursor → List (String × Value) → Result Value
  | 0, _, cursor, _ => failAt .value cursor
  | fuel + 1, room, cursor, done =>
      match cursor.rest with
      | '"' :: rest =>
          match readText standIns ⟨cursor.position + 1, rest⟩ with
          | .error failure => .error failure
          | .ok (key, afterKey) =>
              let beforeColon := afterKey.skip
              match beforeColon.rest with
              | ':' :: rest =>
                  match readValue fuel room (skipSpaces (beforeColon.position + 1) rest) with
                  | .error failure => .error failure
                  | .ok (value, after) =>
                      let next := after.skip
                      let fields := Value.put key value done
                      match next.rest with
                      | '\x7d' :: rest => .ok (.object fields, ⟨next.position + 1, rest⟩)
                      | ',' :: rest =>
                          readFields fuel room (skipSpaces (next.position + 1) rest) fields
                      | _ => failAt .comma next
              | _ => failAt .colon beforeColon
      | _ => failAt .propertyName cursor

end

end

/-- Line and column, both from one, of a place in a text. -/
def lineAndColumn (chars : List Char) (position : Nat) : Nat × Nat :=
  let before := chars.take position
  (before.count '\n' + 1, (before.reverse.takeWhile (· != '\n')).length + 1)

end Reading

/-- Every value, item and field takes at least one character of the text, so twice its length
bounds the number of steps. -/
def Value.read (standIns : Text.StandIns) (text : String) : Except Reading.Failure Value :=
  let chars := text.toList
  if chars.head? == some (Char.ofNat 0xFEFF) then .error (.malformed .byteOrderMark 0)
  else
    let start := Reading.skipSpaces 0 chars
    match Reading.readValue standIns (2 * chars.length + 2) Reading.deepest start with
    | .error failure => .error failure
    | .ok (value, after) =>
        let rest := after.skip
        if rest.rest.isEmpty then .ok value else .error (.malformed .extra rest.position)

/-! A whole document: its characters are known only when it has been read, so it is read once more
with stand-ins that are none of them. Most documents need none. -/

namespace Value

mutual

/-- The characters of all texts in a value. -/
def letters : Value → List Char
  | .text content => content.toList
  | .list items => itemLetters items
  | .object fields => fieldLetters fields
  | _ => []

def itemLetters : List Value → List Char
  | [] => []
  | item :: rest => letters item ++ itemLetters rest

def fieldLetters : List (String × Value) → List Char
  | [] => []
  | (key, value) :: rest => key.toList ++ letters value ++ fieldLetters rest

end

end Value

/-- A value with what stands for the lone surrogates in it. -/
structure Document where
  value : Value
  standIns : Text.StandIns

def Document.read (text : String) : Except Reading.Failure Document :=
  match Value.read .none text with
  | .error failure => .error failure
  | .ok draft =>
      let standIns := Text.StandIns.apartFrom draft.letters
      (Value.read standIns text).map fun value =>
        -- Stand-ins that make no difference stand for nothing.
        if value.letters == draft.letters then ⟨value, .none⟩ else ⟨value, standIns⟩

namespace Reading.Failure

def isMalformed : Failure → Bool
  | .malformed _ _ => true
  | _ => false

def message (text : String) : Failure → String
  | .malformed fault position =>
      let (line, column) := lineAndColumn text.toList position
      s!"{fault.message}: line {line} column {column} (char {position})"
  | .longNumber digits =>
      s!"Exceeds the limit ({mostDigits} digits) for integer string conversion: value has {digits} digits; use sys.set_int_max_str_digits() to increase the limit"
  | .deepNesting shape =>
      s!"maximum recursion depth exceeded while decoding a JSON {shape.name} from a unicode string"

end Reading.Failure

end TableScript
