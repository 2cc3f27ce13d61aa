import TableScript.Document.Display

/-!
Documents written as JSON, in ASCII only: on one line, or indented by two spaces a level. A
character that stands for a lone surrogate is written as that.
-/

namespace TableScript.Value

def jsonSpelling : Number.Spelling :=
  { infinite := "Infinity", notANumber := "NaN" }

def jsonUnit (code : Nat) : List Char :=
  '\\' :: 'u' :: hexDigits 4 code

def jsonChar (standIns : Text.StandIns) (c : Char) : List Char :=
  if c == '"' || c == '\\' then ['\\', c]
  else if c == '\n' then ['\\', 'n']
  else if c == '\r' then ['\\', 'r']
  else if c == '\t' then ['\\', 't']
  else if c == '\x08' then ['\\', 'b']
  else if c == '\x0c' then ['\\', 'f']
  else if 0x20 ≤ c.toNat && c.toNat < 0x7F then [c]
  else if c.toNat < 0x10000 then jsonUnit c.toNat
  else
    match standIns.unit? c with
    | some unit => jsonUnit unit
    | none =>
        -- Beyond the first plane a character is a pair of units.
        let offset := c.toNat - 0x10000
        jsonUnit (0xD800 + offset / 0x400) ++ jsonUnit (0xDC00 + offset % 0x400)

def jsonText (standIns : Text.StandIns) (text : String) : String :=
  String.ofList ('"' :: text.toList.flatMap (jsonChar standIns) ++ ['"'])

def jsonNumber (number : Number.Binary64) : String :=
  number.text jsonSpelling

mutual

def lineWith (standIns : Text.StandIns) : Value → String
  | .null => "null"
  | .bool flag => if flag then "true" else "false"
  | .int number => toString number
  | .real number => jsonNumber number
  | .text content => jsonText standIns content
  | .list items => "[" ++ ", ".intercalate (lineItems standIns items) ++ "]"
  | .object fields => "\x7b" ++ ", ".intercalate (lineFields standIns fields) ++ "\x7d"

def lineItems (standIns : Text.StandIns) : List Value → List String
  | [] => []
  | item :: rest => lineWith standIns item :: lineItems standIns rest

def lineFields (standIns : Text.StandIns) : List (String × Value) → List String
  | [] => []
  | (key, value) :: rest =>
      (jsonText standIns key ++ ": " ++ lineWith standIns value) :: lineFields standIns rest

end

def line (value : Value) : String :=
  value.lineWith .none

def lineBreak (depth : Nat) : String :=
  String.ofList ('\n' :: List.replicate (2 * depth) ' ')

-- Brackets around parts, each part on a line of its own; brackets around nothing stay together.
def block (depth : Nat) (opening closing : String) (parts : List String) : String :=
  if parts.isEmpty then opening ++ closing
  else
    opening ++ lineBreak (depth + 1) ++ ("," ++ lineBreak (depth + 1)).intercalate parts ++
      lineBreak depth ++ closing

mutual

def indentedAt (standIns : Text.StandIns) (depth : Nat) : Value → String
  | .null => "null"
  | .bool flag => if flag then "true" else "false"
  | .int number => toString number
  | .real number => jsonNumber number
  | .text content => jsonText standIns content
  | .list items => block depth "[" "]" (indentedItems standIns (depth + 1) items)
  | .object fields => block depth "\x7b" "\x7d" (indentedFields standIns (depth + 1) fields)

def indentedItems (standIns : Text.StandIns) (depth : Nat) : List Value → List String
  | [] => []
  | item :: rest => indentedAt standIns depth item :: indentedItems standIns depth rest

def indentedFields (standIns : Text.StandIns) (depth : Nat) : List (String × Value) → List String
  | [] => []
  | (key, value) :: rest =>
      (jsonText standIns key ++ ": " ++ indentedAt standIns depth value) ::
        indentedFields standIns depth rest

end

def indented (standIns : Text.StandIns) (value : Value) : String :=
  value.indentedAt standIns 0

end TableScript.Value
