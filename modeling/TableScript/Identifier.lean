import TableScript.Keyword
import TableScript.Text.Blank
import TableScript.Text.Upper

/-!
Names as they are written: bare, or between quotes of one of three forms. Cleaning takes a
written name to the name it means, and quoting writes a name so that it reads back.
-/

namespace TableScript.Identifier

-- Between quotes, a doubled quote is one quote.
def undouble (quote : Char) : List Char → List Char
  | [] => []
  | [c] => [c]
  | c :: d :: rest =>
      if c = quote ∧ d = quote then quote :: undouble quote rest
      else c :: undouble quote (d :: rest)

def double (quote : Char) (chars : List Char) : List Char :=
  chars.flatMap fun c => if c = quote then [c, c] else [c]

def cleanChars (chars : List Char) : List Char :=
  -- Zero-width spaces come along with copied text.
  let bare := Text.trimChars (chars.filter fun c => c.toNat != 0x200B)
  match bare with
  | '"' :: rest => if rest.getLast? = some '"' then undouble '"' rest.dropLast else bare
  | '\x60' :: rest => if rest.getLast? = some '\x60' then undouble '\x60' rest.dropLast else bare
  | '[' :: rest => if rest.getLast? = some ']' then rest.dropLast else bare
  | _ => bare

def clean (written : String) : String :=
  String.ofList (cleanChars written.toList)

def isLead (c : Char) : Bool :=
  c.isAlpha || c == '_'

def isInner (c : Char) : Bool :=
  c.isAlphanum || c == '_'

/-- Whether a name is a plain identifier. One line feed at its end does not count. -/
def isPlainChars : List Char → Bool
  | [] => false
  | c :: rest => isLead c && (rest.dropWhile isInner == [] || rest.dropWhile isInner == ['\n'])

def isPlain (name : String) : Bool :=
  isPlainChars name.toList

def quote (name : String) : String :=
  String.ofList ('"' :: double '"' name.toList ++ ['"'])

/-- Writes a name bare where it reads back bare, and in double quotes otherwise. -/
def write (name : String) : String :=
  if isPlain name && !Keyword.quotedNames.contains (Text.upper name) then name else quote name

end TableScript.Identifier
