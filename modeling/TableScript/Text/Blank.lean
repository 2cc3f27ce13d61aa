/-!
Blank characters, and the two operations that only look at them: cutting blanks from both ends
of a text, and cutting a text into its words.
-/

namespace TableScript.Text

def isBlank (c : Char) : Bool :=
  let code := c.toNat
  (9 ≤ code && code ≤ 13) || (0x1C ≤ code && code ≤ 0x20) || code == 0x85 || code == 0xA0 ||
    code == 0x1680 || (0x2000 ≤ code && code ≤ 0x200A) || code == 0x2028 || code == 0x2029 ||
    code == 0x202F || code == 0x205F || code == 0x3000

def trimChars (chars : List Char) : List Char :=
  ((chars.dropWhile isBlank).reverse.dropWhile isBlank).reverse

def trim (text : String) : String :=
  String.ofList (trimChars text.toList)

-- The word that is still open at the left end, and the finished words after it.
def splitWords : List Char → List Char × List (List Char)
  | [] => ([], [])
  | c :: rest =>
      match splitWords rest with
      | (current, done) =>
          if isBlank c then ([], if current.isEmpty then done else current :: done)
          else (c :: current, done)

/-- The maximal runs of characters that are not blank, in order. -/
def words (text : String) : List String :=
  match splitWords text.toList with
  | (current, done) => (if current.isEmpty then done else current :: done).map String.ofList

end TableScript.Text
