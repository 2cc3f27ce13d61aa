import TableScript.Text.Word

/-!
Letters as the lexical rules know them. A rule that is written with a letter accepts it in
either case, and the few characters beyond ASCII that fold to it.
-/

namespace TableScript.Lexeme

/-- Whether a character reads as an upper-case letter of a rule. -/
def readsAs (letter c : Char) : Bool :=
  c.toUpper == letter ||
    (letter == 'I' && (c.toNat == 0x130 || c.toNat == 0x131)) ||
    (letter == 'S' && c.toNat == 0x17F) ||
    (letter == 'K' && c.toNat == 0x212A)

/-- A letter that may begin a name: Latin letters without those beyond the first two blocks. -/
def isNameLead (c : Char) : Bool :=
  let code := c.toNat
  c.isAlpha || (0xC0 ≤ code && code ≤ 0xDC) || (0xE0 ≤ code && code ≤ 0xFC && code != 0xF7) ||
    code == 0x130 || code == 0x131 || code == 0x17F || code == 0x212A || code == 0x212B

end TableScript.Lexeme
