import TableScript.Text.WordTable

/-!
Word characters: letters and numerals of any script, and the underscore. Decimal digits are the
numerals that stand for 0 to 9 in a positional notation.
-/

namespace TableScript.Text

def inRanges (ranges : List (Nat × Nat)) (code : Nat) : Bool :=
  ranges.any fun range => range.1 ≤ code && code ≤ range.2

def isWordChar (c : Char) : Bool :=
  c.isAlphanum || c == '_' || (128 ≤ c.toNat && inRanges letterOrNumeralRanges c.toNat)

def isDecimalDigit (c : Char) : Bool :=
  c.isDigit || (128 ≤ c.toNat && inRanges decimalDigitRanges c.toNat)

end TableScript.Text
