import TableScript.Text.Word
import TableScript.Text.UnprintableTable

/-!
Characters that can be shown as themselves.
-/

namespace TableScript.Text

def isPrintable (c : Char) : Bool :=
  if c.toNat < 128 then 0x20 ≤ c.toNat && c.toNat != 0x7F
  else !inRanges unprintableRanges c.toNat

end TableScript.Text
