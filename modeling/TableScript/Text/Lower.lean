import TableScript.Text.LowerTable

/-!
Lower-case forms of characters. Two characters are the same letter in any case if their lower-case
forms are one.
-/

namespace TableScript.Text

def lowerChar (c : Char) : Char :=
  if c.toNat < 128 then c.toLower
  else
    match lowerRuns.find? (·.covers c.toNat) with
    | some run => Char.ofNat (run.form c.toNat)
    | none => c

end TableScript.Text
