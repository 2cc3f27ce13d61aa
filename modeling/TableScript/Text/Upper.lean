import TableScript.Text.UpperTable

/-!
Upper-case forms of texts. One character may have an upper-case form of several.
-/

namespace TableScript.Text

def upperRun? (code : Nat) : Option CaseRun :=
  upperRuns.find? (·.covers code)

def upperChar (c : Char) : List Char :=
  if c.toNat < 128 then [c.toUpper]
  else
    match upperRun? c.toNat with
    | some run => [Char.ofNat (run.form c.toNat)]
    | none =>
        match upperExpansions.lookup c.toNat with
        | some codes => codes.map Char.ofNat
        | none => [c]

def upper (text : String) : String :=
  String.ofList (text.toList.flatMap upperChar)

end TableScript.Text
