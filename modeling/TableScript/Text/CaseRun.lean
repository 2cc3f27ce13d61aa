/-!
Runs of characters in one case. In a run every character is as far from its form in the other case
as the first one, so a table of forms is a short list of runs.
-/

namespace TableScript.Text

/-- The characters from `first` to `last` in steps of `step`; the other form of the first one is
`image`. -/
structure CaseRun where
  first : Nat
  last : Nat
  step : Nat
  image : Nat

def CaseRun.covers (run : CaseRun) (code : Nat) : Bool :=
  run.first ≤ code && code ≤ run.last && (code - run.first) % run.step == 0

def CaseRun.form (run : CaseRun) (code : Nat) : Nat :=
  run.image + (code - run.first)

end TableScript.Text
