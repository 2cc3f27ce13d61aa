import TableScript.Document.Display

/-!
When constraints are bound to columns: after every table of a script is known, or as soon as they
are read.
-/

namespace TableScript

inductive Resolution where
  | deferred
  | sequential
  deriving DecidableEq

namespace Resolution

def name : Resolution → String
  | .deferred => "deferred"
  | .sequential => "sequential"

def all : List Resolution := [.deferred, .sequential]

def ofName? (name : String) : Option Resolution :=
  all.find? fun resolution => resolution.name == name

def ofValue? (value : Value) : Option Resolution :=
  value.text?.bind ofName?

def refusal (value : Value) : String :=
  value.display ++ " is not a valid ResolutionMode"

end Resolution

end TableScript
