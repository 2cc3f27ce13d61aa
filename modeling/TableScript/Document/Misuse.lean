import TableScript.Document.Basic

/-!
Values of a kind that a use of them does not allow, where a document holds them in the place of a
text, a list or an object.
-/

namespace TableScript

inductive Use where
  -- Going through the items.
  | items
  -- Looking at fields.
  | fields
  -- Reading as a data type, or checking for blanks.
  | trimming
  -- Writing as a name.
  | writing
  deriving DecidableEq

structure Misuse where
  use : Use
  kind : Kind
  deriving DecidableEq

namespace Misuse

def message (misuse : Misuse) : String :=
  let kind := "'" ++ misuse.kind.name ++ "'"
  match misuse.use with
  | .items => kind ++ " object is not iterable"
  | .fields => kind ++ " object has no attribute 'get'"
  | .trimming => kind ++ " object has no attribute 'strip'"
  | .writing => "expected string or bytes-like object, got " ++ kind

end Misuse

namespace Value

/-- The fields of an object, and of nothing else. -/
def fields? : Value → Except Misuse (List (String × Value))
  | .object fields => .ok fields
  | value => .error ⟨.fields, value.kind⟩

/-- What there is to go through: items, the characters of a text, or the keys of an object. -/
def items? : Value → Except Misuse (List Value)
  | .list items => .ok items
  | .text content => .ok (content.toList.map fun c => .text (String.singleton c))
  | .object fields => .ok (fields.map fun field => .text field.1)
  | value => .error ⟨.items, value.kind⟩

def textFor (use : Use) (value : Value) : Except Misuse String :=
  match value.text? with
  | some content => .ok content
  | none => .error ⟨use, value.kind⟩

end Value

end TableScript
