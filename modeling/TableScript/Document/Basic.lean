import TableScript.Number.Binary64

/-!
Documents: values of any shape, as they are stored beside a schema. Objects keep their fields in
order, one field for each key. Values are compared by what they mean: a flag counts as the
number 0 or 1, whole numbers and floating-point numbers are equal when they are the same number,
and the order of an object's fields does not matter. What is not a number equals nothing, itself
included; as a part of something larger it is the same as itself, or no copy of the larger thing
would be equal to it.
-/

namespace TableScript

inductive Value where
  | null
  | bool (flag : Bool)
  | int (number : Int)
  | real (number : Number.Binary64)
  | text (content : String)
  | list (items : List Value)
  | object (fields : List (String × Value))

inductive Kind where
  | null
  | bool
  | int
  | real
  | text
  | list
  | object
  deriving DecidableEq

namespace Kind

def name : Kind → String
  | .null => "NoneType"
  | .bool => "bool"
  | .int => "int"
  | .real => "float"
  | .text => "str"
  | .list => "list"
  | .object => "dict"

end Kind

namespace Value

def kind : Value → Kind
  | .null => .null
  | .bool _ => .bool
  | .int _ => .int
  | .real _ => .real
  | .text _ => .text
  | .list _ => .list
  | .object _ => .object

/-- Whether a value counts as true: null, zero and whatever is empty do not. -/
def holds : Value → Bool
  | .null => false
  | .bool flag => flag
  | .int number => number != 0
  | .real number => !number.isZero
  | .text content => content != ""
  | .list items => !items.isEmpty
  | .object fields => !fields.isEmpty

def text? : Value → Option String
  | .text content => some content
  | _ => none

-- A flag as a number, and a whole number as itself.
def whole? : Value → Option Int
  | .bool flag => some (if flag then 1 else 0)
  | .int number => some number
  | _ => none

def lookup (key : String) : List (String × Value) → Option Value
  | [] => none
  | (other, value) :: rest => if other = key then some value else lookup key rest

/-- Sets a field: a new key goes to the end, a known one keeps its place. -/
def put (key : String) (value : Value) : List (String × Value) → List (String × Value)
  | [] => [(key, value)]
  | (other, old) :: rest =>
      if other = key then (key, value) :: rest else (other, old) :: put key value rest

def sameNumber (a b : Value) : Bool :=
  match a, b with
  | .real x, .real y => x.sameNumber y
  | .real x, _ => (whole? b).elim false x.sameInt
  | _, .real y => (whole? a).elim false y.sameInt
  | _, _ => match whole? a, whole? b with
    | some m, some n => m == n
    | _, _ => false

-- The one value that does not equal itself.
def areNoNumbers : Value → Value → Bool
  | .real .notANumber, .real .notANumber => true
  | _, _ => false

mutual

def same : Value → Value → Bool
  | .null, .null => true
  | .text a, .text b => a == b
  | .list a, .list b => sameItems a b
  | .object a, .object b => a.length == b.length && sameFields a b
  | a, b => sameNumber a b

def sameItems : List Value → List Value → Bool
  | [], [] => true
  | a :: restA, b :: restB => (areNoNumbers a b || same a b) && sameItems restA restB
  | _, _ => false

def sameFields : List (String × Value) → List (String × Value) → Bool
  | [], _ => true
  | (key, value) :: rest, other =>
      (match lookup key other with
        | some found => areNoNumbers value found || same value found
        | none => false) && sameFields rest other

end

/-- Equality of values as parts of something larger. -/
def samePart (a b : Value) : Bool :=
  areNoNumbers a b || same a b

end Value

/-! Types whose elements can be shown as documents: names and flags of a schema may be plain
texts and truth values, or whatever a document held in their place. -/

class ToValue (α : Type) where
  toValue : α → Value

export ToValue (toValue)

class OfText (α : Type) extends ToValue α where
  ofText : String → α

class OfFlag (α : Type) extends ToValue α where
  ofFlag : Bool → α

export OfText (ofText)
export OfFlag (ofFlag)

instance : OfText String := { toValue := .text, ofText := id }
instance : OfFlag Bool := { toValue := .bool, ofFlag := id }
instance : OfText Value := { toValue := id, ofText := .text }
instance : OfFlag Value := { toValue := id, ofFlag := .bool }

section Stored

variable {α : Type} [ToValue α]

def sameStored (a b : α) : Bool :=
  (toValue a).same (toValue b)

def sameStoredPart (a b : α) : Bool :=
  (toValue a).samePart (toValue b)

def holdsStored (a : α) : Bool :=
  (toValue a).holds

end Stored

end TableScript
