import TableScript.Number.Binary64

/-!
The shortest decimal text of a floating-point number: the fewest digits that read back as the
same number and, among those, the digits nearest to it. All comparisons are of whole numbers.
-/

namespace TableScript.Number

/-- A decimal number as its digits and the place of the point: `0.digits` times `10^point`. -/
structure Decimal where
  digits : List Char
  point : Int

/-- The grid of the multiples of `10^place`, seen from a number in quarters of its last binary
digit: `d` on the grid is as large as `x` quarters when `d * stride = x * quarter`. -/
structure Grid where
  place : Int
  stride : Nat
  quarter : Nat

def gridAt (exponent place : Int) : Grid :=
  let scale := exponent - 2
  { place
    stride := tenTo place.toNat * twoTo (-scale).toNat
    quarter := twoTo scale.toNat * tenTo (-place).toNat }

-- The number of digits before the point; for a fraction, zero or less, by its leading zeros.
def wholeDigits (significand : Nat) (exponent : Int) : Int :=
  let shift := (2 - exponent).toNat
  let scaled := 4 * significand * twoTo (exponent - 2).toNat * tenTo shift / twoTo shift
  (digitCount scaled : Int) - shift

/-- Whether a grid point lies among the reals that round to the number. The ends belong to them
when the significand is even; below a power of two the gap is half as wide. -/
def readsBack (significand : Nat) (exponent : Int) (grid : Grid) (d : Nat) : Bool :=
  let gap := if significand = hiddenBit ∧ leastExponent < exponent then 1 else 2
  let low := (4 * significand - gap) * grid.quarter
  let high := (4 * significand + 2) * grid.quarter
  let value := d * grid.stride
  if significand % 2 = 0 then low ≤ value && value ≤ high else low < value && value < high

-- The better of the two grid points around the number that read back; of two, the nearer.
def pointOn (significand : Nat) (exponent : Int) (grid : Grid) : Option Nat :=
  let exact := 4 * significand * grid.quarter
  let below := exact / grid.stride
  let above := below + 1
  match readsBack significand exponent grid below, readsBack significand exponent grid above with
  | false, false => none
  | true, false => some below
  | false, true => some above
  | true, true =>
      let twice := 2 * exact
      let middle := (below + above) * grid.stride
      if twice < middle then some below
      else if middle < twice then some above
      else some (below + below % 2)

def decimalOf (d : Nat) (place : Int) : Decimal :=
  let digits := Nat.toDigits 10 d
  { digits := (digits.reverse.dropWhile (· == '0')).reverse
    point := (digits.length : Int) + place }

/-- Grids of one to seventeen digits are tried in this order, and the first with a point that
reads back wins. -/
def shortest (significand : Nat) (exponent : Int) : Decimal :=
  let whole := wholeDigits significand exponent
  let found := (List.range 17).findSome? fun (count : Nat) =>
    let grid := gridAt exponent (whole - (count + 1 : Nat))
    (pointOn significand exponent grid).map fun d => decimalOf d grid.place
  found.getD ⟨['0'], 1⟩

/-! Writing. Numbers from 0.0001 up to below 10^16 are written with a point; others with a power
of ten that has a sign and at least two digits. -/

structure Spelling where
  infinite : String
  notANumber : String

def zeros (count : Nat) : List Char :=
  List.replicate count '0'

def positional (decimal : Decimal) : List Char :=
  let length : Int := decimal.digits.length
  if decimal.point ≤ 0 then '0' :: '.' :: zeros (-decimal.point).toNat ++ decimal.digits
  else if decimal.point < length then
    decimal.digits.take decimal.point.toNat ++ '.' :: decimal.digits.drop decimal.point.toNat
  else decimal.digits ++ zeros (decimal.point - length).toNat ++ ['.', '0']

def withPower (decimal : Decimal) : List Char :=
  let power := decimal.point - 1
  let written := Nat.toDigits 10 power.natAbs
  let mantissa := match decimal.digits with
    | first :: second :: rest => first :: '.' :: second :: rest
    | digits => digits
  mantissa ++ 'e' :: (if power < 0 then '-' else '+') :: zeros (2 - written.length) ++ written

def magnitudeText (significand : Nat) (exponent : Int) : List Char :=
  if significand = 0 then ['0', '.', '0']
  else
    let decimal := shortest significand exponent
    if -4 < decimal.point ∧ decimal.point ≤ 16 then positional decimal else withPower decimal

def signed (negative : Bool) (text : String) : String :=
  if negative then "-" ++ text else text

def Binary64.text (spelling : Spelling) : Binary64 → String
  | .finite negative significand exponent =>
      signed negative (String.ofList (magnitudeText significand exponent))
  | .infinite negative => signed negative spelling.infinite
  | .notANumber => spelling.notANumber

end TableScript.Number
