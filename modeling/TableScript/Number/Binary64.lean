/-!
Binary floating-point numbers of 64 bits, kept as the exact values they stand for. A finite
number is a significand below 2^53 times a power of two; the power is as small as it can be
for its value, and never below -1074, so each value has one representation, zero apart, which
has a sign.
-/

namespace TableScript.Number

inductive Binary64 where
  | finite (negative : Bool) (significand : Nat) (exponent : Int)
  | infinite (negative : Bool)
  | notANumber
  deriving DecidableEq

def twoTo (power : Nat) : Nat :=
  Nat.pow 2 power

def tenTo (power : Nat) : Nat :=
  Nat.pow 10 power

def leastExponent : Int := -1074
def greatestExponent : Int := 971
def hiddenBit : Nat := twoTo 52

-- The quotient to the nearest whole number; a tie goes to the even one.
def roundedQuotient (numerator denominator : Nat) : Nat :=
  let quotient := numerator / denominator
  let rest := numerator % denominator
  if 2 * rest < denominator then quotient
  else if denominator < 2 * rest then quotient + 1
  else quotient + quotient % 2

-- A quotient divided by 2^exponent, again as a quotient.
def inUnitsOf (exponent : Int) (numerator denominator : Nat) : Nat × Nat :=
  (numerator * twoTo (-exponent).toNat, denominator * twoTo exponent.toNat)

/-- The number nearest to a quotient; of two that are equally near, the one with the even
significand. -/
def ofQuotient (negative : Bool) (numerator denominator : Nat) : Binary64 :=
  if numerator = 0 then .finite negative 0 leastExponent
  else
    let estimate := max leastExponent
      ((Nat.log2 numerator : Int) - (Nat.log2 denominator : Int) - 53)
    let (above, below) := inUnitsOf estimate numerator denominator
    let exponent := if above / below < 2 * hiddenBit then estimate else estimate + 1
    let (above, below) := inUnitsOf exponent numerator denominator
    let significand := roundedQuotient above below
    let (significand, exponent) :=
      if significand = 2 * hiddenBit then (hiddenBit, exponent + 1) else (significand, exponent)
    if greatestExponent < exponent then .infinite negative
    else .finite negative significand exponent

def digitCount (n : Nat) : Nat :=
  (Nat.toDigits 10 n).length

/-- The number nearest to `digits` times a power of ten. Magnitudes far outside the range are
decided before any power is computed. -/
def ofDecimal (negative : Bool) (digits : Nat) (power : Int) : Binary64 :=
  let magnitude := (digitCount digits : Int) + power
  if digits = 0 ∨ magnitude < -330 then .finite negative 0 leastExponent
  else if 330 < magnitude then .infinite negative
  else ofQuotient negative (digits * tenTo power.toNat) (tenTo (-power).toNat)

def Binary64.isZero : Binary64 → Bool
  | .finite _ significand _ => significand == 0
  | _ => false

/-- Equality of the numbers meant: zeros of either sign are equal, and what is not a number
equals nothing. -/
def Binary64.sameNumber : Binary64 → Binary64 → Bool
  | .notANumber, _ => false
  | a, b => a == b || (a.isZero && b.isZero)

def Binary64.sameInt : Binary64 → Int → Bool
  | .finite negative significand exponent, n =>
      significand * twoTo exponent.toNat == n.natAbs * twoTo (-exponent).toNat &&
        (significand == 0 || negative == decide (n < 0))
  | _, _ => false

/-- Whether a number is at least as great as a whole one. -/
def Binary64.reaches : Binary64 → Nat → Bool
  | .finite negative significand exponent, n =>
      n == 0 && significand == 0 ||
        !negative && decide (n * twoTo (-exponent).toNat ≤ significand * twoTo exponent.toNat)
  | .infinite negative, _ => !negative
  | .notANumber, _ => false

end TableScript.Number
