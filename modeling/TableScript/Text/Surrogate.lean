/-!
Surrogates. Beyond the first plane a character is written as a pair of units, a high one and a
low one. One of them alone is no character. A text that is to hold one holds a stand-in for it: a
character of a block that the text does not use otherwise. The blocks are taken from planes in
which no character is assigned, so a stand-in is as little a letter, a digit or a blank as what
it stands for, and cannot be shown either.
-/

namespace TableScript.Text

def isHighUnit (unit : Nat) : Bool := 0xD800 ≤ unit && unit < 0xDC00
def isLowUnit (unit : Nat) : Bool := 0xDC00 ≤ unit && unit < 0xE000

def firstUnit : Nat := 0xD800
def unitCount : Nat := 0x800

def ofPair (high low : Nat) : Char :=
  Char.ofNat (0x10000 + (high - 0xD800) * 0x400 + (low - 0xDC00))

/-- A block of characters, one for each lone surrogate, by the code of its first one. -/
structure StandIns where
  base : Nat
  deriving DecidableEq

namespace StandIns

/-- No character stands for anything but itself: the block lies behind the last character. -/
def none : StandIns := ⟨0x110000⟩

def covers (standIns : StandIns) (c : Char) : Bool :=
  standIns.base ≤ c.toNat && c.toNat < standIns.base + unitCount

/-- The lone surrogate that a character stands for. -/
def unit? (standIns : StandIns) (c : Char) : Option Nat :=
  if standIns.covers c then some (firstUnit + (c.toNat - standIns.base)) else .none

/-- The character of a unit: the one with this code, or the stand-in of a lone surrogate. -/
def charOf (standIns : StandIns) (unit : Nat) : Char :=
  if isHighUnit unit || isLowUnit unit then Char.ofNat (standIns.base + (unit - firstUnit))
  else Char.ofNat unit

def first : StandIns := ⟨0x40000⟩

-- The blocks from the fourth plane to the thirteenth.
def blocks : List StandIns :=
  (List.range 320).map fun n => ⟨first.base + n * unitCount⟩

/-- The first block that some characters leave free. -/
def apartFrom (chars : List Char) : StandIns :=
  (blocks.find? fun block => !chars.any block.covers).getD first

end StandIns

end TableScript.Text
