import SlotRecord.Text.Digits

/-!
# Binary floating point

A `Binary64` is its 64 bits. Without the sign they are a number, the
`magnitude`, whose order is the order of the absolute values. Every finite
absolute value is a whole number of `units`, the least positive value, so all
comparison and rounding is arithmetic on natural numbers.
-/

namespace SlotRecord

structure Binary64 where
  bits : UInt64
deriving DecidableEq, Repr

namespace Binary64

/-- One is this many units: the least positive value is `2 ^ (-1074)`. -/
def unitsOfOne : Nat := 2 ^ 1074

def infinityMagnitude : Nat := 2047 * 2 ^ 52

def negative (x : Binary64) : Bool := decide (2 ^ 63 ≤ x.bits.toNat)

def magnitude (x : Binary64) : Nat := x.bits.toNat % 2 ^ 63

def ofMagnitude (negative : Bool) (magnitude : Nat) : Binary64 :=
  ⟨UInt64.ofNat (if negative then 2 ^ 63 + magnitude else magnitude)⟩

def isNaN (x : Binary64) : Bool := decide (infinityMagnitude < x.magnitude)

def isFinite (x : Binary64) : Bool := decide (x.magnitude < infinityMagnitude)

/-- The absolute value of a finite magnitude, counted in units. The lowest 52
bits are the fraction; above the subnormal magnitudes a leading one is implied
and each step of the exponent doubles the value. -/
def units (magnitude : Nat) : Nat :=
  if magnitude < 2 ^ 52 then magnitude
  else (2 ^ 52 + magnitude % 2 ^ 52) * 2 ^ (magnitude / 2 ^ 52 - 1)

/-- Equality of values: NaN equals nothing and the two zeros are equal. -/
def equal (x y : Binary64) : Bool :=
  !x.isNaN && !y.isNaN && x.magnitude == y.magnitude &&
    (x.negative == y.negative || x.magnitude == 0)

/-- A value as a number of units. An infinity counts as the magnitude that follows
the finite ones, so values are ordered as these numbers are. -/
def signedUnits (x : Binary64) : Int :=
  if x.negative then -(units x.magnitude : Int) else units x.magnitude

/-- The order of values, in which NaN has no place. -/
def le (x y : Binary64) : Bool :=
  !x.isNaN && !y.isNaN && decide (x.signedUnits ≤ y.signedUnits)

def lt (x y : Binary64) : Bool :=
  !x.isNaN && !y.isNaN && decide (x.signedUnits < y.signedUnits)

/-- Whether the fraction of a value is zero, as that of an infinity is not. -/
def isWhole (x : Binary64) : Bool :=
  x.isFinite && units x.magnitude % unitsOfOne == 0

/-- The cast to a type of integers. It cuts the fraction off and stops at the bounds
of the type; NaN becomes zero. -/
def clamped (lowest highest : Int) (x : Binary64) : Int :=
  if x.isNaN then 0 else max lowest (min highest (x.signedUnits.tdiv unitsOfOne))

/-- Equality with an integer, in 128 bits so that no integer of 64 bits is at a bound. -/
def equalInt (x : Binary64) (value : Int) : Bool :=
  x.isWhole && x.clamped (-2 ^ 127) (2 ^ 127 - 1) == value

end Binary64

end SlotRecord
