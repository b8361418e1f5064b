import SlotRecord.Binary64.Basic

/-!
# Rounding to binary floating point

The nearest value to an exact quotient, a tie going to the even magnitude.
Integers, decimals and single-precision values all pass through
`nearestMagnitude`, so they are rounded once and correctly.
-/

namespace SlotRecord

/-- A quotient rounded to the nearest integer, a tie to the even one. -/
def roundedQuotient (numerator denominator : Nat) : Nat :=
  let whole := numerator / denominator
  let twice := 2 * (numerator % denominator)
  if denominator < twice || (twice == denominator && whole % 2 == 1) then whole + 1
  else whole

namespace Binary64

/-- The magnitude nearest to a quotient of units. From `infinityMagnitude` on
the result tells that the quotient is too large. Values of 53 bits and fewer
are rounded to units, a longer one to as many bits less as it is longer. -/
def nearestMagnitude (numerator denominator : Nat) : Nat :=
  let dropped := Nat.log2 (numerator / denominator) - 52
  roundedQuotient numerator (denominator * 2 ^ dropped) + dropped * 2 ^ 52

def ofInt (number : Int) : Binary64 :=
  ofMagnitude (decide (number < 0)) (nearestMagnitude (number.natAbs * unitsOfOne) 1)

/-- The magnitude nearest to `digits · 10 ^ exponent`. Powers of ten far
outside the range are decided without being computed. -/
def nearestDecimal (digits : Nat) (exponent : Int) : Nat :=
  let height := exponent + Digits.width digits
  if digits = 0 then 0
  else if 310 < height then infinityMagnitude
  else if height < -330 then 0
  else if 0 ≤ exponent then
    nearestMagnitude (digits * 10 ^ exponent.toNat * unitsOfOne) 1
  else
    nearestMagnitude (digits * unitsOfOne) (10 ^ (-exponent).toNat)

/-- The value nearest to a decimal, unless it is too large to be finite. -/
def ofDecimal? (negative : Bool) (digits : Nat) (exponent : Int) : Option Binary64 :=
  let magnitude := nearestDecimal digits exponent
  if magnitude < infinityMagnitude then some (ofMagnitude negative magnitude) else none

/-- Widening of a single-precision value. Every finite one is kept exactly; a
NaN keeps its sign and payload and becomes quiet. -/
def ofSingle (bits : UInt32) : Binary64 :=
  let negative := decide (2 ^ 31 ≤ bits.toNat)
  let magnitude := bits.toNat % 2 ^ 31
  let fraction := magnitude % 2 ^ 23
  let exponent := magnitude / 2 ^ 23
  if exponent = 255 then
    if fraction = 0 then ofMagnitude negative infinityMagnitude
    else ofMagnitude negative (infinityMagnitude + 2 ^ 51 + fraction % 2 ^ 22 * 2 ^ 29)
  else if exponent = 0 then
    ofMagnitude negative (nearestMagnitude (fraction * 2 ^ 925) 1)
  else
    ofMagnitude negative
      (nearestMagnitude ((2 ^ 23 + fraction) * 2 ^ (exponent - 1) * 2 ^ 925) 1)

end Binary64

end SlotRecord
