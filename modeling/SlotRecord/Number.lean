import SlotRecord.Binary64.Rounding

/-!
# Numbers

A number is a signed or unsigned 64-bit integer or a floating-point value.
Equality compares what numbers denote, whatever their variant; the accessors
give a number in one form exactly when it equals a number of that form.
-/

namespace SlotRecord

inductive Number
  | signed (value : Int64)
  | unsigned (value : UInt64)
  | real (value : Binary64)
deriving DecidableEq, Repr

namespace Number

/-- The integer of a number that is held as one. -/
def held? : Number → Option Int
  | .signed value => some value.toInt
  | .unsigned value => some value.toNat
  | .real _ => none

def equal : Number → Number → Bool
  | .real x, .real y => x.equal y
  | .real x, .signed value | .signed value, .real x => x.equalInt value.toInt
  | .real x, .unsigned value | .unsigned value, .real x => x.equalInt value.toNat
  | first, second => first.held? == second.held?

/-- The upper bound rounds up to a power of two that is itself out of range. -/
def toInt64? : Number → Option Int64
  | .signed value => some value
  | .unsigned value =>
    if value.toNat < 2 ^ 63 then some (Int64.ofInt value.toNat) else none
  | .real x =>
    if x.isWhole && (Binary64.ofInt (-2 ^ 63)).le x && x.lt (Binary64.ofInt (2 ^ 63 - 1)) then
      some (Int64.ofInt (x.clamped (-2 ^ 63) (2 ^ 63 - 1)))
    else
      none

def toUInt64? : Number → Option UInt64
  | .signed value =>
    if 0 ≤ value.toInt then some (UInt64.ofNat value.toInt.toNat) else none
  | .unsigned value => some value
  | .real x =>
    if x.isWhole && (Binary64.ofInt 0).le x && x.lt (Binary64.ofInt (2 ^ 64 - 1)) then
      some (UInt64.ofNat (x.clamped 0 (2 ^ 64 - 1)).toNat)
    else
      none

/-- The nearest floating-point value, a tie to the even one. -/
def toBinary64 : Number → Binary64
  | .signed value => Binary64.ofInt value.toInt
  | .unsigned value => Binary64.ofInt value.toNat
  | .real value => value

/-- An unsigned integer in the variant that it has after it was read back:
the signed one if it fits. -/
def ofUInt64 (value : UInt64) : Number :=
  if value.toNat < 2 ^ 63 then .signed (Int64.ofInt value.toNat) else .unsigned value

end Number

end SlotRecord
