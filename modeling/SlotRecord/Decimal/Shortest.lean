import SlotRecord.Binary64.Rounding

/-!
# Shortest decimals

The decimal with the fewest digits that rounds to a given magnitude. For 1, 2,
… 17 digits the two neighbours of the exact value on that grid are tried. The
first grid with a hit wins, of two hits the nearer, and between equally near
ones the format decides. Should no grid have a hit, the exact value is taken,
so the result always reads back.
-/

namespace SlotRecord

/-- Which of two equally near decimals is taken. -/
inductive Tie
  | even
  | up
deriving DecidableEq, Repr

/-- The number `digits · 10 ^ exponent`. -/
structure Decimal where
  digits : Nat
  exponent : Int
deriving DecidableEq, Repr

namespace Decimal

/-- Whether the decimal rounds to the magnitude. -/
def ReadsAs (decimal : Decimal) (magnitude : Nat) : Prop :=
  Binary64.nearestDecimal decimal.digits decimal.exponent = magnitude

instance (decimal : Decimal) (magnitude : Nat) :
    Decidable (decimal.ReadsAs magnitude) :=
  inferInstanceAs (Decidable (_ = _))

/-- The places that a unit has after the point: it is `5 ^ 1074 · 10 ^ (-1074)`. -/
def unitPlaces : Nat := 1074

/-- The value of a magnitude without rounding. -/
def exact (magnitude : Nat) : Decimal :=
  ⟨Binary64.units magnitude * 5 ^ unitPlaces, -unitPlaces⟩

/-- The hit on the grid of `dropped` digits less than the exact value has: of
its two neighbours the nearer one is tried first. -/
def neighbour? (tie : Tie) (magnitude dropped : Nat) : Option Decimal :=
  let whole := (exact magnitude).digits
  let step := 10 ^ dropped
  let lower : Decimal := ⟨whole / step, dropped - unitPlaces⟩
  let upper : Decimal := ⟨whole / step + 1, dropped - unitPlaces⟩
  let twice := 2 * (whole % step)
  let upperIsNearer := decide (step < twice) ||
    (twice == step && (tie == .up || lower.digits % 2 == 1))
  (if upperIsNearer then [upper, lower] else [lower, upper]).find? fun candidate =>
    decide (candidate.ReadsAs magnitude)

/-- Zeros at the end of the digits go into the exponent. -/
def trimmed (digits : Nat) (exponent : Int) : Decimal :=
  if digits = 0 ∨ digits % 10 ≠ 0 then ⟨digits, exponent⟩
  else trimmed (digits / 10) (exponent + 1)

def shortest (tie : Tie) (magnitude : Nat) : Decimal :=
  let full := Digits.width (exact magnitude).digits
  let found := (List.range 17).findSome? fun fewer =>
    neighbour? tie magnitude (full - (fewer + 1))
  let decimal := found.getD (exact magnitude)
  trimmed decimal.digits decimal.exponent

end Decimal

end SlotRecord
