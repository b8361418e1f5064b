import SlotRecord.Decimal.Shortest
import SlotRecord.Decimal.Numeral

/-!
# Styles of writing floating-point values

A style says which of two equally near shortest decimals is taken, which
values are written positionally, whether a positional integral value keeps its
`.0`, and how wide an exponent is at least.
-/

namespace SlotRecord

structure FloatStyle where
  tie : Tie
  /-- Powers of ten of the leading digit, from the first on and below the
  second, that are written positionally; all of them if there is no range. -/
  positional : Option (Int × Int)
  pointZero : Bool
  exponentWidth : Nat

namespace FloatStyle

def isPositional (style : FloatStyle) (power : Int) : Bool :=
  match style.positional with
  | none => true
  | some (lowest, bound) => decide (lowest ≤ power) && decide (power < bound)

def integralFraction (style : FloatStyle) : List Digit :=
  if style.pointZero then Digits.fixed 1 0 else []

def positionalNumeral (style : FloatStyle) (negative : Bool) (decimal : Decimal) :
    Numeral :=
  if 0 ≤ decimal.exponent then
    ⟨negative, decimal.digits * 10 ^ decimal.exponent.toNat,
      style.integralFraction, none⟩
  else
    let places := (-decimal.exponent).toNat
    ⟨negative, decimal.digits / 10 ^ places,
      Digits.fixed places (decimal.digits % 10 ^ places), none⟩

/-- One digit before the point and the power of ten behind it. -/
def scientificNumeral (negative : Bool) (digits : Nat) (power : Int) : Numeral :=
  match Digits.ofNat digits with
  | [] => ⟨negative, 0, [], some power⟩
  | lead :: rest => ⟨negative, lead.val, rest, some power⟩

/-- The numeral of a finite value. -/
def numeral (style : FloatStyle) (x : Binary64) : Numeral :=
  if x.magnitude = 0 then ⟨x.negative, 0, style.integralFraction, none⟩
  else
    let decimal := Decimal.shortest style.tie x.magnitude
    let power := decimal.exponent + Digits.width decimal.digits - 1
    if style.isPositional power then style.positionalNumeral x.negative decimal
    else scientificNumeral x.negative decimal.digits power

/-- The text of a finite value. -/
def text (style : FloatStyle) (x : Binary64) : List Char :=
  (style.numeral x).text style.exponentWidth

end FloatStyle

end SlotRecord
