import Mathlib.Algebra.Order.Field.Rat
import SlotRecord.Proofs.Binary64.Rounding
import SlotRecord.Proofs.Number

/-!
# What numbers denote

A number denotes a rational number or an infinity, unless it is NaN. Which one can
be read off its bits, field by field. Numbers are equal exactly if they denote the
same.
-/

namespace SlotRecord

/-- A rational number, or the infinity of a sign. -/
inductive Denotation
  | rational (value : ℚ)
  | infinity (negative : Bool)
deriving DecidableEq

namespace Binary64

/-- The eleven bits below the sign. -/
def exponentField (x : Binary64) : Nat := x.bits.toNat / 2 ^ 52 % 2 ^ 11

/-- The lowest 52 bits. -/
def fractionField (x : Binary64) : Nat := x.bits.toNat % 2 ^ 52

/-- The absolute value of the fields: a significand times a power of two. The
significand has a leading one unless the exponent field is zero. -/
def absoluteRat (x : Binary64) : ℚ :=
  if x.exponentField = 0 then (x.fractionField : ℚ) * 2 ^ (-1074 : ℤ)
  else ((2 ^ 52 + x.fractionField : ℕ) : ℚ) * 2 ^ ((x.exponentField : ℤ) - 1075)

def toRat (x : Binary64) : ℚ := if x.negative then -x.absoluteRat else x.absoluteRat

/-- With the highest exponent field a value is an infinity or NaN. -/
def denotation? (x : Binary64) : Option Denotation :=
  if x.exponentField < 2047 then some (.rational x.toRat)
  else if x.fractionField = 0 then some (.infinity x.negative)
  else none

variable (x y : Binary64)

theorem fractionField_eq : x.fractionField = x.magnitude % 2 ^ 52 := by
  rw [fractionField, magnitude]
  omega

theorem exponentField_eq : x.exponentField = x.magnitude / 2 ^ 52 := by
  rw [exponentField, magnitude]
  omega

theorem isFinite_iff : x.isFinite = true ↔ x.exponentField < 2047 := by
  rw [isFinite, decide_eq_true_eq, exponentField_eq, infinityMagnitude]
  omega

theorem isNaN_iff : x.isNaN = true ↔ 2047 ≤ x.exponentField ∧ x.fractionField ≠ 0 := by
  have bounded : x.magnitude < 2 ^ 63 := Nat.mod_lt _ (by decide)
  rw [isNaN, decide_eq_true_eq, exponentField_eq, fractionField_eq, infinityMagnitude]
  omega

theorem cast_two_pow (exponent : ℕ) :
    ((2 ^ exponent : ℕ) : ℚ) = 2 ^ (exponent : ℤ) := by
  rw [zpow_natCast, Nat.cast_pow]
  rfl

theorem cast_unitsOfOne : (unitsOfOne : ℚ) = 2 ^ (1074 : ℤ) := by
  simp only [unitsOfOne, cast_two_pow, Nat.cast_ofNat]

theorem absoluteRat_eq : x.absoluteRat = (units x.magnitude : ℚ) / unitsOfOne := by
  have quotient := x.exponentField_eq
  have unit : (1 : ℚ) / unitsOfOne = 2 ^ (-1074 : ℤ) := by
    rw [cast_unitsOfOne, one_div, ← zpow_neg]
  rw [← mul_one_div, unit, absoluteRat]
  by_cases subnormal : x.magnitude < 2 ^ 52
  · have kept : x.fractionField = x.magnitude := by
      rw [fractionField_eq]
      omega
    rw [units_of_lt subnormal, if_pos (by omega), kept]
  · have steps : (x.exponentField : ℤ) - 1075 =
        ((x.exponentField - 1 : ℕ) : ℤ) + -1074 := by omega
    rw [units_of_le (by omega), if_neg (by omega), ← quotient, ← fractionField_eq, steps,
      zpow_add₀ (by decide), ← cast_two_pow, ← mul_assoc, Nat.cast_mul]

theorem toRat_eq : x.toRat = (x.signedUnits : ℚ) / unitsOfOne := by
  rw [toRat, signedUnits, absoluteRat_eq]
  split
  · rw [Int.cast_neg, Int.cast_natCast, neg_div]
  · rw [Int.cast_natCast]

theorem cast_unitsOfOne_ne_zero : (unitsOfOne : ℚ) ≠ 0 :=
  Nat.cast_ne_zero.mpr unitsOfOne_pos.ne'

theorem toRat_eq_toRat_iff : x.toRat = y.toRat ↔ x.signedUnits = y.signedUnits := by
  rw [toRat_eq, toRat_eq, div_left_inj' cast_unitsOfOne_ne_zero, Int.cast_inj]

theorem toRat_eq_cast_iff (value : Int) :
    x.toRat = value ↔ x.signedUnits = value * unitsOfOne := by
  rw [toRat_eq, div_eq_iff cast_unitsOfOne_ne_zero, ← Int.cast_natCast, ← Int.cast_mul,
    Int.cast_inj]

theorem units_injective : Function.Injective units := by
  intro first second same
  rw [← nearestMagnitude_units first, same, nearestMagnitude_units]

theorem units_eq_zero_iff (magnitude : Nat) : units magnitude = 0 ↔ magnitude = 0 := by
  have nothing : units 0 = 0 := units_of_lt (by decide)
  rw [← nothing]
  exact units_injective.eq_iff

/-- Two numbers of units are one, or they are of the two zeros. -/
theorem signedUnits_eq_iff :
    x.signedUnits = y.signedUnits ↔
      x.magnitude = y.magnitude ∧ (x.negative = y.negative ∨ x.magnitude = 0) := by
  have magnitudes := units_injective.eq_iff (a := x.magnitude) (b := y.magnitude)
  have first := units_eq_zero_iff x.magnitude
  have second := units_eq_zero_iff y.magnitude
  cases left : x.negative <;> cases right : y.negative <;>
    simp only [signedUnits, left, right, if_true, if_false, Bool.false_eq_true,
      Bool.true_eq_false, true_or, and_true, false_or] <;>
    omega

theorem equal_of_isFinite (first : x.isFinite = true) (second : y.isFinite = true) :
    x.equal y = true ↔ x.toRat = y.toRat := by
  rw [toRat_eq_toRat_iff, signedUnits_eq_iff, equal, isNaN_of_isFinite first,
    isNaN_of_isFinite second]
  simp

theorem denotation?_eq_rational_iff (value : ℚ) :
    x.denotation? = some (.rational value) ↔ x.isFinite = true ∧ x.toRat = value := by
  rw [isFinite_iff, denotation?]
  split
  · simp [*]
  · split <;> simp [*]

theorem denotation?_eq_infinity_iff (negative : Bool) :
    x.denotation? = some (.infinity negative) ↔
      x.magnitude = infinityMagnitude ∧ x.negative = negative := by
  have bounded : x.magnitude < 2 ^ 63 := Nat.mod_lt _ (by decide)
  have fields : x.magnitude = infinityMagnitude ↔
      ¬x.exponentField < 2047 ∧ x.fractionField = 0 := by
    rw [exponentField_eq, fractionField_eq, infinityMagnitude]
    omega
  rw [fields, denotation?]
  split
  · simp [*]
  · split <;> simp [*]

theorem denotation?_eq_none_iff : x.denotation? = none ↔ x.isNaN = true := by
  rw [isNaN_iff, ← Nat.not_lt, denotation?]
  split
  · simp [*]
  · split <;> simp [*]

theorem toInt?_eq_some_iff (value : Int) :
    x.toInt? = some value ↔ x.denotation? = some (.rational value) := by
  rw [toInt?_eq_some_iff_signedUnits, ← toRat_eq_cast_iff,
    denotation?_eq_rational_iff]

/-- Values are equal exactly if they denote the same. -/
theorem equal_iff_denotation? :
    x.equal y = true ↔
      ∃ denoted, x.denotation? = some denoted ∧ y.denotation? = some denoted := by
  constructor
  · intro same
    have number : x.isNaN = false := by
      simp only [equal, Bool.and_eq_true, Bool.not_eq_true'] at same
      exact same.1.1.1
    rcases eq_or_zero_of_equal same with rfl | ⟨left, right⟩
    · have denotes : x.denotation? ≠ none := by
        rw [Ne, denotation?_eq_none_iff, number]
        exact Bool.false_ne_true
      obtain ⟨denoted, found⟩ := Option.ne_none_iff_exists'.mp denotes
      exact ⟨denoted, found, found⟩
    · have first := toInt?_of_magnitude_zero left
      have second := toInt?_of_magnitude_zero right
      rw [toInt?_eq_some_iff] at first second
      exact ⟨_, first, second⟩
  · rintro ⟨denoted, left, right⟩
    cases denoted with
    | rational value =>
        rw [denotation?_eq_rational_iff] at left right
        exact (equal_of_isFinite x y left.1 right.1).mpr (left.2.trans right.2.symm)
    | infinity negative =>
        have number : x.isNaN = false := by
          rw [← Bool.not_eq_true, ← denotation?_eq_none_iff, left]
          exact Option.some_ne_none _
        rw [denotation?_eq_infinity_iff] at left right
        have one : x = y :=
          ext_sign_magnitude (left.2.trans right.2.symm) (left.1.trans right.1.symm)
        rw [← one]
        exact equal_self number

end Binary64

namespace Number

/-- What a number denotes. -/
def denotation? : Number → Option Denotation
  | .signed value => some (.rational (value.toInt : ℚ))
  | .unsigned value => some (.rational (value.toNat : ℚ))
  | .real value => value.denotation?

def isNaN : Number → Bool
  | .real value => value.isNaN
  | _ => false

theorem denotation?_eq_none_iff (number : Number) :
    number.denotation? = none ↔ number.isNaN = true := by
  cases number with
  | real x => exact x.denotation?_eq_none_iff
  | _ => simp [denotation?, isNaN]

theorem toInt?_eq_some_iff (number : Number) (value : Int) :
    number.toInt? = some value ↔ number.denotation? = some (.rational value) := by
  cases number with
  | signed number => simp [toInt?, denotation?]
  | unsigned number =>
      rw [toInt?, denotation?, Option.some.injEq, Option.some.injEq,
        Denotation.rational.injEq, ← Int.cast_natCast (R := ℚ), Int.cast_inj]
  | real x => exact x.toInt?_eq_some_iff value

theorem denotation?_of_held {number : Number} {denoted : Denotation}
    (held : ∀ x, number ≠ .real x) (found : number.denotation? = some denoted) :
    ∃ value : Int, denoted = .rational value := by
  cases number with
  | signed number =>
      cases found
      exact ⟨number.toInt, rfl⟩
  | unsigned number =>
      cases found
      exact ⟨number.toNat, by rw [Int.cast_natCast]⟩
  | real x => exact absurd rfl (held x)

/-- Numbers are equal exactly if they denote the same, whatever their variants. -/
theorem equal_iff_denotation? (first second : Number) :
    first.equal second = true ↔
      ∃ denoted, first.denotation? = some denoted ∧
        second.denotation? = some denoted := by
  by_cases reals : ∃ x y, first = .real x ∧ second = .real y
  · obtain ⟨x, y, rfl, rfl⟩ := reals
    exact x.equal_iff_denotation? y
  · have held : ∀ x y, ¬(first = .real x ∧ second = .real y) := by
      intro x y both
      exact reals ⟨x, y, both⟩
    simp only [equal_iff_toInt? held, toInt?_eq_some_iff]
    constructor
    · rintro ⟨value, left, right⟩
      exact ⟨_, left, right⟩
    · rintro ⟨denoted, left, right⟩
      -- One of the two is held as an integer, so it is an integer that both denote.
      have integer : ∃ value : Int, denoted = .rational value := by
        by_cases real : ∃ x, first = .real x
        · obtain ⟨x, rfl⟩ := real
          apply denotation?_of_held _ right
          intro y equality
          exact held x y ⟨rfl, equality⟩
        · apply denotation?_of_held _ left
          intro x equality
          exact real ⟨x, equality⟩
      obtain ⟨value, rfl⟩ := integer
      exact ⟨value, left, right⟩

end Number

end SlotRecord
