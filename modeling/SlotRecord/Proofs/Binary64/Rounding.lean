import Mathlib.Tactic.Ring
import SlotRecord.Binary64.Rounding
import SlotRecord.Proofs.Text.Digits

/-!
# Rounding of exact values

Rounding looks only at the value of a quotient, not at how it is written: a
common factor, or a power of ten that moves between digits and exponent, makes
no difference. A magnitude whose value is given exactly is found again.
-/

namespace SlotRecord

theorem roundedQuotient_mul_right {factor : Nat} (positive : 0 < factor)
    (numerator denominator : Nat) :
    roundedQuotient (numerator * factor) (denominator * factor) =
      roundedQuotient numerator denominator := by
  have whole : numerator * factor / (denominator * factor) =
      numerator / denominator :=
    Nat.mul_div_mul_right numerator denominator positive
  have twice : 2 * (numerator * factor % (denominator * factor)) =
      2 * (numerator % denominator) * factor := by
    rw [Nat.mul_mod_mul_right, Nat.mul_assoc]
  simp only [roundedQuotient, whole, twice, Nat.mul_lt_mul_right positive,
    beq_iff_eq, Bool.or_eq_true, Bool.and_eq_true, decide_eq_true_eq,
    Nat.mul_right_cancel_iff positive]

theorem roundedQuotient_mul_self {denominator : Nat} (positive : 0 < denominator)
    (value : Nat) : roundedQuotient (value * denominator) denominator = value := by
  have whole : value * denominator / denominator = value :=
    Nat.mul_div_cancel value positive
  have rest : value * denominator % denominator = 0 :=
    Nat.mul_mod_left value denominator
  have different : ((0 : Nat) == denominator) = false := by
    simp
    omega
  simp [roundedQuotient, whole, rest, different]

namespace Binary64

theorem nearestMagnitude_mul_right {factor : Nat} (positive : 0 < factor)
    (numerator denominator : Nat) :
    nearestMagnitude (numerator * factor) (denominator * factor) =
      nearestMagnitude numerator denominator := by
  have whole : numerator * factor / (denominator * factor) =
      numerator / denominator :=
    Nat.mul_div_mul_right numerator denominator positive
  have moved : ∀ dropped, denominator * factor * 2 ^ dropped =
      denominator * 2 ^ dropped * factor := fun dropped => by ring
  simp only [nearestMagnitude, whole, moved, roundedQuotient_mul_right positive]

theorem units_of_lt {magnitude : Nat} (subnormal : magnitude < 2 ^ 52) :
    units magnitude = magnitude := by
  rw [units, if_pos subnormal]

theorem units_of_le {magnitude : Nat} (normal : 2 ^ 52 ≤ magnitude) :
    units magnitude =
      (2 ^ 52 + magnitude % 2 ^ 52) * 2 ^ (magnitude / 2 ^ 52 - 1) := by
  rw [units, if_neg (by omega)]

theorem units_pos {magnitude : Nat} (positive : 0 < magnitude) :
    0 < units magnitude := by
  by_cases subnormal : magnitude < 2 ^ 52
  · rw [units_of_lt subnormal]
    exact positive
  · rw [units_of_le (by omega)]
    exact Nat.mul_pos (by omega) (Nat.two_pow_pos _)

/-- All finite values lie below `2 ^ 1024`, which is `2 ^ 2098` units. -/
theorem units_lt {magnitude bits : Nat} (finite : magnitude < infinityMagnitude)
    (wide : 1024 + 1074 ≤ bits) : units magnitude < 2 ^ bits := by
  by_cases subnormal : magnitude < 2 ^ 52
  · rw [units_of_lt subnormal]
    exact Nat.lt_of_lt_of_le subnormal
      (Nat.pow_le_pow_right (by decide) (by omega))
  · have steps : magnitude / 2 ^ 52 - 1 ≤ 2045 := by
      simp only [infinityMagnitude] at finite
      omega
    have significand : 2 ^ 52 + magnitude % 2 ^ 52 < 2 ^ 53 := by omega
    rw [units_of_le (by omega)]
    calc
      (2 ^ 52 + magnitude % 2 ^ 52) * 2 ^ (magnitude / 2 ^ 52 - 1)
          < 2 ^ 53 * 2 ^ (magnitude / 2 ^ 52 - 1) :=
        Nat.mul_lt_mul_of_pos_right significand (Nat.two_pow_pos _)
      _ = 2 ^ (53 + (magnitude / 2 ^ 52 - 1)) := (Nat.pow_add _ _ _).symm
      _ ≤ 2 ^ bits := Nat.pow_le_pow_right (by decide) (by omega)

theorem log2_significand {fraction : Nat} (bounded : fraction < 2 ^ 52) (shift : Nat) :
    Nat.log2 ((2 ^ 52 + fraction) * 2 ^ shift) = 52 + shift := by
  have positive : 0 < 2 ^ shift := Nat.two_pow_pos shift
  have nonzero : (2 ^ 52 + fraction) * 2 ^ shift ≠ 0 :=
    (Nat.mul_pos (by omega) positive).ne'
  apply (Nat.log2_eq_iff nonzero).mpr
  constructor
  · rw [Nat.pow_add]
    exact Nat.mul_le_mul_right _ (by omega)
  · have next : 2 ^ (52 + shift + 1) = 2 ^ 53 * 2 ^ shift := by
      rw [← Nat.pow_add]
      congr 1
      omega
    rw [next]
    exact Nat.mul_lt_mul_of_pos_right (by omega) positive

/-- Rounding finds the magnitude whose exact value it is given. -/
theorem nearestMagnitude_units (magnitude : Nat) :
    nearestMagnitude (units magnitude) 1 = magnitude := by
  by_cases subnormal : magnitude < 2 ^ 52
  · have short : Nat.log2 magnitude - 52 = 0 := by
      by_cases zero : magnitude = 0
      · simp [zero]
      · have bound : Nat.log2 magnitude < 52 :=
          (Nat.log2_lt zero).mpr subnormal
        omega
    have exact := roundedQuotient_mul_self Nat.one_pos magnitude
    rw [Nat.mul_one] at exact
    simp [nearestMagnitude, units_of_lt subnormal, short, exact]
  · have fraction : magnitude % 2 ^ 52 < 2 ^ 52 := Nat.mod_lt _ (by decide)
    have dropped :
        52 + (magnitude / 2 ^ 52 - 1) - 52 = magnitude / 2 ^ 52 - 1 := by omega
    rw [nearestMagnitude, Nat.div_one, units_of_le (by omega),
      log2_significand fraction]
    simp only [dropped, Nat.one_mul]
    rw [roundedQuotient_mul_self (Nat.two_pow_pos _)]
    omega

theorem nearestDecimal_zero (exponent : Int) : nearestDecimal 0 exponent = 0 := by
  simp [nearestDecimal]

theorem nearestDecimal_mul_ten (digits : Nat) (exponent : Int) :
    nearestDecimal (digits * 10) (exponent - 1) = nearestDecimal digits exponent := by
  by_cases zero : digits = 0
  · simp [zero, nearestDecimal_zero]
  · have nonzero : digits * 10 ≠ 0 := by omega
    have height : exponent - 1 + (Digits.width (digits * 10) : Nat) =
        exponent + (Digits.width digits : Nat) := by
      rw [Digits.width_mul_ten (by omega)]
      omega
    simp only [nearestDecimal, zero, nonzero, height, if_false]
    congr 2
    -- The sign of the exponent decides which side of the quotient has the power.
    rcases lt_trichotomy exponent 0 with negative | none | positive
    · have places : (-(exponent - 1)).toNat = (-exponent).toNat + 1 := by omega
      rw [if_neg (by omega), if_neg (by omega), places, Nat.pow_succ,
        Nat.mul_right_comm, nearestMagnitude_mul_right (by decide)]
    · subst none
      have factored : digits * 10 * unitsOfOne = digits * 10 ^ 0 * unitsOfOne * 10 := by
        ring
      have unit := nearestMagnitude_mul_right (show 0 < 10 by decide)
        (digits * 10 ^ 0 * unitsOfOne) 1
      simpa [factored] using unit
    · have shifted : exponent.toNat = (exponent - 1).toNat + 1 := by omega
      rw [if_pos (by omega), if_pos (by omega), shifted, Nat.pow_succ]
      congr 2
      ring

theorem nearestDecimal_mul_pow (digits places : Nat) (exponent : Int) :
    nearestDecimal (digits * 10 ^ places) (exponent - places) =
      nearestDecimal digits exponent := by
  induction places with
  | zero => simp
  | succ places induction =>
      have product : digits * 10 ^ (places + 1) = digits * 10 ^ places * 10 := by
        rw [Nat.pow_succ, Nat.mul_assoc]
      have difference : exponent - (places + 1 : Nat) = exponent - places - 1 := by
        omega
      rw [product, difference, nearestDecimal_mul_ten, induction]

end Binary64

end SlotRecord
