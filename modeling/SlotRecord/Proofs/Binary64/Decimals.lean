import Mathlib.Tactic.Linarith
import SlotRecord.Proofs.Binary64.Nearest

/-!
# Decimals rounded

Rounding keeps the order of numbers, so a decimal that is decided without being computed
is as far away as it was taken to be. Rounding a decimal finds the value nearest to it on
its side of zero, and fails only half a step or more beyond the greatest value.
-/

namespace SlotRecord

namespace Binary64

/-- What is less than half a unit is rounded to nothing. -/
theorem nearestMagnitude_of_lt {numerator denominator : Nat}
    (small : 2 * numerator < denominator) :
    nearestMagnitude numerator denominator = 0 := by
  have none : numerator / denominator = 0 := Nat.div_eq_of_lt (by omega)
  have rest : numerator % denominator = numerator := Nat.mod_eq_of_lt (by omega)
  simp only [nearestMagnitude, none, Nat.log2_zero, Nat.zero_sub, Nat.pow_zero, Nat.mul_one,
    roundedQuotient, rest, Nat.zero_mul, Nat.add_zero]
  simp only [Nat.zero_mod, Nat.reduceBEq, Bool.and_false, Bool.or_false, decide_eq_true_eq]
  rw [if_neg (by omega)]

section

variable {numerator other denominator : Nat} (positive : 0 < denominator)

include positive

theorem nearestMagnitude_le_of_le (ordered : numerator ≤ other) :
    nearestMagnitude numerator denominator ≤ nearestMagnitude other denominator := by
  rcases Nat.eq_or_lt_of_le ordered with rfl | below
  · exact Nat.le_refl _
  · by_contra crossed
    have inverted := Nat.lt_of_not_le crossed
    have gap := Nat.mul_lt_mul_of_pos_right (units_strictMono inverted) positive
    -- Each of the two would have the midpoint between their values on the other's side.
    have first := nearestMagnitude_nearest positive (Nat.ne_of_lt inverted)
    have second := nearestMagnitude_nearest positive (Nat.ne_of_gt inverted)
    simp only [Nat.dist] at first second
    omega

theorem nearestMagnitude_lt_iff :
    nearestMagnitude numerator denominator < infinityMagnitude ↔
      2 * numerator <
        (units (infinityMagnitude - 1) + units infinityMagnitude) * denominator := by
  have last : infinityMagnitude - 1 < infinityMagnitude := by decide
  have step := Nat.mul_lt_mul_of_pos_right (units_strictMono last) positive
  rw [Nat.add_mul]
  constructor
  · intro finite
    by_contra beyond
    have below : nearestMagnitude numerator denominator ≤ infinityMagnitude - 1 := by omega
    have reach := Nat.mul_le_mul_right denominator (units_strictMono.monotone below)
    have nearest := nearestMagnitude_nearest positive (Nat.ne_of_gt finite)
    simp only [Nat.dist] at nearest
    -- As near as the infinity is only the greatest value, which is odd.
    have greatest : units (nearestMagnitude numerator denominator) * denominator =
        units (infinityMagnitude - 1) * denominator := by omega
    have odd := units_injective (Nat.mul_right_cancel positive greatest)
    rw [odd] at nearest
    have parity : (infinityMagnitude - 1) % 2 = 1 := by decide
    omega
  · intro within
    by_contra infinite
    have reach := Nat.mul_le_mul_right denominator
      (units_strictMono.monotone (Nat.le_of_not_lt infinite))
    have apart : infinityMagnitude - 1 ≠ nearestMagnitude numerator denominator := by omega
    have nearest := nearestMagnitude_nearest positive apart
    simp only [Nat.dist] at nearest
    omega

end

/-- Half a step beyond the greatest value. -/
def limit : Nat := 2 ^ 1024 - 2 ^ 970

theorem two_mul_limit :
    units (infinityMagnitude - 1) + units infinityMagnitude = 2 * (limit * unitsOfOne) := by
  decide +kernel

/-- What a number on a side of zero is rounded to: the nearest value there, if the number
is not too far beyond the greatest one. -/
structure Rounds (x : Binary64) (negative : Bool) (number : ℚ) : Prop where
  sign : x.negative = negative
  bounded : number < limit
  nearest : x.IsNearest (signed negative number)

/-- Only one value of a sign is nearest to a number. -/
theorem IsNearest.unique {x y : Binary64} {number : ℚ} (first : x.IsNearest number)
    (second : y.IsNearest number) (sign : x.negative = y.negative) : x = y := by
  by_contra apart
  wlog below : x.magnitude < y.magnitude generalizing x y
  · have above : y.magnitude < x.magnitude := by
      apply Nat.lt_of_le_of_ne (Nat.le_of_not_lt below)
      intro same
      exact apart (ext_sign_magnitude sign same.symm)
    exact this second first sign.symm (Ne.symm apart) above
  have sided : ∀ z : Binary64, z.negative = x.negative →
      |z.toRat - number| = |z.absoluteRat - signed x.negative number| := by
    intro z same
    have turned := abs_signed_sub x.negative z.absoluteRat (signed x.negative number)
    rw [signed_signed, ← same, ← toRat_eq_signed] at turned
    rw [← same]
    exact turned
  have less := (absoluteRat_lt_iff x y).mpr below
  have tie : |x.toRat - number| = |y.toRat - number| :=
    le_antisymm (first.nearest y second.finite) (second.nearest x first.finite)
  have different : x.toRat ≠ y.toRat := by
    intro same
    have absolute := congrArg (signed x.negative) same
    rw [toRat_eq_signed, toRat_eq_signed, ← sign, signed_signed, signed_signed] at absolute
    exact absurd absolute less.ne
  have lowEven := first.even y second.finite different.symm tie.symm
  have highEven := second.even x first.finite different tie
  rw [fractionField_eq] at lowEven highEven
  -- The two are not neighbours, so there is a value between them, which is nearer.
  have inside : x.magnitude + 1 < y.magnitude := by omega
  have finite := Nat.lt_trans inside (magnitude_lt_of_isFinite second.finite)
  have representable : x.magnitude + 1 < 2 ^ 63 := Nat.lt_trans finite (by decide)
  have between := first.nearest (ofMagnitude x.negative (x.magnitude + 1))
    (isFinite_ofMagnitude _ finite)
  have magnitude := magnitude_ofMagnitude x.negative representable
  rw [sided x rfl, sided _ (negative_ofMagnitude x.negative representable)] at between
  rw [sided x rfl, sided y sign.symm] at tie
  have low := (absoluteRat_lt_iff x (ofMagnitude x.negative (x.magnitude + 1))).mpr (by omega)
  have high := (absoluteRat_lt_iff (ofMagnitude x.negative (x.magnitude + 1)) y).mpr (by omega)
  rcases abs_eq_abs.mp tie with same | opposite
  · linarith
  · have left : x.absoluteRat - signed x.negative number < 0 := by linarith
    rw [abs_of_neg left, le_abs] at between
    rcases between with above | under
    · linarith
    · linarith

theorem quotient_lt_limit_iff {numerator denominator : Nat} (positive : 0 < denominator) :
    quotient numerator denominator < limit ↔
      nearestMagnitude numerator denominator < infinityMagnitude := by
  rw [nearestMagnitude_lt_iff positive, two_mul_limit, quotient,
    div_lt_iff₀ (cast_denominator_pos positive), ← Nat.cast_mul, Nat.cast_lt, Nat.mul_assoc,
    Nat.mul_lt_mul_left (by decide), Nat.mul_left_comm, Nat.mul_comm denominator,
    Nat.mul_assoc]

/-- The value of a sign with the magnitude that a quotient is rounded to is what the quotient
is rounded to on that side of zero. -/
theorem rounds_quotient_iff {x : Binary64} {numerator denominator : Nat}
    (positive : 0 < denominator) (negative : Bool) :
    x.Rounds negative (quotient numerator denominator) ↔
      nearestMagnitude numerator denominator < infinityMagnitude ∧
        ofMagnitude negative (nearestMagnitude numerator denominator) = x := by
  have sound : nearestMagnitude numerator denominator < infinityMagnitude →
      (ofMagnitude negative (nearestMagnitude numerator denominator)).Rounds negative
        (quotient numerator denominator) := by
    intro finite
    have representable := Nat.lt_trans finite (show infinityMagnitude < 2 ^ 63 by decide)
    have sign := negative_ofMagnitude negative representable
    have nearest := isNearest_of_magnitude positive (isFinite_ofMagnitude negative finite)
      (magnitude_ofMagnitude negative representable)
    rw [sign] at nearest
    exact ⟨sign, (quotient_lt_limit_iff positive).mpr finite, nearest⟩
  constructor
  · intro rounds
    have finite := (quotient_lt_limit_iff positive).mp rounds.bounded
    refine ⟨finite, (sound finite).nearest.unique rounds.nearest ?_⟩
    rw [(sound finite).sign, rounds.sign]
  · rintro ⟨finite, rfl⟩
    exact sound finite

theorem cast_ten_pow (places : ℕ) : ((10 ^ places : ℕ) : ℚ) = 10 ^ (places : ℤ) := by
  rw [zpow_natCast, Nat.cast_pow]
  rfl

section

variable {digits : Nat} (exponent : Int)

/-- A decimal is at least the power of ten that its first digit counts. -/
theorem pow_le_decimal (positive : 0 < digits) :
    (10 : ℚ) ^ (exponent + Digits.width digits - 1) ≤ digits * 10 ^ exponent := by
  have some := Digits.width_pos digits
  have places : exponent + Digits.width digits - 1 =
      ((Digits.width digits - 1 : ℕ) : ℤ) + exponent := by omega
  rw [places, zpow_add₀ (by decide), ← cast_ten_pow]
  apply mul_le_mul_of_nonneg_right _ (zpow_nonneg (by decide) exponent)
  exact Nat.cast_le.mpr (Digits.pow_width_le positive)

theorem decimal_lt_pow (digits : Nat) :
    digits * (10 : ℚ) ^ exponent < 10 ^ (exponent + Digits.width digits) := by
  rw [add_comm, zpow_add₀ (by decide), ← cast_ten_pow]
  apply mul_lt_mul_of_pos_right _ (zpow_pos (by decide) exponent)
  exact Nat.cast_lt.mpr (Digits.lt_pow_width digits)

/-- A decimal as a quotient of units. -/
def decimalUnits (digits : Nat) (exponent : Int) : Nat :=
  digits * 10 ^ exponent.toNat * unitsOfOne

def decimalPlaces (exponent : Int) : Nat := 10 ^ (-exponent).toNat

theorem decimalPlaces_pos : 0 < decimalPlaces exponent := Nat.pow_pos (by decide)

theorem quotient_decimal (digits : Nat) :
    quotient (decimalUnits digits exponent) (decimalPlaces exponent) =
      digits * 10 ^ exponent := by
  have difference : exponent = (exponent.toNat : ℤ) - ((-exponent).toNat : ℤ) := by omega
  rw [quotient, decimalUnits, decimalPlaces, Nat.cast_mul, Nat.cast_mul _ unitsOfOne,
    mul_div_mul_right _ _ cast_unitsOfOne_ne_zero, Nat.cast_mul, cast_ten_pow, cast_ten_pow,
    mul_div_assoc, ← zpow_sub₀ (by decide), ← difference]

theorem limit_le_pow_ten : limit ≤ 10 ^ 310 := by decide +kernel

theorem two_mul_unitsOfOne_le_pow_ten : 2 * unitsOfOne ≤ 10 ^ 331 := by decide +kernel

/-- A decimal is rounded as the quotient that it is, unless both are found too large. -/
theorem nearestDecimal_eq_or (digits : Nat) :
    nearestDecimal digits exponent =
        nearestMagnitude (decimalUnits digits exponent) (decimalPlaces exponent) ∨
      nearestDecimal digits exponent = infinityMagnitude ∧
        infinityMagnitude ≤
          nearestMagnitude (decimalUnits digits exponent) (decimalPlaces exponent) := by
  rcases Nat.eq_zero_or_pos digits with rfl | positive
  · apply Or.inl
    rw [nearestDecimal_zero, decimalUnits, Nat.zero_mul, Nat.zero_mul,
      nearestMagnitude_zero (decimalPlaces_pos exponent)]
  · rw [nearestDecimal, if_neg positive.ne']
    split
    · next high =>
        refine Or.inr ⟨rfl, ?_⟩
        rw [← Nat.not_lt, ← quotient_lt_limit_iff (decimalPlaces_pos exponent), not_lt,
          quotient_decimal]
        calc
          (limit : ℚ) ≤ (10 ^ 310 : ℕ) := Nat.cast_le.mpr limit_le_pow_ten
          _ = 10 ^ (310 : ℤ) := cast_ten_pow 310
          _ ≤ 10 ^ (exponent + Digits.width digits - 1) :=
            zpow_le_zpow_right₀ (by decide) (by omega)
          _ ≤ digits * 10 ^ exponent := pow_le_decimal exponent positive
    · split
      · next low =>
          refine Or.inl (nearestMagnitude_of_lt ?_).symm
          have places : exponent.toNat = 0 := by omega
          calc
            2 * decimalUnits digits exponent = digits * (2 * unitsOfOne) := by
              rw [decimalUnits, places, Nat.pow_zero, Nat.mul_one, Nat.mul_left_comm]
            _ < 10 ^ Digits.width digits * (2 * unitsOfOne) :=
              Nat.mul_lt_mul_of_pos_right (Digits.lt_pow_width digits)
                (Nat.mul_pos (by decide) unitsOfOne_pos)
            _ ≤ 10 ^ Digits.width digits * 10 ^ 331 :=
              Nat.mul_le_mul_left _ two_mul_unitsOfOne_le_pow_ten
            _ = 10 ^ (Digits.width digits + 331) := by rw [Nat.pow_add]
            _ ≤ decimalPlaces exponent := Nat.pow_le_pow_right (by decide) (by omega)
      · split
        · next whole =>
            have places : (-exponent).toNat = 0 := by omega
            rw [decimalUnits, decimalPlaces, places, Nat.pow_zero]
            exact Or.inl rfl
        · next fractional =>
            have places : exponent.toNat = 0 := by omega
            rw [decimalUnits, decimalPlaces, places, Nat.pow_zero, Nat.mul_one]
            exact Or.inl rfl

theorem nearestDecimal_lt_iff (digits : Nat) :
    nearestDecimal digits exponent < infinityMagnitude ↔
      nearestMagnitude (decimalUnits digits exponent) (decimalPlaces exponent) <
        infinityMagnitude := by
  rcases nearestDecimal_eq_or exponent digits with same | ⟨large, alike⟩
  · rw [same]
  · omega

theorem nearestDecimal_of_lt
    (finite : nearestDecimal digits exponent < infinityMagnitude) :
    nearestDecimal digits exponent =
      nearestMagnitude (decimalUnits digits exponent) (decimalPlaces exponent) := by
  rcases nearestDecimal_eq_or exponent digits with same | ⟨large, _⟩
  · exact same
  · exact absurd large finite.ne

/-- A decimal with a value is read as what it is rounded to. -/
theorem ofDecimal?_eq_some_iff {x : Binary64} {negative : Bool} (digits : Nat) :
    ofDecimal? negative digits exponent = some x ↔
      x.Rounds negative (digits * 10 ^ exponent) := by
  rw [← quotient_decimal, rounds_quotient_iff (decimalPlaces_pos exponent),
    ← nearestDecimal_lt_iff, ofDecimal?]
  constructor
  · intro found
    split at found
    · next finite =>
        refine ⟨finite, ?_⟩
        rw [← nearestDecimal_of_lt exponent finite]
        exact Option.some.inj found
    · cases found
  · rintro ⟨finite, rfl⟩
    rw [if_pos finite, nearestDecimal_of_lt exponent finite]

end

/-- Rounding decimals keeps their order as long as they have values. -/
theorem nearestDecimal_mono {digits others : Nat} {exponent shift : Int}
    (ordered : (digits : ℚ) * 10 ^ exponent ≤ others * 10 ^ shift)
    (finite : nearestDecimal others shift < infinityMagnitude) :
    nearestDecimal digits exponent ≤ nearestDecimal others shift := by
  have first := decimalPlaces_pos exponent
  have second := decimalPlaces_pos shift
  have crossed : decimalUnits digits exponent * decimalPlaces shift ≤
      decimalUnits others shift * decimalPlaces exponent := by
    rw [← quotient_decimal, ← quotient_decimal, quotient, quotient,
      div_le_div_iff₀ (cast_denominator_pos first) (cast_denominator_pos second),
      ← Nat.cast_mul, ← Nat.cast_mul, Nat.cast_le, ← Nat.mul_assoc, ← Nat.mul_assoc] at ordered
    exact Nat.le_of_mul_le_mul_right ordered unitsOfOne_pos
  have rounded := nearestMagnitude_le_of_le (Nat.mul_pos first second) crossed
  rw [nearestMagnitude_mul_right second, Nat.mul_comm (decimalPlaces exponent),
    nearestMagnitude_mul_right first, ← nearestDecimal_of_lt shift finite] at rounded
  rcases nearestDecimal_eq_or exponent digits with same | ⟨large, alike⟩
  · rw [same]
    exact rounded
  · omega

end Binary64

end SlotRecord
