import Mathlib.Algebra.Order.Field.Basic
import Mathlib.Data.Nat.Dist
import SlotRecord.Proofs.Denotation

/-!
# Nearest values

There is no value between a magnitude and the next one, so nothing is nearer to a
quotient than the two magnitudes around it. Rounding takes the nearer of these.
-/

namespace SlotRecord

theorem roundedQuotient_eq_or (numerator denominator : Nat) :
    roundedQuotient numerator denominator = numerator / denominator ∨
      roundedQuotient numerator denominator = numerator / denominator + 1 := by
  rw [roundedQuotient]
  split
  · exact Or.inr rfl
  · exact Or.inl rfl

/-- No point outside the interval between two multiples is nearer than the rounded one.
One that is as near shows that the multiple is even. -/
theorem roundedQuotient_nearest {numerator denominator point : Nat}
    (positive : 0 < denominator)
    (outside : point ≤ numerator / denominator * denominator ∨
      (numerator / denominator + 1) * denominator ≤ point)
    (apart : point ≠ roundedQuotient numerator denominator * denominator) :
    Nat.dist (roundedQuotient numerator denominator * denominator) numerator <
        Nat.dist point numerator ∨
      Nat.dist (roundedQuotient numerator denominator * denominator) numerator =
          Nat.dist point numerator ∧
        roundedQuotient numerator denominator % 2 = 0 := by
  have parts : numerator / denominator * denominator + numerator % denominator = numerator :=
    Nat.div_add_mod' numerator denominator
  have rest : numerator % denominator < denominator := Nat.mod_lt numerator positive
  rw [Nat.succ_mul] at outside
  rw [roundedQuotient] at apart ⊢
  simp only [Bool.or_eq_true, Bool.and_eq_true, decide_eq_true_eq, beq_iff_eq, Nat.dist]
    at apart ⊢
  split at apart
  · rename_i upward
    rw [if_pos upward]
    rw [Nat.succ_mul] at apart ⊢
    omega
  · rename_i downward
    rw [if_neg downward]
    omega

namespace Binary64

/-- A significand that is doubled a number of times. It may be the one with which the
next doubling begins. -/
theorem units_add {significand steps : Nat} (bounded : significand ≤ 2 ^ 53)
    (leading : steps = 0 ∨ 2 ^ 52 ≤ significand) :
    units (significand + steps * 2 ^ 52) = significand * 2 ^ steps := by
  by_cases subnormal : significand < 2 ^ 52
  · have none : steps = 0 := leading.resolve_right (Nat.not_le_of_lt subnormal)
    rw [none, Nat.zero_mul, Nat.add_zero, units_of_lt subnormal, Nat.pow_zero, Nat.mul_one]
  · rw [units_of_le (by omega)]
    rcases Nat.eq_or_lt_of_le bounded with rfl | within
    · have fraction : (2 ^ 53 + steps * 2 ^ 52) % 2 ^ 52 = 0 := by omega
      have exponent : (2 ^ 53 + steps * 2 ^ 52) / 2 ^ 52 - 1 = steps + 1 := by omega
      rw [fraction, exponent]
      ring
    · have fraction : 2 ^ 52 + (significand + steps * 2 ^ 52) % 2 ^ 52 = significand := by
        omega
      have exponent : (significand + steps * 2 ^ 52) / 2 ^ 52 - 1 = steps := by omega
      rw [fraction, exponent]

theorem units_strictMono : StrictMono units := by
  apply strictMono_nat_of_lt_succ
  intro magnitude
  -- The next magnitude has the next significand, be it that of the next doubling.
  obtain ⟨significand, steps, rfl, bounded, leading⟩ :
      ∃ significand steps, magnitude = significand + steps * 2 ^ 52 ∧
        significand < 2 ^ 53 ∧ (steps = 0 ∨ 2 ^ 52 ≤ significand) := by
    refine ⟨magnitude - (magnitude / 2 ^ 52 - 1) * 2 ^ 52, magnitude / 2 ^ 52 - 1, ?_, ?_, ?_⟩
    · omega
    · omega
    · omega
  have next : significand + steps * 2 ^ 52 + 1 = significand + 1 + steps * 2 ^ 52 := by omega
  rw [next, units_add (Nat.le_of_lt bounded) leading, units_add bounded (by omega)]
  exact Nat.mul_lt_mul_of_pos_right (Nat.lt_succ_self _) (Nat.two_pow_pos _)

/-- What is left of a quotient without its lowest bits is a significand. -/
theorem significand_bounds (quotient : Nat) :
    quotient / 2 ^ (Nat.log2 quotient - 52) < 2 ^ 53 ∧
      (Nat.log2 quotient - 52 = 0 ∨ 2 ^ 52 ≤ quotient / 2 ^ (Nat.log2 quotient - 52)) := by
  have positive := Nat.two_pow_pos (Nat.log2 quotient - 52)
  constructor
  · rw [Nat.div_lt_iff_lt_mul positive, ← Nat.pow_add]
    apply Nat.lt_of_lt_of_le Nat.lt_log2_self
    apply Nat.pow_le_pow_right
    · decide
    · omega
  · rw [Nat.le_div_iff_mul_le positive, ← Nat.pow_add]
    rcases Nat.eq_zero_or_pos (Nat.log2 quotient - 52) with none | some
    · exact Or.inl none
    · have nonzero : quotient ≠ 0 := by
        rintro rfl
        exact absurd some (by decide)
      have length : 52 + (Nat.log2 quotient - 52) = Nat.log2 quotient := by omega
      rw [length]
      exact Or.inr (Nat.log2_self_le nonzero)

/-- No magnitude is nearer to a quotient than the one to which it is rounded. One that is
as near shows that this one is even. -/
theorem nearestMagnitude_nearest {numerator denominator other : Nat}
    (positive : 0 < denominator) (apart : other ≠ nearestMagnitude numerator denominator) :
    Nat.dist (units (nearestMagnitude numerator denominator) * denominator) numerator <
        Nat.dist (units other * denominator) numerator ∨
      Nat.dist (units (nearestMagnitude numerator denominator) * denominator) numerator =
          Nat.dist (units other * denominator) numerator ∧
        nearestMagnitude numerator denominator % 2 = 0 := by
  obtain ⟨bounded, leading⟩ := significand_bounds (numerator / denominator)
  rw [Nat.div_div_eq_div_mul] at bounded leading
  have different : units other * denominator ≠
      units (nearestMagnitude numerator denominator) * denominator := fun same =>
    apart (units_strictMono.injective (Nat.mul_right_cancel positive same))
  rw [nearestMagnitude] at different ⊢
  generalize Nat.log2 (numerator / denominator) - 52 = steps at *
  have scaled : ∀ significand ≤ 2 ^ 53, (steps = 0 ∨ 2 ^ 52 ≤ significand) →
      units (significand + steps * 2 ^ 52) * denominator =
        significand * (denominator * 2 ^ steps) := by
    intro significand within normal
    rw [units_add within normal, Nat.mul_right_comm, Nat.mul_assoc]
  have chosen := roundedQuotient_eq_or numerator (denominator * 2 ^ steps)
  rw [scaled _ (by omega) (by omega)] at different ⊢
  have multiple : 0 < denominator * 2 ^ steps := Nat.mul_pos positive (Nat.two_pow_pos steps)
  -- The magnitudes around the quotient are neighbours, so any other is beyond one of them.
  have outside : units other * denominator ≤
        numerator / (denominator * 2 ^ steps) * (denominator * 2 ^ steps) ∨
      (numerator / (denominator * 2 ^ steps) + 1) * (denominator * 2 ^ steps) ≤
        units other * denominator := by
    rw [← scaled _ bounded.le leading, ← scaled _ bounded (by omega)]
    rcases Nat.lt_or_ge (numerator / (denominator * 2 ^ steps) + steps * 2 ^ 52) other
      with above | below
    · apply Or.inr
      apply Nat.mul_le_mul_right
      apply units_strictMono.monotone
      omega
    · apply Or.inl
      apply Nat.mul_le_mul_right
      exact units_strictMono.monotone below
  rcases roundedQuotient_nearest multiple outside different with nearer | ⟨tie, even⟩
  · exact Or.inl nearer
  · exact Or.inr ⟨tie, by omega⟩

theorem nearestMagnitude_le {numerator denominator bits : Nat}
    (bounded : numerator / denominator < 2 ^ bits) :
    nearestMagnitude numerator denominator ≤ 2 ^ 53 + (bits - 53) * 2 ^ 52 := by
  obtain ⟨significand, _⟩ := significand_bounds (numerator / denominator)
  rw [Nat.div_div_eq_div_mul] at significand
  have chosen := roundedQuotient_eq_or numerator
    (denominator * 2 ^ (Nat.log2 (numerator / denominator) - 52))
  have steps : Nat.log2 (numerator / denominator) - 52 ≤ bits - 53 := by
    rcases Nat.eq_zero_or_pos (numerator / denominator) with none | some
    · simp [none]
    · have length := (Nat.log2_lt (Nat.ne_of_gt some)).mpr bounded
      omega
  rw [nearestMagnitude]
  omega

/-- Integers far below the greatest value are rounded to finite ones. -/
theorem nearestMagnitude_lt {number bits : Nat} (bounded : number < 2 ^ bits)
    (short : bits ≤ 1023) : nearestMagnitude (number * unitsOfOne) 1 < infinityMagnitude := by
  have scaled : number * unitsOfOne / 1 < 2 ^ (bits + 1074) := by
    rw [Nat.div_one, Nat.pow_add, ← unitsOfOne]
    exact Nat.mul_lt_mul_of_pos_right bounded unitsOfOne_pos
  have below := nearestMagnitude_le scaled
  rw [infinityMagnitude]
  omega

/-- Whether a value is the one nearest to a number. If another is as near, its last bit
is zero. -/
structure IsNearest (x : Binary64) (number : ℚ) : Prop where
  finite : x.isFinite = true
  nearest : ∀ y : Binary64, y.isFinite = true → |x.toRat - number| ≤ |y.toRat - number|
  even : ∀ y : Binary64, y.isFinite = true → y.toRat ≠ x.toRat →
    |y.toRat - number| = |x.toRat - number| → x.fractionField % 2 = 0

/-- A value that is a number is nearest to it, and so is no other. -/
theorem IsNearest.toRat_eq {x y : Binary64} {number : ℚ} (nearest : x.IsNearest number)
    (finite : y.isFinite = true) (exact : y.toRat = number) : x.toRat = number := by
  have least := nearest.nearest y finite
  rw [exact, sub_self, abs_zero] at least
  exact sub_eq_zero.mp (abs_nonpos_iff.mp least)

/-- A number on a side of zero. -/
def signed (negative : Bool) (number : ℚ) : ℚ := if negative then -number else number

theorem signed_signed (negative : Bool) (number : ℚ) :
    signed negative (signed negative number) = number := by
  cases negative with
  | true => exact neg_neg number
  | false => rfl

theorem signed_zero (negative : Bool) : signed negative 0 = 0 := by
  cases negative with
  | true => exact neg_zero
  | false => rfl

theorem abs_signed (negative : Bool) {number : ℚ} (nonneg : 0 ≤ number) :
    |signed negative number| = number := by
  cases negative with
  | true => exact (abs_neg number).trans (abs_of_nonneg nonneg)
  | false => exact abs_of_nonneg nonneg

theorem abs_signed_sub (negative : Bool) (first second : ℚ) :
    |signed negative first - signed negative second| = |first - second| := by
  cases negative with
  | true =>
      have opposite : -first - -second = -(first - second) := by ring
      exact (congrArg abs opposite).trans (abs_neg _)
  | false => rfl

theorem toRat_eq_signed (x : Binary64) : x.toRat = signed x.negative x.absoluteRat := rfl

theorem cast_unitsOfOne_pos : (0 : ℚ) < unitsOfOne := Nat.cast_pos.mpr unitsOfOne_pos

theorem absoluteRat_nonneg (x : Binary64) : 0 ≤ x.absoluteRat := by
  rw [absoluteRat_eq]
  exact div_nonneg (Nat.cast_nonneg _) cast_unitsOfOne_pos.le

theorem abs_toRat (x : Binary64) : |x.toRat| = x.absoluteRat := by
  rw [toRat_eq_signed]
  exact abs_signed x.negative x.absoluteRat_nonneg

theorem toRat_eq_zero_iff (x : Binary64) : x.toRat = 0 ↔ x.magnitude = 0 := by
  rw [← abs_eq_zero, abs_toRat, absoluteRat_eq, div_eq_zero_iff, Nat.cast_eq_zero,
    units_eq_zero_iff]
  exact or_iff_left cast_unitsOfOne_ne_zero

theorem absoluteRat_lt_iff (x y : Binary64) :
    x.absoluteRat < y.absoluteRat ↔ x.magnitude < y.magnitude := by
  rw [absoluteRat_eq, absoluteRat_eq, div_lt_div_iff_of_pos_right cast_unitsOfOne_pos,
    Nat.cast_lt, units_strictMono.lt_iff_lt]

theorem cast_dist (first second : Nat) :
    ((Nat.dist first second : ℕ) : ℚ) = |(first : ℚ) - second| := by
  rcases Nat.le_total first second with below | above
  · rw [Nat.dist_eq_sub_of_le below, Nat.cast_sub below, abs_sub_comm, abs_of_nonneg]
    exact sub_nonneg.mpr (Nat.cast_le.mpr below)
  · rw [Nat.dist_eq_sub_of_le_right above, Nat.cast_sub above, abs_of_nonneg]
    exact sub_nonneg.mpr (Nat.cast_le.mpr above)

/-- Values of one magnitude are the same or opposite. -/
theorem toRat_eq_or_neg {x y : Binary64} (same : y.magnitude = x.magnitude) :
    y.toRat = x.toRat ∨ y.toRat = -x.toRat := by
  have absolute : y.absoluteRat = x.absoluteRat := by rw [absoluteRat_eq, absoluteRat_eq, same]
  rw [toRat_eq_signed, toRat_eq_signed, absolute]
  cases y.negative with
  | true =>
      cases x.negative with
      | true => exact Or.inl rfl
      | false => exact Or.inr rfl
  | false =>
      cases x.negative with
      | true => exact Or.inr (neg_neg _).symm
      | false => exact Or.inl rfl

/-- Opposite numbers are equally far from zero only. -/
theorem eq_zero_of_abs_neg_sub {first second : ℚ} (apart : -first ≠ first)
    (tie : |-first - second| = |first - second|) : second = 0 := by
  rcases abs_eq_abs.mp tie with same | opposite
  · exact absurd (sub_left_inj.mp same) apart
  · rw [neg_sub, sub_eq_sub_iff_add_eq_add, neg_add_cancel, ← two_mul] at opposite
    exact (mul_eq_zero.mp opposite.symm).resolve_left two_ne_zero

/-- A value is at least as far from a number as their absolute values are apart. -/
theorem abs_absoluteRat_sub_le (x : Binary64) (negative : Bool) {number : ℚ}
    (nonneg : 0 ≤ number) : |x.absoluteRat - number| ≤ |x.toRat - signed negative number| := by
  have apart := abs_abs_sub_abs_le x.toRat (signed negative number)
  rwa [abs_toRat, abs_signed negative nonneg] at apart

theorem nearestMagnitude_zero {denominator : Nat} (positive : 0 < denominator) :
    nearestMagnitude 0 denominator = 0 := by
  have scaled := nearestMagnitude_mul_right positive 0 1
  rw [Nat.zero_mul, Nat.one_mul] at scaled
  have nothing := nearestMagnitude_units 0
  rw [units_of_lt (by decide)] at nothing
  exact scaled.trans nothing

section

variable {numerator denominator : Nat} (positive : 0 < denominator)

/-- The number that a quotient of units is. -/
def quotient (numerator denominator : Nat) : ℚ := numerator / (denominator * unitsOfOne : Nat)

theorem quotient_nonneg (numerator denominator : Nat) : 0 ≤ quotient numerator denominator :=
  div_nonneg (Nat.cast_nonneg _) (Nat.cast_nonneg _)

include positive

theorem cast_denominator_pos : (0 : ℚ) < (denominator * unitsOfOne : Nat) :=
  Nat.cast_pos.mpr (Nat.mul_pos positive unitsOfOne_pos)

theorem quotient_eq_zero_iff : quotient numerator denominator = 0 ↔ numerator = 0 := by
  rw [quotient, div_eq_zero_iff, or_iff_left (cast_denominator_pos positive).ne',
    Nat.cast_eq_zero]

theorem abs_absoluteRat_sub_quotient (x : Binary64) :
    |x.absoluteRat - quotient numerator denominator| =
      (Nat.dist (units x.magnitude * denominator) numerator : ℕ) /
        (denominator * unitsOfOne : Nat) := by
  have common : x.absoluteRat =
      (units x.magnitude * denominator : Nat) / (denominator * unitsOfOne : Nat) := by
    rw [absoluteRat_eq, Nat.cast_mul, Nat.cast_mul, mul_comm (units x.magnitude : ℚ),
      mul_div_mul_left _ _ (Nat.cast_ne_zero.mpr positive.ne')]
  rw [common, quotient, ← sub_div, abs_div, cast_dist,
    abs_of_pos (cast_denominator_pos positive)]

/-- The value of a quotient's side of zero whose magnitude is the one that the quotient is
rounded to is nearest to it. -/
theorem isNearest_of_magnitude {x : Binary64} (finite : x.isFinite = true)
    (rounded : x.magnitude = nearestMagnitude numerator denominator) :
    x.IsNearest (signed x.negative (quotient numerator denominator)) := by
  have here : |x.toRat - signed x.negative (quotient numerator denominator)| =
      |x.absoluteRat - quotient numerator denominator| := by
    rw [toRat_eq_signed, abs_signed_sub]
  have far : ∀ y : Binary64, |y.absoluteRat - quotient numerator denominator| ≤
      |y.toRat - signed x.negative (quotient numerator denominator)| := fun y =>
    y.abs_absoluteRat_sub_le x.negative (quotient_nonneg numerator denominator)
  have near : ∀ y : Binary64, y.magnitude ≠ x.magnitude →
      |x.absoluteRat - quotient numerator denominator| <
          |y.absoluteRat - quotient numerator denominator| ∨
        |x.absoluteRat - quotient numerator denominator| =
            |y.absoluteRat - quotient numerator denominator| ∧ x.magnitude % 2 = 0 := by
    intro y apart
    rw [abs_absoluteRat_sub_quotient positive, abs_absoluteRat_sub_quotient positive,
      div_lt_div_iff_of_pos_right (cast_denominator_pos positive), Nat.cast_lt,
      div_left_inj' (cast_denominator_pos positive).ne', Nat.cast_inj]
    rw [rounded] at apart ⊢
    exact nearestMagnitude_nearest positive apart
  refine ⟨finite, ?_, ?_⟩
  · intro y _
    rw [here]
    apply le_trans _ (far y)
    by_cases same : y.magnitude = x.magnitude
    · rw [absoluteRat_eq, absoluteRat_eq, same]
    · rcases near y same with nearer | ⟨tie, _⟩
      · exact nearer.le
      · exact tie.le
  · intro y _ apart tie
    have even : x.magnitude % 2 = 0 := by
      by_cases same : y.magnitude = x.magnitude
      · have opposite := (toRat_eq_or_neg same).resolve_left apart
        rw [opposite] at apart tie
        have nothing := congrArg (signed x.negative) (eq_zero_of_abs_neg_sub apart tie)
        rw [signed_signed, signed_zero, quotient_eq_zero_iff positive] at nothing
        rw [rounded, nothing, nearestMagnitude_zero positive]
      · rcases near y same with nearer | ⟨_, even⟩
        · rw [here] at tie
          exact absurd (tie ▸ far y) (not_le_of_gt nearer)
        · exact even
    rw [fractionField_eq]
    omega

end

/-- An integer is on a side of zero, and there it is its absolute value. -/
theorem signed_quotient_natAbs (value : Int) :
    signed (decide (value < 0)) (quotient (value.natAbs * unitsOfOne) 1) = value := by
  have absolute : quotient (value.natAbs * unitsOfOne) 1 = (value.natAbs : ℚ) := by
    rw [quotient, Nat.one_mul, Nat.cast_mul, mul_div_cancel_right₀ _ cast_unitsOfOne_ne_zero]
  rw [absolute, signed, Nat.cast_natAbs, Int.cast_abs]
  by_cases below : value < 0
  · rw [if_pos (decide_eq_true below), abs_of_neg (Int.cast_lt_zero.mpr below), neg_neg]
  · rw [if_neg (by simpa using below), abs_of_nonneg (Int.cast_nonneg (by omega))]

section

variable {value : Int} (fits : value.natAbs ≤ 2 ^ 64)

include fits

theorem magnitude_lt_of_fits :
    nearestMagnitude (value.natAbs * unitsOfOne) 1 < infinityMagnitude := by
  have short : value.natAbs < 2 ^ 65 := Nat.lt_of_le_of_lt fits (by decide)
  exact nearestMagnitude_lt short (by decide)

theorem negative_ofInt : (ofInt value).negative = decide (value < 0) :=
  negative_ofMagnitude _ (Nat.lt_trans (magnitude_lt_of_fits fits) (by decide))

theorem magnitude_ofInt :
    (ofInt value).magnitude = nearestMagnitude (value.natAbs * unitsOfOne) 1 :=
  magnitude_ofMagnitude _ (Nat.lt_trans (magnitude_lt_of_fits fits) (by decide))

/-- The integers of 64 bits are rounded to the nearest values. -/
theorem isNearest_ofInt : (ofInt value).IsNearest value := by
  have finite : (ofInt value).isFinite = true :=
    isFinite_ofMagnitude _ (magnitude_lt_of_fits fits)
  have nearest := isNearest_of_magnitude Nat.one_pos finite (magnitude_ofInt fits)
  rwa [negative_ofInt fits, signed_quotient_natAbs] at nearest

end

end Binary64

end SlotRecord
