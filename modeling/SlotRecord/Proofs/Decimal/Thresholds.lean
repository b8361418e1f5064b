import SlotRecord.Proofs.Binary64.Decimals
import SlotRecord.Proofs.Decimal.Shortest

/-!
# Powers of shortest decimals

The shortest decimal of a value may be a little off the value. Still it does not cross a
power of ten: if the value next to such a power is written as the power itself, then the
values from there on are those whose decimals begin at the power or above.
-/

namespace SlotRecord

open Binary64

namespace Decimal

/-- The power of ten that the first digit of a decimal counts. -/
def power (decimal : Decimal) : Int := decimal.exponent + Digits.width decimal.digits - 1

theorem digits_pos_of_readsAs {decimal : Decimal} {magnitude : Nat}
    (reads : decimal.ReadsAs magnitude) (nonzero : magnitude ≠ 0) : 0 < decimal.digits := by
  apply Nat.pos_of_ne_zero
  intro none
  rw [ReadsAs, none, nearestDecimal_zero] at reads
  exact nonzero reads.symm

theorem power_one (exponent : Int) : power ⟨1, exponent⟩ = exponent := by
  have single : Digits.width 1 = 1 := by
    rw [Digits.width, Digits.ofNat_of_lt (by decide), List.length_singleton]
  rw [power, single, Nat.cast_one, Int.add_sub_cancel]

theorem findSome?_range_succ {α : Type} (choice : Nat → Option α) (count : Nat) {value : α}
    (first : choice 0 = some value) :
    (List.range (count + 1)).findSome? choice = some value := by
  rw [List.range_succ_eq_map, List.findSome?_cons, first]

/-- A value is not below a power of ten exactly if the digits of its exact decimal are not
below the power of ten on their grid. -/
theorem pow_le_absoluteRat_iff (x : Binary64) (places : Nat) :
    (10 : ℚ) ^ ((places : ℤ) - unitPlaces) ≤ x.absoluteRat ↔
      10 ^ places ≤ (exact x.magnitude).digits := by
  have units : x.absoluteRat = (exact x.magnitude).digits * 10 ^ (-(unitPlaces : ℤ)) := by
    have scale : (10 : ℚ) ^ unitPlaces = 5 ^ unitPlaces * 2 ^ unitPlaces := by
      rw [← mul_pow]
      norm_num
    rw [absoluteRat_eq, digits_exact, unitsOfOne_eq, zpow_neg, zpow_natCast, scale,
      ← div_eq_mul_inv]
    push_cast
    rw [mul_comm ((5 : ℚ) ^ unitPlaces), mul_div_mul_right _ _ (pow_ne_zero _ (by decide))]
  rw [units, sub_eq_add_neg, zpow_add₀ (by decide),
    mul_le_mul_iff_left₀ (zpow_pos (by decide) _), ← cast_ten_pow, Nat.cast_le]

/-- The least magnitude that is not below a power of ten. On the grid of one digit the power
is next to it and reads as it, so it is written as the power. -/
structure IsThreshold (places bound : Nat) : Prop where
  finite : bound < infinityMagnitude
  reads : nearestDecimal 1 (places - unitPlaces) = bound
  reached : 10 ^ places ≤ (exact bound).digits
  near : 2 * (exact bound).digits < 3 * 10 ^ places
  missed : (exact (bound - 1)).digits < 10 ^ places

namespace IsThreshold

variable {places bound : Nat} (threshold : IsThreshold places bound)

include threshold

theorem neighbour?_eq (tie : Tie) :
    neighbour? tie bound places = some ⟨1, places - unitPlaces⟩ := by
  have near := threshold.near
  have lower : (exact bound).digits / 10 ^ places = 1 := by
    apply Nat.div_eq_of_lt_le
    · have reached := threshold.reached
      omega
    · omega
  have rest := Nat.div_add_mod (exact bound).digits (10 ^ places)
  rw [lower, Nat.mul_one] at rest
  have nearer : 2 * ((exact bound).digits % 10 ^ places) < 10 ^ places := by omega
  have reads : ReadsAs ⟨1, places - unitPlaces⟩ bound := threshold.reads
  simp [neighbour?, lower, nearer.ne, nearer.le.not_gt, reads]

theorem shortest_eq (tie : Tie) : shortest tie bound = ⟨1, places - unitPlaces⟩ := by
  have wide : Digits.width (exact bound).digits = places + 1 := by
    apply Digits.width_eq_succ threshold.reached
    rw [Nat.pow_succ]
    have near := threshold.near
    omega
  have first := findSome?_range_succ
    (fun fewer => neighbour? tie bound (places + 1 - (fewer + 1))) 16
    (threshold.neighbour?_eq tie)
  simp only [shortest, wide, first, Option.getD_some]
  rw [trimmed, if_pos (by decide)]

theorem le_power_iff {tie : Tie} {magnitude : Nat} (finite : magnitude < infinityMagnitude)
    (nonzero : magnitude ≠ 0) :
    (places : ℤ) - unitPlaces ≤ (shortest tie magnitude).power ↔ bound ≤ magnitude := by
  have reads : nearestDecimal (shortest tie magnitude).digits
      (shortest tie magnitude).exponent = magnitude := shortest_readsAs tie finite
  have least := threshold.reads
  have positive := digits_pos_of_readsAs reads nonzero
  constructor
  · intro above
    have ordered : ((1 : ℕ) : ℚ) * 10 ^ ((places : ℤ) - unitPlaces) ≤
        (shortest tie magnitude).digits * 10 ^ (shortest tie magnitude).exponent := by
      rw [Nat.cast_one, one_mul]
      apply le_trans _ (pow_le_decimal _ positive)
      exact zpow_le_zpow_right₀ (by decide) above
    have rounded := nearestDecimal_mono ordered (reads.symm ▸ finite)
    rwa [least, reads] at rounded
  · intro reaches
    by_contra below
    have ordered : ((shortest tie magnitude).digits : ℚ) *
        10 ^ (shortest tie magnitude).exponent ≤
          ((1 : ℕ) : ℚ) * 10 ^ ((places : ℤ) - unitPlaces) := by
      rw [Nat.cast_one, one_mul]
      apply (decimal_lt_pow _ _).le.trans
      apply zpow_le_zpow_right₀ (by decide)
      rw [power] at below
      omega
    have rounded := nearestDecimal_mono ordered (least.symm ▸ threshold.finite)
    rw [least, reads] at rounded
    -- Of the magnitudes below and the threshold only the threshold is left.
    have same : magnitude = bound := Nat.le_antisymm rounded reaches
    rw [same, threshold.shortest_eq, power_one] at below
    exact below (Int.le_refl _)

theorem le_magnitude_iff (x : Binary64) :
    bound ≤ x.magnitude ↔ (10 : ℚ) ^ ((places : ℤ) - unitPlaces) ≤ x.absoluteRat := by
  rw [pow_le_absoluteRat_iff]
  have ordered {low high : Nat} (order : low ≤ high) :
      (exact low).digits ≤ (exact high).digits := by
    rw [digits_exact, digits_exact]
    exact Nat.mul_le_mul_right _ (units_strictMono.monotone order)
  constructor
  · intro above
    exact threshold.reached.trans (ordered above)
  · intro reaches
    by_contra below
    have under := ordered (show x.magnitude ≤ bound - 1 by omega)
    exact absurd threshold.missed (Nat.not_lt_of_le (reaches.trans under))

/-- The decimal of a value begins at a power of ten or above exactly if the value is not
below the power. -/
theorem power_le_iff {tie : Tie} {x : Binary64} {power : Int} (finite : x.isFinite = true)
    (nonzero : x.magnitude ≠ 0) (scale : (places : ℤ) - unitPlaces = power) :
    power ≤ (shortest tie x.magnitude).power ↔ (10 : ℚ) ^ power ≤ x.absoluteRat := by
  rw [← scale, threshold.le_power_iff (magnitude_lt_of_isFinite finite) nonzero,
    threshold.le_magnitude_iff]

end IsThreshold

/-- The sixteenth power of ten is a value itself. -/
theorem isThreshold_sixteen : IsThreshold 1090 0x4341c37937e08000 where
  finite := by decide
  reads := by decide +kernel
  reached := by decide +kernel
  near := by decide +kernel
  missed := by decide +kernel

/-- One ten thousandth is not, and the value that is written so is above it. -/
theorem isThreshold_minus_four : IsThreshold 1070 0x3f1a36e2eb1c432d where
  finite := by decide
  reads := by decide +kernel
  reached := by decide +kernel
  near := by decide +kernel
  missed := by decide +kernel

end Decimal

end SlotRecord
