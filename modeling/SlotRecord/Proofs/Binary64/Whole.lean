import SlotRecord.Binary64.Rounding
import SlotRecord.Proofs.Binary64.Bits

/-!
# Whole values

A value without a fraction is an integer. A test of its range and a cast to integers
do with it what they would do with that integer.
-/

namespace SlotRecord

namespace Binary64

/-- The integer that a value is, if it is one. -/
def toInt? (x : Binary64) : Option Int :=
  if x.isWhole then some (x.signedUnits.tdiv unitsOfOne) else none

theorem unitsOfOne_pos : 0 < unitsOfOne := by decide +kernel

theorem natAbs_signedUnits (x : Binary64) : x.signedUnits.natAbs = units x.magnitude := by
  rw [signedUnits]
  split
  · rw [Int.natAbs_neg, Int.natAbs_natCast]
  · rw [Int.natAbs_natCast]

theorem isWhole_iff (x : Binary64) :
    x.isWhole = true ↔ x.isFinite = true ∧ (unitsOfOne : Int) ∣ x.signedUnits := by
  rw [isWhole, Bool.and_eq_true, beq_iff_eq, Int.ofNat_dvd_left, natAbs_signedUnits,
    Nat.dvd_iff_mod_eq_zero]

/-- The integers are the whole multiples of the unit of one. -/
theorem toInt?_eq_some_iff_signedUnits (x : Binary64) (value : Int) :
    x.toInt? = some value ↔
      x.isFinite = true ∧ x.signedUnits = value * unitsOfOne := by
  have nonzero : (unitsOfOne : Int) ≠ 0 :=
    Int.natCast_ne_zero.mpr (Nat.ne_of_gt unitsOfOne_pos)
  rw [toInt?]
  constructor
  · intro found
    split at found
    · rename_i whole
      obtain ⟨finite, divides⟩ := x.isWhole_iff.mp whole
      cases found
      exact ⟨finite, (Int.tdiv_mul_cancel divides).symm⟩
    · cases found
  · rintro ⟨finite, product⟩
    have whole : x.isWhole = true := by
      rw [isWhole_iff, product]
      exact ⟨finite, Int.dvd_mul_left value unitsOfOne⟩
    rw [if_pos whole, product, Int.mul_tdiv_cancel value nonzero]

theorem isNaN_of_isFinite {x : Binary64} (finite : x.isFinite = true) :
    x.isNaN = false := by
  have below := magnitude_lt_of_isFinite finite
  rw [isNaN, decide_eq_false]
  omega

section

variable {x y : Binary64} {first second value : Int}

theorem isNaN_of_toInt? (denoted : x.toInt? = some value) : x.isNaN = false := by
  apply isNaN_of_isFinite
  exact ((x.toInt?_eq_some_iff_signedUnits value).mp denoted).1

theorem isWhole_of_toInt? (denoted : x.toInt? = some value) : x.isWhole = true := by
  rw [toInt?] at denoted
  split at denoted
  · assumption
  · cases denoted

theorem isWhole_of_toInt?_none (absent : x.toInt? = none) : x.isWhole = false := by
  rw [toInt?] at absent
  split at absent
  · cases absent
  · simpa using ‹¬x.isWhole = true›

theorem le_iff_of_toInt? (left : x.toInt? = some first) (right : y.toInt? = some second) :
    x.le y = true ↔ first ≤ second := by
  have positive : (0 : Int) < unitsOfOne := Int.natCast_pos.mpr unitsOfOne_pos
  rw [le, isNaN_of_toInt? left, isNaN_of_toInt? right]
  rw [toInt?_eq_some_iff_signedUnits] at left right
  rw [left.2, right.2, Bool.not_false, Bool.true_and, Bool.true_and, decide_eq_true_eq]
  exact Int.mul_le_mul_right positive

theorem lt_iff_of_toInt? (left : x.toInt? = some first) (right : y.toInt? = some second) :
    x.lt y = true ↔ first < second := by
  have positive : (0 : Int) < unitsOfOne := Int.natCast_pos.mpr unitsOfOne_pos
  rw [lt, isNaN_of_toInt? left, isNaN_of_toInt? right]
  rw [toInt?_eq_some_iff_signedUnits] at left right
  rw [left.2, right.2, Bool.not_false, Bool.true_and, Bool.true_and, decide_eq_true_eq]
  exact Int.mul_lt_mul_right positive

theorem clamped_of_toInt? (denoted : x.toInt? = some value) (lowest highest : Int) :
    x.clamped lowest highest = max lowest (min highest value) := by
  have number := isNaN_of_toInt? denoted
  rw [toInt?, if_pos (isWhole_of_toInt? denoted), Option.some.injEq] at denoted
  rw [clamped, number, denoted, if_neg Bool.false_ne_true]

theorem equalInt_iff (above : -2 ^ 127 < value) (below : value < 2 ^ 127 - 1) :
    x.equalInt value = true ↔ x.toInt? = some value := by
  cases denoted : x.toInt? with
  | none => simp [equalInt, isWhole_of_toInt?_none denoted]
  | some integer =>
      rw [equalInt, isWhole_of_toInt? denoted, clamped_of_toInt? denoted, Bool.true_and,
        beq_iff_eq, Option.some.injEq]
      omega

/-- A cast after a test of the range. No value that passes the test is cut off. -/
theorem cast_between {α : Type} {least limit : Binary64} {lowest highest bound : Int}
    (lower : least.toInt? = some lowest) (upper : limit.toInt? = some bound)
    (last : highest + 1 = bound) (cast : Int → α) :
    (if x.isWhole && least.le x && x.lt limit then some (cast (x.clamped lowest highest))
      else none) =
      x.toInt?.bind fun value =>
        if lowest ≤ value ∧ value < bound then some (cast value) else none := by
  cases denoted : x.toInt? with
  | none =>
      rw [isWhole_of_toInt?_none denoted]
      rfl
  | some value =>
      simp only [isWhole_of_toInt? denoted, Bool.true_and, Bool.and_eq_true,
        le_iff_of_toInt? lower denoted, lt_iff_of_toInt? denoted upper,
        clamped_of_toInt? denoted, Option.bind_some]
      split
      · congr 2
        omega
      · rfl

end

end Binary64

end SlotRecord
