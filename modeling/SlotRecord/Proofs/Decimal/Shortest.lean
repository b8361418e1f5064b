import SlotRecord.Decimal.Style
import SlotRecord.Proofs.Binary64.Bits
import SlotRecord.Proofs.Binary64.Rounding

/-!
# Shortest decimals read back

Whatever decimal is chosen for a magnitude rounds to it again, and so does the
numeral that any style makes of the decimal. The choice itself plays no part:
every candidate was tested, and the exact value stands in if none passed.
-/

namespace SlotRecord

namespace Decimal

theorem readsAs_of_neighbour? {tie : Tie} {magnitude dropped : Nat} {decimal : Decimal}
    (found : neighbour? tie magnitude dropped = some decimal) :
    decimal.ReadsAs magnitude := by
  unfold neighbour? at found
  have hit := List.find?_some found
  rw [decide_eq_true_eq] at hit
  exact hit

theorem digits_exact (magnitude : Nat) :
    (exact magnitude).digits = Binary64.units magnitude * 5 ^ unitPlaces := by
  rw [exact]

theorem lt_width_mul {value power places : Nat} (positive : 0 < value)
    (large : 10 ^ places ≤ power) : places < Digits.width (value * power) := by
  have below := Digits.lt_pow_width (value * power)
  have above : 10 ^ places ≤ value * power :=
    Nat.le_trans large (Nat.le_mul_of_pos_left power positive)
  exact (Nat.pow_lt_pow_iff_right (by decide)).mp (Nat.lt_of_le_of_lt above below)

theorem width_mul_le {value limit power places : Nat} (positive : 0 < value)
    (powerPositive : 0 < power) (bounded : value < limit)
    (small : limit * power ≤ 10 ^ places) : Digits.width (value * power) ≤ places := by
  have above := Digits.pow_width_le (Nat.mul_pos positive powerPositive)
  have below : value * power < 10 ^ places :=
    Nat.lt_of_lt_of_le (Nat.mul_lt_mul_of_pos_right bounded powerPositive) small
  have exponents := (Nat.pow_lt_pow_iff_right (by decide)).mp
    (Nat.lt_of_le_of_lt above below)
  omega

theorem pow_ten_le_pow_five : 10 ^ 750 ≤ 5 ^ unitPlaces := by decide +kernel

theorem largest_le_pow_ten : 2 ^ 2098 * 5 ^ unitPlaces ≤ 10 ^ 1383 := by decide +kernel

theorem pow_five_pos : 0 < 5 ^ unitPlaces := by decide +kernel

theorem unitsOfOne_eq : Binary64.unitsOfOne = 2 ^ unitPlaces := by decide +kernel

theorem nearestMagnitude_pow_ten (value places : Nat) :
    Binary64.nearestMagnitude (value * 5 ^ places * 2 ^ places) (10 ^ places) =
      Binary64.nearestMagnitude value 1 := by
  have power : (10 : Nat) ^ places = 1 * (5 ^ places * 2 ^ places) := by
    rw [← Nat.mul_pow, Nat.one_mul]
  rw [power, Nat.mul_assoc]
  apply Binary64.nearestMagnitude_mul_right
  exact Nat.mul_pos (Nat.pow_pos (by decide)) (Nat.pow_pos (by decide))

/-- A fraction whose leading digit is within reach is really computed. -/
theorem nearestDecimal_neg {digits places : Nat} (placesPositive : 0 < places)
    (positive : 0 < digits) (low : places < Digits.width digits + 330)
    (high : Digits.width digits ≤ places + 310) :
    Binary64.nearestDecimal digits (-places) =
      Binary64.nearestMagnitude (digits * Binary64.unitsOfOne) (10 ^ places) := by
  have negated : (-(-(places : Int))).toNat = places := by omega
  simp only [Binary64.nearestDecimal, negated]
  rw [if_neg (by omega), if_neg (by omega), if_neg (by omega), if_neg (by omega)]

theorem exact_readsAs {magnitude : Nat}
    (finite : magnitude < Binary64.infinityMagnitude) :
    (exact magnitude).ReadsAs magnitude := by
  by_cases zero : magnitude = 0
  · subst zero
    rw [ReadsAs, digits_exact, Binary64.units_of_lt (by decide), Nat.zero_mul,
      Binary64.nearestDecimal_zero]
  · have positive := Binary64.units_pos (Nat.pos_of_ne_zero zero)
    have wide := lt_width_mul positive pow_ten_le_pow_five
    have bounded := Binary64.units_lt finite (show 1024 + 1074 ≤ 2098 by decide)
    have narrow := width_mul_le positive pow_five_pos bounded largest_le_pow_ten
    have places : unitPlaces = 1074 := rfl
    have computed := nearestDecimal_neg (show 0 < unitPlaces by decide)
      (Nat.mul_pos positive pow_five_pos) (by omega) (by omega)
    rw [unitsOfOne_eq, nearestMagnitude_pow_ten, Binary64.nearestMagnitude_units,
      ← digits_exact] at computed
    exact computed

theorem nearestDecimal_trimmed (digits : Nat) (exponent : Int) :
    Binary64.nearestDecimal (trimmed digits exponent).digits
        (trimmed digits exponent).exponent =
      Binary64.nearestDecimal digits exponent := by
  induction digits, exponent using trimmed.induct with
  | case1 digits exponent stop => rw [trimmed, if_pos stop]
  | case2 digits exponent go induction =>
      rw [trimmed, if_neg go, induction]
      have divisible : digits / 10 * 10 = digits := by omega
      have shifted := Binary64.nearestDecimal_mul_ten (digits / 10) (exponent + 1)
      rw [divisible, Int.add_sub_cancel] at shifted
      exact shifted.symm

theorem readsAs_getD {found : Option Decimal} {fallback : Decimal} {magnitude : Nat}
    (hits : ∀ decimal ∈ found, decimal.ReadsAs magnitude)
    (sound : fallback.ReadsAs magnitude) :
    (found.getD fallback).ReadsAs magnitude := by
  cases found with
  | none => exact sound
  | some decimal => exact hits decimal rfl

theorem trimmed_readsAs {decimal : Decimal} {magnitude : Nat}
    (sound : decimal.ReadsAs magnitude) :
    (trimmed decimal.digits decimal.exponent).ReadsAs magnitude := by
  unfold ReadsAs
  rw [nearestDecimal_trimmed]
  exact sound

/-- A shortest decimal reads back as the magnitude that it stands for. -/
theorem shortest_readsAs {magnitude : Nat} (tie : Tie)
    (finite : magnitude < Binary64.infinityMagnitude) :
    (shortest tie magnitude).ReadsAs magnitude := by
  apply trimmed_readsAs
  apply readsAs_getD
  · intro decimal member
    obtain ⟨fewer, _, hit⟩ := List.exists_of_findSome?_eq_some member
    exact readsAs_of_neighbour? hit
  · exact exact_readsAs finite

end Decimal

namespace FloatStyle

open Binary64

theorem toNat_integralFraction (style : FloatStyle) :
    Digits.toNat style.integralFraction = 0 := by
  unfold integralFraction
  split <;> rfl

theorem nearestDecimal_positionalNumeral (style : FloatStyle) (negative : Bool)
    (decimal : Decimal) :
    nearestDecimal (style.positionalNumeral negative decimal).digits
        (style.positionalNumeral negative decimal).scale =
      nearestDecimal decimal.digits decimal.exponent := by
  by_cases integral : 0 ≤ decimal.exponent
  · have cast : (decimal.exponent.toNat : Int) = decimal.exponent := by omega
    have moved := nearestDecimal_mul_pow decimal.digits
      (decimal.exponent.toNat + style.integralFraction.length) decimal.exponent
    have scale : decimal.exponent -
        (decimal.exponent.toNat + style.integralFraction.length : Nat) =
          0 - (style.integralFraction.length : Int) := by omega
    rw [scale, Nat.pow_add, ← Nat.mul_assoc] at moved
    simpa [positionalNumeral, integral, Numeral.digits, Numeral.scale,
      toNat_integralFraction] using moved
  · have places : ((-decimal.exponent).toNat : Int) = -decimal.exponent := by omega
    have restored := Nat.div_add_mod' decimal.digits (10 ^ (-decimal.exponent).toNat)
    simp [positionalNumeral, integral, Numeral.digits, Numeral.scale,
      Digits.toNat_fixed, places, restored]

theorem nearestDecimal_scientificNumeral (negative : Bool) (decimal : Decimal) :
    let numeral := scientificNumeral negative decimal.digits
      (decimal.exponent + Digits.width decimal.digits - 1)
    nearestDecimal numeral.digits numeral.scale =
      nearestDecimal decimal.digits decimal.exponent := by
  obtain ⟨lead, more, split, _⟩ := Digits.ofNat_eq_cons decimal.digits
  have denoted : lead.val * 10 ^ more.length + Digits.toNat more = decimal.digits := by
    rw [← Digits.toNat_cons, ← split, Digits.toNat_ofNat]
  have scale :
      decimal.exponent + (more.length + 1 : Nat) - 1 - (more.length : Int) =
        decimal.exponent := by omega
  simp only [scientificNumeral, split, Numeral.digits, Numeral.scale, Digits.width,
    List.length_cons, Option.getD_some, denoted, scale]

theorem numeral_of_zero (style : FloatStyle) {x : Binary64} (zero : x.magnitude = 0) :
    style.numeral x = ⟨x.negative, 0, style.integralFraction, none⟩ := by
  rw [numeral, if_pos zero]

/-- The numeral of a value other than zero is one of two forms of its shortest
decimal. -/
theorem numeral_of_ne_zero (style : FloatStyle) {x : Binary64}
    (nonzero : x.magnitude ≠ 0) :
    ∃ decimal, decimal = Decimal.shortest style.tie x.magnitude ∧
      (style.numeral x = style.positionalNumeral x.negative decimal ∨
        style.numeral x = scientificNumeral x.negative decimal.digits
          (decimal.exponent + Digits.width decimal.digits - 1)) := by
  refine ⟨Decimal.shortest style.tie x.magnitude, rfl, ?_⟩
  rw [numeral, if_neg nonzero]
  generalize Decimal.shortest style.tie x.magnitude = decimal
  exact ite_eq_or_eq _ _ _

/-- Rounding the numeral of a finite value gives its magnitude. -/
theorem nearestDecimal_numeral (style : FloatStyle) {x : Binary64}
    (finite : x.isFinite = true) :
    nearestDecimal (style.numeral x).digits (style.numeral x).scale = x.magnitude := by
  by_cases zero : x.magnitude = 0
  · simp [numeral_of_zero style zero, Numeral.digits, toNat_integralFraction,
      nearestDecimal_zero, zero]
  · obtain ⟨decimal, chosen, positional | scientific⟩ := numeral_of_ne_zero style zero
    · rw [positional, nearestDecimal_positionalNumeral, chosen]
      exact Decimal.shortest_readsAs style.tie (magnitude_lt_of_isFinite finite)
    · rw [scientific, nearestDecimal_scientificNumeral, chosen]
      exact Decimal.shortest_readsAs style.tie (magnitude_lt_of_isFinite finite)

theorem negative_positionalNumeral (style : FloatStyle) (negative : Bool)
    (decimal : Decimal) :
    (style.positionalNumeral negative decimal).negative = negative := by
  unfold positionalNumeral
  split <;> rfl

theorem negative_scientificNumeral (negative : Bool) (digits : Nat) (power : Int) :
    (scientificNumeral negative digits power).negative = negative := by
  unfold scientificNumeral
  split <;> rfl

theorem negative_numeral (style : FloatStyle) (x : Binary64) :
    (style.numeral x).negative = x.negative := by
  by_cases zero : x.magnitude = 0
  · rw [numeral_of_zero style zero]
  · obtain ⟨decimal, _, positional | scientific⟩ := numeral_of_ne_zero style zero
    · rw [positional, negative_positionalNumeral]
    · rw [scientific, negative_scientificNumeral]

/-- The numeral of a finite value denotes it, the sign of zero included. -/
theorem ofDecimal?_numeral (style : FloatStyle) {x : Binary64}
    (finite : x.isFinite = true) :
    ofDecimal? (style.numeral x).negative (style.numeral x).digits
        (style.numeral x).scale = some x := by
  have bounded := magnitude_lt_of_isFinite finite
  unfold ofDecimal?
  rw [nearestDecimal_numeral style finite, negative_numeral]
  rw [if_pos bounded, ofMagnitude_self]

end FloatStyle

end SlotRecord
