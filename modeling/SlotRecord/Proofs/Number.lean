import SlotRecord.Proofs.Binary64.Whole
import SlotRecord.Value.Digest

/-!
# Equal numbers

Equal numbers are either the same number or denote one integer that a word can
hold. So they have the same word, whatever their variants.
-/

namespace SlotRecord

namespace Binary64

theorem isFinite_of_magnitude_zero {x : Binary64} (zero : x.magnitude = 0) :
    x.isFinite = true := by
  simp [isFinite, zero, infinityMagnitude]

/-- Both zeros denote the integer zero. -/
theorem toInt?_of_magnitude_zero {x : Binary64} (zero : x.magnitude = 0) :
    x.toInt? = some 0 := by
  have nothing : units 0 = 0 := if_pos (by decide)
  have none : x.signedUnits = 0 := by simp [signedUnits, zero, nothing]
  rw [toInt?_eq_some_iff_signedUnits, none, Int.zero_mul]
  exact ⟨isFinite_of_magnitude_zero zero, rfl⟩

theorem eq_or_zero_of_equal {x y : Binary64} (same : x.equal y = true) :
    x = y ∨ x.magnitude = 0 ∧ y.magnitude = 0 := by
  simp only [equal, Bool.and_eq_true, Bool.or_eq_true, beq_iff_eq] at same
  obtain ⟨⟨_, magnitude⟩, sign | zero⟩ := same
  · exact Or.inl (ext_sign_magnitude sign magnitude)
  · exact Or.inr ⟨zero, magnitude.symm.trans zero⟩

theorem equal_self {x : Binary64} (number : x.isNaN = false) : x.equal x = true := by
  simp [equal, number]

end Binary64

namespace Number

/-- The integer that a number denotes, if it is one. -/
def toInt? : Number → Option Int
  | .signed value => some value.toInt
  | .unsigned value => some value.toNat
  | .real x => x.toInt?

/-- An integer that fits the signed or the unsigned variant. -/
def FitsWord (value : Int) : Prop := -2 ^ 63 ≤ value ∧ value < 2 ^ 64

theorem fitsWord_signed (value : Int64) : FitsWord value.toInt := by
  have lowest := value.le_toInt
  have highest := value.toInt_lt
  constructor
  · exact lowest
  · omega

theorem fitsWord_unsigned (value : UInt64) : FitsWord value.toNat := by
  have highest := value.toNat_lt
  constructor
  · omega
  · omega

/-- Integers of 64 bits are no bounds of the wider type that the comparison uses. -/
theorem equalInt_iff_of_fits {x : Binary64} {value : Int} (fits : FitsWord value) :
    x.equalInt value = true ↔ x.toInt? = some value := by
  obtain ⟨lowest, highest⟩ := fits
  apply Binary64.equalInt_iff
  · omega
  · omega

/-- Where one of two numbers is held as an integer, they are equal exactly if they
denote one integer. -/
theorem equal_iff_toInt? {first second : Number}
    (held : ∀ x y, ¬(first = .real x ∧ second = .real y)) :
    first.equal second = true ↔
      ∃ value, first.toInt? = some value ∧ second.toInt? = some value := by
  cases first with
  | real x =>
      cases second with
      | real y => exact absurd ⟨rfl, rfl⟩ (held x y)
      | signed value => simp [equal, toInt?, equalInt_iff_of_fits (fitsWord_signed value)]
      | unsigned value =>
          simp [equal, toInt?, equalInt_iff_of_fits (fitsWord_unsigned value)]
  | signed value =>
      cases second with
      | real y => simp [equal, toInt?, equalInt_iff_of_fits (fitsWord_signed value)]
      | _ => simp [equal, toInt?, held?, @eq_comm Int]
  | unsigned value =>
      cases second with
      | real y => simp [equal, toInt?, equalInt_iff_of_fits (fitsWord_unsigned value)]
      | _ => simp [equal, toInt?, held?, @eq_comm Int]

theorem fitsWord_of_toInt? {number : Number} {value : Int}
    (held : ∀ x, number ≠ .real x) (denoted : number.toInt? = some value) :
    FitsWord value := by
  cases number with
  | signed number =>
      cases denoted
      exact fitsWord_signed number
  | unsigned number =>
      cases denoted
      exact fitsWord_unsigned number
  | real x => exact absurd rfl (held x)

/-- Equal numbers are one number, or they denote one integer that fits a word. -/
theorem eq_or_toInt?_of_equal {first second : Number}
    (same : first.equal second = true) :
    first = second ∨
      ∃ value, FitsWord value ∧ first.toInt? = some value ∧
        second.toInt? = some value := by
  by_cases reals : ∃ x y, first = .real x ∧ second = .real y
  · obtain ⟨x, y, rfl, rfl⟩ := reals
    -- Only the two zeros are equal without being one value.
    rcases Binary64.eq_or_zero_of_equal same with rfl | ⟨left, right⟩
    · exact Or.inl rfl
    · refine Or.inr ⟨0, by constructor <;> omega, ?_, ?_⟩
      · exact Binary64.toInt?_of_magnitude_zero left
      · exact Binary64.toInt?_of_magnitude_zero right
  · have held : ∀ x y, ¬(first = .real x ∧ second = .real y) := by
      intro x y both
      exact reals ⟨x, y, both⟩
    obtain ⟨value, left, right⟩ := (equal_iff_toInt? held).mp same
    refine Or.inr ⟨value, ?_, left, right⟩
    by_cases real : ∃ x, first = .real x
    · obtain ⟨x, rfl⟩ := real
      apply fitsWord_of_toInt? _ right
      intro y equality
      exact held x y ⟨rfl, equality⟩
    · apply fitsWord_of_toInt? _ left
      intro x equality
      exact real ⟨x, equality⟩

/-- The accessors see of a number only the integer that it denotes. -/
theorem toInt64?_eq (number : Number) :
    number.toInt64? = number.toInt?.bind fun value =>
      if -2 ^ 63 ≤ value ∧ value < 2 ^ 63 then some (Int64.ofInt value) else none := by
  cases number with
  | signed value =>
      have fits : -2 ^ 63 ≤ value.toInt ∧ value.toInt < 2 ^ 63 :=
        ⟨value.le_toInt, value.toInt_lt⟩
      rw [toInt?, Option.bind_some, if_pos fits, Int64.ofInt_toInt]
      rfl
  | unsigned value =>
      rw [toInt64?, toInt?, Option.bind_some]
      congr 1
      apply propext
      omega
  | real x =>
      apply Binary64.cast_between
      · decide +kernel
      · decide +kernel
      · rfl

theorem toUInt64?_eq (number : Number) :
    number.toUInt64? = number.toInt?.bind fun value =>
      if 0 ≤ value ∧ value < 2 ^ 64 then some (UInt64.ofNat value.toNat) else none := by
  cases number with
  | signed value =>
      have below := value.toInt_lt
      rw [toUInt64?, toInt?, Option.bind_some]
      congr 1
      apply propext
      omega
  | unsigned value =>
      have fits : (0 : Int) ≤ value.toNat ∧ (value.toNat : Int) < 2 ^ 64 :=
        ⟨Int.natCast_nonneg _, (fitsWord_unsigned value).2⟩
      rw [toInt?, Option.bind_some, if_pos fits]
      simp [toUInt64?]
  | real x =>
      apply Binary64.cast_between _ _ _ fun value => UInt64.ofNat value.toNat
      · decide +kernel
      · decide +kernel
      · rfl

theorem toUInt64_ofInt (value : Int) :
    (Int64.ofInt value).toUInt64 = UInt64.ofInt value := by
  apply UInt64.toNat_inj.mp
  have bits : (Int64.ofInt value).toUInt64.toNat = (value % 2 ^ 64).toNat :=
    BitVec.toNat_ofInt value
  rw [bits, UInt64.ofInt, UInt64.toNat_ofNat']
  omega

/-- The word of a number is that of its integer, if it has one that fits. -/
theorem word_of_toInt? {number : Number} {value : Int} (fits : FitsWord value)
    (denoted : number.toInt? = some value) : number.word = UInt64.ofInt value := by
  obtain ⟨lowest, highest⟩ := fits
  by_cases signed : value < 2 ^ 63
  · have held : number.toInt64? = some (Int64.ofInt value) := by
      rw [toInt64?_eq, denoted]
      exact if_pos ⟨lowest, signed⟩
    simp only [word, held]
    exact toUInt64_ofInt value
  · have outside : number.toInt64? = none := by
      rw [toInt64?_eq, denoted]
      exact if_neg fun inside => signed inside.2
    have held : number.toUInt64? = some (UInt64.ofNat value.toNat) := by
      rw [toUInt64?_eq, denoted]
      exact if_pos ⟨by omega, highest⟩
    simp only [word, outside, held, UInt64.ofInt]
    rw [Int.emod_eq_of_lt (by omega) highest]

theorem word_eq_of_equal {first second : Number} (same : first.equal second = true) :
    first.word = second.word := by
  rcases eq_or_toInt?_of_equal same with rfl | ⟨value, fits, left, right⟩
  · rfl
  · rw [word_of_toInt? fits left, word_of_toInt? fits right]

end Number

end SlotRecord
