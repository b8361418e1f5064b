import SlotRecord.Proofs.Binary64.Nearest

/-!
# Numbers in one form

The accessors for integers find an integer exactly where the number is equal to it. As a
floating-point value a number may be off, but never by more than it has to be.
-/

namespace SlotRecord

namespace Number

theorem toInt64?_eq_some_iff (number : Number) (value : Int64) :
    number.toInt64? = some value ↔ number.toInt? = some value.toInt := by
  rw [toInt64?_eq, Option.bind_eq_some_iff]
  constructor
  · rintro ⟨integer, denoted, found⟩
    split at found
    · rename_i inside
      rw [denoted, ← Option.some.inj found, Int64.toInt_ofInt_of_le inside.1 inside.2]
    · cases found
  · intro denoted
    refine ⟨value.toInt, denoted, ?_⟩
    rw [if_pos ⟨value.le_toInt, value.toInt_lt⟩, Int64.ofInt_toInt]

theorem toUInt64?_eq_some_iff (number : Number) (value : UInt64) :
    number.toUInt64? = some value ↔ number.toInt? = some (value.toNat : Int) := by
  rw [toUInt64?_eq, Option.bind_eq_some_iff]
  constructor
  · rintro ⟨integer, denoted, found⟩
    split at found
    · rename_i inside
      have below : integer.toNat < 2 ^ 64 := by omega
      rw [denoted, ← Option.some.inj found, UInt64.toNat_ofNat_of_lt' below,
        Int.toNat_of_nonneg inside.1]
    · cases found
  · intro denoted
    refine ⟨value.toNat, denoted, ?_⟩
    rw [if_pos ⟨Int.natCast_nonneg _, (fitsWord_unsigned value).2⟩, Int.toNat_natCast,
      UInt64.ofNat_toNat]

theorem toInt64?_iff_equal (number : Number) (value : Int64) :
    number.toInt64? = some value ↔ number.equal (.signed value) = true := by
  rw [equal_iff_toInt? (by simp), toInt64?_eq_some_iff]
  simp [toInt?]

theorem toUInt64?_iff_equal (number : Number) (value : UInt64) :
    number.toUInt64? = some value ↔ number.equal (.unsigned value) = true := by
  rw [equal_iff_toInt? (by simp), toUInt64?_eq_some_iff]
  simp [toInt?]

theorem isSome_toInt64?_iff (number : Number) :
    number.toInt64?.isSome = true ↔
      ∃ value : Int, number.denotation? = some (.rational value) ∧
        -2 ^ 63 ≤ value ∧ value < 2 ^ 63 := by
  simp only [← toInt?_eq_some_iff, toInt64?_eq]
  cases number.toInt? <;> simp

theorem isSome_toUInt64?_iff (number : Number) :
    number.toUInt64?.isSome = true ↔
      ∃ value : Int, number.denotation? = some (.rational value) ∧
        0 ≤ value ∧ value < 2 ^ 64 := by
  simp only [← toInt?_eq_some_iff, toUInt64?_eq]
  cases number.toInt? <;> simp

section

variable {number : Number} {value : Int}

theorem fitsWord_of_held? (held : number.held? = some value) : FitsWord value := by
  cases number with
  | real x => cases held
  | signed number =>
      cases held
      exact fitsWord_signed number
  | unsigned number =>
      cases held
      exact fitsWord_unsigned number

theorem toInt?_of_held? (held : number.held? = some value) : number.toInt? = some value := by
  cases number with
  | real x => cases held
  | _ => exact held

theorem toBinary64_of_held? (held : number.held? = some value) :
    number.toBinary64 = Binary64.ofInt value := by
  cases number <;> cases held <;> rfl

theorem natAbs_le_of_fitsWord (fits : FitsWord value) : value.natAbs ≤ 2 ^ 64 := by
  obtain ⟨lowest, highest⟩ := fits
  omega

/-- As a floating-point value a number depends only on the integer that it denotes. -/
theorem toRat_toBinary64 (fits : FitsWord value) (denoted : number.toInt? = some value) :
    number.toBinary64.isFinite = true ∧
      number.toBinary64.toRat = (Binary64.ofInt value).toRat := by
  have nearest := Binary64.isNearest_ofInt (natAbs_le_of_fitsWord fits)
  cases number with
  | real x =>
      have exact := (x.toInt?_eq_some_iff value).mp denoted
      rw [Binary64.denotation?_eq_rational_iff] at exact
      exact ⟨exact.1, exact.2.trans (nearest.toRat_eq exact.1 exact.2).symm⟩
  | _ =>
      cases denoted
      exact ⟨nearest.finite, rfl⟩

theorem equal_toBinary64_iff (held : number.held? = some value) :
    (real number.toBinary64).equal number = true ↔
      ∃ x : Binary64, x.denotation? = some (.rational value) := by
  have denoted := (number.toInt?_eq_some_iff value).mp (toInt?_of_held? held)
  rw [equal_iff_denotation?]
  constructor
  · rintro ⟨one, left, right⟩
    rw [denoted, Option.some.injEq] at right
    exact ⟨number.toBinary64, left.trans (congrArg some right.symm)⟩
  · rintro ⟨x, exact⟩
    have nearest := Binary64.isNearest_ofInt (natAbs_le_of_fitsWord (fitsWord_of_held? held))
    rw [Binary64.denotation?_eq_rational_iff] at exact
    refine ⟨_, ?_, denoted⟩
    rw [denotation?, toBinary64_of_held? held, Binary64.denotation?_eq_rational_iff]
    exact ⟨nearest.finite, nearest.toRat_eq exact.1 exact.2⟩

end

theorem toBinary64_respects_equal {first second : Number}
    (same : first.equal second = true) :
    first.toBinary64.equal second.toBinary64 = true := by
  have integers : ∀ {value : Int}, FitsWord value → first.toInt? = some value →
      second.toInt? = some value → first.toBinary64.equal second.toBinary64 = true := by
    intro value fits left right
    obtain ⟨finite, denoted⟩ := toRat_toBinary64 fits left
    obtain ⟨other, again⟩ := toRat_toBinary64 fits right
    exact (Binary64.equal_of_isFinite _ _ finite other).mpr (denoted.trans again.symm)
  rcases eq_or_toInt?_of_equal same with rfl | ⟨value, fits, left, right⟩
  · cases first with
    | real x => exact same
    | signed value => exact integers (fitsWord_signed value) rfl rfl
    | unsigned value => exact integers (fitsWord_unsigned value) rfl rfl
  · exact integers fits left right

theorem toInt64?_respects_equal {first second : Number}
    (same : first.equal second = true) : first.toInt64? = second.toInt64? := by
  rcases eq_or_toInt?_of_equal same with rfl | ⟨value, _, left, right⟩
  · rfl
  · rw [toInt64?_eq, toInt64?_eq, left, right]

theorem toUInt64?_respects_equal {first second : Number}
    (same : first.equal second = true) : first.toUInt64? = second.toUInt64? := by
  rcases eq_or_toInt?_of_equal same with rfl | ⟨value, _, left, right⟩
  · rfl
  · rw [toUInt64?_eq, toUInt64?_eq, left, right]

/-- The accessors are exact and respect equality. An integer is found exactly if the number
is equal to it, which it is to some if it denotes an integer in the range of the type. An
integer becomes the floating-point value nearest to it, on its side of zero, which is equal
to it exactly if some value is that integer. -/
theorem accessors_exact (number : Number) :
    (∀ value, number.toInt64? = some value ↔ number.equal (.signed value) = true) ∧
    (∀ value, number.toUInt64? = some value ↔ number.equal (.unsigned value) = true) ∧
    (number.toInt64?.isSome = true ↔
      ∃ value : Int, number.denotation? = some (.rational value) ∧
        -2 ^ 63 ≤ value ∧ value < 2 ^ 63) ∧
    (number.toUInt64?.isSome = true ↔
      ∃ value : Int, number.denotation? = some (.rational value) ∧
        0 ≤ value ∧ value < 2 ^ 64) ∧
    (∀ value, number.held? = some value →
      number.toBinary64.IsNearest value ∧
      number.toBinary64.negative = decide (value < 0) ∧
      ((real number.toBinary64).equal number = true ↔
        ∃ x : Binary64, x.denotation? = some (.rational value))) ∧
    ∀ other, number.equal other = true →
      number.toInt64? = other.toInt64? ∧ number.toUInt64? = other.toUInt64? ∧
      number.toBinary64.equal other.toBinary64 = true := by
  refine ⟨number.toInt64?_iff_equal, number.toUInt64?_iff_equal, number.isSome_toInt64?_iff,
    number.isSome_toUInt64?_iff, ?_, ?_⟩
  · intro value held
    have fits := natAbs_le_of_fitsWord (fitsWord_of_held? held)
    refine ⟨?_, ?_, equal_toBinary64_iff held⟩
    · rw [toBinary64_of_held? held]
      exact Binary64.isNearest_ofInt fits
    · rw [toBinary64_of_held? held]
      exact Binary64.negative_ofInt fits
  · intro other same
    exact ⟨toInt64?_respects_equal same, toUInt64?_respects_equal same,
      toBinary64_respects_equal same⟩

/-- The edges of the ranges, the zero with a sign, and an integer with a bit too many. -/
theorem accessors_exact_edges :
    (real ⟨0x43dfffffffffffff⟩).toInt64? = some 9223372036854774784 ∧
      (real ⟨0x43e0000000000000⟩).toUInt64? = some 9223372036854775808 ∧
      (real ⟨0x43e0000000000000⟩).toInt64?.isSome = false ∧
      (real ⟨0xc3e0000000000000⟩).toInt64? = some (-9223372036854775808) ∧
      (unsigned 0).toUInt64? = (real ⟨0x8000000000000000⟩).toUInt64? ∧
      Binary64.IsNearest ⟨0x4340000000000000⟩ ((9007199254740993 : Int) : ℚ) := by
  refine ⟨?_, ?_, ?_, ?_, ?_, ?_⟩
  · exact ((accessors_exact _).1 _).mpr (by decide +kernel)
  · exact ((accessors_exact _).2.1 _).mpr (by decide +kernel)
  · decide +kernel
  · exact ((accessors_exact _).1 _).mpr (by decide +kernel)
  · exact ((accessors_exact (unsigned 0)).2.2.2.2.2 (real ⟨0x8000000000000000⟩)
      (by decide +kernel)).2.1
  · have rounded : (unsigned 9007199254740993).toBinary64 = ⟨0x4340000000000000⟩ := by
      decide +kernel
    rw [← rounded]
    exact ((accessors_exact (unsigned 9007199254740993)).2.2.2.2.1 9007199254740993 rfl).1

end Number

end SlotRecord
