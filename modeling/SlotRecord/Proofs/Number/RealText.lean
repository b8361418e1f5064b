import SlotRecord.Proofs.Decimal.Notation
import SlotRecord.Proofs.Decimal.Thresholds
import SlotRecord.Proofs.Value.Shown

/-!
# Texts of floating-point values

A finite value is written with a point, or with an exponent if it is very small or very
large. Which of the two is decided by the first digit of its shortest decimal, but it can
be told from the value: no shortest decimal crosses a power of ten at which the form
changes. The text never looks like an integer, and only the value itself is nearest to
what it denotes.
-/

namespace SlotRecord

namespace Number

open Numeral

/-- Not zero, and beyond the range of what is written without an exponent. -/
def IsExtreme (x : Binary64) : Prop :=
  x.toRat ≠ 0 ∧ (|x.toRat| < 10 ^ (-4 : ℤ) ∨ 10 ^ (16 : ℤ) ≤ |x.toRat|)

/-- A text of a finite value, and the numeral that the text is. -/
structure IsText (x : Binary64) (numeral : Numeral) (text : List Char) : Prop where
  plain : ¬IsExtreme x → ∃ whole fraction, fraction ≠ [] ∧
    numeral = ⟨x.negative, whole, fraction, none⟩ ∧
    text = signText x.negative ++ (decimalText whole ++ '.' :: Digits.text fraction)
  scientific : IsExtreme x → ∃ lead fraction power exponent, lead ≠ 0 ∧
    numeral = ⟨x.negative, lead.val, fraction, some power⟩ ∧
    text = signText x.negative ++
      (Digit.toChar lead :: (fractionText fraction ++
        'e' :: (if power < 0 then '-' else '+') :: exponent)) ∧
    2 ≤ exponent.length ∧
    exponent = if power.natAbs < 10 then '0' :: decimalText power.natAbs
      else decimalText power.natAbs
  marked : 'e' ∈ text ↔ IsExtreme x
  noInteger : ∀ negative digits, text ≠ signText negative ++ Digits.text digits
  /-- The sign and the leading zero of the exponent are put in after the rest is written. -/
  completed : text = respelled numeral.bareText
  read : Numeral.read text = some (numeral, [])
  /-- The numeral is rounded to the value and to no other, with the sign of zero. -/
  rounds : ∀ y : Binary64, y.Rounds numeral.negative numeral.absolute ↔ y = x

theorem scientificNumeral_of_pos {digits : Nat} (positive : 0 < digits) (negative : Bool)
    (power : Int) :
    ∃ lead fraction place, lead ≠ (0 : Digit) ∧
      FloatStyle.scientificNumeral negative digits power =
        ⟨negative, lead.val, fraction, some place⟩ := by
  obtain ⟨lead, fraction, split, zero, _⟩ := Digits.ofNat_eq_cons digits
  refine ⟨lead, fraction, power, ?_, ?_⟩
  · rintro rfl
    exact absurd (zero rfl) positive.ne'
  · rw [FloatStyle.scientificNumeral, split]

theorem text_positional {fraction : List Digit} (some : fraction ≠ []) (negative : Bool)
    (whole : Nat) :
    text 2 ⟨negative, whole, fraction, none⟩ =
      signText negative ++ (decimalText whole ++ '.' :: Digits.text fraction) := by
  rw [text_eq_mantissaText, mantissaText, fractionText, exponentPart, List.append_nil,
    List.isEmpty_eq_false_iff.mpr some, if_neg Bool.false_ne_true]

theorem text_scientific (negative : Bool) (lead : Digit) (fraction : List Digit) (power : Int) :
    text 2 ⟨negative, lead.val, fraction, some power⟩ =
      signText negative ++
        (Digit.toChar lead :: (fractionText fraction ++
          'e' :: (if power < 0 then '-' else '+') :: padded (decimalText power.natAbs))) := by
  have single : decimalText lead.val = [Digit.toChar lead] := by
    rw [decimalText, Digits.ofNat_of_lt lead.isLt, Fin.ofNat_eq_cast, Fin.cast_val_eq_self]
    rfl
  rw [text_eq_mantissaText, mantissaText, exponentPart, exponentText_two, single,
    List.append_assoc, List.append_assoc]
  rfl

section

variable {x : Binary64} (finite : x.isFinite = true)

include finite

/-- The form that the shortest decimal asks for is the one that the value asks for. -/
theorem isExtreme_iff :
    IsExtreme x ↔ x.magnitude ≠ 0 ∧
      style.isPositional (Decimal.shortest style.tie x.magnitude).power = false := by
  rw [IsExtreme, Binary64.abs_toRat, Ne, Binary64.toRat_eq_zero_iff]
  apply and_congr_right
  intro nonzero
  rw [← not_le, ← Decimal.isThreshold_minus_four.power_le_iff finite nonzero (by decide),
    ← Decimal.isThreshold_sixteen.power_le_iff finite nonzero (by decide)]
  generalize (Decimal.shortest style.tie x.magnitude).power = power
  simp only [style, FloatStyle.isPositional, Bool.and_eq_false_iff, decide_eq_false_iff_not,
    not_lt]

theorem numeral_of_not_isExtreme (within : ¬IsExtreme x) :
    ∃ whole fraction, fraction ≠ [] ∧
      style.numeral x = ⟨x.negative, whole, fraction, none⟩ := by
  rw [isExtreme_iff finite, not_and, Bool.not_eq_false] at within
  rw [FloatStyle.numeral]
  split
  · exact ⟨0, style.integralFraction, List.cons_ne_nil _ _, rfl⟩
  · next nonzero =>
      have positional := within nonzero
      rw [Decimal.power] at positional
      rw [if_pos positional, FloatStyle.positionalNumeral]
      split
      · exact ⟨_, _, List.cons_ne_nil _ _, rfl⟩
      · next fractional =>
          refine ⟨_, _, ?_, rfl⟩
          rw [← List.length_pos_iff, Digits.length_fixed]
          omega

theorem numeral_of_isExtreme (extreme : IsExtreme x) :
    ∃ lead fraction power, lead ≠ (0 : Digit) ∧
      style.numeral x = ⟨x.negative, lead.val, fraction, some power⟩ := by
  obtain ⟨nonzero, scientific⟩ := (isExtreme_iff finite).mp extreme
  have reads := Decimal.shortest_readsAs style.tie (Binary64.magnitude_lt_of_isFinite finite)
  have positive := Decimal.digits_pos_of_readsAs reads nonzero
  rw [Decimal.power, ← Bool.not_eq_true] at scientific
  rw [FloatStyle.numeral, if_neg nonzero, if_neg scientific]
  exact scientificNumeral_of_pos positive x.negative _

theorem exponent_ne_none_iff : (style.numeral x).exponent ≠ none ↔ IsExtreme x := by
  constructor
  · intro some
    by_contra within
    obtain ⟨whole, fraction, _, positional⟩ := numeral_of_not_isExtreme finite within
    rw [positional] at some
    exact some rfl
  · intro extreme
    obtain ⟨lead, fraction, power, _, scientific⟩ := numeral_of_isExtreme finite extreme
    rw [scientific]
    exact Option.some_ne_none power

theorem isInteger_numeral : (style.numeral x).isInteger = false := by
  by_cases extreme : IsExtreme x
  · obtain ⟨lead, fraction, power, _, scientific⟩ := numeral_of_isExtreme finite extreme
    rw [scientific, isInteger, Option.isNone_some, Bool.and_false]
  · obtain ⟨whole, fraction, some, positional⟩ := numeral_of_not_isExtreme finite extreme
    rw [positional, isInteger, List.isEmpty_eq_false_iff.mpr some, Bool.false_and]

theorem rounds_numeral (y : Binary64) :
    y.Rounds (style.numeral x).negative (style.numeral x).absolute ↔ y = x := by
  rw [absolute_eq, ← Binary64.ofDecimal?_eq_some_iff, FloatStyle.ofDecimal?_numeral style finite,
    Option.some_inj, eq_comm]

theorem isText_numeral : IsText x (style.numeral x) ((style.numeral x).text 2) where
  plain within := by
    obtain ⟨whole, fraction, some, positional⟩ := numeral_of_not_isExtreme finite within
    refine ⟨whole, fraction, some, positional, ?_⟩
    rw [positional]
    exact text_positional some x.negative whole
  scientific extreme := by
    obtain ⟨lead, fraction, power, nonzero, scientific⟩ := numeral_of_isExtreme finite extreme
    refine ⟨lead, fraction, power, padded (decimalText power.natAbs), nonzero, scientific, ?_,
      two_le_length_padded _, padded_decimalText _⟩
    rw [scientific]
    exact text_scientific x.negative lead fraction power
  marked := (mark_mem_text_iff 2 _).trans (exponent_ne_none_iff finite)
  noInteger := text_ne_integer (isInteger_numeral finite) 2
  completed := (respelled_bareText _).symm
  read := by
    have whole := read_text_append ends_nil 2 (style.numeral x)
    rwa [List.append_nil] at whole
  rounds := rounds_numeral finite

theorem render_of_isFinite :
    (Value.number (.real x)).render = .ok ((style.numeral x).text 2) := by
  rw [Value.render, render, renderReal, Binary64.isNaN_of_isFinite finite, if_pos finite]
  rfl

/-- A finite value is written as a numeral that is not an integer and has an exponent only
if the value is extreme. Only the value itself is nearest to the numeral. -/
theorem real_text_reads_back :
    ∃ numeral text, (Value.number (.real x)).render = .ok text ∧ IsText x numeral text :=
  ⟨style.numeral x, (style.numeral x).text 2, render_of_isFinite finite, isText_numeral finite⟩

end

/-- Zero keeps its sign, and the sixteenth power of ten is the first one with an exponent. -/
theorem real_text_of_edges :
    (⟨0x8000000000000000⟩ : Binary64).isFinite = true ∧
      (⟨0x4341c37937e08000⟩ : Binary64).isFinite = true ∧
      (∃ numeral, (Value.number (.real ⟨0x8000000000000000⟩)).render = .ok "-0.0".toList ∧
        IsText ⟨0x8000000000000000⟩ numeral "-0.0".toList) ∧
      ∃ numeral, (Value.number (.real ⟨0x4341c37937e08000⟩)).render = .ok "1e+16".toList ∧
        IsText ⟨0x4341c37937e08000⟩ numeral "1e+16".toList := by
  have zeroFinite : (⟨0x8000000000000000⟩ : Binary64).isFinite = true := by decide
  have powerFinite : (⟨0x4341c37937e08000⟩ : Binary64).isFinite = true := by decide
  refine ⟨zeroFinite, powerFinite, ?_, ?_⟩
  · have written : (Value.number (.real ⟨0x8000000000000000⟩)).render =
        .ok "-0.0".toList := by
      rw [render_of_isFinite zeroFinite, FloatStyle.numeral_of_zero style (by decide)]
      decide +kernel
    obtain ⟨numeral, text, same, told⟩ := real_text_reads_back zeroFinite
    rw [written] at same
    cases same
    exact ⟨numeral, written, told⟩
  · have written : (Value.number (.real ⟨0x4341c37937e08000⟩)).render =
        .ok "1e+16".toList := by
      have magnitude : (⟨0x4341c37937e08000⟩ : Binary64).magnitude = 0x4341c37937e08000 := by
        decide
      rw [render_of_isFinite powerFinite, FloatStyle.numeral, magnitude,
        Decimal.isThreshold_sixteen.shortest_eq, if_neg (by decide)]
      decide +kernel
    obtain ⟨numeral, text, same, told⟩ := real_text_reads_back powerFinite
    rw [written] at same
    cases same
    exact ⟨numeral, written, told⟩

end Number

end SlotRecord
