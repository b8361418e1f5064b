import Mathlib.Data.Rat.Defs
import Mathlib.Tactic.FieldSimp
import SlotRecord.Proofs.Decimal.Numeral
import SlotRecord.Value.Render

/-!
# Notation of numerals

A text without a point and an exponent is not that of a numeral with one of them. Where an
exponent is written as a plain integer, its sign and its leading zero can be put in later:
the mark of the exponent is the first of its kind in the text.
-/

namespace SlotRecord

namespace Numeral

def signText (negative : Bool) : List Char := if negative then ['-'] else []

/-- What a numeral denotes but for its sign. -/
def absolute (numeral : Numeral) : ℚ :=
  (numeral.whole + Digits.toNat numeral.fraction / 10 ^ numeral.fraction.length) *
    10 ^ numeral.exponent.getD 0

theorem absolute_eq (numeral : Numeral) :
    numeral.absolute = numeral.digits * 10 ^ numeral.scale := by
  have ten : (10 : ℚ) ≠ 0 := by decide
  rw [absolute, digits, scale, zpow_sub₀ ten, zpow_natCast]
  push_cast
  field_simp

/-- What stands in front of the exponent. -/
def mantissaText (numeral : Numeral) : List Char :=
  signText numeral.negative ++ (decimalText numeral.whole ++ fractionText numeral.fraction)

theorem text_eq_mantissaText (width : Nat) (numeral : Numeral) :
    numeral.text width = numeral.mantissaText ++ exponentPart width numeral.exponent := by
  rw [text_eq, unsignedText, mantissaText, signText, List.append_assoc, List.append_assoc]

theorem mem_signText {character : Char} {negative : Bool}
    (member : character ∈ signText negative) : character = '-' := by
  cases negative with
  | true => exact List.mem_singleton.mp member
  | false => cases member

theorem toChar_ne_mark (digit : Digit) : digit.toChar ≠ '.' ∧ digit.toChar ≠ 'e' := by
  revert digit
  decide

theorem ne_mark_of_mem_text {character : Char} {digits : List Digit}
    (member : character ∈ Digits.text digits) : character ≠ '.' ∧ character ≠ 'e' := by
  obtain ⟨digit, _, rfl⟩ := List.mem_map.mp member
  exact toChar_ne_mark digit

theorem ne_mark_of_mem_integer {character : Char} {negative : Bool} {digits : List Digit}
    (member : character ∈ signText negative ++ Digits.text digits) :
    character ≠ '.' ∧ character ≠ 'e' := by
  rcases List.mem_append.mp member with sign | digit
  · rw [mem_signText sign]
    decide
  · exact ne_mark_of_mem_text digit

theorem ne_mark_of_mem_mantissaText {character : Char} {numeral : Numeral}
    (member : character ∈ numeral.mantissaText) : character ≠ 'e' := by
  rw [mantissaText, ← List.append_assoc] at member
  rcases List.mem_append.mp member with integer | fraction
  · exact (ne_mark_of_mem_integer integer).2
  · rw [fractionText] at fraction
    split at fraction
    · cases fraction
    · rcases List.mem_cons.mp fraction with rfl | digit
      · decide
      · exact (ne_mark_of_mem_text digit).2

theorem mark_mem_text_iff (width : Nat) (numeral : Numeral) :
    'e' ∈ numeral.text width ↔ numeral.exponent ≠ none := by
  rw [text_eq_mantissaText, List.mem_append]
  constructor
  · rintro (mantissa | exponent)
    · exact absurd rfl (ne_mark_of_mem_mantissaText mantissa)
    · intro none
      rw [none] at exponent
      cases exponent
  · intro some
    apply Or.inr
    obtain ⟨power, exponent⟩ := Option.ne_none_iff_exists'.mp some
    rw [exponent]
    exact List.mem_cons_self

theorem point_mem_text {numeral : Numeral} (fraction : numeral.fraction ≠ []) (width : Nat) :
    '.' ∈ numeral.text width := by
  rw [text_eq_mantissaText, mantissaText, fractionText,
    if_neg (by simpa using fraction)]
  simp

/-- Only an integer is written as one. -/
theorem text_ne_integer {numeral : Numeral} (noInteger : numeral.isInteger = false)
    (width : Nat) (negative : Bool) (digits : List Digit) :
    numeral.text width ≠ signText negative ++ Digits.text digits := by
  intro same
  by_cases whole : numeral.fraction = []
  · have exponent : numeral.exponent ≠ none := by
      intro none
      rw [isInteger, whole, none] at noInteger
      cases noInteger
    have mark := (mark_mem_text_iff width numeral).mpr exponent
    rw [same] at mark
    exact (ne_mark_of_mem_integer mark).2 rfl
  · have point := point_mem_text whole width
    rw [same] at point
    exact (ne_mark_of_mem_integer point).1 rfl

theorem two_le_length_decimalText {number : Nat} (several : 10 ≤ number) :
    2 ≤ (decimalText number).length := by
  rw [decimalText, Digits.text, List.length_map, ← Digits.width]
  by_contra short
  have single : 10 ^ Digits.width number ≤ 10 ^ 1 :=
    Nat.pow_le_pow_right (by decide) (by omega)
  have below := Digits.lt_pow_width number
  omega

/-- Digits with zeros in front of them, at least two in all. -/
def padded (digits : List Char) : List Char :=
  List.replicate (2 - digits.length) '0' ++ digits

/-- Only one digit gets a zero in front of it, and only one. -/
theorem padded_decimalText (number : Nat) :
    padded (decimalText number) =
      if number < 10 then '0' :: decimalText number else decimalText number := by
  split
  · next single =>
      rw [decimalText, Digits.ofNat_of_lt single]
      rfl
  · next several =>
      have long := two_le_length_decimalText (Nat.le_of_not_lt several)
      rw [padded, Nat.sub_eq_zero_of_le long, List.replicate_zero, List.nil_append]

theorem exponentText_two (power : Int) :
    exponentText 2 power =
      'e' :: (if power < 0 then '-' else '+') :: padded (decimalText power.natAbs) := by
  rw [exponentText, padded]

theorem two_le_length_padded (digits : List Char) : 2 ≤ (padded digits).length := by
  rw [padded, List.length_append, List.length_replicate]
  omega

/-- A numeral with its exponent as a plain integer. -/
def bareText (numeral : Numeral) : List Char :=
  numeral.mantissaText ++
    match numeral.exponent with
    | none => []
    | some power => 'e' :: intText power

/-- An exponent with its sign, which may have been left out, and its leading zero. -/
def completed : List Char → List Char
  | '-' :: digits => '-' :: padded digits
  | exponent => '+' :: padded (exponent.dropWhile (· == '+'))

/-- A text whose exponent after the first mark is completed, if there is a mark. -/
def respelled (text : List Char) : List Char :=
  match text.dropWhile (· != 'e') with
  | [] => text
  | mark :: exponent => text.takeWhile (· != 'e') ++ mark :: completed exponent

theorem toChar_ne_plus (digit : Digit) : digit.toChar ≠ '+' := by
  revert digit
  decide

theorem completed_intText (power : Int) :
    'e' :: completed (intText power) = exponentText 2 power := by
  rw [exponentText_two, intText]
  split
  · rfl
  · obtain ⟨digit, more, written⟩ := decimalText_eq_cons power.natAbs
    have kept : (digit.toChar :: more).dropWhile (· == '+') = digit.toChar :: more := by
      apply List.dropWhile_cons_of_neg
      simpa using toChar_ne_plus digit
    rw [List.nil_append, written, completed, kept]
    intro digits same
    exact toChar_ne_minus digit (List.cons.inj same).1

/-- Completing the exponent of the bare text gives the text. -/
theorem respelled_bareText (numeral : Numeral) : respelled numeral.bareText = numeral.text 2 := by
  have plain : ∀ character ∈ numeral.mantissaText, (character != 'e') = true := by
    intro character member
    exact bne_iff_ne.mpr (ne_mark_of_mem_mantissaText member)
  rw [text_eq_mantissaText, respelled, bareText, List.dropWhile_append_of_pos plain,
    List.takeWhile_append_of_pos plain]
  cases numeral.exponent with
  | none => rfl
  | some power =>
      rw [List.dropWhile_cons_of_neg (by decide), List.takeWhile_cons_of_neg (by decide),
        exponentPart, ← completed_intText, List.append_nil]

end Numeral

end SlotRecord
