import SlotRecord.Decimal.Numeral
import SlotRecord.Proofs.Text.Digits

/-!
# Numerals read back

A numeral that is written in front of a text is read off again, unless the text
goes on with a character that could belong to the numeral.
-/

namespace SlotRecord

namespace Numeral

/-- A text that does not continue a numeral in front of it. -/
structure Ends (text : List Char) : Prop where
  stops : Digits.Stops text
  noMark : ∀ character ∈ text.head?,
    character ≠ '.' ∧ character ≠ 'e' ∧ character ≠ 'E'

theorem ends_nil : Ends [] := ⟨by simp [Digits.Stops], by simp⟩

theorem readWhole_decimalText {rest : List Char} (stops : Digits.Stops rest)
    (number : Nat) :
    readWhole (decimalText number ++ rest) = some (number, rest) := by
  obtain ⟨lead, more, split, nonzero, alone⟩ := Digits.ofNat_eq_cons number
  have sound : ¬(lead.val = 0 ∧ more ≠ []) := by
    rintro ⟨zero, longer⟩
    exact longer (alone (nonzero zero))
  have denoted : Digits.toNat (lead :: more) = number := by
    rw [← split, Digits.toNat_ofNat]
  simp only [readWhole, decimalText, Digits.read_text_append stops, split]
  rw [if_neg sound, denoted]

/-- The digits of a fraction with the point in front of them. -/
def fractionText (digits : List Digit) : List Char :=
  if digits.isEmpty then [] else '.' :: Digits.text digits

theorem readFraction_fractionText {rest : List Char} (stops : Digits.Stops rest)
    (noPoint : ∀ character ∈ rest.head?, character ≠ '.') (digits : List Digit) :
    readFraction (fractionText digits ++ rest) = some (digits, rest) := by
  cases digits with
  | nil =>
      cases rest with
      | nil => rfl
      | cons head tail =>
          have different : head ≠ '.' := noPoint head rfl
          simp only [fractionText, List.isEmpty_nil, if_true, List.nil_append]
          unfold readFraction
          split
          · rename_i equality
            exact absurd (List.cons.inj equality).1 different
          · rfl
  | cons digit digits =>
      have scanned :
          Digits.read (Digits.text (digit :: digits) ++ rest) =
            (digit :: digits, rest) :=
        Digits.read_text_append stops (digit :: digits)
      simp [fractionText, readFraction, scanned]

theorem read_replicate_zero {rest : List Char} (stops : Digits.Stops rest)
    (count number : Nat) :
    ∃ digits, digits ≠ [] ∧ Digits.toNat digits = number ∧
      Digits.read (List.replicate count '0' ++ decimalText number ++ rest) =
        (digits, rest) := by
  obtain ⟨lead, more, split, _⟩ := Digits.ofNat_eq_cons number
  have zeros : List.replicate count '0' =
      Digits.text (List.replicate count (0 : Digit)) := by
    simp [Digits.text, Digit.toChar]
  have denoted :
      Digits.toNat (List.replicate count (0 : Digit) ++ Digits.ofNat number) =
        number := by
    rw [Digits.toNat_append, Digits.toNat_replicate_zero, Digits.toNat_ofNat]
    omega
  refine ⟨List.replicate count 0 ++ Digits.ofNat number, ?_, denoted, ?_⟩
  · simp [split]
  · have joined :
        List.replicate count '0' ++ decimalText number =
          Digits.text (List.replicate count (0 : Digit) ++ Digits.ofNat number) := by
      rw [zeros]
      simp [Digits.text, decimalText]
    rw [joined]
    exact Digits.read_text_append stops _

theorem readExponentDigits_padded {rest : List Char} (stops : Digits.Stops rest)
    (negative : Bool) (count number : Nat) :
    readExponentDigits negative
        (List.replicate count '0' ++ decimalText number ++ rest) =
      some (some (if negative then -(number : Int) else number), rest) := by
  obtain ⟨digits, nonempty, denoted, scanned⟩ :=
    read_replicate_zero stops count number
  cases digits with
  | nil => exact absurd rfl nonempty
  | cons digit digits => simp only [readExponentDigits, scanned, denoted]

theorem readExponent_exponentText {rest : List Char} (stops : Digits.Stops rest)
    (width : Nat) (exponent : Int) :
    readExponent (exponentText width exponent ++ rest) =
      some (some exponent, rest) := by
  have digits := readExponentDigits_padded stops (decide (exponent < 0))
    (width - (decimalText exponent.natAbs).length) exponent.natAbs
  by_cases negative : exponent < 0
  · have signed : -(exponent.natAbs : Int) = exponent := by omega
    simp only [negative, decide_true, if_true, signed] at digits
    simpa [exponentText, readExponent, negative] using digits
  · have signed : (exponent.natAbs : Int) = exponent := by omega
    simp only [negative, decide_false, Bool.false_eq_true, if_false, signed] at digits
    simpa [exponentText, readExponent, negative] using digits

/-- The exponent of a numeral as it is written, if there is one. -/
def exponentPart (width : Nat) : Option Int → List Char
  | none => []
  | some exponent => exponentText width exponent

theorem readExponent_exponentPart {rest : List Char} (ends : Ends rest)
    (width : Nat) (exponent : Option Int) :
    readExponent (exponentPart width exponent ++ rest) =
      some (exponent, rest) := by
  cases exponent with
  | some exponent => exact readExponent_exponentText ends.stops width exponent
  | none =>
      cases rest with
      | nil => rfl
      | cons head tail =>
          have marks := ends.noMark head rfl
          simp [exponentPart, readExponent, marks]

theorem exponentPart_append_stops {rest : List Char} (ends : Ends rest)
    (width : Nat) (exponent : Option Int) :
    Digits.Stops (exponentPart width exponent ++ rest) := by
  cases exponent with
  | none => exact ends.stops
  | some exponent =>
      simp only [Digits.Stops, exponentPart, exponentText, List.cons_append,
        List.head?_cons, Option.mem_some_iff]
      rintro _ rfl
      decide

theorem exponentPart_append_noPoint {rest : List Char} (ends : Ends rest)
    (width : Nat) (exponent : Option Int) :
    ∀ character ∈ (exponentPart width exponent ++ rest).head?, character ≠ '.' := by
  cases exponent with
  | none => exact fun character member => (ends.noMark character member).1
  | some exponent =>
      simp only [exponentPart, exponentText, List.cons_append,
        List.head?_cons, Option.mem_some_iff]
      rintro _ rfl
      decide

theorem fractionText_append_stops {rest : List Char} (stops : Digits.Stops rest)
    (digits : List Digit) : Digits.Stops (fractionText digits ++ rest) := by
  cases digits with
  | nil => exact stops
  | cons digit digits =>
      simp only [Digits.Stops, fractionText, List.isEmpty_cons, Bool.false_eq_true,
        if_false, List.cons_append, List.head?_cons, Option.mem_some_iff]
      rintro _ rfl
      decide

/-- A numeral without its sign. -/
def unsignedText (width : Nat) (numeral : Numeral) : List Char :=
  decimalText numeral.whole ++
    (fractionText numeral.fraction ++ exponentPart width numeral.exponent)

theorem readUnsigned_unsignedText {rest : List Char} (ends : Ends rest)
    (width : Nat) (numeral : Numeral) :
    readUnsigned numeral.negative (unsignedText width numeral ++ rest) =
      some (numeral, rest) := by
  have exponentStops := exponentPart_append_stops ends width numeral.exponent
  have whole := readWhole_decimalText
    (fractionText_append_stops exponentStops numeral.fraction) numeral.whole
  have fraction := readFraction_fractionText exponentStops
    (exponentPart_append_noPoint ends width numeral.exponent) numeral.fraction
  have exponent := readExponent_exponentPart ends width numeral.exponent
  simp only [unsignedText, List.append_assoc, readUnsigned, whole, fraction, exponent,
    Option.bind_eq_bind, Option.bind_some, Option.pure_def]

theorem text_eq (width : Nat) (numeral : Numeral) :
    numeral.text width =
      (if numeral.negative then ['-'] else []) ++ unsignedText width numeral := by
  cases exponent : numeral.exponent <;>
    simp [text, unsignedText, fractionText, exponentPart, exponent]

theorem decimalText_eq_cons (number : Nat) :
    ∃ digit more, decimalText number = Digit.toChar digit :: more := by
  obtain ⟨lead, more, split, _⟩ := Digits.ofNat_eq_cons number
  exact ⟨lead, Digits.text more, by simp [decimalText, Digits.text, split]⟩

theorem toChar_ne_minus (digit : Digit) : digit.toChar ≠ '-' := by
  revert digit
  decide

/-- Reading takes back what writing put in front of a text. -/
theorem read_text_append {rest : List Char} (ends : Ends rest)
    (width : Nat) (numeral : Numeral) :
    read (numeral.text width ++ rest) = some (numeral, rest) := by
  have unsigned := readUnsigned_unsignedText ends width numeral
  rw [text_eq]
  cases sign : numeral.negative with
  | true =>
      rw [sign] at unsigned
      simpa [read] using unsigned
  | false =>
      rw [sign] at unsigned
      obtain ⟨digit, more, first⟩ := decimalText_eq_cons numeral.whole
      simp only [Bool.false_eq_true, if_false, List.nil_append]
      unfold read
      split
      · rename_i tail equality
        simp only [unsignedText, first, List.cons_append] at equality
        exact absurd (List.cons.inj equality).1 (toChar_ne_minus digit)
      · exact unsigned

end Numeral

end SlotRecord
