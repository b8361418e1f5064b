import Mathlib.Tactic.Ring
import Mathlib.Data.List.Induction
import SlotRecord.Text.Digits

/-!
# Digits read back

The digits of a number denote it, and a run of digits that is written in front
of a text is read off again, provided that the text does not go on with a digit.
-/

namespace SlotRecord

theorem Digit.ofChar?_toChar (digit : Digit) :
    Digit.ofChar? digit.toChar = some digit := by
  revert digit
  decide

theorem Digit.toChar_of_ofChar? {character : Char} {digit : Digit}
    (found : Digit.ofChar? character = some digit) : character = digit.toChar := by
  rw [Digit.ofChar?] at found
  split at found
  · rename_i bounds
    cases found
    have whole : 48 + (character.toNat - 48) = character.toNat := by omega
    rw [Digit.toChar, whole, Char.ofNat_toNat]
  · cases found

namespace Digits

/-- A text that does not go on with a digit. -/
def Stops (text : List Char) : Prop :=
  ∀ character ∈ text.head?, Digit.ofChar? character = none

theorem read_of_stops {text : List Char} (stops : Stops text) :
    read text = ([], text) := by
  cases text with
  | nil => rfl
  | cons head tail =>
      have noDigit : Digit.ofChar? head = none := stops head rfl
      simp [read, noDigit]

theorem read_text_append {rest : List Char} (stops : Stops rest)
    (digits : List Digit) : read (text digits ++ rest) = (digits, rest) := by
  induction digits with
  | nil => exact read_of_stops stops
  | cons digit digits induction =>
      have tail : read (digits.map Digit.toChar ++ rest) = (digits, rest) :=
        induction
      simp [text, read, Digit.ofChar?_toChar, tail]

theorem toNat_append_singleton (digits : List Digit) (digit : Digit) :
    toNat (digits ++ [digit]) = 10 * toNat digits + digit.val := by
  simp [toNat]

theorem toNat_append (front back : List Digit) :
    toNat (front ++ back) = toNat front * 10 ^ back.length + toNat back := by
  induction back using List.reverseRecOn with
  | nil => simp [toNat]
  | append_singleton back digit induction =>
      rw [← List.append_assoc, toNat_append_singleton, induction,
        toNat_append_singleton, List.length_append, List.length_singleton,
        Nat.pow_succ]
      ring

theorem toNat_cons (digit : Digit) (digits : List Digit) :
    toNat (digit :: digits) = digit.val * 10 ^ digits.length + toNat digits := by
  simpa [toNat] using toNat_append [digit] digits

theorem toNat_replicate_zero (count : Nat) :
    toNat (List.replicate count (0 : Digit)) = 0 := by
  induction count with
  | zero => rfl
  | succ count induction =>
      rw [List.replicate_succ, toNat_cons]
      simpa using induction

theorem toNat_lt (digits : List Digit) : toNat digits < 10 ^ digits.length := by
  induction digits using List.reverseRecOn with
  | nil => simp [toNat]
  | append_singleton digits digit induction =>
      have bound := digit.isLt
      rw [toNat_append_singleton, List.length_append, List.length_singleton,
        Nat.pow_succ]
      omega

theorem ofNat_of_lt {number : Nat} (small : number < 10) :
    ofNat number = [Fin.ofNat 10 number] := by
  rw [ofNat, if_pos small]

theorem ofNat_of_le {number : Nat} (large : 10 ≤ number) :
    ofNat number = ofNat (number / 10) ++ [Fin.ofNat 10 number] := by
  rw [ofNat, if_neg (by omega)]

@[simp] theorem toNat_ofNat (number : Nat) : toNat (ofNat number) = number := by
  induction number using ofNat.induct with
  | case1 number small =>
      rw [ofNat_of_lt small]
      simp [toNat]
      omega
  | case2 number large induction =>
      rw [ofNat_of_le (by omega), toNat_append_singleton, induction]
      simp
      omega

@[simp] theorem length_fixed (width number : Nat) :
    (fixed width number).length = width := by
  induction width generalizing number with
  | zero => rfl
  | succ width induction => simp [fixed, induction]

theorem toNat_fixed (width number : Nat) :
    toNat (fixed width number) = number % 10 ^ width := by
  induction width generalizing number with
  | zero => simp [fixed, toNat, Nat.mod_one]
  | succ width induction =>
      rw [fixed, toNat_append_singleton, induction, Nat.pow_succ,
        Nat.mul_comm (10 ^ width), Nat.mod_mul]
      simp
      omega

/-- The digits of a number begin with zero only if zero is the only digit. -/
theorem ofNat_eq_cons (number : Nat) :
    ∃ lead more, ofNat number = lead :: more ∧
      (lead.val = 0 → number = 0) ∧ (number = 0 → more = []) := by
  induction number using ofNat.induct with
  | case1 number small =>
      refine ⟨Fin.ofNat 10 number, [], ofNat_of_lt small, ?_, fun _ => rfl⟩
      intro zero
      simp at zero
      omega
  | case2 number large induction =>
      obtain ⟨lead, more, split, nonzero, _⟩ := induction
      refine ⟨lead, more ++ [Fin.ofNat 10 number], ?_, ?_, ?_⟩
      · rw [ofNat_of_le (by omega), split, List.cons_append]
      · intro zero
        have quotient := nonzero zero
        omega
      · intro zero
        omega

/-- Digits as a number is written: the first of them is zero only if it is alone. -/
def Canonical (digits : List Digit) : Prop :=
  ∃ lead more, digits = lead :: more ∧ (lead.val = 0 → more = [])

theorem canonical_ofNat (number : Nat) : Canonical (ofNat number) := by
  obtain ⟨lead, more, split, nonzero, alone⟩ := ofNat_eq_cons number
  refine ⟨lead, more, split, ?_⟩
  intro zero
  exact alone (nonzero zero)

theorem toNat_cons_pos {lead : Digit} (nonzero : lead.val ≠ 0) (more : List Digit) :
    0 < toNat (lead :: more) := by
  rw [toNat_cons]
  apply Nat.add_pos_left
  exact Nat.mul_pos (Nat.pos_of_ne_zero nonzero) (Nat.pow_pos (by decide))

/-- Without leading zeros digits are those of the number that they denote. -/
theorem ofNat_toNat {digits : List Digit} (canonical : Canonical digits) :
    ofNat (toNat digits) = digits := by
  induction digits using List.reverseRecOn with
  | nil =>
      obtain ⟨lead, more, split, _⟩ := canonical
      cases split
  | append_singleton front digit induction =>
      have bound := digit.isLt
      rw [toNat_append_singleton]
      cases front with
      | nil =>
          rw [ofNat_of_lt (by simp [toNat])]
          simp [toNat]
      | cons lead more =>
          obtain ⟨first, others, split, alone⟩ := canonical
          obtain ⟨rfl, rfl⟩ := List.cons.inj split
          have nonzero : lead.val ≠ 0 := by
            intro zero
            exact absurd (alone zero) (List.append_ne_nil_of_right_ne_nil _ (by simp))
          have positive := toNat_cons_pos nonzero more
          have front := induction ⟨lead, more, rfl, fun zero => absurd zero nonzero⟩
          have quotient : (10 * toNat (lead :: more) + digit.val) / 10 =
              toNat (lead :: more) := by omega
          rw [ofNat_of_le (by omega), quotient, front]
          congr 2
          apply Fin.ext
          rw [Fin.val_ofNat]
          omega

theorem eq_ofNat_iff {digits : List Digit} {number : Nat} :
    digits = ofNat number ↔ Canonical digits ∧ toNat digits = number := by
  constructor
  · rintro rfl
    exact ⟨canonical_ofNat number, toNat_ofNat number⟩
  · rintro ⟨canonical, rfl⟩
    exact (ofNat_toNat canonical).symm

theorem text_injective : Function.Injective text := by
  intro first second same
  apply (List.map_inj_right _).mp same
  intro digit other written
  have read := congrArg Digit.ofChar? written
  rw [Digit.ofChar?_toChar, Digit.ofChar?_toChar] at read
  exact Option.some.inj read

theorem lt_pow_width (number : Nat) : number < 10 ^ width number := by
  simpa [width] using toNat_lt (ofNat number)

theorem pow_width_le {number : Nat} (positive : 0 < number) :
    10 ^ (width number - 1) ≤ number := by
  obtain ⟨lead, more, split, nonzero, _⟩ := ofNat_eq_cons number
  have denoted : lead.val * 10 ^ more.length + toNat more = number := by
    rw [← toNat_cons, ← split, toNat_ofNat]
  have leadPositive : 1 ≤ lead.val := by
    by_contra absent
    have zero := nonzero (by omega)
    omega
  have scaled : 10 ^ more.length ≤ lead.val * 10 ^ more.length :=
    Nat.le_mul_of_pos_left _ leadPositive
  simp only [width, split, List.length_cons, Nat.add_sub_cancel]
  omega

theorem width_pos (number : Nat) : 0 < width number := by
  obtain ⟨lead, more, split, _⟩ := ofNat_eq_cons number
  rw [width, split]
  exact Nat.succ_pos _

theorem width_eq_succ {number places : Nat} (above : 10 ^ places ≤ number)
    (below : number < 10 ^ (places + 1)) : width number = places + 1 := by
  have positive : 0 < number := Nat.lt_of_lt_of_le (Nat.pow_pos (by decide)) above
  have narrow := (Nat.pow_lt_pow_iff_right (by decide)).mp
    (Nat.lt_of_le_of_lt (pow_width_le positive) below)
  have wide := (Nat.pow_lt_pow_iff_right (by decide)).mp
    (Nat.lt_of_le_of_lt above (lt_pow_width number))
  omega

theorem width_mul_ten {number : Nat} (positive : 0 < number) :
    width (number * 10) = width number + 1 := by
  rw [width, ofNat_of_le (by omega), Nat.mul_div_cancel _ (by decide)]
  simp [width]

end Digits

theorem decimalText_injective : Function.Injective decimalText := by
  intro first second same
  have digits := congrArg Digits.toNat (Digits.text_injective same)
  simpa only [Digits.toNat_ofNat] using digits

end SlotRecord
