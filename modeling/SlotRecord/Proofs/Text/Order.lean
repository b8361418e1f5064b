import Mathlib.Data.List.Lex
import Mathlib.Data.String.Basic
import Mathlib.Data.UInt
import SlotRecord.Text.Digits

/-!
# Order of texts

Texts are in the order of their characters, which is also the order of the bytes of
their UTF-8 forms: a longer form starts with a greater byte, and forms of one length
have the digits of the character to the base of 64.
-/

namespace SlotRecord

namespace Utf8

theorem encode_eq_flatMap (text : String) :
    encode text = text.toList.flatMap String.utf8EncodeChar := by
  rw [encode, String.toUTF8_eq_toByteArray, ← String.utf8Encode_toList, List.utf8Encode,
    List.toList_data_toByteArray]

section

variable {low high : Nat} {left right : List UInt8}

theorem cons_ofNat_lt (bound : high < 256)
    (below : low < high ∨ low = high ∧ left < right) :
    UInt8.ofNat low :: left < UInt8.ofNat high :: right := by
  rw [List.cons_lt_cons_iff]
  rcases below with smaller | ⟨rfl, later⟩
  · left
    rw [UInt8.lt_iff_toNat_lt, UInt8.toNat_ofNat', UInt8.toNat_ofNat']
    omega
  · exact Or.inr ⟨rfl, later⟩

/-- What comes before the last digit to the base of 64 counts first. -/
theorem div_lt_or_mod_lt (below : low < high) :
    low / 64 < high / 64 ∨ low / 64 = high / 64 ∧ low % 64 < high % 64 := by
  omega

theorem continuation_lt
    (below : low % 64 < high % 64 ∨ low % 64 = high % 64 ∧ left < right) :
    UInt8.ofNat (low % 64 + 128) :: left < UInt8.ofNat (high % 64 + 128) :: right := by
  apply cons_ofNat_lt (by omega)
  rcases below with smaller | ⟨same, later⟩
  · exact Or.inl (by omega)
  · exact Or.inr ⟨by omega, later⟩

theorem two_bytes_lt (below : low < high) (bound : high ≤ 2047) :
    UInt8.ofNat (low / 64 % 32 + 192) :: UInt8.ofNat (low % 64 + 128) :: left <
      UInt8.ofNat (high / 64 % 32 + 192) :: UInt8.ofNat (high % 64 + 128) :: right := by
  apply cons_ofNat_lt (by omega)
  rcases div_lt_or_mod_lt below with first | ⟨same, last⟩
  · exact Or.inl (by omega)
  · exact Or.inr ⟨by omega, continuation_lt (Or.inl last)⟩

theorem three_bytes_lt (below : low < high) (bound : high ≤ 65535) :
    UInt8.ofNat (low / 4096 % 16 + 224) :: UInt8.ofNat (low / 64 % 64 + 128) ::
        UInt8.ofNat (low % 64 + 128) :: left <
      UInt8.ofNat (high / 4096 % 16 + 224) :: UInt8.ofNat (high / 64 % 64 + 128) ::
        UInt8.ofNat (high % 64 + 128) :: right := by
  apply cons_ofNat_lt (by omega)
  rcases div_lt_or_mod_lt below with front | ⟨same, last⟩
  · rcases div_lt_or_mod_lt front with first | ⟨same, second⟩
    · exact Or.inl (by omega)
    · exact Or.inr ⟨by omega, continuation_lt (Or.inl second)⟩
  · exact Or.inr ⟨by omega, continuation_lt
      (Or.inr ⟨by rw [same], continuation_lt (Or.inl last)⟩)⟩

theorem four_bytes_lt (below : low < high) (bound : high < 2097152) :
    UInt8.ofNat (low / 262144 % 8 + 240) :: UInt8.ofNat (low / 4096 % 64 + 128) ::
        UInt8.ofNat (low / 64 % 64 + 128) :: UInt8.ofNat (low % 64 + 128) :: left <
      UInt8.ofNat (high / 262144 % 8 + 240) :: UInt8.ofNat (high / 4096 % 64 + 128) ::
        UInt8.ofNat (high / 64 % 64 + 128) :: UInt8.ofNat (high % 64 + 128) :: right := by
  apply cons_ofNat_lt (by omega)
  rcases div_lt_or_mod_lt below with front | ⟨same, last⟩
  · rcases div_lt_or_mod_lt front with front | ⟨same, third⟩
    · rcases div_lt_or_mod_lt front with first | ⟨same, second⟩
      · exact Or.inl (by omega)
      · exact Or.inr ⟨by omega, continuation_lt (Or.inl (by omega))⟩
    · exact Or.inr ⟨by omega, continuation_lt
        (Or.inr ⟨by omega, continuation_lt (Or.inl third)⟩)⟩
  · exact Or.inr ⟨by omega, continuation_lt (Or.inr ⟨by omega, continuation_lt
      (Or.inr ⟨by rw [same], continuation_lt (Or.inl last)⟩)⟩)⟩

end

/-- Characters in order have their forms in order, whatever follows them. -/
theorem utf8EncodeChar_append_lt {first second : Char} (before : first < second)
    (left right : List UInt8) :
    String.utf8EncodeChar first ++ left < String.utf8EncodeChar second ++ right := by
  have below : first.val.toNat < second.val.toNat := before
  have bound : second.val.toNat < 2097152 := by
    rcases second.valid with small | ⟨_, large⟩ <;> omega
  simp only [String.utf8EncodeChar]
  generalize first.val.toNat = low at *
  generalize second.val.toNat = high at *
  -- Forms of two lengths differ in their first bytes already.
  by_cases lowOne : low ≤ 127
  · rw [if_pos lowOne]
    split
    · exact cons_ofNat_lt (by omega) (Or.inl below)
    · split
      · exact cons_ofNat_lt (by omega) (Or.inl (by omega))
      · split <;> exact cons_ofNat_lt (by omega) (Or.inl (by omega))
  · have highOne : ¬ high ≤ 127 := by omega
    rw [if_neg lowOne, if_neg highOne]
    by_cases lowTwo : low ≤ 2047
    · rw [if_pos lowTwo]
      split
      · rename_i highTwo
        exact two_bytes_lt below highTwo
      · split <;> exact cons_ofNat_lt (by omega) (Or.inl (by omega))
    · have highTwo : ¬ high ≤ 2047 := by omega
      rw [if_neg lowTwo, if_neg highTwo]
      by_cases lowThree : low ≤ 65535
      · rw [if_pos lowThree]
        split
        · rename_i highThree
          exact three_bytes_lt below highThree
        · exact cons_ofNat_lt (by omega) (Or.inl (by omega))
      · have highThree : ¬ high ≤ 65535 := by omega
        rw [if_neg lowThree, if_neg highThree]
        exact four_bytes_lt below bound

theorem flatMap_lt {first second : List Char} (before : first < second) :
    first.flatMap String.utf8EncodeChar < second.flatMap String.utf8EncodeChar := by
  induction before with
  | @nil head tail =>
      rw [List.flatMap_nil, List.flatMap_cons]
      cases form : String.utf8EncodeChar head with
      | nil => exact absurd form String.utf8EncodeChar_ne_nil
      | cons byte rest => exact List.nil_lt_cons byte _
  | rel smaller =>
      rw [List.flatMap_cons, List.flatMap_cons]
      exact utf8EncodeChar_append_lt smaller _ _
  | cons later induction =>
      rw [List.flatMap_cons, List.flatMap_cons]
      exact List.append_left_lt induction

/-- Texts in order have their bytes in order. -/
theorem encode_lt {first second : String} (before : first < second) :
    encode first < encode second := by
  rw [encode_eq_flatMap, encode_eq_flatMap]
  exact flatMap_lt (String.lt_iff_toList_lt.mp before)

end Utf8

end SlotRecord
