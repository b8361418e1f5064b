import Mathlib.Tactic.SplitIfs
import SlotRecord.Cbor.Reader
import SlotRecord.Proofs.Prolonged

/-!
# CBOR bytes that go on

More bytes behind an item that is read do not change what is read, whatever the fuel:
lengths, counts and the break byte say where everything ends.
-/

namespace SlotRecord

namespace Cbor

theorem splitExactly_extend {α : Type} (count : Nat) (bytes more : List α) :
    Prolongs more (splitExactly count bytes) (splitExactly count (bytes ++ more)) := by
  induction count generalizing bytes with
  | zero => exact .some [] bytes
  | succ count induction =>
      cases bytes with
      | nil => exact .none _
      | cons head tail =>
          exact (induction tail).bind fun front rest => .some (head :: front) rest

section

variable (bytes more : List UInt8)

theorem readWord_extend (width : Nat) :
    Prolongs more (readWord width bytes) (readWord width (bytes ++ more)) :=
  (splitExactly_extend width bytes more).bind fun front rest => .some (ofBigEndian front) rest

theorem readArgument_extend (code : Nat) :
    Prolongs more (readArgument code bytes) (readArgument code (bytes ++ more)) := by
  rw [readArgument, readArgument]
  split_ifs
  · exact .some code bytes
  · exact readWord_extend bytes more 1
  · exact readWord_extend bytes more 2
  · exact readWord_extend bytes more 4
  · exact readWord_extend bytes more 8
  · exact .none _

theorem readSimple_extend (code : Nat) :
    Prolongs more (readSimple code bytes) (readSimple code (bytes ++ more)) := by
  rw [readSimple.eq_def, readSimple.eq_def]
  split
  · exact .some _ bytes
  · exact .some _ bytes
  · exact .some _ bytes
  · exact .some _ bytes
  · exact (readWord_extend bytes more 2).bind fun bits rest => .some _ rest
  · exact (readWord_extend bytes more 4).bind fun bits rest => .some _ rest
  · exact (readWord_extend bytes more 8).bind fun bits rest => .some _ rest
  · exact .none _

end

mutual

/-- What is read of some bytes is read of them whatever follows, and with more fuel. -/
theorem readItem_extend {fuel longer : Nat} (bytes more : List UInt8) (enough : fuel ≤ longer) :
    Prolongs more (readItem fuel bytes) (readItem longer (bytes ++ more)) := by
  cases fuel with
  | zero =>
      rw [readItem]
      exact .none _
  | succ fuel =>
      obtain ⟨longer, rfl⟩ : ∃ less, longer = less + 1 := ⟨longer - 1, by omega⟩
      have inside : fuel ≤ longer := Nat.le_of_succ_le_succ enough
      cases bytes with
      | nil =>
          rw [readItem]
          exact .none _
      | cons first bytes =>
          rw [List.cons_append, readItem, readItem]
          dsimp only
          split
          · exact (readArgument_extend bytes more _).bind fun value rest => .some _ rest
          · exact (readArgument_extend bytes more _).bind fun value rest => .some _ rest
          · split
            · exact (readOpen_extend bytes more inside).bind fun chunks rest => .some _ rest
            · exact (readArgument_extend bytes more _).bind fun length rest =>
                (splitExactly_extend length rest more).bind fun content left => .some _ left
          · split
            · exact (readOpen_extend bytes more inside).bind fun chunks rest => .some _ rest
            · exact (readArgument_extend bytes more _).bind fun length rest =>
                (splitExactly_extend length rest more).bind fun content left => .some _ left
          · split
            · exact (readOpen_extend bytes more inside).bind fun items rest => .some _ rest
            · exact (readArgument_extend bytes more _).bind fun count rest =>
                (readItems_extend count rest more inside).bind fun items left => .some _ left
          · split
            · exact (readOpen_extend bytes more inside).bind fun flat rest =>
                .check fun entries => .some (Item.map entries) rest
            · exact (readArgument_extend bytes more _).bind fun count rest =>
                (readItems_extend (2 * count) rest more inside).bind fun flat left =>
                  .check fun entries => .some (Item.map entries) left
          · exact (readArgument_extend bytes more _).bind fun tag rest =>
              (readItem_extend rest more inside).bind fun content left => .some _ left
          · exact readSimple_extend bytes more _

theorem readItems_extend {fuel longer : Nat} (count : Nat) (bytes more : List UInt8)
    (enough : fuel ≤ longer) :
    Prolongs more (readItems fuel count bytes) (readItems longer count (bytes ++ more)) := by
  cases fuel with
  | zero =>
      rw [readItems]
      exact .none _
  | succ fuel =>
      obtain ⟨longer, rfl⟩ : ∃ less, longer = less + 1 := ⟨longer - 1, by omega⟩
      have inside : fuel ≤ longer := Nat.le_of_succ_le_succ enough
      cases count with
      | zero => exact .some [] bytes
      | succ count =>
          rw [readItems, readItems]
          exact (readItem_extend bytes more inside).bind fun head rest =>
            (readItems_extend count rest more inside).bind fun tail left => .some _ left

theorem readOpen_extend {fuel longer : Nat} (bytes more : List UInt8) (enough : fuel ≤ longer) :
    Prolongs more (readOpen fuel bytes) (readOpen longer (bytes ++ more)) := by
  cases fuel with
  | zero =>
      rw [readOpen]
      exact .none _
  | succ fuel =>
      obtain ⟨longer, rfl⟩ : ∃ less, longer = less + 1 := ⟨longer - 1, by omega⟩
      have inside : fuel ≤ longer := Nat.le_of_succ_le_succ enough
      cases bytes with
      | nil =>
          rw [readOpen.eq_def]
          exact .none _
      | cons first tail =>
          rw [List.cons_append, readOpen.eq_def, readOpen.eq_def]
          dsimp only
          split
          · exact .some [] tail
          · exact (readItem_extend (first :: tail) more inside).bind fun head rest =>
              (readOpen_extend rest more inside).bind fun others left => .some _ left

end

section

variable {bytes : List UInt8} {item : Item}
  (whole : readItem (2 * bytes.length + 2) bytes = some (item, []))

include whole

/-- What follows an item is not looked at. -/
theorem read?_append (suffix : List UInt8) : Item.read? (bytes ++ suffix) = some item := by
  have enough : 2 * bytes.length + 2 ≤ 2 * (bytes ++ suffix).length + 2 := by
    rw [List.length_append]
    omega
  have longer := readItem_extend bytes suffix enough item [] whole
  rw [Item.read?, longer]
  rfl

/-- An item that is cut off is no item. -/
theorem read?_front {front back : List UInt8} (split : front ++ back = bytes)
    (lost : back ≠ []) : Item.read? front = none := by
  subst split
  have enough : 2 * front.length + 2 ≤ 2 * (front ++ back).length + 2 := by
    rw [List.length_append]
    omega
  have prolongs := readItem_extend front back enough
  rw [whole] at prolongs
  rw [Item.read?, prolongs.eq_none lost]
  rfl

end

end Cbor

end SlotRecord
