import SlotRecord.Proofs.Cbor.Decoded

/-!
# Items that are passed over

An item that stands for a value can also be passed over. Passing over takes one step at
every level, decoding takes two, and so half the budget is enough.
-/

namespace SlotRecord

open Cbor

namespace Cbor.Item

theorem skipsAll_iff {items : List Item} {steps : Nat} :
    skipsAll steps items = true ↔ ∀ item ∈ items, item.skips steps = true := by
  induction items with
  | nil => simp [skipsAll]
  | cons head tail induction => simp [skipsAll, induction]

theorem skipsEntries_iff {entries : List (Item × Item)} {steps : Nat} :
    skipsEntries steps entries = true ↔
      ∀ entry ∈ entries, entry.1.skips steps = true ∧ entry.2.skips steps = true := by
  induction entries with
  | nil => simp [skipsEntries]
  | cons entry tail induction => simp [skipsEntries, induction, and_assoc]

theorem skipsAll_of_joinChunks {chunks : List Item} {content : List UInt8}
    (joined : joinChunks chunks = some content) (steps : Nat) :
    skipsAll (steps + 1) chunks = true := by
  induction chunks generalizing content with
  | nil => rfl
  | cons head tail induction =>
      cases head with
      | text first =>
          obtain ⟨others, rest, _⟩ := Option.map_eq_some_iff.mp joined
          rw [skipsAll, induction rest]
          rfl
      | _ => cases joined

theorem skips_of_text? {item : Item} {text : String} {budget steps : Nat}
    (read : item.text? budget = some text) (enough : budget + 2 ≤ 2 * steps) :
    item.skips steps = true := by
  obtain ⟨steps, rfl⟩ : ∃ less, steps = less + 1 := ⟨steps - 1, by omega⟩
  cases item with
  | text content => rfl
  | textChunks chunks =>
      simp only [text?, Option.bind_eq_bind, Option.bind_eq_some_iff] at read
      obtain ⟨_, allowed, content, joined, _⟩ := read
      rw [skips]
      by_cases empty : chunks = []
      · rw [empty, skipsAll]
      · have positive : 0 < budget := by
          by_contra none
          simp [guard, empty, none] at allowed
        obtain ⟨less, rfl⟩ : ∃ less, steps = less + 1 := ⟨steps - 1, by omega⟩
        exact skipsAll_of_joinChunks joined less
  | _ => cases read

end Cbor.Item

theorem Value.skips_of_ofItem? {item : Item} {value : Value} {budget steps : Nat}
    (decoded : ofItem? budget item = some value) (enough : budget + 2 ≤ 2 * steps) :
    item.skips steps = true := by
  induction budget using Nat.strongRecOn generalizing item value steps with
  | ind budget induction =>
      obtain ⟨steps, rfl⟩ : ∃ less, steps = less + 1 := ⟨steps - 1, by omega⟩
      cases budget with
      | zero =>
          rw [ofItem?] at decoded
          cases decoded
      | succ budget =>
          cases item with
          | textChunks chunks =>
              obtain ⟨text, read, _⟩ := Option.map_eq_some_iff.mp decoded
              exact Item.skips_of_text? read (by omega)
          | array items =>
              cases budget with
              | zero => cases decoded
              | succ budget =>
                  obtain ⟨values, read, _⟩ := Option.map_eq_some_iff.mp decoded
                  apply Item.skipsAll_iff.mpr
                  intro item member
                  obtain ⟨value, _, inner⟩ :=
                    exists_of_forall₂ (decodes_of_ofItems? read).flip member
                  exact induction budget (by omega) inner (by omega)
          | map pairs =>
              cases budget with
              | zero => cases decoded
              | succ budget =>
                  obtain ⟨entries, read, _⟩ := Option.map_eq_some_iff.mp decoded
                  apply Item.skipsEntries_iff.mpr
                  intro pair member
                  obtain ⟨entry, _, named, inner⟩ :=
                    exists_of_forall₂ (decodes_of_ofEntries? read).flip member
                  exact ⟨Item.skips_of_text? named (by omega),
                    induction budget (by omega) inner (by omega)⟩
          | bytes content => cases decoded
          | byteChunks chunks => cases decoded
          | tagged tag content => cases decoded
          | half bits => cases decoded
          | _ => rfl

end SlotRecord
