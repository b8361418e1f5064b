import SlotRecord.Cbor.Decode
import SlotRecord.Proofs.Cbor.Document
import SlotRecord.Proofs.Dict
import SlotRecord.Proofs.Value.Forms

/-!
# Decoding written items

The item that is written for a value decodes to the value in the form that is
read back, exactly if the budget covers the steps that the value takes.
-/

namespace SlotRecord

open Cbor

namespace Value

mutual

/-- The steps of nesting that are open at once while a value is decoded: one for
a value and another one for what a container holds. -/
def steps : Value → Nat
  | .list items => stepsItems items + 2
  | .dict entries => stepsEntries entries + 2
  | _ => 1

def stepsItems : List Value → Nat
  | [] => 0
  | head :: tail => max head.steps (stepsItems tail)

def stepsEntries : List (String × Value) → Nat
  | [] => 0
  | (_, head) :: tail => max head.steps (stepsEntries tail)

end

theorem ofItem?_number (number : Number) (budget : Nat) :
    ofItem? (budget + 1) number.item = some (.number number.narrowed) := by
  cases number with
  | signed value =>
      have lowest := value.le_toInt
      have highest := value.toInt_lt
      rw [Number.item]
      split
      · have sign : (value.toInt.toNat : Int) = value.toInt := by omega
        rw [ofItem?, Number.ofUInt64_ofNat (by omega), sign, Int64.ofInt_toInt]
        rfl
      · have sign : -1 - (((-1 - value.toInt).toNat : Nat) : Int) = value.toInt := by
          omega
        rw [ofItem?, if_pos (by omega), sign, Int64.ofInt_toInt]
        rfl
  | unsigned value =>
      rw [Number.item, ofItem?, UInt64.ofNat_toNat]
      rfl
  | real value => rfl

theorem text?_encode (content : String) (budget : Nat) :
    Item.text? budget (.text (Utf8.encode content)) = some content :=
  Utf8.decode?_encode content

mutual

/-- The item of a value decodes to the form of the value, exactly if the value
takes no more steps than the budget has. -/
theorem ofItem?_item {value : Value} (noHost : value.Everywhere NoHost)
    (inOrder : value.Everywhere InOrder) (budget : Nat) :
    ofItem? budget value.item =
      if value.steps ≤ budget then some value.narrowed else none := by
  cases budget with
  | zero =>
      cases value <;> simp [ofItem?, steps]
  | succ budget =>
      cases value with
      | null => simp [item, ofItem?, steps, narrowed, mapNumbers]
      | bool value => simp [item, ofItem?, steps, narrowed, mapNumbers]
      | number value =>
          rw [item, ofItem?_number]
          simp [steps, narrowed, mapNumbers]
      | text value =>
          simp [item, ofItem?, text?_encode, steps, narrowed, mapNumbers]
      | list items =>
          simp only [Everywhere] at noHost inOrder
          cases budget with
          | zero => simp [item, ofItem?, steps]
          | succ budget =>
              have items := ofItems?_items noHost.2 inOrder.2 budget
              simp only [item, ofItem?, items, steps, Nat.add_le_add_iff_right,
                narrowed_list]
              split <;> rfl
      | dict entries =>
          simp only [Everywhere] at noHost inOrder
          cases budget with
          | zero => simp [item, ofItem?, steps]
          | succ budget =>
              have pairs := ofEntries?_pairs noHost.2 inOrder.2 budget
              have kept := Dict.ofList_of_ordered (Dict.ordered_map narrowed inOrder.1)
              simp only [item, ofItem?, pairs, steps, Nat.add_le_add_iff_right,
                narrowed_dict]
              split
              · exact congrArg (fun entries => some (Value.dict entries)) kept
              · rfl
      | host object =>
          have absent := noHost.here
          cases absent

theorem ofItems?_items {items : List Value} (noHost : EverywhereItems NoHost items)
    (inOrder : EverywhereItems InOrder items) (budget : Nat) :
    ofItems? budget (itemsOf items) =
      if stepsItems items ≤ budget then some (items.map narrowed) else none := by
  cases items with
  | nil => rfl
  | cons head tail =>
      have first := ofItem?_item noHost.1 inOrder.1 budget
      have others := ofItems?_items noHost.2 inOrder.2 budget
      simp only [itemsOf, ofItems?, first, others, stepsItems, Nat.max_le]
      by_cases shallow : head.steps ≤ budget <;>
        by_cases rest : stepsItems tail ≤ budget <;>
        simp [shallow, rest]

theorem ofEntries?_pairs {entries : List (String × Value)}
    (noHost : EverywhereEntries NoHost entries)
    (inOrder : EverywhereEntries InOrder entries) (budget : Nat) :
    ofEntries? budget (pairsOf entries) =
      if stepsEntries entries ≤ budget then
        some (entries.map fun entry => (entry.1, entry.2.narrowed))
      else none := by
  cases entries with
  | nil => rfl
  | cons entry tail =>
      obtain ⟨key, head⟩ := entry
      have first := ofItem?_item noHost.1 inOrder.1 budget
      have others := ofEntries?_pairs noHost.2 inOrder.2 budget
      simp only [pairsOf, ofEntries?, text?_encode, first, others, stepsEntries,
        Nat.max_le]
      by_cases shallow : head.steps ≤ budget <;>
        by_cases rest : stepsEntries tail ≤ budget <;>
        simp [shallow, rest]

end

theorem stepsItems_le_iff (items : List Value) (bound : Nat) :
    stepsItems items ≤ bound ↔ ∀ item ∈ items, item.steps ≤ bound := by
  induction items with
  | nil => simp [stepsItems]
  | cons head tail induction => simp [stepsItems, induction]

theorem stepsEntries_le_iff (entries : List (String × Value)) (bound : Nat) :
    stepsEntries entries ≤ bound ↔ ∀ entry ∈ entries, entry.2.steps ≤ bound := by
  induction entries with
  | nil => simp [stepsEntries]
  | cons head tail induction => simp [stepsEntries, induction]

end Value

end SlotRecord
