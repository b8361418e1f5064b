import SlotRecord.Proofs.Cbor.Decoding
import SlotRecord.Proofs.Value.Decoder

/-!
# What items decode to

Whatever an item says, however its heads and lengths were written, the value it decodes
to is in a form in which values are read back: it is no host object, its integers are
settled, its entries are in order. It takes no more steps than the budget has.
-/

namespace SlotRecord

open Cbor

/-- The items directly inside an item. -/
def Cbor.Item.parts : Item → List Item
  | .byteChunks chunks => chunks
  | .textChunks chunks => chunks
  | .array items => items
  | .map entries => flattened entries
  | .tagged _ content => [content]
  | _ => []

namespace Value

/-- Whether an entry is what a key and an item decode to. -/
def DecodesPair (budget : Nat) (pair : Item × Item) (entry : String × Value) : Prop :=
  pair.1.text? budget = some entry.1 ∧ ofItem? budget pair.2 = some entry.2

theorem decodes_of_ofItems? {budget : Nat} {items : List Item} {values : List Value}
    (decoded : ofItems? budget items = some values) :
    List.Forall₂ (fun item value => ofItem? budget item = some value) items values := by
  induction items generalizing values with
  | nil =>
      cases decoded
      exact List.Forall₂.nil
  | cons head tail induction =>
      simp only [ofItems?, Option.bind_eq_bind, Option.bind_eq_some_iff] at decoded
      obtain ⟨first, read, others, rest, complete⟩ := decoded
      cases complete
      exact List.Forall₂.cons read (induction rest)

theorem decodes_of_ofEntries? {budget : Nat} {pairs : List (Item × Item)}
    {entries : List (String × Value)} (decoded : ofEntries? budget pairs = some entries) :
    List.Forall₂ (DecodesPair budget) pairs entries := by
  induction pairs generalizing entries with
  | nil =>
      cases decoded
      exact List.Forall₂.nil
  | cons pair tail induction =>
      obtain ⟨key, head⟩ := pair
      simp only [ofEntries?, Option.bind_eq_bind, Option.bind_eq_some_iff] at decoded
      obtain ⟨name, named, first, read, others, rest, complete⟩ := decoded
      cases complete
      exact List.Forall₂.cons ⟨named, read⟩ (induction rest)

section

variable {budget : Nat}

theorem exists_of_mem_ofItems? {items : List Item} {values : List Value}
    (decoded : ofItems? budget items = some values) {value : Value}
    (member : value ∈ values) : ∃ item ∈ items, ofItem? budget item = some value :=
  exists_of_forall₂ (decodes_of_ofItems? decoded) member

theorem exists_of_mem_ofEntries? {pairs : List (Item × Item)}
    {entries : List (String × Value)} (decoded : ofEntries? budget pairs = some entries)
    {entry : String × Value} (member : entry ∈ Dict.ofList entries) :
    ∃ pair ∈ pairs, DecodesPair budget pair entry :=
  exists_of_forall₂ (decodes_of_ofEntries? decoded) (Dict.mem_ofList member)

end

theorem steps_of_scalar {value : Value} (scalar : Scalar value) : value.steps = 1 := by
  cases value with
  | list items => cases scalar
  | dict entries => cases scalar
  | _ => rfl

/-- How a value stems from an item: as it stands, or from the items inside. -/
inductive StemsFromItem : Nat → Item → Value → Prop
  | scalar {budget : Nat} {item : Item} {value : Value} (form : ReadBack value)
      (flat : Scalar value) : StemsFromItem (budget + 1) item value
  | text {budget : Nat} {item : Item} {content : String}
      (read : item.text? budget = some content) :
      StemsFromItem (budget + 1) item (.text content)
  | list {budget : Nat} {items : List Item} {values : List Value}
      (read : ofItems? budget items = some values) :
      StemsFromItem (budget + 2) (.array items) (.list values)
  | dict {budget : Nat} {pairs : List (Item × Item)} {entries : List (String × Value)}
      (read : ofEntries? budget pairs = some entries) :
      StemsFromItem (budget + 2) (.map pairs) (.dict (Dict.ofList entries))

theorem stems_of_ofItem? {budget : Nat} {item : Item} {value : Value}
    (decoded : ofItem? budget item = some value) : StemsFromItem budget item value := by
  cases budget with
  | zero =>
      rw [ofItem?] at decoded
      cases decoded
  | succ budget =>
      cases item with
      | natural held =>
          cases decoded
          exact .scalar ⟨rfl, trivial, settled_ofUInt64 _⟩ trivial
      | negative held =>
          rw [ofItem?] at decoded
          split at decoded
          · cases decoded
            exact .scalar ⟨rfl, trivial, trivial⟩ trivial
          · cases decoded
      | text content =>
          obtain ⟨text, read, rfl⟩ := Option.map_eq_some_iff.mp decoded
          exact .text read
      | textChunks chunks =>
          obtain ⟨text, read, rfl⟩ := Option.map_eq_some_iff.mp decoded
          exact .text read
      | array items =>
          cases budget with
          | zero => cases decoded
          | succ budget =>
              obtain ⟨values, read, rfl⟩ := Option.map_eq_some_iff.mp decoded
              exact .list read
      | map pairs =>
          cases budget with
          | zero => cases decoded
          | succ budget =>
              obtain ⟨entries, read, rfl⟩ := Option.map_eq_some_iff.mp decoded
              exact .dict read
      | bool held =>
          cases decoded
          exact .scalar ⟨rfl, trivial, trivial⟩ trivial
      | null =>
          cases decoded
          exact .scalar ⟨rfl, trivial, trivial⟩ trivial
      | undefined =>
          cases decoded
          exact .scalar ⟨rfl, trivial, trivial⟩ trivial
      | single bits =>
          cases decoded
          exact .scalar ⟨rfl, trivial, trivial⟩ trivial
      | double held =>
          cases decoded
          exact .scalar ⟨rfl, trivial, trivial⟩ trivial
      | _ => cases decoded

theorem readBack_of_ofItem? {budget : Nat} {item : Item} {value : Value}
    (decoded : ofItem? budget item = some value) : ReadBack value := by
  cases stems_of_ofItem? decoded with
  | scalar form flat => exact form
  | text read => exact ⟨rfl, trivial, trivial⟩
  | list read => exact ⟨rfl, trivial, trivial⟩
  | dict read => exact ⟨rfl, Dict.ordered_ofList _, trivial⟩

theorem descends_ofItem? : Descends Item.parts ofItem? := by
  intro budget item value decoded part member
  cases stems_of_ofItem? decoded with
  | scalar form flat =>
      rw [parts_of_scalar flat] at member
      cases member
  | text read => cases member
  | @list budget items values read =>
      exact ⟨budget, by omega, exists_of_mem_ofItems? read member⟩
  | @dict budget pairs entries read =>
      obtain ⟨entry, entryMember, rfl⟩ := List.mem_map.mp member
      obtain ⟨pair, pairMember, _, inner⟩ := exists_of_mem_ofEntries? read entryMember
      exact ⟨budget, by omega, pair.2, (mem_flattened pairMember).2, inner⟩

/-- A decoded value takes no more steps than the budget has. -/
theorem steps_le_of_ofItem? {budget : Nat} {item : Item} {value : Value}
    (decoded : ofItem? budget item = some value) : value.steps ≤ budget := by
  induction budget using Nat.strongRecOn generalizing item value with
  | ind budget induction =>
      cases stems_of_ofItem? decoded with
      | scalar form flat =>
          rw [steps_of_scalar flat]
          exact Nat.succ_pos _
      | text read => exact Nat.succ_pos _
      | @list budget items values read =>
          apply Nat.add_le_add_right
          apply (stepsItems_le_iff values budget).mpr
          intro inner member
          obtain ⟨source, _, innerRead⟩ := exists_of_mem_ofItems? read member
          exact induction budget (by omega) innerRead
      | @dict budget pairs entries read =>
          apply Nat.add_le_add_right
          apply (stepsEntries_le_iff (Dict.ofList entries) budget).mpr
          intro entry member
          obtain ⟨source, _, _, innerRead⟩ := exists_of_mem_ofEntries? read member
          exact induction budget (by omega) innerRead

end Value

end SlotRecord
