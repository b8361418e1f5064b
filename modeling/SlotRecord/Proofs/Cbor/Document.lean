import SlotRecord.Proofs.Cbor.Head
import SlotRecord.Proofs.Value.Hosts

/-!
# Items of written values

The bytes that are written for a value are one item, and reading the bytes gives
that item back, whatever follows them. The lengths in a value have to be 64-bit
words for this, as they are in memory. The reader needs at most two steps of
fuel for each byte.
-/

namespace SlotRecord

def Number.item : Number → Cbor.Item
  | .signed value =>
    if 0 ≤ value.toInt then .natural value.toInt.toNat
    else .negative (-1 - value.toInt).toNat
  | .unsigned value => .natural value.toNat
  | .real value => .double value

namespace Value

mutual

/-- The item that is written for a value. A host object has none and stands as
null. -/
def item : Value → Cbor.Item
  | .null => .null
  | .bool value => .bool value
  | .number value => value.item
  | .text value => .text (Utf8.encode value)
  | .list items => .array (itemsOf items)
  | .dict entries => .map (pairsOf entries)
  | .host _ => .null

def itemsOf : List Value → List Cbor.Item
  | [] => []
  | head :: tail => head.item :: itemsOf tail

def pairsOf : List (String × Value) → List (Cbor.Item × Cbor.Item)
  | [] => []
  | (key, head) :: tail => (.text (Utf8.encode key), head.item) :: pairsOf tail

end

/-- A value whose own lengths are 64-bit words, those of its keys included. -/
def Addressable : Value → Prop
  | .text content => (Utf8.encode content).length < 2 ^ 64
  | .list items => items.length < 2 ^ 64
  | .dict entries =>
    entries.length < 2 ^ 64 ∧ ∀ entry ∈ entries, (Utf8.encode entry.1).length < 2 ^ 64
  | _ => True

instance : DecidablePred Addressable
  | .text content => inferInstanceAs (Decidable ((Utf8.encode content).length < 2 ^ 64))
  | .list items => inferInstanceAs (Decidable (items.length < 2 ^ 64))
  | .dict entries =>
    inferInstanceAs (Decidable (entries.length < 2 ^ 64 ∧
      ∀ entry ∈ entries, (Utf8.encode entry.1).length < 2 ^ 64))
  | .null | .bool _ | .number _ | .host _ => .isTrue trivial

theorem itemsToCbor_cons {head : Value} {tail : List Value} {bytes : List UInt8} :
    itemsToCbor (head :: tail) = .ok bytes ↔
      ∃ first rest, head.toCbor = .ok first ∧ itemsToCbor tail = .ok rest ∧
        bytes = first ++ rest := by
  cases written : head.toCbor <;> cases others : itemsToCbor tail <;>
    simp [itemsToCbor, written, others, bind, Except.bind, pure, Except.pure, eq_comm]

theorem entriesToCbor_cons {key : String} {head : Value} {tail : List (String × Value)}
    {bytes : List UInt8} :
    entriesToCbor ((key, head) :: tail) = .ok bytes ↔
      ∃ first rest, head.toCbor = .ok first ∧ entriesToCbor tail = .ok rest ∧
        bytes = Cbor.writeText key ++ first ++ rest := by
  cases written : head.toCbor <;> cases others : entriesToCbor tail <;>
    simp [entriesToCbor, written, others, bind, Except.bind, pure, Except.pure, eq_comm]

theorem toCbor_list {items : List Value} {bytes : List UInt8} :
    (Value.list items).toCbor = .ok bytes ↔
      ∃ content, itemsToCbor items = .ok content ∧
        bytes = Cbor.head 4 items.length ++ content := by
  cases written : itemsToCbor items <;> simp [toCbor, written, Except.map, eq_comm]

theorem toCbor_dict {entries : List (String × Value)} {bytes : List UInt8} :
    (Value.dict entries).toCbor = .ok bytes ↔
      ∃ content, entriesToCbor entries = .ok content ∧
        bytes = Cbor.head 5 entries.length ++ content := by
  cases written : entriesToCbor entries <;> simp [toCbor, written, Except.map, eq_comm]

theorem refusal?_itemsToCbor (items : List Value) :
    refusal? (itemsToCbor items) = items.findSome? fun item => refusal? item.toCbor := by
  induction items with
  | nil => rfl
  | cons head tail induction =>
      rw [itemsToCbor, refusal?_bind, induction, List.findSome?_cons]
      cases refusal? head.toCbor <;> rfl

theorem refusal?_entriesToCbor (entries : List (String × Value)) :
    refusal? (entriesToCbor entries) =
      (entries.map Prod.snd).findSome? fun item => refusal? item.toCbor := by
  induction entries with
  | nil => rfl
  | cons entry tail induction =>
      obtain ⟨key, head⟩ := entry
      rw [entriesToCbor, refusal?_bind, induction, List.map_cons, List.findSome?_cons]
      cases refusal? head.toCbor <;> rfl

theorem writes_toCbor : Writes toCbor := by
  constructor
  · intro object
    rfl
  · intro value hosted
    cases value with
    | list items => exact (refusal?_map _ _).trans (refusal?_itemsToCbor items)
    | dict entries => exact (refusal?_map _ _).trans (refusal?_entriesToCbor entries)
    | host object => cases hosted
    | _ => rfl

/-- Nothing but a host object keeps a value from being written. -/
theorem exists_toCbor {value : Value} (noHost : value.Everywhere NoHost) :
    ∃ bytes, value.toCbor = .ok bytes :=
  refusal?_eq_none_iff.mp ((writes_toCbor.refusal?_eq_none_iff value).mpr noHost)

end Value

namespace Cbor

/-- Keys and values in turn. -/
def flattened : List (Item × Item) → List Item
  | [] => []
  | (key, value) :: rest => key :: value :: flattened rest

theorem paired_flattened (entries : List (Item × Item)) :
    paired (flattened entries) = some entries := by
  induction entries with
  | nil => rfl
  | cons entry rest induction => simp [flattened, paired, induction]

theorem flattened_of_paired {flat : List Item} {entries : List (Item × Item)}
    (inPairs : paired flat = some entries) : flattened entries = flat := by
  fun_induction paired flat generalizing entries with
  | case1 =>
      cases inPairs
      rfl
  | case2 => cases inPairs
  | case3 key value rest induction =>
      obtain ⟨others, read, rfl⟩ := Option.map_eq_some_iff.mp inPairs
      rw [flattened, induction read]

theorem length_le_flattened (entries : List (Item × Item)) :
    entries.length ≤ (flattened entries).length := by
  induction entries with
  | nil => exact Nat.le_refl 0
  | cons entry rest induction =>
      simp only [flattened, List.length_cons]
      omega

theorem mem_flattened {entries : List (Item × Item)} {entry : Item × Item}
    (member : entry ∈ entries) :
    entry.1 ∈ flattened entries ∧ entry.2 ∈ flattened entries := by
  induction entries with
  | nil => cases member
  | cons head rest induction =>
      rw [flattened]
      rcases List.mem_cons.mp member with rfl | later
      · exact ⟨List.mem_cons_self, List.mem_cons_of_mem _ List.mem_cons_self⟩
      · obtain ⟨key, value⟩ := induction later
        exact ⟨List.mem_cons_of_mem _ (List.mem_cons_of_mem _ key),
          List.mem_cons_of_mem _ (List.mem_cons_of_mem _ value)⟩

/-- One item in front of further ones. -/
theorem readItems_succ {fuel count : Nat} {bytes more rest : List UInt8} {head : Item}
    {tail : List Item} (scanned : readItem fuel bytes = some (head, more))
    (continued : readItems fuel count more = some (tail, rest)) :
    readItems (fuel + 1) (count + 1) bytes = some (head :: tail, rest) := by
  simp [readItems, scanned, continued]

theorem length_writeText_pos {content : String}
    (bounded : (Utf8.encode content).length < 2 ^ 64) :
    0 < (writeText content).length := by
  have positive := length_head_pos bounded (show 3 < 8 by omega)
  rw [writeText, List.length_append]
  omega

theorem length_toCbor_pos {value : Value} {bytes : List UInt8}
    (addressable : value.Everywhere Value.Addressable)
    (written : value.toCbor = .ok bytes) :
    0 < bytes.length := by
  have here := addressable.here
  cases value with
  | number value =>
      cases written
      cases value with
      | signed value =>
          have lowest := value.le_toInt
          have highest := value.toInt_lt
          rw [writeNumber]
          split
          · exact length_head_pos (by omega) (by omega)
          · exact length_head_pos (by omega) (by omega)
      | unsigned value => exact length_head_pos value.toNat_lt (by omega)
      | real value => exact Nat.succ_pos _
  | text value =>
      cases written
      exact length_writeText_pos here
  | list items =>
      obtain ⟨content, _, rfl⟩ := Value.toCbor_list.mp written
      have positive := length_head_pos here (show 4 < 8 by omega)
      rw [List.length_append]
      omega
  | dict entries =>
      obtain ⟨content, _, rfl⟩ := Value.toCbor_dict.mp written
      have positive := length_head_pos here.1 (show 5 < 8 by omega)
      rw [List.length_append]
      omega
  | host object => cases written
  | _ =>
      cases written
      exact Nat.succ_pos _

theorem readItem_writeNumber (number : Number) (fuel : Nat) (rest : List UInt8) :
    readItem (fuel + 1) (writeNumber number ++ rest) = some (number.item, rest) := by
  cases number with
  | signed value =>
      have lowest := value.le_toInt
      have highest := value.toInt_lt
      rw [writeNumber, Number.item]
      split
      · exact readItem_natural (by omega) fuel rest
      · exact readItem_negative (by omega) fuel rest
  | unsigned value => exact readItem_natural value.toNat_lt fuel rest
  | real value => exact readItem_double value fuel rest

mutual

/-- Reading takes back the item of a value that writing put in front of some
bytes. -/
theorem readItem_toCbor {value : Value} {bytes : List UInt8} {fuel : Nat}
    (addressable : value.Everywhere Value.Addressable)
    (written : value.toCbor = .ok bytes) (enough : 2 * bytes.length ≤ fuel)
    (rest : List UInt8) :
    readItem fuel (bytes ++ rest) = some (value.item, rest) := by
  have positive := length_toCbor_pos addressable written
  have here := addressable.here
  obtain ⟨fuel, rfl⟩ : ∃ more, fuel = more + 1 := ⟨fuel - 1, by omega⟩
  cases value with
  | null =>
      cases written
      rfl
  | bool value =>
      cases written
      cases value <;> rfl
  | number value =>
      cases written
      exact readItem_writeNumber value fuel rest
  | text value =>
      cases written
      exact readItem_writeText here fuel rest
  | list items =>
      simp only [Value.Everywhere] at addressable
      obtain ⟨content, itemsWritten, rfl⟩ := Value.toCbor_list.mp written
      -- The head has a byte at least, which pays for the step into the items.
      have announced := length_head_pos here (show 4 < 8 by omega)
      rw [List.length_append] at enough
      rw [List.append_assoc]
      exact readItem_array here fuel (content ++ rest)
        (readItems_itemsToCbor addressable.2 itemsWritten (by omega) rest)
  | dict entries =>
      simp only [Value.Everywhere] at addressable
      obtain ⟨content, entriesWritten, rfl⟩ := Value.toCbor_dict.mp written
      have announced := length_head_pos here.1 (show 5 < 8 by omega)
      rw [List.length_append] at enough
      rw [List.append_assoc]
      exact readItem_map here.1 fuel (content ++ rest)
        (readItems_entriesToCbor here.2 addressable.2 entriesWritten (by omega) rest)
        (paired_flattened (Value.pairsOf entries))
  | host object => cases written

theorem readItems_itemsToCbor {items : List Value} {bytes : List UInt8} {fuel : Nat}
    (addressable : Value.EverywhereItems Value.Addressable items)
    (written : Value.itemsToCbor items = .ok bytes)
    (enough : 2 * bytes.length + 1 ≤ fuel) (rest : List UInt8) :
    readItems fuel items.length (bytes ++ rest) = some (Value.itemsOf items, rest) := by
  obtain ⟨fuel, rfl⟩ : ∃ more, fuel = more + 1 := ⟨fuel - 1, by omega⟩
  cases items with
  | nil =>
      cases written
      rfl
  | cons head tail =>
      obtain ⟨first, others, headWritten, tailWritten, rfl⟩ :=
        Value.itemsToCbor_cons.mp written
      have positive := length_toCbor_pos addressable.1 headWritten
      rw [List.length_append] at enough
      rw [List.append_assoc]
      apply readItems_succ
      · exact readItem_toCbor addressable.1 headWritten (by omega) (others ++ rest)
      · exact readItems_itemsToCbor addressable.2 tailWritten (by omega) rest

theorem readItems_entriesToCbor {entries : List (String × Value)} {bytes : List UInt8}
    {fuel : Nat} (keys : ∀ entry ∈ entries, (Utf8.encode entry.1).length < 2 ^ 64)
    (addressable : Value.EverywhereEntries Value.Addressable entries)
    (written : Value.entriesToCbor entries = .ok bytes)
    (enough : 2 * bytes.length + 1 ≤ fuel) (rest : List UInt8) :
    readItems fuel (2 * entries.length) (bytes ++ rest) =
      some (flattened (Value.pairsOf entries), rest) := by
  obtain ⟨fuel, rfl⟩ : ∃ more, fuel = more + 1 := ⟨fuel - 1, by omega⟩
  cases entries with
  | nil =>
      cases written
      rfl
  | cons entry tail =>
      obtain ⟨key, head⟩ := entry
      obtain ⟨first, others, headWritten, tailWritten, rfl⟩ :=
        Value.entriesToCbor_cons.mp written
      -- A key and a value take two steps of the count and two steps of fuel.
      have fits : (Utf8.encode key).length < 2 ^ 64 := keys _ List.mem_cons_self
      have named := length_writeText_pos fits
      have positive := length_toCbor_pos addressable.1 headWritten
      rw [List.length_append, List.length_append] at enough
      rw [List.append_assoc, List.append_assoc]
      obtain ⟨fuel, rfl⟩ : ∃ more, fuel = more + 1 := ⟨fuel - 1, by omega⟩
      apply readItems_succ
      · exact readItem_writeText fits fuel (first ++ (others ++ rest))
      · apply readItems_succ
        · exact readItem_toCbor addressable.1 headWritten (by omega) (others ++ rest)
        · apply readItems_entriesToCbor _ addressable.2 tailWritten (by omega) rest
          intro entry member
          exact keys entry (List.mem_cons_of_mem _ member)

end

/-- The first item of a value's bytes is its item. -/
theorem read?_toCbor {value : Value} {bytes : List UInt8}
    (addressable : value.Everywhere Value.Addressable)
    (written : value.toCbor = .ok bytes) : Item.read? bytes = some value.item := by
  have scanned := readItem_toCbor addressable written
    (show 2 * bytes.length ≤ 2 * bytes.length + 2 by omega) []
  rw [List.append_nil] at scanned
  rw [Item.read?, scanned]
  rfl

end Cbor

end SlotRecord
