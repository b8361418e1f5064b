import SlotRecord.Proofs.Cbor.Decoded

/-!
# Sizes of items

Reading takes at least a byte for each item and for each byte of a string. So nothing
that an item holds is longer than the bytes it is read from.
-/

namespace SlotRecord

namespace Cbor

theorem length_splitExactly {count : Nat} {bytes front rest : List UInt8}
    (read : splitExactly count bytes = some (front, rest)) :
    front.length + rest.length = bytes.length := by
  induction count generalizing bytes front with
  | zero =>
      cases read
      exact Nat.zero_add _
  | succ count induction =>
      cases bytes with
      | nil => cases read
      | cons head tail =>
          obtain ⟨others, taken, rfl⟩ := exists_of_taken (List.cons head) read
          have sum := induction taken
          rw [List.length_cons, List.length_cons]
          omega

theorem length_readWord {width number : Nat} {bytes rest : List UInt8}
    (read : readWord width bytes = some (number, rest)) : rest.length ≤ bytes.length := by
  obtain ⟨front, taken, rfl⟩ := exists_of_taken ofBigEndian read
  have sum := length_splitExactly taken
  omega

theorem length_readArgument {code argument : Nat} {bytes rest : List UInt8}
    (read : readArgument code bytes = some (argument, rest)) :
    rest.length ≤ bytes.length := by
  rw [readArgument] at read
  split_ifs at read
  · cases read
    exact Nat.le_refl _
  all_goals exact length_readWord read

namespace Item

/-- The bytes of an item's text in one piece. -/
def textBytes? : Item → Option (List UInt8)
  | .text content => some content
  | .textChunks chunks => joinChunks chunks
  | _ => none

/-- An item whose own lengths are within a bound. -/
def Within (bound : Nat) : Item → Prop
  | .array items => items.length ≤ bound
  | .map entries => entries.length ≤ bound
  | item => ∀ content, item.textBytes? = some content → content.length ≤ bound

/-- What is known of an item that was taken from the front of some bytes: it takes one
of them at least and all that it has of a text, and nothing inside it exceeds a bound. -/
structure Taken (bound : Nat) (bytes : List UInt8) (item : Item) (rest : List UInt8) :
    Prop where
  shorter : rest.length < bytes.length
  text : ∀ content, item.textBytes? = some content →
    content.length + rest.length ≤ bytes.length
  within : Throughout parts (Within bound) item

end Item

theorem length_readSimple {code : Nat} {bytes rest : List UInt8} {item : Item}
    (read : readSimple code bytes = some (item, rest)) :
    rest.length ≤ bytes.length ∧ item.textBytes? = none ∧ item.parts = [] := by
  rw [readSimple.eq_def] at read
  split at read
  · cases read; exact ⟨Nat.le_refl _, rfl, rfl⟩
  · cases read; exact ⟨Nat.le_refl _, rfl, rfl⟩
  · cases read; exact ⟨Nat.le_refl _, rfl, rfl⟩
  · cases read; exact ⟨Nat.le_refl _, rfl, rfl⟩
  · obtain ⟨bits, taken, rfl⟩ :=
      exists_of_taken (fun bits => Item.half (UInt16.ofNat bits)) read
    exact ⟨length_readWord taken, rfl, rfl⟩
  · obtain ⟨bits, taken, rfl⟩ :=
      exists_of_taken (fun bits => Item.single (UInt32.ofNat bits)) read
    exact ⟨length_readWord taken, rfl, rfl⟩
  · obtain ⟨bits, taken, rfl⟩ :=
      exists_of_taken (fun bits => Item.double ⟨UInt64.ofNat bits⟩) read
    exact ⟨length_readWord taken, rfl, rfl⟩
  · cases read

section

variable {bound : Nat}

namespace Item

theorem joinChunks_cons {head : Item} {tail : List Item} {content : List UInt8}
    (joined : joinChunks (head :: tail) = some content) :
    ∃ first others, head.textBytes? = some first ∧ joinChunks tail = some others ∧
      first ++ others = content := by
  cases head with
  | text first =>
      obtain ⟨others, read, same⟩ := Option.map_eq_some_iff.mp joined
      exact ⟨first, others, rfl, read, same⟩
  | _ => cases joined

theorem within_of_leaf {item : Item} (noText : item.textBytes? = none)
    (leaf : item.parts = []) : item.Within bound := by
  cases item with
  | array items =>
      have empty : items = [] := leaf
      rw [empty]
      exact Nat.zero_le bound
  | map entries =>
      have empty : flattened entries = [] := leaf
      have length := length_le_flattened entries
      rw [empty] at length
      exact length.trans (Nat.zero_le bound)
  | _ =>
      intro content present
      rw [noText] at present
      cases present

/-- The head takes a byte, and what follows it takes the text and the items inside. -/
theorem taken_of_parts {first : UInt8} {bytes rest : List UInt8} {item : Item}
    (shorter : rest.length ≤ bytes.length)
    (text : ∀ content, item.textBytes? = some content →
      content.length + rest.length ≤ bytes.length)
    (own : item.Within bound)
    (inside : ∀ part ∈ item.parts, Throughout parts (Within bound) part) :
    Taken bound (first :: bytes) item rest := by
  constructor
  · exact Nat.lt_succ_of_le shorter
  · intro content present
    exact (text content present).trans (Nat.le_succ _)
  · exact Throughout.intro own inside

theorem taken_of_leaf {first : UInt8} {bytes rest : List UInt8} {item : Item}
    (shorter : rest.length ≤ bytes.length) (noText : item.textBytes? = none)
    (leaf : item.parts = []) : Taken bound (first :: bytes) item rest := by
  apply taken_of_parts shorter
  · intro content present
    rw [noText] at present
    cases present
  · exact within_of_leaf noText leaf
  · intro part member
    rw [leaf] at member
    cases member

section

variable {first : UInt8} {bytes rest : List UInt8} (short : bytes.length < bound)

include short

theorem taken_text {content : List UInt8}
    (sum : content.length + rest.length ≤ bytes.length) :
    Taken bound (first :: bytes) (.text content) rest := by
  apply taken_of_parts
  · omega
  · intro held same
    cases same
    exact sum
  · intro held same
    cases same
    omega
  · exact fun part absent => nomatch absent

theorem taken_textChunks {chunks : List Item}
    (sum : chunks.length + rest.length ≤ bytes.length)
    (joined : ∀ content, joinChunks chunks = some content →
      content.length + rest.length ≤ bytes.length)
    (inside : ∀ chunk ∈ chunks, Throughout parts (Within bound) chunk) :
    Taken bound (first :: bytes) (.textChunks chunks) rest := by
  apply taken_of_parts
  · omega
  · exact joined
  · intro content present
    have less := joined content present
    omega
  · exact inside

theorem taken_array {items : List Item}
    (sum : items.length + rest.length ≤ bytes.length)
    (inside : ∀ item ∈ items, Throughout parts (Within bound) item) :
    Taken bound (first :: bytes) (.array items) rest := by
  apply taken_of_parts
  · omega
  · exact fun content absent => nomatch absent
  · show items.length ≤ bound
    omega
  · exact inside

theorem taken_map {flat : List Item} {entries : List (Item × Item)}
    (inPairs : paired flat = some entries)
    (sum : flat.length + rest.length ≤ bytes.length)
    (inside : ∀ item ∈ flat, Throughout parts (Within bound) item) :
    Taken bound (first :: bytes) (.map entries) rest := by
  have same := flattened_of_paired inPairs
  have length := length_le_flattened entries
  rw [same] at length
  apply taken_of_parts
  · omega
  · exact fun content absent => nomatch absent
  · show entries.length ≤ bound
    omega
  · rw [parts, same]
    exact inside

end

end Item

mutual

/-- Nothing in an item that is read is longer than the bytes. -/
theorem taken_readItem {fuel : Nat} {bytes rest : List UInt8} {item : Item}
    (read : readItem fuel bytes = some (item, rest)) (short : bytes.length ≤ bound) :
    Item.Taken bound bytes item rest := by
  cases fuel with
  | zero =>
      rw [readItem] at read
      cases read
  | succ fuel =>
      cases bytes with
      | nil =>
          rw [readItem] at read
          cases read
      | cons first bytes =>
          rw [List.length_cons] at short
          rw [readItem] at read
          dsimp only at read
          split at read
          · obtain ⟨value, taken, rfl⟩ := exists_of_taken Item.natural read
            exact Item.taken_of_leaf (length_readArgument taken) rfl rfl
          · obtain ⟨value, taken, rfl⟩ := exists_of_taken Item.negative read
            exact Item.taken_of_leaf (length_readArgument taken) rfl rfl
          · split at read
            · obtain ⟨chunks, taken, rfl⟩ := exists_of_taken Item.byteChunks read
              obtain ⟨shorter, _, inside⟩ := within_readOpen taken (by omega)
              apply Item.taken_of_parts
              · omega
              · exact fun content absent => nomatch absent
              · exact fun content absent => nomatch absent
              · exact inside
            · obtain ⟨⟨length, more⟩, announced, others⟩ := Option.bind_eq_some_iff.mp read
              have less := length_readArgument announced
              obtain ⟨content, taken, rfl⟩ := exists_of_taken Item.bytes others
              have sum : content.length + rest.length = more.length :=
                length_splitExactly taken
              exact Item.taken_of_leaf (by omega) rfl rfl
          · split at read
            · obtain ⟨chunks, taken, rfl⟩ := exists_of_taken Item.textChunks read
              obtain ⟨sum, joined, inside⟩ := within_readOpen taken (by omega)
              exact Item.taken_textChunks (by omega) sum joined inside
            · obtain ⟨⟨length, more⟩, announced, others⟩ := Option.bind_eq_some_iff.mp read
              have less := length_readArgument announced
              obtain ⟨content, taken, rfl⟩ := exists_of_taken Item.text others
              have sum : content.length + rest.length = more.length :=
                length_splitExactly taken
              exact Item.taken_text (by omega) (by omega)
          · split at read
            · obtain ⟨items, taken, rfl⟩ := exists_of_taken Item.array read
              obtain ⟨sum, _, inside⟩ := within_readOpen taken (by omega)
              exact Item.taken_array (by omega) sum inside
            · obtain ⟨⟨count, more⟩, announced, others⟩ := Option.bind_eq_some_iff.mp read
              have less := length_readArgument announced
              dsimp only at others
              obtain ⟨items, taken, rfl⟩ := exists_of_taken Item.array others
              obtain ⟨sum, inside⟩ := within_readItems taken (by omega)
              exact Item.taken_array (by omega) (by omega) inside
          · split at read
            · obtain ⟨⟨flat, left⟩, taken, others⟩ := Option.bind_eq_some_iff.mp read
              obtain ⟨sum, _, inside⟩ := within_readOpen taken (by omega)
              obtain ⟨entries, inPairs, complete⟩ := Option.bind_eq_some_iff.mp others
              cases complete
              exact Item.taken_map (by omega) inPairs sum inside
            · obtain ⟨⟨count, more⟩, announced, counted⟩ := Option.bind_eq_some_iff.mp read
              have less := length_readArgument announced
              dsimp only at counted
              obtain ⟨⟨flat, left⟩, taken, others⟩ := Option.bind_eq_some_iff.mp counted
              obtain ⟨sum, inside⟩ := within_readItems taken (by omega)
              dsimp only at others
              obtain ⟨entries, inPairs, complete⟩ := Option.bind_eq_some_iff.mp others
              cases complete
              exact Item.taken_map (by omega) inPairs (by omega) inside
          · obtain ⟨⟨tag, more⟩, announced, others⟩ := Option.bind_eq_some_iff.mp read
            have less := length_readArgument announced
            dsimp only at others
            obtain ⟨content, taken, rfl⟩ := exists_of_taken (Item.tagged tag) others
            have inner := taken_readItem taken (by omega)
            have shorter := inner.shorter
            apply Item.taken_of_parts
            · omega
            · exact fun content absent => nomatch absent
            · exact fun content absent => nomatch absent
            · exact List.forall_mem_singleton.mpr inner.within
          · obtain ⟨less, noText, leaf⟩ := length_readSimple read
            exact Item.taken_of_leaf less noText leaf

theorem within_readItems {fuel count : Nat} {bytes rest : List UInt8} {items : List Item}
    (read : readItems fuel count bytes = some (items, rest))
    (short : bytes.length ≤ bound) :
    items.length + rest.length ≤ bytes.length ∧
      ∀ item ∈ items, Throughout Item.parts (Item.Within bound) item := by
  cases fuel with
  | zero =>
      rw [readItems] at read
      cases read
  | succ fuel =>
      cases count with
      | zero =>
          cases read
          exact ⟨Nat.le_of_eq (Nat.zero_add _), fun item none => nomatch none⟩
      | succ count =>
          rw [readItems] at read
          obtain ⟨⟨head, more⟩, first, others⟩ := Option.bind_eq_some_iff.mp read
          have front := taken_readItem first short
          have less := front.shorter
          obtain ⟨tail, taken, rfl⟩ := exists_of_taken (List.cons head) others
          obtain ⟨shorter, inside⟩ := within_readItems taken (by omega)
          constructor
          · rw [List.length_cons]
            omega
          · exact List.forall_mem_cons.mpr ⟨front.within, inside⟩

theorem within_readOpen {fuel : Nat} {bytes rest : List UInt8} {items : List Item}
    (read : readOpen fuel bytes = some (items, rest)) (short : bytes.length ≤ bound) :
    items.length + rest.length ≤ bytes.length ∧
      (∀ content, Item.joinChunks items = some content →
        content.length + rest.length ≤ bytes.length) ∧
      ∀ item ∈ items, Throughout Item.parts (Item.Within bound) item := by
  cases fuel with
  | zero =>
      rw [readOpen] at read
      cases read
  | succ fuel =>
      rw [readOpen.eq_def] at read
      dsimp only at read
      split at read
      · cases read
      · split at read
        · cases read
          refine ⟨?_, ?_, fun item absent => nomatch absent⟩
          · rw [List.length_nil, List.length_cons]
            omega
          · intro content joined
            cases joined
            rw [List.length_nil, List.length_cons]
            omega
        · obtain ⟨⟨head, more⟩, first, others⟩ := Option.bind_eq_some_iff.mp read
          have front := taken_readItem first short
          have less := front.shorter
          dsimp only at others
          obtain ⟨tail, taken, rfl⟩ := exists_of_taken (List.cons head) others
          obtain ⟨shorter, joined, inside⟩ := within_readOpen taken (by omega)
          refine ⟨?_, ?_, List.forall_mem_cons.mpr ⟨front.within, inside⟩⟩
          · rw [List.length_cons]
            omega
          · intro content whole
            obtain ⟨chunk, chunks, text, joinedTail, rfl⟩ := Item.joinChunks_cons whole
            have chunkLess := front.text chunk text
            have chunksLess := joined chunks joinedTail
            rw [List.length_append]
            omega

end

/-- Nothing in the first item of some bytes is longer than they are. -/
theorem Item.within_read? {bytes : List UInt8} {item : Item}
    (read : Item.read? bytes = some item) (short : bytes.length ≤ bound) :
    Throughout Item.parts (Item.Within bound) item := by
  obtain ⟨⟨found, rest⟩, taken, rfl⟩ := Option.map_eq_some_iff.mp read
  exact (taken_readItem taken short).within

end

end Cbor

end SlotRecord
