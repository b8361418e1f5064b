import SlotRecord.Proofs.Cbor.Extent
import SlotRecord.Proofs.Json.Extent
import SlotRecord.Proofs.Wire.Cbor
import SlotRecord.Proofs.Wire.Contents

/-!
# Lengths of what is read

An input whose size is a 64-bit word holds nothing whose length is none. So the values
and records that are read of it can be written with the lengths they have.
-/

namespace SlotRecord

open Json Cbor

theorem Cbor.Item.length_of_within {bound : Nat} {item : Item} {content : List UInt8}
    (within : item.Within bound) (present : item.textBytes? = some content) :
    content.length ≤ bound := by
  cases item with
  | array items => cases present
  | map entries => cases present
  | _ => exact within content present

theorem Cbor.Item.length_of_text? {bound budget : Nat} {item : Item} {text : String}
    (within : item.Within bound) (decoded : item.text? budget = some text) :
    (Utf8.encode text).length ≤ bound := by
  cases item with
  | text content =>
      rw [Utf8.encode_of_decode? decoded]
      exact length_of_within within rfl
  | textChunks chunks =>
      simp only [text?, Option.bind_eq_bind, Option.bind_eq_some_iff] at decoded
      obtain ⟨_, _, content, joined, decodedContent⟩ := decoded
      rw [Utf8.encode_of_decode? decodedContent]
      exact length_of_within within joined
  | _ => cases decoded

namespace Value

variable {bound : Nat}

theorem addressable_of_scalar {value : Value} (scalar : Scalar value) :
    Addressable value := by
  cases value with
  | text content => cases scalar
  | list items => cases scalar
  | dict entries => cases scalar
  | _ => trivial

theorem addressable_dict {entries : List (String × Value)}
    (few : entries.length < 2 ^ 64)
    (keys : ∀ entry ∈ entries, (Utf8.encode entry.1).length < 2 ^ 64) :
    Addressable (.dict (Dict.ofList entries)) := by
  constructor
  · exact Nat.lt_of_le_of_lt (Dict.length_ofList_le entries) few
  · intro entry member
    exact keys entry (Dict.mem_ofList member)

theorem addressable_of_ofNode? (word : bound < 2 ^ 64) (budget : Nat) (node : Node)
    (value : Value) (throughout : Throughout Node.parts (Node.Within bound) node)
    (decoded : ofNode? budget node = some value) : Addressable value := by
  cases stems_of_ofNode? decoded with
  | scalar form flat => exact addressable_of_scalar flat
  | @text _ content => exact Nat.lt_of_le_of_lt (throughout.here content rfl) word
  | @list budget items values read =>
      have few := Nat.lt_of_le_of_lt throughout.here word
      rwa [(decodes_of_ofNodes? read).length_eq] at few
  | @dict budget members entries read =>
      have decodes := decodes_of_ofMembers? read
      obtain ⟨few, keys⟩ := throughout.here
      apply addressable_dict
      · rw [← decodes.length_eq]
        exact Nat.lt_of_le_of_lt few word
      · intro entry member
        obtain ⟨source, sourceMember, named, _⟩ := exists_of_forall₂ decodes member
        exact Nat.lt_of_le_of_lt (keys source sourceMember entry.1 named) word

theorem addressable_of_ofItem? (word : bound < 2 ^ 64) (budget : Nat) (item : Item)
    (value : Value) (throughout : Throughout Item.parts (Item.Within bound) item)
    (decoded : ofItem? budget item = some value) : Addressable value := by
  cases stems_of_ofItem? decoded with
  | scalar form flat => exact addressable_of_scalar flat
  | text read => exact Nat.lt_of_le_of_lt (Item.length_of_text? throughout.here read) word
  | @list budget items values read =>
      have few := Nat.lt_of_le_of_lt throughout.here word
      rwa [(decodes_of_ofItems? read).length_eq] at few
  | @dict budget pairs entries read =>
      have decodes := decodes_of_ofEntries? read
      apply addressable_dict
      · rw [← decodes.length_eq]
        exact Nat.lt_of_le_of_lt throughout.here word
      · intro entry member
        obtain ⟨pair, pairMember, named, _⟩ := exists_of_forall₂ decodes member
        have key := throughout.inside pair.1 (mem_flattened pairMember).1
        exact Nat.lt_of_le_of_lt (Item.length_of_text? key.here named) word

end Value

theorem WireRecord.addressable_of_contents {wire : WireRecord}
    (everywhere : ∀ content ∈ wire.contents, content.Everywhere Value.Addressable) :
    wire.Addressable := by
  obtain ⟨schema, visible, hidden⟩ := forall_contents_iff.mp everywhere
  apply everywhere_asValue
  · exact everywhere_of_contents everywhere
  · constructor
    · exact (by decide : 3 < 2 ^ 64)
    · -- The keys are the names of the three fields.
      simp only [List.forall_mem_cons, Utf8.length_encode]
      refine ⟨?_, ?_, ?_, fun entry absent => nomatch absent⟩
      all_goals decide
  · exact schema.here
  · exact visible.here
  · exact hidden.here

end SlotRecord
