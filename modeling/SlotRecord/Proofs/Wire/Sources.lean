import SlotRecord.Proofs.Wire.Addressable
import SlotRecord.Proofs.Wire.Json

/-!
# Where portable records stem from

In both formats the fields of a record are decoded as values are, from the parts of the
document or item that holds the record. So a record that is read is in the form in
which values are read, it nests no deeper than the budget of its fields, and its lengths
are words if the size of the input is one.
-/

namespace SlotRecord

open Json Cbor

namespace WireRecord

variable {wire : WireRecord}

theorem Json.decodeBy_ofNode? :
    Json.readers.DecodeBy (Value.ofNode? (jsonBudget + 1)) := by
  constructor
  · intro source found read
    cases source with
    | string content =>
        have present : content = some found := read
        rw [present]
        rfl
    | _ => cases read
  · intro source found read
    cases source with
    | array items => exact Option.map_eq_some_iff.mpr ⟨found, read, rfl⟩
    | _ => cases read
  · intro source found read
    cases source with
    | object members =>
        obtain ⟨entries, decoded, rfl⟩ := Option.map_eq_some_iff.mp read
        exact Option.map_eq_some_iff.mpr ⟨entries, decoded, rfl⟩
    | _ => cases read

theorem Json.mem_parts_of_fields? {members : List (Option String × Node)}
    {fields : List (String × Node)} (named : Json.fields? members = some fields) :
    ∀ field ∈ fields, field.2 ∈ (Node.object members).parts := by
  induction members generalizing fields with
  | nil =>
      cases named
      exact fun field absent => nomatch absent
  | cons member rest induction =>
      simp only [Json.fields?, Option.bind_eq_bind, Option.bind_eq_some_iff] at named
      obtain ⟨name, _, others, read, complete⟩ := named
      cases complete
      intro field fieldMember
      rcases List.mem_cons.mp fieldMember with rfl | later
      · exact List.mem_cons_self
      · exact List.mem_cons_of_mem _ (induction read field later)

/-- A record that a document stands for stems from the nodes inside. -/
theorem Json.stemsFrom_of_ofNode? {node : Node} (read : ofNode? node = some wire) :
    wire.StemsFrom node.parts (Value.ofNode? (jsonBudget + 1)) := by
  have decodes := decodeBy_ofNode?
  rw [ofNode?.eq_def] at read
  split at read
  · obtain ⟨fields, named, complete⟩ := Option.bind_eq_some_iff.mp read
    exact stemsFrom_of_ofFields? decodes complete (mem_parts_of_fields? named)
  · rename_i first second
    simp only [Option.bind_eq_bind, Option.bind_eq_some_iff] at read
    obtain ⟨schema, schemaRead, visible, visibleRead, complete⟩ := read
    cases complete
    apply stemsFrom_of_parts
    · exact ⟨first, List.mem_cons_self, decodes.schema first schema schemaRead⟩
    · exact ⟨second, by simp [Node.parts], decodes.visible second visible visibleRead⟩
    · exact Or.inl rfl
  · rename_i first second third
    simp only [Option.bind_eq_bind, Option.bind_eq_some_iff] at read
    obtain ⟨schema, schemaRead, visible, visibleRead, hidden, hiddenRead, complete⟩ := read
    cases complete
    apply stemsFrom_of_parts
    · exact ⟨first, List.mem_cons_self, decodes.schema first schema schemaRead⟩
    · exact ⟨second, by simp [Node.parts], decodes.visible second visible visibleRead⟩
    · exact Or.inr ⟨third, by simp [Node.parts], decodes.hidden third hidden hiddenRead⟩
  · cases read

theorem Cbor.decodeBy_ofItem? :
    Cbor.readers.DecodeBy (Value.ofItem? (fieldBudget + 1)) := by
  constructor
  · intro source found read
    cases source with
    | text content => exact Option.map_eq_some_iff.mpr ⟨found, read, rfl⟩
    | textChunks chunks => exact Option.map_eq_some_iff.mpr ⟨found, read, rfl⟩
    | _ => cases read
  · intro source found read
    cases source with
    | array items => exact Option.map_eq_some_iff.mpr ⟨found, read, rfl⟩
    | _ => cases read
  · intro source found read
    cases source with
    | map pairs =>
        obtain ⟨entries, decoded, rfl⟩ := Option.map_eq_some_iff.mp read
        exact Option.map_eq_some_iff.mpr ⟨entries, decoded, rfl⟩
    | _ => cases read

theorem Cbor.mem_parts_of_fields? {pairs : List (Item × Item)}
    {fields : List (String × Item)} (named : Cbor.fields? pairs = some fields) :
    ∀ field ∈ fields, field.2 ∈ (Item.map pairs).parts := by
  induction pairs generalizing fields with
  | nil =>
      cases named
      exact fun field absent => nomatch absent
  | cons pair rest induction =>
      simp only [Cbor.fields?, Option.bind_eq_bind, Option.bind_eq_some_iff] at named
      obtain ⟨name, _, others, read, complete⟩ := named
      cases complete
      intro field fieldMember
      rcases List.mem_cons.mp fieldMember with rfl | later
      · exact List.mem_cons_of_mem _ List.mem_cons_self
      · have inner := induction read field later
        exact List.mem_cons_of_mem _ (List.mem_cons_of_mem _ inner)

/-- A record that an item stands for stems from the items inside. -/
theorem Cbor.stemsFrom_of_ofItem? {item : Item} (read : ofItem? item = some wire) :
    wire.StemsFrom item.parts (Value.ofItem? (fieldBudget + 1)) := by
  rw [ofItem?.eq_def] at read
  split at read
  · obtain ⟨fields, named, complete⟩ := Option.bind_eq_some_iff.mp read
    exact stemsFrom_of_ofFields? decodeBy_ofItem? complete (mem_parts_of_fields? named)
  · cases read

section

variable {text : String}

theorem everywhere_of_fromJson? {property : Value → Prop}
    (own : ∀ value, Value.OfJson value → property value)
    (read : fromJson? text = some wire) :
    ∀ content ∈ wire.contents, content.Everywhere property := by
  obtain ⟨node, scanned, decoded⟩ := Option.bind_eq_some_iff.mp read
  have throughout := Node.within_read? scanned (Nat.le_refl _)
  apply everywhere_of_stemsFrom Value.descends_ofNode? _ _ throughout
  · exact Json.stemsFrom_of_ofNode? decoded
  · intro budget source value _ inner
    exact own value (Value.ofJson_of_ofNode? inner)
  · exact own (.dict []) ⟨⟨rfl, List.Pairwise.nil, trivial⟩, trivial⟩

theorem addressable_of_fromJson? (read : fromJson? text = some wire)
    (word : text.utf8ByteSize < 2 ^ 64) : wire.Addressable := by
  obtain ⟨node, scanned, decoded⟩ := Option.bind_eq_some_iff.mp read
  have size := String.utf8Len_toList text
  have throughout := Node.within_read? scanned (Nat.le_of_eq size)
  apply addressable_of_contents
  apply everywhere_of_stemsFrom Value.descends_ofNode? _ _ throughout
  · exact Json.stemsFrom_of_ofNode? decoded
  · exact Value.addressable_of_ofNode? word
  · decide

theorem depth_le_of_fromJson? (read : fromJson? text = some wire) :
    ∀ value ∈ wire.values, value.depth ≤ jsonBudget := by
  obtain ⟨node, _, decoded⟩ := Option.bind_eq_some_iff.mp read
  have shallow : ∀ content ∈ wire.contents, content.depth ≤ jsonBudget + 1 := by
    intro content member
    rcases Json.stemsFrom_of_ofNode? decoded content member with rfl | ⟨part, _, inner⟩
    · exact Nat.le_add_left 1 jsonBudget
    · exact Value.depth_le_of_ofNode? inner
  obtain ⟨_, visible, hidden⟩ := forall_contents_iff.mp shallow
  rw [forall_values_iff]
  constructor
  · exact (Value.depthItems_le_iff _ _).mp (Nat.le_of_succ_le_succ visible)
  · exact (Value.depthEntries_le_iff _ _).mp (Nat.le_of_succ_le_succ hidden)

end

section

variable {bytes : List UInt8}

theorem everywhere_of_fromCbor? {property : Value → Prop}
    (own : ∀ value, Value.ReadBack value → property value)
    (read : fromCbor? bytes = some wire) :
    ∀ content ∈ wire.contents, content.Everywhere property := by
  obtain ⟨item, scanned, decoded⟩ := Option.bind_eq_some_iff.mp read
  have throughout := Item.within_read? scanned (Nat.le_refl _)
  apply everywhere_of_stemsFrom Value.descends_ofItem? _ _ throughout
  · exact Cbor.stemsFrom_of_ofItem? decoded
  · intro budget source value _ inner
    exact own value (Value.readBack_of_ofItem? inner)
  · exact own (.dict []) ⟨rfl, List.Pairwise.nil, trivial⟩

theorem addressable_of_fromCbor? (read : fromCbor? bytes = some wire)
    (word : bytes.length < 2 ^ 64) : wire.Addressable := by
  obtain ⟨item, scanned, decoded⟩ := Option.bind_eq_some_iff.mp read
  have throughout := Item.within_read? scanned (Nat.le_refl _)
  apply addressable_of_contents
  apply everywhere_of_stemsFrom Value.descends_ofItem? _ _ throughout
  · exact Cbor.stemsFrom_of_ofItem? decoded
  · exact Value.addressable_of_ofItem? word
  · decide

theorem steps_le_of_fromCbor? (read : fromCbor? bytes = some wire) :
    ∀ value ∈ wire.values, value.steps ≤ cborBudget := by
  obtain ⟨item, _, decoded⟩ := Option.bind_eq_some_iff.mp read
  have shallow : ∀ content ∈ wire.contents, content.steps ≤ cborBudget + 2 := by
    intro content member
    rcases Cbor.stemsFrom_of_ofItem? decoded content member with rfl | ⟨part, _, inner⟩
    · exact Nat.le_add_left 2 cborBudget
    · exact Value.steps_le_of_ofItem? inner
  obtain ⟨_, visible, hidden⟩ := forall_contents_iff.mp shallow
  rw [forall_values_iff]
  constructor
  · exact (Value.stepsItems_le_iff _ _).mp (Nat.le_of_add_le_add_right visible)
  · exact (Value.stepsEntries_le_iff _ _).mp (Nat.le_of_add_le_add_right hidden)

end

end WireRecord

end SlotRecord
