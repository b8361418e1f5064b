import SlotRecord.Proofs.Record.Parts
import SlotRecord.Proofs.Value.Narrowed
import SlotRecord.Proofs.Wire.Cbor
import SlotRecord.Proofs.Wire.Json

/-!
# Records stored and restored

A record that is taken apart, written, read and put together again is equal to
what it was in all that can be observed of it. Only the variants of integers may
have changed on the way.
-/

namespace SlotRecord

namespace Record

/-- Whether a record agrees with another one in all that can be observed of the
values of both. -/
structure Restores (found record : Record) : Prop where
  schema : found.schema = record.schema
  equal : found.equal record = true
  slot : ∀ slot, Option.Rel (fun left right => left.equal right = true)
    (found.slot? slot) (record.slot? slot)
  named : ∀ name, Option.Rel (fun left right => left.equal right = true)
    (found.named? name) (record.named? name)
  hash : found.hash = record.hash
  render : found.render = record.render

theorem renderSlots_narrowed (schema : Schema) (slot : Nat) (values : List Value) :
    renderSlots schema slot (values.map Value.narrowed) =
      renderSlots schema slot values := by
  induction values generalizing slot with
  | nil => rfl
  | cons head tail induction =>
      rw [List.map_cons, renderSlots, renderSlots, Value.render_narrowed, induction]

variable {found record : Record}

theorem visible_of_slots (schema : found.schema = record.schema)
    (slots : found.slots = record.slots.map Value.narrowed) :
    found.visible = record.visible.map Value.narrowed := by
  rw [visible, visible, length, length, slots, schema, List.map_take]

theorem render_of_slots (schema : found.schema = record.schema)
    (slots : found.slots = record.slots.map Value.narrowed) :
    found.render = record.render := by
  rw [render, render, visible_of_slots schema slots, renderSlots_narrowed, schema]

section

variable (slots : found.slots = record.slots.map Value.narrowed)
  (finite : ∀ value ∈ record.slots, value.Everywhere Value.Finite)

include slots finite

theorem slot_of_slots (slot : Nat) :
    Option.Rel (fun left right => left.equal right = true)
      (found.slot? slot) (record.slot? slot) := by
  rw [slot?, slot?, slots, List.getElem?_map]
  cases held : record.slots[slot]? with
  | none => exact Option.Rel.none
  | some value =>
      apply Option.Rel.some
      exact Value.equal_narrowed (finite value (List.mem_of_getElem? held))

variable (schema : found.schema = record.schema)

include schema

theorem named_of_slots (name : String) :
    Option.Rel (fun left right => left.equal right = true)
      (found.named? name) (record.named? name) := by
  rw [named?, named?, schema]
  cases record.schema.schema.slotOf name with
  | none => exact Option.Rel.none
  | some slot => exact slot_of_slots slots finite slot

theorem equal_of_slots : found.equal record = true := by
  rw [equal, visible_of_slots schema slots]
  apply Value.equalItems_narrowed
  apply (Value.everywhereItems_iff record.visible).mpr
  intro value member
  exact finite value (List.mem_of_mem_take member)

variable (noHost : ∀ value ∈ record.slots, value.Everywhere Value.NoHost)

include noHost

/-- What is read back has the same hash, as no host object takes part in it. -/
theorem hash_of_slots : found.hash = record.hash := by
  apply hash_eq_of_equal
  · intro left _ right member
    apply Value.hostsAgree_of_noHost
    exact (noHost right (List.mem_of_mem_take member)).here
  · exact equal_of_slots slots finite schema

theorem restores_of_slots : found.Restores record where
  schema := schema
  equal := equal_of_slots slots finite schema
  slot := slot_of_slots slots finite
  named := named_of_slots slots finite schema
  hash := hash_of_slots slots finite schema noHost
  render := render_of_slots schema slots

end

section

/-- What holds everywhere in the slots holds everywhere in the portable form. -/
theorem everywhere_toWire {property : Value → Prop}
    (everywhere : ∀ value ∈ record.slots, value.Everywhere property) :
    record.parts.toWire.Everywhere property := by
  intro value member
  exact everywhere value (record.mem_slots_of_mem_values member)

theorem inOrder_toWire
    (inOrder : ∀ value ∈ record.slots, value.Everywhere Value.InOrder) :
    record.parts.toWire.InOrder :=
  ⟨record.ordered_hidden_parts, everywhere_toWire inOrder⟩

variable {registry : Registry}
  (registered : registry.resolve record.schema.name = .ok record.schema)
  (noHost : ∀ value ∈ record.slots, value.Everywhere Value.NoHost)
  (finite : ∀ value ∈ record.slots, value.Everywhere Value.Finite)

include registered noHost finite

/-- The registry makes an equal record of the form that is read back. -/
theorem exists_assemble_narrowed (serial : Nat) :
    ∃ found,
      (registry.assemble (record.parts.toWire.map Value.narrowed) serial).outcome =
          .ok found ∧
        found.Restores record := by
  obtain ⟨found, made, schema, slots⟩ := record.assemble_map_toWire Value.narrowed serial
  refine ⟨found, ?_, restores_of_slots slots finite schema noHost⟩
  have resolved :
      registry.resolve (record.parts.toWire.map Value.narrowed).schema =
        .ok record.schema := registered
  rw [Registry.assemble, resolved]
  exact made

variable (inOrder : ∀ value ∈ record.slots, value.Everywhere Value.InOrder)
  (serial : Nat)

include inOrder

theorem restores_through_json (shallow : ∀ value ∈ record.slots, value.depth ≤ 125) :
    ∃ text wire found, record.parts.toWire.jsonText = .ok text ∧
      WireRecord.fromJson? text = some wire ∧
      (registry.assemble wire serial).outcome = .ok found ∧ found.Restores record := by
  have portable := everywhere_toWire noHost
  obtain ⟨text, written⟩ := WireRecord.exists_toJson portable
  obtain ⟨found, made, restored⟩ :=
    exists_assemble_narrowed registered noHost finite serial
  have form : record.parts.toWire.map Value.jsonForm =
      record.parts.toWire.map Value.narrowed := by
    apply WireRecord.map_congr
    intro value member
    exact Value.jsonForm_eq_narrowed (everywhere_toWire finite value member)
  refine ⟨_, _, found, WireRecord.jsonText_of_toJson written, ?_, made, restored⟩
  rw [WireRecord.fromJson?_of_toJson written,
    WireRecord.ofNode?_asValue portable (inOrder_toWire inOrder), form]
  apply if_pos
  intro value member
  exact shallow value (record.mem_slots_of_mem_values member)

theorem restores_through_cbor (shallow : ∀ value ∈ record.slots, value.steps ≤ 254)
    (addressable : record.parts.toWire.Addressable) :
    ∃ bytes wire found, record.parts.toWire.cborBytes = .ok bytes ∧
      WireRecord.fromCbor? bytes = some wire ∧
      (registry.assemble wire serial).outcome = .ok found ∧ found.Restores record := by
  have portable := everywhere_toWire noHost
  obtain ⟨bytes, written⟩ := WireRecord.exists_toCbor portable
  obtain ⟨found, made, restored⟩ :=
    exists_assemble_narrowed registered noHost finite serial
  refine ⟨_, _, found, WireRecord.cborBytes_of_toCbor written, ?_, made, restored⟩
  rw [WireRecord.fromCbor?_of_toCbor addressable written,
    WireRecord.ofItem?_asValue portable (inOrder_toWire inOrder)]
  apply if_pos
  intro value member
  exact shallow value (record.mem_slots_of_mem_values member)

end

/-- Whatever format a record is stored in, the registry makes an equal one of what is
read back. -/
theorem restores_through_formats {registry : Registry} {record : Record}
    (registered : registry.resolve record.schema.name = .ok record.schema)
    (noHost : ∀ value ∈ record.slots, value.Everywhere Value.NoHost)
    (finite : ∀ value ∈ record.slots, value.Everywhere Value.Finite)
    (inOrder : ∀ value ∈ record.slots, value.Everywhere Value.InOrder) (serial : Nat) :
    ((∀ value ∈ record.slots, value.depth ≤ 125) →
      ∃ text wire found, record.parts.toWire.jsonText = .ok text ∧
        WireRecord.fromJson? text = some wire ∧
        (registry.assemble wire serial).outcome = .ok found ∧ found.Restores record) ∧
    ((∀ value ∈ record.slots, value.steps ≤ 254) → record.parts.toWire.Addressable →
      ∃ bytes wire found, record.parts.toWire.cborBytes = .ok bytes ∧
        WireRecord.fromCbor? bytes = some wire ∧
        (registry.assemble wire serial).outcome = .ok found ∧
          found.Restores record) := by
  constructor
  · intro shallow
    exact restores_through_json registered noHost finite inOrder serial shallow
  · intro shallow addressable
    exact restores_through_cbor registered noHost finite inOrder serial shallow
      addressable

/-- A record with a position that has no name and with a hidden dictionary. -/
def segment : Record where
  schema := ⟨1, true, ⟨"geometry.segment", none,
    [⟨some "length", none⟩, ⟨none, none⟩, ⟨some "tags", none⟩], 2, none, by decide,
    by decide, by decide⟩⟩
  serial := 1
  slots := [.number (.unsigned 7), .number (.real ⟨0x8000000000000000⟩),
    .dict [("a", .list [.number (.unsigned 1)]), ("b", .text "\n")]]
  complete := rfl

theorem restores_through_formats_segment :
    (∃ text wire found, segment.parts.toWire.jsonText = .ok text ∧
      WireRecord.fromJson? text = some wire ∧
      (Registry.assemble [("geometry.segment", segment.schema)] wire 2).outcome =
        .ok found ∧ found.Restores segment) ∧
    (∃ bytes wire found, segment.parts.toWire.cborBytes = .ok bytes ∧
      WireRecord.fromCbor? bytes = some wire ∧
      (Registry.assemble [("geometry.segment", segment.schema)] wire 2).outcome =
        .ok found ∧ found.Restores segment) := by
  have registered : Registry.resolve [("geometry.segment", segment.schema)]
      segment.schema.name = .ok segment.schema := rfl
  have both := restores_through_formats registered (by decide) (by decide) (by decide) 2
  constructor
  · apply both.1
    decide
  · apply both.2
    · decide
    · decide

end Record

end SlotRecord
