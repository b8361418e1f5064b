import SlotRecord.Proofs.Dict.Keys
import SlotRecord.Proofs.Record.Making
import SlotRecord.Proofs.Record.Reassembly

/-!
# Canonical parts

A hidden slot has three sources: a positional value that reaches it, the value under
its name, and null. The parts of a record that was made show which of them it had, and
nothing else of what it was made of: as many visible values as there are visible
fields, and one hidden value for each hidden field.
-/

namespace SlotRecord

/-- The value that named values give a field: null if there is none under its name. -/
def Field.valueIn (hidden : Dict Value) (field : Field) : Value :=
  (field.name.bind fun name => Dict.get? name hidden).getD .null

theorem fillRest_ofDict (hidden : Dict Value) (fields : List Field) :
    fillRest (some (.ofDict hidden)) fields =
      ⟨fieldNames fields, .ok (fields.map (Field.valueIn hidden))⟩ := by
  induction fields with
  | nil => rfl
  | cons field fields induction =>
      cases named : field.name with
      | none =>
          have names : fieldNames (field :: fields) = fieldNames fields :=
            List.filterMap_cons_none named
          have value : field.valueIn hidden = .null := by
            rw [Field.valueIn, named]
            rfl
          simp only [fillRest, named, induction, names, List.map_cons, value]
          rfl
      | some name =>
          have value : field.valueIn hidden = (Dict.get? name hidden).getD .null := by
            rw [Field.valueIn, named]
            rfl
          simp only [fillRest, named, Source.ofDict, induction,
            fieldNames_cons_some named, List.map_cons, value]
          rfl

/-- Only the values under the names of the fields count. -/
theorem fillRest_ofDict_congr {hidden other : Dict Value} {fields : List Field}
    (same : ∀ name ∈ fieldNames fields, Dict.get? name other = Dict.get? name hidden) :
    fillRest (some (.ofDict other)) fields = fillRest (some (.ofDict hidden)) fields := by
  have values : fields.map (Field.valueIn other) = fields.map (Field.valueIn hidden) := by
    apply List.map_congr_left
    intro field member
    cases named : field.name with
    | none => rw [Field.valueIn, Field.valueIn, named]; rfl
    | some name =>
        have known : name ∈ fieldNames fields :=
          List.mem_filterMap.mpr ⟨field, member, named⟩
        rw [Field.valueIn, Field.valueIn, named, Option.bind_some, Option.bind_some,
          same name known]
  rw [fillRest_ofDict, fillRest_ofDict, values]

/-- The value of a field is found under its name among the named values. -/
theorem mem_namedValues {fields : List Field} {values : List Value} {place : Nat}
    {field : Field} {name : String} {value : Value}
    (declared : fields[place]? = some field) (named : field.name = some name)
    (held : values[place]? = some value) : (name, value) ∈ namedValues fields values := by
  induction fields generalizing values place with
  | nil => cases declared
  | cons first fields induction =>
      cases values with
      | nil => cases held
      | cons head values =>
          cases place with
          | zero =>
              cases declared
              cases held
              simp only [namedValues, named]
              exact List.mem_cons_self
          | succ place =>
              rw [List.getElem?_cons_succ] at declared held
              have later := induction declared held
              rw [namedValues]
              split
              · exact List.mem_cons_of_mem _ later
              · exact later

/-- The names of the hidden fields, in slot order. -/
def Schema.hiddenNames (schema : Schema) : List String :=
  fieldNames (schema.fields.drop schema.visible)

theorem Schema.mem_hiddenNames_iff {schema : Schema} {name : String} :
    name ∈ schema.hiddenNames ↔
      ∃ slot field, schema.visible ≤ slot ∧ schema.fields[slot]? = some field ∧
        field.name = some name := by
  rw [hiddenNames, fieldNames, List.mem_filterMap]
  constructor
  · rintro ⟨field, member, named⟩
    obtain ⟨place, declared⟩ := List.mem_iff_getElem?.mp member
    rw [List.getElem?_drop] at declared
    exact ⟨_, field, Nat.le_add_right _ _, declared, named⟩
  · rintro ⟨slot, field, beyond, declared, named⟩
    have place : schema.visible + (slot - schema.visible) = slot :=
      Nat.add_sub_cancel' beyond
    refine ⟨field, List.mem_iff_getElem?.mpr ⟨slot - schema.visible, ?_⟩, named⟩
    rw [List.getElem?_drop, place, declared]

/-- The slots of a record of some visible values and of hidden ones by name. -/
def Parts.slots (parts : Parts) : List Value :=
  parts.visible ++
    (parts.schema.schema.fields.drop parts.visible.length).map (Field.valueIn parts.hidden)

namespace Parts

theorem eq_of_fields {found parts : Parts} (schema : found.schema = parts.schema)
    (visible : found.visible = parts.visible) (hidden : found.hidden = parts.hidden) :
    found = parts := by
  cases found
  cases parts
  cases schema
  cases visible
  cases hidden
  rfl

variable {parts : Parts} {record : Record} {serial : Nat}

theorem fill_eq (fits : parts.schema.schema.violated? parts.visible.length = none) :
    (parts.schema.schema.fill parts.visible (some (.ofDict parts.hidden))).outcome =
      .ok parts.slots := by
  simp only [Schema.fill, fits, fillRest_ofDict]
  rfl

/-- A record is made of parts with as many visible values as the schema allows, and it
has the slots that they describe. -/
theorem of_assemble (made : (parts.assemble serial).outcome = .ok record) :
    parts.schema.schema.violated? parts.visible.length = none ∧
      record.content = (parts.schema, parts.slots) := by
  have filled := Record.map_content_make parts.schema serial parts.visible
    (some (.ofDict parts.hidden))
  have same : (Record.make parts.schema serial parts.visible
      (some (.ofDict parts.hidden))).outcome = .ok record := made
  rw [same] at filled
  cases violated : parts.schema.schema.violated? parts.visible.length with
  | some bound =>
      simp only [Schema.fill, violated] at filled
      cases filled
  | none =>
      rw [fill_eq violated] at filled
      exact ⟨rfl, Except.ok.inj filled⟩

theorem schema_of_assemble (made : (parts.assemble serial).outcome = .ok record) :
    record.schema = parts.schema :=
  congrArg Prod.fst (of_assemble made).2

theorem slots_of_assemble (made : (parts.assemble serial).outcome = .ok record) :
    record.slots = parts.slots :=
  congrArg Prod.snd (of_assemble made).2

theorem visible_le_of_assemble (made : (parts.assemble serial).outcome = .ok record) :
    parts.schema.schema.visible ≤ parts.visible.length :=
  (Schema.violated?_eq_none_iff.mp (of_assemble made).1).1

end Parts

theorem Parts.getElem?_slots (parts : Parts) {slot : Nat} {field : Field}
    (declared : parts.schema.schema.fields[slot]? = some field) :
    parts.slots[slot]? =
      some (parts.visible[slot]?.getD (field.valueIn parts.hidden)) := by
  by_cases given : slot < parts.visible.length
  · rw [slots, List.getElem?_append_left given, List.getElem?_eq_getElem given]
    rfl
  · have enough : parts.visible.length ≤ slot := Nat.le_of_not_lt given
    have place : parts.visible.length + (slot - parts.visible.length) = slot := by omega
    rw [slots, List.getElem?_append_right enough, List.getElem?_map, List.getElem?_drop,
      place, declared, List.getElem?_eq_none enough]
    rfl

namespace Record

variable {record : Record}

theorem get?_hidden_of_slot {slot : Nat} {field : Field} {name : String}
    (beyond : record.schema.schema.visible ≤ slot)
    (declared : record.schema.schema.fields[slot]? = some field)
    (named : field.name = some name) :
    Dict.get? name record.parts.hidden = record.slots[slot]? := by
  have within : slot < record.slots.length := by
    rw [record.complete]
    exact (List.getElem?_eq_some_iff.mp declared).1
  have place : record.length + (slot - record.length) = slot :=
    Nat.add_sub_cancel' beyond
  have held : record.hiddenSlots[slot - record.length]? = some record.slots[slot] := by
    rw [hiddenSlots, List.getElem?_drop, place, List.getElem?_eq_getElem within]
  have hidden : (record.schema.schema.fields.drop record.length)[slot - record.length]? =
      some field := by
    rw [List.getElem?_drop, place, declared]
  rw [List.getElem?_eq_getElem within]
  exact record.get?_hidden_parts (mem_namedValues hidden named held)

theorem keys_hidden_parts (record : Record) :
    (Dict.keys record.parts.hidden).Perm record.schema.schema.hiddenNames := by
  have names := map_fst_namedValues record.length_hiddenSlots
  have distinct : (fieldNames (record.schema.schema.fields.drop record.length)).Nodup :=
    record.schema.schema.names_hidden_nodup
  rw [← names] at distinct
  have kept := Dict.keys_ofList_perm distinct
  rw [names] at kept
  exact kept

theorem eq_of_content {found : Record} (schema : found.schema = record.schema)
    (slots : found.slots = record.slots) (serial : found.serial = record.serial) :
    found = record := by
  cases found
  cases record
  cases schema
  cases slots
  cases serial
  rfl

/-- Parts tell nothing of a record but its schema and its slots. -/
theorem parts_eq_of_slots {found : Record} (schema : found.schema = record.schema)
    (slots : found.slots = record.slots) : found.parts = record.parts := by
  rw [parts, parts, visible, visible, length, length, schema, slots]

theorem exists_assemble_parts_again (record : Record) (serial : Nat) :
    ∃ found, (record.parts.assemble serial).outcome = .ok found ∧
      found.parts = record.parts := by
  obtain ⟨found, made, schema, slots⟩ := record.exists_assemble_parts serial
  exact ⟨found, made, parts_eq_of_slots schema slots⟩

/-- The parts of a record are a canonical form of the parts that it was made of. -/
structure Canonises (record : Record) (parts : Parts) : Prop where
  schema : record.parts.schema = parts.schema
  visible : record.parts.visible = parts.visible.take parts.schema.schema.visible
  visible_length : record.parts.visible.length = parts.schema.schema.visible
  ordered : Dict.Ordered record.parts.hidden
  names : (Dict.keys record.parts.hidden).Perm parts.schema.schema.hiddenNames
  -- A positional value that reaches the slot counts before one under its name.
  value : ∀ slot field name, parts.schema.schema.visible ≤ slot →
    parts.schema.schema.fields[slot]? = some field → field.name = some name →
      Dict.get? name record.parts.hidden =
        some (parts.visible[slot]?.getD ((Dict.get? name parts.hidden).getD .null))
  -- Nothing counts that is under other names than those of the slots left open.
  ignores : ∀ other : Dict Value,
    (∀ name ∈ fieldNames (parts.schema.schema.fields.drop parts.visible.length),
      Dict.get? name other = Dict.get? name parts.hidden) →
    (Parts.assemble ⟨parts.schema, parts.visible, other⟩ record.serial).outcome =
      .ok record
  unchanged : Dict.Ordered parts.hidden →
    (record.parts = parts ↔
      parts.visible.length = parts.schema.schema.visible ∧
        (Dict.keys parts.hidden).Perm parts.schema.schema.hiddenNames)
  again : ∀ serial, ∃ found, (record.parts.assemble serial).outcome = .ok found ∧
    found.parts = record.parts
  again_named : ∀ registry serial,
    Registry.resolve registry parts.schema.name = .ok parts.schema →
      ∃ found, (registry.assemble record.parts.toWire serial).outcome = .ok found ∧
        found.parts = record.parts

section

variable {parts : Parts} {serial : Nat} (made : (parts.assemble serial).outcome = .ok record)

include made

theorem visible_parts_of_assemble :
    record.parts.visible = parts.visible.take parts.schema.schema.visible := by
  have slots := Parts.slots_of_assemble made
  have enough := Parts.visible_le_of_assemble made
  rw [Record.parts, visible, slots, length, Parts.schema_of_assemble made, Parts.slots,
    List.take_append_of_le_length enough]

theorem get?_hidden_of_assemble {slot : Nat} {field : Field} {name : String}
    (beyond : parts.schema.schema.visible ≤ slot)
    (declared : parts.schema.schema.fields[slot]? = some field)
    (named : field.name = some name) :
    Dict.get? name record.parts.hidden =
      some (parts.visible[slot]?.getD ((Dict.get? name parts.hidden).getD .null)) := by
  have given : field.valueIn parts.hidden = (Dict.get? name parts.hidden).getD .null := by
    rw [Field.valueIn, named]
    rfl
  rw [← given, ← parts.getElem?_slots declared, ← Parts.slots_of_assemble made]
  have schema := Parts.schema_of_assemble made
  rw [← schema] at beyond declared
  exact get?_hidden_of_slot beyond declared named

theorem keys_hidden_of_assemble :
    (Dict.keys record.parts.hidden).Perm parts.schema.schema.hiddenNames := by
  rw [← Parts.schema_of_assemble made]
  exact record.keys_hidden_parts

theorem assemble_of_same {other : Dict Value}
    (same : ∀ name ∈ fieldNames (parts.schema.schema.fields.drop parts.visible.length),
      Dict.get? name other = Dict.get? name parts.hidden) :
    (Parts.assemble ⟨parts.schema, parts.visible, other⟩ record.serial).outcome =
      .ok record := by
  have filled : (parts.schema.schema.fill parts.visible (some (.ofDict other))).outcome =
      .ok parts.slots := by
    rw [Schema.fill, fillRest_ofDict_congr same]
    exact Parts.fill_eq (Parts.of_assemble made).1
  have remakes : ∃ found,
      (Parts.assemble ⟨parts.schema, parts.visible, other⟩ record.serial).outcome =
        .ok found ∧ found.schema = parts.schema ∧ found.slots = parts.slots :=
    make_of_fill filled
  obtain ⟨found, remade, schema, slots⟩ := remakes
  have equality : found = record := by
    apply eq_of_content
    · exact schema.trans (Parts.schema_of_assemble made).symm
    · exact slots.trans (Parts.slots_of_assemble made).symm
    · exact (of_make remade).2
  exact equality ▸ remade

theorem length_visible_of_assemble :
    record.parts.visible.length = parts.schema.schema.visible := by
  rw [← Parts.schema_of_assemble made]
  exact record.length_visible

/-- Without a value to spare and with a hidden one for each hidden field, parts have
under each name what those of the record have. -/
theorem get?_hidden_eq_of_exact
    (exactly : parts.visible.length = parts.schema.schema.visible)
    (names : (Dict.keys parts.hidden).Perm parts.schema.schema.hiddenNames)
    (name : String) :
    Dict.get? name record.parts.hidden = Dict.get? name parts.hidden := by
  by_cases hidden : name ∈ parts.schema.schema.hiddenNames
  · obtain ⟨slot, field, beyond, declared, named⟩ :=
      Schema.mem_hiddenNames_iff.mp hidden
    have none : parts.visible[slot]? = none :=
      List.getElem?_eq_none (exactly.trans_le beyond)
    obtain ⟨value, held⟩ := Option.isSome_iff_exists.mp
      (Dict.isSome_get?_iff.mpr (names.mem_iff.mpr hidden))
    rw [get?_hidden_of_assemble made beyond declared named, none, held]
    rfl
  · have kept := keys_hidden_of_assemble made
    rw [Dict.get?_eq_none_of_not_mem_keys (kept.mem_iff.not.mpr hidden),
      Dict.get?_eq_none_of_not_mem_keys (names.mem_iff.not.mpr hidden)]

/-- Parts are those of the record that they make exactly if they have no visible value
to spare and a hidden one for each hidden field. -/
theorem parts_eq_iff (ordered : Dict.Ordered parts.hidden) :
    record.parts = parts ↔
      parts.visible.length = parts.schema.schema.visible ∧
        (Dict.keys parts.hidden).Perm parts.schema.schema.hiddenNames := by
  constructor
  · intro same
    have length := length_visible_of_assemble made
    have names := keys_hidden_of_assemble made
    rw [same] at length names
    exact ⟨length, names⟩
  · rintro ⟨exactly, names⟩
    have schema : record.parts.schema = parts.schema := Parts.schema_of_assemble made
    have visible : record.parts.visible = parts.visible := by
      rw [visible_parts_of_assemble made, ← exactly, List.take_length]
    have hidden : record.parts.hidden = parts.hidden := by
      apply Dict.ext_of_ordered record.ordered_hidden_parts ordered
      exact get?_hidden_eq_of_exact made exactly names
    exact Parts.eq_of_fields schema visible hidden

theorem canonises_of_assemble : record.Canonises parts where
  schema := Parts.schema_of_assemble made
  visible := visible_parts_of_assemble made
  visible_length := length_visible_of_assemble made
  ordered := record.ordered_hidden_parts
  names := keys_hidden_of_assemble made
  value _ _ _ beyond declared named := get?_hidden_of_assemble made beyond declared named
  ignores _ same := assemble_of_same made same
  unchanged ordered := parts_eq_iff made ordered
  again := record.exists_assemble_parts_again
  again_named registry serial registered := by
    have resolved : registry.resolve record.parts.schema.name = .ok record.parts.schema := by
      rw [show record.parts.schema = parts.schema from Parts.schema_of_assemble made]
      exact registered
    rw [Registry.assemble_toWire resolved]
    exact record.exists_assemble_parts_again serial

end

/-- The record that parts or a portable form make has canonical parts. -/
theorem parts_canonical :
    (∀ (parts : Parts) (serial : Nat) (record : Record),
      (parts.assemble serial).outcome = .ok record → record.Canonises parts) ∧
    (∀ (registry : Registry) (wire : WireRecord) (serial : Nat) (record : Record),
      (registry.assemble wire serial).outcome = .ok record →
        registry.resolve wire.schema = .ok record.schema ∧
          record.Canonises ⟨record.schema, wire.visible, wire.hidden⟩) := by
  constructor
  · intro parts serial record made
    exact canonises_of_assemble made
  · intro registry wire serial record made
    have found := (Registry.of_assemble made).1
    have resolved : registry.resolve wire.schema = .ok record.schema := by
      rw [Registry.resolve, found]
    rw [Registry.assemble, resolved] at made
    exact ⟨resolved, canonises_of_assemble made⟩

/-- A record of a hidden value that was given by position, one that was given by name
and one that was not given. -/
def sorted : Record where
  schema := ⟨4, false, ⟨"samples.sorted", none,
    [⟨none, none⟩, ⟨some "b", none⟩, ⟨some "h0", none⟩, ⟨some "h1", none⟩,
      ⟨some "h2", none⟩], 2, none, by decide, by decide, by decide⟩⟩
  serial := 6
  slots := [.null, .bool true, .number (.signed 3), .text "x", .null]
  complete := rfl

/-- Its parts with a value to spare and with names that do not count. -/
def crowded : Parts :=
  ⟨sorted.schema, [.null, .bool true, .number (.signed 3)],
    [("a", .null), ("b", .list []), ("h0", .text "late"), ("h1", .text "x")]⟩

theorem parts_canonical_crowded :
    (crowded.assemble 6).outcome = .ok sorted ∧ sorted.Canonises crowded ∧
      sorted.parts.hidden =
        [("h0", .number (.signed 3)), ("h1", .text "x"), ("h2", .null)] ∧
      (Registry.assemble [("samples.sorted", sorted.schema)] crowded.toWire 6).outcome =
        .ok sorted ∧
      sorted.Canonises ⟨sorted.schema, crowded.toWire.visible, crowded.toWire.hidden⟩ := by
  obtain ⟨direct, portable⟩ := parts_canonical
  have made : (crowded.assemble 6).outcome = .ok sorted := rfl
  have resolved : (Registry.assemble [("samples.sorted", sorted.schema)]
      crowded.toWire 6).outcome = .ok sorted := rfl
  exact ⟨made, direct _ _ _ made, rfl, resolved, (portable _ _ _ _ resolved).2⟩

end Record

end SlotRecord
