import Mathlib.Data.List.Nodup
import SlotRecord.Proofs.Record.Parts
import SlotRecord.Schema.Build

/-!
# Access to records

What reads a record does not check that its slots are there: it takes as many of
them as the schema has visible fields, and it goes to the slot that the schema has
for a name. That never fails, since a record has a slot for every field that was
declared.
-/

namespace SlotRecord

/-- In a list of fields without repeated names, a name has the place of the field
that has it. -/
theorem findIdx?_name_eq_some_iff {fields : List Field} (distinct : (fieldNames fields).Nodup)
    {name : String} {slot : Nat} :
    (fields.findIdx? fun field => field.name == some name) = some slot ↔
      ∃ field, fields[slot]? = some field ∧ field.name = some name := by
  have apart := List.pairwise_iff_getElem.mp (List.pairwise_filterMap.mp distinct)
  rw [List.findIdx?_eq_some_iff_getElem]
  constructor
  · rintro ⟨within, named, _⟩
    exact ⟨fields[slot], List.getElem?_eq_getElem within, beq_iff_eq.mp named⟩
  · rintro ⟨field, found, named⟩
    obtain ⟨within, rfl⟩ := List.getElem?_eq_some_iff.mp found
    refine ⟨within, beq_iff_eq.mpr named, fun place before same => ?_⟩
    exact apart place slot (before.trans within) within before name (beq_iff_eq.mp same)
      name named rfl

namespace Schema

variable {schema : Schema}

theorem slotOf_eq_some_iff {name : String} {slot : Nat} :
    schema.slotOf name = some slot ↔
      ∃ field, schema.fields[slot]? = some field ∧ field.name = some name :=
  findIdx?_name_eq_some_iff schema.names_nodup

theorem slotOf_isSome_iff {name : String} :
    (schema.slotOf name).isSome ↔ ∃ field ∈ schema.fields, field.name = some name := by
  rw [slotOf, List.findIdx?_isSome, List.any_eq_true]
  simp only [beq_iff_eq]

end Schema

namespace Record

variable (record : Record)

/-- The first slots, as many as the schema has visible fields. Here and below `none`
stands for an access that goes past what is there. -/
def visible? : Option (List Value) :=
  if record.length ≤ record.slots.length then some record.visible else none

/-- The element at a place of the sequence. -/
def element? (place : Nat) : Option Value :=
  record.visible?.bind fun values => values[place]?

/-- The value of the field of a name, if there is such a field. -/
def lookup? (name : String) : Option (Option Value) :=
  match record.schema.schema.slotOf name with
  | none => some none
  | some slot => record.slots[slot]?.map some

end Record

theorem Declaration.of_build {declaration : Declaration} {settings : BuildSettings}
    {schema : Schema} (built : declaration.build settings = .ok schema) :
    schema.fields = declaration.fields ∧ schema.visible = declaration.visible := by
  simp only [build] at built
  split at built
  · cases built
  · cases built
    exact ⟨rfl, rfl⟩

/-- A record has the slots that a declaration lays out, and every access finds in them
what the declaration says. -/
structure Record.Fits (declaration : Declaration) (record : Record) : Prop where
  slots : record.slots.length = declaration.fields.length
  accepts : ∀ given, record.schema.schema.violated? given = none ↔
    declaration.visible ≤ given ∧ given ≤ declaration.fields.length
  length : record.length = declaration.visible
  visible : record.visible? = some record.visible
  visible_length : record.visible.length = declaration.visible
  get : ∀ place, (record.get? place).isSome ↔ place < declaration.visible
  get_eq_slot : ∀ place < declaration.visible, record.get? place = record.slot? place
  slot : ∀ slot, (record.slot? slot).isSome ↔ slot < declaration.fields.length
  element : ∀ place, record.element? place = record.get? place
  fails : ∀ place, record.element? place = none ↔ declaration.visible ≤ place
  lookup : ∀ name, record.lookup? name = some (record.named? name)
  named : ∀ name, (record.named? name).isSome ↔
    ∃ field ∈ declaration.fields, field.name = some name
  named_eq_slot : ∀ slot field name, declaration.fields[slot]? = some field →
    field.name = some name → record.named? name = record.slot? slot

namespace Record

variable {declaration : Declaration} {record : Record}

theorem visible?_eq (record : Record) : record.visible? = some record.visible := by
  have enough : record.length ≤ record.slots.length := by
    rw [record.complete]
    exact record.schema.schema.visible_le
  rw [visible?, if_pos enough]

theorem element?_eq (place : Nat) : record.element? place = record.get? place := by
  rw [element?, visible?_eq, Option.bind_some, get?]

theorem get?_eq_slot? {place : Nat} (within : place < record.length) :
    record.get? place = record.slot? place := by
  rw [get?, slot?, visible, List.getElem?_take_of_lt within]

/-- The slot that the schema has for a name is one of the record. -/
theorem exists_of_slotOf {name : String} {slot : Nat}
    (found : record.schema.schema.slotOf name = some slot) :
    ∃ value, record.slots[slot]? = some value := by
  obtain ⟨field, declared, _⟩ := Schema.slotOf_eq_some_iff.mp found
  have within : slot < record.slots.length := by
    rw [record.complete]
    exact (List.getElem?_eq_some_iff.mp declared).1
  exact ⟨_, List.getElem?_eq_getElem within⟩

theorem lookup?_eq (name : String) : record.lookup? name = some (record.named? name) := by
  rw [lookup?, named?]
  cases found : record.schema.schema.slotOf name with
  | none => rfl
  | some slot =>
      obtain ⟨value, held⟩ := exists_of_slotOf found
      simp only [Option.bind_some, slot?, held, Option.map_some]

theorem named?_eq_slot? {slot : Nat} {field : Field} {name : String}
    (declared : record.schema.schema.fields[slot]? = some field)
    (named : field.name = some name) : record.named? name = record.slot? slot := by
  have found := Schema.slotOf_eq_some_iff.mpr ⟨field, declared, named⟩
  rw [named?, found, Option.bind_some]

theorem isSome_named?_iff {name : String} :
    (record.named? name).isSome ↔
      ∃ field ∈ record.schema.schema.fields, field.name = some name := by
  rw [← Schema.slotOf_isSome_iff, named?]
  cases found : record.schema.schema.slotOf name with
  | none => rfl
  | some slot =>
      obtain ⟨value, held⟩ := exists_of_slotOf found
      rw [Option.bind_some, slot?, held]
      rfl

/-- A record of a schema fits the declaration that the schema was built of. -/
theorem fits_of_build {settings : BuildSettings}
    (built : declaration.build settings = .ok record.schema.schema) :
    record.Fits declaration := by
  obtain ⟨fields, visible⟩ := Declaration.of_build built
  have length : record.length = declaration.visible := visible
  have total : record.schema.schema.total = declaration.fields.length :=
    congrArg List.length fields
  have get : ∀ place, (record.get? place).isSome ↔ place < declaration.visible := by
    intro place
    rw [get?, isSome_getElem?, length_visible, length]
  exact {
    slots := record.complete.trans total
    accepts := by
      intro given
      rw [Schema.violated?_eq_none_iff, visible, total]
    length := length
    visible := record.visible?_eq
    visible_length := record.length_visible.trans length
    get := get
    get_eq_slot := by
      intro place within
      exact get?_eq_slot? (length ▸ within)
    slot := by
      intro slot
      rw [slot?, isSome_getElem?, record.complete, total]
    element := element?_eq
    fails := by
      intro place
      rw [element?_eq, ← Option.not_isSome_iff_eq_none, get, Nat.not_lt]
    lookup := lookup?_eq
    named := by
      intro name
      rw [isSome_named?_iff, fields]
    named_eq_slot := by
      intro slot field name declared named
      rw [← fields] at declared
      exact named?_eq_slot? declared named }

end Record

end SlotRecord
