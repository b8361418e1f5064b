import SlotRecord.Proofs.Dict
import SlotRecord.Proofs.Record.Digest
import SlotRecord.Proofs.Wire.Basic
import SlotRecord.Record.Parts

/-!
# Records put together again

The names of a schema are all different, so no hidden value is lost when a
record is taken apart. Putting the parts together fills every slot with the
value that it had, or with what has become of this value.
-/

namespace SlotRecord

theorem fieldNames_cons_some {field : Field} {name : String}
    (named : field.name = some name) (fields : List Field) :
    fieldNames (field :: fields) = name :: fieldNames fields :=
  List.filterMap_cons_some named

theorem fieldNames_cons_none {field : Field} (unnamed : field.name = none)
    (fields : List Field) : fieldNames (field :: fields) = fieldNames fields :=
  List.filterMap_cons_none unnamed

/-- The names of named values are those of all named fields, in their order. -/
theorem map_fst_namedValues {fields : List Field} {values : List Value}
    (length : values.length = fields.length) :
    (namedValues fields values).map Prod.fst = fieldNames fields := by
  induction fields generalizing values with
  | nil =>
      cases values <;> rfl
  | cons field fields induction =>
      cases values with
      | nil => cases length
      | cons value values =>
          have later := induction (Nat.succ.inj length)
          cases named : field.name with
          | none =>
              simp only [namedValues, named]
              rw [later, fieldNames_cons_none named]
          | some name =>
              simp only [namedValues, named]
              rw [List.map_cons, later, fieldNames_cons_some named]

theorem mem_of_mem_namedValues {fields : List Field} {values : List Value}
    {entry : String × Value} (member : entry ∈ namedValues fields values) :
    entry.2 ∈ values := by
  induction fields generalizing values with
  | nil => cases values <;> cases member
  | cons field fields induction =>
      cases values with
      | nil => cases member
      | cons value values =>
          rw [namedValues] at member
          split at member
          · rcases List.mem_cons.mp member with rfl | later
            · exact List.mem_cons_self
            · exact List.mem_cons_of_mem _ (induction later)
          · exact List.mem_cons_of_mem _ (induction member)

/-- A source that answers for all names with what has become of their values fills
the slots with it. -/
theorem fillRest_of_answers {ask : Source} {change : Value → Value}
    {fields : List Field} {values : List Value} (length : values.length = fields.length)
    (named : ∀ field ∈ fields, field.name.isSome)
    (answers : ∀ entry ∈ namedValues fields values,
      ask entry.1 = .ok (some (change entry.2))) :
    (fillRest (some ask) fields).outcome = .ok (values.map change) := by
  induction fields generalizing values with
  | nil =>
      cases values with
      | nil => rfl
      | cons value values => cases length
  | cons field fields induction =>
      cases values with
      | nil => cases length
      | cons value values =>
          obtain ⟨name, known⟩ :=
            Option.isSome_iff_exists.mp (named field List.mem_cons_self)
          have unfolded : namedValues (field :: fields) (value :: values) =
              (name, value) :: namedValues fields values := by
            simp only [namedValues, known]
          rw [unfolded] at answers
          have answer := answers (name, value) List.mem_cons_self
          have later :
              (fillRest (some ask) fields).outcome = .ok (values.map change) := by
            apply induction (Nat.succ.inj length)
            · intro other member
              exact named other (List.mem_cons_of_mem _ member)
            · intro entry member
              exact answers entry (List.mem_cons_of_mem _ member)
          simp only [fillRest, known, answer, later]
          rfl

/-- So many positional values fill a record as reach all visible fields and no further
than all fields. -/
theorem Schema.violated?_eq_none_iff {schema : Schema} {given : Nat} :
    schema.violated? given = none ↔ schema.visible ≤ given ∧ given ≤ schema.total := by
  have bounded : schema.visible ≤ schema.total := schema.visible_le
  constructor
  · intro fits
    refine ⟨?_, le_total_of_violated?_eq_none fits⟩
    by_contra few
    by_cases noHidden : schema.visible = schema.total
    · rw [violated?, if_pos noHidden, if_neg (by omega)] at fits
      cases fits
    · rw [violated?, if_neg noHidden, if_pos (by omega)] at fits
      cases fits
  · rintro ⟨enough, notMore⟩
    by_cases noHidden : schema.visible = schema.total
    · rw [violated?, if_pos noHidden, if_pos (by omega)]
    · rw [violated?, if_neg noHidden, if_neg (by omega), if_neg (by omega)]

theorem Schema.violated?_visible (schema : Schema) :
    schema.violated? schema.visible = none :=
  violated?_eq_none_iff.mpr ⟨le_refl _, schema.visible_le⟩

theorem Schema.names_hidden_nodup (schema : Schema) :
    (fieldNames (schema.fields.drop schema.visible)).Nodup := by
  have hidden := (List.drop_sublist schema.visible schema.fields).filterMap Field.name
  exact List.Nodup.sublist hidden schema.names_nodup

namespace Record

theorem make_of_values {schema : SchemaRef} {serial : Nat}
    {positional values : List Value} {source : Option Source}
    (filled : (schema.schema.fill positional source).outcome = .ok values) :
    (make schema serial positional source).outcome =
      .ok ⟨schema, serial, values, Schema.fill_length filled⟩ := by
  simp only [make]
  split
  · rename_i fault failed
    rw [failed] at filled
    cases filled
  · rename_i slots complete
    rw [complete] at filled
    cases filled
    rfl

theorem make_of_fault {schema : SchemaRef} {serial : Nat} {positional : List Value}
    {source : Option Source} {fault : Fault}
    (failed : (schema.schema.fill positional source).outcome = .error fault) :
    (make schema serial positional source).outcome = .error fault := by
  simp only [make]
  split
  · rename_i other refused
    rw [refused] at failed
    cases failed
    rfl
  · rename_i slots complete
    rw [complete] at failed
    cases failed

theorem make_of_fill {schema : SchemaRef} {serial : Nat}
    {positional values : List Value} {source : Option Source}
    (filled : (schema.schema.fill positional source).outcome = .ok values) :
    ∃ found, (make schema serial positional source).outcome = .ok found ∧
      found.schema = schema ∧ found.slots = values :=
  ⟨_, make_of_values filled, rfl, rfl⟩

variable (record : Record)

/-- The values of the hidden slots. -/
def hiddenSlots : List Value := record.slots.drop record.length

theorem length_hiddenSlots :
    record.hiddenSlots.length =
      (record.schema.schema.fields.drop record.length).length := by
  rw [hiddenSlots, List.length_drop, List.length_drop, record.complete, Schema.total]

theorem visible_append_hiddenSlots :
    record.visible ++ record.hiddenSlots = record.slots :=
  List.take_append_drop record.length record.slots

/-- A part has the value of each hidden slot under the name of its field. -/
theorem get?_hidden_parts {entry : String × Value}
    (member : entry ∈ namedValues (record.schema.schema.fields.drop record.length)
      record.hiddenSlots) :
    Dict.get? entry.1 record.parts.hidden = some entry.2 := by
  -- No entry is overwritten on the way: the names of the fields are all different.
  apply Dict.get?_ofList _ member
  rw [map_fst_namedValues record.length_hiddenSlots]
  exact record.schema.schema.names_hidden_nodup

theorem ordered_hidden_parts : Dict.Ordered record.parts.hidden :=
  Dict.ordered_ofList _

/-- A record is put together from its portable form even if all its values have
changed. -/
theorem assemble_map_toWire (change : Value → Value) (serial : Nat) :
    ∃ found,
      ((record.parts.toWire.map change).assemble record.schema serial).outcome =
          .ok found ∧
        found.schema = record.schema ∧ found.slots = record.slots.map change := by
  apply make_of_fill
  have visible : (record.parts.toWire.map change).visible.length =
      record.schema.schema.visible := by
    rw [WireRecord.map, List.length_map]
    exact record.length_visible
  have hidden :
      (fillRest (some (.ofDict (record.parts.toWire.map change).hidden))
          (record.schema.schema.fields.drop record.length)).outcome =
        .ok (record.hiddenSlots.map change) := by
    apply fillRest_of_answers record.length_hiddenSlots
    · exact record.schema.schema.hidden_named
    · intro entry member
      have held := record.get?_hidden_parts member
      rw [Source.ofDict, WireRecord.map, Dict.get?_map, Parts.toWire, held]
      rfl
  have slots := congrArg (List.map change) record.visible_append_hiddenSlots
  rw [List.map_append] at slots
  simp only [Schema.fill, visible, Schema.violated?_visible]
  rw [← slots]
  exact congrArg (Except.map (record.visible.map change ++ ·)) hidden

theorem mem_slots_of_mem_values {value : Value}
    (member : value ∈ record.parts.toWire.values) : value ∈ record.slots := by
  rw [← record.visible_append_hiddenSlots]
  rcases List.mem_append.mp member with visible | hidden
  · exact List.mem_append_left _ visible
  · obtain ⟨entry, held, rfl⟩ := List.mem_map.mp hidden
    apply List.mem_append_right
    exact mem_of_mem_namedValues (Dict.mem_ofList held)

end Record

end SlotRecord
