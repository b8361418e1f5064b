import Mathlib.Data.List.Nodup
import SlotRecord.Proofs.Record.Parts

/-!
# Names and slots

The names of a list of fields stand in it at slots, and some slots have none. The names
are all different if no slot has a name that an earlier slot has.
-/

namespace SlotRecord

/-- The name of a slot, if the slot is there and has one. -/
def nameAt? (fields : List Field) (slot : Nat) : Option String :=
  fields[slot]?.bind Field.name

section

variable {fields : List Field} {slot : Nat} {name : String}

theorem nameAt?_eq_some_iff :
    nameAt? fields slot = some name ↔
      ∃ field, fields[slot]? = some field ∧ field.name = some name :=
  Option.bind_eq_some_iff

theorem nameAt?_of_getElem? {field : Field} (declared : fields[slot]? = some field) :
    nameAt? fields slot = field.name := by
  rw [nameAt?, declared, Option.bind_some]

theorem nameAt?_eq_getElem (within : slot < fields.length) :
    nameAt? fields slot = fields[slot].name :=
  nameAt?_of_getElem? (List.getElem?_eq_getElem within)

theorem nameAt?_of_length_le (past : fields.length ≤ slot) : nameAt? fields slot = none := by
  rw [nameAt?, List.getElem?_eq_none past, Option.bind_none]

theorem lt_length_of_nameAt? (named : nameAt? fields slot = some name) :
    slot < fields.length := by
  by_contra past
  rw [nameAt?_of_length_le (Nat.le_of_not_lt past)] at named
  cases named

theorem nameAt?_take {count : Nat} (within : slot < count) :
    nameAt? (fields.take count) slot = nameAt? fields slot := by
  rw [nameAt?, List.getElem?_take_of_lt within, nameAt?]

theorem nameAt?_append_singleton (fields : List Field) (field : Field) (slot : Nat) :
    nameAt? (fields ++ [field]) slot =
      if slot = fields.length then field.name else nameAt? fields slot := by
  by_cases last : slot = fields.length
  · rw [if_pos last, last, nameAt?, List.getElem?_concat_length, Option.bind_some]
  · rw [if_neg last, nameAt?, nameAt?]
    rcases Nat.lt_or_gt_of_ne last with before | past
    · rw [List.getElem?_append_left before]
    · rw [List.getElem?_eq_none (Nat.le_of_lt past), List.getElem?_eq_none]
      rw [List.length_append, List.length_singleton]
      exact past

/-- The fields before a slot, its own and those after it. -/
theorem eq_take_append_cons {field : Field} (declared : fields[slot]? = some field) :
    fields = fields.take slot ++ field :: fields.drop (slot + 1) := by
  obtain ⟨within, rfl⟩ := List.getElem?_eq_some_iff.mp declared
  rw [← List.drop_eq_getElem_cons within, List.take_append_drop]

theorem mem_fieldNames_iff :
    name ∈ fieldNames fields ↔ ∃ field ∈ fields, field.name = some name :=
  List.mem_filterMap

/-- A name is one of the fields if it is that of a slot. -/
theorem mem_fieldNames_iff_nameAt? :
    name ∈ fieldNames fields ↔ ∃ slot, nameAt? fields slot = some name := by
  rw [mem_fieldNames_iff]
  simp only [nameAt?_eq_some_iff, List.mem_iff_getElem?]
  constructor
  · rintro ⟨field, ⟨slot, declared⟩, named⟩
    exact ⟨slot, field, declared, named⟩
  · rintro ⟨slot, field, declared, named⟩
    exact ⟨field, ⟨slot, declared⟩, named⟩

theorem fieldNames_append (fields rest : List Field) :
    fieldNames (fields ++ rest) = fieldNames fields ++ fieldNames rest :=
  List.filterMap_append

/-- A further field counts among the first ones if there were too few. -/
theorem fieldNames_take_append_singleton (fields : List Field) (field : Field) (count : Nat) :
    fieldNames ((fields ++ [field]).take count) =
      fieldNames (fields.take count) ++
        if fields.length < count then fieldNames [field] else [] := by
  rw [List.take_append, fieldNames_append]
  congr 1
  split
  · next few =>
      have positive : 1 ≤ count - fields.length := Nat.le_sub_of_add_le' few
      rw [List.take_of_length_le positive]
  · next enough =>
      rw [Nat.sub_eq_zero_of_le (Nat.le_of_not_lt enough)]
      rfl

/-- The names of the first fields are those of the first slots. -/
theorem fieldNames_take (fields : List Field) (count : Nat) :
    fieldNames (fields.take count) = (List.range count).filterMap (nameAt? fields) := by
  induction count with
  | zero => rfl
  | succ count induction =>
      rw [List.take_add_one, fieldNames_append, induction, List.range_succ,
        List.filterMap_append]
      congr 1
      cases declared : fields[count]? with
      | none => simp [fieldNames, nameAt?, declared]
      | some field => simp [fieldNames, nameAt?, declared, List.filterMap_cons]

theorem fieldNames_eq_range (fields : List Field) :
    fieldNames fields = (List.range fields.length).filterMap (nameAt? fields) := by
  rw [← fieldNames_take, List.take_length]

/-- The names are different when no slot has the name of an earlier one. -/
theorem nodup_fieldNames_iff :
    (fieldNames fields).Nodup ↔ ∀ slot name, nameAt? fields slot = some name →
      ∀ earlier < slot, nameAt? fields earlier ≠ some name := by
  rw [fieldNames_eq_range, List.Nodup, List.pairwise_filterMap, List.pairwise_iff_getElem]
  simp only [List.length_range, List.getElem_range]
  constructor
  · intro apart slot name named earlier before repeated
    exact apart earlier slot (lt_length_of_nameAt? repeated) (lt_length_of_nameAt? named) before
      name repeated name named rfl
  · intro apart earlier slot _ _ before first firstNamed second secondNamed same
    exact apart slot second secondNamed earlier before (same ▸ firstNamed)

theorem map_name_eq_range (fields : List Field) :
    fields.map Field.name = (List.range fields.length).map (nameAt? fields) := by
  apply List.ext_getElem
  · rw [List.length_map, List.length_map, List.length_range]
  · intro slot within _
    rw [List.length_map] at within
    rw [List.getElem_map, List.getElem_map, List.getElem_range, nameAt?_eq_getElem within]

/-- Each field has a name or has none. -/
theorem length_fieldNames_add_unnamed (fields : List Field) :
    (fieldNames fields).length + fields.countP (fun field => field.name.isNone) =
      fields.length := by
  rw [fieldNames, List.length_filterMap_eq_countP,
    List.length_eq_countP_add_countP fun field : Field => field.name.isSome]
  congr 1
  apply List.countP_congr
  intro field _
  rw [decide_eq_true_iff, Option.not_isSome_iff_eq_none, Option.isNone_iff_eq_none]

/-- If only the first fields may lack a name, the unnamed ones are among them. -/
theorem countP_unnamed_take {count : Nat}
    (named : ∀ field ∈ fields.drop count, field.name.isSome) :
    (fields.take count).countP (fun field => field.name.isNone) =
      fields.countP fun field => field.name.isNone := by
  have hidden : (fields.drop count).countP (fun field => field.name.isNone) = 0 := by
    rw [List.countP_eq_zero]
    intro field member
    rw [Option.isNone_iff_eq_none, ← Option.not_isSome_iff_eq_none, not_not]
    exact named field member
  conv_rhs => rw [← List.take_append_drop count fields, List.countP_append, hidden]
  rfl

end

end SlotRecord
