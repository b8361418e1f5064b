import SlotRecord.Proofs.Dict.Keys
import SlotRecord.Proofs.Record.Access
import SlotRecord.Proofs.Record.Filling
import SlotRecord.Proofs.Record.Making
import SlotRecord.Proofs.Schema.Names

/-!
# Replaced slots

Each slot takes the change that stands under the name of its field, and keeps its value
where there is none. A record has as many slots as its schema has fields, so the slots
of an update are never too few or too many.
-/

namespace SlotRecord

namespace Schema

variable {schema : Schema}

theorem isNone_slotOf (schema : Schema) (name : String) :
    (schema.slotOf name).isNone = decide (name ∉ fieldNames schema.fields) := by
  rw [Bool.eq_iff_iff, decide_eq_true_iff, mem_fieldNames_iff, ← slotOf_isSome_iff,
    Option.isNone_iff_eq_none, Option.not_isSome_iff_eq_none]

theorem unnamedCount_pos_iff :
    0 < schema.unnamedCount ↔ ∃ field ∈ schema.fields, field.name = none := by
  rw [unnamedCount, List.countP_pos_iff]
  simp only [Option.isNone_iff_eq_none]

/-- Values for all slots leave nothing to ask for. -/
theorem fill_of_total {positional : List Value} (whole : positional.length = schema.total)
    (source : Option Source) : schema.fill positional source = ⟨[], .ok positional⟩ := by
  have fits : schema.violated? positional.length = none :=
    violated?_eq_none_iff.mpr ⟨whole ▸ schema.visible_le, Nat.le_of_eq whole⟩
  have rest : schema.fields.drop positional.length = [] :=
    List.drop_eq_nil_of_le (Nat.le_of_eq whole.symm)
  simp only [fill, fits, rest, fillRest, Except.map, List.append_nil]

end Schema

namespace Record

section

variable {fields : List Field} {values : List Value} {changes other : Dict Value}

theorem length_replaced (changes : Dict Value) (length : values.length = fields.length) :
    (replaced changes fields values).length = fields.length := by
  induction fields generalizing values with
  | nil => cases values <;> rfl
  | cons field fields induction =>
      cases values with
      | nil => cases length
      | cons current values =>
          rw [replaced, List.length_cons, induction (Nat.succ.inj length), List.length_cons]

theorem getElem?_replaced {slot : Nat} {field : Field} {current : Value}
    (declared : fields[slot]? = some field) (held : values[slot]? = some current)
    (changes : Dict Value) :
    (replaced changes fields values)[slot]? =
      some ((field.name.bind fun name => Dict.get? name changes).getD current) := by
  induction fields generalizing values slot with
  | nil => cases declared
  | cons first fields induction =>
      cases values with
      | nil => cases held
      | cons head values =>
          cases slot with
          | zero =>
              cases declared
              cases held
              rfl
          | succ slot => exact induction declared held

/-- Only the changes of fields count. -/
theorem replaced_congr
    (same : ∀ name ∈ fieldNames fields, Dict.get? name other = Dict.get? name changes)
    (values : List Value) : replaced other fields values = replaced changes fields values := by
  induction fields generalizing values with
  | nil => rfl
  | cons field fields induction =>
      cases values with
      | nil => rfl
      | cons current values =>
          have later := induction (fun name known =>
            same name (fieldNames_subset_cons field fields known)) values
          rw [replaced, replaced, later]
          cases named : field.name with
          | none => rfl
          | some name =>
              rw [fieldNames_cons_some named] at same
              rw [Option.bind_some, Option.bind_some, same name List.mem_cons_self]

/-- Changes that are made one after the other are made at once. -/
theorem replaced_replaced {second : Dict Value} (ordered : Dict.Ordered second)
    (first : Dict Value) (fields : List Field) (values : List Value) :
    replaced second fields (replaced first fields values) =
      replaced (Dict.override first second) fields values := by
  induction fields generalizing values with
  | nil => rfl
  | cons field fields induction =>
      cases values with
      | nil => rfl
      | cons current values =>
          rw [replaced, replaced, replaced, induction]
          cases field.name with
          | none => rfl
          | some name =>
              simp only [Option.bind_some, Dict.get?_override ordered]
              cases Dict.get? name second <;> rfl

/-- A walk through the slots on which the changes are used up: each slot takes that of
its name away from those that are left. -/
def walk : Dict Value → List Field → List Value → List Value × Dict Value
  | changes, ⟨some name, _⟩ :: fields, current :: rest =>
      let later := walk (Dict.erase name changes) fields rest
      ((Dict.get? name changes).getD current :: later.1, later.2)
  | changes, ⟨none, _⟩ :: fields, current :: rest =>
      let later := walk changes fields rest
      (current :: later.1, later.2)
  | changes, _, _ => ([], changes)

/-- The changes that are left over after a walk are those that no field has the name
of. -/
theorem walk_eq (distinct : (fieldNames fields).Nodup)
    (length : values.length = fields.length) (changes : Dict Value) :
    walk changes fields values = (replaced changes fields values,
      changes.filter fun entry => entry.1 ∉ fieldNames fields) := by
  induction fields generalizing values changes with
  | nil =>
      cases values with
      | nil => simp [walk, replaced, fieldNames]
      | cons value values => cases length
  | cons field fields induction =>
      cases values with
      | nil => cases length
      | cons current values =>
          have later := fun distinct => induction distinct (Nat.succ.inj length)
          obtain ⟨name, doc⟩ := field
          cases name with
          | none =>
              rw [fieldNames_cons_none rfl] at distinct ⊢
              rw [walk, later distinct]
              rfl
          | some name =>
              rw [fieldNames_cons_some rfl] at distinct ⊢
              obtain ⟨fresh, distinct⟩ := List.nodup_cons.mp distinct
              have others : replaced (Dict.erase name changes) fields values =
                  replaced changes fields values := by
                apply replaced_congr
                intro other known
                have different : name ≠ other := fun same => fresh (same ▸ known)
                rw [Dict.get?_erase, if_neg different]
              rw [walk, later distinct, others, Dict.erase, List.filter_filter]
              simp [replaced, Bool.and_comm]

end

/-- Whether some field of a record cannot be reached by name. -/
def HasUnnamed (record : Record) : Prop :=
  ∃ field ∈ record.schema.schema.fields, field.name = none

/-- The names of all fields of a record. -/
def names (record : Record) : List String := fieldNames record.schema.schema.fields

/-- The names in some changes that no field of a record has. -/
def unknownNames (record : Record) (changes : Dict Value) : List String :=
  (Dict.keys changes).filter fun name => name ∉ record.names

variable {record : Record} {changes : Dict Value}

theorem exists_held {slot : Nat} {field : Field}
    (declared : record.schema.schema.fields[slot]? = some field) :
    ∃ current, record.slots[slot]? = some current := by
  have within : slot < record.slots.length := by
    rw [record.complete]
    exact (List.getElem?_eq_some_iff.mp declared).1
  exact ⟨_, List.getElem?_eq_getElem within⟩

theorem mem_unknownNames_iff {name : String} :
    name ∈ record.unknownNames changes ↔
      name ∈ Dict.keys changes ∧ name ∉ record.names := by
  rw [unknownNames, List.mem_filter, decide_eq_true_iff]

theorem unknownNames_eq_nil_iff :
    record.unknownNames changes = [] ↔ ∀ name ∈ Dict.keys changes, name ∈ record.names := by
  simp only [unknownNames, List.filter_eq_nil_iff, decide_eq_true_iff, not_not]

theorem pairwise_unknownNames (ordered : Dict.Ordered changes) :
    (record.unknownNames changes).Pairwise (· < ·) :=
  (Dict.pairwise_keys ordered).filter _

theorem updatedSlots_of_unnamed (unnamed : record.HasUnnamed) (changes : Dict Value) :
    record.updatedSlots changes = .error (.unnamedFields record.schema.name) := by
  rw [updatedSlots, if_pos (Schema.unnamedCount_pos_iff.mpr unnamed)]
  rfl

theorem updatedSlots_of_named (named : ¬ record.HasUnnamed) (changes : Dict Value) :
    record.updatedSlots changes = if record.unknownNames changes ≠ [] then
        .error (.unknownNames record.schema.name (record.unknownNames changes))
      else .ok (replaced changes record.schema.schema.fields record.slots) := by
  have none : ¬ 0 < record.schema.schema.unnamedCount :=
    fun positive => named (Schema.unnamedCount_pos_iff.mp positive)
  simp only [updatedSlots, if_neg none, Schema.isNone_slotOf]
  rfl

/-- An update that is made replaces slots by the changes of their fields. -/
theorem of_updatedSlots {values : List Value}
    (updated : record.updatedSlots changes = .ok values) :
    ¬ record.HasUnnamed ∧ record.unknownNames changes = [] ∧
      values = replaced changes record.schema.schema.fields record.slots := by
  by_cases unnamed : record.HasUnnamed
  · rw [updatedSlots_of_unnamed unnamed] at updated
    cases updated
  · rw [updatedSlots_of_named unnamed] at updated
    split at updated
    · cases updated
    · rename_i known
      exact ⟨unnamed, not_not.mp known, (Except.ok.inj updated).symm⟩

/-- The slots of a record after a walk on which changes are used up, and what is left of
them. -/
def walked (record : Record) (changes : Dict Value) : List Value × Dict Value :=
  walk changes record.schema.schema.fields record.slots

/-- What is left over after the walk decides about an update. -/
theorem updatedSlots_eq_walked (named : ¬ record.HasUnnamed) (changes : Dict Value) :
    record.updatedSlots changes = if (record.walked changes).2 ≠ [] then
        .error (.unknownNames record.schema.name (Dict.keys (record.walked changes).2))
      else .ok (record.walked changes).1 := by
  have left : Dict.keys (record.walked changes).2 = record.unknownNames changes := by
    rw [walked, walk_eq record.schema.schema.names_nodup record.complete, unknownNames,
      Dict.keys, Dict.keys, List.filter_map]
    rfl
  have none : (record.walked changes).2 = [] ↔ record.unknownNames changes = [] := by
    rw [← left, Dict.keys, List.map_eq_nil_iff]
  rw [updatedSlots_of_named named, ← left]
  simp only [ne_eq, left, none]
  rw [walked, walk_eq record.schema.schema.names_nodup record.complete]

/-- An update has the slots that were worked out for it, or fails as that did. -/
theorem map_content_update (record : Record) (serial : Nat) (changes : Dict Value) :
    (record.update serial changes).map content =
      (record.updatedSlots changes).map (record.schema, ·) := by
  rw [update]
  cases updated : record.updatedSlots changes with
  | error fault => rfl
  | ok values =>
      have whole : values.length = record.schema.schema.total := by
        rw [(of_updatedSlots updated).2.2]
        exact length_replaced changes record.complete
      have filled : (record.schema.schema.fill values none).outcome = .ok values :=
        congrArg Attempt.outcome (Schema.fill_of_total whole none)
      exact congrArg (Except.map content) (make_of_values filled)

end Record

end SlotRecord
