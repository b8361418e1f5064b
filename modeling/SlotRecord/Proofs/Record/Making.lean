import SlotRecord.Record.Parts
import SlotRecord.Record.Update

/-!
# Made records

However a record is made, it has the schema and the serial number that it was made
with.
-/

namespace SlotRecord

namespace Record

variable {schema : SchemaRef} {serial : Nat} {record : Record}

theorem of_make {positional : List Value} {source : Option Source}
    (made : (make schema serial positional source).outcome = .ok record) :
    record.schema = schema ∧ record.serial = serial := by
  simp only [make] at made
  split at made
  · cases made
  · cases made
    exact ⟨rfl, rfl⟩

theorem of_makeFrom {sequence : Value} {argument : Option Value}
    (made : makeFrom schema serial sequence argument = .ok record) :
    record.schema = schema ∧ record.serial = serial := by
  cases sequence with
  | list positional =>
      rw [makeFrom] at made
      cases asked : sourceOf schema.name argument with
      | error fault =>
          rw [asked] at made
          cases made
      | ok source =>
          rw [asked] at made
          exact of_make made
  | _ => cases made

theorem of_update {old : Record} {changes : Dict Value}
    (made : old.update serial changes = .ok record) :
    record.schema = old.schema ∧ record.serial = serial := by
  rw [update] at made
  cases updated : old.updatedSlots changes with
  | error fault =>
      rw [updated] at made
      cases made
  | ok positional =>
      rw [updated] at made
      exact of_make made

end Record

theorem Registry.of_assemble {registry : Registry} {wire : WireRecord} {serial : Nat}
    {record : Record} (made : (registry.assemble wire serial).outcome = .ok record) :
    Dict.get? wire.schema registry = some record.schema ∧ record.serial = serial := by
  cases found : Dict.get? wire.schema registry with
  | none =>
      simp only [assemble, resolve, found] at made
      cases made
  | some schema =>
      simp only [assemble, resolve, found] at made
      obtain ⟨same, number⟩ := Record.of_make made
      exact ⟨congrArg some same.symm, number⟩

end SlotRecord
