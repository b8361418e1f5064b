import SlotRecord.Proofs.Record.Parts

/-!
# Records taken apart and put together

Taking a record apart loses nothing: its parts make a record of the same schema that
holds the same value in every slot. A portable form that names the schema does so too
where the name is resolved to that schema. The two ways agree on any parts, those that
make no record included.
-/

namespace SlotRecord

namespace Record

/-- All that a record consists of but its serial number. -/
def content (record : Record) : SchemaRef × List Value := (record.schema, record.slots)

/-- Making a record succeeds with the slots that are filled, or fails as filling
does. -/
theorem map_content_make (schema : SchemaRef) (serial : Nat) (positional : List Value)
    (source : Option Source) :
    (make schema serial positional source).outcome.map content =
      (schema.schema.fill positional source).outcome.map (schema, ·) := by
  simp only [make]
  split
  · rename_i fault failed
    rw [failed]
    rfl
  · rename_i slots filled
    exact congrArg (Except.map (schema, ·)) filled.symm

theorem exists_assemble_parts (record : Record) (serial : Nat) :
    ∃ found, (record.parts.assemble serial).outcome = .ok found ∧
      found.schema = record.schema ∧ found.slots = record.slots := by
  obtain ⟨found, made, schema, slots⟩ := record.assemble_map_toWire id serial
  rw [WireRecord.map_id] at made
  rw [List.map_id] at slots
  exact ⟨found, made, schema, slots⟩

end Record

/-- A registry that resolves the name of a schema to it makes of a portable form what
the parts make themselves. -/
theorem Registry.assemble_toWire {registry : Registry} {parts : Parts}
    (registered : registry.resolve parts.schema.name = .ok parts.schema) (serial : Nat) :
    registry.assemble parts.toWire serial = parts.assemble serial := by
  have resolved : registry.resolve parts.toWire.schema = .ok parts.schema := registered
  rw [assemble, resolved]
  rfl

namespace Record

/-- A record taken apart is put together again slot by slot, from its parts as they are
or from their portable form. Of any parts the two ways make the same, a record or a
fault. -/
theorem assemble_parts_exact :
    (∀ (record : Record) (serial : Nat),
      ∃ found, (record.parts.assemble serial).outcome = .ok found ∧
        found.schema = record.schema ∧ found.slots = record.slots) ∧
    (∀ (registry : Registry) (record : Record) (serial : Nat),
      registry.resolve record.schema.name = .ok record.schema →
        ∃ found, (registry.assemble record.parts.toWire serial).outcome = .ok found ∧
          found.schema = record.schema ∧ found.slots = record.slots) ∧
    (∀ (registry : Registry) (parts : Parts) (serial other : Nat),
      registry.resolve parts.schema.name = .ok parts.schema →
        (registry.assemble parts.toWire other).outcome.map content =
          (parts.assemble serial).outcome.map content) := by
  refine ⟨exists_assemble_parts, ?_, ?_⟩
  · intro registry record serial registered
    obtain ⟨found, made, same⟩ := record.exists_assemble_parts serial
    have rebuilt : registry.assemble record.parts.toWire serial =
        record.parts.assemble serial := Registry.assemble_toWire registered serial
    exact ⟨found, (congrArg Attempt.outcome rebuilt).trans made, same⟩
  · intro registry parts serial other registered
    rw [Registry.assemble_toWire registered]
    exact (map_content_make parts.schema other _ _).trans
      (map_content_make parts.schema serial _ _).symm

/-- A record with a position that has no name, a host object and a hidden NaN. -/
def marked : Record where
  schema := ⟨3, false, ⟨"samples.marked", none,
    [⟨none, none⟩, ⟨some "owner", none⟩, ⟨some "ratio", none⟩, ⟨some "index", none⟩], 2,
    none, by decide, by decide, by decide⟩⟩
  serial := 1
  slots := [.number (.unsigned 5), .host ⟨"owner-1", "Owner", .ok "<owner>", .ok 77⟩,
    .number (.real ⟨0x7ff8000000000001⟩), .dict [("a", .list [.null])]]
  complete := rfl

theorem assemble_parts_exact_marked :
    (∃ found, (marked.parts.assemble 2).outcome = .ok found ∧
      found.schema = marked.schema ∧ found.slots = marked.slots) ∧
    (∃ found, (Registry.assemble [("samples.marked", marked.schema)]
        marked.parts.toWire 2).outcome = .ok found ∧
      found.schema = marked.schema ∧ found.slots = marked.slots) ∧
    (Registry.assemble [("samples.marked", marked.schema)]
        (Parts.toWire ⟨marked.schema, [.null], [("ratio", .bool true)]⟩) 2).outcome.map
          content =
      (Parts.assemble ⟨marked.schema, [.null], [("ratio", .bool true)]⟩ 3).outcome.map
          content := by
  obtain ⟨direct, portable, edited⟩ := assemble_parts_exact
  exact ⟨direct marked 2, portable _ marked 2 rfl, edited _ _ 3 2 rfl⟩

end Record

end SlotRecord
