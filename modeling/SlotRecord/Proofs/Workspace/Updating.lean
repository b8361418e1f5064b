import SlotRecord.Proofs.Record.Replacing
import SlotRecord.Proofs.Text.Order
import SlotRecord.Proofs.Workspace.Effects

/-!
# Updates

An update is made if every field has a name and every change is one of a field. Its
record has the changes under their names and otherwise the values of the record that it
was made of, so that updates follow the laws of overriding: changes that are no changes
give the same slots, and two updates in a row are one.
-/

namespace SlotRecord

namespace Record

variable {record found : Record} {changes : Dict Value} {serial : Nat}

theorem update_of_fault {fault : Fault}
    (refused : record.updatedSlots changes = .error fault) (serial : Nat) :
    record.update serial changes = .error fault := by
  rw [update, refused]
  rfl

theorem exists_update {values : List Value}
    (updated : record.updatedSlots changes = .ok values) (serial : Nat) :
    ∃ found, record.update serial changes = .ok found ∧
      found.content = (record.schema, values) := by
  have same := record.map_content_update serial changes
  rw [updated] at same
  cases made : record.update serial changes with
  | error fault =>
      rw [made] at same
      cases same
  | ok found =>
      rw [made] at same
      exact ⟨found, rfl, Except.ok.inj same⟩

/-- Each field has its change, or what it had. -/
theorem named?_of_replaced
    (content : found.content =
      (record.schema, replaced changes record.schema.schema.fields record.slots))
    {name : String} (known : name ∈ record.names) :
    found.named? name = (Dict.get? name changes).or (record.named? name) := by
  obtain ⟨schema, slots⟩ := Prod.mk.inj content
  obtain ⟨slot, given⟩ := mem_fieldNames_iff_nameAt?.mp known
  obtain ⟨field, declared, named⟩ := nameAt?_eq_some_iff.mp given
  obtain ⟨current, held⟩ := exists_held declared
  have same : found.schema.schema.fields[slot]? = some field := schema ▸ declared
  have before : record.named? name = some current :=
    (named?_eq_slot? declared named).trans held
  have after : found.named? name = _ := (named?_eq_slot? same named).trans
    ((congrArg (·[slot]?) slots).trans (getElem?_replaced declared held changes))
  rw [after, before, named, Option.bind_some]
  cases Dict.get? name changes <;> rfl

/-- Changes to values that are there already change nothing. -/
theorem replaced_of_current
    (current : ∀ name value, Dict.get? name changes = some value →
      record.named? name = some value) :
    replaced changes record.schema.schema.fields record.slots = record.slots := by
  have whole := length_replaced changes record.complete
  apply List.ext_getElem?
  intro slot
  cases declared : record.schema.schema.fields[slot]? with
  | none =>
      have past := List.getElem?_eq_none_iff.mp declared
      rw [List.getElem?_eq_none (whole.trans_le past),
        List.getElem?_eq_none (record.complete.trans_le past)]
  | some field =>
      obtain ⟨kept, held⟩ := exists_held declared
      rw [getElem?_replaced declared held, held]
      cases named : field.name with
      | none => rfl
      | some name =>
          rw [Option.bind_some]
          cases changed : Dict.get? name changes with
          | none => rfl
          | some value =>
              have there := (named?_eq_slot? declared named).symm.trans
                (current name value changed)
              exact there.symm.trans held

/-- If all of the first changes are known, those of both that are not are the second
ones that are not. -/
theorem unknownNames_override {first second : Dict Value}
    (firstOrdered : Dict.Ordered first) (secondOrdered : Dict.Ordered second)
    (known : record.unknownNames first = []) :
    record.unknownNames (Dict.override first second) = record.unknownNames second := by
  apply (pairwise_unknownNames (Dict.ordered_override firstOrdered second)).eq_of_mem_iff
    (pairwise_unknownNames secondOrdered)
  intro name
  rw [mem_unknownNames_iff, mem_unknownNames_iff, Dict.mem_keys_override secondOrdered]
  constructor
  · rintro ⟨given | old, strange⟩
    · exact ⟨given, strange⟩
    · exact absurd (unknownNames_eq_nil_iff.mp known name old) strange
  · rintro ⟨given, strange⟩
    exact ⟨Or.inl given, strange⟩

/-- An update of an update is one of the record itself, with the changes of both. -/
theorem updatedSlots_override {first second : Dict Value} {middle : Record}
    (firstOrdered : Dict.Ordered first) (secondOrdered : Dict.Ordered second)
    (made : record.update serial first = .ok middle) :
    middle.schema = record.schema ∧
      middle.updatedSlots second = record.updatedSlots (Dict.override first second) := by
  have same := record.map_content_update serial first
  rw [made] at same
  cases updated : record.updatedSlots first with
  | error fault =>
      rw [updated] at same
      cases same
  | ok values =>
      rw [updated] at same
      obtain ⟨schema, slots⟩ := Prod.mk.inj (Except.ok.inj same)
      obtain ⟨named, known, replacement⟩ := of_updatedSlots updated
      have unknown : middle.unknownNames second = record.unknownNames second := by
        rw [unknownNames, names, schema, unknownNames, names]
      have middleNamed : ¬ middle.HasUnnamed := by
        rw [HasUnnamed, schema]
        exact named
      refine ⟨schema, ?_⟩
      rw [updatedSlots_of_named middleNamed, updatedSlots_of_named named, unknown,
        unknownNames_override firstOrdered secondOrdered known, schema, slots, replacement,
        replaced_replaced secondOrdered]

theorem exists_update_of_known (named : ¬ record.HasUnnamed)
    (known : ∀ name ∈ Dict.keys changes, name ∈ record.names) (serial : Nat) :
    ∃ found, record.update serial changes = .ok found ∧ found.content =
      (record.schema, replaced changes record.schema.schema.fields record.slots) := by
  apply exists_update
  rw [updatedSlots_of_named named, if_neg (not_not_intro (unknownNames_eq_nil_iff.mpr known))]

theorem update_of_unknown (named : ¬ record.HasUnnamed)
    (unknown : ∃ name ∈ Dict.keys changes, name ∉ record.names) (serial : Nat) :
    record.update serial changes =
      .error (.unknownNames record.schema.name (record.unknownNames changes)) := by
  obtain ⟨name, given, strange⟩ := unknown
  have some : record.unknownNames changes ≠ [] :=
    List.ne_nil_of_mem (mem_unknownNames_iff.mpr ⟨given, strange⟩)
  apply update_of_fault
  rw [updatedSlots_of_named named, if_pos some]

/-- Changes to values that are there already give a record of the same content. -/
theorem exists_update_of_current (named : ¬ record.HasUnnamed) (serial : Nat)
    (current : ∀ name value, Dict.get? name changes = some value →
      record.named? name = some value) :
    ∃ found, record.update serial changes = .ok found ∧ found.content = record.content := by
  have known : ∀ name ∈ Dict.keys changes, name ∈ record.names := by
    intro name given
    obtain ⟨value, changed⟩ := Option.isSome_iff_exists.mp (Dict.isSome_get?_iff.mpr given)
    exact mem_fieldNames_iff.mpr
      (isSome_named?_iff.mp (Option.isSome_of_eq_some (current name value changed)))
  obtain ⟨found, made, same⟩ := exists_update_of_known named known serial
  rw [replaced_of_current current] at same
  exact ⟨found, made, same⟩

/-- Two updates in a row, of which the first is made, are one update: it makes a record
of the same content or fails in the same way. -/
theorem map_content_update_update {first second : Dict Value} {middle : Record}
    (firstOrdered : Dict.Ordered first) (secondOrdered : Dict.Ordered second)
    (made : record.update serial first = .ok middle) (later other : Nat) :
    (middle.update later second).map content =
      (record.update other (Dict.override first second)).map content := by
  obtain ⟨schema, slots⟩ := updatedSlots_override firstOrdered secondOrdered made
  rw [map_content_update, map_content_update, schema, slots]

end Record

namespace Workspace

/-- A record that was made is stored, and nothing else that is stored changes. -/
theorem records_keep (workspace : Workspace) {attempt : Attempt Record} {record : Record}
    (made : attempt.outcome = .ok record) (target : String) :
    (workspace.keep attempt target).1.records =
      Dict.insert target record workspace.records := by
  rw [keep, made]
  exact ((workspace.enroll record).frame_storeRecord target record).1.trans
    (congrArg (Dict.insert target record) (workspace.frame_enroll record).1)

theorem step_update {workspace : Workspace} {handle : String} {record : Record}
    (held : Dict.get? handle workspace.records = some record) (changes : Dict Value)
    (target : String) :
    workspace.step (.update handle changes target) =
      workspace.keep ⟨[], record.update workspace.nextSerial changes⟩ target := by
  rw [step, withBound, held]

end Workspace

namespace Record

/-- The laws of the updates of a record: which are made, what they make, and how they
follow one another. -/
structure UpdatesLawfully (record : Record) : Prop where
  fails : ∀ serial changes,
    (∃ reason, record.update serial changes = .error (.mismatch reason)) ↔
      record.HasUnnamed ∨ ∃ name ∈ Dict.keys changes, name ∉ record.names
  unnamed : record.HasUnnamed → ∀ serial changes,
    record.update serial changes = .error (.unnamedFields record.schema.name)
  unknown : ¬ record.HasUnnamed → ∀ serial changes, Dict.Ordered changes →
    (∃ name ∈ Dict.keys changes, name ∉ record.names) →
      ∃ names, record.update serial changes =
          .error (.unknownNames record.schema.name names) ∧
        (names.Pairwise fun earlier later => Utf8.encode earlier < Utf8.encode later) ∧
        ∀ name, name ∈ names ↔ name ∈ Dict.keys changes ∧ name ∉ record.names
  leftOver : ¬ record.HasUnnamed → ∀ changes,
    record.updatedSlots changes = if (record.walked changes).2 ≠ [] then
        .error (.unknownNames record.schema.name (Dict.keys (record.walked changes).2))
      else .ok (record.walked changes).1
  updates : ¬ record.HasUnnamed → ∀ serial changes,
    (∀ name ∈ Dict.keys changes, name ∈ record.names) →
      ∃ found, record.update serial changes = .ok found ∧ found.schema = record.schema ∧
        found.serial = serial ∧ ∀ name ∈ record.names,
          found.named? name = (Dict.get? name changes).or (record.named? name)
  unchanged : ¬ record.HasUnnamed → ∀ serial,
    ∃ found, record.update serial [] = .ok found ∧ found.content = record.content
  current : ¬ record.HasUnnamed → ∀ serial changes,
    (∀ name value, Dict.get? name changes = some value → record.named? name = some value) →
      ∃ found, record.update serial changes = .ok found ∧ found.content = record.content
  twice : ∀ first second middle serial later other,
    Dict.Ordered first → Dict.Ordered second → record.update serial first = .ok middle →
      (middle.update later second).map content =
        (record.update other (Dict.override first second)).map content
  stored : ∀ (workspace : Workspace) handle target changes found,
    Dict.get? handle workspace.records = some record →
      record.update workspace.nextSerial changes = .ok found →
        ∀ name, Dict.get? name (workspace.step (.update handle changes target)).1.records =
          if target = name then some found else Dict.get? name workspace.records

theorem updates_lawfully (record : Record) : record.UpdatesLawfully := by
  constructor
  · intro serial changes
    constructor
    · rintro ⟨reason, failed⟩
      by_contra sound
      obtain ⟨named, known⟩ := not_or.mp sound
      simp only [not_exists, not_and, not_not] at known
      obtain ⟨found, made, _⟩ := exists_update_of_known named known serial
      rw [made] at failed
      cases failed
    · intro unsound
      by_cases unnamed : record.HasUnnamed
      · exact ⟨_, update_of_fault (updatedSlots_of_unnamed unnamed changes) serial⟩
      · exact ⟨_, update_of_unknown unnamed (unsound.resolve_left unnamed) serial⟩
  · intro unnamed serial changes
    exact update_of_fault (updatedSlots_of_unnamed unnamed changes) serial
  · intro named serial changes ordered unknown
    refine ⟨record.unknownNames changes, update_of_unknown named unknown serial, ?_, ?_⟩
    · exact (pairwise_unknownNames ordered).imp Utf8.encode_lt
    · exact fun name => mem_unknownNames_iff
  · exact updatedSlots_eq_walked
  · intro named serial changes known
    obtain ⟨found, made, content⟩ := exists_update_of_known named known serial
    obtain ⟨schema, number⟩ := of_update made
    exact ⟨found, made, schema, number, fun name => named?_of_replaced content⟩
  · intro named serial
    exact exists_update_of_current named serial fun name value impossible => nomatch impossible
  · intro named serial changes
    exact exists_update_of_current named serial
  · intro first second middle serial later other firstOrdered secondOrdered made
    exact map_content_update_update firstOrdered secondOrdered made later other
  · intro workspace handle target changes found held made name
    rw [Workspace.step_update held, workspace.records_keep made, Dict.get?_insert]

end Record

end SlotRecord
