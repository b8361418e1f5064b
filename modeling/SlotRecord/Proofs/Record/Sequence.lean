import Mathlib.Data.List.Forall2
import SlotRecord.Proofs.Record.Replacing
import SlotRecord.Proofs.Value.Equality

/-!
# Records as sequences

To everyone who takes it for a sequence, a record is its schema and its visible slots.
The hidden slots may hold anything, and it does not matter how they came to it: as
positional values to spare, from a source, or by an update.
-/

namespace SlotRecord

/-- Lists are equal if they are so element by element. -/
theorem Value.equalItems_iff_forall₂ {firsts seconds : List Value} :
    equalItems firsts seconds = true ↔
      List.Forall₂ (fun first second => first.equal second = true) firsts seconds := by
  induction firsts generalizing seconds with
  | nil =>
      rw [List.forall₂_nil_left_iff]
      cases seconds with
      | nil => exact iff_of_true rfl rfl
      | cons head tail => exact iff_of_false Bool.false_ne_true (List.cons_ne_nil _ _)
  | cons head tail induction =>
      rw [equalItems_cons, List.forall₂_cons_left_iff]
      constructor
      · rintro ⟨first, rest, same, here, later⟩
        exact ⟨first, rest, here, induction.mp later, same⟩
      · rintro ⟨first, rest, here, later, same⟩
        exact ⟨first, rest, same, here, induction.mpr later⟩

namespace Record

/-- Whether nobody can tell two records apart who takes them for sequences, asks for
their hashes or reads their texts. -/
structure LooksLike (first second : Record) : Prop where
  length : first.length = second.length
  isEmpty : first.isEmpty = second.isEmpty
  slice : first.visible? = second.visible?
  elements : first.visible = second.visible
  get : ∀ place, first.get? place = second.get? place
  element : ∀ place, first.element? place = second.element? place
  equalLeft : ∀ third, first.equal third = second.equal third
  equalRight : ∀ third : Record, third.equal first = third.equal second
  hash : first.hash = second.hash
  render : first.render = second.render
  display : first.display? = second.display?

section

variable {first second : Record} (schema : first.schema = second.schema)

include schema

theorem looksLike_of_visible (elements : first.visible = second.visible) :
    first.LooksLike second := by
  have length : first.length = second.length := by rw [length, length, schema]
  have render : first.render = second.render := by rw [render, render, schema, elements]
  have get : ∀ place, first.get? place = second.get? place := fun place => by
    rw [get?, get?, elements]
  exact {
    length := length
    isEmpty := by rw [isEmpty, isEmpty, length]
    slice := by rw [visible?_eq, visible?_eq, elements]
    elements := elements
    get := get
    element := fun place => by rw [element?_eq, element?_eq, get]
    equalLeft := fun third => by rw [equal, equal, elements]
    equalRight := fun third => by rw [equal, equal, elements]
    hash := by rw [hash, hash, digest, digest, length, elements]
    render := render
    display := congrArg Except.toOption render }

theorem visible_eq_of_slots
    (same : ∀ slot < first.length, first.slot? slot = second.slot? slot) :
    first.visible = second.visible := by
  have length : first.length = second.length := by rw [length, length, schema]
  apply List.ext_getElem?
  intro place
  by_cases within : place < first.length
  · exact (get?_eq_slot? within).trans
      ((same place within).trans (get?_eq_slot? (length ▸ within)).symm)
  · have past := Nat.le_of_not_lt within
    rw [List.getElem?_eq_none (first.length_visible.trans_le past),
      List.getElem?_eq_none (second.length_visible.trans_le (length ▸ past))]

end

/-- The first of the positional values are the visible ones. -/
theorem visible_of_make {schema : SchemaRef} {serial : Nat} {positional : List Value}
    {source : Option Source} {record : Record}
    (made : (make schema serial positional source).outcome = .ok record) :
    record.visible = positional.take schema.schema.visible := by
  have filled := map_content_make schema serial positional source
  rw [made] at filled
  cases violated : schema.schema.violated? positional.length with
  | some bound =>
      simp only [Schema.fill, violated] at filled
      cases filled
  | none =>
      cases later : (fillRest source (schema.schema.fields.drop positional.length)).outcome with
      | error fault =>
          simp only [Schema.fill, violated, later] at filled
          cases filled
      | ok values =>
          simp only [Schema.fill, violated, later] at filled
          obtain ⟨same, slots⟩ := Prod.mk.inj (Except.ok.inj filled)
          obtain ⟨enough, _⟩ := Schema.violated?_eq_none_iff.mp violated
          rw [visible, length, same, slots, List.take_append_of_le_length enough]

/-- Changes of hidden fields leave the visible values as they are. -/
theorem visible_of_update {record found : Record} {serial : Nat} {changes : Dict Value}
    (made : record.update serial changes = .ok found)
    (hidden : ∀ name ∈ Dict.keys changes, name ∉ record.schema.schema.matchNames) :
    found.visible = record.visible := by
  have content := record.map_content_update serial changes
  rw [made] at content
  cases updated : record.updatedSlots changes with
  | error fault =>
      rw [updated] at content
      cases content
  | ok values =>
      rw [updated] at content
      obtain ⟨schema, slots⟩ := Prod.mk.inj (Except.ok.inj content)
      apply visible_eq_of_slots schema
      intro slot within
      rw [length, schema] at within
      have fits : slot < record.schema.schema.fields.length :=
        Nat.lt_of_lt_of_le within record.schema.schema.visible_le
      have declared := List.getElem?_eq_getElem fits
      obtain ⟨current, held⟩ := exists_held declared
      rw [slot?, slot?, slots, (of_updatedSlots updated).2.2,
        getElem?_replaced declared held changes, held]
      cases named : record.schema.schema.fields[slot].name with
      | none => rfl
      | some name =>
          have visible : name ∈ record.schema.schema.matchNames :=
            mem_fieldNames_iff_nameAt?.mpr
              ⟨slot, (nameAt?_take within).trans ((nameAt?_eq_getElem fits).trans named)⟩
          have unchanged : Dict.get? name changes = none :=
            Dict.get?_eq_none_of_not_mem_keys fun given => hidden name given visible
          rw [Option.bind_some, unchanged]
          rfl

theorem equal_iff (first second : Record) :
    first.equal second = true ↔ first.length = second.length ∧
      ∀ place left right, first.get? place = some left → second.get? place = some right →
        left.equal right = true := by
  rw [equal, Value.equalItems_iff_forall₂, List.forall₂_iff_get, ← length_visible,
    ← length_visible]
  apply and_congr_right
  intro _
  constructor
  · intro same place left right here there
    obtain ⟨within, rfl⟩ := List.getElem?_eq_some_iff.mp here
    obtain ⟨fits, rfl⟩ := List.getElem?_eq_some_iff.mp there
    exact same place within fits
  · intro same place within fits
    exact same place _ _ (List.getElem?_eq_getElem within) (List.getElem?_eq_getElem fits)

/-- Hidden slots do not show. Records of one schema look alike if they have the same
visible slots, which they do if they were made of the same positional values as far as
those are visible, or if one is an update of the other that changes hidden fields only.
Records of any schemas are equal exactly if they are as long and equal place by place. -/
theorem hidden_slots_silent :
    (∀ first second : Record, first.schema = second.schema →
      (∀ slot < first.length, first.slot? slot = second.slot? slot) →
        first.LooksLike second) ∧
    (∀ (schema : SchemaRef) (serial other : Nat) (positional others : List Value)
      (source another : Option Source) (first second : Record),
      (make schema serial positional source).outcome = .ok first →
      (make schema other others another).outcome = .ok second →
      positional.take schema.schema.visible = others.take schema.schema.visible →
        first.LooksLike second) ∧
    (∀ (record found : Record) (serial : Nat) (changes : Dict Value),
      record.update serial changes = .ok found →
      (∀ name ∈ Dict.keys changes, name ∉ record.schema.schema.matchNames) →
        found.LooksLike record) ∧
    ∀ first second : Record, first.equal second = true ↔ first.length = second.length ∧
      ∀ place left right, first.get? place = some left → second.get? place = some right →
        left.equal right = true := by
  refine ⟨?_, ?_, ?_, equal_iff⟩
  · intro first second schema same
    exact looksLike_of_visible schema (visible_eq_of_slots schema same)
  · intro schema serial other positional others source another first second made again same
    apply looksLike_of_visible
    · exact (of_make made).1.trans (of_make again).1.symm
    · rw [visible_of_make made, visible_of_make again, same]
  · intro record found serial changes made hidden
    apply looksLike_of_visible
    · exact (of_update made).1
    · exact visible_of_update made hidden

/-- A schema with a hidden field for a note. -/
def noting : SchemaRef :=
  ⟨4, false, ⟨"samples.noted", none, [⟨some "x", none⟩, ⟨some "note", none⟩], 1, none,
    by decide, by decide, by decide⟩⟩

def noted : Record := ⟨noting, 1, [.null, .text "a"], rfl⟩

/-- The note is a host object that has neither a text nor a hash. -/
def untold : Record :=
  ⟨noting, 2, [.null, .host ⟨"gone", "Gone", .error (.host "gone"), Host.noDigest⟩], rfl⟩

theorem hidden_slots_silent_untold :
    noted.LooksLike untold ∧
      (∃ first second,
        (make noting 3 [.null] (some (.ofDict [("note", .text "b")]))).outcome = .ok first ∧
          (make noting 4 [.null, .bool true] none).outcome = .ok second ∧
          first.LooksLike second) ∧
      (∃ found, noted.update 5 [("note", .list [])] = .ok found ∧ found.LooksLike noted) ∧
      (Value.number (.real ⟨0x8000000000000000⟩)).equal (.number (.unsigned 0)) = true := by
  obtain ⟨slots, made, updated, places⟩ := hidden_slots_silent
  refine ⟨?_, ?_, ?_, ?_⟩
  · apply slots noted untold rfl
    intro slot within
    have first : slot = 0 := Nat.lt_one_iff.mp within
    rw [first]
    rfl
  · refine ⟨_, _, rfl, rfl, ?_⟩
    apply made noting 3 4 [.null] [.null, .bool true] (some (.ofDict [("note", .text "b")]))
      none
    · rfl
    · rfl
    · rfl
  · refine ⟨_, rfl, ?_⟩
    apply updated noted _ 5 [("note", .list [])] rfl
    intro name given
    rw [List.mem_singleton.mp given]
    decide
  · have same : tagged.equal pair = true := by decide +kernel
    exact ((places tagged pair).mp same).2 1 _ _ rfl rfl

end Record

end SlotRecord
