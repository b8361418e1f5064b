import Mathlib.Tactic.MkIffOfInductiveProp
import Mathlib.Tactic.Tauto
import SlotRecord.Wire.Basic

/-!
# Fields of portable records

A record is read from a list of fields. For each of the three names the list has readings,
one after the other, and these alone decide: `type` and `visible` need one that succeeds,
`hidden` one or none at all. Fields of other names must only be such as are passed over.
-/

namespace SlotRecord

namespace WireRecord

/-- The names of the fields that make up a record. -/
def names : List String := ["type", "visible", "hidden"]

section

variable {α β γ : Type}

/-- What the fields of a name are read as, in their order. -/
def readings (read : α → Option β) (name : String) (fields : List (String × α)) :
    List (Option β) :=
  (fields.filter fun field => field.1 = name).map fun field => read field.2

variable {read : α → Option β} {name : String} {fields others : List (String × α)}

theorem readings_cons_self (content : α) :
    readings read name ((name, content) :: fields) = read content :: readings read name fields := by
  simp [readings]

theorem readings_cons_of_ne {other : String} (differs : other ≠ name) (content : α) :
    readings read name ((other, content) :: fields) = readings read name fields := by
  simp [readings, differs]

theorem readings_perm (read : α → Option β) (name : String) (same : fields.Perm others) :
    (readings read name fields).Perm (readings read name others) :=
  (same.filter _).map _

theorem readings_eq_singleton_of_perm {reading : Option β} (same : fields.Perm others)
    (once : readings read name fields = [reading]) :
    readings read name others = [reading] := by
  have permuted := readings_perm read name same
  rw [once] at permuted
  exact permuted.symm.eq_singleton

theorem readings_eq_nil_of_perm (same : fields.Perm others)
    (absent : readings read name fields = []) : readings read name others = [] := by
  have permuted := readings_perm read name same
  rw [absent] at permuted
  exact permuted.symm.eq_nil

theorem readings_eq_nil_of_ne (absent : ∀ field ∈ fields, field.1 ≠ name) :
    readings read name fields = [] := by
  rw [readings, List.map_eq_nil_iff, List.filter_eq_nil_iff]
  intro field member
  simp [absent field member]

/-- The fields of a record without the others. -/
def known (fields : List (String × α)) : List (String × α) :=
  fields.filter fun field => field.1 ∈ names

theorem readings_known (read : α → Option β) (fields : List (String × α))
    (among : name ∈ names) : readings read name (known fields) = readings read name fields := by
  rw [readings, readings, known, List.filter_filter]
  congr 2
  funext field
  by_cases same : field.1 = name <;> simp [same, among]

theorem readings_eq_nil_iff (read : α → Option β) (other : α → Option γ) :
    readings read name fields = [] ↔ readings other name fields = [] := by
  rw [readings, readings, List.map_eq_nil_iff, List.map_eq_nil_iff]

/-- What is read once as one thing is read once as another where the two agree. -/
theorem readings_eq_singleton_iff {other : α → Option γ} {found : β} {alike : γ}
    (agree : ∀ content, read content = some found ↔ other content = some alike) :
    readings read name fields = [some found] ↔ readings other name fields = [some alike] := by
  simp only [readings, List.map_eq_singleton_iff, agree]

/-- What becomes of a field that is read at most once. -/
inductive Settles : Option β → List (Option β) → Option β → Prop
  | untouched (present : Option β) : Settles present [] present
  | once (found : β) : Settles none [some found] (some found)

theorem settles_nil {present final : Option β} : Settles present [] final ↔ present = final := by
  constructor
  · intro settles
    cases settles
    rfl
  · rintro rfl
    exact .untouched present

theorem settles_cons {present final reading : Option β} {readings : List (Option β)} :
    Settles present (reading :: readings) final ↔
      present = none ∧ ∃ found, reading = some found ∧ Settles (some found) readings final := by
  constructor
  · intro settles
    cases settles with
    | once found => exact ⟨rfl, found, rfl, .untouched _⟩
  · rintro ⟨rfl, found, rfl, settles⟩
    cases settles
    exact .once found

theorem settles_none_some {found : β} {readings : List (Option β)} :
    Settles none readings (some found) ↔ readings = [some found] := by
  constructor
  · intro settles
    cases settles
    rfl
  · rintro rfl
    exact .once found

end

section

variable {α : Type} {readers : FieldReaders α} {fields others : List (String × α)}
  {wire : WireRecord}

/-- How drafts before and after the reading of fields are related. -/
@[mk_iff]
structure Draft.Reaches (readers : FieldReaders α) (draft : Draft)
    (fields : List (String × α)) (last : Draft) : Prop where
  schema : Settles draft.schema (readings readers.schema "type" fields) last.schema
  visible : Settles draft.visible (readings readers.visible "visible" fields) last.visible
  hidden : Settles draft.hidden (readings readers.hidden "hidden" fields) last.hidden
  others : ∀ field ∈ fields, field.1 ∉ names → readers.skips field.2 = true

theorem set_eq_some_iff {β γ : Type} {present : Option β} {read : Option β} {set : β → γ}
    {next : γ} :
    (if present.isSome then none else read.map set) = some next ↔
      present = none ∧ ∃ found, read = some found ∧ set found = next := by
  cases present <;> simp

/-- One field is read into a draft, and the fields after it into what it leaves. -/
theorem Draft.reaches_cons {draft last : Draft} {field : String × α} :
    draft.Reaches readers (field :: fields) last ↔
      ∃ next, draft.accept readers field = some next ∧ next.Reaches readers fields last := by
  obtain ⟨name, content⟩ := field
  simp only [reaches_iff, List.forall_mem_cons]
  by_cases among : name ∈ names
  · -- The draft must not have a value in the place of the field yet.
    simp only [names, List.mem_cons, List.not_mem_nil, or_false] at among
    rcases among with rfl | rfl | rfl <;>
      simp only [accept, reduceIte, String.reduceEq, set_eq_some_iff, readings_cons_self,
        readings_cons_of_ne, settles_cons, ne_eq, not_false_eq_true] <;>
      grind [names]
  · obtain ⟨noSchema, noVisible, noHidden⟩ :
        name ≠ "type" ∧ name ≠ "visible" ∧ name ≠ "hidden" := by
      simpa [names] using among
    simp only [accept, if_neg noSchema, if_neg noVisible, if_neg noHidden,
      readings_cons_of_ne noSchema, readings_cons_of_ne noVisible, readings_cons_of_ne noHidden]
    grind

theorem Draft.foldlM_accept_iff {draft last : Draft} :
    fields.foldlM (Draft.accept readers) draft = some last ↔
      draft.Reaches readers fields last := by
  induction fields generalizing draft with
  | nil =>
      simp only [reaches_iff, readings, List.filter_nil, List.map_nil, settles_nil]
      constructor
      · intro same
        cases same
        simp
      · rintro ⟨schema, visible, hidden, _⟩
        cases draft
        cases last
        cases schema
        cases visible
        cases hidden
        rfl
  | cons field rest induction =>
      rw [List.foldlM_cons, Option.bind_eq_bind, Option.bind_eq_some_iff, reaches_cons]
      simp only [induction]

theorem Draft.finish_eq_some_iff {draft : Draft} :
    draft.finish = some wire ↔ draft.schema = some wire.schema ∧
      draft.visible = some wire.visible ∧ draft.hidden.getD [] = wire.hidden := by
  obtain ⟨schema, visible, hidden⟩ := draft
  obtain ⟨name, items, entries⟩ := wire
  cases schema <;> cases visible <;> simp [finish]

/-- The fields that readers make a record of. -/
theorem ofFields?_eq_some_iff :
    ofFields? readers fields = some wire ↔
      readings readers.schema "type" fields = [some wire.schema] ∧
      readings readers.visible "visible" fields = [some wire.visible] ∧
      (readings readers.hidden "hidden" fields = [some wire.hidden] ∨
        readings readers.hidden "hidden" fields = [] ∧ wire.hidden = []) ∧
      ∀ field ∈ fields, field.1 ∉ names → readers.skips field.2 = true := by
  rw [ofFields?, Option.bind_eq_some_iff]
  simp only [Draft.foldlM_accept_iff, Draft.finish_eq_some_iff]
  constructor
  · rintro ⟨⟨_, _, filed⟩, ⟨schema, visible, hidden, others⟩, rfl, rfl, complete⟩
    refine ⟨settles_none_some.mp schema, settles_none_some.mp visible, ?_, others⟩
    cases filed with
    | none =>
        generalize readings readers.hidden "hidden" fields = found at hidden
        cases hidden
        exact .inr ⟨rfl, complete.symm⟩
    | some entries =>
        rw [← complete]
        exact .inl (settles_none_some.mp hidden)
  · rintro ⟨schema, visible, present | ⟨absent, empty⟩, others⟩
    · exact ⟨⟨some wire.schema, some wire.visible, some wire.hidden⟩,
        ⟨settles_none_some.mpr schema, settles_none_some.mpr visible,
          settles_none_some.mpr present, others⟩, rfl, rfl, rfl⟩
    · refine ⟨⟨some wire.schema, some wire.visible, none⟩,
        ⟨settles_none_some.mpr schema, settles_none_some.mpr visible, ?_, others⟩, rfl, rfl,
          empty.symm⟩
      rw [absent]
      exact .untouched none

end

end WireRecord

end SlotRecord
