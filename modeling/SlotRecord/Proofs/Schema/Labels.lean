import SlotRecord.Proofs.Schema.Tables
import SlotRecord.Proofs.Text.Digits

/-!
# Labels of slots

A slot is called by its name, and a slot without a name by its position after an
underscore. No two names are the same, and neither are the digits of two positions. So
two slots are called alike only if one of them has the name that stands for the position
of the other.
-/

namespace SlotRecord

/-- Whether a name is an underscore and the digits of a position, without leading zeros. -/
def TellsPosition (name : String) (slot : Nat) : Prop :=
  ∃ digits, name.toList = '_' :: Digits.text digits ∧ Digits.Canonical digits ∧
    Digits.toNat digits = slot

/-- Whether the name of one slot is what another slot, which has no name, is called by. -/
def Shadows (fields : List Field) (named unnamed : Nat) : Prop :=
  nameAt? fields unnamed = none ∧
    ∃ name, nameAt? fields named = some name ∧ TellsPosition name unnamed

theorem tellsPosition_iff {name : String} {slot : Nat} :
    TellsPosition name slot ↔ name.toList = '_' :: decimalText slot := by
  constructor
  · rintro ⟨digits, written, canonical⟩
    rw [written, decimalText, Digits.eq_ofNat_iff.mpr canonical]
  · intro written
    exact ⟨Digits.ofNat slot, written, Digits.eq_ofNat_iff.mp rfl⟩

namespace Schema

variable {schema : Schema} {first second : Nat} {name : String}

theorem label_of_named (named : nameAt? schema.fields first = some name) :
    schema.label first = name.toList := by
  rw [nameAt?] at named
  rw [label, field?, named]

theorem label_of_unnamed (unnamed : nameAt? schema.fields first = none) :
    schema.label first = '_' :: decimalText first := by
  rw [nameAt?] at unnamed
  rw [label, field?, unnamed]

/-- No two slots have the same name. -/
theorem slot_eq_of_nameAt? (named : nameAt? schema.fields first = some name)
    (again : nameAt? schema.fields second = some name) : first = second := by
  have found := slotOf_eq_some_iff_nameAt?.mpr named
  rw [slotOf_eq_some_iff_nameAt?.mpr again] at found
  exact (Option.some.inj found).symm

theorem label_eq_iff_of_unnamed (unnamed : nameAt? schema.fields first = none)
    (apart : first ≠ second) :
    schema.label first = schema.label second ↔ Shadows schema.fields second first := by
  rw [label_of_unnamed unnamed]
  constructor
  · intro alike
    refine ⟨unnamed, ?_⟩
    cases other : nameAt? schema.fields second with
    | none =>
        rw [label_of_unnamed other] at alike
        exact absurd (decimalText_injective (List.cons.inj alike).2) apart
    | some name =>
        rw [label_of_named other] at alike
        exact ⟨name, rfl, tellsPosition_iff.mpr alike.symm⟩
  · rintro ⟨_, name, named, told⟩
    rw [label_of_named named, tellsPosition_iff.mp told]

theorem label_ne_of_named {other : String} (named : nameAt? schema.fields first = some name)
    (again : nameAt? schema.fields second = some other) (apart : first ≠ second) :
    schema.label first ≠ schema.label second := by
  intro alike
  rw [label_of_named named, label_of_named again] at alike
  have same : name = other := String.toList_inj.mp alike
  exact apart (slot_eq_of_nameAt? named (same ▸ again))

theorem label_eq_iff (apart : first ≠ second) :
    schema.label first = schema.label second ↔
      Shadows schema.fields first second ∨ Shadows schema.fields second first := by
  cases named : nameAt? schema.fields first with
  | none =>
      rw [label_eq_iff_of_unnamed named apart]
      refine ⟨Or.inr, fun either => either.resolve_left ?_⟩
      rintro ⟨_, name, found, _⟩
      rw [named] at found
      cases found
  | some name =>
      have unshadowed : ¬Shadows schema.fields second first := by
        rintro ⟨lacking, _⟩
        rw [named] at lacking
        cases lacking
      rw [or_iff_left unshadowed]
      cases again : nameAt? schema.fields second with
      | none => rw [eq_comm, label_eq_iff_of_unnamed again apart.symm]
      | some other =>
          refine ⟨fun alike => absurd alike (label_ne_of_named named again apart), ?_⟩
          rintro ⟨lacking, _⟩
          rw [again] at lacking
          cases lacking

/-- What the labels of the visible slots of a schema tell of the declaration that it was
built of. -/
structure LabelsTell (schema : Schema) (declaration : Declaration) : Prop where
  alike : ∀ first second, first < schema.visible → second < schema.visible →
    first ≠ second → (schema.label first = schema.label second ↔
      Shadows declaration.fields first second ∨ Shadows declaration.fields second first)
  distinct : (∀ named unnamed, named < schema.visible → unnamed < schema.visible →
      ¬Shadows declaration.fields named unnamed) →
    ∀ first second, first < schema.visible → second < schema.visible →
      schema.label first = schema.label second → first = second
  unnamed : ∀ first second, first < schema.visible → second < schema.visible →
    nameAt? declaration.fields first = none → nameAt? declaration.fields second = none →
      schema.label first = schema.label second → first = second

/-- Two visible slots are called alike exactly if one of them has no name and the other
has the name that stands for its position. -/
theorem labels_told {declaration : Declaration} {settings : BuildSettings}
    (built : declaration.build settings = .ok schema) : schema.LabelsTell declaration := by
  obtain ⟨fields, _⟩ := Declaration.of_build built
  constructor
  case alike =>
    intro first second _ _ apart
    rw [← fields]
    exact label_eq_iff apart
  case distinct =>
    intro clear first second shown also alike
    by_contra apart
    rw [← fields] at clear
    rcases (label_eq_iff apart).mp alike with shadowed | shadowed
    · exact clear first second shown also shadowed
    · exact clear second first also shown shadowed
  case unnamed =>
    intro first second _ _ lacking also alike
    by_contra apart
    rw [← fields] at lacking also
    obtain ⟨_, name, named, _⟩ := (label_eq_iff_of_unnamed lacking apart).mp alike
    rw [also] at named
    cases named

/-- Two visible fields without names, and two that are named as positions: as the first of
them is called, and as the second is but for a leading zero. -/
def shadowed : Declaration :=
  ⟨"samples.shadowed", none, [⟨none, none⟩, ⟨some "_0", none⟩, ⟨none, none⟩,
    ⟨some "_02", none⟩], 4⟩

theorem labels_told_shadowed :
    ∃ schema, shadowed.build .standard = .ok schema ∧ schema.LabelsTell shadowed ∧
      Shadows shadowed.fields 1 0 ∧ ¬Shadows shadowed.fields 3 2 := by
  have built : shadowed.build .standard = .ok _ := rfl
  refine ⟨_, built, labels_told built, ?_, ?_⟩
  · exact ⟨rfl, "_0", rfl, tellsPosition_iff.mpr (by decide +kernel)⟩
  · rintro ⟨_, name, named, told⟩
    cases named
    exact absurd (tellsPosition_iff.mp told) (by decide +kernel)

end Schema

end SlotRecord
