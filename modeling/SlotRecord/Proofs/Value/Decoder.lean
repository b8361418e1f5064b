import Mathlib.Data.List.Forall2
import SlotRecord.Proofs.Value.Forms

/-!
# Decoders of values

A decoder descends if the values inside what it decodes are decoded from parts of the
source, with less budget. What holds of every value by itself then holds everywhere in
a decoded value, whatever the format is. What reading and decoding need of options and
lists stands here too.
-/

namespace SlotRecord

/-- A property of a whole, of its parts, of their parts, and so on. -/
inductive Throughout {α : Type} (parts : α → List α) (property : α → Prop) : α → Prop
  | intro {whole : α} (here : property whole)
      (inside : ∀ part ∈ parts whole, Throughout parts property part) :
      Throughout parts property whole

namespace Throughout

variable {α : Type} {parts : α → List α} {property : α → Prop} {whole : α}

theorem here (throughout : Throughout parts property whole) : property whole := by
  cases throughout with
  | intro here _ => exact here

theorem inside (throughout : Throughout parts property whole) :
    ∀ part ∈ parts whole, Throughout parts property part := by
  cases throughout with
  | intro _ inside => exact inside

end Throughout

/-- What a reader makes of the first thing that is taken from the front of its input. -/
theorem exists_of_taken {α β ι : Type} (make : α → β) {taken : Option (α × ι)} {whole : β}
    {rest : ι} (read : (taken.bind fun front => some (make front.1, front.2)) =
      some (whole, rest)) :
    ∃ found, taken = some (found, rest) ∧ make found = whole := by
  obtain ⟨⟨found, left⟩, same, complete⟩ := Option.bind_eq_some_iff.mp read
  cases complete
  exact ⟨found, same, rfl⟩

/-- What a list is turned into element by element stems from single elements. -/
theorem exists_of_forall₂ {α β : Type} {related : α → β → Prop} {sources : List α}
    {results : List β} (all : List.Forall₂ related sources results) {result : β}
    (member : result ∈ results) : ∃ source ∈ sources, related source result := by
  induction all with
  | nil => cases member
  | @cons source _ _ _ first _ induction =>
      rcases List.mem_cons.mp member with rfl | later
      · exact ⟨source, List.mem_cons_self, first⟩
      · obtain ⟨found, foundMember, belongs⟩ := induction later
        exact ⟨found, List.mem_cons_of_mem _ foundMember, belongs⟩

namespace Value

/-- A value without a length: no text, no list and no dictionary. -/
def Scalar : Value → Prop
  | .text _ => False
  | .list _ => False
  | .dict _ => False
  | _ => True

theorem parts_of_scalar {value : Value} (scalar : Scalar value) : value.parts = [] := by
  cases value with
  | list items => cases scalar
  | dict entries => cases scalar
  | _ => rfl

theorem depth_of_scalar {value : Value} (scalar : Scalar value) : value.depth = 0 := by
  cases value with
  | list items => cases scalar
  | dict entries => cases scalar
  | _ => rfl

/-- A value in a form in which values are read back. -/
structure ReadBack (value : Value) : Prop where
  noHost : NoHost value
  inOrder : InOrder value
  settled : Settled value

/-- Whether the values inside a decoded value are decoded from parts of its source. -/
def Descends {α : Type} (sourceParts : α → List α) (decode : Nat → α → Option Value) :
    Prop :=
  ∀ budget source value, decode budget source = some value → ∀ part ∈ value.parts,
    ∃ smaller < budget, ∃ inside ∈ sourceParts source, decode smaller inside = some part

/-- What holds of each decoded value by itself holds everywhere in it. The induction
is on the budget, of which the values inside have less. -/
theorem everywhere_of_decoded {α : Type} {sourceParts : α → List α}
    {decode : Nat → α → Option Value} (descends : Descends sourceParts decode)
    {kept : α → Prop} {property : Value → Prop}
    (own : ∀ budget source value, Throughout sourceParts kept source →
      decode budget source = some value → property value)
    {budget : Nat} {source : α} {value : Value}
    (throughout : Throughout sourceParts kept source)
    (decoded : decode budget source = some value) : value.Everywhere property := by
  induction budget using Nat.strongRecOn generalizing source value with
  | ind budget induction =>
      apply everywhere_of_parts
      · exact own budget source value throughout decoded
      · intro part member
        obtain ⟨smaller, less, inside, insideMember, read⟩ :=
          descends budget source value decoded part member
        exact induction smaller less (throughout.inside inside insideMember) read

end Value

end SlotRecord
