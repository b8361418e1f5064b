import SlotRecord.Proofs.First
import SlotRecord.Proofs.Text.Order
import SlotRecord.Proofs.Value.Everywhere

/-!
# The first host object

Whoever writes a value goes through its parts in order and stops at the first host object.
All that this takes of a writer is stated once, for every format.
-/

namespace SlotRecord

namespace Value

/-- Which host object comes first in a value: in the order of a list, and in the order of
the bytes of the keys in a dictionary. -/
inductive FirstHost : Value → Host → Prop
  | here (object : Host) : FirstHost (.host object) object
  | item {earlier later : List Value} {item : Value} {object : Host} :
      (∀ other ∈ earlier, other.Everywhere NoHost) → FirstHost item object →
        FirstHost (.list (earlier ++ item :: later)) object
  | entry {entries : List (String × Value)} {key : String} {item : Value} {object : Host} :
      (key, item) ∈ entries →
        (∀ other ∈ entries, Utf8.encode other.1 < Utf8.encode key →
          other.2.Everywhere NoHost) →
        FirstHost item object → FirstHost (.dict entries) object

/-- In an ordered dictionary the entries with smaller keys stand before an entry. -/
theorem encode_lt_iff_mem {earlier later : Dict Value} {entry other : String × Value}
    (ordered : Dict.Ordered (earlier ++ entry :: later))
    (member : other ∈ earlier ++ entry :: later) :
    Utf8.encode other.1 < Utf8.encode entry.1 ↔ other ∈ earlier := by
  obtain ⟨_, after, before⟩ := List.pairwise_append.mp ordered
  constructor
  · intro smaller
    rcases List.mem_append.mp member with found | rest
    · exact found
    · rcases List.mem_cons.mp rest with rfl | late
      · exact absurd smaller (List.lt_irrefl _)
      · have greater := Utf8.encode_lt ((List.pairwise_cons.mp after).1 other late)
        exact absurd smaller (List.lt_asymm greater)
  · intro found
    exact Utf8.encode_lt (before other found entry List.mem_cons_self)

/-- The first host object is that of the first part that is not without one. -/
theorem firstHost_iff {value : Value} {object : Host} (inOrder : InOrder value) :
    value.FirstHost object ↔ value = .host object ∨
      ∃ earlier part later, value.parts = earlier ++ part :: later ∧
        (∀ other ∈ earlier, other.Everywhere NoHost) ∧ part.FirstHost object := by
  constructor
  · intro first
    cases first with
    | here => exact .inl rfl
    | @item earlier later item _ none first => exact .inr ⟨earlier, item, later, rfl, none, first⟩
    | @entry entries key item _ member none first =>
        obtain ⟨earlier, later, rfl⟩ := List.append_of_mem member
        refine .inr ⟨earlier.map Prod.snd, item, later.map Prod.snd, ?_, ?_, first⟩
        · simp [parts]
        · intro part taken
          obtain ⟨other, found, rfl⟩ := List.mem_map.mp taken
          have held := List.mem_append_left ((key, item) :: later) found
          exact none other held ((encode_lt_iff_mem inOrder held).mpr found)
  · rintro (rfl | ⟨earlier, part, later, split, none, first⟩)
    · exact .here object
    · cases value with
      | list items =>
          cases split
          exact .item none first
      | dict entries =>
          obtain ⟨before, rest, rfl, rfl, same⟩ := List.map_eq_append_iff.mp split
          obtain ⟨⟨key, item⟩, after, rfl, rfl, rfl⟩ := List.map_eq_cons_iff.mp same
          refine .entry (List.mem_append_right _ List.mem_cons_self) ?_ first
          intro other member smaller
          apply none
          exact List.mem_map_of_mem ((encode_lt_iff_mem inOrder member).mp smaller)
      | _ => simp [parts] at split

/-- A value without host objects has none, and any other one has a first one. -/
theorem noHost_or_firstHost (value : Value) (inOrder : value.Everywhere InOrder) :
    value.Everywhere NoHost ∨ ∃ object, value.FirstHost object := by
  induction value using induction_parts with
  | inherits value induction =>
      obtain ⟨here, inside⟩ := value.everywhere_iff_parts.mp inOrder
      cases hosted : value.host? with
      | some object =>
          cases value with
          | host other => exact .inr ⟨other, .here other⟩
          | _ => cases hosted
      | none =>
          rcases exists_first fun part member => induction part member (inside part member)
            with all | ⟨earlier, part, later, split, before, object, first⟩
          · exact .inl (everywhere_of_parts hosted all)
          · exact .inr ⟨object, (firstHost_iff here).mpr
              (.inr ⟨earlier, part, later, split, before, first⟩)⟩

theorem not_noHost_of_firstHost {value : Value} {object : Host}
    (first : value.FirstHost object) : ¬value.Everywhere NoHost := by
  induction first with
  | here object =>
      intro none
      cases none.here
  | item _ _ induction =>
      intro none
      apply induction
      exact ((everywhere_iff_parts _).mp none).2 _ (List.mem_append_right _ List.mem_cons_self)
  | entry member _ _ induction =>
      intro none
      apply induction
      exact ((everywhere_iff_parts _).mp none).2 _ (List.mem_map_of_mem member)

/-- There is one first host object at most. -/
theorem FirstHost.unique {value : Value} {object other : Host}
    (inOrder : value.Everywhere InOrder) (first : value.FirstHost object)
    (second : value.FirstHost other) : object = other := by
  induction value using induction_parts with
  | inherits value induction =>
      obtain ⟨here, inside⟩ := value.everywhere_iff_parts.mp inOrder
      rcases (firstHost_iff here).mp first with rfl | ⟨earlier, part, later, split, all, one⟩
      · cases second
        rfl
      · rcases (firstHost_iff here).mp second with rfl | ⟨before, item, after, same, every, two⟩
        · simp [parts] at split
        · cases first_unique (split.symm.trans same) all (not_noHost_of_firstHost one) every
            (not_noHost_of_firstHost two)
          have member : part ∈ value.parts := by simp [split]
          exact induction part member (inside part member) one two

end Value

/-- The refusal in which an attempt to write something ended. -/
def refusal? {α : Type} : Except Unwritable α → Option Unwritable
  | .ok _ => none
  | .error refusal => some refusal

theorem refusal?_eq_none_iff {α : Type} {attempt : Except Unwritable α} :
    refusal? attempt = none ↔ ∃ written, attempt = .ok written := by
  cases attempt <;> simp [refusal?]

theorem refusal?_eq_some_iff {α : Type} {attempt : Except Unwritable α}
    {refusal : Unwritable} : refusal? attempt = some refusal ↔ attempt = .error refusal := by
  cases attempt <;> simp [refusal?]

theorem refusal?_map {α β : Type} (change : α → β) (attempt : Except Unwritable α) :
    refusal? (attempt.map change) = refusal? attempt := by
  cases attempt <;> rfl

theorem refusal?_bind {α β γ : Type} (first : Except Unwritable α)
    (second : Except Unwritable β) (join : α → β → γ) :
    (refusal? do
      let left ← first
      let right ← second
      return join left right) = (refusal? first).or (refusal? second) := by
  cases first <;> cases second <;> rfl

/-- Whether a writer refuses nothing but host objects, and a value for the first of its
parts that it refuses. -/
structure Writes {α : Type} (write : Value → Except Unwritable α) : Prop where
  host : ∀ object, refusal? (write (.host object)) = some ⟨object.typeName⟩
  inside : ∀ value, Value.NoHost value →
    refusal? (write value) = value.parts.findSome? fun part => refusal? (write part)

namespace Writes

variable {α : Type} {write : Value → Except Unwritable α}

/-- Nothing but a host object keeps a value from being written. -/
theorem refusal?_eq_none_iff (writes : Writes write) (value : Value) :
    refusal? (write value) = none ↔ value.Everywhere Value.NoHost := by
  induction value using Value.induction_parts with
  | inherits value induction =>
      rw [value.everywhere_iff_parts]
      by_cases hosted : Value.NoHost value
      · rw [writes.inside value hosted, List.findSome?_eq_none_iff, and_iff_right hosted]
        exact forall₂_congr induction
      · cases value with
        | host object => simp [writes.host, hosted]
        | _ => exact absurd rfl hosted

/-- The first host object is the one for which a value is refused. -/
theorem refusal?_of_firstHost (writes : Writes write) {value : Value} {object : Host}
    (inOrder : value.Everywhere Value.InOrder) (first : value.FirstHost object) :
    refusal? (write value) = some ⟨object.typeName⟩ := by
  induction value using Value.induction_parts with
  | inherits value induction =>
      obtain ⟨here, inside⟩ := value.everywhere_iff_parts.mp inOrder
      rcases (Value.firstHost_iff here).mp first with
        rfl | ⟨earlier, part, later, split, none, one⟩
      · exact writes.host object
      · have member : part ∈ value.parts := by simp [split]
        have hosted : Value.NoHost value := by
          cases value with
          | host other => simp [Value.parts] at split
          | _ => rfl
        rw [writes.inside value hosted, split, List.findSome?_append,
          List.findSome?_eq_none_iff.mpr fun other found =>
            (writes.refusal?_eq_none_iff other).mpr (none other found), Option.none_or,
          List.findSome?_cons, induction part member (inside part member) one]

end Writes

end SlotRecord
