import SlotRecord.Value.Basic

/-!
# Values and what is inside them

A property holds everywhere in a value if the value and all values inside it
have it. One such property is that dictionaries are in the order of their keys:
all operations keep it, though the type of values does not state it. Numbers can
be replaced throughout a value, which leaves its shape and its keys as they are.
-/

namespace SlotRecord

namespace Value

mutual

/-- Whether a value and all values inside it have a property. -/
def Everywhere (property : Value → Prop) : Value → Prop
  | .list items => property (.list items) ∧ EverywhereItems property items
  | .dict entries => property (.dict entries) ∧ EverywhereEntries property entries
  | other => property other

def EverywhereItems (property : Value → Prop) : List Value → Prop
  | [] => True
  | head :: tail => head.Everywhere property ∧ EverywhereItems property tail

def EverywhereEntries (property : Value → Prop) : List (String × Value) → Prop
  | [] => True
  | (_, head) :: tail => head.Everywhere property ∧ EverywhereEntries property tail

end

mutual

/-- A value with all its numbers replaced, those inside it included. -/
def mapNumbers (change : Number → Value) : Value → Value
  | .number value => change value
  | .list items => .list (mapNumbersItems change items)
  | .dict entries => .dict (mapNumbersEntries change entries)
  | other => other

def mapNumbersItems (change : Number → Value) : List Value → List Value
  | [] => []
  | head :: tail => head.mapNumbers change :: mapNumbersItems change tail

def mapNumbersEntries (change : Number → Value) :
    List (String × Value) → List (String × Value)
  | [] => []
  | (key, head) :: tail =>
      (key, head.mapNumbers change) :: mapNumbersEntries change tail

end

/-- The values directly inside a list or a dictionary. -/
def parts : Value → List Value
  | .list items => items
  | .dict entries => entries.map Prod.snd
  | _ => []

/-- A value that is no host object. -/
def NoHost (value : Value) : Prop := value.host? = none

/-- A value that is no dictionary out of order. -/
def InOrder : Value → Prop
  | .dict entries => Dict.Ordered entries
  | _ => True

/-- A value that is neither NaN nor infinite. -/
def Finite : Value → Prop
  | .number (.real x) => x.isFinite = true
  | _ => True

instance : DecidablePred NoHost := fun value =>
  inferInstanceAs (Decidable (value.host? = none))

instance : DecidablePred InOrder
  | .dict entries => inferInstanceAs (Decidable (List.Pairwise _ entries))
  | .null | .bool _ | .number _ | .text _ | .list _ | .host _ => .isTrue trivial

instance : DecidablePred Finite
  | .number (.real x) => inferInstanceAs (Decidable (x.isFinite = true))
  | .number (.signed _) | .number (.unsigned _) => .isTrue trivial
  | .null | .bool _ | .text _ | .list _ | .dict _ | .host _ => .isTrue trivial

section

variable {property : Value → Prop}

section

variable [DecidablePred property]

mutual

def decideEverywhere : (value : Value) → Decidable (value.Everywhere property)
  | .list items =>
      have := decideEverywhereItems items
      inferInstanceAs (Decidable (property _ ∧ EverywhereItems property items))
  | .dict entries =>
      have := decideEverywhereEntries entries
      inferInstanceAs (Decidable (property _ ∧ EverywhereEntries property entries))
  | .null => inferInstanceAs (Decidable (property _))
  | .bool _ => inferInstanceAs (Decidable (property _))
  | .number _ => inferInstanceAs (Decidable (property _))
  | .text _ => inferInstanceAs (Decidable (property _))
  | .host _ => inferInstanceAs (Decidable (property _))

def decideEverywhereItems :
    (items : List Value) → Decidable (EverywhereItems property items)
  | [] => .isTrue trivial
  | head :: tail =>
      have := decideEverywhere head
      have := decideEverywhereItems tail
      inferInstanceAs
        (Decidable (head.Everywhere property ∧ EverywhereItems property tail))

def decideEverywhereEntries :
    (entries : List (String × Value)) → Decidable (EverywhereEntries property entries)
  | [] => .isTrue trivial
  | (_, head) :: tail =>
      have := decideEverywhere head
      have := decideEverywhereEntries tail
      inferInstanceAs
        (Decidable (head.Everywhere property ∧ EverywhereEntries property tail))

end

instance : DecidablePred (Everywhere property) := decideEverywhere

end

theorem everywhereItems_iff (items : List Value) :
    EverywhereItems property items ↔ ∀ item ∈ items, item.Everywhere property := by
  induction items with
  | nil => simp [EverywhereItems]
  | cons head tail induction => simp [EverywhereItems, induction]

theorem everywhereEntries_iff (entries : List (String × Value)) :
    EverywhereEntries property entries ↔
      ∀ entry ∈ entries, entry.2.Everywhere property := by
  induction entries with
  | nil => simp [EverywhereEntries]
  | cons head tail induction => simp [EverywhereEntries, induction]

theorem Everywhere.here {value : Value} (everywhere : value.Everywhere property) :
    property value := by
  cases value with
  | list items =>
      rw [Everywhere] at everywhere
      exact everywhere.1
  | dict entries =>
      rw [Everywhere] at everywhere
      exact everywhere.1
  | _ =>
      simp only [Everywhere] at everywhere
      exact everywhere

theorem everywhere_of_parts {value : Value}
    (here : property value) (inside : ∀ part ∈ value.parts, part.Everywhere property) :
    value.Everywhere property := by
  cases value with
  | list items =>
      constructor
      · exact here
      · exact (everywhereItems_iff items).mpr inside
  | dict entries =>
      constructor
      · exact here
      · apply (everywhereEntries_iff entries).mpr
        intro entry member
        exact inside entry.2 (List.mem_map_of_mem member)
  | _ => exact here

theorem everywhere_iff_parts (value : Value) :
    value.Everywhere property ↔
      property value ∧ ∀ part ∈ value.parts, part.Everywhere property := by
  constructor
  · intro everywhere
    refine ⟨everywhere.here, ?_⟩
    cases value with
    | list items =>
        rw [Everywhere, everywhereItems_iff] at everywhere
        exact everywhere.2
    | dict entries =>
        rw [Everywhere, everywhereEntries_iff] at everywhere
        exact List.forall_mem_map.mpr everywhere.2
    | _ => simp [parts]
  · rintro ⟨here, inside⟩
    exact everywhere_of_parts here inside

mutual

/-- What is inherited from the parts of a value holds of all values. -/
theorem induction_parts {motive : Value → Prop}
    (inherits : ∀ value, (∀ part ∈ value.parts, motive part) → motive value)
    (value : Value) : motive value := by
  apply inherits
  cases value with
  | list items => exact induction_items inherits items
  | dict entries => exact List.forall_mem_map.mpr (induction_entries inherits entries)
  | _ => simp [parts]

theorem induction_items {motive : Value → Prop}
    (inherits : ∀ value, (∀ part ∈ value.parts, motive part) → motive value)
    (items : List Value) : ∀ item ∈ items, motive item := by
  cases items with
  | nil => simp
  | cons head tail =>
      exact List.forall_mem_cons.mpr
        ⟨induction_parts inherits head, induction_items inherits tail⟩

theorem induction_entries {motive : Value → Prop}
    (inherits : ∀ value, (∀ part ∈ value.parts, motive part) → motive value)
    (entries : List (String × Value)) : ∀ entry ∈ entries, motive entry.2 := by
  cases entries with
  | nil => simp
  | cons entry tail =>
      obtain ⟨key, head⟩ := entry
      exact List.forall_mem_cons.mpr
        ⟨induction_parts inherits head, induction_entries inherits tail⟩

end

end

section

variable (change : Number → Value)

theorem mapNumbersItems_eq_map (items : List Value) :
    mapNumbersItems change items = items.map (mapNumbers change) := by
  induction items with
  | nil => simp [mapNumbersItems]
  | cons head tail induction => simp [mapNumbersItems, induction]

theorem mapNumbersEntries_eq_map (entries : List (String × Value)) :
    mapNumbersEntries change entries =
      entries.map fun entry => (entry.1, entry.2.mapNumbers change) := by
  induction entries with
  | nil => simp [mapNumbersEntries]
  | cons head tail induction => simp [mapNumbersEntries, induction]

end

theorem mapNumbers_number (value : Value) : value.mapNumbers .number = value := by
  induction value using induction_parts with
  | inherits value induction =>
      cases value with
      | list items =>
          have same : items.map (mapNumbers .number) = items.map id :=
            List.map_congr_left induction
          rw [mapNumbers, mapNumbersItems_eq_map, same, List.map_id]
      | dict entries =>
          have same : (entries.map fun entry => (entry.1, entry.2.mapNumbers .number)) =
              entries.map id := by
            apply List.map_congr_left
            intro entry member
            rw [induction entry.2 (List.mem_map_of_mem member)]
            rfl
          rw [mapNumbers, mapNumbersEntries_eq_map, same, List.map_id]
      | _ => rfl

/-- Two replacements that agree on numbers with a property agree on all values that
have it everywhere. -/
theorem mapNumbers_congr {property : Value → Prop} {change other : Number → Value}
    (same : ∀ number, property (.number number) → change number = other number)
    {value : Value} (everywhere : value.Everywhere property) :
    value.mapNumbers change = value.mapNumbers other := by
  induction value using induction_parts with
  | inherits value induction =>
      obtain ⟨here, inside⟩ := value.everywhere_iff_parts.mp everywhere
      have alike := fun part member => induction part member (inside part member)
      cases value with
      | number value => exact same value here
      | list items =>
          rw [mapNumbers, mapNumbers, mapNumbersItems_eq_map, mapNumbersItems_eq_map]
          exact congrArg Value.list (List.map_congr_left alike)
      | dict entries =>
          rw [mapNumbers, mapNumbers, mapNumbersEntries_eq_map, mapNumbersEntries_eq_map]
          apply congrArg Value.dict
          apply List.map_congr_left
          intro entry member
          rw [alike entry.2 (List.mem_map_of_mem member)]
      | _ => rfl

end Value

end SlotRecord
