import Mathlib.Data.List.Forall2

/-!
# First elements

A list is gone through up to the first element at which to stop. Either there is none, or
it splits the list, in one way only. What is done element by element and may fail stops at
the first element where it does.
-/

namespace SlotRecord

variable {α : Type}

/-- Where each element passes or is one to stop at, all pass or there is a first one to
stop at. -/
theorem exists_first {passed stops : α → Prop} {items : List α}
    (each : ∀ item ∈ items, passed item ∨ stops item) :
    (∀ item ∈ items, passed item) ∨ ∃ earlier item later, items = earlier ++ item :: later ∧
      (∀ other ∈ earlier, passed other) ∧ stops item := by
  induction items with
  | nil => exact .inl (by simp)
  | cons head tail induction =>
      rcases each head List.mem_cons_self with first | stop
      · rcases induction fun item member => each item (List.mem_cons_of_mem _ member) with
          all | ⟨earlier, item, later, rfl, before, stop⟩
        · exact .inl (List.forall_mem_cons.mpr ⟨first, all⟩)
        · exact .inr ⟨head :: earlier, item, later, rfl,
            List.forall_mem_cons.mpr ⟨first, before⟩, stop⟩
      · exact .inr ⟨[], head, tail, rfl, by simp, stop⟩

/-- A list is split in one way only at the first of its elements that does not pass. -/
theorem first_unique {passed : α → Prop} {earlier before later after : List α}
    {item other : α} (same : earlier ++ item :: later = before ++ other :: after)
    (all : ∀ element ∈ earlier, passed element) (stops : ¬passed item)
    (every : ∀ element ∈ before, passed element) (halts : ¬passed other) : item = other := by
  induction earlier generalizing before with
  | nil =>
      cases before with
      | nil => exact (List.cons.inj same).1
      | cons head tail =>
          cases same
          exact absurd (every item List.mem_cons_self) stops
  | cons head tail induction =>
      cases before with
      | nil =>
          cases same
          exact absurd (all other List.mem_cons_self) halts
      | cons first rest =>
          exact induction (List.cons.inj same).2 (List.forall_mem_cons.mp all).2
            (List.forall_mem_cons.mp every).2

section

variable {β ε : Type}

theorem map_eq_ok_iff {change : α → β} {attempt : Except ε α} {result : β} :
    attempt.map change = .ok result ↔ ∃ found, attempt = .ok found ∧ change found = result := by
  cases attempt <;> simp [Except.map]

theorem exists_map_eq_ok_iff {change : α → β} {attempt : Except ε α} :
    (∃ result, attempt.map change = .ok result) ↔ ∃ found, attempt = .ok found := by
  cases attempt <;> simp [Except.map]

theorem map_eq_error_iff {change : α → β} {attempt : Except ε α} {fault : ε} :
    attempt.map change = .error fault ↔ attempt = .error fault := by
  cases attempt <;> simp [Except.map]

variable {step : α → Except ε β}

theorem mapM_cons_eq_ok_iff {head : α} {tail : List α} {results : List β} :
    (head :: tail).mapM step = .ok results ↔ ∃ first rest, step head = .ok first ∧
      tail.mapM step = .ok rest ∧ results = first :: rest := by
  cases first : step head <;> cases rest : tail.mapM step <;>
    simp [List.mapM_cons, first, rest, bind, Except.bind, pure, Except.pure, eq_comm]

theorem mapM_eq_ok_iff {items : List α} {results : List β} :
    items.mapM step = .ok results ↔
      List.Forall₂ (fun item result => step item = .ok result) items results := by
  induction items generalizing results with
  | nil => simp [List.mapM_nil, pure, Except.pure, eq_comm]
  | cons head tail induction =>
      rw [mapM_cons_eq_ok_iff, List.forall₂_cons_left_iff]
      simp only [induction]

theorem exists_mapM_eq_ok_iff {items : List α} :
    (∃ results, items.mapM step = .ok results) ↔
      ∀ item ∈ items, ∃ result, step item = .ok result := by
  induction items with
  | nil => exact iff_of_true ⟨[], rfl⟩ (List.forall_mem_nil _)
  | cons head tail induction =>
      rw [List.forall_mem_cons, ← induction]
      constructor
      · rintro ⟨results, done⟩
        obtain ⟨first, rest, here, inside, _⟩ := mapM_cons_eq_ok_iff.mp done
        exact ⟨⟨first, here⟩, rest, inside⟩
      · rintro ⟨⟨first, here⟩, rest, inside⟩
        exact ⟨first :: rest, mapM_cons_eq_ok_iff.mpr ⟨first, rest, here, inside, rfl⟩⟩

theorem mapM_of_error {earlier later : List α} {item : α} {fault : ε}
    (before : ∀ other ∈ earlier, ∃ result, step other = .ok result)
    (failed : step item = .error fault) :
    (earlier ++ item :: later).mapM step = .error fault := by
  induction earlier with
  | nil => simp [List.mapM_cons, failed, bind, Except.bind]
  | cons head tail induction =>
      obtain ⟨⟨first, done⟩, inside⟩ := List.forall_mem_cons.mp before
      simp [List.mapM_cons, done, induction inside, bind, Except.bind]

/-- What is done element by element fails as it does at the first element where it does. -/
theorem mapM_eq_error_iff {items : List α} {fault : ε} :
    items.mapM step = .error fault ↔ ∃ earlier item later, items = earlier ++ item :: later ∧
      (∀ other ∈ earlier, ∃ result, step other = .ok result) ∧ step item = .error fault := by
  constructor
  · intro failed
    have each : ∀ item ∈ items, (∃ result, step item = .ok result) ∨
        ∃ other, step item = .error other := by
      intro item _
      cases step item with
      | ok result => exact .inl ⟨result, rfl⟩
      | error other => exact .inr ⟨other, rfl⟩
    rcases exists_first each with all | ⟨earlier, item, later, rfl, before, other, stopped⟩
    · obtain ⟨results, done⟩ := exists_mapM_eq_ok_iff.mpr all
      cases done.symm.trans failed
    · cases (mapM_of_error before stopped).symm.trans failed
      exact ⟨earlier, item, later, rfl, before, stopped⟩
  · rintro ⟨earlier, item, later, rfl, before, stopped⟩
    exact mapM_of_error before stopped

end

end SlotRecord
