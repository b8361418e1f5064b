import SlotRecord.Value.Basic

/-!
# Equality of values, kind by kind

Only values of one kind are equal. What equality means for a kind can be read
off either side.
-/

namespace SlotRecord

namespace Value

variable {other : Value}

theorem equal_null : Value.null.equal other = true ↔ other = .null := by
  cases other <;> simp [equal]

theorem equal_bool {value : Bool} :
    (Value.bool value).equal other = true ↔ other = .bool value := by
  cases other <;> simp [equal]
  exact eq_comm

theorem equal_number {value : Number} :
    (Value.number value).equal other = true ↔
      ∃ found, other = .number found ∧ value.equal found = true := by
  cases other <;> simp [equal]

theorem equal_text {value : String} :
    (Value.text value).equal other = true ↔ other = .text value := by
  cases other <;> simp [equal]
  exact eq_comm

theorem equal_list {items : List Value} :
    (Value.list items).equal other = true ↔
      ∃ found, other = .list found ∧ equalItems items found = true := by
  cases other <;> simp [equal]

theorem equal_dict {entries : List (String × Value)} :
    (Value.dict entries).equal other = true ↔
      ∃ found, other = .dict found ∧ equalEntries entries found = true := by
  cases other <;> simp [equal]

theorem equal_host {object : Host} :
    (Value.host object).equal other = true ↔
      ∃ found, other = .host found ∧ object.identity = found.identity := by
  cases other <;> simp [equal]

theorem equalItems_cons {head : Value} {tail others : List Value} :
    equalItems (head :: tail) others = true ↔
      ∃ first rest, others = first :: rest ∧ head.equal first = true ∧
        equalItems tail rest = true := by
  cases others with
  | nil => simp [equalItems]
  | cons first rest =>
      rw [equalItems, Bool.and_eq_true]
      constructor
      · intro both
        exact ⟨first, rest, rfl, both⟩
      · rintro ⟨_, _, same, both⟩
        cases same
        exact both

theorem equalEntries_cons {key : String} {head : Value}
    {tail others : List (String × Value)} :
    equalEntries ((key, head) :: tail) others = true ↔
      ∃ first rest, others = (key, first) :: rest ∧ head.equal first = true ∧
        equalEntries tail rest = true := by
  cases others with
  | nil => simp [equalEntries]
  | cons entry rest =>
      obtain ⟨name, first⟩ := entry
      rw [equalEntries, Bool.and_eq_true, Bool.and_eq_true, beq_iff_eq]
      constructor
      · rintro ⟨⟨rfl, here⟩, later⟩
        exact ⟨first, rest, rfl, here, later⟩
      · rintro ⟨_, _, same, here, later⟩
        cases same
        exact ⟨⟨rfl, here⟩, later⟩

theorem length_eq_of_equalItems {firsts seconds : List Value}
    (same : equalItems firsts seconds = true) : firsts.length = seconds.length := by
  induction firsts generalizing seconds with
  | nil =>
      cases seconds with
      | nil => rfl
      | cons head tail => cases same
  | cons head tail induction =>
      obtain ⟨first, rest, rfl, _, later⟩ := equalItems_cons.mp same
      rw [List.length_cons, List.length_cons, induction later]

end Value

end SlotRecord
