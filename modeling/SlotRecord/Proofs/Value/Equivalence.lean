import SlotRecord.Proofs.Denotation
import SlotRecord.Proofs.Value.Equality
import SlotRecord.Proofs.Value.Everywhere
import SlotRecord.Record.Basic

/-!
# Equality as a partial equivalence

Equality of numbers says that they denote the same, so it is symmetric and
transitive, and a number is equal to itself unless it denotes nothing. All of this
passes from numbers to lists and dictionaries of any shape and to records.
-/

namespace SlotRecord

namespace Number

variable {first second third : Number}

theorem equal_symm (same : first.equal second = true) : second.equal first = true := by
  rw [equal_iff_denotation?] at same ⊢
  obtain ⟨denoted, left, right⟩ := same
  exact ⟨denoted, right, left⟩

theorem equal_trans (same : first.equal second = true)
    (next : second.equal third = true) : first.equal third = true := by
  rw [equal_iff_denotation?] at same next ⊢
  obtain ⟨denoted, left, middle⟩ := same
  obtain ⟨other, found, right⟩ := next
  have one : denoted = other := Option.some.inj (middle.symm.trans found)
  exact ⟨denoted, left, one ▸ right⟩

theorem equal_self_iff (number : Number) :
    number.equal number = true ↔ number.isNaN = false := by
  rw [equal_iff_denotation?, ← Bool.not_eq_true, ← denotation?_eq_none_iff]
  simp only [and_self]
  exact Option.ne_none_iff_exists'.symm

end Number

namespace Value

/-- A value that is not NaN. -/
def NotNaN : Value → Prop
  | .number value => value.isNaN = false
  | _ => True

instance : DecidablePred NotNaN
  | .number value => inferInstanceAs (Decidable (value.isNaN = false))
  | .null | .bool _ | .text _ | .list _ | .dict _ | .host _ => .isTrue trivial

mutual

theorem equal_symm {first second : Value} (same : first.equal second = true) :
    second.equal first = true := by
  cases first with
  | null => rw [equal_null.mp same, equal_null]
  | bool value => rw [equal_bool.mp same, equal_bool]
  | number value =>
      obtain ⟨found, rfl, numbers⟩ := equal_number.mp same
      exact equal_number.mpr ⟨value, rfl, Number.equal_symm numbers⟩
  | text value => rw [equal_text.mp same, equal_text]
  | list items =>
      obtain ⟨found, rfl, inside⟩ := equal_list.mp same
      exact equal_list.mpr ⟨items, rfl, equalItems_symm inside⟩
  | dict entries =>
      obtain ⟨found, rfl, inside⟩ := equal_dict.mp same
      exact equal_dict.mpr ⟨entries, rfl, equalEntries_symm inside⟩
  | host object =>
      obtain ⟨found, rfl, identity⟩ := equal_host.mp same
      exact equal_host.mpr ⟨object, rfl, identity.symm⟩

theorem equalItems_symm {firsts seconds : List Value}
    (same : equalItems firsts seconds = true) : equalItems seconds firsts = true := by
  cases firsts with
  | nil =>
      cases seconds with
      | nil => rfl
      | cons head tail => cases same
  | cons head tail =>
      obtain ⟨first, rest, rfl, here, later⟩ := equalItems_cons.mp same
      exact equalItems_cons.mpr
        ⟨head, tail, rfl, equal_symm here, equalItems_symm later⟩

theorem equalEntries_symm {firsts seconds : List (String × Value)}
    (same : equalEntries firsts seconds = true) :
    equalEntries seconds firsts = true := by
  cases firsts with
  | nil =>
      cases seconds with
      | nil => rfl
      | cons head tail => cases same
  | cons entry tail =>
      obtain ⟨key, head⟩ := entry
      obtain ⟨first, rest, rfl, here, later⟩ := equalEntries_cons.mp same
      exact equalEntries_cons.mpr
        ⟨head, tail, rfl, equal_symm here, equalEntries_symm later⟩

end

mutual

theorem equal_trans {first second third : Value} (same : first.equal second = true)
    (next : second.equal third = true) : first.equal third = true := by
  cases first with
  | null =>
      rw [equal_null.mp same] at next
      exact next
  | bool value =>
      rw [equal_bool.mp same] at next
      exact next
  | number value =>
      obtain ⟨middle, rfl, left⟩ := equal_number.mp same
      obtain ⟨last, rfl, right⟩ := equal_number.mp next
      exact equal_number.mpr ⟨last, rfl, Number.equal_trans left right⟩
  | text value =>
      rw [equal_text.mp same] at next
      exact next
  | list items =>
      obtain ⟨middle, rfl, left⟩ := equal_list.mp same
      obtain ⟨last, rfl, right⟩ := equal_list.mp next
      exact equal_list.mpr ⟨last, rfl, equalItems_trans left right⟩
  | dict entries =>
      obtain ⟨middle, rfl, left⟩ := equal_dict.mp same
      obtain ⟨last, rfl, right⟩ := equal_dict.mp next
      exact equal_dict.mpr ⟨last, rfl, equalEntries_trans left right⟩
  | host object =>
      obtain ⟨middle, rfl, left⟩ := equal_host.mp same
      obtain ⟨last, rfl, right⟩ := equal_host.mp next
      exact equal_host.mpr ⟨last, rfl, left.trans right⟩

theorem equalItems_trans {firsts seconds thirds : List Value}
    (same : equalItems firsts seconds = true)
    (next : equalItems seconds thirds = true) : equalItems firsts thirds = true := by
  cases firsts with
  | nil =>
      cases seconds with
      | nil => exact next
      | cons head tail => cases same
  | cons head tail =>
      obtain ⟨second, seconds, rfl, left, leftLater⟩ := equalItems_cons.mp same
      obtain ⟨third, thirds, rfl, right, rightLater⟩ := equalItems_cons.mp next
      exact equalItems_cons.mpr ⟨third, thirds, rfl, equal_trans left right,
        equalItems_trans leftLater rightLater⟩

theorem equalEntries_trans {firsts seconds thirds : List (String × Value)}
    (same : equalEntries firsts seconds = true)
    (next : equalEntries seconds thirds = true) :
    equalEntries firsts thirds = true := by
  cases firsts with
  | nil =>
      cases seconds with
      | nil => exact next
      | cons head tail => cases same
  | cons entry tail =>
      obtain ⟨key, head⟩ := entry
      obtain ⟨second, seconds, rfl, left, leftLater⟩ := equalEntries_cons.mp same
      obtain ⟨third, thirds, rfl, right, rightLater⟩ := equalEntries_cons.mp next
      exact equalEntries_cons.mpr ⟨third, thirds, rfl, equal_trans left right,
        equalEntries_trans leftLater rightLater⟩

end

mutual

/-- A value is equal to itself exactly if there is no NaN anywhere inside it. -/
theorem equal_self_iff (value : Value) :
    value.equal value = true ↔ value.Everywhere NotNaN := by
  cases value with
  | number value => exact Number.equal_self_iff value
  | list items =>
      rw [equal, equalItems_self_iff, Everywhere]
      exact (and_iff_right trivial).symm
  | dict entries =>
      rw [equal, equalEntries_self_iff, Everywhere]
      exact (and_iff_right trivial).symm
  | _ => simp [equal, Everywhere, NotNaN]

theorem equalItems_self_iff (items : List Value) :
    equalItems items items = true ↔ EverywhereItems NotNaN items := by
  cases items with
  | nil => simp [equalItems, EverywhereItems]
  | cons head tail =>
      rw [equalItems, Bool.and_eq_true, equal_self_iff head, equalItems_self_iff tail,
        EverywhereItems]

theorem equalEntries_self_iff (entries : List (String × Value)) :
    equalEntries entries entries = true ↔ EverywhereEntries NotNaN entries := by
  cases entries with
  | nil => simp [equalEntries, EverywhereEntries]
  | cons entry tail =>
      obtain ⟨key, head⟩ := entry
      rw [equalEntries, beq_self_eq_true, Bool.true_and, Bool.and_eq_true,
        equal_self_iff head, equalEntries_self_iff tail, EverywhereEntries]

end

end Value

/-- Numbers are equal exactly if they denote one rational number or one infinity,
which only NaN does not. Equality of values and of records is symmetric and
transitive, and what is not equal to itself has a NaN inside. -/
theorem equality_exact :
    (∀ number : Number, number.isNaN = true ↔ number.denotation? = none) ∧
    (∀ first second : Number, first.equal second = true ↔
      ∃ denoted, first.denotation? = some denoted ∧
        second.denotation? = some denoted) ∧
    (∀ first second : Value, first.equal second = second.equal first) ∧
    (∀ first second third : Value, first.equal second = true →
      second.equal third = true → first.equal third = true) ∧
    (∀ value : Value, value.equal value = true ↔ value.Everywhere Value.NotNaN) ∧
    (∀ first second : Record, first.equal second = second.equal first) ∧
    (∀ first second third : Record, first.equal second = true →
      second.equal third = true → first.equal third = true) ∧
    (∀ record : Record, record.equal record = true ↔
      ∀ value ∈ record.visible, value.Everywhere Value.NotNaN) := by
  refine ⟨?_, Number.equal_iff_denotation?, ?_, ?_, Value.equal_self_iff, ?_, ?_, ?_⟩
  · intro number
    exact number.denotation?_eq_none_iff.symm
  · intro first second
    exact Bool.eq_iff_iff.mpr ⟨Value.equal_symm, Value.equal_symm⟩
  · intro first second third
    exact Value.equal_trans
  · intro first second
    exact Bool.eq_iff_iff.mpr ⟨Value.equalItems_symm, Value.equalItems_symm⟩
  · intro first second third
    exact Value.equalItems_trans
  · intro record
    rw [Record.equal, Value.equalItems_self_iff, Value.everywhereItems_iff]

/-- The power of two above all signed integers, in lists of an unsigned and a
floating-point number. -/
theorem equality_exact_power :
    (Value.list [.number (.unsigned 0x8000000000000000), .number (.signed 0)]).equal
      (.list [.number (.real ⟨0x43e0000000000000⟩),
        .number (.real ⟨0x8000000000000000⟩)]) = true := by
  obtain ⟨_, _, _, transitive, _⟩ := equality_exact
  apply transitive _ (.list [.number (.real ⟨0x43e0000000000000⟩),
    .number (.unsigned 0)])
  · decide +kernel
  · decide +kernel

end SlotRecord
