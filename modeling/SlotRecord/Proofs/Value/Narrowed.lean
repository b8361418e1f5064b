import SlotRecord.Proofs.Number
import SlotRecord.Proofs.Value.Equality
import SlotRecord.Proofs.Value.Forms
import SlotRecord.Value.Render

/-!
# What the form that is read back keeps

Changing the variant of an integer shows neither in equality nor in the text of
a value. Only NaN is not equal to itself.
-/

namespace SlotRecord

namespace Number

theorem toInt_ofInt_of_lt {value : Nat} (bounded : value < 2 ^ 63) :
    (Int64.ofInt value).toInt = value :=
  Int64.toInt_ofInt_of_le (by omega) (by omega)

theorem toInt?_narrowed (number : Number) : number.narrowed.toInt? = number.toInt? := by
  cases number with
  | unsigned value =>
      rw [narrowed, ofUInt64]
      split
      · rename_i fits
        rw [toInt?, toInt_ofInt_of_lt fits]
        rfl
      · rfl
  | _ => rfl

theorem render_narrowed (number : Number) : number.narrowed.render = number.render := by
  cases number with
  | unsigned value =>
      rw [narrowed, ofUInt64]
      split
      · rename_i fits
        rw [render, toInt_ofInt_of_lt fits, intText, if_neg (by omega)]
        rfl
      · rfl
  | _ => rfl

theorem equal_narrowed {number : Number} (finite : Value.Finite (.number number)) :
    number.narrowed.equal number = true := by
  cases number with
  | signed value =>
      rw [equal_iff_toInt? (by simp)]
      exact ⟨value.toInt, rfl, rfl⟩
  | unsigned value =>
      rw [equal_iff_toInt? (by simp), toInt?_narrowed]
      exact ⟨value.toNat, rfl, rfl⟩
  | real x =>
      apply Binary64.equal_self
      exact Binary64.isNaN_of_isFinite finite

end Number

namespace Value

mutual

/-- A value without NaN is equal to the form in which it is read back. -/
theorem equal_narrowed {value : Value} (finite : value.Everywhere Finite) :
    value.narrowed.equal value = true := by
  cases value with
  | null => rfl
  | bool value => exact equal_bool.mpr rfl
  | number value =>
      exact equal_number.mpr ⟨value, rfl, Number.equal_narrowed finite.here⟩
  | text value => exact equal_text.mpr rfl
  | list items =>
      simp only [Everywhere] at finite
      rw [narrowed_list]
      exact equal_list.mpr ⟨items, rfl, equalItems_narrowed finite.2⟩
  | dict entries =>
      simp only [Everywhere] at finite
      rw [narrowed_dict]
      exact equal_dict.mpr ⟨entries, rfl, equalEntries_narrowed finite.2⟩
  | host object => exact equal_host.mpr ⟨object, rfl, rfl⟩

theorem equalItems_narrowed {items : List Value}
    (finite : EverywhereItems Finite items) :
    equalItems (items.map narrowed) items = true := by
  cases items with
  | nil => rfl
  | cons head tail =>
      have first := equal_narrowed finite.1
      have others := equalItems_narrowed finite.2
      rw [List.map_cons, equalItems, first, others]
      rfl

theorem equalEntries_narrowed {entries : List (String × Value)}
    (finite : EverywhereEntries Finite entries) :
    equalEntries (entries.map fun entry => (entry.1, entry.2.narrowed)) entries =
      true := by
  cases entries with
  | nil => rfl
  | cons entry tail =>
      obtain ⟨key, head⟩ := entry
      have first := equal_narrowed finite.1
      have others := equalEntries_narrowed finite.2
      rw [List.map_cons, equalEntries, first, others, beq_self_eq_true]
      rfl

end

mutual

/-- Numbers can be replaced by what is written the same. -/
theorem render_mapNumbers {change : Number → Value}
    (same : ∀ number : Number, (change number).render = .ok number.render) (value : Value) :
    (value.mapNumbers change).render = value.render := by
  cases value with
  | number value => exact same value
  | list items => rw [mapNumbers, render, render, renderItems_mapNumbers same]
  | dict entries => rw [mapNumbers, render, render, renderEntries_mapNumbers same]
  | _ => rfl

theorem renderItems_mapNumbers {change : Number → Value}
    (same : ∀ number : Number, (change number).render = .ok number.render)
    (items : List Value) :
    renderItems (mapNumbersItems change items) = renderItems items := by
  cases items with
  | nil => rfl
  | cons head tail =>
      rw [mapNumbersItems, renderItems, renderItems, render_mapNumbers same,
        renderItems_mapNumbers same]

theorem renderEntries_mapNumbers {change : Number → Value}
    (same : ∀ number : Number, (change number).render = .ok number.render)
    (entries : List (String × Value)) :
    renderEntries (mapNumbersEntries change entries) = renderEntries entries := by
  cases entries with
  | nil => rfl
  | cons entry tail =>
      obtain ⟨key, head⟩ := entry
      rw [mapNumbersEntries, renderEntries, renderEntries, render_mapNumbers same,
        renderEntries_mapNumbers same]

end

/-- The form in which a value is read back has the same text. -/
theorem render_narrowed (value : Value) : value.narrowed.render = value.render := by
  apply render_mapNumbers
  intro number
  exact congrArg Except.ok (Number.render_narrowed number)

end Value

end SlotRecord
