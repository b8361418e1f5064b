import SlotRecord.Proofs.Value.Everywhere

/-!
# Forms of values that are read back

No format keeps the variant of an integer: whatever fits the signed one is read
as signed. JSON has no number that is not finite, and null stands for it. All
else is read back as it was written.
-/

namespace SlotRecord

/-- A number in the variant in which it is read back. -/
def Number.narrowed : Number → Number
  | .unsigned value => .ofUInt64 value
  | other => other

/-- A number as it is read back from JSON. -/
def Number.jsonForm : Number → Value
  | .real value => if value.isFinite then .number (.real value) else .null
  | other => .number other.narrowed

theorem Number.ofUInt64_ofNat {value : Nat} (bounded : value < 2 ^ 63) :
    ofUInt64 (UInt64.ofNat value) = .signed (Int64.ofInt value) := by
  have kept : (UInt64.ofNat value).toNat = value := by
    rw [UInt64.toNat_ofNat']
    omega
  rw [ofUInt64, kept, if_pos bounded]

namespace Value

/-- A value with all integers that fit it in the signed variant. -/
def narrowed : Value → Value := mapNumbers fun value => .number value.narrowed

/-- A value as it is read back from JSON. -/
def jsonForm : Value → Value := mapNumbers Number.jsonForm

theorem narrowed_list (items : List Value) :
    (Value.list items).narrowed = .list (items.map narrowed) :=
  congrArg Value.list (mapNumbersItems_eq_map _ items)

theorem narrowed_dict (entries : List (String × Value)) :
    (Value.dict entries).narrowed =
      .dict (entries.map fun entry => (entry.1, entry.2.narrowed)) :=
  congrArg Value.dict (mapNumbersEntries_eq_map _ entries)

theorem jsonForm_list (items : List Value) :
    (Value.list items).jsonForm = .list (items.map jsonForm) :=
  congrArg Value.list (mapNumbersItems_eq_map _ items)

theorem jsonForm_dict (entries : List (String × Value)) :
    (Value.dict entries).jsonForm =
      .dict (entries.map fun entry => (entry.1, entry.2.jsonForm)) :=
  congrArg Value.dict (mapNumbersEntries_eq_map _ entries)

theorem jsonForm_eq_narrowed_of_finite {value : Number}
    (finite : Finite (.number value)) :
    value.jsonForm = .number value.narrowed := by
  cases value with
  | real x =>
      have isFinite : x.isFinite = true := finite
      simp [Number.jsonForm, Number.narrowed, isFinite]
  | _ => rfl

/-- A value that is no unsigned integer that fits the signed variant. -/
def Settled : Value → Prop
  | .number (.unsigned value) => 2 ^ 63 ≤ value.toNat
  | _ => True

instance : DecidablePred Settled
  | .number (.unsigned value) => inferInstanceAs (Decidable (2 ^ 63 ≤ value.toNat))
  | .number (.signed _) | .number (.real _) => .isTrue trivial
  | .null | .bool _ | .text _ | .list _ | .dict _ | .host _ => .isTrue trivial

theorem settled_ofUInt64 (value : UInt64) : Settled (.number (.ofUInt64 value)) := by
  rw [Number.ofUInt64]
  split
  · trivial
  · rename_i large
    exact Nat.le_of_not_lt large

theorem finite_ofUInt64 (value : UInt64) : Finite (.number (.ofUInt64 value)) := by
  rw [Number.ofUInt64]
  split
  · trivial
  · trivial

theorem narrowed_of_settled {number : Number} (settled : Settled (.number number)) :
    number.narrowed = number := by
  cases number with
  | unsigned value => exact if_neg (Nat.not_lt.mpr settled)
  | _ => rfl

/-- A value whose integers are in the signed variant wherever they fit it is in the
form in which it is read back. -/
theorem narrowed_eq_self {value : Value} (settled : value.Everywhere Settled) :
    value.narrowed = value := by
  apply Eq.trans _ (mapNumbers_number value)
  apply mapNumbers_congr _ settled
  intro number here
  exact congrArg Value.number (narrowed_of_settled here)

/-- Without infinite values and NaN the two forms are the same. -/
theorem jsonForm_eq_narrowed {value : Value} (finite : value.Everywhere Finite) :
    value.jsonForm = value.narrowed := by
  apply mapNumbers_congr _ finite
  intro number here
  exact jsonForm_eq_narrowed_of_finite here

end Value

end SlotRecord
