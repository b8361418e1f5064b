import SlotRecord.Binary64.Basic

/-!
# Sign and magnitude

A floating-point value is its sign and its magnitude, and nothing else.
-/

namespace SlotRecord

namespace Binary64

theorem toNat_bits (x : Binary64) :
    x.bits.toNat = (if x.negative then 2 ^ 63 else 0) + x.magnitude := by
  have bounded := x.bits.toNat_lt
  by_cases high : 2 ^ 63 ≤ x.bits.toNat
  · simp only [negative, magnitude, high, decide_true, if_true]
    omega
  · simp only [negative, magnitude, high, decide_false, Bool.false_eq_true, if_false]
    omega

theorem ext_sign_magnitude {x y : Binary64} (sign : x.negative = y.negative)
    (magnitude : x.magnitude = y.magnitude) : x = y := by
  have bits : x.bits.toNat = y.bits.toNat := by
    rw [toNat_bits, toNat_bits, sign, magnitude]
  cases x
  cases y
  exact congrArg Binary64.mk (UInt64.toNat_inj.mp bits)

theorem ofMagnitude_self (x : Binary64) :
    ofMagnitude x.negative x.magnitude = x := by
  have bits := toNat_bits x
  cases sign : x.negative with
  | true =>
      rw [sign, if_pos rfl] at bits
      rw [ofMagnitude, if_pos rfl, ← bits, UInt64.ofNat_toNat]
  | false =>
      rw [sign, if_neg Bool.false_ne_true, Nat.zero_add] at bits
      rw [ofMagnitude, if_neg Bool.false_ne_true, ← bits, UInt64.ofNat_toNat]

theorem magnitude_lt_of_isFinite {x : Binary64} (finite : x.isFinite = true) :
    x.magnitude < infinityMagnitude := by
  simpa [isFinite] using finite

theorem magnitude_ofMagnitude (negative : Bool) {magnitude : Nat}
    (bounded : magnitude < 2 ^ 63) :
    (ofMagnitude negative magnitude).magnitude = magnitude := by
  rw [ofMagnitude, Binary64.magnitude, UInt64.toNat_ofNat']
  cases negative with
  | true =>
      rw [if_pos rfl]
      omega
  | false =>
      rw [if_neg Bool.false_ne_true]
      omega

theorem negative_ofMagnitude (negative : Bool) {magnitude : Nat}
    (bounded : magnitude < 2 ^ 63) :
    (ofMagnitude negative magnitude).negative = negative := by
  rw [ofMagnitude, Binary64.negative, UInt64.toNat_ofNat']
  cases negative with
  | true =>
      rw [if_pos rfl, decide_eq_true_eq]
      omega
  | false =>
      rw [if_neg Bool.false_ne_true, decide_eq_false_iff_not]
      omega

theorem isFinite_ofMagnitude (negative : Bool) {magnitude : Nat}
    (bounded : magnitude < infinityMagnitude) :
    (ofMagnitude negative magnitude).isFinite = true := by
  have representable : magnitude < 2 ^ 63 :=
    Nat.lt_trans bounded (by decide)
  rw [isFinite, magnitude_ofMagnitude negative representable]
  exact decide_eq_true bounded

end Binary64

end SlotRecord
