import SlotRecord.Proofs.Json.Decoding
import SlotRecord.Proofs.Value.Narrowed

/-!
# Texts of numbers read back

The text of a number tells the number, but for the variant of an integer and the bits
of NaN: a finite value keeps a point or an exponent, so it is never taken for an
integer, and its shortest digits denote it alone.
-/

namespace SlotRecord

open Json

/-- The NaN that stands for all of them. -/
def Binary64.nan : Binary64 := ⟨0x7ff8000000000000⟩

def Binary64.infinity (negative : Bool) : Binary64 := ofMagnitude negative infinityMagnitude

theorem Binary64.eq_infinity {value : Binary64} (infinite : ¬value.isFinite = true)
    (number : value.isNaN = false) : value = infinity value.negative := by
  simp only [isFinite, isNaN, decide_eq_true_eq, decide_eq_false_iff_not] at infinite number
  have largest : value.magnitude = infinityMagnitude := by omega
  rw [infinity, ← largest, ofMagnitude_self]

namespace Number

/-- What a number's text tells: an integer without its variant, and NaN without its bits. -/
def shown : Number → Number
  | .unsigned value => .ofUInt64 value
  | .real value => .real (if value.isNaN then Binary64.nan else value)
  | other => other

/-- What is not finite is written as a word. -/
def readWord : List Char → Option (Number × List Char)
  | 'n' :: 'a' :: 'n' :: rest => some (.real Binary64.nan, rest)
  | 'i' :: 'n' :: 'f' :: rest => some (.real (Binary64.infinity false), rest)
  | '-' :: 'i' :: 'n' :: 'f' :: rest => some (.real (Binary64.infinity true), rest)
  | _ => none

/-- The number that a text begins with, and what follows it. -/
def read (text : List Char) : Option (Number × List Char) :=
  match Numeral.read text with
  | some (numeral, rest) =>
      (Quantity.ofNumeral? numeral).map fun quantity => (.ofQuantity quantity, rest)
  | none => readWord text

theorem render_of_numeralIn? {number : Number} {numeral : Numeral}
    (written : number.numeralIn? style = some numeral) : number.render = numeral.text 2 := by
  cases number with
  | signed value =>
      cases written
      simp [render, intText, Numeral.text]
  | unsigned value =>
      cases written
      simp [render, Numeral.text]
  | real value =>
      rw [numeralIn?] at written
      split at written
      · rename_i finite
        cases written
        rw [render, renderReal, Binary64.isNaN_of_isFinite finite, if_pos finite]
        rfl
      · cases written

theorem shown_of_numeralIn? {number : Number} {numeral : Numeral}
    (written : number.numeralIn? style = some numeral) : number.shown = number.narrowed := by
  cases number with
  | real value =>
      rw [numeralIn?] at written
      split at written
      · rename_i finite
        rw [shown, Binary64.isNaN_of_isFinite finite]
        rfl
      · cases written
  | _ => rfl

/-- Only what is not finite is written as a word. -/
theorem infinite_of_numeralIn?_eq_none {number : Number}
    (word : number.numeralIn? style = none) :
    ∃ value : Binary64, number = .real value ∧ ¬value.isFinite = true := by
  cases number with
  | signed value => cases word
  | unsigned value => cases word
  | real value =>
      rw [numeralIn?] at word
      split at word
      · cases word
      · rename_i infinite
        exact ⟨value, rfl, infinite⟩

theorem read_render_append {rest : List Char} (ends : Numeral.Ends rest) (number : Number) :
    read (number.render ++ rest) = some (number.shown, rest) := by
  cases written : number.numeralIn? style with
  | some numeral =>
      obtain ⟨quantity, denoted, same⟩ := ofQuantity_of_numeralIn? style rfl written
      rw [render_of_numeralIn? written, read, Numeral.read_text_append ends,
        shown_of_numeralIn? written]
      dsimp only
      rw [denoted, ← same]
      rfl
  | none =>
      obtain ⟨value, rfl, infinite⟩ := infinite_of_numeralIn?_eq_none written
      cases nan : value.isNaN with
      | true =>
          rw [render, renderReal, shown, nan]
          rfl
      | false =>
          have word := Binary64.eq_infinity infinite nan
          rw [render, renderReal, shown, nan, if_neg infinite]
          cases negative : value.negative with
          | true =>
              rw [negative] at word
              rw [word]
              rfl
          | false =>
              rw [negative] at word
              rw [word]
              rfl

theorem render_shown (number : Number) : number.shown.render = number.render := by
  cases number with
  | signed value => rfl
  | unsigned value => exact render_narrowed (.unsigned value)
  | real value =>
      rw [shown, render, render]
      split
      · rename_i nan
        rw [renderReal, renderReal, if_pos nan]
        rfl
      · rfl

end Number

end SlotRecord
