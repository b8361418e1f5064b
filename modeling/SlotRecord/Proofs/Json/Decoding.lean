import SlotRecord.Json.Decode
import SlotRecord.Proofs.Decimal.Shortest
import SlotRecord.Proofs.Dict
import SlotRecord.Proofs.Json.Document
import SlotRecord.Proofs.Value.Forms

/-!
# Values of written documents

The document that is written for a value decodes to the form of the value in
JSON, as long as it nests no deeper than the budget.
-/

namespace SlotRecord

open Json

namespace FloatStyle

theorem isInteger_positionalNumeral (style : FloatStyle)
    (pointZero : style.pointZero = true) (negative : Bool) (decimal : Decimal) :
    (style.positionalNumeral negative decimal).isInteger = false := by
  by_cases integral : 0 ≤ decimal.exponent
  · simp [positionalNumeral, integral, Numeral.isInteger, integralFraction, pointZero,
      Digits.fixed]
  · have places : (-decimal.exponent).toNat ≠ 0 := by omega
    have digits :
        Digits.fixed (-decimal.exponent).toNat
          (decimal.digits % 10 ^ (-decimal.exponent).toNat) ≠ [] := by
      intro empty
      have length := congrArg List.length empty
      rw [Digits.length_fixed] at length
      exact places length
    simp [positionalNumeral, integral, Numeral.isInteger, digits]

theorem isInteger_scientificNumeral (negative : Bool) (digits : Nat) (power : Int) :
    (scientificNumeral negative digits power).isInteger = false := by
  unfold scientificNumeral
  split <;> simp [Numeral.isInteger]

/-- A style that keeps the `.0` never writes what could be an integer. -/
theorem isInteger_numeral (style : FloatStyle) (pointZero : style.pointZero = true)
    (x : Binary64) : (style.numeral x).isInteger = false := by
  by_cases zero : x.magnitude = 0
  · simp [numeral_of_zero style zero, Numeral.isInteger, integralFraction, pointZero,
      Digits.fixed]
  · obtain ⟨decimal, _, positional | scientific⟩ := numeral_of_ne_zero style zero
    · rw [positional, isInteger_positionalNumeral style pointZero]
    · rw [scientific, isInteger_scientificNumeral]

end FloatStyle

namespace Json.Quantity

theorem ofNumeral?_negative {absolute : Nat} (positive : 0 < absolute)
    (bounded : absolute ≤ 2 ^ 63) :
    ofNumeral? ⟨true, absolute, [], none⟩ =
      some (.negative (Int64.ofInt (-absolute))) := by
  simp only [ofNumeral?, Numeral.isInteger, List.isEmpty_nil, Option.isNone_none,
    Bool.and_self, if_true, positive, bounded, and_self]

theorem ofNumeral?_natural {value : Nat} (bounded : value < 2 ^ 64) :
    ofNumeral? ⟨false, value, [], none⟩ = some (.natural (UInt64.ofNat value)) := by
  simp only [ofNumeral?, Numeral.isInteger, List.isEmpty_nil, Option.isNone_none,
    Bool.and_self, if_true, Bool.false_eq_true, if_false, bounded]

/-- A finite value is denoted by its numeral in every style that keeps the `.0`. -/
theorem ofNumeral?_numeral (style : FloatStyle) (pointZero : style.pointZero = true)
    {x : Binary64} (finite : x.isFinite = true) :
    ofNumeral? (style.numeral x) = some (.real x) := by
  have fraction := FloatStyle.isInteger_numeral style pointZero x
  have denoted := FloatStyle.ofDecimal?_numeral style finite
  simp [ofNumeral?, fraction, denoted]

end Json.Quantity

namespace Number

/-- The numeral of a number in a style of floating-point values; nothing if it is not
finite. -/
def numeralIn? (style : FloatStyle) : Number → Option Numeral
  | .signed value => some ⟨decide (value.toInt < 0), value.toInt.natAbs, [], none⟩
  | .unsigned value => some ⟨false, value.toNat, [], none⟩
  | .real value => if value.isFinite then some (style.numeral value) else none

/-- The numeral of a number is decoded to the number in its narrowed variant. -/
theorem ofQuantity_of_numeralIn? (style : FloatStyle) (pointZero : style.pointZero = true)
    {number : Number} {numeral : Numeral}
    (written : number.numeralIn? style = some numeral) :
    ∃ quantity, Quantity.ofNumeral? numeral = some quantity ∧
      ofQuantity quantity = number.narrowed := by
  cases number with
  | signed value =>
      have lowest := value.le_toInt
      have highest := value.toInt_lt
      obtain rfl := Option.some.inj written
      by_cases negative : value.toInt < 0
      · have sign : -(value.toInt.natAbs : Int) = value.toInt := by omega
        refine ⟨.negative value, ?_, rfl⟩
        rw [decide_eq_true negative,
          Quantity.ofNumeral?_negative (by omega) (by omega), sign, Int64.ofInt_toInt]
      · have sign : (value.toInt.natAbs : Int) = value.toInt := by omega
        refine ⟨.natural (UInt64.ofNat value.toInt.natAbs), ?_, ?_⟩
        · rw [decide_eq_false negative, Quantity.ofNumeral?_natural (by omega)]
        · rw [ofQuantity, ofUInt64_ofNat (by omega), sign, Int64.ofInt_toInt]
          rfl
  | unsigned value =>
      obtain rfl := Option.some.inj written
      refine ⟨.natural value, ?_, rfl⟩
      rw [Quantity.ofNumeral?_natural value.toNat_lt, UInt64.ofNat_toNat]
  | real value =>
      rw [numeralIn?] at written
      split at written
      · rename_i finite
        obtain rfl := Option.some.inj written
        exact ⟨.real value, Quantity.ofNumeral?_numeral style pointZero finite, rfl⟩
      · cases written

theorem numeral?_eq (number : Number) : number.numeral? = number.numeralIn? Json.style := by
  cases number <;> rfl

theorem ofQuantity_of_numeral? {number : Number} {numeral : Numeral}
    (written : number.numeral? = some numeral) :
    ∃ quantity, Quantity.ofNumeral? numeral = some quantity ∧
      ofQuantity quantity = number.narrowed :=
  ofQuantity_of_numeralIn? Json.style rfl ((numeral?_eq number).symm.trans written)

theorem jsonForm_of_numeral? {number : Number} {numeral : Numeral}
    (written : number.numeral? = some numeral) :
    number.jsonForm = .number number.narrowed := by
  cases number with
  | real value =>
      rw [numeral?] at written
      split at written
      · rename_i finite
        simp [jsonForm, narrowed, finite]
      · cases written
  | _ => rfl

theorem jsonForm_of_numeral?_eq_none {number : Number}
    (absent : number.numeral? = none) :
    number.jsonForm = .null := by
  cases number with
  | real value =>
      rw [numeral?] at absent
      split at absent
      · cases absent
      · rename_i infinite
        simp [jsonForm, infinite]
  | _ => cases absent

theorem ofNode?_node (number : Number) (budget : Nat) :
    Value.ofNode? budget number.node = some number.jsonForm := by
  rw [node]
  cases written : number.numeral? with
  | some numeral =>
      obtain ⟨quantity, read, same⟩ := ofQuantity_of_numeral? written
      simp [Value.ofNode?, read, same, jsonForm_of_numeral? written]
  | none => simp [Value.ofNode?, jsonForm_of_numeral?_eq_none written]

end Number

namespace Value

mutual

/-- The document of a value decodes to the form of the value, exactly if the
value nests no deeper than the budget. -/
theorem ofNode?_node {value : Value} (noHost : value.Everywhere NoHost)
    (inOrder : value.Everywhere InOrder) (budget : Nat) :
    ofNode? budget value.node =
      if value.depth ≤ budget then some value.jsonForm else none := by
  cases value with
  | null => rfl
  | bool value => rfl
  | number value =>
      rw [node, Number.ofNode?_node]
      rfl
  | text value => rfl
  | list items =>
      simp only [Everywhere] at noHost inOrder
      cases budget with
      | zero => rfl
      | succ budget =>
          have items := ofNodes?_nodes noHost.2 inOrder.2 budget
          simp only [node, ofNode?, items, depth, Nat.add_le_add_iff_right,
            jsonForm_list]
          split <;> rfl
  | dict entries =>
      simp only [Everywhere] at noHost inOrder
      cases budget with
      | zero => rfl
      | succ budget =>
          have members := ofMembers?_members noHost.2 inOrder.2 budget
          have kept := Dict.ofList_of_ordered (Dict.ordered_map jsonForm inOrder.1)
          simp only [node, ofNode?, members, depth, Nat.add_le_add_iff_right,
            jsonForm_dict]
          split
          · exact congrArg (fun entries => some (Value.dict entries)) kept
          · rfl
  | host object =>
      have absent := noHost.here
      cases absent

theorem ofNodes?_nodes {items : List Value} (noHost : EverywhereItems NoHost items)
    (inOrder : EverywhereItems InOrder items) (budget : Nat) :
    ofNodes? budget (nodes items) =
      if depthItems items ≤ budget then some (items.map jsonForm) else none := by
  cases items with
  | nil => rfl
  | cons head tail =>
      have first := ofNode?_node noHost.1 inOrder.1 budget
      have others := ofNodes?_nodes noHost.2 inOrder.2 budget
      simp only [nodes, ofNodes?, first, others, depthItems, Nat.max_le]
      by_cases shallow : head.depth ≤ budget <;>
        by_cases rest : depthItems tail ≤ budget <;>
        simp [shallow, rest]

theorem ofMembers?_members {entries : List (String × Value)}
    (noHost : EverywhereEntries NoHost entries)
    (inOrder : EverywhereEntries InOrder entries) (budget : Nat) :
    ofMembers? budget (members entries) =
      if depthEntries entries ≤ budget then
        some (entries.map fun entry => (entry.1, entry.2.jsonForm))
      else none := by
  cases entries with
  | nil => rfl
  | cons entry tail =>
      obtain ⟨key, head⟩ := entry
      have first := ofNode?_node noHost.1 inOrder.1 budget
      have others := ofMembers?_members noHost.2 inOrder.2 budget
      simp only [members, ofMembers?, first, others, depthEntries, Nat.max_le]
      by_cases shallow : head.depth ≤ budget <;>
        by_cases rest : depthEntries tail ≤ budget <;>
        simp [shallow, rest]

end

theorem depthItems_le_iff (items : List Value) (bound : Nat) :
    depthItems items ≤ bound ↔ ∀ item ∈ items, item.depth ≤ bound := by
  induction items with
  | nil => simp [depthItems]
  | cons head tail induction => simp [depthItems, induction]

theorem depthEntries_le_iff (entries : List (String × Value)) (bound : Nat) :
    depthEntries entries ≤ bound ↔ ∀ entry ∈ entries, entry.2.depth ≤ bound := by
  induction entries with
  | nil => simp [depthEntries]
  | cons head tail induction => simp [depthEntries, induction]

end Value

end SlotRecord
