import SlotRecord.Json.Decode
import SlotRecord.Proofs.Dict
import SlotRecord.Proofs.Json.Decoding
import SlotRecord.Proofs.Value.Decoder

/-!
# What documents decode to

Whatever a document says, the value it decodes to is in the form in which values are
read back: it is no host object and no number that is not finite, its integers are
settled, its entries are in order. It nests no deeper than the budget.
-/

namespace SlotRecord

open Json

/-- The nodes directly inside an array or an object. -/
def Json.Node.parts : Node → List Node
  | .array items => items
  | .object members => members.map Prod.snd
  | _ => []

theorem Binary64.isFinite_of_ofDecimal? {negative : Bool} {digits : Nat} {exponent : Int}
    {x : Binary64} (rounded : ofDecimal? negative digits exponent = some x) :
    x.isFinite = true := by
  simp only [ofDecimal?] at rounded
  split at rounded
  · rename_i bounded
    cases rounded
    exact isFinite_ofMagnitude negative bounded
  · cases rounded

theorem Json.Quantity.isFinite_of_ofNumeral? {numeral : Numeral} {x : Binary64}
    (denoted : ofNumeral? numeral = some (.real x)) : x.isFinite = true := by
  have finite : (Binary64.ofDecimal? numeral.negative numeral.digits numeral.scale).map
      Quantity.real = some (.real x) → x.isFinite = true := by
    intro read
    obtain ⟨found, rounded, same⟩ := Option.map_eq_some_iff.mp read
    cases same
    exact Binary64.isFinite_of_ofDecimal? rounded
  simp only [ofNumeral?] at denoted
  split at denoted
  · split at denoted
    · split at denoted
      · cases denoted
      · exact finite denoted
    · split at denoted
      · cases denoted
      · exact finite denoted
  · exact finite denoted

namespace Value

/-- A value in the form in which a document gives it. -/
structure OfJson (value : Value) : Prop extends ReadBack value where
  finite : Finite value

theorem ofJson_of_ofNumeral? {numeral : Numeral} {quantity : Quantity}
    (denoted : Quantity.ofNumeral? numeral = some quantity) :
    OfJson (.number (.ofQuantity quantity)) := by
  cases quantity with
  | natural value =>
      exact ⟨⟨rfl, trivial, settled_ofUInt64 value⟩, finite_ofUInt64 value⟩
  | negative value => exact ⟨⟨rfl, trivial, trivial⟩, trivial⟩
  | real x => exact ⟨⟨rfl, trivial, trivial⟩, Quantity.isFinite_of_ofNumeral? denoted⟩

/-- Whether an entry is what a member decodes to. -/
def Decodes (budget : Nat) (member : Option String × Node) (entry : String × Value) :
    Prop :=
  member.1 = some entry.1 ∧ ofNode? budget member.2 = some entry.2

theorem decodes_of_ofNodes? {budget : Nat} {items : List Node} {values : List Value}
    (decoded : ofNodes? budget items = some values) :
    List.Forall₂ (fun item value => ofNode? budget item = some value) items values := by
  induction items generalizing values with
  | nil =>
      cases decoded
      exact List.Forall₂.nil
  | cons head tail induction =>
      simp only [ofNodes?, Option.bind_eq_bind, Option.bind_eq_some_iff] at decoded
      obtain ⟨first, read, others, rest, complete⟩ := decoded
      cases complete
      exact List.Forall₂.cons read (induction rest)

theorem decodes_of_ofMembers? {budget : Nat} {members : List (Option String × Node)}
    {entries : List (String × Value)} (decoded : ofMembers? budget members = some entries) :
    List.Forall₂ (Decodes budget) members entries := by
  induction members generalizing entries with
  | nil =>
      cases decoded
      exact List.Forall₂.nil
  | cons member tail induction =>
      obtain ⟨key, head⟩ := member
      simp only [ofMembers?, Option.bind_eq_bind, Option.bind_eq_some_iff] at decoded
      obtain ⟨name, named, first, read, others, rest, complete⟩ := decoded
      cases complete
      exact List.Forall₂.cons ⟨named, read⟩ (induction rest)

section

variable {budget : Nat}

theorem exists_of_mem_items {items : List Node} {values : List Value}
    (decoded : ofNodes? budget items = some values) {value : Value}
    (member : value ∈ values) : ∃ item ∈ items, ofNode? budget item = some value :=
  exists_of_forall₂ (decodes_of_ofNodes? decoded) member

theorem exists_of_mem_entries {members : List (Option String × Node)}
    {entries : List (String × Value)} (decoded : ofMembers? budget members = some entries)
    {entry : String × Value} (member : entry ∈ Dict.ofList entries) :
    ∃ source ∈ members, Decodes budget source entry :=
  exists_of_forall₂ (decodes_of_ofMembers? decoded) (Dict.mem_ofList member)

end

/-- How a value stems from a node: as it stands, or from the nodes inside. -/
inductive Stems : Nat → Node → Value → Prop
  | scalar {budget : Nat} {node : Node} {value : Value} (form : OfJson value)
      (flat : Scalar value) : Stems budget node value
  | text {budget : Nat} {content : String} :
      Stems budget (.string (some content)) (.text content)
  | list {budget : Nat} {items : List Node} {values : List Value}
      (read : ofNodes? budget items = some values) :
      Stems (budget + 1) (.array items) (.list values)
  | dict {budget : Nat} {members : List (Option String × Node)}
      {entries : List (String × Value)} (read : ofMembers? budget members = some entries) :
      Stems (budget + 1) (.object members) (.dict (Dict.ofList entries))

theorem stems_of_ofNode? {budget : Nat} {node : Node} {value : Value}
    (decoded : ofNode? budget node = some value) : Stems budget node value := by
  cases node with
  | null =>
      cases decoded
      exact .scalar ⟨⟨rfl, trivial, trivial⟩, trivial⟩ trivial
  | bool held =>
      cases decoded
      exact .scalar ⟨⟨rfl, trivial, trivial⟩, trivial⟩ trivial
  | number numeral =>
      obtain ⟨quantity, denoted, rfl⟩ := Option.map_eq_some_iff.mp decoded
      exact .scalar (ofJson_of_ofNumeral? denoted) trivial
  | string content =>
      obtain ⟨text, rfl, rfl⟩ := Option.map_eq_some_iff.mp decoded
      exact .text
  | array items =>
      cases budget with
      | zero => cases decoded
      | succ budget =>
          obtain ⟨values, read, rfl⟩ := Option.map_eq_some_iff.mp decoded
          exact .list read
  | object members =>
      cases budget with
      | zero => cases decoded
      | succ budget =>
          obtain ⟨entries, read, rfl⟩ := Option.map_eq_some_iff.mp decoded
          exact .dict read

theorem ofJson_of_ofNode? {budget : Nat} {node : Node} {value : Value}
    (decoded : ofNode? budget node = some value) : OfJson value := by
  cases stems_of_ofNode? decoded with
  | scalar form flat => exact form
  | text => exact ⟨⟨rfl, trivial, trivial⟩, trivial⟩
  | list read => exact ⟨⟨rfl, trivial, trivial⟩, trivial⟩
  | dict read => exact ⟨⟨rfl, Dict.ordered_ofList _, trivial⟩, trivial⟩

theorem descends_ofNode? : Descends Node.parts ofNode? := by
  intro budget node value decoded part member
  cases stems_of_ofNode? decoded with
  | scalar form flat =>
      rw [parts_of_scalar flat] at member
      cases member
  | text => cases member
  | @list budget items values read =>
      refine ⟨budget, Nat.lt_succ_self budget, ?_⟩
      exact exists_of_mem_items read member
  | @dict budget members entries read =>
      obtain ⟨entry, entryMember, rfl⟩ := List.mem_map.mp member
      obtain ⟨source, sourceMember, _, inner⟩ := exists_of_mem_entries read entryMember
      refine ⟨budget, Nat.lt_succ_self budget, source.2, ?_, inner⟩
      exact List.mem_map_of_mem sourceMember

/-- A decoded value nests no deeper than the budget. -/
theorem depth_le_of_ofNode? {budget : Nat} {node : Node} {value : Value}
    (decoded : ofNode? budget node = some value) : value.depth ≤ budget := by
  induction budget using Nat.strongRecOn generalizing node value with
  | ind budget induction =>
      cases stems_of_ofNode? decoded with
      | scalar form flat =>
          rw [depth_of_scalar flat]
          exact Nat.zero_le budget
      | text => exact Nat.zero_le budget
      | @list budget items values read =>
          apply Nat.succ_le_succ
          apply (depthItems_le_iff values budget).mpr
          intro inner member
          obtain ⟨source, _, innerRead⟩ := exists_of_mem_items read member
          exact induction budget (Nat.lt_succ_self budget) innerRead
      | @dict budget members entries read =>
          apply Nat.succ_le_succ
          apply (depthEntries_le_iff (Dict.ofList entries) budget).mpr
          intro entry member
          obtain ⟨source, _, _, innerRead⟩ := exists_of_mem_entries read member
          exact induction budget (Nat.lt_succ_self budget) innerRead

end Value

end SlotRecord
