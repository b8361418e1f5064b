import SlotRecord.Proofs.Json.Decoded

/-!
# Agreement of the ways to decode

Whether a document is decoded directly or by way of its data, the value is the same,
and no way fails where another one does not. What counts of a conversion of data is
stated once: how it treats each kind of data, entries of an object being in order
already.
-/

namespace SlotRecord

open Json

theorem Json.Quantity.toNumber_eq (quantity : Quantity) :
    quantity.toNumber = .ofQuantity quantity := by
  cases quantity with
  | natural value =>
      by_cases fits : value.toNat < 2 ^ 63
      · simp only [toNumber, toInt64?, Number.ofQuantity, Number.ofUInt64, if_pos fits]
      · simp only [toNumber, toInt64?, toUInt64?, Number.ofQuantity, Number.ofUInt64,
          if_neg fits]
  | negative value => rfl
  | real value => rfl

namespace Value

theorem ofDataItems_eq_map (items : List Data) : ofDataItems items = items.map ofData := by
  induction items with
  | nil => rfl
  | cons head tail induction => rw [ofDataItems, induction, List.map_cons]

theorem ofDataEntries_eq_map (entries : List (String × Data)) :
    ofDataEntries entries = entries.map fun entry => (entry.1, ofData entry.2) := by
  induction entries with
  | nil => rfl
  | cons entry tail induction => rw [ofDataEntries, induction, List.map_cons]

theorem decodeItems_eq_map (items : List Data) :
    decodeItems items = items.map decodeData := by
  induction items with
  | nil => rfl
  | cons head tail induction => rw [decodeItems, induction, List.map_cons]

theorem decodeEntries_eq_map (entries : List (String × Data)) :
    decodeEntries entries = entries.map fun entry => (entry.1, decodeData entry.2) := by
  induction entries with
  | nil => rfl
  | cons entry tail induction => rw [decodeEntries, induction, List.map_cons]

/-- Whether a conversion takes data for what decoding takes a document for. -/
structure Converts (convert : Data → Value) : Prop where
  null : convert .null = .null
  bool : ∀ value, convert (.bool value) = .bool value
  number : ∀ quantity, convert (.number quantity) = .number (.ofQuantity quantity)
  string : ∀ content, convert (.string content) = .text content
  array : ∀ items, convert (.array items) = .list (items.map convert)
  object : ∀ entries, Dict.Ordered entries →
    convert (.object entries) = .dict (entries.map fun entry => (entry.1, convert entry.2))

theorem converts_ofData : Converts ofData where
  null := rfl
  bool _ := rfl
  number quantity := congrArg Value.number quantity.toNumber_eq
  string _ := rfl
  array items := congrArg Value.list (ofDataItems_eq_map items)
  object entries _ := congrArg Value.dict (ofDataEntries_eq_map entries)

theorem converts_decodeData : Converts decodeData where
  null := rfl
  bool _ := rfl
  number _ := rfl
  string _ := rfl
  array items := congrArg Value.list (decodeItems_eq_map items)
  object entries ordered := by
    have kept := Dict.ofList_of_ordered (Dict.ordered_map decodeData ordered)
    rw [decodeData, decodeEntries_eq_map, kept]

section

variable {convert : Data → Value}

mutual

/-- A document decodes to what its data is converted to. -/
theorem map_ofNode? (converts : Converts convert) (budget : Nat) (node : Node) :
    (Data.ofNode? budget node).map convert = ofNode? budget node := by
  cases node with
  | null => exact congrArg some converts.null
  | bool value => exact congrArg some (converts.bool value)
  | number numeral =>
      rw [Data.ofNode?, ofNode?, Option.map_map]
      exact congrArg (Option.map · _) (funext converts.number)
  | string content =>
      rw [Data.ofNode?, ofNode?, Option.map_map]
      exact congrArg (Option.map · _) (funext converts.string)
  | array items =>
      cases budget with
      | zero => rfl
      | succ budget =>
          rw [Data.ofNode?, ofNode?, ← map_ofItems? converts budget items, Option.map_map,
            Option.map_map]
          exact congrArg (Option.map · _) (funext converts.array)
  | object members =>
      cases budget with
      | zero => rfl
      | succ budget =>
          rw [Data.ofNode?, ofNode?, ← map_ofMembers? converts budget members, Option.map_map,
            Option.map_map]
          apply congrArg (Option.map · _)
          funext entries
          -- The entries were put in order when the data was read.
          have converted := converts.object _ (Dict.ordered_ofList entries)
          exact converted.trans (congrArg Value.dict (Dict.ofList_map convert entries).symm)

theorem map_ofItems? (converts : Converts convert) (budget : Nat) (items : List Node) :
    (Data.ofItems? budget items).map (List.map convert) = ofNodes? budget items := by
  cases items with
  | nil => rfl
  | cons head tail =>
      have first := map_ofNode? converts budget head
      have others := map_ofItems? converts budget tail
      rw [Data.ofItems?, ofNodes?, ← first, ← others]
      cases Data.ofNode? budget head <;> cases Data.ofItems? budget tail <;> rfl

theorem map_ofMembers? (converts : Converts convert) (budget : Nat)
    (members : List (Option String × Node)) :
    (Data.ofMembers? budget members).map
        (List.map fun entry => (entry.1, convert entry.2)) =
      ofMembers? budget members := by
  cases members with
  | nil => rfl
  | cons member tail =>
      obtain ⟨key, head⟩ := member
      have first := map_ofNode? converts budget head
      have others := map_ofMembers? converts budget tail
      rw [Data.ofMembers?, ofMembers?, ← first, ← others]
      cases key <;> cases Data.ofNode? budget head <;>
        cases Data.ofMembers? budget tail <;> rfl

end

end

/-- The last of the members with a key. -/
def lastMember? (key : String) (members : List (Option String × Node)) : Option Node :=
  (members.reverse.find? fun member => member.1 = some key).map Prod.snd

/-- The first entry with a key is what the first member with it decodes to. -/
theorem find?_of_decodes {budget : Nat} {members : List (Option String × Node)}
    {entries : List (String × Value)}
    (decodes : List.Forall₂ (Decodes budget) members entries) (key : String) :
    (entries.find? fun entry => entry.1 = key).map Prod.snd =
      ((members.find? fun member => member.1 = some key).map Prod.snd).bind
        (ofNode? budget) := by
  induction decodes with
  | nil => rfl
  | @cons member entry _ _ first _ induction =>
      obtain ⟨named, read⟩ := first
      by_cases same : entry.1 = key
      · simp [named, same, read]
      · simpa [named, same] using induction

/-- Of the members with one key the last one counts. -/
theorem get?_of_ofNode? {budget : Nat} {members : List (Option String × Node)}
    {value : Value} (decoded : ofNode? (budget + 1) (.object members) = some value)
    (key : String) :
    value.get? key = (lastMember? key members).bind (ofNode? budget) := by
  obtain ⟨entries, read, rfl⟩ := Option.map_eq_some_iff.mp decoded
  have decodes := List.forall₂_reverse_iff.mpr (decodes_of_ofMembers? read)
  exact (Dict.get?_ofList_eq_last key entries).trans (find?_of_decodes decodes key)

/-- The three ways from a text to a value fail together or give one value. In an
object that is decoded, the last of the members with a key is the one that counts. -/
theorem decodings_agree :
    (∀ text, (Data.fromJson? text).map ofData = fromJson? text ∧
      (Data.fromJson? text).map decodeData = fromJson? text) ∧
    ∀ budget members value, ofNode? (budget + 1) (.object members) = some value →
      ∀ key, value.get? key = (lastMember? key members).bind (ofNode? budget) := by
  constructor
  · intro text
    have agree : ∀ convert, Converts convert →
        (Data.fromJson? text).map convert = fromJson? text := by
      intro convert converts
      rw [Data.fromJson?, Option.map_bind, fromJson?]
      exact congrArg _ (funext (map_ofNode? converts nestingLimit))
    exact ⟨agree ofData converts_ofData, agree decodeData converts_decodeData⟩
  · intro budget members value decoded key
    exact get?_of_ofNode? decoded key

/-- The integers at which the signed variant ends. -/
def signedEnds : String :=
  "[9223372036854775807, 9223372036854775808, -9223372036854775808]"

def signedEndValues : Value :=
  .list [.number (.signed 9223372036854775807), .number (.unsigned 9223372036854775808),
    .number (.signed (-9223372036854775808))]

/-- A key that occurs twice, and integers with and without a signed variant. -/
theorem decodings_agree_edges :
    (ofNode? 1 (.object [(some "a", .bool true), (some "b", .null), (some "a", .null)]) =
        some (.dict [("a", .null), ("b", .null)]) ∧
      (Value.dict [("a", .null), ("b", .null)]).get? "a" = some .null) ∧
    fromJson? signedEnds = some signedEndValues ∧
      (Data.fromJson? signedEnds).map ofData = some signedEndValues ∧
      (Data.fromJson? signedEnds).map decodeData = some signedEndValues := by
  constructor
  · have decoded : ofNode? 1
        (.object [(some "a", .bool true), (some "b", .null), (some "a", .null)]) =
          some (.dict [("a", .null), ("b", .null)]) := rfl
    exact ⟨decoded, decodings_agree.2 0 _ _ decoded "a"⟩
  · have direct : fromJson? signedEnds = some signedEndValues := by
      have scanned : Node.read? signedEnds.toList = some (.array
          [.number ⟨false, 9223372036854775807, [], none⟩,
            .number ⟨false, 9223372036854775808, [], none⟩,
            .number ⟨true, 9223372036854775808, [], none⟩]) := by cbv
      rw [fromJson?, scanned]
      rfl
    obtain ⟨converted, decoded⟩ := decodings_agree.1 signedEnds
    exact ⟨direct, converted.trans direct, decoded.trans direct⟩

end Value

end SlotRecord
