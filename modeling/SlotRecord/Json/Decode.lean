import SlotRecord.Value.Basic
import SlotRecord.Json.Data
import SlotRecord.Json.Reader

/-!
# Values of JSON texts

There are three ways from a text to a value: the document is decoded directly;
it is turned into data, which is then converted; or the data is decoded the way
a document is. Integers take the signed variant whenever they fit it.
-/

namespace SlotRecord

open Json

/-- The number of a quantity that is met while decoding. -/
def Number.ofQuantity : Quantity → Number
  | .natural value => .ofUInt64 value
  | .negative value => .signed value
  | .real value => .real value

namespace Json.Quantity

def toInt64? : Quantity → Option Int64
  | .natural value =>
    if value.toNat < 2 ^ 63 then some (Int64.ofInt value.toNat) else none
  | .negative value => some value
  | .real _ => none

def toUInt64? : Quantity → Option UInt64
  | .natural value => some value
  | .negative _ => none
  | .real _ => none

def toReal? : Quantity → Option Binary64
  | .real value => some value
  | _ => none

/-- The first of the signed, unsigned and floating-point forms that exists. -/
def toNumber (quantity : Quantity) : Number :=
  match quantity.toInt64?, quantity.toUInt64? with
  | some value, _ => .signed value
  | none, some value => .unsigned value
  | none, none => .real (quantity.toReal?.getD ⟨0⟩)

end Json.Quantity

namespace Value

mutual

/-- The value of a document with at most `budget` containers inside each other. -/
def ofNode? : Nat → Node → Option Value
  | _, .null => some .null
  | _, .bool value => some (.bool value)
  | _, .number numeral =>
      (Quantity.ofNumeral? numeral).map fun quantity => .number (.ofQuantity quantity)
  | _, .string content => content.map .text
  | 0, .array _ => none
  | budget + 1, .array items => (ofNodes? budget items).map .list
  | 0, .object _ => none
  | budget + 1, .object members =>
      (ofMembers? budget members).map fun entries => .dict (Dict.ofList entries)

def ofNodes? : Nat → List Node → Option (List Value)
  | _, [] => some []
  | budget, head :: tail => do
      let first ← ofNode? budget head
      let rest ← ofNodes? budget tail
      return first :: rest

def ofMembers? : Nat → List (Option String × Node) → Option (List (String × Value))
  | _, [] => some []
  | budget, (key, head) :: tail => do
      let name ← key
      let first ← ofNode? budget head
      let rest ← ofMembers? budget tail
      return (name, first) :: rest

end

mutual

/-- Data converted part by part. -/
def ofData : Data → Value
  | .null => .null
  | .bool value => .bool value
  | .number quantity => .number quantity.toNumber
  | .string content => .text content
  | .array items => .list (ofDataItems items)
  | .object entries => .dict (ofDataEntries entries)

def ofDataItems : List Data → List Value
  | [] => []
  | head :: tail => ofData head :: ofDataItems tail

def ofDataEntries : List (String × Data) → List (String × Value)
  | [] => []
  | (key, head) :: tail => (key, ofData head) :: ofDataEntries tail

end

mutual

/-- Data decoded the way a document is: entries are inserted one after the other. -/
def decodeData : Data → Value
  | .null => .null
  | .bool value => .bool value
  | .number quantity => .number (.ofQuantity quantity)
  | .string content => .text content
  | .array items => .list (decodeItems items)
  | .object entries => .dict (Dict.ofList (decodeEntries entries))

def decodeItems : List Data → List Value
  | [] => []
  | head :: tail => decodeData head :: decodeItems tail

def decodeEntries : List (String × Data) → List (String × Value)
  | [] => []
  | (key, head) :: tail => (key, decodeData head) :: decodeEntries tail

end

/-- The value of a text, decoded directly. -/
def fromJson? (text : String) : Option Value :=
  (Node.read? text.toList).bind (ofNode? nestingLimit)

end Value

/-- The data of a text. -/
def Json.Data.fromJson? (text : String) : Option Data :=
  (Node.read? text.toList).bind (Data.ofNode? nestingLimit)

end SlotRecord
