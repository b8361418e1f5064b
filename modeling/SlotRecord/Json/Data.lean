import SlotRecord.Dict
import SlotRecord.Number
import SlotRecord.Json.Reader

/-!
# JSON data

Data is what a document means: numerals are numbers, and an object has one
entry for each key, the last of its members with that key.
-/

namespace SlotRecord

namespace Json

/-- A number of a document: an integer is natural or negative. -/
inductive Quantity
  | natural (value : UInt64)
  | negative (value : Int64)
  | real (value : Binary64)
deriving DecidableEq, Repr

/-- The number that a numeral denotes. Integers that fit no 64-bit integer, the
negative zero, and all numerals with a point or an exponent are floating-point
values; one too large to be finite denotes nothing. -/
def Quantity.ofNumeral? (numeral : Numeral) : Option Quantity :=
  let real := (Binary64.ofDecimal? numeral.negative numeral.digits numeral.scale).map
    Quantity.real
  if numeral.isInteger then
    if numeral.negative then
      if 0 < numeral.whole ∧ numeral.whole ≤ 2 ^ 63 then
        some (.negative (Int64.ofInt (-numeral.whole)))
      else real
    else if numeral.whole < 2 ^ 64 then some (.natural (UInt64.ofNat numeral.whole))
    else real
  else real

inductive Data
  | null
  | bool (value : Bool)
  | number (quantity : Quantity)
  | string (content : String)
  | array (items : List Data)
  | object (entries : List (String × Data))
deriving Inhabited

namespace Data

mutual

/-- The data of a document with at most `budget` containers inside each other. -/
def ofNode? : Nat → Node → Option Data
  | _, .null => some .null
  | _, .bool value => some (.bool value)
  | _, .number numeral => (Quantity.ofNumeral? numeral).map .number
  | _, .string content => content.map .string
  | 0, .array _ => none
  | budget + 1, .array items => (ofItems? budget items).map .array
  | 0, .object _ => none
  | budget + 1, .object members =>
      (ofMembers? budget members).map fun entries => .object (Dict.ofList entries)

def ofItems? : Nat → List Node → Option (List Data)
  | _, [] => some []
  | budget, head :: tail => do
      let first ← ofNode? budget head
      let rest ← ofItems? budget tail
      return first :: rest

def ofMembers? : Nat → List (Option String × Node) → Option (List (String × Data))
  | _, [] => some []
  | budget, (key, head) :: tail => do
      let name ← key
      let first ← ofNode? budget head
      let rest ← ofMembers? budget tail
      return (name, first) :: rest

end

/-- The entries of an object. -/
def entries? : Data → Option (Dict Data)
  | .object entries => some entries
  | _ => none

end Data

end Json

end SlotRecord
