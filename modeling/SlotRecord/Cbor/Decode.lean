import SlotRecord.Value.Basic
import SlotRecord.Binary64.Rounding
import SlotRecord.Cbor.Reader

/-!
# Values of CBOR items

Decoding has a budget of nesting. A value takes one step while it is open, a
list or dictionary one more, and so does a chunk of a text. An item that is
only passed over takes one step at every level and may hold what no value is.
-/

namespace SlotRecord

namespace Cbor

namespace Item

/-- The bytes of text chunks that each announced their length. -/
def joinChunks : List Item → Option (List UInt8)
  | [] => some []
  | .text content :: rest => (joinChunks rest).map (content ++ ·)
  | _ :: _ => none

/-- The text of an item. -/
def text? (budget : Nat) : Item → Option String
  | .text content => Utf8.decode? content
  | .textChunks chunks => do
      guard (chunks = [] ∨ 0 < budget)
      let content ← joinChunks chunks
      Utf8.decode? content
  | _ => none

mutual

/-- Whether an item can be passed over. -/
def skips : Nat → Item → Bool
  | 0, _ => false
  | budget + 1, .byteChunks chunks => skipsAll budget chunks
  | budget + 1, .textChunks chunks => skipsAll budget chunks
  | budget + 1, .array items => skipsAll budget items
  | budget + 1, .map entries => skipsEntries budget entries
  | budget + 1, .tagged _ content => skips budget content
  | _ + 1, _ => true

def skipsAll : Nat → List Item → Bool
  | _, [] => true
  | budget, head :: tail => skips budget head && skipsAll budget tail

def skipsEntries : Nat → List (Item × Item) → Bool
  | _, [] => true
  | budget, (key, value) :: tail =>
      skips budget key && skips budget value && skipsEntries budget tail

end

end Item

end Cbor

open Cbor

namespace Value

mutual

/-- The value of an item. -/
def ofItem? : Nat → Item → Option Value
  | 0, _ => none
  | budget + 1, item =>
    match item with
    | .natural value => some (.number (.ofUInt64 (UInt64.ofNat value)))
    | .negative value =>
      if value < 2 ^ 63 then some (.number (.signed (Int64.ofInt (-1 - value)))) else none
    | .text content => (Item.text? budget (.text content)).map .text
    | .textChunks chunks => (Item.text? budget (.textChunks chunks)).map .text
    | .array items =>
      match budget with
      | 0 => none
      | budget + 1 => (ofItems? budget items).map .list
    | .map entries =>
      match budget with
      | 0 => none
      | budget + 1 =>
        (ofEntries? budget entries).map fun entries => .dict (Dict.ofList entries)
    | .bool value => some (.bool value)
    | .null => some .null
    | .undefined => some .null
    | .single bits => some (.number (.real (Binary64.ofSingle bits)))
    | .double value => some (.number (.real value))
    | _ => none

def ofItems? : Nat → List Item → Option (List Value)
  | _, [] => some []
  | budget, head :: tail => do
      let first ← ofItem? budget head
      let rest ← ofItems? budget tail
      return first :: rest

def ofEntries? : Nat → List (Item × Item) → Option (List (String × Value))
  | _, [] => some []
  | budget, (key, head) :: tail => do
      let name ← key.text? budget
      let first ← ofItem? budget head
      let rest ← ofEntries? budget tail
      return (name, first) :: rest

end

/-- The value of the first item of some bytes. -/
def fromCbor? (bytes : List UInt8) : Option Value :=
  (Item.read? bytes).bind (ofItem? nestingLimit)

end Value

end SlotRecord
