import SlotRecord.Value.Basic

/-!
# Writing values as CBOR

Heads are as short as they can be, lengths are announced, and floating-point
values keep all their bits.
-/

namespace SlotRecord

namespace Cbor

/-- The head of an item of a major kind. -/
def head (major argument : Nat) : List UInt8 :=
  let first (code : Nat) : UInt8 := UInt8.ofNat (32 * major + code)
  if argument < 24 then [first argument]
  else if argument < 2 ^ 8 then first 24 :: bigEndian 1 argument
  else if argument < 2 ^ 16 then first 25 :: bigEndian 2 argument
  else if argument < 2 ^ 32 then first 26 :: bigEndian 4 argument
  else first 27 :: bigEndian 8 argument

def writeText (content : String) : List UInt8 :=
  let bytes := Utf8.encode content
  head 3 bytes.length ++ bytes

def writeNumber : Number → List UInt8
  | .signed value =>
    if 0 ≤ value.toInt then head 0 value.toInt.toNat
    else head 1 (-1 - value.toInt).toNat
  | .unsigned value => head 0 value.toNat
  | .real value => 0xfb :: bigEndian 8 value.bits.toNat

end Cbor

open Cbor

namespace Value

mutual

def toCbor : Value → Except Unwritable (List UInt8)
  | .null => .ok [0xf6]
  | .bool value => .ok [if value then 0xf5 else 0xf4]
  | .number value => .ok (writeNumber value)
  | .text value => .ok (writeText value)
  | .list items => (itemsToCbor items).map (head 4 items.length ++ ·)
  | .dict entries => (entriesToCbor entries).map (head 5 entries.length ++ ·)
  | .host object => .error ⟨object.typeName⟩

def itemsToCbor : List Value → Except Unwritable (List UInt8)
  | [] => .ok []
  | head :: tail => do
      let first ← head.toCbor
      let rest ← itemsToCbor tail
      return first ++ rest

def entriesToCbor : List (String × Value) → Except Unwritable (List UInt8)
  | [] => .ok []
  | (key, head) :: tail => do
      let first ← head.toCbor
      let rest ← entriesToCbor tail
      return writeText key ++ first ++ rest

end

end Value

end SlotRecord
