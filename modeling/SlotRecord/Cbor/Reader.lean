import SlotRecord.Binary64.Basic

/-!
# CBOR items

An item is what the bytes of one data item say. Whether an array or a map announced its
length is not kept; a string in chunks is kept as its chunks, which need not be strings
until somebody asks for the text.

`Item.read?` takes the first data item of some bytes and ignores what follows
it. Lengths need not be written shortly, and arrays, maps and strings may be
closed by a break instead of announcing their length. Two steps of fuel for
each byte are always enough.
-/

namespace SlotRecord

namespace Cbor

inductive Item
  | natural (value : Nat)
  /-- The integer `-1 - value`. -/
  | negative (value : Nat)
  | bytes (content : List UInt8)
  | text (content : List UInt8)
  | byteChunks (chunks : List Item)
  | textChunks (chunks : List Item)
  | array (items : List Item)
  | map (entries : List (Item × Item))
  | tagged (tag : Nat) (content : Item)
  | bool (value : Bool)
  | null
  | undefined
  | half (bits : UInt16)
  | single (bits : UInt32)
  | double (value : Binary64)
deriving Inhabited

/-- The steps of nesting that may be open at once while an item is decoded. -/
def nestingLimit : Nat := 256

/-- The first `count` members of a list, if there are as many. -/
def splitExactly {α : Type} : Nat → List α → Option (List α × List α)
  | 0, rest => some ([], rest)
  | _ + 1, [] => none
  | count + 1, head :: tail => do
      let (front, rest) ← splitExactly count tail
      return (head :: front, rest)

def readWord (width : Nat) (bytes : List UInt8) : Option (Nat × List UInt8) := do
  let (front, rest) ← splitExactly width bytes
  return (ofBigEndian front, rest)

/-- The argument of a head whose first byte ends in `code`. -/
def readArgument (code : Nat) (bytes : List UInt8) : Option (Nat × List UInt8) :=
  if code < 24 then some (code, bytes)
  else if code = 24 then readWord 1 bytes
  else if code = 25 then readWord 2 bytes
  else if code = 26 then readWord 4 bytes
  else if code = 27 then readWord 8 bytes
  else none

/-- The code of a head without a length. -/
def openEnded : Nat := 31

def breakByte : UInt8 := 0xff

/-- Simple values and floating-point values. -/
def readSimple (code : Nat) (bytes : List UInt8) : Option (Item × List UInt8) :=
  match code with
  | 20 => some (.bool false, bytes)
  | 21 => some (.bool true, bytes)
  | 22 => some (.null, bytes)
  | 23 => some (.undefined, bytes)
  | 25 => do
      let (bits, rest) ← readWord 2 bytes
      return (.half (UInt16.ofNat bits), rest)
  | 26 => do
      let (bits, rest) ← readWord 4 bytes
      return (.single (UInt32.ofNat bits), rest)
  | 27 => do
      let (bits, rest) ← readWord 8 bytes
      return (.double ⟨UInt64.ofNat bits⟩, rest)
  | _ => none

/-- Keys and values in turn as the entries of a map. -/
def paired : List Item → Option (List (Item × Item))
  | [] => some []
  | [_] => none
  | key :: value :: rest => (paired rest).map ((key, value) :: ·)

mutual

def readItem : Nat → List UInt8 → Option (Item × List UInt8)
  | 0, _ => none
  | _ + 1, [] => none
  | fuel + 1, first :: bytes =>
    let code := first.toNat % 32
    match first.toNat / 32 with
    | 0 => do
        let (value, rest) ← readArgument code bytes
        return (.natural value, rest)
    | 1 => do
        let (value, rest) ← readArgument code bytes
        return (.negative value, rest)
    | 2 =>
        if code = openEnded then do
          let (chunks, rest) ← readOpen fuel bytes
          return (.byteChunks chunks, rest)
        else do
          let (length, rest) ← readArgument code bytes
          let (content, rest) ← splitExactly length rest
          return (.bytes content, rest)
    | 3 =>
        if code = openEnded then do
          let (chunks, rest) ← readOpen fuel bytes
          return (.textChunks chunks, rest)
        else do
          let (length, rest) ← readArgument code bytes
          let (content, rest) ← splitExactly length rest
          return (.text content, rest)
    | 4 =>
        if code = openEnded then do
          let (items, rest) ← readOpen fuel bytes
          return (.array items, rest)
        else do
          let (count, rest) ← readArgument code bytes
          let (items, rest) ← readItems fuel count rest
          return (.array items, rest)
    | 5 => do
        let (flat, rest) ←
          if code = openEnded then readOpen fuel bytes
          else do
            let (count, rest) ← readArgument code bytes
            readItems fuel (2 * count) rest
        let entries ← paired flat
        return (.map entries, rest)
    | 6 => do
        let (tag, rest) ← readArgument code bytes
        let (content, rest) ← readItem fuel rest
        return (.tagged tag content, rest)
    | _ => readSimple code bytes

/-- As many items as announced. -/
def readItems : Nat → Nat → List UInt8 → Option (List Item × List UInt8)
  | 0, _, _ => none
  | _ + 1, 0, bytes => some ([], bytes)
  | fuel + 1, count + 1, bytes => do
      let (head, rest) ← readItem fuel bytes
      let (tail, rest) ← readItems fuel count rest
      return (head :: tail, rest)

/-- The items up to a break. -/
def readOpen : Nat → List UInt8 → Option (List Item × List UInt8)
  | 0, _ => none
  | fuel + 1, bytes =>
    match bytes with
    | [] => none
    | first :: rest =>
      if first = breakByte then some ([], rest)
      else do
        let (head, rest) ← readItem fuel bytes
        let (tail, rest) ← readOpen fuel rest
        return (head :: tail, rest)

end

/-- The first item of some bytes. -/
def Item.read? (bytes : List UInt8) : Option Item :=
  (readItem (2 * bytes.length + 2) bytes).map Prod.fst

end Cbor

end SlotRecord
