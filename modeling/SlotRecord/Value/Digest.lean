import SlotRecord.Value.Basic

/-!
# Digests

The bytes that a value feeds to a hash. A tag comes first, then a fixed number
of bytes, or a text closed by a byte that no UTF-8 text holds. Lists and
dictionaries have no digest.

The hash is the 64-bit xxHash. Bytes are taken as little-endian words of eight. Four
lanes absorb four words at a time; what is left over, words, then half a word, then
bytes, is mixed into the joined lanes.
-/

namespace SlotRecord

/-- The word of a number: equal numbers have equal words, whatever their
variant. -/
def Number.word (number : Number) : UInt64 :=
  match number.toInt64?, number.toUInt64? with
  | some value, _ => value.toUInt64
  | none, some value => value
  | none, none => number.toBinary64.bits

namespace Value

def digest : Value → Except Fault (List UInt8)
  | .null => .ok [0]
  | .bool value => .ok [1, if value then 1 else 0]
  | .number value => .ok (2 :: littleEndian 8 value.word.toNat)
  | .text value => .ok (3 :: (Utf8.encode value ++ [0xff]))
  | .list _ => .error (.unhashable "list")
  | .dict _ => .error (.unhashable "dict")
  | .host object => do
      let word ← object.digest
      return 4 :: littleEndian 8 word.toNat

/-- The digests of values in order, up to the first that has none. -/
def digestAll : List Value → Except Fault (List UInt8)
  | [] => .ok []
  | head :: tail => do
      let first ← head.digest
      let rest ← digestAll tail
      return first ++ rest

end Value

namespace XxHash

def prime1 : UInt64 := 11400714785074694791
def prime2 : UInt64 := 14029467366897019727
def prime3 : UInt64 := 1609587929392839161
def prime4 : UInt64 := 9650029242287828579
def prime5 : UInt64 := 2870177450012600261

def rotate (word amount : UInt64) : UInt64 := (word <<< amount) ||| (word >>> (64 - amount))

def round (lane word : UInt64) : UInt64 := rotate (lane + word * prime2) 31 * prime1

structure Lanes where
  first : UInt64
  second : UInt64
  third : UInt64
  fourth : UInt64

namespace Lanes

def seeded (seed : UInt64) : Lanes :=
  ⟨seed + prime1 + prime2, seed + prime2, seed, seed - prime1⟩

/-- Absorbs words by fours and gives back the words left over. -/
def absorb (lanes : Lanes) : List UInt64 → Lanes × List UInt64
  | w1 :: w2 :: w3 :: w4 :: rest =>
    absorb ⟨round lanes.first w1, round lanes.second w2, round lanes.third w3,
      round lanes.fourth w4⟩ rest
  | rest => (lanes, rest)

def merge (hash lane : UInt64) : UInt64 := (hash ^^^ round 0 lane) * prime1 + prime4

def joined (lanes : Lanes) : UInt64 :=
  let sum := rotate lanes.first 1 + rotate lanes.second 7 + rotate lanes.third 12 +
    rotate lanes.fourth 18
  [lanes.first, lanes.second, lanes.third, lanes.fourth].foldl merge sum

end Lanes

def word (bytes : List UInt8) : UInt64 :=
  bytes.foldr (fun byte higher => higher * 256 + byte.toUInt64) 0

/-- The words of eight bytes, and the fewer than eight bytes after them. -/
def words : List UInt8 → List UInt64 × List UInt8
  | b1 :: b2 :: b3 :: b4 :: b5 :: b6 :: b7 :: b8 :: rest =>
    let (tail, left) := words rest
    (word [b1, b2, b3, b4, b5, b6, b7, b8] :: tail, left)
  | left => ([], left)

def mixWord (hash word : UInt64) : UInt64 :=
  rotate (hash ^^^ round 0 word) 27 * prime1 + prime4

def mixByte (hash : UInt64) (byte : UInt8) : UInt64 :=
  rotate (hash ^^^ (byte.toUInt64 * prime5)) 11 * prime1

def mixTail (hash : UInt64) : List UInt8 → UInt64
  | b1 :: b2 :: b3 :: b4 :: rest =>
    let half := rotate (hash ^^^ (word [b1, b2, b3, b4] * prime1)) 23 * prime2 + prime3
    rest.foldl mixByte half
  | rest => rest.foldl mixByte hash

def avalanche (hash : UInt64) : UInt64 :=
  let hash := (hash ^^^ (hash >>> 33)) * prime2
  let hash := (hash ^^^ (hash >>> 29)) * prime3
  hash ^^^ (hash >>> 32)

end XxHash

open XxHash in
def xxHash (seed : UInt64) (bytes : List UInt8) : UInt64 :=
  let length := bytes.length
  let (all, left) := words bytes
  let (lanes, few) := (Lanes.seeded seed).absorb all
  let start := if 32 ≤ length then lanes.joined else seed + prime5
  avalanche (mixTail (few.foldl mixWord (start + UInt64.ofNat length)) left)

end SlotRecord
