import SlotRecord.Value.Render

/-!
# Writing values as JSON

Texts are compact. Floating-point values that are not finite are written as
null, the others with their shortest digits.
-/

namespace SlotRecord

namespace Json

def escaped (character : Char) : List Char :=
  if character = '\x22' then ['\\', '\x22']
  else if character = '\\' then ['\\', '\\']
  else if character = '\x08' then ['\\', 'b']
  else if character = '\x0c' then ['\\', 'f']
  else if character = '\n' then ['\\', 'n']
  else if character = '\r' then ['\\', 'r']
  else if character = '\t' then ['\\', 't']
  else if character.toNat < 0x20 then '\\' :: 'u' :: Hex.fixed 4 character.toNat
  else [character]

def writeString (content : String) : List Char :=
  '\x22' :: (content.toList.flatMap escaped ++ ['\x22'])

/-- Floating-point values are positional from `1e-5` on and below `1e16`. -/
def style : FloatStyle := ⟨.even, some (-5, 16), true, 1⟩

def writeReal (value : Binary64) : List Char :=
  if value.isFinite then style.text value else "null".toList

def writeNumber : Number → List Char
  | .signed value => intText value.toInt
  | .unsigned value => decimalText value.toNat
  | .real value => writeReal value

/-- The parts of a container with a comma between two of them. -/
def separated (parts : List (List Char)) : List Char := List.intercalate [','] parts

def writeMember (key : String) (value : List Char) : List Char :=
  writeString key ++ ':' :: value

def writeArray (parts : List (List Char)) : List Char :=
  '[' :: (separated parts ++ [']'])

def writeObject (parts : List (List Char)) : List Char :=
  '\x7b' :: (separated parts ++ ['\x7d'])

end Json

open Json

namespace Value

mutual

def toJson : Value → Except Unwritable (List Char)
  | .null => .ok "null".toList
  | .bool value => .ok (if value then "true" else "false").toList
  | .number value => .ok (writeNumber value)
  | .text value => .ok (writeString value)
  | .list items => (itemsToJson items).map writeArray
  | .dict entries => (entriesToJson entries).map writeObject
  | .host object => .error ⟨object.typeName⟩

def itemsToJson : List Value → Except Unwritable (List (List Char))
  | [] => .ok []
  | head :: tail => do
      let first ← head.toJson
      let rest ← itemsToJson tail
      return first :: rest

def entriesToJson : List (String × Value) → Except Unwritable (List (List Char))
  | [] => .ok []
  | (key, head) :: tail => do
      let first ← head.toJson
      let rest ← entriesToJson tail
      return writeMember key first :: rest

end

end Value

end SlotRecord
