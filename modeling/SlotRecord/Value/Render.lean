import SlotRecord.Value.Basic
import SlotRecord.Decimal.Style
import SlotRecord.Text.Literal

/-!
# The texts of a value

Containers are written from the texts of their parts. A host object writes its
own text and may refuse; the first refusal in the order of writing is the
outcome of the whole.

What is shown to a developer names the variant of every value, so it tells apart
what equality does not. It is defined for every value.
-/

namespace SlotRecord

def intText (number : Int) : List Char :=
  (if number < 0 then ['-'] else []) ++ decimalText number.natAbs

namespace Number

/-- Floating-point values are positional from `1e-4` on and below `1e16`, keep
a point or an exponent, and have at least two digits in an exponent. -/
def style : FloatStyle := ⟨.up, some (-4, 16), true, 2⟩

def renderReal (value : Binary64) : List Char :=
  if value.isNaN then "nan".toList
  else if value.isFinite then style.text value
  else if value.negative then "-inf".toList
  else "inf".toList

def render : Number → List Char
  | .signed value => intText value.toInt
  | .unsigned value => decimalText value.toNat
  | .real value => renderReal value

end Number

/-- The parts of a container with a comma and a space between two of them. -/
def commaJoined (parts : List (List Char)) : List Char :=
  List.intercalate [',', ' '] parts

namespace Value

mutual

def render : Value → Except Fault (List Char)
  | .null => .ok "None".toList
  | .bool true => .ok "True".toList
  | .bool false => .ok "False".toList
  | .number value => .ok value.render
  | .text value => .ok (Literal.write value.toList)
  | .list items => do
      let parts ← renderItems items
      return '[' :: (commaJoined parts ++ [']'])
  | .dict entries => do
      let parts ← renderEntries entries
      return '\x7b' :: (commaJoined parts ++ ['\x7d'])
  | .host object => object.rendering.map String.toList

def renderItems : List Value → Except Fault (List (List Char))
  | [] => .ok []
  | head :: tail => do
      let first ← head.render
      let rest ← renderItems tail
      return first :: rest

def renderEntries : List (String × Value) → Except Fault (List (List Char))
  | [] => .ok []
  | (key, head) :: tail => do
      let first ← head.render
      let rest ← renderEntries tail
      return (Literal.write key.toList ++ ':' :: ' ' :: first) :: rest

end

end Value

namespace Number

/-- Floating-point values are positional throughout and without a `.0`. -/
def inspectStyle : FloatStyle := ⟨.up, none, false, 1⟩

def inspectReal (value : Binary64) : List Char :=
  if value.isNaN then "NaN".toList
  else if value.isFinite then inspectStyle.text value
  else if value.negative then "-inf".toList
  else "inf".toList

def inspect : Number → List Char
  | .signed value => "I64(".toList ++ intText value.toInt ++ [')']
  | .unsigned value => "U64(".toList ++ decimalText value.toNat ++ [')']
  | .real value => "F64(".toList ++ inspectReal value ++ [')']

end Number

namespace Value

mutual

def inspect : Value → List Char
  | .null => "Null".toList
  | .bool value => "Bool(".toList ++ (if value then "true" else "false").toList ++ [')']
  | .number value => "Number(".toList ++ value.inspect ++ [')']
  | .text value => "Str(".toList ++ Inspect.text value.toList ++ [')']
  | .list items => "Array([".toList ++ commaJoined (inspectItems items) ++ [']', ')']
  | .dict entries =>
      "Object(\x7b".toList ++ commaJoined (inspectEntries entries) ++ ['\x7d', ')']
  | .host object => "Host(<".toList ++ object.identity.toList ++ ['>', ')']

def inspectItems : List Value → List (List Char)
  | [] => []
  | head :: tail => head.inspect :: inspectItems tail

def inspectEntries : List (String × Value) → List (List Char)
  | [] => []
  | (key, head) :: tail =>
      (Inspect.text key.toList ++ ':' :: ' ' :: head.inspect) :: inspectEntries tail

end

end Value

end SlotRecord
