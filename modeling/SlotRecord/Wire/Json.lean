import SlotRecord.Json.Decode
import SlotRecord.Json.Writer
import SlotRecord.Wire.Basic

/-!
# Portable records as JSON

A record is written as an object of its three fields. It is read from an
object, or from an array of the two or three fields in their order. The record
itself counts as one of the containers that may be open.
-/

namespace SlotRecord

open Json

namespace WireRecord

def toJson (wire : WireRecord) : Except Unwritable (List Char) := do
  let visible ← Value.itemsToJson wire.visible
  let hidden ← Value.entriesToJson wire.hidden
  return writeObject [
    writeMember "type" (writeString wire.schema),
    writeMember "visible" (writeArray visible),
    writeMember "hidden" (writeObject hidden)]

/-- The containers that may be open inside the visible or hidden values. -/
def jsonBudget : Nat := nestingLimit - 2

namespace Json

def schema? : Node → Option String
  | .string content => content
  | _ => none

def visible? : Node → Option (List Value)
  | .array items => Value.ofNodes? jsonBudget items
  | _ => none

def hidden? : Node → Option (Dict Value)
  | .object members => (Value.ofMembers? jsonBudget members).map Dict.ofList
  | _ => none

def readers : FieldReaders Node := ⟨schema?, visible?, hidden?, fun _ => true⟩

/-- Members whose keys are texts. -/
def fields? : List (Option String × Node) → Option (List (String × Node))
  | [] => some []
  | (key, content) :: rest => do
      let name ← key
      let fields ← fields? rest
      return (name, content) :: fields

end Json

def ofNode? : Node → Option WireRecord
  | .object members => (Json.fields? members).bind (ofFields? Json.readers)
  | .array [schema, visible] => do
      return ⟨← Json.schema? schema, ← Json.visible? visible, []⟩
  | .array [schema, visible, hidden] => do
      return ⟨← Json.schema? schema, ← Json.visible? visible, ← Json.hidden? hidden⟩
  | _ => none

def fromJson? (text : String) : Option WireRecord :=
  (Node.read? text.toList).bind ofNode?

/-- The text of a record, a refusal to write it told as a fault. -/
def jsonText (wire : WireRecord) : Except Fault String :=
  match wire.toJson with
  | .ok text => .ok (String.ofList text)
  | .error refusal => .error (.serialization refusal.message)

end WireRecord

end SlotRecord
