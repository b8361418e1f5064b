import SlotRecord.Record.Fill
import SlotRecord.Value.Digest
import SlotRecord.Value.Render

/-!
# Records

A record has a value in every slot of its schema and never changes. As a
sequence it consists of its visible values: length, equality, hash and text
look at nothing else. Hidden values are reached by slot or by name.
-/

namespace SlotRecord

structure Record where
  schema : SchemaRef
  /-- Tells this record from all others that were made with it. -/
  serial : Nat
  slots : List Value
  complete : slots.length = schema.schema.total

namespace Record

/-- A record made of positional values and a source for the slots after them. -/
def make (schema : SchemaRef) (serial : Nat) (positional : List Value)
    (source : Option Source) : Attempt Record :=
  let attempt := schema.schema.fill positional source
  ⟨attempt.asked,
    match filled : attempt.outcome with
    | .error fault => .error fault
    | .ok slots => .ok ⟨schema, serial, slots, Schema.fill_length filled⟩⟩

def length (record : Record) : Nat := record.schema.schema.visible

def isEmpty (record : Record) : Bool := record.length == 0

/-- The values of the sequence. -/
def visible (record : Record) : List Value := record.slots.take record.length

/-- The value at a place of the sequence. -/
def get? (record : Record) (place : Nat) : Option Value := record.visible[place]?

/-- The value of a slot, visible or hidden. -/
def slot? (record : Record) (slot : Nat) : Option Value := record.slots[slot]?

/-- The value of a named field, visible or hidden. -/
def named? (record : Record) (name : String) : Option Value :=
  (record.schema.schema.slotOf name).bind record.slot?

def equal (first second : Record) : Bool :=
  Value.equalItems first.visible second.visible

/-- The bytes that a record feeds to its hash: its length, then its values. -/
def digest (record : Record) : Except Fault (List UInt8) := do
  let bytes ← Value.digestAll record.visible
  return littleEndian 8 record.length ++ bytes

def hash (record : Record) : Except Fault UInt64 := record.digest.map (xxHash 0)

/-- The labelled texts of values in slots from `slot` on. -/
def renderSlots (schema : Schema) : Nat → List Value → Except Fault (List (List Char))
  | _, [] => .ok []
  | slot, head :: tail => do
      let first ← head.render
      let rest ← renderSlots schema (slot + 1) tail
      return (schema.label slot ++ '=' :: first) :: rest

/-- The name of the type and the labelled visible values. -/
def render (record : Record) : Except Fault (List Char) := do
  let parts ← renderSlots record.schema.schema 0 record.visible
  return record.schema.name.toList ++ '(' :: (commaJoined parts ++ [')'])

/-- The text as a formatter gets it, which is not told why there is none. -/
def display? (record : Record) : Option (List Char) := record.render.toOption

/-- The record with all its slots, as shown to a developer. -/
def inspect (record : Record) : String :=
  "RecordInstance \x7b type: " ++ inspectText record.schema.name ++
    ", id: InstanceId(" ++ toString record.serial ++ "), slots: [" ++
    String.ofList (commaJoined (Value.inspectItems record.slots)) ++ "] \x7d"

end Record

end SlotRecord
