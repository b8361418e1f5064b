import SlotRecord.Cbor.Decode
import SlotRecord.Cbor.Writer
import SlotRecord.Wire.Basic

/-!
# Portable records as CBOR

A record is a map from texts. It takes one step of the nesting budget, and its
visible and hidden values take another one each.
-/

namespace SlotRecord

open Cbor

namespace WireRecord

def toCbor (wire : WireRecord) : Except Unwritable (List UInt8) := do
  let visible ← Value.itemsToCbor wire.visible
  let hidden ← Value.entriesToCbor wire.hidden
  return head 5 3 ++ writeText "type" ++ writeText wire.schema ++
    writeText "visible" ++ head 4 wire.visible.length ++ visible ++
    writeText "hidden" ++ head 5 wire.hidden.length ++ hidden

/-- The steps left inside a record. -/
def fieldBudget : Nat := nestingLimit - 1

/-- The steps left inside its visible or hidden values. -/
def cborBudget : Nat := nestingLimit - 2

namespace Cbor

def visible? : Item → Option (List Value)
  | .array items => Value.ofItems? cborBudget items
  | _ => none

def hidden? : Item → Option (Dict Value)
  | .map entries => (Value.ofEntries? cborBudget entries).map Dict.ofList
  | _ => none

def readers : FieldReaders Item :=
  ⟨Item.text? fieldBudget, visible?, hidden?, Item.skips fieldBudget⟩

/-- Entries whose keys are texts. -/
def fields? : List (Item × Item) → Option (List (String × Item))
  | [] => some []
  | (key, content) :: rest => do
      let name ← key.text? fieldBudget
      let fields ← fields? rest
      return (name, content) :: fields

end Cbor

def ofItem? : Item → Option WireRecord
  | .map entries => (Cbor.fields? entries).bind (ofFields? Cbor.readers)
  | _ => none

def fromCbor? (bytes : List UInt8) : Option WireRecord :=
  (Item.read? bytes).bind ofItem?

/-- The bytes of a record, a refusal to write it told as a fault. -/
def cborBytes (wire : WireRecord) : Except Fault (List UInt8) :=
  match wire.toCbor with
  | .ok bytes => .ok bytes
  | .error refusal => .error (.serialization s!"CBOR encode: {refusal.inspect}")

end WireRecord

end SlotRecord
