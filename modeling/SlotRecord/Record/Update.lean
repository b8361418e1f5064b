import SlotRecord.Record.Basic

/-!
# Making records from others

An update is a new record with some fields replaced by name. Loosely typed
arguments, a sequence and perhaps a dictionary, are checked for their kinds
before they fill a record.
-/

namespace SlotRecord

namespace Fault

def unnamedFields (schema : String) : Fault :=
  .mismatch s!"replace() is not supported for {schema}: it has unnamed fields"

def unknownNames (schema : String) (names : List String) : Fault :=
  let listed := ", ".intercalate names
  .mismatch s!"{schema}: unexpected field name(s): {listed}"

def notASequence (kind : String) : Fault :=
  .mismatch s!"constructor requires a sequence, got {kind}"

def notADict (schema kind : String) : Fault :=
  .mismatch s!"{schema}() takes a dict as second arg, if any (got {kind})"

end Fault

namespace Record

/-- The values of slots after some fields were replaced. -/
def replaced (changes : Dict Value) : List Field → List Value → List Value
  | field :: fields, current :: rest =>
      ((field.name.bind fun name => Dict.get? name changes).getD current) ::
        replaced changes fields rest
  | _, _ => []

/-- The positional values of an updated record. -/
def updatedSlots (record : Record) (changes : Dict Value) : Except Fault (List Value) :=
  let schema := record.schema.schema
  let unknown := (Dict.keys changes).filter fun name => (schema.slotOf name).isNone
  if 0 < schema.unnamedCount then .error (.unnamedFields schema.name)
  else if unknown ≠ [] then .error (.unknownNames schema.name unknown)
  else .ok (replaced changes schema.fields record.slots)

def update (record : Record) (serial : Nat) (changes : Dict Value) :
    Except Fault Record := do
  let positional ← record.updatedSlots changes
  (make record.schema serial positional none).outcome

/-- The source that an optional argument stands for. -/
def sourceOf (schema : String) : Option Value → Except Fault (Option Source)
  | none => .ok none
  | some .null => .ok none
  | some (.dict entries) => .ok (some (.ofDict entries))
  | some other => .error (.notADict schema other.kind)

/-- A record made of loosely typed arguments. -/
def makeFrom (schema : SchemaRef) (serial : Nat) (sequence : Value)
    (argument : Option Value) : Except Fault Record :=
  match sequence with
  | .list positional => do
      let source ← sourceOf schema.name argument
      (make schema serial positional source).outcome
  | other => .error (.notASequence other.kind)

end Record

end SlotRecord
