import SlotRecord.Record.Basic
import SlotRecord.Wire.Basic

/-!
# Records taken apart

The parts of a record are its schema, its visible values, and its hidden values
by name. They are enough to put an equal record together again, and they can be
made portable by naming the schema instead of holding it.

A registry binds names to schemas, each schema to its own name. It resolves the
names in portable records. A schema that is not pinned can be retired only when
the registry is its last holder.
-/

namespace SlotRecord

structure Parts where
  schema : SchemaRef
  visible : List Value
  hidden : Dict Value

/-- The named ones of some values, by the names of their fields. -/
def namedValues : List Field → List Value → List (String × Value)
  | field :: fields, value :: rest =>
    match field.name with
    | some name => (name, value) :: namedValues fields rest
    | none => namedValues fields rest
  | _, _ => []

def Record.parts (record : Record) : Parts where
  schema := record.schema
  visible := record.visible
  hidden := Dict.ofList
    (namedValues (record.schema.schema.fields.drop record.length)
      (record.slots.drop record.length))

namespace Parts

/-- The record that parts make. -/
def assemble (parts : Parts) (serial : Nat) : Attempt Record :=
  Record.make parts.schema serial parts.visible (some (.ofDict parts.hidden))

def toWire (parts : Parts) : WireRecord := ⟨parts.schema.name, parts.visible, parts.hidden⟩

end Parts

/-- The record that a portable form makes of a schema. -/
def WireRecord.assemble (wire : WireRecord) (schema : SchemaRef) (serial : Nat) :
    Attempt Record :=
  Record.make schema serial wire.visible (some (.ofDict wire.hidden))

abbrev Registry := Dict SchemaRef

namespace Registry

def register (registry : Registry) (ref : SchemaRef) : Except Fault Registry :=
  if Dict.contains ref.name registry then .error (.alreadyRegistered ref.name)
  else .ok (Dict.insert ref.name ref registry)

def resolve (registry : Registry) (name : String) : Except Fault SchemaRef :=
  match Dict.get? name registry with
  | some ref => .ok ref
  | none => .error (.unknownSchema name)

/-- Takes a schema out of the registry; `holders` counts all holders of a
schema, the registry among them. -/
def retire (registry : Registry) (holders : SchemaRef → Nat) (name : String) :
    Except Fault (SchemaRef × Registry) := do
  let ref ← registry.resolve name
  let others := holders ref - 1
  if !ref.pinned && 0 < others then .error (.schemaInUse name others)
  else .ok (ref, Dict.erase name registry)

/-- The record that a portable form makes of the schema it names. -/
def assemble (registry : Registry) (wire : WireRecord) (serial : Nat) : Attempt Record :=
  match registry.resolve wire.schema with
  | .error fault => ⟨[], .error fault⟩
  | .ok ref => wire.assemble ref serial

end Registry

end SlotRecord
