import SlotRecord.Text.Literal

/-!
# Faults

Every refusal of the library is a `Fault`: its constructor is the cause, and
`Fault.message` is the one place where causes are put into words. Host objects stay with
their program: a value that holds one cannot be written as JSON or CBOR, and the refusal to
write it becomes a fault of the record that it is in.
-/

namespace SlotRecord

/-- How many positional values a record type takes. -/
inductive Arity
  | exactly (count : Nat)
  | atLeast (count : Nat)
  | atMost (count : Nat)
deriving DecidableEq, Repr

def Arity.phrase : Arity → String
  | .exactly count => s!"a {count}-sequence"
  | .atLeast count => s!"an at least {count}-sequence"
  | .atMost count => s!"an at most {count}-sequence"

inductive Fault
  | invalidDeclaration (reason : String)
  | tooManyFields (limit actual : Nat)
  | outOfMemory (purpose : String)
  | arity (schema : String) (bound : Arity) (actual : Nat)
  | lookup (field : String) (reason : String)
  | mismatch (reason : String)
  | unhashable (kind : String)
  | host (reason : String)
  | serialization (reason : String)
  | unknownSchema (name : String)
  | alreadyRegistered (name : String)
  | schemaInUse (name : String) (holders : Nat)
deriving DecidableEq, Repr

namespace Fault

def message : Fault → String
  | .invalidDeclaration reason => s!"invalid descriptor: {reason}"
  | .tooManyFields limit actual =>
      s!"record type exceeds the {limit}-field limit ({actual} fields)"
  | .outOfMemory purpose => s!"out of memory while allocating {purpose}"
  | .arity schema bound actual =>
      s!"{schema}() takes {bound.phrase} ({actual}-sequence given)"
  | .lookup field reason => s!"lookup of field '{field}' failed: {reason}"
  | .mismatch reason => s!"type mismatch: {reason}"
  | .unhashable kind => s!"unhashable value: {kind}"
  | .host reason => s!"host object error: {reason}"
  | .serialization reason => s!"serialization error: {reason}"
  | .unknownSchema name => s!"unknown record type: {name}"
  | .alreadyRegistered name => s!"record type already registered: {name}"
  | .schemaInUse name holders =>
      s!"record type {name} still has {holders} live holder(s)"

/-- The fault of a record whose slots found no room. -/
def storageExhausted : Fault := .outOfMemory "record storage"

/-- A fault met while a source is asked for `field`; one that already tells
of a lookup is passed on as it is. -/
def duringLookup (field : String) : Fault → Fault
  | .lookup inner reason => .lookup inner reason
  | other => .lookup field other.message

end Fault

/-- The refusal to write a host object, by the name of its type. -/
structure Unwritable where
  typeName : String
deriving DecidableEq, Repr

namespace Unwritable

def message (refusal : Unwritable) : String :=
  s!"host object of type {refusal.typeName} is not serializable"

def inspect (refusal : Unwritable) : String :=
  s!"Custom({inspectText refusal.message})"

end Unwritable

end SlotRecord
