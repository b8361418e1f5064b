import SlotRecord.Text.Literal

/-!
# Schemas

A field has a name, or only a position. A declaration lists the fields of a record type in
slot order; the first `visible` of them form the sequence that its records are, the others
are hidden and reached by name.

A schema is a record type whose declaration was found sound: the visible fields
are among the fields, only visible fields lack a name, and no name occurs twice.
Its tables are read off its fields.
-/

namespace SlotRecord

structure Field where
  name : Option String
  doc : Option String
deriving DecidableEq, Repr

structure Declaration where
  name : String
  doc : Option String
  fields : List Field
  visible : Nat
deriving DecidableEq, Repr

/-- How types are built: the most fields a type may have, and the tracker that
its records are tracked by, if there is one. -/
structure BuildSettings where
  maxFields : Nat
  tracker : Option String
deriving DecidableEq, Repr

namespace BuildSettings

def standard : BuildSettings := ⟨256, none⟩

def inspect (settings : BuildSettings) : String :=
  "BuildConfig \x7b max_fields: " ++ toString settings.maxFields ++ ", .. \x7d"

end BuildSettings

def fieldNames (fields : List Field) : List String := fields.filterMap Field.name

structure Schema where
  name : String
  doc : Option String
  fields : List Field
  visible : Nat
  tracker : Option String
  visible_le : visible ≤ fields.length
  hidden_named : ∀ field ∈ fields.drop visible, field.name.isSome
  names_nodup : (fieldNames fields).Nodup

/-- A named field and where it is found. -/
structure FieldEntry where
  slot : Nat
  name : String
  doc : Option String
  visible : Bool
deriving DecidableEq, Repr

namespace Schema

def total (schema : Schema) : Nat := schema.fields.length

def hasHidden (schema : Schema) : Bool := schema.visible != schema.total

def unnamedCount (schema : Schema) : Nat :=
  schema.fields.countP fun field => field.name.isNone

/-- The field of a slot: `none` past the last slot. -/
def field? (schema : Schema) (slot : Nat) : Option Field := schema.fields[slot]?

def slotOf (schema : Schema) (name : String) : Option Nat :=
  schema.fields.findIdx? fun field => field.name == some name

/-- The names of the visible fields, in slot order. -/
def matchNames (schema : Schema) : List String :=
  fieldNames (schema.fields.take schema.visible)

/-- The named fields in slot order, counted from `slot`. -/
def entriesFrom (visible : Nat) : Nat → List Field → List FieldEntry
  | _, [] => []
  | slot, field :: rest =>
    match field.name with
    | some name =>
        ⟨slot, name, field.doc, decide (slot < visible)⟩ :: entriesFrom visible (slot + 1) rest
    | none => entriesFrom visible (slot + 1) rest

def entries (schema : Schema) : List FieldEntry :=
  entriesFrom schema.visible 0 schema.fields

/-- What a slot is called in the text of a record: its name, or its position
after an underscore. -/
def label (schema : Schema) (slot : Nat) : List Char :=
  match (schema.field? slot).bind Field.name with
  | some name => name.toList
  | none => '_' :: decimalText slot

/-- The part of a dotted name after its last dot, and the part before, if any. -/
def splitName (name : List Char) : List Char × Option (List Char) :=
  let (reversed, rest) := name.reverse.span (· ≠ '.')
  (reversed.reverse, rest.tail?.map List.reverse)

def shortName (schema : Schema) : String :=
  String.ofList (splitName schema.name.toList).1

def moduleName? (schema : Schema) : Option String :=
  (splitName schema.name.toList).2.map String.ofList

def inspect (schema : Schema) : String :=
  "RecordType \x7b name: " ++ inspectText schema.name ++
    ", n_visible: " ++ toString schema.visible ++
    ", n_total: " ++ toString schema.total ++
    ", n_unnamed: " ++ toString schema.unnamedCount ++ ", .. \x7d"

end Schema

/-- A handle of a schema. Schemas built separately have different identities. A
pinned one stays for good, any other as long as somebody holds it. -/
structure SchemaRef where
  identity : Nat
  pinned : Bool
  schema : Schema

namespace SchemaRef

/-- Whether two handles are of the same schema, not only of equal ones. -/
def same (first second : SchemaRef) : Bool := first.identity == second.identity

def name (ref : SchemaRef) : String := ref.schema.name

def inspect (ref : SchemaRef) : String :=
  (if ref.pinned then "Static(" else "Heap(") ++ ref.name ++ ")"

end SchemaRef

end SlotRecord
