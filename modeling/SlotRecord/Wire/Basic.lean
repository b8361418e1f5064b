import SlotRecord.Value.Basic

/-!
# Portable records

A portable record names its schema and carries its visible values in order and
its hidden values by name. In every format it is read field by field: `type` and
`visible` must occur, `hidden` may be missing, none of them occurs twice, and
fields with other names are passed over.
-/

namespace SlotRecord

structure WireRecord where
  schema : String
  visible : List Value
  hidden : Dict Value

namespace WireRecord

def equal (first second : WireRecord) : Bool :=
  first.schema == second.schema && Value.equalItems first.visible second.visible &&
    Value.equalEntries first.hidden second.hidden

/-- The fields read so far. -/
structure Draft where
  schema : Option String
  visible : Option (List Value)
  hidden : Option (Dict Value)

/-- How a format reads the contents of fields. -/
structure FieldReaders (α : Type) where
  schema : α → Option String
  visible : α → Option (List Value)
  hidden : α → Option (Dict Value)
  /-- Whether the content of a field with another name can be passed over. -/
  skips : α → Bool

namespace Draft

def blank : Draft := ⟨none, none, none⟩

/-- Reads one field into a draft. -/
def accept {α : Type} (readers : FieldReaders α) (draft : Draft)
    (field : String × α) : Option Draft :=
  let (name, content) := field
  if name = "type" then
    if draft.schema.isSome then none
    else (readers.schema content).map fun found => { draft with schema := some found }
  else if name = "visible" then
    if draft.visible.isSome then none
    else (readers.visible content).map fun found => { draft with visible := some found }
  else if name = "hidden" then
    if draft.hidden.isSome then none
    else (readers.hidden content).map fun found => { draft with hidden := some found }
  else if readers.skips content then some draft
  else none

/-- The record of a draft that has all it needs. -/
def finish (draft : Draft) : Option WireRecord := do
  let schema ← draft.schema
  let visible ← draft.visible
  return ⟨schema, visible, draft.hidden.getD []⟩

end Draft

/-- The record of fields in any order. -/
def ofFields? {α : Type} (readers : FieldReaders α) (fields : List (String × α)) :
    Option WireRecord :=
  (fields.foldlM (Draft.accept readers) Draft.blank).bind Draft.finish

end WireRecord

end SlotRecord
