import SlotRecord.Record.Basic

/-!
# Traversal

A visitor is shown what a record refers to: its schema, unless that is pinned,
and then the value of every slot. It has a state of its own, and after each
visit it says whether to go on.
-/

namespace SlotRecord

inductive Reference
  | schema (ref : SchemaRef)
  | value (value : Value)

inductive Flow
  | proceed
  | stop
deriving DecidableEq, Repr

/-- Shows references to a visitor until it stops or none is left. -/
def visitAll {σ : Type} (visit : σ → Reference → σ × Flow) : σ → List Reference → σ × Flow
  | state, [] => (state, .proceed)
  | state, head :: tail =>
    match visit state head with
    | (state, .stop) => (state, .stop)
    | (state, .proceed) => visitAll visit state tail

namespace Record

def references (record : Record) : List Reference :=
  (if record.schema.pinned then [] else [.schema record.schema]) ++
    record.slots.map .value

def traverse {σ : Type} (record : Record) (visit : σ → Reference → σ × Flow)
    (state : σ) : σ × Flow :=
  visitAll visit state record.references

end Record

end SlotRecord
