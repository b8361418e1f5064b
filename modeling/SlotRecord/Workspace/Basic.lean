import SlotRecord.Record.Parts
import SlotRecord.Record.Update
import SlotRecord.Schema.Build

/-!
# Workspaces

A tracker knows which records are alive and how many it was ever told of.

A workspace owns named things: handles of schemas, records, records taken apart
and portable ones, beside one registry and some trackers. It counts the holders
of every schema: each handle, each record, each record taken apart, and the
registry. Whoever is stored or dropped changes the count of its schema, and a
record also tells the tracker of its schema.
-/

namespace SlotRecord

structure Tracker where
  live : List Nat
  tracked : Nat
  untracked : Nat
deriving DecidableEq, Repr

namespace Tracker

def fresh : Tracker := ⟨[], 0, 0⟩

def track (tracker : Tracker) (serial : Nat) : Tracker where
  live := if serial ∈ tracker.live then tracker.live else serial :: tracker.live
  tracked := tracker.tracked + 1
  untracked := tracker.untracked

def untrack (tracker : Tracker) (serial : Nat) : Tracker where
  live := tracker.live.filter (· ≠ serial)
  tracked := tracker.tracked
  untracked := tracker.untracked + 1

def isLive (tracker : Tracker) (serial : Nat) : Bool := tracker.live.contains serial

end Tracker

structure Workspace where
  schemas : Dict SchemaRef
  records : Dict Record
  parts : Dict Parts
  wires : Dict WireRecord
  registry : Registry
  trackers : Dict Tracker
  /-- The number of holders by the identity of the schema. -/
  holders : List Nat
  /-- The serial number that was last stored under the name of a record. -/
  lastSerials : Dict Nat
  nextSerial : Nat

namespace Workspace

/-- A workspace without anything but trackers. -/
def empty (trackers : List String) : Workspace where
  schemas := []
  records := []
  parts := []
  wires := []
  registry := []
  trackers := Dict.ofList (trackers.map fun name => (name, Tracker.fresh))
  holders := []
  lastSerials := []
  nextSerial := 1

def holdersOf (workspace : Workspace) (ref : SchemaRef) : Nat :=
  workspace.holders[ref.identity]?.getD 0

def acquire (workspace : Workspace) (ref : SchemaRef) : Workspace :=
  { workspace with holders := workspace.holders.modify ref.identity (· + 1) }

def release (workspace : Workspace) (ref : SchemaRef) : Workspace :=
  { workspace with holders := workspace.holders.modify ref.identity (· - 1) }

def updateTracker (workspace : Workspace) (name : String) (change : Tracker → Tracker) :
    Workspace :=
  match Dict.get? name workspace.trackers with
  | none => workspace
  | some tracker =>
    { workspace with trackers := Dict.insert name (change tracker) workspace.trackers }

/-- Tells the tracker of a schema, if it has one. -/
def updateTrackerOf (workspace : Workspace) (ref : SchemaRef)
    (change : Tracker → Tracker) : Workspace :=
  match ref.schema.tracker with
  | none => workspace
  | some name => workspace.updateTracker name change

/-- Takes in a record that was just made with the next serial number. -/
def enroll (workspace : Workspace) (record : Record) : Workspace :=
  let counted := workspace.acquire record.schema
  let numbered := { counted with nextSerial := workspace.nextSerial + 1 }
  numbered.updateTrackerOf record.schema fun tracker => tracker.track record.serial

/-- Lets go of a record that is no longer stored. -/
def discard (workspace : Workspace) (record : Record) : Workspace :=
  (workspace.updateTrackerOf record.schema fun tracker =>
    tracker.untrack record.serial).release record.schema

/-- Stores a handle that is already counted; the handle it replaces is released. -/
def storeSchema (workspace : Workspace) (name : String) (ref : SchemaRef) : Workspace :=
  let stored := { workspace with schemas := Dict.insert name ref workspace.schemas }
  match Dict.get? name workspace.schemas with
  | none => stored
  | some old => stored.release old

/-- Stores a record that is already enrolled; the record it replaces is discarded. -/
def storeRecord (workspace : Workspace) (name : String) (record : Record) : Workspace :=
  let stored := { workspace with
    records := Dict.insert name record workspace.records
    lastSerials := Dict.insert name record.serial workspace.lastSerials }
  match Dict.get? name workspace.records with
  | none => stored
  | some old => stored.discard old

/-- Stores parts whose schema is already counted; that of the parts they replace
is released. -/
def storeParts (workspace : Workspace) (name : String) (parts : Parts) : Workspace :=
  let stored := { workspace with parts := Dict.insert name parts workspace.parts }
  match Dict.get? name workspace.parts with
  | none => stored
  | some old => stored.release old.schema

def storeWire (workspace : Workspace) (name : String) (wire : WireRecord) : Workspace :=
  { workspace with wires := Dict.insert name wire workspace.wires }

def eraseSchema (workspace : Workspace) (name : String) : Workspace :=
  { workspace with schemas := Dict.erase name workspace.schemas }

def eraseRecord (workspace : Workspace) (name : String) : Workspace :=
  { workspace with records := Dict.erase name workspace.records }

def eraseParts (workspace : Workspace) (name : String) : Workspace :=
  { workspace with parts := Dict.erase name workspace.parts }

end Workspace

end SlotRecord
