import SlotRecord.Workspace.Basic

/-!
# Commands

A command changes a workspace and is answered. Names that a command reads must
be there; a name that it takes is free afterwards even if the command fails. A
command that fails stores nothing.
-/

namespace SlotRecord

inductive Command
  | build (target : String) (declaration : Declaration) (settings : BuildSettings)
      (pinned : Bool)
  | copySchema (name target : String)
  | dropSchema (name : String)
  | schemaOf (record target : String)
  | make (schema : String) (positional : List Value) (source : Option Source)
      (target : String)
  | makeFrom (schema : String) (sequence : Value) (argument : Option Value)
      (target : String)
  | update (record : String) (changes : Dict Value) (target : String)
  | dispose (record : String)
  | takeApart (record target : String)
  | copyParts (parts target : String)
  | dropParts (parts : String)
  | editParts (parts : String) (visible : Option (List Value)) (hidden : Option (Dict Value))
  | assemble (parts target : String)
  | makePortable (parts target : String)
  | storeWire (wire : WireRecord) (target : String)
  | register (schema : String) (move : Bool)
  | resolve (name target : String)
  | assembleWire (wire target : String)
  | retire (name : String) (target : Option String)
  | track (tracker record : String)
  | untrack (tracker record : String)

inductive Refusal
  | noSuchName (name : String)
  | fault (fault : Fault)

inductive Answer
  | done
  | count (number : Nat)
  | flag (value : Bool)
  | schema (ref : SchemaRef)
  | record (record : Record)
  | parts (parts : Parts)
  | wire (wire : WireRecord)

/-- The outcome of a command and the names that a source was asked for. -/
structure Reply where
  asked : List String
  outcome : Except Refusal Answer

namespace Reply

def ok (answer : Answer) : Reply := ⟨[], .ok answer⟩

def fault (fault : Fault) : Reply := ⟨[], .error (.fault fault)⟩

def noSuchName (name : String) : Reply := ⟨[], .error (.noSuchName name)⟩

end Reply

namespace Workspace

/-- Goes on with what a name is bound to, if it is bound. -/
def withBound {α : Type} (workspace : Workspace) (bindings : Dict α) (name : String)
    (next : α → Workspace × Reply) : Workspace × Reply :=
  match Dict.get? name bindings with
  | some found => next found
  | none => (workspace, .noSuchName name)

def build (workspace : Workspace) (target : String) (declaration : Declaration)
    (settings : BuildSettings) (pinned : Bool) : Workspace × Reply :=
  match declaration.build settings with
  | .error fault => (workspace, .fault fault)
  | .ok schema =>
    let ref : SchemaRef := ⟨workspace.holders.length, pinned, schema⟩
    let counted := { workspace with holders := workspace.holders ++ [1] }
    (counted.storeSchema target ref, .ok (.schema ref))

/-- Stores the record of a successful attempt. -/
def keep (workspace : Workspace) (attempt : Attempt Record) (target : String) :
    Workspace × Reply :=
  match attempt.outcome with
  | .error fault => (workspace, ⟨attempt.asked, .error (.fault fault)⟩)
  | .ok record =>
    ((workspace.enroll record).storeRecord target record,
      ⟨attempt.asked, .ok (.record record)⟩)

/-- Puts parts that were taken from their name together; their own hold on the
schema ends in any case. -/
def assembleTaken (workspace : Workspace) (parts : Parts) (target : String) :
    Workspace × Reply :=
  let attempt := parts.assemble workspace.nextSerial
  match attempt.outcome with
  | .error fault => (workspace.release parts.schema, .fault fault)
  | .ok record =>
    (((workspace.enroll record).release parts.schema).storeRecord target record,
      .ok (.record record))

def editParts (workspace : Workspace) (name : String) (parts : Parts) : Workspace × Reply :=
  ({ workspace with parts := Dict.insert name parts workspace.parts }, .ok (.parts parts))

/-- Registers a handle. One that is moved goes over to the registry, or is
released if the registry refuses it; otherwise the registry gets a copy. -/
def register (workspace : Workspace) (name : String) (ref : SchemaRef) (move : Bool) :
    Workspace × Reply :=
  let taken := if move then workspace.eraseSchema name else workspace.acquire ref
  match workspace.registry.register ref with
  | .error fault => (taken.release ref, .fault fault)
  | .ok registry =>
    ({ taken with registry := registry }, .ok (.count registry.length))

def retire (workspace : Workspace) (name : String) (target : Option String) :
    Workspace × Reply :=
  match workspace.registry.retire workspace.holdersOf name with
  | .error fault => (workspace, .fault fault)
  | .ok (ref, registry) =>
    let removed := { workspace with registry := registry }
    match target with
    | some target => (removed.storeSchema target ref, .ok (.schema ref))
    | none => (removed.release ref, .ok (.schema ref))

def step (workspace : Workspace) : Command → Workspace × Reply
  | .build target declaration settings pinned =>
      workspace.build target declaration settings pinned
  | .copySchema name target =>
      workspace.withBound workspace.schemas name fun ref =>
        ((workspace.acquire ref).storeSchema target ref, .ok .done)
  | .dropSchema name =>
      workspace.withBound workspace.schemas name fun ref =>
        ((workspace.eraseSchema name).release ref, .ok .done)
  | .schemaOf record target =>
      workspace.withBound workspace.records record fun record =>
        ((workspace.acquire record.schema).storeSchema target record.schema, .ok .done)
  | .make schema positional source target =>
      workspace.withBound workspace.schemas schema fun ref =>
        workspace.keep (Record.make ref workspace.nextSerial positional source) target
  | .makeFrom schema sequence argument target =>
      workspace.withBound workspace.schemas schema fun ref =>
        workspace.keep ⟨[], Record.makeFrom ref workspace.nextSerial sequence argument⟩
          target
  | .update record changes target =>
      workspace.withBound workspace.records record fun record =>
        workspace.keep ⟨[], record.update workspace.nextSerial changes⟩ target
  | .dispose record =>
      workspace.withBound workspace.records record fun found =>
        ((workspace.eraseRecord record).discard found, .ok .done)
  | .takeApart record target =>
      workspace.withBound workspace.records record fun record =>
        ((workspace.acquire record.schema).storeParts target record.parts,
          .ok (.parts record.parts))
  | .copyParts parts target =>
      workspace.withBound workspace.parts parts fun parts =>
        ((workspace.acquire parts.schema).storeParts target parts, .ok .done)
  | .dropParts parts =>
      workspace.withBound workspace.parts parts fun found =>
        ((workspace.eraseParts parts).release found.schema, .ok .done)
  | .editParts parts visible hidden =>
      workspace.withBound workspace.parts parts fun found =>
        workspace.editParts parts
          ⟨found.schema, visible.getD found.visible, hidden.getD found.hidden⟩
  | .assemble parts target =>
      workspace.withBound workspace.parts parts fun found =>
        (workspace.eraseParts parts).assembleTaken found target
  | .makePortable parts target =>
      workspace.withBound workspace.parts parts fun found =>
        (((workspace.eraseParts parts).release found.schema).storeWire target
          found.toWire, .ok (.wire found.toWire))
  | .storeWire wire target => (workspace.storeWire target wire, .ok (.wire wire))
  | .register schema move =>
      workspace.withBound workspace.schemas schema fun ref =>
        workspace.register schema ref move
  | .resolve name target =>
      match Dict.get? name workspace.registry with
      | none => (workspace, .ok (.flag false))
      | some ref => ((workspace.acquire ref).storeSchema target ref, .ok (.flag true))
  | .assembleWire wire target =>
      workspace.withBound workspace.wires wire fun wire =>
        let attempt := workspace.registry.assemble wire workspace.nextSerial
        workspace.keep ⟨[], attempt.outcome⟩ target
  | .retire name target => workspace.retire name target
  | .track tracker record =>
      workspace.withBound workspace.trackers tracker fun _ =>
        workspace.withBound workspace.records record fun record =>
          (workspace.updateTracker tracker fun tracker => tracker.track record.serial,
            .ok .done)
  | .untrack tracker record =>
      workspace.withBound workspace.trackers tracker fun _ =>
        workspace.withBound workspace.records record fun record =>
          (workspace.updateTracker tracker fun tracker => tracker.untrack record.serial,
            .ok .done)

/-- The workspace after some commands. -/
def run (workspace : Workspace) (commands : List Command) : Workspace :=
  commands.foldl (fun current command => (current.step command).1) workspace

end Workspace

end SlotRecord
