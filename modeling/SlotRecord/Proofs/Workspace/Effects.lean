import SlotRecord.Proofs.Workspace.Commands

/-!
# Effects on records

Whatever a command does besides, it makes one record, lets go of one, or touches
none. What it does to the trackers follows from that.
-/

namespace SlotRecord

/-- Whether a record is of a schema that was built with the tracker of a name. -/
def Record.IsTrackedBy (name : String) (record : Record) : Prop :=
  record.schema.schema.tracker = some name

instance (name : String) : DecidablePred (Record.IsTrackedBy name) :=
  fun record => inferInstanceAs (Decidable (record.schema.schema.tracker = some name))

namespace Tracker

/-- The tracker of a name after a record was made. -/
def afterMade (name : String) (record : Record) (tracker : Tracker) : Tracker :=
  if record.IsTrackedBy name then tracker.track record.serial else tracker

/-- The tracker of a name after a record was let go of. -/
def afterGone (name : String) (record : Record) (tracker : Tracker) : Tracker :=
  if record.IsTrackedBy name then tracker.untrack record.serial else tracker

/-- The tracker of a name after a record was overwritten, if there was one. -/
def afterOverwritten (name : String) : Option Record → Tracker → Tracker
  | none, tracker => tracker
  | some record, tracker => tracker.afterGone name record

end Tracker

/-- The record that a command made, which it answers with. -/
def Reply.made? (reply : Reply) : Option Record :=
  match reply.outcome with
  | .ok (.record record) => some record
  | _ => none

/-- Whether a command speaks to a tracker itself. -/
def Command.isDirect : Command → Bool
  | .track _ _ | .untrack _ _ => true
  | _ => false

/-- The part of a workspace that has to do with records. -/
structure Roster where
  records : Dict Record
  trackers : Dict Tracker
  nextSerial : Nat

/-- What a command can do to a roster. -/
inductive Roster.Effect (before after : Roster) (reply : Reply) : Prop
  | none (answer : reply.made? = none) (same : after = before)
  | made (target : String) (record : Record) (answer : reply.made? = some record)
      (number : record.serial = before.nextSerial)
      (records : after.records = Dict.insert target record before.records)
      (trackers : ∀ name, Dict.get? name after.trackers =
        (Dict.get? name before.trackers).map fun tracker =>
          (tracker.afterMade name record).afterOverwritten name
            (Dict.get? target before.records))
      (serial : after.nextSerial = before.nextSerial + 1)
  | gone (name : String) (record : Record) (answer : reply = .ok .done)
      (bound : Dict.get? name before.records = some record)
      (records : after.records = Dict.erase name before.records)
      (trackers : ∀ name, Dict.get? name after.trackers =
        (Dict.get? name before.trackers).map (Tracker.afterGone name record))
      (serial : after.nextSerial = before.nextSerial)

namespace Workspace

def roster (workspace : Workspace) : Roster :=
  ⟨workspace.records, workspace.trackers, workspace.nextSerial⟩

section

variable (workspace : Workspace)

theorem roster_storeSchema (name : String) (ref : SchemaRef) :
    (workspace.storeSchema name ref).roster = workspace.roster := by
  rw [storeSchema]
  split <;> rfl

theorem roster_storeParts (name : String) (parts : Parts) :
    (workspace.storeParts name parts).roster = workspace.roster := by
  rw [storeParts]
  split <;> rfl

theorem roster_build (target : String) (declaration : Declaration)
    (settings : BuildSettings) (pinned : Bool) :
    (workspace.build target declaration settings pinned).1.roster = workspace.roster := by
  rw [build]
  split
  · rfl
  · exact roster_storeSchema _ target _

theorem roster_register (name : String) (ref : SchemaRef) (move : Bool) :
    (workspace.register name ref move).1.roster = workspace.roster := by
  rw [register]
  cases move <;> cases workspace.registry.register ref <;> rfl

theorem roster_retire (name : String) (target : Option String) :
    (workspace.retire name target).1.roster = workspace.roster := by
  rw [retire]
  split
  · rfl
  · cases target with
    | none => rfl
    | some target => exact roster_storeSchema _ target _

theorem get?_updateTracker (name other : String) (change : Tracker → Tracker) :
    Dict.get? name (workspace.updateTracker other change).trackers =
      (Dict.get? name workspace.trackers).map fun tracker =>
        if other = name then change tracker else tracker := by
  rw [updateTracker]
  by_cases same : other = name
  · subst same
    split
    · rename_i absent
      rw [absent]
      rfl
    · rename_i tracker bound
      rw [Dict.get?_insert, bound, if_pos rfl, Option.map_some, if_pos rfl]
  · split
    · simp only [if_neg same, Option.map_id']
    · simp only [Dict.get?_insert, if_neg same, Option.map_id']

theorem get?_updateTrackerOf (name : String) (ref : SchemaRef)
    (change : Tracker → Tracker) :
    Dict.get? name (workspace.updateTrackerOf ref change).trackers =
      (Dict.get? name workspace.trackers).map fun tracker =>
        if ref.schema.tracker = some name then change tracker else tracker := by
  rw [updateTrackerOf]
  split
  · rename_i untracked
    simp only [untracked, reduceCtorEq, if_false, Option.map_id']
  · rename_i other tracked
    simp only [get?_updateTracker, tracked, Option.some.injEq]

theorem get?_trackers_enroll (name : String) (record : Record) :
    Dict.get? name (workspace.enroll record).trackers =
      (Dict.get? name workspace.trackers).map (Tracker.afterMade name record) :=
  get?_updateTrackerOf _ name record.schema _

theorem get?_trackers_discard (name : String) (record : Record) :
    Dict.get? name (workspace.discard record).trackers =
      (Dict.get? name workspace.trackers).map (Tracker.afterGone name record) :=
  get?_updateTrackerOf _ name record.schema _

theorem get?_trackers_storeRecord (name target : String) (record : Record) :
    Dict.get? name (workspace.storeRecord target record).trackers =
      (Dict.get? name workspace.trackers).map
        (Tracker.afterOverwritten name (Dict.get? target workspace.records)) := by
  rw [storeRecord]
  split
  · rename_i fresh
    rw [fresh]
    exact Option.map_id'.symm
  · rename_i old bound
    rw [bound]
    exact get?_trackers_discard _ name old

/-- Only trackers change when one is told something. -/
theorem frame_updateTrackerOf (ref : SchemaRef) (change : Tracker → Tracker) :
    (workspace.updateTrackerOf ref change).records = workspace.records ∧
      (workspace.updateTrackerOf ref change).nextSerial = workspace.nextSerial := by
  rw [updateTrackerOf]
  split
  · exact ⟨rfl, rfl⟩
  · rw [updateTracker]
    split <;> exact ⟨rfl, rfl⟩

theorem frame_enroll (record : Record) :
    (workspace.enroll record).records = workspace.records ∧
      (workspace.enroll record).nextSerial = workspace.nextSerial + 1 :=
  frame_updateTrackerOf _ record.schema _

theorem frame_discard (record : Record) :
    (workspace.discard record).records = workspace.records ∧
      (workspace.discard record).nextSerial = workspace.nextSerial :=
  frame_updateTrackerOf _ record.schema _

theorem frame_storeRecord (target : String) (record : Record) :
    (workspace.storeRecord target record).records =
        Dict.insert target record workspace.records ∧
      (workspace.storeRecord target record).nextSerial = workspace.nextSerial := by
  rw [storeRecord]
  split
  · exact ⟨rfl, rfl⟩
  · exact frame_discard _ _

end

section

variable {workspace : Workspace}

open Roster

theorem effect_withBound {α : Type} {bindings : Dict α} {name : String}
    {next : α → Workspace × Reply}
    (effect : ∀ found, Dict.get? name bindings = some found →
      Effect workspace.roster (next found).1.roster (next found).2) :
    Effect workspace.roster (workspace.withBound bindings name next).1.roster
      (workspace.withBound bindings name next).2 :=
  withBound_cases
    (motive := fun outcome => Effect workspace.roster outcome.1.roster outcome.2)
    (.none rfl rfl) effect

/-- A record with the next serial number is enrolled, then stored. In between, the
hold of what it was made of may end. -/
theorem effect_storeRecord {enrolled : Workspace} {record : Record}
    (same : enrolled.roster = (workspace.enroll record).roster)
    (number : record.serial = workspace.nextSerial) (target : String)
    (asked : List String) :
    Effect workspace.roster (enrolled.storeRecord target record).roster
      ⟨asked, .ok (.record record)⟩ := by
  have records : enrolled.records = workspace.records :=
    (congrArg Roster.records same).trans (workspace.frame_enroll record).1
  have trackers : enrolled.trackers = (workspace.enroll record).trackers :=
    congrArg Roster.trackers same
  have serial : enrolled.nextSerial = workspace.nextSerial + 1 :=
    (congrArg Roster.nextSerial same).trans (workspace.frame_enroll record).2
  obtain ⟨stored, kept⟩ := enrolled.frame_storeRecord target record
  refine .made target record rfl number ?_ ?_ ?_
  · exact stored.trans (congrArg _ records)
  · intro name
    have told := enrolled.get?_trackers_storeRecord name target record
    rw [records, trackers, get?_trackers_enroll, Option.map_map] at told
    exact told
  · exact kept.trans serial

theorem effect_keep {attempt : Attempt Record} (target : String)
    (number : ∀ record, attempt.outcome = .ok record →
      record.serial = workspace.nextSerial) :
    Effect workspace.roster (workspace.keep attempt target).1.roster
      (workspace.keep attempt target).2 := by
  rw [keep]
  split
  · exact .none rfl rfl
  · rename_i record made
    exact effect_storeRecord rfl (number record made) target attempt.asked

theorem effect_assembleTaken (workspace : Workspace) (parts : Parts) (target : String) :
    Effect workspace.roster (workspace.assembleTaken parts target).1.roster
      (workspace.assembleTaken parts target).2 := by
  rw [assembleTaken]
  split
  · exact .none rfl rfl
  · rename_i record made
    have same : ((workspace.enroll record).release parts.schema).roster =
        (workspace.enroll record).roster := rfl
    exact effect_storeRecord same (Record.of_make made).2 target []

theorem effect_dispose {name : String} {record : Record}
    (bound : Dict.get? name workspace.records = some record) :
    Effect workspace.roster ((workspace.eraseRecord name).discard record).roster
      (.ok .done) := by
  obtain ⟨records, serial⟩ := (workspace.eraseRecord name).frame_discard record
  refine .gone name record rfl bound records ?_ serial
  intro tracker
  exact (workspace.eraseRecord name).get?_trackers_discard tracker record

theorem effect_step {command : Command} (indirect : command.isDirect = false) :
    Effect workspace.roster (workspace.step command).1.roster
      (workspace.step command).2 := by
  cases command with
  | build target declaration settings pinned =>
      refine .none ?_ (roster_build workspace target declaration settings pinned)
      rw [step, build]
      split <;> rfl
  | copySchema name target =>
      exact effect_withBound fun ref _ => .none rfl (roster_storeSchema _ target ref)
  | dropSchema name => exact effect_withBound fun ref _ => .none rfl rfl
  | schemaOf record target =>
      exact effect_withBound fun record _ =>
        .none rfl (roster_storeSchema _ target record.schema)
  | make schema positional source target =>
      exact effect_withBound fun ref _ =>
        effect_keep target fun record made => (Record.of_make made).2
  | makeFrom schema sequence argument target =>
      exact effect_withBound fun ref _ =>
        effect_keep target fun record made => (Record.of_makeFrom made).2
  | update record changes target =>
      exact effect_withBound fun old _ =>
        effect_keep target fun record made => (Record.of_update made).2
  | dispose record => exact effect_withBound fun found bound => effect_dispose bound
  | takeApart record target =>
      exact effect_withBound fun record _ =>
        .none rfl (roster_storeParts _ target record.parts)
  | copyParts parts target =>
      exact effect_withBound fun parts _ => .none rfl (roster_storeParts _ target parts)
  | dropParts parts => exact effect_withBound fun found _ => .none rfl rfl
  | editParts parts visible hidden => exact effect_withBound fun found _ => .none rfl rfl
  | assemble parts target =>
      exact effect_withBound fun found _ =>
        effect_assembleTaken (workspace.eraseParts parts) found target
  | makePortable parts target => exact effect_withBound fun found _ => .none rfl rfl
  | storeWire wire target => exact .none rfl rfl
  | register schema move =>
      apply effect_withBound
      intro ref bound
      refine .none ?_ (roster_register workspace schema ref move)
      rw [register]
      cases workspace.registry.register ref <;> rfl
  | resolve name target =>
      rw [step]
      split
      · exact .none rfl rfl
      · rename_i ref bound
        exact .none rfl (roster_storeSchema _ target ref)
  | assembleWire wire target =>
      exact effect_withBound fun wire _ =>
        effect_keep target fun record made => (Registry.of_assemble made).2
  | retire name target =>
      refine .none ?_ (roster_retire workspace name target)
      rw [step, retire]
      split
      · rfl
      · cases target <;> rfl
  | track tracker record => cases indirect
  | untrack tracker record => cases indirect

end

/-- Refused for want of a name, or done without an answer. -/
def RefusedOrDone (workspace : Workspace) (outcome : Workspace × Reply) : Prop :=
  (∃ name, outcome = (workspace, .noSuchName name)) ∨ outcome.2 = .ok .done

theorem refusedOrDone_step (workspace : Workspace) {command : Command}
    (direct : command.isDirect = true) :
    workspace.RefusedOrDone (workspace.step command) := by
  have refused : ∀ name, workspace.RefusedOrDone (workspace, .noSuchName name) :=
    fun name => Or.inl ⟨name, rfl⟩
  cases command with
  | track tracker record =>
      apply withBound_cases (refused tracker)
      intro _ _
      exact withBound_cases (refused record) fun _ _ => Or.inr rfl
  | untrack tracker record =>
      apply withBound_cases (refused tracker)
      intro _ _
      exact withBound_cases (refused record) fun _ _ => Or.inr rfl
  | _ => cases direct

/-- A command that fails leaves records, trackers and the next serial number as
they were. -/
theorem roster_of_error (workspace : Workspace) {command : Command} {refusal : Refusal}
    (failed : (workspace.step command).2.outcome = .error refusal) :
    (workspace.step command).1.roster = workspace.roster := by
  cases direct : command.isDirect with
  | true =>
      rcases workspace.refusedOrDone_step direct with ⟨name, refused⟩ | done
      · rw [refused]
      · rw [done] at failed
        cases failed
  | false =>
      have effect : Roster.Effect workspace.roster _ _ := effect_step direct
      cases effect with
      | none answer same => exact same
      | made target record answer number records trackers serial =>
          rw [Reply.made?, failed] at answer
          cases answer
      | gone name record answer bound records trackers serial =>
          rw [answer] at failed
          cases failed

/-- A record that was just made is stored. -/
theorem exists_stored_of_made (workspace : Workspace) {command : Command}
    {record : Record} (made : (workspace.step command).2.made? = some record) :
    ∃ target, Dict.get? target (workspace.step command).1.records = some record := by
  cases direct : command.isDirect with
  | true =>
      rcases workspace.refusedOrDone_step direct with ⟨name, refused⟩ | done
      · rw [refused] at made
        cases made
      · rw [done] at made
        cases made
  | false =>
      have effect : Roster.Effect workspace.roster _ _ := effect_step direct
      cases effect with
      | none answer same =>
          rw [answer] at made
          cases made
      | made target other answer number records trackers serial =>
          rw [answer] at made
          cases made
          refine ⟨target, (congrArg (Dict.get? target) records).trans ?_⟩
          rw [Dict.get?_insert, if_pos rfl]
      | gone name other answer bound records trackers serial =>
          rw [answer] at made
          cases made

/-- The answers to commands that are given one after the other. -/
def replies (workspace : Workspace) : List Command → List Reply
  | [] => []
  | command :: rest =>
      (workspace.step command).2 :: (workspace.step command).1.replies rest

/-- The records that commands make, in the order in which they are made. -/
def made (workspace : Workspace) (commands : List Command) : List Record :=
  (workspace.replies commands).filterMap Reply.made?

theorem replies_append_singleton (workspace : Workspace) (commands : List Command)
    (command : Command) :
    workspace.replies (commands ++ [command]) =
      workspace.replies commands ++ [((workspace.run commands).step command).2] := by
  induction commands generalizing workspace with
  | nil => rfl
  | cons first rest induction =>
      rw [List.cons_append, replies, replies, induction]
      rfl

theorem made_append_singleton (workspace : Workspace) (commands : List Command)
    (command : Command) :
    workspace.made (commands ++ [command]) = workspace.made commands ++
      ((workspace.run commands).step command).2.made?.toList := by
  rw [made, made, replies_append_singleton, List.filterMap_append]
  cases answer : ((workspace.run commands).step command).2.made? with
  | none => rw [List.filterMap_cons_none answer]; rfl
  | some record => rw [List.filterMap_cons_some answer]; rfl

end Workspace

end SlotRecord
