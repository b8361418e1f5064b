import Mathlib.Data.List.Induction
import SlotRecord.Proofs.Record.Making
import SlotRecord.Proofs.Workspace.Accounts

/-!
# Accounts of commands

Every command takes what it makes loose to a place where it is stored, or releases
it, also when it fails. So the counts are right after any commands whatsoever.
-/

namespace SlotRecord

/-- Whether a schema was built by one of some commands. -/
def SchemaRef.BuiltBy (commands : List Command) (ref : SchemaRef) : Prop :=
  ∃ target declaration settings,
    Command.build target declaration settings ref.pinned ∈ commands ∧
      declaration.build settings = .ok ref.schema

theorem SchemaRef.BuiltBy.mono {commands more : List Command} {ref : SchemaRef}
    (built : ref.BuiltBy commands) (among : commands ⊆ more) : ref.BuiltBy more := by
  obtain ⟨target, declaration, settings, member, same⟩ := built
  exact ⟨target, declaration, settings, among member, same⟩

namespace Registry

variable {registry : Registry} {holders : SchemaRef → Nat} {name : String}
  {ref : SchemaRef}

theorem retire_of_none (absent : Dict.get? name registry = none) :
    registry.retire holders name = .error (.unknownSchema name) := by
  simp only [retire, resolve, absent]
  rfl

theorem retire_of_some (bound : Dict.get? name registry = some ref) :
    registry.retire holders name =
      if !ref.pinned && 0 < holders ref - 1 then
        .error (.schemaInUse name (holders ref - 1))
      else .ok (ref, Dict.erase name registry) := by
  simp only [retire, resolve, bound]
  rfl

theorem of_retire {remaining : Registry}
    (retired : registry.retire holders name = .ok (ref, remaining)) :
    Dict.get? name registry = some ref ∧ remaining = Dict.erase name registry := by
  cases bound : Dict.get? name registry with
  | none =>
      rw [retire_of_none bound] at retired
      cases retired
  | some found =>
      rw [retire_of_some bound] at retired
      split at retired
      · cases retired
      · cases retired
        exact ⟨rfl, rfl⟩

end Registry

namespace Workspace

/-- A command that asks for a name either goes on with what is bound to it or is
refused. -/
theorem withBound_cases {workspace : Workspace} {α : Type} {bindings : Dict α}
    {name : String} {next : α → Workspace × Reply} {motive : Workspace × Reply → Prop}
    (absent : motive (workspace, .noSuchName name))
    (bound : ∀ found, Dict.get? name bindings = some found → motive (next found)) :
    motive (workspace.withBound bindings name next) := by
  rw [withBound]
  split
  · rename_i found held
    exact bound found held
  · exact absent

namespace Accounted

variable {origin : SchemaRef → Prop} {workspace : Workspace}

theorem withBound {α : Type} {bindings : Dict α} {name : String}
    {next : α → Workspace × Reply} (accounted : Accounted origin workspace 0)
    (bound : ∀ found, Dict.get? name bindings = some found →
      Accounted origin (next found).1 0) :
    Accounted origin (workspace.withBound bindings name next).1 0 :=
  withBound_cases (motive := fun outcome => Accounted origin outcome.1 0) accounted bound

theorem build (accounted : Accounted origin workspace 0) (target : String)
    {declaration : Declaration} {settings : BuildSettings} {pinned : Bool}
    (known : ∀ identity schema, declaration.build settings = .ok schema →
      origin ⟨identity, pinned, schema⟩) :
    Accounted origin (workspace.build target declaration settings pinned).1 0 := by
  rw [Workspace.build]
  split
  · exact accounted
  · rename_i schema built
    have counted : Accounted origin
        { workspace with holders := workspace.holders ++ [1] }
        ({⟨workspace.holders.length, pinned, schema⟩} + 0) :=
      { accounted with
        ledger := by
          rw [add_assoc]
          exact accounted.ledger.introduce (known _ schema built) rfl }
    exact counted.storeSchema target

/-- A record that was made of a schema that is held is stored with a hold of its own. -/
theorem keep (accounted : Accounted origin workspace 0) {attempt : Attempt Record}
    (target : String)
    (member : ∀ record, attempt.outcome = .ok record → record.schema ∈ workspace.held) :
    Accounted origin (workspace.keep attempt target).1 0 := by
  rw [Workspace.keep]
  split
  · exact accounted
  · rename_i record made
    have enrolled := accounted.enroll
      (Multiset.mem_add.mpr (Or.inr (member record made)))
    exact enrolled.storeRecord target

/-- Parts that were taken from their name give up their hold whether a record is
made of them or not. -/
theorem assembleTaken {parts : Parts}
    (accounted : Accounted origin workspace ({parts.schema} + 0)) (target : String) :
    Accounted origin (workspace.assembleTaken parts target).1 0 := by
  rw [Workspace.assembleTaken]
  split
  · exact accounted.release
  · rename_i record made
    have same : record.schema = parts.schema := (Record.of_make made).1
    have present : record.schema ∈ ({parts.schema} + 0 : Multiset SchemaRef) +
        workspace.held := by
      rw [same]
      exact Multiset.mem_add.mpr (Or.inl (Multiset.mem_add.mpr
        (Or.inl (Multiset.mem_singleton_self _))))
    have enrolled := accounted.enroll present
    rw [add_left_comm] at enrolled
    exact enrolled.release.storeRecord target

/-- Edited parts keep the hold of those that they replace. -/
theorem editParts {name : String} {old parts : Parts}
    (accounted : Accounted origin workspace 0)
    (bound : Dict.get? name workspace.parts = some old)
    (same : parts.schema = old.schema) :
    Accounted origin (workspace.editParts name parts).1 0 :=
  { accounted with
    parts := Dict.ordered_insert name parts accounted.parts
    ledger := by
      have ledger := accounted.ledger
      have moved := Dict.contents_insert Parts.schema name parts accounted.parts
      rw [Dict.contribution_of_some Parts.schema bound, same] at moved
      rw [held_parts] at ledger ⊢
      rw [← add_left_cancel moved] at ledger
      exact ledger }

/-- A handle that is moved is taken from its name before the registry sees it. -/
theorem register {name : String} {ref : SchemaRef}
    (accounted : Accounted origin workspace 0)
    (bound : Dict.get? name workspace.schemas = some ref) (move : Bool) :
    Accounted origin (workspace.register name ref move).1 0 := by
  rw [Workspace.register]
  have taken : Accounted origin
      (if move then workspace.eraseSchema name else workspace.acquire ref) ({ref} + 0) := by
    split
    · exact accounted.eraseSchema bound
    · exact accounted.acquire (Multiset.mem_add.mpr (Or.inr (mem_held_of_schemas bound)))
  have same : (if move then workspace.eraseSchema name
      else workspace.acquire ref).registry = workspace.registry := by
    split <;> rfl
  cases registered : workspace.registry.register ref with
  | error fault => exact taken.release
  | ok registry =>
      rw [Registry.register] at registered
      split at registered
      · cases registered
      · rename_i absent
        cases registered
        rw [← same] at absent ⊢
        apply taken.registerFresh
        rw [Dict.contains, Bool.not_eq_true, Option.isSome_eq_false_iff,
          Option.isNone_iff_eq_none] at absent
        exact absent

/-- A retired handle goes over to whoever asked for it. -/
theorem retire (accounted : Accounted origin workspace 0) (name : String)
    (target : Option String) : Accounted origin (workspace.retire name target).1 0 := by
  rw [Workspace.retire]
  cases retired : workspace.registry.retire workspace.holdersOf name with
  | error fault => exact accounted
  | ok outcome =>
      obtain ⟨ref, registry⟩ := outcome
      obtain ⟨bound, rfl⟩ := Registry.of_retire retired
      have removed := accounted.unregister bound
      cases target with
      | none => exact removed.release
      | some target => exact removed.storeSchema target

theorem step (accounted : Accounted origin workspace 0) (command : Command)
    (known : ∀ ref : SchemaRef, ref.BuiltBy [command] → origin ref) :
    Accounted origin (workspace.step command).1 0 := by
  have present : ∀ {ref}, ref ∈ workspace.held → ref ∈ 0 + workspace.held := by
    intro ref member
    exact Multiset.mem_add.mpr (Or.inr member)
  cases command with
  | build target declaration settings pinned =>
      apply accounted.build target
      intro identity schema built
      exact known _ ⟨target, declaration, settings, List.mem_cons_self, built⟩
  | copySchema name target =>
      apply accounted.withBound
      intro ref bound
      exact (accounted.acquire (present (mem_held_of_schemas bound))).storeSchema target
  | dropSchema name =>
      apply accounted.withBound
      intro ref bound
      exact (accounted.eraseSchema bound).release
  | schemaOf record target =>
      apply accounted.withBound
      intro record bound
      exact (accounted.acquire (present (mem_held_of_records bound))).storeSchema target
  | make schema positional source target =>
      apply accounted.withBound
      intro ref bound
      apply accounted.keep
      intro record made
      rw [(Record.of_make made).1]
      exact mem_held_of_schemas bound
  | makeFrom schema sequence argument target =>
      apply accounted.withBound
      intro ref bound
      apply accounted.keep
      intro record made
      rw [(Record.of_makeFrom made).1]
      exact mem_held_of_schemas bound
  | update record changes target =>
      apply accounted.withBound
      intro old bound
      apply accounted.keep
      intro record made
      rw [(Record.of_update made).1]
      exact mem_held_of_records bound
  | dispose record =>
      apply accounted.withBound
      intro record bound
      exact (accounted.eraseRecord bound).discard
  | takeApart record target =>
      apply accounted.withBound
      intro record bound
      have acquired : Accounted origin (workspace.acquire record.schema)
          ({record.parts.schema} + 0) :=
        accounted.acquire (present (mem_held_of_records bound))
      exact acquired.storeParts target
  | copyParts parts target =>
      apply accounted.withBound
      intro parts bound
      exact (accounted.acquire (present (mem_held_of_parts bound))).storeParts target
  | dropParts parts =>
      apply accounted.withBound
      intro parts bound
      exact (accounted.eraseParts bound).release
  | editParts parts visible hidden =>
      apply accounted.withBound
      intro old bound
      exact accounted.editParts bound rfl
  | assemble parts target =>
      apply accounted.withBound
      intro parts bound
      exact (accounted.eraseParts bound).assembleTaken target
  | makePortable parts target =>
      apply accounted.withBound
      intro parts bound
      exact (accounted.eraseParts bound).release.storeWire target _
  | storeWire wire target => exact accounted.storeWire target wire
  | register schema move =>
      apply accounted.withBound
      intro ref bound
      exact accounted.register bound move
  | resolve name target =>
      rw [Workspace.step]
      split
      · exact accounted
      · rename_i ref bound
        exact (accounted.acquire (present (mem_held_of_registry bound))).storeSchema target
  | assembleWire wire target =>
      apply accounted.withBound
      intro wire bound
      apply accounted.keep
      intro record made
      exact mem_held_of_registry (Registry.of_assemble made).1
  | retire name target => exact accounted.retire name target
  | track tracker record =>
      apply accounted.withBound
      intro tracker bound
      apply accounted.withBound
      intro record recordBound
      exact accounted.updateTracker _ _
  | untrack tracker record =>
      apply accounted.withBound
      intro tracker bound
      apply accounted.withBound
      intro record recordBound
      exact accounted.updateTracker _ _

theorem mono {other : SchemaRef → Prop} {loose : Multiset SchemaRef}
    (accounted : Accounted origin workspace loose)
    (weaker : ∀ ref, origin ref → other ref) : Accounted other workspace loose :=
  { accounted with
    ledger := { accounted.ledger with
      origin := fun ref member => weaker ref (accounted.ledger.origin ref member) } }

end Accounted

theorem accounted_empty (origin : SchemaRef → Prop) (trackers : List String) :
    Accounted origin (empty trackers) 0 where
  schemas := List.Pairwise.nil
  records := List.Pairwise.nil
  parts := List.Pairwise.nil
  registry := List.Pairwise.nil
  keyed := fun _ member => absurd member List.not_mem_nil
  ledger := Ledger.empty

theorem run_append_singleton (workspace : Workspace) (commands : List Command)
    (command : Command) :
    workspace.run (commands ++ [command]) =
      ((workspace.run commands).step command).1 := by
  rw [run, run, List.foldl_append, List.foldl_cons, List.foldl_nil]

/-- After any commands the counts are those of the holders that are stored, and all
these hold schemas that were built by some of the commands. -/
theorem accounted_run (trackers : List String) (commands : List Command) :
    Accounted (SchemaRef.BuiltBy commands) ((empty trackers).run commands) 0 := by
  induction commands using List.reverseRecOn with
  | nil => exact accounted_empty _ trackers
  | append_singleton commands command induction =>
      rw [run_append_singleton]
      apply (induction.mono _).step
      · intro ref built
        exact built.mono (List.subset_append_right _ _)
      · intro ref built
        exact built.mono (List.subset_append_left _ _)

end Workspace

end SlotRecord
