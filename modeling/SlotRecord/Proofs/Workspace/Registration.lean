import SlotRecord.Proofs.Dict.Keys
import SlotRecord.Proofs.Record.Filling
import SlotRecord.Proofs.Workspace.Retirement

/-!
# Registration

The registry is a partial map from names to schemas after any commands: it grows by
one binding with every registration that succeeds, shrinks by one with every
retirement that succeeds, and changes in no other way. Several schemas may have one
name, but it stands for one of them at a time.
-/

namespace SlotRecord

namespace Command

def isRegistration : Command → Bool
  | .register _ _ => true
  | _ => false

def isRetirement : Command → Bool
  | .retire _ _ => true
  | _ => false

end Command

def Reply.succeeded (reply : Reply) : Bool :=
  match reply.outcome with
  | .ok _ => true
  | .error _ => false

/-- A schema that is known may refuse the number of visible values, but nothing else. -/
theorem Registry.assemble_cases {registry : Registry} {wire : WireRecord} {ref : SchemaRef}
    (bound : Dict.get? wire.schema registry = some ref) (serial : Nat) :
    (∃ arity, (registry.assemble wire serial).outcome =
        .error (.arity ref.name arity wire.visible.length)) ∨
      ∃ record, (registry.assemble wire serial).outcome = .ok record := by
  have assembled : (registry.assemble wire serial).outcome =
      (Record.make ref serial wire.visible (some (.ofDict wire.hidden))).outcome := by
    simp only [assemble, resolve, bound]
    rfl
  rw [assembled]
  cases violated : ref.schema.violated? wire.visible.length with
  | some arity =>
      left
      exact ⟨arity, congrArg Attempt.outcome (Record.make_of_violated violated)⟩
  | none =>
      right
      have answered : ∀ name ∈ fieldNames (ref.schema.fields.drop wire.visible.length),
          ∃ answer, Source.consult (some (.ofDict wire.hidden)) name = .ok answer :=
        fun name _ => ⟨_, rfl⟩
      obtain ⟨record, made, _⟩ := Record.exists_make violated answered
      exact ⟨record, made⟩

/-- What a command can do to a registry. -/
inductive Registry.Effect (before after : Registry) (command : Command) (reply : Reply) : Prop
  | kept (same : after = before)
      (quiet : reply.succeeded = true →
        command.isRegistration = false ∧ command.isRetirement = false)
  | bound (ref : SchemaRef) (registration : command.isRegistration = true)
      (noRetirement : command.isRetirement = false)
      (answer : reply = .ok (.count (before.length + 1)))
      (free : Dict.get? ref.name before = none)
      (binding : after = Dict.insert ref.name ref before)
  | freed (name : String) (ref : SchemaRef) (retirement : command.isRetirement = true)
      (noRegistration : command.isRegistration = false) (answer : reply = .ok (.schema ref))
      (held : Dict.get? name before = some ref) (rest : after = Dict.erase name before)

namespace Workspace

section

variable (workspace : Workspace)

theorem registry_updateTracker (name : String) (change : Tracker → Tracker) :
    (workspace.updateTracker name change).registry = workspace.registry := by
  rw [updateTracker]
  split <;> rfl

theorem registry_updateTrackerOf (ref : SchemaRef) (change : Tracker → Tracker) :
    (workspace.updateTrackerOf ref change).registry = workspace.registry := by
  rw [updateTrackerOf]
  split
  · rfl
  · exact registry_updateTracker _ _ _

theorem registry_enroll (record : Record) :
    (workspace.enroll record).registry = workspace.registry :=
  registry_updateTrackerOf _ record.schema _

theorem registry_discard (record : Record) :
    (workspace.discard record).registry = workspace.registry :=
  registry_updateTrackerOf _ record.schema _

theorem registry_storeRecord (name : String) (record : Record) :
    (workspace.storeRecord name record).registry = workspace.registry := by
  rw [storeRecord]
  split
  · rfl
  · exact registry_discard _ _

theorem registry_storeParts (name : String) (parts : Parts) :
    (workspace.storeParts name parts).registry = workspace.registry := by
  rw [storeParts]
  split <;> rfl

theorem registry_build (target : String) (declaration : Declaration)
    (settings : BuildSettings) (pinned : Bool) :
    (workspace.build target declaration settings pinned).1.registry =
      workspace.registry := by
  rw [build]
  split
  · rfl
  · exact registry_storeSchema _ target _

theorem registry_keep (attempt : Attempt Record) (target : String) :
    (workspace.keep attempt target).1.registry = workspace.registry := by
  rw [keep]
  split
  · rfl
  · rename_i record made
    exact (registry_storeRecord _ target record).trans (workspace.registry_enroll record)

theorem registry_assembleTaken (parts : Parts) (target : String) :
    (workspace.assembleTaken parts target).1.registry = workspace.registry := by
  rw [assembleTaken]
  split
  · rfl
  · rename_i record made
    exact (registry_storeRecord _ target record).trans (workspace.registry_enroll record)

theorem registry_withBound {α : Type} (bindings : Dict α) (name : String)
    {next : α → Workspace × Reply}
    (same : ∀ found, (next found).1.registry = workspace.registry) :
    (workspace.withBound bindings name next).1.registry = workspace.registry := by
  apply withBound_cases (motive := fun outcome => outcome.1.registry = workspace.registry) rfl
  exact fun found _ => same found

/-- Only registrations and retirements touch the registry. -/
theorem registry_step {command : Command} (noRegistration : command.isRegistration = false)
    (noRetirement : command.isRetirement = false) :
    (workspace.step command).1.registry = workspace.registry := by
  cases command with
  | build target declaration settings pinned =>
      exact workspace.registry_build target declaration settings pinned
  | copySchema name target =>
      exact workspace.registry_withBound _ _ fun ref => registry_storeSchema _ target ref
  | dropSchema name => exact workspace.registry_withBound _ _ fun ref => rfl
  | schemaOf record target =>
      exact workspace.registry_withBound _ _ fun record =>
        registry_storeSchema _ target record.schema
  | make schema positional source target =>
      exact workspace.registry_withBound _ _ fun ref => workspace.registry_keep _ target
  | makeFrom schema sequence argument target =>
      exact workspace.registry_withBound _ _ fun ref => workspace.registry_keep _ target
  | update record changes target =>
      exact workspace.registry_withBound _ _ fun record => workspace.registry_keep _ target
  | dispose record =>
      exact workspace.registry_withBound _ _ fun found =>
        (workspace.eraseRecord record).registry_discard found
  | takeApart record target =>
      exact workspace.registry_withBound _ _ fun record =>
        registry_storeParts _ target record.parts
  | copyParts parts target =>
      exact workspace.registry_withBound _ _ fun parts => registry_storeParts _ target parts
  | dropParts parts => exact workspace.registry_withBound _ _ fun found => rfl
  | editParts parts visible hidden =>
      exact workspace.registry_withBound _ _ fun found => rfl
  | assemble parts target =>
      exact workspace.registry_withBound _ _ fun found =>
        (workspace.eraseParts parts).registry_assembleTaken found target
  | makePortable parts target => exact workspace.registry_withBound _ _ fun found => rfl
  | storeWire wire target => rfl
  | register schema move => cases noRegistration
  | resolve name target =>
      rw [step]
      split
      · rfl
      · exact registry_storeSchema _ target _
  | assembleWire wire target =>
      exact workspace.registry_withBound _ _ fun wire => workspace.registry_keep _ target
  | retire name target => cases noRetirement
  | track tracker record =>
      exact workspace.registry_withBound _ _ fun _ =>
        workspace.registry_withBound _ _ fun record => workspace.registry_updateTracker _ _
  | untrack tracker record =>
      exact workspace.registry_withBound _ _ fun _ =>
        workspace.registry_withBound _ _ fun record => workspace.registry_updateTracker _ _

/-- A handle whose name is free is bound to it. -/
theorem register_of_free {ref : SchemaRef}
    (free : Dict.get? ref.name workspace.registry = none) (handle : String) (move : Bool) :
    (workspace.register handle ref move).1.registry =
        Dict.insert ref.name ref workspace.registry ∧
      (workspace.register handle ref move).2 = .ok (.count (workspace.registry.length + 1)) := by
  have absent : ¬Dict.contains ref.name workspace.registry = true := by
    rw [Dict.contains, free]
    exact Bool.false_ne_true
  have registered : workspace.registry.register ref =
      .ok (Dict.insert ref.name ref workspace.registry) := by
    rw [Registry.register, if_neg absent]
  rw [register, registered]
  exact ⟨rfl, congrArg (fun length => Reply.ok (.count length))
    (Dict.length_insert_of_none free ref)⟩

/-- A name that is bound keeps its schema. -/
theorem register_of_bound {ref other : SchemaRef}
    (bound : Dict.get? ref.name workspace.registry = some other) (handle : String)
    (move : Bool) :
    (workspace.register handle ref move).1.registry = workspace.registry ∧
      (workspace.register handle ref move).2 = .fault (.alreadyRegistered ref.name) := by
  have present : Dict.contains ref.name workspace.registry = true := by
    rw [Dict.contains, bound]
    rfl
  have refused : workspace.registry.register ref = .error (.alreadyRegistered ref.name) := by
    rw [Registry.register, if_pos present]
  rw [register, refused]
  cases move <;> exact ⟨rfl, rfl⟩

theorem retire_of_free {name : String} (free : Dict.get? name workspace.registry = none)
    (target : Option String) :
    workspace.retire name target = (workspace, .fault (.unknownSchema name)) := by
  rw [retire, Registry.retire_of_none free]

/-- A bound name is either freed or refused, and then nothing changes. -/
theorem retire_of_bound {name : String} {ref : SchemaRef}
    (bound : Dict.get? name workspace.registry = some ref) (target : Option String) :
    (∃ holders,
      workspace.retire name target = (workspace, .fault (.schemaInUse name holders))) ∨
      (workspace.retire name target).1.registry = Dict.erase name workspace.registry ∧
        (workspace.retire name target).2 = .ok (.schema ref) := by
  rw [retire, Registry.retire_of_some bound]
  by_cases used : (!ref.pinned && decide (0 < workspace.holdersOf ref - 1)) = true
  · rw [if_pos used]
    exact Or.inl ⟨_, rfl⟩
  · rw [if_neg used]
    right
    cases target with
    | none => exact ⟨rfl, rfl⟩
    | some kept => exact ⟨registry_storeSchema _ kept ref, rfl⟩

theorem effect_register (handle : String) (move : Bool) :
    Registry.Effect workspace.registry (workspace.step (.register handle move)).1.registry
      (.register handle move) (workspace.step (.register handle move)).2 := by
  cases held : Dict.get? handle workspace.schemas with
  | none =>
      rw [step, withBound, held]
      exact .kept rfl fun succeeded => absurd succeeded Bool.false_ne_true
  | some ref =>
      rw [step, withBound, held]
      cases bound : Dict.get? ref.name workspace.registry with
      | none =>
          obtain ⟨binding, answer⟩ := workspace.register_of_free bound handle move
          exact .bound ref rfl rfl answer bound binding
      | some other =>
          obtain ⟨same, refused⟩ := workspace.register_of_bound bound handle move
          refine .kept same fun succeeded => ?_
          dsimp only at succeeded
          rw [refused] at succeeded
          cases succeeded

theorem effect_retire (name : String) (target : Option String) :
    Registry.Effect workspace.registry (workspace.step (.retire name target)).1.registry
      (.retire name target) (workspace.step (.retire name target)).2 := by
  rw [step]
  cases bound : Dict.get? name workspace.registry with
  | none =>
      rw [retire_of_free workspace bound]
      exact .kept rfl fun succeeded => absurd succeeded Bool.false_ne_true
  | some ref =>
      rcases workspace.retire_of_bound bound target with ⟨holders, refused⟩ | ⟨rest, answer⟩
      · rw [refused]
        exact .kept rfl fun succeeded => absurd succeeded Bool.false_ne_true
      · exact .freed name ref rfl rfl answer bound rest

theorem registry_effect_step (command : Command) :
    Registry.Effect workspace.registry (workspace.step command).1.registry command
      (workspace.step command).2 := by
  cases registration : command.isRegistration with
  | true =>
      cases command with
      | register handle move => exact workspace.effect_register handle move
      | _ => cases registration
  | false =>
      cases retirement : command.isRetirement with
      | true =>
          cases command with
          | retire name target => exact workspace.effect_retire name target
          | _ => cases retirement
      | false =>
          exact .kept (workspace.registry_step registration retirement) fun _ =>
            ⟨registration, retirement⟩

/-- A registration that succeeds adds a binding, a retirement that succeeds takes one
away. -/
theorem length_registry_step (ordered : Dict.Ordered workspace.registry)
    (command : Command) :
    (workspace.step command).1.registry.length +
        (if command.isRetirement && (workspace.step command).2.succeeded then 1 else 0) =
      workspace.registry.length +
        if command.isRegistration && (workspace.step command).2.succeeded then 1 else 0 := by
  cases workspace.registry_effect_step command with
  | kept same quiet =>
      rw [same]
      cases succeeded : (workspace.step command).2.succeeded with
      | true =>
          obtain ⟨noRegistration, noRetirement⟩ := quiet succeeded
          rw [noRegistration, noRetirement]
      | false => rw [Bool.and_false, Bool.and_false]
  | bound ref registration noRetirement answer free binding =>
      rw [registration, noRetirement, answer, binding, Dict.length_insert_of_none free]
      rfl
  | freed name ref retirement noRegistration answer held rest =>
      rw [retirement, noRegistration, answer, rest, ← Dict.length_erase ordered held]
      rfl

end

/-- How many of some commands are of a kind and succeed. -/
def successes (kind : Command → Bool) (workspace : Workspace) : List Command → Nat
  | [] => 0
  | command :: rest =>
      (if kind command && (workspace.step command).2.succeeded then 1 else 0) +
        (workspace.step command).1.successes kind rest

theorem successes_append_singleton (kind : Command → Bool) (workspace : Workspace)
    (commands : List Command) (command : Command) :
    workspace.successes kind (commands ++ [command]) =
      workspace.successes kind commands +
        if kind command && ((workspace.run commands).step command).2.succeeded then 1
        else 0 := by
  induction commands generalizing workspace with
  | nil => rw [List.nil_append, successes, successes, Nat.add_comm]; rfl
  | cons first rest induction =>
      rw [List.cons_append, successes, induction, successes, Nat.add_assoc]
      rfl

/-- The registry has as many bindings as registrations have succeeded, less the
retirements that have. -/
theorem length_registry_run (trackers : List String) (commands : List Command) :
    ((empty trackers).run commands).registry.length +
        (empty trackers).successes Command.isRetirement commands =
      (empty trackers).successes Command.isRegistration commands := by
  induction commands using List.reverseRecOn with
  | nil => rfl
  | append_singleton commands command induction =>
      have ordered := (accounted_run trackers commands).registry
      have stepped := ((empty trackers).run commands).length_registry_step ordered command
      rw [run_append_singleton, successes_append_singleton, successes_append_singleton]
      omega

/-- What becomes of a handle that is registered and of the registry. -/
structure Registers (workspace : Workspace) (ref : SchemaRef) (outcome : Workspace × Reply) :
    Prop where
  free : Dict.get? ref.name workspace.registry = none →
    outcome.2 = .ok (.count (workspace.registry.length + 1)) ∧
      ∀ name, Dict.get? name outcome.1.registry =
        if ref.name = name then some ref else Dict.get? name workspace.registry
  taken : Dict.get? ref.name workspace.registry ≠ none →
    outcome.2 = .fault (.alreadyRegistered ref.name) ∧
      outcome.1.registry = workspace.registry

/-- What becomes of a name that is retired and of the registry. -/
structure Retires (workspace : Workspace) (name : String) (outcome : Workspace × Reply) :
    Prop where
  unknown : Dict.get? name workspace.registry = none →
    outcome = (workspace, .fault (.unknownSchema name))
  known : ∀ ref, Dict.get? name workspace.registry = some ref →
    (∃ holders, outcome = (workspace, .fault (.schemaInUse name holders))) ∨
      outcome.2 = .ok (.schema ref) ∧
        ∀ other, Dict.get? other outcome.1.registry =
          if name = other then none else Dict.get? other workspace.registry
  again : outcome.2.succeeded = true → ∀ handle other move,
    Dict.get? handle outcome.1.schemas = some other → other.name = name →
      (outcome.1.step (.register handle move)).2.succeeded = true ∧
        Dict.get? name (outcome.1.step (.register handle move)).1.registry = some other

/-- What a registry makes of portable records. -/
structure Assembles (registry : Registry) (wire : WireRecord) (outcome : Except Fault Record) :
    Prop where
  unknown : ∀ name, outcome = .error (.unknownSchema name) ↔
    name = wire.schema ∧ Dict.get? wire.schema registry = none
  schema : ∀ record, outcome = .ok record → record.parts.toWire.schema = wire.schema

/-- A registry that binds schemas to their own names, no name twice, and that changes
only by registrations and retirements, in one binding each. -/
structure IsPartialMap (workspace : Workspace) : Prop where
  keyed : ∀ entry ∈ workspace.registry, entry.1 = entry.2.name
  unique : (Dict.keys workspace.registry).Nodup
  registers : ∀ handle ref move, Dict.get? handle workspace.schemas = some ref →
    workspace.Registers ref (workspace.step (.register handle move))
  retires : ∀ name target, workspace.Retires name (workspace.step (.retire name target))
  others : ∀ command,
    (workspace.step command).2.succeeded = false ∨
        command.isRegistration = false ∧ command.isRetirement = false →
      (workspace.step command).1.registry = workspace.registry
  assembles : ∀ wire serial,
    Assembles workspace.registry wire (workspace.registry.assemble wire serial).outcome

theorem registers (workspace : Workspace) {handle : String} {ref : SchemaRef}
    (held : Dict.get? handle workspace.schemas = some ref) (move : Bool) :
    workspace.Registers ref (workspace.step (.register handle move)) := by
  have stepped : workspace.step (.register handle move) =
      workspace.register handle ref move := by
    rw [step, withBound, held]
  rw [stepped]
  constructor
  · intro free
    obtain ⟨binding, answer⟩ := workspace.register_of_free free handle move
    refine ⟨answer, fun name => ?_⟩
    rw [binding, Dict.get?_insert]
  · intro taken
    obtain ⟨other, bound⟩ := Option.ne_none_iff_exists'.mp taken
    obtain ⟨same, refused⟩ := workspace.register_of_bound bound handle move
    exact ⟨refused, same⟩

theorem free_of_retire {workspace : Workspace} {name : String} {target : Option String}
    (succeeded : (workspace.step (.retire name target)).2.succeeded = true) :
    Dict.get? name (workspace.step (.retire name target)).1.registry = none := by
  rw [step] at succeeded ⊢
  cases bound : Dict.get? name workspace.registry with
  | none =>
      rw [workspace.retire_of_free bound] at succeeded
      cases succeeded
  | some ref =>
      rcases workspace.retire_of_bound bound target with ⟨holders, refused⟩ | ⟨rest, _⟩
      · rw [refused] at succeeded
        cases succeeded
      · rw [rest, Dict.get?_erase_self]

theorem retires (workspace : Workspace) (name : String) (target : Option String) :
    workspace.Retires name (workspace.step (.retire name target)) := by
  constructor
  · intro free
    exact workspace.retire_of_free free target
  · intro ref bound
    rcases workspace.retire_of_bound bound target with refused | ⟨rest, answer⟩
    · exact Or.inl refused
    · refine Or.inr ⟨answer, fun other => ?_⟩
      rw [step, rest, Dict.get?_erase]
  · intro succeeded handle other move held same
    subst same
    obtain ⟨answer, binding⟩ := (registers _ held move).free (free_of_retire succeeded)
    rw [answer, binding other.name, if_pos rfl]
    exact ⟨rfl, rfl⟩

theorem assembles {registry : Registry} (keyed : ∀ entry ∈ registry, entry.1 = entry.2.name)
    (wire : WireRecord) (serial : Nat) :
    Assembles registry wire (registry.assemble wire serial).outcome := by
  constructor
  · intro name
    cases bound : Dict.get? wire.schema registry with
    | none =>
        have unknown : (registry.assemble wire serial).outcome =
            .error (.unknownSchema wire.schema) := by
          simp only [Registry.assemble, Registry.resolve, bound]
        rw [unknown]
        constructor
        · intro same
          cases same
          exact ⟨rfl, rfl⟩
        · rintro ⟨rfl, _⟩
          rfl
    | some ref =>
        constructor
        · intro failed
          rcases Registry.assemble_cases bound serial with
            ⟨arity, refused⟩ | ⟨record, made⟩
          · rw [refused] at failed
            cases failed
          · rw [made] at failed
            cases failed
        · rintro ⟨_, impossible⟩
          cases impossible
  · intro record made
    exact (keyed _ (Dict.mem_of_get? (Registry.of_assemble made).1)).symm

/-- After any commands the registry is a partial map, and it has as many bindings as
registrations have succeeded, less the retirements that have. -/
theorem registry_partial_map (trackers : List String) (commands : List Command) :
    ((empty trackers).run commands).IsPartialMap ∧
      ((empty trackers).run commands).registry.length +
          (empty trackers).successes Command.isRetirement commands =
        (empty trackers).successes Command.isRegistration commands := by
  have accounted := accounted_run trackers commands
  refine ⟨?_, length_registry_run trackers commands⟩
  constructor
  · exact accounted.keyed
  · exact Dict.nodup_keys accounted.registry
  · intro handle ref move held
    exact registers _ held move
  · intro name target
    exact retires _ name target
  · intro command quiet
    cases registry_effect_step _ command with
    | kept same _ => exact same
    | bound ref registration noRetirement answer free binding =>
        rw [answer, registration] at quiet
        rcases quiet with refused | ⟨impossible, _⟩
        · cases refused
        · cases impossible
    | freed name ref retirement noRegistration answer held rest =>
        rw [answer, retirement] at quiet
        rcases quiet with refused | ⟨_, impossible⟩
        · cases refused
        · cases impossible
  · intro wire serial
    exact assembles accounted.keyed wire serial

/-- Two schemas of one name, of which one is registered. -/
def namesakes : List Command :=
  [.build "t" ⟨"point", none, [⟨some "x", none⟩], 1⟩ .standard false,
    .build "u" ⟨"point", none, [⟨some "y", none⟩], 1⟩ .standard false,
    .register "t" true]

theorem registry_partial_map_namesakes :
    ((empty []).run namesakes).registry.length = 1 ∧
      (((empty []).run namesakes).step (.register "u" false)).2 =
        .fault (.alreadyRegistered "point") ∧
      (((empty []).run (namesakes ++ [.retire "point" none])).step (.register "u" false)).2 =
        .ok (.count 1) := by
  obtain ⟨map, length⟩ := registry_partial_map [] namesakes
  obtain ⟨freed, _⟩ := registry_partial_map [] (namesakes ++ [.retire "point" none])
  refine ⟨length, ?_, ?_⟩
  · exact ((map.registers "u" _ false rfl).taken (by decide)).1
  · exact ((freed.registers "u" _ false rfl).free rfl).1

end Workspace

end SlotRecord
