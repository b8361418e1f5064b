import SlotRecord.Proofs.Workspace.Commands

/-!
# Retirement

The registry gives up a schema that is not pinned exactly when nobody else holds
it. So a retired schema has no records left, and the handle that is handed out is
its last one.
-/

namespace SlotRecord

namespace Workspace

/-- The handles, records and records taken apart that refer to a schema by its
identity. -/
def othersOf (workspace : Workspace) (ref : SchemaRef) : Nat :=
  workspace.schemas.countP (fun entry => entry.2.same ref) +
    workspace.records.countP (fun entry => entry.2.schema.same ref) +
    workspace.parts.countP (fun entry => entry.2.schema.same ref)

theorem countP_contents {α : Type} (of : α → SchemaRef) (ref : SchemaRef)
    (entries : Dict α) :
    (Dict.contents of entries).countP (fun other => other.identity = ref.identity) =
      entries.countP fun entry => (of entry.2).same ref := by
  rw [Dict.contents, Multiset.coe_countP, List.countP_map]
  congr 1

theorem countP_referents (workspace : Workspace) (ref : SchemaRef) :
    workspace.referents.countP (fun other => other.identity = ref.identity) =
      workspace.othersOf ref := by
  rw [referents, Multiset.countP_add, Multiset.countP_add, countP_contents,
    countP_contents, countP_contents]
  rfl

section

variable {origin : SchemaRef → Prop} {workspace : Workspace} {name : String}
  {ref : SchemaRef} (accounted : Accounted origin workspace 0)
  (bound : Dict.get? name workspace.registry = some ref)

include accounted bound

/-- The registry binds a schema to one name only. -/
theorem not_same_of_mem_erase {entry : String × SchemaRef}
    (member : entry ∈ Dict.erase name workspace.registry) :
    entry.2.same ref = false := by
  obtain ⟨old, other⟩ := List.mem_filter.mp member
  have different : entry.1 ≠ name := of_decide_eq_true other
  rw [SchemaRef.same, beq_eq_false_iff_ne]
  intro identity
  have held : entry.2 ∈ workspace.held :=
    mem_held_of_registry (Dict.get?_of_mem accounted.registry old)
  have one : entry.2 = ref := by
    apply accounted.ledger.apart _ _ _ _ identity
    · exact Multiset.mem_add.mpr (Or.inr held)
    · exact Multiset.mem_add.mpr (Or.inr (mem_held_of_registry bound))
  apply different
  rw [accounted.keyed entry old, one]
  exact (accounted.keyed _ (Dict.mem_of_get? bound)).symm

/-- A schema is held by the registry once, and otherwise by others. -/
theorem holdersOf_registered : workspace.holdersOf ref = workspace.othersOf ref + 1 := by
  have registered : (Dict.contents id workspace.registry).countP
      (fun other => other.identity = ref.identity) = 1 := by
    have beside : (Dict.contents id (Dict.erase name workspace.registry)).countP
        (fun other => other.identity = ref.identity) = 0 := by
      rw [countP_contents, List.countP_eq_zero]
      intro entry member
      rw [id, not_same_of_mem_erase accounted bound member]
      exact Bool.false_ne_true
    rw [← Dict.contents_erase id accounted.registry bound, Multiset.singleton_add,
      Multiset.countP_cons, beside, id, if_pos rfl]
  rw [holdersOf, accounted.ledger.counted, zero_add, held, Multiset.countP_add,
    countP_referents, registered]

theorem retire_registered :
    workspace.registry.retire workspace.holdersOf name =
      if !ref.pinned && 0 < workspace.othersOf ref then
        .error (.schemaInUse name (workspace.othersOf ref))
      else .ok (ref, Dict.erase name workspace.registry) := by
  rw [Registry.retire_of_some bound, holdersOf_registered accounted bound,
    Nat.add_sub_cancel]

end

/-- Of the holders of a schema only a handle is left, which is stored under a name
or under none. -/
structure Retired (workspace : Workspace) (ref : SchemaRef) (target : Option String) :
    Prop where
  registry : ∀ entry ∈ workspace.registry, entry.2.same ref = false
  records : ∀ entry ∈ workspace.records, entry.2.schema.same ref = false
  parts : ∀ entry ∈ workspace.parts, entry.2.schema.same ref = false
  schemas : ∀ entry ∈ workspace.schemas, entry.2.same ref = true →
    target = some entry.1 ∧ entry.2 = ref
  stored : ∀ kept, target = some kept → Dict.get? kept workspace.schemas = some ref

theorem records_storeSchema (workspace : Workspace) (name : String) (ref : SchemaRef) :
    (workspace.storeSchema name ref).records = workspace.records := by
  rw [storeSchema]
  split <;> rfl

theorem parts_storeSchema (workspace : Workspace) (name : String) (ref : SchemaRef) :
    (workspace.storeSchema name ref).parts = workspace.parts := by
  rw [storeSchema]
  split <;> rfl

theorem registry_storeSchema (workspace : Workspace) (name : String) (ref : SchemaRef) :
    (workspace.storeSchema name ref).registry = workspace.registry := by
  rw [storeSchema]
  split <;> rfl

theorem schemas_storeSchema (workspace : Workspace) (name : String) (ref : SchemaRef) :
    (workspace.storeSchema name ref).schemas =
      Dict.insert name ref workspace.schemas := by
  rw [storeSchema]
  split <;> rfl

theorem not_same_of_othersOf_eq_zero {workspace : Workspace} {ref : SchemaRef}
    (alone : workspace.othersOf ref = 0) :
    (∀ entry ∈ workspace.schemas, entry.2.same ref = false) ∧
      (∀ entry ∈ workspace.records, entry.2.schema.same ref = false) ∧
      ∀ entry ∈ workspace.parts, entry.2.schema.same ref = false := by
  simp only [othersOf, Nat.add_eq_zero_iff, List.countP_eq_zero,
    Bool.not_eq_true] at alone
  exact ⟨alone.1.1, alone.1.2, alone.2⟩

/-- A workspace whose registry has let go of a name. -/
def unregistered (workspace : Workspace) (name : String) : Workspace :=
  { workspace with registry := Dict.erase name workspace.registry }

/-- A loose handle goes to a name, or it is released. -/
def handOver (workspace : Workspace) (ref : SchemaRef) : Option String → Workspace
  | some target => workspace.storeSchema target ref
  | none => workspace.release ref

theorem registry_handOver (workspace : Workspace) (ref : SchemaRef)
    (target : Option String) :
    (workspace.handOver ref target).registry = workspace.registry := by
  cases target with
  | none => rfl
  | some kept => exact registry_storeSchema workspace kept ref

section

variable {origin : SchemaRef → Prop} {workspace : Workspace} {name : String}
  {ref : SchemaRef} (accounted : Accounted origin workspace 0)
  (bound : Dict.get? name workspace.registry = some ref) (target : Option String)

include accounted bound

theorem retire_of_pinned_or_alone
    (free : ref.pinned = true ∨ workspace.othersOf ref = 0) :
    workspace.retire name target =
      ((workspace.unregistered name).handOver ref target, .ok (.schema ref)) := by
  have allowed : (!ref.pinned && decide (0 < workspace.othersOf ref)) = false := by
    rcases free with pinned | alone
    · simp [pinned]
    · simp [alone]
  have retired := retire_registered accounted bound
  rw [allowed] at retired
  cases target <;> simp only [retire, retired] <;> rfl

theorem retired_handOver (alone : workspace.othersOf ref = 0) :
    ((workspace.unregistered name).handOver ref target).Retired ref target := by
  obtain ⟨noHandle, noRecord, noParts⟩ := not_same_of_othersOf_eq_zero alone
  have noName : ∀ entry ∈ Dict.erase name workspace.registry,
      entry.2.same ref = false :=
    fun entry member => not_same_of_mem_erase accounted bound member
  cases target with
  | none =>
      refine ⟨noName, noRecord, noParts, ?_, ?_⟩
      · intro entry member same
        rw [noHandle entry member] at same
        cases same
      · intro kept impossible
        cases impossible
  | some kept =>
      rw [handOver]
      refine ⟨?_, ?_, ?_, ?_, ?_⟩
      · rw [registry_storeSchema]
        exact noName
      · rw [records_storeSchema]
        exact noRecord
      · rw [parts_storeSchema]
        exact noParts
      · rw [schemas_storeSchema]
        intro entry member same
        rcases Dict.mem_insert member with rfl | old
        · exact ⟨rfl, rfl⟩
        · rw [noHandle entry old] at same
          cases same
      · intro found same
        cases same
        rw [schemas_storeSchema, Dict.get?_insert, if_pos rfl]

theorem retire_of_others (unpinned : ref.pinned = false)
    (others : workspace.othersOf ref ≠ 0) :
    workspace.retire name target =
      (workspace, .fault (.schemaInUse name (workspace.othersOf ref))) := by
  have refused : (!ref.pinned && decide (0 < workspace.othersOf ref)) = true := by
    simpa [unpinned] using Nat.pos_of_ne_zero others
  have retired := retire_registered accounted bound
  rw [refused] at retired
  simp only [retire, retired]
  rfl

end

/-- After any commands, a schema that is not pinned can be retired exactly if there
is no handle of it, no record and no record taken apart outside the registry.
Otherwise the refusal tells how many of them there are and nothing changes. A pinned
schema can always be retired. -/
theorem retire_iff_alone {trackers : List String} {commands : List Command}
    {name : String} {ref : SchemaRef} (target : Option String)
    (bound : Dict.get? name ((empty trackers).run commands).registry = some ref) :
    let workspace := (empty trackers).run commands
    let outcome := workspace.step (.retire name target)
    (ref.pinned = true →
      outcome.2 = .ok (.schema ref) ∧ Dict.get? name outcome.1.registry = none) ∧
    (ref.pinned = false →
      (outcome.2 = .ok (.schema ref) ↔ workspace.othersOf ref = 0) ∧
      (workspace.othersOf ref = 0 → outcome.1.Retired ref target) ∧
      (workspace.othersOf ref ≠ 0 →
        outcome = (workspace, .fault (.schemaInUse name (workspace.othersOf ref))))) := by
  intro workspace outcome
  have accounted := accounted_run trackers commands
  have freed := retire_of_pinned_or_alone accounted bound target
  refine ⟨fun pinned => ?_, fun unpinned => ⟨⟨fun done => ?_, fun alone => ?_⟩, ?_, ?_⟩⟩
  · have retired : outcome = _ := freed (Or.inl pinned)
    rw [retired, registry_handOver]
    exact ⟨rfl, Dict.get?_erase_self name workspace.registry⟩
  · by_contra others
    have refused : outcome = _ := retire_of_others accounted bound target unpinned others
    rw [refused] at done
    cases done
  · have retired : outcome = _ := freed (Or.inr alone)
    rw [retired]
  · intro alone
    have retired : outcome = _ := freed (Or.inr alone)
    rw [retired]
    exact retired_handOver accounted bound target alone
  · exact retire_of_others accounted bound target unpinned

/-- A schema that the registry shares with one record. -/
def shared : SchemaRef :=
  ⟨0, false, ⟨"point", none, [⟨some "x", none⟩], 1, none, by decide, by decide, by decide⟩⟩

def sharing : List Command :=
  [.build "t" ⟨"point", none, [⟨some "x", none⟩], 1⟩ .standard false,
    .make "t" [.null] none "p", .register "t" true]

theorem retire_iff_alone_shared :
    ((empty []).run sharing).step (.retire "point" none) =
        ((empty []).run sharing, .fault (.schemaInUse "point" 1)) ∧
      (((empty []).run (sharing ++ [.dispose "p"])).step (.retire "point" none)).2 =
        .ok (.schema shared) := by
  have held : Dict.get? "point" ((empty []).run sharing).registry = some shared := rfl
  have free : Dict.get? "point"
      ((empty []).run (sharing ++ [.dispose "p"])).registry = some shared := rfl
  constructor
  · exact ((retire_iff_alone none held).2 rfl).2.2 (by decide)
  · exact ((retire_iff_alone none free).2 rfl).1.mpr (by decide)

end Workspace

end SlotRecord
