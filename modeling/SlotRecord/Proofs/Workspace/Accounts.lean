import Mathlib.Tactic.Abel
import SlotRecord.Proofs.Dict.Contents
import SlotRecord.Workspace.Command

/-!
# Accounts of holders

A workspace counts the holders of every schema. While a command is at work, some
schemas are held by nothing that is stored: a handle that was just copied, or one
that was just taken from its name. With these loose ones the counts are right at
every moment, and no command leaves one behind.
-/

namespace SlotRecord

/-- Counts by the identity of schemas that are those of some holders. All holders of
one identity hold one schema, and every schema is of some origin. -/
structure Ledger (origin : SchemaRef → Prop) (counts : List Nat)
    (holders : Multiset SchemaRef) : Prop where
  counted : ∀ identity,
    counts[identity]?.getD 0 = holders.countP fun ref => ref.identity = identity
  apart : ∀ first ∈ holders, ∀ second ∈ holders,
    first.identity = second.identity → first = second
  origin : ∀ ref ∈ holders, origin ref

namespace Ledger

variable {origin : SchemaRef → Prop} {counts : List Nat}
  {holders : Multiset SchemaRef} {ref : SchemaRef}

theorem empty : Ledger origin [] 0 where
  counted := fun _ => rfl
  apart := fun _ member => absurd member (Multiset.notMem_zero _)
  origin := fun _ member => absurd member (Multiset.notMem_zero _)

theorem exists_count (ledger : Ledger origin counts holders) (member : ref ∈ holders) :
    ∃ count, counts[ref.identity]? = some count := by
  have positive : 0 < holders.countP fun other => other.identity = ref.identity :=
    Multiset.countP_pos.mpr ⟨ref, member, rfl⟩
  rw [← ledger.counted] at positive
  cases found : counts[ref.identity]? with
  | none =>
      rw [found] at positive
      exact absurd positive (Nat.lt_irrefl 0)
  | some count => exact ⟨count, rfl⟩

/-- Another holder of a schema that is held already. -/
theorem acquire (ledger : Ledger origin counts holders) (member : ref ∈ holders) :
    Ledger origin (counts.modify ref.identity (· + 1)) ({ref} + holders) where
  counted := by
    intro identity
    obtain ⟨count, found⟩ := ledger.exists_count member
    rw [Multiset.singleton_add, Multiset.countP_cons, ← ledger.counted,
      List.getElem?_modify]
    by_cases same : ref.identity = identity
    · subst same
      simp [found]
    · simp [same]
  apart := by
    have present : ∀ other ∈ {ref} + holders, other ∈ holders := by
      intro other either
      rcases Multiset.mem_add.mp either with new | old
      · rw [Multiset.mem_singleton.mp new]
        exact member
      · exact old
    intro first firstMember second secondMember
    exact ledger.apart first (present first firstMember) second
      (present second secondMember)
  origin := by
    intro other either
    rcases Multiset.mem_add.mp either with new | old
    · rw [Multiset.mem_singleton.mp new]
      exact ledger.origin ref member
    · exact ledger.origin other old

/-- One holder less. -/
theorem release (ledger : Ledger origin counts ({ref} + holders)) :
    Ledger origin (counts.modify ref.identity (· - 1)) holders where
  counted := by
    intro identity
    have before := ledger.counted identity
    rw [Multiset.singleton_add, Multiset.countP_cons] at before
    rw [List.getElem?_modify]
    by_cases same : ref.identity = identity
    · subst same
      obtain ⟨count, found⟩ := ledger.exists_count
        (Multiset.mem_add.mpr (Or.inl (Multiset.mem_singleton_self ref)))
      rw [found, if_pos rfl] at before
      simp only [found, if_true, Option.map_eq_map, Option.map_some, Option.getD_some] at before ⊢
      omega
    · rw [if_neg same] at before
      simpa [same] using before
  apart := by
    intro first firstMember second secondMember
    exact ledger.apart first (Multiset.mem_add.mpr (Or.inr firstMember)) second
      (Multiset.mem_add.mpr (Or.inr secondMember))
  origin := by
    intro other member
    exact ledger.origin other (Multiset.mem_add.mpr (Or.inr member))

theorem identity_lt (ledger : Ledger origin counts holders) (member : ref ∈ holders) :
    ref.identity < counts.length := by
  obtain ⟨count, found⟩ := ledger.exists_count member
  exact (List.getElem?_eq_some_iff.mp found).1

/-- The first holder of a new schema, whose identity nobody has yet. -/
theorem introduce (ledger : Ledger origin counts holders) (known : origin ref)
    (fresh : ref.identity = counts.length) :
    Ledger origin (counts ++ [1]) ({ref} + holders) where
  counted := by
    intro identity
    rw [Multiset.singleton_add, Multiset.countP_cons, ← ledger.counted, fresh]
    by_cases new : counts.length = identity
    · simp [← new]
    · rw [if_neg new, Nat.add_zero, List.getElem?_append]
      split
      · rfl
      · rename_i above
        rw [List.getElem?_eq_none (by simp; omega), List.getElem?_eq_none (by omega)]
  apart := by
    have different : ∀ other ∈ holders, other.identity ≠ ref.identity := by
      intro other member
      have below := ledger.identity_lt member
      omega
    intro first firstMember second secondMember same
    rcases Multiset.mem_add.mp firstMember with firstNew | firstOld
    · rcases Multiset.mem_add.mp secondMember with secondNew | secondOld
      · rw [Multiset.mem_singleton.mp firstNew, Multiset.mem_singleton.mp secondNew]
      · rw [Multiset.mem_singleton.mp firstNew] at same
        exact absurd same.symm (different second secondOld)
    · rcases Multiset.mem_add.mp secondMember with secondNew | secondOld
      · rw [Multiset.mem_singleton.mp secondNew] at same
        exact absurd same (different first firstOld)
      · exact ledger.apart first firstOld second secondOld same
  origin := by
    intro other either
    rcases Multiset.mem_add.mp either with new | old
    · rw [Multiset.mem_singleton.mp new]
      exact known
    · exact ledger.origin other old

section

variable {α : Type} {of : α → SchemaRef} {entries : Dict α} {key : String} {value : α}
  {loose beside : Multiset SchemaRef}

/-- A loose holder is stored, and that which it overwrites is loose. -/
theorem insert (key : String) (ordered : Dict.Ordered entries)
    (ledger : Ledger origin counts
      ({of value} + loose + (Dict.contents of entries + beside))) :
    Ledger origin counts (Dict.contribution of key entries + loose +
      (Dict.contents of (Dict.insert key value entries) + beside)) := by
  have moved := Dict.contents_insert of key value ordered
  rw [add_add_add_comm] at ledger ⊢
  rw [moved]
  exact ledger

/-- A stored holder is loose when it is erased. -/
theorem erase (ordered : Dict.Ordered entries) (held : Dict.get? key entries = some value)
    (ledger : Ledger origin counts (loose + (Dict.contents of entries + beside))) :
    Ledger origin counts ({of value} + loose +
      (Dict.contents of (Dict.erase key entries) + beside)) := by
  rw [add_add_add_comm, Dict.contents_erase of ordered held, add_left_comm]
  exact ledger

end

end Ledger

namespace Workspace

/-- The schemas of all holders outside the registry, each as often as it is held. -/
def referents (workspace : Workspace) : Multiset SchemaRef :=
  Dict.contents id workspace.schemas + Dict.contents Record.schema workspace.records +
    Dict.contents Parts.schema workspace.parts

def held (workspace : Workspace) : Multiset SchemaRef :=
  workspace.referents + Dict.contents id workspace.registry

section

variable (workspace : Workspace)

theorem held_schemas :
    workspace.held = Dict.contents id workspace.schemas +
      (Dict.contents Record.schema workspace.records +
        Dict.contents Parts.schema workspace.parts +
          Dict.contents id workspace.registry) := by
  rw [held, referents]
  abel

theorem held_records :
    workspace.held = Dict.contents Record.schema workspace.records +
      (Dict.contents id workspace.schemas + Dict.contents Parts.schema workspace.parts +
        Dict.contents id workspace.registry) := by
  rw [held, referents]
  abel

theorem held_parts :
    workspace.held = Dict.contents Parts.schema workspace.parts +
      (Dict.contents id workspace.schemas + Dict.contents Record.schema workspace.records +
        Dict.contents id workspace.registry) := by
  rw [held, referents]
  abel

theorem held_registry :
    workspace.held = Dict.contents id workspace.registry + workspace.referents :=
  add_comm _ _

end

section

variable {workspace : Workspace} {name : String}

theorem mem_held_of_schemas {ref : SchemaRef}
    (bound : Dict.get? name workspace.schemas = some ref) : ref ∈ workspace.held := by
  rw [held_schemas]
  exact Multiset.mem_add.mpr (Or.inl (Dict.mem_contents id bound))

theorem mem_held_of_records {record : Record}
    (bound : Dict.get? name workspace.records = some record) :
    record.schema ∈ workspace.held := by
  rw [held_records]
  exact Multiset.mem_add.mpr (Or.inl (Dict.mem_contents Record.schema bound))

theorem mem_held_of_parts {parts : Parts}
    (bound : Dict.get? name workspace.parts = some parts) :
    parts.schema ∈ workspace.held := by
  rw [held_parts]
  exact Multiset.mem_add.mpr (Or.inl (Dict.mem_contents Parts.schema bound))

theorem mem_held_of_registry {ref : SchemaRef}
    (bound : Dict.get? name workspace.registry = some ref) : ref ∈ workspace.held := by
  rw [held_registry]
  exact Multiset.mem_add.mpr (Or.inl (Dict.mem_contents id bound))

end

/-- The names of a workspace are in order, the registry binds schemas to their own
names, and the counts are right if some loose holders are added to those that are
stored. -/
structure Accounted (origin : SchemaRef → Prop) (workspace : Workspace)
    (loose : Multiset SchemaRef) : Prop where
  schemas : Dict.Ordered workspace.schemas
  records : Dict.Ordered workspace.records
  parts : Dict.Ordered workspace.parts
  registry : Dict.Ordered workspace.registry
  keyed : ∀ entry ∈ workspace.registry, entry.1 = entry.2.name
  ledger : Ledger origin workspace.holders (loose + workspace.held)

namespace Accounted

variable {origin : SchemaRef → Prop} {workspace : Workspace}
  {loose : Multiset SchemaRef} {ref : SchemaRef}

theorem acquire (accounted : Accounted origin workspace loose)
    (member : ref ∈ loose + workspace.held) :
    Accounted origin (workspace.acquire ref) ({ref} + loose) :=
  { accounted with
    ledger := by
      rw [add_assoc]
      exact accounted.ledger.acquire member }

theorem release (accounted : Accounted origin workspace ({ref} + loose)) :
    Accounted origin (workspace.release ref) loose :=
  { accounted with
    ledger := by
      have ledger := accounted.ledger
      rw [add_assoc] at ledger
      exact ledger.release }

/-- Trackers hold no schema. -/
theorem updateTracker (accounted : Accounted origin workspace loose) (name : String)
    (change : Tracker → Tracker) :
    Accounted origin (workspace.updateTracker name change) loose := by
  rw [Workspace.updateTracker]
  split
  · exact accounted
  · exact { accounted with }

theorem updateTrackerOf (accounted : Accounted origin workspace loose)
    (other : SchemaRef) (change : Tracker → Tracker) :
    Accounted origin (workspace.updateTrackerOf other change) loose := by
  rw [Workspace.updateTrackerOf]
  split
  · exact accounted
  · exact accounted.updateTracker _ _

theorem enroll {record : Record} (accounted : Accounted origin workspace loose)
    (member : record.schema ∈ loose + workspace.held) :
    Accounted origin (workspace.enroll record) ({record.schema} + loose) := by
  have numbered : Accounted origin
      { workspace.acquire record.schema with nextSerial := workspace.nextSerial + 1 }
      ({record.schema} + loose) := { accounted.acquire member with }
  exact numbered.updateTrackerOf _ _

theorem discard {record : Record}
    (accounted : Accounted origin workspace ({record.schema} + loose)) :
    Accounted origin (workspace.discard record) loose :=
  (accounted.updateTrackerOf _ _).release

/-- After something was stored under a name, only what it overwrote is loose. -/
theorem settle {α : Type} (of : α → SchemaRef) {entries : Dict α} {name : String}
    (accounted : Accounted origin workspace (Dict.contribution of name entries + loose)) :
    (Dict.get? name entries = none → Accounted origin workspace loose) ∧
      ∀ old, Dict.get? name entries = some old →
        Accounted origin workspace ({of old} + loose) := by
  constructor
  · intro fresh
    rw [Dict.contribution_of_none of fresh, zero_add] at accounted
    exact accounted
  · intro old bound
    rw [Dict.contribution_of_some of bound] at accounted
    exact accounted

theorem storeSchema (accounted : Accounted origin workspace ({ref} + loose))
    (name : String) : Accounted origin (workspace.storeSchema name ref) loose := by
  have stored : Accounted origin
      { workspace with schemas := Dict.insert name ref workspace.schemas }
      (Dict.contribution id name workspace.schemas + loose) :=
    { accounted with
      schemas := Dict.ordered_insert name ref accounted.schemas
      ledger := by
        have ledger := accounted.ledger
        rw [held_schemas] at ledger ⊢
        exact ledger.insert name accounted.schemas }
  rw [Workspace.storeSchema]
  obtain ⟨kept, overwritten⟩ := stored.settle id
  split
  · rename_i fresh
    exact kept fresh
  · rename_i old bound
    exact (overwritten old bound).release

theorem storeRecord {record : Record}
    (accounted : Accounted origin workspace ({record.schema} + loose)) (name : String) :
    Accounted origin (workspace.storeRecord name record) loose := by
  have stored : Accounted origin
      { workspace with
        records := Dict.insert name record workspace.records
        lastSerials := Dict.insert name record.serial workspace.lastSerials }
      (Dict.contribution Record.schema name workspace.records + loose) :=
    { accounted with
      records := Dict.ordered_insert name record accounted.records
      ledger := by
        have ledger := accounted.ledger
        rw [held_records] at ledger ⊢
        exact ledger.insert name accounted.records }
  rw [Workspace.storeRecord]
  obtain ⟨kept, overwritten⟩ := stored.settle Record.schema
  split
  · rename_i fresh
    exact kept fresh
  · rename_i old bound
    exact (overwritten old bound).discard

theorem storeParts {parts : Parts}
    (accounted : Accounted origin workspace ({parts.schema} + loose)) (name : String) :
    Accounted origin (workspace.storeParts name parts) loose := by
  have stored : Accounted origin
      { workspace with parts := Dict.insert name parts workspace.parts }
      (Dict.contribution Parts.schema name workspace.parts + loose) :=
    { accounted with
      parts := Dict.ordered_insert name parts accounted.parts
      ledger := by
        have ledger := accounted.ledger
        rw [held_parts] at ledger ⊢
        exact ledger.insert name accounted.parts }
  rw [Workspace.storeParts]
  obtain ⟨kept, overwritten⟩ := stored.settle Parts.schema
  split
  · rename_i fresh
    exact kept fresh
  · rename_i old bound
    exact (overwritten old bound).release

theorem eraseSchema {name : String} (accounted : Accounted origin workspace loose)
    (bound : Dict.get? name workspace.schemas = some ref) :
    Accounted origin (workspace.eraseSchema name) ({ref} + loose) :=
  { accounted with
    schemas := Dict.ordered_erase name accounted.schemas
    ledger := by
      have ledger := accounted.ledger
      rw [held_schemas] at ledger ⊢
      exact ledger.erase accounted.schemas bound }

theorem eraseRecord {name : String} {record : Record}
    (accounted : Accounted origin workspace loose)
    (bound : Dict.get? name workspace.records = some record) :
    Accounted origin (workspace.eraseRecord name) ({record.schema} + loose) :=
  { accounted with
    records := Dict.ordered_erase name accounted.records
    ledger := by
      have ledger := accounted.ledger
      rw [held_records] at ledger ⊢
      exact ledger.erase accounted.records bound }

theorem eraseParts {name : String} {parts : Parts}
    (accounted : Accounted origin workspace loose)
    (bound : Dict.get? name workspace.parts = some parts) :
    Accounted origin (workspace.eraseParts name) ({parts.schema} + loose) :=
  { accounted with
    parts := Dict.ordered_erase name accounted.parts
    ledger := by
      have ledger := accounted.ledger
      rw [held_parts] at ledger ⊢
      exact ledger.erase accounted.parts bound }

theorem storeWire (accounted : Accounted origin workspace loose) (name : String)
    (wire : WireRecord) : Accounted origin (workspace.storeWire name wire) loose :=
  { accounted with }

/-- The registry takes a loose handle under a name that is free. -/
theorem registerFresh (accounted : Accounted origin workspace ({ref} + loose))
    (fresh : Dict.get? ref.name workspace.registry = none) :
    Accounted origin
      { workspace with registry := Dict.insert ref.name ref workspace.registry } loose :=
  { accounted with
    registry := Dict.ordered_insert ref.name ref accounted.registry
    keyed := by
      intro entry member
      rcases Dict.mem_insert member with rfl | old
      · rfl
      · exact accounted.keyed entry old
    ledger := by
      have ledger := accounted.ledger
      rw [held_registry] at ledger ⊢
      have stored := ledger.insert ref.name accounted.registry
      rw [Dict.contribution_of_none id fresh, zero_add] at stored
      exact stored }

theorem unregister {name : String} (accounted : Accounted origin workspace loose)
    (bound : Dict.get? name workspace.registry = some ref) :
    Accounted origin
      { workspace with registry := Dict.erase name workspace.registry }
      ({ref} + loose) :=
  { accounted with
    registry := Dict.ordered_erase name accounted.registry
    keyed := by
      intro entry member
      exact accounted.keyed entry (List.mem_of_mem_filter member)
    ledger := by
      have ledger := accounted.ledger
      rw [held_registry] at ledger ⊢
      exact ledger.erase accounted.registry bound }

end Accounted

end Workspace

end SlotRecord
