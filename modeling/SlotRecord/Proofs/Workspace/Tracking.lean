import Mathlib.Algebra.Order.Group.Multiset
import SlotRecord.Proofs.Dict.Contents
import SlotRecord.Proofs.Workspace.Commands
import SlotRecord.Proofs.Workspace.Effects

/-!
# Tracking

A tracker that is never spoken to directly knows exactly the records that are alive
of those it is told of. Serial numbers count the records that were ever made.
-/

namespace SlotRecord

/-- What a tracker should hold if some records are alive and others are gone. -/
structure Tracker.Balances (tracker : Tracker) (name : String)
    (alive gone : Multiset Record) : Prop where
  live : (tracker.live : Multiset Nat) =
    (alive.filter (Record.IsTrackedBy name)).map Record.serial
  tracked : tracker.tracked = (alive + gone).countP (Record.IsTrackedBy name)
  untracked : tracker.untracked = gone.countP (Record.IsTrackedBy name)

namespace Tracker.Balances

variable {tracker : Tracker} {name : String} {alive gone : Multiset Record}
  {record : Record}

theorem fresh (name : String) : Tracker.fresh.Balances name 0 0 := ⟨rfl, rfl, rfl⟩

theorem serials_filter_subset :
    (alive.filter (Record.IsTrackedBy name)).map Record.serial ⊆
      alive.map Record.serial :=
  Multiset.map_subset_map (Multiset.filter_subset _ alive)

theorem track (balances : tracker.Balances name alive gone)
    (fresh : record.serial ∉ alive.map Record.serial) :
    (tracker.afterMade name record).Balances name ({record} + alive) gone := by
  obtain ⟨live, tracked, untracked⟩ := balances
  have unknown : record.serial ∉ tracker.live := by
    rw [← Multiset.mem_coe, live]
    exact fun member => fresh (serials_filter_subset member)
  rw [afterMade, Multiset.singleton_add]
  split
  · rename_i told
    refine ⟨?_, ?_, untracked⟩
    · rw [Tracker.track, if_neg unknown, ← Multiset.cons_coe, live,
        Multiset.filter_cons_of_pos _ told, Multiset.map_cons]
    · rw [Multiset.cons_add, Multiset.countP_cons_of_pos _ told, ← tracked]
      rfl
  · rename_i untold
    refine ⟨?_, ?_, untracked⟩
    · rw [live, Multiset.filter_cons_of_neg _ untold]
    · rw [tracked, Multiset.cons_add, Multiset.countP_cons_of_neg _ untold]

theorem untrack (balances : tracker.Balances name ({record} + alive) gone)
    (other : record.serial ∉ alive.map Record.serial) :
    (tracker.afterGone name record).Balances name alive ({record} + gone) := by
  obtain ⟨live, tracked, untracked⟩ := balances
  have total : tracker.tracked = (alive + ({record} + gone)).countP
      (Record.IsTrackedBy name) := by
    rw [tracked, add_assoc, add_left_comm]
  rw [Multiset.singleton_add] at live
  rw [afterGone]
  split
  · rename_i told
    rw [Multiset.filter_cons_of_pos _ told, Multiset.map_cons] at live
    refine ⟨?_, total, ?_⟩
    · have others : ∀ serial ∈ (alive.filter (Record.IsTrackedBy name)).map Record.serial,
          serial ≠ record.serial := by
        rintro serial member rfl
        exact other (serials_filter_subset member)
      have kept := congrArg (Multiset.filter fun serial => serial ≠ record.serial) live
      rw [Multiset.filter_cons_of_neg _ (by simp),
        Multiset.filter_eq_self.mpr others, Multiset.filter_coe] at kept
      exact kept
    · rw [Multiset.singleton_add, Multiset.countP_cons_of_pos _ told, ← untracked]
      rfl
  · rename_i untold
    rw [Multiset.filter_cons_of_neg _ untold] at live
    refine ⟨live, total, ?_⟩
    rw [untracked, Multiset.singleton_add, Multiset.countP_cons_of_neg _ untold]

/-- Whatever was overwritten is gone. -/
theorem overwrite {target : String} {entries : Dict Record}
    (balances : tracker.Balances name (Dict.contribution id target entries + alive) gone)
    (distinct : ((Dict.contribution id target entries + alive).map Record.serial).Nodup) :
    (tracker.afterOverwritten name (Dict.get? target entries)).Balances name alive
      (Dict.contribution id target entries + gone) := by
  cases bound : Dict.get? target entries with
  | none =>
      rw [Dict.contribution_of_none id bound, zero_add] at balances ⊢
      exact balances
  | some old =>
      rw [Dict.contribution_of_some id bound] at balances distinct ⊢
      rw [Multiset.singleton_add, Multiset.map_cons] at distinct
      exact balances.untrack (Multiset.nodup_cons.mp distinct).1

end Tracker.Balances

/-- The records that were made have the serial numbers from one on, each is alive or
gone, and every tracker balances them. -/
structure Roster.Balanced (names : List String) (roster : Roster) (made : List Record)
    (gone : Multiset Record) : Prop where
  ordered : Dict.Ordered roster.records
  present : Dict.contents id roster.records + gone = made
  serials : made.map Record.serial = List.range' 1 made.length
  next : roster.nextSerial = made.length + 1
  trackers : ∀ name ∈ names, ∃ tracker, Dict.get? name roster.trackers = some tracker ∧
    tracker.Balances name (Dict.contents id roster.records) gone

namespace Roster.Balanced

variable {names : List String} {before after : Roster} {made : List Record}
  {gone : Multiset Record} {reply : Reply}

theorem serials_nodup (balanced : before.Balanced names made gone) :
    (made.map Record.serial).Nodup := by
  rw [balanced.serials]
  exact List.nodup_range'

theorem present_nodup (balanced : before.Balanced names made gone) :
    ((Dict.contents id before.records + gone).map Record.serial).Nodup := by
  rw [balanced.present, Multiset.map_coe]
  exact balanced.serials_nodup

theorem alive_nodup (balanced : before.Balanced names made gone) :
    ((Dict.contents id before.records).map Record.serial).Nodup := by
  have all := balanced.present_nodup
  rw [Multiset.map_add] at all
  exact (Multiset.nodup_add.mp all).1

/-- No record has the next serial number yet. -/
theorem nextSerial_fresh (balanced : before.Balanced names made gone) :
    before.nextSerial ∉ (Dict.contents id before.records).map Record.serial := by
  intro member
  have old : before.nextSerial ∈ made.map Record.serial := by
    rw [← Multiset.mem_coe, ← Multiset.map_coe, ← balanced.present, Multiset.map_add]
    exact Multiset.mem_add.mpr (Or.inl member)
  rw [balanced.serials, balanced.next, List.mem_range'_1] at old
  omega

theorem made_step (balanced : before.Balanced names made gone) {target : String}
    {record : Record} (number : record.serial = before.nextSerial)
    (records : after.records = Dict.insert target record before.records)
    (trackers : ∀ name, Dict.get? name after.trackers =
      (Dict.get? name before.trackers).map fun tracker =>
        (tracker.afterMade name record).afterOverwritten name
          (Dict.get? target before.records))
    (serial : after.nextSerial = before.nextSerial + 1) :
    after.Balanced names (made ++ [record])
      (Dict.contribution id target before.records + gone) := by
  have stored : Dict.contribution id target before.records +
      Dict.contents id after.records = {record} + Dict.contents id before.records := by
    rw [records]
    exact Dict.contents_insert id target record balanced.ordered
  have numbers : (made ++ [record]).map Record.serial =
      List.range' 1 (made ++ [record]).length := by
    rw [List.map_append, List.map_singleton, balanced.serials, number, balanced.next,
      List.length_append, List.length_singleton, List.range'_1_concat, Nat.add_comm]
  have fresh : record.serial ∉ (Dict.contents id before.records).map Record.serial :=
    number ▸ balanced.nextSerial_fresh
  have distinct : ((Dict.contribution id target before.records +
      Dict.contents id after.records).map Record.serial).Nodup := by
    rw [stored, Multiset.singleton_add, Multiset.map_cons]
    exact Multiset.nodup_cons.mpr ⟨fresh, balanced.alive_nodup⟩
  refine ⟨?_, ?_, numbers, ?_, ?_⟩
  · rw [records]
    exact Dict.ordered_insert target record balanced.ordered
  · rw [add_left_comm, ← add_assoc, stored, add_assoc, balanced.present,
      Multiset.singleton_add, Multiset.cons_coe, Multiset.coe_eq_coe]
    exact (List.perm_append_singleton record made).symm
  · rw [serial, balanced.next, List.length_append, List.length_singleton]
  · intro name member
    obtain ⟨tracker, bound, balances⟩ := balanced.trackers name member
    refine ⟨_, (trackers name).trans (congrArg _ bound), ?_⟩
    have told := balances.track fresh
    rw [← stored] at told
    exact told.overwrite distinct

theorem gone_step (balanced : before.Balanced names made gone) {name : String}
    {record : Record} (bound : Dict.get? name before.records = some record)
    (records : after.records = Dict.erase name before.records)
    (trackers : ∀ name, Dict.get? name after.trackers =
      (Dict.get? name before.trackers).map (Tracker.afterGone name record))
    (serial : after.nextSerial = before.nextSerial) :
    after.Balanced names made ({record} + gone) := by
  have left : {record} + Dict.contents id after.records =
      Dict.contents id before.records := by
    rw [records]
    exact Dict.contents_erase id balanced.ordered bound
  have other : record.serial ∉ (Dict.contents id after.records).map Record.serial := by
    have distinct := balanced.alive_nodup
    rw [← left, Multiset.singleton_add, Multiset.map_cons] at distinct
    exact (Multiset.nodup_cons.mp distinct).1
  refine ⟨?_, ?_, balanced.serials, serial.trans balanced.next, ?_⟩
  · rw [records]
    exact Dict.ordered_erase name balanced.ordered
  · rw [add_left_comm, ← add_assoc, left, balanced.present]
  · intro name member
    obtain ⟨tracker, bound, balances⟩ := balanced.trackers name member
    refine ⟨_, (trackers name).trans (congrArg _ bound), ?_⟩
    rw [← left] at balances
    exact balances.untrack other

theorem step (balanced : before.Balanced names made gone)
    (effect : Effect before after reply) :
    ∃ gone, after.Balanced names (made ++ reply.made?.toList) gone := by
  cases effect with
  | none answer same =>
      rw [answer, same, Option.toList_none, List.append_nil]
      exact ⟨gone, balanced⟩
  | made target record answer number records trackers serial =>
      rw [answer]
      exact ⟨_, balanced.made_step number records trackers serial⟩
  | gone name record answer bound records trackers serial =>
      have same : reply.made?.toList = [] := by
        rw [answer]
        rfl
      rw [same, List.append_nil]
      exact ⟨_, balanced.gone_step bound records trackers serial⟩

end Roster.Balanced

namespace Workspace

/-- Whether a record with a serial number is stored. -/
def IsAlive (workspace : Workspace) (serial : Nat) : Prop :=
  ∃ entry ∈ workspace.records, entry.2.serial = serial

instance (workspace : Workspace) : DecidablePred workspace.IsAlive := fun serial =>
  inferInstanceAs (Decidable (∃ entry ∈ workspace.records, entry.2.serial = serial))

end Workspace

/-- Among the records that were made, a tracker knows which of those it was told of
are alive, and how many there were and are gone. -/
structure Tracker.IsExact (tracker : Tracker) (name : String) (workspace : Workspace)
    (made : List Record) : Prop where
  nodup : tracker.live.Nodup
  live : ∀ serial, serial ∈ tracker.live ↔
    ∃ entry ∈ workspace.records, entry.2.IsTrackedBy name ∧ entry.2.serial = serial
  tracked : tracker.tracked = made.countP fun record => record.IsTrackedBy name
  untracked : tracker.untracked = made.countP fun record =>
    record.IsTrackedBy name ∧ ¬ workspace.IsAlive record.serial
  total : tracker.tracked = tracker.untracked + tracker.live.length

namespace Workspace

theorem get?_trackers_empty {names : List String} {name : String}
    (member : name ∈ names) : Dict.get? name (empty names).trackers = some .fresh := by
  rw [empty]
  induction names using List.reverseRecOn with
  | nil => cases member
  | append_singleton names last induction =>
      rw [List.map_append, List.map_singleton, Dict.ofList_append_singleton,
        Dict.get?_insert]
      split
      · rfl
      · rename_i different
        rcases List.mem_append.mp member with earlier | here
        · exact induction earlier
        · exact absurd (List.mem_singleton.mp here).symm different

theorem balanced_empty (names : List String) : (empty names).roster.Balanced names [] 0 where
  ordered := List.Pairwise.nil
  present := rfl
  serials := rfl
  next := rfl
  trackers := fun name member =>
    ⟨.fresh, get?_trackers_empty member, Tracker.Balances.fresh name⟩

theorem balanced_run (names : List String) {commands : List Command}
    (indirect : ∀ command ∈ commands, command.isDirect = false) :
    ∃ gone, ((empty names).run commands).roster.Balanced names
      ((empty names).made commands) gone := by
  induction commands using List.reverseRecOn with
  | nil => exact ⟨0, balanced_empty names⟩
  | append_singleton commands command induction =>
      obtain ⟨gone, balanced⟩ := induction fun earlier member =>
        indirect earlier (List.mem_append_left _ member)
      have effect : Roster.Effect ((empty names).run commands).roster _ _ :=
        effect_step (indirect command (List.mem_append_right _ List.mem_cons_self))
      rw [run_append_singleton, made_append_singleton]
      exact balanced.step effect

theorem isAlive_iff {workspace : Workspace} {serial : Nat} :
    workspace.IsAlive serial ↔
      serial ∈ (Dict.contents id workspace.records).map Record.serial := by
  simp only [IsAlive, Multiset.mem_map, Dict.mem_contents_iff, id, exists_exists_and_eq_and]

section

variable {names : List String} {workspace : Workspace} {made : List Record}
  {gone : Multiset Record} (balanced : workspace.roster.Balanced names made gone)

include balanced

/-- A record that is gone shares its serial number with none that is alive. -/
theorem not_isAlive_of_mem {record : Record} (member : record ∈ gone) :
    ¬ workspace.IsAlive record.serial := by
  have distinct := balanced.present_nodup
  rw [Multiset.map_add] at distinct
  rw [isAlive_iff]
  exact fun alive => Multiset.disjoint_left.mp (Multiset.nodup_add.mp distinct).2.2 alive
    (Multiset.mem_map_of_mem _ member)

theorem countP_gone (name : String) :
    gone.countP (Record.IsTrackedBy name) = made.countP fun record =>
      record.IsTrackedBy name ∧ ¬ workspace.IsAlive record.serial := by
  have none : (Dict.contents id workspace.records).countP (fun record =>
      record.IsTrackedBy name ∧ ¬ workspace.IsAlive record.serial) = 0 := by
    apply Multiset.countP_eq_zero.mpr
    rintro record member ⟨_, dead⟩
    exact dead (isAlive_iff.mpr (Multiset.mem_map_of_mem _ member))
  have all : gone.countP (fun record =>
      record.IsTrackedBy name ∧ ¬ workspace.IsAlive record.serial) =
        gone.countP (Record.IsTrackedBy name) := by
    apply Multiset.countP_congr rfl
    intro record member
    exact eq_iff_iff.mpr (and_iff_left (not_isAlive_of_mem balanced member))
  rw [← Multiset.coe_countP, ← balanced.present, Multiset.countP_add]
  exact (Eq.trans (congrArg₂ _ none all) (Nat.zero_add _)).symm

theorem isExact_of_balances {name : String} {tracker : Tracker}
    (balances : tracker.Balances name (Dict.contents id workspace.records) gone) :
    tracker.IsExact name workspace made where
  nodup := by
    rw [← Multiset.coe_nodup, balances.live]
    exact Multiset.nodup_of_le (Multiset.map_le_map (Multiset.filter_le _ _))
      balanced.alive_nodup
  live := by
    intro serial
    rw [← Multiset.mem_coe, balances.live]
    simp only [Multiset.mem_map, Multiset.mem_filter, Dict.mem_contents_iff, id]
    constructor
    · rintro ⟨_, ⟨⟨entry, member, rfl⟩, told⟩, same⟩
      exact ⟨entry, member, told, same⟩
    · rintro ⟨entry, member, told, same⟩
      exact ⟨entry.2, ⟨⟨entry, member, rfl⟩, told⟩, same⟩
  tracked := by
    rw [balances.tracked, ← Multiset.coe_countP, ← balanced.present]
    rfl
  untracked := balances.untracked.trans (countP_gone balanced name)
  total := by
    have size : tracker.live.length =
        (Dict.contents id workspace.records).countP (Record.IsTrackedBy name) := by
      rw [← Multiset.coe_card, balances.live, Multiset.card_map,
        Multiset.countP_eq_card_filter]
    rw [balances.tracked, balances.untracked, size, Multiset.countP_add, Nat.add_comm]

end

/-- Trackers that no command speaks to directly are exact at any time, whichever
commands succeed and whichever fail. Records are numbered in the order in which they
are made, without gaps, and a command that fails takes no number and tells no tracker
anything. -/
theorem trackers_exact {names : List String} {commands : List Command}
    (indirect : ∀ command ∈ commands, command.isDirect = false) :
    let workspace := (empty names).run commands
    let made := (empty names).made commands
    made.map Record.serial = List.range' 1 made.length ∧
    (made.map Record.serial).Nodup ∧
    (∀ entry ∈ workspace.records, entry.2 ∈ made) ∧
    (∀ name ∈ names, ∃ tracker, Dict.get? name workspace.trackers = some tracker ∧
      tracker.IsExact name workspace made) ∧
    ∀ command refusal, (workspace.step command).2.outcome = .error refusal →
      (workspace.step command).1.roster = workspace.roster := by
  intro workspace made
  obtain ⟨gone, balanced⟩ := balanced_run names indirect
  refine ⟨balanced.serials, balanced.serials_nodup, ?_, ?_, ?_⟩
  · intro entry member
    rw [← Multiset.mem_coe, ← balanced.present]
    exact Multiset.mem_add.mpr (Or.inl ((Dict.mem_contents_iff id).mpr ⟨entry, member, rfl⟩))
  · intro name member
    obtain ⟨tracker, bound, balances⟩ := balanced.trackers name member
    exact ⟨tracker, bound, isExact_of_balances balanced balances⟩
  · intro command refusal
    exact workspace.roster_of_error

/-- A record that is overwritten, with a failure in between. -/
def overwriting : List Command :=
  [.build "t" ⟨"point", none, [⟨some "x", none⟩], 1⟩ ⟨256, some "seen"⟩ false,
    .make "t" [.null] none "p", .make "t" [] none "p", .make "t" [.null] none "p"]

theorem trackers_exact_overwriting :
    ((empty ["seen"]).made overwriting).map Record.serial = [1, 2] ∧
      (⟨[2], 2, 1⟩ : Tracker).IsExact "seen" ((empty ["seen"]).run overwriting)
        ((empty ["seen"]).made overwriting) := by
  have indirect : ∀ command ∈ overwriting, command.isDirect = false := by decide
  obtain ⟨serials, _, _, exact, _⟩ := @trackers_exact ["seen"] overwriting indirect
  obtain ⟨tracker, bound, known⟩ := exact "seen" List.mem_cons_self
  have same : some tracker = some (⟨[2], 2, 1⟩ : Tracker) := bound.symm.trans rfl
  rw [← Option.some.inj same]
  exact ⟨serials, known⟩

end Workspace

end SlotRecord
