import SlotRecord.Proofs.Record.Access
import SlotRecord.Proofs.Workspace.Commands
import SlotRecord.Proofs.Workspace.Effects

/-!
# Records that were ever made

Whichever way a record came about, from values, from another record, from parts that
were edited or from a portable form, it fits the declaration that its schema was built
of.
-/

namespace SlotRecord

namespace Workspace

variable {trackers : List String} {commands : List Command} {record : Record}

theorem builtBy_of_mem_made (member : record ∈ (empty trackers).made commands) :
    record.schema.BuiltBy commands := by
  induction commands using List.reverseRecOn with
  | nil => cases member
  | append_singleton commands command induction =>
      rw [made_append_singleton] at member
      rcases List.mem_append.mp member with earlier | now
      · exact (induction earlier).mono (List.subset_append_left _ _)
      · obtain ⟨target, stored⟩ :=
          exists_stored_of_made _ (Option.mem_toList.mp now)
        have accounted := accounted_run trackers (commands ++ [command])
        rw [← run_append_singleton] at stored
        exact accounted.ledger.origin _
          (Multiset.mem_add.mpr (Or.inr (mem_held_of_records stored)))

/-- Every record that is ever made fits the declaration of some command that built its
schema, so no access to it fails but that to elements past its length. -/
theorem made_fits (member : record ∈ (empty trackers).made commands) :
    ∃ target declaration settings,
      Command.build target declaration settings record.schema.pinned ∈ commands ∧
        declaration.build settings = .ok record.schema.schema ∧
        record.Fits declaration := by
  obtain ⟨target, declaration, settings, given, built⟩ := builtBy_of_mem_made member
  exact ⟨target, declaration, settings, given, built, Record.fits_of_build built⟩

/-- A record and another one that is made of its parts, edited to have a value more. -/
def reassembling : List Command :=
  [.build "t" ⟨"point", none, [⟨some "x", none⟩, ⟨some "y", none⟩], 1⟩ .standard false,
    .make "t" [.null] none "p", .takeApart "p" "q",
    .editParts "q" (some [.null, .bool true]) none, .assemble "q" "r"]

theorem made_fits_reassembling :
    ((empty []).made reassembling).length = 2 ∧
      ∀ record ∈ (empty []).made reassembling,
        record.Fits ⟨"point", none, [⟨some "x", none⟩, ⟨some "y", none⟩], 1⟩ := by
  refine ⟨rfl, fun record member => ?_⟩
  obtain ⟨target, declaration, settings, given, _, fits⟩ := made_fits member
  simp only [reassembling, List.mem_cons, List.not_mem_nil, reduceCtorEq, or_false,
    Command.build.injEq] at given
  rw [← given.2.1]
  exact fits

end Workspace

end SlotRecord
