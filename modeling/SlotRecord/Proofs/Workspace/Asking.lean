import SlotRecord.Proofs.First
import SlotRecord.Proofs.Record.Filling
import SlotRecord.Workspace.Command

/-!
# Asking a source

A source is asked for the fields that no positional value reaches, one after the other,
and for none after one that it fails for. Only if it fails for none of them a record
comes about; otherwise everything is as it was before.
-/

namespace SlotRecord

/-- The names of the fields after the first ones, in slot order. -/
def Schema.namesFrom (schema : Schema) (given : Nat) : List String :=
  fieldNames (schema.fields.drop given)

namespace Source

/-- Whether a source answers for a name, be it with nothing. -/
def Answers (ask : Source) (name : String) : Prop := ∃ answer, ask name = .ok answer

/-- Of some names, a source answers for those that come before `name`, and then it
fails. -/
structure FailsAt (ask : Source) (names earlier : List String) (name : String)
    (fault : Fault) : Prop where
  place : ∃ later, names = earlier ++ name :: later
  answered : ∀ other ∈ earlier, ask.Answers other
  failed : ask name = .error fault

/-- A source answers for all names, or there is a first one for which it fails. -/
theorem answers_or_failsAt (ask : Source) (names : List String) :
    (∀ name ∈ names, ask.Answers name) ∨
      ∃ earlier name fault, ask.FailsAt names earlier name fault := by
  have each : ∀ name ∈ names, ask.Answers name ∨ ∃ fault, ask name = .error fault := by
    intro name _
    cases given : ask name with
    | error fault => exact Or.inr ⟨fault, rfl⟩
    | ok answer => exact Or.inl ⟨answer, given⟩
  rcases exists_first each with all | ⟨earlier, name, later, split, answered, fault, failed⟩
  · exact Or.inl all
  · exact Or.inr ⟨earlier, name, fault, ⟨later, split⟩, answered, failed⟩

end Source

section

variable {ask : Source} {field : Field} {fields : List Field}

/-- No name is asked for a field that has none. -/
theorem fillRest_of_unnamed (unnamed : field.name = none) (source : Option Source)
    (fields : List Field) :
    fillRest source (field :: fields) =
      ⟨(fillRest source fields).asked, (fillRest source fields).outcome.map (.null :: ·)⟩ := by
  simp only [fillRest, unnamed]

theorem fillRest_of_answered {name : String} {answer : Option Value}
    (named : field.name = some name) (given : ask name = .ok answer)
    (fields : List Field) :
    fillRest (some ask) (field :: fields) =
      ⟨name :: (fillRest (some ask) fields).asked,
        (fillRest (some ask) fields).outcome.map (answer.getD .null :: ·)⟩ := by
  simp only [fillRest, named, given]

theorem map_name_eq (named : ∀ field ∈ fields, field.name.isSome) :
    fields.map Field.name = (fieldNames fields).map some := by
  induction fields with
  | nil => rfl
  | cons field fields induction =>
      obtain ⟨here, later⟩ := List.forall_mem_cons.mp named
      obtain ⟨name, known⟩ := Option.isSome_iff_exists.mp here
      rw [fieldNames_cons_some known, List.map_cons, List.map_cons, known, induction later]

/-- A source that fails for no name is asked for all of them. -/
theorem asked_fillRest (answered : ∀ name ∈ fieldNames fields, ask.Answers name) :
    (fillRest (some ask) fields).asked = fieldNames fields := by
  induction fields with
  | nil => rfl
  | cons field fields induction =>
      have later := induction fun name known =>
        answered name (fieldNames_subset_cons field fields known)
      cases named : field.name with
      | none =>
          rw [fillRest_of_unnamed named, fieldNames_cons_none named]
          exact later
      | some name =>
          rw [fieldNames_cons_some named] at answered ⊢
          obtain ⟨answer, given⟩ := answered name List.mem_cons_self
          rw [fillRest_of_answered named given]
          exact congrArg (List.cons name) later

/-- A source is not asked any more after it failed. -/
theorem fillRest_of_failsAt {earlier : List String} {name : String} {fault : Fault}
    (fails : ask.FailsAt (fieldNames fields) earlier name fault) :
    fillRest (some ask) fields =
      ⟨earlier ++ [name], .error (fault.duringLookup name)⟩ := by
  induction fields generalizing earlier with
  | nil =>
      obtain ⟨later, split⟩ := fails.place
      exact absurd split.symm (by simp [fieldNames])
  | cons field fields induction =>
      cases named : field.name with
      | none =>
          rw [fieldNames_cons_none named] at fails
          rw [fillRest_of_unnamed named, induction fails]
          rfl
      | some first =>
          rw [fieldNames_cons_some named] at fails
          obtain ⟨⟨later, split⟩, answered, failed⟩ := fails
          cases earlier with
          | nil =>
              cases split
              simp only [fillRest, named, failed]
              rfl
          | cons other earlier =>
              obtain ⟨rfl, others⟩ := List.cons.inj split
              obtain ⟨⟨answer, given⟩, before⟩ := List.forall_mem_cons.mp answered
              rw [fillRest_of_answered named given,
                induction ⟨⟨later, others⟩, before, failed⟩]
              rfl

end

namespace Schema

variable (schema : Schema)

theorem namesFrom_nodup (given : Nat) : (schema.namesFrom given).Nodup :=
  schema.names_nodup.sublist ((List.drop_sublist given schema.fields).filterMap Field.name)

/-- Every field after the visible ones has its name among them, in its place. -/
theorem map_name_drop {given : Nat} (enough : schema.visible ≤ given) :
    (schema.fields.drop given).map Field.name = (schema.namesFrom given).map some := by
  apply map_name_eq
  intro field member
  exact schema.hidden_named field (List.drop_subset_drop_left _ enough member)

end Schema

namespace Record

variable {schema : SchemaRef} {positional : List Value} {ask : Source}

theorem asked_make (fits : schema.schema.violated? positional.length = none) (serial : Nat)
    (source : Option Source) :
    (make schema serial positional source).asked =
      (fillRest source (schema.schema.fields.drop positional.length)).asked := by
  simp only [make, Schema.fill, fits]

theorem make_of_failsAt (fits : schema.schema.violated? positional.length = none)
    {earlier : List String} {name : String} {fault : Fault}
    (fails : ask.FailsAt (schema.schema.namesFrom positional.length) earlier name fault)
    (serial : Nat) :
    make schema serial positional (some ask) =
      ⟨earlier ++ [name], .error (fault.duringLookup name)⟩ := by
  have later : fillRest (some ask) (schema.schema.fields.drop positional.length) =
      ⟨earlier ++ [name], .error (fault.duringLookup name)⟩ := fillRest_of_failsAt fails
  have outcome : (make schema serial positional (some ask)).outcome =
      .error (fault.duringLookup name) := by
    apply make_of_fault
    simp only [Schema.fill, fits, later]
    rfl
  have asked : (make schema serial positional (some ask)).asked = earlier ++ [name] :=
    (asked_make fits serial (some ask)).trans (congrArg Attempt.asked later)
  rw [← outcome, ← asked]

end Record

namespace Workspace

variable {workspace : Workspace} {handle : String} {ref : SchemaRef}
  {positional : List Value} {ask : Source}

theorem step_make (held : Dict.get? handle workspace.schemas = some ref)
    (positional : List Value) (source : Option Source) (target : String) :
    workspace.step (.make handle positional source target) =
      workspace.keep (Record.make ref workspace.nextSerial positional source) target := by
  rw [step, withBound, held]

/-- What a source is asked, and what comes of it, when a record is to be made of so many
positional values and of the answers. -/
structure AsksInTurn (workspace : Workspace) (ref : SchemaRef) (given : Nat) (ask : Source)
    (outcome : Workspace × Reply) : Prop where
  names : (ref.schema.fields.drop given).map Field.name =
    (ref.schema.namesFrom given).map some
  once : outcome.2.asked.Nodup
  all : (∀ name ∈ ref.schema.namesFrom given, ask.Answers name) →
    outcome.2.asked = ref.schema.namesFrom given
  succeeds : (∃ record, outcome.2.outcome = .ok (.record record)) ↔
    ∀ name ∈ ref.schema.namesFrom given, ask.Answers name
  reported : ∀ earlier name fault,
    ask.FailsAt (ref.schema.namesFrom given) earlier name fault →
      (∀ field reason, fault ≠ .lookup field reason) →
        outcome = (workspace,
          ⟨earlier ++ [name], .error (.fault (.lookup name fault.message))⟩)
  passedOn : ∀ earlier name field reason,
    ask.FailsAt (ref.schema.namesFrom given) earlier name (.lookup field reason) →
      outcome = (workspace, ⟨earlier ++ [name], .error (.fault (.lookup field reason))⟩)

/-- A record that lacks an answer is not made, and nothing is left of the attempt. -/
theorem step_make_of_failsAt (held : Dict.get? handle workspace.schemas = some ref)
    (fits : ref.schema.violated? positional.length = none) {earlier : List String}
    {name : String} {fault : Fault}
    (fails : ask.FailsAt (ref.schema.namesFrom positional.length) earlier name fault)
    (target : String) :
    workspace.step (.make handle positional (some ask) target) =
      (workspace, ⟨earlier ++ [name], .error (.fault (fault.duringLookup name))⟩) := by
  rw [step_make held, Record.make_of_failsAt fits fails]
  rfl

theorem step_make_of_answers (held : Dict.get? handle workspace.schemas = some ref)
    (fits : ref.schema.violated? positional.length = none)
    (answered : ∀ name ∈ ref.schema.namesFrom positional.length, ask.Answers name)
    (target : String) :
    (workspace.step (.make handle positional (some ask) target)).2.asked =
        ref.schema.namesFrom positional.length ∧
      ∃ record, (workspace.step (.make handle positional (some ask) target)).2.outcome =
        .ok (.record record) := by
  obtain ⟨record, made, _⟩ : ∃ record,
      (Record.make ref workspace.nextSerial positional (some ask)).outcome = .ok record ∧ _ :=
    Record.exists_make fits answered
  have asked := (Record.asked_make fits workspace.nextSerial (some ask)).trans
    (asked_fillRest answered)
  rw [step_make held, keep, made]
  exact ⟨asked, record, rfl⟩

/-- A source is asked for the names of the fields that no positional value reaches, in
slot order and for each once, until it fails. A record is made if it never does;
otherwise the fault is reported as one of that field, unless it tells of a lookup
itself, and the workspace stays as it is. -/
theorem make_asks_in_turn (held : Dict.get? handle workspace.schemas = some ref)
    (enough : ref.schema.visible ≤ positional.length)
    (notMore : positional.length ≤ ref.schema.total) (ask : Source) (target : String) :
    workspace.AsksInTurn ref positional.length ask
      (workspace.step (.make handle positional (some ask) target)) := by
  have fits := Schema.violated?_eq_none_iff.mpr ⟨enough, notMore⟩
  have distinct := ref.schema.namesFrom_nodup positional.length
  have made := fun answered : ∀ name ∈ ref.schema.namesFrom positional.length,
      ask.Answers name => step_make_of_answers held fits answered target
  have refused := fun earlier name fault
      (fails : ask.FailsAt (ref.schema.namesFrom positional.length) earlier name fault) =>
    step_make_of_failsAt held fits fails target
  constructor
  · exact ref.schema.map_name_drop enough
  · rcases ask.answers_or_failsAt (ref.schema.namesFrom positional.length) with
      answered | ⟨earlier, name, fault, fails⟩
    · rw [(made answered).1]
      exact distinct
    · obtain ⟨later, split⟩ := fails.place
      rw [refused earlier name fault fails]
      rw [split, List.append_cons] at distinct
      exact (List.nodup_append.mp distinct).1
  · exact fun answered => (made answered).1
  · constructor
    · rintro ⟨record, done⟩
      rcases ask.answers_or_failsAt (ref.schema.namesFrom positional.length) with
        answered | ⟨earlier, name, fault, fails⟩
      · exact answered
      · rw [refused earlier name fault fails] at done
        cases done
    · exact fun answered => (made answered).2
  · intro earlier name fault fails other
    rw [refused earlier name fault fails]
    cases fault with
    | lookup field reason => exact absurd rfl (other field reason)
    | _ => rfl
  · intro earlier name field reason fails
    exact refused earlier name _ fails

/-- A schema with two hidden fields. -/
def declaring : List Command :=
  [.build "t" ⟨"point", none, [⟨some "x", none⟩, ⟨some "y", none⟩, ⟨some "z", none⟩], 1⟩
    .standard false]

/-- A source that fails with a fault of its own, one that fails with a fault of a lookup, and
one that answers for all names. -/
theorem make_asks_in_turn_each :
    let workspace := (empty []).run declaring
    workspace.step
        (.make "t" [.null] (some (.failing [("z", .host "gone")] [("y", .null)])) "p") =
      (workspace, ⟨["y", "z"], .error (.fault (.lookup "z" (Fault.host "gone").message))⟩) ∧
    workspace.step
        (.make "t" [.null] (some (.failing [("y", .lookup "x" "lost")] [])) "p") =
      (workspace, ⟨["y"], .error (.fault (.lookup "x" "lost"))⟩) ∧
    let done := (workspace.step
      (.make "t" [.null] (some (.ofDict [("y", .bool true)])) "p")).2
    done.asked = ["y", "z"] ∧ ∃ record, done.outcome = .ok (.record record) := by
  have laws := fun ask => @make_asks_in_turn ((empty []).run declaring) "t" _ [.null] rfl
    (by decide) (by decide) ask "p"
  refine ⟨?_, ?_, ?_, ?_⟩
  · apply (laws _).reported ["y"] "z" (.host "gone")
    · refine ⟨⟨[], rfl⟩, fun other member => ?_, rfl⟩
      rw [List.mem_singleton.mp member]
      exact ⟨_, rfl⟩
    · intro field reason impossible
      cases impossible
  · apply (laws _).passedOn [] "y" "x" "lost"
    exact ⟨⟨["z"], rfl⟩, fun other member => absurd member List.not_mem_nil, rfl⟩
  · apply (laws _).all
    intro name _
    exact ⟨_, rfl⟩
  · apply (laws _).succeeds.mpr
    intro name _
    exact ⟨_, rfl⟩

end Workspace

end SlotRecord
