import Std.Data.HashMap.Lemmas
import SlotRecord.Proofs.Json.Agreement
import SlotRecord.Proofs.Workspace.Asking

/-!
# Arguments of a record

The values of a record may come from a dictionary, from a table, from JSON data, or from
arguments of any kind. It does not matter from which, as long as they hold the same under
each name. Of other arguments only the kinds are looked at.
-/

namespace SlotRecord

/-- Of several entries with one name a table keeps the one that a dictionary keeps. -/
theorem Dict.getElem?_ofList {α : Type} (name : String) (entries : List (String × α)) :
    (Std.HashMap.ofList entries)[name]? = get? name (ofList entries) := by
  rw [Std.HashMap.ofList_eq_insertMany_empty]
  induction entries using List.reverseRecOn with
  | nil => exact Std.HashMap.getElem?_empty
  | append_singleton entries last induction =>
      rw [Std.HashMap.insertMany_append, Std.HashMap.insertMany_list_singleton,
        Std.HashMap.getElem?_insert, ofList_append_singleton, get?_insert, induction]
      simp only [beq_iff_eq]

namespace Source

theorem ofTable_eq {table : Std.HashMap String Value} {entries : Dict Value}
    (same : ∀ name, table[name]? = Dict.get? name entries) : ofTable table = ofDict entries := by
  funext name
  exact congrArg Except.ok (same name)

/-- To convert an entry that is asked for is to ask for a converted one. -/
theorem ofData_eq (members : Dict Json.Data) :
    ofData members = ofDict (Value.ofDataEntries members) := by
  funext name
  rw [ofData, ofDict, Value.ofDataEntries_eq_map, Dict.get?_map]

end Source

namespace Record

variable {schema : SchemaRef} {serial : Nat}

/-- What is wrong with the kinds of two arguments. The sequence comes first. -/
inductive Mistyped (schema : String) : Value → Option Value → Fault → Prop
  | sequence {sequence : Value} {argument : Option Value} :
      (∀ items, sequence ≠ .list items) →
        Mistyped schema sequence argument (.notASequence sequence.kind)
  | argument {items : List Value} {argument : Value} :
      argument ≠ .null → (∀ entries, argument ≠ .dict entries) →
        Mistyped schema (.list items) (some argument) (.notADict schema argument.kind)

theorem makeFrom_of_mistyped {sequence : Value} {argument : Option Value} {fault : Fault}
    (mistyped : Mistyped schema.name sequence argument fault) :
    makeFrom schema serial sequence argument = .error fault := by
  cases mistyped with
  | sequence other =>
      cases sequence with
      | list items => exact absurd rfl (other items)
      | _ => rfl
  | @argument _ argument some other =>
      cases argument with
      | null => exact absurd rfl some
      | dict entries => exact absurd rfl (other entries)
      | _ => rfl

/-- Whether an argument stands for a source. -/
inductive StandsFor : Option Value → Option Source → Prop
  | none : StandsFor none none
  | null : StandsFor (some .null) none
  | dict (entries : Dict Value) : StandsFor (some (.dict entries)) (some (.ofDict entries))

theorem makeFrom_of_standsFor {argument : Option Value} {source : Option Source}
    (stands : StandsFor argument source) (positional : List Value) :
    makeFrom schema serial (.list positional) argument =
      (make schema serial positional source).outcome := by
  cases stands <;> rfl

theorem mistyped_or_standsFor (schema : String) (sequence : Value) (argument : Option Value) :
    (∃ fault, Mistyped schema sequence argument fault) ∨
      ∃ positional source, sequence = .list positional ∧ StandsFor argument source := by
  by_cases list : ∃ positional, sequence = .list positional
  · obtain ⟨positional, rfl⟩ := list
    cases argument with
    | none => exact .inr ⟨positional, _, rfl, .none⟩
    | some argument =>
        cases argument with
        | null => exact .inr ⟨positional, _, rfl, .null⟩
        | dict entries => exact .inr ⟨positional, _, rfl, .dict entries⟩
        | _ => exact .inl ⟨_, .argument (by simp) (by simp)⟩
  · exact .inl ⟨_, .sequence fun items same => list ⟨items, same⟩⟩

/-- An argument of the right kind answers for every name. -/
theorem StandsFor.answers {argument : Option Value} {source : Option Source}
    (stands : StandsFor argument source) (name : String) :
    ∃ answer, Source.consult source name = .ok answer := by
  cases stands <;> exact ⟨_, rfl⟩

/-- Where every name is answered, nothing but the number of positional values is wrong. -/
theorem make_of_answers {source : Option Source}
    (answered : ∀ name, ∃ answer, Source.consult source name = .ok answer)
    (positional : List Value) :
    (∃ record, (make schema serial positional source).outcome = .ok record) ∨
      ∃ bound, (make schema serial positional source).outcome =
        .error (.arity schema.name bound positional.length) := by
  cases violated : schema.schema.violated? positional.length with
  | some bound => exact .inr ⟨bound, congrArg Attempt.outcome (make_of_violated violated)⟩
  | none =>
      obtain ⟨record, made, _⟩ :=
        @exists_make schema serial positional source violated fun name _ => answered name
      exact .inl ⟨record, made⟩

theorem mistyped_of_makeFrom {sequence : Value} {argument : Option Value} {reason : String}
    (failed : makeFrom schema serial sequence argument = .error (.mismatch reason)) :
    Mistyped schema.name sequence argument (.mismatch reason) := by
  rcases mistyped_or_standsFor schema.name sequence argument with
    ⟨fault, mistyped⟩ | ⟨positional, source, rfl, stands⟩
  · rw [makeFrom_of_mistyped mistyped, Except.error.injEq] at failed
    rwa [failed] at mistyped
  · rw [makeFrom_of_standsFor stands] at failed
    rcases make_of_answers stands.answers positional with ⟨record, made⟩ | ⟨bound, refused⟩
    · rw [made] at failed
      cases failed
    · rw [refused] at failed
      cases failed

end Record

namespace Workspace

variable {workspace : Workspace} {handle : String} {ref : SchemaRef}

theorem step_makeFrom (held : Dict.get? handle workspace.schemas = some ref)
    (sequence : Value) (argument : Option Value) (target : String) :
    workspace.step (.makeFrom handle sequence argument target) =
      workspace.keep ⟨[], Record.makeFrom ref workspace.nextSerial sequence argument⟩
        target := by
  rw [step, withBound, held]

/-- Whether two commands come to the same, whatever a source was asked. -/
def Agree (first second : Workspace × Reply) : Prop :=
  first.1 = second.1 ∧ first.2.outcome = second.2.outcome

theorem agree_keep {first second : Attempt Record} (same : first.outcome = second.outcome)
    (target : String) : Agree (workspace.keep first target) (workspace.keep second target) := by
  rw [keep, keep, same]
  cases second.outcome with
  | error fault => exact ⟨rfl, rfl⟩
  | ok record => exact ⟨rfl, rfl⟩

/-- How the commands that make a record take their arguments. -/
structure ArgumentsAgree (workspace : Workspace) (handle : String) (ref : SchemaRef)
    (positional : List Value) (target : String) : Prop where
  /-- A table does what a dictionary does that holds the same. -/
  table : ∀ (table : Std.HashMap String Value) (entries : Dict Value),
    (∀ name, table[name]? = Dict.get? name entries) →
      workspace.step (.make handle positional (some (.ofTable table)) target) =
        workspace.step (.make handle positional (some (.ofDict entries)) target)
  entries : ∀ entries : List (String × Value),
    workspace.step
        (.make handle positional (some (.ofTable (Std.HashMap.ofList entries))) target) =
      workspace.step
        (.make handle positional (some (.ofDict (Dict.ofList entries))) target)
  object : ∀ entries,
    Agree (workspace.step (.makeFrom handle (.list positional) (some (.dict entries)) target))
      (workspace.step (.make handle positional (some (.ofDict entries)) target))
  /-- JSON data does what the value does into which it is converted. -/
  data : ∀ members, ∃ entries, Value.ofData (.object members) = .dict entries ∧
    workspace.step (.make handle positional (some (.ofData members)) target) =
      workspace.step (.make handle positional (some (.ofDict entries)) target)
  without : ∀ argument, argument = none ∨ argument = some .null →
    Agree (workspace.step (.makeFrom handle (.list positional) argument target))
      (workspace.step (.make handle positional none target))
  /-- Nothing is left of an attempt with arguments of the wrong kinds. -/
  refused : ∀ sequence argument fault,
    Record.Mistyped ref.schema.name sequence argument fault →
      workspace.step (.makeFrom handle sequence argument target) = (workspace, .fault fault)
  mistyped : ∀ sequence argument reason,
    (workspace.step (.makeFrom handle sequence argument target)).2.outcome =
        .error (.fault (.mismatch reason)) →
      Record.Mistyped ref.schema.name sequence argument (.mismatch reason)

/-- Arguments with the same entries are interchangeable, and arguments of the wrong kinds
are refused before anything else is looked at. -/
theorem arguments_interchangeable (held : Dict.get? handle workspace.schemas = some ref)
    (positional : List Value) (target : String) :
    workspace.ArgumentsAgree handle ref positional target := by
  have loose : ∀ {argument : Option Value} {source : Option Source},
      Record.StandsFor argument source →
        Agree (workspace.step (.makeFrom handle (.list positional) argument target))
          (workspace.step (.make handle positional source target)) := by
    intro argument source stands
    rw [step_makeFrom held, step_make held]
    exact agree_keep (Record.makeFrom_of_standsFor stands positional) target
  constructor
  · intro table entries same
    rw [Source.ofTable_eq same]
  · intro entries
    rw [Source.ofTable_eq fun name => Dict.getElem?_ofList name entries]
  · intro entries
    exact loose (.dict entries)
  · intro members
    refine ⟨Value.ofDataEntries members, rfl, ?_⟩
    rw [Source.ofData_eq]
  · rintro argument (rfl | rfl)
    · exact loose .none
    · exact loose .null
  · intro sequence argument fault mistyped
    rw [step_makeFrom held, Record.makeFrom_of_mistyped mistyped]
    rfl
  · intro sequence argument reason failed
    rw [step_makeFrom held] at failed
    cases made : Record.makeFrom ref workspace.nextSerial sequence argument with
    | ok record =>
        rw [made] at failed
        cases failed
    | error fault =>
        rw [made] at failed
        cases failed
        exact Record.mistyped_of_makeFrom made

/-- A table in which a name occurs twice, the dictionary of its entries, an argument that is
this dictionary, and arguments of the wrong kinds. -/
theorem arguments_interchangeable_kinds :
    let workspace := (empty []).run declaring
    let table := workspace.step (.make "t" [.null] (some (.ofTable (Std.HashMap.ofList
      [("y", .null), ("z", .text "a"), ("y", .bool true)]))) "p")
    let entries := workspace.step
      (.make "t" [.null] (some (.ofDict [("y", .bool true), ("z", .text "a")])) "p")
    let argument := workspace.step (.makeFrom "t" (.list [.null])
      (some (.dict [("y", .bool true), ("z", .text "a")])) "p")
    table = entries ∧ Agree argument entries ∧
      (∃ record, table.2.outcome = .ok (.record record) ∧
        argument.2.outcome = .ok (.record record) ∧
        record.slots = [.null, .bool true, .text "a"]) ∧
      workspace.step (.makeFrom "t" (.text "a") (some (.bool true)) "p") =
        (workspace, .fault (.mismatch "constructor requires a sequence, got str")) ∧
      workspace.step (.makeFrom "t" (.list []) (some (.bool true)) "p") =
        (workspace,
          .fault (.mismatch "point() takes a dict as second arg, if any (got bool)")) := by
  intro workspace table entries argument
  have held : Dict.get? "t" workspace.schemas = some _ := rfl
  have laws := fun positional => arguments_interchangeable held positional "p"
  have same : table = entries := (laws [.null]).entries _
  have agree : Agree argument entries := (laws [.null]).object _
  have made : ∃ record, entries.2.outcome = .ok (.record record) ∧
      record.slots = [.null, .bool true, .text "a"] := ⟨_, rfl, rfl⟩
  obtain ⟨record, outcome, slots⟩ := made
  refine ⟨same, agree, ⟨record, ?_, ?_, slots⟩, ?_, ?_⟩
  · rw [same]
    exact outcome
  · exact agree.2.trans outcome
  · apply (laws []).refused
    exact .sequence (by simp)
  · apply (laws []).refused
    exact .argument (by simp) (by simp)

end Workspace

end SlotRecord
