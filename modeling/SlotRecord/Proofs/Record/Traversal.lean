import SlotRecord.Record.Traverse

/-!
# Visits of a traversal

A visitor is called on one reference after the other, in a state that its earlier visits
have left behind, until it stops. The visits are known from a visitor that does the same
and keeps a log. They show what the record owns, from the front and without a gap.
-/

namespace SlotRecord

abbrev Visitor (σ : Type) := σ → Reference → σ × Flow

/-- What a visitor was shown and what it answered. -/
structure Visit where
  shown : Reference
  answer : Flow

variable {σ : Type} {visitor : Visitor σ}

/-- The visitor that answers as before and logs its visits. -/
def Visitor.logging (visitor : Visitor σ) : Visitor (σ × List Visit) :=
  fun (state, log) shown =>
    let (next, answer) := visitor state shown
    ((next, log ++ [⟨shown, answer⟩]), answer)

/-- Whether a visitor that starts in one state gives these answers to what it is shown,
each in the state that the visits before have led to, and ends up in another state. -/
inductive Conversation (visitor : Visitor σ) : σ → List Visit → σ → Prop
  | over (state : σ) : Conversation visitor state [] state
  | more {state next last : σ} {shown : Reference} {answer : Flow} {rest : List Visit} :
      visitor state shown = (next, answer) → Conversation visitor next rest last →
        Conversation visitor state (⟨shown, answer⟩ :: rest) last

/-- How a visitor goes through references: to the end, or up to one at which it stops. -/
inductive Visits (visitor : Visitor σ) : List Reference → σ → List Visit → σ × Flow → Prop
  | done (state : σ) : Visits visitor [] state [] (state, .proceed)
  | stopped {head : Reference} {tail : List Reference} {state next : σ} :
      visitor state head = (next, .stop) →
        Visits visitor (head :: tail) state [⟨head, .stop⟩] (next, .stop)
  | proceeded {head : Reference} {tail : List Reference} {state next : σ}
      {visits : List Visit} {outcome : σ × Flow} :
      visitor state head = (next, .proceed) → Visits visitor tail next visits outcome →
        Visits visitor (head :: tail) state (⟨head, .proceed⟩ :: visits) outcome

/-- Logging changes neither the state nor the outcome, and the log grows by the visits. -/
theorem visitAll_logging (visitor : Visitor σ) (state : σ) (log : List Visit)
    (references : List Reference) :
    ∃ visits, Visits visitor references state visits (visitAll visitor state references) ∧
      visitAll visitor.logging (state, log) references =
        (((visitAll visitor state references).1, log ++ visits),
          (visitAll visitor state references).2) := by
  induction references generalizing state log with
  | nil => exact ⟨[], .done state, by rw [List.append_nil]; rfl⟩
  | cons head tail induction =>
      rcases answered : visitor state head with ⟨next, answer⟩
      cases answer with
      | stop =>
          refine ⟨[⟨head, .stop⟩], ?_, ?_⟩
          · simp only [visitAll, answered]
            exact .stopped answered
          · simp only [visitAll, Visitor.logging, answered]
      | proceed =>
          obtain ⟨visits, later, same⟩ := induction next (log ++ [⟨head, .proceed⟩])
          refine ⟨⟨head, .proceed⟩ :: visits, ?_, ?_⟩
          · simp only [visitAll, answered]
            exact .proceeded answered later
          · simp only [visitAll, Visitor.logging, answered]
            rw [← List.append_cons] at same
            exact same

namespace Visits

variable {references : List Reference} {state : σ} {visits : List Visit} {outcome : σ × Flow}

theorem conversation (run : Visits visitor references state visits outcome) :
    Conversation visitor state visits outcome.1 := by
  induction run with
  | done state => exact .over state
  | stopped answered => exact .more answered (.over _)
  | proceeded answered _ induction => exact .more answered induction

theorem shown_prefix (run : Visits visitor references state visits outcome) :
    visits.map Visit.shown <+: references := by
  induction run with
  | done => exact List.prefix_rfl
  | stopped => exact List.cons_prefix_cons.mpr ⟨rfl, List.nil_prefix⟩
  | proceeded _ _ induction => exact List.cons_prefix_cons.mpr ⟨rfl, induction⟩

theorem proceeds_before_last (run : Visits visitor references state visits outcome) :
    ∀ visit ∈ visits.dropLast, visit.answer = .proceed := by
  induction run with
  | done => exact List.forall_mem_nil _
  | stopped => exact List.forall_mem_nil _
  | @proceeded _ _ _ _ visits _ _ _ induction =>
      cases visits with
      | nil => exact List.forall_mem_nil _
      | cons second others =>
          rw [List.dropLast_cons_cons]
          exact List.forall_mem_cons.mpr ⟨rfl, induction⟩

theorem shown_eq (run : Visits visitor references state visits outcome)
    (proceeds : ∀ visit ∈ visits, visit.answer = .proceed) :
    visits.map Visit.shown = references := by
  induction run with
  | done => rfl
  | stopped => cases proceeds _ List.mem_cons_self
  | proceeded _ _ induction =>
      exact congrArg _ (induction (List.forall_mem_cons.mp proceeds).2)

theorem stop_iff (run : Visits visitor references state visits outcome) :
    outcome.2 = .stop ↔ ∃ visit ∈ visits, visit.answer = .stop := by
  induction run with
  | done => simp
  | stopped => simp
  | proceeded _ _ induction => simpa using induction

end Visits

namespace Record

variable (record : Record)

/-- What a record owns: its schema, if that is not pinned, and the value of every slot. -/
def owned : List Reference :=
  (if record.schema.pinned then [] else [.schema record.schema]) ++
    ((List.range record.schema.schema.total).filterMap record.slot?).map .value

/-- What is visited when a record is traversed. -/
def visits (visitor : Visitor σ) (state : σ) : List Visit :=
  (record.traverse visitor.logging (state, [])).1.2

theorem filterMap_slot? :
    (List.range record.schema.schema.total).filterMap record.slot? = record.slots := by
  rw [← record.complete]
  show (List.range record.slots.length).filterMap (fun slot => record.slots[slot]?) = _
  induction record.slots with
  | nil => rfl
  | cons head tail induction =>
      rw [List.length_cons, List.range_succ_eq_map, List.filterMap_cons, List.filterMap_map]
      exact congrArg (head :: ·) induction

theorem owned_eq_references : record.owned = record.references := by
  rw [owned, references, filterMap_slot?]

/-- Whether the visits show what a record owns up to the first stop, or all of it, and the
outcome tells whether there was one. -/
structure ShownInTurn (visitor : Visitor σ) (state : σ) : Prop where
  front : (record.visits visitor state).map Visit.shown <+: record.owned
  stops : ∀ visit ∈ (record.visits visitor state).dropLast, visit.answer = .proceed
  whole : (∀ visit ∈ record.visits visitor state, visit.answer = .proceed) →
    (record.visits visitor state).map Visit.shown = record.owned
  outcome : (record.traverse visitor state).2 = .stop ↔
    ∃ visit ∈ record.visits visitor state, visit.answer = .stop
  conversation : Conversation visitor state (record.visits visitor state)
    (record.traverse visitor state).1

/-- Every visitor, whatever its answers depend on, is shown what a record owns: in order,
up to and with the reference at which it stops first, and to the end if it never does. The
traversal stops exactly if the visitor did. -/
theorem traversal_shows_owned (visitor : Visitor σ) (state : σ) :
    record.ShownInTurn visitor state := by
  obtain ⟨visits, run, logged⟩ := visitAll_logging visitor state [] record.references
  have same : record.visits visitor state = visits :=
    congrArg (fun found => found.1.2) logged
  constructor
  · rw [same, owned_eq_references]
    exact run.shown_prefix
  · rw [same]
    exact run.proceeds_before_last
  · rw [same, owned_eq_references]
    exact run.shown_eq
  · rw [same]
    exact run.stop_iff
  · rw [same]
    exact run.conversation

end Record

end SlotRecord
