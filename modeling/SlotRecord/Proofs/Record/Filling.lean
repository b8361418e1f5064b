import SlotRecord.Proofs.Record.Reassembly

/-!
# Slots of made records

A record is made of so many positional values as its schema allows, or not at all. The
slots after them hold what a source answers for the names of their fields, and null
where it has no answer; what it answers for other names does not matter.
-/

namespace SlotRecord

/-- What is answered for a name: nothing if there is no source. -/
def Source.consult : Option Source → String → Except Fault (Option Value)
  | none, _ => .ok none
  | some ask, name => ask name

/-- What is answered for a field: nothing if it has no name. -/
def Field.answer (source : Option Source) (field : Field) : Except Fault (Option Value) :=
  match field.name with
  | some name => Source.consult source name
  | none => .ok none

theorem fieldNames_subset_cons (field : Field) (fields : List Field) :
    fieldNames fields ⊆ fieldNames (field :: fields) :=
  (List.sublist_cons_self field fields).filterMap Field.name |>.subset

section

variable {source : Option Source} {field : Field} {fields : List Field}

theorem Field.answer_of_name {name : String} (named : field.name = some name) :
    field.answer source = Source.consult source name := by
  rw [answer, named]

theorem fillRest_of_answer {answer : Option Value}
    (answered : field.answer source = .ok answer) :
    (fillRest source (field :: fields)).outcome =
      (fillRest source fields).outcome.map (answer.getD .null :: ·) := by
  cases named : field.name with
  | none =>
      rw [Field.answer, named] at answered
      cases answered
      simp only [fillRest, named]
      rfl
  | some name =>
      rw [Field.answer_of_name named] at answered
      cases source with
      | none =>
          cases answered
          simp only [fillRest, named]
          rfl
      | some ask =>
          have given : ask name = .ok answer := answered
          simp only [fillRest, named, given]

theorem fillRest_of_fault {fault : Fault} (failed : field.answer source = .error fault)
    (fields : List Field) :
    ∃ name, field.name = some name ∧
      fillRest source (field :: fields) = ⟨[name], .error (fault.duringLookup name)⟩ := by
  cases named : field.name with
  | none =>
      rw [Field.answer, named] at failed
      cases failed
  | some name =>
      rw [Field.answer_of_name named] at failed
      cases source with
      | none => cases failed
      | some ask =>
          have refused : ask name = .error fault := failed
          refine ⟨name, rfl, ?_⟩
          simp only [fillRest, named, refused]

/-- Nothing is looked up for a field without a name. -/
theorem Field.answer_cases (member : field ∈ fields) :
    (∀ source, field.answer source = .ok none) ∨
      ∃ name ∈ fieldNames fields, ∀ source,
        field.answer source = Source.consult source name := by
  cases named : field.name with
  | none =>
      left
      intro source
      rw [answer, named]
  | some name =>
      right
      exact ⟨name, List.mem_filterMap.mpr ⟨field, member, named⟩,
        fun source => answer_of_name named⟩

/-- Slots are filled if no lookup fails. -/
theorem exists_fillRest
    (answered : ∀ name ∈ fieldNames fields,
      ∃ answer, Source.consult source name = .ok answer) :
    ∃ values, (fillRest source fields).outcome = .ok values := by
  induction fields with
  | nil => exact ⟨[], rfl⟩
  | cons field fields induction =>
      obtain ⟨answer, given⟩ : ∃ answer, field.answer source = .ok answer := by
        rcases Field.answer_cases (List.mem_cons_self : field ∈ field :: fields) with
          unnamed | ⟨name, known, asked⟩
        · exact ⟨none, unnamed source⟩
        · rw [asked]
          exact answered name known
      obtain ⟨values, filled⟩ := induction fun name known =>
        answered name (fieldNames_subset_cons field fields known)
      refine ⟨answer.getD .null :: values, ?_⟩
      rw [fillRest_of_answer given, filled]
      rfl

/-- Each slot holds what was answered for its field. -/
theorem getElem?_fillRest {values : List Value} {place : Nat}
    (filled : (fillRest source fields).outcome = .ok values)
    (declared : fields[place]? = some field) :
    ∃ answer, field.answer source = .ok answer ∧
      values[place]? = some (answer.getD .null) := by
  induction fields generalizing values place with
  | nil => cases declared
  | cons first fields induction =>
      cases answered : first.answer source with
      | error fault =>
          obtain ⟨name, _, failed⟩ := fillRest_of_fault answered fields
          rw [failed] at filled
          cases filled
      | ok answer =>
          rw [fillRest_of_answer answered] at filled
          cases later : (fillRest source fields).outcome with
          | error fault =>
              rw [later] at filled
              cases filled
          | ok others =>
              rw [later] at filled
              cases filled
              cases place with
              | zero =>
                  cases declared
                  exact ⟨answer, answered, rfl⟩
              | succ place =>
                  obtain ⟨found, given, held⟩ := induction later declared
                  exact ⟨found, given, held⟩

/-- What is answered for other names does not matter. -/
theorem fillRest_congr {other : Option Source}
    (same : ∀ name ∈ fieldNames fields,
      Source.consult other name = Source.consult source name) :
    (fillRest other fields).outcome = (fillRest source fields).outcome := by
  induction fields with
  | nil => rfl
  | cons field fields induction =>
      have later := induction fun name known =>
        same name (fieldNames_subset_cons field fields known)
      have here : field.answer other = field.answer source := by
        rcases Field.answer_cases (List.mem_cons_self : field ∈ field :: fields) with
          unnamed | ⟨name, known, asked⟩
        · rw [unnamed, unnamed]
        · rw [asked, asked, same name known]
      cases answered : field.answer source with
      | error fault =>
          rw [answered] at here
          obtain ⟨name, named, failed⟩ := fillRest_of_fault answered fields
          obtain ⟨otherName, otherNamed, otherFailed⟩ := fillRest_of_fault here fields
          cases named.symm.trans otherNamed
          rw [failed, otherFailed]
      | ok answer =>
          rw [answered] at here
          rw [fillRest_of_answer answered, fillRest_of_answer here, later]

end

namespace Schema

variable {schema : Schema} {given : Nat}

theorem getElem?_drop_fields (schema : Schema) {count slot : Nat} (beyond : count ≤ slot) :
    (schema.fields.drop count)[slot - count]? = schema.field? slot := by
  rw [List.getElem?_drop, Nat.add_sub_cancel' beyond]
  rfl

/-- Every field after the visible ones has a name. -/
theorem exists_name (schema : Schema) {slot : Nat} {field : Field}
    (beyond : schema.visible ≤ slot) (declared : schema.field? slot = some field) :
    ∃ name, field.name = some name := by
  have dropped := (schema.getElem?_drop_fields beyond).trans declared
  exact Option.isSome_iff_exists.mp
    (schema.hidden_named field (List.mem_of_getElem? dropped))

theorem violated?_exactly (noHidden : schema.visible = schema.total)
    (other : given ≠ schema.visible) :
    schema.violated? given = some (.exactly schema.visible) := by
  rw [violated?, if_pos noHidden, if_neg other]

theorem violated?_atLeast (hidden : schema.visible ≠ schema.total)
    (few : given < schema.visible) :
    schema.violated? given = some (.atLeast schema.visible) := by
  rw [violated?, if_neg hidden, if_pos few]

theorem violated?_atMost (hidden : schema.visible ≠ schema.total)
    (many : schema.total < given) :
    schema.violated? given = some (.atMost schema.total) := by
  have enough : schema.visible ≤ schema.total := schema.visible_le
  rw [violated?, if_neg hidden, if_neg (by omega), if_pos many]

end Schema

namespace Record

variable {schema : SchemaRef} {serial : Nat} {positional : List Value}
  {source : Option Source}

/-- Where a bound is violated nothing is asked. -/
theorem make_of_violated {bound : Arity}
    (violated : schema.schema.violated? positional.length = some bound) :
    make schema serial positional source =
      ⟨[], .error (.arity schema.name bound positional.length)⟩ := by
  have filled : schema.schema.fill positional source =
      ⟨[], .error (.arity schema.name bound positional.length)⟩ := by
    rw [Schema.fill, violated]
    rfl
  have outcome : (make schema serial positional source).outcome =
      .error (.arity schema.name bound positional.length) :=
    make_of_fault (congrArg Attempt.outcome filled)
  have asked : (make schema serial positional source).asked = [] :=
    congrArg Attempt.asked filled
  rw [← outcome, ← asked]

/-- The slots are all that a source makes of a record. -/
theorem make_congr {other : Option Source}
    (same : (schema.schema.fill positional other).outcome =
      (schema.schema.fill positional source).outcome) :
    (make schema serial positional other).outcome =
      (make schema serial positional source).outcome := by
  cases filled : (schema.schema.fill positional source).outcome with
  | error fault => rw [make_of_fault filled, make_of_fault (same.trans filled)]
  | ok values => rw [make_of_values filled, make_of_values (same.trans filled)]

/-- A record with the positional values in its first slots and with the answers of a
source, or null, in those after them. -/
structure HoldsFrom (positional : List Value) (source : Option Source) (record : Record) :
    Prop where
  given : ∀ slot < positional.length, record.slot? slot = positional[slot]?
  answered : ∀ slot field, positional.length ≤ slot →
    record.schema.schema.field? slot = some field →
      ∃ name answer, field.name = some name ∧ Source.consult source name = .ok answer ∧
        record.slot? slot = some (answer.getD .null)

/-- If no lookup fails, a record is made of as many positional values as fit. -/
theorem exists_make (fits : schema.schema.violated? positional.length = none)
    (answered : ∀ name ∈ fieldNames (schema.schema.fields.drop positional.length),
      ∃ answer, Source.consult source name = .ok answer) :
    ∃ record, (make schema serial positional source).outcome = .ok record ∧
      record.schema = schema ∧ HoldsFrom positional source record := by
  obtain ⟨enough, _⟩ := Schema.violated?_eq_none_iff.mp fits
  obtain ⟨values, later⟩ := exists_fillRest answered
  have filled : (schema.schema.fill positional source).outcome =
      .ok (positional ++ values) := by
    simp only [Schema.fill, fits, later]
    rfl
  refine ⟨_, make_of_values filled, rfl, ?_⟩
  constructor
  · intro slot inside
    exact List.getElem?_append_left inside
  · intro slot field beyond declared
    have dropped := (schema.schema.getElem?_drop_fields beyond).trans declared
    obtain ⟨name, named⟩ := schema.schema.exists_name (Nat.le_trans enough beyond) declared
    obtain ⟨answer, given, held⟩ := getElem?_fillRest later dropped
    rw [Field.answer_of_name named] at given
    exact ⟨name, answer, named, given, (List.getElem?_append_right beyond).trans held⟩

/-- What is made of positional values and a source: so many values as the schema does
not allow are refused without a lookup, and what is answered for the fields that no
positional value reaches is all that counts of a source. -/
structure Makes (schema : SchemaRef) (serial : Nat) (positional : List Value)
    (source : Option Source) : Prop where
  exactly : schema.schema.visible = schema.schema.total →
    positional.length ≠ schema.schema.visible →
      make schema serial positional source = ⟨[], .error
        (.arity schema.name (.exactly schema.schema.visible) positional.length)⟩
  atLeast : schema.schema.visible ≠ schema.schema.total →
    positional.length < schema.schema.visible →
      make schema serial positional source = ⟨[], .error
        (.arity schema.name (.atLeast schema.schema.visible) positional.length)⟩
  atMost : schema.schema.visible ≠ schema.schema.total →
    schema.schema.total < positional.length →
      make schema serial positional source = ⟨[], .error
        (.arity schema.name (.atMost schema.schema.total) positional.length)⟩
  filled : schema.schema.visible ≤ positional.length →
    positional.length ≤ schema.schema.total →
      (∀ name ∈ fieldNames (schema.schema.fields.drop positional.length),
        ∃ answer, Source.consult source name = .ok answer) →
        ∃ record, (make schema serial positional source).outcome = .ok record ∧
          record.schema = schema ∧ HoldsFrom positional source record
  others : ∀ other,
    (∀ name ∈ fieldNames (schema.schema.fields.drop positional.length),
      Source.consult other name = Source.consult source name) →
      (make schema serial positional other).outcome =
        (make schema serial positional source).outcome

theorem makes_specified_slots (schema : SchemaRef) (serial : Nat) (positional : List Value)
    (source : Option Source) : Makes schema serial positional source := by
  constructor
  · intro noHidden other
    exact make_of_violated (Schema.violated?_exactly noHidden other)
  · intro hidden few
    exact make_of_violated (Schema.violated?_atLeast hidden few)
  · intro hidden many
    exact make_of_violated (Schema.violated?_atMost hidden many)
  · intro enough notMore answered
    exact exists_make (Schema.violated?_eq_none_iff.mpr ⟨enough, notMore⟩) answered
  · intro other same
    cases violated : schema.schema.violated? positional.length with
    | some bound => rw [make_of_violated violated, make_of_violated violated]
    | none =>
        apply make_congr
        simp only [Schema.fill, violated, fillRest_congr same]

theorem makes_specified_slots_marked :
    make marked.schema 8 [.null] none =
        ⟨[], .error (.arity "samples.marked" (.atLeast 2) 1)⟩ ∧
      ∃ record,
        (make marked.schema 8 [.null, .null, .bool true]
            (some (.ofDict [("index", .text "a"), ("ratio", .null)]))).outcome = .ok record ∧
          record.slot? 2 = some (.bool true) ∧ record.slot? 3 = some (.text "a") := by
  constructor
  · exact (makes_specified_slots marked.schema 8 [.null] none).atLeast (by decide) (by decide)
  · obtain ⟨record, made, schema, holds⟩ :=
      (makes_specified_slots marked.schema 8 [.null, .null, .bool true]
        (some (.ofDict [("index", .text "a"), ("ratio", .null)]))).filled (by decide)
        (by decide) fun name known => ⟨_, rfl⟩
    refine ⟨record, made, holds.given 2 (by decide), ?_⟩
    obtain ⟨name, answer, named, given, held⟩ :=
      holds.answered 3 ⟨some "index", none⟩ (by decide) (by rw [schema]; rfl)
    cases named
    cases given
    exact held

end Record

end SlotRecord
