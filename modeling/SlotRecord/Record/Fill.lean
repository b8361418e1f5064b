import Std.Data.HashMap
import SlotRecord.Json.Decode
import SlotRecord.Schema.Basic

/-!
# Filling slots

A source answers for the value of a field name: with a value, with nothing, or with a fault.
Collections of entries are sources whose answers never fail.

Positional values fill the first slots. For each slot after them a source is
asked by the name of its field; without an answer the slot holds null. The
names that were asked belong to the outcome, so that it shows how far a failed
attempt came.
-/

namespace SlotRecord

abbrev Source := String → Except Fault (Option Value)

namespace Source

def ofDict (entries : Dict Value) : Source := fun name => .ok (Dict.get? name entries)

def ofTable (entries : Std.HashMap String Value) : Source := fun name => .ok entries[name]?

/-- Each entry is converted when it is asked for. -/
def ofData (entries : Dict Json.Data) : Source :=
  fun name => .ok ((Dict.get? name entries).map Value.ofData)

/-- Entries with some names that fail, each in its own way. -/
def failing (failures : Dict Fault) (entries : Dict Value) : Source := fun name =>
  match Dict.get? name failures with
  | some fault => .error fault
  | none => .ok (Dict.get? name entries)

end Source

/-- An outcome together with the names that were asked for it, in order. -/
structure Attempt (α : Type) where
  asked : List String
  outcome : Except Fault α

/-- The values of slots that no positional value fills. -/
def fillRest (source : Option Source) : List Field → Attempt (List Value)
  | [] => ⟨[], .ok []⟩
  | field :: rest =>
    match field.name, source with
    | some name, some ask =>
      match ask name with
      | .error fault => ⟨[name], .error (fault.duringLookup name)⟩
      | .ok answer =>
        let later := fillRest source rest
        ⟨name :: later.asked, later.outcome.map (answer.getD .null :: ·)⟩
    | _, _ =>
      let later := fillRest source rest
      ⟨later.asked, later.outcome.map (.null :: ·)⟩

namespace Schema

/-- The bound that a number of positional values violates, if it violates one. -/
def violated? (schema : Schema) (given : Nat) : Option Arity :=
  if schema.visible = schema.total then
    if given = schema.visible then none else some (.exactly schema.visible)
  else if given < schema.visible then some (.atLeast schema.visible)
  else if schema.total < given then some (.atMost schema.total)
  else none

/-- All slots of a record, from its positional values and a source. -/
def fill (schema : Schema) (positional : List Value) (source : Option Source) :
    Attempt (List Value) :=
  match schema.violated? positional.length with
  | some bound => ⟨[], .error (.arity schema.name bound positional.length)⟩
  | none =>
    let later := fillRest source (schema.fields.drop positional.length)
    ⟨later.asked, later.outcome.map (positional ++ ·)⟩

end Schema

theorem fillRest_length {source : Option Source} {fields : List Field}
    {values : List Value} (filled : (fillRest source fields).outcome = .ok values) :
    values.length = fields.length := by
  induction fields generalizing values with
  | nil =>
      simp only [fillRest, Except.ok.injEq] at filled
      simp [← filled]
  | cons field rest induction =>
      have extend : ∀ {head : Value},
          (fillRest source rest).outcome.map (head :: ·) = .ok values →
            values.length = (field :: rest).length := by
        intro head mapped
        cases later : (fillRest source rest).outcome with
        | error fault =>
            rw [later] at mapped
            cases mapped
        | ok tail =>
            rw [later] at mapped
            cases mapped
            simp [induction later]
      simp only [fillRest] at filled
      split at filled
      · split at filled
        · cases filled
        · exact extend filled
      · exact extend filled

theorem Schema.le_total_of_violated?_eq_none {schema : Schema} {given : Nat}
    (fits : schema.violated? given = none) : given ≤ schema.total := by
  simp only [Schema.violated?] at fits
  split at fits
  · split at fits
    · omega
    · cases fits
  · split at fits
    · cases fits
    · split at fits
      · cases fits
      · omega

/-- Filled slots are as many as the schema has fields. -/
theorem Schema.fill_length {schema : Schema} {positional values : List Value}
    {source : Option Source}
    (filled : (schema.fill positional source).outcome = .ok values) :
    values.length = schema.total := by
  simp only [Schema.fill] at filled
  split at filled
  · cases filled
  · rename_i fits
    have bounded := Schema.le_total_of_violated?_eq_none fits
    cases later : (fillRest source (schema.fields.drop positional.length)).outcome with
    | error fault =>
        rw [later] at filled
        cases filled
    | ok tail =>
        rw [later] at filled
        cases filled
        have length := fillRest_length later
        simp only [Schema.total] at *
        simp [length]
        omega

end SlotRecord
