import SlotRecord.Proofs.Dict.Keys
import SlotRecord.Proofs.Schema.Names
import SlotRecord.Schema.Build

/-!
# Passes over fields

The fields of a declaration are passed over twice. The first pass counts those without a
name, and stops at one that is not visible. The second enters each name in a table with
its slot, and stops at one that is in it; what it has entered is always the names of the
fields that it has passed.
-/

namespace SlotRecord

namespace Declaration

/-- Counts the fields without a name from a slot on. -/
def countUnnamed (visible : Nat) : Nat → Nat → List Field → Except Flaw Nat
  | _, unnamed, [] => .ok unnamed
  | slot, unnamed, field :: rest =>
    match field.name with
    | some _ => countUnnamed visible (slot + 1) unnamed rest
    | none =>
      if visible ≤ slot then .error (.unnamedHidden slot)
      else countUnnamed visible (slot + 1) (unnamed + 1) rest

/-- Enters the names of the fields from a slot on. -/
def enterNames (visible : Nat) :
    Nat → Dict Nat → List String → List Field → Except Flaw (Dict Nat × List String)
  | _, slots, matched, [] => .ok (slots, matched)
  | slot, slots, matched, field :: rest =>
    match field.name with
    | none => enterNames visible (slot + 1) slots matched rest
    | some name =>
      if (Dict.get? name slots).isSome then .error (.repeatedName name)
      else enterNames visible (slot + 1) (Dict.insert name slot slots)
        (if slot < visible then matched ++ [name] else matched) rest

section

variable {visible slot : Nat} {field : Field} {before rest : List Field} {slots : Dict Nat}
  {matched : List String} {name : String}

theorem enterNames_of_unnamed (unnamed : field.name = none) :
    enterNames visible slot slots matched (field :: rest) =
      enterNames visible (slot + 1) slots matched rest := by
  simp only [enterNames, unnamed]

theorem enterNames_of_fresh (named : field.name = some name)
    (fresh : ¬ (Dict.get? name slots).isSome) :
    enterNames visible slot slots matched (field :: rest) =
      enterNames visible (slot + 1) (Dict.insert name slot slots)
        (if slot < visible then matched ++ [name] else matched) rest := by
  simp only [enterNames, named, if_neg fresh]

theorem enterNames_of_known (named : field.name = some name)
    (known : (Dict.get? name slots).isSome) :
    enterNames visible slot slots matched (field :: rest) = .error (.repeatedName name) := by
  simp only [enterNames, named, if_pos known]

/-- Before an unnamed field that is not visible, all unnamed fields are counted. -/
theorem countUnnamed_append (unnamed : Nat) (after : List Field)
    (inside : ∀ place < before.length, nameAt? before place = none → slot + place < visible) :
    countUnnamed visible slot unnamed (before ++ after) =
      countUnnamed visible (slot + before.length)
        (unnamed + before.countP fun field => field.name.isNone) after := by
  induction before generalizing slot unnamed with
  | nil => rfl
  | cons field before induction =>
      have later : ∀ place < before.length, nameAt? before place = none →
          slot + 1 + place < visible := by
        intro place within none
        rw [Nat.add_assoc, Nat.add_comm 1 place]
        exact inside (place + 1) (Nat.succ_lt_succ within) none
      have next : slot + 1 + before.length = slot + (field :: before).length := by
        rw [List.length_cons, Nat.add_assoc, Nat.add_comm 1]
      cases named : field.name with
      | some name =>
          simp only [List.cons_append, countUnnamed, named]
          rw [induction unnamed later, next, List.countP_cons_of_neg]
          rw [named]
          exact Bool.false_ne_true
      | none =>
          have counted : ¬ visible ≤ slot :=
            Nat.not_le.mpr (inside 0 (Nat.zero_lt_succ _) named)
          simp only [List.cons_append, countUnnamed, named, if_neg counted]
          rw [induction (unnamed + 1) later, next, List.countP_cons_of_pos,
            Nat.add_assoc, Nat.add_comm 1]
          rw [named]
          rfl

end

end Declaration

/-- The table and the names to match of the fields that were entered. -/
structure Entered (visible : Nat) (fields : List Field) (slots : Dict Nat)
    (matched : List String) : Prop where
  slot_iff : ∀ name slot, Dict.get? name slots = some slot ↔ nameAt? fields slot = some name
  length : slots.length = (fieldNames fields).length
  matched : matched = fieldNames (fields.take visible)

namespace Entered

variable {visible : Nat} {fields rest : List Field} {field : Field} {slots : Dict Nat}
  {matched : List String} {name : String}

theorem nil (visible : Nat) : Entered visible [] [] [] where
  slot_iff := by
    intro name slot
    constructor <;> intro found <;> cases found
  length := rfl
  matched := by rw [List.take_nil]; rfl

theorem isSome_get?_iff (entered : Entered visible fields slots matched) :
    (Dict.get? name slots).isSome ↔ name ∈ fieldNames fields := by
  rw [mem_fieldNames_iff_nameAt?, Option.isSome_iff_exists]
  exact exists_congr (entered.slot_iff name)

theorem append_unnamed (entered : Entered visible fields slots matched)
    (unnamed : field.name = none) : Entered visible (fields ++ [field]) slots matched where
  slot_iff := by
    intro name slot
    rw [entered.slot_iff, nameAt?_append_singleton]
    by_cases last : slot = fields.length
    · rw [if_pos last, unnamed, nameAt?_of_length_le (Nat.le_of_eq last.symm)]
    · rw [if_neg last]
  length := by
    rw [entered.length, fieldNames_append, fieldNames_cons_none unnamed]
    exact congrArg List.length (List.append_nil _).symm
  matched := by
    rw [entered.matched, fieldNames_take_append_singleton, fieldNames_cons_none unnamed]
    split <;> exact (List.append_nil _).symm

theorem append_named (entered : Entered visible fields slots matched)
    (named : field.name = some name) (fresh : name ∉ fieldNames fields) :
    Entered visible (fields ++ [field]) (Dict.insert name fields.length slots)
      (if fields.length < visible then matched ++ [name] else matched) where
  slot_iff := by
    intro other slot
    rw [Dict.get?_insert, nameAt?_append_singleton]
    by_cases same : name = other
    · subst other
      rw [if_pos rfl, Option.some.injEq]
      by_cases last : slot = fields.length
      · rw [if_pos last, named]
        exact iff_of_true last.symm rfl
      · rw [if_neg last]
        apply iff_of_false (Ne.symm last)
        intro found
        exact fresh (mem_fieldNames_iff_nameAt?.mpr ⟨slot, found⟩)
    · rw [if_neg same, entered.slot_iff]
      by_cases last : slot = fields.length
      · rw [if_pos last, named, nameAt?_of_length_le (Nat.le_of_eq last.symm),
          Option.some.injEq]
        apply iff_of_false _ same
        intro found
        cases found
      · rw [if_neg last]
  length := by
    have absent : Dict.get? name slots = none := by
      rw [← Option.not_isSome_iff_eq_none, entered.isSome_get?_iff]
      exact fresh
    rw [Dict.length_insert_of_none absent, entered.length, fieldNames_append,
      fieldNames_cons_some named, List.length_append]
    rfl
  matched := by
    rw [entered.matched, fieldNames_take_append_singleton, fieldNames_cons_some named]
    split
    · rfl
    · exact (List.append_nil _).symm

/-- Fields whose names are new are entered, and the pass goes on with those after
them. -/
theorem exists_enterNames_append (entered : Entered visible fields slots matched)
    (distinct : (fieldNames (fields ++ rest)).Nodup) :
    ∃ slots' matched', Entered visible (fields ++ rest) slots' matched' ∧
      ∀ after, Declaration.enterNames visible fields.length slots matched (rest ++ after) =
        Declaration.enterNames visible (fields ++ rest).length slots' matched' after := by
  induction rest generalizing fields slots matched with
  | nil =>
      rw [List.append_nil]
      exact ⟨slots, matched, entered, fun after => rfl⟩
  | cons field rest induction =>
      have next : fields ++ field :: rest = fields ++ [field] ++ rest := by
        rw [List.append_assoc, List.singleton_append]
      have length : (fields ++ [field]).length = fields.length + 1 := by
        rw [List.length_append, List.length_singleton]
      rw [next] at distinct ⊢
      cases named : field.name with
      | none =>
          obtain ⟨slots', matched', later, same⟩ :=
            induction (entered.append_unnamed named) distinct
          refine ⟨slots', matched', later, fun after => ?_⟩
          rw [← same after, length]
          exact Declaration.enterNames_of_unnamed named
      | some name =>
          have fresh : name ∉ fieldNames fields := by
            intro old
            rw [fieldNames_append, fieldNames_append, fieldNames_cons_some named] at distinct
            have apart := (List.nodup_append.mp (List.nodup_append.mp distinct).1).2.2
            exact apart name old name List.mem_cons_self rfl
          obtain ⟨slots', matched', later, same⟩ :=
            induction (entered.append_named named fresh) distinct
          refine ⟨slots', matched', later, fun after => ?_⟩
          rw [← same after, length]
          exact Declaration.enterNames_of_fresh named (entered.isSome_get?_iff.not.mpr fresh)

/-- Fields with different names are all entered. -/
theorem exists_enterNames (visible : Nat) (distinct : (fieldNames fields).Nodup) :
    ∃ slots matched, Entered visible fields slots matched ∧
      ∀ after, Declaration.enterNames visible 0 [] [] (fields ++ after) =
        Declaration.enterNames visible fields.length slots matched after :=
  exists_enterNames_append (Entered.nil visible) distinct

end Entered

end SlotRecord
