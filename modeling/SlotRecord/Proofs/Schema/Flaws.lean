import Mathlib.Order.Bounds.Defs
import Mathlib.Order.Nat
import SlotRecord.Proofs.Schema.Names
import SlotRecord.Schema.Build

/-!
# First flaws

A declaration can have several flaws at once. One of them comes first: too many visible
fields come before a field without a name that is not visible, this before too many
fields, and these before a name that is repeated; of several slots, the smallest counts.
-/

namespace SlotRecord

namespace Declaration

/-- A slot is past the visible ones and has no name. -/
def LacksName (declaration : Declaration) (slot : Nat) : Prop :=
  declaration.visible ≤ slot ∧ slot < declaration.fields.length ∧
    nameAt? declaration.fields slot = none

/-- A slot has the name of an earlier one. -/
def RepeatsName (declaration : Declaration) (slot : Nat) : Prop :=
  ∃ name, nameAt? declaration.fields slot = some name ∧
    ∃ earlier < slot, nameAt? declaration.fields earlier = some name

structure Sound (declaration : Declaration) (settings : BuildSettings) : Prop where
  visible_le : declaration.visible ≤ declaration.fields.length
  hidden_named : ∀ slot, ¬ declaration.LacksName slot
  length_le : declaration.fields.length ≤ settings.maxFields
  distinct : ∀ slot, ¬ declaration.RepeatsName slot

/-- The flaw that comes first. -/
inductive FirstFlaw (declaration : Declaration) (settings : BuildSettings) : Flaw → Prop
  | visibleBeyondFields (beyond : declaration.fields.length < declaration.visible) :
      FirstFlaw declaration settings .visibleBeyondFields
  | unnamedHidden {slot : Nat} (visible_le : declaration.visible ≤ declaration.fields.length)
      (least : IsLeast {slot | declaration.LacksName slot} slot) :
      FirstFlaw declaration settings (.unnamedHidden slot)
  | tooManyFields (visible_le : declaration.visible ≤ declaration.fields.length)
      (hidden_named : ∀ slot, ¬ declaration.LacksName slot)
      (many : settings.maxFields < declaration.fields.length) :
      FirstFlaw declaration settings .tooManyFields
  | repeatedName {slot : Nat} {name : String}
      (visible_le : declaration.visible ≤ declaration.fields.length)
      (hidden_named : ∀ slot, ¬ declaration.LacksName slot)
      (length_le : declaration.fields.length ≤ settings.maxFields)
      (least : IsLeast {slot | declaration.RepeatsName slot} slot)
      (named : nameAt? declaration.fields slot = some name) :
      FirstFlaw declaration settings (.repeatedName name)

/-- Names that were not seen before are passed over. -/
theorem repeatedName?_append {seen before : List String} (distinct : before.Nodup)
    (fresh : ∀ name ∈ before, name ∉ seen) (after : List String) :
    repeatedName? seen (before ++ after) = repeatedName? (before.reverse ++ seen) after := by
  induction before generalizing seen with
  | nil => rfl
  | cons name before induction =>
      obtain ⟨apart, distinct⟩ := List.nodup_cons.mp distinct
      have later : ∀ other ∈ before, other ∉ name :: seen := by
        intro other member old
        rcases List.mem_cons.mp old with rfl | old
        · exact apart member
        · exact fresh other (List.mem_cons_of_mem _ member) old
      rw [List.cons_append, repeatedName?, if_neg (fresh name List.mem_cons_self),
        induction distinct later, List.reverse_cons, List.append_assoc, List.singleton_append]

section

variable {declaration : Declaration} {settings : BuildSettings} {slot : Nat} {flaw : Flaw}

theorem exists_firstFlaw_or_sound (declaration : Declaration) (settings : BuildSettings) :
    (∃ flaw, declaration.FirstFlaw settings flaw) ∨ declaration.Sound settings := by
  classical
  rcases Nat.lt_or_ge declaration.fields.length declaration.visible with beyond | visible_le
  · exact Or.inl ⟨_, .visibleBeyondFields beyond⟩
  by_cases lacking : ∃ slot, declaration.LacksName slot
  · exact Or.inl ⟨_, .unnamedHidden visible_le (Nat.isLeast_find lacking)⟩
  have hidden_named := not_exists.mp lacking
  rcases Nat.lt_or_ge settings.maxFields declaration.fields.length with many | length_le
  · exact Or.inl ⟨_, .tooManyFields visible_le hidden_named many⟩
  by_cases repeating : ∃ slot, declaration.RepeatsName slot
  · have least := Nat.isLeast_find repeating
    obtain ⟨name, named, _⟩ := least.1
    exact Or.inl ⟨_, .repeatedName visible_le hidden_named length_le least named⟩
  · exact Or.inr ⟨visible_le, hidden_named, length_le, not_exists.mp repeating⟩

theorem lt_visible_of_unnamed (named : ¬ declaration.LacksName slot)
    (within : slot < declaration.fields.length)
    (unnamed : nameAt? declaration.fields slot = none) : slot < declaration.visible := by
  by_contra hidden
  exact named ⟨Nat.le_of_not_lt hidden, within, unnamed⟩

theorem isSome_of_mem_hidden (named : ∀ slot, ¬ declaration.LacksName slot) :
    ∀ field ∈ declaration.fields.drop declaration.visible, field.name.isSome := by
  intro field member
  obtain ⟨place, found⟩ := List.mem_iff_getElem?.mp member
  rw [List.getElem?_drop] at found
  cases unnamed : field.name with
  | some name => rfl
  | none =>
      have within := (List.getElem?_eq_some_iff.mp found).1
      have none := (nameAt?_of_getElem? found).trans unnamed
      exact absurd ⟨Nat.le_add_right _ _, within, none⟩ (named _)

theorem nodup_fieldNames_take
    (distinct : ∀ earlier < slot, ¬ declaration.RepeatsName earlier) :
    (fieldNames (declaration.fields.take slot)).Nodup := by
  rw [nodup_fieldNames_iff]
  intro place name named earlier before repeated
  have within := (lt_length_of_nameAt? named).trans_le (List.length_take_le _ _)
  rw [nameAt?_take within] at named
  rw [nameAt?_take (before.trans within)] at repeated
  exact distinct place within ⟨name, named, earlier, before, repeated⟩

/-- Up to the first name that is repeated all names are different, and it is among
them. -/
theorem names_of_isLeast {name : String}
    (least : IsLeast {slot | declaration.RepeatsName slot} slot)
    (named : nameAt? declaration.fields slot = some name) :
    (fieldNames (declaration.fields.take slot)).Nodup ∧
      name ∈ fieldNames (declaration.fields.take slot) := by
  obtain ⟨⟨_, found, earlier, before, repeated⟩, smallest⟩ := least
  cases named.symm.trans found
  constructor
  · apply nodup_fieldNames_take
    intro place inside repeats
    exact (smallest repeats).not_gt inside
  · apply mem_fieldNames_iff_nameAt?.mpr
    exact ⟨earlier, (nameAt?_take before).trans repeated⟩

theorem nodup_fieldNames (distinct : ∀ slot, ¬ declaration.RepeatsName slot) :
    (fieldNames declaration.fields).Nodup := by
  rw [← List.take_length (l := declaration.fields)]
  exact nodup_fieldNames_take fun slot _ => distinct slot

theorem unnamedHidden?_of_isLeast (least : IsLeast {slot | declaration.LacksName slot} slot) :
    declaration.unnamedHidden? = some slot := by
  obtain ⟨⟨past, within, unnamed⟩, smallest⟩ := least
  obtain ⟨place, rfl⟩ := Nat.exists_eq_add_of_le past
  rw [unnamedHidden?, Option.map_eq_some_iff]
  refine ⟨place, ?_, rfl⟩
  rw [List.findIdx?_eq_some_iff_getElem]
  refine ⟨?_, ?_, ?_⟩
  · rw [List.length_drop]
    exact Nat.lt_sub_of_add_lt (Nat.add_comm _ _ ▸ within)
  · rw [List.getElem_drop, ← nameAt?_eq_getElem, unnamed]
    rfl
  · intro earlier before lacking
    have inside : declaration.visible + earlier < declaration.fields.length :=
      (Nat.add_lt_add_left before _).trans within
    rw [List.getElem_drop, ← nameAt?_eq_getElem, Option.isNone_iff_eq_none] at lacking
    have least := smallest ⟨Nat.le_add_right _ _, inside, lacking⟩
    exact absurd before (Nat.not_lt.mpr (Nat.le_of_add_le_add_left least))

theorem unnamedHidden?_of_named (named : ∀ slot, ¬ declaration.LacksName slot) :
    declaration.unnamedHidden? = none := by
  rw [unnamedHidden?, Option.map_eq_none_iff, List.findIdx?_eq_none_iff]
  intro field member
  have given := isSome_of_mem_hidden named field member
  simpa using given

theorem repeatedName?_of_isLeast {name : String}
    (least : IsLeast {slot | declaration.RepeatsName slot} slot)
    (named : nameAt? declaration.fields slot = some name) :
    repeatedName? [] (fieldNames declaration.fields) = some name := by
  obtain ⟨distinct, known⟩ := names_of_isLeast least named
  obtain ⟨field, declared, own⟩ := nameAt?_eq_some_iff.mp named
  have seen : name ∈ (fieldNames (declaration.fields.take slot)).reverse ++ [] := by
    rw [List.append_nil, List.mem_reverse]
    exact known
  rw [eq_take_append_cons declared, fieldNames_append, fieldNames_cons_some own,
    repeatedName?_append distinct fun _ _ => List.not_mem_nil, repeatedName?, if_pos seen]

theorem repeatedName?_of_distinct (distinct : ∀ slot, ¬ declaration.RepeatsName slot) :
    repeatedName? [] (fieldNames declaration.fields) = none := by
  have passed := repeatedName?_append (nodup_fieldNames distinct)
    (fun _ _ => List.not_mem_nil (α := String)) []
  rw [List.append_nil] at passed
  rw [passed, repeatedName?]

/-- The search finds the flaw that comes first. -/
theorem FirstFlaw.flaw?_eq (first : declaration.FirstFlaw settings flaw) :
    declaration.flaw? settings = some flaw := by
  cases first with
  | visibleBeyondFields beyond => rw [flaw?, if_pos beyond]
  | unnamedHidden visible_le least =>
      rw [flaw?, if_neg (Nat.not_lt.mpr visible_le), unnamedHidden?_of_isLeast least]
  | tooManyFields visible_le hidden_named many =>
      rw [flaw?, if_neg (Nat.not_lt.mpr visible_le), unnamedHidden?_of_named hidden_named]
      exact if_pos many
  | repeatedName visible_le hidden_named length_le least named =>
      rw [flaw?, if_neg (Nat.not_lt.mpr visible_le), unnamedHidden?_of_named hidden_named]
      simp only [if_neg (Nat.not_lt.mpr length_le), repeatedName?_of_isLeast least named,
        Option.map_some]

theorem Sound.flaw?_eq_none (sound : declaration.Sound settings) :
    declaration.flaw? settings = none := by
  rw [flaw?, if_neg (Nat.not_lt.mpr sound.visible_le),
    unnamedHidden?_of_named sound.hidden_named]
  simp only [if_neg (Nat.not_lt.mpr sound.length_le),
    repeatedName?_of_distinct sound.distinct, Option.map_none]

theorem flaw?_eq_some_iff :
    declaration.flaw? settings = some flaw ↔ declaration.FirstFlaw settings flaw := by
  constructor
  · intro found
    rcases declaration.exists_firstFlaw_or_sound settings with ⟨other, first⟩ | sound
    · cases found.symm.trans first.flaw?_eq
      exact first
    · cases found.symm.trans sound.flaw?_eq_none
  · exact FirstFlaw.flaw?_eq

theorem flaw?_eq_none_iff :
    declaration.flaw? settings = none ↔ declaration.Sound settings := by
  constructor
  · intro clean
    rcases declaration.exists_firstFlaw_or_sound settings with ⟨flaw, first⟩ | sound
    · cases clean.symm.trans first.flaw?_eq
    · exact sound
  · exact Sound.flaw?_eq_none

end

end Declaration

end SlotRecord
