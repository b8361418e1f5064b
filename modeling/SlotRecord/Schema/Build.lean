import SlotRecord.Fault
import SlotRecord.Schema.Basic

/-!
# Building schemas

A declaration is searched for flaws in a fixed order, and the first one is
reported; a declaration without a flaw is a schema.
-/

namespace SlotRecord

inductive Flaw
  | visibleBeyondFields
  | unnamedHidden (slot : Nat)
  | tooManyFields
  | repeatedName (name : String)
deriving DecidableEq, Repr

namespace Declaration

/-- The first slot from `visible` on whose field has no name. -/
def unnamedHidden? (declaration : Declaration) : Option Nat :=
  ((declaration.fields.drop declaration.visible).findIdx? fun field =>
    field.name.isNone).map (declaration.visible + ·)

/-- The first name that was seen before. -/
def repeatedName? (seen : List String) : List String → Option String
  | [] => none
  | name :: rest => if name ∈ seen then some name else repeatedName? (name :: seen) rest

def flaw? (declaration : Declaration) (settings : BuildSettings) : Option Flaw :=
  if declaration.fields.length < declaration.visible then some .visibleBeyondFields
  else
    match declaration.unnamedHidden? with
    | some slot => some (.unnamedHidden slot)
    | none =>
      if settings.maxFields < declaration.fields.length then some .tooManyFields
      else (repeatedName? [] (fieldNames declaration.fields)).map .repeatedName

/-- The fault that reports a flaw of a declaration. -/
def fault (declaration : Declaration) (settings : BuildSettings) : Flaw → Fault
  | .visibleBeyondFields =>
      let visible := declaration.visible
      let total := declaration.fields.length
      .invalidDeclaration
        s!"{declaration.name}: n_visible ({visible}) exceeds field count ({total})"
  | .unnamedHidden slot =>
      let visible := declaration.visible
      .invalidDeclaration
        (s!"{declaration.name}: unnamed field at slot {slot} is outside the " ++
          s!"visible range (n_visible = {visible})")
  | .tooManyFields => .tooManyFields settings.maxFields declaration.fields.length
  | .repeatedName name =>
      .invalidDeclaration s!"{declaration.name}: duplicate field name '{name}'"

theorem repeatedName?_eq_none {names : List String} :
    ∀ {seen : List String}, repeatedName? seen names = none →
      names.Nodup ∧ ∀ name ∈ names, name ∉ seen := by
  induction names with
  | nil => simp
  | cons name rest induction =>
      intro seen clean
      simp only [repeatedName?] at clean
      split at clean
      · cases clean
      · rename_i fresh
        have tail := induction clean
        refine ⟨List.nodup_cons.mpr ⟨fun member => ?_, tail.1⟩, fun other member => ?_⟩
        · exact tail.2 name member List.mem_cons_self
        · rcases List.mem_cons.mp member with rfl | member
          · exact fresh
          · exact fun old => tail.2 other member (List.mem_cons_of_mem _ old)

theorem unnamedHidden?_eq_none {declaration : Declaration}
    (clean : declaration.unnamedHidden? = none) :
    ∀ field ∈ declaration.fields.drop declaration.visible, field.name.isSome := by
  intro field member
  have absent := List.findIdx?_eq_none_iff.mp (Option.map_eq_none_iff.mp clean)
    field member
  simpa using absent

/-- What a declaration without a flaw guarantees. -/
theorem sound_of_flaw?_eq_none {declaration : Declaration} {settings : BuildSettings}
    (clean : declaration.flaw? settings = none) :
    declaration.visible ≤ declaration.fields.length ∧
      (∀ field ∈ declaration.fields.drop declaration.visible, field.name.isSome) ∧
      (fieldNames declaration.fields).Nodup := by
  simp only [flaw?] at clean
  split at clean
  · cases clean
  · rename_i within
    split at clean
    · cases clean
    · rename_i named
      split at clean
      · cases clean
      · exact ⟨Nat.le_of_not_lt within, unnamedHidden?_eq_none named,
          (repeatedName?_eq_none (Option.map_eq_none_iff.mp clean)).1⟩

def build (declaration : Declaration) (settings : BuildSettings) : Except Fault Schema :=
  match clean : declaration.flaw? settings with
  | some flaw => .error (declaration.fault settings flaw)
  | none => .ok {
      name := declaration.name
      doc := declaration.doc
      fields := declaration.fields
      visible := declaration.visible
      tracker := settings.tracker
      visible_le := (sound_of_flaw?_eq_none clean).1
      hidden_named := (sound_of_flaw?_eq_none clean).2.1
      names_nodup := (sound_of_flaw?_eq_none clean).2.2 }

end Declaration

end SlotRecord
