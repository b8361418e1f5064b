import Mathlib.Data.Nat.PSub
import SlotRecord.Proofs.Schema.Flaws
import SlotRecord.Proofs.Schema.Passes

/-!
# Building

A declaration that is sound is built, and of any other the flaw that comes first is
reported. The tables of a schema can be collected in two passes, between which room is
made for the names of all fields and for those of the visible ones: the passes stop at the
same flaw.
-/

namespace SlotRecord

/-- What the passes collect. Room is made for `nameRoom` names in the table, and for
`matchRoom` names to match. -/
structure Tables where
  unnamed : Nat
  nameRoom : Nat
  matchRoom : Nat
  slots : Dict Nat
  matched : List String

def Tables.ofEntered (unnamed nameRoom matchRoom : Nat) (entered : Dict Nat × List String) :
    Tables :=
  ⟨unnamed, nameRoom, matchRoom, entered.1, entered.2⟩

/-- What the passes collect of the fields of a declaration. -/
structure Tables.Describe (tables : Tables) (declaration : Declaration) : Prop where
  unnamed : tables.unnamed = declaration.fields.countP fun field => field.name.isNone
  nameRoom : tables.nameRoom + tables.unnamed = declaration.fields.length
  matchRoom : tables.matchRoom + tables.unnamed = declaration.visible
  entered : Entered declaration.visible declaration.fields tables.slots tables.matched

namespace Declaration

/-- Collects the tables of a declaration. `none` stands for a difference that would be
below zero. -/
def collect? (declaration : Declaration) (settings : BuildSettings) :
    Option (Except Flaw Tables) :=
  if declaration.fields.length < declaration.visible then some (.error .visibleBeyondFields)
  else
    match countUnnamed declaration.visible 0 0 declaration.fields with
    | .error flaw => some (.error flaw)
    | .ok unnamed =>
      if settings.maxFields < declaration.fields.length then some (.error .tooManyFields)
      else do
        let nameRoom ← declaration.fields.length.psub unnamed
        let matchRoom ← declaration.visible.psub unnamed
        let entered := enterNames declaration.visible 0 [] [] declaration.fields
        return entered.map (Tables.ofEntered unnamed nameRoom matchRoom)

section

variable {declaration : Declaration} {settings : BuildSettings} {slot : Nat} {flaw : Flaw}

theorem countUnnamed_of_isLeast (least : IsLeast {slot | declaration.LacksName slot} slot) :
    countUnnamed declaration.visible 0 0 declaration.fields =
      .error (.unnamedHidden slot) := by
  obtain ⟨⟨past, within, unnamed⟩, smallest⟩ := least
  have length : (declaration.fields.take slot).length = slot :=
    List.length_take_of_le (Nat.le_of_lt within)
  have inside : ∀ place < (declaration.fields.take slot).length,
      nameAt? (declaration.fields.take slot) place = none →
        0 + place < declaration.visible := by
    intro place before none
    rw [length] at before
    rw [nameAt?_take before] at none
    have named : ¬ declaration.LacksName place :=
      fun lacks => (smallest lacks).not_gt before
    rw [Nat.zero_add]
    exact lt_visible_of_unnamed named (before.trans within) none
  rw [nameAt?_eq_getElem within] at unnamed
  rw [eq_take_append_cons (List.getElem?_eq_getElem within), countUnnamed_append _ _ inside,
    length, Nat.zero_add, countUnnamed]
  simp only [unnamed, if_pos past]

theorem countUnnamed_of_named (named : ∀ slot, ¬ declaration.LacksName slot) :
    countUnnamed declaration.visible 0 0 declaration.fields =
      .ok (declaration.fields.countP fun field => field.name.isNone) := by
  have inside : ∀ place < declaration.fields.length,
      nameAt? declaration.fields place = none → 0 + place < declaration.visible := by
    intro place within none
    rw [Nat.zero_add]
    exact lt_visible_of_unnamed (named place) within none
  have counted := countUnnamed_append 0 [] inside
  rw [List.append_nil, Nat.zero_add, Nat.zero_add] at counted
  rw [counted, countUnnamed]

/-- If all fields that are not visible have names, no more than the visible ones lack
one. -/
theorem countP_unnamed_le_visible (named : ∀ slot, ¬ declaration.LacksName slot) :
    (declaration.fields.countP fun field => field.name.isNone) ≤ declaration.visible := by
  rw [← countP_unnamed_take (isSome_of_mem_hidden named)]
  exact List.countP_le_length.trans (List.length_take_le _ _)

theorem collect?_of_named (visible_le : declaration.visible ≤ declaration.fields.length)
    (named : ∀ slot, ¬ declaration.LacksName slot)
    (length_le : declaration.fields.length ≤ settings.maxFields) :
    ∃ unnamed nameRoom matchRoom,
      unnamed = (declaration.fields.countP fun field => field.name.isNone) ∧
      nameRoom + unnamed = declaration.fields.length ∧
      matchRoom + unnamed = declaration.visible ∧
      declaration.collect? settings =
        some ((enterNames declaration.visible 0 [] [] declaration.fields).map
          (Tables.ofEntered unnamed nameRoom matchRoom)) := by
  have within := countP_unnamed_le_visible named
  refine ⟨_, _, _, rfl, Nat.sub_add_cancel (within.trans visible_le),
    Nat.sub_add_cancel within, ?_⟩
  rw [collect?, if_neg (Nat.not_lt.mpr visible_le), countUnnamed_of_named named]
  simp only [if_neg (Nat.not_lt.mpr length_le), Nat.psub_eq_sub within,
    Nat.psub_eq_sub (within.trans visible_le), Option.bind_eq_bind, Option.bind_some,
    Option.pure_def]

theorem enterNames_of_isLeast {name : String}
    (least : IsLeast {slot | declaration.RepeatsName slot} slot)
    (named : nameAt? declaration.fields slot = some name) :
    enterNames declaration.visible 0 [] [] declaration.fields =
      .error (.repeatedName name) := by
  obtain ⟨distinct, known⟩ := names_of_isLeast least named
  obtain ⟨field, declared, own⟩ := nameAt?_eq_some_iff.mp named
  obtain ⟨slots, matched, entered, passed⟩ :=
    Entered.exists_enterNames declaration.visible distinct
  rw [eq_take_append_cons declared, passed]
  exact enterNames_of_known own (entered.isSome_get?_iff.mpr known)

theorem FirstFlaw.collect?_eq (first : declaration.FirstFlaw settings flaw) :
    declaration.collect? settings = some (.error flaw) := by
  cases first with
  | visibleBeyondFields beyond => rw [collect?, if_pos beyond]
  | unnamedHidden visible_le least =>
      rw [collect?, if_neg (Nat.not_lt.mpr visible_le), countUnnamed_of_isLeast least]
  | tooManyFields visible_le hidden_named many =>
      rw [collect?, if_neg (Nat.not_lt.mpr visible_le), countUnnamed_of_named hidden_named]
      exact if_pos many
  | repeatedName visible_le hidden_named length_le least named =>
      obtain ⟨unnamed, nameRoom, matchRoom, _, _, _, collected⟩ :=
        collect?_of_named visible_le hidden_named length_le
      rw [collected, enterNames_of_isLeast least named]
      rfl

theorem Sound.exists_collect? (sound : declaration.Sound settings) :
    ∃ tables : Tables, declaration.collect? settings = some (.ok tables) ∧
      tables.Describe declaration := by
  obtain ⟨unnamed, nameRoom, matchRoom, counted, naming, matching, collected⟩ :=
    collect?_of_named sound.visible_le sound.hidden_named sound.length_le
  obtain ⟨slots, matched, entered, passed⟩ :=
    Entered.exists_enterNames declaration.visible (nodup_fieldNames sound.distinct)
  refine ⟨.ofEntered unnamed nameRoom matchRoom (slots, matched), ?_,
    counted, naming, matching, entered⟩
  have all := passed []
  rw [List.append_nil, enterNames] at all
  rw [collected, all]
  rfl

theorem build_of_flaw? (found : declaration.flaw? settings = some flaw) :
    declaration.build settings = .error (declaration.fault settings flaw) := by
  rw [build]
  split
  · next other same =>
      cases found.symm.trans same
      rfl
  · next clean => cases found.symm.trans clean

theorem exists_build_iff :
    (∃ schema, declaration.build settings = .ok schema) ↔
      declaration.flaw? settings = none := by
  cases found : declaration.flaw? settings with
  | some flaw =>
      rw [build_of_flaw? found]
      apply iff_of_false
      · rintro ⟨schema, built⟩
        cases built
      · exact Option.some_ne_none flaw
  | none =>
      rw [build]
      split
      · next flaw other => cases found.symm.trans other
      · exact iff_of_true ⟨_, rfl⟩ rfl

theorem sound_of_build {schema : Schema} (built : declaration.build settings = .ok schema) :
    declaration.Sound settings :=
  flaw?_eq_none_iff.mp (exists_build_iff.mp ⟨schema, built⟩)

/-- The passes stop at the flaw that the search finds, and no difference that they take is
below zero. -/
theorem collect?_cases (declaration : Declaration) (settings : BuildSettings) :
    (∃ flaw, declaration.flaw? settings = some flaw ∧
        declaration.collect? settings = some (.error flaw)) ∨
      ∃ tables, declaration.flaw? settings = none ∧
        declaration.collect? settings = some (.ok tables) := by
  cases found : declaration.flaw? settings with
  | some flaw => exact Or.inl ⟨flaw, rfl, (flaw?_eq_some_iff.mp found).collect?_eq⟩
  | none =>
      obtain ⟨tables, collected, _⟩ := (flaw?_eq_none_iff.mp found).exists_collect?
      exact Or.inr ⟨tables, rfl, collected⟩

end

/-- A declaration is built if it is sound. Otherwise its first flaw is reported, and the
same flaw stops the passes. -/
structure ReportsFirstFlaw (declaration : Declaration) (settings : BuildSettings) :
    Prop where
  decided : (∃ flaw, declaration.FirstFlaw settings flaw) ∨ declaration.Sound settings
  beyond : declaration.FirstFlaw settings .visibleBeyondFields →
    let visible := declaration.visible
    let total := declaration.fields.length
    declaration.build settings = .error (.invalidDeclaration
      s!"{declaration.name}: n_visible ({visible}) exceeds field count ({total})")
  unnamed : ∀ slot, declaration.FirstFlaw settings (.unnamedHidden slot) →
    let visible := declaration.visible
    declaration.build settings = .error (.invalidDeclaration
      (s!"{declaration.name}: unnamed field at slot {slot} is outside the " ++
        s!"visible range (n_visible = {visible})"))
  many : declaration.FirstFlaw settings .tooManyFields →
    declaration.build settings =
      .error (.tooManyFields settings.maxFields declaration.fields.length)
  repeated : ∀ name, declaration.FirstFlaw settings (.repeatedName name) →
    declaration.build settings =
      .error (.invalidDeclaration s!"{declaration.name}: duplicate field name '{name}'")
  builds : (∃ schema, declaration.build settings = .ok schema) ↔ declaration.Sound settings
  declared : ∀ schema, declaration.build settings = .ok schema →
    schema.name = declaration.name ∧ schema.doc = declaration.doc ∧
      schema.fields = declaration.fields ∧ schema.visible = declaration.visible
  stops : ∀ flaw, declaration.collect? settings = some (.error flaw) ↔
    declaration.FirstFlaw settings flaw
  collects : (∃ tables, declaration.collect? settings = some (.ok tables)) ↔
    declaration.Sound settings
  no_underflow : (declaration.collect? settings).isSome

theorem build_reports_first_flaw (declaration : Declaration) (settings : BuildSettings) :
    declaration.ReportsFirstFlaw settings := by
  have reported := fun flaw (first : declaration.FirstFlaw settings flaw) =>
    build_of_flaw? (flaw?_eq_some_iff.mpr first)
  constructor
  · exact declaration.exists_firstFlaw_or_sound settings
  · exact reported _
  · exact fun slot => reported _
  · exact reported _
  · exact fun name => reported _
  · rw [exists_build_iff, flaw?_eq_none_iff]
  · intro schema built
    simp only [build] at built
    split at built
    · cases built
    · cases built
      exact ⟨rfl, rfl, rfl, rfl⟩
  · intro flaw
    rw [← flaw?_eq_some_iff]
    rcases declaration.collect?_cases settings with
      ⟨other, found, stopped⟩ | ⟨tables, clean, collected⟩
    · rw [found, stopped, Option.some.injEq, Option.some.injEq, Except.error.injEq]
    · rw [clean, collected]
      apply iff_of_false
      · intro stopped
        cases stopped
      · exact (Option.some_ne_none flaw).symm
  · rw [← flaw?_eq_none_iff]
    rcases declaration.collect?_cases settings with
      ⟨flaw, found, stopped⟩ | ⟨tables, clean, collected⟩
    · rw [found, stopped]
      apply iff_of_false
      · rintro ⟨tables, collected⟩
        cases collected
      · exact Option.some_ne_none flaw
    · exact iff_of_true ⟨tables, collected⟩ clean
  · rcases declaration.collect?_cases settings with
      ⟨flaw, _, stopped⟩ | ⟨tables, _, collected⟩
    · exact Option.isSome_of_eq_some stopped
    · exact Option.isSome_of_eq_some collected

/-- An unnamed field that is not visible comes before all other flaws but one. -/
example :
    Declaration.build ⟨"t", none, [⟨some "a", none⟩, ⟨some "a", none⟩, ⟨none, none⟩], 1⟩
        ⟨2, none⟩ =
      .error (.invalidDeclaration
        "t: unnamed field at slot 2 is outside the visible range (n_visible = 1)") := by
  rfl

end Declaration

end SlotRecord
