import Mathlib.Data.Nat.Count
import Mathlib.Data.Set.Card
import SlotRecord.Proofs.Record.Access
import SlotRecord.Proofs.Schema.Building

/-!
# Tables of a schema

Names and slots determine each other: the table of a schema has for each name the slot
that has this name, and no slot for anything else. Listed in slot order, the named fields
and the names to match are those that were declared.
-/

namespace SlotRecord

/-- Collected tables are those of a schema, and fill the room that was made for them. -/
structure Tables.Fit (tables : Tables) (schema : Schema) : Prop where
  unnamed : tables.unnamed = schema.unnamedCount
  slots : ∀ name, Dict.get? name tables.slots = schema.slotOf name
  slots_full : tables.slots.length = tables.nameRoom
  matched : tables.matched = schema.matchNames
  matched_full : tables.matched.length = tables.matchRoom

namespace Schema

/-- What the tables of a schema say of the declaration that it was built of. -/
structure TablesAgree (schema : Schema) (declaration : Declaration)
    (settings : BuildSettings) : Prop where
  field : ∀ slot, schema.field? slot = declaration.fields[slot]?
  total : schema.total = declaration.fields.length
  visible : schema.visible = declaration.visible
  unnamed_le : schema.unnamedCount ≤ schema.visible
  visible_le : schema.visible ≤ schema.total
  total_le : schema.total ≤ settings.maxFields
  unnamed : schema.unnamedCount =
    Nat.count (fun slot => nameAt? declaration.fields slot = none) schema.total
  hidden_named : ∀ slot, schema.visible ≤ slot → slot < schema.total →
    (nameAt? declaration.fields slot).isSome
  slotOf : ∀ name slot, schema.slotOf name = some slot ↔
    nameAt? declaration.fields slot = some name
  bijective : Set.BijOn schema.slotOf {name | name ∈ fieldNames declaration.fields}
    (some '' {slot | (nameAt? declaration.fields slot).isSome})
  absent : ∀ slot, nameAt? declaration.fields slot = none →
    ∀ name, schema.slotOf name ≠ some slot
  mapped : Set.ncard {name | (schema.slotOf name).isSome} =
    schema.total - schema.unnamedCount
  entries : ∀ entry, entry ∈ schema.entries ↔
    ∃ field, declaration.fields[entry.slot]? = some field ∧ field.name = some entry.name ∧
      entry.doc = field.doc ∧ entry.visible = decide (entry.slot < schema.visible)
  increasing : (schema.entries.map FieldEntry.slot).Pairwise (· < ·)
  matchNames : schema.matchNames =
    (List.range schema.visible).filterMap (nameAt? declaration.fields)
  matched : schema.matchNames.length = schema.visible - schema.unnamedCount
  match_slots : ∃ slots : List Nat, schema.matchNames.map schema.slotOf = slots.map some ∧
    slots.Pairwise (· < ·) ∧ ∀ slot ∈ slots, slot < schema.visible
  collected : ∃ tables, declaration.collect? settings = some (.ok tables) ∧
    tables.Fit schema

variable {schema : Schema}

theorem slotOf_eq_some_iff_nameAt? {name : String} {slot : Nat} :
    schema.slotOf name = some slot ↔ nameAt? schema.fields slot = some name := by
  rw [slotOf_eq_some_iff, nameAt?_eq_some_iff]

theorem isSome_slotOf_iff {name : String} :
    (schema.slotOf name).isSome ↔ name ∈ fieldNames schema.fields := by
  rw [slotOf_isSome_iff, mem_fieldNames_iff]

/-- The names of the fields correspond to the slots that have names. -/
theorem bijOn_slotOf (schema : Schema) :
    Set.BijOn schema.slotOf {name | name ∈ fieldNames schema.fields}
      (some '' {slot | (nameAt? schema.fields slot).isSome}) := by
  refine ⟨?_, ?_, ?_⟩
  · intro name known
    obtain ⟨slot, found⟩ := Option.isSome_iff_exists.mp (isSome_slotOf_iff.mpr known)
    have named := slotOf_eq_some_iff_nameAt?.mp found
    exact ⟨slot, Option.isSome_iff_exists.mpr ⟨name, named⟩, found.symm⟩
  · intro name known other _ same
    obtain ⟨slot, found⟩ := Option.isSome_iff_exists.mp (isSome_slotOf_iff.mpr known)
    have named := slotOf_eq_some_iff_nameAt?.mp found
    rw [same, slotOf_eq_some_iff_nameAt?, named] at found
    exact Option.some.inj found
  · rintro _ ⟨slot, given, rfl⟩
    obtain ⟨name, named⟩ := Option.isSome_iff_exists.mp given
    exact ⟨name, mem_fieldNames_iff_nameAt?.mpr ⟨slot, named⟩,
      slotOf_eq_some_iff_nameAt?.mpr named⟩

theorem length_names_add_unnamed (schema : Schema) :
    (fieldNames schema.fields).length + schema.unnamedCount = schema.total :=
  length_fieldNames_add_unnamed schema.fields

theorem length_matchNames_add_unnamed (schema : Schema) :
    schema.matchNames.length + schema.unnamedCount = schema.visible := by
  rw [matchNames, unnamedCount, ← countP_unnamed_take schema.hidden_named,
    length_fieldNames_add_unnamed, List.length_take_of_le schema.visible_le]

theorem unnamedCount_eq_count (schema : Schema) :
    schema.unnamedCount =
      Nat.count (fun slot => nameAt? schema.fields slot = none) schema.total := by
  have counted := congrArg (List.countP Option.isNone) (map_name_eq_range schema.fields)
  rw [List.countP_map, List.countP_map] at counted
  rw [unnamedCount, Nat.count, total]
  apply counted.trans
  apply List.countP_congr
  intro slot _
  rw [Function.comp_apply, Option.isNone_iff_eq_none, decide_eq_true_iff]

theorem ncard_slotOf (schema : Schema) :
    Set.ncard {name | (schema.slotOf name).isSome} = schema.total - schema.unnamedCount := by
  have names : {name | (schema.slotOf name).isSome} =
      ((fieldNames schema.fields).toFinset : Set String) := by
    ext name
    rw [Set.mem_ofPred_eq, isSome_slotOf_iff, Finset.mem_coe, List.mem_toFinset]
  rw [names, Set.ncard_coe_finset, List.toFinset_card_of_nodup schema.names_nodup]
  exact Nat.eq_sub_of_add_eq schema.length_names_add_unnamed

/-- The entry of a field at its slot, if the field has a name. -/
def entryAt? (visible : Nat) (placed : Field × Nat) : Option FieldEntry :=
  placed.1.name.map fun name => ⟨placed.2, name, placed.1.doc, decide (placed.2 < visible)⟩

theorem entriesFrom_eq (visible slot : Nat) (fields : List Field) :
    entriesFrom visible slot fields = (fields.zipIdx slot).filterMap (entryAt? visible) := by
  induction fields generalizing slot with
  | nil => rfl
  | cons field fields induction =>
      rw [List.zipIdx_cons, entriesFrom, List.filterMap_cons, entryAt?]
      cases field.name with
      | none => exact induction (slot + 1)
      | some name => exact congrArg _ (induction (slot + 1))

theorem mem_entries_iff {entry : FieldEntry} :
    entry ∈ schema.entries ↔
      ∃ field, schema.fields[entry.slot]? = some field ∧ field.name = some entry.name ∧
        entry.doc = field.doc ∧ entry.visible = decide (entry.slot < schema.visible) := by
  rw [entries, entriesFrom_eq, List.mem_filterMap]
  constructor
  · rintro ⟨⟨field, slot⟩, member, found⟩
    obtain ⟨name, named, rfl⟩ := Option.map_eq_some_iff.mp found
    exact ⟨field, List.mk_mem_zipIdx_iff_getElem?.mp member, named, rfl, rfl⟩
  · rintro ⟨field, declared, named, doc, visible⟩
    refine ⟨(field, entry.slot), List.mk_mem_zipIdx_iff_getElem?.mpr declared, ?_⟩
    rw [entryAt?, named, Option.map_some, ← doc, ← visible]

theorem pairwise_entries (schema : Schema) :
    (schema.entries.map FieldEntry.slot).Pairwise (· < ·) := by
  have slots : schema.fields.zipIdx.Pairwise fun earlier later => earlier.2 < later.2 := by
    rw [← List.pairwise_map, List.zipIdx_map_snd]
    exact List.pairwise_lt_range' 1
  rw [List.pairwise_map, entries, entriesFrom_eq, List.pairwise_filterMap]
  apply slots.imp
  rintro ⟨field, slot⟩ ⟨other, later⟩ before entry found next foundNext
  obtain ⟨name, named, rfl⟩ := Option.map_eq_some_iff.mp found
  obtain ⟨nextName, nextNamed, rfl⟩ := Option.map_eq_some_iff.mp foundNext
  exact before

/-- Looking up the names of some slots leads back to these slots. -/
theorem map_slotOf_filterMap (schema : Schema) (places : List Nat) :
    (places.filterMap (nameAt? schema.fields)).map schema.slotOf =
      (places.filter fun slot => (nameAt? schema.fields slot).isSome).map some := by
  induction places with
  | nil => rfl
  | cons place places induction =>
      cases named : nameAt? schema.fields place with
      | none =>
          rw [List.filterMap_cons_none named, List.filter_cons_of_neg, induction]
          rw [named]
          exact Bool.false_ne_true
      | some name =>
          rw [List.filterMap_cons_some named, List.filter_cons_of_pos, List.map_cons,
            List.map_cons, induction, slotOf_eq_some_iff_nameAt?.mpr named]
          rw [named]
          rfl

theorem exists_match_slots (schema : Schema) :
    ∃ slots : List Nat, schema.matchNames.map schema.slotOf = slots.map some ∧
      slots.Pairwise (· < ·) ∧ ∀ slot ∈ slots, slot < schema.visible := by
  have looked := schema.map_slotOf_filterMap (List.range schema.visible)
  rw [← fieldNames_take] at looked
  refine ⟨_, looked, List.pairwise_lt_range.filter _, ?_⟩
  intro slot member
  exact List.mem_range.mp (List.mem_filter.mp member).1

/-- The tables that the passes collect of a declaration are those of its schema. -/
theorem fit_of_describe {declaration : Declaration} {tables : Tables}
    (described : tables.Describe declaration) (fields : schema.fields = declaration.fields)
    (visible : schema.visible = declaration.visible) : tables.Fit schema where
  unnamed := by
    rw [described.unnamed, unnamedCount, fields]
  slots := by
    intro name
    apply Option.ext
    intro slot
    rw [described.entered.slot_iff, slotOf_eq_some_iff_nameAt?, fields]
  slots_full := by
    have named := length_fieldNames_add_unnamed declaration.fields
    rw [← described.unnamed, ← described.nameRoom, ← described.entered.length] at named
    exact Nat.add_right_cancel named
  matched := by
    rw [described.entered.matched, matchNames, fields, visible]
  matched_full := by
    have matching := schema.length_matchNames_add_unnamed
    rw [visible, ← described.matchRoom, matchNames, unnamedCount, fields, visible,
      ← described.entered.matched, ← described.unnamed] at matching
    exact Nat.add_right_cancel matching

theorem tables_agree {declaration : Declaration} {settings : BuildSettings}
    (built : declaration.build settings = .ok schema) :
    schema.TablesAgree declaration settings := by
  obtain ⟨fields, visible⟩ := Declaration.of_build built
  have sound := Declaration.sound_of_build built
  have matching := schema.length_matchNames_add_unnamed
  obtain ⟨tables, collected, described⟩ := sound.exists_collect?
  exact {
    field := by
      intro slot
      rw [field?, fields]
    total := congrArg List.length fields
    visible := visible
    unnamed_le := matching ▸ Nat.le_add_left _ _
    visible_le := schema.visible_le
    total_le := by
      rw [total, fields]
      exact sound.length_le
    unnamed := by
      rw [← fields]
      exact schema.unnamedCount_eq_count
    hidden_named := by
      intro slot hidden within
      rw [total, fields] at within
      rw [visible] at hidden
      by_contra lacking
      rw [Option.not_isSome_iff_eq_none] at lacking
      exact sound.hidden_named slot ⟨hidden, within, lacking⟩
    slotOf := by
      intro name slot
      rw [← fields]
      exact slotOf_eq_some_iff_nameAt?
    bijective := fields ▸ schema.bijOn_slotOf
    absent := by
      intro slot unnamed name found
      rw [← fields] at unnamed
      rw [slotOf_eq_some_iff_nameAt?, unnamed] at found
      cases found
    mapped := schema.ncard_slotOf
    entries := by
      intro entry
      rw [← fields]
      exact mem_entries_iff
    increasing := schema.pairwise_entries
    matchNames := by
      rw [← fields]
      exact fieldNames_take schema.fields schema.visible
    matched := Nat.eq_sub_of_add_eq matching
    match_slots := schema.exists_match_slots
    collected := ⟨tables, collected, fit_of_describe described fields visible⟩ }

/-- Three visible fields, one of them without a name, and a hidden one. -/
def statResult : Declaration :=
  ⟨"os.stat_result", none, [⟨some "st_mode", none⟩, ⟨none, none⟩, ⟨some "st_size", none⟩,
    ⟨some "st_atime", none⟩], 3⟩

theorem tables_agree_statResult :
    ∃ schema, statResult.build .standard = .ok schema ∧
      schema.TablesAgree statResult .standard ∧
      schema.slotOf "st_atime" = some 3 ∧ schema.matchNames = ["st_mode", "st_size"] :=
  ⟨_, rfl, tables_agree rfl, by decide, by decide⟩

end Schema

end SlotRecord
