import SlotRecord.Proofs.Record.Access
import SlotRecord.Proofs.Record.Digest
import SlotRecord.Proofs.Value.Places

/-!
# Texts of records

The text of a record is put together from the texts of its visible values, and theirs from
those of their parts. Written piece by piece into one buffer it comes out the same, and the
first host object without a text leaves nothing of it.
-/

namespace SlotRecord

/-- What is written between a part and the one before it. -/
def separator : Nat → List Char
  | 0 => []
  | _ + 1 => [',', ' ']

/-- Parts from a position on, each after its separator. -/
def joinedFrom : Nat → List (List Char) → List Char
  | 0, parts => commaJoined parts
  | _ + 1, parts => Value.further parts

theorem joinedFrom_nil (position : Nat) : joinedFrom position [] = [] := by
  cases position <;> rfl

theorem joinedFrom_cons (position : Nat) (first : List Char) (rest : List (List Char)) :
    joinedFrom position (first :: rest) =
      separator position ++ (first ++ joinedFrom (position + 1) rest) := by
  cases position with
  | zero => exact Value.commaJoined_cons first rest
  | succ position => rfl

namespace Value

mutual

/-- What a buffer holds after a value was written behind what it held. -/
def append : List Char → Value → Except Fault (List Char)
  | buffer, .null => .ok (buffer ++ "None".toList)
  | buffer, .bool true => .ok (buffer ++ "True".toList)
  | buffer, .bool false => .ok (buffer ++ "False".toList)
  | buffer, .number value => .ok (buffer ++ value.render)
  | buffer, .text value => .ok (buffer ++ Literal.write value.toList)
  | buffer, .list items => do
      let filled ← appendItems (buffer ++ ['[']) 0 items
      return filled ++ [']']
  | buffer, .dict entries => do
      let filled ← appendEntries (buffer ++ ['\x7b']) 0 entries
      return filled ++ ['\x7d']
  | buffer, .host object => object.rendering.map fun text => buffer ++ text.toList

def appendItems : List Char → Nat → List Value → Except Fault (List Char)
  | buffer, _, [] => .ok buffer
  | buffer, position, head :: tail => do
      let filled ← append (buffer ++ separator position) head
      appendItems filled (position + 1) tail

def appendEntries : List Char → Nat → List (String × Value) → Except Fault (List Char)
  | buffer, _, [] => .ok buffer
  | buffer, position, (key, head) :: tail => do
      let filled ← append (buffer ++ separator position ++ Literal.write key.toList ++ [':', ' ']) head
      appendEntries filled (position + 1) tail

end

mutual

theorem append_eq (buffer : List Char) (value : Value) :
    append buffer value = value.render.map (buffer ++ ·) := by
  cases value with
  | bool value => cases value <;> rfl
  | list items =>
      rw [append, render, appendItems_eq]
      cases renderItems items with
      | ok parts => simp [Except.map, bind, Except.bind, pure, Except.pure, joinedFrom]
      | error fault => rfl
  | dict entries =>
      rw [append, render, appendEntries_eq]
      cases renderEntries entries with
      | ok parts => simp [Except.map, bind, Except.bind, pure, Except.pure, joinedFrom]
      | error fault => rfl
  | host object =>
      rw [append, render]
      cases object.rendering <;> rfl
  | _ => rfl

theorem appendItems_eq (buffer : List Char) (position : Nat) (items : List Value) :
    appendItems buffer position items =
      (renderItems items).map fun parts => buffer ++ joinedFrom position parts := by
  cases items with
  | nil => simp [appendItems, renderItems, Except.map, joinedFrom_nil]
  | cons head tail =>
      rw [appendItems, renderItems, append_eq]
      cases head.render with
      | error fault => rfl
      | ok first =>
          have others := appendItems_eq (buffer ++ separator position ++ first) (position + 1) tail
          simp only [Except.map, bind, Except.bind, others]
          cases renderItems tail <;> simp [pure, Except.pure, joinedFrom_cons]

theorem appendEntries_eq (buffer : List Char) (position : Nat)
    (entries : List (String × Value)) :
    appendEntries buffer position entries =
      (renderEntries entries).map fun parts => buffer ++ joinedFrom position parts := by
  cases entries with
  | nil => simp [appendEntries, renderEntries, Except.map, joinedFrom_nil]
  | cons entry tail =>
      obtain ⟨key, head⟩ := entry
      rw [appendEntries, renderEntries, append_eq]
      cases head.render with
      | error fault => rfl
      | ok first =>
          have others := appendEntries_eq
            (buffer ++ separator position ++ Literal.write key.toList ++ [':', ' '] ++ first)
            (position + 1) tail
          simp only [Except.map, bind, Except.bind, others]
          cases renderEntries tail <;> simp [pure, Except.pure, joinedFrom_cons]

end

/-- What the text of a value is made of, and why a value has none. -/
structure TellsParts (value : Value) : Prop where
  whole : (∃ text, value.render = .ok text) ↔ value.HostsSpeak
  list : ∀ items text, value = .list items → (value.render = .ok text ↔
    ∃ parts, List.Forall₂ (fun item part => item.render = .ok part) items parts ∧
      text = '[' :: (List.intercalate [',', ' '] parts ++ [']']))
  dict : ∀ entries text, value = .dict entries → (value.render = .ok text ↔
    ∃ parts, List.Forall₂ (fun entry part => ∃ inside, entry.2.render = .ok inside ∧
        Literal.write entry.1.toList ++ ':' :: ' ' :: inside = part) entries parts ∧
      text = '\x7b' :: (List.intercalate [',', ' '] parts ++ ['\x7d']))
  refused : ∀ fault, value.render = .error fault ↔
    ∃ path object, value.FirstMute path object fault
  buffered : ∀ buffer, append buffer value = value.render.map (buffer ++ ·)

theorem tellsParts {value : Value} (inOrder : value.Everywhere InOrder) :
    value.TellsParts where
  whole := exists_render_iff inOrder
  list := by
    rintro items text rfl
    simp only [render_list, renderItems_eq_mapM, mapM_eq_ok_iff, commaJoined]
  dict := by
    rintro entries text rfl
    simp only [render_dict, renderEntries_eq_mapM, mapM_eq_ok_iff, renderEntry, map_eq_ok_iff,
      commaJoined]
  refused _ := render_eq_error_iff inOrder
  buffered buffer := append_eq buffer value

end Value

namespace Record

/-- What a buffer holds after the labelled values of slots were written behind what it
held. -/
def appendSlots (schema : Schema) : List Char → Nat → List Value → Except Fault (List Char)
  | buffer, _, [] => .ok buffer
  | buffer, slot, head :: tail => do
      let filled ← Value.append (buffer ++ separator slot ++ schema.label slot ++ ['=']) head
      appendSlots schema filled (slot + 1) tail

/-- The text of a record written into one buffer, of which nothing is left where a value
has no text. -/
def written (record : Record) : Except Fault (List Char) := do
  let opened := record.schema.name.toList ++ ['(']
  let filled ← appendSlots record.schema.schema opened 0 record.visible
  return filled ++ [')']

theorem appendSlots_eq (schema : Schema) (buffer : List Char) (slot : Nat)
    (values : List Value) :
    appendSlots schema buffer slot values =
      (renderSlots schema slot values).map fun parts => buffer ++ joinedFrom slot parts := by
  induction values generalizing buffer slot with
  | nil => simp [appendSlots, renderSlots, Except.map, joinedFrom_nil]
  | cons head tail induction =>
      rw [appendSlots, renderSlots, Value.append_eq]
      cases head.render with
      | error fault => rfl
      | ok first =>
          simp only [Except.map, bind, Except.bind, induction]
          cases renderSlots schema (slot + 1) tail <;>
            simp [pure, Except.pure, joinedFrom_cons]

theorem written_eq_render (record : Record) : record.written = record.render := by
  rw [written, render, appendSlots_eq]
  cases renderSlots record.schema.schema 0 record.visible <;>
    simp [Except.map, bind, Except.bind, pure, Except.pure, joinedFrom]

/-- The texts of values with the labels of the slots from `slot` on. -/
theorem renderSlots_eq (schema : Schema) (slot : Nat) (values : List Value) :
    renderSlots schema slot values = (values.mapM Value.render).map fun parts =>
      parts.mapIdx fun place part => schema.label (slot + place) ++ '=' :: part := by
  induction values generalizing slot with
  | nil => rfl
  | cons head tail induction =>
      rw [renderSlots, List.mapM_cons, induction]
      cases head.render with
      | error fault => rfl
      | ok first =>
          cases tail.mapM Value.render <;>
            simp [Except.map, bind, Except.bind, pure, Except.pure, Nat.add_assoc,
              Nat.add_comm 1]

variable {record : Record} {text : List Char} {fault : Fault}

theorem render_eq_ok_iff :
    record.render = .ok text ↔ ∃ parts, record.visible.mapM Value.render = .ok parts ∧
      text = record.schema.name.toList ++ '(' :: (List.intercalate [',', ' ']
        (parts.mapIdx fun slot part => record.schema.schema.label slot ++ '=' :: part) ++
          [')']) := by
  rw [render, renderSlots_eq]
  cases record.visible.mapM Value.render <;>
    simp [Except.map, bind, Except.bind, pure, Except.pure, commaJoined, eq_comm]

/-- A record has no text for the same reason as the list of its visible values. -/
theorem render_eq_error_iff :
    record.render = .error fault ↔ (Value.list record.visible).render = .error fault := by
  rw [Value.render_list_error, render, renderSlots_eq]
  cases record.visible.mapM Value.render <;>
    simp [Except.map, bind, Except.bind, pure, Except.pure]

/-- The texts of the visible values are texts of the slots before the first hidden one. -/
theorem mapM_visible_eq_ok_iff {parts : List (List Char)} :
    record.visible.mapM Value.render = .ok parts ↔ parts.length = record.length ∧
      ∀ slot part, parts[slot]? = some part →
        ∃ value, record.slot? slot = some value ∧ value.render = .ok part := by
  have shown := record.length_visible
  rw [mapM_eq_ok_iff, List.forall₂_iff_get]
  constructor
  · rintro ⟨length, each⟩
    refine ⟨length.symm.trans shown, ?_⟩
    intro slot part found
    obtain ⟨within, rfl⟩ := List.getElem?_eq_some_iff.mp found
    have seen : slot < record.visible.length := length.symm ▸ within
    refine ⟨record.visible[slot], ?_, each slot seen within⟩
    rw [← get?_eq_slot? (shown ▸ seen), get?, List.getElem?_eq_getElem seen]
  · rintro ⟨length, each⟩
    refine ⟨shown.trans length.symm, ?_⟩
    intro slot seen within
    obtain ⟨value, held, rendered⟩ := each slot _ (List.getElem?_eq_getElem within)
    rw [← get?_eq_slot? (by omega), get?, List.getElem?_eq_getElem seen] at held
    cases held
    exact rendered

/-- What the text of a record is made of, and why a record has none. Places inside a record
are those inside the list of its visible values. -/
structure TellsParts (record : Record) : Prop where
  whole : (∃ text, record.render = .ok text) ↔ (Value.list record.visible).HostsSpeak
  composed : ∀ text, record.render = .ok text ↔ ∃ parts : List (List Char),
    parts.length = record.length ∧
      (∀ slot part, parts[slot]? = some part →
        ∃ value, record.slot? slot = some value ∧ value.render = .ok part) ∧
      text = record.schema.name.toList ++ '(' :: (List.intercalate [',', ' ']
        (parts.mapIdx fun slot part => record.schema.schema.label slot ++ '=' :: part) ++ [')'])
  refused : ∀ fault, record.render = .error fault ↔
    ∃ path object, (Value.list record.visible).FirstMute path object fault
  inside : ∀ path value, (Value.list record.visible).at? path = some value → value.TellsParts
  displayed : ∀ text, record.display? = some text ↔ record.render = .ok text
  undisplayed : record.display? = none ↔ ∃ fault, record.render = .error fault
  buffered : record.written = record.render

theorem exists_render_iff :
    (∃ text, record.render = .ok text) ↔
      ∃ text, (Value.list record.visible).render = .ok text := by
  have faults : ∀ fault, record.render = .error fault ↔
      (Value.list record.visible).render = .error fault := fun _ => render_eq_error_iff
  cases attempt : record.render with
  | ok text =>
      cases inside : (Value.list record.visible).render with
      | ok other => simp
      | error fault => cases attempt.symm.trans ((faults fault).mpr inside)
  | error fault => simp [(faults fault).mp attempt]

end Record

/-- The text of a record is its name and the labelled texts of its visible values, and these
are made of the texts of their parts in the same way. If some host object has no text then
the first of them, in the order of writing, is what the whole fails with. -/
theorem texts_composed (record : Record)
    (inOrder : ∀ value ∈ record.visible, value.Everywhere Value.InOrder) :
    record.TellsParts := by
  have everywhere : (Value.list record.visible).Everywhere Value.InOrder :=
    (Value.everywhere_iff_parts _).mpr ⟨trivial, inOrder⟩
  constructor
  case whole => rw [Record.exists_render_iff, Value.exists_render_iff everywhere]
  case composed =>
    intro text
    rw [Record.render_eq_ok_iff]
    simp only [Record.mapM_visible_eq_ok_iff, and_assoc]
  case refused =>
    intro fault
    rw [Record.render_eq_error_iff, Value.render_eq_error_iff everywhere]
  case inside =>
    intro path value reached
    exact Value.tellsParts (Value.everywhere_at? everywhere reached)
  case displayed =>
    intro text
    rw [Record.display?]
    cases record.render <;> simp [Except.toOption]
  case undisplayed =>
    rw [Record.display?]
    cases record.render <;> simp [Except.toOption]
  case buffered => exact record.written_eq_render

/-- A record with two host objects that have no text, the first of them inside a list. -/
def Record.muted : Record where
  schema := ⟨3, true, ⟨"samples.muted", none,
    [⟨some "owners", none⟩, ⟨none, none⟩, ⟨some "note", none⟩], 2, none, by decide,
    by decide, by decide⟩⟩
  serial := 3
  slots := [.dict [("a", .text "x"), ("b", .list [.host ⟨"owner-1", "Owner", .ok "<owner>", .ok 1⟩,
      .host ⟨"owner-2", "Owner", .error (.host "gone"), .ok 2⟩])],
    .host ⟨"owner-3", "Owner", .error (.host "late"), .ok 3⟩, .null]
  complete := rfl

theorem texts_composed_hosts :
    Record.tagged.render = .ok "samples.tagged(owner=<owner>, _1=-0.0)".toList ∧
    (Value.list Record.tagged.visible).HostsSpeak ∧
    (∃ path object, (Value.list Record.muted.visible).FirstMute path object (.host "gone")) ∧
    Record.muted.display? = none := by
  have spoken := texts_composed Record.tagged (by decide)
  have silent := texts_composed Record.muted (by decide)
  have text : Record.tagged.render = .ok "samples.tagged(owner=<owner>, _1=-0.0)".toList := by
    decide +kernel
  have failed : Record.muted.render = .error (.host "gone") := rfl
  exact ⟨text, spoken.whole.mp ⟨_, text⟩, (silent.refused _).mp failed,
    silent.undisplayed.mpr ⟨_, failed⟩⟩

end SlotRecord
