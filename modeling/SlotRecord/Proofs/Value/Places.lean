import SlotRecord.Proofs.Dict.Contents
import SlotRecord.Proofs.Value.Hosts
import SlotRecord.Proofs.Value.Rendering

/-!
# Places inside values

A place inside a value is reached by steps: to an item of a list or to the entry of a key.
Places are ordered step by step, items by position and entries by the bytes of the key,
which is the order in which a text is written. A value has no text exactly if a host object
somewhere inside has none, and then fails as the first such object does.
-/

namespace SlotRecord

inductive Step
  | item (position : Nat)
  | entry (key : String)
deriving DecidableEq, Repr

/-- Which of two steps is taken first. No container has both items and entries. -/
inductive Step.Before : Step → Step → Prop
  | item {position other : Nat} : position < other → Before (.item position) (.item other)
  | entry {key other : String} : Utf8.encode key < Utf8.encode other →
      Before (.entry key) (.entry other)
  | mixed (position : Nat) (key : String) : Before (.item position) (.entry key)

instance : Std.Trichotomous Step.Before where
  trichotomous first second notBefore notAfter := by
    cases first with
    | item position =>
        cases second with
        | item other =>
            have least := mt Step.Before.item notBefore
            have greatest := mt Step.Before.item notAfter
            exact congrArg Step.item (by omega)
        | entry key => exact absurd (.mixed position key) notBefore
    | entry key =>
        cases second with
        | item position => exact absurd (.mixed position key) notAfter
        | entry other =>
            rcases lt_trichotomy key other with smaller | same | greater
            · exact absurd (.entry (Utf8.encode_lt smaller)) notBefore
            · exact congrArg Step.entry same
            · exact absurd (.entry (Utf8.encode_lt greater)) notAfter

namespace Value

/-- The value to which steps lead from the outside in. -/
def at? : Value → List Step → Option Value
  | value, [] => some value
  | .list items, .item position :: rest => items[position]?.bind fun item => item.at? rest
  | .dict entries, .entry key :: rest => (Dict.get? key entries).bind fun item => item.at? rest
  | _, _ :: _ => none

/-- Whether all host objects inside a value have a text. -/
def HostsSpeak (value : Value) : Prop :=
  ∀ path object, value.at? path = some (.host object) →
    ∃ text, object.rendering = .ok text

/-- Whether a host object without a text stands at a place, for which it gives a fault, and
all host objects at places before have one. -/
structure FirstMute (value : Value) (path : List Step) (object : Host) (fault : Fault) :
    Prop where
  found : value.at? path = some (.host object)
  fails : object.rendering = .error fault
  before : ∀ other, List.Lex Step.Before other path → ∀ earlier,
    value.at? other = some (.host earlier) → ∃ text, earlier.rendering = .ok text

theorem FirstMute.unique {value : Value} {path other : List Step} {object another : Host}
    {fault failure : Fault} (one : value.FirstMute path object fault)
    (two : value.FirstMute other another failure) :
    path = other ∧ object = another ∧ fault = failure := by
  have same : path = other := by
    apply Std.Trichotomous.trichotomous (r := List.Lex Step.Before)
    · intro earlier
      obtain ⟨text, spoken⟩ := two.before path earlier object one.found
      cases spoken.symm.trans one.fails
    · intro earlier
      obtain ⟨text, spoken⟩ := one.before other earlier another two.found
      cases spoken.symm.trans two.fails
  subst same
  cases one.found.symm.trans two.found
  cases one.fails.symm.trans two.fails
  exact ⟨rfl, rfl, rfl⟩

theorem renderItems_eq_mapM (items : List Value) : renderItems items = items.mapM render := by
  induction items with
  | nil => rfl
  | cons head tail induction => rw [renderItems, List.mapM_cons, induction]

/-- The text of an entry: its key, and the text of its value. -/
def renderEntry (entry : String × Value) : Except Fault (List Char) :=
  entry.2.render.map (Literal.write entry.1.toList ++ ':' :: ' ' :: ·)

theorem renderEntries_eq_mapM (entries : List (String × Value)) :
    renderEntries entries = entries.mapM renderEntry := by
  induction entries with
  | nil => rfl
  | cons entry tail induction =>
      obtain ⟨key, head⟩ := entry
      rw [renderEntries, List.mapM_cons, induction, renderEntry]
      cases head.render <;> rfl

variable {value : Value} {text : List Char} {fault : Fault}

theorem exists_part_of_at? {step : Step} {rest : List Step} {found : Value}
    (reached : value.at? (step :: rest) = some found) :
    ∃ part ∈ value.parts, part.at? rest = some found := by
  cases value with
  | list items =>
      cases step with
      | item position =>
          obtain ⟨item, held, inner⟩ := Option.bind_eq_some_iff.mp reached
          exact ⟨item, List.mem_of_getElem? held, inner⟩
      | entry key => cases reached
  | dict entries =>
      cases step with
      | item position => cases reached
      | entry key =>
          obtain ⟨item, held, inner⟩ := Option.bind_eq_some_iff.mp reached
          exact ⟨item, List.mem_map_of_mem (Dict.mem_of_get? held), inner⟩
  | _ => cases step <;> cases reached

/-- What holds everywhere in a value holds everywhere in the values inside it. -/
theorem everywhere_at? {property : Value → Prop} {path : List Step} {found : Value}
    (everywhere : value.Everywhere property) (reached : value.at? path = some found) :
    found.Everywhere property := by
  induction path generalizing value with
  | nil =>
      cases reached
      exact everywhere
  | cons step rest induction =>
      obtain ⟨part, member, inner⟩ := exists_part_of_at? reached
      exact induction ((value.everywhere_iff_parts.mp everywhere).2 part member) inner

/-- A part of a value is behind one step, and what is behind the steps before it are the
parts before it. -/
theorem exists_step {earlier later : List Value} {part : Value} (inOrder : InOrder value)
    (split : value.parts = earlier ++ part :: later) :
    ∃ step, (∀ rest, value.at? (step :: rest) = part.at? rest) ∧
      ∀ other rest found, Step.Before other step → value.at? (other :: rest) = some found →
        ∃ before ∈ earlier, before.at? rest = some found := by
  cases value with
  | list items =>
      obtain rfl : items = earlier ++ part :: later := split
      refine ⟨.item earlier.length, ?_, ?_⟩
      · intro rest
        simp [at?]
      · rintro _ rest found ⟨smaller⟩ reached
        obtain ⟨item, held, inner⟩ := Option.bind_eq_some_iff.mp reached
        rw [List.getElem?_append_left smaller] at held
        exact ⟨item, List.mem_of_getElem? held, inner⟩
  | dict entries =>
      obtain ⟨before, rest, rfl, rfl, same⟩ := List.map_eq_append_iff.mp split
      obtain ⟨⟨key, item⟩, after, rfl, rfl, rfl⟩ := List.map_eq_cons_iff.mp same
      refine ⟨.entry key, ?_, ?_⟩
      · intro rest
        have held : Dict.get? key (before ++ (key, item) :: after) = some item :=
          Dict.get?_of_mem inOrder (List.mem_append_right _ List.mem_cons_self)
        rw [at?, held, Option.bind_some]
      · intro other rest found smaller reached
        cases smaller with
        | entry less =>
            obtain ⟨inside, held, inner⟩ := Option.bind_eq_some_iff.mp reached
            have early := (encode_lt_iff_mem inOrder (Dict.mem_of_get? held)).mp less
            exact ⟨inside, List.mem_map_of_mem early, inner⟩
        | mixed position => cases reached
  | _ => simp [parts] at split

/-- Where a value has a text, all its parts have one. -/
theorem exists_render_part (written : value.render = .ok text) :
    ∀ part ∈ value.parts, ∃ text, part.render = .ok text := by
  cases value with
  | list items =>
      obtain ⟨texts, itemsWritten, _⟩ := render_list.mp written
      rw [renderItems_eq_mapM] at itemsWritten
      exact exists_mapM_eq_ok_iff.mp ⟨texts, itemsWritten⟩
  | dict entries =>
      obtain ⟨texts, entriesWritten, _⟩ := render_dict.mp written
      rw [renderEntries_eq_mapM] at entriesWritten
      have each := exists_mapM_eq_ok_iff.mp ⟨texts, entriesWritten⟩
      intro part member
      obtain ⟨entry, among, rfl⟩ := List.mem_map.mp member
      exact exists_map_eq_ok_iff.mp (each entry among)
  | _ => simp [parts]

theorem render_list_error {items : List Value} :
    (Value.list items).render = .error fault ↔ items.mapM render = .error fault := by
  rw [render, renderItems_eq_mapM]
  cases items.mapM render <;> simp [bind, Except.bind, pure, Except.pure]

theorem render_dict_error {entries : List (String × Value)} :
    (Value.dict entries).render = .error fault ↔ entries.mapM renderEntry = .error fault := by
  rw [render, renderEntries_eq_mapM]
  cases entries.mapM renderEntry <;> simp [bind, Except.bind, pure, Except.pure]

/-- Where a value has no text, it is a host object without one, or the first of its parts
without a text has none for the same reason. -/
theorem render_error_cases (failed : value.render = .error fault) :
    (∃ object, value = .host object ∧ object.rendering = .error fault) ∨
      ∃ earlier part later, value.parts = earlier ++ part :: later ∧
        (∀ other ∈ earlier, ∃ text, other.render = .ok text) ∧ part.render = .error fault := by
  cases value with
  | bool value => cases value <;> cases failed
  | host object => exact .inl ⟨object, rfl, map_eq_error_iff.mp failed⟩
  | list items =>
      right
      exact mapM_eq_error_iff.mp (render_list_error.mp failed)
  | dict entries =>
      right
      obtain ⟨earlier, entry, later, rfl, before, stopped⟩ :=
        mapM_eq_error_iff.mp (render_dict_error.mp failed)
      refine ⟨earlier.map Prod.snd, entry.2, later.map Prod.snd, by simp [parts], ?_,
        map_eq_error_iff.mp stopped⟩
      intro part member
      obtain ⟨other, among, rfl⟩ := List.mem_map.mp member
      exact exists_map_eq_ok_iff.mp (before other among)
  | _ => cases failed

theorem hostsSpeak_of_render (written : value.render = .ok text) : value.HostsSpeak := by
  induction value using induction_parts generalizing text with
  | inherits value induction =>
      intro path object found
      cases path with
      | nil =>
          cases found
          obtain ⟨spoken, told, _⟩ := map_eq_ok_iff.mp written
          exact ⟨spoken, told⟩
      | cons step rest =>
          obtain ⟨part, member, inner⟩ := exists_part_of_at? found
          obtain ⟨inside, partWritten⟩ := exists_render_part written part member
          exact induction part member partWritten rest object inner

theorem exists_firstMute (inOrder : value.Everywhere InOrder)
    (failed : value.render = .error fault) :
    ∃ path object, value.FirstMute path object fault := by
  induction value using induction_parts with
  | inherits value induction =>
      obtain ⟨here, inside⟩ := value.everywhere_iff_parts.mp inOrder
      rcases render_error_cases failed with
        ⟨object, rfl, fails⟩ | ⟨earlier, part, later, split, spoken, partFailed⟩
      · refine ⟨[], object, rfl, fails, ?_⟩
        intro other earlier
        cases earlier
      · have member : part ∈ value.parts := by simp [split]
        obtain ⟨path, object, first⟩ := induction part member (inside part member) partFailed
        obtain ⟨step, behind, before⟩ := exists_step here split
        refine ⟨step :: path, object, (behind path).trans first.found, first.fails, ?_⟩
        intro other smaller another reached
        cases smaller with
        | nil =>
            cases reached
            simp [parts] at split
        | rel less =>
            obtain ⟨passed, among, inner⟩ := before _ _ _ less reached
            obtain ⟨text, written⟩ := spoken passed among
            exact hostsSpeak_of_render written _ another inner
        | cons less =>
            rw [behind] at reached
            exact first.before _ less another reached

/-- A value has a text exactly if all host objects inside have one. -/
theorem exists_render_iff (inOrder : value.Everywhere InOrder) :
    (∃ text, value.render = .ok text) ↔ value.HostsSpeak := by
  constructor
  · rintro ⟨text, written⟩
    exact hostsSpeak_of_render written
  · intro speak
    cases attempt : value.render with
    | ok text => exact ⟨text, rfl⟩
    | error fault =>
        obtain ⟨path, object, first⟩ := exists_firstMute inOrder attempt
        obtain ⟨text, spoken⟩ := speak path object first.found
        cases spoken.symm.trans first.fails

/-- A value fails to have a text as the first host object does that has none. -/
theorem render_eq_error_iff (inOrder : value.Everywhere InOrder) :
    value.render = .error fault ↔ ∃ path object, value.FirstMute path object fault := by
  constructor
  · exact exists_firstMute inOrder
  · rintro ⟨path, object, first⟩
    cases attempt : value.render with
    | ok text =>
        obtain ⟨spoken, told⟩ := hostsSpeak_of_render attempt path object first.found
        cases told.symm.trans first.fails
    | error other =>
        obtain ⟨_, _, found⟩ := exists_firstMute inOrder attempt
        rw [(first.unique found).2.2]

end Value

end SlotRecord
