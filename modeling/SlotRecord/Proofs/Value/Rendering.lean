import SlotRecord.Proofs.Text.Literal
import SlotRecord.Proofs.Value.Shown

/-!
# Texts of values read back

The text of a value without host objects tells the value: a reader takes from it, part
by part, what is shown of the value. So two values have the same text only if the same
is shown of them.
-/

namespace SlotRecord

open Json

namespace Value

/-- What a value's text tells, inside the value too. -/
def shown : Value → Value := mapNumbers fun value => .number value.shown

theorem shown_list (items : List Value) : (Value.list items).shown = .list (items.map shown) :=
  congrArg Value.list (mapNumbersItems_eq_map _ items)

theorem shown_dict (entries : List (String × Value)) :
    (Value.dict entries).shown = .dict (entries.map fun entry => (entry.1, entry.2.shown)) :=
  congrArg Value.dict (mapNumbersEntries_eq_map _ entries)

theorem render_shown (value : Value) : value.shown.render = value.render := by
  apply render_mapNumbers
  intro number
  exact congrArg Except.ok (Number.render_shown number)

theorem kind_shown (value : Value) : value.shown.kind = value.kind := by
  cases value with
  | number value =>
      cases value with
      | signed value => rfl
      | unsigned value =>
          rw [shown, mapNumbers, Number.shown, Number.ofUInt64]
          split <;> rfl
      | real value => rfl
  | _ => rfl

/-- A text without the separator that it begins with, if it does. -/
def skipSeparator : List Char → List Char
  | ',' :: ' ' :: rest => rest
  | rest => rest

mutual

/-- The value that a text begins with, and what follows it. -/
def read : Nat → List Char → Option (Value × List Char)
  | 0, _ => none
  | fuel + 1, input =>
    match Number.read input with
    | some (value, rest) => some (.number value, rest)
    | none =>
      match input with
      | 'N' :: 'o' :: 'n' :: 'e' :: rest => some (.null, rest)
      | 'T' :: 'r' :: 'u' :: 'e' :: rest => some (.bool true, rest)
      | 'F' :: 'a' :: 'l' :: 's' :: 'e' :: rest => some (.bool false, rest)
      | '[' :: rest => do
          let (items, rest) ← readItems fuel rest
          return (.list items, rest)
      | '\x7b' :: rest => do
          let (entries, rest) ← readEntries fuel rest
          return (.dict entries, rest)
      | input => do
          let (content, rest) ← Literal.read input
          return (.text (String.ofList content), rest)

/-- Items up to the closing bracket. -/
def readItems : Nat → List Char → Option (List Value × List Char)
  | 0, _ => none
  | _ + 1, ']' :: rest => some ([], rest)
  | fuel + 1, input => do
      let (head, rest) ← read fuel input
      let (tail, rest) ← readItems fuel (skipSeparator rest)
      return (head :: tail, rest)

/-- Entries up to the closing brace. -/
def readEntries : Nat → List Char → Option (List (String × Value) × List Char)
  | 0, _ => none
  | _ + 1, '\x7d' :: rest => some ([], rest)
  | fuel + 1, input => do
      let (key, rest) ← Literal.read input
      match rest with
      | ':' :: ' ' :: rest => do
          let (head, rest) ← read fuel rest
          let (tail, rest) ← readEntries fuel (skipSeparator rest)
          return ((String.ofList key, head) :: tail, rest)
      | _ => none

end

/-- The value that a whole text tells. -/
def ofText? (text : List Char) : Option Value :=
  (read (2 * text.length) text).bind fun found =>
    if found.2 = [] then some found.1 else none

theorem renderItems_cons {head : Value} {tail : List Value} {parts : List (List Char)} :
    renderItems (head :: tail) = .ok parts ↔
      ∃ first rest, head.render = .ok first ∧ renderItems tail = .ok rest ∧
        parts = first :: rest := by
  cases written : head.render <;> cases others : renderItems tail <;>
    simp [renderItems, written, others, bind, Except.bind, pure, Except.pure, eq_comm]

theorem renderEntries_cons {key : String} {head : Value} {tail : List (String × Value)}
    {parts : List (List Char)} :
    renderEntries ((key, head) :: tail) = .ok parts ↔
      ∃ first rest, head.render = .ok first ∧ renderEntries tail = .ok rest ∧
        parts = (Literal.write key.toList ++ ':' :: ' ' :: first) :: rest := by
  cases written : head.render <;> cases others : renderEntries tail <;>
    simp [renderEntries, written, others, bind, Except.bind, pure, Except.pure, eq_comm]

theorem render_list {items : List Value} {text : List Char} :
    (Value.list items).render = .ok text ↔
      ∃ parts, renderItems items = .ok parts ∧ text = '[' :: (commaJoined parts ++ [']']) := by
  cases written : renderItems items <;>
    simp [render, written, bind, Except.bind, pure, Except.pure, eq_comm]

theorem render_dict {entries : List (String × Value)} {text : List Char} :
    (Value.dict entries).render = .ok text ↔
      ∃ parts, renderEntries entries = .ok parts ∧
        text = '\x7b' :: (commaJoined parts ++ ['\x7d']) := by
  cases written : renderEntries entries <;>
    simp [render, written, bind, Except.bind, pure, Except.pure, eq_comm]

mutual

/-- Nothing but a host object keeps a value from having a text. -/
theorem exists_render {value : Value} (noHost : value.Everywhere NoHost) :
    ∃ text, value.render = .ok text := by
  cases value with
  | bool value => cases value <;> exact ⟨_, rfl⟩
  | list items =>
      simp only [Everywhere] at noHost
      obtain ⟨parts, written⟩ := exists_renderItems noHost.2
      exact ⟨_, render_list.mpr ⟨parts, written, rfl⟩⟩
  | dict entries =>
      simp only [Everywhere] at noHost
      obtain ⟨parts, written⟩ := exists_renderEntries noHost.2
      exact ⟨_, render_dict.mpr ⟨parts, written, rfl⟩⟩
  | host object =>
      have absent := noHost.here
      cases absent
  | _ => exact ⟨_, rfl⟩

theorem exists_renderItems {items : List Value}
    (noHost : EverywhereItems NoHost items) : ∃ parts, renderItems items = .ok parts := by
  cases items with
  | nil => exact ⟨[], rfl⟩
  | cons head tail =>
      obtain ⟨first, headWritten⟩ := exists_render noHost.1
      obtain ⟨rest, tailWritten⟩ := exists_renderItems noHost.2
      exact ⟨_, renderItems_cons.mpr ⟨first, rest, headWritten, tailWritten, rfl⟩⟩

theorem exists_renderEntries {entries : List (String × Value)}
    (noHost : EverywhereEntries NoHost entries) :
    ∃ parts, renderEntries entries = .ok parts := by
  cases entries with
  | nil => exact ⟨[], rfl⟩
  | cons entry tail =>
      obtain ⟨key, head⟩ := entry
      obtain ⟨first, headWritten⟩ := exists_render noHost.1
      obtain ⟨rest, tailWritten⟩ := exists_renderEntries noHost.2
      exact ⟨_, renderEntries_cons.mpr ⟨first, rest, headWritten, tailWritten, rfl⟩⟩

end

/-- What stands between the first part of a container and its end. -/
def further (parts : List (List Char)) : List Char :=
  parts.flatMap fun part => ',' :: ' ' :: part

theorem commaJoined_cons (first : List Char) (others : List (List Char)) :
    commaJoined (first :: others) = first ++ further others := by
  induction others generalizing first with
  | nil => simp [commaJoined, further, List.intercalate]
  | cons second others induction =>
      have tail := induction second
      simp only [commaJoined, further, List.intercalate, List.intersperse_cons_cons,
        List.flatten_cons, List.flatMap_cons] at tail ⊢
      rw [tail]
      rfl

theorem length_commaJoined_le (parts : List (List Char)) :
    (commaJoined parts).length ≤ (further parts).length := by
  cases parts with
  | nil => exact Nat.le_refl 0
  | cons first others =>
      rw [commaJoined_cons]
      simp [further]
      omega

theorem skipSeparator_further {closing : Char} (bracket : closing ∈ [']', '\x7d'])
    (parts : List (List Char)) (rest : List Char) :
    skipSeparator (further parts ++ closing :: rest) = commaJoined parts ++ closing :: rest := by
  simp only [List.mem_cons, List.not_mem_nil, or_false] at bracket
  cases parts with
  | nil => rcases bracket with rfl | rfl <;> rfl
  | cons first others =>
      rw [commaJoined_cons]
      simp [further, skipSeparator]

theorem ends_further {closing : Char} (bracket : closing ∈ [']', '\x7d'])
    (parts : List (List Char)) (rest : List Char) :
    Numeral.Ends (further parts ++ closing :: rest) := by
  cases parts with
  | nil => exact ends_cons (List.mem_cons_of_mem _ bracket) rest
  | cons first others => exact ends_cons List.mem_cons_self _

theorem opens_number (number : Number) : Opens number.render := by
  cases written : number.numeralIn? Number.style with
  | some numeral =>
      rw [Number.render_of_numeralIn? written]
      exact opens_text 2 numeral
  | none =>
      obtain ⟨value, rfl, infinite⟩ := Number.infinite_of_numeralIn?_eq_none written
      rw [Number.render, Number.renderReal, if_neg infinite]
      split
      · exact ⟨'n', ['a', 'n'], rfl, by decide⟩
      · split
        · exact ⟨'-', ['i', 'n', 'f'], rfl, by decide⟩
        · exact ⟨'i', ['n', 'f'], rfl, by decide⟩

theorem opens_write (content : List Char) : Opens (Literal.write content) := by
  refine ⟨_, _, rfl, ?_⟩
  rcases Literal.isQuote_quoteOf content with same | same
  · rw [same]
    decide
  · rw [same]
    decide

theorem opens_render {value : Value} {text : List Char} (noHost : NoHost value)
    (written : value.render = .ok text) : Opens text := by
  cases value with
  | null =>
      cases written
      exact ⟨'N', "one".toList, rfl, by decide⟩
  | bool value =>
      cases value with
      | true =>
          cases written
          exact ⟨'T', "rue".toList, rfl, by decide⟩
      | false =>
          cases written
          exact ⟨'F', "alse".toList, rfl, by decide⟩
  | number value =>
      cases written
      exact opens_number value
  | text value =>
      cases written
      exact opens_write value.toList
  | list items =>
      obtain ⟨parts, _, rfl⟩ := render_list.mp written
      exact ⟨'[', _, rfl, by decide⟩
  | dict entries =>
      obtain ⟨parts, _, rfl⟩ := render_dict.mp written
      exact ⟨'\x7b', _, rfl, by decide⟩
  | host object => cases noHost

theorem read_quote (fuel : Nat) {quote : Char} (isQuote : Literal.IsQuote quote)
    (tail : List Char) :
    read (fuel + 1) (quote :: tail) =
      (Literal.read (quote :: tail)).map fun found => (.text (String.ofList found.1), found.2) := by
  have dispatched : read (fuel + 1) (quote :: tail) = (do
      let (content, rest) ← Literal.read (quote :: tail)
      return (.text (String.ofList content), rest)) := by
    rcases isQuote with rfl | rfl <;> rfl
  rw [dispatched]
  cases Literal.read (quote :: tail) <;> rfl

theorem read_write (fuel : Nat) (content : String) (rest : List Char) :
    read (fuel + 1) (Literal.write content.toList ++ rest) = some (.text content, rest) := by
  have taken := Literal.read_write_append content.toList rest
  have isQuote := Literal.isQuote_quoteOf content.toList
  rw [Literal.write, List.cons_append] at taken ⊢
  rw [read_quote fuel isQuote, taken, Option.map_some, String.ofList_toList]

theorem read_number {rest : List Char} (ends : Numeral.Ends rest) (fuel : Nat)
    (number : Number) :
    read (fuel + 1) (number.render ++ rest) = some (.number number.shown, rest) := by
  have taken := Number.read_render_append ends number
  rw [read.eq_def]
  dsimp only
  rw [taken]

theorem read_bracket (fuel : Nat) (tail : List Char) :
    read (fuel + 1) ('[' :: tail) =
      (readItems fuel tail).map fun found => (.list found.1, found.2) := by
  have dispatched : read (fuel + 1) ('[' :: tail) = (do
      let (items, rest) ← readItems fuel tail
      return (.list items, rest)) := rfl
  rw [dispatched]
  cases readItems fuel tail <;> rfl

theorem read_brace (fuel : Nat) (tail : List Char) :
    read (fuel + 1) ('\x7b' :: tail) =
      (readEntries fuel tail).map fun found => (.dict found.1, found.2) := by
  have dispatched : read (fuel + 1) ('\x7b' :: tail) = (do
      let (entries, rest) ← readEntries fuel tail
      return (.dict entries, rest)) := rfl
  rw [dispatched]
  cases readEntries fuel tail <;> rfl

/-- One item in front of what is left of a list. -/
theorem readItems_more {fuel : Nat} {input middle rest : List Char} {head : Value}
    {tail : List Value} (opens : Opens input) (scanned : read fuel input = some (head, middle))
    (continued : readItems fuel (skipSeparator middle) = some (tail, rest)) :
    readItems (fuel + 1) input = some (head :: tail, rest) := by
  obtain ⟨first, others, rfl, _, noBracket, _⟩ := opens
  rw [readItems]
  · simp [scanned, continued]
  · exact fun _ same => noBracket (List.cons.inj same).1

/-- One entry in front of what is left of a dictionary. -/
theorem readEntries_more {fuel : Nat} {key : String} {input middle rest : List Char}
    {head : Value} {tail : List (String × Value)}
    (scanned : read fuel input = some (head, middle))
    (continued : readEntries fuel (skipSeparator middle) = some (tail, rest)) :
    readEntries (fuel + 1) (Literal.write key.toList ++ ':' :: ' ' :: input) =
      some ((key, head) :: tail, rest) := by
  have taken := Literal.read_write_append key.toList (':' :: ' ' :: input)
  have opens := (opens_write key.toList).append (':' :: ' ' :: input)
  obtain ⟨first, others, split, _, _, noBrace⟩ := opens
  rw [split] at taken ⊢
  rw [readEntries]
  · simp [taken, scanned, continued]
  · exact fun _ same => noBrace (List.cons.inj same).1

mutual

/-- Reading takes back what a value's text tells, whatever follows the text. -/
theorem read_render {value : Value} {text rest : List Char} {fuel : Nat}
    (noHost : value.Everywhere NoHost) (written : value.render = .ok text)
    (ends : Numeral.Ends rest) (enough : 2 * text.length ≤ fuel) :
    read fuel (text ++ rest) = some (value.shown, rest) := by
  have positive := (opens_render noHost.here written).length_pos
  obtain ⟨fuel, rfl⟩ : ∃ less, fuel = less + 1 := ⟨fuel - 1, by omega⟩
  cases value with
  | null =>
      cases written
      rfl
  | bool value =>
      cases value with
      | true =>
          cases written
          rfl
      | false =>
          cases written
          rfl
  | number value =>
      cases written
      exact read_number ends fuel value
  | text value =>
      cases written
      exact read_write fuel value rest
  | list items =>
      simp only [Everywhere] at noHost
      obtain ⟨parts, itemsWritten, rfl⟩ := render_list.mp written
      rw [List.length_cons, List.length_append, List.length_singleton] at enough
      have inside : readItems fuel (commaJoined parts ++ ']' :: rest) =
          some (items.map shown, rest) :=
        readItems_renderItems noHost.2 itemsWritten (by omega)
      rw [List.cons_append, List.append_assoc, List.singleton_append, read_bracket, inside,
        shown_list]
      rfl
  | dict entries =>
      simp only [Everywhere] at noHost
      obtain ⟨parts, entriesWritten, rfl⟩ := render_dict.mp written
      rw [List.length_cons, List.length_append, List.length_singleton] at enough
      have inside : readEntries fuel (commaJoined parts ++ '\x7d' :: rest) =
          some (entries.map fun entry => (entry.1, entry.2.shown), rest) :=
        readEntries_renderEntries noHost.2 entriesWritten (by omega)
      rw [List.cons_append, List.append_assoc, List.singleton_append, read_brace, inside,
        shown_dict]
      rfl
  | host object =>
      have absent := noHost.here
      cases absent

theorem readItems_renderItems {items : List Value} {parts : List (List Char)}
    {rest : List Char} {fuel : Nat} (noHost : EverywhereItems NoHost items)
    (written : renderItems items = .ok parts)
    (enough : 2 * (commaJoined parts).length + 1 ≤ fuel) :
    readItems fuel (commaJoined parts ++ ']' :: rest) = some (items.map shown, rest) := by
  obtain ⟨fuel, rfl⟩ : ∃ less, fuel = less + 1 := ⟨fuel - 1, by omega⟩
  cases items with
  | nil =>
      cases written
      rfl
  | cons head tail =>
      obtain ⟨first, others, headWritten, tailWritten, rfl⟩ := renderItems_cons.mp written
      have opens := opens_render noHost.1.here headWritten
      have positive := opens.length_pos
      have shorter := length_commaJoined_le others
      rw [commaJoined_cons, List.length_append] at enough
      rw [commaJoined_cons, List.append_assoc]
      apply readItems_more (opens.append _)
      · exact read_render noHost.1 headWritten (ends_further (by simp) others rest) (by omega)
      · rw [skipSeparator_further (by simp)]
        exact readItems_renderItems noHost.2 tailWritten (by omega)

theorem readEntries_renderEntries {entries : List (String × Value)}
    {parts : List (List Char)} {rest : List Char} {fuel : Nat}
    (noHost : EverywhereEntries NoHost entries) (written : renderEntries entries = .ok parts)
    (enough : 2 * (commaJoined parts).length + 1 ≤ fuel) :
    readEntries fuel (commaJoined parts ++ '\x7d' :: rest) =
      some (entries.map fun entry => (entry.1, entry.2.shown), rest) := by
  obtain ⟨fuel, rfl⟩ : ∃ less, fuel = less + 1 := ⟨fuel - 1, by omega⟩
  cases entries with
  | nil =>
      cases written
      rfl
  | cons entry tail =>
      obtain ⟨key, head⟩ := entry
      obtain ⟨first, others, headWritten, tailWritten, rfl⟩ := renderEntries_cons.mp written
      have shorter := length_commaJoined_le others
      rw [commaJoined_cons, List.length_append, List.length_append, List.length_cons,
        List.length_cons] at enough
      rw [commaJoined_cons, List.append_assoc, List.append_assoc, List.cons_append,
        List.cons_append]
      apply readEntries_more
      · exact read_render noHost.1 headWritten (ends_further (by simp) others rest) (by omega)
      · rw [skipSeparator_further (by simp)]
        exact readEntries_renderEntries noHost.2 tailWritten (by omega)

end

/-- The whole text of a value tells what is shown of it. -/
theorem ofText?_render {value : Value} {text : List Char} (noHost : value.Everywhere NoHost)
    (written : value.render = .ok text) : ofText? text = some value.shown := by
  have scanned := read_render noHost written Numeral.ends_nil (Nat.le_refl _)
  rw [List.append_nil] at scanned
  rw [ofText?, scanned]
  rfl

/-- Values without host objects have texts, and these are the same exactly if the values
are the same but for the variants of integers and the bits of NaN. So values of two
kinds never have the same text: no integer is written like a floating-point value, and
no text like the value that it spells. -/
theorem text_tells_value (first second : Value) (firstNoHost : first.Everywhere NoHost)
    (secondNoHost : second.Everywhere NoHost) :
    ∃ text other, first.render = .ok text ∧ second.render = .ok other ∧
      (text = other ↔ first.shown = second.shown) ∧
        (text = other → first.kind = second.kind) := by
  obtain ⟨text, written⟩ := exists_render firstNoHost
  obtain ⟨other, otherWritten⟩ := exists_render secondNoHost
  have told : text = other → first.shown = second.shown := by
    rintro rfl
    have firstTold := ofText?_render firstNoHost written
    have secondTold := ofText?_render secondNoHost otherWritten
    exact Option.some.inj (firstTold.symm.trans secondTold)
  refine ⟨text, other, written, otherWritten, ⟨told, ?_⟩, ?_⟩
  · intro same
    have rendered := congrArg render same
    rw [render_shown, render_shown, written, otherWritten] at rendered
    exact Except.ok.inj rendered
  · intro same
    rw [← kind_shown first, told same, kind_shown]

theorem text_tells_value_mixed :
    (Value.list [.number (.unsigned 5), .number (.real ⟨0xfff8000000000001⟩)]).render =
        (Value.list [.number (.signed 5), .number (.real ⟨0x7ff8000000000000⟩)]).render ∧
      (Value.number (.signed 5)).render ≠ (Value.text "5").render := by
  constructor
  · obtain ⟨text, other, written, otherWritten, told, _⟩ :=
      text_tells_value (.list [.number (.unsigned 5), .number (.real ⟨0xfff8000000000001⟩)])
        (.list [.number (.signed 5), .number (.real ⟨0x7ff8000000000000⟩)])
        (by decide) (by decide)
    rw [written, otherWritten, told.mpr rfl]
  · obtain ⟨text, other, written, otherWritten, _, kinds⟩ :=
      text_tells_value (.number (.signed 5)) (.text "5") (by decide) (by decide)
    rw [written, otherWritten]
    intro same
    have kind := kinds (Except.ok.inj same)
    revert kind
    decide

end Value

end SlotRecord
