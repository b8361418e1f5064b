import SlotRecord.Proofs.Decimal.Numeral
import SlotRecord.Proofs.Json.String
import SlotRecord.Proofs.Value.Hosts

/-!
# Documents of written values

The text that is written for a value is one document, and reading the text
gives that document back, whatever text follows. The reader needs at most two
steps of fuel for each character.
-/

namespace SlotRecord

/-- The numeral that a number is written as; nothing if it is not finite. -/
def Number.numeral? : Number → Option Numeral
  | .signed value => some ⟨decide (value.toInt < 0), value.toInt.natAbs, [], none⟩
  | .unsigned value => some ⟨false, value.toNat, [], none⟩
  | .real value => if value.isFinite then some (Json.style.numeral value) else none

def Number.node (number : Number) : Json.Node :=
  match number.numeral? with
  | some numeral => .number numeral
  | none => .null

namespace Value

mutual

/-- The document that is written for a value. A host object has none and stands
as null. -/
def node : Value → Json.Node
  | .null => .null
  | .bool value => .bool value
  | .number value => value.node
  | .text value => .string (some value)
  | .list items => .array (nodes items)
  | .dict entries => .object (members entries)
  | .host _ => .null

def nodes : List Value → List Json.Node
  | [] => []
  | head :: tail => head.node :: nodes tail

def members : List (String × Value) → List (Option String × Json.Node)
  | [] => []
  | (key, head) :: tail => (some key, head.node) :: members tail

end

theorem itemsToJson_cons {head : Value} {tail : List Value} {parts : List (List Char)} :
    itemsToJson (head :: tail) = .ok parts ↔
      ∃ first rest, head.toJson = .ok first ∧ itemsToJson tail = .ok rest ∧
        parts = first :: rest := by
  cases written : head.toJson <;> cases others : itemsToJson tail <;>
    simp [itemsToJson, written, others, bind, Except.bind, pure, Except.pure, eq_comm]

theorem entriesToJson_cons {key : String} {head : Value} {tail : List (String × Value)}
    {parts : List (List Char)} :
    entriesToJson ((key, head) :: tail) = .ok parts ↔
      ∃ first rest, head.toJson = .ok first ∧ entriesToJson tail = .ok rest ∧
        parts = Json.writeMember key first :: rest := by
  cases written : head.toJson <;> cases others : entriesToJson tail <;>
    simp [entriesToJson, written, others, bind, Except.bind, pure, Except.pure, eq_comm]

theorem toJson_list {items : List Value} {text : List Char} :
    (Value.list items).toJson = .ok text ↔
      ∃ parts, itemsToJson items = .ok parts ∧ text = Json.writeArray parts := by
  cases written : itemsToJson items <;> simp [toJson, written, Except.map, eq_comm]

theorem toJson_dict {entries : List (String × Value)} {text : List Char} :
    (Value.dict entries).toJson = .ok text ↔
      ∃ parts, entriesToJson entries = .ok parts ∧ text = Json.writeObject parts := by
  cases written : entriesToJson entries <;> simp [toJson, written, Except.map, eq_comm]

theorem refusal?_itemsToJson (items : List Value) :
    refusal? (itemsToJson items) = items.findSome? fun item => refusal? item.toJson := by
  induction items with
  | nil => rfl
  | cons head tail induction =>
      rw [itemsToJson, refusal?_bind, induction, List.findSome?_cons]
      cases refusal? head.toJson <;> rfl

theorem refusal?_entriesToJson (entries : List (String × Value)) :
    refusal? (entriesToJson entries) =
      (entries.map Prod.snd).findSome? fun item => refusal? item.toJson := by
  induction entries with
  | nil => rfl
  | cons entry tail induction =>
      obtain ⟨key, head⟩ := entry
      rw [entriesToJson, refusal?_bind, induction, List.map_cons, List.findSome?_cons]
      cases refusal? head.toJson <;> rfl

theorem writes_toJson : Writes toJson := by
  constructor
  · intro object
    rfl
  · intro value hosted
    cases value with
    | list items => exact (refusal?_map _ _).trans (refusal?_itemsToJson items)
    | dict entries => exact (refusal?_map _ _).trans (refusal?_entriesToJson entries)
    | host object => cases hosted
    | _ => rfl

/-- Nothing but a host object keeps a value from being written. -/
theorem exists_toJson {value : Value} (noHost : value.Everywhere NoHost) :
    ∃ text, value.toJson = .ok text :=
  refusal?_eq_none_iff.mp ((writes_toJson.refusal?_eq_none_iff value).mpr noHost)

end Value

namespace Numeral

/-- A character that a numeral begins with. -/
def Leads (character : Char) : Prop :=
  character = '-' ∨ ∃ digit : Digit, character = digit.toChar

theorem text_eq_cons (width : Nat) (numeral : Numeral) :
    ∃ head tail, numeral.text width = head :: tail ∧ Leads head := by
  rw [text_eq]
  cases numeral.negative with
  | true => exact ⟨'-', unsignedText width numeral, rfl, Or.inl rfl⟩
  | false =>
      obtain ⟨digit, more, first⟩ := decimalText_eq_cons numeral.whole
      refine ⟨digit.toChar,
        more ++ (fractionText numeral.fraction ++ exponentPart width numeral.exponent),
        ?_, Or.inr ⟨digit, rfl⟩⟩
      simp only [unsignedText, first, Bool.false_eq_true, if_false, List.nil_append,
        List.cons_append]

/-- Only what begins like a numeral is read as one. -/
theorem leads_of_read {text rest : List Char} {numeral : Numeral}
    (taken : read text = some (numeral, rest)) :
    ∃ head tail, text = head :: tail ∧ Leads head := by
  rw [read.eq_def] at taken
  split at taken
  · rename_i tail
    exact ⟨'-', tail, rfl, Or.inl rfl⟩
  · simp only [readUnsigned, Option.bind_eq_bind, Option.bind_eq_some_iff] at taken
    obtain ⟨whole, wholeRead, _⟩ := taken
    rw [readWhole] at wholeRead
    cases text with
    | nil => cases wholeRead
    | cons head tail =>
        refine ⟨head, tail, rfl, ?_⟩
        cases digit : Digit.ofChar? head with
        | none =>
            rw [Digits.read, digit] at wholeRead
            cases wholeRead
        | some digit => exact Or.inr ⟨_, Digit.toChar_of_ofChar? ‹_›⟩

theorem Leads.not_mem {character : Char} (leads : Leads character) :
    character ∉ ['n', 't', 'f', '\x22', '[', '\x7b', ']', '\x7d', ' ', '\t', '\n',
      '\r'] := by
  rcases leads with rfl | ⟨digit, rfl⟩
  · decide
  · revert digit
    decide

end Numeral

namespace Json

theorem writeNumber_eq (number : Number) :
    writeNumber number =
      match number.numeral? with
      | some numeral => numeral.text 1
      | none => "null".toList := by
  cases number with
  | signed value =>
      simp [writeNumber, Number.numeral?, intText, Numeral.text]
  | unsigned value =>
      simp [writeNumber, Number.numeral?, Numeral.text]
  | real value =>
      cases finite : value.isFinite with
      | true =>
          simp [writeNumber, writeReal, Number.numeral?, finite, FloatStyle.text, style]
      | false => simp [writeNumber, writeReal, Number.numeral?, finite]

/-- A text that begins like a value: with no blank and no closing bracket. -/
def Opens (text : List Char) : Prop :=
  ∃ head tail, text = head :: tail ∧ isBlank head = false ∧ head ≠ ']' ∧ head ≠ '\x7d'

theorem Opens.append {text : List Char} (opens : Opens text) (rest : List Char) :
    Opens (text ++ rest) := by
  obtain ⟨head, tail, rfl, begins⟩ := opens
  exact ⟨head, tail ++ rest, rfl, begins⟩

theorem Opens.skipBlank {text : List Char} (opens : Opens text) :
    skipBlank text = text := by
  obtain ⟨head, tail, rfl, noBlank, _⟩ := opens
  simp [Json.skipBlank, noBlank]

theorem opens_text (width : Nat) (numeral : Numeral) : Opens (numeral.text width) := by
  obtain ⟨head, tail, split, leads⟩ := Numeral.text_eq_cons width numeral
  have outside := leads.not_mem
  simp only [List.mem_cons, List.not_mem_nil, or_false, not_or] at outside
  refine ⟨head, tail, split, ?_, ?_, ?_⟩ <;> simp [isBlank, outside]

theorem opens_toJson {value : Value} {text : List Char}
    (written : value.toJson = .ok text) : Opens text := by
  cases value with
  | null =>
      cases written
      exact ⟨'n', "ull".toList, rfl, by decide⟩
  | bool value =>
      cases written
      cases value with
      | true => exact ⟨'t', "rue".toList, rfl, by decide⟩
      | false => exact ⟨'f', "alse".toList, rfl, by decide⟩
  | number value =>
      cases written
      rw [writeNumber_eq]
      split
      · exact opens_text 1 _
      · exact ⟨'n', "ull".toList, rfl, by decide⟩
  | text value =>
      cases written
      exact ⟨'\x22', _, rfl, by decide⟩
  | list items =>
      obtain ⟨parts, _, rfl⟩ := Value.toJson_list.mp written
      exact ⟨'[', _, rfl, by decide⟩
  | dict entries =>
      obtain ⟨parts, _, rfl⟩ := Value.toJson_dict.mp written
      exact ⟨'\x7b', _, rfl, by decide⟩
  | host object => cases written

theorem separated_cons_cons (first second : List Char) (others : List (List Char)) :
    separated (first :: second :: others) =
      first ++ ',' :: separated (second :: others) := by
  simp [separated, List.intercalate]

theorem separated_singleton (part : List Char) : separated [part] = part := by
  simp [separated, List.intercalate]

theorem opens_separated {first : List Char} (opens : Opens first)
    (others : List (List Char)) : Opens (separated (first :: others)) := by
  cases others with
  | nil =>
      rw [separated_singleton]
      exact opens
  | cons second others =>
      rw [separated_cons_cons]
      exact opens.append _

theorem opens_writeMember (key : String) (text : List Char) :
    Opens (writeMember key text) :=
  ⟨'\x22', _, rfl, by decide⟩

/-- What may follow a written value leaves its last numeral complete. -/
theorem ends_cons {mark : Char} (closing : mark ∈ [',', ']', '\x7d'])
    (rest : List Char) :
    Numeral.Ends (mark :: rest) := by
  simp only [List.mem_cons, List.not_mem_nil, or_false] at closing
  constructor
  · intro character member
    cases member
    rcases closing with rfl | rfl | rfl <;> decide
  · intro character member
    cases member
    rcases closing with rfl | rfl | rfl <;> decide

theorem readNode_of_leads {head : Char} (leads : Numeral.Leads head) (fuel : Nat)
    (tail : List Char) :
    readNode (fuel + 1) (head :: tail) =
      (Numeral.read (head :: tail)).map fun found => (.number found.1, found.2) := by
  have outside := leads.not_mem
  simp only [List.mem_cons, List.not_mem_nil, or_false, not_or] at outside
  rw [readNode]
  · cases Numeral.read (head :: tail) <;> rfl
  all_goals
    intros
    simp_all


theorem readNode_text {rest : List Char} (ends : Numeral.Ends rest) (fuel width : Nat)
    (numeral : Numeral) :
    readNode (fuel + 1) (numeral.text width ++ rest) =
      some (.number numeral, rest) := by
  have scanned := Numeral.read_text_append ends width numeral
  obtain ⟨head, tail, split, leads⟩ := Numeral.text_eq_cons width numeral
  rw [split, List.cons_append] at scanned ⊢
  rw [readNode_of_leads leads, scanned]
  rfl

theorem readNode_writeString (fuel : Nat) (content : String) (rest : List Char) :
    readNode (fuel + 1) (writeString content ++ rest) =
      some (.string (some content), rest) := by
  have scanned := readString_append content rest
  simp [writeString, readNode, scanned]

theorem readNode_bracket {text : List Char} (opens : Opens text) (fuel : Nat) :
    readNode (fuel + 1) ('[' :: text) =
      (readItems fuel text).map fun found => (.array found.1, found.2) := by
  have blank := opens.skipBlank
  obtain ⟨head, tail, rfl, _, noBracket, _⟩ := opens
  rw [readNode, blank]
  split
  · rename_i equality
    exact absurd (List.cons.inj equality).1 noBracket
  · cases readItems fuel (head :: tail) <;> rfl

theorem readNode_brace {text : List Char} (opens : Opens text) (fuel : Nat) :
    readNode (fuel + 1) ('\x7b' :: text) =
      (readMembers fuel text).map fun found => (.object found.1, found.2) := by
  have blank := opens.skipBlank
  obtain ⟨head, tail, rfl, _, _, noBrace⟩ := opens
  rw [readNode, blank]
  split
  · rename_i equality
    exact absurd (List.cons.inj equality).1 noBrace
  · cases readMembers fuel (head :: tail) <;> rfl

theorem Opens.length_pos {text : List Char} (opens : Opens text) : 0 < text.length := by
  obtain ⟨head, tail, rfl, _⟩ := opens
  exact Nat.succ_pos tail.length

/-- One item in front of the end of an array. -/
theorem readItems_last {fuel : Nat} {text rest : List Char} {node : Node}
    (scanned : readNode fuel text = some (node, ']' :: rest)) :
    readItems (fuel + 1) text = some ([node], rest) := by
  simp [readItems, scanned, skipBlank, isBlank]

/-- One item in front of further ones. -/
theorem readItems_more {fuel : Nat} {text more rest : List Char} {node : Node}
    {others : List Node} (opens : Opens more)
    (scanned : readNode fuel text = some (node, ',' :: more))
    (continued : readItems fuel more = some (others, rest)) :
    readItems (fuel + 1) text = some (node :: others, rest) := by
  have comma : skipBlank (',' :: more) = ',' :: more := by simp [skipBlank, isBlank]
  simp [readItems, scanned, comma, opens.skipBlank, continued]

/-- One member in front of the end of an object. -/
theorem readMembers_last {fuel : Nat} {key : String} {text rest : List Char}
    {node : Node} (opens : Opens text)
    (scanned : readNode fuel text = some (node, '\x7d' :: rest)) :
    readMembers (fuel + 1) (writeMember key text) =
      some ([(some key, node)], rest) := by
  have name := readString_append key (':' :: text)
  have colon : skipBlank (':' :: text) = ':' :: text := by simp [skipBlank, isBlank]
  have brace : skipBlank ('\x7d' :: rest) = '\x7d' :: rest := by
    simp [skipBlank, isBlank]
  simp [readMembers, writeMember, writeString, name, colon, opens.skipBlank, scanned,
    brace]

/-- One member in front of further ones. -/
theorem readMembers_more {fuel : Nat} {key : String} {text more rest : List Char}
    {node : Node} {others : List (Option String × Node)} (opens : Opens text)
    (opensMore : Opens more) (scanned : readNode fuel text = some (node, ',' :: more))
    (continued : readMembers fuel more = some (others, rest)) :
    readMembers (fuel + 1) (writeMember key text) =
      some ((some key, node) :: others, rest) := by
  have name := readString_append key (':' :: text)
  have colon : skipBlank (':' :: text) = ':' :: text := by simp [skipBlank, isBlank]
  have comma : skipBlank (',' :: more) = ',' :: more := by simp [skipBlank, isBlank]
  simp [readMembers, writeMember, writeString, name, colon, opens.skipBlank, scanned,
    comma, opensMore.skipBlank, continued]

theorem writeMember_append (key : String) (text rest : List Char) :
    writeMember key text ++ rest = writeMember key (text ++ rest) := by
  simp [writeMember, List.append_assoc]

theorem length_writeMember_le (key : String) (text : List Char) :
    text.length + 1 ≤ (writeMember key text).length := by
  simp only [writeMember, List.length_append, List.length_cons]
  omega

mutual

/-- Reading takes back the document of a value that writing put in front of a
text. -/
theorem readNode_toJson {value : Value} {text rest : List Char} {fuel : Nat}
    (written : value.toJson = .ok text) (ends : Numeral.Ends rest)
    (enough : 2 * text.length ≤ fuel) :
    readNode fuel (text ++ rest) = some (value.node, rest) := by
  have positive := (opens_toJson written).length_pos
  obtain ⟨fuel, rfl⟩ : ∃ more, fuel = more + 1 := ⟨fuel - 1, by omega⟩
  cases value with
  | null =>
      cases written
      rfl
  | bool value =>
      cases written
      cases value <;> rfl
  | number value =>
      cases written
      rw [writeNumber_eq, Value.node, Number.node]
      split
      · exact readNode_text ends fuel 1 _
      · rfl
  | text value =>
      cases written
      exact readNode_writeString fuel value rest
  | list items =>
      obtain ⟨parts, itemsWritten, rfl⟩ := Value.toJson_list.mp written
      cases items with
      | nil =>
          cases itemsWritten
          simp [writeArray, separated, readNode, skipBlank, isBlank, Value.node,
            Value.nodes]
      | cons head tail =>
          obtain ⟨first, others, headWritten, _, rfl⟩ :=
            Value.itemsToJson_cons.mp itemsWritten
          have opens := opens_separated (opens_toJson headWritten) others
          -- The brackets are two characters, which pay for the step into the items.
          have length : (writeArray (first :: others)).length =
              (separated (first :: others)).length + 2 := by
            simp [writeArray]
          have scanned :
              readItems fuel (separated (first :: others) ++ ']' :: rest) =
                some (Value.nodes (head :: tail), rest) :=
            readItems_itemsToJson itemsWritten (by simp) (by omega)
          have bracket := readNode_bracket (opens.append (']' :: rest)) fuel
          rw [scanned] at bracket
          simpa [writeArray, Value.node] using bracket
  | dict entries =>
      obtain ⟨parts, entriesWritten, rfl⟩ := Value.toJson_dict.mp written
      cases entries with
      | nil =>
          cases entriesWritten
          simp [writeObject, separated, readNode, skipBlank, isBlank, Value.node,
            Value.members]
      | cons entry tail =>
          obtain ⟨key, head⟩ := entry
          obtain ⟨first, others, _, _, rfl⟩ :=
            Value.entriesToJson_cons.mp entriesWritten
          have opens := opens_separated (opens_writeMember key first) others
          have length : (writeObject (writeMember key first :: others)).length =
              (separated (writeMember key first :: others)).length + 2 := by
            simp [writeObject]
          have scanned :
              readMembers fuel
                  (separated (writeMember key first :: others) ++ '\x7d' :: rest) =
                some (Value.members ((key, head) :: tail), rest) :=
            readMembers_entriesToJson entriesWritten (by simp) (by omega)
          have brace := readNode_brace (opens.append ('\x7d' :: rest)) fuel
          rw [scanned] at brace
          simpa [writeObject, Value.node] using brace
  | host object => cases written

theorem readItems_itemsToJson {items : List Value} {parts : List (List Char)}
    {rest : List Char} {fuel : Nat} (written : Value.itemsToJson items = .ok parts)
    (nonempty : items ≠ []) (enough : 2 * (separated parts).length + 1 ≤ fuel) :
    readItems fuel (separated parts ++ ']' :: rest) =
      some (Value.nodes items, rest) := by
  obtain ⟨fuel, rfl⟩ : ∃ more, fuel = more + 1 := ⟨fuel - 1, by omega⟩
  obtain _ | ⟨head, tail⟩ := items
  · exact absurd rfl nonempty
  obtain ⟨first, others, headWritten, tailWritten, rfl⟩ :=
    Value.itemsToJson_cons.mp written
  cases tail with
  | nil =>
      cases tailWritten
      rw [separated_singleton] at enough ⊢
      exact readItems_last
        (readNode_toJson headWritten (ends_cons (by simp) rest) (by omega))
  | cons next tail =>
      obtain ⟨second, more, nextWritten, _, rfl⟩ :=
        Value.itemsToJson_cons.mp tailWritten
      rw [separated_cons_cons] at enough ⊢
      rw [List.length_append, List.length_cons] at enough
      rw [List.append_assoc, List.cons_append]
      have positive := (opens_toJson headWritten).length_pos
      exact readItems_more
        ((opens_separated (opens_toJson nextWritten) more).append _)
        (readNode_toJson headWritten (ends_cons (by simp) _) (by omega))
        (readItems_itemsToJson tailWritten (by simp) (by omega))

theorem readMembers_entriesToJson {entries : List (String × Value)}
    {parts : List (List Char)} {rest : List Char} {fuel : Nat}
    (written : Value.entriesToJson entries = .ok parts) (nonempty : entries ≠ [])
    (enough : 2 * (separated parts).length + 1 ≤ fuel) :
    readMembers fuel (separated parts ++ '\x7d' :: rest) =
      some (Value.members entries, rest) := by
  obtain ⟨fuel, rfl⟩ : ∃ more, fuel = more + 1 := ⟨fuel - 1, by omega⟩
  obtain _ | ⟨⟨key, head⟩, tail⟩ := entries
  · exact absurd rfl nonempty
  obtain ⟨first, others, headWritten, tailWritten, rfl⟩ :=
    Value.entriesToJson_cons.mp written
  have member := length_writeMember_le key first
  cases tail with
  | nil =>
      cases tailWritten
      rw [separated_singleton] at enough ⊢
      rw [writeMember_append]
      exact readMembers_last ((opens_toJson headWritten).append _)
        (readNode_toJson headWritten (ends_cons (by simp) rest) (by omega))
  | cons entry tail =>
      obtain ⟨nextKey, next⟩ := entry
      obtain ⟨second, more, _, _, rfl⟩ := Value.entriesToJson_cons.mp tailWritten
      rw [separated_cons_cons] at enough ⊢
      rw [List.length_append, List.length_cons] at enough
      rw [List.append_assoc, List.cons_append, writeMember_append]
      exact readMembers_more ((opens_toJson headWritten).append _)
        ((opens_separated (opens_writeMember nextKey second) more).append _)
        (readNode_toJson headWritten (ends_cons (by simp) _) (by omega))
        (readMembers_entriesToJson tailWritten (by simp) (by omega))

end

/-- The whole text of a value is its document. -/
theorem read?_toJson {value : Value} {text : List Char}
    (written : value.toJson = .ok text) : Node.read? text = some value.node := by
  have blank := (opens_toJson written).skipBlank
  have scanned := readNode_toJson written Numeral.ends_nil
    (show 2 * text.length ≤ 2 * text.length + 2 by omega)
  rw [List.append_nil] at scanned
  rw [Node.read?, blank, scanned]
  rfl

end Json

end SlotRecord
