import SlotRecord.Proofs.Wire.Sources

/-!
# Records that were read

Whatever a record is read from, it is in a form on which writing and reading have no
effect: written in either format it is read back as it is, however its source spelled
numbers, keys and lengths. Nesting cannot prevent this, since both formats leave the
values of a record what they need.
-/

namespace SlotRecord

open Json Cbor

namespace Value

mutual

/-- A container counts once in the depth of a value and twice in its steps. -/
theorem steps_le_depth (value : Value) : value.steps ≤ 2 * value.depth + 1 := by
  cases value with
  | list items =>
      have inner := stepsItems_le_depthItems items
      rw [steps, depth]
      omega
  | dict entries =>
      have inner := stepsEntries_le_depthEntries entries
      rw [steps, depth]
      omega
  | _ => exact Nat.le_refl 1

theorem stepsItems_le_depthItems (items : List Value) :
    stepsItems items ≤ 2 * depthItems items + 1 := by
  cases items with
  | nil => exact Nat.zero_le _
  | cons head tail =>
      have first := steps_le_depth head
      have others := stepsItems_le_depthItems tail
      rw [stepsItems, depthItems]
      omega

theorem stepsEntries_le_depthEntries (entries : List (String × Value)) :
    stepsEntries entries ≤ 2 * depthEntries entries + 1 := by
  cases entries with
  | nil => exact Nat.zero_le _
  | cons entry tail =>
      obtain ⟨key, head⟩ := entry
      have first := steps_le_depth head
      have others := stepsEntries_le_depthEntries tail
      rw [stepsEntries, depthEntries]
      omega

end

end Value

namespace WireRecord

variable {wire : WireRecord}

theorem map_narrowed (settled : wire.Everywhere Value.Settled) :
    wire.map Value.narrowed = wire := by
  apply Eq.trans _ wire.map_id
  apply map_congr
  intro value member
  exact Value.narrowed_eq_self (settled value member)

theorem map_jsonForm (settled : wire.Everywhere Value.Settled)
    (finite : wire.Everywhere Value.Finite) : wire.map Value.jsonForm = wire := by
  apply Eq.trans _ (map_narrowed settled)
  apply map_congr
  intro value member
  exact Value.jsonForm_eq_narrowed (finite value member)

/-- Whether a record is written as JSON and the text is read as the same record. -/
def JsonStable (wire : WireRecord) : Prop :=
  ∃ text, wire.jsonText = .ok text ∧ fromJson? text = some wire

/-- Whether a record is written as CBOR and the bytes are read as the same record. -/
def CborStable (wire : WireRecord) : Prop :=
  ∃ bytes, wire.cborBytes = .ok bytes ∧ fromCbor? bytes = some wire

theorem jsonStable (noHost : wire.Everywhere Value.NoHost) (inOrder : wire.InOrder)
    (settled : wire.Everywhere Value.Settled) (finite : wire.Everywhere Value.Finite)
    (shallow : ∀ value ∈ wire.values, value.depth ≤ jsonBudget) : wire.JsonStable := by
  obtain ⟨text, written⟩ := exists_toJson noHost
  refine ⟨String.ofList text, jsonText_of_toJson written, ?_⟩
  rw [fromJson?_of_toJson written, ofNode?_asValue noHost inOrder, if_pos shallow,
    map_jsonForm settled finite]

theorem cborStable (noHost : wire.Everywhere Value.NoHost) (inOrder : wire.InOrder)
    (settled : wire.Everywhere Value.Settled) (addressable : wire.Addressable)
    (shallow : ∀ value ∈ wire.values, value.steps ≤ cborBudget) : wire.CborStable := by
  obtain ⟨bytes, written⟩ := exists_toCbor noHost
  refine ⟨bytes, cborBytes_of_toCbor written, ?_⟩
  rw [fromCbor?_of_toCbor addressable written, ofItem?_asValue noHost inOrder,
    if_pos shallow, map_narrowed settled]

/-- A record that is read has no host object and its integers are in the signed variant
wherever they fit it; from JSON it is finite too. Written again it is read back as it
is. Only lengths of CBOR are words, which they are if the size of the input is one. -/
theorem decoded_stable :
    (∀ text wire, fromJson? text = some wire →
      wire.Everywhere Value.NoHost ∧ wire.Everywhere Value.Finite ∧
        wire.Everywhere Value.Settled ∧ wire.JsonStable ∧
        (text.utf8ByteSize < 2 ^ 64 → wire.CborStable)) ∧
    ∀ bytes wire, fromCbor? bytes = some wire →
      wire.Everywhere Value.NoHost ∧ wire.Everywhere Value.Settled ∧
        (bytes.length < 2 ^ 64 → wire.CborStable) := by
  constructor
  · intro text wire read
    have noHost := everywhere_of_contents
      (everywhere_of_fromJson? (fun _ form => form.noHost) read)
    have finite := everywhere_of_contents
      (everywhere_of_fromJson? (fun _ form => form.finite) read)
    have settled := everywhere_of_contents
      (everywhere_of_fromJson? (fun _ form => form.settled) read)
    have inOrder := inOrder_of_contents
      (everywhere_of_fromJson? (fun _ form => form.inOrder) read)
    have shallow := depth_le_of_fromJson? read
    refine ⟨noHost, finite, settled, ?_, ?_⟩
    · exact jsonStable noHost inOrder settled finite shallow
    · intro word
      apply cborStable noHost inOrder settled (addressable_of_fromJson? read word)
      intro value member
      have limits : 2 * jsonBudget + 1 ≤ cborBudget := by decide
      have nesting := shallow value member
      have steps := value.steps_le_depth
      omega
  · intro bytes wire read
    have noHost := everywhere_of_contents
      (everywhere_of_fromCbor? (fun _ form => form.noHost) read)
    have settled := everywhere_of_contents
      (everywhere_of_fromCbor? (fun _ form => form.settled) read)
    have inOrder := inOrder_of_contents
      (everywhere_of_fromCbor? (fun _ form => form.inOrder) read)
    refine ⟨noHost, settled, ?_⟩
    intro word
    exact cborStable noHost inOrder settled (addressable_of_fromCbor? read word)
      (steps_le_of_fromCbor? read)

/-- A text with a key that occurs twice, a field that is passed over, the negative zero
and an integer above the signed ones. -/
def unusualText : String :=
  "\x7b\x22hidden\x22: \x7b\x22a\x22: 1, \x22a\x22: 9223372036854775808\x7d, " ++
    "\x22x\x22: 0, \x22type\x22: \x22t\x22, \x22visible\x22: [-0]\x7d"

/-- What the text stands for. -/
def unusual : WireRecord :=
  ⟨"t", [.number (.real ⟨0x8000000000000000⟩)],
    [("a", .number (.unsigned 9223372036854775808))]⟩

/-- Bytes of a record without hidden values, in which an array and a text end with a
break and a number has a head that is longer than need be. -/
def looseBytes : List UInt8 :=
  [0xa2, 0x67, 0x76, 0x69, 0x73, 0x69, 0x62, 0x6c, 0x65, 0x9f, 0x18, 0x07, 0xff,
    0x64, 0x74, 0x79, 0x70, 0x65, 0x7f, 0x61, 0x74, 0xff]

/-- What the bytes stand for. -/
def loose : WireRecord := ⟨"t", [.number (.signed 7)], []⟩

theorem decoded_stable_unusual :
    (fromJson? unusualText = some unusual ∧ unusualText.utf8ByteSize < 2 ^ 64 ∧
      unusual.Everywhere Value.Settled ∧ unusual.JsonStable ∧ unusual.CborStable) ∧
      fromCbor? looseBytes = some loose ∧ looseBytes.length < 2 ^ 64 ∧
        loose.CborStable := by
  have fromText : fromJson? unusualText = some unusual := by
    have scanned : Node.read? unusualText.toList = some (.object
        [(some "hidden", .object [(some "a", .number ⟨false, 1, [], none⟩),
            (some "a", .number ⟨false, 9223372036854775808, [], none⟩)]),
          (some "x", .number ⟨false, 0, [], none⟩), (some "type", .string (some "t")),
          (some "visible", .array [.number ⟨true, 0, [], none⟩])]) := by cbv
    rw [fromJson?, scanned]
    rfl
  have textSize : unusualText.utf8ByteSize < 2 ^ 64 := by decide +kernel
  have fromBytes : fromCbor? looseBytes = some loose := by
    have scanned : Item.read? looseBytes = some (.map
        [(.text (Utf8.encode "visible"), .array [.natural 7]),
          (.text (Utf8.encode "type"), .textChunks [.text (Utf8.encode "t")])]) := rfl
    rw [fromCbor?, scanned]
    rfl
  have bytesSize : looseBytes.length < 2 ^ 64 := by decide
  obtain ⟨_, _, settled, inJson, inCbor⟩ := decoded_stable.1 unusualText unusual fromText
  obtain ⟨_, _, again⟩ := decoded_stable.2 looseBytes loose fromBytes
  constructor
  · exact ⟨fromText, textSize, settled, inJson, inCbor textSize⟩
  · exact ⟨fromBytes, bytesSize, again bytesSize⟩

end WireRecord

end SlotRecord
