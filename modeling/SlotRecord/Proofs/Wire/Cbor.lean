import SlotRecord.Proofs.Cbor.Decoding
import SlotRecord.Proofs.Wire.Basic
import SlotRecord.Wire.Cbor

/-!
# Portable records through CBOR

Every record without host objects has bytes, and reading the bytes gives the
record with its integers in the signed variant if they fit it. Only nesting can
prevent this: of 256 steps the record and the container of its values take one
each.
-/

namespace SlotRecord

open Cbor

namespace WireRecord

/-- A record whose lengths are 64-bit words, those inside its values included. -/
def Addressable (wire : WireRecord) : Prop :=
  wire.asValue.Everywhere Value.Addressable

instance : DecidablePred Addressable := fun wire =>
  inferInstanceAs (Decidable (wire.asValue.Everywhere Value.Addressable))

variable {wire : WireRecord}

theorem toCbor_asValue (wire : WireRecord) : wire.asValue.toCbor = wire.toCbor := by
  cases visible : Value.itemsToCbor wire.visible <;>
    cases hidden : Value.entriesToCbor wire.hidden <;>
    simp [asValue, toCbor, Value.toCbor, Value.entriesToCbor, visible, hidden, bind,
      pure, Except.bind, Except.pure, Except.map]

theorem exists_toCbor (noHost : wire.Everywhere Value.NoHost) :
    ∃ bytes, wire.toCbor = .ok bytes := by
  have whole := everywhere_asValue noHost rfl rfl rfl rfl
  obtain ⟨bytes, written⟩ := Value.exists_toCbor whole
  exact ⟨bytes, (toCbor_asValue wire).symm.trans written⟩

theorem cborBytes_of_toCbor {bytes : List UInt8} (written : wire.toCbor = .ok bytes) :
    wire.cborBytes = .ok bytes := by
  simp only [cborBytes, written]

/-- What is read of a record's bytes is what its item stands for. -/
theorem fromCbor?_of_toCbor {bytes : List UInt8} (addressable : wire.Addressable)
    (written : wire.toCbor = .ok bytes) :
    fromCbor? bytes = ofItem? wire.asValue.item := by
  have scanned := Cbor.read?_toCbor addressable ((toCbor_asValue wire).trans written)
  rw [fromCbor?, scanned]
  rfl

theorem visible?_items (noHost : Value.EverywhereItems Value.NoHost wire.visible)
    (inOrder : Value.EverywhereItems Value.InOrder wire.visible) :
    Cbor.visible? (Value.list wire.visible).item =
      if Value.stepsItems wire.visible ≤ cborBudget then
        some (wire.visible.map Value.narrowed)
      else none :=
  Value.ofItems?_items noHost inOrder cborBudget

theorem hidden?_pairs (noHost : Value.EverywhereEntries Value.NoHost wire.hidden)
    (inOrder : Value.EverywhereEntries Value.InOrder wire.hidden)
    (ordered : Dict.Ordered wire.hidden) :
    Cbor.hidden? (Value.dict wire.hidden).item =
      if Value.stepsEntries wire.hidden ≤ cborBudget then
        some (wire.hidden.map fun entry => (entry.1, entry.2.narrowed))
      else none := by
  have pairs := Value.ofEntries?_pairs noHost inOrder cborBudget
  have kept := Dict.ofList_of_ordered (Dict.ordered_map Value.narrowed ordered)
  rw [Value.item, Cbor.hidden?, pairs]
  split
  · exact congrArg some kept
  · rfl

/-- The fields of a record's item under their names. -/
theorem fields?_asValue (wire : WireRecord) :
    ofItem? wire.asValue.item =
      ofFields? Cbor.readers [("type", (Value.text wire.schema).item),
        ("visible", (Value.list wire.visible).item),
        ("hidden", (Value.dict wire.hidden).item)] := by
  simp [asValue, Value.item, Value.pairsOf, ofItem?, Cbor.fields?, Value.text?_encode]

/-- The item of a record stands for the record in the form that is read back,
exactly if its values take few enough steps. -/
theorem ofItem?_asValue (noHost : wire.Everywhere Value.NoHost)
    (inOrder : wire.InOrder) :
    ofItem? wire.asValue.item =
      if ∀ value ∈ wire.values, value.steps ≤ cborBudget then
        some (wire.map Value.narrowed)
      else none := by
  obtain ⟨itemsNoHost, entriesNoHost⟩ := everywhere_iff.mp noHost
  obtain ⟨itemsInOrder, entriesInOrder⟩ := everywhere_iff.mp inOrder.2
  have visible := visible?_items itemsNoHost itemsInOrder
  have hidden := hidden?_pairs entriesNoHost entriesInOrder inOrder.1
  have schema := Value.text?_encode wire.schema fieldBudget
  have shallow : (∀ value ∈ wire.values, value.steps ≤ cborBudget) ↔
      Value.stepsItems wire.visible ≤ cborBudget ∧
        Value.stepsEntries wire.hidden ≤ cborBudget := by
    rw [forall_values_iff, Value.stepsItems_le_iff, Value.stepsEntries_le_iff]
  rw [fields?_asValue, ofFields?_of_all]
  simp only [Cbor.readers, visible, hidden, shallow]
  by_cases items : Value.stepsItems wire.visible ≤ cborBudget <;>
    by_cases entries : Value.stepsEntries wire.hidden ≤ cborBudget <;>
    simp [items, entries, Value.item, schema, map]

/-- A record without host objects is written, and its bytes are read exactly if no
value takes more than 254 steps. What is read then is the record itself, but for
integers in the signed variant if they fit it: floating-point values keep all
their bits. -/
theorem fromCbor?_cborBytes (noHost : wire.Everywhere Value.NoHost)
    (inOrder : wire.InOrder) (addressable : wire.Addressable) :
    ∃ bytes, wire.cborBytes = .ok bytes ∧
      ∀ found, fromCbor? bytes = some found ↔
        (∀ value ∈ wire.values, value.steps ≤ 254) ∧
          found = wire.map Value.narrowed := by
  obtain ⟨bytes, written⟩ := exists_toCbor noHost
  refine ⟨bytes, cborBytes_of_toCbor written, fun found => ?_⟩
  rw [fromCbor?_of_toCbor addressable written, ofItem?_asValue noHost inOrder]
  have limit : cborBudget = 254 := rfl
  rw [limit]
  constructor
  · intro read
    split at read
    · rename_i shallow
      exact ⟨shallow, (Option.some.inj read).symm⟩
    · cases read
  · intro ⟨shallow, same⟩
    rw [if_pos shallow, same]

theorem fromCbor?_cborBytes_sample :
    ∃ bytes, sample.cborBytes = .ok bytes ∧ fromCbor? bytes = some
      ⟨"geometry.segment",
        [.null, .bool true, .number (.signed (-7)), .number (.signed 7),
          .text "\t\x22é", .list [.list [], .number (.real ⟨0x8000000000000000⟩)]],
        [("index",
            .dict [("a", .number (.unsigned 0xffffffffffffffff)), ("b", .null)]),
          ("weight", .number (.real ⟨0x7ff8000000000000⟩))]⟩ := by
  have noHost : sample.Everywhere Value.NoHost := by decide
  have inOrder : sample.InOrder := by decide
  have addressable : sample.Addressable := by decide
  obtain ⟨bytes, written, reads⟩ := fromCbor?_cborBytes noHost inOrder addressable
  exact ⟨bytes, written, (reads _).mpr ⟨by decide, rfl⟩⟩

end WireRecord

end SlotRecord
