import SlotRecord.Proofs.Json.Decoding
import SlotRecord.Proofs.Wire.Basic
import SlotRecord.Wire.Json

/-!
# Portable records through JSON

Every record without host objects has a text, and reading the text gives the
record with its values in the form that JSON keeps. Only nesting can prevent
this: the record and the container of its values count for two of the containers
that may be open.
-/

namespace SlotRecord

open Json

namespace WireRecord

variable {wire : WireRecord}

theorem toJson_asValue (wire : WireRecord) : wire.asValue.toJson = wire.toJson := by
  cases visible : Value.itemsToJson wire.visible <;>
    cases hidden : Value.entriesToJson wire.hidden <;>
    simp [asValue, toJson, Value.toJson, Value.entriesToJson, visible, hidden, bind,
      pure, Except.bind, Except.pure, Except.map]

theorem exists_toJson (noHost : wire.Everywhere Value.NoHost) :
    ∃ text, wire.toJson = .ok text := by
  have whole := everywhere_asValue noHost rfl rfl rfl rfl
  obtain ⟨text, written⟩ := Value.exists_toJson whole
  exact ⟨text, (toJson_asValue wire).symm.trans written⟩

theorem jsonText_of_toJson {text : List Char} (written : wire.toJson = .ok text) :
    wire.jsonText = .ok (String.ofList text) := by
  simp only [jsonText, written]

/-- What is read of a record's text is what its document stands for. -/
theorem fromJson?_of_toJson {text : List Char} (written : wire.toJson = .ok text) :
    fromJson? (String.ofList text) = ofNode? wire.asValue.node := by
  have scanned := Json.read?_toJson ((toJson_asValue wire).trans written)
  rw [fromJson?, String.toList_ofList, scanned]
  rfl

theorem visible?_nodes (noHost : Value.EverywhereItems Value.NoHost wire.visible)
    (inOrder : Value.EverywhereItems Value.InOrder wire.visible) :
    Json.visible? (Value.list wire.visible).node =
      if Value.depthItems wire.visible ≤ jsonBudget then
        some (wire.visible.map Value.jsonForm)
      else none :=
  Value.ofNodes?_nodes noHost inOrder jsonBudget

theorem hidden?_members (noHost : Value.EverywhereEntries Value.NoHost wire.hidden)
    (inOrder : Value.EverywhereEntries Value.InOrder wire.hidden)
    (ordered : Dict.Ordered wire.hidden) :
    Json.hidden? (Value.dict wire.hidden).node =
      if Value.depthEntries wire.hidden ≤ jsonBudget then
        some (wire.hidden.map fun entry => (entry.1, entry.2.jsonForm))
      else none := by
  have members := Value.ofMembers?_members noHost inOrder jsonBudget
  have kept := Dict.ofList_of_ordered (Dict.ordered_map Value.jsonForm ordered)
  rw [Value.node, Json.hidden?, members]
  split
  · exact congrArg some kept
  · rfl

/-- The document of a record stands for the record in the form that JSON keeps,
exactly if its values are shallow enough. -/
theorem ofNode?_asValue (noHost : wire.Everywhere Value.NoHost)
    (inOrder : wire.InOrder) :
    ofNode? wire.asValue.node =
      if ∀ value ∈ wire.values, value.depth ≤ jsonBudget then
        some (wire.map Value.jsonForm)
      else none := by
  obtain ⟨itemsNoHost, entriesNoHost⟩ := everywhere_iff.mp noHost
  obtain ⟨itemsInOrder, entriesInOrder⟩ := everywhere_iff.mp inOrder.2
  have visible := visible?_nodes itemsNoHost itemsInOrder
  have hidden := hidden?_members entriesNoHost entriesInOrder inOrder.1
  have fields := ofFields?_of_all Json.readers (Value.text wire.schema).node
    (Value.list wire.visible).node (Value.dict wire.hidden).node
  have shallow : (∀ value ∈ wire.values, value.depth ≤ jsonBudget) ↔
      Value.depthItems wire.visible ≤ jsonBudget ∧
        Value.depthEntries wire.hidden ≤ jsonBudget := by
    rw [forall_values_iff, Value.depthItems_le_iff, Value.depthEntries_le_iff]
  have decoded : ofNode? wire.asValue.node =
      ofFields? Json.readers [("type", (Value.text wire.schema).node),
        ("visible", (Value.list wire.visible).node),
        ("hidden", (Value.dict wire.hidden).node)] := rfl
  rw [decoded, fields]
  simp only [Json.readers, visible, hidden, shallow]
  by_cases items : Value.depthItems wire.visible ≤ jsonBudget <;>
    by_cases entries : Value.depthEntries wire.hidden ≤ jsonBudget <;>
    simp [items, entries, Value.node, Json.schema?, map]

/-- A record without host objects is written, and its text is read exactly if no
value nests more than 125 containers. What is read then is the record itself,
but for integers in the signed variant if they fit it and null for what is not
finite. -/
theorem fromJson?_jsonText (noHost : wire.Everywhere Value.NoHost)
    (inOrder : wire.InOrder) :
    ∃ text, wire.jsonText = .ok text ∧
      ∀ found, fromJson? text = some found ↔
        (∀ value ∈ wire.values, value.depth ≤ 125) ∧
          found = wire.map Value.jsonForm := by
  obtain ⟨text, written⟩ := exists_toJson noHost
  refine ⟨String.ofList text, jsonText_of_toJson written, fun found => ?_⟩
  rw [fromJson?_of_toJson written, ofNode?_asValue noHost inOrder]
  have limit : jsonBudget = 125 := rfl
  rw [limit]
  constructor
  · intro read
    split at read
    · rename_i shallow
      exact ⟨shallow, (Option.some.inj read).symm⟩
    · cases read
  · intro ⟨shallow, same⟩
    rw [if_pos shallow, same]

theorem fromJson?_jsonText_sample :
    ∃ text, sample.jsonText = .ok text ∧ fromJson? text = some
      ⟨"geometry.segment",
        [.null, .bool true, .number (.signed (-7)), .number (.signed 7),
          .text "\t\x22é", .list [.list [], .number (.real ⟨0x8000000000000000⟩)]],
        [("index",
            .dict [("a", .number (.unsigned 0xffffffffffffffff)), ("b", .null)]),
          ("weight", .null)]⟩ := by
  have noHost : sample.Everywhere Value.NoHost := by decide
  have inOrder : sample.InOrder := by decide
  obtain ⟨text, written, reads⟩ := fromJson?_jsonText noHost inOrder
  exact ⟨text, written, (reads _).mpr ⟨by decide, rfl⟩⟩

end WireRecord

end SlotRecord
