import SlotRecord.Proofs.Value.Everywhere
import SlotRecord.Wire.Basic

/-!
# Portable records as values

What is written of a portable record is a dictionary of its three fields. Read
back in this order, the fields make up the record again.
-/

namespace SlotRecord

namespace WireRecord

/-- The visible values and, after them, the hidden ones. -/
def values (wire : WireRecord) : List Value :=
  wire.visible ++ wire.hidden.map Prod.snd

/-- Whether all values of a record and all values inside them have a property. -/
def Everywhere (property : Value → Prop) (wire : WireRecord) : Prop :=
  ∀ value ∈ wire.values, value.Everywhere property

/-- Whether the hidden values and all dictionaries are in the order of their keys. -/
def InOrder (wire : WireRecord) : Prop :=
  Dict.Ordered wire.hidden ∧ wire.Everywhere Value.InOrder

instance {property : Value → Prop} [DecidablePred property] :
    DecidablePred (Everywhere property) := fun wire =>
  inferInstanceAs (Decidable (∀ value ∈ wire.values, value.Everywhere property))

instance : DecidablePred InOrder := fun wire =>
  have : Decidable (Dict.Ordered wire.hidden) :=
    inferInstanceAs (Decidable (List.Pairwise _ wire.hidden))
  inferInstanceAs (Decidable (Dict.Ordered wire.hidden ∧ wire.Everywhere Value.InOrder))

/-- A record with all its values replaced. -/
def map (change : Value → Value) (wire : WireRecord) : WireRecord :=
  ⟨wire.schema, wire.visible.map change,
    wire.hidden.map fun entry => (entry.1, change entry.2)⟩

/-- The three fields of a record in the order in which they are written. -/
def asValue (wire : WireRecord) : Value :=
  .dict [("type", .text wire.schema), ("visible", .list wire.visible),
    ("hidden", .dict wire.hidden)]

/-- A record with a value of every kind that can be written. -/
def sample : WireRecord :=
  ⟨"geometry.segment",
    [.null, .bool true, .number (.signed (-7)), .number (.unsigned 7), .text "\t\x22é",
      .list [.list [], .number (.real ⟨0x8000000000000000⟩)]],
    [("index", .dict [("a", .number (.unsigned 0xffffffffffffffff)), ("b", .null)]),
      ("weight", .number (.real ⟨0x7ff8000000000000⟩))]⟩

variable {wire : WireRecord}

theorem forall_values_iff {property : Value → Prop} :
    (∀ value ∈ wire.values, property value) ↔
      (∀ item ∈ wire.visible, property item) ∧
        ∀ entry ∈ wire.hidden, property entry.2 := by
  rw [values, List.forall_mem_append, List.forall_mem_map]

theorem everywhere_iff {property : Value → Prop} :
    wire.Everywhere property ↔
      Value.EverywhereItems property wire.visible ∧
        Value.EverywhereEntries property wire.hidden := by
  rw [Everywhere, forall_values_iff, Value.everywhereItems_iff,
    Value.everywhereEntries_iff]

theorem map_id (wire : WireRecord) : wire.map id = wire := by
  show ⟨wire.schema, wire.visible.map id, wire.hidden.map id⟩ = wire
  rw [List.map_id, List.map_id]

theorem map_congr {change other : Value → Value}
    (same : ∀ value ∈ wire.values, change value = other value) :
    wire.map change = wire.map other := by
  obtain ⟨items, entries⟩ := forall_values_iff.mp same
  have visible := List.map_congr_left items
  have hidden : (wire.hidden.map fun entry => (entry.1, change entry.2)) =
      wire.hidden.map fun entry => (entry.1, other entry.2) := by
    apply List.map_congr_left
    intro entry member
    rw [entries entry member]
  rw [map, map, visible, hidden]

/-- What holds everywhere in a record and for its three fields holds everywhere
in what is written of it. -/
theorem everywhere_asValue {property : Value → Prop}
    (everywhere : wire.Everywhere property) (whole : property wire.asValue)
    (schema : property (.text wire.schema))
    (visible : property (.list wire.visible)) (hidden : property (.dict wire.hidden)) :
    wire.asValue.Everywhere property := by
  obtain ⟨items, entries⟩ := everywhere_iff.mp everywhere
  rw [asValue] at whole ⊢
  simp only [Value.Everywhere, Value.EverywhereEntries]
  exact ⟨whole, schema, ⟨visible, items⟩, ⟨hidden, entries⟩, trivial⟩

/-- The three fields make up a record as soon as each of them can be read. -/
theorem ofFields?_of_all {α : Type} (readers : FieldReaders α)
    (schema visible hidden : α) :
    ofFields? readers [("type", schema), ("visible", visible), ("hidden", hidden)] = do
      return ⟨← readers.schema schema, ← readers.visible visible,
        ← readers.hidden hidden⟩ := by
  cases name : readers.schema schema <;> cases items : readers.visible visible <;>
    cases entries : readers.hidden hidden <;>
    simp [ofFields?, Draft.accept, Draft.blank, Draft.finish, name, items, entries]

/-- Without the third field there are no hidden values. -/
theorem ofFields?_of_two {α : Type} (readers : FieldReaders α) (schema visible : α) :
    ofFields? readers [("type", schema), ("visible", visible)] = do
      return ⟨← readers.schema schema, ← readers.visible visible, []⟩ := by
  cases name : readers.schema schema <;> cases items : readers.visible visible <;>
    simp [ofFields?, Draft.accept, Draft.blank, Draft.finish, name, items]

end WireRecord

end SlotRecord
