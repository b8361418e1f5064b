import SlotRecord.Proofs.Value.Hosts
import SlotRecord.Proofs.Wire.Cbor
import SlotRecord.Proofs.Wire.Json

/-!
# Refusals to write

Values and portable records can be written if no host object is in them, whatever else
they hold. Otherwise both formats refuse them for the same host object: the first one of
the visible values or, if those have none, of the hidden ones.
-/

namespace SlotRecord

namespace WireRecord

/-- Which host object comes first in a record: the visible values precede the hidden
ones. -/
inductive FirstHost (wire : WireRecord) : Host → Prop
  | visible {object : Host} : (Value.list wire.visible).FirstHost object →
      FirstHost wire object
  | hidden {object : Host} : (Value.list wire.visible).Everywhere Value.NoHost →
      (Value.dict wire.hidden).FirstHost object → FirstHost wire object

theorem everywhere_iff_containers {property : Value → Prop} {wire : WireRecord}
    (visible : property (.list wire.visible)) (hidden : property (.dict wire.hidden)) :
    wire.Everywhere property ↔ (Value.list wire.visible).Everywhere property ∧
      (Value.dict wire.hidden).Everywhere property := by
  rw [everywhere_iff, Value.Everywhere, Value.Everywhere, and_iff_right visible,
    and_iff_right hidden]

theorem noHost_iff_containers (wire : WireRecord) :
    wire.Everywhere Value.NoHost ↔ (Value.list wire.visible).Everywhere Value.NoHost ∧
      (Value.dict wire.hidden).Everywhere Value.NoHost :=
  everywhere_iff_containers rfl rfl

section

variable {wire : WireRecord} (inOrder : wire.InOrder)

include inOrder

theorem inOrder_containers : (Value.list wire.visible).Everywhere Value.InOrder ∧
    (Value.dict wire.hidden).Everywhere Value.InOrder :=
  (everywhere_iff_containers trivial inOrder.1).mp inOrder.2

theorem noHost_or_firstHost :
    wire.Everywhere Value.NoHost ∨ ∃ object, wire.FirstHost object := by
  obtain ⟨visible, hidden⟩ := inOrder_containers inOrder
  rw [noHost_iff_containers]
  rcases Value.noHost_or_firstHost _ visible with none | ⟨object, first⟩
  · rcases Value.noHost_or_firstHost _ hidden with nothing | ⟨object, first⟩
    · exact .inl ⟨none, nothing⟩
    · exact .inr ⟨object, .hidden none first⟩
  · exact .inr ⟨object, .visible first⟩

theorem FirstHost.unique {object other : Host} (first : wire.FirstHost object)
    (second : wire.FirstHost other) : object = other := by
  obtain ⟨visible, hidden⟩ := inOrder_containers inOrder
  cases first with
  | visible one =>
      cases second with
      | visible two => exact one.unique visible two
      | hidden none _ => exact absurd none (Value.not_noHost_of_firstHost one)
  | hidden none one =>
      cases second with
      | visible two => exact absurd none (Value.not_noHost_of_firstHost two)
      | hidden _ two => exact one.unique hidden two

end

section

variable {α : Type} {write : Value → Except Unwritable α}

theorem refusal?_asValue (writes : Writes write) (wire : WireRecord) :
    refusal? (write wire.asValue) = (refusal? (write (.list wire.visible))).or
      (refusal? (write (.dict wire.hidden))) := by
  have schema : refusal? (write (.text wire.schema)) = none :=
    writes.inside (.text wire.schema) rfl
  rw [writes.inside wire.asValue rfl]
  simp only [asValue, Value.parts, List.map_cons, List.map_nil, List.findSome?_cons,
    List.findSome?_nil, schema]
  cases refusal? (write (.list wire.visible)) <;>
    cases refusal? (write (.dict wire.hidden)) <;> rfl

theorem refusal?_asValue_eq_none_iff (writes : Writes write) (wire : WireRecord) :
    refusal? (write wire.asValue) = none ↔ wire.Everywhere Value.NoHost := by
  rw [refusal?_asValue writes, Option.or_eq_none_iff, writes.refusal?_eq_none_iff,
    writes.refusal?_eq_none_iff, noHost_iff_containers]

theorem refusal?_asValue_of_firstHost (writes : Writes write) {wire : WireRecord}
    {object : Host} (inOrder : wire.InOrder) (first : wire.FirstHost object) :
    refusal? (write wire.asValue) = some ⟨object.typeName⟩ := by
  obtain ⟨visible, hidden⟩ := inOrder_containers inOrder
  rw [refusal?_asValue writes]
  cases first with
  | visible first => rw [writes.refusal?_of_firstHost visible first, Option.some_or]
  | hidden none first =>
      rw [(writes.refusal?_eq_none_iff _).mpr none, Option.none_or,
        writes.refusal?_of_firstHost hidden first]

end

theorem exists_jsonText_iff (wire : WireRecord) :
    (∃ text, wire.jsonText = .ok text) ↔ refusal? wire.toJson = none := by
  rw [jsonText]
  cases wire.toJson <;> simp [refusal?]

theorem jsonText_of_refusal? {wire : WireRecord} {refusal : Unwritable}
    (refused : refusal? wire.toJson = some refusal) :
    wire.jsonText = .error (.serialization refusal.message) := by
  rw [jsonText, refusal?_eq_some_iff.mp refused]

theorem exists_cborBytes_iff (wire : WireRecord) :
    (∃ bytes, wire.cborBytes = .ok bytes) ↔ refusal? wire.toCbor = none := by
  rw [cborBytes]
  cases wire.toCbor <;> simp [refusal?]

theorem cborBytes_of_refusal? {wire : WireRecord} {refusal : Unwritable}
    (refused : refusal? wire.toCbor = some refusal) :
    wire.cborBytes = .error (.serialization s!"CBOR encode: {refusal.inspect}") := by
  rw [cborBytes, refusal?_eq_some_iff.mp refused]

end WireRecord

/-- Whether both formats refuse a value exactly if a host object is in it, and for the one
that comes first. -/
structure Value.RefusedForHosts (value : Value) : Prop where
  json : (∃ text, value.toJson = .ok text) ↔ value.Everywhere NoHost
  cbor : (∃ bytes, value.toCbor = .ok bytes) ↔ value.Everywhere NoHost
  first : value.Everywhere InOrder → ¬value.Everywhere NoHost →
    ∃ object, value.FirstHost object ∧ (∀ other, value.FirstHost other → other = object) ∧
      value.toJson = .error ⟨object.typeName⟩ ∧ value.toCbor = .error ⟨object.typeName⟩

/-- The same for a record, whose refusal is told as a fault. -/
structure WireRecord.RefusedForHosts (wire : WireRecord) : Prop where
  json : (∃ text, wire.jsonText = .ok text) ↔ wire.Everywhere Value.NoHost
  cbor : (∃ bytes, wire.cborBytes = .ok bytes) ↔ wire.Everywhere Value.NoHost
  first : wire.InOrder → ¬wire.Everywhere Value.NoHost →
    ∃ object, wire.FirstHost object ∧ (∀ other, wire.FirstHost other → other = object) ∧
      wire.jsonText = .error (.serialization (Unwritable.message ⟨object.typeName⟩)) ∧
      wire.cborBytes =
        .error (.serialization s!"CBOR encode: {Unwritable.inspect ⟨object.typeName⟩}")

theorem Value.refusedForHosts (value : Value) : value.RefusedForHosts := by
  constructor
  · rw [← refusal?_eq_none_iff, writes_toJson.refusal?_eq_none_iff]
  · rw [← refusal?_eq_none_iff, writes_toCbor.refusal?_eq_none_iff]
  · intro inOrder some
    obtain ⟨object, first⟩ := (value.noHost_or_firstHost inOrder).resolve_left some
    refine ⟨object, first, fun other second => second.unique inOrder first, ?_, ?_⟩
    · exact refusal?_eq_some_iff.mp (writes_toJson.refusal?_of_firstHost inOrder first)
    · exact refusal?_eq_some_iff.mp (writes_toCbor.refusal?_of_firstHost inOrder first)

theorem WireRecord.refusedForHosts (wire : WireRecord) : wire.RefusedForHosts := by
  constructor
  · rw [exists_jsonText_iff, ← toJson_asValue, refusal?_asValue_eq_none_iff
      Value.writes_toJson]
  · rw [exists_cborBytes_iff, ← toCbor_asValue, refusal?_asValue_eq_none_iff
      Value.writes_toCbor]
  · intro inOrder some
    obtain ⟨object, first⟩ := (noHost_or_firstHost inOrder).resolve_left some
    refine ⟨object, first, fun other second => second.unique inOrder first, ?_, ?_⟩
    · apply jsonText_of_refusal?
      rw [← toJson_asValue]
      exact refusal?_asValue_of_firstHost Value.writes_toJson inOrder first
    · apply cborBytes_of_refusal?
      rw [← toCbor_asValue]
      exact refusal?_asValue_of_firstHost Value.writes_toCbor inOrder first

/-- Values and records are written unless a host object is in them, at any depth. If one
is, both formats refuse them and name the type of the same object, the first one. -/
theorem refused_for_first_host :
    (∀ value : Value, value.RefusedForHosts) ∧ ∀ wire : WireRecord, wire.RefusedForHosts :=
  ⟨Value.refusedForHosts, WireRecord.refusedForHosts⟩

/-- A host object that is known by the name of its type. -/
def Host.typed (typeName : String) : Host := ⟨typeName, typeName, .ok typeName, .ok 0⟩

/-- Host objects in a nested dictionary and among the hidden values. -/
def WireRecord.hosting : WireRecord :=
  ⟨"samples.hosting",
    [.number (.real ⟨0x7ff8000000000000⟩),
      .dict [("Z", .list [.host (.typed "Late"), .host (.typed "Later")]),
        ("é", .host (.typed "Last"))]],
    [("a", .host (.typed "Hidden"))]⟩

theorem refused_for_first_host_nested :
    WireRecord.hosting.jsonText =
        .error (.serialization "host object of type Late is not serializable") ∧
      WireRecord.hosting.cborBytes =
        .error (.serialization ("CBOR encode: " ++ Unwritable.inspect ⟨"Late"⟩)) ∧
      ∃ bytes, (Value.number (.real ⟨0x7ff8000000000000⟩)).toCbor = .ok bytes := by
  have items : (Value.list [.host (.typed "Late"), .host (.typed "Later")]).FirstHost
      (.typed "Late") := by
    apply (Value.firstHost_iff (by decide)).mpr
    exact .inr ⟨[], _, [_], rfl, by simp, .here _⟩
  have entries : (Value.dict [("Z", .list [.host (.typed "Late"), .host (.typed "Later")]),
      ("é", .host (.typed "Last"))]).FirstHost (.typed "Late") := by
    apply (Value.firstHost_iff (by decide)).mpr
    exact .inr ⟨[], _, [_], rfl, by simp, items⟩
  have first : WireRecord.hosting.FirstHost (.typed "Late") := by
    apply WireRecord.FirstHost.visible
    apply (Value.firstHost_iff (by decide)).mpr
    exact .inr ⟨[.number (.real ⟨0x7ff8000000000000⟩)], _, [], rfl, by decide, entries⟩
  obtain ⟨object, _, unique, json, cbor⟩ :=
    (refused_for_first_host.2 .hosting).first (by decide) (by decide)
  cases unique _ first
  refine ⟨json, cbor, ?_⟩
  exact (refused_for_first_host.1 (.number (.real ⟨0x7ff8000000000000⟩))).cbor.mpr
    (by decide)

end SlotRecord
