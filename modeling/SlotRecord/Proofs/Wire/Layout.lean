import SlotRecord.Proofs.Cbor.Skipping
import SlotRecord.Proofs.Wire.Fields
import SlotRecord.Proofs.Wire.Sources

/-!
# Layouts of portable records

What a record is read from may hold its fields in any order and others between them. Only
what the fields of the three names decode to counts. In JSON the three may also stand in
an array. So all layouts of the same fields are read as the same record.
-/

namespace SlotRecord

open Json Cbor

namespace WireRecord

section

variable {α : Type} {readers : FieldReaders α} {fields others : List (String × α)}
  {wire : WireRecord}

/-- Whether the readers of the three fields give just what a source decodes to, if it is
what the field holds. -/
structure FieldReaders.AgreeWith (readers : FieldReaders α) (decode : α → Option Value) :
    Prop where
  schema : ∀ content found, readers.schema content = some found ↔
    decode content = some (.text found)
  visible : ∀ content found, readers.visible content = some found ↔
    decode content = some (.list found)
  hidden : ∀ content found, readers.hidden content = some found ↔
    decode content = some (.dict found)

/-- Whether fields are those of a record, in whatever order and among whatever others. -/
@[mk_iff]
structure LaidOut (decode : α → Option Value) (fields : List (String × α))
    (wire : WireRecord) : Prop where
  schema : readings decode "type" fields = [some (.text wire.schema)]
  visible : readings decode "visible" fields = [some (.list wire.visible)]
  hidden : readings decode "hidden" fields = [some (.dict wire.hidden)] ∨
    readings decode "hidden" fields = [] ∧ wire.hidden = []

variable {decode : α → Option Value}

theorem ofFields?_iff_laidOut (agree : readers.AgreeWith decode)
    (others : ∀ field ∈ fields, field.1 ∉ names → readers.skips field.2 = true) :
    ofFields? readers fields = some wire ↔ LaidOut decode fields wire := by
  rw [ofFields?_eq_some_iff,
    readings_eq_singleton_iff fun content => agree.schema content wire.schema,
    readings_eq_singleton_iff fun content => agree.visible content wire.visible,
    readings_eq_singleton_iff fun content => agree.hidden content wire.hidden,
    readings_eq_nil_iff readers.hidden decode]
  constructor
  · rintro ⟨named, listed, filed, _⟩
    exact ⟨named, listed, filed⟩
  · rintro ⟨named, listed, filed⟩
    exact ⟨named, listed, filed, others⟩

theorem exists_laidOut_iff :
    (∃ wire, LaidOut decode fields wire) ↔
      (∃ schema, readings decode "type" fields = [some (.text schema)]) ∧
      (∃ visible, readings decode "visible" fields = [some (.list visible)]) ∧
      (readings decode "hidden" fields = [] ∨
        ∃ hidden, readings decode "hidden" fields = [some (.dict hidden)]) := by
  constructor
  · rintro ⟨wire, schema, visible, present | ⟨absent, _⟩⟩
    · exact ⟨⟨_, schema⟩, ⟨_, visible⟩, .inr ⟨_, present⟩⟩
    · exact ⟨⟨_, schema⟩, ⟨_, visible⟩, .inl absent⟩
  · rintro ⟨⟨schema, named⟩, ⟨visible, listed⟩, absent | ⟨hidden, present⟩⟩
    · exact ⟨⟨schema, visible, []⟩, named, listed, .inr ⟨absent, rfl⟩⟩
    · exact ⟨⟨schema, visible, hidden⟩, named, listed, .inl present⟩

/-- Fields are those of a record whatever their order is. -/
theorem LaidOut.perm (laid : LaidOut decode fields wire) (same : fields.Perm others) :
    LaidOut decode others wire where
  schema := readings_eq_singleton_of_perm same laid.schema
  visible := readings_eq_singleton_of_perm same laid.visible
  hidden := by
    rcases laid.hidden with present | ⟨absent, empty⟩
    · exact .inl (readings_eq_singleton_of_perm same present)
    · exact .inr ⟨readings_eq_nil_of_perm same absent, empty⟩

theorem laidOut_known (fields : List (String × α)) :
    LaidOut decode (known fields) wire ↔ LaidOut decode fields wire := by
  rw [laidOut_iff, laidOut_iff, readings_known, readings_known, readings_known] <;>
    simp [names]

theorem laidOut_congr (same : (known fields).Perm (known others)) :
    LaidOut decode fields wire ↔ LaidOut decode others wire := by
  rw [← laidOut_known fields, ← laidOut_known others]
  exact ⟨fun laid => laid.perm same, fun laid => laid.perm same.symm⟩

end

/-- What reading records from sources that hold fields depends on. Here `decode` is how the
content of a field is decoded, whatever its name. -/
structure LayoutFree {σ α : Type} (holds : σ → List (String × α) → Prop)
    (decode : α → Option Value) (read : σ → Option WireRecord) : Prop where
  reads : ∀ source fields wire, holds source fields →
    (read source = some wire ↔ LaidOut decode fields wire)
  accepts : ∀ source fields, holds source fields →
    ((∃ wire, read source = some wire) ↔
      (∃ schema, readings decode "type" fields = [some (.text schema)]) ∧
      (∃ visible, readings decode "visible" fields = [some (.list visible)]) ∧
      (readings decode "hidden" fields = [] ∨
        ∃ hidden, readings decode "hidden" fields = [some (.dict hidden)]))
  reordered : ∀ source other fields others, holds source fields → holds other others →
    fields.Perm others → read source = read other
  extended : ∀ source other fields others, holds source fields → holds other others →
    known fields = known others → read source = read other
  unhidden : ∀ source fields wire, holds source fields → read source = some wire →
    (∀ field ∈ fields, field.1 ≠ "hidden") → wire.hidden = []

section

variable {σ α : Type} {holds : σ → List (String × α) → Prop} {decode : α → Option Value}
  {read : σ → Option WireRecord}

theorem layoutFree_of_reads (reads : ∀ source fields wire, holds source fields →
    (read source = some wire ↔ LaidOut decode fields wire)) : LayoutFree holds decode read := by
  have alike : ∀ source other fields others, holds source fields → holds other others →
      (known fields).Perm (known others) → read source = read other := by
    intro source other fields others one two same
    apply Option.ext
    intro wire
    rw [reads source fields wire one, reads other others wire two, laidOut_congr same]
  constructor
  case reads => exact reads
  case accepts =>
    intro source fields held
    rw [← exists_laidOut_iff]
    exact exists_congr fun wire => reads source fields wire held
  case reordered =>
    intro source other fields others one two same
    exact alike source other fields others one two (same.filter _)
  case extended =>
    intro source other fields others one two same
    exact alike source other fields others one two (same ▸ List.Perm.refl _)
  case unhidden =>
    intro source fields wire held found absent
    rcases ((reads source fields wire held).mp found).hidden with present | ⟨_, empty⟩
    · cases (readings_eq_nil_of_ne absent).symm.trans present
    · exact empty

end

theorem Json.agreeWith_ofNode? :
    Json.readers.AgreeWith (Value.ofNode? (jsonBudget + 1)) := by
  have decodes := Json.decodeBy_ofNode?
  constructor
  · intro content found
    refine ⟨decodes.schema content found, ?_⟩
    intro decoded
    cases Value.stems_of_ofNode? decoded with
    | scalar form flat => cases flat
    | text => rfl
  · intro content found
    refine ⟨decodes.visible content found, ?_⟩
    intro decoded
    cases Value.stems_of_ofNode? decoded with
    | scalar form flat => cases flat
    | list read => exact read
  · intro content found
    refine ⟨decodes.hidden content found, ?_⟩
    intro decoded
    cases Value.stems_of_ofNode? decoded with
    | scalar form flat => cases flat
    | dict read => exact Option.map_eq_some_iff.mpr ⟨_, read, rfl⟩

theorem Cbor.agreeWith_ofItem? :
    Cbor.readers.AgreeWith (Value.ofItem? (fieldBudget + 1)) := by
  have decodes := Cbor.decodeBy_ofItem?
  constructor
  · intro content found
    refine ⟨decodes.schema content found, ?_⟩
    intro decoded
    cases Value.stems_of_ofItem? decoded with
    | scalar form flat => cases flat
    | text read => exact read
  · intro content found
    refine ⟨decodes.visible content found, ?_⟩
    intro decoded
    cases Value.stems_of_ofItem? decoded with
    | scalar form flat => cases flat
    | list read => exact read
  · intro content found
    refine ⟨decodes.hidden content found, ?_⟩
    intro decoded
    cases Value.stems_of_ofItem? decoded with
    | scalar form flat => cases flat
    | dict read => exact Option.map_eq_some_iff.mpr ⟨_, read, rfl⟩

/-- Whether a text is an object of some members. -/
def HoldsJson (text : String) (fields : List (String × Node)) : Prop :=
  Node.read? text.toList = some (.object (fields.map fun field => (some field.1, field.2)))

/-- Whether bytes are a map with texts for keys, in which what is not of the record can be
decoded for itself. -/
structure HoldsCbor (bytes : List UInt8) (fields : List (String × Item)) : Prop where
  entries : ∃ entries, Item.read? bytes = some (.map entries) ∧
    Cbor.fields? entries = some fields
  others : ∀ field ∈ fields, field.1 ∉ names →
    ∃ value, Value.ofItem? Cbor.nestingLimit field.2 = some value

theorem Json.fields?_map (fields : List (String × Node)) :
    Json.fields? (fields.map fun field => (some field.1, field.2)) = some fields := by
  induction fields with
  | nil => rfl
  | cons field rest induction =>
      rw [List.map_cons, Json.fields?, induction]
      rfl

theorem fromJson?_of_holds {text : String} {fields : List (String × Node)}
    (held : HoldsJson text fields) : fromJson? text = ofFields? Json.readers fields := by
  rw [fromJson?, held, Option.bind_some, ofNode?, Json.fields?_map, Option.bind_some]

theorem fromCbor?_of_holds {bytes : List UInt8} {fields : List (String × Item)}
    (held : HoldsCbor bytes fields) : fromCbor? bytes = ofFields? Cbor.readers fields := by
  obtain ⟨entries, scanned, named⟩ := held.entries
  rw [fromCbor?, scanned, Option.bind_some, ofItem?, named, Option.bind_some]

section

variable {text : String} {fields : List (String × Node)}

theorem fromJson?_of_holds_perm (held : HoldsJson text fields) (others : List (String × Node))
    (same : (known fields).Perm (known others)) :
    fromJson? text = ofFields? Json.readers others := by
  rw [fromJson?_of_holds held]
  apply Option.ext
  intro wire
  have skipped : ∀ fields : List (String × Node), ∀ field ∈ fields, field.1 ∉ names →
      Json.readers.skips field.2 = true := fun _ _ _ _ => rfl
  rw [ofFields?_iff_laidOut Json.agreeWith_ofNode? (skipped fields),
    ofFields?_iff_laidOut Json.agreeWith_ofNode? (skipped others), laidOut_congr same]

end

/-- Reading a record depends on what the fields of the three names decode to, not on where
they stand or on what stands between them, and arrays of two or three fields are read as
objects of the same fields are. -/
theorem layout_irrelevant :
    LayoutFree HoldsJson (Value.ofNode? (Json.nestingLimit - 1)) fromJson? ∧
    LayoutFree HoldsCbor (Value.ofItem? Cbor.nestingLimit) fromCbor? ∧
    ∀ text array fields, HoldsJson text fields →
      (∀ schema visible, Node.read? array.toList = some (.array [schema, visible]) →
        (known fields).Perm [("type", schema), ("visible", visible)] →
          fromJson? array = fromJson? text) ∧
      ∀ schema visible hidden,
        Node.read? array.toList = some (.array [schema, visible, hidden]) →
          (known fields).Perm [("type", schema), ("visible", visible), ("hidden", hidden)] →
            fromJson? array = fromJson? text := by
  refine ⟨?_, ?_, ?_⟩
  · apply layoutFree_of_reads
    intro text fields wire held
    rw [fromJson?_of_holds held]
    exact ofFields?_iff_laidOut Json.agreeWith_ofNode? (fun _ _ _ => rfl)
  · apply layoutFree_of_reads
    intro bytes fields wire held
    rw [fromCbor?_of_holds held]
    apply ofFields?_iff_laidOut Cbor.agreeWith_ofItem?
    intro field member other
    obtain ⟨value, decoded⟩ := held.others field member other
    exact Value.skips_of_ofItem? decoded (by decide)
  · intro text array fields held
    constructor
    · intro schema visible scanned same
      rw [fromJson?_of_holds_perm held [("type", schema), ("visible", visible)] same,
        ofFields?_of_two, fromJson?, scanned]
      rfl
    · intro schema visible hidden scanned same
      rw [fromJson?_of_holds_perm held
        [("type", schema), ("visible", visible), ("hidden", hidden)] same,
        ofFields?_of_all, fromJson?, scanned]
      rfl

/-- A text in which a member that occurs twice stands between those of a record. -/
def scattered : String :=
  "\x7b\x22x\x22: true, \x22visible\x22: [null], \x22x\x22: \x7b\x7d, " ++
    "\x22type\x22: \x22t\x22\x7d"

/-- The same as bytes. -/
def scatteredBytes : List UInt8 :=
  [0xa4, 0x61, 0x78, 0xf5, 0x67, 0x76, 0x69, 0x73, 0x69, 0x62, 0x6c, 0x65, 0x81, 0xf6,
    0x61, 0x78, 0xa0, 0x64, 0x74, 0x79, 0x70, 0x65, 0x61, 0x74]

theorem layout_irrelevant_scattered :
    fromJson? scattered = some ⟨"t", [.null], []⟩ ∧
    fromJson? "[\x22t\x22, [null]]" = fromJson? scattered ∧
    fromCbor? scatteredBytes = some ⟨"t", [.null], []⟩ := by
  obtain ⟨json, cbor, arrays⟩ := layout_irrelevant
  have held : HoldsJson scattered [("x", .bool true), ("visible", .array [.null]),
      ("x", .object []), ("type", .string (some "t"))] := by
    have scanned : Node.read? scattered.toList = some (.object [(some "x", .bool true),
        (some "visible", .array [.null]), (some "x", .object []),
        (some "type", .string (some "t"))]) := by cbv
    exact scanned
  refine ⟨?_, ?_, ?_⟩
  · apply (json.reads _ _ _ held).mpr
    exact ⟨rfl, rfl, .inr ⟨rfl, rfl⟩⟩
  · apply (arrays _ _ _ held).1 (.string (some "t")) (.array [.null])
    · cbv
    · exact List.Perm.swap _ _ _
  · have heldBytes : HoldsCbor scatteredBytes [("x", .bool true),
        ("visible", .array [.null]), ("x", .map []), ("type", .text (Utf8.encode "t"))] := by
      constructor
      · have scanned : Item.read? scatteredBytes = some (.map
            [(.text (Utf8.encode "x"), .bool true),
              (.text (Utf8.encode "visible"), .array [.null]),
              (.text (Utf8.encode "x"), .map []),
              (.text (Utf8.encode "type"), .text (Utf8.encode "t"))]) := rfl
        exact ⟨_, scanned, rfl⟩
      · intro field member _
        simp only [List.mem_cons, List.not_mem_nil, or_false] at member
        rcases member with rfl | rfl | rfl | rfl
        · exact ⟨_, rfl⟩
        · exact ⟨_, rfl⟩
        · exact ⟨_, rfl⟩
        · exact ⟨.text "t", rfl⟩
    apply (cbor.reads _ _ _ heldBytes).mpr
    exact ⟨rfl, rfl, .inr ⟨rfl, rfl⟩⟩

end WireRecord

end SlotRecord
