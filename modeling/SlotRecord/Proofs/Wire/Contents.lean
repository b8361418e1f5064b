import SlotRecord.Proofs.Value.Decoder
import SlotRecord.Proofs.Wire.Basic

/-!
# Where the contents of a portable record come from

Each field of a record that is read is what one of the fields in the source decodes
to; only the hidden values may be missing there. Reading one field adds at most what
this field decodes to, and so does a run over all of them.
-/

namespace SlotRecord

namespace WireRecord

/-- The values of the three fields of a record. -/
def contents (wire : WireRecord) : List Value :=
  [.text wire.schema, .list wire.visible, .dict wire.hidden]

/-- Whether the contents of a record are what parts of its source decode to. Hidden
values that are missing there are an empty dictionary. -/
def StemsFrom {α : Type} (parts : List α) (decode : α → Option Value)
    (wire : WireRecord) : Prop :=
  ∀ content ∈ wire.contents,
    content = .dict [] ∨ ∃ part ∈ parts, decode part = some content

/-- The values of the fields read so far. -/
def Draft.contents (draft : Draft) : List Value :=
  (draft.schema.map Value.text).toList ++ (draft.visible.map Value.list).toList ++
    (draft.hidden.map Value.dict).toList

/-- Whether what the readers of the three fields give is what a source decodes to. -/
structure FieldReaders.DecodeBy {α : Type} (readers : FieldReaders α)
    (decode : α → Option Value) : Prop where
  schema : ∀ source found, readers.schema source = some found →
    decode source = some (.text found)
  visible : ∀ source found, readers.visible source = some found →
    decode source = some (.list found)
  hidden : ∀ source found, readers.hidden source = some found →
    decode source = some (.dict found)

theorem Draft.mem_contents_iff {draft : Draft} {content : Value} :
    content ∈ draft.contents ↔
      (∃ schema, draft.schema = some schema ∧ content = .text schema) ∨
        (∃ visible, draft.visible = some visible ∧ content = .list visible) ∨
        ∃ hidden, draft.hidden = some hidden ∧ content = .dict hidden := by
  simp [contents, eq_comm]

section

variable {α : Type} {readers : FieldReaders α} {decode : α → Option Value}

/-- A field is set at most once, to what its reader gives. -/
theorem exists_of_set {β γ : Type} {present : Option β} {read : Option γ}
    {set : γ → Draft} {next : Draft}
    (accepted : (if present.isSome then none else read.map set) = some next) :
    ∃ found, read = some found ∧ set found = next := by
  split at accepted
  · cases accepted
  · exact Option.map_eq_some_iff.mp accepted

theorem mem_contents_accept (decodes : readers.DecodeBy decode) {draft next : Draft}
    {field : String × α} (accepted : draft.accept readers field = some next)
    {content : Value} (member : content ∈ next.contents) :
    content ∈ draft.contents ∨ decode field.2 = some content := by
  obtain ⟨name, source⟩ := field
  simp only [Draft.accept] at accepted
  rw [Draft.mem_contents_iff] at member ⊢
  split at accepted
  · obtain ⟨found, read, rfl⟩ := exists_of_set accepted
    rcases member with ⟨schema, same, rfl⟩ | others
    · cases same
      exact Or.inr (decodes.schema source _ read)
    · exact Or.inl (Or.inr others)
  · split at accepted
    · obtain ⟨found, read, rfl⟩ := exists_of_set accepted
      rcases member with schema | ⟨visible, same, rfl⟩ | hidden
      · exact Or.inl (Or.inl schema)
      · cases same
        exact Or.inr (decodes.visible source _ read)
      · exact Or.inl (Or.inr (Or.inr hidden))
    · split at accepted
      · obtain ⟨found, read, rfl⟩ := exists_of_set accepted
        rcases member with schema | visible | ⟨hidden, same, rfl⟩
        · exact Or.inl (Or.inl schema)
        · exact Or.inl (Or.inr (Or.inl visible))
        · cases same
          exact Or.inr (decodes.hidden source _ read)
      · -- A field with another name changes nothing.
        split at accepted
        · cases accepted
          exact Or.inl member
        · cases accepted

theorem mem_contents_foldlM (decodes : readers.DecodeBy decode)
    {fields : List (String × α)} {draft last : Draft}
    (accepted : fields.foldlM (Draft.accept readers) draft = some last)
    {content : Value} (member : content ∈ last.contents) :
    content ∈ draft.contents ∨ ∃ field ∈ fields, decode field.2 = some content := by
  induction fields generalizing draft with
  | nil =>
      cases accepted
      exact Or.inl member
  | cons field rest induction =>
      rw [List.foldlM_cons] at accepted
      obtain ⟨next, first, others⟩ := Option.bind_eq_some_iff.mp accepted
      rcases induction others with earlier | ⟨source, later, decoded⟩
      · rcases mem_contents_accept decodes first earlier with old | decoded
        · exact Or.inl old
        · exact Or.inr ⟨field, List.mem_cons_self, decoded⟩
      · exact Or.inr ⟨source, List.mem_cons_of_mem _ later, decoded⟩

theorem mem_contents_finish {draft : Draft} {wire : WireRecord}
    (finished : draft.finish = some wire) {content : Value}
    (member : content ∈ wire.contents) :
    content = .dict [] ∨ content ∈ draft.contents := by
  simp only [Draft.finish, Option.bind_eq_bind, Option.bind_eq_some_iff] at finished
  obtain ⟨schema, schemaRead, visible, visibleRead, complete⟩ := finished
  cases complete
  rw [Draft.mem_contents_iff]
  simp only [contents, List.mem_cons, List.not_mem_nil, or_false] at member
  rcases member with named | listed | filed
  · exact Or.inr (Or.inl ⟨schema, schemaRead, named⟩)
  · exact Or.inr (Or.inr (Or.inl ⟨visible, visibleRead, listed⟩))
  · cases hiddenRead : draft.hidden with
    | none =>
        rw [hiddenRead] at filed
        exact Or.inl filed
    | some hidden =>
        rw [hiddenRead] at filed
        exact Or.inr (Or.inr (Or.inr ⟨hidden, rfl, filed⟩))

/-- The record of some fields has contents that the fields decode to. -/
theorem stemsFrom_of_ofFields? (decodes : readers.DecodeBy decode)
    {fields : List (String × α)} {wire : WireRecord}
    (read : ofFields? readers fields = some wire) {parts : List α}
    (among : ∀ field ∈ fields, field.2 ∈ parts) : wire.StemsFrom parts decode := by
  intro content member
  obtain ⟨draft, accepted, finished⟩ := Option.bind_eq_some_iff.mp read
  rcases mem_contents_finish finished member with missing | found
  · exact Or.inl missing
  · rcases mem_contents_foldlM decodes accepted found with blank | later
    · cases blank
    · obtain ⟨field, fieldMember, decoded⟩ := later
      exact Or.inr ⟨field.2, among field fieldMember, decoded⟩

end

section

variable {wire : WireRecord}

theorem forall_contents_iff {property : Value → Prop} :
    (∀ content ∈ wire.contents, property content) ↔
      property (.text wire.schema) ∧ property (.list wire.visible) ∧
        property (.dict wire.hidden) := by
  simp [contents]

theorem stemsFrom_of_parts {α : Type} {parts : List α} {decode : α → Option Value}
    (schema : ∃ part ∈ parts, decode part = some (.text wire.schema))
    (visible : ∃ part ∈ parts, decode part = some (.list wire.visible))
    (hidden : Value.dict wire.hidden = .dict [] ∨
      ∃ part ∈ parts, decode part = some (.dict wire.hidden)) :
    wire.StemsFrom parts decode := by
  rw [StemsFrom, forall_contents_iff]
  exact ⟨Or.inr schema, Or.inr visible, hidden⟩

/-- What holds of each decoded value by itself holds everywhere in the contents of a
record that stems from decoded parts. -/
theorem everywhere_of_stemsFrom {α : Type} {sourceParts : α → List α}
    {decode : Nat → α → Option Value} (descends : Value.Descends sourceParts decode)
    {kept : α → Prop} {property : Value → Prop}
    (own : ∀ budget source value, Throughout sourceParts kept source →
      decode budget source = some value → property value)
    (empty : property (.dict [])) {budget : Nat} {whole : α}
    (throughout : Throughout sourceParts kept whole)
    (stems : wire.StemsFrom (sourceParts whole) (decode budget)) :
    ∀ content ∈ wire.contents, content.Everywhere property := by
  intro content member
  rcases stems content member with rfl | ⟨part, partMember, decoded⟩
  · exact ⟨empty, trivial⟩
  · exact Value.everywhere_of_decoded descends own (throughout.inside part partMember)
      decoded

/-- What holds everywhere in the contents of a record holds everywhere in it. -/
theorem everywhere_of_contents {property : Value → Prop}
    (everywhere : ∀ content ∈ wire.contents, content.Everywhere property) :
    wire.Everywhere property := by
  obtain ⟨_, visible, hidden⟩ := forall_contents_iff.mp everywhere
  simp only [Value.Everywhere] at visible hidden
  exact everywhere_iff.mpr ⟨visible.2, hidden.2⟩

theorem inOrder_of_contents
    (everywhere : ∀ content ∈ wire.contents, content.Everywhere Value.InOrder) :
    wire.InOrder := by
  constructor
  · exact (forall_contents_iff.mp everywhere).2.2.here
  · exact everywhere_of_contents everywhere

end

end WireRecord

end SlotRecord
