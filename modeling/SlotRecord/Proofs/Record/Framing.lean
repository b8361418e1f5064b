import SlotRecord.Proofs.Number.Accessors
import SlotRecord.Proofs.Record.Digest
import SlotRecord.Proofs.Text.Order
import SlotRecord.Proofs.Value.Equivalence

/-!
# Frames of digests

A digest tells by itself where it ends, whatever bytes come after it. So no digest is the
front of another one, and the digests of values in order can be taken apart again in one
way only. Of values without host objects and without large numbers a digest tells all that
equality sees.
-/

namespace SlotRecord

/-- No byte of a text is the byte that closes the digest of a text. -/
theorem Utf8.ne_of_mem_encode {text : String} {byte : UInt8} (member : byte ∈ encode text) :
    byte ≠ 0xff := by
  rw [encode_eq_flatMap] at member
  obtain ⟨character, _, among⟩ := List.mem_flatMap.mp member
  have below : byte.toNat < 255 := by
    simp only [String.utf8EncodeChar] at among
    generalize character.val.toNat = code at among
    split at among
    · rw [List.mem_singleton.mp among, UInt8.toNat_ofNat']
      omega
    · split at among
      · simp only [List.mem_cons, List.not_mem_nil, or_false] at among
        rcases among with rfl | rfl <;> rw [UInt8.toNat_ofNat'] <;> omega
      · split at among
        · simp only [List.mem_cons, List.not_mem_nil, or_false] at among
          rcases among with rfl | rfl | rfl <;> rw [UInt8.toNat_ofNat'] <;> omega
        · simp only [List.mem_cons, List.not_mem_nil, or_false] at among
          rcases among with rfl | rfl | rfl | rfl <;> rw [UInt8.toNat_ofNat'] <;> omega
  rintro rfl
  exact absurd below (by decide)

theorem Utf8.encode_injective {first second : String} (same : encode first = encode second) :
    first = second := by
  have decoded := decode?_encode first
  rw [same, decode?_encode] at decoded
  exact (Option.some.inj decoded).symm

theorem eq_of_littleEndian {width first second : Nat}
    (same : littleEndian width first = littleEndian width second)
    (small : first < 256 ^ width) (little : second < 256 ^ width) : first = second := by
  have read := congrArg (fun bytes => ofBigEndian bytes.reverse) same
  have one := ofBigEndian_bigEndian width first
  have other := ofBigEndian_bigEndian width second
  rw [bigEndian, Nat.mod_eq_of_lt small] at one
  rw [bigEndian, Nat.mod_eq_of_lt little] at other
  exact one.symm.trans (read.trans other)

namespace Value

/-- The first digest of some bytes: its tag tells how many bytes follow, or that a text
follows up to its closing byte. -/
def frame : List UInt8 → List UInt8
  | [] => []
  | tag :: rest =>
    if tag = 0 then [tag]
    else if tag = 1 then tag :: rest.take 1
    else if tag = 3 then tag :: (rest.takeWhile (· ≠ 0xff) ++ [0xff])
    else tag :: rest.take 8

variable {first second value : Value} {bytes others : List UInt8}

theorem digest_host {object : Host} :
    (Value.host object).digest = .ok bytes ↔
      ∃ word, object.digest = .ok word ∧ bytes = 4 :: littleEndian 8 word.toNat := by
  cases answered : object.digest <;>
    simp [digest, answered, bind, Except.bind, pure, Except.pure, eq_comm]

/-- What follows a digest does not change where it ends. -/
theorem frame_append (fed : value.digest = .ok bytes) (rest : List UInt8) :
    frame (bytes ++ rest) = bytes := by
  have word : ∀ number : Nat, (littleEndian 8 number ++ rest).take 8 = littleEndian 8 number :=
    fun number => List.take_left' (length_littleEndian 8 number)
  cases value with
  | null =>
      cases fed
      rfl
  | bool value =>
      cases fed
      rfl
  | number value =>
      cases fed
      exact congrArg (2 :: ·) (word _)
  | text value =>
      cases fed
      have inside : ∀ byte ∈ Utf8.encode value, decide (byte ≠ 0xff) = true :=
        fun byte member => decide_eq_true (Utf8.ne_of_mem_encode member)
      have taken : ((Utf8.encode value ++ [0xff]) ++ rest).takeWhile (· ≠ 0xff) =
          Utf8.encode value := by
        rw [List.append_assoc, List.takeWhile_append_of_pos inside]
        exact List.append_nil _
      exact congrArg (fun front => 3 :: (front ++ [0xff])) taken
  | host object =>
      obtain ⟨answer, _, rfl⟩ := digest_host.mp fed
      exact congrArg (4 :: ·) (word _)
  | _ => cases fed

theorem digest_ne_nil (fed : value.digest = .ok bytes) : bytes ≠ [] := by
  rintro rfl
  cases value with
  | host object =>
      obtain ⟨_, _, empty⟩ := digest_host.mp fed
      cases empty
  | _ => cases fed

/-- Where two digests begin the same bytes, they are one. -/
theorem eq_of_append {rest more : List UInt8} (one : first.digest = .ok bytes)
    (other : second.digest = .ok others) (same : bytes ++ rest = others ++ more) :
    bytes = others := by
  rw [← frame_append one rest, same, frame_append other more]

theorem digestAll_cons {head : Value} {tail : List Value} :
    digestAll (head :: tail) = .ok bytes ↔
      ∃ first rest, head.digest = .ok first ∧ digestAll tail = .ok rest ∧
        bytes = first ++ rest := by
  cases fed : head.digest <;> cases later : digestAll tail <;>
    simp [digestAll, fed, later, bind, Except.bind, pure, Except.pure, eq_comm]

/-- Digests that stand one after the other can be taken apart in one way only. -/
theorem map_digest_eq {firsts seconds : List Value} (one : digestAll firsts = .ok bytes)
    (other : digestAll seconds = .ok bytes) : firsts.map digest = seconds.map digest := by
  induction firsts generalizing seconds bytes with
  | nil =>
      cases one
      cases seconds with
      | nil => rfl
      | cons head tail =>
          obtain ⟨front, rest, fed, _, split⟩ := digestAll_cons.mp other
          exact absurd (List.append_eq_nil_iff.mp split.symm).1 (digest_ne_nil fed)
  | cons head tail induction =>
      obtain ⟨front, rest, fed, later, rfl⟩ := digestAll_cons.mp one
      cases seconds with
      | nil =>
          have empty : front ++ rest = [] := (Except.ok.inj other).symm
          exact absurd (List.append_eq_nil_iff.mp empty).1 (digest_ne_nil fed)
      | cons second others =>
          obtain ⟨start, more, found, following, split⟩ := digestAll_cons.mp other
          obtain rfl := eq_of_append fed found split
          obtain rfl := List.append_cancel_left split
          rw [List.map_cons, List.map_cons, fed, found, induction later following]

/-- A value whose digest tells all that equality sees of it: no container, no host object,
and no number but one that has a signed integer. -/
def Plain : Value → Prop
  | .null => True
  | .bool _ => True
  | .number value => value.toInt64?.isSome = true
  | .text _ => True
  | _ => False

instance : DecidablePred Plain
  | .null | .bool _ | .text _ => .isTrue trivial
  | .number value => inferInstanceAs (Decidable (value.toInt64?.isSome = true))
  | .list _ | .dict _ | .host _ => .isFalse id

theorem Plain.noHost (plain : Plain value) : NoHost value := by
  cases value with
  | host object => cases plain
  | _ => rfl

theorem Plain.exists_digest (plain : Plain value) : ∃ bytes, value.digest = .ok bytes := by
  cases value with
  | list items => cases plain
  | dict entries => cases plain
  | host object => cases plain
  | _ => exact ⟨_, rfl⟩

theorem exists_digestAll {values : List Value} (plain : ∀ value ∈ values, Plain value) :
    ∃ bytes, digestAll values = .ok bytes := by
  induction values with
  | nil => exact ⟨[], rfl⟩
  | cons head tail induction =>
      obtain ⟨here, inside⟩ := List.forall_mem_cons.mp plain
      obtain ⟨first, fed⟩ := here.exists_digest
      obtain ⟨rest, later⟩ := induction inside
      exact ⟨_, digestAll_cons.mpr ⟨first, rest, fed, later, rfl⟩⟩

/-- Two numbers with signed integers are equal as soon as their words are. -/
theorem equal_of_word {left right : Number} (one : left.toInt64?.isSome = true)
    (other : right.toInt64?.isSome = true) (same : left.word = right.word) :
    left.equal right = true := by
  obtain ⟨integer, held⟩ := Option.isSome_iff_exists.mp one
  obtain ⟨found, again⟩ := Option.isSome_iff_exists.mp other
  simp only [Number.word, held, again] at same
  obtain rfl : integer = found := congrArg Int64.ofUInt64 same
  exact Number.equal_trans ((left.toInt64?_iff_equal integer).mp held)
    (Number.equal_symm ((right.toInt64?_iff_equal integer).mp again))

theorem Plain.equal_iff (one : Plain first) (other : Plain second) :
    first.equal second = true ↔ first.digest = second.digest := by
  constructor
  · exact digest_eq_of_equal (hostsAgree_of_noHost first other.noHost)
  · intro same
    cases first with
    | null =>
        cases second with
        | null => rfl
        | host object => cases other
        | _ => cases same
    | bool left =>
        cases second with
        | bool right =>
            rw [digest, digest, Except.ok.injEq] at same
            cases left <;> cases right <;> first | rfl | cases same
        | host object => cases other
        | _ => cases same
    | number left =>
        cases second with
        | number right =>
            rw [digest, digest, Except.ok.injEq, List.cons.injEq] at same
            have words := eq_of_littleEndian same.2 left.word.toNat_lt right.word.toNat_lt
            exact equal_number.mpr
              ⟨right, rfl, equal_of_word one other (UInt64.toNat_inj.mp words)⟩
        | host object => cases other
        | _ => cases same
    | text left =>
        cases second with
        | text right =>
            rw [digest, digest, Except.ok.injEq, List.cons.injEq] at same
            exact equal_text.mpr
              (congrArg text (Utf8.encode_injective (List.append_cancel_right same.2)).symm)
        | host object => cases other
        | _ => cases same
    | _ => cases one

/-- Of plain values the digests in order tell the list, up to equality. -/
theorem equalItems_iff_digestAll {firsts seconds : List Value}
    (one : ∀ value ∈ firsts, Plain value) (other : ∀ value ∈ seconds, Plain value) :
    equalItems firsts seconds = true ↔ digestAll firsts = digestAll seconds := by
  constructor
  · apply digestAll_eq_of_equalItems
    intro first _ second member
    exact hostsAgree_of_noHost first (other second member).noHost
  · intro same
    obtain ⟨bytes, fed⟩ := exists_digestAll one
    have alike := map_digest_eq fed (same ▸ fed)
    clear same fed
    induction firsts generalizing seconds with
    | nil =>
        cases seconds with
        | nil => rfl
        | cons second others => cases alike
    | cons head tail induction =>
        cases seconds with
        | nil => cases alike
        | cons second others =>
            obtain ⟨here, inside⟩ := List.forall_mem_cons.mp one
            obtain ⟨there, among⟩ := List.forall_mem_cons.mp other
            obtain ⟨front, rest⟩ := List.cons.inj alike
            exact equalItems_cons.mpr
              ⟨second, others, rfl, (here.equal_iff there).mpr front, induction inside among rest⟩

end Value

namespace Record

variable {first second : Record} {stream : List UInt8}

theorem digest_eq_ok_iff :
    first.digest = .ok stream ↔ ∃ bytes, Value.digestAll first.visible = .ok bytes ∧
      stream = littleEndian 8 first.length ++ bytes := by
  cases fed : Value.digestAll first.visible <;>
    simp [digest, fed, bind, Except.bind, pure, Except.pure, eq_comm]

/-- Records that feed the same bytes are as long and feed the same ones place by place. -/
theorem get?_digest_eq (one : first.digest = .ok stream) (other : second.digest = .ok stream) :
    first.length = second.length ∧
      ∀ place, (first.get? place).map Value.digest = (second.get? place).map Value.digest := by
  obtain ⟨bytes, fed, rfl⟩ := digest_eq_ok_iff.mp one
  obtain ⟨others, found, split⟩ := digest_eq_ok_iff.mp other
  obtain ⟨_, rfl⟩ := List.append_inj split (by simp)
  have alike := Value.map_digest_eq fed found
  constructor
  · rw [← length_visible, ← length_visible]
    simpa using congrArg List.length alike
  · intro place
    rw [get?, get?, ← List.getElem?_map, ← List.getElem?_map, alike]

/-- Records of plain values feed the same bytes exactly if they are equal. -/
theorem equal_iff_digest (one : ∀ value ∈ first.visible, Value.Plain value)
    (other : ∀ value ∈ second.visible, Value.Plain value) :
    first.equal second = true ↔ first.digest = second.digest := by
  constructor
  · apply digest_eq_of_equal
    intro left _ right member
    exact Value.hostsAgree_of_noHost left (other right member).noHost
  · intro same
    obtain ⟨bytes, fed⟩ := Value.exists_digestAll one
    obtain ⟨others, found⟩ := Value.exists_digestAll other
    rw [digest_eq_ok_iff.mpr ⟨bytes, fed, rfl⟩, digest_eq_ok_iff.mpr ⟨others, found, rfl⟩,
      Except.ok.injEq] at same
    obtain ⟨_, rfl⟩ := List.append_inj same (by simp)
    exact (Value.equalItems_iff_digestAll one other).mpr (fed.trans found.symm)

end Record

/-- The bytes that are fed to a hash are framed. No digest begins another one; records that
feed the same bytes are as long as each other and have the same digests place by place; and
plain values, in a list or in a record, feed the same bytes exactly if they are equal. -/
theorem digests_framed :
    (∀ (first second : Value) (bytes others : List UInt8), first.digest = .ok bytes →
      second.digest = .ok others → bytes <+: others → bytes = others) ∧
    (∀ (first second : Record) (stream : List UInt8), first.digest = .ok stream →
      second.digest = .ok stream → first.length = second.length ∧
        ∀ place, (first.get? place).map Value.digest = (second.get? place).map Value.digest) ∧
    (∀ firsts seconds : List Value, (∀ value ∈ firsts, Value.Plain value) →
      (∀ value ∈ seconds, Value.Plain value) →
        (∃ bytes, Value.digestAll firsts = .ok bytes) ∧
          (Value.digestAll firsts = Value.digestAll seconds ↔
            Value.equalItems firsts seconds = true)) ∧
    ∀ first second : Record, (∀ value ∈ first.visible, Value.Plain value) →
      (∀ value ∈ second.visible, Value.Plain value) →
        (∃ stream, first.digest = .ok stream) ∧
          (first.digest = second.digest ↔ first.equal second = true) := by
  refine ⟨?_, ?_, ?_, ?_⟩
  · rintro first second bytes others one other ⟨rest, split⟩
    apply Value.eq_of_append one other
    · exact split.trans (List.append_nil others).symm
  · intro first second stream one other
    exact Record.get?_digest_eq one other
  · intro firsts seconds one other
    exact ⟨Value.exists_digestAll one, (Value.equalItems_iff_digestAll one other).symm⟩
  · intro first second one other
    obtain ⟨bytes, fed⟩ := Value.exists_digestAll one
    exact ⟨⟨_, Record.digest_eq_ok_iff.mpr ⟨bytes, fed, rfl⟩⟩,
      (Record.equal_iff_digest one other).symm⟩

theorem digests_framed_texts :
    (∀ value : Value, value.digest ≠ .ok [3, 97, 98]) ∧
    (∀ place, (Record.tagged.get? place).map Value.digest =
      (Record.pair.get? place).map Value.digest) ∧
    Value.digestAll [.text "a", .text "b"] ≠ Value.digestAll [.text "ab"] ∧
    Value.digestAll [.number (.unsigned 5), .text "é"] =
      Value.digestAll [.number (.real ⟨0x4014000000000000⟩), .text "é"] := by
  obtain ⟨apart, places, lists, _⟩ := digests_framed
  refine ⟨?_, ?_, ?_, ?_⟩
  · intro value fed
    have whole : (Value.text "ab").digest = .ok [3, 97, 98, 255] := rfl
    cases apart value (.text "ab") _ _ fed whole ⟨[255], rfl⟩
  · obtain ⟨stream, fed⟩ : ∃ stream, Record.pair.digest = .ok stream := ⟨_, rfl⟩
    have same : Record.tagged.digest = Record.pair.digest := by
      apply Record.digest_eq_of_equal
      · simp [Record.visible, Record.tagged, Record.pair, Record.length, Value.HostsAgree,
          Value.host?]
      · decide +kernel
    exact (places Record.tagged Record.pair stream (same.trans fed) fed).2
  · intro same
    have alike := (lists [.text "a", .text "b"] [.text "ab"] (by decide) (by decide)).2.mp same
    cases alike
  · exact (lists _ _ (by decide +kernel) (by decide +kernel)).2.mpr (by decide +kernel)

end SlotRecord
