import SlotRecord.Proofs.Number
import SlotRecord.Proofs.Value.Equality
import SlotRecord.Proofs.Value.Everywhere
import SlotRecord.Record.Basic

/-!
# Digests of what is equal

Equal values have the same digest or fail to have one for the same reason. What
host objects answer is theirs alone, so one object is asked for one answer.

Equal records have the same hash or fail to have one for the same reason,
whatever their schemas, their hidden values and the variants of their numbers.
-/

namespace SlotRecord

namespace Value

/-- Whether a host object that occurs as both values has one digest. -/
def HostsAgree (first second : Value) : Prop :=
  ∀ left ∈ first.host?, ∀ right ∈ second.host?,
    left.identity = right.identity → left.digest = right.digest

theorem hostsAgree_of_noHost (first : Value) {second : Value} (noHost : second.NoHost) :
    first.HostsAgree second := by
  intro left _ right member
  rw [noHost] at member
  cases member

theorem digest_eq_of_equal {first second : Value} (agree : first.HostsAgree second)
    (same : first.equal second = true) : first.digest = second.digest := by
  cases first with
  | null =>
      rw [equal_null.mp same]
  | bool value =>
      rw [equal_bool.mp same]
  | number value =>
      obtain ⟨found, rfl, numbers⟩ := equal_number.mp same
      rw [digest, digest, Number.word_eq_of_equal numbers]
  | text value =>
      rw [equal_text.mp same]
  | list items =>
      obtain ⟨found, rfl, _⟩ := equal_list.mp same
      rfl
  | dict entries =>
      obtain ⟨found, rfl, _⟩ := equal_dict.mp same
      rfl
  | host object =>
      obtain ⟨found, rfl, identity⟩ := equal_host.mp same
      have answer := agree object rfl found rfl identity
      rw [digest, digest, answer]

/-- Lists of equal values feed the same bytes or stop at the same fault. -/
theorem digestAll_eq_of_equalItems {firsts seconds : List Value}
    (agree : ∀ first ∈ firsts, ∀ second ∈ seconds, first.HostsAgree second)
    (same : equalItems firsts seconds = true) :
    digestAll firsts = digestAll seconds := by
  induction firsts generalizing seconds with
  | nil =>
      cases seconds with
      | nil => rfl
      | cons head tail => cases same
  | cons head tail induction =>
      obtain ⟨first, rest, rfl, here, later⟩ := equalItems_cons.mp same
      have one := digest_eq_of_equal
        (agree head List.mem_cons_self first List.mem_cons_self) here
      have others : digestAll tail = digestAll rest := by
        apply induction _ later
        intro left leftMember right rightMember
        exact agree left (List.mem_cons_of_mem _ leftMember) right
          (List.mem_cons_of_mem _ rightMember)
      rw [digestAll, digestAll, one, others]

end Value

namespace Record

theorem length_visible (record : Record) : record.visible.length = record.length := by
  have fits := record.schema.schema.visible_le
  rw [visible, List.length_take, record.complete, length]
  exact Nat.min_eq_left fits

theorem digest_eq_of_equal {first second : Record}
    (agree : ∀ left ∈ first.visible, ∀ right ∈ second.visible, left.HostsAgree right)
    (same : first.equal second = true) : first.digest = second.digest := by
  have values := Value.digestAll_eq_of_equalItems agree same
  have length := Value.length_eq_of_equalItems same
  rw [length_visible, length_visible] at length
  rw [digest, digest, values, length]

theorem hash_eq_of_equal {first second : Record}
    (agree : ∀ left ∈ first.visible, ∀ right ∈ second.visible, left.HostsAgree right)
    (same : first.equal second = true) : first.hash = second.hash := by
  rw [hash, hash, digest_eq_of_equal agree same]

end Record

/-- Equal values feed the same bytes to a hash or fail alike, and so equal records
have one hash or one fault. -/
theorem digest_respects_equal :
    (∀ first second : Value, first.HostsAgree second → first.equal second = true →
      first.digest = second.digest) ∧
    (∀ first second : Record,
      (∀ left ∈ first.visible, ∀ right ∈ second.visible, left.HostsAgree right) →
        first.equal second = true →
          first.digest = second.digest ∧ first.hash = second.hash) := by
  constructor
  · intro first second agree same
    exact Value.digest_eq_of_equal agree same
  · intro first second agree same
    constructor
    · exact Record.digest_eq_of_equal agree same
    · exact Record.hash_eq_of_equal agree same

/-- A record of a host object and a floating-point zero, with a hidden value. -/
def Record.tagged : Record where
  schema := ⟨1, true, ⟨"samples.tagged", none,
    [⟨some "owner", none⟩, ⟨none, none⟩, ⟨some "note", none⟩], 2, none, by decide,
    by decide, by decide⟩⟩
  serial := 1
  slots := [.host ⟨"owner-1", "Owner", .ok "<owner>", .ok 77⟩,
    .number (.real ⟨0x8000000000000000⟩), .list []]
  complete := rfl

/-- A record of the same host object and an integer zero. -/
def Record.pair : Record where
  schema := ⟨2, false, ⟨"samples.pair", none,
    [⟨some "first", none⟩, ⟨some "second", none⟩], 2, none, by decide, by decide,
    by decide⟩⟩
  serial := 2
  slots := [.host ⟨"owner-1", "Owner", .ok "<owner>", .ok 77⟩, .number (.unsigned 0)]
  complete := rfl

theorem digest_respects_equal_pair :
    (Value.number (.real ⟨0x401c000000000000⟩)).digest =
        (Value.number (.signed 7)).digest ∧
      Record.tagged.digest = Record.pair.digest ∧
      Record.tagged.hash = Record.pair.hash := by
  obtain ⟨values, records⟩ := digest_respects_equal
  constructor
  · apply values
    · exact Value.hostsAgree_of_noHost _ (by decide)
    · decide +kernel
  · apply records
    · simp [Record.visible, Record.tagged, Record.pair, Record.length, Value.HostsAgree,
        Value.host?]
    · decide +kernel

end SlotRecord
