import SlotRecord.Cbor.Reader
import SlotRecord.Cbor.Writer

/-!
# Heads read back

The head of an item is its major kind and an argument of 64 bits or fewer. The
reader finds both again behind whichever of the five lengths was written, and
goes on with what the head announces.
-/

namespace SlotRecord

namespace Cbor

theorem splitExactly_append {α : Type} (front rest : List α) :
    splitExactly front.length (front ++ rest) = some (front, rest) := by
  induction front with
  | nil => rfl
  | cons head front induction => simp [splitExactly, induction]

theorem readWord_bigEndian {width number : Nat} (bounded : number < 256 ^ width)
    (rest : List UInt8) :
    readWord width (bigEndian width number ++ rest) = some (number, rest) := by
  have scanned := splitExactly_append (bigEndian width number) rest
  rw [length_bigEndian] at scanned
  simp [readWord, scanned, ofBigEndian_bigEndian, Nat.mod_eq_of_lt bounded]

theorem toNat_first {major code : Nat} (majorBounded : major < 8)
    (codeBounded : code < 32) :
    (UInt8.ofNat (32 * major + code)).toNat = 32 * major + code := by
  rw [UInt8.toNat_ofNat']
  omega

/-- What the reader needs to know of a head: its first byte tells the major kind
and a code, and the code tells how the argument goes on. -/
structure HeadSplit (major argument : Nat) (first : UInt8)
    (more : List UInt8) : Prop where
  kind : first.toNat / 32 = major
  closed : first.toNat % 32 ≠ openEnded
  reads : ∀ rest, readArgument (first.toNat % 32) (more ++ rest) = some (argument, rest)

theorem headSplit {major argument code : Nat} {more : List UInt8}
    (majorBounded : major < 8) (codeBounded : code < 28)
    (reads : ∀ rest, readArgument code (more ++ rest) = some (argument, rest)) :
    HeadSplit major argument (UInt8.ofNat (32 * major + code)) more := by
  have first := toNat_first majorBounded (show code < 32 by omega)
  have kind : (32 * major + code) / 32 = major := by omega
  have rest : (32 * major + code) % 32 = code := by omega
  constructor
  · rw [first, kind]
  · rw [first, rest, openEnded]
    omega
  · rw [first, rest]
    exact reads

/-- Every head of a 64-bit argument splits into a first byte and the bytes after
it. -/
theorem head_eq_cons {major argument : Nat} (majorBounded : major < 8)
    (bounded : argument < 2 ^ 64) :
    ∃ first more, head major argument = first :: more ∧
      HeadSplit major argument first more := by
  by_cases inline : argument < 24
  · refine ⟨_, [], by rw [head, if_pos inline],
      headSplit majorBounded (by omega) fun rest => ?_⟩
    rw [readArgument, if_pos inline]
    rfl
  by_cases oneByte : argument < 2 ^ 8
  · refine ⟨_, bigEndian 1 argument, by rw [head, if_neg inline, if_pos oneByte],
      headSplit majorBounded (by omega) fun rest => ?_⟩
    exact readWord_bigEndian (by omega) rest
  by_cases twoBytes : argument < 2 ^ 16
  · refine ⟨_, bigEndian 2 argument,
      by rw [head, if_neg inline, if_neg oneByte, if_pos twoBytes],
      headSplit majorBounded (by omega) fun rest => ?_⟩
    exact readWord_bigEndian (by omega) rest
  by_cases fourBytes : argument < 2 ^ 32
  · refine ⟨_, bigEndian 4 argument,
      by rw [head, if_neg inline, if_neg oneByte, if_neg twoBytes, if_pos fourBytes],
      headSplit majorBounded (by omega) fun rest => ?_⟩
    exact readWord_bigEndian (by omega) rest
  · refine ⟨_, bigEndian 8 argument,
      by rw [head, if_neg inline, if_neg oneByte, if_neg twoBytes, if_neg fourBytes],
      headSplit majorBounded (by omega) fun rest => ?_⟩
    exact readWord_bigEndian (by omega) rest

section

variable {argument : Nat} (bounded : argument < 2 ^ 64)

include bounded

theorem length_head_pos {major : Nat} (majorBounded : major < 8) :
    0 < (head major argument).length := by
  obtain ⟨first, more, split, _⟩ := head_eq_cons majorBounded bounded
  rw [split]
  exact Nat.succ_pos more.length

variable (fuel : Nat) (rest : List UInt8)

theorem readItem_natural :
    readItem (fuel + 1) (head 0 argument ++ rest) = some (.natural argument, rest) := by
  obtain ⟨first, more, split, kind, _, reads⟩ :=
    head_eq_cons (show 0 < 8 by omega) bounded
  rw [split, List.cons_append, readItem, kind]
  simp [reads]

theorem readItem_negative :
    readItem (fuel + 1) (head 1 argument ++ rest) =
      some (.negative argument, rest) := by
  obtain ⟨first, more, split, kind, _, reads⟩ :=
    head_eq_cons (show 1 < 8 by omega) bounded
  rw [split, List.cons_append, readItem, kind]
  simp [reads]

theorem readItem_array {items : List Item} {after : List UInt8}
    (scanned : readItems fuel argument rest = some (items, after)) :
    readItem (fuel + 1) (head 4 argument ++ rest) = some (.array items, after) := by
  obtain ⟨first, more, split, kind, closed, reads⟩ :=
    head_eq_cons (show 4 < 8 by omega) bounded
  rw [split, List.cons_append, readItem, kind]
  simp [closed, reads, scanned]

theorem readItem_map {flat : List Item} {entries : List (Item × Item)}
    {after : List UInt8}
    (scanned : readItems fuel (2 * argument) rest = some (flat, after))
    (pairs : paired flat = some entries) :
    readItem (fuel + 1) (head 5 argument ++ rest) = some (.map entries, after) := by
  obtain ⟨first, more, split, kind, closed, reads⟩ :=
    head_eq_cons (show 5 < 8 by omega) bounded
  rw [split, List.cons_append, readItem, kind]
  simp [closed, reads, scanned, pairs]

end

theorem readItem_writeText {content : String}
    (bounded : (Utf8.encode content).length < 2 ^ 64) (fuel : Nat) (rest : List UInt8) :
    readItem (fuel + 1) (writeText content ++ rest) =
      some (.text (Utf8.encode content), rest) := by
  obtain ⟨first, more, split, kind, closed, reads⟩ :=
    head_eq_cons (show 3 < 8 by omega) bounded
  rw [writeText, split, List.append_assoc, List.cons_append, readItem, kind]
  simp [closed, reads, splitExactly_append]

theorem readItem_double (value : Binary64) (fuel : Nat) (rest : List UInt8) :
    readItem (fuel + 1) (0xfb :: bigEndian 8 value.bits.toNat ++ rest) =
      some (.double value, rest) := by
  have word :=
    readWord_bigEndian (show value.bits.toNat < 256 ^ 8 from value.bits.toNat_lt)
    rest
  simp [readItem, readSimple, word]

end Cbor

end SlotRecord
