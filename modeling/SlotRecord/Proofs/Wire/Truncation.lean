import Mathlib.Data.List.TakeWhile
import SlotRecord.Proofs.Json.Extension
import SlotRecord.Proofs.Cbor.Extension
import SlotRecord.Proofs.Wire.Json
import SlotRecord.Proofs.Wire.Cbor

/-!
# Damaged portable records

A record that is cut off anywhere is not read as another one, in either format. Behind
a record's text only blanks may follow; what follows a record's bytes is ignored.
-/

namespace SlotRecord

open Json Cbor

theorem Json.skipBlank_eq_nil_iff {text : List Char} :
    skipBlank text = [] ↔ ∀ character ∈ text, character ∈ [' ', '\t', '\n', '\r'] := by
  have blank : ∀ character, isBlank character = true ↔
      character ∈ [' ', '\t', '\n', '\r'] := by
    intro character
    simp [isBlank, or_assoc]
  simp only [skipBlank, List.dropWhile_eq_nil_iff, blank]

namespace WireRecord

variable {wire : WireRecord}

theorem isObject_toJson {text : List Char} (written : wire.toJson = .ok text) :
    IsObject text wire.asValue.node := by
  have whole := (toJson_asValue wire).trans written
  constructor
  · obtain ⟨parts, _, same⟩ := Value.toJson_dict.mp whole
    exact ⟨_, same⟩
  · have read := readNode_toJson whole Numeral.ends_nil
      (show 2 * text.length ≤ 2 * text.length + 2 by omega)
    rw [List.append_nil] at read
    exact read

theorem readItem_toCbor {bytes : List UInt8} (addressable : wire.Addressable)
    (written : wire.toCbor = .ok bytes) :
    readItem (2 * bytes.length + 2) bytes = some (wire.asValue.item, []) := by
  have read := Cbor.readItem_toCbor addressable ((toCbor_asValue wire).trans written)
    (show 2 * bytes.length ≤ 2 * bytes.length + 2 by omega) []
  rw [List.append_nil] at read
  exact read

/-- A text that is read only whole, and with blanks behind it only. -/
structure GuardedText (text : String) : Prop where
  front : ∀ front back : String, front ++ back = text → back ≠ "" → fromJson? front = none
  blanks : ∀ suffix : String,
    (∀ character ∈ suffix.toList, character ∈ [' ', '\t', '\n', '\r']) →
      fromJson? (text ++ suffix) = fromJson? text
  others : ∀ suffix : String,
    (∃ character ∈ suffix.toList, character ∉ [' ', '\t', '\n', '\r']) →
      fromJson? (text ++ suffix) = none

/-- Bytes that are read only whole, whatever stands behind them. -/
structure GuardedBytes (bytes : List UInt8) : Prop where
  front : ∀ front back, front ++ back = bytes → back ≠ [] → fromCbor? front = none
  suffix : ∀ suffix, fromCbor? (bytes ++ suffix) = fromCbor? bytes

theorem guardedText_of_toJson {text : List Char} (written : wire.toJson = .ok text) :
    GuardedText (String.ofList text) := by
  have object := isObject_toJson written
  have alone := fromJson?_of_toJson written
  constructor
  · intro front back split lost
    have lists : front.toList ++ back.toList = text := by
      rw [← String.toList_append, split, String.toList_ofList]
    have some : back.toList ≠ [] := by
      intro empty
      exact lost (String.toList_eq_nil_iff.mp empty)
    rw [fromJson?, object.read?_front lists some]
    rfl
  · intro suffix blank
    rw [alone, fromJson?, String.toList_append, String.toList_ofList, object.read?_append,
      if_pos (skipBlank_eq_nil_iff.mpr blank)]
    rfl
  · rintro suffix ⟨character, member, other⟩
    have unskipped : skipBlank suffix.toList ≠ [] := by
      intro skipped
      exact other (skipBlank_eq_nil_iff.mp skipped character member)
    rw [fromJson?, String.toList_append, String.toList_ofList, object.read?_append,
      if_neg unskipped]
    rfl

theorem guardedBytes_of_toCbor {bytes : List UInt8} (addressable : wire.Addressable)
    (written : wire.toCbor = .ok bytes) : GuardedBytes bytes := by
  have whole := readItem_toCbor addressable written
  have alone := fromCbor?_of_toCbor addressable written
  constructor
  · intro front back split lost
    rw [fromCbor?, Cbor.read?_front whole split lost]
    rfl
  · intro suffix
    rw [alone, fromCbor?, Cbor.read?_append whole]
    rfl

/-- Neither a record's text nor its bytes can be cut off without a failure to read
them. Blanks behind a text change nothing and anything else behind it is refused;
whatever stands behind the bytes changes nothing. -/
theorem damage_detected (noHost : wire.Everywhere Value.NoHost) :
    (∃ text, wire.jsonText = .ok text ∧ GuardedText text) ∧
      (wire.Addressable → ∃ bytes, wire.cborBytes = .ok bytes ∧ GuardedBytes bytes) := by
  constructor
  · obtain ⟨text, written⟩ := exists_toJson noHost
    exact ⟨String.ofList text, jsonText_of_toJson written, guardedText_of_toJson written⟩
  · intro addressable
    obtain ⟨bytes, written⟩ := exists_toCbor noHost
    exact ⟨bytes, cborBytes_of_toCbor written, guardedBytes_of_toCbor addressable written⟩

/-- A record of one value. -/
def single : WireRecord := ⟨"t", [.null], []⟩

/-- What is written of it, but for the last brace. -/
def singleFront : String :=
  "\x7b\x22type\x22:\x22t\x22,\x22visible\x22:[null],\x22hidden\x22:\x7b\x7d"

def singleBytes : List UInt8 :=
  [0xa3, 0x64, 0x74, 0x79, 0x70, 0x65, 0x61, 0x74, 0x67, 0x76, 0x69, 0x73, 0x69, 0x62, 0x6c,
    0x65, 0x81, 0xf6, 0x66, 0x68, 0x69, 0x64, 0x64, 0x65, 0x6e, 0xa0]

theorem damage_detected_single :
    (single.jsonText = .ok (singleFront ++ "\x7d") ∧ fromJson? singleFront = none ∧
      fromJson? (singleFront ++ "\x7d") = some single ∧
      fromJson? (singleFront ++ "\x7d" ++ "\n\t") = some single ∧
      fromJson? (singleFront ++ "\x7d" ++ " \x7d") = none) ∧
    single.cborBytes = .ok singleBytes ∧ fromCbor? (singleBytes.take 18) = none ∧
      fromCbor? singleBytes = some single ∧
      fromCbor? (singleBytes ++ [0xff]) = some single := by
  have noHost : single.Everywhere Value.NoHost := by decide
  have addressable : single.Addressable := by decide
  obtain ⟨⟨text, textWritten, guardedText⟩, rest⟩ := damage_detected noHost
  obtain ⟨bytes, bytesWritten, guardedBytes⟩ := rest addressable
  have textIs : single.jsonText = .ok (singleFront ++ "\x7d") := by
    have written : single.toJson = .ok (singleFront ++ "\x7d").toList := by cbv
    rw [jsonText_of_toJson written, String.ofList_toList]
  have bytesAre : single.cborBytes = .ok singleBytes := by rfl
  have textRead : fromJson? (singleFront ++ "\x7d") = some single := by
    have scanned : Node.read? (singleFront ++ "\x7d").toList = some (.object
        [(some "type", .string (some "t")), (some "visible", .array [.null]),
          (some "hidden", .object [])]) := by cbv
    rw [fromJson?, scanned]
    rfl
  have bytesRead : fromCbor? singleBytes = some single := by
    have scanned : Item.read? singleBytes = some (.map
        [(.text (Utf8.encode "type"), .text (Utf8.encode "t")),
          (.text (Utf8.encode "visible"), .array [.null]),
          (.text (Utf8.encode "hidden"), .map [])]) := rfl
    rw [fromCbor?, scanned]
    rfl
  rw [textIs] at textWritten
  cases textWritten
  rw [bytesAre] at bytesWritten
  cases bytesWritten
  refine ⟨⟨textIs, ?_, textRead, ?_, ?_⟩, bytesAre, ?_, bytesRead, ?_⟩
  · exact guardedText.front singleFront "\x7d" rfl (by decide)
  · exact (guardedText.blanks "\n\t" (by simp)).trans textRead
  · exact guardedText.others " \x7d" (by simp)
  · exact guardedBytes.front (singleBytes.take 18) (singleBytes.drop 18)
      (List.take_append_drop 18 singleBytes) (by decide)
  · exact (guardedBytes.suffix [0xff]).trans bytesRead

end WireRecord

end SlotRecord
