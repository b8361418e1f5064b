import Mathlib.Data.Option.Basic
import SlotRecord.Json.Reader
import SlotRecord.Json.Writer

/-!
# JSON strings read back

Every character that a string is written with, as it is or escaped, is read as
one piece that stands for that character alone.
-/

namespace SlotRecord

theorem Hex.value?_digit {number : Nat} (bounded : number < 16) :
    Hex.value? (Hex.digit number) = some number := by
  have all : ∀ number < 16, Hex.value? (Hex.digit number) = some number := by decide
  exact all number bounded

namespace Json

/-- Four digits of a number below `2 ^ 16` are read as its code unit. -/
theorem codeUnit?_fixed {number : Nat} (bounded : number < 2 ^ 16) :
    ∃ a b c d, Hex.fixed 4 number = [a, b, c, d] ∧
      codeUnit? a b c d = some number := by
  refine ⟨_, _, _, _, rfl, ?_⟩
  have below : ∀ number, number % 16 < 16 := fun number => Nat.mod_lt _ (by decide)
  simp only [codeUnit?, Hex.value?_digit (below _), Option.bind_eq_bind,
    Option.bind_some, Option.pure_def, Option.some.injEq]
  omega

/-- A piece that stands for one character, whatever comes after it. -/
structure Stands (piece : Piece) (character : Char) : Prop where
  reads : ∀ rest, readPieces (escaped character ++ rest) =
    (readPieces rest).map fun found => (piece :: found.1, found.2)
  joins : ∀ pieces, joinPieces (piece :: pieces) =
    (joinPieces pieces).map (character :: ·)

theorem stands_of_simpleEscape {character : Char} (mark : Char)
    (written : escaped character = ['\\', mark])
    (escape : simpleEscape? mark = some character) (different : mark ≠ 'u') :
    Stands (.character character) character where
  reads rest := by
    rw [written]
    simp only [List.cons_append, List.nil_append]
    rw [readPieces]
    · simp only [escape, Option.bind_eq_bind, Option.bind_some, Option.pure_def]
      cases readPieces rest <;> rfl
    · intro _ _ _ _ _ equality
      exact absurd equality different
  joins _ := rfl

theorem stands_of_plain {character : Char} (written : escaped character = [character])
    (noQuote : character ≠ '\x22') (noBackslash : character ≠ '\\')
    (printable : 0x20 ≤ character.toNat) :
    Stands (.character character) character where
  reads rest := by
    rw [written]
    simp only [List.cons_append, List.nil_append]
    rw [readPieces]
    · have passes : (guard (0x20 ≤ character.toNat ∧ character ≠ '\\') : Option Unit) =
          some () := if_pos ⟨printable, noBackslash⟩
      rw [passes]
      simp only [Option.bind_eq_bind, Option.pure_def, Option.bind_some]
      cases readPieces rest <;> rfl
    · exact noQuote
    · intro _ _ _ _ _ equality
      exact absurd equality noBackslash
    · intro _ _ equality
      exact absurd equality noBackslash
  joins _ := rfl

theorem stands_of_code {character : Char}
    (written : escaped character = '\\' :: 'u' :: Hex.fixed 4 character.toNat)
    (control : character.toNat < 0x20) :
    Stands (.unit character.toNat) character where
  reads rest := by
    obtain ⟨a, b, c, d, digits, code⟩ :=
      codeUnit?_fixed (show character.toNat < 2 ^ 16 by omega)
    rw [written, digits]
    simp only [List.cons_append, List.nil_append]
    rw [readPieces]
    simp only [code, Option.bind_eq_bind, Option.bind_some, Option.pure_def]
    cases readPieces rest <;> rfl
  joins pieces := by
    have below : character.toNat < 0xd800 ∨ 0xe000 ≤ character.toNat :=
      Or.inl (by omega)
    rw [joinPieces.eq_def]
    simp only [if_pos below, Char.ofNat_toNat]

theorem exists_stands (character : Char) : ∃ piece, Stands piece character := by
  by_cases quote : character = '\x22'
  · subst quote
    exact ⟨_, stands_of_simpleEscape '\x22' rfl rfl (by decide)⟩
  by_cases backslash : character = '\\'
  · subst backslash
    exact ⟨_, stands_of_simpleEscape '\\' rfl rfl (by decide)⟩
  by_cases backspace : character = '\x08'
  · subst backspace
    exact ⟨_, stands_of_simpleEscape 'b' rfl rfl (by decide)⟩
  by_cases formFeed : character = '\x0c'
  · subst formFeed
    exact ⟨_, stands_of_simpleEscape 'f' rfl rfl (by decide)⟩
  by_cases newline : character = '\n'
  · subst newline
    exact ⟨_, stands_of_simpleEscape 'n' rfl rfl (by decide)⟩
  by_cases carriageReturn : character = '\r'
  · subst carriageReturn
    exact ⟨_, stands_of_simpleEscape 'r' rfl rfl (by decide)⟩
  by_cases tab : character = '\t'
  · subst tab
    exact ⟨_, stands_of_simpleEscape 't' rfl rfl (by decide)⟩
  by_cases control : character.toNat < 0x20
  · refine ⟨_, stands_of_code ?_ control⟩
    simp [escaped, quote, backslash, backspace, formFeed, newline, carriageReturn, tab,
      control]
  · refine ⟨_, stands_of_plain ?_ quote backslash (by omega)⟩
    simp [escaped, quote, backslash, backspace, formFeed, newline, carriageReturn, tab,
      control]

theorem readPieces_escaped (text rest : List Char) :
    ∃ pieces, readPieces (text.flatMap escaped ++ '\x22' :: rest) =
      some (pieces, rest) ∧
      joinPieces pieces = some text := by
  induction text with
  | nil => exact ⟨[], rfl, rfl⟩
  | cons character text induction =>
      obtain ⟨piece, stands⟩ := exists_stands character
      obtain ⟨pieces, scanned, joined⟩ := induction
      refine ⟨piece :: pieces, ?_, ?_⟩
      · rw [List.flatMap_cons, List.append_assoc, stands.reads, scanned]
        rfl
      · rw [stands.joins, joined]
        rfl

/-- Reading takes back the string that writing put in front of a text. -/
theorem readString_append (content : String) (rest : List Char) :
    readString (content.toList.flatMap escaped ++ '\x22' :: rest) =
      some (some content, rest) := by
  obtain ⟨pieces, scanned, joined⟩ := readPieces_escaped content.toList rest
  simp [readString, scanned, joined]

end Json

end SlotRecord
