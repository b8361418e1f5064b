import Mathlib.Data.Option.Basic
import Mathlib.Tactic.SplitIfs
import SlotRecord.Proofs.Json.String
import SlotRecord.Text.Literal

/-!
# String literals read back

A literal tells its text: its first character is the quote that ends it, and every
escape stands for one character. So the end of a literal is found whatever follows.
-/

namespace SlotRecord

namespace Literal

def IsQuote (character : Char) : Prop := character = singleQuote ∨ character = doubleQuote

instance : DecidablePred IsQuote := fun character =>
  inferInstanceAs (Decidable (character = singleQuote ∨ character = doubleQuote))

/-- The character of an escape that has no number. -/
def simpleEscape? (quote mark : Char) : Option Char :=
  if mark = 'n' then some '\n'
  else if mark = 'r' then some '\r'
  else if mark = 't' then some '\t'
  else if mark = '\\' ∨ mark = quote then some mark
  else none

/-- The characters of a literal after its opening quote, and what follows it. -/
def readCharacters (quote : Char) : List Char → Option (List Char × List Char)
  | [] => none
  | '\\' :: 'x' :: high :: low :: rest => do
      let high ← Hex.value? high
      let low ← Hex.value? low
      let (content, rest) ← readCharacters quote rest
      return (Char.ofNat (high * 16 + low) :: content, rest)
  | '\\' :: mark :: rest => do
      let character ← simpleEscape? quote mark
      let (content, rest) ← readCharacters quote rest
      return (character :: content, rest)
  | character :: rest =>
      if character = quote then some ([], rest)
      else do
        let (content, rest) ← readCharacters quote rest
        return (character :: content, rest)

/-- The text of a literal, and what follows it. -/
def read : List Char → Option (List Char × List Char)
  | [] => none
  | quote :: rest => if IsQuote quote then readCharacters quote rest else none

theorem isQuote_quoteOf (text : List Char) : IsQuote (quoteOf text) := by
  rw [quoteOf]
  split
  · exact Or.inr rfl
  · exact Or.inl rfl

theorem readCharacters_quote {quote : Char} (isQuote : IsQuote quote) (rest : List Char) :
    readCharacters quote (quote :: rest) = some ([], rest) := by
  rcases isQuote with rfl | rfl <;> rfl

theorem readCharacters_simple {quote mark character : Char}
    (escape : simpleEscape? quote mark = some character) (noNumber : mark ≠ 'x')
    (rest : List Char) :
    readCharacters quote ('\\' :: mark :: rest) =
      (readCharacters quote rest).map fun found => (character :: found.1, found.2) := by
  rw [readCharacters, escape]
  · simp only [Option.bind_eq_bind, Option.bind_some]
    cases readCharacters quote rest <;> rfl
  · exact fun _ _ _ same => absurd same noNumber

theorem readCharacters_number {quote character : Char} (narrow : character.toNat < 256)
    (rest : List Char) :
    readCharacters quote ('\\' :: 'x' :: (Hex.fixed 2 character.toNat ++ rest)) =
      (readCharacters quote rest).map fun found => (character :: found.1, found.2) := by
  have high : character.toNat / 16 % 16 < 16 := Nat.mod_lt _ (by decide)
  have low : character.toNat % 16 < 16 := Nat.mod_lt _ (by decide)
  have whole : character.toNat / 16 % 16 * 16 + character.toNat % 16 = character.toNat := by
    omega
  have digits : Hex.fixed 2 character.toNat =
      [Hex.digit (character.toNat / 16 % 16), Hex.digit (character.toNat % 16)] := rfl
  rw [digits, List.cons_append, List.cons_append, List.nil_append, readCharacters,
    Hex.value?_digit high, Hex.value?_digit low]
  simp only [Option.bind_eq_bind, Option.bind_some, whole, Char.ofNat_toNat]
  cases readCharacters quote rest <;> rfl

theorem readCharacters_plain {quote character : Char} (noBackslash : character ≠ '\\')
    (noQuote : character ≠ quote) (rest : List Char) :
    readCharacters quote (character :: rest) =
      (readCharacters quote rest).map fun found => (character :: found.1, found.2) := by
  rw [readCharacters, if_neg noQuote]
  · cases readCharacters quote rest <;> rfl
  · exact fun _ _ _ same => absurd same noBackslash
  · exact fun _ _ same => absurd same noBackslash

theorem toNat_lt_of_isControl {character : Char} (control : isControl character = true) :
    character.toNat < 256 := by
  simp only [isControl, Bool.or_eq_true, Bool.and_eq_true, decide_eq_true_eq] at control
  omega

/-- However a character is written, it is read as itself. -/
theorem readCharacters_escaped {quote : Char} (isQuote : IsQuote quote) (character : Char)
    (rest : List Char) :
    readCharacters quote (escaped quote character ++ rest) =
      (readCharacters quote rest).map fun found => (character :: found.1, found.2) := by
  rw [escaped]
  split_ifs with backslash newline carriage tab same control
  · subst backslash
    exact readCharacters_simple rfl (by decide) rest
  · subst newline
    exact readCharacters_simple rfl (by decide) rest
  · subst carriage
    exact readCharacters_simple rfl (by decide) rest
  · subst tab
    exact readCharacters_simple rfl (by decide) rest
  · subst same
    rcases isQuote with rfl | rfl
    · exact readCharacters_simple rfl (by decide) rest
    · exact readCharacters_simple rfl (by decide) rest
  · exact readCharacters_number (toNat_lt_of_isControl control) rest
  · exact readCharacters_plain backslash same rest

theorem readCharacters_flatMap {quote : Char} (isQuote : IsQuote quote)
    (content rest : List Char) :
    readCharacters quote (content.flatMap (escaped quote) ++ quote :: rest) =
      some (content, rest) := by
  induction content with
  | nil => exact readCharacters_quote isQuote rest
  | cons character content induction =>
      rw [List.flatMap_cons, List.append_assoc, readCharacters_escaped isQuote, induction]
      rfl

/-- Reading takes back the text of a literal that was written in front of a text. -/
theorem read_write_append (content rest : List Char) :
    read (write content ++ rest) = some (content, rest) := by
  have isQuote := isQuote_quoteOf content
  rw [write, List.cons_append, List.append_assoc, List.singleton_append, read,
    if_pos isQuote]
  exact readCharacters_flatMap isQuote content rest

end Literal

end SlotRecord
