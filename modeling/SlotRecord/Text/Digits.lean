/-!
# Digits and bytes

Natural numbers as lists of decimal digits, most significant first, and digits as
characters. Reading takes the longest run of digits in front of a text. Escapes have
hexadecimal digits. A word is written as its bytes in either order, and a text as the bytes
of its UTF-8 form: the bytes of a text decode to the text, and the bytes of a word that fits
their number are read as the word.
-/

namespace SlotRecord

/-!
## Powers

Bytes and digits are counted by powers of the base, so here powers begin. Core computes a
power of a natural number or an integer through `instPowNat`. Mathlib has another instance,
for every monoid, that is found first wherever it is imported. The two agree only after both
are unfolded: a lemma stated with the one would not rewrite a definition made with the
other. The priorities put core's instance first, so that `^` is the same power in every
module, whatever it imports.
-/

attribute [instance (high + 1), default_instance (high + 1)] instPowNat

/-! ## Decimal digits -/

abbrev Digit := Fin 10

namespace Digit

def toChar (digit : Digit) : Char := Char.ofNat (48 + digit.val)

def ofChar? (character : Char) : Option Digit :=
  if h : 48 ≤ character.toNat ∧ character.toNat < 58 then
    some ⟨character.toNat - 48, by omega⟩
  else
    none

end Digit

namespace Digits

/-- The digits of a number without leading zeros; zero is one digit. -/
def ofNat (number : Nat) : List Digit :=
  if number < 10 then [Fin.ofNat 10 number]
  else ofNat (number / 10) ++ [Fin.ofNat 10 number]

/-- The last `width` digits of a number, with leading zeros. -/
def fixed : Nat → Nat → List Digit
  | 0, _ => []
  | width + 1, number => fixed width (number / 10) ++ [Fin.ofNat 10 number]

def toNat (digits : List Digit) : Nat :=
  digits.foldl (fun number digit => 10 * number + digit.val) 0

def text (digits : List Digit) : List Char := digits.map Digit.toChar

def width (number : Nat) : Nat := (ofNat number).length

/-- The longest run of digits in front of a text, and what follows it. -/
def read : List Char → List Digit × List Char
  | [] => ([], [])
  | head :: tail =>
    match Digit.ofChar? head with
    | some digit => let (digits, rest) := read tail; (digit :: digits, rest)
    | none => ([], head :: tail)

end Digits

/-- A natural number as it is written in decimal. -/
def decimalText (number : Nat) : List Char := Digits.text (Digits.ofNat number)

/-! ## Hexadecimal digits -/

namespace Hex

/-- The lower-case digit of a number below 16. -/
def digit (number : Nat) : Char :=
  if number < 10 then Char.ofNat (48 + number) else Char.ofNat (87 + number)

/-- The last `width` digits of a number. -/
def fixed : Nat → Nat → List Char
  | 0, _ => []
  | width + 1, number => fixed width (number / 16) ++ [digit (number % 16)]

/-- The digits of a number without leading zeros. -/
def text (number : Nat) : List Char :=
  if number < 16 then [digit number] else text (number / 16) ++ [digit (number % 16)]

/-- The value of a digit of either case. -/
def value? (character : Char) : Option Nat :=
  let code := character.toNat
  if 48 ≤ code ∧ code < 58 then some (code - 48)
  else if 97 ≤ code ∧ code < 103 then some (code - 87)
  else if 65 ≤ code ∧ code < 71 then some (code - 55)
  else none

end Hex

/-! ## Bytes -/

namespace Utf8

def encode (text : String) : List UInt8 := text.toUTF8.data.toList

def decode? (bytes : List UInt8) : Option String := String.fromUTF8? ⟨bytes.toArray⟩

theorem decode?_encode (text : String) : decode? (encode text) = some text := by
  have valid : (ByteArray.mk text.toByteArray.data).IsValidUTF8 := text.isValidUTF8
  simp only [decode?, encode, String.fromUTF8?, String.toUTF8_eq_toByteArray,
    Array.toArray_toList]
  rw [dif_pos valid]
  rfl

theorem encode_of_decode? {bytes : List UInt8} {text : String}
    (decoded : decode? bytes = some text) : encode text = bytes := by
  simp only [decode?, String.fromUTF8?] at decoded
  split at decoded
  · cases decoded
    rfl
  · cases decoded

theorem length_encode (text : String) : (encode text).length = text.utf8ByteSize :=
  rfl

end Utf8

/-- The lowest `width` bytes of a number, the lowest first. -/
def littleEndian : Nat → Nat → List UInt8
  | 0, _ => []
  | width + 1, number => UInt8.ofNat (number % 256) :: littleEndian width (number / 256)

/-- The lowest `width` bytes of a number, the highest first. -/
def bigEndian (width number : Nat) : List UInt8 := (littleEndian width number).reverse

/-- The number whose bytes are given, the highest first. -/
def ofBigEndian (bytes : List UInt8) : Nat :=
  bytes.foldl (fun number byte => 256 * number + byte.toNat) 0

@[simp] theorem length_littleEndian (width number : Nat) :
    (littleEndian width number).length = width := by
  induction width generalizing number with
  | zero => rfl
  | succ width induction => simp [littleEndian, induction]

@[simp] theorem length_bigEndian (width number : Nat) :
    (bigEndian width number).length = width := by
  simp [bigEndian]

theorem ofBigEndian_append_singleton (bytes : List UInt8) (byte : UInt8) :
    ofBigEndian (bytes ++ [byte]) = 256 * ofBigEndian bytes + byte.toNat := by
  simp [ofBigEndian]

theorem ofBigEndian_bigEndian (width number : Nat) :
    ofBigEndian (bigEndian width number) = number % 256 ^ width := by
  induction width generalizing number with
  | zero => simp [bigEndian, littleEndian, ofBigEndian, Nat.mod_one]
  | succ width induction =>
      have others := induction (number / 256)
      rw [bigEndian] at others
      rw [bigEndian, littleEndian, List.reverse_cons, ofBigEndian_append_singleton,
        others, Nat.pow_succ, Nat.mul_comm (256 ^ width), Nat.mod_mul]
      simp
      omega

end SlotRecord
