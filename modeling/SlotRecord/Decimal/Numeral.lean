import SlotRecord.Text.Digits

/-!
# Numerals

A numeral is a decimal as it is written: sign, whole part, digits after the
point, exponent. `Numeral.text` writes one and `Numeral.read` takes one from
the front of a text.
-/

namespace SlotRecord

structure Numeral where
  negative : Bool
  whole : Nat
  fraction : List Digit
  exponent : Option Int
deriving DecidableEq, Repr

namespace Numeral

/-- Without point and exponent. -/
def isInteger (numeral : Numeral) : Bool :=
  numeral.fraction.isEmpty && numeral.exponent.isNone

/-- All digits as one number. -/
def digits (numeral : Numeral) : Nat :=
  numeral.whole * 10 ^ numeral.fraction.length + Digits.toNat numeral.fraction

/-- The power of ten that the last digit counts. -/
def scale (numeral : Numeral) : Int :=
  numeral.exponent.getD 0 - numeral.fraction.length

/-- An exponent has its sign always, and leading zeros up to `width` digits. -/
def exponentText (width : Nat) (exponent : Int) : List Char :=
  let written := decimalText exponent.natAbs
  'e' :: (if exponent < 0 then '-' else '+') ::
    (List.replicate (width - written.length) '0' ++ written)

def text (exponentWidth : Nat) (numeral : Numeral) : List Char :=
  (if numeral.negative then ['-'] else []) ++ decimalText numeral.whole ++
    (if numeral.fraction.isEmpty then [] else '.' :: Digits.text numeral.fraction) ++
    (match numeral.exponent with
      | none => []
      | some exponent => exponentText exponentWidth exponent)

/-- A whole part: zero alone, or digits that do not begin with zero. -/
def readWhole (text : List Char) : Option (Nat × List Char) :=
  match Digits.read text with
  | ([], _) => none
  | (lead :: more, rest) =>
    if lead.val = 0 ∧ more ≠ [] then none else some (Digits.toNat (lead :: more), rest)

/-- The digits after a point, at least one; nothing if there is no point. -/
def readFraction : List Char → Option (List Digit × List Char)
  | '.' :: rest =>
    match Digits.read rest with
    | ([], _) => none
    | (digits, rest) => some (digits, rest)
  | rest => some ([], rest)

def readExponentDigits (negative : Bool) (text : List Char) :
    Option (Option Int × List Char) :=
  match Digits.read text with
  | ([], _) => none
  | (digits, rest) =>
    let absolute : Int := Digits.toNat digits
    some (some (if negative then -absolute else absolute), rest)

/-- An exponent after `e` or `E`, its sign optional; nothing if there is none. -/
def readExponent : List Char → Option (Option Int × List Char)
  | mark :: rest =>
    if mark = 'e' ∨ mark = 'E' then
      match rest with
      | '+' :: rest => readExponentDigits false rest
      | '-' :: rest => readExponentDigits true rest
      | rest => readExponentDigits false rest
    else
      some (none, mark :: rest)
  | [] => some (none, [])

def readUnsigned (negative : Bool) (text : List Char) : Option (Numeral × List Char) := do
  let (whole, rest) ← readWhole text
  let (fraction, rest) ← readFraction rest
  let (exponent, rest) ← readExponent rest
  return (⟨negative, whole, fraction, exponent⟩, rest)

def read : List Char → Option (Numeral × List Char)
  | '-' :: rest => readUnsigned true rest
  | text => readUnsigned false text

end Numeral

end SlotRecord
