import SlotRecord.Text.Digits
import SlotRecord.Text.Unprintable

/-!
# Texts between quotes

The literal of a text inside the text of a value stands between single quotes, or between
double quotes if the text holds a single quote and no double one. Backslashes, the quote
itself and control characters are escaped, so the literal ends at its first unescaped
quote.

To a developer a text is shown between double quotes, and every character can be told from
every other: what has no mark of its own is written by its code point.
-/

namespace SlotRecord

namespace Literal

def singleQuote : Char := '\x27'

def doubleQuote : Char := '\x22'

def quoteOf (text : List Char) : Char :=
  if singleQuote ∈ text ∧ doubleQuote ∉ text then doubleQuote else singleQuote

def isControl (character : Char) : Bool :=
  decide (character.toNat < 0x20) ||
    (decide (0x7f ≤ character.toNat) && decide (character.toNat < 0xa0))

def escaped (quote character : Char) : List Char :=
  if character = '\\' then ['\\', '\\']
  else if character = '\n' then ['\\', 'n']
  else if character = '\r' then ['\\', 'r']
  else if character = '\t' then ['\\', 't']
  else if character = quote then ['\\', quote]
  else if isControl character then '\\' :: 'x' :: Hex.fixed 2 character.toNat
  else [character]

def write (text : List Char) : List Char :=
  let quote := quoteOf text
  quote :: (text.flatMap (escaped quote) ++ [quote])

end Literal

namespace Inspect

def escaped (character : Char) : List Char :=
  if character = '\x00' then ['\\', '0']
  else if character = '\t' then ['\\', 't']
  else if character = '\r' then ['\\', 'r']
  else if character = '\n' then ['\\', 'n']
  else if character = '\x22' then ['\\', '\x22']
  else if character = '\\' then ['\\', '\\']
  else if character.toNat < 0x20 ∨ isUnprintable character then
    ['\\', 'u', '\x7b'] ++ Hex.text character.toNat ++ ['\x7d']
  else [character]

def text (content : List Char) : List Char :=
  '\x22' :: (content.flatMap escaped ++ ['\x22'])

end Inspect

/-- The text between double quotes, as shown to a developer. -/
def inspectText (content : String) : String :=
  String.ofList (Inspect.text content.toList)

end SlotRecord
