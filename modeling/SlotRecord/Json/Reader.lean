import SlotRecord.Decimal.Numeral

/-!
# JSON documents

A node is a document as it stands in a text: members keep their order and repetitions, and a
numeral is not yet a number. A string has no content if one of its escapes is half of a
surrogate pair.

`Node.read?` accepts exactly the texts of the JSON grammar. Every recursive call
of the node reader is paid for with fuel; two steps for each character are
always enough, because a step that takes no character is followed by one that
does.
-/

namespace SlotRecord

namespace Json

inductive Node
  | null
  | bool (value : Bool)
  | number (numeral : Numeral)
  | string (content : Option String)
  | array (items : List Node)
  | object (members : List (Option String × Node))
deriving Inhabited

/-- The containers that may be open at once while a document is decoded. -/
def nestingLimit : Nat := 127

def isBlank (character : Char) : Bool :=
  character == ' ' || character == '\t' || character == '\n' || character == '\r'

def skipBlank (text : List Char) : List Char := text.dropWhile isBlank

/-- A piece of a string: a character, or the code unit of an escape. -/
inductive Piece
  | character (value : Char)
  | unit (code : Nat)

def simpleEscape? (mark : Char) : Option Char :=
  if mark = '\x22' ∨ mark = '\\' ∨ mark = '/' then some mark
  else if mark = 'b' then some '\x08'
  else if mark = 'f' then some '\x0c'
  else if mark = 'n' then some '\n'
  else if mark = 'r' then some '\r'
  else if mark = 't' then some '\t'
  else none

/-- The number of four hexadecimal digits. -/
def codeUnit? (a b c d : Char) : Option Nat := do
  let a ← Hex.value? a
  let b ← Hex.value? b
  let c ← Hex.value? c
  let d ← Hex.value? d
  return ((a * 16 + b) * 16 + c) * 16 + d

/-- The pieces of a string after its opening quote, and what follows it. -/
def readPieces : List Char → Option (List Piece × List Char)
  | [] => none
  | '\x22' :: rest => some ([], rest)
  | '\\' :: 'u' :: a :: b :: c :: d :: rest => do
      let code ← codeUnit? a b c d
      let (pieces, rest) ← readPieces rest
      return (.unit code :: pieces, rest)
  | '\\' :: mark :: rest => do
      let value ← simpleEscape? mark
      let (pieces, rest) ← readPieces rest
      return (.character value :: pieces, rest)
  | value :: rest => do
      guard (0x20 ≤ value.toNat ∧ value ≠ '\\')
      let (pieces, rest) ← readPieces rest
      return (.character value :: pieces, rest)

/-- The characters that pieces stand for. Two units that form a surrogate pair
are one character; any other half of a pair stands for none. -/
def joinPieces : List Piece → Option (List Char)
  | [] => some []
  | .character value :: rest => (joinPieces rest).map (value :: ·)
  | .unit code :: rest =>
    if code < 0xd800 ∨ 0xe000 ≤ code then
      (joinPieces rest).map (Char.ofNat code :: ·)
    else
      match rest with
      | .unit low :: rest =>
        if code < 0xdc00 ∧ 0xdc00 ≤ low ∧ low < 0xe000 then
          (joinPieces rest).map
            (Char.ofNat (0x10000 + (code - 0xd800) * 0x400 + (low - 0xdc00)) :: ·)
        else
          none
      | _ => none

/-- A string after its opening quote. -/
def readString (text : List Char) : Option (Option String × List Char) := do
  let (pieces, rest) ← readPieces text
  return ((joinPieces pieces).map String.ofList, rest)

mutual

def readNode : Nat → List Char → Option (Node × List Char)
  | 0, _ => none
  | fuel + 1, text =>
    match text with
    | 'n' :: 'u' :: 'l' :: 'l' :: rest => some (.null, rest)
    | 't' :: 'r' :: 'u' :: 'e' :: rest => some (.bool true, rest)
    | 'f' :: 'a' :: 'l' :: 's' :: 'e' :: rest => some (.bool false, rest)
    | '\x22' :: rest => do
        let (content, rest) ← readString rest
        return (.string content, rest)
    | '[' :: rest =>
        match skipBlank rest with
        | ']' :: rest => some (.array [], rest)
        | rest => do
            let (items, rest) ← readItems fuel rest
            return (.array items, rest)
    | '\x7b' :: rest =>
        match skipBlank rest with
        | '\x7d' :: rest => some (.object [], rest)
        | rest => do
            let (members, rest) ← readMembers fuel rest
            return (.object members, rest)
    | text => do
        let (numeral, rest) ← Numeral.read text
        return (.number numeral, rest)

/-- One item or more, up to the closing bracket. -/
def readItems : Nat → List Char → Option (List Node × List Char)
  | 0, _ => none
  | fuel + 1, text => do
      let (head, rest) ← readNode fuel text
      match skipBlank rest with
      | ']' :: rest => some ([head], rest)
      | ',' :: rest => do
          let (tail, rest) ← readItems fuel (skipBlank rest)
          return (head :: tail, rest)
      | _ => none

/-- One member or more, up to the closing brace. -/
def readMembers : Nat → List Char → Option (List (Option String × Node) × List Char)
  | 0, _ => none
  | fuel + 1, text =>
    match text with
    | '\x22' :: rest => do
        let (key, rest) ← readString rest
        match skipBlank rest with
        | ':' :: rest => do
            let (head, rest) ← readNode fuel (skipBlank rest)
            match skipBlank rest with
            | '\x7d' :: rest => some ([(key, head)], rest)
            | ',' :: rest => do
                let (tail, rest) ← readMembers fuel (skipBlank rest)
                return ((key, head) :: tail, rest)
            | _ => none
        | _ => none
    | _ => none

end

/-- The document that a whole text is, blanks around it aside. -/
def Node.read? (text : List Char) : Option Node := do
  let start := skipBlank text
  let (node, rest) ← readNode (2 * start.length + 2) start
  guard (skipBlank rest = [])
  return node

end Json

end SlotRecord
