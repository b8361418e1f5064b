import SlotRecord.Fault
import SlotRecord.Dict
import SlotRecord.Number

/-!
# Values

A value is what a slot of a record holds. Lists and dictionaries nest; the
entries of a dictionary are kept in key order. A host object belongs to the
embedding program and is known by its identity alone.
-/

namespace SlotRecord

structure Host where
  identity : String
  typeName : String
  rendering : Except Fault String
  digest : Except Fault UInt64

/-- The digest of a host object that does not define one. -/
def Host.noDigest : Except Fault UInt64 := .error (.unhashable "host object")

inductive Value
  | null
  | bool (value : Bool)
  | number (value : Number)
  | text (value : String)
  | list (items : List Value)
  | dict (entries : List (String × Value))
  | host (object : Host)
deriving Inhabited

namespace Value

/-- The name of a value's kind in messages. -/
def kind : Value → String
  | .null => "None"
  | .bool _ => "bool"
  | .number (.real _) => "float"
  | .number _ => "int"
  | .text _ => "str"
  | .list _ => "list"
  | .dict _ => "dict"
  | .host object => object.typeName

def isNull : Value → Bool
  | .null => true
  | _ => false

def bool? : Value → Option Bool
  | .bool value => some value
  | _ => none

def number? : Value → Option Number
  | .number value => some value
  | _ => none

def text? : Value → Option String
  | .text value => some value
  | _ => none

def items? : Value → Option (List Value)
  | .list items => some items
  | _ => none

def entries? : Value → Option (Dict Value)
  | .dict entries => some entries
  | _ => none

def host? : Value → Option Host
  | .host object => some object
  | _ => none

def toInt64? (value : Value) : Option Int64 := value.number?.bind Number.toInt64?

def toUInt64? (value : Value) : Option UInt64 := value.number?.bind Number.toUInt64?

def toBinary64? (value : Value) : Option Binary64 := value.number?.map Number.toBinary64

/-- The value under a key of a dictionary. -/
def get? (value : Value) (key : String) : Option Value :=
  value.entries?.bind (Dict.get? key)

mutual

/-- The number of containers on the longest path into a value. -/
def depth : Value → Nat
  | .list items => depthItems items + 1
  | .dict entries => depthEntries entries + 1
  | _ => 0

def depthItems : List Value → Nat
  | [] => 0
  | head :: tail => max head.depth (depthItems tail)

def depthEntries : List (String × Value) → Nat
  | [] => 0
  | (_, head) :: tail => max head.depth (depthEntries tail)

end

mutual

/-- Equality of values: numbers by what they denote, host objects by identity. -/
def equal : Value → Value → Bool
  | .null, .null => true
  | .bool x, .bool y => x == y
  | .number x, .number y => x.equal y
  | .text x, .text y => x == y
  | .list xs, .list ys => equalItems xs ys
  | .dict xs, .dict ys => equalEntries xs ys
  | .host x, .host y => x.identity == y.identity
  | _, _ => false

def equalItems : List Value → List Value → Bool
  | [], [] => true
  | x :: xs, y :: ys => x.equal y && equalItems xs ys
  | _, _ => false

def equalEntries : List (String × Value) → List (String × Value) → Bool
  | [], [] => true
  | (k, x) :: xs, (l, y) :: ys => k == l && x.equal y && equalEntries xs ys
  | _, _ => false

end

end Value

end SlotRecord
