/-!
# Dictionaries

A dictionary is a list of entries with strictly increasing keys. Keys are
ordered by code point, which is also the order of their UTF-8 bytes.
Insertion keeps the order and replaces the entry of an equal key.
-/

namespace SlotRecord

abbrev Dict (α : Type) := List (String × α)

namespace Dict

/-- The keys increase strictly, so that no key occurs twice. -/
def Ordered {α : Type} (entries : Dict α) : Prop :=
  entries.Pairwise fun earlier later => earlier.1 < later.1

def get? {α : Type} (key : String) : Dict α → Option α
  | [] => none
  | (name, value) :: rest => if name = key then some value else get? key rest

def insert {α : Type} (key : String) (value : α) : Dict α → Dict α
  | [] => [(key, value)]
  | (name, current) :: rest =>
    if key < name then (key, value) :: (name, current) :: rest
    else if key = name then (key, value) :: rest
    else (name, current) :: insert key value rest

def erase {α : Type} (key : String) (entries : Dict α) : Dict α :=
  entries.filter fun entry => entry.1 ≠ key

/-- Entries in any order; of several with one key the last one counts. -/
def ofList {α : Type} (entries : List (String × α)) : Dict α :=
  entries.foldl (fun found entry => insert entry.1 entry.2 found) []

def keys {α : Type} (entries : Dict α) : List String := entries.map Prod.fst

def contains {α : Type} (key : String) (entries : Dict α) : Bool :=
  (get? key entries).isSome

end Dict

end SlotRecord
