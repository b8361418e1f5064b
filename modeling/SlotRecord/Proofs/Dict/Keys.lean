import Mathlib.Data.List.Sort
import SlotRecord.Proofs.Dict.Contents

/-!
# Keys of dictionaries

A dictionary in order has every key once, and it is determined by what it has under
each key. One that is made of entries without repeated keys has exactly their keys, and one
that is overridden by another has what the other has under its keys.
-/

namespace SlotRecord

namespace Dict

variable {α : Type} {entries : Dict α}

theorem isSome_get?_iff {key : String} :
    (get? key entries).isSome ↔ key ∈ keys entries := by
  induction entries with
  | nil => simp [get?, keys]
  | cons entry rest induction =>
      obtain ⟨name, value⟩ := entry
      rw [get?, keys, List.map_cons, List.mem_cons]
      split
      · rename_i same
        exact iff_of_true rfl (Or.inl same.symm)
      · rename_i different
        rw [induction]
        constructor
        · exact Or.inr
        · rintro (same | later)
          · exact absurd same.symm different
          · exact later

theorem get?_eq_none_of_not_mem_keys {key : String} (absent : key ∉ keys entries) :
    get? key entries = none := by
  rw [← Option.not_isSome_iff_eq_none, isSome_get?_iff]
  exact absent

theorem nodup_keys (ordered : Ordered entries) : (keys entries).Nodup := by
  apply List.pairwise_map.mpr
  apply ordered.imp
  intro earlier later before
  exact ne_of_lt before

theorem mem_keys_ofList {key : String} (member : key ∈ keys (ofList entries)) :
    key ∈ entries.map Prod.fst := by
  obtain ⟨entry, held, rfl⟩ := List.mem_map.mp member
  exact List.mem_map.mpr ⟨entry, mem_ofList held, rfl⟩

theorem keys_ofList_perm (distinct : (entries.map Prod.fst).Nodup) :
    (keys (ofList entries)).Perm (entries.map Prod.fst) := by
  apply (List.perm_ext_iff_of_nodup (nodup_keys (ordered_ofList entries)) distinct).mpr
  intro key
  constructor
  · exact mem_keys_ofList
  · intro member
    obtain ⟨⟨name, value⟩, held, rfl⟩ := List.mem_map.mp member
    exact List.mem_map.mpr ⟨_, mem_of_get? (get?_ofList distinct held), rfl⟩

/-- Two dictionaries in order that have the same under every key are one. -/
theorem ext_of_ordered {left right : Dict α} (leftOrdered : Ordered left)
    (rightOrdered : Ordered right) (same : ∀ key, get? key left = get? key right) :
    left = right := by
  have antisymm : Std.Antisymm fun earlier later : String × α => earlier.1 < later.1 :=
    ⟨fun _ _ before after => absurd after (lt_asymm before)⟩
  have irrefl : Std.Irrefl fun earlier later : String × α => earlier.1 < later.1 :=
    ⟨fun _ => lt_irrefl _⟩
  apply leftOrdered.eq_of_mem_iff rightOrdered
  rintro ⟨key, value⟩
  constructor
  · intro member
    exact mem_of_get? ((same key).symm.trans (get?_of_mem leftOrdered member))
  · intro member
    exact mem_of_get? ((same key).trans (get?_of_mem rightOrdered member))

theorem get?_erase (key name : String) (entries : Dict α) :
    get? name (erase key entries) = if key = name then none else get? name entries := by
  by_cases same : key = name
  · rw [if_pos same, ← same, get?_erase_self]
  · rw [if_neg same]
    induction entries with
    | nil => rfl
    | cons entry rest induction =>
        obtain ⟨first, value⟩ := entry
        by_cases erased : first = key
        · have gone : erase key ((first, value) :: rest) = erase key rest :=
            List.filter_cons_of_neg (by simp [erased])
          have different : first ≠ name := fun equality => same (erased.symm.trans equality)
          rw [gone, induction, get?, if_neg different]
        · have kept : erase key ((first, value) :: rest) = (first, value) :: erase key rest :=
            List.filter_cons_of_pos (by simpa using erased)
          rw [kept, get?, get?, induction]

theorem length_insert_of_none {key : String} (fresh : get? key entries = none) (value : α) :
    (insert key value entries).length = entries.length + 1 := by
  induction entries with
  | nil => rfl
  | cons entry rest induction =>
      obtain ⟨name, current⟩ := entry
      rw [get?] at fresh
      split at fresh
      · cases fresh
      · rename_i different
        rw [insert]
        split
        · rfl
        · rw [if_neg (Ne.symm different), List.length_cons, induction fresh]
          rfl

theorem length_erase {key : String} {value : α} (ordered : Ordered entries)
    (held : get? key entries = some value) :
    (erase key entries).length + 1 = entries.length := by
  have contents := congrArg Multiset.card (contents_erase id ordered held)
  rw [Multiset.card_add, Multiset.card_singleton, Dict.contents, Dict.contents,
    Multiset.coe_card, Multiset.coe_card, List.length_map, List.length_map] at contents
  omega

section

variable {base changes : Dict α}

def override (base changes : Dict α) : Dict α :=
  changes.foldl (fun found entry => insert entry.1 entry.2 found) base

theorem ordered_override (ordered : Ordered base) (changes : Dict α) :
    Ordered (override base changes) :=
  List.foldlRecOn changes _ ordered fun _ found entry _ =>
    ordered_insert entry.1 entry.2 found

theorem get?_override (ordered : Ordered changes) (key : String) (base : Dict α) :
    get? key (override base changes) = (get? key changes).or (get? key base) := by
  induction changes generalizing base with
  | nil => rfl
  | cons entry rest induction =>
      obtain ⟨name, value⟩ := entry
      obtain ⟨below, tail⟩ := List.pairwise_cons.mp ordered
      have later : get? key (override base ((name, value) :: rest)) =
          (get? key rest).or (get? key (insert name value base)) := induction tail _
      rw [later, get?_insert, get?]
      split
      · rename_i same
        subst same
        rw [get?_of_above below, Option.none_or, Option.some_or]
      · rfl

theorem mem_keys_override (ordered : Ordered changes) {key : String} :
    key ∈ keys (override base changes) ↔ key ∈ keys changes ∨ key ∈ keys base := by
  rw [← isSome_get?_iff, ← isSome_get?_iff, ← isSome_get?_iff, get?_override ordered,
    Option.isSome_or, Bool.or_eq_true]

theorem pairwise_keys (ordered : Ordered base) : (keys base).Pairwise (· < ·) :=
  List.pairwise_map.mpr ordered

end

end Dict

end SlotRecord
