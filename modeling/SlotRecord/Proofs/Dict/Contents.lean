import Mathlib.Algebra.Order.Group.Multiset
import SlotRecord.Proofs.Dict

/-!
# Contents of dictionaries

What the values of a dictionary contribute, whatever their keys. An entry that is
stored contributes its own value in place of that which it overwrites, and an
entry that is erased takes its contribution along.
-/

namespace SlotRecord

namespace Dict

variable {α β : Type}

def contents (of : α → β) (entries : Dict α) : Multiset β :=
  (entries.map fun entry => of entry.2 : List β)

variable (of : α → β) {key : String} {value old : α} {entries : Dict α}

theorem contents_cons (entry : String × α) :
    contents of (entry :: entries) = {of entry.2} + contents of entries := rfl

theorem mem_of_get? (held : get? key entries = some value) : (key, value) ∈ entries := by
  induction entries with
  | nil => cases held
  | cons entry rest induction =>
      obtain ⟨name, current⟩ := entry
      rw [get?] at held
      split at held
      · rename_i same
        cases held
        rw [same]
        exact List.mem_cons_self
      · exact List.mem_cons_of_mem _ (induction held)

theorem get?_of_mem (ordered : Ordered entries) (member : (key, value) ∈ entries) :
    get? key entries = some value := by
  induction entries with
  | nil => cases member
  | cons entry rest induction =>
      obtain ⟨below, tail⟩ := List.pairwise_cons.mp ordered
      rw [get?]
      rcases List.mem_cons.mp member with rfl | later
      · exact if_pos rfl
      · rw [if_neg (ne_of_lt (below _ later))]
        exact induction tail later

theorem get?_of_above (above : ∀ entry ∈ entries, key < entry.1) :
    get? key entries = none := by
  cases found : get? key entries with
  | none => rfl
  | some value => exact absurd (above _ (mem_of_get? found)) (lt_irrefl key)

theorem ordered_erase (key : String) (ordered : Ordered entries) :
    Ordered (erase key entries) :=
  List.Pairwise.filter _ ordered

theorem get?_erase_self (key : String) (entries : Dict α) :
    get? key (erase key entries) = none := by
  cases found : get? key (erase key entries) with
  | none => rfl
  | some value =>
      have different := (List.mem_filter.mp (mem_of_get? found)).2
      exact absurd rfl (of_decide_eq_true different)

theorem mem_contents_iff {item : β} :
    item ∈ contents of entries ↔ ∃ entry ∈ entries, of entry.2 = item := by
  rw [contents, Multiset.mem_coe, List.mem_map]

theorem mem_contents (held : get? key entries = some value) :
    of value ∈ contents of entries :=
  (mem_contents_iff of).mpr ⟨_, mem_of_get? held, rfl⟩

/-- What the entry of a key contributes, if there is one. -/
def contribution (key : String) (entries : Dict α) : Multiset β :=
  match get? key entries with
  | none => 0
  | some old => {of old}

theorem contribution_of_none (fresh : get? key entries = none) :
    contribution of key entries = 0 := by
  rw [contribution, fresh]

theorem contribution_of_some (held : get? key entries = some old) :
    contribution of key entries = {of old} := by
  rw [contribution, held]

theorem contents_insert (key : String) (value : α) (ordered : Ordered entries) :
    contribution of key entries + contents of (insert key value entries) =
      {of value} + contents of entries := by
  induction entries with
  | nil => rfl
  | cons entry rest induction =>
      obtain ⟨name, current⟩ := entry
      obtain ⟨below, tail⟩ := List.pairwise_cons.mp ordered
      rw [insert]
      split
      · rename_i first
        have absent : get? key ((name, current) :: rest) = none := by
          apply get?_of_above
          intro entry member
          rcases List.mem_cons.mp member with rfl | later
          · exact first
          · exact lt_trans first (below entry later)
        rw [contribution_of_none of absent, zero_add, contents_cons]
      · split
        · rename_i same
          subst same
          have here : get? key ((key, current) :: rest) = some current := if_pos rfl
          rw [contribution_of_some of here, contents_cons, contents_cons, add_left_comm]
        · rename_i different
          have later : contribution of key ((name, current) :: rest) =
              contribution of key rest := by
            rw [contribution, contribution, get?, if_neg (Ne.symm different)]
          rw [later, contents_cons, contents_cons, add_left_comm, induction tail,
            add_left_comm]

theorem contents_erase (ordered : Ordered entries)
    (held : get? key entries = some old) :
    {of old} + contents of (erase key entries) = contents of entries := by
  induction entries with
  | nil => cases held
  | cons entry rest induction =>
      obtain ⟨name, current⟩ := entry
      obtain ⟨below, tail⟩ := List.pairwise_cons.mp ordered
      rw [get?] at held
      split at held
      · rename_i same
        cases held
        subst same
        have others : erase name rest = rest := by
          apply List.filter_eq_self.mpr
          intro entry member
          exact decide_eq_true (ne_of_gt (below entry member))
        have gone : erase name ((name, old) :: rest) = erase name rest :=
          List.filter_cons_of_neg (by simp)
        rw [gone, others, contents_cons]
      · rename_i different
        have kept : erase key ((name, current) :: rest) =
            (name, current) :: erase key rest :=
          List.filter_cons_of_pos (by simpa using different)
        rw [kept, contents_cons, contents_cons, add_left_comm, induction tail held]

end Dict

end SlotRecord
