import Mathlib.Data.List.Induction
import Mathlib.Data.String.Basic
import SlotRecord.Dict

/-!
# Dictionaries in order

Inserting keeps the keys in order and answers for one key only. So entries that
are in order already are a dictionary as they stand, and of entries without
repeated keys none is lost.
-/

namespace SlotRecord

namespace Dict

variable {α : Type}

theorem get?_insert (key name : String) (value : α) (entries : Dict α) :
    get? key (insert name value entries) =
      if name = key then some value else get? key entries := by
  induction entries with
  | nil => rfl
  | cons entry rest induction =>
      obtain ⟨current, held⟩ := entry
      rw [insert]
      split
      · rfl
      · split
        · rename_i same
          subst same
          by_cases found : name = key
          · rw [get?, if_pos found, if_pos found]
          · rw [get?, get?, if_neg found, if_neg found, if_neg found]
        · rename_i different
          rw [get?, get?, induction]
          by_cases found : current = key
          · have other : name ≠ key := fun equality =>
              different (equality.trans found.symm)
            rw [if_pos found, if_neg other, if_pos found]
          · rw [if_neg found, if_neg found]

theorem mem_insert {entry : String × α} {name : String} {value : α} {entries : Dict α}
    (member : entry ∈ insert name value entries) :
    entry = (name, value) ∨ entry ∈ entries := by
  induction entries with
  | nil => exact Or.inl (List.mem_singleton.mp member)
  | cons head rest induction =>
      obtain ⟨current, held⟩ := head
      rw [insert] at member
      split at member
      · exact List.mem_cons.mp member
      · split at member
        · rcases List.mem_cons.mp member with rfl | later
          · exact Or.inl rfl
          · exact Or.inr (List.mem_cons_of_mem _ later)
        · rcases List.mem_cons.mp member with rfl | later
          · exact Or.inr List.mem_cons_self
          · rcases induction later with rfl | old
            · exact Or.inl rfl
            · exact Or.inr (List.mem_cons_of_mem _ old)

theorem ordered_insert (name : String) (value : α) {entries : Dict α}
    (ordered : Ordered entries) : Ordered (insert name value entries) := by
  induction entries with
  | nil => exact List.pairwise_singleton _ _
  | cons head rest induction =>
      obtain ⟨current, held⟩ := head
      obtain ⟨below, tailOrdered⟩ := List.pairwise_cons.mp ordered
      rw [insert]
      split
      · rename_i first
        refine List.pairwise_cons.mpr ⟨fun entry member => ?_, ordered⟩
        rcases List.mem_cons.mp member with rfl | later
        · exact first
        · exact lt_trans first (below entry later)
      · rename_i notFirst
        split
        · rename_i same
          subst same
          exact List.pairwise_cons.mpr ⟨below, tailOrdered⟩
        · rename_i different
          have after : current < name :=
            lt_of_le_of_ne (not_lt.mp notFirst) (Ne.symm different)
          refine List.pairwise_cons.mpr ⟨fun entry member => ?_, induction tailOrdered⟩
          rcases mem_insert member with rfl | old
          · exact after
          · exact below entry old

theorem insert_of_above {name : String} {value : α} {entries : Dict α}
    (above : ∀ entry ∈ entries, entry.1 < name) :
    insert name value entries = entries ++ [(name, value)] := by
  induction entries with
  | nil => rfl
  | cons head rest induction =>
      obtain ⟨current, held⟩ := head
      have before : current < name := above (current, held) List.mem_cons_self
      rw [insert, if_neg (lt_asymm before), if_neg (ne_of_gt before),
        induction fun entry member => above entry (List.mem_cons_of_mem _ member)]
      rfl

theorem ofList_append_singleton (entries : List (String × α)) (entry : String × α) :
    ofList (entries ++ [entry]) = insert entry.1 entry.2 (ofList entries) := by
  simp only [ofList, List.foldl_append, List.foldl_cons, List.foldl_nil]

theorem ordered_ofList (entries : List (String × α)) : Ordered (ofList entries) := by
  induction entries using List.reverseRecOn with
  | nil => exact List.Pairwise.nil
  | append_singleton entries entry induction =>
      rw [ofList_append_singleton]
      exact ordered_insert entry.1 entry.2 induction

theorem mem_ofList {entry : String × α} {entries : List (String × α)}
    (member : entry ∈ ofList entries) : entry ∈ entries := by
  induction entries using List.reverseRecOn with
  | nil => exact member
  | append_singleton entries last induction =>
      rw [ofList_append_singleton] at member
      rcases mem_insert member with rfl | old
      · exact List.mem_append_right _ List.mem_cons_self
      · exact List.mem_append_left _ (induction old)

theorem length_insert_le (name : String) (value : α) (entries : Dict α) :
    (insert name value entries).length ≤ entries.length + 1 := by
  induction entries with
  | nil => exact Nat.le_refl _
  | cons head rest induction =>
      obtain ⟨current, held⟩ := head
      rw [insert]
      split
      · exact Nat.le_refl _
      · split
        · exact Nat.le_succ _
        · exact Nat.succ_le_succ induction

theorem length_ofList_le (entries : List (String × α)) :
    (ofList entries).length ≤ entries.length := by
  induction entries using List.reverseRecOn with
  | nil => exact Nat.le_refl _
  | append_singleton entries entry induction =>
      rw [ofList_append_singleton, List.length_append]
      apply (length_insert_le entry.1 entry.2 (ofList entries)).trans
      exact Nat.succ_le_succ induction

/-- Entries in order are a dictionary as they stand. -/
theorem ofList_of_ordered {entries : List (String × α)} (ordered : Ordered entries) :
    ofList entries = entries := by
  induction entries using List.reverseRecOn with
  | nil => rfl
  | append_singleton entries entry induction =>
      obtain ⟨frontOrdered, _, below⟩ := List.pairwise_append.mp ordered
      rw [ofList_append_singleton, induction frontOrdered]
      exact insert_of_above fun earlier member =>
        below earlier member entry List.mem_cons_self

/-- Of entries without repeated keys none is lost. -/
theorem get?_ofList {entries : List (String × α)}
    (distinct : (entries.map Prod.fst).Nodup) {key : String} {value : α}
    (member : (key, value) ∈ entries) : get? key (ofList entries) = some value := by
  induction entries using List.reverseRecOn with
  | nil => cases member
  | append_singleton entries entry induction =>
      rw [List.map_append, List.map_singleton] at distinct
      obtain ⟨frontDistinct, _, disjoint⟩ := List.nodup_append.mp distinct
      rw [ofList_append_singleton, get?_insert]
      rcases List.mem_append.mp member with earlier | last
      · have different : key ≠ entry.1 :=
          disjoint key (List.mem_map.mpr ⟨_, earlier, rfl⟩) entry.1 List.mem_cons_self
        rw [if_neg (Ne.symm different)]
        exact induction frontDistinct earlier
      · rw [← List.mem_singleton.mp last, if_pos rfl]

/-- Of entries with one key the last one counts. -/
theorem get?_ofList_eq_last (key : String) (entries : List (String × α)) :
    get? key (ofList entries) =
      (entries.reverse.find? fun entry => entry.1 = key).map Prod.snd := by
  induction entries using List.reverseRecOn with
  | nil => rfl
  | append_singleton entries last induction =>
      rw [ofList_append_singleton, get?_insert, List.reverse_append,
        List.reverse_singleton, List.singleton_append, List.find?_cons]
      by_cases same : last.1 = key
      · simp [same]
      · simp [same, induction]

/-- Changing values leaves the order of the keys as it is. -/
theorem ordered_map {β : Type} (change : α → β) {entries : Dict α}
    (ordered : Ordered entries) :
    Ordered (entries.map fun entry => (entry.1, change entry.2)) :=
  List.pairwise_map.mpr ordered

theorem get?_map {β : Type} (change : α → β) (key : String) (entries : Dict α) :
    get? key (entries.map fun entry => (entry.1, change entry.2)) =
      (get? key entries).map change := by
  induction entries with
  | nil => rfl
  | cons entry rest induction =>
      simp only [List.map_cons, get?]
      split
      · rfl
      · exact induction

theorem insert_map {β : Type} (change : α → β) (key : String) (value : α)
    (entries : Dict α) :
    insert key (change value) (entries.map fun entry => (entry.1, change entry.2)) =
      (insert key value entries).map fun entry => (entry.1, change entry.2) := by
  induction entries with
  | nil => rfl
  | cons entry rest induction =>
      simp only [List.map_cons, insert]
      split
      · rfl
      · split
        · rfl
        · exact congrArg (List.cons _) induction

/-- Values can be changed before entries are put in order or after it. -/
theorem ofList_map {β : Type} (change : α → β) (entries : List (String × α)) :
    ofList (entries.map fun entry => (entry.1, change entry.2)) =
      (ofList entries).map fun entry => (entry.1, change entry.2) := by
  induction entries using List.reverseRecOn with
  | nil => rfl
  | append_singleton entries last induction =>
      rw [List.map_append, List.map_singleton, ofList_append_singleton, induction,
        ofList_append_singleton]
      exact insert_map change last.1 last.2 (ofList entries)

end Dict

end SlotRecord
