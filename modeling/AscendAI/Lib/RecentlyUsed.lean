import AscendAI.Lib.ListWindow
import AscendAI.Lib.OrderedDict
import Mathlib.Data.List.Dedup

/-!
# Recently used keys

A list without duplicates in the order of use, the key used last at its end. `List.dedup` of all uses is that
list, since it keeps the last occurrence of each key; a store with room for `n` keys holds the newest `n`.
-/

universe u

namespace RecentlyUsed
open ListWindow

variable {κ : Type u} [DecidableEq κ]

/-- A use of the key. -/
def touch (l : List κ) (k : κ) : List κ := l.erase k ++ [k]

lemma touch_of_notMem {l : List κ} {k : κ} (h : k ∉ l) : touch l k = l ++ [k] := by
  rw [touch, List.erase_of_not_mem h]

lemma length_touch_of_mem {l : List κ} {k : κ} (h : k ∈ l) : (touch l k).length = l.length := by
  have hpos := List.length_pos_of_mem h
  rw [touch, List.length_append, List.length_erase_of_mem h, List.length_singleton]
  omega

/-- One more use puts its key last. -/
theorem dedup_concat (uses : List κ) (k : κ) : (uses ++ [k]).dedup = touch uses.dedup k := by
  induction uses with
  | nil => simp [touch]
  | cons first uses ih =>
    rw [List.cons_append]
    by_cases hk : first = k
    · subst hk
      rw [List.dedup_cons_of_mem (by simp), ih]
      by_cases hmem : first ∈ uses
      · rw [List.dedup_cons_of_mem hmem]
      · have hmem' : first ∉ uses.dedup := fun h => hmem (List.mem_dedup.mp h)
        rw [List.dedup_cons_of_notMem hmem, touch_of_notMem hmem', touch, List.erase_cons_head]
    · by_cases hmem : first ∈ uses
      · rw [List.dedup_cons_of_mem hmem, List.dedup_cons_of_mem (List.mem_append_left _ hmem), ih]
      · have hmem' : first ∉ uses ++ [k] := by simp [hmem, hk]
        rw [List.dedup_cons_of_notMem hmem, List.dedup_cons_of_notMem hmem', ih, touch, touch,
          List.erase_cons_tail (by simpa using hk), List.cons_append]

section Newest

variable {n : ℕ} {l : List κ} {k : κ}

lemma newest_suffix_erase (hk : k ∉ newest n l) : newest n l <:+ l.erase k := by
  obtain ⟨old, hold⟩ := newest_suffix n l
  by_cases hmem : k ∈ old
  · refine ⟨old.erase k, ?_⟩
    conv_rhs => rw [← hold, List.erase_append_left _ hmem]
  · rw [List.erase_of_not_mem]
    · exact ⟨old, hold⟩
    · rw [← hold, List.mem_append, not_or]
      exact ⟨hmem, hk⟩

/-- A use of a key that is held. -/
lemma newest_touch_of_mem (hl : l.Nodup) (hk : k ∈ newest n l) : newest n (touch l k) = touch (newest n l) k := by
  obtain ⟨old, hold⟩ := newest_suffix n l
  have hmem : k ∈ l := (newest_suffix n l).subset hk
  have hnot : k ∉ old := by
    intro h
    rw [← hold] at hl
    exact (List.disjoint_of_nodup_append hl) h hk
  apply Eq.symm
  apply (suffix_iff_eq_newest _).mp
  · refine ⟨old, ?_⟩
    conv_rhs => rw [touch, ← hold, List.erase_append_right _ hnot]
    rw [touch, List.append_assoc]
  · rw [length_touch_of_mem hk, length_touch_of_mem hmem, length_newest]

/-- A use of a key that is not held makes room for it. -/
lemma newest_touch_of_notMem (hk : k ∉ newest n l) : newest n (touch l k) = newest n (newest n l ++ [k]) := by
  apply Eq.symm
  apply (suffix_iff_eq_newest _).mp
  · apply (newest_suffix n _).trans
    obtain ⟨old, hold⟩ := newest_suffix_erase hk
    exact ⟨old, by rw [touch, ← hold, List.append_assoc]⟩
  · rw [length_newest, List.length_append, length_newest, List.length_singleton]
    by_cases hmem : k ∈ l
    · have hlong : n < l.length := by
        by_contra hshort
        apply hk
        rwa [newest, Nat.sub_eq_zero_of_le (not_lt.mp hshort), List.drop_zero]
      rw [length_touch_of_mem hmem]
      omega
    · rw [touch_of_notMem hmem, List.length_append, List.length_singleton]
      omega

end Newest

end RecentlyUsed

namespace OrderedDict
open RecentlyUsed

variable {κ : Type u} {α : Type*}

lemma keys_of_popFirst? {d d' : OrderedDict κ α} {item : κ × α} (h : d.popFirst? = some (item, d')) :
    d.keys = item.1 :: d'.keys := by
  rw [keys, items_of_popFirst? h, List.map_cons, keys]

variable [DecidableEq κ]

lemma keys_moveToEnd? {d d' : OrderedDict κ α} {k : κ} (h : d.moveToEnd? k = some d') :
    d'.keys = touch d.keys k := by
  obtain ⟨v, -, rfl⟩ := Option.map_eq_some_iff.mp h
  rw [touch, keys, List.map_append, List.map_singleton, keys, List.Nodup.erase_eq_filter d.nodup, List.filter_map]
  congr 3
  funext item
  by_cases h : item.1 = k <;> simp [h]

lemma keys_set_of_notMem {d : OrderedDict κ α} {k : κ} (h : k ∉ d.keys) (v : α) :
    (d.set k v).keys = d.keys ++ [k] := by
  rw [set, dif_neg h, keys, List.map_append, List.map_singleton, keys]

lemma get?_moveToEnd? {d d' : OrderedDict κ α} {k : κ} (h : d.moveToEnd? k = some d') (k' : κ) :
    d'.get? k' = d.get? k' := by
  apply Option.ext
  intro v
  rw [get?_eq_some_iff, get?_eq_some_iff]
  exact (perm_of_moveToEnd? h).mem_iff

end OrderedDict
