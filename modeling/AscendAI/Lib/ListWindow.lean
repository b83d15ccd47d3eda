import Mathlib.Data.List.Basic
import Mathlib.Data.List.Infix
import Mathlib.Order.Lattice

/-!
# Windows of a growing list

A list that is only appended to has an oldest end and a newest end. `newest k l` is the
window of the `k` last elements; the oldest elements are `List.take`.
-/

namespace ListWindow

variable {α β : Type*}

/-- The `k` last elements of `l`, or all of them when there are fewer. -/
def newest (k : ℕ) (l : List α) : List α := l.drop (l.length - k)

@[simp] lemma length_newest (k : ℕ) (l : List α) : (newest k l).length = min k l.length := by
  simp only [newest, List.length_drop]
  omega

@[simp] lemma newest_zero (l : List α) : newest 0 l = [] := by
  simp [newest]

@[simp] lemma newest_nil (k : ℕ) : newest k ([] : List α) = [] := by
  simp [newest]

lemma newest_map (f : α → β) (k : ℕ) (l : List α) : (newest k l).map f = newest k (l.map f) := by
  simp [newest, List.map_drop]

lemma newest_min {k n : ℕ} {l : List α} (h : l.length ≤ n) : newest (min k n) l = newest k l := by
  have hstart : l.length - min k n = l.length - k := by omega
  rw [newest, newest, hstart]

lemma newest_newest (k n : ℕ) (l : List α) : newest k (newest n l) = newest (min k n) l := by
  have hstart : l.length - n + (min n l.length - k) = l.length - min k n := by omega
  rw [newest, length_newest, newest, List.drop_drop, hstart, newest]

/-- A suffix is determined by its length. -/
lemma suffix_iff_eq_newest {k : ℕ} {l m : List α} (hk : m.length = min k l.length) :
    m <:+ l ↔ m = newest k l := by
  rw [List.suffix_iff_eq_drop, hk, ← newest, newest_min le_rfl]

lemma newest_suffix (k : ℕ) (l : List α) : newest k l <:+ l :=
  (suffix_iff_eq_newest (length_newest k l)).mpr rfl

/-- Cutting a list to its oldest `n` elements before an append does not change the cut after it. -/
lemma take_take_append (n : ℕ) (l b : List α) : (l.take n ++ b).take n = (l ++ b).take n := by
  rcases le_total n l.length with h | h
  · rw [List.take_append_of_le_length (by simp [h]), List.take_append_of_le_length h, List.take_take,
      min_self]
  · rw [List.take_of_length_le h]

end ListWindow
