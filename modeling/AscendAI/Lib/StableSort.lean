import Mathlib.Data.List.Sort
import Mathlib.Order.Defs.LinearOrder

/-!
# Stable sorting

`list.sort(key=…)`: elements are ordered by their keys, and elements with equal keys stay in the order
in which they were.
-/

namespace StableSort

variable {α β κ : Type*} [LinearOrder κ]

/-- The positions of a list count up. -/
lemma pairwise_zipIdx (l : List α) (start : ℕ) : (l.zipIdx start).Pairwise fun a b => a.2 < b.2 := by
  have hrange := List.pairwise_lt_range' (s := start) (n := l.length)
  rw [← List.zipIdx_map_snd, List.pairwise_map] at hrange
  exact hrange

def sortBy (key : α → κ) (l : List α) : List α := l.insertionSort (fun a b => key a ≤ key b)

lemma sortBy_perm (key : α → κ) (l : List α) : (sortBy key l).Perm l :=
  List.perm_insertionSort _ l

lemma map_sortBy (f : α → β) (key : β → κ) (l : List α) :
    (sortBy (key ∘ f) l).map f = sortBy key (l.map f) :=
  List.map_insertionSort _ _ f l (fun _ _ _ _ => Iff.rfl)

/-- Ordered by key, and by `s` among equal keys. -/
def Lex (key : α → κ) (s : α → α → Prop) (a b : α) : Prop :=
  key a < key b ∨ key a = key b ∧ s a b

lemma key_le_of_lex {key : α → κ} {s : α → α → Prop} {a b : α} (h : Lex key s a b) : key a ≤ key b := by
  rcases h with h | h
  · exact h.le
  · exact h.1.le

/-- An element that comes before all of a sorted list is put behind the smaller keys only. -/
lemma pairwise_orderedInsert {key : α → κ} {s : α → α → Prop} {a : α} {l : List α}
    (hl : l.Pairwise (Lex key s)) (ha : ∀ b ∈ l, s a b) :
    (l.orderedInsert (fun a b => key a ≤ key b) a).Pairwise (Lex key s) := by
  induction l with
  | nil => exact List.pairwise_singleton ..
  | cons b l ih =>
    have hfirst := List.pairwise_cons.mp hl
    rw [List.orderedInsert_cons]
    by_cases hab : key a ≤ key b
    · rw [if_pos hab]
      refine List.pairwise_cons.mpr ⟨fun c hc => ?_, hl⟩
      have hac : key a ≤ key c := by
        rcases List.mem_cons.mp hc with rfl | hc
        · exact hab
        · exact hab.trans (key_le_of_lex (hfirst.1 c hc))
      rcases hac.lt_or_eq with hlt | heq
      · exact Or.inl hlt
      · exact Or.inr ⟨heq, ha c hc⟩
    · rw [if_neg hab]
      refine List.pairwise_cons.mpr ⟨fun c hc => ?_, ih hfirst.2 (fun c hc => ha c (List.mem_cons_of_mem b hc))⟩
      rcases (List.mem_orderedInsert _).mp hc with rfl | hc
      · exact Or.inl (not_le.mp hab)
      · exact hfirst.1 c hc

lemma pairwise_key_sortBy (key : α → κ) (l : List α) : (sortBy key l).Pairwise fun a b => key a ≤ key b :=
  List.pairwise_insertionSort _ l

lemma filter_orderedInsert {key : α → κ} (p : α → Bool) (a : α) {l : List α}
    (hl : l.Pairwise fun a b => key a ≤ key b) :
    (l.orderedInsert (fun a b => key a ≤ key b) a).filter p =
      if p a then (l.filter p).orderedInsert (fun a b => key a ≤ key b) a else l.filter p := by
  induction l with
  | nil => by_cases ha : p a <;> simp [ha]
  | cons b l ih =>
    have hb := List.pairwise_cons.mp hl
    by_cases hab : key a ≤ key b
    · rw [List.orderedInsert_cons, if_pos hab]
      by_cases ha : p a = true
      · have hle : ∀ c ∈ (b :: l).filter p, key a ≤ key c := by
          intro c hc
          rcases List.mem_cons.mp (List.mem_filter.mp hc).1 with rfl | hc
          · exact hab
          · exact hab.trans (hb.1 c hc)
        rw [if_pos ha, List.filter_cons_of_pos ha]
        cases hrest : (b :: l).filter p with
        | nil => rfl
        | cons c rest => rw [List.orderedInsert_cons, if_pos (hle c (hrest ▸ List.mem_cons_self))]
      · rw [if_neg ha, List.filter_cons_of_neg ha]
    · rw [List.orderedInsert_cons, if_neg hab]
      by_cases hpb : p b = true
      · rw [List.filter_cons_of_pos hpb, List.filter_cons_of_pos hpb, ih hb.2]
        split
        · rw [List.orderedInsert_cons, if_neg hab]
        · rfl
      · rw [List.filter_cons_of_neg hpb, List.filter_cons_of_neg hpb, ih hb.2]

/-- What is filtered out does not change the order of the rest. -/
theorem filter_sortBy (key : α → κ) (p : α → Bool) (l : List α) :
    (sortBy key l).filter p = sortBy key (l.filter p) := by
  induction l with
  | nil => rfl
  | cons a l ih =>
    have hinsert := filter_orderedInsert p a (pairwise_key_sortBy key l)
    rw [ih] at hinsert
    rw [sortBy, List.insertionSort_cons]
    rw [sortBy] at hinsert
    rw [hinsert]
    by_cases ha : p a = true
    · rw [if_pos ha, List.filter_cons_of_pos ha]
      rfl
    · rw [if_neg ha, List.filter_cons_of_neg ha]

lemma flatMap_filter_isEmpty (f : α → List β) (l : List α) :
    (l.filter fun a => !(f a).isEmpty).flatMap f = l.flatMap f := by
  induction l with
  | nil => rfl
  | cons a l ih =>
    rw [List.filter_cons, List.flatMap_cons]
    cases hfa : f a with
    | nil => exact ih
    | cons b bs => rw [List.isEmpty_cons, Bool.not_false, if_pos rfl, List.flatMap_cons, hfa, ih]

/-- Elements that give nothing may be left out before the sort. -/
theorem flatMap_sortBy_of_perm (key : α → κ) {f : α → List β} {l kept left : List α} (hsub : kept.Sublist l)
    (hperm : l.Perm (kept ++ left)) (hleft : ∀ a ∈ left, f a = []) :
    (sortBy key l).flatMap f = (sortBy key kept).flatMap f := by
  have hnil : left.filter (fun a => !(f a).isEmpty) = [] := by
    rw [List.filter_eq_nil_iff]
    intro a ha
    simp [hleft a ha]
  have hlength := (hperm.filter fun a => !(f a).isEmpty).length_eq
  rw [List.filter_append, hnil, List.append_nil] at hlength
  have hfilter := (hsub.filter fun a => !(f a).isEmpty).eq_of_length hlength.symm
  rw [← flatMap_filter_isEmpty f (sortBy key l), ← flatMap_filter_isEmpty f (sortBy key kept), filter_sortBy,
    filter_sortBy, hfilter]

/-- Stability: the order `s` that a list has is kept among equal keys. -/
theorem pairwise_sortBy (key : α → κ) {s : α → α → Prop} {l : List α} (h : l.Pairwise s) :
    (sortBy key l).Pairwise (Lex key s) := by
  induction l with
  | nil => exact List.Pairwise.nil
  | cons a l ih =>
    have ha := List.pairwise_cons.mp h
    apply pairwise_orderedInsert (ih ha.2)
    intro b hb
    exact ha.1 b ((sortBy_perm key l).mem_iff.mp hb)

end StableSort
