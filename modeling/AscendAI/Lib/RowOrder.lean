import Mathlib.Data.List.Sort

/-!
# ORDER BY

A query sorts its rows by a total transitive relation. When no two different rows of the
table are equivalent under it, the answer is determined by the set of rows: it can be
computed from any list of them, commutes with `WHERE`, and the place of a row is the
number of rows before it.
-/

namespace RowOrder

variable {α : Type*} (r : α → α → Prop) [DecidableRel r]

def orderBy (rows : List α) : List α := rows.insertionSort r

/-- No two different rows are equivalent under `r`. -/
def Determined (rows : List α) : Prop := ∀ a ∈ rows, ∀ b ∈ rows, r a b → r b a → a = b

lemma orderBy_perm (rows : List α) : (orderBy r rows).Perm rows := List.perm_insertionSort r rows

@[simp] lemma mem_orderBy {a : α} {rows : List α} : a ∈ orderBy r rows ↔ a ∈ rows :=
  (orderBy_perm r rows).mem_iff

@[simp] lemma length_orderBy (rows : List α) : (orderBy r rows).length = rows.length :=
  (orderBy_perm r rows).length_eq

variable [Std.Total r] [IsTrans α r]

lemma pairwise_orderBy (rows : List α) : (orderBy r rows).Pairwise r :=
  List.pairwise_insertionSort r rows

/-- The answer is the only sorted list of the rows. -/
theorem orderBy_eq_of_perm {rows l : List α} (hd : Determined r rows) (hl : l.Perm rows)
    (hs : l.Pairwise r) : orderBy r rows = l := by
  have hp : (orderBy r rows).Perm l := (orderBy_perm r rows).trans hl.symm
  refine hp.eq_of_pairwise (fun a b ha hb => ?_) (pairwise_orderBy r rows) hs
  exact hd a ((mem_orderBy r).mp ha) b (hl.mem_iff.mp hb)

lemma orderBy_filter {rows : List α} (hd : Determined r rows) (p : α → Bool) :
    orderBy r (rows.filter p) = (orderBy r rows).filter p := by
  have hf : Determined r (rows.filter p) := fun a ha b hb =>
    hd a (List.mem_of_mem_filter ha) b (List.mem_of_mem_filter hb)
  exact orderBy_eq_of_perm r hf ((orderBy_perm r rows).filter p)
    ((pairwise_orderBy r rows).sublist List.filter_sublist)

/-- A new row after every other one is read last. -/
lemma orderBy_append_greatest {rows : List α} {x : α} (hd : Determined r (rows ++ [x]))
    (hx : ∀ a ∈ rows, r a x) : orderBy r (rows ++ [x]) = orderBy r rows ++ [x] := by
  refine orderBy_eq_of_perm r hd ((orderBy_perm r rows).append_right [x]) ?_
  rw [List.pairwise_append]
  refine ⟨pairwise_orderBy r rows, List.pairwise_singleton r x, fun a ha b hb => ?_⟩
  rw [List.mem_singleton.mp hb]
  exact hx a ((mem_orderBy r).mp ha)

/-- A row is read first exactly when it is before every other one, and the other rows keep
their order. -/
lemma orderBy_append_eq_cons_iff {rows : List α} {x : α} (hd : Determined r (rows ++ [x])) :
    orderBy r (rows ++ [x]) = x :: orderBy r rows ↔ ∀ a ∈ rows, r x a := by
  constructor
  · intro h a ha
    have hs := pairwise_orderBy r (rows ++ [x])
    rw [h, List.pairwise_cons] at hs
    exact hs.1 a ((mem_orderBy r).mpr ha)
  · intro h
    refine orderBy_eq_of_perm r hd ?_ ?_
    · exact ((orderBy_perm r rows).cons x).trans (List.perm_append_singleton x rows).symm
    · exact List.pairwise_cons.mpr ⟨fun a ha => h a ((mem_orderBy r).mp ha), pairwise_orderBy r rows⟩

lemma head?_orderBy_eq_some_iff {rows : List α} {x : α} (hd : Determined r rows) :
    (orderBy r rows).head? = some x ↔ x ∈ rows ∧ ∀ a ∈ rows, r x a := by
  have hs := pairwise_orderBy r rows
  have hmem : ∀ a, a ∈ orderBy r rows ↔ a ∈ rows := fun a => mem_orderBy r
  cases hrows : orderBy r rows with
  | nil => simp [← hmem, hrows]
  | cons y rest =>
    rw [hrows, List.pairwise_cons] at hs
    have hfirst : ∀ a ∈ rows, r y a := by
      intro a ha
      rcases List.mem_cons.mp (hrows ▸ (hmem a).mpr ha) with rfl | hrest
      · exact (total_of r a a).elim id id
      · exact hs.1 a hrest
    have hy : y ∈ rows := (hmem y).mp (by simp [hrows])
    simp only [List.head?_cons, Option.some.injEq]
    constructor
    · rintro rfl
      exact ⟨hy, hfirst⟩
    · rintro ⟨hx, hbefore⟩
      exact hd y hy x hx (hfirst x hx) (hbefore y hy)

omit [DecidableRel r] [Std.Total r] [IsTrans α r] in
/-- Where an element that occurs once stands in a list decides when a prefix ends in it. -/
lemma getLast?_take_middle {a b : List α} {x : α} (hx : x ∉ a ++ b) (n : ℕ) :
    ((a ++ x :: b).take n).getLast? = some x ↔ a.length + 1 = min n (a.length + b.length + 1) := by
  rcases Nat.lt_or_ge a.length n with hn | hn
  · obtain ⟨m, rfl⟩ : ∃ m, n = a.length + (m + 1) := ⟨n - a.length - 1, by omega⟩
    rw [List.take_length_add_append, List.take_succ_cons]
    rcases List.eq_nil_or_concat (b.take m) with hb | ⟨c, y, hb⟩
    · have hlen : min m b.length = 0 := by rw [← List.length_take, hb, List.length_nil]
      simp only [hb, List.getLast?_append, List.getLast?_singleton, Option.some_or, true_iff]
      omega
    · have hlen : min m b.length ≠ 0 := by rw [← List.length_take, hb]; simp
      have hy : y ∈ b := List.mem_of_mem_take (by rw [hb]; simp : y ∈ b.take m)
      have hne : y ≠ x := fun h => hx (List.mem_append_right a (h ▸ hy))
      have hlast : (a ++ x :: b.take m).getLast? = some y := by
        have hsplit : a ++ x :: b.take m = (a ++ x :: c) ++ [y] := by rw [hb]; simp
        rw [hsplit, List.getLast?_concat]
      simp only [hlast, Option.some.injEq, hne, false_iff]
      omega
  · rw [List.take_append_of_le_length hn]
    constructor
    · intro h
      exact absurd (List.mem_append_left b (List.mem_of_mem_take (List.mem_of_getLast? h))) hx
    · omega

/-- Among the first `n` rows of an answer, `x` is the last exactly when as many rows are read
before it as there are places for them. -/
theorem getLast?_take_orderBy_iff {rows : List α} {x : α} (hd : Determined r (rows ++ [x]))
    (hx : x ∉ rows) (n : ℕ) :
    ((orderBy r (rows ++ [x])).take n).getLast? = some x ↔
      (rows.filter (fun a => r a x)).length + 1 = min n (rows.length + 1) := by
  have hmem : x ∈ orderBy r (rows ++ [x]) := (mem_orderBy r).mpr (by simp)
  obtain ⟨a, b, hab⟩ := List.append_of_mem hmem
  have hperm : (a ++ b).Perm rows := by
    have h := (orderBy_perm r (rows ++ [x])).symm
    rw [hab] at h
    exact (((List.perm_append_singleton x rows).symm.trans h).trans List.perm_middle).cons_inv.symm
  have hs := pairwise_orderBy r (rows ++ [x])
  rw [hab, List.pairwise_append, List.pairwise_cons] at hs
  have ha : ∀ y ∈ a, r y x := fun y hy => hs.2.2 y hy x (by simp)
  have hb : ∀ y ∈ b, ¬r y x := by
    intro y hy hyx
    have hmem' : y ∈ rows := hperm.mem_iff.mp (List.mem_append_right a hy)
    have heq := hd y (by simp [hmem']) x (by simp) hyx (hs.2.1.1 y hy)
    exact hx (heq ▸ hmem')
  have hcount : (rows.filter (fun y => r y x)).length = a.length := by
    rw [← (hperm.filter _).length_eq, List.filter_append, List.filter_eq_self.mpr (by simpa using ha),
      List.filter_eq_nil_iff.mpr (by simpa using hb), List.append_nil]
  have hlen : a.length + b.length = rows.length := by rw [← hperm.length_eq, List.length_append]
  have hnotMem : x ∉ a ++ b := fun h => hx (hperm.mem_iff.mp h)
  rw [hab, getLast?_take_middle hnotMem, hcount, hlen]

end RowOrder
