import Mathlib.Data.List.Basic
import Mathlib.Data.List.Nodup
import Mathlib.Data.List.Perm.Basic
import AscendAI.Lib.OrderedDict

/-!
# First occurrences

The entries of a list that are the first ones under their name, in the order of the list, and the
dictionary that keeps the first entry put under each key.
-/

namespace FirstOccurrences

variable {α β κ : Type*} [DecidableEq κ]

/-- The entries whose name no earlier entry has. -/
def firsts (f : α → κ) : List α → List α
  | [] => []
  | a :: l => a :: (firsts f l).filter fun b => f b ≠ f a

variable (f : α → κ) {l : List α}

lemma firsts_sublist (l : List α) : (firsts f l).Sublist l := by
  induction l with
  | nil => exact .slnil
  | cons a l ih => exact .cons_cons a (List.filter_sublist.trans ih)

lemma nodup_map_firsts (l : List α) : ((firsts f l).map f).Nodup := by
  induction l with
  | nil => exact List.nodup_nil
  | cons a l ih =>
    rw [firsts, List.map_cons, List.nodup_cons]
    constructor
    · intro hmem
      obtain ⟨b, hb, heq⟩ := List.mem_map.mp hmem
      exact of_decide_eq_true (List.mem_filter.mp hb).2 heq
    · exact ih.sublist (List.filter_sublist.map f)

lemma nodup_firsts (l : List α) : (firsts f l).Nodup := (nodup_map_firsts f l).of_map f

/-- Every name has a first entry. -/
lemma exists_mem_firsts {a : α} (h : a ∈ l) : ∃ b ∈ firsts f l, f b = f a := by
  induction l with
  | nil => cases h
  | cons c l ih =>
    by_cases hname : f c = f a
    · exact ⟨c, List.mem_cons_self, hname⟩
    · rcases List.mem_cons.mp h with rfl | hrest
      · exact absurd rfl hname
      · obtain ⟨b, hb, heq⟩ := ih hrest
        refine ⟨b, List.mem_cons_of_mem _ (List.mem_filter.mpr ⟨hb, ?_⟩), heq⟩
        rw [heq]
        exact decide_eq_true fun hne => hname hne.symm

lemma mem_firsts_id [DecidableEq α] {a : α} : a ∈ firsts id l ↔ a ∈ l := by
  constructor
  · exact fun h => (firsts_sublist id l).subset h
  · intro h
    obtain ⟨b, hb, rfl⟩ := exists_mem_firsts id h
    exact hb

/-- Where names tell the entries apart, every entry is a first one. -/
lemma mem_firsts_of_injOn (h : ∀ a ∈ l, ∀ b ∈ l, f a = f b → a = b) {a : α} :
    a ∈ firsts f l ↔ a ∈ l := by
  constructor
  · exact fun hmem => (firsts_sublist f l).subset hmem
  · intro hmem
    obtain ⟨b, hb, hname⟩ := exists_mem_firsts f hmem
    obtain rfl := h b ((firsts_sublist f l).subset hb) a hmem hname
    exact hb

lemma map_firsts (g : β → α) (l : List β) :
    (firsts (fun b => f (g b)) l).map g = firsts f (l.map g) := by
  induction l with
  | nil => rfl
  | cons b l ih =>
    rw [firsts, List.map_cons, List.map_cons, firsts, ← ih, List.filter_map]
    rfl

/-- The entries of `l'` come first in the same order in `l`. -/
def SameOrder [DecidableEq α] (l l' : List α) : Prop :=
  ∀ a ∈ l', ∀ b ∈ l', l.idxOf a < l.idxOf b → l'.idxOf a < l'.idxOf b

/-- The first entries come in the order of their first places. -/
lemma pairwise_idxOf_firsts [DecidableEq α] (l : List α) :
    (firsts f l).Pairwise fun a b => l.idxOf a < l.idxOf b := by
  induction l with
  | nil => exact .nil
  | cons a l ih =>
    have hindex : ∀ b ∈ (firsts f l).filter fun b => f b ≠ f a, (a :: l).idxOf b = l.idxOf b + 1 := by
      intro b hb
      have hne : a ≠ b := by
        rintro rfl
        exact of_decide_eq_true (List.mem_filter.mp hb).2 rfl
      exact List.idxOf_cons_ne l hne
    refine List.pairwise_cons.mpr ⟨fun b hb => ?_, ?_⟩
    · rw [List.idxOf_cons_self, hindex b hb]
      exact Nat.succ_pos _
    · refine (ih.filter _).imp_of_mem fun hb hc hlt => ?_
      rw [hindex _ hb, hindex _ hc]
      exact Nat.succ_lt_succ hlt

/-- Two lists have the same first entries, in the one by a name and in the other by themselves, exactly when
the entries are the same and come in the same order. -/
theorem firsts_eq_firsts_id_iff [DecidableEq α] {l l' : List α} :
    firsts f l = firsts id l' ↔
      (∀ a, a ∈ firsts f l ↔ a ∈ l') ∧ SameOrder l l' := by
  constructor
  · intro heq
    refine ⟨fun a => by rw [heq, mem_firsts_id], fun a ha b hb hlt => ?_⟩
    have hpair : (firsts f l).Pairwise fun a b => l.idxOf a < l.idxOf b ∧ l'.idxOf a < l'.idxOf b :=
      (pairwise_idxOf_firsts f l).and (heq ▸ pairwise_idxOf_firsts id l')
    rw [← mem_firsts_id, ← heq] at ha hb
    by_contra hnot
    have hne : b ≠ a := by
      rintro rfl
      exact Nat.lt_irrefl _ hlt
    have hordered := (hpair.imp Or.inl).forall_of_forall_of_flip
      (R := fun a b => (l.idxOf a < l.idxOf b ∧ l'.idxOf a < l'.idxOf b) ∨
        (a = b ∨ l.idxOf b < l.idxOf a ∧ l'.idxOf b < l'.idxOf a))
      (fun _ _ => .inr (.inl rfl)) (hpair.imp fun h => .inr (.inr h))
    rcases hordered ha hb with h | heq | h
    · exact hnot h.2
    · exact hne heq.symm
    · omega
  · rintro ⟨hmem, horder⟩
    have hperm : (firsts f l).Perm (firsts id l') := by
      refine (List.perm_ext_iff_of_nodup (nodup_firsts f l) (nodup_firsts id l')).mpr fun a => ?_
      rw [hmem, mem_firsts_id]
    have hsorted : (firsts f l).Pairwise fun a b => l'.idxOf a < l'.idxOf b := by
      refine (pairwise_idxOf_firsts f l).imp_of_mem fun ha hb hlt => ?_
      exact horder _ ((hmem _).mp ha) _ ((hmem _).mp hb) hlt
    refine hperm.eq_of_pairwise (fun a b _ _ hlt hlt' => ?_) hsorted (pairwise_idxOf_firsts id l')
    omega

/-! ### The first entry under each key -/

/-- `putIfAbsent` of Java: a key that is there keeps its value. -/
def putIfAbsent (d : OrderedDict κ α) (k : κ) (v : α) : OrderedDict κ α :=
  if k ∈ d.keys then d else d.set k v

lemma items_putIfAbsent (d : OrderedDict κ α) (k : κ) (v : α) :
    (putIfAbsent d k v).items = if k ∈ d.keys then d.items else d.items ++ [(k, v)] := by
  unfold putIfAbsent
  split
  · rfl
  · rename_i hk
    rw [OrderedDict.set, dif_neg hk]

def putAllIfAbsent (d : OrderedDict κ α) (entries : List (κ × α)) : OrderedDict κ α :=
  entries.foldl (fun d entry => putIfAbsent d entry.1 entry.2) d

lemma items_putAllIfAbsent (d : OrderedDict κ α) (entries : List (κ × α)) :
    (putAllIfAbsent d entries).items =
      d.items ++ (firsts Prod.fst entries).filter fun entry => entry.1 ∉ d.keys := by
  induction entries generalizing d with
  | nil => exact (List.append_nil _).symm
  | cons entry entries ih =>
    have hkeys : (putIfAbsent d entry.1 entry.2).keys =
        if entry.1 ∈ d.keys then d.keys else d.keys ++ [entry.1] := by
      rw [OrderedDict.keys, items_putIfAbsent]
      split
      · rfl
      · exact List.map_append
    have hstep := ih (putIfAbsent d entry.1 entry.2)
    rw [putAllIfAbsent, List.foldl_cons]
    rw [putAllIfAbsent] at hstep
    rw [hstep, hkeys, items_putIfAbsent, firsts, List.filter_cons, List.filter_filter]
    by_cases hk : entry.1 ∈ d.keys
    · rw [if_pos hk, if_pos hk, if_neg (by simpa using hk)]
      congr 1
      apply List.filter_congr
      intro other _
      by_cases hother : other.1 ∈ d.keys
      · simp [hother]
      · simp [hother, show other.1 ≠ entry.1 from fun h => hother (h ▸ hk)]
    · rw [if_neg hk, if_neg hk, if_pos (by simpa using hk), List.append_assoc, List.singleton_append]
      congr 2
      apply List.filter_congr
      intro other _
      simp [not_or, Bool.and_comm]

/-- The dictionary holds the first entry under each key. -/
theorem items_putAllIfAbsent_empty (entries : List (κ × α)) :
    (putAllIfAbsent .empty entries).items = firsts Prod.fst entries := by
  rw [items_putAllIfAbsent, OrderedDict.items_empty, List.nil_append]
  exact List.filter_eq_self.mpr fun entry _ => decide_eq_true List.not_mem_nil

end FirstOccurrences
