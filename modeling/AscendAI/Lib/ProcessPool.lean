import Mathlib.Data.List.Basic
import Mathlib.Data.List.Forall2
import Mathlib.Data.List.Infix

/-!
# Processes over a shared state

One step of a pool is one atomic step of one of its processes: it reads and writes the shared
state, replaces the process by its continuation and may start others. New processes are added at
the end, so the index of a process is its name for the whole run.
-/

universe u v

/-- A shared state and the processes that run over it. -/
structure ProcessPool (σ : Type u) (π : Type v) where
  shared : σ
  procs : List π

namespace ProcessPool

variable {σ : Type u} {π : Type v}

/-- What one process does in one atomic step. -/
structure Outcome (σ : Type u) (π : Type v) where
  shared : σ
  next : π
  started : List π := []

variable (advance : σ → π → Outcome σ π) (pool : ProcessPool σ π) (i : ℕ)

def start (c : π) : ProcessPool σ π := ⟨pool.shared, pool.procs ++ [c]⟩

def step : ProcessPool σ π :=
  match pool.procs[i]? with
  | none => pool
  | some c => ⟨(advance pool.shared c).shared,
      pool.procs.set i (advance pool.shared c).next ++ (advance pool.shared c).started⟩

variable {advance pool i}

lemma step_of_none (h : pool.procs[i]? = none) : pool.step advance i = pool := by
  rw [step, h]

lemma step_of_some {c : π} (h : pool.procs[i]? = some c) :
    pool.step advance i = ⟨(advance pool.shared c).shared,
      pool.procs.set i (advance pool.shared c).next ++ (advance pool.shared c).started⟩ := by
  rw [step, h]

lemma shared_step (advance : σ → π → Outcome σ π) {c : π} (h : pool.procs[i]? = some c) :
    (pool.step advance i).shared = (advance pool.shared c).shared := by
  rw [step_of_some h]

/-- The step in terms of the processes before and after the one that moves. -/
lemma exists_split (advance : σ → π → Outcome σ π) {c : π} (h : pool.procs[i]? = some c) :
    ∃ before after, pool.procs = before ++ c :: after ∧
      (pool.step advance i).procs = before ++ (advance pool.shared c).next :: after ++
        (advance pool.shared c).started := by
  obtain ⟨hi, rfl⟩ := List.getElem?_eq_some_iff.mp h
  refine ⟨pool.procs.take i, pool.procs.drop (i + 1), ?_, ?_⟩
  · rw [List.getElem_cons_drop, List.take_append_drop]
  · rw [step_of_some h, List.set_eq_take_append_cons_drop, if_pos hi]

lemma getElem?_start_of_some {j : ℕ} {c c' : π} (h : pool.procs[j]? = some c) :
    (pool.start c').procs[j]? = some c := by
  rw [start, List.getElem?_append_left (List.getElem?_eq_some_iff.mp h).1, h]

lemma getElem?_start_self (c : π) : (pool.start c).procs[pool.procs.length]? = some c := by
  rw [start, List.getElem?_concat_length]

lemma getElem?_step_self {c : π} (h : pool.procs[i]? = some c) :
    (pool.step advance i).procs[i]? = some (advance pool.shared c).next := by
  have hi := (List.getElem?_eq_some_iff.mp h).1
  rw [step_of_some h, List.getElem?_append_left (by simpa using hi), List.getElem?_set_self hi]

lemma getElem?_step_of_ne {j : ℕ} (hne : j ≠ i) {c : π} (h : pool.procs[j]? = some c) :
    (pool.step advance i).procs[j]? = some c := by
  have hj := (List.getElem?_eq_some_iff.mp h).1
  cases hi : pool.procs[i]? with
  | none => rw [step_of_none hi, h]
  | some c' =>
    rw [step_of_some hi, List.getElem?_append_left (by simpa using hj),
      List.getElem?_set_ne hne.symm, h]

/-- The processes of a pool after a start, by their names. -/
lemma getElem?_start (c : π) (j : ℕ) :
    (pool.start c).procs[j]? = if j = pool.procs.length then some c else pool.procs[j]? := by
  by_cases hlast : j = pool.procs.length
  · rw [if_pos hlast, hlast, getElem?_start_self]
  · rw [if_neg hlast, start]
    by_cases hj : j < pool.procs.length
    · exact List.getElem?_append_left hj
    · have hlength : (pool.procs ++ [c]).length ≤ j := by
        rw [List.length_append, List.length_singleton]
        omega
      rw [List.getElem?_eq_none hlength, List.getElem?_eq_none (not_lt.mp hj)]

/-- The processes of a pool after a step that starts none, by their names. -/
lemma getElem?_step (advance : σ → π → Outcome σ π) {c : π} (h : pool.procs[i]? = some c)
    (hstarted : (advance pool.shared c).started = []) (j : ℕ) :
    (pool.step advance i).procs[j]? =
      if j = i then some (advance pool.shared c).next else pool.procs[j]? := by
  by_cases hij : j = i
  · rw [if_pos hij, hij, getElem?_step_self h]
  · rw [if_neg hij, step_of_some h, hstarted, List.append_nil, List.getElem?_set_ne (Ne.symm hij)]

/-- What the processes hold together changes by what the moving one holds. -/
theorem flatMap_step (advance : σ → π → Outcome σ π) {β : Type*} (f : π → List β) {c : π}
    (h : pool.procs[i]? = some c) :
    ∃ rest, (pool.procs.flatMap f).Perm (f c ++ rest) ∧
      ((pool.step advance i).procs.flatMap f).Perm (f (advance pool.shared c).next ++
        ((advance pool.shared c).started.flatMap f ++ rest)) := by
  obtain ⟨before, after, hprocs, hstep⟩ := exists_split advance h
  refine ⟨before.flatMap f ++ after.flatMap f, ?_, ?_⟩
  · rw [hprocs, List.flatMap_append, List.flatMap_cons]
    exact List.perm_append_comm_assoc ..
  · rw [hstep, List.flatMap_append, List.flatMap_append, List.flatMap_cons]
    apply List.perm_append_comm.trans
    refine (List.Perm.append_left _ (List.perm_append_comm_assoc ..)).trans ?_
    exact List.perm_append_comm_assoc ..

/-- What holds of every process: the others keep it under the step, and the continuation and the
processes that it starts have it. -/
theorem forall_step {Q : π → Prop} {c : π} (h : pool.procs[i]? = some c)
    (hothers : ∀ c' ∈ pool.procs, Q c') (hnext : Q (advance pool.shared c).next)
    (hstarted : ∀ c' ∈ (advance pool.shared c).started, Q c') :
    ∀ c' ∈ (pool.step advance i).procs, Q c' := by
  intro c' hc'
  rw [step_of_some h, List.mem_append] at hc'
  rcases hc' with hset | hnew
  · rcases List.mem_or_eq_of_mem_set hset with hold | rfl
    · exact hothers c' hold
    · exact hnext
  · exact hstarted c' hnew

/-! ### Two pools, process by process -/

section Related

variable {τ : Type*} {ρ : Type*} {W : σ → τ → Prop} {R : π → ρ → Prop}

/-- The shared states are related, and so are the processes of the same name. -/
structure Related (W : σ → τ → Prop) (R : π → ρ → Prop) (p : ProcessPool σ π) (q : ProcessPool τ ρ) :
    Prop where
  shared : W p.shared q.shared
  procs : List.Forall₂ R p.procs q.procs

lemma Related.start {p : ProcessPool σ π} {q : ProcessPool τ ρ} (h : Related W R p q) {c : π} {c' : ρ}
    (hc : R c c') : Related W R (p.start c) (q.start c') :=
  ⟨h.shared, List.rel_append h.procs (.cons hc .nil)⟩

lemma forall₂_set {l : List π} {l' : List ρ} (h : List.Forall₂ R l l') (i : ℕ) {c : π} {c' : ρ}
    (hc : R c c') : List.Forall₂ R (l.set i c) (l'.set i c') := by
  induction h generalizing i with
  | nil => exact .nil
  | cons hhead htail ih =>
    cases i with
    | zero => exact .cons hc htail
    | succ i => exact .cons hhead (ih i)

/-- Pools whose processes act alike stay related when the processes of one name make a step. -/
theorem Related.step {advance : σ → π → Outcome σ π} {advance' : τ → ρ → Outcome τ ρ}
    (hadvance : ∀ w w' c c', W w w' → R c c' → W (advance w c).shared (advance' w' c').shared ∧
      R (advance w c).next (advance' w' c').next ∧
      List.Forall₂ R (advance w c).started (advance' w' c').started)
    {p : ProcessPool σ π} {q : ProcessPool τ ρ} (h : Related W R p q) (i : ℕ) :
    Related W R (p.step advance i) (q.step advance' i) := by
  have hlength := h.procs.length_eq
  cases hp : p.procs[i]? with
  | none =>
    have hq : q.procs[i]? = none := by
      rw [List.getElem?_eq_none_iff] at hp ⊢
      omega
    rw [step_of_none hp, step_of_none hq]
    exact h
  | some c =>
    obtain ⟨hi, rfl⟩ := List.getElem?_eq_some_iff.mp hp
    have hi' : i < q.procs.length := hlength ▸ hi
    have hq : q.procs[i]? = some q.procs[i] := List.getElem?_eq_getElem hi'
    obtain ⟨hshared, hnext, hstarted⟩ := hadvance _ _ _ _ h.shared (h.procs.get hi hi')
    rw [step_of_some hp, step_of_some hq]
    exact ⟨hshared, List.rel_append (forall₂_set h.procs i hnext) hstarted⟩

end Related

end ProcessPool
