import Mathlib.Order.WellFounded
import Mathlib.Data.Set.Basic

/-!
# Endless runs under a fair schedule

A schedule names the actor of every step, and the trace is the run that it gives. A schedule is fair
to an actor that it names again and again. The progress rule asks for a variant that no step increases
and for an actor whose step makes it smaller, and who stays that actor until then.
-/

namespace FairRuns

variable {σ α β : Type*}

/-- The state before each step of the run. -/
def trace (step : σ → α → σ) (s : σ) (sched : ℕ → α) : ℕ → σ
  | 0 => s
  | n + 1 => step (trace step s sched n) (sched n)

/-- Every one of the actors moves again after any time. -/
def Fair (actors : Set α) (sched : ℕ → α) : Prop :=
  ∀ a ∈ actors, ∀ n, ∃ m, n ≤ m ∧ sched m = a

variable {step : σ → α → σ} {s : σ} {sched : ℕ → α}

theorem trace_invariant {guard : σ → α → Prop} {Inv : σ → Prop}
    (hstep : ∀ s a, Inv s → guard s a → Inv (step s a)) (hs : Inv s)
    (hguard : ∀ n, guard (trace step s sched n) (sched n)) (n : ℕ) : Inv (trace step s sched n) := by
  induction n with
  | zero => exact hs
  | succ n ih => exact hstep _ _ ih (hguard n)

/-- What every step keeps holds from any time on at which it holds. -/
theorem trace_stable {P : σ → Prop} (hstep : ∀ s a, P s → P (step s a)) {n m : ℕ} (hnm : n ≤ m)
    (hn : P (trace step s sched n)) : P (trace step s sched m) := by
  induction m, hnm using Nat.le_induction with
  | base => exact hn
  | succ m _ ih => exact hstep _ _ ih

/-- The progress rule. -/
theorem exists_goal {r : β → β → Prop} (hr : WellFounded r) {guard : σ → α → Prop} {Inv goal : σ → Prop}
    {variant : σ → β} {helpful : σ → α} {actors : Set α}
    (hinv : ∀ s a, Inv s → guard s a → Inv (step s a))
    (hhelpful : ∀ s, Inv s → ¬goal s → helpful s ∈ actors)
    (hstep : ∀ s a, Inv s → guard s a → ¬goal s → goal (step s a) ∨ r (variant (step s a)) (variant s) ∨
      a ≠ helpful s ∧ variant (step s a) = variant s ∧ helpful (step s a) = helpful s)
    (hs : Inv s) (hguard : ∀ n, guard (trace step s sched n) (sched n)) (hfair : Fair actors sched) :
    ∃ n, goal (trace step s sched n) := by
  have hall := trace_invariant hinv hs hguard
  by_contra hnone
  have hgoal : ∀ n, ¬goal (trace step s sched n) := fun n hn => hnone ⟨n, hn⟩
  have hmove := fun n => (hstep _ _ (hall n) (hguard n) (hgoal n)).resolve_left (hgoal (n + 1))
  -- Until the variant gets smaller, it and the helpful actor stay, and that actor does not move.
  have hstay : ∀ n d, (∀ m, ¬r (variant (trace step s sched m)) (variant (trace step s sched n))) →
      variant (trace step s sched (n + d)) = variant (trace step s sched n) ∧
        helpful (trace step s sched (n + d)) = helpful (trace step s sched n) := by
    intro n d hleast
    induction d with
    | zero => exact ⟨rfl, rfl⟩
    | succ d ih =>
      rcases hmove (n + d) with hless | ⟨-, hvariant, hsame⟩
      · rw [ih.1] at hless
        exact absurd hless (hleast (n + d + 1))
      · exact ⟨hvariant.trans ih.1, hsame.trans ih.2⟩
  obtain ⟨_, ⟨n, rfl⟩, hleast⟩ := hr.has_min (Set.range fun n => variant (trace step s sched n)) ⟨_, 0, rfl⟩
  have hmin : ∀ m, ¬r (variant (trace step s sched m)) (variant (trace step s sched n)) :=
    fun m => hleast _ ⟨m, rfl⟩
  obtain ⟨m, hnm, hsched⟩ := hfair _ (hhelpful _ (hall n) (hgoal n)) n
  obtain ⟨d, rfl⟩ := Nat.exists_eq_add_of_le hnm
  obtain ⟨hvariant, hsame⟩ := hstay n d hmin
  rcases hmove (n + d) with hless | ⟨hne, -, -⟩
  · rw [hvariant] at hless
    exact hmin (n + d + 1) hless
  · exact hne (hsched.trans hsame.symm)

end FairRuns
