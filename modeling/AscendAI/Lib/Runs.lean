import Mathlib.Logic.Basic
import Mathlib.Data.List.Basic

/-!
# Runs of a deterministic labelled system

A system is a step function `σ → α → σ` on states and operations, and a run is the
list of the operations it is given. `Along P` says that `P` holds of every operation
of a run in the state which that operation finds; laws and guards of runs are stated
with it, and the invariant rules below are the only inductions on runs.
-/

namespace Runs

variable {σ α : Type*}

/-- The state after the operations `ops`, taken from left to right. -/
def run (step : σ → α → σ) (s : σ) (ops : List α) : σ := ops.foldl step s

@[simp] lemma run_nil (step : σ → α → σ) (s : σ) : run step s [] = s := rfl

@[simp] lemma run_cons (step : σ → α → σ) (s : σ) (a : α) (ops : List α) :
    run step s (a :: ops) = run step (step s a) ops := rfl

lemma run_append (step : σ → α → σ) (s : σ) (ops ops' : List α) :
    run step s (ops ++ ops') = run step (run step s ops) ops' := List.foldl_append

/-- `P` holds of every operation of the run in the state that the operation finds. -/
def Along (step : σ → α → σ) (P : σ → α → Prop) : σ → List α → Prop
  | _, [] => True
  | s, a :: ops => P s a ∧ Along step P (step s a) ops

instance decidableAlong (step : σ → α → σ) (P : σ → α → Prop) [∀ s a, Decidable (P s a)] :
    (s : σ) → (ops : List α) → Decidable (Along step P s ops)
  | _, [] => inferInstanceAs (Decidable True)
  | s, a :: ops =>
    have := decidableAlong step P (step s a) ops
    inferInstanceAs (Decidable (P s a ∧ Along step P (step s a) ops))

lemma Along.and {step : σ → α → σ} {P Q : σ → α → Prop} {s : σ} {ops : List α}
    (hP : Along step P s ops) (hQ : Along step Q s ops) : Along step (fun s a => P s a ∧ Q s a) s ops := by
  induction ops generalizing s with
  | nil => trivial
  | cons a ops ih => exact ⟨⟨hP.1, hQ.1⟩, ih hP.2 hQ.2⟩

lemma along_of_forall {step : σ → α → σ} {P : σ → α → Prop} {ops : List α}
    (h : ∀ a ∈ ops, ∀ s, P s a) (s : σ) : Along step P s ops := by
  induction ops generalizing s with
  | nil => trivial
  | cons a ops ih => exact ⟨h a (by simp) s, ih (fun b hb => h b (by simp [hb])) _⟩

/-- What is a guard at every step under the invariant that it keeps is equivalent to it along a run. -/
lemma along_iff_guard {step : σ → α → σ} {law guard : σ → α → Prop} {I : σ → Prop}
    (hinv : ∀ s a, I s → guard s a → I (step s a)) (h : ∀ s a, I s → (law s a ↔ guard s a)) {s : σ}
    (hs : I s) (ops : List α) : Along step law s ops ↔ Along step guard s ops := by
  induction ops generalizing s with
  | nil => exact Iff.rfl
  | cons a ops ih =>
    unfold Along
    rw [h s a hs]
    exact and_congr_right fun hguard => ih (hinv s a hs hguard)

/-- What is equivalent at every step under an invariant is equivalent along a run. -/
lemma along_congr_of_invariant {step : σ → α → σ} {P Q : σ → α → Prop} {I : σ → Prop}
    (hinv : ∀ s a, I s → I (step s a)) (h : ∀ s a, I s → (P s a ↔ Q s a)) {s : σ} (hs : I s)
    (ops : List α) : Along step P s ops ↔ Along step Q s ops :=
  along_iff_guard (fun s a hs _ => hinv s a hs) h hs ops

lemma along_const_iff {step : σ → α → σ} {P : α → Prop} (s : σ) (ops : List α) :
    Along step (fun _ a => P a) s ops ↔ ∀ a ∈ ops, P a := by
  induction ops generalizing s with
  | nil => simp [Along]
  | cons a ops ih => rw [Along, ih, List.forall_mem_cons]

lemma along_map {τ : Type*} {step : σ → α → σ} {step' : τ → α → τ} {f : σ → τ}
    (hf : ∀ s a, f (step s a) = step' (f s) a) (P : τ → α → Prop) (s : σ) (ops : List α) :
    Along step' P (f s) ops ↔ Along step (fun s a => P (f s) a) s ops := by
  induction ops generalizing s with
  | nil => exact Iff.rfl
  | cons a ops ih =>
    unfold Along
    rw [← hf, ih]

lemma along_congr {step : σ → α → σ} {P Q : σ → α → Prop} (h : ∀ s a, P s a ↔ Q s a) (s : σ)
    (ops : List α) : Along step P s ops ↔ Along step Q s ops := by
  exact along_congr_of_invariant (I := fun _ => True) (fun _ _ _ => trivial) (fun s a _ => h s a) trivial ops

/-- The simulation rule: an abstraction that every guarded step respects is respected by a guarded
run. -/
theorem run_refines {τ : Type*} {step : σ → α → σ} {spec : τ → α → τ} {abs : σ → τ}
    {guard : σ → α → Prop} (hstep : ∀ s a, guard s a → abs (step s a) = spec (abs s) a) {s : σ}
    {ops : List α} (hops : Along step guard s ops) : abs (run step s ops) = run spec (abs s) ops := by
  induction ops generalizing s with
  | nil => rfl
  | cons a ops ih => rw [run_cons, run_cons, ih hops.2, hstep s a hops.1]

/-- The rule of two runs: states that every step keeps related are related at the end. -/
theorem run_related {τ : Type*} {step : σ → α → σ} {step' : τ → α → τ} {R : σ → τ → Prop}
    (hstep : ∀ s t a, R s t → R (step s a) (step' t a)) {s : σ} {t : τ} (hst : R s t) (ops : List α) :
    R (run step s ops) (run step' t ops) := by
  induction ops generalizing s t with
  | nil => exact hst
  | cons a ops ih => exact ih (hstep s t a hst)

/-- The invariant rule: what every guarded step keeps holds at the end of a guarded run. -/
theorem run_invariant {step : σ → α → σ} {guard : σ → α → Prop} {Inv : σ → Prop}
    (hstep : ∀ s a, Inv s → guard s a → Inv (step s a)) {s : σ} (hs : Inv s) {ops : List α}
    (hops : Along step guard s ops) : Inv (run step s ops) := by
  induction ops generalizing s with
  | nil => exact hs
  | cons a ops ih => exact ih (hstep s a hs hops.1) hops.2

/-- What the operations of a run keep at every step holds at its end. -/
theorem run_keeps {step : σ → α → σ} {Inv : σ → Prop} {ops : List α}
    (hstep : ∀ s, ∀ a ∈ ops, Inv s → Inv (step s a)) {s : σ} (hs : Inv s) : Inv (run step s ops) := by
  induction ops generalizing s with
  | nil => exact hs
  | cons a ops ih =>
    exact ih (fun s b hb => hstep s b (List.mem_cons_of_mem a hb)) (hstep s a List.mem_cons_self hs)

/-- A law that holds of every guarded step under an invariant holds along every guarded run. -/
theorem along_of_invariant {step : σ → α → σ} {guard law : σ → α → Prop} {Inv : σ → Prop}
    (hstep : ∀ s a, Inv s → guard s a → Inv (step s a) ∧ law s a) {s : σ} (hs : Inv s)
    {ops : List α} (hops : Along step guard s ops) : Along step law s ops := by
  induction ops generalizing s with
  | nil => trivial
  | cons a ops ih =>
    have h := hstep s a hs hops.1
    exact ⟨h.2, ih h.1 hops.2⟩

/-- What a step keeps exactly when it meets a guard holds at the end of a run exactly when the whole run
meets the guard. -/
theorem run_iff_along {step : σ → α → σ} {guard : σ → α → Prop} {I : σ → Prop}
    (h : ∀ s a, I (step s a) ↔ I s ∧ guard s a) (s : σ) (ops : List α) :
    I (run step s ops) ↔ I s ∧ Along step guard s ops := by
  induction ops generalizing s with
  | nil => exact (and_iff_left trivial).symm
  | cons a ops ih =>
    rw [run_cons, ih, h, and_assoc]
    exact Iff.rfl

/-- The guard that an invariant needs, when a step keeps the invariant exactly if it meets the guard. -/
theorem along_invariant_iff {step : σ → α → σ} {guard : σ → α → Prop} {I J : σ → Prop}
    (hJ : ∀ s a, J s → J (step s a)) (h : ∀ s a, J s → I s → (I (step s a) ↔ guard s a)) {s : σ}
    (hs : J s ∧ I s) (ops : List α) :
    Along step (fun s a => I (step s a)) s ops ↔ Along step guard s ops := by
  induction ops generalizing s with
  | nil => exact Iff.rfl
  | cons a ops ih =>
    unfold Along
    rw [h s a hs.1 hs.2]
    refine and_congr_right fun hguard => ?_
    exact ih ⟨hJ s a hs.1, (h s a hs.1 hs.2).mpr hguard⟩

end Runs
