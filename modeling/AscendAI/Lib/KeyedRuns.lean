import AscendAI.Lib.Runs

/-!
# Runs of a system that is kept by key

An operation belongs to one key. When it changes what is seen of its own key in a way that depends on nothing else,
and leaves what is seen of every other key, a run of the system is a run for each key of the operations that belong
to it, in whatever order the keys take turns.
-/

namespace Runs

variable {σ τ α κ : Type*} [DecidableEq κ]

/-- The operations that belong to a key. -/
def ofKey (key : α → κ) (k : κ) (ops : List α) : List α := ops.filter (fun a => key a = k)

lemma ofKey_cons_self (key : α → κ) (a : α) (ops : List α) :
    ofKey key (key a) (a :: ops) = a :: ofKey key (key a) ops := by
  simp [ofKey]

lemma ofKey_cons_of_ne {key : α → κ} {k : κ} {a : α} (h : key a ≠ k) (ops : List α) :
    ofKey key k (a :: ops) = ofKey key k ops := by
  simp [ofKey, h]

@[simp] lemma ofKey_ofKey (key : α → κ) (k : κ) (ops : List α) : ofKey key k (ofKey key k ops) = ofKey key k ops := by
  simp [ofKey]

/-- What is seen of a key changes with its own operations only, and by the step of that key alone. -/
structure Keyed (step : σ → α → σ) (key : α → κ) (view : κ → σ → τ) (keyStep : κ → τ → α → τ) (Inv : σ → Prop) :
    Prop where
  inv : ∀ s a, Inv s → Inv (step s a)
  self : ∀ s a, Inv s → view (key a) (step s a) = keyStep (key a) (view (key a) s) a
  other : ∀ s a k, Inv s → key a ≠ k → view k (step s a) = view k s

namespace Keyed

variable {step : σ → α → σ} {key : α → κ} {view : κ → σ → τ} {keyStep : κ → τ → α → τ} {Inv : σ → Prop}
  (h : Keyed step key view keyStep Inv)
include h

omit [DecidableEq κ] in
lemma inv_run {s : σ} (hs : Inv s) (ops : List α) : Inv (run step s ops) :=
  run_keeps (fun s a _ hs => h.inv s a hs) hs

theorem view_run {s : σ} (hs : Inv s) (k : κ) (ops : List α) :
    view k (run step s ops) = run (keyStep k) (view k s) (ofKey key k ops) := by
  induction ops generalizing s with
  | nil => rfl
  | cons a ops ih =>
    rw [run_cons, ih (h.inv s a hs)]
    by_cases ha : key a = k
    · subst ha
      rw [ofKey_cons_self, run_cons, h.self s a hs]
    · rw [ofKey_cons_of_ne ha, h.other s a k hs ha]

/-- What is seen of a key is the same without the operations of the other keys. -/
theorem view_run_ofKey {s : σ} (hs : Inv s) (k : κ) (ops : List α) :
    view k (run step s ops) = view k (run step s (ofKey key k ops)) := by
  rw [h.view_run hs, h.view_run hs, ofKey_ofKey]

end Keyed

end Runs
