import Mathlib.Logic.Basic

/-!
# Commands that fail

At most one command of a run fails. The caller of a command that fails does not know whether it was carried
out: an answer may be lost as well as the request.
-/

structure Failure (κ : Type*) where
  command : κ
  carriedOut : Bool

namespace Failure

variable {κ σ : Type*} [DecidableEq κ]

/-- The state that a command leaves, and whether it throws. -/
def attempt (failure : Option (Failure κ)) (command : κ) (effect : σ → σ) (s : σ) : σ × Bool :=
  match failure with
  | none => (effect s, false)
  | some f => if f.command = command then (if f.carriedOut then effect s else s, true) else (effect s, false)

variable (command : κ) (effect : σ → σ) (s : σ)

@[simp] lemma attempt_none : attempt none command effect s = (effect s, false) := rfl

@[simp] lemma attempt_self (carriedOut : Bool) :
    attempt (some ⟨command, carriedOut⟩) command effect s = (if carriedOut then effect s else s, true) :=
  if_pos rfl

lemma attempt_of_ne {failure : Option (Failure κ)} (h : ∀ f ∈ failure, f.command ≠ command) :
    attempt failure command effect s = (effect s, false) := by
  cases failure with
  | none => rfl
  | some f => exact if_neg (h f rfl)

end Failure
