import Mathlib.Logic.Basic

/-!
# Resources and what is raised

A body works on a state and may raise. Around it a resource is opened, which may raise before the body
runs, and closed, which may raise in place of what the body raised.
-/

namespace Scoped

variable {σ ε : Type}

/-- The state at the end, and what is raised. -/
abbrev Outcome (σ ε : Type) := σ × Option ε

def entering (fault : Option ε) (s : σ) (body : Outcome σ ε) : Outcome σ ε :=
  match fault with
  | some e => (s, some e)
  | none => body

def leaving (fault : Option ε) (body : Outcome σ ε) : Outcome σ ε := (body.1, fault.or body.2)

variable {fault : Option ε} {s : σ} {body : Outcome σ ε}

@[simp] lemma raised_entering : (entering fault s body).2 = fault.or body.2 := by
  cases fault with
  | none => rfl
  | some e => rfl

@[simp] lemma raised_leaving : (leaving fault body).2 = fault.or body.2 := rfl

/-- Where nothing is raised, the resource is opened and closed, and the body ends well. -/
lemma entering_of_raised_eq_none (h : (entering fault s body).2 = none) :
    entering fault s body = body ∧ body.2 = none := by
  cases fault with
  | none => exact ⟨rfl, h⟩
  | some e => cases h

lemma leaving_of_raised_eq_none (h : (leaving fault body).2 = none) :
    leaving fault body = body ∧ body.2 = none := by
  rw [raised_leaving, Option.or_eq_none_iff] at h
  rw [leaving, h.1, Option.none_or]
  exact ⟨rfl, h.2⟩

end Scoped
