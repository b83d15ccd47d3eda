import Mathlib.Data.List.AList
import Mathlib.Logic.Function.Basic

/-!
# The last write to each key

The history of a key lists its writes, the last one first. A map that only some of the writes reach holds
what the last of those left there.
-/

namespace LastWrite

variable {κ δ ω β : Type*} [DecidableEq δ]

/-- A write that is made on a condition shows under its own key, where the condition holds. -/
lemma lookup_ite_insert (c : Prop) [Decidable c] (m : AList fun _ : δ => β) (k k' : δ) (v : β) :
    (if c then m.insert k v else m).lookup k' = if c ∧ k' = k then some v else m.lookup k' := by
  by_cases hc : c
  · by_cases hk : k' = k
    · rw [if_pos hc, if_pos ⟨hc, hk⟩, hk, AList.lookup_insert]
    · rw [if_pos hc, if_neg fun h => hk h.2, AList.lookup_insert_ne hk]
  · rw [if_neg hc, if_neg fun h => hc h.1]

/-- The map holds, of each key, the value of its last write that reached the map. -/
def Holds (m : AList fun _ : δ => β) (key : κ → δ) (reaches : ω → Bool) (val : ω → β)
    (history : κ → List ω) : Prop :=
  ∀ k, m.lookup (key k) = ((history k).find? reaches).map val

lemma holds_empty (key : κ → δ) (reaches : ω → Bool) (val : ω → β) :
    Holds ∅ key reaches val fun _ => [] := by
  intro k
  rw [AList.lookup_empty]
  rfl

variable [DecidableEq κ]

/-- One more write to a key. -/
def record (history : κ → List ω) (k : κ) (w : ω) : κ → List ω :=
  Function.update history k (w :: history k)

@[simp] lemma record_self (history : κ → List ω) (k : κ) (w : ω) :
    record history k w k = w :: history k := Function.update_self ..

lemma record_of_ne (history : κ → List ω) {k k' : κ} (h : k' ≠ k) (w : ω) :
    record history k w k' = history k' := Function.update_of_ne h ..

variable {m : AList fun _ : δ => β} {key : κ → δ} {reaches : ω → Bool} {val : ω → β}
  {history : κ → List ω}

/-- A write that reaches the map is inserted, and any other leaves the map alone. -/
theorem Holds.record (h : Holds m key reaches val history) (hkey : Function.Injective key) (k : κ) (w : ω) :
    Holds (if reaches w then m.insert (key k) (val w) else m) key reaches val (record history k w) := by
  intro k'
  rw [lookup_ite_insert]
  by_cases hk : k' = k
  · subst hk
    rw [record_self]
    by_cases hw : reaches w
    · rw [if_pos ⟨hw, rfl⟩, List.find?_cons_of_pos hw]
      rfl
    · rw [if_neg fun h => hw h.1, List.find?_cons_of_neg hw]
      exact h k'
  · rw [record_of_ne history hk, if_neg fun h => hk (hkey h.2)]
    exact h k'

end LastWrite
