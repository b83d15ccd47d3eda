import Mathlib.Data.List.Basic

/-!
# A log of actions

Actors write what they do to one log. An action can touch a key; `Since` says which action on a key was
the last one, and what its actor has done since.
-/

namespace ActionLog

variable {ι α κ : Type*}

/-- A law of the log is kept by a step that writes at most one action. -/
lemma append_toList {P : List (ι × α) → Prop} {log : List (ι × α)} (h : P log) (i : ι) {action : Option α}
    (haction : ∀ a ∈ action, P (log ++ [(i, a)])) : P (log ++ action.toList.map fun a => (i, a)) := by
  cases action with
  | none => rwa [Option.toList_none, List.map_nil, List.append_nil]
  | some a => exact haction a rfl

variable [DecidableEq ι] {touches : α → κ → Prop}

/-- Actor `i` did `a`, nothing has touched `k` since, and `since` is what `i` has done since. -/
def Since (touches : α → κ → Prop) (log : List (ι × α)) (i : ι) (a : α) (k : κ) (since : List α) : Prop :=
  ∃ before after, log = before ++ (i, a) :: after ∧ (∀ entry ∈ after, ¬touches entry.2 k) ∧
    (after.filter fun entry => entry.1 = i).map Prod.snd = since

variable {log : List (ι × α)} {i : ι} {a : α} {k : κ} {since : List α}

lemma since_append_self (log : List (ι × α)) (i : ι) (a : α) (k : κ) :
    Since touches (log ++ [(i, a)]) i a k [] :=
  ⟨log, [], rfl, fun _ h => (List.not_mem_nil h).elim, rfl⟩

/-- The actor goes on. -/
lemma Since.append_own (h : Since touches log i a k since) {b : α} (hb : ¬touches b k) :
    Since touches (log ++ [(i, b)]) i a k (since ++ [b]) := by
  obtain ⟨before, after, rfl, huntouched, rfl⟩ := h
  refine ⟨before, after ++ [(i, b)], by rw [List.append_assoc, List.cons_append], ?_, ?_⟩
  · intro entry hentry
    rcases List.mem_append.mp hentry with hold | hnew
    · exact huntouched entry hold
    · rw [List.mem_singleton.mp hnew]
      exact hb
  · rw [List.filter_append, List.map_append, List.filter_cons_of_pos (by simp)]
    rfl

/-- Another actor does something that does not touch the key. -/
lemma Since.append_other (h : Since touches log i a k since) {j : ι} (hj : j ≠ i) {b : α}
    (hb : ¬touches b k) : Since touches (log ++ [(j, b)]) i a k since := by
  obtain ⟨before, after, rfl, huntouched, rfl⟩ := h
  refine ⟨before, after ++ [(j, b)], by rw [List.append_assoc, List.cons_append], ?_, ?_⟩
  · intro entry hentry
    rcases List.mem_append.mp hentry with hold | hnew
    · exact huntouched entry hold
    · rw [List.mem_singleton.mp hnew]
      exact hb
  · rw [List.filter_append, List.filter_cons_of_neg (by simpa using hj), List.filter_nil, List.append_nil]

/-- Whoever goes on, what has been done since only gets longer. -/
lemma Since.append (h : Since touches log i a k since) {j : ι} {b : α} (hb : ¬touches b k) :
    ∃ since', since <+: since' ∧ Since touches (log ++ [(j, b)]) i a k since' := by
  by_cases hj : j = i
  · subst hj
    exact ⟨_, List.prefix_append .., h.append_own hb⟩
  · exact ⟨since, List.prefix_refl _, h.append_other hj hb⟩

lemma Since.mem (h : Since touches log i a k since) : (i, a) ∈ log := by
  obtain ⟨before, after, rfl, -, -⟩ := h
  exact List.mem_append_right _ List.mem_cons_self

/-- There is one last action on a key. -/
lemma Since.unique {j : ι} {b : α} {since' : List α} (h : Since touches log i a k since)
    (h' : Since touches log j b k since') (ha : touches a k) (hb : touches b k) : i = j ∧ a = b ∧ since = since' := by
  obtain ⟨before, after, rfl, hafter, rfl⟩ := h
  obtain ⟨before', after', heq, hafter', rfl⟩ := h'
  obtain ⟨between, hbefore', hrest⟩ | ⟨between, hbefore, hrest⟩ := List.append_eq_append_iff.mp heq
  · cases between with
    | nil =>
      obtain ⟨hentry, rfl⟩ := List.cons.inj hrest
      obtain ⟨rfl, rfl⟩ := Prod.mk.inj hentry
      exact ⟨rfl, rfl, rfl⟩
    | cons entry between =>
      -- the action of `j` comes later, and it touches the key
      rw [(List.cons.inj hrest).2] at hafter
      exact absurd hb (hafter (j, b) (List.mem_append_right _ List.mem_cons_self))
  · cases between with
    | nil =>
      obtain ⟨hentry, rfl⟩ := List.cons.inj hrest
      obtain ⟨rfl, rfl⟩ := Prod.mk.inj hentry
      exact ⟨rfl, rfl, rfl⟩
    | cons entry between =>
      rw [(List.cons.inj hrest).2] at hafter'
      exact absurd ha (hafter' (i, a) (List.mem_append_right _ List.mem_cons_self))

end ActionLog
