import Mathlib.Data.List.Basic
import Mathlib.Logic.Function.Basic
import Mathlib.Tactic.Common

/-!
# Caches that load what they miss

A cache holds values with the time at which each was written. A value lives for the time that its key allows. A
lookup that finds no living value loads one; a load that fails leaves the cache as it was.
-/

universe u v w

/-- The type of a value depends on its key. -/
abbrev LoadingCache (κ : Type u) (ν : κ → Type v) := (k : κ) → Option (ν k × ℕ)

namespace LoadingCache

variable {κ : Type u} {ν : κ → Type v} {ε : Type w}

def empty : LoadingCache κ ν := fun _ => none

section Operations

variable (ttl : κ → ℕ) (now : ℕ) (cache : LoadingCache κ ν) (k : κ)

def live : Option (ν k) :=
  (cache k).bind fun (value, written) => if now < written + ttl k then some value else none

variable [DecidableEq κ]

def put (value : ν k) : LoadingCache κ ν := Function.update cache k (some (value, now))

def evict : LoadingCache κ ν := Function.update cache k none

@[simp] lemma put_self (value : ν k) : cache.put now k value k = some (value, now) := Function.update_self ..

@[simp] lemma evict_self : cache.evict k k = none := Function.update_self ..

variable {k} in
lemma put_of_ne {k' : κ} (h : k' ≠ k) (value : ν k) : cache.put now k value k' = cache k' :=
  Function.update_of_ne h ..

variable {k} in
lemma evict_of_ne {k' : κ} (h : k' ≠ k) : cache.evict k k' = cache k' := Function.update_of_ne h ..

/-- What is looked up under a key, with the answer that a load gives. -/
def get (load : Except ε (ν k)) : LoadingCache κ ν × Except ε (ν k) :=
  match cache.live ttl now k with
  | some value => (cache, .ok value)
  | none =>
    match load with
    | .ok value => (cache.put now k value, .ok value)
    | .error e => (cache, .error e)

end Operations

section Lookup

variable {ttl : κ → ℕ} {now : ℕ} {cache : LoadingCache κ ν} {k : κ} {load : Except ε (ν k)}

lemma live_eq_some_iff {value : ν k} :
    cache.live ttl now k = some value ↔ ∃ written, cache k = some (value, written) ∧ now < written + ttl k := by
  unfold live
  cases hentry : cache k with
  | none => simp
  | some entry =>
    by_cases hnow : now < entry.2 + ttl k
    · simp only [Option.bind_some, hnow, if_true, Option.some.injEq]
      constructor
      · rintro rfl
        exact ⟨entry.2, rfl, hnow⟩
      · rintro ⟨written, rfl, -⟩
        rfl
    · simp only [Option.bind_some, hnow, if_false, Option.some.injEq]
      constructor
      · rintro ⟨⟩
      · rintro ⟨written, rfl, hlive⟩
        exact absurd hlive hnow

lemma live_eq_none_iff :
    cache.live ttl now k = none ↔ ∀ value written, cache k = some (value, written) → written + ttl k ≤ now := by
  constructor
  · intro h value written hentry
    by_contra hlive
    have hsome := live_eq_some_iff.mpr ⟨written, hentry, Nat.lt_of_not_le hlive⟩
    rw [h] at hsome
    cases hsome
  · intro h
    cases hvalue : cache.live ttl now k with
    | none => rfl
    | some value =>
      obtain ⟨written, hentry, hlive⟩ := live_eq_some_iff.mp hvalue
      exact absurd (h value written hentry) (Nat.not_le_of_lt hlive)

variable [DecidableEq κ]

lemma get_of_live {value : ν k} (h : cache.live ttl now k = some value) :
    cache.get ttl now k load = (cache, .ok value) := by
  simp only [get, h]

lemma get_of_load {value : ν k} (h : cache.live ttl now k = none) (hload : load = .ok value) :
    cache.get ttl now k load = (cache.put now k value, .ok value) := by
  simp only [get, h, hload]

lemma get_of_failure {e : ε} (h : cache.live ttl now k = none) (hload : load = .error e) :
    cache.get ttl now k load = (cache, .error e) := by
  simp only [get, h, hload]

end Lookup

/-! ### Where the values come from -/

section Backed

variable {origin origin' : (k : κ) → ν k → ℕ → Prop} {cache : LoadingCache κ ν}

/-- Every value that is held has an origin at the time at which it was written. -/
def Backed (origin : (k : κ) → ν k → ℕ → Prop) (cache : LoadingCache κ ν) : Prop :=
  ∀ k value written, cache k = some (value, written) → origin k value written

lemma backed_empty : Backed origin (empty : LoadingCache κ ν) := by
  intro k value written h
  cases h

lemma Backed.mono (h : Backed origin cache)
    (himp : ∀ k value written, origin k value written → origin' k value written) : Backed origin' cache :=
  fun k value written hentry => himp k value written (h k value written hentry)

variable [DecidableEq κ]

lemma Backed.put (h : Backed origin cache) {now : ℕ} {k : κ} {value : ν k} (hvalue : origin k value now) :
    Backed origin (cache.put now k value) := by
  intro k' value' written hentry
  by_cases hk : k' = k
  · subst hk
    rw [put_self] at hentry
    cases hentry
    exact hvalue
  · rw [put_of_ne now cache hk] at hentry
    exact h k' value' written hentry

lemma Backed.evict (h : Backed origin cache) (k : κ) : Backed origin (cache.evict k) := by
  intro k' value' written hentry
  by_cases hk : k' = k
  · subst hk
    rw [evict_self] at hentry
    cases hentry
  · rw [evict_of_ne cache hk] at hentry
    exact h k' value' written hentry

end Backed

/-! ### How often a key is loaded -/

section Metered

variable {α : Type*} {life now loads evictions : ℕ} {held : Option (α × ℕ)}

/-- A value is loaded once for every time that a value lives, and once more for every eviction. -/
def Metered (life now loads evictions : ℕ) : Option (α × ℕ) → Prop
  | some (_, written) => written ≤ now ∧ loads ≤ evictions + written / life + 1
  | none => loads ≤ evictions + now / life

lemma metered_none : Metered life now 0 evictions (none : Option (α × ℕ)) := Nat.zero_le _

lemma Metered.loads_le (h : Metered life now loads evictions held) : loads ≤ evictions + now / life + 1 := by
  cases held with
  | none =>
    have hle : loads ≤ evictions + now / life := h
    omega
  | some entry =>
    have hdiv := Nat.div_le_div_right (c := life) h.1
    have hle := h.2
    omega

lemma Metered.later (h : Metered life now loads evictions held) (seconds : ℕ) :
    Metered life (now + seconds) loads evictions held := by
  cases held with
  | none =>
    have hdiv := Nat.div_le_div_right (c := life) (Nat.le_add_right now seconds)
    have hle : loads ≤ evictions + now / life := h
    show loads ≤ evictions + (now + seconds) / life
    omega
  | some entry => exact ⟨Nat.le_trans h.1 (Nat.le_add_right now seconds), h.2⟩

/-- A load happens only when nothing is held or what is held has outlived its time. -/
lemma Metered.load (h : Metered life now loads evictions held) (hlife : 0 < life)
    (hdead : ∀ value written, held = some (value, written) → written + life ≤ now) (value : α) :
    Metered life now (loads + 1) evictions (some (value, now)) := by
  refine ⟨Nat.le_refl now, ?_⟩
  cases held with
  | none =>
    have hle : loads ≤ evictions + now / life := h
    omega
  | some entry =>
    have hle := h.2
    have hdiv := Nat.div_le_div_right (c := life) (hdead entry.1 entry.2 rfl)
    rw [Nat.add_div_right _ hlife] at hdiv
    omega

lemma Metered.evict (h : Metered life now loads evictions held) :
    Metered life now loads (evictions + 1) (none : Option (α × ℕ)) := by
  have hle := h.loads_le
  show loads ≤ evictions + 1 + now / life
  omega

lemma Metered.more (h : Metered life now loads evictions held) (n : ℕ) :
    Metered life now loads (evictions + n) held := by
  cases held with
  | none =>
    have hle : loads ≤ evictions + now / life := h
    show loads ≤ evictions + n + now / life
    omega
  | some entry =>
    have hle := h.2
    exact ⟨h.1, by omega⟩

end Metered

end LoadingCache
