import Mathlib.Data.List.Basic
import Mathlib.Data.List.Infix
import Mathlib.Data.List.Forall2

/-!
# Texts cut to a budget

A list of texts of which only so many units may be used: the texts are taken whole as long as they fit,
the one that does not fit is cut, and what comes after it is left out.
-/

namespace TextBudget

variable {α : Type*}

/-- `snippets` are the texts from the front, the last one possibly shortened, up to `budget` units. -/
structure CutTo (budget : ℕ) (texts snippets : List (List α)) : Prop where
  nonempty : [] ∉ snippets
  whole : snippets.dropLast <+: texts
  shortened : List.Forall₂ (fun snippet text => snippet <+: text) snippets (texts.take snippets.length)
  units : snippets.flatten = texts.flatten.take budget

def injected : ℕ → List (List α) → List (List α)
  | _, [] => []
  | budget, text :: texts =>
    if budget = 0 then [] else text.take budget :: injected (budget - text.length) texts

@[simp] lemma injected_zero (texts : List (List α)) : injected 0 texts = [] := by
  cases texts with
  | nil => rfl
  | cons text texts => exact if_pos rfl

lemma injected_cons_of_pos {budget : ℕ} (h : 0 < budget) (text : List α) (texts : List (List α)) :
    injected budget (text :: texts) = text.take budget :: injected (budget - text.length) texts :=
  if_neg (Nat.pos_iff_ne_zero.mp h)

lemma CutTo.length_le {budget : ℕ} {texts snippets : List (List α)} (h : CutTo budget texts snippets) :
    snippets.flatten.length ≤ budget := by
  rw [h.units, List.length_take]
  exact Nat.min_le_left ..

lemma cutTo_zero (texts : List (List α)) : CutTo 0 texts [] :=
  ⟨List.not_mem_nil, List.nil_prefix, .nil, rfl⟩

lemma CutTo.eq_nil {texts snippets : List (List α)} (h : CutTo 0 texts snippets) : snippets = [] := by
  cases snippets with
  | nil => rfl
  | cons snippet rest =>
    have hunits := h.units
    rw [List.take_zero, List.flatten_cons, List.append_eq_nil_iff] at hunits
    exact absurd (hunits.1 ▸ List.mem_cons_self) h.nonempty

lemma cutTo_injected {budget : ℕ} {texts : List (List α)} (h : [] ∉ texts) :
    CutTo budget texts (injected budget texts) := by
  induction texts generalizing budget with
  | nil => exact ⟨List.not_mem_nil, List.nil_prefix, .nil, by rw [injected, List.flatten_nil, List.take_nil]⟩
  | cons text texts ih =>
    rw [List.mem_cons, not_or] at h
    obtain rfl | hbudget := Nat.eq_zero_or_pos budget
    · rw [injected_zero]
      exact cutTo_zero _
    · have hrest : CutTo (budget - text.length) texts (injected (budget - text.length) texts) := ih h.2
      rw [injected_cons_of_pos hbudget]
      constructor
      case nonempty =>
        rw [List.mem_cons, not_or]
        refine ⟨fun hempty => ?_, hrest.nonempty⟩
        rcases List.take_eq_nil_iff.mp hempty.symm with hzero | hnil
        · omega
        · exact h.1 hnil.symm
      case whole =>
        -- a text is only cut where nothing of the later ones fits
        by_cases hfits : text.length < budget
        · have htake : text.take budget = text := List.take_of_length_le (Nat.le_of_lt hfits)
          rw [htake]
          cases hcut : injected (budget - text.length) texts with
          | nil => exact List.nil_prefix
          | cons snippet snippets =>
            rw [List.dropLast_cons_cons, List.prefix_cons_inj, ← hcut]
            exact hrest.whole
        · rw [Nat.sub_eq_zero_of_le (Nat.le_of_not_lt hfits), injected_zero]
          exact List.nil_prefix
      case shortened => exact .cons (List.take_prefix budget text) hrest.shortened
      case units => rw [List.flatten_cons, hrest.units, List.flatten_cons, List.take_append]

lemma CutTo.of_cons {budget : ℕ} {text snippet : List α} {texts rest : List (List α)}
    (h : CutTo budget (text :: texts) (snippet :: rest)) :
    snippet = text.take budget ∧ CutTo (budget - text.length) texts rest := by
  have hbound := h.length_le
  obtain ⟨hnonempty, hwhole, hshortened, hunits⟩ := h
  rw [List.length_cons, List.take_succ_cons, List.forall₂_cons] at hshortened
  rw [List.flatten_cons, List.flatten_cons, List.take_append] at hunits
  rw [List.flatten_cons] at hbound
  cases rest with
  | nil =>
    rw [List.flatten_nil, List.append_nil] at hunits hbound
    have hlater : texts.flatten.take (budget - text.length) = [] := by
      have hlength := congrArg List.length hunits
      have hle := hshortened.1.length_le
      rw [List.length_append, List.length_take] at hlength
      by_cases hfits : text.length < budget
      · exact List.eq_nil_of_length_eq_zero (by omega)
      · rw [Nat.sub_eq_zero_of_le (Nat.le_of_not_lt hfits), List.take_zero]
    rw [hlater, List.append_nil] at hunits
    exact ⟨hunits, List.not_mem_nil, List.nil_prefix, .nil, hlater.symm⟩
  | cons next rest =>
    rw [List.dropLast_cons_cons, List.cons_prefix_cons] at hwhole
    obtain ⟨rfl, hwhole⟩ := hwhole
    rw [List.mem_cons, not_or] at hnonempty
    have hnext : 0 < next.length := by
      apply List.length_pos_of_ne_nil
      rintro rfl
      exact hnonempty.2 List.mem_cons_self
    rw [List.length_append, List.flatten_cons, List.length_append] at hbound
    have htake : snippet.take budget = snippet := List.take_of_length_le (by omega)
    rw [htake] at hunits ⊢
    exact ⟨rfl, hnonempty.2, hwhole, hshortened.2, List.append_cancel_left hunits⟩

/-- The cut of the texts is what is injected. -/
theorem cutTo_iff {budget : ℕ} {texts snippets : List (List α)} (h : [] ∉ texts) :
    CutTo budget texts snippets ↔ snippets = injected budget texts := by
  constructor
  · intro hcut
    induction texts generalizing budget snippets with
    | nil =>
      have hlength := hcut.shortened.length_eq
      rw [List.take_nil, List.length_nil] at hlength
      exact List.eq_nil_of_length_eq_zero hlength
    | cons text texts ih =>
      rw [List.mem_cons, not_or] at h
      obtain rfl | hbudget := Nat.eq_zero_or_pos budget
      · rw [hcut.eq_nil, injected_zero]
      · rw [injected_cons_of_pos hbudget]
        cases snippets with
        | nil =>
          have hunits := hcut.units
          rw [List.flatten_nil, List.flatten_cons, List.take_append, eq_comm, List.append_eq_nil_iff,
            List.take_eq_nil_iff] at hunits
          rcases hunits.1 with hzero | hnil
          · omega
          · exact absurd hnil.symm h.1
        | cons snippet rest =>
          obtain ⟨rfl, hrest⟩ := hcut.of_cons
          rw [ih h.2 hrest]
  · rintro rfl
    exact cutTo_injected h

end TextBudget
