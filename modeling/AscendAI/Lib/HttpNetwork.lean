import Mathlib.Data.List.Basic
import Mathlib.Data.Nat.Notation

/-!
# Hosts and redirects

Name resolution as Python sees it, and what a client requests that follows redirects up to a limit.
-/

namespace HttpNetwork

/-- How `socket.getaddrinfo` fails: for a name that does not resolve, or for a text that is no name. -/
inductive ResolveError where
  | gaierror
  | unicodeError (message : String)
  deriving DecidableEq

/-- `socket.getaddrinfo`: the addresses of a host. -/
abbrev GetAddrInfo := String → Except ResolveError (List String)

/-- The addresses that a host resolves to. -/
def GetAddrInfo.addresses (dns : GetAddrInfo) (host : String) : List String :=
  match dns host with
  | .ok ips => ips
  | .error _ => []

/-- How a client follows redirects: to which URLs, and how many of them. -/
structure RedirectPolicy where
  follows : String → Bool
  maxRedirects : ℕ

section Follow

variable {α : Type*} (next : α → Option α)

/-- What is visited from `a` on when at most `n` steps are taken. -/
def follow : ℕ → α → List α
  | 0, a => [a]
  | n + 1, a =>
    match next a with
    | some b => a :: follow n b
    | none => [a]

/-- What is `k` steps away from `a`. -/
def hop : ℕ → α → Option α
  | 0, a => some a
  | k + 1, a => (next a).bind (hop k)

variable {next} {n : ℕ} {a b : α}

lemma mem_follow_iff : b ∈ follow next n a ↔ ∃ k ≤ n, hop next k a = some b := by
  induction n generalizing a with
  | zero =>
    constructor
    · intro hmem
      exact ⟨0, Nat.le_refl 0, congrArg some (List.mem_singleton.mp hmem).symm⟩
    · rintro ⟨k, hk, hhop⟩
      obtain rfl := Nat.le_zero.mp hk
      exact List.mem_singleton.mpr (Option.some.inj hhop).symm
  | succ n ih =>
    cases hnext : next a with
    | none =>
      simp only [follow, hnext, List.mem_singleton]
      constructor
      · rintro rfl
        exact ⟨0, Nat.zero_le _, rfl⟩
      · rintro ⟨k, -, hhop⟩
        cases k with
        | zero => exact (Option.some.inj hhop).symm
        | succ k =>
          simp only [hop, hnext, Option.bind_none] at hhop
          cases hhop
    | some c =>
      simp only [follow, hnext, List.mem_cons, ih]
      constructor
      · rintro (rfl | ⟨k, hk, hhop⟩)
        · exact ⟨0, Nat.zero_le _, rfl⟩
        · exact ⟨k + 1, Nat.succ_le_succ hk, by simpa only [hop, hnext, Option.bind_some] using hhop⟩
      · rintro ⟨k, hk, hhop⟩
        cases k with
        | zero => exact Or.inl (Option.some.inj hhop).symm
        | succ k =>
          simp only [hop, hnext, Option.bind_some] at hhop
          exact Or.inr ⟨k, Nat.le_of_succ_le_succ hk, hhop⟩

/-- A law of all that is visited is one of the start and of what the steps lead to. -/
theorem forall_follow_iff {P : α → Prop} :
    (∀ b ∈ follow next n a, P b) ↔ P a ∧ ∀ k < n, ∀ b, hop next (k + 1) a = some b → P b := by
  constructor
  · intro h
    refine ⟨h a (mem_follow_iff.mpr ⟨0, Nat.zero_le n, rfl⟩), fun k hk b hhop => ?_⟩
    exact h b (mem_follow_iff.mpr ⟨k + 1, hk, hhop⟩)
  · rintro ⟨ha, h⟩ b hmem
    obtain ⟨k, hk, hhop⟩ := mem_follow_iff.mp hmem
    cases k with
    | zero =>
      obtain rfl := Option.some.inj hhop
      exact ha
    | succ k => exact h k hk b hhop

end Follow

end HttpNetwork
