import AscendAI.Lib.ProcessPool

/-!
# A lock that owns a resource

The processes of a pool share a state of which a lock protects a part. While the lock is free the state
meets a condition, while it is taken its one holder knows the state at the place where it stands, and
a process outside the block of the lock only reads.
-/

/-- Where the lock and its block are, and what is asked of the state. -/
structure LockProtocol (σ : Type*) (π : Type*) where
  locked : σ → Bool
  inside : π → Bool
  Free : σ → Prop
  Holds : σ → π → Prop

namespace LockProtocol

open ProcessPool

variable {σ : Type*} {π : Type*} (p : LockProtocol σ π)

/-- Outside the block a step reads or takes the free lock. Inside it a step keeps what the holder
knows, or frees the lock. -/
structure RespectedBy (advance : σ → π → Outcome σ π) : Prop where
  started : ∀ s c, (advance s c).started = []
  outside : ∀ s c, p.inside c = false →
    ((advance s c).shared = s ∧ p.inside (advance s c).next = false) ∨
    (p.locked s = false ∧ p.locked (advance s c).shared = true ∧ p.inside (advance s c).next = true ∧
      (p.Free s → p.Holds (advance s c).shared (advance s c).next))
  inside : ∀ s c, p.inside c = true → p.Holds s c →
    (p.locked (advance s c).shared = p.locked s ∧ p.inside (advance s c).next = true ∧
      p.Holds (advance s c).shared (advance s c).next) ∨
    (p.locked (advance s c).shared = false ∧ p.inside (advance s c).next = false ∧
      p.Free (advance s c).shared)

inductive Owned (pool : ProcessPool σ π) : Prop
  | free (hlocked : p.locked pool.shared = false)
      (hout : ∀ (i : ℕ) c, pool.procs[i]? = some c → p.inside c = false) (hfree : p.Free pool.shared)
  | held (holder : ℕ) (c : π) (hlocked : p.locked pool.shared = true)
      (hholder : pool.procs[holder]? = some c) (hin : p.inside c = true)
      (hout : ∀ (i : ℕ) c', pool.procs[i]? = some c' → i ≠ holder → p.inside c' = false)
      (hholds : p.Holds pool.shared c)

variable {p} {pool : ProcessPool σ π}

/-- What follows from the condition of the free lock and from what the holder knows holds always. -/
lemma Owned.shared {Q : σ → Prop} (h : p.Owned pool) (hfree : ∀ s, p.Free s → Q s)
    (hholds : ∀ s c, p.inside c = true → p.Holds s c → Q s) : Q pool.shared := by
  cases h with
  | free _ _ h => exact hfree _ h
  | held holder c _ _ hin _ h => exact hholds _ c hin h

lemma Owned.holds (h : p.Owned pool) {i : ℕ} {c : π} (hi : pool.procs[i]? = some c)
    (hin : p.inside c = true) : p.Holds pool.shared c := by
  cases h with
  | free _ hout _ =>
    have hnot := hout i c hi
    rw [hin] at hnot
    cases hnot
  | held holder c' _ hholder _ hout hholds =>
    by_cases hij : i = holder
    · subst hij
      obtain rfl := Option.some.inj (hi.symm.trans hholder)
      exact hholds
    · have hnot := hout i c hi hij
      rw [hin] at hnot
      cases hnot

lemma Owned.free_of_outside (h : p.Owned pool)
    (hall : ∀ (i : ℕ) c, pool.procs[i]? = some c → p.inside c = false) :
    p.locked pool.shared = false ∧ p.Free pool.shared := by
  cases h with
  | free hlocked _ hfree => exact ⟨hlocked, hfree⟩
  | held holder c _ hholder hin _ _ =>
    have hnot := hall holder c hholder
    rw [hin] at hnot
    cases hnot

/-- A new process starts outside the block. -/
lemma Owned.start (h : p.Owned pool) {c : π} (hc : p.inside c = false) : p.Owned (pool.start c) := by
  have hcases : ∀ (i : ℕ) c', (pool.start c).procs[i]? = some c' →
      pool.procs[i]? = some c' ∨ c' = c := by
    intro i c' hi
    rw [getElem?_start] at hi
    split at hi
    · exact .inr (Option.some.inj hi).symm
    · exact .inl hi
  cases h with
  | free hlocked hout hfree =>
    refine .free hlocked (fun i c' hi => ?_) hfree
    rcases hcases i c' hi with hold | rfl
    · exact hout i c' hold
    · exact hc
  | held holder c₀ hlocked hholder hin hout hholds =>
    refine .held holder c₀ hlocked (getElem?_start_of_some hholder) hin (fun i c' hi hne => ?_) hholds
    rcases hcases i c' hi with hold | rfl
    · exact hout i c' hold hne
    · exact hc

/-- A change from outside the pool that the conditions bear. -/
lemma Owned.change (h : p.Owned pool) {s : σ} (hlocked : p.locked s = p.locked pool.shared)
    (hfree : p.Free pool.shared → p.Free s)
    (hholds : ∀ c, p.inside c = true → p.Holds pool.shared c → p.Holds s c) :
    p.Owned { pool with shared := s } := by
  cases h with
  | free hl hout hf => exact .free (hlocked.trans hl) hout (hfree hf)
  | held holder c hl hholder hin hout hh =>
    exact .held holder c (hlocked.trans hl) hholder hin hout (hholds c hin hh)

/-- With the one that steps outside behind it, all others are where they were. -/
lemma outside_step {advance : σ → π → Outcome σ π} (hp : p.RespectedBy advance) {i : ℕ} {c : π}
    (hi : pool.procs[i]? = some c) (hnext : p.inside (advance pool.shared c).next = false) {j : ℕ} {c' : π}
    (hj : (pool.step advance i).procs[j]? = some c')
    (hothers : j ≠ i → pool.procs[j]? = some c' → p.inside c' = false) : p.inside c' = false := by
  have hself : (pool.step advance i).procs[i]? = some (advance pool.shared c).next := getElem?_step_self hi
  by_cases hij : j = i
  · rw [hij, hself] at hj
    rw [← Option.some.inj hj, hnext]
  · apply hothers hij
    rwa [getElem?_step advance hi (hp.started _ _), if_neg hij] at hj

lemma Owned.step {advance : σ → π → Outcome σ π} (hp : p.RespectedBy advance) (h : p.Owned pool) (i : ℕ) :
    p.Owned (pool.step advance i) := by
  cases hi : pool.procs[i]? with
  | none =>
    rw [step_of_none hi]
    exact h
  | some c =>
    have hprocs := getElem?_step advance hi (hp.started _ _)
    have hself : (pool.step advance i).procs[i]? = some (advance pool.shared c).next :=
      getElem?_step_self hi
    have hothers : ∀ (j : ℕ) c', (pool.step advance i).procs[j]? = some c' → j ≠ i →
        pool.procs[j]? = some c' := by
      intro j c' hj hne
      rwa [hprocs, if_neg hne] at hj
    have hshared := shared_step advance hi
    cases h with
    | free hlocked hout hfree =>
      rcases hp.outside pool.shared c (hout i c hi) with ⟨hsame, hnext⟩ | ⟨-, htaken, hnext, hknows⟩
      · rw [hsame] at hshared
        refine .free (by rw [hshared, hlocked]) (fun j c' hj => ?_) (by rwa [hshared])
        exact outside_step hp hi hnext hj fun _ hold => hout j c' hold
      · refine .held i _ (by rw [hshared, htaken]) hself hnext (fun j c' hj hij => ?_) ?_
        · exact hout j c' (hothers j c' hj hij)
        · rw [hshared]
          exact hknows hfree
    | held holder c₀ hlocked hholder hin hout hholds =>
      by_cases hholderi : i = holder
      · subst hholderi
        obtain rfl := Option.some.inj (hi.symm.trans hholder)
        rcases hp.inside pool.shared c hin hholds with ⟨hsame, hnext, hknows⟩ | ⟨hfreed, hnext, hfree⟩
        · refine .held i _ (by rw [hshared, hsame, hlocked]) hself hnext (fun j c' hj hij => ?_) ?_
          · exact hout j c' (hothers j c' hj hij) hij
          · rwa [hshared]
        · refine .free (by rw [hshared, hfreed]) (fun j c' hj => ?_) (by rwa [hshared])
          exact outside_step hp hi hnext hj fun hij hold => hout j c' hold hij
      · rcases hp.outside pool.shared c (hout i c hi hholderi) with ⟨hsame, hnext⟩ | ⟨hunlocked, -, -, -⟩
        · rw [hsame] at hshared
          have hstill : (pool.step advance i).procs[holder]? = some c₀ :=
            getElem?_step_of_ne (Ne.symm hholderi) hholder
          refine .held holder c₀ (by rw [hshared, hlocked]) hstill hin (fun j c' hj hne => ?_)
            (by rwa [hshared])
          exact outside_step hp hi hnext hj fun _ hold => hout j c' hold hne
        · rw [hlocked] at hunlocked
          cases hunlocked

end LockProtocol
