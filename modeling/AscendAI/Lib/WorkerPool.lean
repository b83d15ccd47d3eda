import Mathlib.Data.List.Range

/-!
# A pool of workers

A caller hands numbered jobs to a pool with a fixed number of workers and then waits until all of them are done. The
jobs wait in a queue; a worker that is free takes the first one. Jobs that run end in any order, also before the last
one is handed over.
-/

namespace WorkerPool

/-- The jobs, by number, with what each of them comes to. -/
structure Program (β : Type*) where
  count : ℕ
  workers : ℕ
  result : ℕ → β

inductive Caller where
  | submitting
  | waiting
  | resumed
  deriving DecidableEq

/-- The jobs that were handed over, those among them that wait, that run and that are done. -/
structure State (β : Type*) where
  submitted : ℕ
  queue : List ℕ
  running : List ℕ
  done : List (ℕ × β)
  caller : Caller

inductive Event where
  | caller
  | take
  | finish (k : ℕ)
  deriving DecidableEq

section Program

variable {β : Type*} (p : Program β)

def State.init : State β := ⟨0, [], [], [], .submitting⟩

def State.doneJobs (s : State β) : List ℕ := s.done.map Prod.fst

def Program.AllDone (s : State β) : Prop := ∀ k < p.count, k ∈ s.doneJobs

instance (s : State β) : Decidable (p.AllDone s) := inferInstanceAs (Decidable (∀ k < _, _))

/-- The next move, where there is one. -/
def Program.step? (s : State β) : Event → Option (State β)
  | .caller =>
    match s.caller with
    | .submitting =>
      if s.submitted = p.count then some { s with caller := .waiting }
      else some { s with submitted := s.submitted + 1, queue := s.queue ++ [s.submitted] }
    | .waiting => if p.AllDone s then some { s with caller := .resumed } else none
    | .resumed => none
  | .take =>
    match s.queue with
    | [] => none
    | k :: queue =>
      if s.running.length < p.workers then some { s with queue := queue, running := k :: s.running } else none
  | .finish k =>
    if k ∈ s.running then some { s with running := s.running.erase k, done := (k, p.result k) :: s.done } else none

def Program.run? (s : State β) : List Event → Option (State β)
  | [] => some s
  | event :: events => (p.step? s event).bind fun s' => Program.run? s' events

/-- What has become of the jobs: each one handed over is in one place, and no more run than there are workers. -/
structure Program.Inv (s : State β) : Prop where
  places : (s.queue ++ (s.running ++ s.doneJobs)).Perm (List.range s.submitted)
  submitted : s.submitted ≤ p.count
  workers : s.running.length ≤ p.workers
  results : ∀ job ∈ s.done, job.2 = p.result job.1
  handedOver : s.caller ≠ .submitting → s.submitted = p.count
  resumed : s.caller = .resumed → p.AllDone s

/-- The moves that are left. -/
def Program.variant (s : State β) : ℕ :=
  (match s.caller with
    | .submitting => 3 * (p.count - s.submitted) + 2
    | .waiting => 1
    | .resumed => 0) + 2 * s.queue.length + s.running.length

variable {p}

lemma Program.Inv.init (p : Program β) : p.Inv State.init :=
  ⟨.refl _, Nat.zero_le _, Nat.zero_le _, fun _ h => absurd h List.not_mem_nil, fun h => absurd rfl h,
    fun h => by cases h⟩

lemma Program.Inv.step {s s' : State β} (h : p.Inv s) {event : Event} (hstep : p.step? s event = some s') :
    p.Inv s' ∧ p.variant s' < p.variant s := by
  cases event with
  | caller =>
    simp only [Program.step?] at hstep
    cases hcaller : s.caller with
    | submitting =>
      simp only [hcaller] at hstep
      split at hstep
      · rename_i hall
        obtain rfl := Option.some.inj hstep
        refine ⟨⟨h.places, h.submitted, h.workers, h.results, fun _ => hall, fun heq => by cases heq⟩, ?_⟩
        simp only [Program.variant, hcaller]
        omega
      · rename_i hmore
        obtain rfl := Option.some.inj hstep
        have hless : s.submitted < p.count := lt_of_le_of_ne h.submitted hmore
        refine ⟨⟨?_, hless, h.workers, h.results, fun hne => absurd rfl hne, fun heq => by cases heq⟩, ?_⟩
        · have hplaces : (s.queue ++ [s.submitted] ++ (s.running ++ s.doneJobs)).Perm
              (s.queue ++ (s.running ++ s.doneJobs) ++ [s.submitted]) := by
            rw [List.append_assoc, List.append_assoc]
            exact List.Perm.append_left _ List.perm_append_comm
          rw [List.range_succ]
          exact hplaces.trans (h.places.append_right _)
        · simp only [Program.variant, hcaller, List.length_append, List.length_singleton]
          omega
    | waiting =>
      simp only [hcaller] at hstep
      split at hstep
      · rename_i hall
        obtain rfl := Option.some.inj hstep
        refine ⟨⟨h.places, h.submitted, h.workers, h.results, fun _ => ?_, fun _ => hall⟩, ?_⟩
        · exact h.handedOver (by rw [hcaller]; exact Caller.noConfusion)
        · simp only [Program.variant, hcaller]
          omega
      · cases hstep
    | resumed =>
      simp only [hcaller] at hstep
      cases hstep
  | take =>
    simp only [Program.step?] at hstep
    cases hqueue : s.queue with
    | nil =>
      simp only [hqueue] at hstep
      cases hstep
    | cons k queue =>
      simp only [hqueue] at hstep
      split at hstep
      · rename_i hfree
        obtain rfl := Option.some.inj hstep
        refine ⟨⟨?_, h.submitted, hfree, h.results, h.handedOver, h.resumed⟩, ?_⟩
        · have hplaces := h.places
          rw [hqueue] at hplaces
          exact List.perm_middle.trans hplaces
        · simp only [Program.variant, hqueue, List.length_cons]
          omega
      · cases hstep
  | finish k =>
    simp only [Program.step?] at hstep
    split at hstep
    · rename_i hrunning
      obtain rfl := Option.some.inj hstep
      have hlength := List.length_erase_of_mem hrunning
      have hpos := List.length_pos_of_mem hrunning
      have hworkers := h.workers
      refine ⟨⟨?_, h.submitted, by simp only; omega, ?_, h.handedOver, fun heq => ?_⟩, ?_⟩
      · refine (List.Perm.append_left _ ?_).trans h.places
        have herase : (k :: (s.running.erase k ++ s.doneJobs)).Perm (s.running ++ s.doneJobs) :=
          (List.perm_cons_erase hrunning).symm.append_right s.doneJobs
        exact List.perm_middle.trans herase
      · intro job hjob
        rcases List.mem_cons.mp hjob with rfl | hold
        · rfl
        · exact h.results job hold
      · exact fun j hj => List.mem_cons_of_mem _ (h.resumed heq j hj)
      · simp only [Program.variant, hlength]
        omega
    · cases hstep

lemma Program.Inv.run {s s' : State β} (h : p.Inv s) {events : List Event} (hrun : p.run? s events = some s') :
    p.Inv s' ∧ events.length + p.variant s' ≤ p.variant s := by
  induction events generalizing s with
  | nil =>
    obtain rfl := Option.some.inj hrun
    exact ⟨h, by rw [List.length_nil, Nat.zero_add]⟩
  | cons event events ih =>
    obtain ⟨middle, hstep, hrest⟩ := Option.bind_eq_some_iff.mp hrun
    obtain ⟨hmiddle, hless⟩ := h.step hstep
    obtain ⟨hend, hbound⟩ := ih hmiddle hrest
    refine ⟨hend, ?_⟩
    rw [List.length_cons]
    omega

/-- In every order of the moves there are at most three for each job, and two of the caller. -/
lemma Program.length_le {s : State β} {events : List Event} (hrun : p.run? State.init events = some s) :
    events.length ≤ 3 * p.count + 2 := by
  have hbound := ((Program.Inv.init p).run hrun).2
  have hvariant : p.variant State.init = 3 * p.count + 2 := rfl
  omega

/-- A pool that has a worker comes to its end: until the caller has resumed, something can move. -/
lemma Program.Inv.moves {s : State β} (h : p.Inv s) (hworkers : 0 < p.workers) :
    s.caller = .resumed ∨ ∃ event s', p.step? s event = some s' := by
  by_cases hresumed : s.caller = .resumed
  · exact .inl hresumed
  refine .inr ?_
  cases hrunning : s.running with
  | cons k running =>
    refine ⟨.finish k, ?_⟩
    have hmem : k ∈ s.running := by rw [hrunning]; exact List.mem_cons_self
    simp only [Program.step?, if_pos hmem]
    exact ⟨_, rfl⟩
  | nil =>
    cases hqueue : s.queue with
    | cons k queue =>
      refine ⟨.take, ?_⟩
      have hfree : s.running.length < p.workers := by rw [hrunning]; exact hworkers
      simp only [Program.step?, hqueue, if_pos hfree]
      exact ⟨_, rfl⟩
    | nil =>
      refine ⟨.caller, ?_⟩
      cases hcaller : s.caller with
      | resumed => exact absurd hcaller hresumed
      | submitting =>
        simp only [Program.step?, hcaller]
        split <;> exact ⟨_, rfl⟩
      | waiting =>
        have hsubmitted := h.handedOver (by rw [hcaller]; exact Caller.noConfusion)
        have hplaces := h.places
        rw [hqueue, hrunning, hsubmitted, List.nil_append, List.nil_append] at hplaces
        have hall : p.AllDone s := fun k hk => hplaces.mem_iff.mpr (List.mem_range.mpr hk)
        simp only [Program.step?, hcaller, if_pos hall]
        exact ⟨_, rfl⟩

/-- No job is in two places. -/
lemma Program.Inv.nodup {s : State β} (h : p.Inv s) : (s.queue ++ (s.running ++ s.doneJobs)).Nodup :=
  h.places.nodup_iff.mpr List.nodup_range

/-- What a job has come to, once it is done. -/
def State.result? (s : State β) (k : ℕ) : Option β := s.done.lookup k

lemma Program.Inv.result?_of_done {s : State β} (h : p.Inv s) {k : ℕ} (hk : k ∈ s.doneJobs) :
    s.result? k = some (p.result k) := by
  have hresults := h.results
  rw [State.doneJobs] at hk
  rw [State.result?]
  generalize s.done = done at hk hresults
  induction done with
  | nil => cases hk
  | cons job done ih =>
    rw [List.lookup_cons]
    by_cases hjob : k = job.1
    · subst hjob
      rw [beq_self_eq_true, hresults job List.mem_cons_self]
    · rw [beq_eq_false_iff_ne.mpr hjob]
      refine ih ((List.mem_cons.mp hk).resolve_left hjob) fun job' hjob' => ?_
      exact hresults job' (List.mem_cons_of_mem _ hjob')

/-- When the caller has resumed, no job waits or runs, and every result is there. -/
lemma Program.Inv.of_resumed {s : State β} (h : p.Inv s) (hresumed : s.caller = .resumed) :
    s.queue = [] ∧ s.running = [] ∧ ∀ k < p.count, s.result? k = some (p.result k) := by
  have hall := h.resumed hresumed
  have hnone : ∀ k, k ∈ s.queue ++ s.running → False := by
    intro k hk
    have hplace : k ∈ s.queue ++ (s.running ++ s.doneJobs) := by
      rw [← List.append_assoc]
      exact List.mem_append_left _ hk
    have hcount : k < p.count := (List.mem_range.mp (h.places.mem_iff.mp hplace)).trans_le h.submitted
    have hnodup := h.nodup
    rw [← List.append_assoc, List.nodup_append] at hnodup
    exact hnodup.2.2 k hk k (hall k hcount) rfl
  have hnil := List.eq_nil_iff_forall_not_mem.mpr hnone
  rw [List.append_eq_nil_iff] at hnil
  exact ⟨hnil.1, hnil.2, fun k hk => h.result?_of_done (hall k hk)⟩

end Program

end WorkerPool
