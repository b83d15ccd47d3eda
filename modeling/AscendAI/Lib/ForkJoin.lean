import Mathlib.Data.List.Basic
import Mathlib.Order.Basic
import Mathlib.Order.Nat

/-!
# Tasks that are started and joined in order

A caller hands tasks to an executor one after the other, and then waits for each in the same order and collects
what it gives. The executor may reject a task, which ends the caller with the exception. Tasks that have been
started run in any order, also before the last one is handed over.
-/

namespace ForkJoin

/-- The caller and its tasks: a task advances until it has a result. -/
structure Program (π β ρ : Type*) where
  count : ℕ
  rejects : ℕ → Bool
  start : ℕ → π
  advance : ℕ → π → π
  result? : π → Option β
  nothing : ρ
  collect : ρ → β → ρ

inductive Caller (ρ : Type*) where
  | submitting
  | joining (i : ℕ) (results : ρ)
  | returned (results : ρ)
  | thrown

structure State (π ρ : Type*) where
  tasks : List π
  caller : Caller ρ

inductive Event where
  | caller
  | task (k : ℕ)
  deriving DecidableEq

section Program

variable {π β ρ : Type*} (p : Program π β ρ)

def State.init : State π ρ := ⟨[], .submitting⟩

/-- The next move of the caller, who waits where the task to be joined has no result yet. -/
def Program.stepCaller (s : State π ρ) : Option (State π ρ) :=
  match s.caller with
  | .submitting =>
    if s.tasks.length = p.count then some { s with caller := .joining 0 p.nothing }
    else if p.rejects s.tasks.length then some { s with caller := .thrown }
    else some { s with tasks := s.tasks ++ [p.start s.tasks.length] }
  | .joining i results =>
    match s.tasks[i]? with
    | none => some { s with caller := .returned results }
    | some task => (p.result? task).map fun b => { s with caller := .joining (i + 1) (p.collect results b) }
  | .returned _ => none
  | .thrown => none

def Program.stepTask (s : State π ρ) (k : ℕ) : Option (State π ρ) :=
  match s.tasks[k]? with
  | none => none
  | some task =>
    match p.result? task with
    | none => some { s with tasks := s.tasks.set k (p.advance k task) }
    | some _ => none

def Program.step? (s : State π ρ) : Event → Option (State π ρ)
  | .caller => p.stepCaller s
  | .task k => p.stepTask s k

/-- The steps one after the other, as long as each of them is possible. -/
def Program.run? (s : State π ρ) : List Event → Option (State π ρ)
  | [] => some s
  | event :: events => (p.step? s event).bind fun s' => Program.run? s' events

/-- In every order of the steps the caller comes to its end without an exception, and with these results. -/
structure Program.Completes (expected : ρ) : Prop where
  neverThrows : ∀ events s, p.run? State.init events = some s → s.caller ≠ .thrown
  returns : ∀ events s results, p.run? State.init events = some s → s.caller = .returned results → results = expected
  moves : ∀ events s, p.run? State.init events = some s →
    (∃ results, s.caller = .returned results) ∨ ∃ event s', p.step? s event = some s'
  ends : ∃ bound, ∀ events s, p.run? State.init events = some s → events.length ≤ bound

/-- Every task comes to its final result: what holds of it from its start on, and how many steps it has left. -/
structure Program.Settles (final : ℕ → β) (Leads : ℕ → π → Prop) (left : π → ℕ) (most : ℕ) : Prop where
  start : ∀ k, Leads k (p.start k)
  advance : ∀ k task, Leads k task → p.result? task = none →
    Leads k (p.advance k task) ∧ left (p.advance k task) < left task
  result : ∀ k task b, Leads k task → p.result? task = some b → b = final k
  most : ∀ k, left (p.start k) ≤ most

/-- The results of the first tasks, collected in their order. -/
def Program.collected (final : ℕ → β) (n : ℕ) : ρ :=
  (List.range n).foldl (fun results k => p.collect results (final k)) p.nothing

lemma Program.collected_succ (final : ℕ → β) (n : ℕ) :
    p.collected final (n + 1) = p.collect (p.collected final n) (final n) := by
  rw [Program.collected, List.range_succ, List.foldl_append, Program.collected, List.foldl_cons, List.foldl_nil]

/-! ### What a step does -/

section Steps

variable {p} {final : ℕ → β} {Leads : ℕ → π → Prop} {left : π → ℕ} {most : ℕ}

/-- Where the caller is, what it has collected. -/
def Program.CallerAt (p : Program π β ρ) (final : ℕ → β) (tasks : List π) : Caller ρ → Prop
  | .submitting => True
  | .joining i results => tasks.length = p.count ∧ i ≤ p.count ∧ results = p.collected final i
  | .returned results => tasks.length = p.count ∧ results = p.collected final p.count
  | .thrown => ∃ k < p.count, p.rejects k = true

/-- Only the number of the tasks counts for the caller. -/
lemma Program.CallerAt.of_length {tasks tasks' : List π} {caller : Caller ρ} (h : p.CallerAt final tasks caller)
    (hlength : tasks'.length = tasks.length) : p.CallerAt final tasks' caller := by
  cases caller with
  | submitting => trivial
  | joining i results => exact ⟨hlength.trans h.1, h.2⟩
  | returned results => exact ⟨hlength.trans h.1, h.2⟩
  | thrown => exact h

structure Program.Inv (p : Program π β ρ) (final : ℕ → β) (Leads : ℕ → π → Prop) (s : State π ρ) : Prop where
  length : s.tasks.length ≤ p.count
  accepted : ∀ k < s.tasks.length, p.rejects k = false
  leads : ∀ k task, s.tasks[k]? = some task → Leads k task
  caller : p.CallerAt final s.tasks s.caller

/-- The steps that the tasks have left. -/
def pending (left : π → ℕ) : List π → ℕ
  | [] => 0
  | task :: tasks => left task + pending left tasks

lemma pending_concat (left : π → ℕ) (tasks : List π) (task : π) :
    pending left (tasks ++ [task]) = pending left tasks + left task := by
  induction tasks with
  | nil => exact (Nat.add_comm _ _)
  | cons first tasks ih => rw [List.cons_append, pending, ih, pending, Nat.add_assoc]

lemma pending_set_lt {left : π → ℕ} {tasks : List π} {k : ℕ} {task task' : π} (htask : tasks[k]? = some task)
    (hless : left task' < left task) : pending left (tasks.set k task') < pending left tasks := by
  induction tasks generalizing k with
  | nil => cases htask
  | cons first tasks ih =>
    cases k with
    | zero =>
      obtain rfl := Option.some.inj htask
      rw [List.set_cons_zero, pending, pending]
      exact Nat.add_lt_add_right hless _
    | succ k =>
      rw [List.set_cons_succ, pending, pending]
      exact Nat.add_lt_add_left (ih htask) _

/-- The steps that the caller has left, with those of the tasks that it has still to start. -/
def Program.callerLeft (p : Program π β ρ) (most : ℕ) (s : State π ρ) : ℕ :=
  match s.caller with
  | .submitting => (p.count - s.tasks.length) * (most + 1) + (p.count + 2)
  | .joining i _ => p.count + 1 - i
  | .returned _ => 0
  | .thrown => 0

def Program.variant (p : Program π β ρ) (left : π → ℕ) (most : ℕ) (s : State π ρ) : ℕ :=
  p.callerLeft most s + pending left s.tasks

lemma Program.Inv.init (p : Program π β ρ) (final : ℕ → β) (Leads : ℕ → π → Prop) : p.Inv final Leads State.init := by
  refine ⟨Nat.zero_le _, fun k hk => absurd hk (Nat.not_lt_zero k), fun k task htask => ?_, trivial⟩
  cases htask

lemma getElem?_concat_cases {tasks : List π} {new task : π} {k : ℕ} (h : (tasks ++ [new])[k]? = some task) :
    tasks[k]? = some task ∨ k = tasks.length ∧ task = new := by
  rcases Nat.lt_or_ge k tasks.length with hlt | hge
  · rw [List.getElem?_append_left hlt] at h
    exact .inl h
  · have hk : k < (tasks ++ [new]).length := (List.getElem?_eq_some_iff.mp h).1
    rw [List.length_append, List.length_singleton] at hk
    obtain rfl : k = tasks.length := by omega
    rw [List.getElem?_append_right le_rfl, Nat.sub_self] at h
    exact .inr ⟨rfl, (Option.some.inj h).symm⟩

/-- An accepted task keeps the invariant, and its steps have been reckoned with. -/
lemma Program.Inv.submit (hset : p.Settles final Leads left most) {tasks : List π}
    (h : p.Inv final Leads ⟨tasks, .submitting⟩) (hlt : tasks.length < p.count)
    (haccepted : p.rejects tasks.length = false) :
    p.Inv final Leads ⟨tasks ++ [p.start tasks.length], .submitting⟩ ∧
      p.variant left most ⟨tasks ++ [p.start tasks.length], .submitting⟩ <
        p.variant left most ⟨tasks, .submitting⟩ := by
  have hlength : (tasks ++ [p.start tasks.length]).length = tasks.length + 1 := List.length_append
  refine ⟨⟨hlength.le.trans hlt, fun k hk => ?_, fun k task htask => ?_, trivial⟩, ?_⟩
  · rw [hlength] at hk
    rcases Nat.lt_succ_iff_lt_or_eq.mp hk with hk | rfl
    · exact h.accepted k hk
    · exact haccepted
  · rcases getElem?_concat_cases htask with hold | ⟨rfl, rfl⟩
    · exact h.leads k task hold
    · exact hset.start _
  · have hmost := hset.most tasks.length
    have hsplit : p.count - tasks.length = (p.count - (tasks.length + 1)) + 1 := by omega
    simp only [Program.variant, Program.callerLeft, hlength, pending_concat]
    rw [hsplit, Nat.add_mul, Nat.one_mul]
    omega

/-- A step of the caller keeps the invariant and comes nearer to the end. -/
lemma Program.Inv.stepCaller (hset : p.Settles final Leads left most) {s s' : State π ρ} (h : p.Inv final Leads s)
    (hstep : p.stepCaller s = some s') : p.Inv final Leads s' ∧ p.variant left most s' < p.variant left most s := by
  obtain ⟨tasks, caller⟩ := s
  cases caller with
  | submitting =>
    simp only [Program.stepCaller] at hstep
    split_ifs at hstep with hall hrejects
    · obtain rfl := Option.some.inj hstep
      refine ⟨⟨h.length, h.accepted, h.leads, hall, Nat.zero_le _, rfl⟩, ?_⟩
      simp only [Program.variant, Program.callerLeft]
      omega
    · obtain rfl := Option.some.inj hstep
      have hlt : tasks.length < p.count := lt_of_le_of_ne h.length hall
      refine ⟨⟨h.length, h.accepted, h.leads, _, hlt, hrejects⟩, ?_⟩
      simp only [Program.variant, Program.callerLeft]
      omega
    · obtain rfl := Option.some.inj hstep
      have hlt : tasks.length < p.count := lt_of_le_of_ne h.length hall
      exact h.submit hset hlt (Bool.eq_false_iff.mpr hrejects)
  | joining i results =>
    obtain ⟨hlength, hi, hresults⟩ := h.caller
    simp only [Program.stepCaller] at hstep
    cases htask : tasks[i]? with
    | none =>
      rw [htask] at hstep
      obtain rfl := Option.some.inj hstep
      have hlong : p.count ≤ i := by
        have hge := List.getElem?_eq_none_iff.mp htask
        simp only at hlength
        omega
      obtain rfl : i = p.count := le_antisymm hi hlong
      refine ⟨⟨h.length, h.accepted, h.leads, hlength, hresults⟩, ?_⟩
      simp only [Program.variant, Program.callerLeft]
      omega
    | some task =>
      rw [htask] at hstep
      obtain ⟨b, hb, rfl⟩ := Option.map_eq_some_iff.mp hstep
      have hlt : i < p.count := by
        have hlt := (List.getElem?_eq_some_iff.mp htask).1
        simp only at hlength
        omega
      obtain rfl := hset.result i task b (h.leads i task htask) hb
      refine ⟨⟨h.length, h.accepted, h.leads, hlength, hlt, ?_⟩, ?_⟩
      · rw [Program.collected_succ, hresults]
      · simp only [Program.variant, Program.callerLeft]
        omega
  | returned results => cases hstep
  | thrown => cases hstep

/-- A step of a task keeps the invariant and comes nearer to the end. -/
lemma Program.Inv.stepTask (hset : p.Settles final Leads left most) {s s' : State π ρ} (h : p.Inv final Leads s)
    {k : ℕ} (hstep : p.stepTask s k = some s') :
    p.Inv final Leads s' ∧ p.variant left most s' < p.variant left most s := by
  rw [Program.stepTask] at hstep
  cases htask : s.tasks[k]? with
  | none =>
    rw [htask] at hstep
    cases hstep
  | some task =>
    rw [htask] at hstep
    cases hresult : p.result? task with
    | some b =>
      simp only [hresult] at hstep
      cases hstep
    | none =>
      simp only [hresult] at hstep
      obtain rfl := Option.some.inj hstep
      obtain ⟨hleads, hless⟩ := hset.advance k task (h.leads k task htask) hresult
      have hlength : (s.tasks.set k (p.advance k task)).length = s.tasks.length := List.length_set
      refine ⟨⟨?_, fun j hj => ?_, fun j task' htask' => ?_, h.caller.of_length hlength⟩, ?_⟩
      · rw [hlength]
        exact h.length
      · rw [hlength] at hj
        exact h.accepted j hj
      · by_cases hj : k = j
        · subst hj
          rw [List.getElem?_set_self (List.getElem?_eq_some_iff.mp htask).1] at htask'
          obtain rfl := Option.some.inj htask'
          exact hleads
        · rw [List.getElem?_set_ne hj] at htask'
          exact h.leads j task' htask'
      · have hsame : p.callerLeft most { s with tasks := s.tasks.set k (p.advance k task) } = p.callerLeft most s := by
          simp only [Program.callerLeft, hlength]
        rw [Program.variant, Program.variant, hsame]
        exact Nat.add_lt_add_left (pending_set_lt htask hless) _

lemma Program.Inv.step (hset : p.Settles final Leads left most) {s s' : State π ρ} (h : p.Inv final Leads s)
    {event : Event} (hstep : p.step? s event = some s') :
    p.Inv final Leads s' ∧ p.variant left most s' < p.variant left most s := by
  cases event with
  | caller => exact h.stepCaller hset hstep
  | task k => exact h.stepTask hset hstep

/-- Along a run the invariant holds, and the run is no longer than the variant allows. -/
lemma Program.Inv.run (hset : p.Settles final Leads left most) {s s' : State π ρ} (h : p.Inv final Leads s)
    {events : List Event} (hrun : p.run? s events = some s') :
    p.Inv final Leads s' ∧ events.length + p.variant left most s' ≤ p.variant left most s := by
  induction events generalizing s with
  | nil =>
    obtain rfl := Option.some.inj hrun
    exact ⟨h, by rw [List.length_nil, Nat.zero_add]⟩
  | cons event events ih =>
    obtain ⟨middle, hstep, hrest⟩ := Option.bind_eq_some_iff.mp hrun
    obtain ⟨hmiddle, hless⟩ := h.step hset hstep
    obtain ⟨hend, hbound⟩ := ih hmiddle hrest
    refine ⟨hend, ?_⟩
    rw [List.length_cons]
    omega

/-- A caller that is not at its end can move, or waits for a task that can. -/
lemma Program.Inv.moves {s : State π ρ} (h : p.Inv final Leads s) (hthrown : s.caller ≠ .thrown) :
    (∃ results, s.caller = .returned results) ∨ ∃ event s', p.step? s event = some s' := by
  obtain ⟨tasks, caller⟩ := s
  cases caller with
  | submitting =>
    refine .inr ⟨.caller, ?_⟩
    simp only [Program.step?, Program.stepCaller]
    split_ifs <;> exact ⟨_, rfl⟩
  | joining i results =>
    refine .inr ?_
    cases htask : tasks[i]? with
    | none =>
      refine ⟨.caller, ?_⟩
      simp only [Program.step?, Program.stepCaller, htask]
      exact ⟨_, rfl⟩
    | some task =>
      cases hresult : p.result? task with
      | some b =>
        refine ⟨.caller, ?_⟩
        simp only [Program.step?, Program.stepCaller, htask, hresult]
        exact ⟨_, rfl⟩
      | none =>
        refine ⟨.task i, ?_⟩
        simp only [Program.step?, Program.stepTask, htask, hresult]
        exact ⟨_, rfl⟩
  | returned results => exact .inl ⟨results, rfl⟩
  | thrown => exact absurd rfl hthrown

lemma Program.run?_append {s s' : State π ρ} {events : List Event} (h : p.run? s events = some s')
    (events' : List Event) : p.run? s (events ++ events') = p.run? s' events' := by
  induction events generalizing s with
  | nil =>
    obtain rfl := Option.some.inj h
    rfl
  | cons event events ih =>
    obtain ⟨middle, hstep, hrest⟩ := Option.bind_eq_some_iff.mp h
    rw [List.cons_append, Program.run?, hstep, Option.bind_some, ih hrest]

/-- The caller alone hands over the tasks that nobody rejects. -/
lemma Program.run?_submit {n : ℕ} (hn : n ≤ p.count) (haccepts : ∀ k < n, p.rejects k = false) :
    ∃ s, p.run? State.init (List.replicate n .caller) = some s ∧ s.tasks.length = n ∧ s.caller = .submitting := by
  induction n with
  | zero => exact ⟨State.init, rfl, rfl, rfl⟩
  | succ n ih =>
    obtain ⟨s, hrun, hlength, hcaller⟩ := ih (by omega) fun k hk => haccepts k (by omega)
    refine ⟨{ s with tasks := s.tasks ++ [p.start s.tasks.length] }, ?_, ?_, hcaller⟩
    · have hne : s.tasks.length ≠ p.count := by omega
      have hrejects : ¬p.rejects s.tasks.length = true := by
        rw [hlength, haccepts n (Nat.lt_succ_self n)]
        exact Bool.false_ne_true
      rw [List.replicate_succ', Program.run?_append hrun, Program.run?, Program.step?, Program.stepCaller, hcaller]
      simp only [if_neg hne, if_neg hrejects]
      rfl
    · rw [List.length_append, List.length_singleton, hlength]

/-- The first task that is rejected ends the caller. -/
lemma Program.exists_thrown {k : ℕ} (hk : k < p.count) (hrejects : p.rejects k = true) :
    ∃ events s, p.run? State.init events = some s ∧ s.caller = .thrown := by
  induction k using Nat.strong_induction_on with
  | _ k ih =>
    by_cases hearlier : ∃ j < k, p.rejects j = true
    · obtain ⟨j, hj, hrejectsj⟩ := hearlier
      exact ih j hj (by omega) hrejectsj
    · have haccepts : ∀ j < k, p.rejects j = false := fun j hj =>
        Bool.eq_false_iff.mpr fun hrejectsj => hearlier ⟨j, hj, hrejectsj⟩
      obtain ⟨s, hrun, hlength, hcaller⟩ := Program.run?_submit hk.le haccepts
      have hne : s.tasks.length ≠ p.count := by omega
      rw [← hlength] at hrejects
      refine ⟨List.replicate k .caller ++ [.caller], { s with caller := .thrown }, ?_, rfl⟩
      rw [Program.run?_append hrun, Program.run?, Program.step?, Program.stepCaller, hcaller]
      simp only [if_neg hne, if_pos hrejects]
      rfl

/-- A caller that never throws has all of its tasks taken. -/
lemma Program.Completes.accepts {expected : ρ} (h : p.Completes expected) {k : ℕ} (hk : k < p.count) :
    p.rejects k = false := by
  by_contra hrejects
  obtain ⟨events, s, hrun, hthrown⟩ := Program.exists_thrown hk ((Bool.not_eq_false _).mp hrejects)
  exact h.neverThrows events s hrun hthrown

/-- The caller returns the results in the order of the tasks, whatever the order in which these run, exactly when
no task is rejected. -/
theorem Program.completes_iff (hset : p.Settles final Leads left most) :
    p.Completes (p.collected final p.count) ↔ ∀ k < p.count, p.rejects k = false := by
  constructor
  · intro h k hk
    exact h.accepts hk
  · intro haccepts
    have hinv := Program.Inv.init p final Leads
    have hthrows : ∀ events s, p.run? State.init events = some s → s.caller ≠ .thrown := by
      intro events s hrun hthrown
      have hcaller := (hinv.run hset hrun).1.caller
      rw [hthrown] at hcaller
      obtain ⟨k, hk, hrejects⟩ := hcaller
      rw [haccepts k hk] at hrejects
      cases hrejects
    refine ⟨hthrows, fun events s results hrun hreturned => ?_, fun events s hrun => ?_,
      p.variant left most State.init, fun events s hrun => ?_⟩
    · have hcaller := (hinv.run hset hrun).1.caller
      rw [hreturned] at hcaller
      exact hcaller.2
    · exact (hinv.run hset hrun).1.moves (hthrows events s hrun)
    · exact (Nat.le_add_right _ _).trans (hinv.run hset hrun).2

end Steps

end Program

end ForkJoin
