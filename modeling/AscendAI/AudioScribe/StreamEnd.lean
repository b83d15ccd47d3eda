import Mathlib.Data.Prod.Lex
import AscendAI.AudioScribe.ProgressStream

/-!
# How a stream ends

A stream ends as its job does exactly when no put finds the queue full. Until the first one that does,
what was emitted is what was sent and what is queued; the backend, the task and the consumer each come
to their end under a fair schedule.
-/

namespace AscendAI.AudioScribe
open FairRuns

section Stream

variable {π : Type} (e : StreamEndpoint) (newId : ℕ → String) (job : Job π) (store : TranscriptStore)

/-- What holds as long as no put has found the queue full. -/
structure Sound (s : StreamState π) : Prop where
  length : s.pending.length = job.workers.length
  failed : s.failed = false
  task : s.task ≠ .raised
  emitted : ∀ i, ((s.emitted.filter fun call => call.1 = i).map Prod.snd) ++ (s.pending[i]?).getD [] =
    (job.workers[i]?).getD []
  returned : s.task = .returned → ∀ payloads ∈ s.pending, payloads = []
  drained : s.consumer = .draining ∨ s.consumer = .finished → s.task = .returned
  streaming : s.consumer ≠ .finished → s.events ++ s.queue.map .payload =
    e.opening.map .progress ++ s.emitted.map (fun call => .payload call.2) ∧ s.store = store
  ended : s.consumer = .finished → s.events = e.opening.map .progress ++
      s.emitted.map (fun call => .payload call.2) ++
      [.complete ("/api/v1/transcribe/download/" ++ newId store.length) e.source e.model e.language] ∧
    s.store = transcribe newId job store

/-- The actors without whom a stream does not come to its end. -/
def actorsOf : Set Actor := {a | ∀ i, a = .backend i → i < job.workers.length}

variable {e newId job store} {s : StreamState π}

lemma sound_start : Sound e newId job store (startStream e job store) where
  length := rfl
  failed := rfl
  task h := nomatch h
  emitted _ := rfl
  returned h := nomatch h
  drained h := by
    rcases h with h | h
    · cases h
    · cases h
  streaming _ := ⟨rfl, rfl⟩
  ended h := nomatch h

lemma Sound.endsAsJob (h : Sound e newId job store s) (hfinished : s.consumer = .finished) :
    EndsAsJob e newId job store s where
  finished := hfinished
  events := (h.ended hfinished).1
  emitted i := by
    have hempty : (s.pending[i]?).getD [] = [] := by
      cases hi : s.pending[i]? with
      | none => rfl
      | some payloads => exact h.returned (h.drained (.inr hfinished)) payloads (List.mem_of_getElem? hi)
    have hi := h.emitted i
    rwa [hempty, List.append_nil] at hi
  stored := (h.ended hfinished).2

/-! ### The steps keep the invariant -/

lemma streamStep_backend_of_none {i : ℕ} (hi : ∀ p rest, s.pending[i]? ≠ some (p :: rest)) :
    streamStep e newId job s (.backend i) = s := by
  cases hpayloads : s.pending[i]? with
  | none => simp only [streamStep, hpayloads]
  | some payloads =>
    cases payloads with
    | nil => simp only [streamStep, hpayloads]
    | cons p rest => exact absurd hpayloads (hi p rest)

lemma Sound.putNowait (h : Sound e newId job store s) {i : ℕ} {p : π} {rest : List π}
    (hi : s.pending[i]? = some (p :: rest)) (hfits : ¬e.maxsize ≤ s.queue.length) :
    Sound e newId job store (putNowait e s i p rest) := by
  have hrunning : s.task ≠ .returned := fun hreturned =>
    List.cons_ne_nil _ _ (h.returned hreturned _ (List.mem_of_getElem? hi))
  have hopen : s.consumer ≠ .finished := fun hfinished => hrunning (h.drained (.inr hfinished))
  unfold AudioScribe.putNowait
  rw [if_neg hfits]
  refine ⟨?_, h.failed, h.task, fun j => ?_, fun hreturned => absurd hreturned hrunning, h.drained,
    fun _ => ⟨?_, (h.streaming hopen).2⟩, fun hfinished => absurd hfinished hopen⟩
  · rw [List.length_set, h.length]
  · have hj := h.emitted j
    by_cases hij : i = j
    · subst hij
      simp only [hi, Option.getD_some] at hj
      simp only [List.filter_append, List.map_append, List.getElem?_set_self (List.getElem?_eq_some_iff.mp hi).1,
        Option.getD_some]
      simpa using hj
    · simp only [List.filter_append, List.map_append, List.getElem?_set_ne hij]
      simpa [hij] using hj
  · rw [List.map_append, List.map_append, ← List.append_assoc, ← List.append_assoc, (h.streaming hopen).1]
    rfl

lemma Sound.settleTask (h : Sound e newId job store s) : Sound e newId job store (settleTask s) := by
  unfold AudioScribe.settleTask
  split
  · exact h
  rw [h.failed, if_neg Bool.false_ne_true]
  split
  · rename_i hempty
    have hall : ∀ payloads ∈ s.pending, payloads = [] := by
      intro payloads hpayloads
      exact List.isEmpty_iff.mp (List.all_eq_true.mp hempty payloads hpayloads)
    exact ⟨h.length, rfl, nofun, h.emitted, fun _ => hall, fun _ => rfl, h.streaming, h.ended⟩
  · exact h

/-- The consumer takes the first payload of the queue and moves on. -/
lemma Sound.pop (h : Sound e newId job store s) {p : π} {queue : List π} (hqueue : s.queue = p :: queue)
    (hopen : s.consumer ≠ .finished) {consumer : Consumer} (hnext : consumer ≠ .finished)
    (hdrained : consumer = .draining → s.task = .returned) :
    Sound e newId job store
      { s with queue := queue, events := s.events ++ [.payload p], consumer := consumer } := by
  refine ⟨h.length, h.failed, h.task, h.emitted, h.returned, ?_, fun _ => ⟨?_, (h.streaming hopen).2⟩,
    fun hfinished => absurd hfinished hnext⟩
  · rintro (hdraining | hfinished)
    · exact hdrained hdraining
    · exact absurd hfinished hnext
  · rw [← (h.streaming hopen).1, hqueue, List.map_cons, List.append_assoc, List.singleton_append]

/-- The consumer moves on without taking anything. -/
lemma Sound.move (h : Sound e newId job store s) (hopen : s.consumer ≠ .finished) {consumer : Consumer}
    (hnext : consumer ≠ .finished) (hdrained : consumer = .draining → s.task = .returned) :
    Sound e newId job store { s with consumer := consumer } := by
  refine ⟨h.length, h.failed, h.task, h.emitted, h.returned, ?_, fun _ => h.streaming hopen,
    fun hfinished => absurd hfinished hnext⟩
  rintro (hdraining | hfinished)
  · exact hdrained hdraining
  · exact absurd hfinished hnext

lemma Sound.answer (h : Sound e newId job store s) (hdraining : s.consumer = .draining) (hqueue : s.queue = []) :
    Sound e newId job store (answer e newId job s) ∧ (answer e newId job s).consumer = .finished := by
  have hreturned := h.drained (.inl hdraining)
  have hopen : s.consumer ≠ .finished := by simp [hdraining]
  obtain ⟨hevents, hstore⟩ := h.streaming hopen
  rw [hqueue, List.map_nil, List.append_nil] at hevents
  unfold AudioScribe.answer
  rw [hreturned]
  refine ⟨⟨h.length, h.failed, nofun, h.emitted, fun _ => h.returned hreturned, fun _ => rfl,
    fun hne => absurd rfl hne, fun _ => ⟨?_, ?_⟩⟩, rfl⟩
  · rw [hevents, hstore]
  · rw [hstore]
    rfl

lemma Sound.consume (h : Sound e newId job store s) : Sound e newId job store (consume e newId job s) := by
  cases hconsumer : s.consumer with
  | checking =>
    have hopen : s.consumer ≠ .finished := by simp [hconsumer]
    simp only [AudioScribe.consume, hconsumer]
    split
    · exact h.move hopen nofun nofun
    · rename_i hdone
      refine h.move hopen nofun fun _ => ?_
      cases htask : s.task with
      | running => exact absurd htask hdone
      | returned => rfl
      | raised => exact absurd htask h.task
  | waiting =>
    have hopen : s.consumer ≠ .finished := by simp [hconsumer]
    cases hqueue : s.queue with
    | nil =>
      simp only [AudioScribe.consume, hconsumer, hqueue]
      exact h
    | cons p queue =>
      simp only [AudioScribe.consume, hconsumer, hqueue]
      exact h.pop hqueue hopen nofun nofun
  | draining =>
    have hopen : s.consumer ≠ .finished := by simp [hconsumer]
    cases hqueue : s.queue with
    | nil =>
      simp only [AudioScribe.consume, hconsumer, hqueue]
      exact (h.answer hconsumer hqueue).1
    | cons p queue =>
      simp only [AudioScribe.consume, hconsumer, hqueue]
      have hnext : Consumer.draining ≠ .finished := nofun
      exact h.pop hqueue hopen hnext fun _ => h.drained (.inl hconsumer)
  | finished =>
    simp only [AudioScribe.consume, hconsumer]
    exact h

lemma Sound.step (h : Sound e newId job store s) {a : Actor} (hfits : ¬Overflows e s a) :
    Sound e newId job store (streamStep e newId job s a) := by
  cases a with
  | backend i =>
    by_cases hi : ∃ p rest, s.pending[i]? = some (p :: rest)
    · obtain ⟨p, rest, hi⟩ := hi
      simp only [streamStep, hi]
      exact h.putNowait hi fun hfull => hfits ⟨⟨p, rest, hi⟩, hfull⟩
    · rw [streamStep_backend_of_none fun p rest hsome => hi ⟨p, rest, hsome⟩]
      exact h
  | settle => exact h.settleTask
  | consumer => exact h.consume
  | timeout =>
    by_cases hwaiting : s.consumer = .waiting
    · simp only [streamStep, hwaiting, if_true]
      exact h.move (by simp [hwaiting]) nofun nofun
    · simp only [streamStep, hwaiting, if_false]
      exact h

/-! ### The way to the end -/

def Consumer.rank : Consumer → ℕ
  | .waiting => 3
  | .checking => 2
  | .draining => 1
  | .finished => 0

/-- While the task runs, the payloads that are left; afterwards, what the consumer has to do. -/
def variant (s : StreamState π) : ℕ × ℕ :=
  if s.task = .running then (s.pending.flatten.length + 1, 0) else (0, s.queue.length + s.consumer.rank)

/-- Whose step brings the stream closer to its end. -/
def helpful (s : StreamState π) : Actor :=
  if s.task = .running then
    if s.pending.all List.isEmpty then .settle else .backend (s.pending.findIdx fun payloads => !payloads.isEmpty)
  else if s.consumer = .waiting ∧ s.queue = [] then .timeout
  else .consumer

lemma helpful_mem (h : Sound e newId job store s) : helpful s ∈ actorsOf job := by
  intro i hi
  unfold helpful at hi
  split at hi
  · split at hi
    · cases hi
    · rename_i hsome
      obtain rfl := Actor.backend.inj hi
      rw [← h.length, List.findIdx_lt_length]
      simpa using hsome
  · split at hi <;> cases hi

lemma variant_congr {s' : StreamState π} (hpending : s'.pending = s.pending) (htask : s'.task = s.task)
    (hrunning : s.task = .running) : variant s' = variant s ∧ helpful s' = helpful s := by
  unfold variant helpful
  rw [htask, hpending]
  simp [hrunning]

lemma length_flatten_set {pending : List (List π)} {i : ℕ} {payloads : List π}
    (hi : pending[i]? = some payloads) (payloads' : List π) :
    (pending.set i payloads').flatten.length + payloads.length = pending.flatten.length + payloads'.length := by
  obtain ⟨hlt, hget⟩ := List.getElem?_eq_some_iff.mp hi
  have hsplit : pending = pending.take i ++ payloads :: pending.drop (i + 1) := by
    rw [← hget, List.getElem_cons_drop, List.take_append_drop]
  have hset : pending.set i payloads' = pending.take i ++ payloads' :: pending.drop (i + 1) := by
    rw [List.set_eq_take_append_cons_drop, if_pos hlt]
  rw [hset]
  conv_rhs => rw [hsplit]
  simp only [List.flatten_append, List.flatten_cons, List.length_append]
  omega

/-- A put brings the stream closer to its end. -/
lemma variant_putNowait {i : ℕ} {p : π} {rest : List π} (hi : s.pending[i]? = some (p :: rest))
    (hfits : ¬e.maxsize ≤ s.queue.length) (hrunning : s.task = .running) :
    Prod.Lex (· < ·) (· < ·) (variant (putNowait e s i p rest)) (variant s) := by
  have hlength := length_flatten_set hi rest
  rw [List.length_cons] at hlength
  unfold variant putNowait
  simp only [hfits, if_false, hrunning, if_true]
  exact Prod.Lex.left _ _ (by omega)

lemma backend_ne_helpful {i : ℕ} (hi : ∀ p rest, s.pending[i]? ≠ some (p :: rest)) :
    Actor.backend i ≠ helpful s := by
  intro heq
  unfold helpful at heq
  split at heq
  · split at heq
    · cases heq
    · rename_i hsome
      obtain rfl := Actor.backend.inj heq
      have hlt : s.pending.findIdx (fun payloads => !payloads.isEmpty) < s.pending.length := by
        rw [List.findIdx_lt_length]
        simpa using hsome
      have hfound := List.findIdx_getElem (w := hlt)
      have hget := List.getElem?_eq_getElem hlt
      cases hpayloads : s.pending[s.pending.findIdx fun payloads => !payloads.isEmpty] with
      | nil =>
        rw [hpayloads] at hfound
        cases hfound
      | cons p rest =>
        rw [hpayloads] at hget
        exact hi p rest hget
  · split at heq <;> cases heq

lemma consume_frame (e : StreamEndpoint) (newId : ℕ → String) (job : Job π) (s : StreamState π) :
    (consume e newId job s).pending = s.pending ∧ (consume e newId job s).task = s.task := by
  unfold consume answer
  split
  · exact ⟨rfl, rfl⟩
  · exact ⟨rfl, rfl⟩
  · exact ⟨rfl, rfl⟩
  · cases htask : s.task with
    | running => exact ⟨rfl, htask⟩
    | returned => exact ⟨rfl, rfl⟩
    | raised => exact ⟨rfl, rfl⟩
  · exact ⟨rfl, rfl⟩
  · exact ⟨rfl, rfl⟩

/-- What a step of the run does to the variant. -/
def Advances (e : StreamEndpoint) (newId : ℕ → String) (job : Job π) (s : StreamState π) (a : Actor) : Prop :=
  (streamStep e newId job s a).consumer = .finished ∨
    Prod.Lex (· < ·) (· < ·) (variant (streamStep e newId job s a)) (variant s) ∨
    a ≠ helpful s ∧ variant (streamStep e newId job s a) = variant s ∧
      helpful (streamStep e newId job s a) = helpful s

lemma advances_of_eq {a : Actor} (hne : a ≠ helpful s) (hsame : streamStep e newId job s a = s) :
    Advances e newId job s a := by
  refine .inr (.inr ⟨hne, ?_, ?_⟩)
  · rw [hsame]
  · rw [hsame]

lemma advances_running (h : Sound e newId job store s) {a : Actor} (hfits : ¬Overflows e s a)
    (hrunning : s.task = .running) : Advances e newId job s a := by
  cases a with
  | backend i =>
    by_cases hi : ∃ p rest, s.pending[i]? = some (p :: rest)
    · obtain ⟨p, rest, hi⟩ := hi
      refine .inr (.inl ?_)
      simp only [streamStep, hi]
      exact variant_putNowait hi (fun hfull => hfits ⟨⟨p, rest, hi⟩, hfull⟩) hrunning
    · have hnone : ∀ p rest, s.pending[i]? ≠ some (p :: rest) := fun p rest hsome => hi ⟨p, rest, hsome⟩
      exact advances_of_eq (backend_ne_helpful hnone) (streamStep_backend_of_none hnone)
  | settle =>
    by_cases hall : s.pending.all List.isEmpty = true
    · refine .inr (.inl ?_)
      have hstep : streamStep e newId job s .settle = { s with task := .returned } := by
        simp [streamStep, settleTask, hrunning, h.failed, hall]
      rw [hstep]
      unfold variant
      simp only [hrunning, if_true]
      exact Prod.Lex.left _ _ (Nat.succ_pos _)
    · have hne : Actor.settle ≠ helpful s := by simp [helpful, hrunning, hall]
      exact advances_of_eq hne (by simp [streamStep, settleTask, hrunning, h.failed, hall])
  | consumer =>
    obtain ⟨hpending, htask⟩ := consume_frame e newId job s
    have hne : Actor.consumer ≠ helpful s := by
      unfold helpful
      rw [if_pos hrunning]
      split <;> nofun
    exact .inr (.inr ⟨hne, variant_congr hpending htask hrunning⟩)
  | timeout =>
    have hne : Actor.timeout ≠ helpful s := by
      unfold helpful
      rw [if_pos hrunning]
      split <;> nofun
    have hframe : (streamStep e newId job s .timeout).pending = s.pending ∧
        (streamStep e newId job s .timeout).task = s.task := by
      simp only [streamStep]
      split <;> exact ⟨rfl, rfl⟩
    exact .inr (.inr ⟨hne, variant_congr hframe.1 hframe.2 hrunning⟩)

lemma advances_returned (h : Sound e newId job store s) {a : Actor} (hreturned : s.task = .returned)
    (hopen : s.consumer ≠ .finished) : Advances e newId job s a := by
  have hvariant : ∀ s' : StreamState π, s'.task = .returned →
      s'.queue.length + s'.consumer.rank < s.queue.length + s.consumer.rank →
        Prod.Lex (· < ·) (· < ·) (variant s') (variant s) := by
    intro s' htask hless
    simp only [variant, htask, hreturned, reduceCtorEq, if_false]
    exact Prod.Lex.right _ hless
  cases a with
  | backend i =>
    have hi : ∀ p rest, s.pending[i]? ≠ some (p :: rest) := fun p rest hi =>
      List.cons_ne_nil p rest (h.returned hreturned _ (List.mem_of_getElem? hi))
    exact advances_of_eq (backend_ne_helpful hi) (streamStep_backend_of_none hi)
  | settle =>
    have hne : Actor.settle ≠ helpful s := by
      simp only [helpful, hreturned, reduceCtorEq, if_false]
      split <;> nofun
    exact advances_of_eq hne (by simp [streamStep, settleTask, hreturned])
  | timeout =>
    by_cases hwaiting : s.consumer = .waiting
    · refine .inr (.inl (hvariant _ ?_ ?_))
      · simp [streamStep, hwaiting, hreturned]
      · simp [streamStep, hwaiting, Consumer.rank]
    · have hne : Actor.timeout ≠ helpful s := by simp [helpful, hreturned, hwaiting]
      exact advances_of_eq hne (by simp [streamStep, hwaiting])
  | consumer =>
    cases hconsumer : s.consumer with
    | checking =>
      refine .inr (.inl (hvariant _ ?_ ?_))
      · simp [streamStep, consume, hconsumer, hreturned]
      · simp [streamStep, consume, hconsumer, hreturned, Consumer.rank]
    | waiting =>
      cases hqueue : s.queue with
      | nil =>
        have hne : Actor.consumer ≠ helpful s := by simp [helpful, hreturned, hconsumer, hqueue]
        exact advances_of_eq hne (by simp [streamStep, consume, hconsumer, hqueue])
      | cons p queue =>
        refine .inr (.inl (hvariant _ ?_ ?_))
        · simp [streamStep, consume, hconsumer, hqueue, hreturned]
        · simp [streamStep, consume, hconsumer, hqueue, Consumer.rank]
    | draining =>
      cases hqueue : s.queue with
      | nil =>
        left
        have hanswer := (h.answer hconsumer hqueue).2
        simpa [streamStep, consume, hconsumer, hqueue] using hanswer
      | cons p queue =>
        refine .inr (.inl (hvariant _ ?_ ?_))
        · simp [streamStep, consume, hconsumer, hqueue, hreturned]
        · simp [streamStep, consume, hconsumer, hqueue, Consumer.rank]
    | finished => exact absurd hconsumer hopen

/-! ### A put that finds the queue full -/

def Completed (s : StreamState π) : Prop := ∃ event ∈ s.events, event.isComplete = true

/-- What holds of every run: a task that returned had no failed put, and only it is completed. -/
structure Honest (s : StreamState π) : Prop where
  returned : s.task = .returned → s.failed = false ∧ ∀ payloads ∈ s.pending, payloads = []
  completed : Completed s → s.task = .returned

lemma honest_start : Honest (startStream e job store) where
  returned h := nomatch h
  completed := by
    rintro ⟨event, hevent, hcomplete⟩
    obtain ⟨message, -, rfl⟩ := List.mem_map.mp hevent
    cases hcomplete

/-- An event that is no completion does not complete the stream. -/
lemma completed_of_append {event : SseEvent π} (hevent : event.isComplete = false) {s' : StreamState π}
    (hevents : s'.events = s.events ++ [event]) (h : Completed s') : Completed s := by
  obtain ⟨event', hmem, hcomplete⟩ := h
  rw [hevents, List.mem_append, List.mem_singleton] at hmem
  rcases hmem with hold | rfl
  · exact ⟨event', hold, hcomplete⟩
  · rw [hevent] at hcomplete
    cases hcomplete

lemma Honest.consume (h : Honest s) : Honest (consume e newId job s) := by
  unfold AudioScribe.consume AudioScribe.answer
  split
  · exact ⟨h.returned, h.completed⟩
  · exact h
  · exact ⟨h.returned, fun hc => h.completed (completed_of_append rfl rfl hc)⟩
  · cases htask : s.task with
    | running => exact h
    | returned => exact ⟨fun _ => h.returned htask, fun _ => rfl⟩
    | raised =>
      exact ⟨nofun, fun hc => absurd (h.completed (completed_of_append rfl rfl hc)) (by simp [htask])⟩
  · exact ⟨h.returned, fun hc => h.completed (completed_of_append rfl rfl hc)⟩
  · exact h

lemma Honest.step (h : Honest s) (a : Actor) : Honest (streamStep e newId job s a) := by
  cases a with
  | backend i =>
    by_cases hi : ∃ p rest, s.pending[i]? = some (p :: rest)
    · obtain ⟨p, rest, hi⟩ := hi
      have hrunning : s.task ≠ .returned := fun hreturned =>
        List.cons_ne_nil _ _ ((h.returned hreturned).2 _ (List.mem_of_getElem? hi))
      simp only [streamStep, hi, putNowait]
      split
      · exact ⟨fun hreturned => absurd hreturned hrunning, h.completed⟩
      · exact ⟨fun hreturned => absurd hreturned hrunning, h.completed⟩
    · rw [streamStep_backend_of_none fun p rest hsome => hi ⟨p, rest, hsome⟩]
      exact h
  | settle =>
    have hopen : s.task = .running → ¬Completed s := fun hrunning hcompleted => by
      cases hrunning.symm.trans (h.completed hcompleted)
    simp only [streamStep, settleTask]
    split
    · exact h
    rename_i hrunning
    rw [not_not] at hrunning
    split
    · exact ⟨nofun, fun hcompleted => absurd hcompleted (hopen hrunning)⟩
    rename_i hfailed
    split
    · rename_i hempty
      refine ⟨fun _ => ⟨Bool.eq_false_iff.mpr hfailed, fun payloads hpayloads => ?_⟩, fun _ => rfl⟩
      exact List.isEmpty_iff.mp (List.all_eq_true.mp hempty payloads hpayloads)
    · exact h
  | consumer => exact h.consume
  | timeout =>
    simp only [streamStep]
    split
    · exact ⟨h.returned, h.completed⟩
    · exact h

lemma failed_step (h : s.failed = true) (a : Actor) : (streamStep e newId job s a).failed = true := by
  cases a with
  | backend i =>
    by_cases hi : ∃ p rest, s.pending[i]? = some (p :: rest)
    · obtain ⟨p, rest, hi⟩ := hi
      simp only [streamStep, hi, putNowait]
      split
      · rfl
      · exact h
    · rw [streamStep_backend_of_none fun p rest hsome => hi ⟨p, rest, hsome⟩]
      exact h
  | settle =>
    simp only [streamStep, settleTask]
    split
    · exact h
    · simp [h]
  | consumer =>
    simp only [streamStep, consume, answer]
    split
    · exact h
    · exact h
    · exact h
    · cases s.task with
      | running => exact h
      | returned => exact h
      | raised => exact h
    · exact h
    · exact h
  | timeout =>
    simp only [streamStep]
    split <;> exact h

lemma finished_step (h : s.consumer = .finished) (a : Actor) :
    (streamStep e newId job s a).consumer = .finished := by
  cases a with
  | backend i =>
    by_cases hi : ∃ p rest, s.pending[i]? = some (p :: rest)
    · obtain ⟨p, rest, hi⟩ := hi
      simp only [streamStep, hi, putNowait]
      split <;> exact h
    · rw [streamStep_backend_of_none fun p rest hsome => hi ⟨p, rest, hsome⟩]
      exact h
  | settle =>
    simp only [streamStep, settleTask]
    repeat' split
    all_goals exact h
  | consumer => simp only [streamStep, consume, h]
  | timeout => simp [streamStep, h]

lemma failed_of_overflows {a : Actor} (h : Overflows e s a) : (streamStep e newId job s a).failed = true := by
  cases a with
  | backend i =>
    obtain ⟨⟨p, rest, hi⟩, hfull⟩ := h
    simp only [streamStep, hi, putNowait, hfull, if_true]
  | settle => exact h.elim
  | consumer => exact h.elim
  | timeout => exact h.elim

/-- A put that finds the queue full ends the stream without its completion. -/
lemma not_streamsJob_of_overflows {sched : ℕ → Actor} {k : ℕ}
    (hfull : Overflows e (trace (streamStep e newId job) (startStream e job store) sched k) (sched k)) :
    ¬StreamsJob e newId job store sched := by
  rintro ⟨n, hend⟩
  have hfailed : (trace (streamStep e newId job) (startStream e job store) sched (k + 1)).failed = true :=
    failed_of_overflows hfull
  have hstay : ∀ s a, s.failed = true → (streamStep e newId job s a).failed = true :=
    fun _ a h => failed_step h a
  have hkeep : ∀ s a, Honest s → True → Honest (streamStep e newId job s a) := fun _ a h _ => h.step a
  have hhonest : Honest (trace (streamStep e newId job) (startStream e job store) sched (max n (k + 1))) :=
    trace_invariant hkeep honest_start (fun _ => trivial) _
  have hends := hend _ (le_max_left n (k + 1))
  have hcompleted : Completed (trace (streamStep e newId job) (startStream e job store) sched
      (max n (k + 1))) := by
    unfold Completed
    rw [hends.events]
    exact ⟨_, List.mem_append_right _ (List.mem_singleton_self _), rfl⟩
  have hlater := trace_stable hstay (le_max_right n (k + 1)) hfailed
  rw [(hhonest.returned (hhonest.completed hcompleted)).1] at hlater
  cases hlater

/-- Under a fair schedule the stream ends as the job does exactly when no put finds the queue full. -/
theorem streamsJob_iff (e : StreamEndpoint) (newId : ℕ → String) (job : Job π) (store : TranscriptStore)
    {sched : ℕ → Actor} (hfair : Fair (actorsOf job) sched) :
    StreamsJob e newId job store sched ↔
      ∀ n, ¬Overflows e (trace (streamStep e newId job) (startStream e job store) sched n) (sched n) := by
  constructor
  · exact fun h k hfull => not_streamsJob_of_overflows hfull h
  · intro hfits
    have hkeep : ∀ s a, Sound e newId job store s → ¬Overflows e s a →
        Sound e newId job store (streamStep e newId job s a) := fun _ _ h hfits => h.step hfits
    have hadvances : ∀ s a, Sound e newId job store s → ¬Overflows e s a → ¬s.consumer = .finished →
        Advances e newId job s a := by
      intro s a h hfits hopen
      cases htask : s.task with
      | running => exact advances_running h hfits htask
      | returned => exact advances_returned h htask hopen
      | raised => exact absurd htask h.task
    have hhelpful : ∀ s, Sound e newId job store s → ¬s.consumer = .finished → helpful s ∈ actorsOf job :=
      fun _ h _ => helpful_mem h
    have hlex : WellFounded (Prod.Lex (· < ·) (· < ·) : ℕ × ℕ → ℕ × ℕ → Prop) :=
      WellFounded.prod_lex wellFounded_lt wellFounded_lt
    obtain ⟨n, hn⟩ := exists_goal hlex hkeep hhelpful hadvances sound_start hfits hfair
    have hsound := trace_invariant hkeep sound_start hfits
    have hstay : ∀ s a, s.consumer = .finished → (streamStep e newId job s a).consumer = .finished :=
      fun _ a h => finished_step h a
    exact ⟨n, fun m hnm => (hsound m).endsAsJob (trace_stable hstay hnm hn)⟩

/-! ### Few and many payloads -/

lemma queued_step (s : StreamState π) (a : Actor) :
    (streamStep e newId job s a).queue.length + (streamStep e newId job s a).pending.flatten.length ≤
      s.queue.length + s.pending.flatten.length := by
  cases a with
  | backend i =>
    by_cases hi : ∃ p rest, s.pending[i]? = some (p :: rest)
    · obtain ⟨p, rest, hi⟩ := hi
      have hrest := length_flatten_set hi rest
      have hnone := length_flatten_set hi []
      simp only [List.length_cons, List.length_nil] at hrest hnone
      simp only [streamStep, hi, putNowait]
      split
      · simp only
        omega
      · simp only [List.length_append, List.length_singleton]
        omega
    · rw [streamStep_backend_of_none fun p rest hsome => hi ⟨p, rest, hsome⟩]
  | settle =>
    simp only [streamStep, settleTask]
    repeat' split
    all_goals exact le_rfl
  | consumer =>
    have hpending := (consume_frame e newId job s).1
    simp only [streamStep, hpending, Nat.add_le_add_iff_right]
    unfold consume answer
    split
    · exact le_rfl
    · exact le_rfl
    · rename_i hqueue
      simp [hqueue]
    · cases s.task <;> exact le_rfl
    · rename_i hqueue
      simp [hqueue]
    · exact le_rfl
  | timeout =>
    simp only [streamStep]
    split <;> exact le_rfl

/-- A job with no more payloads than the queue holds never finds it full. -/
theorem fits_of_few (h : job.workers.flatten.length ≤ e.maxsize) (sched : ℕ → Actor) (n : ℕ) :
    ¬Overflows e (trace (streamStep e newId job) (startStream e job store) sched n) (sched n) := by
  have hkeep : ∀ s a, s.queue.length + s.pending.flatten.length ≤ e.maxsize → True →
      (streamStep e newId job s a).queue.length + (streamStep e newId job s a).pending.flatten.length ≤
        e.maxsize := fun s a hs _ => (queued_step s a).trans hs
  have hstart : (startStream e job store).queue.length + (startStream e job store).pending.flatten.length ≤
      e.maxsize := by
    simpa [startStream] using h
  have hall : (trace (streamStep e newId job) (startStream e job store) sched n).queue.length +
      (trace (streamStep e newId job) (startStream e job store) sched n).pending.flatten.length ≤ e.maxsize :=
    trace_invariant hkeep hstart (fun _ => trivial) n
  generalize trace (streamStep e newId job) (startStream e job store) sched n = s at hall ⊢
  cases sched n with
  | backend i =>
    rintro ⟨⟨p, rest, hi⟩, hfull⟩
    have hnone := length_flatten_set hi []
    simp only [List.length_cons, List.length_nil] at hnone
    omega
  | settle => exact id
  | consumer => exact id
  | timeout => exact id

/-- The first worker emits its payloads before anyone else moves. -/
lemma trace_burst (e : StreamEndpoint) (newId : ℕ → String) (store : TranscriptStore) {payloads : List π}
    {workers : List (List π)} (hjob : job.workers = payloads :: workers) {sched : ℕ → Actor} {n : ℕ}
    (hsched : ∀ m, m < n → sched m = .backend 0) (hsize : n ≤ e.maxsize) (hlength : n ≤ payloads.length) :
    (trace (streamStep e newId job) (startStream e job store) sched n).pending = payloads.drop n :: workers ∧
      (trace (streamStep e newId job) (startStream e job store) sched n).queue.length = n := by
  induction n with
  | zero => exact ⟨by simp [trace, startStream, hjob], rfl⟩
  | succ n ih =>
    obtain ⟨hpending, hqueue⟩ := ih (fun m hm => hsched m (by omega)) (by omega) (by omega)
    have hdrop : payloads.drop n = payloads[n] :: payloads.drop (n + 1) := List.drop_eq_getElem_cons (by omega)
    have hfits : ¬e.maxsize ≤ n := by omega
    simp only [trace, hsched n (by omega), streamStep, hpending, hdrop, List.getElem?_cons_zero, putNowait, hqueue,
      hfits, if_false, List.set_cons_zero, List.length_append, List.length_singleton, and_self]

/-- A worker that emits more payloads than the queue holds, before the consumer polls. -/
theorem not_streamsJob_of_burst {payloads : List π} {workers : List (List π)}
    (hjob : job.workers = payloads :: workers) (hmany : e.maxsize < payloads.length) {sched : ℕ → Actor}
    (hsched : ∀ m, m ≤ e.maxsize → sched m = .backend 0) : ¬StreamsJob e newId job store sched := by
  apply not_streamsJob_of_overflows (k := e.maxsize)
  obtain ⟨hpending, hqueue⟩ := trace_burst e newId store hjob
    (fun m hm => hsched m hm.le) le_rfl hmany.le
  rw [hsched e.maxsize le_rfl]
  refine ⟨⟨payloads[e.maxsize], payloads.drop (e.maxsize + 1), ?_⟩, hqueue.ge⟩
  rw [hpending, List.getElem?_cons_zero, List.drop_eq_getElem_cons hmany]

end Stream

/-- The worker of openai moves alone for a while, and then all move in turn. -/
def burstSchedule (burst n : ℕ) : Actor :=
  if n ≤ burst then .backend 0
  else if n % 4 = 0 then .backend 0
  else if n % 4 = 1 then .settle
  else if n % 4 = 2 then .consumer
  else .timeout

lemma fair_burstSchedule {π : Type} {job : Job π} (hjob : job.workers.length = 1) (burst : ℕ) :
    Fair (actorsOf job) (burstSchedule burst) := by
  have hlate : ∀ n r, r < 4 → ¬4 * (n + burst + 1) + r ≤ burst ∧ (4 * (n + burst + 1) + r) % 4 = r := by
    intro n r hr
    omega
  intro a ha n
  cases a with
  | backend i =>
    have hi : i = 0 := by
      have hlt := ha i rfl
      omega
    refine ⟨4 * (n + burst + 1) + 0, by omega, ?_⟩
    simp only [burstSchedule, hlate n 0 (by omega), if_false, if_true, hi]
  | settle =>
    refine ⟨4 * (n + burst + 1) + 1, by omega, ?_⟩
    simp [burstSchedule, hlate n 1 (by omega)]
  | consumer =>
    refine ⟨4 * (n + burst + 1) + 2, by omega, ?_⟩
    simp [burstSchedule, hlate n 2 (by omega)]
  | timeout =>
    refine ⟨4 * (n + burst + 1) + 3, by omega, ?_⟩
    simp [burstSchedule, hlate n 3 (by omega)]

/-- A recording of a hundred and one chunks, with two payloads for each. -/
def longJob : Job ℕ := ⟨[List.range 202], "transcript"⟩

def fileId (n : ℕ) : String := String.ofList (List.replicate n 'f')

/-- The long job fails under a fair schedule in which the consumer polls late. -/
theorem long_job_fails : Fair (actorsOf longJob) (burstSchedule 200) ∧
    ¬StreamsJob (streamHf "openai/whisper-large-v3") fileId longJob [] (burstSchedule 200) := by
  refine ⟨fair_burstSchedule rfl 200, not_streamsJob_of_burst rfl ?_ ?_⟩
  · simp [streamHf, sseQueueMaxsize]
  · intro m hm
    exact if_pos hm

theorem short_job_streams :
    StreamsJob (streamOpenai "whisper-1" "en") fileId ⟨[[1, 2]], "transcript"⟩ [] (burstSchedule 0) :=
  (streamsJob_iff _ _ _ _ (fair_burstSchedule rfl 0)).mpr
    (fits_of_few (by decide) _)

end AscendAI.AudioScribe
