import AscendAI.Lib.ProcessPool
import AscendAI.Memory.PersistentChatMemory

/-!
# Calls that overlap

The calls of `get`, `add` and `maybeCompact` as processes over the two backends. A call stands
before its next command: one Redis command, one query or insert, the one transaction, or the call
of the summariser. A dispatched compaction is a process of its own.
-/

namespace AscendAI.Memory
open RedisList ProcessPool Runs

/-- A call, before its next command. -/
inductive Call where
  | getRange (conversationId : String) (lastN : ℤ)
  | getFind (conversationId : String) (lastN : ℤ)
  | getPushAll (conversationId : String) (lastN : ℤ) (hydrated : List Message)
  | getExpire (lastN : ℤ) (hydrated : List Message)
  | returned (answer : Except ServiceException (List Message))
  | addPush (call : AddCall) (message : Message) (messages : List Message)
  | addInsert (call : AddCall) (message : Message) (messages : List Message)
  | addTrim (call : AddCall)
  | addExpire (call : AddCall)
  | addDispatch (call : AddCall)
  | compactFind (call : AddCall)
  | compactSummarise (call : AddCall) (body : List ChatHistory)
  | compactTransaction (call : AddCall) (body : List ChatHistory) (summary : String)
  | compactTrim (call : AddCall) (body : List ChatHistory) (summary : String)
  | compactPush (call : AddCall) (body : List ChatHistory) (summary : String)
  | compactExpire (call : AddCall)
  | finished

def Call.isOver : Call → Bool
  | .returned _ => true
  | .finished => true
  | _ => false

abbrev System := ProcessPool World Call

section Calls

variable (d : Deployment)

def startGet (conversationId : String) (lastN : ℤ) : Call :=
  if !d.history.redisEnabled && !d.history.postgresEnabled then .returned (.ok [])
  else .getRange conversationId lastN

def addNext (call : AddCall) : List Message → Call
  | [] => .addTrim call
  | message :: messages => .addPush call message messages

def startAdd (call : AddCall) : Call :=
  if !d.history.redisEnabled && !d.history.postgresEnabled then .finished
  else addNext call call.messages

def returnTail (messages : List Message) (lastN : ℤ) : Call :=
  .returned ((sliceTail messages lastN).mapError .failedToRetrieve)

/-- The next command of a call. -/
def advance (w : World) : Call → Outcome World Call
  | .getRange conversationId lastN =>
    let cached := if d.history.redisEnabled then loadFromRedis w (chatKey conversationId) else []
    if !cached.isEmpty then ⟨w, returnTail cached lastN, []⟩
    else if !d.history.postgresEnabled then ⟨w, .returned (.ok []), []⟩
    else ⟨w, .getFind conversationId lastN, []⟩
  | .getFind conversationId lastN =>
    match loadFromPostgres d w conversationId with
    | .error cause => ⟨w, .returned (.error (.failedToRetrieve cause)), []⟩
    | .ok hydrated =>
      if d.history.redisEnabled && !hydrated.isEmpty then ⟨w, .getPushAll conversationId lastN hydrated, []⟩
      else ⟨w, returnTail hydrated lastN, []⟩
  | .getPushAll conversationId lastN hydrated =>
    ⟨populateRedisCache w (chatKey conversationId) hydrated, .getExpire lastN hydrated, []⟩
  | .getExpire lastN hydrated => ⟨w, returnTail hydrated lastN, []⟩
  | .addPush call message messages =>
    ⟨if d.history.redisEnabled then w.rightPush (chatKey call.conversationId) (toDto message) else w,
      .addInsert call message messages, []⟩
  | .addInsert call message messages =>
    ⟨if d.history.postgresEnabled then persistToDb d w call.conversationId message else w,
      addNext call messages, []⟩
  | .addTrim call =>
    ⟨if d.history.redisEnabled then w.trim (chatKey call.conversationId) 0 (effectiveCacheSize d - 1) else w,
      .addExpire call, []⟩
  | .addExpire call => ⟨w, .addDispatch call, []⟩
  | .addDispatch call => ⟨w, .finished, [.compactFind call]⟩
  | .compactFind call =>
    if !d.compaction.enabled then ⟨w, .finished, []⟩
    else if !d.history.redisEnabled && !d.history.postgresEnabled then ⟨w, .finished, []⟩
    else
      let history := if d.history.postgresEnabled
        then w.table.findAllHistoryOrdered d.tie call.conversationId else []
      if history.isEmpty then ⟨w, .finished, []⟩
      else
        let decision := decideCompaction d history call.primaryProvider
        if decision.shouldSkip then ⟨w, .finished, []⟩
        else ⟨w, .compactSummarise call (history.take decision.prefixCount.toNat), []⟩
  | .compactSummarise call body =>
    match invokeSummariser d call.llm (resolveTarget d call.primaryProvider call.override) body with
    | none => ⟨w, .finished, []⟩
    | some summary => ⟨w, .compactTransaction call body summary, []⟩
  | .compactTransaction call body summary =>
    ⟨(applyToPostgres d w call.conversationId body summary).1, .compactTrim call body summary, []⟩
  | .compactTrim call body summary =>
    if !d.history.redisEnabled then ⟨w, .finished, []⟩
    else ⟨w.trim (chatKey call.conversationId) body.length (-1), .compactPush call body summary, []⟩
  | .compactPush call _ summary =>
    ⟨w.leftPush (chatKey call.conversationId) ⟨MessageType.system.getValue, summary⟩,
      .compactExpire call, []⟩
  | .compactExpire _ => ⟨w, .finished, []⟩
  | .returned answer => ⟨w, .returned answer, []⟩
  | .finished => ⟨w, .finished, []⟩

lemma started_advance (w : World) (c : Call) :
    ∀ c' ∈ (advance d w c).started, ∃ call, c' = .compactFind call := by
  cases c with
  | addDispatch call =>
    intro c' hc'
    exact ⟨call, List.mem_singleton.mp hc'⟩
  | _ =>
    simp only [advance]
    repeat' split
    all_goals simp

end Calls

/-- What can happen next: a call arrives, a call makes a step, or the key of a conversation expires. -/
inductive Event where
  | get (conversationId : String) (lastN : ℤ)
  | add (call : AddCall)
  | step (i : ℕ)
  | expire (conversationId : String)

def System.next (d : Deployment) (s : System) : Event → System
  | .get conversationId lastN => s.start (startGet d conversationId lastN)
  | .add call => s.start (startAdd d call)
  | .step i => s.step (advance d) i
  | .expire conversationId => ⟨s.shared.setRedis (chatKey conversationId) [], s.procs⟩

def System.Quiet (s : System) : Prop := ∀ c ∈ s.procs, c.isOver = true

instance (s : System) : Decidable s.Quiet := inferInstanceAs (Decidable (∀ c ∈ _, _))

def System.empty : System := ⟨World.empty, []⟩

/-! ### A call that runs alone -/

section Alone

variable (d : Deployment) (w : World)

def stepsOf (i n : ℕ) : List Event := List.replicate n (.step i)

/-- The events of an `add` that runs alone as the process `i`, and of its compaction. -/
def addAlone (i : ℕ) (call : AddCall) : List Event :=
  .add call :: stepsOf i (2 * call.messages.length + 3) ++ stepsOf (i + 1) 6

lemma run_stepsOf_succ (s : System) (i n : ℕ) :
    run (System.next d) s (stepsOf i (n + 1)) = run (System.next d) (s.step (advance d) i) (stepsOf i n) :=
  rfl

lemma step_single (c : Call) : step (advance d) ⟨w, [c]⟩ 0 =
    ⟨(advance d w c).shared, (advance d w c).next :: (advance d w c).started⟩ := rfl

lemma run_over (c : Call) (h : c.isOver = true) (n : ℕ) :
    run (System.next d) ⟨w, [c]⟩ (stepsOf 0 n) = ⟨w, [c]⟩ := by
  have hstay : step (advance d) ⟨w, [c]⟩ 0 = ⟨w, [c]⟩ := by
    cases c <;> simp_all [Call.isOver, step_single, advance]
  induction n with
  | zero => rfl
  | succ n ih => rw [run_stepsOf_succ, hstay, ih]

lemma run_returned (answer : Except ServiceException (List Message)) (n : ℕ) :
    run (System.next d) ⟨w, [.returned answer]⟩ (stepsOf 0 n) = ⟨w, [.returned answer]⟩ :=
  run_over d w _ rfl n

lemma run_finished (n : ℕ) : run (System.next d) ⟨w, [.finished]⟩ (stepsOf 0 n) = ⟨w, [.finished]⟩ :=
  run_over d w _ rfl n

/-- Alone, a `get` does in its commands what `get` does at once. -/
theorem run_get_alone (conversationId : String) (lastN : ℤ) :
    run (System.next d) ⟨w, [startGet d conversationId lastN]⟩ (stepsOf 0 4) =
      ⟨(get d w conversationId lastN).1, [.returned (get d w conversationId lastN).2]⟩ := by
  simp only [startGet, get]
  by_cases hoff : (!d.history.redisEnabled && !d.history.postgresEnabled) = true
  · simp only [hoff, if_true, run_returned]
  simp only [hoff, if_false, run_stepsOf_succ, step_single, advance, returnTail, Bool.false_eq_true]
  generalize (if d.history.redisEnabled = true then loadFromRedis w (chatKey conversationId)
    else []) = cached
  by_cases hcached : (!cached.isEmpty) = true
  · simp only [hcached, if_true, step_single, advance, run_returned]
  by_cases hpostgres : (!d.history.postgresEnabled) = true
  · simp only [hcached, hpostgres, if_true, if_false, step_single, advance, run_returned,
      Bool.false_eq_true]
  simp only [hcached, hpostgres, if_false, step_single, advance, Bool.false_eq_true]
  cases loadFromPostgres d w conversationId with
  | error cause => simp only [step_single, advance, run_returned]
  | ok hydrated =>
    simp only
    split
    · simp only [step_single, advance, returnTail, run_returned]
    · simp only [step_single, advance, returnTail, run_returned]

lemma run_addNext (call : AddCall) (messages : List Message) :
    run (System.next d) ⟨w, [addNext call messages]⟩ (stepsOf 0 (2 * messages.length)) =
      ⟨messages.foldl (addMessage d call.conversationId) w, [.addTrim call]⟩ := by
  induction messages generalizing w with
  | nil => rfl
  | cons message messages ih =>
    rw [List.length_cons, Nat.mul_succ, run_stepsOf_succ, run_stepsOf_succ, List.foldl_cons, ← ih]
    rfl

/-- Alone, an `add` stores its messages and starts a compaction. -/
theorem run_add_alone (hon : (!d.history.redisEnabled && !d.history.postgresEnabled) = false)
    (call : AddCall) :
    run (System.next d) ⟨w, [startAdd d call]⟩ (stepsOf 0 (2 * call.messages.length + 3)) =
      ⟨addMessages d w call.conversationId call.messages, [.finished, .compactFind call]⟩ := by
  have hsplit : stepsOf 0 (2 * call.messages.length + 3) =
      stepsOf 0 (2 * call.messages.length) ++ stepsOf 0 3 := List.replicate_add ..
  rw [startAdd, hon, if_neg Bool.false_ne_true, hsplit, run_append, run_addNext]
  rfl

lemma length_take_prefixCount {d : Deployment} {history : List ChatHistory}
    {primaryProvider : Option String}
    (h : ¬(decideCompaction d history primaryProvider).shouldSkip = true) :
    ((history.take (decideCompaction d history primaryProvider).prefixCount.toNat).length : ℤ) =
      (decideCompaction d history primaryProvider).prefixCount := by
  have hpos : 1 ≤ (decideCompaction d history primaryProvider).prefixCount := by
    simpa [CompactionDecision.shouldSkip] using h
  have heq := decideCompaction_prefixCount history primaryProvider hpos
  have hbounds := computePrefixCount_bounds d history.length (heq ▸ hpos)
  rw [List.length_take]
  omega

/-- Alone, a compaction does what `maybeCompact` does at once. -/
theorem run_compact_alone (call : AddCall) :
    run (System.next d) ⟨w, [.compactFind call]⟩ (stepsOf 0 6) =
      ⟨(maybeCompact d call.llm w call.conversationId call.primaryProvider call.override).1,
        [.finished]⟩ := by
  simp only [run_stepsOf_succ, step_single, advance, maybeCompact]
  by_cases henabled : (!d.compaction.enabled) = true
  · simp only [henabled, if_true, step_single, advance, run_finished]
  by_cases hoff : (!d.history.redisEnabled && !d.history.postgresEnabled) = true
  · simp only [henabled, hoff, if_true, if_false, step_single, advance, run_finished,
      Bool.false_eq_true]
  simp only [henabled, hoff, if_false, Bool.false_eq_true]
  generalize (if d.history.postgresEnabled = true
    then ChatHistoryTable.findAllHistoryOrdered d.tie w.table call.conversationId else []) = history
  by_cases hempty : history.isEmpty = true
  · simp only [hempty, if_true, step_single, advance, run_finished]
  by_cases hskip : (decideCompaction d history call.primaryProvider).shouldSkip = true
  · simp only [hempty, hskip, if_true, if_false, step_single, advance, run_finished,
      Bool.false_eq_true]
  simp only [hempty, hskip, if_false, step_single, advance, Bool.false_eq_true]
  cases invokeSummariser d call.llm (resolveTarget d call.primaryProvider call.override)
      (history.take (decideCompaction d history call.primaryProvider).prefixCount.toNat) with
  | none => simp only [step_single, advance, run_finished]
  | some summary =>
    have hlength := length_take_prefixCount hskip
    simp only [step_single, advance, applyToRedis, hlength]
    by_cases hredis : (!d.history.redisEnabled) = true
    · simp only [hredis, if_true, step_single, advance, run_finished]
    · simp only [hredis, if_false, step_single, advance, run_finished, Bool.false_eq_true]

end Alone

end AscendAI.Memory
