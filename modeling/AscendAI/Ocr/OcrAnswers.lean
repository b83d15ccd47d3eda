import AscendAI.Ocr.OcrRequests

/-!
# What the OCR service answers and leaves behind

A request gets the answer to its own file, whatever the other threads do, unless it is given up or its thread is broken
off; and a thread removes its file, also when nobody waits for it any more.
-/

namespace AscendAI.Ocr
open ProcessPool Runs PrivateFiles

section Threads

variable {svr : OcrServer} {job : OcrJob} {s : OcrState} {worker : Worker} {base : String → Option (List UInt8)}
  {rest : List (String × List UInt8)}

/-! ### One thread alone -/

def OcrJob.expected (svr : OcrServer) (job : OcrJob) : ThreadResult :=
  (processFile svr.service job.content job.filename job.language).2.mapError .service

def OcrJob.Supported (svr : OcrServer) (job : OcrJob) : Prop :=
  svr.service.settings.supportedLanguages.contains job.language = true

lemma expected_of_unsupported (h : ¬job.Supported svr) : job.expected svr =
    .error (.service (.valueError ("Unsupported language: '" ++ job.language ++ "'"))) := by
  unfold OcrJob.expected processFile
  rw [if_pos (by rw [Bool.not_eq_true', Bool.eq_false_iff]; exact h)]
  rfl

lemma expected_of_supported (h : job.Supported svr) : job.expected svr =
    match svr.service.engine.predict job.language (safeSuffix job.filename) job.content with
    | .error .raised => .error (.service .engineError)
    | .error .timedOut => .error (.service .timedOut)
    | .ok ocrResult => finishFile svr job ocrResult := by
  unfold OcrJob.expected processFile
  rw [if_neg (by rw [Bool.not_eq_true', Bool.eq_false_iff, not_not]; exact h)]
  cases svr.service.engine.predict job.language (safeSuffix job.filename) job.content with
  | error failure =>
    cases failure with
    | raised => rfl
    | timedOut => rfl
  | ok ocrResult =>
    simp only [finishFile]
    cases buildPages ocrResult with
    | none => rfl
    | some pages =>
      by_cases hfields : job.filename.length ≤ 512 ∧ matchesLanguagePattern job.language = true ∧
          0 ≤ svr.service.engine.elapsed
      · simp only [dif_pos hfields]
        rfl
      · simp only [dif_neg hfields]
        rfl

/-! ### Every thread -/

/-- The language that a call of `_get_engine` works for, and that of the engine that it holds. -/
def EngineCall.For (language : String) : EngineCall → Prop
  | .lookup l | .construct l => l = language
  | .moveToEnd l engine | .insert l engine | .testLength l engine | .popitem l engine | .returned l engine =>
    l = language ∧ engine.lang = language
  | .keyError | .raised => True

lemma EngineCall.For.holdsOwn {language : String} {call : EngineCall} (h : call.For language) : call.HoldsOwn := by
  cases call with
  | lookup l => trivial
  | construct l => trivial
  | keyError => trivial
  | raised => trivial
  | _ => exact h.2.trans h.1.symm

lemma EngineCall.For.advance {language : String} {call : EngineCall} (h : call.For language)
    (settings : CacheSettings) (fails : Bool) {store : EngineStore}
    (hcached : ∀ item ∈ store.engines.items, item.2.lang = item.1) :
    (advanceEngine settings fails store call).next.For language := by
  cases call with
  | lookup l =>
    cases hget : store.engines.get? l with
    | none =>
      simp only [advanceEngine, hget]
      exact h
    | some cached =>
      simp only [advanceEngine, hget]
      have hlang : cached.lang = l := hcached _ (OrderedDict.get?_eq_some_iff.mp hget)
      exact ⟨h, hlang.trans h⟩
  | construct l =>
    simp only [advanceEngine]
    split
    · trivial
    · exact ⟨h, h⟩
  | insert l engine => exact h
  | returned l engine => exact h
  | keyError => trivial
  | raised => trivial
  | moveToEnd l engine =>
    simp only [advanceEngine]
    split
    · exact h
    · trivial
  | testLength l engine =>
    simp only [advanceEngine]
    split
    · exact h
    · exact h
  | popitem l engine =>
    simp only [advanceEngine]
    split
    · exact h
    · trivial

/-- What breaks a thread off that the file itself does not. -/
def WorkerFault.Local : WorkerFault → Prop
  | .service _ => False
  | _ => True

/-- A thread is on its way to the result for its own file, or was broken off. -/
def Worker.Right (svr : OcrServer) (job : OcrJob) : Worker → Prop
  | .queued | .dropped => True
  | .fetchingEngine call => job.Supported svr ∧ call.For job.language
  | .creating engine | .writing engine _ | .predicting engine _ => job.Supported svr ∧ engine.lang = job.language
  | .cleaning _ result | .removing _ result => result = job.expected svr
  | .ended result left => (result = job.expected svr ∧ left = []) ∨
      (∃ fault, fault.Local ∧ result = .error fault ∧ (left = [] ∨ fault = .disk))

/-- The files of a thread. -/
def Worker.holds (job : OcrJob) : Worker → List (String × List UInt8)
  | .writing _ path => [(path, [])]
  | .predicting _ path | .cleaning path _ | .removing path _ => [(path, job.content)]
  | .ended _ left => left
  | _ => []

/-- What the threads rely on: every engine of the cache has its language, and the directory is the base with the files
that are held. -/
structure OcrState.Kept (base : String → Option (List UInt8)) (held : List (String × List UInt8)) (s : OcrState) :
    Prop where
  cached : ∀ item ∈ s.engines.engines.items, item.2.lang = item.1
  disk : Accounts base s.disk held

lemma right_beginWork : (beginWork svr job).Right svr job := by
  unfold beginWork
  split
  · rename_i h
    exact ⟨h, rfl⟩
  · rename_i h
    exact .inl ⟨(expected_of_unsupported h).symm, rfl⟩

lemma right_afterEngine {call : EngineCall} (hsupported : job.Supported svr) (h : call.For job.language) :
    (afterEngine call).Right svr job := by
  cases call with
  | returned l engine => exact ⟨hsupported, h.2⟩
  | keyError => exact .inr ⟨.cache, trivial, rfl, .inl rfl⟩
  | raised => exact .inr ⟨.constructor, trivial, rfl, .inl rfl⟩
  | _ => exact ⟨hsupported, h⟩

lemma holds_afterEngine (call : EngineCall) : (afterEngine call).holds job = [] := by
  cases call <;> rfl

lemma holds_beginWork : (beginWork svr job).holds job = [] := by
  unfold beginWork
  split
  · rfl
  · rfl

/-- The run of the engine on the file that the thread has written. -/
lemma right_predicted {engine : PaddleOcr} (hsupported : job.Supported svr) (hlang : engine.lang = job.language)
    (path : String) :
    (predicted svr job engine path (some job.content)).Right svr job ∧
      (predicted svr job engine path (some job.content)).holds job = [(path, job.content)] := by
  have hexpected := expected_of_supported hsupported
  simp only [predicted, hlang]
  cases hpredict : svr.service.engine.predict job.language (safeSuffix job.filename) job.content with
  | error failure =>
    rw [hpredict] at hexpected
    cases failure with
    | raised => exact ⟨hexpected.symm, rfl⟩
    | timedOut => exact ⟨⟨hsupported, hlang⟩, rfl⟩
  | ok ocrResult =>
    rw [hpredict] at hexpected
    exact ⟨hexpected.symm, rfl⟩

/-- One operation of a thread keeps what the others hold, and leaves the thread on its way. -/
lemma kept_advanceWorker (move : WorkerMove) (hkept : s.Kept base (worker.holds job ++ rest))
    (hright : worker.Right svr job) :
    (advanceWorker svr move s job worker).1.Kept base ((advanceWorker svr move s job worker).2.holds job ++ rest) ∧
      (advanceWorker svr move s job worker).2.Right svr job := by
  cases worker with
  | queued =>
    simp only [advanceWorker, holds_beginWork]
    exact ⟨hkept, right_beginWork⟩
  | fetchingEngine call =>
    obtain ⟨hsupported, hfor⟩ := hright
    simp only [advanceWorker, holds_afterEngine]
    refine ⟨⟨?_, hkept.disk⟩, right_afterEngine hsupported (hfor.advance svr.cache move.raised hkept.cached)⟩
    exact cached_advance svr.cache move.raised hkept.cached hfor.holdsOwn
  | creating engine =>
    cases move with
    | returns => exact ⟨hkept, hright⟩
    | raises written => exact ⟨hkept, .inr ⟨.disk, trivial, rfl, .inl rfl⟩⟩
    | makes path =>
      simp only [advanceWorker]
      cases hpath : s.disk path with
      | none => exact ⟨⟨hkept.cached, hkept.disk.create hpath []⟩, hright⟩
      | some content => exact ⟨hkept, hright⟩
  | writing engine path =>
    have hwrite := fun content => Accounts.write hkept.disk content
    cases move with
    | raises written => exact ⟨⟨hkept.cached, hwrite written⟩, .inr ⟨.disk, trivial, rfl, .inr rfl⟩⟩
    | returns => exact ⟨⟨hkept.cached, hwrite job.content⟩, hright⟩
    | makes path' => exact ⟨⟨hkept.cached, hwrite job.content⟩, hright⟩
  | predicting engine path =>
    obtain ⟨hsupported, hlang⟩ := hright
    have hread : s.disk path = some job.content := Accounts.read hkept.disk
    obtain ⟨hnext, hholds⟩ := right_predicted hsupported hlang path
    simp only [advanceWorker, hread, hholds]
    exact ⟨hkept, hnext⟩
  | cleaning path result =>
    have hread : s.disk path = some job.content := Accounts.read hkept.disk
    simp only [advanceWorker, hread]
    exact ⟨hkept, hright⟩
  | removing path result =>
    have hremove := Accounts.remove hkept.disk
    cases move with
    | raises written => exact ⟨hkept, .inr ⟨.disk, trivial, rfl, .inr rfl⟩⟩
    | returns => exact ⟨⟨hkept.cached, hremove⟩, .inl ⟨hright, rfl⟩⟩
    | makes path' => exact ⟨⟨hkept.cached, hremove⟩, .inl ⟨hright, rfl⟩⟩
  | ended result left => exact ⟨hkept, hright⟩
  | dropped => exact ⟨hkept, hright⟩

end Threads

/-! ### Every run -/

section Pool

variable {svr : OcrServer} {pool : OcrPool} {base : String → Option (List UInt8)} {task : OcrTask}

def OcrTask.holds (task : OcrTask) : List (String × List UInt8) := task.worker.holds task.job

/-- The answer of a task is that its caller was given up, or what its thread has ended with. -/
def OcrTask.Answered (task : OcrTask) : Prop :=
  ∀ answer, task.answer = some answer →
    answer = .error (task.request.failure (.service .timedOut)) ∨
      ∃ result left, task.worker = .ended result left ∧ answer = task.request.answerOf result

/-- A task that was refused, or one whose thread works on its file. -/
def OcrTask.Sound (svr : OcrServer) (task : OcrTask) : Prop :=
  match accept svr task.request with
  | .error e => task.worker = .dropped ∧ task.answer = some (.error e)
  | .ok job => task.job = job ∧ task.worker.Right svr job ∧ task.Answered

structure OcrPool.Inv (svr : OcrServer) (base : String → Option (List UInt8)) (pool : OcrPool) : Prop where
  state : pool.shared.Kept base (pool.procs.flatMap OcrTask.holds)
  tasks : ∀ task ∈ pool.procs, task.Sound svr

/-- A step of a task that the others do not notice. -/
lemma OcrPool.Inv.step (h : pool.Inv svr base) {advance : OcrState → OcrTask → ProcessPool.Outcome OcrState OcrTask}
    {i : ℕ} (hget : pool.procs[i]? = some task) (hstarted : (advance pool.shared task).started = [])
    (hkept : ∀ rest, pool.shared.Kept base (task.holds ++ rest) →
      (advance pool.shared task).shared.Kept base ((advance pool.shared task).next.holds ++ rest))
    (hsound : pool.shared.Kept base (pool.procs.flatMap OcrTask.holds) → task.Sound svr →
      (advance pool.shared task).next.Sound svr) :
    OcrPool.Inv svr base (pool.step advance i) := by
  obtain ⟨rest, hbefore, hafter⟩ := flatMap_step advance OcrTask.holds hget
  rw [hstarted, List.flatMap_nil, List.nil_append] at hafter
  have hstate := hkept rest ⟨h.state.cached, h.state.disk.perm hbefore⟩
  constructor
  · rw [shared_step advance hget]
    exact ⟨hstate.cached, hstate.disk.perm hafter.symm⟩
  · apply forall_step hget h.tasks
    · exact hsound h.state (h.tasks task (List.mem_of_getElem? hget))
    · rw [hstarted]
      exact fun task htask => absurd htask List.not_mem_nil

/-- A step that changes only the answer of a task, or drops a thread that has not begun. -/
lemma OcrPool.Inv.answer (h : pool.Inv svr base) {f : OcrTask → OcrTask} {i : ℕ}
    (hholds : ∀ task, (f task).holds = task.holds) (hsound : ∀ task, task.Sound svr → (f task).Sound svr) :
    OcrPool.Inv svr base (pool.step (fun s task => ⟨s, f task, []⟩) i) := by
  cases hget : pool.procs[i]? with
  | none =>
    rw [step_of_none hget]
    exact h
  | some task =>
    apply h.step hget rfl
    · intro rest hkept
      rw [hholds]
      exact hkept
    · exact fun _ htask => hsound task htask

lemma sound_deliver (h : task.Sound svr) : (deliver task).Sound svr := by
  unfold deliver
  split
  · rename_i result left hnone hended
    unfold OcrTask.Sound at h ⊢
    dsimp only
    split at h
    · rw [hnone] at h
      exact absurd h.2 nofun
    · refine ⟨h.1, h.2.1, ?_⟩
      intro answer hanswer
      exact .inr ⟨result, left, hended, (Option.some.inj hanswer).symm⟩
  · exact h

lemma sound_timeOut (h : task.Sound svr) : (timeOut task).Sound svr := by
  unfold timeOut
  split
  · exact h
  · rename_i hnone
    unfold OcrTask.Sound at h ⊢
    dsimp only
    split at h
    · rw [hnone] at h
      exact absurd h.2 nofun
    · refine ⟨h.1, ?_, fun answer hanswer => .inl (Option.some.inj hanswer).symm⟩
      split
      · trivial
      · exact h.2.1

lemma holds_timeOut (task : OcrTask) : (timeOut task).holds = task.holds := by
  unfold timeOut
  split
  · rfl
  · unfold OcrTask.holds
    dsimp only
    split
    · rename_i hqueued
      rw [hqueued]
      rfl
    · rfl

lemma holds_deliver (task : OcrTask) : (deliver task).holds = task.holds := by
  unfold deliver
  split
  · rfl
  · rfl

lemma sound_startTask (request : OcrRequest) : (startTask svr request).Sound svr := by
  cases haccept : accept svr request with
  | error e =>
    simp only [startTask, OcrTask.Sound, haccept]
    exact ⟨trivial, trivial⟩
  | ok job =>
    simp only [startTask, OcrTask.Sound, haccept]
    exact ⟨trivial, trivial, nofun⟩

lemma holds_startTask (request : OcrRequest) : (startTask svr request).holds = [] := by
  unfold startTask
  split
  · rfl
  · rfl

lemma ended_advanceWorker (move : WorkerMove) (s : OcrState) (job : OcrJob) (result : ThreadResult)
    (left : List (String × List UInt8)) : advanceWorker svr move s job (.ended result left) = (s, .ended result left) :=
  rfl

lemma OcrPool.Inv.work (h : pool.Inv svr base) (i : ℕ) (move : WorkerMove) :
    OcrPool.Inv svr base (pool.step (advanceTask svr move) i) := by
  cases hget : pool.procs[i]? with
  | none =>
    rw [step_of_none hget]
    exact h
  | some task =>
    have hsound := h.tasks task (List.mem_of_getElem? hget)
    have hright : task.worker.Right svr task.job := by
      unfold OcrTask.Sound at hsound
      split at hsound
      · rw [hsound.1]
        trivial
      · rw [hsound.1]
        exact hsound.2.1
    apply h.step hget rfl
    · intro rest hkept
      exact (kept_advanceWorker move hkept hright).1
    · intro hkept _
      unfold OcrTask.Sound at hsound ⊢
      dsimp only [advanceTask]
      split at hsound
      · rw [hsound.1]
        exact ⟨rfl, hsound.2⟩
      · obtain ⟨hjob, -, hanswered⟩ := hsound
        obtain ⟨rest, hbefore, -⟩ := flatMap_step (advanceTask svr move) OcrTask.holds hget
        have hnext := (kept_advanceWorker move ⟨hkept.cached, hkept.disk.perm hbefore⟩ hright).2
        refine ⟨hjob, hjob ▸ hnext, ?_⟩
        intro answer hanswer
        apply (hanswered answer hanswer).imp_right
        intro hended
        obtain ⟨result, left, hworker, heq⟩ := hended
        refine ⟨result, left, ?_, heq⟩
        dsimp only
        rw [hworker, ended_advanceWorker]

lemma OcrPool.Inv.next (h : pool.Inv svr base) (event : OcrEvent) : (pool.next svr event).Inv svr base := by
  cases event with
  | arrive request =>
    constructor
    · have hprocs : (pool.next svr (.arrive request)).procs.flatMap OcrTask.holds =
          pool.procs.flatMap OcrTask.holds := by
        simp only [OcrPool.next, start, List.flatMap_append, List.flatMap_cons, List.flatMap_nil, holds_startTask,
          List.append_nil]
      rw [hprocs]
      exact h.state
    · intro task htask
      change task ∈ pool.procs ++ [startTask svr request] at htask
      rw [List.mem_append, List.mem_singleton] at htask
      exact htask.elim (h.tasks task) fun heq => heq ▸ sound_startTask request
  | work i move => exact h.work i move
  | deliver i => exact h.answer holds_deliver fun _ => sound_deliver
  | timeout i => exact h.answer holds_timeOut fun _ => sound_timeOut

lemma inv_run (svr : OcrServer) (base : String → Option (List UInt8)) (events : List OcrEvent) :
    OcrPool.Inv svr base (run (OcrPool.next svr) ⟨⟨{}, base⟩, []⟩ events) := by
  have hstart : OcrPool.Inv svr base ⟨⟨{}, base⟩, []⟩ := by
    constructor
    · exact ⟨fun item hitem => absurd hitem List.not_mem_nil, .start base⟩
    · exact fun task htask => absurd htask List.not_mem_nil
  have hnext : ∀ pool, ∀ event ∈ events, OcrPool.Inv svr base pool → OcrPool.Inv svr base (pool.next svr event) :=
    fun pool event _ h => h.next event
  exact run_keeps hnext hstart

/-- A server whose engine reads the length of a file in it, and which has no files of its own. -/
def lengthServer : OcrServer where
  cache := {}
  engine := ⟨fun _ _ content => .ok (some [.dict [toString content.length] [1] [none]]), 1 / 2⟩
  mcp :=
    { unicode := asciiData
      unquote := id
      parseInt := String.toInt?
      tree := ⟨fun _ => none, [], 40⟩
      realpath := fun _ => .error (.other "OSError")
      getaddrinfo := fun _ => .error .gaierror
      session := none }

/-- Two bitmaps at the same time: the directory refuses the second thread the path of the first one, and nobody waits
for the answer to the second one. -/
def twoBitmaps : List OcrEvent :=
  let bothWork := [OcrEvent.work 0 .returns, .work 1 .returns]
  [.arrive (.rest "a.bmp" [0x42, 0x4D] none), .arrive (.rest "b.bmp" [0x42, 0x4D, 0x00] none)] ++
    bothWork ++ bothWork ++ bothWork ++ bothWork ++ bothWork ++
    [.work 0 (.makes "/tmp/a.bmp"), .work 1 (.makes "/tmp/a.bmp"), .work 1 (.makes "/tmp/b.bmp"), .timeout 1] ++
    bothWork ++ bothWork ++ bothWork ++ bothWork ++ [.deliver 0]

/-- A thread that has its temporary file. -/
def Worker.inFlight : Worker → Bool
  | .writing .. | .predicting .. | .cleaning .. | .removing .. => true
  | _ => false

/-- However the requests overlap, whichever are given up and whichever operations raise: a file of the directory that
was not there before belongs to a thread that is still at work, or was left by one that an operation on it has broken
off; no other file has changed, and no two threads have the same file. -/
theorem threads_remove_their_files (svr : OcrServer) (base : String → Option (List UInt8)) (events : List OcrEvent) :
    let pool := run (OcrPool.next svr) ⟨⟨{}, base⟩, []⟩ events
    ((pool.procs.flatMap OcrTask.holds).map Prod.fst).Nodup ∧
      ∀ path, pool.shared.disk path = base path ∨
        (base path = none ∧ ∃ task ∈ pool.procs, path ∈ task.holds.map Prod.fst ∧
          (task.worker.inFlight = true ∨ ∃ left, task.worker = .ended (.error .disk) left)) := by
  intro pool
  have hinv : pool.Inv svr base := inv_run svr base events
  have hdisk := hinv.state.disk
  refine ⟨hdisk.nodup, fun path => ?_⟩
  apply (hdisk.held_or_base path).symm.imp_right
  intro hheld
  obtain ⟨file, hfile, hfst⟩ := List.mem_map.mp hheld
  obtain ⟨task, htask, hmem⟩ := List.mem_flatMap.mp hfile
  refine ⟨hfst ▸ hdisk.free file hfile, task, htask, hfst ▸ List.mem_map_of_mem hmem, ?_⟩
  have hsound := hinv.tasks task htask
  have hholds : file ∈ task.worker.holds task.job := hmem
  cases hworker : task.worker with
  | writing engine path => exact .inl rfl
  | predicting engine path => exact .inl rfl
  | cleaning path result => exact .inl rfl
  | removing path result => exact .inl rfl
  | ended result left =>
    right
    rw [hworker] at hholds
    unfold OcrTask.Sound at hsound
    split at hsound
    · rw [hworker] at hsound
      cases hsound.1
    · rw [hworker] at hsound
      obtain ⟨-, hright, -⟩ := hsound
      obtain ⟨-, hleft⟩ | ⟨fault, -, hresult, hleft | hfault⟩ := hright
      · rw [hleft] at hholds
        cases hholds
      · rw [hleft] at hholds
        cases hholds
      · exact ⟨left, by rw [hresult, hfault]⟩
  | _ =>
    rw [hworker] at hholds
    cases hholds

end Pool

end AscendAI.Ocr
