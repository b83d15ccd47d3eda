import AscendAI.Ingestion.ConcurrentIngestion

/-!
# The log of the ingestion runs

The log of a pool says everything that its runs have done to the metadata store and to the collections:
whoever replays it on the stores of the start gets the stores of the end. A read in the log is one of
what the bucket held, and a claim whose answer got lost shows in the log as one.
-/

namespace AscendAI.Ingestion

open Runs JavaString

/-- What an action does to the metadata store and the collections. -/
def IngestionAction.replay (s : IngestionState) : IngestionAction → IngestionState
  | .claimed key version => { s with markers := buildMetadataKey key version :: s.markers }
  | .unanswered key version => { s with markers := buildMetadataKey key version :: s.markers }
  | .read _ _ => s
  | .deleted collection chunks => s.withStore collection (removeOldDocuments chunks (s.stores collection))
  | .inserted collection chunk => s.withStore collection (s.stores collection ++ [chunk])
  | .removed key version => { s with markers := s.markers.filter (· ≠ buildMetadataKey key version) }

def replayLog (s : IngestionState) (log : List (ℕ × IngestionAction)) : IngestionState :=
  log.foldl (fun s entry => entry.2.replay s) s

/-- The metadata store and the collections are what the log makes of those of the start. -/
def Recorded (stores : String → List Document) (pool : IngestionPool) : Prop :=
  pool.shared.state = replayLog ⟨pool.shared.state.bucket, [], stores⟩ pool.shared.log

/-- A content that the event logs as read is the one that the bucket has under the key. -/
def ReadsBucket (svc : ManualIngestionService) (pool : IngestionPool) (event : PoolEvent) : Prop :=
  ∀ i key content, (i, .read key content) ∈ (pool.next svc event).shared.log →
    (i, .read key content) ∈ pool.shared.log ∨
      ∃ object, pool.shared.state.bucket.objects.lookup key = some object ∧ object.content = content

/-- What `processObject` tries to claim for the next object of the run. -/
def RunningIngestion.nextClaim? (svc : ManualIngestionService) (run : RunningIngestion) : Option Claim :=
  match run.objects with
  | [] => none
  | object :: _ =>
    match object.key with
    | none => none
    | some key =>
      if isBlank key then none
      else if !shouldIngestKey svc.settings key then none
      else some ⟨key, object.buildVersion, run.result.failed⟩

/-- The event is no `putIfAbsent` that puts a marker and then throws. -/
def Answered (svc : ManualIngestionService) (pool : IngestionPool) : PoolEvent → Prop
  | .step i failure => ∀ run ∈ pool.procs[i]?, ∀ e ∈ failure, e.carriedOut = true → run.phase = .listing →
    ∀ claim ∈ run.nextClaim? svc, claim.marker ∈ pool.shared.state.markers
  | _ => True

def IngestionAction.isUnanswered : IngestionAction → Bool
  | .unanswered _ _ => true
  | _ => false

/-- No claim of the log is one whose answer got lost. -/
def AllAnswered (pool : IngestionPool) : Prop :=
  ∀ entry ∈ pool.shared.log, entry.2.isUnanswered = false

variable {svc : ManualIngestionService} {failure : Option StepFailure} {s : IngestionState}
  {run : RunningIngestion} {claim : Claim}

/-! ### One step -/

/-- The move changes the state as its action says, and it reads what the bucket has. -/
structure Move.Told (s : IngestionState) (move : Move) : Prop where
  state : move.state = move.action.toList.foldl IngestionAction.replay s
  read : ∀ key content, move.action = some (.read key content) →
    ∃ object, s.bucket.objects.lookup key = some object ∧ object.content = content

lemma told_none (s : IngestionState) (next : RunningIngestion) : Move.Told s ⟨s, next, none⟩ :=
  ⟨rfl, fun _ _ h => by cases h⟩

lemma told_callStore {s' : IngestionState} {action : IngestionAction} {next : RunningIngestion}
    (hstate : s' = action.replay s) (hread : ∀ key content, action ≠ .read key content) :
    Move.Told s (callStore failure s run claim s' action next) := by
  have htold : ∀ next, Move.Told s ⟨s', next, some action⟩ := fun next =>
    ⟨hstate, fun key content h => absurd (Option.some.inj h) (hread key content)⟩
  unfold callStore
  split
  · exact htold next
  · split
    · exact htold _
    · exact told_none s _

/-- A step at the next object leaves everything as it is, and then no claim of it got lost, or it claims the
object, or it puts the marker and throws. -/
lemma nextObject_cases (svc : ManualIngestionService) (failure : Option StepFailure) (s : IngestionState)
    (run : RunningIngestion) :
    (∃ next, nextObject svc failure s run = ⟨s, next, none⟩ ∧ (next.phase = run.phase ∨ next.phase = .finished) ∧
        ∀ e ∈ failure, e.carriedOut = true → ∀ claim ∈ run.nextClaim? svc, claim.marker ∈ s.markers) ∨
      (∃ (claim : Claim) (next : RunningIngestion),
        nextObject svc failure s run = ⟨{ s with markers := claim.marker :: s.markers }, next,
          some (.claimed claim.key claim.version)⟩ ∧ failure = none ∧ claim.marker ∉ s.markers ∧
        next.phase = .ingesting claim .reading ∧ next.result.failed = claim.failedBefore) ∨
      ∃ (e : StepFailure) (claim : Claim) (next : RunningIngestion),
        nextObject svc failure s run = ⟨{ s with markers := claim.marker :: s.markers }, next,
          some (.unanswered claim.key claim.version)⟩ ∧ failure = some e ∧ e.carriedOut = true ∧
        claim ∈ run.nextClaim? svc ∧ claim.marker ∉ s.markers ∧ next.phase = .finished := by
  have hnothing : ∀ e ∈ failure, e.carriedOut = true → ∀ claim ∈ (none : Option Claim), claim.marker ∈ s.markers :=
    fun _ _ _ _ h => (Option.not_mem_none _ h).elim
  unfold nextObject RunningIngestion.nextClaim?
  cases run.objects with
  | nil =>
    dsimp only
    split
    · exact .inl ⟨_, rfl, .inl rfl, hnothing⟩
    · exact .inl ⟨_, rfl, .inr rfl, hnothing⟩
  | cons object objects =>
    cases hkey : object.key with
    | none =>
      simp only [hkey]
      exact .inl ⟨_, rfl, .inl rfl, hnothing⟩
    | some key =>
      simp only [hkey]
      by_cases hblank : isBlank key = true
      · rw [if_pos hblank, if_pos hblank]
        exact .inl ⟨_, rfl, .inl rfl, hnothing⟩
      · rw [if_neg hblank, if_neg hblank]
        by_cases hother : (!shouldIngestKey svc.settings key) = true
        · rw [if_pos hother, if_pos hother]
          exact .inl ⟨_, rfl, .inl rfl, hnothing⟩
        · rw [if_neg hother, if_neg hother]
          cases failure with
          | some e =>
            dsimp only
            split
            · rename_i hlost
              rw [Bool.and_eq_true, decide_eq_true_eq] at hlost
              exact .inr (.inr ⟨e, _, _, rfl, rfl, hlost.1, rfl, hlost.2, rfl⟩)
            · rename_i hkept
              rw [Bool.and_eq_true, decide_eq_true_eq, not_and, not_not] at hkept
              refine .inl ⟨_, rfl, .inr rfl, ?_⟩
              rintro _ ⟨⟩ hcarried _ ⟨⟩
              exact hkept hcarried
          | none =>
            dsimp only
            split
            · exact .inl ⟨_, rfl, .inl rfl, fun _ h => (Option.not_mem_none _ h).elim⟩
            · rename_i hmarker
              exact .inr (.inl ⟨⟨key, object.buildVersion, run.result.failed⟩, _, rfl, rfl, hmarker, rfl, rfl⟩)

lemma told_nextObject : Move.Told s (nextObject svc failure s run) := by
  obtain ⟨next, hnext, -⟩ | ⟨claim, next, hnext, -⟩ | ⟨e, claim, next, hnext, -⟩ :=
    nextObject_cases svc failure s run
  · rw [hnext]
    exact told_none s next
  · rw [hnext]
    exact ⟨rfl, fun _ _ h => by cases h⟩
  · rw [hnext]
    exact ⟨rfl, fun _ _ h => by cases h⟩

lemma isUnanswered_callStore {s' : IngestionState} {action : IngestionAction} {next : RunningIngestion}
    (haction : action.isUnanswered = false) :
    ∀ a ∈ (callStore failure s run claim s' action next).action, a.isUnanswered = false := by
  unfold callStore
  split
  · rintro _ ⟨⟩
    exact haction
  · split
    · rintro _ ⟨⟩
      exact haction
    · rintro _ ⟨⟩

lemma told_ingestStep (progress : Progress) : Move.Told s (ingestStep svc failure s run claim progress) ∧
    ∀ action ∈ (ingestStep svc failure s run claim progress).action, action.isUnanswered = false := by
  have hnone : ∀ next : RunningIngestion, Move.Told s ⟨s, next, none⟩ ∧
      ∀ action ∈ (none : Option IngestionAction), action.isUnanswered = false :=
    fun next => ⟨told_none s next, fun _ h => (Option.not_mem_none _ h).elim⟩
  unfold ingestStep
  cases progress with
  | reading =>
    dsimp only
    split
    · exact hnone _
    · exact hnone _
    · rename_i object hlookup
      refine ⟨⟨rfl, fun key content h => ?_⟩, ?_⟩
      · cases h
        exact ⟨object, hlookup, rfl⟩
      · rintro _ ⟨⟩
        rfl
  | extracting content =>
    dsimp only
    split
    · exact hnone _
    · split
      · exact hnone _
      · exact hnone _
  | deleting chunks =>
    dsimp only
    split
    · exact hnone _
    · exact ⟨told_callStore rfl fun _ _ h => (by cases h), isUnanswered_callStore rfl⟩
  | inserting collection chunks next =>
    dsimp only
    split
    · exact hnone _
    · exact ⟨told_callStore rfl fun _ _ h => (by cases h), isUnanswered_callStore rfl⟩
  | closing =>
    dsimp only
    split
    · exact hnone _
    · exact hnone _
  | ended threw =>
    dsimp only
    split
    · refine ⟨⟨rfl, fun _ _ h => by cases h⟩, ?_⟩
      rintro _ ⟨⟩
      rfl
    · exact hnone _

lemma told_nextMove : Move.Told s (nextMove svc failure s run) := by
  unfold nextMove
  split
  · exact told_nextObject
  · exact (told_ingestStep _).1
  · exact told_none s run

lemma isUnanswered_nextObject : (∀ action ∈ (nextObject svc failure s run).action, action.isUnanswered = false) ↔
    ∀ e ∈ failure, e.carriedOut = true → ∀ claim ∈ run.nextClaim? svc, claim.marker ∈ s.markers := by
  obtain ⟨next, hnext, -, hkept⟩ | ⟨claim, next, hnext, rfl, -⟩ |
    ⟨e, claim, next, hnext, rfl, hcarried, hclaim, hmarker, -⟩ := nextObject_cases svc failure s run
  · rw [hnext]
    exact iff_of_true (fun _ h => (Option.not_mem_none _ h).elim) hkept
  · rw [hnext]
    refine iff_of_true ?_ fun _ h => (Option.not_mem_none _ h).elim
    rintro _ ⟨⟩
    rfl
  · rw [hnext]
    refine iff_of_false (fun h => ?_) fun h => hmarker (h e rfl hcarried claim hclaim)
    exact Bool.noConfusion (h _ rfl)

/-- A step logs an unanswered claim just when it has been carried out, and throws, at an object whose marker
was free. -/
lemma isUnanswered_nextMove : (∀ action ∈ (nextMove svc failure s run).action, action.isUnanswered = false) ↔
    ∀ e ∈ failure, e.carriedOut = true → run.phase = .listing →
      ∀ claim ∈ run.nextClaim? svc, claim.marker ∈ s.markers := by
  unfold nextMove
  split
  · rename_i hphase
    rw [isUnanswered_nextObject]
    exact forall₃_congr fun _ _ _ => (imp_iff_right hphase).symm
  · rename_i hphase
    refine iff_of_true (told_ingestStep _).2 fun _ _ _ hlisting => ?_
    rw [hphase] at hlisting
    cases hlisting
  · rename_i hphase
    refine iff_of_true (fun _ h => (Option.not_mem_none _ h).elim) fun _ _ _ hlisting => ?_
    rw [hphase] at hlisting
    cases hlisting

/-! ### All runs -/

/-- An event changes nothing but the bucket, or it is the step of a run. -/
lemma next_cases (svc : ManualIngestionService) (pool : IngestionPool) (event : PoolEvent) :
    ((∃ bucket, (pool.next svc event).shared.state = { pool.shared.state with bucket := bucket }) ∧
        (pool.next svc event).shared.log = pool.shared.log ∧ Answered svc pool event) ∨
      ∃ i failure run, event = .step i failure ∧ pool.procs[i]? = some run ∧
        (pool.next svc event).shared.state = (nextMove svc failure pool.shared.state run).state ∧
        (pool.next svc event).shared.log = pool.shared.log ++
          (nextMove svc failure pool.shared.state run).action.toList.map fun action => (i, action) := by
  cases event with
  | put key object => exact .inl ⟨⟨_, rfl⟩, rfl, trivial⟩
  | delete key => exact .inl ⟨⟨_, rfl⟩, rfl, trivial⟩
  | start embeddingProvider pages => exact .inl ⟨⟨pool.shared.state.bucket, rfl⟩, rfl, trivial⟩
  | step i failure =>
    cases hi : pool.procs[i]? with
    | none =>
      have hnext : pool.next svc (.step i failure) = pool := by rw [IngestionPool.next, ProcessPool.step_of_none hi]
      rw [hnext]
      refine .inl ⟨⟨pool.shared.state.bucket, rfl⟩, rfl, fun run hrun => ?_⟩
      rw [hi] at hrun
      cases hrun
    | some run =>
      have hshared := ProcessPool.shared_step (advanceIngestion svc i failure) hi
      refine .inr ⟨i, failure, run, rfl, hi, ?_, ?_⟩
      · rw [IngestionPool.next, hshared]
        rfl
      · rw [IngestionPool.next, hshared]
        rfl

lemma replayLog_bucket (log : List (ℕ × IngestionAction)) (s : IngestionState) (bucket : Bucket) :
    replayLog { s with bucket := bucket } log = { replayLog s log with bucket := bucket } := by
  induction log generalizing s with
  | nil => rfl
  | cons entry log ih =>
    have hentry : entry.2.replay { s with bucket := bucket } = { entry.2.replay s with bucket := bucket } := by
      cases entry.2 with
      | claimed key version => rfl
      | unanswered key version => rfl
      | read key content => rfl
      | deleted collection chunks => rfl
      | inserted collection chunk => rfl
      | removed key version => rfl
    calc replayLog { s with bucket := bucket } (entry :: log)
        = replayLog (entry.2.replay { s with bucket := bucket }) log := rfl
      _ = replayLog { entry.2.replay s with bucket := bucket } log := by rw [hentry]
      _ = { replayLog s (entry :: log) with bucket := bucket } := ih _

lemma bucket_replayLog (log : List (ℕ × IngestionAction)) (s : IngestionState) :
    (replayLog s log).bucket = s.bucket := by
  have h : replayLog s log = { replayLog s log with bucket := s.bucket } := replayLog_bucket log s s.bucket
  rw [h]

lemma replayLog_append (log : List (ℕ × IngestionAction)) (i : ℕ) (action : Option IngestionAction)
    (s : IngestionState) : replayLog s (log ++ action.toList.map fun action => (i, action)) =
      action.toList.foldl IngestionAction.replay (replayLog s log) := by
  unfold replayLog
  rw [List.foldl_append, List.foldl_map]

theorem Recorded.next {pool : IngestionPool} {stores : String → List Document} (h : Recorded stores pool)
    (event : PoolEvent) : Recorded stores (pool.next svc event) := by
  unfold Recorded at h ⊢
  obtain ⟨⟨bucket, hstate⟩, hlog, -⟩ | ⟨i, failure, run, -, -, hstate, hlog⟩ := next_cases svc pool event
  · rw [hstate, hlog]
    calc { pool.shared.state with bucket := bucket }
        = { replayLog ⟨pool.shared.state.bucket, [], stores⟩ pool.shared.log with bucket := bucket } := by rw [← h]
      _ = replayLog ⟨bucket, [], stores⟩ pool.shared.log := (replayLog_bucket _ _ bucket).symm
  · have hnext : (pool.next svc event).shared.state =
        replayLog ⟨pool.shared.state.bucket, [], stores⟩ (pool.next svc event).shared.log := by
      rw [hlog, replayLog_append, ← h, hstate]
      exact told_nextMove.state
    have hbucket : (pool.next svc event).shared.state.bucket = pool.shared.state.bucket := by
      rw [hnext, bucket_replayLog]
    rw [hbucket]
    exact hnext

theorem readsBucket (svc : ManualIngestionService) (pool : IngestionPool) (event : PoolEvent) :
    ReadsBucket svc pool event := by
  intro j key content hmem
  obtain ⟨-, hlog, -⟩ | ⟨i, failure, run, -, -, -, hlog⟩ := next_cases svc pool event
  · rw [hlog] at hmem
    exact .inl hmem
  · rw [hlog, List.mem_append] at hmem
    apply hmem.imp_right
    intro hnew
    obtain ⟨action, haction, heq⟩ := List.mem_map.mp hnew
    rw [(Prod.mk.inj heq).2, Option.mem_toList] at haction
    exact told_nextMove.read key content haction

theorem allAnswered_next (svc : ManualIngestionService) (pool : IngestionPool) (event : PoolEvent) :
    AllAnswered (pool.next svc event) ↔ AllAnswered pool ∧ Answered svc pool event := by
  unfold AllAnswered
  obtain ⟨-, hlog, hanswered⟩ | ⟨i, failure, run, rfl, hi, -, hlog⟩ := next_cases svc pool event
  · rw [hlog, and_iff_left hanswered]
  · rw [hlog, List.forall_mem_append]
    apply and_congr_right
    intro _
    have hstep : (∀ entry ∈ (nextMove svc failure pool.shared.state run).action.toList.map fun action => (i, action),
        entry.2.isUnanswered = false) ↔
        ∀ action ∈ (nextMove svc failure pool.shared.state run).action, action.isUnanswered = false := by
      rw [List.forall_mem_map]
      exact forall_congr' fun action => by rw [Option.mem_toList, Option.mem_def]
    rw [hstep, isUnanswered_nextMove]
    constructor
    · intro h run' hrun'
      rw [hi] at hrun'
      cases hrun'
      exact h
    · exact fun h => h run hi

/-- The runs in which every claim is answered are those whose log has no unanswered one. -/
theorem allAnswered_run_iff (svc : ManualIngestionService) (bucket : Bucket) (stores : String → List Document)
    (events : List PoolEvent) : AllAnswered (Runs.run (IngestionPool.next svc) (.initial bucket stores) events) ↔
      Along (IngestionPool.next svc) (Answered svc) (.initial bucket stores) events := by
  rw [run_iff_along (allAnswered_next svc)]
  exact and_iff_right fun entry hentry => absurd hentry List.not_mem_nil

end AscendAI.Ingestion
