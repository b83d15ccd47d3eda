import AscendAI.Ingestion.ManualIngestion
import AscendAI.Lib.ActionLog
import AscendAI.Lib.ProcessPool
import AscendAI.Lib.Runs

/-!
# Ingestion runs at the same time

Runs of `ManualIngestionService` over one bucket, one metadata store and the same collections. Every
step of a run is atomic. One that throws has changed nothing, or it has been carried out all the same, as
a remote call is whose answer is lost. What the runs do with the objects that they claim is logged.
-/

namespace AscendAI.Ingestion

open JavaString Provider

/-- An object as a listing answers it. -/
structure ListedObject where
  key : Option String
  eTag : Option String
  lastModified : Option String

def ListedObject.buildVersion (object : ListedObject) : String :=
  if hasText object.eTag then object.eTag.getD "" else object.lastModified.getD "unknown"

/-- An `IngestionException`, an `IOException`, or another `RuntimeException`. -/
inductive ThrownException where
  | ingestion
  | io
  | runtime
  deriving DecidableEq

/-- What a step throws, and whether it has been carried out before that. -/
structure StepFailure where
  exception : ThrownException
  carriedOut : Bool := false
  deriving DecidableEq

/-- The object that `putIfAbsent` has claimed, with `failedBefore`. -/
structure Claim where
  key : String
  version : String
  failedBefore : ℕ

def Claim.marker (claim : Claim) : String := buildMetadataKey claim.key claim.version

/-- How far `ingestObject` has come, or whether it has ended with an exception. -/
inductive Progress where
  | reading
  | extracting (content : List UInt8)
  | deleting (chunks : List Document)
  | inserting (collection : String) (chunks : List Document) (next : ℕ)
  | closing
  | ended (threw : Bool)

inductive Phase where
  | listing
  | ingesting (claim : Claim) (progress : Progress)
  | finished

/-- A run with the pages that it has yet to list and the objects left of the last one. -/
structure RunningIngestion where
  embeddingProvider : Option String
  pages : List (List ListedObject)
  objects : List ListedObject := []
  phase : Phase := .listing
  result : ManualIngestionResult := {}

/-- What a run does to the stores, and what it reads; `unanswered` is a marker that `putIfAbsent` has put
before it threw. -/
inductive IngestionAction where
  | claimed (key version : String)
  | unanswered (key version : String)
  | read (key : String) (content : List UInt8)
  | deleted (collection : String) (chunks : List Document)
  | inserted (collection : String) (chunk : Document)
  | removed (key version : String)

/-- What a step of a run changes, and what of that is logged. -/
structure Move where
  state : IngestionState
  next : RunningIngestion
  action : Option IngestionAction := none

namespace RunningIngestion

def finish (run : RunningIngestion) : RunningIngestion := { run with phase := .finished }

def skip (run : RunningIngestion) : RunningIngestion :=
  { run with result := { run.result with skipped := run.result.skipped + 1 } }

def index (run : RunningIngestion) (chunks : ℕ) : RunningIngestion :=
  { run with result := { run.result with indexed := run.result.indexed + chunks } }

def goTo (run : RunningIngestion) (claim : Claim) (progress : Progress) : RunningIngestion :=
  { run with phase := .ingesting claim progress }

/-- An exception in the `try` block of `ingestObject`: two of the kinds count, two leave the method. -/
def throw (run : RunningIngestion) (claim : Claim) (e : ThrownException) : RunningIngestion :=
  let counted := { run.result with failed := run.result.failed + 1 }
  match e with
  | .ingestion => { run with result := counted, phase := .ingesting claim (.ended false) }
  | .io => { run with result := counted, phase := .ingesting claim (.ended true) }
  | .runtime => { run with phase := .ingesting claim (.ended true) }

end RunningIngestion

section

variable (svc : ManualIngestionService) (failure : Option StepFailure) (s : IngestionState)

/-- The next page, or the next object up to its claim. An exception of `putIfAbsent` leaves the run. -/
def nextObject (run : RunningIngestion) : Move :=
  match run.objects with
  | [] =>
    match run.pages, failure with
    | page :: pages, none => ⟨s, { run with pages := pages, objects := page }, none⟩
    | _, _ => ⟨s, run.finish, none⟩
  | object :: objects =>
    let rest := { run with objects := objects }
    match object.key with
    | none => ⟨s, rest, none⟩
    | some key =>
      if isBlank key then ⟨s, rest, none⟩
      else if !shouldIngestKey svc.settings key then ⟨s, rest.skip, none⟩
      else
        let claim : Claim := ⟨key, object.buildVersion, rest.result.failed⟩
        let claimed := { s with markers := claim.marker :: s.markers }
        match failure with
        | some failure =>
          if failure.carriedOut && claim.marker ∉ s.markers then
            ⟨claimed, rest.finish, some (.unanswered key object.buildVersion)⟩
          else ⟨s, rest.finish, none⟩
        | none =>
          if claim.marker ∈ s.markers then ⟨s, rest.skip, none⟩
          else ⟨claimed, rest.goTo claim .reading, some (.claimed key object.buildVersion)⟩

def IngestionState.withStore (collection : String) (store : List Document) : IngestionState :=
  { s with stores := Function.update s.stores collection store }

/-- A call that changes the state to `s'`. -/
def callStore (run : RunningIngestion) (claim : Claim) (s' : IngestionState) (action : IngestionAction)
    (next : RunningIngestion) : Move :=
  match failure with
  | none => ⟨s', next, some action⟩
  | some failure =>
    if failure.carriedOut then ⟨s', run.throw claim failure.exception, some action⟩
    else ⟨s, run.throw claim failure.exception, none⟩

/-- The steps of `ingestObject`, and the end of `processObject` after it. -/
def ingestStep (run : RunningIngestion) (claim : Claim) : Progress → Move
  | .reading =>
    match failure, s.bucket.objects.lookup claim.key with
    | some failure, _ => ⟨s, run.throw claim failure.exception, none⟩
    | none, none => ⟨s, run.throw claim .runtime, none⟩
    | none, some object =>
      ⟨s, run.goTo claim (.extracting object.content), some (.read claim.key object.content)⟩
  | .extracting content =>
    match failure with
    | some failure => ⟨s, run.throw claim failure.exception, none⟩
    | none =>
      let documents := documents svc.extraction svc.settings claim.key content
      if documents.isEmpty then ⟨s, run.skip.goTo claim .closing, none⟩
      else ⟨s, run.goTo claim (.deleting (svc.extraction.splitter.apply documents)), none⟩
  | .deleting chunks =>
    match resolveVectorStore svc.settings.locale svc.embedding run.embeddingProvider with
    | .error _ => ⟨s, run.throw claim .runtime, none⟩
    | .ok collection =>
      callStore failure s run claim (s.withStore collection (removeOldDocuments chunks (s.stores collection)))
        (.deleted collection chunks) (run.goTo claim (.inserting collection chunks 0))
  | .inserting collection chunks next =>
    match chunks[next]? with
    | none => ⟨s, (run.index chunks.length).goTo claim .closing, none⟩
    | some chunk =>
      callStore failure s run claim (s.withStore collection (s.stores collection ++ [chunk]))
        (.inserted collection chunk) (run.goTo claim (.inserting collection chunks (next + 1)))
  | .closing =>
    match failure with
    | some failure => ⟨s, run.throw claim failure.exception, none⟩
    | none => ⟨s, run.goTo claim (.ended false), none⟩
  | .ended threw =>
    let next := if threw then run.finish else { run with phase := .listing }
    if threw || run.result.failed > claim.failedBefore then
      ⟨{ s with markers := s.markers.filter (· ≠ claim.marker) }, next,
        some (.removed claim.key claim.version)⟩
    else ⟨s, next, none⟩

def nextMove (run : RunningIngestion) : Move :=
  match run.phase with
  | .listing => nextObject svc failure s run
  | .ingesting claim progress => ingestStep svc failure s run claim progress
  | .finished => ⟨s, run, none⟩

end

/-! ### All runs together -/

structure LoggedState where
  state : IngestionState
  log : List (ℕ × IngestionAction)

abbrev IngestionPool := ProcessPool LoggedState RunningIngestion

/-- The bucket changes, a run starts with the pages that its listings will answer, or a run makes a
step, in which it may fail. -/
inductive PoolEvent where
  | put (key : String) (object : S3Object)
  | delete (key : String)
  | start (embeddingProvider : Option String) (pages : List (List ListedObject))
  | step (i : ℕ) (failure : Option StepFailure)

def advanceIngestion (svc : ManualIngestionService) (i : ℕ) (failure : Option StepFailure)
    (w : LoggedState) (run : RunningIngestion) : ProcessPool.Outcome LoggedState RunningIngestion where
  shared := ⟨(nextMove svc failure w.state run).state,
    w.log ++ (nextMove svc failure w.state run).action.toList.map fun action => (i, action)⟩
  next := (nextMove svc failure w.state run).next

def IngestionPool.withBucket (pool : IngestionPool) (bucket : Bucket) : IngestionPool :=
  ⟨⟨{ pool.shared.state with bucket := bucket }, pool.shared.log⟩, pool.procs⟩

def IngestionPool.next (svc : ManualIngestionService) (pool : IngestionPool) : PoolEvent → IngestionPool
  | .put key object => pool.withBucket (pool.shared.state.bucket.put key object)
  | .delete key => pool.withBucket (pool.shared.state.bucket.delete key)
  | .start embeddingProvider pages =>
    pool.start { embeddingProvider := embeddingProvider, pages := pages }
  | .step i failure => pool.step (advanceIngestion svc i failure) i

def IngestionPool.initial (bucket : Bucket) (stores : String → List Document) : IngestionPool :=
  ⟨⟨⟨bucket, [], stores⟩, []⟩, []⟩

end AscendAI.Ingestion
