import AscendAI.Lib.PrivateFiles
import AscendAI.Ocr.EngineCache
import AscendAI.Ocr.McpFetch

/-!
# Requests of the OCR service

The endpoint and the tool hand a file to a worker thread and wait for it for a limited time. The threads share the
cache of engines and the directory of the temporary files, and a thread that has begun goes on when nobody waits for it
any more.
-/

namespace AscendAI.Ocr
open ProcessPool Runs PrivateFiles

/-- The service with its cache, its engine and the server of the tool. -/
structure OcrServer where
  cache : CacheSettings
  engine : Engine
  mcp : McpServer

def OcrServer.service (svr : OcrServer) : OcrService := ⟨svr.cache.toSettings, svr.engine⟩

/-- A request to the endpoint, or a call of the tool. -/
inductive OcrRequest where
  | rest (filename : String) (content : List UInt8) (lang : Option String)
  | mcp (fileUri : String) (lang : String)

/-- The arguments of `process_file`. -/
structure OcrJob where
  content : List UInt8
  filename : String
  language : String

/-- What a thread ends with, if not with pages: what the engine and the models raise, the `KeyError` of the cache, or
what a constructor of an engine or an operation on the temporary file raises. -/
inductive WorkerFault where
  | service (fault : ServiceFault)
  | cache
  | constructor
  | disk

inductive OcrFailure where
  | rest (e : OcrError)
  | fetch (e : FetchError)
  | unsupportedFileType
  | timedOut
  | worker (fault : WorkerFault)

abbrev OcrAnswer := Except OcrFailure OcrJsonResponse

abbrev ThreadResult := Except WorkerFault OcrJsonResponse

/-- How the failure of a thread reaches the caller: the endpoint has an error of its own for what it catches. -/
def OcrRequest.failure : OcrRequest → WorkerFault → OcrFailure
  | .rest .., .service .timedOut => .rest .unhandled
  | .rest .., _ => .rest .ocrProcessing
  | .mcp .., .service .timedOut => .timedOut
  | .mcp .., fault => .worker fault

def OcrRequest.answerOf (request : OcrRequest) (result : ThreadResult) : OcrAnswer := result.mapError request.failure

/-- Where a thread is. `left` is the file that it has not removed. -/
inductive Worker where
  | queued
  | fetchingEngine (call : EngineCall)
  | creating (engine : PaddleOcr)
  | writing (engine : PaddleOcr) (path : String)
  | predicting (engine : PaddleOcr) (path : String)
  | cleaning (path : String) (result : ThreadResult)
  | removing (path : String) (result : ThreadResult)
  | ended (result : ThreadResult) (left : List (String × List UInt8))
  | dropped

/-- A request with its thread and the answer that it has got. -/
structure OcrTask where
  request : OcrRequest
  job : OcrJob
  worker : Worker
  answer : Option OcrAnswer

structure OcrState where
  engines : EngineStore
  disk : String → Option (List UInt8)

abbrev OcrPool := ProcessPool OcrState OcrTask

/-- How an operation of a thread ends. A file is made under a path that the directory gives, and a write that raises
leaves a part of the content. -/
inductive WorkerMove where
  | returns
  | makes (path : String)
  | raises (written : List UInt8)

/-- A request comes, a thread moves, its result is delivered, or nobody waits for it any more. -/
inductive OcrEvent where
  | arrive (request : OcrRequest)
  | work (i : ℕ) (move : WorkerMove)
  | deliver (i : ℕ)
  | timeout (i : ℕ)

section Service

variable (svr : OcrServer)

/-! ### The checks of a request -/

/-- What is handed to the thread, or the refusal. -/
def accept : OcrRequest → Except OcrFailure OcrJob
  | .rest filename content lang =>
    if svr.service.settings.maxFileSizeMb * bytesPerMb < content.length then .error (.rest .fileSizeExceeded)
    else if (sniffMime content).isNone then .error (.rest .unsupportedFileType)
    else .ok ⟨content, if filename = "" then "upload" else filename, languageOf svr.service lang⟩
  | .mcp fileUri lang =>
    match (fetchFile svr.mcp fileUri).result with
    | .error e => .error (.fetch e)
    | .ok (content, filename) =>
      if (sniffMime content).isNone then .error .unsupportedFileType else .ok ⟨content, filename, lang⟩

/-- The answer to a request that is alone, with nothing in its way. -/
def settle (request : OcrRequest) : OcrAnswer :=
  match accept svr request with
  | .error e => .error e
  | .ok job =>
    request.answerOf ((processFile svr.service job.content job.filename job.language).2.mapError .service)

/-! ### The thread -/

/-- What `process_file` makes of the pages of the engine. -/
def finishFile (job : OcrJob) (ocrResult : Option (List EnginePage)) : ThreadResult :=
  match buildPages ocrResult with
  | none => .error (.service .validationError)
  | some pages =>
    if h : job.filename.length ≤ 512 ∧ matchesLanguagePattern job.language = true ∧
        0 ≤ svr.service.engine.elapsed then
      .ok ⟨job.filename, job.language, pages, svr.service.engine.elapsed, h.1, h.2.1, h.2.2⟩
    else .error (.service .validationError)

/-- The start of `_get_engine` -/
def beginWork (job : OcrJob) : Worker :=
  if svr.service.settings.supportedLanguages.contains job.language then .fetchingEngine (.lookup job.language)
  else .ended (.error (.service (.valueError ("Unsupported language: '" ++ job.language ++ "'")))) []

/-- The thread after an operation of `_get_engine`. -/
def afterEngine : EngineCall → Worker
  | .returned _ engine => .creating engine
  | .keyError => .ended (.error .cache) []
  | .raised => .ended (.error .constructor) []
  | call => .fetchingEngine call

/-- The run of the engine on the temporary file; one that takes too long does not return. -/
def predicted (job : OcrJob) (engine : PaddleOcr) (path : String) : Option (List UInt8) → Worker
  | none => .cleaning path (.error (.service .engineError))
  | some content =>
    match svr.service.engine.predict engine.lang (safeSuffix job.filename) content with
    | .error .raised => .cleaning path (.error (.service .engineError))
    | .error .timedOut => .predicting engine path
    | .ok ocrResult => .cleaning path (finishFile svr job ocrResult)

def WorkerMove.raised : WorkerMove → Bool
  | .raises _ => true
  | _ => false

/-- One operation of a thread. -/
def advanceWorker (move : WorkerMove) (s : OcrState) (job : OcrJob) : Worker → OcrState × Worker
  | .queued => (s, beginWork svr job)
  | .fetchingEngine call =>
    ({ s with engines := (advanceEngine svr.cache move.raised s.engines call).shared },
      afterEngine (advanceEngine svr.cache move.raised s.engines call).next)
  | .creating engine =>
    match move with
    | .makes path =>
      match s.disk path with
      | none => ({ s with disk := Function.update s.disk path (some []) }, .writing engine path)
      | some _ => (s, .creating engine)
    | .raises _ => (s, .ended (.error .disk) [])
    | .returns => (s, .creating engine)
  | .writing engine path =>
    match move with
    | .raises written =>
      ({ s with disk := Function.update s.disk path (some written) }, .ended (.error .disk) [(path, written)])
    | _ => ({ s with disk := Function.update s.disk path (some job.content) }, .predicting engine path)
  | .predicting engine path => (s, predicted svr job engine path (s.disk path))
  | .cleaning path result =>
    match s.disk path with
    | none => (s, .ended result [])
    | some _ => (s, .removing path result)
  | .removing path result =>
    match move with
    | .raises _ => (s, .ended (.error .disk) [(path, job.content)])
    | _ => ({ s with disk := Function.update s.disk path none }, .ended result [])
  | worker => (s, worker)

def advanceTask (move : WorkerMove) (s : OcrState) (task : OcrTask) : ProcessPool.Outcome OcrState OcrTask :=
  ⟨(advanceWorker svr move s task.job task.worker).1,
    { task with worker := (advanceWorker svr move s task.job task.worker).2 }, []⟩

/-! ### The service -/

/-- The caller takes the result, unless it has got an answer before. -/
def deliver (task : OcrTask) : OcrTask :=
  match task.answer, task.worker with
  | none, .ended result _ => { task with answer := some (task.request.answerOf result) }
  | _, _ => task

/-- The caller stops to wait. A thread that has not begun is never run. -/
def timeOut (task : OcrTask) : OcrTask :=
  match task.answer with
  | some _ => task
  | none =>
    { task with
      answer := some (.error (task.request.failure (.service .timedOut)))
      worker := match task.worker with
        | .queued => .dropped
        | worker => worker }

def startTask (request : OcrRequest) : OcrTask :=
  match accept svr request with
  | .error e => ⟨request, ⟨[], "", ""⟩, .dropped, some (.error e)⟩
  | .ok job => ⟨request, job, .queued, none⟩

def OcrPool.next (pool : OcrPool) : OcrEvent → OcrPool
  | .arrive request => pool.start (startTask svr request)
  | .work i move => pool.step (advanceTask svr move) i
  | .deliver i => pool.step (fun s task => ⟨s, deliver task, []⟩) i
  | .timeout i => pool.step (fun s task => ⟨s, timeOut task, []⟩) i

end Service

end AscendAI.Ocr
