import Mathlib.Data.List.Basic
import AscendAI.Lib.FairRuns

/-!
# Streaming transcriptions

The streaming endpoints of AudioScribe behind their upload: a backend puts its progress payloads into a
bounded queue without waiting, and the consumer polls the queue until the task is done, drains it and
answers. The backend is given by what it would do without a callback: the payloads of each of its
workers, and the transcript.
-/

namespace AscendAI.AudioScribe
open FairRuns

/-- An event of the stream: one of the endpoint's own messages, a payload, or the last one. -/
inductive SseEvent (π : Type) where
  | progress (message : String)
  | payload (p : π)
  | complete (downloadUrl source model language : String)
  | error (message : String)

def SseEvent.isComplete {π : Type} : SseEvent π → Bool
  | .complete _ _ _ _ => true
  | _ => false

/-- What the three endpoints differ in. -/
structure StreamEndpoint where
  maxsize : ℕ
  opening : List String
  source : String
  model : String
  language : String

def sseQueueMaxsize : ℕ := 200

def audacitySseQueueMaxsize : ℕ := 400

def streamOpenai (model lang : String) : StreamEndpoint where
  maxsize := sseQueueMaxsize
  opening := ["File uploaded, starting OpenAI transcription"]
  source := "openai"
  model := model
  language := lang

def streamHf (model : String) : StreamEndpoint where
  maxsize := sseQueueMaxsize
  opening := ["File uploaded, starting Hugging Face transcription"]
  source := "huggingface"
  model := model
  language := "auto"

def streamAudacity (provider model lang : String) (trackCount : ℕ) : StreamEndpoint where
  maxsize := audacitySseQueueMaxsize
  opening := ["ZIP uploaded, extracting Audacity project",
    "Extracted " ++ toString trackCount ++ " tracks, starting transcription"]
  source := provider
  model := model
  language := lang

def internalErrorMessage : String := "Internal transcription error"

/-- A job of the backend: the payloads of its workers, one for openai and hf and one for each track of
audacity, and the transcript that it returns. -/
structure Job (π : Type) where
  workers : List (List π)
  transcript : String

abbrev TranscriptStore := List (String × String)

/-- `store_transcript` under the next file id. -/
def storeTranscript (newId : ℕ → String) (store : TranscriptStore) (transcript : String) : TranscriptStore :=
  (newId store.length, transcript) :: store

/-- The endpoint without streaming, behind its upload: what it leaves in the store. -/
def transcribe {π : Type} (newId : ℕ → String) (job : Job π) (store : TranscriptStore) : TranscriptStore :=
  storeTranscript newId store job.transcript

inductive Consumer where
  | checking
  | waiting
  | draining
  | finished
  deriving DecidableEq, Repr

inductive TaskState where
  | running
  | returned
  | raised
  deriving DecidableEq, Repr

/-- The state of a stream. `emitted` lists what the callback was called with, and by whom. -/
structure StreamState (π : Type) where
  pending : List (List π)
  emitted : List (ℕ × π)
  queue : List π
  failed : Bool
  task : TaskState
  consumer : Consumer
  events : List (SseEvent π)
  store : TranscriptStore

/-- Who moves: a worker of the backend, the task when the backend is through, the consumer, or the
timeout of its poll. -/
inductive Actor where
  | backend (i : ℕ)
  | settle
  | consumer
  | timeout
  deriving DecidableEq, Repr

section Stream

variable {π : Type} (e : StreamEndpoint) (newId : ℕ → String) (job : Job π)

def startStream (store : TranscriptStore) : StreamState π where
  pending := job.workers
  emitted := []
  queue := []
  failed := false
  task := .running
  consumer := .checking
  events := e.opening.map .progress
  store := store

/-- `put_nowait` of the next payload of a worker: on a full queue it raises, which ends the worker. -/
def putNowait (s : StreamState π) (i : ℕ) (p : π) (rest : List π) : StreamState π :=
  if e.maxsize ≤ s.queue.length then
    { s with pending := s.pending.set i [], emitted := s.emitted ++ [(i, p)], failed := true }
  else
    { s with pending := s.pending.set i rest, emitted := s.emitted ++ [(i, p)], queue := s.queue ++ [p] }

def settleTask (s : StreamState π) : StreamState π :=
  if s.task ≠ .running then s
  else if s.failed then { s with task := .raised }
  else if s.pending.all List.isEmpty then { s with task := .returned }
  else s

/-- The rest of the endpoint behind the drained queue. -/
def answer (s : StreamState π) : StreamState π :=
  match s.task with
  | .running => s
  | .returned =>
    { s with
      store := storeTranscript newId s.store job.transcript
      consumer := .finished
      events := s.events ++ [.complete ("/api/v1/transcribe/download/" ++ newId s.store.length) e.source e.model
        e.language] }
  | .raised => { s with consumer := .finished, events := s.events ++ [.error internalErrorMessage] }

/-- One step of `_drain_progress_queue` and of what follows it. -/
def consume (s : StreamState π) : StreamState π :=
  match s.consumer, s.queue with
  | .checking, _ => { s with consumer := if s.task = .running then .waiting else .draining }
  | .waiting, [] => s
  | .waiting, p :: queue =>
    { s with queue := queue, events := s.events ++ [.payload p], consumer := .checking }
  | .draining, [] => answer e newId job s
  | .draining, p :: queue => { s with queue := queue, events := s.events ++ [.payload p] }
  | .finished, _ => s

def streamStep (s : StreamState π) : Actor → StreamState π
  | .backend i =>
    match s.pending[i]? with
    | some (p :: rest) => putNowait e s i p rest
    | _ => s
  | .settle => settleTask s
  | .consumer => consume e newId job s
  | .timeout => if s.consumer = .waiting then { s with consumer := .checking } else s

/-- The step is a put that finds the queue full. -/
def Overflows (s : StreamState π) : Actor → Prop
  | .backend i => (∃ p rest, s.pending[i]? = some (p :: rest)) ∧ e.maxsize ≤ s.queue.length
  | _ => False

/-- The stream has ended as the job does: every payload once, in the order of the calls of the callback,
and one completion for the stored transcript. -/
structure EndsAsJob (store : TranscriptStore) (s : StreamState π) : Prop where
  finished : s.consumer = .finished
  events : s.events = e.opening.map .progress ++ s.emitted.map (fun call => .payload call.2) ++
    [.complete ("/api/v1/transcribe/download/" ++ newId store.length) e.source e.model e.language]
  emitted : ∀ i, ((s.emitted.filter fun call => call.1 = i).map Prod.snd) = (job.workers[i]?).getD []
  stored : s.store = transcribe newId job store

/-- From some time on the stream stays ended as the job does. -/
def StreamsJob (store : TranscriptStore) (sched : ℕ → Actor) : Prop :=
  ∃ n, ∀ m, n ≤ m → EndsAsJob e newId job store (trace (streamStep e newId job) (startStream e job store) sched m)

end Stream

end AscendAI.AudioScribe
