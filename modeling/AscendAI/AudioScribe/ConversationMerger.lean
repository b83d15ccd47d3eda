import Mathlib.Data.List.Flatten
import Mathlib.Data.Rat.Floor
import AscendAI.Lib.PythonString
import AscendAI.Lib.Runs
import AscendAI.Lib.StableSort

/-!
# The conversation merger

AudioScribe transcribes the tracks of a conversation at the same time, as many as the provider's
semaphore lets run, and merges their segments into one text. The tracks may start and complete in any
order.
-/

namespace AscendAI.AudioScribe
open PythonString

def providerConcurrency : List (String × ℕ) :=
  [("local", 1), ("openai", 4), ("huggingface", 4)]

def concurrencyOf (provider : String) : ℕ := (providerConcurrency.lookup provider).getD 1

lemma concurrencyOf_pos (provider : String) : 0 < concurrencyOf provider := by
  unfold concurrencyOf providerConcurrency
  simp only [List.lookup_cons, List.lookup_nil]
  repeat' split
  all_goals decide

/-- The remainder of Python's `%` for a positive divisor. -/
def pyMod (a b : ℚ) : ℚ := a - b * ⌊a / b⌋

def formatElapsedTime (seconds : ℚ) : String :=
  let hours := ⌊seconds / 3600⌋
  let minutes := ⌊pyMod seconds 3600 / 60⌋
  let secs := ⌊pyMod seconds 60⌋
  "[" ++ format02d hours ++ ":" ++ format02d minutes ++ ":" ++ format02d secs ++ "]"

structure Segment where
  text : String
  start : ℚ
  stop : ℚ
  deriving DecidableEq

structure SpokenSegment extends Segment where
  speaker : String
  deriving DecidableEq

/-- What a cloud backend returns: a list of segments, or a plain text. -/
inductive Transcription where
  | segments (l : List Segment)
  | text (s : String)

/-- The answers that the three backends would give for an audio file. -/
structure Backends where
  localSpeechTranscription : String → Except String (List Segment)
  openaiSpeechTranscription : String → Except String Transcription
  hfSpeechTranscription : String → Except String Transcription

/-- `result if isinstance(result, list) else []` -/
def Transcription.toSegments : Transcription → List Segment
  | .segments l => l
  | .text _ => []

/-- The segments of a track before they are tagged. -/
def segmentsOf (backends : Backends) (provider trackWav : String) : Except String (List Segment) :=
  if provider = "local" then backends.localSpeechTranscription trackWav
  else if provider = "openai" then (backends.openaiSpeechTranscription trackWav).map Transcription.toSegments
  else if provider = "huggingface" then (backends.hfSpeechTranscription trackWav).map Transcription.toSegments
  else .error ("Unknown provider: " ++ provider)

def Segment.tag (trackName : String) (segment : Segment) : SpokenSegment :=
  { segment with speaker := trackName }

def transcribeOneTrack (backends : Backends) (provider trackName trackWav : String) :
    Except String (List SpokenSegment) :=
  (segmentsOf backends provider trackWav).map (List.map (Segment.tag trackName))

/-- What the progress callback is given. -/
inductive TrackProgress where
  | transcribing (track totalTracks : ℕ) (trackName : String)
  | complete (track totalTracks : ℕ) (trackName : String) (segments : ℕ)
  deriving DecidableEq

def TrackProgress.message : TrackProgress → String
  | .transcribing track totalTracks trackName =>
    "Transcribing track '" ++ trackName ++ "' (" ++ track.repr ++ "/" ++ totalTracks.repr ++ ")"
  | .complete _ _ trackName segments =>
    "Track '" ++ trackName ++ "' complete (" ++ segments.repr ++ " segments)"

/-- An item of the ordered map from track names to audio files. -/
structure Track where
  name : String
  wav : String
  deriving DecidableEq

inductive TrackCall where
  | waiting
  | running
  | returned (segments : List SpokenSegment)
  | raised

/-- The state of the gathered calls, one for each track, with the first exception that one of them
raised and what the callback was given so far. -/
structure Gather where
  calls : List TrackCall
  exception : Option String
  progress : List TrackProgress

/-- A call takes the semaphore, or its transcription is over and it gives the semaphore back. -/
inductive CallEvent where
  | acquire (i : ℕ)
  | complete (i : ℕ)
  deriving DecidableEq

def TrackCall.isRunning : TrackCall → Bool
  | .running => true
  | _ => false

def TrackCall.segments? : TrackCall → Option (List SpokenSegment)
  | .returned segments => some segments
  | _ => none

section Calls

variable (concurrency : ℕ) (backends : ℕ → Backends) (provider : String) (tracks : List Track)

def startGather : Gather where
  calls := tracks.map fun _ => .waiting
  exception := none
  progress := []

def acquire (s : Gather) (i : ℕ) (track : Track) : Gather :=
  if s.calls.countP TrackCall.isRunning < concurrency then
    { s with
      calls := s.calls.set i .running
      progress := s.progress ++ [.transcribing (i + 1) tracks.length track.name] }
  else s

def complete (s : Gather) (i : ℕ) (track : Track) : Gather :=
  match transcribeOneTrack (backends i) provider track.name track.wav with
  | .ok segments =>
    { s with
      calls := s.calls.set i (.returned segments)
      progress := s.progress ++ [.complete (i + 1) tracks.length track.name segments.length] }
  | .error e => { s with calls := s.calls.set i .raised, exception := s.exception.or (some e) }

/-- A track's call moves when it can: it waits for the semaphore, and it completes once. -/
def gatherStep (s : Gather) : CallEvent → Gather
  | .acquire i =>
    match tracks[i]?, s.calls[i]? with
    | some track, some .waiting => acquire concurrency tracks s i track
    | _, _ => s
  | .complete i =>
    match tracks[i]?, s.calls[i]? with
    | some track, some .running => complete backends provider tracks s i track
    | _, _ => s

/-- `asyncio.gather`: the results in the order of the tracks, or the first exception. -/
def Gather.result (s : Gather) : Option (Except String (List (List SpokenSegment))) :=
  match s.exception with
  | some e => some (.error e)
  | none => (s.calls.mapM TrackCall.segments?).map .ok

/-- The line of a segment, unless its text is blank. -/
def resultLine (segment : SpokenSegment) : Option String :=
  let timeTag := formatElapsedTime segment.start
  let speakerTag := "[" ++ segment.speaker ++ "]"
  let text := strip segment.text
  if text = "" then none else some (timeTag ++ " " ++ speakerTag ++ " " ++ text)

def mergeSegments (trackResults : List (List SpokenSegment)) : String :=
  let allSegments := StableSort.sortBy (fun s : SpokenSegment => s.start) trackResults.flatten
  join "\n" (allSegments.filterMap resultLine)

/-- What the call has returned or raised after the events of a run. -/
def transcribeAndMergeTracks (events : List CallEvent) : Option (Except String String) :=
  (Runs.run (gatherStep concurrency backends provider tracks) (startGather tracks) events).result.map
    (Except.map mergeSegments)

end Calls

end AscendAI.AudioScribe
