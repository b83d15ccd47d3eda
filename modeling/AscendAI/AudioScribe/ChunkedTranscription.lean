import AscendAI.Lib.Binary64
import AscendAI.Lib.PaddedNumber
import AscendAI.Lib.PosixPath
import AscendAI.Lib.PythonString
import AscendAI.Lib.StableSort

/-!
# Chunked transcription

The chunker of AudioScribe and the three backends over it: OpenAI, Hugging Face and the local model. What ffmpeg
leaves in the working directory, the sizes of the files and the answers of the models come from outside; the
times of a segment are numbers of any kind.
-/

namespace AscendAI.AudioScribe
open Binary64 PaddedNumber PosixPath PythonString StableSort

structure TranscriptionSettings where
  chunkLengthMinutes : ℤ := 15
  openaiApiLimitBytes : ℤ := 23592960
  targetChunkSizeBytes : ℤ := 20971520
  hfChunkLengthSeconds : ℤ := 20
  ffmpegTimeoutSeconds : ℤ := 180

/-- The exceptions that leave a backend. -/
inductive TranscriptionError where
  | osError (message : String)
  | valueError (message : String)
  | arithmeticError (error : ArithmeticError)
  | runtimeError (message : String)
  | otherException
  deriving DecidableEq

/-! ### The chunker -/

inductive FfmpegFailure where
  | timeoutExpired
  | calledProcessError (stderr : String)
  | notStarted (message : String)

/-- The working directory, and what it lists after ffmpeg has cut an audio file into pieces of a length. -/
structure AudioChunker where
  workDir : String
  segment : String → ℤ → Except FfmpegFailure (List String)

/-- The name of the piece with this number after the pattern `chunk_%05d.wav`. -/
def chunkName (i : ℕ) : String := "chunk_" ++ String.ofList (padded 5 i) ++ ".wav"

def chunkedAudio (settings : TranscriptionSettings) (chunker : AudioChunker) (audioPath : String)
    (chunkSeconds : ℤ) : Except TranscriptionError (List String) :=
  match chunker.segment audioPath chunkSeconds with
  | .error .timeoutExpired =>
    .error (.osError s!"ffmpeg segmentation timed out after {settings.ffmpegTimeoutSeconds}s")
  | .error (.calledProcessError stderr) => .error (.osError s!"ffmpeg segmentation failed: {stderr}")
  | .error (.notStarted message) => .error (.osError message)
  | .ok names =>
    let chunks :=
      sortBy id ((names.filter fun name => ".wav".toList.isSuffixOf name.toList).map (joinPath chunker.workDir))
    if chunks.isEmpty then .error (.osError "ffmpeg segment produced no chunks") else .ok chunks

/-- The loop of a backend over its chunks: the chunks that it has come to, what they have added up to, and the
exception that has ended it. -/
structure ChunkRun (σ : Type*) where
  processed : List String
  state : σ
  error : Option TranscriptionError

def overChunks {σ : Type*} (chunk : ℕ → String → σ → Except TranscriptionError σ) :
    ℕ → List String → σ → List String → ChunkRun σ
  | _, processed, state, [] => ⟨processed, state, none⟩
  | i, processed, state, path :: paths =>
    match chunk i path state with
    | .error error => ⟨processed ++ [path], state, some error⟩
    | .ok state' => overChunks chunk (i + 1) (processed ++ [path]) state' paths

/-- `with chunked_audio(…) as chunks` around the loop. -/
def overAudio {σ : Type*} (settings : TranscriptionSettings) (chunker : AudioChunker) (audioPath : String)
    (chunkSeconds : ℤ) (chunk : ℕ → String → σ → Except TranscriptionError σ) (state : σ) : ChunkRun σ :=
  match chunkedAudio settings chunker audioPath chunkSeconds with
  | .error error => ⟨[], state, some error⟩
  | .ok chunks => overChunks chunk 0 [] state chunks

/-! ### Segments -/

structure TimedText (τ : Type*) where
  text : String
  start : τ
  stop : τ
  deriving DecidableEq

/-- What a transcription returns: segments with their times, or a text. -/
inductive Transcribed (τ : Type*) where
  | segments (l : List (TimedText τ))
  | text (s : String)
  deriving DecidableEq

section Backends

variable {τ : Type*} [Add τ] [IntCast τ]

/-- Both times moved by an offset in seconds. -/
def TimedText.shift (offset : ℤ) (segment : TimedText τ) : TimedText τ :=
  { segment with start := segment.start + offset, stop := segment.stop + offset }

/-- How a call of a model fails: with the error of its API, or otherwise. -/
inductive ModelFailure where
  | apiError
  | raised (error : TranscriptionError)

variable (settings : TranscriptionSettings) (chunker : AudioChunker) (getsize : String → ℕ)

/-! ### OpenAI -/

/-- `client.audio.transcriptions.create`, with the segments of a verbose answer or the text of a plain one. -/
structure OpenAiClient (τ : Type*) where
  segments : String → Except ModelFailure (List (TimedText τ))
  text : String → Except ModelFailure String

def openAiError : ModelFailure → TranscriptionError
  | .apiError => .valueError
      "OpenAI API failed to process an audio chunk. It may be an invalid model or the API may be unavailable."
  | .raised error => error

/-- `_transcribe_single_chunk` -/
def transcribeSingleChunk (client : OpenAiClient τ) (path : String) (withTimestamps : Bool) :
    Except TranscriptionError (Transcribed τ) :=
  if withTimestamps then ((client.segments path).map Transcribed.segments).mapError openAiError
  else ((client.text path).map Transcribed.text).mapError openAiError

/-- `_derive_chunk_seconds` -/
def deriveChunkSeconds : Except ArithmeticError ℤ :=
  let hfSeconds := settings.hfChunkLengthSeconds
  let bytesPerSecond := if 0 < hfSeconds then settings.targetChunkSizeBytes / hfSeconds else 32000
  let bytesPerSecond := max bytesPerSecond 16000
  (trueDiv settings.targetChunkSizeBytes bytesPerSecond).map fun seconds => max (truncate seconds) 1

/-- `_check_chunk_size` -/
def checkChunkSize (chunkSize chunkNum : ℕ) : Except TranscriptionError ℕ :=
  if settings.openaiApiLimitBytes < chunkSize then
    .error (.valueError s!"Generated chunk {chunkNum} exceeded OpenAI size limit.")
  else .ok chunkSize

/-- The two accumulators of a transcription. -/
structure Accumulators (τ : Type*) where
  fullSegments : List (TimedText τ) := []
  fullText : List String := []

/-- `_accumulate_chunk_result` -/
def accumulateChunkResult (result : Transcribed τ) (timeOffset : ℤ) (acc : Accumulators τ) : Accumulators τ :=
  match result with
  | .segments l => { acc with fullSegments := acc.fullSegments ++ l.map (TimedText.shift timeOffset) }
  | .text text => { acc with fullText := acc.fullText ++ [text] }

/-- What a backend returns at its end. -/
def Accumulators.result (acc : Accumulators τ) (withTimestamps : Bool) : Transcribed τ :=
  if withTimestamps then .segments acc.fullSegments else .text (join " " acc.fullText)

/-- One round of the loop of `openai_transcript`. -/
def openaiChunk (client : OpenAiClient τ) (withTimestamps : Bool) (chunkSeconds : ℤ) (i : ℕ) (path : String)
    (acc : Accumulators τ) : Except TranscriptionError (Accumulators τ) :=
  match checkChunkSize settings (getsize path) (i + 1) with
  | .error error => .error error
  | .ok _ =>
    match transcribeSingleChunk client path withTimestamps with
    | .error error => .error error
    | .ok result => .ok (accumulateChunkResult result (i * chunkSeconds) acc)

/-- What a finished loop makes of its accumulators, or the exception that ended it. -/
def ChunkRun.outcome (run : ChunkRun (Accumulators τ)) (withTimestamps : Bool) :
    Except TranscriptionError (Transcribed τ) :=
  match run.error with
  | some error => .error error
  | none => .ok (run.state.result withTimestamps)

/-- `openai_transcript`: the chunks that it has come to, and its outcome. -/
def openaiTranscript (client : OpenAiClient τ) (audioFilePath : String) (withTimestamps : Bool) :
    List String × Except TranscriptionError (Transcribed τ) :=
  if (getsize audioFilePath : ℤ) < settings.openaiApiLimitBytes then
    ([], transcribeSingleChunk client audioFilePath withTimestamps)
  else
    match deriveChunkSeconds settings with
    | .error error => ([], .error (.arithmeticError error))
    | .ok chunkSeconds =>
      let run := overAudio settings chunker audioFilePath chunkSeconds
        (openaiChunk settings getsize client withTimestamps chunkSeconds) {}
      (run.processed, run.outcome withTimestamps)

/-! ### Hugging Face -/

/-- `client.automatic_speech_recognition`, with the text of the answer. -/
structure InferenceClient where
  automaticSpeechRecognition : String → Except ModelFailure String

/-- What leaves `hf_transcript` after an exception in its loop. -/
def hfError : ModelFailure → TranscriptionError
  | .apiError => .valueError "Hugging Face API failed to process an audio chunk."
  | .raised (.valueError message) => .valueError message
  | .raised (.osError message) => .osError message
  | .raised _ => .runtimeError "An unexpected error occurred during Hugging Face transcription."

/-- One round of the loop of `hf_transcript`. -/
def hfChunk (client : InferenceClient) (withTimestamps : Bool) (chunkSeconds : ℤ) (i : ℕ) (path : String)
    (acc : Accumulators τ) : Except TranscriptionError (Accumulators τ) :=
  match client.automaticSpeechRecognition path with
  | .error failure => .error (hfError failure)
  | .ok text =>
    if withTimestamps then
      let segment := ⟨text, ((i * chunkSeconds : ℤ) : τ), (((i + 1) * chunkSeconds : ℤ) : τ)⟩
      .ok { acc with fullSegments := acc.fullSegments ++ [segment] }
    else .ok { acc with fullText := acc.fullText ++ [text] }

/-- `hf_transcript` -/
def hfTranscript (hfToken : Option String) (client : InferenceClient) (audioFilePath : String)
    (withTimestamps : Bool) : List String × Except TranscriptionError (Transcribed τ) :=
  if hfToken.getD "" = "" then ([], .error (.valueError "HF_TOKEN environment variable not set!"))
  else
    let chunkSeconds := settings.hfChunkLengthSeconds
    let run := overAudio settings chunker audioFilePath chunkSeconds (hfChunk client withTimestamps chunkSeconds) {}
    (run.processed, run.outcome withTimestamps)

/-! ### The local model -/

/-- `model.transcribe` -/
structure WhisperModel (τ : Type*) where
  transcribe : String → Except TranscriptionError (List (TimedText τ))

/-- `_transcribe_chunk_sync` -/
def transcribeChunkSync (model : WhisperModel τ) (path : String) (timeOffset : ℤ) :
    Except TranscriptionError (List (TimedText τ)) :=
  (model.transcribe path).map (List.map fun segment => { segment.shift timeOffset with text := strip segment.text })

/-- One round of the loop of `local_speech_transcription_stream`, which yields its segments. -/
def localChunk (model : WhisperModel τ) (chunkSeconds : ℤ) (i : ℕ) (path : String) (yielded : List (TimedText τ)) :
    Except TranscriptionError (List (TimedText τ)) :=
  (transcribeChunkSync model path (i * chunkSeconds)).map (yielded ++ ·)

/-- `local_speech_transcription_stream`: what it yields, and the exception at its end. -/
def localSpeechTranscriptionStream (model : WhisperModel τ) (audioPath : String) : ChunkRun (List (TimedText τ)) :=
  let chunkSeconds := settings.chunkLengthMinutes * 60
  overAudio settings chunker audioPath chunkSeconds (localChunk model chunkSeconds) []

/-- The text that is built of the segments without their times. -/
def buildTranscriptText (segments : List (TimedText τ)) : String := join " " (segments.map TimedText.text)

end Backends

end AscendAI.AudioScribe
