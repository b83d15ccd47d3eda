import AscendAI.Lib.EventStream
import AscendAI.Lib.JsonDumps
import AscendAI.Lib.Runs
import AscendAI.AudioScribe.ChunkedTranscription
import AscendAI.AudioScribe.ProgressStream

/-!
# Streams on the wire

What the streaming endpoints send is the text of an event stream, with the JSON text of a dictionary in every frame. A
client that has received a part of it has read a part of the dictionaries, each of them as it was sent.
-/

namespace AscendAI.AudioScribe
open EventStream JsonGrammar PythonString Runs

section Events

variable (writeNumber : ℚ → List Char)

/-- `_sse_event` -/
def sseEvent (data : JsonTree) : List Char := "data: ".toList ++ (dump escapeChar writeNumber data ++ ['\n', '\n'])

/-- What a client reads in the messages that it has received so far. -/
def toldBy (readNumber : List Char → Option ℚ) (received : List Char) : List (Option JsonTree) :=
  (messages received).map fun message => read readNumber message.data

def progressEvent (message : String) (data : Option JsonTree) : JsonTree :=
  .obj ([("type", .str "progress"), ("message", .str message)] ++ data.toList.map fun data => ("data", data))

def completeEvent (downloadUrl source model language : String) : JsonTree :=
  .obj [("type", .str "complete"), ("download_url", .str downloadUrl), ("source", .str source), ("model", .str model),
    ("language", .str language)]

def errorEvent (message : String) : JsonTree := .obj [("type", .str "error"), ("message", .str message)]

/-- The dictionary of an event; `data` is what the endpoint adds to a message of its own. -/
def SseEvent.dict (data : String → Option JsonTree) : SseEvent JsonTree → JsonTree
  | .progress message => progressEvent message (data message)
  | .payload p => p
  | .complete downloadUrl source model language => completeEvent downloadUrl source model language
  | .error message => errorEvent message

def noData (_ : String) : Option JsonTree := none

/-- `_stream_audacity` lists the tracks that it has extracted. -/
def audacityData (tracks : List String) (message : String) : Option JsonTree :=
  if message = "Extracted " ++ toString tracks.length ++ " tracks, starting transcription" then
    some (.obj [("tracks", .arr (tracks.map .str))])
  else none

def HasType (name : String) (event : JsonTree) : Prop := event.field? "type" = some (.str name)

end Events

/-! ### The frames -/

section Frames

variable {writeNumber : ℚ → List Char} {readNumber : List Char → Option ℚ} {dicts : List JsonTree}

lemma oneLine_dump {t : JsonTree} (h : Writable readNumber writeNumber t) :
    OneLine (dump escapeChar writeNumber t) := by
  intro c hc
  have hle := dump_escapeChar_printable h c hc
  constructor
  · rintro rfl
    exact absurd hle (by decide)
  · rintro rfl
    exact absurd hle (by decide)

lemma flatMap_sseEvent (dicts : List JsonTree) :
    dicts.flatMap (sseEvent writeNumber) = (dicts.map (dump escapeChar writeNumber)).flatMap dataFrame := by
  rw [List.flatMap_map]
  rfl

/-- A client reads the dictionaries of a whole stream. -/
lemma toldBy_frames (h : ∀ t ∈ dicts, Writable readNumber writeNumber t) :
    toldBy readNumber (dicts.flatMap (sseEvent writeNumber)) = dicts.map some := by
  have hlines : ∀ payload ∈ dicts.map (dump escapeChar writeNumber), OneLine payload := by
    intro payload hpayload
    obtain ⟨t, ht, rfl⟩ := List.mem_map.mp hpayload
    exact oneLine_dump (h t ht)
  rw [toldBy, flatMap_sseEvent, messages_dataFrames hlines, List.map_map, List.map_map]
  apply List.map_congr_left
  intro t ht
  exact read_document (document_dump charText_escapeChar (h t ht))

/-- A client that has received a part of a stream has read a part of its dictionaries. -/
lemma exists_told {received : List Char} (h : ∀ t ∈ dicts, Writable readNumber writeNumber t)
    (hreceived : received <+: dicts.flatMap (sseEvent writeNumber)) :
    ∃ told, told <+: dicts ∧ toldBy readNumber received = told.map some := by
  have htold : toldBy readNumber received <+: dicts.map some := by
    rw [← toldBy_frames h]
    exact (messages_of_take hreceived).map _
  refine ⟨dicts.take (toldBy readNumber received).length, List.take_prefix _ _, ?_⟩
  rw [List.map_take]
  exact List.prefix_iff_eq_take.mp htold

lemma hasType_progressEvent (message : String) (data : Option JsonTree) :
    HasType "progress" (progressEvent message data) := rfl

lemma hasType_completeEvent (downloadUrl source model language : String) :
    HasType "complete" (completeEvent downloadUrl source model language) := rfl

lemma hasType_errorEvent (message : String) : HasType "error" (errorEvent message) := rfl

lemma hasType_unique {name name' : String} {event : JsonTree} (h : HasType name event) (h' : HasType name' event) :
    name = name' := by
  have heq : some (JsonTree.str name) = some (.str name') := h.symm.trans h'
  cases heq
  rfl

lemma writable_progressEvent (message : String) {data : Option JsonTree}
    (h : ∀ d ∈ data, Writable readNumber writeNumber d) :
    Writable readNumber writeNumber (progressEvent message data) := by
  rw [progressEvent, Writable, fieldsWritable_iff]
  intro field hfield
  rw [List.mem_append, List.mem_cons, List.mem_singleton, List.mem_map] at hfield
  obtain (rfl | rfl) | ⟨d, hd, rfl⟩ := hfield
  · trivial
  · trivial
  · exact h d (Option.mem_toList.mp hd)

lemma writable_completeEvent (downloadUrl source model language : String) :
    Writable readNumber writeNumber (completeEvent downloadUrl source model language) :=
  ⟨trivial, trivial, trivial, trivial, trivial, trivial⟩

lemma writable_errorEvent (message : String) : Writable readNumber writeNumber (errorEvent message) :=
  ⟨trivial, trivial, trivial⟩

/-- An element of a list with an ending of at most one element that stands in a part of the list, but not in front of
the ending: the part is the whole list. -/
lemma prefix_reaches_ending {α : Type*} {told front ending : List α} (htold : told <+: front ++ ending)
    (hending : ending.length ≤ 1) {a : α} (ha : a ∈ told) (hnot : a ∉ front) : told = front ++ [a] ∧ ending = [a] := by
  cases ending with
  | nil =>
    rw [List.append_nil] at htold
    exact absurd (htold.subset ha) hnot
  | cons last ending =>
    obtain rfl := List.length_eq_zero_iff.mp (Nat.le_zero.mp (Nat.le_of_succ_le_succ hending))
    obtain heq | htold := List.prefix_concat_iff.mp htold
    · rw [heq, List.mem_append, List.mem_singleton] at ha
      rw [heq, ha.resolve_left hnot]
      exact ⟨rfl, rfl⟩
    · exact absurd (htold.subset ha) hnot

/-- Events of progress with at most one event behind them: a client that has read of the other one has read all. -/
lemma exists_told_ending {front ending : List JsonTree} {received : List Char}
    (hfront : ∀ event ∈ front, Writable readNumber writeNumber event ∧ HasType "progress" event)
    (hending : ∀ event ∈ ending, Writable readNumber writeNumber event) (hlength : ending.length ≤ 1)
    (hreceived : received <+: (front ++ ending).flatMap (sseEvent writeNumber)) :
    ∃ told, toldBy readNumber received = told.map some ∧ told <+: front ++ ending ∧
      ∀ event ∈ told, ¬HasType "progress" event → told = front ++ [event] ∧ ending = [event] := by
  have hwritable : ∀ t ∈ front ++ ending, Writable readNumber writeNumber t := by
    intro t ht
    exact (List.mem_append.mp ht).elim (fun hmem => (hfront t hmem).1) (hending t)
  obtain ⟨told, htold, hread⟩ := exists_told hwritable hreceived
  refine ⟨told, hread, htold, ?_⟩
  intro event hevent hother
  exact prefix_reaches_ending htold hlength hevent fun hmem => hother (hfront event hmem).2

end Frames

/-! ### The endpoints with a queue -/

section Queue

variable {e : StreamEndpoint} {newId : ℕ → String} {job : Job JsonTree} {store : TranscriptStore}
  {s : StreamState JsonTree}

/-- How the events of a stream end, and what is in the store then. -/
inductive StreamEnding (e : StreamEndpoint) (job : Job JsonTree) (store : TranscriptStore)
    (s : StreamState JsonTree) : List (SseEvent JsonTree) → Prop
  | streaming : s.consumer ≠ .finished → s.store = store → StreamEnding e job store s []
  | complete (fileId : String) : s.consumer = .finished → s.task = .returned → s.queue = [] →
      s.store = (fileId, job.transcript) :: store →
      StreamEnding e job store s [.complete ("/api/v1/transcribe/download/" ++ fileId) e.source e.model e.language]
  | error : s.consumer = .finished → s.store = store → StreamEnding e job store s [.error internalErrorMessage]

/-- The payloads that were sent and those in the queue are calls of the callback in their order, and all of them as long
as no call has failed. -/
structure Streaming (e : StreamEndpoint) (job : Job JsonTree) (store : TranscriptStore) (s : StreamState JsonTree)
    (sent : List JsonTree) (ending : List (SseEvent JsonTree)) : Prop where
  sublist : (sent ++ s.queue).Sublist (s.emitted.map Prod.snd)
  all : s.failed = false → sent ++ s.queue = s.emitted.map Prod.snd
  ends : StreamEnding e job store s ending
  events : s.events = e.opening.map .progress ++ sent.map .payload ++ ending

/-- What holds in every state of a stream. -/
structure Streamed (e : StreamEndpoint) (job : Job JsonTree) (store : TranscriptStore)
    (s : StreamState JsonTree) : Prop where
  streaming : ∃ sent ending, Streaming e job store s sent ending
  returned : s.task = .returned → s.failed = false ∧ ∀ payloads ∈ s.pending, payloads = []
  emitted : ∀ call ∈ s.emitted, call.2 ∈ job.workers.flatten
  pending : ∀ payloads ∈ s.pending, ∀ p ∈ payloads, p ∈ job.workers.flatten

lemma streamed_start : Streamed e job store (startStream e job store) := by
  refine ⟨⟨[], [], List.Sublist.refl _, fun _ => rfl, .streaming nofun rfl, ?_⟩, nofun, nofun, ?_⟩
  · rw [List.map_nil, List.append_nil, List.append_nil]
    rfl
  · exact fun payloads hpayloads p hp => List.mem_flatten.mpr ⟨payloads, hpayloads, hp⟩

/-- Until the consumer has finished nothing stands behind the payloads. -/
lemma Streaming.ending_eq {sent : List JsonTree} {ending : List (SseEvent JsonTree)}
    (h : Streaming e job store s sent ending) (hopen : s.consumer ≠ .finished) : ending = [] ∧ s.store = store := by
  cases h.ends with
  | streaming _ hkept => exact ⟨rfl, hkept⟩
  | complete fileId hfinished _ _ _ => exact absurd hfinished hopen
  | error hfinished _ => exact absurd hfinished hopen

lemma Streamed.putNowait (h : Streamed e job store s) {i : ℕ} {p : JsonTree} {rest : List JsonTree}
    (hi : s.pending[i]? = some (p :: rest)) : Streamed e job store (putNowait e s i p rest) := by
  obtain ⟨sent, ending, hstreaming⟩ := h.streaming
  have hmem : p :: rest ∈ s.pending := List.mem_of_getElem? hi
  have hrunning : s.task ≠ .returned := by
    intro hreturned
    exact List.cons_ne_nil _ _ ((h.returned hreturned).2 _ hmem)
  have hends : ∀ s' : StreamState JsonTree, s'.consumer = s.consumer → s'.store = s.store →
      StreamEnding e job store s' ending := by
    intro s' hconsumer hstore
    cases hstreaming.ends with
    | streaming hopen hkept => exact .streaming (hconsumer ▸ hopen) (hstore.trans hkept)
    | complete fileId _ hreturned _ _ => exact absurd hreturned hrunning
    | error hfinished hkept => exact .error (hconsumer.trans hfinished) (hstore.trans hkept)
  have hemitted : ∀ call ∈ s.emitted ++ [(i, p)], call.2 ∈ job.workers.flatten := by
    intro call hcall
    obtain hcall | hcall := List.mem_append.mp hcall
    · exact h.emitted call hcall
    · rw [List.mem_singleton.mp hcall]
      exact h.pending _ hmem p List.mem_cons_self
  have hpending : ∀ left : List JsonTree, (∀ q ∈ left, q ∈ job.workers.flatten) →
      ∀ payloads ∈ s.pending.set i left, ∀ q ∈ payloads, q ∈ job.workers.flatten := by
    intro left hleft payloads hpayloads
    obtain hold | rfl := List.mem_or_eq_of_mem_set hpayloads
    · exact h.pending payloads hold
    · exact hleft
  unfold AudioScribe.putNowait
  split
  · refine ⟨⟨sent, ending, ?_, nofun, hends _ rfl rfl, hstreaming.events⟩, fun hreturned => absurd hreturned hrunning,
      hemitted, hpending [] nofun⟩
    rw [List.map_append]
    exact hstreaming.sublist.trans (List.sublist_append_left _ _)
  · refine ⟨⟨sent, ending, ?_, ?_, hends _ rfl rfl, hstreaming.events⟩, fun hreturned => absurd hreturned hrunning,
      hemitted, hpending rest fun q hq => h.pending _ hmem q (List.mem_cons_of_mem p hq)⟩
    · rw [List.map_append, ← List.append_assoc]
      exact hstreaming.sublist.append (List.Sublist.refl _)
    · intro hfine
      rw [List.map_append, ← List.append_assoc, hstreaming.all hfine]
      rfl

lemma Streamed.settleTask (h : Streamed e job store s) : Streamed e job store (settleTask s) := by
  obtain ⟨sent, ending, hstreaming⟩ := h.streaming
  unfold AudioScribe.settleTask
  split
  · exact h
  rename_i hrunning
  have hends : ∀ task, StreamEnding e job store { s with task := task } ending := by
    intro task
    cases hstreaming.ends with
    | streaming hopen hkept => exact .streaming hopen hkept
    | complete fileId _ hreturned _ _ =>
      have hnot : s.task ≠ .running := by
        rw [hreturned]
        nofun
      exact absurd hnot hrunning
    | error hfinished hkept => exact .error hfinished hkept
  split
  · exact ⟨⟨sent, ending, hstreaming.sublist, hstreaming.all, hends _, hstreaming.events⟩, nofun, h.emitted, h.pending⟩
  rename_i hfine
  split
  · rename_i hempty
    refine ⟨⟨sent, ending, hstreaming.sublist, hstreaming.all, hends _, hstreaming.events⟩, ?_, h.emitted, h.pending⟩
    refine fun _ => ⟨by simpa using hfine, ?_⟩
    exact fun payloads hpayloads => List.isEmpty_iff.mp (List.all_eq_true.mp hempty payloads hpayloads)
  · exact h

/-- The consumer moves on without an event. -/
lemma Streamed.move (h : Streamed e job store s) (hopen : s.consumer ≠ .finished) {consumer : Consumer}
    (hnext : consumer ≠ .finished) : Streamed e job store { s with consumer := consumer } := by
  obtain ⟨sent, ending, hstreaming⟩ := h.streaming
  obtain ⟨rfl, hkept⟩ := hstreaming.ending_eq hopen
  exact ⟨⟨sent, [], hstreaming.sublist, hstreaming.all, .streaming hnext hkept, hstreaming.events⟩, h.returned,
    h.emitted, h.pending⟩

/-- The consumer takes the first payload of the queue. -/
lemma Streamed.pop (h : Streamed e job store s) (hopen : s.consumer ≠ .finished) {p : JsonTree}
    {queue : List JsonTree} (hqueue : s.queue = p :: queue) {consumer : Consumer} (hnext : consumer ≠ .finished) :
    Streamed e job store { s with queue := queue, events := s.events ++ [.payload p], consumer := consumer } := by
  obtain ⟨sent, ending, hstreaming⟩ := h.streaming
  obtain ⟨rfl, hkept⟩ := hstreaming.ending_eq hopen
  have hsame : sent ++ [p] ++ queue = sent ++ s.queue := by rw [hqueue, List.append_assoc, List.singleton_append]
  refine ⟨⟨sent ++ [p], [], hsame ▸ hstreaming.sublist, fun hfine => hsame.trans (hstreaming.all hfine),
    .streaming hnext hkept, ?_⟩, h.returned, h.emitted, h.pending⟩
  rw [hstreaming.events, List.append_nil, List.append_nil, List.map_append, ← List.append_assoc]
  rfl

lemma Streamed.answer (h : Streamed e job store s) (hopen : s.consumer ≠ .finished) (hqueue : s.queue = []) :
    Streamed e job store (answer e newId job s) := by
  obtain ⟨sent, ending, hstreaming⟩ := h.streaming
  obtain ⟨rfl, hkept⟩ := hstreaming.ending_eq hopen
  have hevents := hstreaming.events
  rw [List.append_nil] at hevents
  unfold AudioScribe.answer
  split
  · exact h
  · rename_i hreturned
    refine ⟨⟨sent, _, hstreaming.sublist, hstreaming.all, .complete (newId s.store.length) rfl hreturned hqueue ?_, ?_⟩,
      h.returned, h.emitted, h.pending⟩
    · rw [← hkept]
      rfl
    · rw [← hevents]
  · refine ⟨⟨sent, _, hstreaming.sublist, hstreaming.all, .error rfl hkept, ?_⟩, h.returned, h.emitted, h.pending⟩
    rw [← hevents]

lemma ne_finished {consumer consumer' : Consumer} (h : consumer = consumer') (hne : consumer' ≠ .finished) :
    consumer ≠ .finished := h ▸ hne

lemma Streamed.consume (h : Streamed e job store s) : Streamed e job store (consume e newId job s) := by
  unfold AudioScribe.consume
  split
  · rename_i hconsumer
    have hopen := ne_finished hconsumer nofun
    split
    · exact h.move hopen nofun
    · exact h.move hopen nofun
  · exact h
  · rename_i p queue hconsumer hqueue
    exact h.pop (ne_finished hconsumer nofun) hqueue nofun
  · rename_i hconsumer hqueue
    exact h.answer (ne_finished hconsumer nofun) hqueue
  · rename_i p queue hconsumer hqueue
    have hopen := ne_finished hconsumer nofun
    exact h.pop hopen hqueue hopen
  · exact h

lemma Streamed.step (h : Streamed e job store s) (a : Actor) : Streamed e job store (streamStep e newId job s a) := by
  cases a with
  | backend i =>
    simp only [streamStep]
    split
    · rename_i p rest hi
      exact h.putNowait hi
    · exact h
  | settle => exact h.settleTask
  | consumer => exact h.consume
  | timeout =>
    simp only [streamStep]
    split
    · rename_i hwaiting
      exact h.move (ne_finished hwaiting nofun) nofun
    · exact h

end Queue

/-! ### What a client knows -/

/-- The payloads of the backends are messages of progress, and their numbers can be written. -/
def ReportsProgress (readNumber : List Char → Option ℚ) (writeNumber : ℚ → List Char) (job : Job JsonTree) : Prop :=
  ∀ p ∈ job.workers.flatten, Writable readNumber writeNumber p ∧ HasType "progress" p

section Client

variable {writeNumber : ℚ → List Char} {readNumber : List Char → Option ℚ} {e : StreamEndpoint} {newId : ℕ → String}
  {job : Job JsonTree} {store : TranscriptStore} {s : StreamState JsonTree} {data : String → Option JsonTree}

/-- The endpoint's own messages. -/
def openingDicts (e : StreamEndpoint) (data : String → Option JsonTree) : List JsonTree :=
  e.opening.map fun message => progressEvent message (data message)

variable {sent : List JsonTree} {ending : List (SseEvent JsonTree)}

lemma Streaming.dicts (h : Streaming e job store s sent ending) (data : String → Option JsonTree) :
    s.events.map (SseEvent.dict data) = openingDicts e data ++ sent ++ ending.map (SseEvent.dict data) := by
  have hpayloads : SseEvent.dict data ∘ SseEvent.payload = id := rfl
  rw [h.events, List.map_append, List.map_append, List.map_map, List.map_map, hpayloads, List.map_id]
  rfl

lemma mem_workers_of_sent (h : Streamed e job store s) (hstreaming : Streaming e job store s sent ending)
    {p : JsonTree} (hp : p ∈ sent) : p ∈ job.workers.flatten := by
  have hmem := hstreaming.sublist.subset (List.mem_append_left _ hp)
  obtain ⟨call, hcall, rfl⟩ := List.mem_map.mp hmem
  exact h.emitted call hcall

/-- In front of the ending there is progress only. -/
lemma progress_of_mem (h : Streamed e job store s) (hjob : ReportsProgress readNumber writeNumber job)
    (hstreaming : Streaming e job store s sent ending)
    (hdata : ∀ message, ∀ d ∈ data message, Writable readNumber writeNumber d) {event : JsonTree}
    (hevent : event ∈ openingDicts e data ++ sent) :
    Writable readNumber writeNumber event ∧ HasType "progress" event := by
  obtain hopening | hp := List.mem_append.mp hevent
  · obtain ⟨message, -, rfl⟩ := List.mem_map.mp hopening
    exact ⟨writable_progressEvent message (hdata message), hasType_progressEvent _ _⟩
  · exact hjob event (mem_workers_of_sent h hstreaming hp)

lemma writable_ending (h : StreamEnding e job store s ending) :
    ∀ event ∈ ending.map (SseEvent.dict data), Writable readNumber writeNumber event := by
  intro event hevent
  cases h with
  | streaming _ _ => cases hevent
  | complete fileId _ _ _ _ =>
    rw [List.map_singleton, List.mem_singleton] at hevent
    rw [hevent]
    exact writable_completeEvent _ _ _ _
  | error _ _ =>
    rw [List.map_singleton, List.mem_singleton] at hevent
    rw [hevent]
    exact writable_errorEvent _

lemma StreamEnding.length_le (h : StreamEnding e job store s ending) : ending.length ≤ 1 := by
  cases h with
  | streaming _ _ => exact Nat.zero_le 1
  | complete fileId _ _ _ _ => exact Nat.le_refl 1
  | error _ _ => exact Nat.le_refl 1

/-- A job of one chunk. -/
def chunkJob : Job JsonTree where
  workers := [[progressEvent "Transcribing chunk 1/1" (some (.obj [("chunk", .num 1), ("total", .num 1)]))]]
  transcript := "Hello"

lemma reportsProgress_chunkJob : ReportsProgress readWhole writeWhole chunkJob := by
  intro p hp
  rw [List.mem_singleton.mp hp]
  refine ⟨?_, rfl⟩
  apply writable_progressEvent
  intro d hd
  obtain rfl := Option.some.inj hd
  exact ⟨numberText_whole 1, numberText_whole 1, trivial⟩

end Client

/-! ### The endpoint without a queue -/

/-- `_error_event` -/
def errorEventOf : TranscriptionError → JsonTree
  | .valueError message => errorEvent message
  | _ => errorEvent internalErrorMessage

/-- The event of a segment, with the first sixty characters of its text. -/
def segmentEvent (segment : TimedText ℚ) (segmentCount : ℕ) : JsonTree :=
  progressEvent ("Segment " ++ toString segmentCount ++ ": " ++ String.ofList (segment.text.toList.take 60))
    (some (.obj [("segments", .num segmentCount), ("start", .num segment.start), ("end", .num segment.stop)]))

/-- `_build_transcript_text`; `formatTime` writes a time with two decimals. -/
def transcriptText (formatTime : ℚ → String) (withTimestamps : Bool) (segments : List (TimedText ℚ)) : String :=
  if withTimestamps then
    join "\n" (segments.map fun segment =>
      "[" ++ formatTime segment.start ++ " - " ++ formatTime segment.stop ++ "] " ++ segment.text)
  else buildTranscriptText segments

/-- A request of the local endpoint, with the path of its upload. -/
structure LocalRequest where
  upload : Except TranscriptionError String
  model : String
  language : String
  withTimestamps : Bool

/-- The local model with its chunker. -/
structure LocalBackend where
  settings : TranscriptionSettings
  chunker : AudioChunker
  whisper : WhisperModel ℚ
  formatTime : ℚ → String

def localOpening : JsonTree := progressEvent "File uploaded, starting local transcription" none

/-- `_stream_local`: its events, and the store behind it. -/
def streamLocal (b : LocalBackend) (newId : ℕ → String) (request : LocalRequest) (store : TranscriptStore) :
    List JsonTree × TranscriptStore :=
  match request.upload with
  | .error error => ([errorEventOf error], store)
  | .ok path =>
    let transcription := localSpeechTranscriptionStream b.settings b.chunker b.whisper path
    let events := localOpening :: transcription.state.zipIdx.map fun (segment, i) => segmentEvent segment (i + 1)
    match transcription.error with
    | some error => (events ++ [errorEventOf error], store)
    | none =>
      (events ++ [completeEvent ("/api/v1/transcribe/download/" ++ newId store.length) "local" request.model
        request.language],
        storeTranscript newId store (transcriptText b.formatTime request.withTimestamps transcription.state))

section Local

variable {writeNumber : ℚ → List Char} {readNumber : List Char → Option ℚ}

lemma writable_segmentEvent {segment : TimedText ℚ} {segmentCount : ℕ}
    (hcount : NumberText readNumber segmentCount (writeNumber segmentCount))
    (hstart : NumberText readNumber segment.start (writeNumber segment.start))
    (hstop : NumberText readNumber segment.stop (writeNumber segment.stop)) :
    Writable readNumber writeNumber (segmentEvent segment segmentCount) := by
  apply writable_progressEvent
  intro d hd
  obtain rfl := Option.some.inj hd
  exact ⟨hcount, hstart, hstop, trivial⟩

lemma hasType_errorEventOf (error : TranscriptionError) : HasType "error" (errorEventOf error) := by
  cases error <;> rfl

lemma writable_errorEventOf (error : TranscriptionError) : Writable readNumber writeNumber (errorEventOf error) := by
  cases error <;> exact writable_errorEvent _

/-- The times of the segments that an upload yields can be written, and so can their numbers. -/
def TimesWritable (readNumber : List Char → Option ℚ) (writeNumber : ℚ → List Char) (b : LocalBackend) : Prop :=
  (∀ n : ℕ, NumberText readNumber n (writeNumber n)) ∧
    ∀ path, ∀ segment ∈ (localSpeechTranscriptionStream b.settings b.chunker b.whisper path).state,
      NumberText readNumber segment.start (writeNumber segment.start) ∧
        NumberText readNumber segment.stop (writeNumber segment.stop)

/-- The dictionaries in front of the ending of a local stream. -/
def localFront (segments : List (TimedText ℚ)) : List JsonTree :=
  localOpening :: segments.zipIdx.map fun (segment, i) => segmentEvent segment (i + 1)

lemma progress_of_mem_localFront {segments : List (TimedText ℚ)}
    (hcount : ∀ n : ℕ, NumberText readNumber n (writeNumber n))
    (htimes : ∀ segment ∈ segments, NumberText readNumber segment.start (writeNumber segment.start) ∧
      NumberText readNumber segment.stop (writeNumber segment.stop)) {event : JsonTree}
    (hevent : event ∈ localFront segments) :
    Writable readNumber writeNumber event ∧ HasType "progress" event := by
  obtain rfl | hsegment := List.mem_cons.mp hevent
  · exact ⟨writable_progressEvent _ nofun, rfl⟩
  · obtain ⟨⟨segment, i⟩, hmem, rfl⟩ := List.mem_map.mp hsegment
    have hin := htimes segment (List.fst_mem_of_mem_zipIdx hmem)
    exact ⟨writable_segmentEvent (hcount (i + 1)) hin.1 hin.2, rfl⟩

/-- A local stream ends in an error and stores nothing, or in the completion behind its segments. -/
lemma streamLocal_cases (b : LocalBackend) (newId : ℕ → String) (request : LocalRequest) (store : TranscriptStore)
    (htimes : TimesWritable readNumber writeNumber b) :
    (∃ front error, streamLocal b newId request store = (front ++ [errorEventOf error], store) ∧
      ∀ event ∈ front, Writable readNumber writeNumber event ∧ HasType "progress" event) ∨
    ∃ segments, streamLocal b newId request store =
        (localFront segments ++ [completeEvent ("/api/v1/transcribe/download/" ++ newId store.length) "local"
          request.model request.language],
          (newId store.length, transcriptText b.formatTime request.withTimestamps segments) :: store) ∧
      ∀ event ∈ localFront segments, Writable readNumber writeNumber event ∧ HasType "progress" event := by
  unfold streamLocal
  cases request.upload with
  | error error => exact .inl ⟨[], error, rfl, nofun⟩
  | ok path =>
    have hfront := fun event => @progress_of_mem_localFront _ _ _ htimes.1 (htimes.2 path) event
    cases hend : (localSpeechTranscriptionStream b.settings b.chunker b.whisper path).error with
    | some error =>
      simp only [hend]
      exact .inl ⟨localFront _, error, rfl, hfront⟩
    | none =>
      simp only [hend]
      exact .inr ⟨_, rfl, hfront⟩

/-- A backend that finds one segment in one piece of every upload. -/
def oneSegmentBackend : LocalBackend where
  settings := {}
  chunker := ⟨"/tmp/chunks", fun _ _ => .ok ["chunk_00000.wav"]⟩
  whisper := ⟨fun _ => .ok [⟨" Hello ", 0, 2⟩]⟩
  formatTime := fun _ => "0.00"

lemma timesWritable_oneSegmentBackend : TimesWritable readWhole writeWhole oneSegmentBackend := by
  refine ⟨numberText_whole, ?_⟩
  intro path segment hsegment
  have hpath : localSpeechTranscriptionStream oneSegmentBackend.settings oneSegmentBackend.chunker
      oneSegmentBackend.whisper path = localSpeechTranscriptionStream oneSegmentBackend.settings
      oneSegmentBackend.chunker oneSegmentBackend.whisper "" := rfl
  have hstate : (localSpeechTranscriptionStream oneSegmentBackend.settings oneSegmentBackend.chunker
      oneSegmentBackend.whisper "").state = [⟨"Hello", 0, 2⟩] := by decide +kernel
  rw [hpath, hstate, List.mem_singleton] at hsegment
  rw [hsegment]
  exact ⟨numberText_whole 0, numberText_whole 2⟩

end Local

end AscendAI.AudioScribe
