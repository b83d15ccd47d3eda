import AscendAI.AudioScribe.TimeOrder

/-!
# Transcripts in the order of time

The three backends give every segment the time of its piece, and join the texts, in the order of the pieces as
long as the pieces are in reach.
-/

namespace AscendAI.AudioScribe
open PythonString StableSort

section Audio

variable {σ : Type*} {chunk : ℕ → String → σ → Except TranscriptionError σ} {fails : String → Bool}
  (settings : TranscriptionSettings) {chunker : AudioChunker} {audio : String} {chunkSeconds : ℤ} {count : ℕ}

/-- Up to the piece where the loop ends, the chunks are the pieces. -/
lemma chunks_of_inReach {paths : List String} (hperm : paths.Perm (pieces chunker count))
    (hreach : InReach chunker fails count) {k : ℕ} (hk : k ≤ count)
    (hok : ∀ j < k, fails (piecePath chunker j) = false) (hend : k = count ∨ fails (piecePath chunker k) = true) :
    ∃ more, sortBy id paths = pieces chunker k ++ more ∧
      (k = count ∧ more = [] ∨
        k < count ∧ fails (piecePath chunker k) = true ∧ ∃ rest, more = piecePath chunker k :: rest) := by
  by_cases hcount : count ≤ 100000
  · refine ⟨_, (sortBy_pieces_of_le hperm hcount).trans (pieces_eq_append chunker hk), ?_⟩
    rcases hk.eq_or_lt with rfl | hlt
    · exact .inl ⟨rfl, by rw [Nat.sub_self]; rfl⟩
    · obtain ⟨n, hn⟩ := Nat.exists_eq_add_of_lt hlt
      have hrest : count - k = n + 1 := by omega
      exact .inr ⟨hlt, hend.resolve_left hlt.ne, _, by rw [hrest, List.range'_succ, List.map_cons]⟩
  · obtain ⟨i, hi, hfails⟩ := hreach.resolve_left hcount
    have hki : k ≤ i := by
      by_contra hlt
      rw [hok i (by omega)] at hfails
      cases hfails
    have hfailsk := hend.resolve_left (by omega)
    obtain ⟨next, rest, hsort, -⟩ := sortBy_pieces_of_lt hperm (not_le.mp hcount)
    have hrest : 10001 - k = (10000 - k) + 1 := by omega
    rw [pieces_eq_append chunker (by omega : k ≤ 10001), hrest, List.range'_succ, List.map_cons,
      List.append_assoc] at hsort
    exact ⟨_, hsort, .inr ⟨by omega, hfailsk, _, rfl⟩⟩

/-- Every loop over an audio file comes to its pieces in the order of time exactly when they are in reach. -/
lemma overAudio_processed_iff (hcuts : chunker.Cuts audio chunkSeconds count)
    (hfails : ∀ i path state, fails path = !(chunk i path state).isOk) (state : σ) :
    (overAudio settings chunker audio chunkSeconds chunk state).processed =
      throughFirst fails (pieces chunker count) ↔ InReach chunker fails count := by
  obtain ⟨paths, hperm, hchunks⟩ := chunkedAudio_of_cuts settings hcuts
  have hrun := overChunks_processed hfails 0 [] state (sortBy id paths)
  rw [List.nil_append] at hrun
  simp only [overAudio, hchunks, hrun]
  exact throughFirst_sortBy_iff hperm

/-- What a loop adds up over the pieces in front of its end. -/
lemma overAudio_state (hcuts : chunker.Cuts audio chunkSeconds count)
    (hfails : ∀ i path state, fails path = !(chunk i path state).isOk) (hreach : InReach chunker fails count)
    {k : ℕ} (hk : k ≤ count) {add : ℕ → σ → σ}
    (hok : ∀ j < k, ∀ state, chunk j (piecePath chunker j) state = .ok (add j state))
    (hend : k = count ∨ fails (piecePath chunker k) = true) (state : σ) :
    (overAudio settings chunker audio chunkSeconds chunk state).state =
        (List.range k).foldl (fun state j => add j state) state ∧
      (k = count → (overAudio settings chunker audio chunkSeconds chunk state).error = none) := by
  obtain ⟨paths, hperm, hchunks⟩ := chunkedAudio_of_cuts settings hcuts
  have hsucceeds : ∀ j < k, fails (piecePath chunker j) = false := by
    intro j hj
    rw [hfails j _ state, hok j hj]
    rfl
  obtain ⟨more, hsort, hmore⟩ := chunks_of_inReach hperm hreach hk hsucceeds hend
  have hrun := overChunks_append more k (i := 0)
    (fun j _ hj => hok j (by omega)) [] state
  rw [← List.range_eq_range', ← pieces] at hrun
  simp only [overAudio, hchunks, hsort, hrun]
  rcases hmore with ⟨-, rfl⟩ | ⟨hlt, hfailsk, rest, rfl⟩
  · exact ⟨rfl, fun _ => rfl⟩
  · rw [overChunks]
    have hchunk := hfails (0 + k) (piecePath chunker k) ((List.range k).foldl (fun state j => add j state) state)
    rw [hfailsk] at hchunk
    cases hresult : chunk (0 + k) (piecePath chunker k) ((List.range k).foldl (fun state j => add j state) state) with
    | error error => exact ⟨rfl, fun hkcount => absurd hkcount hlt.ne⟩
    | ok state' =>
      rw [hresult] at hchunk
      cases hchunk

end Audio

/-! ### What is asked of the backends -/

section Backends

variable {τ : Type*} [Add τ] [IntCast τ] (settings : TranscriptionSettings) (chunker : AudioChunker)
  (getsize : String → ℕ)

/-- A chunk that OpenAI's limit or its model refuses. -/
def openaiFails (client : OpenAiClient τ) (withTimestamps : Bool) (path : String) : Bool :=
  settings.openaiApiLimitBytes < getsize path || !(transcribeSingleChunk client path withTimestamps).isOk

def hfFails (client : InferenceClient) (path : String) : Bool := !(client.automaticSpeechRecognition path).isOk

def localFails (model : WhisperModel τ) (path : String) : Bool := !(model.transcribe path).isOk

/-- `openai_transcript` comes to the pieces in the order of time, moves the segments of each to the time of the
piece, and joins the texts in that order. -/
structure OpenAiInOrder (client : OpenAiClient τ) (audio : String) (withTimestamps : Bool) (chunkSeconds : ℤ)
    (count : ℕ) : Prop where
  processed : (openaiTranscript settings chunker getsize client audio withTimestamps).1 =
    throughFirst (openaiFails settings getsize client withTimestamps) (pieces chunker count)
  segments : withTimestamps = true → ∀ reports : ℕ → List (TimedText τ),
    (∀ i < count, (getsize (piecePath chunker i) : ℤ) ≤ settings.openaiApiLimitBytes ∧
      client.segments (piecePath chunker i) = .ok (reports i)) →
    (openaiTranscript settings chunker getsize client audio withTimestamps).2 =
      .ok (.segments ((List.range count).flatMap fun i => (reports i).map (TimedText.shift (i * chunkSeconds))))
  text : withTimestamps = false → ∀ texts : ℕ → String,
    (∀ i < count, (getsize (piecePath chunker i) : ℤ) ≤ settings.openaiApiLimitBytes ∧
      client.text (piecePath chunker i) = .ok (texts i)) →
    (openaiTranscript settings chunker getsize client audio withTimestamps).2 =
      .ok (.text (join " " ((List.range count).map texts)))

/-- `hf_transcript` does so with one segment for each piece. -/
structure HfInOrder (τ : Type*) [IntCast τ] (hfToken : Option String) (client : InferenceClient) (audio : String)
    (withTimestamps : Bool) (count : ℕ) : Prop where
  processed : (hfTranscript (τ := τ) settings chunker hfToken client audio withTimestamps).1 =
    throughFirst (hfFails client) (pieces chunker count)
  segments : withTimestamps = true → ∀ texts : ℕ → String,
    (∀ i < count, client.automaticSpeechRecognition (piecePath chunker i) = .ok (texts i)) →
    (hfTranscript (τ := τ) settings chunker hfToken client audio withTimestamps).2 =
      .ok (.segments ((List.range count).map fun i =>
        ⟨texts i, ((i * settings.hfChunkLengthSeconds : ℤ) : τ), (((i + 1) * settings.hfChunkLengthSeconds : ℤ) : τ)⟩))
  text : withTimestamps = false → ∀ texts : ℕ → String,
    (∀ i < count, client.automaticSpeechRecognition (piecePath chunker i) = .ok (texts i)) →
    (hfTranscript (τ := τ) settings chunker hfToken client audio withTimestamps).2 =
      .ok (.text (join " " ((List.range count).map texts)))

/-- `local_speech_transcription_stream` does so for the pieces in front of the first one that fails. -/
structure LocalInOrder (model : WhisperModel τ) (audio : String) (count : ℕ) : Prop where
  processed : (localSpeechTranscriptionStream settings chunker model audio).processed =
    throughFirst (localFails model) (pieces chunker count)
  segments : ∀ k ≤ count, ∀ reports : ℕ → List (TimedText τ),
    (∀ i < k, model.transcribe (piecePath chunker i) = .ok (reports i)) →
    (k = count ∨ localFails model (piecePath chunker k) = true) →
    (localSpeechTranscriptionStream settings chunker model audio).state =
      (List.range k).flatMap fun i => (reports i).map fun segment =>
        { segment.shift (i * (settings.chunkLengthMinutes * 60)) with text := strip segment.text }
  text : ∀ k ≤ count, ∀ reports : ℕ → List (TimedText τ),
    (∀ i < k, model.transcribe (piecePath chunker i) = .ok (reports i)) →
    (k = count ∨ localFails model (piecePath chunker k) = true) →
    buildTranscriptText (localSpeechTranscriptionStream settings chunker model audio).state =
      join " " ((List.range k).flatMap fun i => (reports i).map fun segment => strip segment.text)

end Backends

/-! ### What the rounds add up to -/

section Folds

variable {τ : Type*}

/-- Rounds that each append to what is there append all together in their order. -/
lemma foldl_extend {α β : Type*} (extend : α → List β → α) (hnil : ∀ acc, extend acc [] = acc)
    (happend : ∀ acc a b, extend (extend acc a) b = extend acc (a ++ b)) (f : ℕ → List β) (l : List ℕ) (acc : α) :
    l.foldl (fun acc j => extend acc (f j)) acc = extend acc (l.flatMap f) := by
  induction l generalizing acc with
  | nil => exact (hnil acc).symm
  | cons j l ih => rw [List.foldl_cons, ih, happend, List.flatMap_cons]

lemma foldl_fullSegments (f : ℕ → List (TimedText τ)) (l : List ℕ) (acc : Accumulators τ) :
    l.foldl (fun acc j => { acc with fullSegments := acc.fullSegments ++ f j }) acc =
      { acc with fullSegments := acc.fullSegments ++ l.flatMap f } :=
  foldl_extend (fun acc a => { acc with fullSegments := acc.fullSegments ++ a }) (fun acc => by simp)
    (fun acc a b => by simp) f l acc

lemma foldl_fullText (f : ℕ → String) (l : List ℕ) (acc : Accumulators τ) :
    l.foldl (fun acc j => { acc with fullText := acc.fullText ++ [f j] }) acc =
      { acc with fullText := acc.fullText ++ l.map f } := by
  rw [List.map_eq_flatMap]
  exact foldl_extend (fun acc a => { acc with fullText := acc.fullText ++ a }) (fun acc => by simp)
    (fun acc a b => by simp) (fun j => [f j]) l acc

lemma foldl_yielded (f : ℕ → List (TimedText τ)) (l : List ℕ) (yielded : List (TimedText τ)) :
    l.foldl (fun yielded j => yielded ++ f j) yielded = yielded ++ l.flatMap f :=
  foldl_extend (· ++ ·) List.append_nil List.append_assoc f l yielded

section Outcome

variable {settings : TranscriptionSettings} {chunker : AudioChunker} {audio : String} {chunkSeconds : ℤ} {count : ℕ}
  {chunk : ℕ → String → Accumulators τ → Except TranscriptionError (Accumulators τ)} {fails : String → Bool}

/-- When every piece adds segments, the outcome is all of them in the order of the pieces. -/
lemma outcome_of_segments (hcuts : chunker.Cuts audio chunkSeconds count)
    (hfails : ∀ i path acc, fails path = !(chunk i path acc).isOk) (hreach : InReach chunker fails count)
    {f : ℕ → List (TimedText τ)} (hok : ∀ j < count, ∀ acc, chunk j (piecePath chunker j) acc =
      .ok { acc with fullSegments := acc.fullSegments ++ f j }) :
    (overAudio settings chunker audio chunkSeconds chunk {}).outcome true =
      .ok (.segments ((List.range count).flatMap f)) := by
  obtain ⟨hstate, herror⟩ := overAudio_state settings hcuts hfails hreach le_rfl hok (.inl rfl) {}
  rw [ChunkRun.outcome, herror rfl, hstate, foldl_fullSegments]
  rfl

lemma outcome_of_texts (hcuts : chunker.Cuts audio chunkSeconds count)
    (hfails : ∀ i path acc, fails path = !(chunk i path acc).isOk) (hreach : InReach chunker fails count)
    {f : ℕ → String} (hok : ∀ j < count, ∀ acc, chunk j (piecePath chunker j) acc =
      .ok { acc with fullText := acc.fullText ++ [f j] }) :
    (overAudio settings chunker audio chunkSeconds chunk {}).outcome false =
      .ok (.text (join " " ((List.range count).map f))) := by
  obtain ⟨hstate, herror⟩ := overAudio_state settings hcuts hfails hreach le_rfl hok (.inl rfl) {}
  rw [ChunkRun.outcome, herror rfl, hstate, foldl_fullText]
  rfl

end Outcome

end Folds

/-! ### OpenAI -/

section OpenAi

variable {τ : Type*} [Add τ] [IntCast τ] {settings : TranscriptionSettings} {chunker : AudioChunker}
  {getsize : String → ℕ} {audio : String} {count : ℕ}

lemma openaiFails_eq (client : OpenAiClient τ) (withTimestamps : Bool) (chunkSeconds : ℤ) (i : ℕ) (path : String)
    (acc : Accumulators τ) : openaiFails settings getsize client withTimestamps path =
      !(openaiChunk settings getsize client withTimestamps chunkSeconds i path acc).isOk := by
  unfold openaiFails openaiChunk checkChunkSize
  by_cases hlarge : settings.openaiApiLimitBytes < getsize path
  · rw [if_pos hlarge, decide_eq_true hlarge]
    rfl
  · rw [if_neg hlarge, decide_eq_false hlarge]
    cases transcribeSingleChunk client path withTimestamps with
    | error error => rfl
    | ok result => rfl

lemma openaiChunk_of_segments {client : OpenAiClient τ} {path : String} {report : List (TimedText τ)}
    (hsize : (getsize path : ℤ) ≤ settings.openaiApiLimitBytes) (hreport : client.segments path = .ok report)
    (chunkSeconds : ℤ) (i : ℕ) (acc : Accumulators τ) :
    openaiChunk settings getsize client true chunkSeconds i path acc =
      .ok { acc with fullSegments := acc.fullSegments ++ report.map (TimedText.shift (i * chunkSeconds)) } := by
  rw [openaiChunk, checkChunkSize, if_neg (not_lt.mpr hsize), transcribeSingleChunk, if_pos rfl, hreport]
  rfl

lemma openaiChunk_of_text {client : OpenAiClient τ} {path : String} {text : String}
    (hsize : (getsize path : ℤ) ≤ settings.openaiApiLimitBytes) (htext : client.text path = .ok text)
    (chunkSeconds : ℤ) (i : ℕ) (acc : Accumulators τ) :
    openaiChunk settings getsize client false chunkSeconds i path acc =
      .ok { acc with fullText := acc.fullText ++ [text] } := by
  rw [openaiChunk, checkChunkSize, if_neg (not_lt.mpr hsize), transcribeSingleChunk, if_neg Bool.false_ne_true, htext]
  rfl

lemma openaiTranscript_chunked (chunker : AudioChunker) (client : OpenAiClient τ) (withTimestamps : Bool)
    {chunkSeconds : ℤ}
    (hsize : settings.openaiApiLimitBytes ≤ getsize audio) (hseconds : deriveChunkSeconds settings = .ok chunkSeconds) :
    openaiTranscript settings chunker getsize client audio withTimestamps =
      ((overAudio settings chunker audio chunkSeconds
          (openaiChunk settings getsize client withTimestamps chunkSeconds) {}).processed,
        (overAudio settings chunker audio chunkSeconds
          (openaiChunk settings getsize client withTimestamps chunkSeconds) {}).outcome withTimestamps) := by
  rw [openaiTranscript, if_neg (not_lt.mpr hsize), hseconds]

lemma openaiInOrder_iff (client : OpenAiClient τ) (withTimestamps : Bool) {chunkSeconds : ℤ}
    (hsize : settings.openaiApiLimitBytes ≤ getsize audio) (hseconds : deriveChunkSeconds settings = .ok chunkSeconds)
    (hcuts : chunker.Cuts audio chunkSeconds count) :
    OpenAiInOrder settings chunker getsize client audio withTimestamps chunkSeconds count ↔
      InReach chunker (openaiFails settings getsize client withTimestamps) count := by
  have hrun := openaiTranscript_chunked chunker client withTimestamps hsize hseconds
  have hfails : ∀ i path acc, openaiFails settings getsize client withTimestamps path =
      !(openaiChunk settings getsize client withTimestamps chunkSeconds i path acc).isOk :=
    openaiFails_eq client withTimestamps chunkSeconds
  have hiff := overAudio_processed_iff settings hcuts hfails {}
  constructor
  · intro h
    have hprocessed := h.processed
    rw [hrun] at hprocessed
    exact hiff.mp hprocessed
  · intro hreach
    refine ⟨?_, fun htimestamps reports hreports => ?_, fun htimestamps texts htexts => ?_⟩
    · rw [hrun]
      exact hiff.mpr hreach
    · subst htimestamps
      rw [hrun]
      exact outcome_of_segments hcuts hfails hreach fun j hj acc =>
        openaiChunk_of_segments (hreports j hj).1 (hreports j hj).2 chunkSeconds j acc
    · subst htimestamps
      rw [hrun]
      exact outcome_of_texts hcuts hfails hreach fun j hj acc =>
        openaiChunk_of_text (htexts j hj).1 (htexts j hj).2 chunkSeconds j acc

end OpenAi

/-! ### Hugging Face -/

section HuggingFace

variable (τ : Type*) [IntCast τ] {settings : TranscriptionSettings} {chunker : AudioChunker} {audio : String}
  {count : ℕ}

lemma hfFails_eq (client : InferenceClient) (withTimestamps : Bool) (chunkSeconds : ℤ) (i : ℕ) (path : String)
    (acc : Accumulators τ) :
    hfFails client path = !(hfChunk client withTimestamps chunkSeconds i path acc).isOk := by
  unfold hfFails hfChunk
  cases client.automaticSpeechRecognition path with
  | error failure => rfl
  | ok text => cases withTimestamps <;> rfl

lemma hfChunk_of_timestamps {client : InferenceClient} {path text : String}
    (htext : client.automaticSpeechRecognition path = .ok text) (chunkSeconds : ℤ) (i : ℕ) (acc : Accumulators τ) :
    hfChunk client true chunkSeconds i path acc = .ok { acc with fullSegments := acc.fullSegments ++
      [⟨text, ((i * chunkSeconds : ℤ) : τ), (((i + 1) * chunkSeconds : ℤ) : τ)⟩] } := by
  rw [hfChunk, htext]
  rfl

lemma hfChunk_of_text {client : InferenceClient} {path text : String}
    (htext : client.automaticSpeechRecognition path = .ok text) (chunkSeconds : ℤ) (i : ℕ) (acc : Accumulators τ) :
    hfChunk client false chunkSeconds i path acc = .ok { acc with fullText := acc.fullText ++ [text] } := by
  rw [hfChunk, htext]
  rfl

lemma hfTranscript_eq (settings : TranscriptionSettings) (chunker : AudioChunker) (audio : String)
    {hfToken : Option String} (htoken : hfToken.getD "" ≠ "")
    (client : InferenceClient) (withTimestamps : Bool) :
    hfTranscript (τ := τ) settings chunker hfToken client audio withTimestamps =
      ((overAudio settings chunker audio settings.hfChunkLengthSeconds
          (hfChunk (τ := τ) client withTimestamps settings.hfChunkLengthSeconds) {}).processed,
        (overAudio settings chunker audio settings.hfChunkLengthSeconds
          (hfChunk (τ := τ) client withTimestamps settings.hfChunkLengthSeconds) {}).outcome withTimestamps) := by
  rw [hfTranscript, if_neg htoken]

lemma hfInOrder_iff {hfToken : Option String} (htoken : hfToken.getD "" ≠ "")
    (client : InferenceClient) (withTimestamps : Bool)
    (hcuts : chunker.Cuts audio settings.hfChunkLengthSeconds count) :
    HfInOrder settings chunker τ hfToken client audio withTimestamps count ↔
      InReach chunker (hfFails client) count := by
  have hrun := hfTranscript_eq τ settings chunker audio htoken client withTimestamps
  have hfails : ∀ i path (acc : Accumulators τ), hfFails client path =
      !(hfChunk client withTimestamps settings.hfChunkLengthSeconds i path acc).isOk :=
    hfFails_eq τ client withTimestamps settings.hfChunkLengthSeconds
  have hiff := overAudio_processed_iff settings hcuts hfails {}
  constructor
  · intro h
    have hprocessed := h.processed
    rw [hrun] at hprocessed
    exact hiff.mp hprocessed
  · intro hreach
    refine ⟨?_, fun htimestamps texts htexts => ?_, fun htimestamps texts htexts => ?_⟩
    · rw [hrun]
      exact hiff.mpr hreach
    · subst htimestamps
      rw [hrun, List.map_eq_flatMap]
      exact outcome_of_segments hcuts hfails hreach fun j hj acc =>
        hfChunk_of_timestamps τ (htexts j hj) _ j acc
    · subst htimestamps
      rw [hrun]
      exact outcome_of_texts hcuts hfails hreach fun j hj acc => hfChunk_of_text τ (htexts j hj) _ j acc

end HuggingFace

/-! ### The local model -/

section Local

variable {τ : Type*} [Add τ] [IntCast τ] {settings : TranscriptionSettings} {chunker : AudioChunker} {audio : String}
  {count : ℕ}

lemma localFails_eq (model : WhisperModel τ) (chunkSeconds : ℤ) (i : ℕ) (path : String)
    (yielded : List (TimedText τ)) : localFails model path = !(localChunk model chunkSeconds i path yielded).isOk := by
  unfold localFails localChunk transcribeChunkSync
  cases model.transcribe path with
  | error error => rfl
  | ok report => rfl

lemma localChunk_of_report {model : WhisperModel τ} {path : String} {report : List (TimedText τ)}
    (hreport : model.transcribe path = .ok report) (chunkSeconds : ℤ) (i : ℕ) (yielded : List (TimedText τ)) :
    localChunk model chunkSeconds i path yielded = .ok (yielded ++ report.map fun segment =>
      { segment.shift (i * chunkSeconds) with text := strip segment.text }) := by
  rw [localChunk, transcribeChunkSync, hreport]
  rfl

lemma localInOrder_iff (model : WhisperModel τ) (hcuts : chunker.Cuts audio (settings.chunkLengthMinutes * 60) count) :
    LocalInOrder settings chunker model audio count ↔ InReach chunker (localFails model) count := by
  have hfails : ∀ i path (yielded : List (TimedText τ)), localFails model path =
      !(localChunk model (settings.chunkLengthMinutes * 60) i path yielded).isOk :=
    localFails_eq model (settings.chunkLengthMinutes * 60)
  have hiff := overAudio_processed_iff settings hcuts hfails []
  constructor
  · intro h
    exact hiff.mp h.processed
  · intro hreach
    have hsegments : ∀ k ≤ count, ∀ reports : ℕ → List (TimedText τ),
        (∀ i < k, model.transcribe (piecePath chunker i) = .ok (reports i)) →
        (k = count ∨ localFails model (piecePath chunker k) = true) →
        (localSpeechTranscriptionStream settings chunker model audio).state =
          (List.range k).flatMap fun i => (reports i).map fun segment =>
            { segment.shift (i * (settings.chunkLengthMinutes * 60)) with text := strip segment.text } := by
      intro k hk reports hreports hend
      have hstate := overAudio_state settings hcuts hfails hreach hk
        (fun j hj yielded => localChunk_of_report (hreports j hj) _ j yielded) hend []
      rw [foldl_yielded, List.nil_append] at hstate
      exact hstate.1
    refine ⟨hiff.mpr hreach, hsegments, fun k hk reports hreports hend => ?_⟩
    rw [hsegments k hk reports hreports hend, buildTranscriptText, List.map_flatMap]
    simp only [List.map_map]
    rfl

end Local

/-- Each backend works in the order of time exactly when its audio has at most 100000 pieces, or when it fails at
one of the first 10001. -/
theorem transcripts_inOrder_iff {τ : Type*} [Add τ] [IntCast τ] (settings : TranscriptionSettings)
    (chunker : AudioChunker) (getsize : String → ℕ) (audio : String) (withTimestamps : Bool)
    (openAi : OpenAiClient τ) (hfToken : Option String) (hf : InferenceClient) (whisper : WhisperModel τ)
    {chunkSeconds : ℤ} {openAiCount hfCount localCount : ℕ}
    (hsize : settings.openaiApiLimitBytes ≤ getsize audio) (hseconds : deriveChunkSeconds settings = .ok chunkSeconds)
    (htoken : hfToken.getD "" ≠ "") (hopenAi : chunker.Cuts audio chunkSeconds openAiCount)
    (hhf : chunker.Cuts audio settings.hfChunkLengthSeconds hfCount)
    (hlocal : chunker.Cuts audio (settings.chunkLengthMinutes * 60) localCount) :
    (OpenAiInOrder settings chunker getsize openAi audio withTimestamps chunkSeconds openAiCount ↔
      InReach chunker (openaiFails settings getsize openAi withTimestamps) openAiCount) ∧
    (HfInOrder settings chunker τ hfToken hf audio withTimestamps hfCount ↔ InReach chunker (hfFails hf) hfCount) ∧
    (LocalInOrder settings chunker whisper audio localCount ↔ InReach chunker (localFails whisper) localCount) :=
  ⟨openaiInOrder_iff openAi withTimestamps hsize hseconds hopenAi,
    hfInOrder_iff τ htoken hf withTimestamps hhf, localInOrder_iff whisper hlocal⟩

/-! ### Many pieces -/

/-- Every audio becomes so many pieces. -/
def evenChunker (count : ℕ) : AudioChunker where
  workDir := "/tmp/audioscribe_chunks"
  segment _ _ := .ok ((List.range count).map chunkName)

lemma evenChunker_cuts {count : ℕ} (h : 0 < count) (audio : String) (chunkSeconds : ℤ) :
    (evenChunker count).Cuts audio chunkSeconds count :=
  ⟨h, _, rfl, .refl _⟩

/-- Models that hear the same two words in every piece. -/
def twoWords : List (TimedText ℚ) := [⟨" hello", 0, 1 / 2⟩, ⟨" again", 1, 3 / 2⟩]

def parrotOpenAi : OpenAiClient ℚ := ⟨fun _ => .ok twoWords, fun _ => .ok "hello again"⟩

def parrotHf : InferenceClient := ⟨fun _ => .ok "hello again"⟩

def parrotWhisper : WhisperModel ℚ := ⟨fun _ => .ok twoWords⟩

/-- Files of the size of the limit. -/
def limitSize (_ : String) : ℕ := 23592960

lemma derived_shipped : deriveChunkSeconds {} = .ok 20 := by decide +kernel

theorem twoPieces_inOrder :
    OpenAiInOrder {} (evenChunker 2) limitSize parrotOpenAi "/tmp/a.wav" true 20 2 ∧
      HfInOrder {} (evenChunker 2) ℚ (some "token") parrotHf "/tmp/a.wav" true 2 ∧
      LocalInOrder {} (evenChunker 2) parrotWhisper "/tmp/a.wav" 2 := by
  have hcuts := evenChunker_cuts Nat.two_pos "/tmp/a.wav"
  obtain ⟨hopenAi, hhf, hlocal⟩ := transcripts_inOrder_iff {} (evenChunker 2) limitSize "/tmp/a.wav" true
    parrotOpenAi (some "token") parrotHf parrotWhisper (by decide) derived_shipped (by decide) (hcuts 20) (hcuts _)
    (hcuts _)
  exact ⟨hopenAi.mpr (.inl (by decide)), hhf.mpr (.inl (by decide)), hlocal.mpr (.inl (by decide))⟩

lemma not_inReach {chunker : AudioChunker} {fails : String → Bool} (hfails : ∀ path, fails path = false) :
    ¬InReach chunker fails 100001 := by
  rintro (hcount | ⟨i, -, hi⟩)
  · omega
  · rw [hfails] at hi
    cases hi

/-- With 100001 pieces, no backend works in the order of time. -/
theorem manyPieces_not_inOrder :
    ¬OpenAiInOrder {} (evenChunker 100001) limitSize parrotOpenAi "/tmp/a.wav" false 20 100001 ∧
      ¬HfInOrder {} (evenChunker 100001) ℚ (some "token") parrotHf "/tmp/a.wav" false 100001 ∧
      ¬LocalInOrder {} (evenChunker 100001) parrotWhisper "/tmp/a.wav" 100001 := by
  have hcuts := evenChunker_cuts (Nat.succ_pos 100000) "/tmp/a.wav"
  refine ⟨?_, ?_, ?_⟩
  · rw [openaiInOrder_iff parrotOpenAi false (by decide) derived_shipped (hcuts 20)]
    exact not_inReach fun path => rfl
  · rw [hfInOrder_iff ℚ (by decide) parrotHf false (hcuts 20)]
    exact not_inReach fun path => rfl
  · rw [localInOrder_iff parrotWhisper (hcuts _)]
    exact not_inReach fun path => rfl

end AscendAI.AudioScribe
