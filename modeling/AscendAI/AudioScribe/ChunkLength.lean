import AscendAI.AudioScribe.ChunkedTranscription

/-!
# The length of the chunks for OpenAI

`_derive_chunk_seconds` takes its byte rate from the setting of another provider. The chunks are small enough
exactly when the byte target, divided by that rate, stays below the first length whose chunk is refused.
-/

namespace AscendAI.AudioScribe
open Binary64

/-- The bytes of a full chunk of so many seconds. -/
def fullChunk (seconds : ℤ) : ℤ := 32000 * seconds + 44

/-- The derived length lets every chunk pass, so that `openai_transcript` only fails where ffmpeg or the API
does. -/
structure NeverTooLarge (τ : Type*) [Add τ] [IntCast τ] (settings : TranscriptionSettings) : Prop where
  length : ∃ seconds, deriveChunkSeconds settings = .ok seconds ∧ 1 ≤ seconds ∧
    ∀ chunkSize chunkNum : ℕ, (chunkSize : ℤ) ≤ fullChunk seconds →
      checkChunkSize settings chunkSize chunkNum = .ok chunkSize
  transcript : ∀ (chunker : AudioChunker) (getsize : String → ℕ) (client : OpenAiClient τ) (audio : String)
    (withTimestamps : Bool),
    (∀ seconds chunks, deriveChunkSeconds settings = .ok seconds →
      chunkedAudio settings chunker audio seconds = .ok chunks →
      ∀ path ∈ chunks, (getsize path : ℤ) ≤ fullChunk seconds) →
    ∀ error, (openaiTranscript settings chunker getsize client audio withTimestamps).2 = .error error →
      (∃ seconds, chunkedAudio settings chunker audio seconds = .error error) ∨
        ∃ path, transcribeSingleChunk client path withTimestamps = .error error

/-- The byte rate that the settings give. -/
def byteRate (settings : TranscriptionSettings) : ℤ :=
  max (if 0 < settings.hfChunkLengthSeconds then settings.targetChunkSizeBytes / settings.hfChunkLengthSeconds
    else 32000) 16000

/-- The first length whose full chunk is above the limit. -/
def refusedSeconds (settings : TranscriptionSettings) : ℤ := (settings.openaiApiLimitBytes - 44) / 32000 + 1

/-- The byte target over the byte rate. -/
def targetQuotient (settings : TranscriptionSettings) : ℚ :=
  (settings.targetChunkSizeBytes : ℚ) / byteRate settings

section Length

variable {settings : TranscriptionSettings}

lemma byteRate_pos (settings : TranscriptionSettings) : 0 < byteRate settings :=
  lt_of_lt_of_le (by decide) (le_max_right _ _)

lemma byteRate_le (h : 32044 ≤ settings.targetChunkSizeBytes) : byteRate settings ≤ settings.targetChunkSizeBytes := by
  refine max_le ?_ (by omega)
  split_ifs with hpos
  · exact Int.ediv_le_self _ (by omega)
  · omega

lemma deriveChunkSeconds_eq (h : 0 ≤ settings.targetChunkSizeBytes) :
    deriveChunkSeconds settings =
      if Reaches (2 ^ 1024) (targetQuotient settings) then .error .overflowError
      else .ok (max (truncate (nearest (targetQuotient settings))) 1) := by
  have hderive : deriveChunkSeconds settings =
      (trueDiv settings.targetChunkSizeBytes (byteRate settings)).map fun seconds => max (truncate seconds) 1 := rfl
  rw [hderive, trueDiv_of_pos h (byteRate_pos settings), ← targetQuotient]
  split_ifs
  · rfl
  · rfl

lemma checkChunkSize_eq_ok_iff {chunkSize chunkNum : ℕ} :
    checkChunkSize settings chunkSize chunkNum = .ok chunkSize ↔ (chunkSize : ℤ) ≤ settings.openaiApiLimitBytes := by
  rw [checkChunkSize]
  split_ifs with hlarge
  · exact iff_of_false (by simp) (not_le.mpr hlarge)
  · exact iff_of_true rfl (not_lt.mp hlarge)

/-- Every chunk of a length passes exactly when the length is below the first one that is refused. -/
lemma fullChunk_le_iff {seconds : ℤ} (hseconds : 1 ≤ seconds) :
    (∀ chunkSize chunkNum : ℕ, (chunkSize : ℤ) ≤ fullChunk seconds →
      checkChunkSize settings chunkSize chunkNum = .ok chunkSize) ↔ seconds < refusedSeconds settings := by
  have hlimit : seconds < refusedSeconds settings ↔ fullChunk seconds ≤ settings.openaiApiLimitBytes := by
    rw [refusedSeconds, fullChunk]
    omega
  rw [hlimit]
  constructor
  · intro hpass
    have hfull : ((fullChunk seconds).toNat : ℤ) = fullChunk seconds := by
      rw [fullChunk]
      omega
    rw [← hfull]
    exact checkChunkSize_eq_ok_iff.mp (hpass _ 1 hfull.le)
  · intro hle chunkSize chunkNum hsize
    exact checkChunkSize_eq_ok_iff.mpr (hsize.trans hle)

end Length

/-! ### The loop over the chunks -/

section Transcript

variable {σ τ : Type*} [Add τ] [IntCast τ] {settings : TranscriptionSettings}

/-- The exception that ends a loop is one of its rounds. -/
lemma overChunks_error {chunk : ℕ → String → σ → Except TranscriptionError σ} {error : TranscriptionError}
    (i : ℕ) (processed : List String) (state : σ) (paths : List String)
    (h : (overChunks chunk i processed state paths).error = some error) :
    ∃ j, ∃ path ∈ paths, ∃ state, chunk j path state = .error error := by
  induction paths generalizing i processed state with
  | nil => cases h
  | cons path paths ih =>
    rw [overChunks] at h
    cases hchunk : chunk i path state with
    | error e =>
      rw [hchunk] at h
      obtain rfl := Option.some.inj h
      exact ⟨i, path, List.mem_cons_self, state, hchunk⟩
    | ok state' =>
      rw [hchunk] at h
      obtain ⟨j, path', hmem, state'', herror⟩ := ih _ _ _ h
      exact ⟨j, path', List.mem_cons_of_mem _ hmem, state'', herror⟩

lemma openaiChunk_error {getsize : String → ℕ} {client : OpenAiClient τ} {withTimestamps : Bool} {seconds : ℤ}
    {i : ℕ} {path : String} {acc : Accumulators τ} {error : TranscriptionError}
    (hsize : ∀ chunkNum, checkChunkSize settings (getsize path) chunkNum = .ok (getsize path))
    (h : openaiChunk settings getsize client withTimestamps seconds i path acc = .error error) :
    transcribeSingleChunk client path withTimestamps = .error error := by
  rw [openaiChunk, hsize] at h
  cases hcall : transcribeSingleChunk client path withTimestamps with
  | error e =>
    rw [hcall] at h
    obtain rfl := Except.error.inj h
    rfl
  | ok result =>
    rw [hcall] at h
    cases h

/-- Where every chunk passes, an exception comes from ffmpeg or from the API. -/
lemma openaiTranscript_error {seconds : ℤ} (hseconds : deriveChunkSeconds settings = .ok seconds)
    (hpass : ∀ chunkSize chunkNum : ℕ, (chunkSize : ℤ) ≤ fullChunk seconds →
      checkChunkSize settings chunkSize chunkNum = .ok chunkSize)
    {chunker : AudioChunker} {getsize : String → ℕ} {client : OpenAiClient τ} {audio : String} {withTimestamps : Bool}
    (hsizes : ∀ chunks, chunkedAudio settings chunker audio seconds = .ok chunks →
      ∀ path ∈ chunks, (getsize path : ℤ) ≤ fullChunk seconds) {error : TranscriptionError}
    (h : (openaiTranscript settings chunker getsize client audio withTimestamps).2 = .error error) :
    (∃ seconds, chunkedAudio settings chunker audio seconds = .error error) ∨
      ∃ path, transcribeSingleChunk client path withTimestamps = .error error := by
  rw [openaiTranscript] at h
  split_ifs at h with hsmall
  · exact .inr ⟨audio, h⟩
  rw [hseconds] at h
  cases hchunks : chunkedAudio settings chunker audio seconds with
  | error e =>
    simp only [overAudio, hchunks, ChunkRun.outcome] at h
    obtain rfl := Except.error.inj h
    exact .inl ⟨seconds, hchunks⟩
  | ok chunks =>
    simp only [overAudio, hchunks, ChunkRun.outcome] at h
    cases hrun : (overChunks (openaiChunk settings getsize client withTimestamps seconds) 0 [] {} chunks).error with
    | none =>
      rw [hrun] at h
      cases h
    | some e =>
      rw [hrun] at h
      obtain rfl := Except.error.inj h
      obtain ⟨i, path, hmem, acc, herror⟩ := overChunks_error _ _ _ _ hrun
      have hsize := hpass (getsize path)
      exact .inr ⟨path, openaiChunk_error (fun chunkNum => hsize chunkNum (hsizes chunks hchunks path hmem)) herror⟩

end Transcript

/-! ### When no chunk is too large -/

section Condition

variable (τ : Type*) [Add τ] [IntCast τ] {settings : TranscriptionSettings}

lemma neverTooLarge_iff_length : NeverTooLarge τ settings ↔ ∃ seconds, deriveChunkSeconds settings = .ok seconds ∧
    1 ≤ seconds ∧ seconds < refusedSeconds settings := by
  constructor
  · rintro ⟨⟨seconds, hderive, hone, hpass⟩, -⟩
    exact ⟨seconds, hderive, hone, (fullChunk_le_iff hone).mp hpass⟩
  · rintro ⟨seconds, hderive, hone, hlt⟩
    have hpass := (fullChunk_le_iff hone).mpr hlt
    refine ⟨⟨seconds, hderive, hone, hpass⟩, fun chunker getsize client audio withTimestamps hsizes error h => ?_⟩
    exact openaiTranscript_error hderive hpass (fun chunks => hsizes seconds chunks hderive) h

lemma neverTooLarge_iff_reaches (htarget : 32044 ≤ settings.targetChunkSizeBytes)
    (hlimit : settings.targetChunkSizeBytes + 44 ≤ settings.openaiApiLimitBytes) :
    NeverTooLarge τ settings ↔ ¬Reaches (2 ^ 1024) (targetQuotient settings) ∧
      ¬Reaches (refusedSeconds settings) (targetQuotient settings) := by
  have hquotient : 0 ≤ targetQuotient settings := by
    apply div_nonneg
    · exact_mod_cast (by omega : 0 ≤ settings.targetChunkSizeBytes)
    · exact_mod_cast (byteRate_pos settings).le
  have hsecond : 1 < refusedSeconds settings := by
    rw [refusedSeconds]
    omega
  rw [neverTooLarge_iff_length, deriveChunkSeconds_eq (by omega)]
  split_ifs with hoverflow
  · exact iff_of_false (by simp) fun h => h.1 hoverflow
  · rw [and_iff_right hoverflow, ← le_truncate_nearest_iff hquotient, not_le]
    constructor
    · rintro ⟨seconds, hseconds, -, hlt⟩
      rw [← Except.ok.inj hseconds] at hlt
      exact (le_max_left _ _).trans_lt hlt
    · intro hlt
      exact ⟨_, rfl, le_max_right _ _, max_lt hlt hsecond⟩

/-- With a byte target below `2 ^ 53` the quotient is as good as exact. -/
lemma neverTooLarge_iff_lt (htarget : 32044 ≤ settings.targetChunkSizeBytes)
    (hlimit : settings.targetChunkSizeBytes + 44 ≤ settings.openaiApiLimitBytes)
    (hsmall : settings.targetChunkSizeBytes < 2 ^ 53) :
    NeverTooLarge τ settings ↔ settings.targetChunkSizeBytes < byteRate settings * refusedSeconds settings := by
  have hrate := byteRate_pos settings
  have hreaches : ∀ n : ℤ,
      Reaches n (targetQuotient settings) ↔ byteRate settings * n ≤ settings.targetChunkSizeBytes := by
    intro n
    rw [← le_nearest_iff]
    exact intCast_le_nearest_div_iff hrate (byteRate_le htarget) hsmall
  have hnoOverflow : ¬Reaches (2 ^ 1024) (targetQuotient settings) := by
    have hpow := hreaches (2 ^ 1024)
    rw [Int.cast_pow, Int.cast_ofNat] at hpow
    rw [hpow, not_le]
    calc settings.targetChunkSizeBytes < 2 ^ 53 := hsmall
      _ ≤ 2 ^ 1024 := pow_le_pow_right₀ one_le_two (by omega)
      _ = 1 * 2 ^ 1024 := (one_mul _).symm
      _ ≤ byteRate settings * 2 ^ 1024 := mul_le_mul_of_nonneg_right hrate (by positivity)
  rw [neverTooLarge_iff_reaches τ htarget hlimit, hreaches, not_le, and_iff_right hnoOverflow]

end Condition

/-- No chunk is too large exactly when the quotient of byte target and byte rate, rounded to a float, neither
overflows nor reaches the first length that is refused; with a byte target below `2 ^ 53` the product of that
length and the byte rate is above the target. -/
theorem neverTooLarge_iff (τ : Type*) [Add τ] [IntCast τ] (settings : TranscriptionSettings)
    (htarget : 32044 ≤ settings.targetChunkSizeBytes)
    (hlimit : settings.targetChunkSizeBytes + 44 ≤ settings.openaiApiLimitBytes) :
    (NeverTooLarge τ settings ↔ ¬Reaches (2 ^ 1024) (targetQuotient settings) ∧
      ¬Reaches (refusedSeconds settings) (targetQuotient settings)) ∧
    (settings.targetChunkSizeBytes < 2 ^ 53 →
      (NeverTooLarge τ settings ↔ settings.targetChunkSizeBytes < byteRate settings * refusedSeconds settings)) :=
  ⟨neverTooLarge_iff_reaches τ htarget hlimit, neverTooLarge_iff_lt τ htarget hlimit⟩

/-- The shipped settings are good. -/
theorem neverTooLarge_shipped : NeverTooLarge ℚ {} := by
  have hiff := (neverTooLarge_iff ℚ {} (by decide) (by decide)).2 (by decide)
  exact hiff.mpr (by decide)

/-- Chunks of 2000 seconds for Hugging Face. -/
def longHfChunks : TranscriptionSettings := { hfChunkLengthSeconds := 2000 }

/-- They make chunks of 1310 seconds for OpenAI, twice the byte target. -/
theorem longHfChunks_tooLarge : ¬NeverTooLarge ℚ longHfChunks := by
  rw [neverTooLarge_iff_lt ℚ (by decide) (by decide) (by decide)]
  decide

end AscendAI.AudioScribe
