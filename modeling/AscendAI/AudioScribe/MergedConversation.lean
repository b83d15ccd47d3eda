import AscendAI.AudioScribe.ConversationMerger

/-!
# The merged conversation

However the tracks start and complete, the text is the chronological interleaving of their segments:
one line for each segment that says something, ordered by start, track and position, with the name of
its own track and the time of its start.
-/

namespace AscendAI.AudioScribe
open PythonString Runs

/-- A segment with its place: the number of its track, its position there, and the track's name. -/
structure Entry where
  track : ℕ
  position : ℕ
  name : String
  segment : Segment
  deriving DecidableEq

def Entry.spoken (e : Entry) : SpokenSegment := e.segment.tag e.name

def Entry.Spoken (e : Entry) : Prop := strip e.segment.text ≠ ""

instance (e : Entry) : Decidable e.Spoken := inferInstanceAs (Decidable (_ ≠ _))

/-- The order of the tracks, and of the segments within a track. -/
def Entry.Earlier (a b : Entry) : Prop := a.track < b.track ∨ a.track = b.track ∧ a.position < b.position

def Entry.Before (a b : Entry) : Prop :=
  a.segment.start < b.segment.start ∨ a.segment.start = b.segment.start ∧ a.Earlier b

/-- A tag of hours, minutes and seconds in decimal digits. -/
def DenotesTime (tag : String) (seconds : ℤ) : Prop :=
  ∃ hh mm ss : String, tag = "[" ++ hh ++ ":" ++ mm ++ ":" ++ ss ++ "]" ∧
    (∀ c ∈ hh.toList ++ mm.toList ++ ss.toList, c.isDigit) ∧ readDigits mm < 60 ∧ readDigits ss < 60 ∧
    ((3600 * readDigits hh + 60 * readDigits mm + readDigits ss : ℕ) : ℤ) = seconds

def Entry.Shows (e : Entry) (line : String) : Prop :=
  ∃ tag, DenotesTime tag ⌊e.segment.start⌋ ∧ line = tag ++ " [" ++ e.name ++ "] " ++ strip e.segment.text

def entriesOf (tracks : List Track) (segments : ℕ → List Segment) : List Entry :=
  tracks.zipIdx.flatMap fun p => (segments p.2).zipIdx.map fun q => ⟨p.2, q.2, p.1.name, q.1⟩

/-- The lines are, one for one and in chronological order, the segments that say something. -/
def Chronological (tracks : List Track) (segments : ℕ → List Segment) (lines : List String) : Prop :=
  ∃ order : List Entry, order.Perm ((entriesOf tracks segments).filter fun e => e.Spoken) ∧
    order.Pairwise Entry.Before ∧ List.Forall₂ Entry.Shows order lines

/-- A start that is not negative, and a text and a name without line breaks. -/
structure Entry.Plain (e : Entry) : Prop where
  start : 0 ≤ e.segment.start
  text : '\n' ∉ e.segment.text.toList
  name : '\n' ∉ e.name.toList

section Time

lemma floor_div (a : ℚ) (n : ℕ) : ⌊a / n⌋ = ⌊a⌋ / n := Int.floor_div_natCast a n

lemma floor_pyMod (a : ℚ) (n : ℕ) : ⌊pyMod a n⌋ = ⌊a⌋ % n := by
  have hcast : a - n * ⌊a / n⌋ = a - ((n * ⌊a / n⌋ : ℤ) : ℚ) := by push_cast; rfl
  rw [pyMod, hcast, Int.floor_sub_intCast, floor_div, Int.emod_def]

/-- For a time that is not negative, the fields of the tag are those of its whole seconds. -/
lemma formatElapsedTime_eq {seconds : ℚ} {n : ℕ} (hn : ⌊seconds⌋ = n) :
    formatElapsedTime seconds = "[" ++ format02d (n / 3600 : ℕ) ++ ":" ++ format02d (n % 3600 / 60 : ℕ) ++
      ":" ++ format02d (n % 60 : ℕ) ++ "]" := by
  have hhours : ⌊seconds / 3600⌋ = (n / 3600 : ℕ) := by
    have h := floor_div seconds 3600
    rw [hn] at h
    exact_mod_cast h
  have hminutes : ⌊pyMod seconds 3600 / 60⌋ = (n % 3600 / 60 : ℕ) := by
    have h := floor_div (pyMod seconds (3600 : ℕ)) 60
    rw [floor_pyMod, hn] at h
    exact_mod_cast h
  have hsecs : ⌊pyMod seconds 60⌋ = (n % 60 : ℕ) := by
    have h := floor_pyMod seconds 60
    rw [hn] at h
    exact_mod_cast h
  simp only [formatElapsedTime, hhours, hminutes, hsecs]

theorem denotesTime_formatElapsedTime {seconds : ℚ} (h : 0 ≤ seconds) :
    DenotesTime (formatElapsedTime seconds) ⌊seconds⌋ := by
  obtain ⟨n, hn⟩ := Int.eq_ofNat_of_zero_le (Int.floor_nonneg.mpr h)
  refine ⟨_, _, _, formatElapsedTime_eq hn, fun c hc => ?_, ?_, ?_, ?_⟩
  · rw [List.mem_append, List.mem_append] at hc
    rcases hc with (hc | hc) | hc
    · exact isDigit_of_mem_format02d hc
    · exact isDigit_of_mem_format02d hc
    · exact isDigit_of_mem_format02d hc
  · rw [readDigits_format02d]
    omega
  · rw [readDigits_format02d]
    omega
  · rw [readDigits_format02d, readDigits_format02d, readDigits_format02d, hn]
    omega

lemma lineBreak_notMem_of_denotesTime {tag : String} {seconds : ℤ} (h : DenotesTime tag seconds) :
    '\n' ∉ tag.toList := by
  obtain ⟨hh, mm, ss, rfl, hdigit, -⟩ := h
  have hnot : '\n' ∉ hh.toList ++ mm.toList ++ ss.toList := fun hc => absurd (hdigit _ hc) (by decide)
  simp only [List.mem_append, not_or] at hnot
  simp [String.toList_append, hnot.1.1, hnot.1.2, hnot.2]

end Time

section Merge

/-- The line that the merger writes for an entry with a text. -/
def Entry.line (e : Entry) : String :=
  formatElapsedTime e.segment.start ++ " " ++ ("[" ++ e.name ++ "]") ++ " " ++ strip e.segment.text

lemma resultLine_spoken (e : Entry) : resultLine e.spoken = if e.Spoken then some e.line else none := by
  have hline : e.Spoken → resultLine e.spoken = some e.line := fun h => if_neg h
  by_cases h : e.Spoken
  · rw [if_pos h, hline h]
  · rw [if_neg h]
    exact if_pos (not_not.mp h)

lemma filterMap_resultLine (order : List Entry) :
    (order.map Entry.spoken).filterMap resultLine = (order.filter fun e => e.Spoken).map Entry.line := by
  induction order with
  | nil => rfl
  | cons e order ih =>
    rw [List.map_cons]
    by_cases h : e.Spoken
    · have hsome : resultLine e.spoken = some e.line := by rw [resultLine_spoken, if_pos h]
      rw [List.filterMap_cons_some hsome, ih, List.filter_cons_of_pos (by simpa using h), List.map_cons]
    · have hnone : resultLine e.spoken = none := by rw [resultLine_spoken, if_neg h]
      rw [List.filterMap_cons_none hnone, ih, List.filter_cons_of_neg (by simpa using h)]

lemma shows_line {e : Entry} (he : e.Plain) : e.Shows e.line := by
  refine ⟨formatElapsedTime e.segment.start, denotesTime_formatElapsedTime he.start, ?_⟩
  simp [Entry.line, String.append_assoc, ← String.toList_inj, String.toList_append]

lemma line_ne_empty (e : Entry) : e.line ≠ "" := by
  simp [Entry.line, formatElapsedTime, ← String.toList_inj, String.toList_append]

lemma lineBreak_notMem_line {e : Entry} (he : e.Plain) : '\n' ∉ e.line.toList := by
  have htag := lineBreak_notMem_of_denotesTime (denotesTime_formatElapsedTime he.start)
  have htext : '\n' ∉ (strip e.segment.text).toList := fun hc => he.text (mem_of_mem_strip hc)
  simp [Entry.line, String.toList_append, htag, htext, he.name]

lemma pairwise_entriesOf (tracks : List Track) (segments : ℕ → List Segment) :
    (entriesOf tracks segments).Pairwise Entry.Earlier := by
  rw [entriesOf, List.pairwise_flatMap]
  constructor
  · intro p _
    rw [List.pairwise_map]
    apply (StableSort.pairwise_zipIdx _ 0).imp
    intro q q' hlt
    exact Or.inr ⟨rfl, hlt⟩
  · apply (StableSort.pairwise_zipIdx tracks 0).imp
    intro p p' hlt e he e' he'
    obtain ⟨q, -, rfl⟩ := List.mem_map.mp he
    obtain ⟨q', -, rfl⟩ := List.mem_map.mp he'
    exact Or.inl hlt

/-- What the calls return for the segments of their tracks. -/
def taggedOf (tracks : List Track) (segments : ℕ → List Segment) : List (List SpokenSegment) :=
  tracks.zipIdx.map fun p => (segments p.2).map (Segment.tag p.1.name)

lemma flatten_taggedOf (tracks : List Track) (segments : ℕ → List Segment) :
    (taggedOf tracks segments).flatten = (entriesOf tracks segments).map Entry.spoken := by
  rw [taggedOf, ← List.flatMap_def, entriesOf, List.map_flatMap]
  congr 1
  funext p
  have hfst : (segments p.2).zipIdx.map Prod.fst = segments p.2 := List.zipIdx_map_fst 0 _
  calc (segments p.2).map (Segment.tag p.1.name)
      = ((segments p.2).zipIdx.map Prod.fst).map (Segment.tag p.1.name) := by rw [hfst]
    _ = ((segments p.2).zipIdx.map fun q => (⟨p.2, q.2, p.1.name, q.1⟩ : Entry)).map Entry.spoken := by
      rw [List.map_map, List.map_map]
      rfl

/-- The entries in the order in which the merger writes them. -/
def chronicle (tracks : List Track) (segments : ℕ → List Segment) : List Entry :=
  (StableSort.sortBy (fun e : Entry => e.segment.start) (entriesOf tracks segments)).filter fun e => e.Spoken

lemma chronicle_perm (tracks : List Track) (segments : ℕ → List Segment) :
    (chronicle tracks segments).Perm ((entriesOf tracks segments).filter fun e => e.Spoken) :=
  (StableSort.sortBy_perm _ _).filter _

lemma pairwise_chronicle (tracks : List Track) (segments : ℕ → List Segment) :
    (chronicle tracks segments).Pairwise Entry.Before := by
  have hsorted := StableSort.pairwise_sortBy (fun e : Entry => e.segment.start) (pairwise_entriesOf tracks segments)
  exact hsorted.sublist List.filter_sublist

lemma mergeSegments_taggedOf (tracks : List Track) (segments : ℕ → List Segment) :
    mergeSegments (taggedOf tracks segments) = join "\n" ((chronicle tracks segments).map Entry.line) := by
  have hsort : StableSort.sortBy (fun s : SpokenSegment => s.start) (taggedOf tracks segments).flatten =
      (StableSort.sortBy (fun e : Entry => e.segment.start) (entriesOf tracks segments)).map Entry.spoken := by
    rw [flatten_taggedOf, ← StableSort.map_sortBy]
    rfl
  rw [mergeSegments, hsort, filterMap_resultLine, chronicle]

theorem chronological_mergeSegments {tracks : List Track} {segments : ℕ → List Segment}
    (hplain : ∀ e ∈ entriesOf tracks segments, e.Plain) :
    Chronological tracks segments (lines (mergeSegments (taggedOf tracks segments))) := by
  have hmem : ∀ e ∈ chronicle tracks segments, e.Plain := fun e he =>
    hplain e (List.mem_of_mem_filter ((chronicle_perm tracks segments).mem_iff.mp he))
  have hlines : lines (mergeSegments (taggedOf tracks segments)) = (chronicle tracks segments).map Entry.line := by
    rw [mergeSegments_taggedOf]
    apply lines_join
    · intro hempty
      obtain ⟨e, -, he⟩ := List.mem_map.mp hempty
      exact line_ne_empty e he
    · intro line hline
      obtain ⟨e, he, rfl⟩ := List.mem_map.mp hline
      exact lineBreak_notMem_line (hmem e he)
  refine ⟨chronicle tracks segments, chronicle_perm tracks segments, pairwise_chronicle tracks segments, ?_⟩
  rw [hlines, List.forall₂_map_right_iff, List.forall₂_same]
  intro e he
  exact shows_line (hmem e he)

end Merge

section Calls

variable {concurrency : ℕ} {backends : ℕ → Backends} {provider : String} {tracks : List Track}
  {segments : ℕ → List Segment}

/-- Every call is on its way to the segments of its track. -/
structure OnTrack (tracks : List Track) (segments : ℕ → List Segment) (s : Gather) : Prop where
  length : s.calls.length = tracks.length
  exception : s.exception = none
  call : ∀ i track (c : TrackCall), tracks[i]? = some track → s.calls[i]? = some c →
    c = .waiting ∨ c = .running ∨ c = .returned ((segments i).map (Segment.tag track.name))

lemma onTrack_startGather : OnTrack tracks segments (startGather tracks) where
  length := by simp [startGather]
  exception := rfl
  call := by
    intro i track c htrack hc
    rw [startGather, List.getElem?_map, htrack] at hc
    exact Or.inl (Option.some.inj hc).symm

lemma OnTrack.set {s : Gather} (h : OnTrack tracks segments s) {i : ℕ} {track : Track} {c : TrackCall}
    (htrack : tracks[i]? = some track)
    (hc : c = .running ∨ c = .returned ((segments i).map (Segment.tag track.name)))
    (progress : List TrackProgress) :
    OnTrack tracks segments { s with calls := s.calls.set i c, progress := progress } where
  length := by rw [List.length_set, h.length]
  exception := h.exception
  call := by
    intro j track' c' htrack' hc'
    by_cases hij : i = j
    · subst hij
      obtain rfl : track = track' := Option.some.inj (htrack.symm.trans htrack')
      have hi : i < s.calls.length := by
        rw [h.length]
        exact (List.getElem?_eq_some_iff.mp htrack).1
      rw [List.getElem?_set_self hi] at hc'
      obtain rfl := Option.some.inj hc'
      exact Or.inr hc
    · rw [List.getElem?_set_ne hij] at hc'
      exact h.call j track' c' htrack' hc'

lemma transcribeOneTrack_of_ok {b : Backends} {name wav : String} {l : List Segment}
    (h : segmentsOf b provider wav = .ok l) :
    transcribeOneTrack b provider name wav = .ok (l.map (Segment.tag name)) := by
  rw [transcribeOneTrack, h]
  rfl

lemma gatherStep_acquire {s : Gather} {i : ℕ} {track : Track} (htrack : tracks[i]? = some track)
    (hi : s.calls[i]? = some .waiting) (hfree : s.calls.countP TrackCall.isRunning < concurrency) :
    gatherStep concurrency backends provider tracks s (.acquire i) =
      { s with
        calls := s.calls.set i .running
        progress := s.progress ++ [.transcribing (i + 1) tracks.length track.name] } := by
  simp only [gatherStep, htrack, hi, acquire, if_pos hfree]

lemma gatherStep_complete {s : Gather} {i : ℕ} {track : Track} (htrack : tracks[i]? = some track)
    (hi : s.calls[i]? = some .running) {l : List Segment} (hl : segmentsOf (backends i) provider track.wav = .ok l) :
    gatherStep concurrency backends provider tracks s (.complete i) =
      { s with
        calls := s.calls.set i (.returned (l.map (Segment.tag track.name)))
        progress := s.progress ++
          [.complete (i + 1) tracks.length track.name (l.map (Segment.tag track.name)).length] } := by
  simp only [gatherStep, htrack, hi, complete, transcribeOneTrack_of_ok hl]

/-- What one event can do when the calls do not raise. -/
lemma gatherStep_cases (hsegments : ∀ i track, tracks[i]? = some track →
      segmentsOf (backends i) provider track.wav = .ok (segments i)) (s : Gather) (event : CallEvent) :
    gatherStep concurrency backends provider tracks s event = s ∨
      ∃ i track c progress, tracks[i]? = some track ∧
        (c = .running ∨ c = .returned ((segments i).map (Segment.tag track.name))) ∧
        gatherStep concurrency backends provider tracks s event =
          { s with calls := s.calls.set i c, progress := progress } := by
  cases event with
  | acquire i =>
    by_cases hcan : ∃ track, tracks[i]? = some track ∧ s.calls[i]? = some .waiting ∧
        s.calls.countP TrackCall.isRunning < concurrency
    · obtain ⟨track, htrack, hi, hfree⟩ := hcan
      exact Or.inr ⟨i, track, _, _, htrack, Or.inl rfl, gatherStep_acquire htrack hi hfree⟩
    · refine Or.inl ?_
      simp only [gatherStep]
      split
      · next track htrack hi =>
        rw [acquire, if_neg fun hfree => hcan ⟨track, htrack, hi, hfree⟩]
      · rfl
  | complete i =>
    by_cases hcan : ∃ track, tracks[i]? = some track ∧ s.calls[i]? = some .running
    · obtain ⟨track, htrack, hi⟩ := hcan
      exact Or.inr ⟨i, track, _, _, htrack, Or.inr rfl, gatherStep_complete htrack hi (hsegments i track htrack)⟩
    · refine Or.inl ?_
      simp only [gatherStep]
      split
      · next track htrack hi => exact absurd ⟨track, htrack, hi⟩ hcan
      · rfl

lemma OnTrack.step (hsegments : ∀ i track, tracks[i]? = some track →
      segmentsOf (backends i) provider track.wav = .ok (segments i)) {s : Gather} (h : OnTrack tracks segments s)
    (event : CallEvent) : OnTrack tracks segments (gatherStep concurrency backends provider tracks s event) := by
  rcases gatherStep_cases hsegments s event with hsame | ⟨i, track, c, progress, htrack, hc, hstep⟩
  · rw [hsame]
    exact h
  · rw [hstep]
    exact h.set htrack hc progress

/-- When nothing can move any more, every call has returned. -/
lemma OnTrack.returned_of_ended (hconcurrency : 0 < concurrency) (hsegments : ∀ i track, tracks[i]? = some track →
      segmentsOf (backends i) provider track.wav = .ok (segments i)) {s : Gather} (h : OnTrack tracks segments s)
    (hended : ∀ event, gatherStep concurrency backends provider tracks s event = s) {i : ℕ} {track : Track}
    (htrack : tracks[i]? = some track) :
    s.calls[i]? = some (TrackCall.returned ((segments i).map (Segment.tag track.name))) := by
  have hnotRunning : ∀ j : ℕ, s.calls[j]? ≠ some TrackCall.running := by
    intro j hj
    have hlt := (List.getElem?_eq_some_iff.mp hj).1
    obtain ⟨track', htrack'⟩ : ∃ track', tracks[j]? = some track' :=
      ⟨_, List.getElem?_eq_getElem (h.length ▸ hlt)⟩
    have hstep := (hended (.complete j)).symm.trans (gatherStep_complete htrack' hj (hsegments j track' htrack'))
    have hself := congrArg (fun s => s.calls[j]?) hstep
    simp only [List.getElem?_set_self hlt, hj] at hself
    cases hself
  obtain ⟨c, hc⟩ : ∃ c, s.calls[i]? = some c :=
    ⟨_, List.getElem?_eq_getElem (h.length ▸ (List.getElem?_eq_some_iff.mp htrack).1)⟩
  rcases h.call i track c htrack hc with rfl | rfl | rfl
  · have hidle : s.calls.countP TrackCall.isRunning = 0 := by
      rw [List.countP_eq_zero]
      intro c' hc' hrunning
      obtain ⟨j, hj⟩ := List.getElem?_of_mem hc'
      cases c' with
      | running => exact hnotRunning j hj
      | waiting => cases hrunning
      | returned _ => cases hrunning
      | raised => cases hrunning
    have hstep := (hended (.acquire i)).symm.trans (gatherStep_acquire htrack hc (hidle ▸ hconcurrency))
    have hself := congrArg (fun s => s.calls[i]?) hstep
    simp only [List.getElem?_set_self (List.getElem?_eq_some_iff.mp hc).1, hc] at hself
    cases hself
  · exact absurd hc (hnotRunning i)
  · exact hc

lemma result_of_returned {s : Gather} (h : OnTrack tracks segments s)
    (hall : ∀ i track, tracks[i]? = some track →
      s.calls[i]? = some (TrackCall.returned ((segments i).map (Segment.tag track.name)))) :
    s.result = some (.ok (taggedOf tracks segments)) := by
  have hcalls : s.calls = (taggedOf tracks segments).map .returned := by
    apply List.ext_getElem?
    intro i
    cases htrack : tracks[i]? with
    | none =>
      have hlen := List.getElem?_eq_none_iff.mp htrack
      rw [List.getElem?_eq_none_iff.mpr (h.length ▸ hlen)]
      simp [taggedOf, hlen]
    | some track => simp [taggedOf, htrack, hall i track htrack]
  have hmapM : s.calls.mapM TrackCall.segments? = some (taggedOf tracks segments) := by
    rw [hcalls, List.mapM_map]
    exact (List.mapM_pure (f := id)).trans (by simp)
  rw [Gather.result, h.exception, hmapM]
  rfl

/-- However the calls of the tracks take the semaphore and complete, the run that has come to its end
returns the chronological interleaving of their segments. -/
theorem merged_chronologically (hconcurrency : 0 < concurrency)
    (hsegments : ∀ i track, tracks[i]? = some track →
      segmentsOf (backends i) provider track.wav = .ok (segments i))
    (hplain : ∀ e ∈ entriesOf tracks segments, e.Plain) {events : List CallEvent}
    (hended : ∀ event, gatherStep concurrency backends provider tracks
        (run (gatherStep concurrency backends provider tracks) (startGather tracks) events) event =
      run (gatherStep concurrency backends provider tracks) (startGather tracks) events) :
    ∃ text, transcribeAndMergeTracks concurrency backends provider tracks events = some (.ok text) ∧
      Chronological tracks segments (lines text) := by
  have hon : OnTrack tracks segments
      (run (gatherStep concurrency backends provider tracks) (startGather tracks) events) :=
    run_invariant (fun s event h _ => h.step hsegments event) onTrack_startGather
      (along_of_forall (P := fun _ _ => True) (fun _ _ _ => trivial) _)
  have hresult := result_of_returned hon fun i track htrack =>
    hon.returned_of_ended hconcurrency hsegments hended htrack
  refine ⟨mergeSegments (taggedOf tracks segments), ?_, chronological_mergeSegments hplain⟩
  rw [transcribeAndMergeTracks, hresult]
  rfl

end Calls

def twoTracks : List Track := [⟨"alice", "alice.wav"⟩, ⟨"bob", "bob.wav"⟩]

/-- Both tracks begin at the same time, and one of bob's segments is blank. -/
def twoVoices : ℕ → List Segment
  | 0 => [⟨"Hello", 0, 1⟩, ⟨"Fine", 3723, 3724⟩]
  | 1 => [⟨" Hi ", 0, 1⟩, ⟨"  ", 2, 3⟩]
  | _ => []

def twoBackends (i : ℕ) : Backends where
  localSpeechTranscription _ := .ok (twoVoices i)
  openaiSpeechTranscription _ := .ok (.segments (twoVoices i))
  hfSpeechTranscription _ := .ok (.segments (twoVoices i))

/-- The second track starts and completes first. -/
def lastFirst : List CallEvent := [.acquire 1, .acquire 0, .complete 1, .complete 0]

theorem two_tracks_merged :
    ∃ text, transcribeAndMergeTracks (concurrencyOf "openai") twoBackends "openai" twoTracks lastFirst =
        some (.ok text) ∧ Chronological twoTracks twoVoices (lines text) := by
  apply merged_chronologically (concurrencyOf_pos "openai")
  · intro i track _
    rfl
  · intro e he
    simp only [entriesOf, twoTracks, twoVoices, List.zipIdx_cons, List.zipIdx_nil, List.flatMap_cons,
      List.flatMap_nil, List.map_cons, List.map_nil, List.cons_append, List.nil_append, List.append_nil,
      List.mem_cons, List.not_mem_nil, or_false] at he
    rcases he with rfl | rfl | rfl | rfl
    all_goals exact ⟨by norm_num, by decide, by decide⟩
  · intro event
    cases event with
    | acquire i =>
      rcases i with _ | _ | i
      all_goals rfl
    | complete i =>
      rcases i with _ | _ | i
      all_goals rfl

end AscendAI.AudioScribe
