import AscendAI.AudioScribe.FileConsistency

/-!
# Served transcripts

When the path that `get_transcript_path` returns belongs to a registered id with its file, and that an id
within its time to live is always served.
-/

namespace AscendAI.AudioScribe
open Runs

/-- The id is registered with this path, and the file has the content that was stored for it. -/
def TranscriptDisk.Live (d : TranscriptDisk) (fileId filePath : String) : Prop :=
  ∃ r ∈ d.stored, r.fileId = fileId ∧ r.filePath = filePath ∧
    d.registry.lookup fileId = some ⟨filePath, r.createdAt⟩ ∧ d.files filePath = some r.content

/-- A lookup that returns now returns a live path. -/
def ReturnsLive (s : FilePool) : Prop :=
  ∀ fileId filePath, FileCall.returning fileId filePath ∈ s.procs → s.shared.Live fileId filePath

/-- The step takes the registered entry of an id away. -/
def FileCall.Drops (m : FileManager) (d : TranscriptDisk) (fileId : String) : FileCall → Prop
  | .removeEntry fileId' _ => fileId' = fileId ∧ d.registry.lookup fileId ≠ none
  | .removeTranscript fileId' => fileId' = fileId ∧ d.registry.lookup fileId ≠ none
  | .sweep now => fileId ∈ expiredIds m d.registry now
  | _ => False

/-- No entry is taken away between the existence test of a lookup and its return, and no file is found by
the test when its entry is already gone. -/
def Undisturbed (m : FileManager) (s : FilePool) : FileEvent → Prop
  | .step i => ∀ c, s.procs[i]? = some c →
    (∀ fileId filePath, c.Drops m s.shared fileId → FileCall.returning fileId filePath ∉ s.procs) ∧
    ∀ fileId filePath, c = .testExists fileId filePath → (s.shared.files filePath).isSome →
      s.shared.registry.lookup fileId ≠ none
  | _ => True

variable {m : FileManager}

section Returns

lemma advance_lookup_of_drops {d : TranscriptDisk} {c : FileCall} {fileId : String} (h : c.Drops m d fileId) :
    (advance m d c).shared.registry.lookup fileId = none := by
  cases c with
  | removeEntry fileId' filePath =>
    obtain ⟨rfl, -⟩ := h
    exact AList.lookup_erase ..
  | removeTranscript fileId' =>
    obtain ⟨rfl, -⟩ := h
    exact AList.lookup_erase ..
  | sweep now =>
    simp only [advance, lookup_popAll]
    exact if_pos h
  | _ => exact h.elim

lemma advance_lookup_of_not_drops {d : TranscriptDisk} {c : FileCall} {fileId : String}
    (h : ¬c.Drops m d fileId) (hpending : fileId ∉ c.pendingIds) :
    (advance m d c).shared.registry.lookup fileId = d.registry.lookup fileId := by
  have herase : ∀ fileId', ¬(fileId' = fileId ∧ d.registry.lookup fileId ≠ none) →
      (d.registry.erase fileId').lookup fileId = d.registry.lookup fileId := by
    intro fileId' hkept
    by_cases heq : fileId = fileId'
    · subst heq
      have hnone : d.registry.lookup fileId = none := by
        by_contra hne
        exact hkept ⟨rfl, hne⟩
      rw [hnone]
      exact AList.lookup_erase ..
    · exact AList.lookup_erase_ne heq
  cases c with
  | register fileId' filePath content =>
    have hne : fileId ≠ fileId' := fun heq => hpending (heq ▸ List.mem_singleton_self fileId)
    exact AList.lookup_insert_ne hne
  | removeEntry fileId' filePath => exact herase fileId' h
  | removeTranscript fileId' => exact herase fileId' h
  | sweep now =>
    simp only [advance, lookup_popAll]
    exact if_neg h
  | getTranscriptPath fileId' =>
    simp only [advance]
    split <;> rfl
  | readClock fileId' entry =>
    simp only [advance]
    split <;> rfl
  | testExists fileId' filePath =>
    simp only [advance]
    split <;> rfl
  | cleanupFiles filePaths getOf =>
    cases filePaths with
    | nil => cases getOf <;> rfl
    | cons first filePaths => rfl
  | _ => rfl

lemma advance_next_eq_returning {d : TranscriptDisk} {c : FileCall} {fileId filePath : String} :
    (advance m d c).next = .returning fileId filePath ↔
      c = .testExists fileId filePath ∧ (d.files filePath).isSome := by
  cases c with
  | testExists fileId' filePath' =>
    by_cases hexists : (d.files filePath').isSome
    · simp only [advance, if_pos hexists, FileCall.returning.injEq, FileCall.testExists.injEq]
      constructor
      · rintro ⟨rfl, rfl⟩
        exact ⟨⟨rfl, rfl⟩, hexists⟩
      · exact And.left
    · simp only [advance, if_neg hexists, FileCall.testExists.injEq]
      constructor
      · intro h
        cases h
      · rintro ⟨⟨rfl, rfl⟩, hexists'⟩
        exact absurd hexists' hexists
  | getTranscriptPath fileId' => cases hlookup : d.registry.lookup fileId' <;> simp [advance, hlookup]
  | readClock fileId' entry =>
    by_cases hexpired : d.now - entry.createdAt > m.downloadFileTtlSeconds <;> simp [advance, hexpired]
  | cleanupFiles filePaths getOf =>
    cases filePaths with
    | nil => cases getOf <;> simp [advance]
    | cons first filePaths => simp [advance]
  | _ => simp [advance]

lemma advance_shared_of_testExists {d : TranscriptDisk} {fileId filePath : String} :
    (advance m d (.testExists fileId filePath)).shared = d := by
  simp only [advance]
  split <;> rfl

variable {s : FilePool} (h : Consistent m s)
include h

/-- What a lookup returns is live as long as its id is registered. -/
lemma Consistent.live_iff {fileId filePath : String} (hstored : s.shared.HasStored fileId filePath) :
    s.shared.Live fileId filePath ↔ s.shared.registry.lookup fileId ≠ none := by
  obtain ⟨r, hr, rfl, rfl⟩ := hstored
  constructor
  · rintro ⟨r', -, -, -, hlookup, -⟩
    rw [hlookup]
    exact Option.some_ne_none _
  · intro hne
    obtain ⟨entry, hlookup⟩ := Option.ne_none_iff_exists'.mp hne
    obtain ⟨r', hr', hid, rfl, hfile⟩ := h.registered _ _ hlookup
    obtain rfl := h.eq_of_fileId hr' hr hid
    exact ⟨r', hr', rfl, rfl, hlookup, hfile⟩

lemma Consistent.returnsLive_iff : ReturnsLive s ↔ ∀ fileId filePath,
    FileCall.returning fileId filePath ∈ s.procs → s.shared.registry.lookup fileId ≠ none :=
  forall_congr' fun _ => forall_congr' fun _ => forall_congr' fun hc => h.live_iff (h.held _ hc)

lemma Consistent.notMem_pendingIds {c : FileCall} (hc : c ∈ s.procs) {fileId filePath : String}
    (hstored : s.shared.HasStored fileId filePath) : fileId ∉ c.pendingIds := by
  obtain ⟨r, hr, rfl, -⟩ := hstored
  intro hmem
  have hid : r.fileId ∈ s.procs.flatMap FileCall.pendingIds := List.mem_flatMap.mpr ⟨c, hc, hmem⟩
  exact (List.nodup_append.mp h.nodup).2.2 _ hid _ (List.mem_map_of_mem hr) rfl

/-- A step keeps what the lookups return live exactly when it is undisturbed. -/
lemma Consistent.returnsLive_step_iff (hlive : ReturnsLive s) {i : ℕ} {c : FileCall}
    (hi : s.procs[i]? = some c) : ReturnsLive (s.step (advance m) i) ↔ Undisturbed m s (.step i) := by
  have hc : c ∈ s.procs := List.mem_of_getElem? hi
  have hshared := ProcessPool.shared_step (advance m) hi
  rw [(h.step hi).returnsLive_iff]
  rw [h.returnsLive_iff] at hlive
  constructor
  · intro hafter c' hi'
    obtain rfl : c = c' := Option.some.inj (hi.symm.trans hi')
    constructor
    · intro fileId filePath hdrops hreturning
      obtain ⟨j, hj⟩ := List.getElem?_of_mem hreturning
      have hne : j ≠ i := by
        rintro rfl
        obtain rfl := Option.some.inj (hj.symm.trans hi)
        exact hdrops
      have hkept : (s.step (advance m) i).procs[j]? = some (.returning fileId filePath) :=
        ProcessPool.getElem?_step_of_ne hne hj
      have hstill := List.mem_of_getElem? hkept
      refine hafter fileId filePath hstill ?_
      rw [hshared]
      exact advance_lookup_of_drops hdrops
    · rintro fileId filePath rfl hexists
      have hnext : (s.step (advance m) i).procs[i]? = some (advance m s.shared (.testExists fileId filePath)).next :=
        ProcessPool.getElem?_step_self hi
      rw [advance_next_eq_returning.mpr ⟨rfl, hexists⟩] at hnext
      have hregistered := hafter fileId filePath (List.mem_of_getElem? hnext)
      rw [hshared, advance_shared_of_testExists] at hregistered
      exact hregistered
  · intro hguard
    obtain ⟨hdrops, htest⟩ := hguard c hi
    have hall : ∀ c' ∈ (s.step (advance m) i).procs, ∀ fileId filePath, c' = .returning fileId filePath →
        (advance m s.shared c).shared.registry.lookup fileId ≠ none := by
      refine ProcessPool.forall_step hi ?_ ?_ ?_
      · rintro c' hc' fileId filePath rfl
        rw [advance_lookup_of_not_drops (fun hd => hdrops fileId filePath hd hc')
          (h.notMem_pendingIds hc (h.held _ hc'))]
        exact hlive fileId filePath hc'
      · intro fileId filePath hnext
        obtain ⟨rfl, hexists⟩ := advance_next_eq_returning.mp hnext
        rw [advance_shared_of_testExists]
        exact htest fileId filePath rfl hexists
      · rw [advance_started]
        intro c' hc'
        cases hc'
    rw [hshared]
    exact fun fileId filePath hmem => hall _ hmem fileId filePath rfl

lemma Consistent.returnsLive_event_iff (hlive : ReturnsLive s) (e : FileEvent) :
    ReturnsLive (fileStep m s e) ↔ Undisturbed m s e := by
  cases e with
  | request r =>
    refine iff_of_true (fun fileId filePath hmem => ?_) trivial
    rcases List.mem_append.mp hmem with hmem | hmem
    · exact hlive fileId filePath hmem
    · cases r <;> cases List.mem_singleton.mp hmem
  | step i =>
    cases hi : s.procs[i]? with
    | none =>
      change ReturnsLive (s.step (advance m) i) ↔ _
      rw [ProcessPool.step_of_none hi]
      refine iff_of_true hlive fun c hc => ?_
      rw [hi] at hc
      cases hc
    | some c => exact h.returnsLive_step_iff hlive hi
  | clock t => exact iff_of_true hlive trivial

end Returns

section WithinTtl

/-- Nobody removes the id, and its entry is there as long as its time to live has not passed. -/
structure Kept (m : FileManager) (fileId : String) (s : FilePool) : Prop where
  notRemoved : FileCall.removeTranscript fileId ∉ s.procs
  registered : ∀ r ∈ s.shared.stored, r.fileId = fileId →
    s.shared.now - r.createdAt ≤ m.downloadFileTtlSeconds →
    s.shared.registry.lookup fileId = some ⟨r.filePath, r.createdAt⟩

lemma advance_now (d : TranscriptDisk) (c : FileCall) : (advance m d c).shared.now = d.now := by
  rcases advance_disk m d c with hsame | ⟨_, _, -, hdisk⟩ | ⟨_, _, _, -, hdisk⟩ | ⟨_, -, hdisk⟩ | ⟨_, _, _, -, hdisk⟩
  · rw [hsame]
  · rw [hdisk]
  · rw [hdisk]
  · rw [hdisk]
  · rw [hdisk]

lemma advance_next_ne_removeTranscript (d : TranscriptDisk) (c : FileCall) (fileId : String) :
    (advance m d c).next ≠ .removeTranscript fileId := by
  cases c with
  | getTranscriptPath fileId' => cases hlookup : d.registry.lookup fileId' <;> simp [advance, hlookup]
  | readClock fileId' entry =>
    by_cases hexpired : d.now - entry.createdAt > m.downloadFileTtlSeconds <;> simp [advance, hexpired]
  | testExists fileId' filePath =>
    by_cases hexists : (d.files filePath).isSome <;> simp [advance, hexists]
  | cleanupFiles filePaths getOf =>
    cases filePaths with
    | nil => cases getOf <;> simp [advance]
    | cons first filePaths => simp [advance]
  | _ => simp [advance]

/-- A new record is that of the transcript that the step registers, at the time of the step. -/
lemma registered_of_new {d : TranscriptDisk} {c : FileCall} {r : StoredTranscript}
    (hr : r ∈ (advance m d c).shared.stored) (hnew : r ∉ d.stored) :
    (advance m d c).shared.registry.lookup r.fileId = some ⟨r.filePath, r.createdAt⟩ := by
  rcases advance_disk m d c with hsame | ⟨_, _, -, hdisk⟩ | ⟨fileId, filePath, content, -, hdisk⟩ |
    ⟨_, -, hdisk⟩ | ⟨_, _, _, -, hdisk⟩
  · rw [hsame] at hr
    exact absurd hr hnew
  · rw [hdisk] at hr
    exact absurd hr hnew
  · rw [hdisk] at hr ⊢
    rcases List.mem_cons.mp hr with rfl | hr
    · exact AList.lookup_insert ..
    · exact absurd hr hnew
  · rw [hdisk] at hr
    exact absurd hr hnew
  · rw [hdisk] at hr
    exact absurd hr hnew

variable {s : FilePool} {fileId : String}

/-- Without `remove_transcript`, only what has expired is taken away. -/
lemma Consistent.not_drops (h : Consistent m s) (hkept : Kept m fileId s) {c : FileCall} (hc : c ∈ s.procs)
    {r : StoredTranscript} (hr : r ∈ s.shared.stored) (hid : r.fileId = fileId)
    (httl : s.shared.now - r.createdAt ≤ m.downloadFileTtlSeconds) : ¬c.Drops m s.shared fileId := by
  have hheld := h.held c hc
  cases c with
  | removeEntry fileId' filePath =>
    rintro ⟨rfl, hne⟩
    cases filePath with
    | none => exact hne hheld.2
    | some filePath =>
      obtain ⟨r', hr', hid', -, hexpired⟩ := hheld
      obtain rfl := h.eq_of_fileId hr hr' (hid.trans hid'.symm)
      exact absurd httl (not_le.mpr hexpired)
  | removeTranscript fileId' =>
    rintro ⟨rfl, -⟩
    exact hkept.notRemoved hc
  | sweep now =>
    intro hmem
    obtain ⟨entry, hlookup, hexpired⟩ := mem_expiredIds_iff.mp hmem
    obtain rfl := Option.some.inj ((hkept.registered r hr hid httl).symm.trans hlookup)
    have hnow : now ≤ s.shared.now := hheld
    simp only at hexpired
    linarith
  | _ => exact id

lemma Kept.step (h : Consistent m s) (hkept : Kept m fileId s) {i : ℕ} {c : FileCall}
    (hi : s.procs[i]? = some c) : Kept m fileId (s.step (advance m) i) := by
  have hc : c ∈ s.procs := List.mem_of_getElem? hi
  have hshared := ProcessPool.shared_step (advance m) hi
  constructor
  · have hall : ∀ c' ∈ (s.step (advance m) i).procs, c' ≠ .removeTranscript fileId := by
      refine ProcessPool.forall_step hi ?_ ?_ ?_
      · rintro c' hc' rfl
        exact hkept.notRemoved hc'
      · exact advance_next_ne_removeTranscript s.shared c fileId
      · rw [advance_started]
        intro c' hc'
        cases hc'
    exact fun hmem => hall _ hmem rfl
  · intro r hr hid httl
    rw [hshared] at hr httl ⊢
    rw [advance_now] at httl
    by_cases hold : r ∈ s.shared.stored
    · rw [advance_lookup_of_not_drops (h.not_drops hkept hc hold hid httl)
        (h.notMem_pendingIds hc ⟨r, hold, hid, rfl⟩)]
      exact hkept.registered r hold hid httl
    · rw [← hid]
      exact registered_of_new hr hold

lemma Kept.event (h : Consistent m s) (hkept : Kept m fileId s) {e : FileEvent}
    (he : e ≠ .request (.remove fileId)) : Kept m fileId (fileStep m s e) := by
  cases e with
  | request r =>
    refine ⟨fun hmem => ?_, hkept.registered⟩
    rcases List.mem_append.mp hmem with hmem | hmem
    · exact hkept.notRemoved hmem
    · cases r with
      | remove fileId' =>
        obtain rfl : fileId = fileId' := by simpa [FileRequest.call] using hmem
        exact he rfl
      | store _ _ => cases List.mem_singleton.mp hmem
      | get _ => cases List.mem_singleton.mp hmem
      | cleanup => cases List.mem_singleton.mp hmem
  | step i =>
    cases hi : s.procs[i]? with
    | none =>
      change Kept m fileId (s.step (advance m) i)
      rw [ProcessPool.step_of_none hi]
      exact hkept
    | some c => exact hkept.step h hi
  | clock t =>
    refine ⟨hkept.notRemoved, fun r hr hid httl => hkept.registered r hr hid ?_⟩
    have hnow : s.shared.now ≤ max s.shared.now t := le_max_left ..
    simp only [fileStep] at httl
    linarith

/-- A lookup of a stored transcript that goes well, by the number of its steps so far. -/
def getStage (r : StoredTranscript) : ℕ → FileCall
  | 0 => .getTranscriptPath r.fileId
  | 1 => .readClock r.fileId ⟨r.filePath, r.createdAt⟩
  | 2 => .testExists r.fileId r.filePath
  | 3 => .returning r.fileId r.filePath
  | _ => .getReturned r.fileId (some r.filePath)

lemma Consistent.advance_getStage (h : Consistent m s) {r : StoredTranscript} (hr : r ∈ s.shared.stored)
    (hkept : Kept m r.fileId s) (httl : s.shared.now - r.createdAt ≤ m.downloadFileTtlSeconds) (n : ℕ) :
    (advance m s.shared (getStage r n)).next = getStage r (n + 1) := by
  have hlookup := hkept.registered r hr rfl httl
  match n with
  | 0 => simp only [getStage, advance, hlookup]
  | 1 => simp only [getStage, advance, if_neg (not_lt.mpr httl)]
  | 2 =>
    obtain ⟨r', hr', hid, -, hfile⟩ := h.registered _ _ hlookup
    rw [h.eq_of_fileId hr' hr hid] at hfile
    have hexists : (s.shared.files r.filePath).isSome := by rw [hfile]; rfl
    simp only [getStage, advance, if_pos hexists]
  | 3 => rfl
  | n + 4 => rfl

/-- One event moves a lookup of an id within its time to live by its own steps only. -/
lemma Consistent.getStage_event (h : Consistent m s) {r : StoredTranscript} (hr : r ∈ s.shared.stored)
    (hkept : Kept m r.fileId s) (httl : s.shared.now - r.createdAt ≤ m.downloadFileTtlSeconds) {j n : ℕ}
    (hj : s.procs[j]? = some (getStage r n)) (e : FileEvent) :
    (fileStep m s e).procs[j]? = some (getStage r (n + if e = .step j then 1 else 0)) := by
  cases e with
  | request r' => exact ProcessPool.getElem?_start_of_some hj
  | step i =>
    by_cases hij : i = j
    · subst hij
      rw [if_pos rfl, ← h.advance_getStage hr hkept httl]
      exact ProcessPool.getElem?_step_self hj
    · rw [if_neg (by simpa using hij)]
      exact ProcessPool.getElem?_step_of_ne (Ne.symm hij) hj
  | clock t => exact hj

variable {files : String → Option String} {now : ℚ}

/-- The state after the events of a run from the start. -/
def reached (m : FileManager) (files : String → Option String) (now : ℚ) (events : List FileEvent) : FilePool :=
  run (fileStep m) (loadManager files now) events

lemma reached_concat (events : List FileEvent) (e : FileEvent) :
    reached m files now (events ++ [e]) = fileStep m (reached m files now events) e := by
  rw [reached, run_append]
  rfl

lemma now_le_event (s : FilePool) (e : FileEvent) : s.shared.now ≤ (fileStep m s e).shared.now := by
  cases e with
  | request r => exact le_rfl
  | step i =>
    change _ ≤ (s.step (advance m) i).shared.now
    cases hi : s.procs[i]? with
    | none => rw [ProcessPool.step_of_none hi]
    | some c => rw [ProcessPool.shared_step (advance m) hi, advance_now]
  | clock t => exact le_max_left ..

lemma stored_event (h : Consistent m s) {r : StoredTranscript} (hr : r ∈ s.shared.stored) (e : FileEvent) :
    r ∈ (fileStep m s e).shared.stored := by
  cases e with
  | request _ => exact hr
  | step i =>
    change r ∈ (s.step (advance m) i).shared.stored
    cases hi : s.procs[i]? with
    | none =>
      rw [ProcessPool.step_of_none hi]
      exact hr
    | some c =>
      rw [ProcessPool.shared_step (advance m) hi]
      exact (h.diskFrame (List.mem_of_getElem? hi)).stored r hr
  | clock t => exact hr

lemma kept_reached {events : List FileEvent} (h : .request (.remove fileId) ∉ events) :
    Kept m fileId (reached m files now events) := by
  induction events using List.reverseRecOn with
  | nil => exact ⟨List.not_mem_nil, fun r hr => absurd hr List.not_mem_nil⟩
  | append_singleton events e ih =>
    rw [List.mem_append, not_or, List.mem_singleton] at h
    rw [reached_concat]
    exact (ih h.1).event (consistent_run files now events) (Ne.symm h.2)

/-- The lookup of a stored transcript that nobody removes returns its path after its fourth step, if that
is within the time to live. -/
theorem getStage_reached {before after : List FileEvent} {r : StoredTranscript}
    (hr : r ∈ (reached m files now before).shared.stored)
    (hremove : .request (.remove r.fileId) ∉ before ++ .request (.get r.fileId) :: after)
    (httl : (reached m files now (before ++ .request (.get r.fileId) :: after)).shared.now - r.createdAt ≤
      m.downloadFileTtlSeconds) :
    r ∈ (reached m files now (before ++ .request (.get r.fileId) :: after)).shared.stored ∧
      (reached m files now (before ++ .request (.get r.fileId) :: after)).procs[
        (reached m files now before).procs.length]? =
      some (getStage r (after.count (.step (reached m files now before).procs.length))) := by
  induction after using List.reverseRecOn with
  | nil =>
    rw [reached_concat]
    exact ⟨hr, ProcessPool.getElem?_start_self _⟩
  | append_singleton after e ih =>
    rw [← List.cons_append, ← List.append_assoc] at hremove httl ⊢
    have hnot : .request (.remove r.fileId) ∉ before ++ .request (.get r.fileId) :: after :=
      fun hmem => hremove (List.mem_append_left _ hmem)
    rw [reached_concat] at httl ⊢
    have hearlier : (reached m files now (before ++ .request (.get r.fileId) :: after)).shared.now - r.createdAt ≤
        m.downloadFileTtlSeconds := by
      have hnow := now_le_event (m := m) (reached m files now (before ++ .request (.get r.fileId) :: after)) e
      linarith
    obtain ⟨hstored, hstage⟩ := ih hnot hearlier
    have hconsistent : Consistent m (reached m files now (before ++ .request (.get r.fileId) :: after)) :=
      consistent_run files now _
    refine ⟨stored_event hconsistent hstored e, ?_⟩
    have hevent := hconsistent.getStage_event hstored (kept_reached hnot) hearlier hstage e
    rw [List.count_append, List.count_singleton]
    simpa using hevent

end WithinTtl

/-- In every run, each lookup that returns in a state that is reached returns a live path exactly when every
event is undisturbed; and a lookup of a stored transcript that nobody removes is always served within the
time to live. -/
theorem transcripts_served_iff (m : FileManager) (files : String → Option String) (now : ℚ)
    (events : List FileEvent) :
    (Along (fileStep m) (fun s e => ReturnsLive (fileStep m s e)) (loadManager files now) events ↔
      Along (fileStep m) (Undisturbed m) (loadManager files now) events) ∧
    ∀ before after r, events = before ++ .request (.get r.fileId) :: after →
      r ∈ (reached m files now before).shared.stored → .request (.remove r.fileId) ∉ events →
      (reached m files now events).shared.now - r.createdAt ≤ m.downloadFileTtlSeconds →
      (reached m files now events).procs[(reached m files now before).procs.length]? =
        some (getStage r (after.count (.step (reached m files now before).procs.length))) := by
  constructor
  · have hstart : ReturnsLive (loadManager files now) := fun _ _ hmem => absurd hmem List.not_mem_nil
    exact along_invariant_iff (fun _ e h => h.event e) (fun _ e h hlive => h.returnsLive_event_iff hlive e)
      ⟨consistent_loadManager files now, hstart⟩ events
  · rintro before after r rfl hr hremove httl
    exact (getStage_reached hr hremove httl).2

/-- A manager with the shipped time to live, whose ids are a, aa, aaa and so on. -/
def shippedManager : FileManager where
  downloadFileTtlSeconds := 300
  tempDirectory := "/tmp"
  uuid4 n := String.ofList (List.replicate (n + 1) 'a')
  uuid4_injective n n' heq := by
    have hlength := congrArg (fun s => s.toList.length) heq
    simpa using hlength
  underscore_notMem_uuid4 n := by simp

/-- A lookup passes its existence test just before the time to live is over, and the sweep takes the entry
and the file away before the lookup returns. -/
def sweptRun : List FileEvent :=
  [.request (.store "transcript" "t.md"), .step 0, .step 0, .request (.get "a"), .step 1, .step 1, .step 1,
    .clock 301, .request .cleanup, .step 2, .step 2, .step 2]

theorem swept_before_return :
    (reached shippedManager (fun _ => none) 0 (sweptRun ++ [.step 1])).procs[1]? =
        some (.getReturned "a" (some "/tmp/audioscribe_a_t.md")) ∧
      (reached shippedManager (fun _ => none) 0 (sweptRun ++ [.step 1])).shared.registry.lookup "a" = none ∧
      (reached shippedManager (fun _ => none) 0 (sweptRun ++ [.step 1])).shared.files
        "/tmp/audioscribe_a_t.md" = none ∧
      ¬Along (fileStep shippedManager) (fun s e => ReturnsLive (fileStep shippedManager s e))
        (loadManager (fun _ => none) 0) sweptRun := by
  refine ⟨by decide +kernel, by decide +kernel, by decide +kernel, fun h => ?_⟩
  obtain ⟨-, -, -, -, -, -, -, -, -, -, hswept, -⟩ := h
  have hmem : FileCall.returning "a" "/tmp/audioscribe_a_t.md" ∈
      (reached shippedManager (fun _ => none) 0 (sweptRun.take 11)).procs := by decide +kernel
  obtain ⟨r, -, -, -, hlookup, -⟩ := hswept _ _ hmem
  have hnone : (reached shippedManager (fun _ => none) 0 (sweptRun.take 11)).shared.registry.lookup "a" = none := by
    decide +kernel
  exact Option.some_ne_none _ (hlookup.symm.trans hnone)

end AscendAI.AudioScribe
