import Mathlib.Tactic.Linarith
import AscendAI.Lib.PythonString
import AscendAI.AudioScribe.DownloadFileManager

/-!
# The registry and the files

What the registry, the files and the operations on their way agree on in every state that can be
reached: a registered id has its file with its content, no id is given out twice, and an operation
deletes only files of ids that are no longer registered.
-/

namespace AscendAI.AudioScribe
open Runs

variable {m : FileManager}

section Paths

lemma eq_of_append_underscore {a a' b b' : List Char} (ha : '_' ∉ a) (ha' : '_' ∉ a')
    (h : a ++ '_' :: b = a' ++ '_' :: b') : a = a' := by
  rw [← PythonString.takeWhile_append_cons (b := b) ha, h, PythonString.takeWhile_append_cons ha']

/-- Files of different ids have different paths. -/
lemma filePath_ne {k k' : ℕ} (h : k ≠ k') (filename filename' : String) :
    m.filePath (m.uuid4 k) filename ≠ m.filePath (m.uuid4 k') filename' := by
  intro heq
  have hlist := congrArg String.toList heq
  simp only [FileManager.filePath, String.toList_append, List.append_assoc, List.append_cancel_left_eq] at hlist
  have hid := eq_of_append_underscore (m.underscore_notMem_uuid4 k) (m.underscore_notMem_uuid4 k') hlist
  exact h (m.uuid4_injective (String.toList_inj.mp hid))

end Paths

/-- The id of a transcript that is written and not registered yet. -/
def FileCall.pendingIds : FileCall → List String
  | .register fileId _ _ => [fileId]
  | _ => []

/-- The ids that were given out, each to one transcript. -/
def FilePool.ids (s : FilePool) : List String :=
  s.procs.flatMap FileCall.pendingIds ++ s.shared.stored.map StoredTranscript.fileId

/-- A transcript of this id and this path was stored. -/
def TranscriptDisk.HasStored (d : TranscriptDisk) (fileId filePath : String) : Prop :=
  ∃ r ∈ d.stored, r.fileId = fileId ∧ r.filePath = filePath

/-- What an operation on its way holds is true of the disk. -/
def FileCall.Held (m : FileManager) (d : TranscriptDisk) : FileCall → Prop
  | .register fileId filePath content =>
    d.files filePath = some content ∧ ∃ filename, filePath = m.filePath fileId filename
  | .readClock fileId entry => ∃ r ∈ d.stored, r.fileId = fileId ∧ entry = ⟨r.filePath, r.createdAt⟩
  | .testExists fileId filePath => d.HasStored fileId filePath
  | .returning fileId filePath => d.HasStored fileId filePath
  | .removeEntry fileId (some filePath) => ∃ r ∈ d.stored, r.fileId = fileId ∧ r.filePath = filePath ∧
      d.now - r.createdAt > m.downloadFileTtlSeconds
  | .removeEntry fileId none => (∃ r ∈ d.stored, r.fileId = fileId) ∧ d.registry.lookup fileId = none
  | .sweep now => now ≤ d.now
  | .cleanupFiles filePaths _ => ∀ filePath ∈ filePaths, ∃ r ∈ d.stored, r.filePath = filePath ∧
      d.registry.lookup r.fileId = none
  | _ => True

/-- What every reachable state keeps. -/
structure Consistent (m : FileManager) (s : FilePool) : Prop where
  nodup : (FilePool.ids s).Nodup
  issued : ∀ fileId ∈ FilePool.ids s, ∃ k < s.shared.issued, fileId = m.uuid4 k
  path : ∀ r ∈ s.shared.stored, ∃ filename, r.filePath = m.filePath r.fileId filename
  past : ∀ r ∈ s.shared.stored, r.createdAt ≤ s.shared.now
  registered : ∀ fileId entry, s.shared.registry.lookup fileId = some entry →
    ∃ r ∈ s.shared.stored, r.fileId = fileId ∧ entry = ⟨r.filePath, r.createdAt⟩ ∧
      s.shared.files r.filePath = some r.content
  held : ∀ c ∈ s.procs, c.Held m s.shared

lemma consistent_loadManager (files : String → Option String) (now : ℚ) :
    Consistent m (loadManager files now) where
  nodup := List.nodup_nil
  issued := by intro fileId h; cases h
  path := by intro r h; cases h
  past := by intro r h; cases h
  registered := by
    intro fileId entry h
    rw [loadManager, AList.lookup_empty] at h
    cases h
  held := by intro c h; cases h

section Frame

/-- What the other operations see of a step. -/
structure DiskFrame (d d' : TranscriptDisk) : Prop where
  stored : ∀ r ∈ d.stored, r ∈ d'.stored
  now : d.now ≤ d'.now
  dropped : ∀ r ∈ d.stored, d.registry.lookup r.fileId = none → d'.registry.lookup r.fileId = none

lemma DiskFrame.hasStored {d d' : TranscriptDisk} (h : DiskFrame d d') {fileId filePath : String}
    (hstored : d.HasStored fileId filePath) : d'.HasStored fileId filePath := by
  obtain ⟨r, hr, hid, hpath⟩ := hstored
  exact ⟨r, h.stored r hr, hid, hpath⟩

/-- A step of another operation keeps what an operation holds, if it leaves its written file alone. -/
lemma FileCall.Held.frame {d d' : TranscriptDisk} (h : DiskFrame d d') {c : FileCall} (hc : c.Held m d)
    (hfile : ∀ fileId filePath content, c = .register fileId filePath content →
      d'.files filePath = d.files filePath) : c.Held m d' := by
  cases c with
  | register fileId filePath content =>
    refine ⟨?_, hc.2⟩
    rw [hfile fileId filePath content rfl]
    exact hc.1
  | readClock fileId entry =>
    obtain ⟨r, hr, hentry⟩ := hc
    exact ⟨r, h.stored r hr, hentry⟩
  | testExists fileId filePath => exact h.hasStored hc
  | returning fileId filePath => exact h.hasStored hc
  | removeEntry fileId filePath =>
    cases filePath with
    | none =>
      obtain ⟨⟨r, hr, rfl⟩, hnone⟩ := hc
      exact ⟨⟨r, h.stored r hr, rfl⟩, h.dropped r hr hnone⟩
    | some filePath =>
      obtain ⟨r, hr, hid, hpath, hexpired⟩ := hc
      have hnow := h.now
      refine ⟨r, h.stored r hr, hid, hpath, ?_⟩
      linarith
  | sweep now => exact le_trans hc h.now
  | cleanupFiles filePaths getOf =>
    intro filePath hmem
    obtain ⟨r, hr, hpath, hnone⟩ := hc filePath hmem
    exact ⟨r, h.stored r hr, hpath, h.dropped r hr hnone⟩
  | storeTranscript _ _ => trivial
  | storeReturned _ _ => trivial
  | getTranscriptPath _ => trivial
  | getReturned _ _ => trivial
  | removeTranscript _ => trivial
  | cleanupExpired => trivial
  | returned => trivial

end Frame

section Step

/-- What a step can do to the disk. -/
lemma advance_disk (m : FileManager) (d : TranscriptDisk) (c : FileCall) :
    (advance m d c).shared = d ∨
    (∃ content filename, c = .storeTranscript content filename ∧ (advance m d c).shared =
      { d with
        files := Function.update d.files (m.filePath (m.uuid4 d.issued) filename) (some content)
        issued := d.issued + 1 }) ∨
    (∃ fileId filePath content, c = .register fileId filePath content ∧ (advance m d c).shared =
      { d with
        registry := d.registry.insert fileId ⟨filePath, d.now⟩
        stored := ⟨fileId, filePath, content, d.now⟩ :: d.stored }) ∨
    (∃ registry : FileRegistry, (∀ fileId, registry.lookup fileId = none ∨
        registry.lookup fileId = d.registry.lookup fileId) ∧
      (advance m d c).shared = { d with registry := registry }) ∨
    ∃ filePath filePaths getOf, c = .cleanupFiles (filePath :: filePaths) getOf ∧
      (advance m d c).shared = { d with files := Function.update d.files filePath none } := by
  have herase : ∀ fileId fileId', (d.registry.erase fileId).lookup fileId' = none ∨
      (d.registry.erase fileId).lookup fileId' = d.registry.lookup fileId' := by
    intro fileId fileId'
    by_cases heq : fileId' = fileId
    · exact Or.inl (heq ▸ AList.lookup_erase ..)
    · exact Or.inr (AList.lookup_erase_ne heq)
  cases c with
  | storeTranscript content filename => exact Or.inr (Or.inl ⟨content, filename, rfl, rfl⟩)
  | register fileId filePath content => exact Or.inr (Or.inr (Or.inl ⟨fileId, filePath, content, rfl, rfl⟩))
  | removeEntry fileId filePath => exact Or.inr (Or.inr (Or.inr (Or.inl ⟨_, herase fileId, rfl⟩)))
  | removeTranscript fileId => exact Or.inr (Or.inr (Or.inr (Or.inl ⟨_, herase fileId, rfl⟩)))
  | sweep now =>
    refine Or.inr (Or.inr (Or.inr (Or.inl ⟨(popAll (expiredIds m d.registry now) d.registry).1, ?_, rfl⟩)))
    intro fileId
    rw [lookup_popAll]
    by_cases hexpired : fileId ∈ expiredIds m d.registry now
    · exact Or.inl (if_pos hexpired)
    · exact Or.inr (if_neg hexpired)
  | cleanupFiles filePaths getOf =>
    cases filePaths with
    | nil => cases getOf <;> exact Or.inl rfl
    | cons filePath filePaths => exact Or.inr (Or.inr (Or.inr (Or.inr ⟨filePath, filePaths, getOf, rfl, rfl⟩)))
  | getTranscriptPath fileId =>
    cases hlookup : d.registry.lookup fileId <;> simp [advance, hlookup]
  | readClock fileId entry =>
    by_cases hexpired : d.now - entry.createdAt > m.downloadFileTtlSeconds <;> simp [advance, hexpired]
  | testExists fileId filePath =>
    by_cases hexists : (d.files filePath).isSome <;> simp [advance, hexists]
  | storeReturned _ _ => exact Or.inl rfl
  | returning _ _ => exact Or.inl rfl
  | getReturned _ _ => exact Or.inl rfl
  | cleanupExpired => exact Or.inl rfl
  | returned => exact Or.inl rfl

lemma advance_started (m : FileManager) (d : TranscriptDisk) (c : FileCall) : (advance m d c).started = [] := by
  cases c with
  | getTranscriptPath fileId => cases hlookup : d.registry.lookup fileId <;> simp [advance, hlookup]
  | readClock fileId entry => simp only [advance]; split <;> rfl
  | testExists fileId filePath => simp only [advance]; split <;> rfl
  | cleanupFiles filePaths getOf =>
    cases filePaths with
    | nil => cases getOf <;> rfl
    | cons first filePaths => rfl
  | _ => rfl

/-- An id is given out when its file is written, and stays with its transcript. -/
lemma advance_pendingIds (m : FileManager) (d : TranscriptDisk) (c : FileCall) :
    (c.pendingIds = [] ∧ (advance m d c).next.pendingIds = [] ∧ (advance m d c).shared.stored = d.stored ∧
      (advance m d c).shared.issued = d.issued) ∨
    (c.pendingIds = [] ∧ (advance m d c).next.pendingIds = [m.uuid4 d.issued] ∧
      (advance m d c).shared.stored = d.stored ∧ (advance m d c).shared.issued = d.issued + 1) ∨
    ∃ fileId, c.pendingIds = [fileId] ∧ (advance m d c).next.pendingIds = [] ∧
      (advance m d c).shared.stored.map StoredTranscript.fileId =
        fileId :: d.stored.map StoredTranscript.fileId ∧ (advance m d c).shared.issued = d.issued := by
  cases c with
  | storeTranscript content filename => exact Or.inr (Or.inl ⟨rfl, rfl, rfl, rfl⟩)
  | register fileId filePath content => exact Or.inr (Or.inr ⟨fileId, rfl, rfl, rfl, rfl⟩)
  | getTranscriptPath fileId =>
    cases hlookup : d.registry.lookup fileId <;> simp [advance, hlookup, FileCall.pendingIds]
  | readClock fileId entry =>
    by_cases hexpired : d.now - entry.createdAt > m.downloadFileTtlSeconds <;>
      simp [advance, hexpired, FileCall.pendingIds]
  | testExists fileId filePath =>
    by_cases hexists : (d.files filePath).isSome <;> simp [advance, hexists, FileCall.pendingIds]
  | cleanupFiles filePaths getOf =>
    cases filePaths with
    | nil => cases getOf <;> exact Or.inl ⟨rfl, rfl, rfl, rfl⟩
    | cons first filePaths => exact Or.inl ⟨rfl, rfl, rfl, rfl⟩
  | _ => exact Or.inl ⟨rfl, rfl, rfl, rfl⟩

lemma mem_pendingIds {s : FilePool} {fileId filePath content : String}
    (hc : FileCall.register fileId filePath content ∈ s.procs) :
    fileId ∈ s.procs.flatMap FileCall.pendingIds :=
  List.mem_flatMap.mpr ⟨_, hc, List.mem_singleton_self fileId⟩

/-- No id is given out twice. -/
lemma ids_step {s : FilePool} {i : ℕ} {c : FileCall} (hi : s.procs[i]? = some c) :
    (FilePool.ids (s.step (advance m) i)).Perm (FilePool.ids s) ∧
      (s.step (advance m) i).shared.issued = s.shared.issued ∨
    (FilePool.ids (s.step (advance m) i)).Perm (m.uuid4 s.shared.issued :: FilePool.ids s) ∧
      (s.step (advance m) i).shared.issued = s.shared.issued + 1 := by
  obtain ⟨rest, hbefore, hafter⟩ := ProcessPool.flatMap_step (advance m) FileCall.pendingIds hi
  rw [advance_started, List.flatMap_nil, List.nil_append] at hafter
  rw [FilePool.ids, FilePool.ids, ProcessPool.shared_step (advance m) hi]
  rcases advance_pendingIds m s.shared c with ⟨hc, hnext, hstored, hissued⟩ | ⟨hc, hnext, hstored, hissued⟩ |
    ⟨fileId, hc, hnext, hstored, hissued⟩
  · rw [hc] at hbefore
    rw [hnext] at hafter
    rw [hstored]
    exact Or.inl ⟨(hafter.trans hbefore.symm).append_right _, hissued⟩
  · rw [hc] at hbefore
    rw [hnext] at hafter
    rw [hstored]
    exact Or.inr ⟨(hafter.trans (hbefore.symm.cons _)).append_right _, hissued⟩
  · rw [hc] at hbefore
    rw [hnext] at hafter
    rw [hstored]
    refine Or.inl ⟨?_, hissued⟩
    exact (hafter.append_right _).trans (List.perm_middle.trans (hbefore.symm.append_right _))

variable {s : FilePool} (h : Consistent m s)
include h

lemma Consistent.eq_of_fileId {r r' : StoredTranscript} (hr : r ∈ s.shared.stored)
    (hr' : r' ∈ s.shared.stored) (hid : r.fileId = r'.fileId) : r = r' := by
  have hnodup := (List.nodup_append.mp h.nodup).2.1
  exact List.inj_on_of_nodup_map hnodup hr hr' hid

lemma Consistent.uuid4_of_stored {r : StoredTranscript} (hr : r ∈ s.shared.stored) :
    ∃ k < s.shared.issued, r.fileId = m.uuid4 k :=
  h.issued _ (List.mem_append_right _ (List.mem_map_of_mem hr))

lemma Consistent.fileId_ne_of_pending {fileId filePath content : String}
    (hc : FileCall.register fileId filePath content ∈ s.procs) {r : StoredTranscript}
    (hr : r ∈ s.shared.stored) : fileId ≠ r.fileId :=
  (List.nodup_append.mp h.nodup).2.2 _ (mem_pendingIds hc) _ (List.mem_map_of_mem hr)

lemma Consistent.uuid4_of_pending {fileId filePath content : String}
    (hc : FileCall.register fileId filePath content ∈ s.procs) :
    ∃ k < s.shared.issued, fileId = m.uuid4 k :=
  h.issued _ (List.mem_append_left _ (mem_pendingIds hc))

/-- The file of a transcript tells its id. -/
lemma Consistent.fileId_of_filePath {r r' : StoredTranscript} (hr : r ∈ s.shared.stored)
    (hr' : r' ∈ s.shared.stored) (hpath : r.filePath = r'.filePath) : r.fileId = r'.fileId := by
  obtain ⟨k, -, hk⟩ := h.uuid4_of_stored hr
  obtain ⟨k', -, hk'⟩ := h.uuid4_of_stored hr'
  obtain ⟨filename, hfile⟩ := h.path r hr
  obtain ⟨filename', hfile'⟩ := h.path r' hr'
  by_contra hne
  rw [hfile, hfile', hk, hk'] at hpath
  refine filePath_ne (fun hkk => ?_) filename filename' hpath
  rw [hk, hk', hkk] at hne
  exact hne rfl

/-- The next file to be written is none of those that are stored. -/
lemma Consistent.filePath_ne_next {r : StoredTranscript} (hr : r ∈ s.shared.stored) (filename : String) :
    r.filePath ≠ m.filePath (m.uuid4 s.shared.issued) filename := by
  obtain ⟨k, hlt, hk⟩ := h.uuid4_of_stored hr
  obtain ⟨filename', hfile⟩ := h.path r hr
  rw [hfile, hk]
  exact filePath_ne (by omega) filename' filename

/-- A step leaves alone the files that are written and not registered yet. -/
lemma Consistent.files_of_pending {c : FileCall} (hc : c ∈ s.procs) {fileId filePath content : String}
    (hpending : FileCall.register fileId filePath content ∈ s.procs) :
    (advance m s.shared c).shared.files filePath = s.shared.files filePath := by
  obtain ⟨k, hlt, hk⟩ := h.uuid4_of_pending hpending
  obtain ⟨-, filename, hfile⟩ := h.held _ hpending
  rcases advance_disk m s.shared c with hsame | ⟨content', filename', rfl, hdisk⟩ |
    ⟨fileId', filePath', content', rfl, hdisk⟩ | ⟨registry, -, hdisk⟩ | ⟨first, filePaths, getOf, rfl, hdisk⟩
  · rw [hsame]
  · rw [hdisk]
    apply Function.update_of_ne
    rw [hfile, hk]
    exact filePath_ne (by omega) filename filename'
  · rw [hdisk]
  · rw [hdisk]
  · rw [hdisk]
    apply Function.update_of_ne
    obtain ⟨r, hr, hpath, -⟩ := h.held _ hc first List.mem_cons_self
    obtain ⟨k', -, hk'⟩ := h.uuid4_of_stored hr
    obtain ⟨filename', hfile'⟩ := h.path r hr
    rw [← hpath, hfile, hfile', hk, hk']
    refine filePath_ne (fun hkk => ?_) filename filename'
    exact h.fileId_ne_of_pending hpending hr (by rw [hk, hk', hkk])

/-- A step keeps the files of the registered transcripts. -/
lemma Consistent.files_of_registered {c : FileCall} (hc : c ∈ s.procs) {r : StoredTranscript}
    (hr : r ∈ s.shared.stored) (hlookup : s.shared.registry.lookup r.fileId ≠ none) :
    (advance m s.shared c).shared.files r.filePath = s.shared.files r.filePath := by
  rcases advance_disk m s.shared c with hsame | ⟨content, filename, rfl, hdisk⟩ |
    ⟨fileId, filePath, content, rfl, hdisk⟩ | ⟨registry, -, hdisk⟩ | ⟨first, filePaths, getOf, rfl, hdisk⟩
  · rw [hsame]
  · rw [hdisk]
    exact Function.update_of_ne (h.filePath_ne_next hr filename) ..
  · rw [hdisk]
  · rw [hdisk]
  · rw [hdisk]
    apply Function.update_of_ne
    intro hpath
    obtain ⟨r', hr', hpath', hdropped⟩ := h.held _ hc first List.mem_cons_self
    rw [h.fileId_of_filePath hr hr' (hpath.trans hpath'.symm)] at hlookup
    exact hlookup hdropped

lemma Consistent.diskFrame {c : FileCall} (hc : c ∈ s.procs) :
    DiskFrame s.shared (advance m s.shared c).shared := by
  rcases advance_disk m s.shared c with hsame | ⟨content, filename, rfl, hdisk⟩ |
    ⟨fileId, filePath, content, rfl, hdisk⟩ | ⟨registry, hregistry, hdisk⟩ |
    ⟨first, filePaths, getOf, rfl, hdisk⟩
  · rw [hsame]
    exact ⟨fun _ hr => hr, le_rfl, fun _ _ hnone => hnone⟩
  · rw [hdisk]
    exact ⟨fun _ hr => hr, le_rfl, fun _ _ hnone => hnone⟩
  · rw [hdisk]
    refine ⟨fun _ hr => List.mem_cons_of_mem _ hr, le_rfl, fun r hr hnone => ?_⟩
    rw [AList.lookup_insert_ne (h.fileId_ne_of_pending hc hr).symm]
    exact hnone
  · rw [hdisk]
    refine ⟨fun _ hr => hr, le_rfl, fun r _ hnone => ?_⟩
    exact (hregistry r.fileId).elim id fun hsame => hsame.trans hnone
  · rw [hdisk]
    exact ⟨fun _ hr => hr, le_rfl, fun _ _ hnone => hnone⟩

lemma Consistent.registered_record {fileId : String} {entry : RegistryEntry}
    (hlookup : s.shared.registry.lookup fileId = some entry) :
    ∃ r ∈ s.shared.stored, r.fileId = fileId ∧ r.filePath = entry.filePath := by
  obtain ⟨r, hr, hid, rfl, -⟩ := h.registered fileId entry hlookup
  exact ⟨r, hr, hid, rfl⟩

/-- What the operation holds after its step. -/
lemma Consistent.held_next {c : FileCall} (hc : c ∈ s.procs) :
    (advance m s.shared c).next.Held m (advance m s.shared c).shared := by
  have hheld := h.held c hc
  cases c with
  | storeTranscript content filename => exact ⟨Function.update_self .., filename, rfl⟩
  | getTranscriptPath fileId =>
    cases hlookup : s.shared.registry.lookup fileId with
    | none => simp [advance, hlookup, FileCall.Held]
    | some entry =>
      obtain ⟨r, hr, hid, hentry, -⟩ := h.registered fileId entry hlookup
      simp only [advance, hlookup]
      exact ⟨r, hr, hid, hentry⟩
  | readClock fileId entry =>
    obtain ⟨r, hr, hid, rfl⟩ := hheld
    by_cases hexpired : s.shared.now - r.createdAt > m.downloadFileTtlSeconds
    · simp only [advance, if_pos hexpired]
      exact ⟨r, hr, hid, rfl, hexpired⟩
    · simp only [advance, if_neg hexpired]
      exact ⟨r, hr, hid, rfl⟩
  | testExists fileId filePath =>
    by_cases hexists : (s.shared.files filePath).isSome
    · simp only [advance, if_pos hexists]
      exact hheld
    · simp only [advance, if_neg hexists]
      obtain ⟨r, hr, rfl, rfl⟩ := hheld
      refine ⟨⟨r, hr, rfl⟩, ?_⟩
      cases hlookup : s.shared.registry.lookup r.fileId with
      | none => rfl
      | some entry =>
        -- The registered file is the one that was tested.
        obtain ⟨r', hr', hid, -, hfile⟩ := h.registered _ _ hlookup
        rw [h.eq_of_fileId hr' hr hid] at hfile
        rw [hfile] at hexists
        exact absurd rfl hexists
  | removeEntry fileId filePath =>
    intro path hpath
    cases filePath with
    | none =>
      obtain ⟨-, hnone⟩ := hheld
      rw [hnone] at hpath
      cases hpath
    | some filePath =>
      obtain ⟨r, hr, rfl, rfl, -⟩ := hheld
      obtain rfl : path = r.filePath := by simpa using hpath
      exact ⟨r, hr, rfl, AList.lookup_erase ..⟩
  | removeTranscript fileId =>
    intro path hpath
    cases hlookup : s.shared.registry.lookup fileId with
    | none =>
      rw [hlookup] at hpath
      cases hpath
    | some entry =>
      obtain ⟨r, hr, rfl, hentry⟩ := h.registered_record hlookup
      obtain rfl : path = entry.filePath := by simpa [hlookup] using hpath
      exact ⟨r, hr, hentry, AList.lookup_erase ..⟩
  | cleanupExpired => exact le_rfl
  | sweep now =>
    intro path hpath
    obtain ⟨fileId, hmem, entry, hlookup, rfl⟩ := exists_of_mem_popAll hpath
    obtain ⟨r, hr, rfl, hentry⟩ := h.registered_record hlookup
    exact ⟨r, hr, hentry, by simp only [advance, lookup_popAll, if_pos hmem]⟩
  | cleanupFiles filePaths getOf =>
    cases filePaths with
    | nil => cases getOf <;> trivial
    | cons first filePaths => exact fun path hpath => hheld path (List.mem_cons_of_mem _ hpath)
  | register _ _ _ => trivial
  | storeReturned _ _ => trivial
  | returning _ _ => trivial
  | getReturned _ _ => trivial
  | returned => trivial

lemma Consistent.registered_step {c : FileCall} (hc : c ∈ s.procs) {fileId : String} {entry : RegistryEntry}
    (hlookup : (advance m s.shared c).shared.registry.lookup fileId = some entry) :
    ∃ r ∈ (advance m s.shared c).shared.stored, r.fileId = fileId ∧ entry = ⟨r.filePath, r.createdAt⟩ ∧
      (advance m s.shared c).shared.files r.filePath = some r.content := by
  -- An entry that was there before keeps its record and its file.
  have hold : s.shared.registry.lookup fileId = some entry →
      ∃ r ∈ (advance m s.shared c).shared.stored, r.fileId = fileId ∧ entry = ⟨r.filePath, r.createdAt⟩ ∧
        (advance m s.shared c).shared.files r.filePath = some r.content := by
    intro hbefore
    obtain ⟨r, hr, rfl, rfl, hfile⟩ := h.registered fileId entry hbefore
    refine ⟨r, (h.diskFrame hc).stored r hr, rfl, rfl, ?_⟩
    rw [h.files_of_registered hc hr (by simp [hbefore]), hfile]
  rcases advance_disk m s.shared c with hsame | ⟨content, filename, rfl, hdisk⟩ |
    ⟨fileId', filePath, content, rfl, hdisk⟩ | ⟨registry, hregistry, hdisk⟩ |
    ⟨first, filePaths, getOf, rfl, hdisk⟩
  · rw [hsame] at hlookup
    exact hold hlookup
  · rw [hdisk] at hlookup
    exact hold hlookup
  · by_cases hid : fileId = fileId'
    · subst hid
      rw [hdisk, AList.lookup_insert] at hlookup
      obtain rfl := Option.some.inj hlookup
      rw [hdisk]
      exact ⟨⟨fileId, filePath, content, s.shared.now⟩, List.mem_cons_self, rfl, rfl, (h.held _ hc).1⟩
    · rw [hdisk, AList.lookup_insert_ne hid] at hlookup
      exact hold hlookup
  · rw [hdisk] at hlookup
    rcases hregistry fileId with hnone | hsame
    · rw [hnone] at hlookup
      cases hlookup
    · exact hold (hsame.symm.trans hlookup)
  · rw [hdisk] at hlookup
    exact hold hlookup

lemma Consistent.stored_step {c : FileCall} (hc : c ∈ s.procs) {r : StoredTranscript}
    (hr : r ∈ (advance m s.shared c).shared.stored) :
    (∃ filename, r.filePath = m.filePath r.fileId filename) ∧
      r.createdAt ≤ (advance m s.shared c).shared.now := by
  have hold : r ∈ s.shared.stored → (∃ filename, r.filePath = m.filePath r.fileId filename) ∧
      r.createdAt ≤ (advance m s.shared c).shared.now :=
    fun hr => ⟨h.path r hr, (h.past r hr).trans (h.diskFrame hc).now⟩
  rcases advance_disk m s.shared c with hsame | ⟨content, filename, rfl, hdisk⟩ |
    ⟨fileId, filePath, content, rfl, hdisk⟩ | ⟨registry, -, hdisk⟩ | ⟨first, filePaths, getOf, rfl, hdisk⟩
  · rw [hsame] at hr
    exact hold hr
  · rw [hdisk] at hr
    exact hold hr
  · rw [hdisk] at hr
    rcases List.mem_cons.mp hr with rfl | hr
    · rw [hdisk]
      exact ⟨(h.held _ hc).2, le_rfl⟩
    · exact hold hr
  · rw [hdisk] at hr
    exact hold hr
  · rw [hdisk] at hr
    exact hold hr

lemma Consistent.step {i : ℕ} {c : FileCall} (hi : s.procs[i]? = some c) :
    Consistent m (s.step (advance m) i) := by
  have hc : c ∈ s.procs := List.mem_of_getElem? hi
  have hshared := ProcessPool.shared_step (advance m) hi
  refine ⟨?_, ?_, ?_, ?_, ?_, ?_⟩
  · rcases ids_step (m := m) hi with ⟨hperm, -⟩ | ⟨hperm, -⟩
    · exact hperm.nodup_iff.mpr h.nodup
    · rw [hperm.nodup_iff, List.nodup_cons]
      refine ⟨fun hmem => ?_, h.nodup⟩
      obtain ⟨k, hlt, hk⟩ := h.issued _ hmem
      exact absurd (m.uuid4_injective hk) (by omega)
  · intro fileId hmem
    rcases ids_step (m := m) hi with ⟨hperm, hissued⟩ | ⟨hperm, hissued⟩
    · rw [hissued]
      exact h.issued fileId (hperm.mem_iff.mp hmem)
    · rw [hissued]
      rcases List.mem_cons.mp (hperm.mem_iff.mp hmem) with rfl | hmem
      · exact ⟨_, Nat.lt_succ_self _, rfl⟩
      · obtain ⟨k, hlt, hk⟩ := h.issued fileId hmem
        exact ⟨k, Nat.lt_succ_of_lt hlt, hk⟩
  · intro r hr
    rw [hshared] at hr
    exact (h.stored_step hc hr).1
  · intro r hr
    rw [hshared] at hr ⊢
    exact (h.stored_step hc hr).2
  · intro fileId entry hlookup
    rw [hshared] at hlookup ⊢
    exact h.registered_step hc hlookup
  · rw [hshared]
    refine ProcessPool.forall_step (Q := FileCall.Held m (advance m s.shared c).shared) hi ?_ ?_ ?_
    · intro c' hc'
      refine (h.held c' hc').frame (h.diskFrame hc) fun fileId filePath content heq => ?_
      subst heq
      exact h.files_of_pending hc hc'
    · exact h.held_next hc
    · rw [advance_started]
      intro c' hc'
      cases hc'

lemma Consistent.start (r : FileRequest) : Consistent m (s.start r.call) := by
  have hids : FilePool.ids (s.start r.call) = FilePool.ids s := by
    cases r <;> simp [FilePool.ids, ProcessPool.start, FileRequest.call, FileCall.pendingIds]
  refine ⟨hids ▸ h.nodup, hids ▸ h.issued, h.path, h.past, h.registered, ?_⟩
  intro c hc
  rcases List.mem_append.mp hc with hc | hc
  · exact h.held c hc
  · obtain rfl := List.mem_singleton.mp hc
    cases r <;> trivial

lemma Consistent.clock (t : ℚ) :
    Consistent m ⟨{ s.shared with now := max s.shared.now t }, s.procs⟩ := by
  have hframe : DiskFrame s.shared { s.shared with now := max s.shared.now t } :=
    ⟨fun _ hr => hr, le_max_left .., fun _ _ hnone => hnone⟩
  exact ⟨h.nodup, h.issued, h.path, fun r hr => (h.past r hr).trans (le_max_left ..), h.registered,
    fun c hc => (h.held c hc).frame hframe fun _ _ _ _ => rfl⟩

lemma Consistent.event (e : FileEvent) : Consistent m (fileStep m s e) := by
  cases e with
  | request r => exact h.start r
  | step i =>
    cases hi : s.procs[i]? with
    | none =>
      change Consistent m (s.step (advance m) i)
      rw [ProcessPool.step_of_none hi]
      exact h
    | some c => exact h.step hi
  | clock t => exact h.clock t

end Step

lemma consistent_run (files : String → Option String) (now : ℚ) (events : List FileEvent) :
    Consistent m (run (fileStep m) (loadManager files now) events) :=
  run_invariant (fun _ e h _ => h.event e) (consistent_loadManager files now)
    (along_of_forall (P := fun _ _ => True) (fun _ _ _ => trivial) _)

end AscendAI.AudioScribe
