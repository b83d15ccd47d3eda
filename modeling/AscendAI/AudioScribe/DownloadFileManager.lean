import Mathlib.Algebra.Order.Ring.Rat
import Mathlib.Data.List.AList
import Mathlib.Logic.Function.Basic
import AscendAI.Lib.ProcessPool
import AscendAI.Lib.Runs

/-!
# The download file manager

AudioScribe keeps a finished transcript in a temporary file and registers it under a random id. Four
operations work on the registry at the same time: each locked section, each reading of the clock, each
existence test and each deletion of a file is one step.
-/

namespace AscendAI.AudioScribe

/-- The settings of the manager, with the ids that `uuid4().hex` gives one after the other. -/
structure FileManager where
  downloadFileTtlSeconds : ℚ
  tempDirectory : String
  uuid4 : ℕ → String
  uuid4_injective : Function.Injective uuid4
  underscore_notMem_uuid4 : ∀ n, '_' ∉ (uuid4 n).toList

def FileManager.filePath (m : FileManager) (fileId filename : String) : String :=
  m.tempDirectory ++ "/" ++ ("audioscribe_" ++ fileId ++ "_" ++ filename)

structure RegistryEntry where
  filePath : String
  createdAt : ℚ
  deriving DecidableEq

/-- The dictionary of the entries. The newest entry is first. -/
abbrev FileRegistry := AList fun _ : String => RegistryEntry

structure StoredTranscript where
  fileId : String
  filePath : String
  content : String
  createdAt : ℚ
  deriving DecidableEq

/-- What the operations share. `stored` is the history of `store_transcript`. -/
structure TranscriptDisk where
  registry : FileRegistry
  files : String → Option String
  now : ℚ
  issued : ℕ
  stored : List StoredTranscript

/-- An operation where its next step begins. -/
inductive FileCall where
  | storeTranscript (content filename : String)
  | register (fileId filePath content : String)
  | storeReturned (fileId filePath : String)
  | getTranscriptPath (fileId : String)
  | readClock (fileId : String) (entry : RegistryEntry)
  | testExists (fileId filePath : String)
  | returning (fileId filePath : String)
  | removeEntry (fileId : String) (filePath : Option String)
  | getReturned (fileId : String) (filePath : Option String)
  | removeTranscript (fileId : String)
  | cleanupExpired
  | sweep (now : ℚ)
  | cleanupFiles (filePaths : List String) (getOf : Option String)
  | returned
  deriving DecidableEq

/-- `pop` of each of the ids, and the files of the entries that were there. -/
def popAll : List String → FileRegistry → FileRegistry × List String
  | [], registry => (registry, [])
  | fileId :: fileIds, registry =>
    match registry.lookup fileId with
    | none => popAll fileIds registry
    | some entry =>
      ((popAll fileIds (registry.erase fileId)).1, entry.filePath :: (popAll fileIds (registry.erase fileId)).2)

section Manager

variable (m : FileManager)

def expiredIds (registry : FileRegistry) (now : ℚ) : List String :=
  (registry.entries.reverse.filter fun item => now - item.2.createdAt > m.downloadFileTtlSeconds).map (·.1)

/-- One atomic step of an operation. -/
def advance (d : TranscriptDisk) : FileCall → ProcessPool.Outcome TranscriptDisk FileCall
  | .storeTranscript content filename =>
    let fileId := m.uuid4 d.issued
    let filePath := m.filePath fileId filename
    { shared := { d with files := Function.update d.files filePath (some content), issued := d.issued + 1 }
      next := .register fileId filePath content }
  | .register fileId filePath content =>
    { shared := { d with
        registry := d.registry.insert fileId ⟨filePath, d.now⟩
        stored := ⟨fileId, filePath, content, d.now⟩ :: d.stored }
      next := .storeReturned fileId filePath }
  | .getTranscriptPath fileId =>
    match d.registry.lookup fileId with
    | none => { shared := d, next := .getReturned fileId none }
    | some entry => { shared := d, next := .readClock fileId entry }
  | .readClock fileId entry =>
    if d.now - entry.createdAt > m.downloadFileTtlSeconds then
      { shared := d, next := .removeEntry fileId (some entry.filePath) }
    else { shared := d, next := .testExists fileId entry.filePath }
  | .testExists fileId filePath =>
    if (d.files filePath).isSome then { shared := d, next := .returning fileId filePath }
    else { shared := d, next := .removeEntry fileId none }
  | .returning fileId filePath => { shared := d, next := .getReturned fileId (some filePath) }
  | .removeEntry fileId filePath =>
    let path := filePath <|> (d.registry.lookup fileId).map RegistryEntry.filePath
    { shared := { d with registry := d.registry.erase fileId }
      next := .cleanupFiles path.toList (some fileId) }
  | .removeTranscript fileId =>
    let path := (d.registry.lookup fileId).map RegistryEntry.filePath
    { shared := { d with registry := d.registry.erase fileId }, next := .cleanupFiles path.toList none }
  | .cleanupExpired => { shared := d, next := .sweep d.now }
  | .sweep now =>
    let popped := popAll (expiredIds m d.registry now) d.registry
    { shared := { d with registry := popped.1 }, next := .cleanupFiles popped.2 none }
  | .cleanupFiles (filePath :: filePaths) getOf =>
    { shared := { d with files := Function.update d.files filePath none }
      next := .cleanupFiles filePaths getOf }
  | .cleanupFiles [] (some fileId) => { shared := d, next := .getReturned fileId none }
  | .cleanupFiles [] none => { shared := d, next := .returned }
  | .storeReturned fileId filePath => { shared := d, next := .storeReturned fileId filePath }
  | .getReturned fileId filePath => { shared := d, next := .getReturned fileId filePath }
  | .returned => { shared := d, next := .returned }

end Manager

/-- The operations that a caller can start. -/
inductive FileRequest where
  | store (content filename : String)
  | get (fileId : String)
  | remove (fileId : String)
  | cleanup
  deriving DecidableEq

def FileRequest.call : FileRequest → FileCall
  | .store content filename => .storeTranscript content filename
  | .get fileId => .getTranscriptPath fileId
  | .remove fileId => .removeTranscript fileId
  | .cleanup => .cleanupExpired

/-- A caller starts an operation, an operation makes its next step, or the clock moves on. -/
inductive FileEvent where
  | request (r : FileRequest)
  | step (i : ℕ)
  | clock (t : ℚ)
  deriving DecidableEq

abbrev FilePool := ProcessPool TranscriptDisk FileCall

def fileStep (m : FileManager) (s : FilePool) : FileEvent → FilePool
  | .request r => s.start r.call
  | .step i => s.step (advance m) i
  | .clock t => ⟨{ s.shared with now := max s.shared.now t }, s.procs⟩

/-- The registry is empty when the module is loaded. -/
def loadManager (files : String → Option String) (now : ℚ) : FilePool where
  shared := ⟨∅, files, now, 0, []⟩
  procs := []

section Sweep

lemma lookup_popAll (fileId : String) (fileIds : List String) (registry : FileRegistry) :
    (popAll fileIds registry).1.lookup fileId = if fileId ∈ fileIds then none else registry.lookup fileId := by
  induction fileIds generalizing registry with
  | nil => rfl
  | cons first fileIds ih =>
    by_cases hfirst : fileId = first
    · subst hfirst
      cases hlookup : registry.lookup fileId with
      | none => simp [popAll, hlookup, ih]
      | some entry => simp [popAll, hlookup, ih]
    · cases hlookup : registry.lookup first with
      | none => simp [popAll, hlookup, ih, hfirst]
      | some entry => simp [popAll, hlookup, ih, hfirst, AList.lookup_erase_ne hfirst]

lemma exists_of_mem_popAll {filePath : String} {fileIds : List String} {registry : FileRegistry}
    (h : filePath ∈ (popAll fileIds registry).2) :
    ∃ fileId ∈ fileIds, ∃ entry, registry.lookup fileId = some entry ∧ entry.filePath = filePath := by
  induction fileIds generalizing registry with
  | nil => cases h
  | cons first fileIds ih =>
    cases hlookup : registry.lookup first with
    | none =>
      simp only [popAll, hlookup] at h
      obtain ⟨fileId, hmem, hentry⟩ := ih h
      exact ⟨fileId, List.mem_cons_of_mem _ hmem, hentry⟩
    | some entry =>
      simp only [popAll, hlookup] at h
      rcases List.mem_cons.mp h with rfl | h
      · exact ⟨first, List.mem_cons_self, entry, hlookup, rfl⟩
      · obtain ⟨fileId, hmem, entry', hlookup', hpath⟩ := ih h
        have hne : fileId ≠ first := by
          rintro rfl
          rw [AList.lookup_erase] at hlookup'
          cases hlookup'
        rw [AList.lookup_erase_ne hne] at hlookup'
        exact ⟨fileId, List.mem_cons_of_mem _ hmem, entry', hlookup', hpath⟩

lemma mem_expiredIds_iff {m : FileManager} {registry : FileRegistry} {now : ℚ} {fileId : String} :
    fileId ∈ expiredIds m registry now ↔
      ∃ entry, registry.lookup fileId = some entry ∧ now - entry.createdAt > m.downloadFileTtlSeconds := by
  unfold expiredIds
  simp only [List.mem_map, List.mem_filter, List.mem_reverse, decide_eq_true_eq]
  constructor
  · rintro ⟨item, ⟨hmem, hexpired⟩, rfl⟩
    exact ⟨item.2, AList.mem_lookup_iff.mpr hmem, hexpired⟩
  · rintro ⟨entry, hlookup, hexpired⟩
    exact ⟨⟨fileId, entry⟩, ⟨AList.mem_lookup_iff.mp hlookup, hexpired⟩, rfl⟩

end Sweep

end AscendAI.AudioScribe
