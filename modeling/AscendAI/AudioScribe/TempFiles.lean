import AscendAI.AudioScribe.DownloadService
import AscendAI.Lib.Scoped
import Mathlib.Logic.Function.Basic

/-!
# Temporary files

An upload and a download are streamed into a temporary file. The file is removed when the cap is
exceeded, and after a download also when another `Exception` is raised; a `CancelledError` is none.
-/

namespace AscendAI.AudioScribe.TempFiles

open Scoped PythonUrl

/-- Where an upload or a download can break off. -/
inductive Point where
  | create
  | seek
  | openSource
  | connect
  | openTarget
  | read (i : ℕ)
  | write (i : ℕ)
  | closeTarget
  | closeSource
  | release
  | closeSession
  deriving DecidableEq

/-- An `Exception` of the operation, or the cancellation of the task. -/
inductive Fault where
  | exception
  | cancelled
  deriving DecidableEq

inductive Raised where
  | fileSizeExceeded
  | fault (f : Fault)
  deriving DecidableEq

abbrev Faults := Point → Option Fault

def Faults.at (faults : Faults) (point : Point) : Option Raised := (faults point).map .fault

/-- The files of the temporary directory. -/
abbrev Files := String → Option (List UInt8)

/-- The path that `create_temp_file` picks: there is no file. -/
def TempPath (fs : Files) := { path : String // fs path = none }

def withTemp (fs : Files) (path : String) (bytes : List UInt8) : Files := Function.update fs path (some bytes)

def cleanupTempFile (fs : Files) (path : String) : Files := Function.update fs path none

section

variable (faults : Faults) (cap : ℕ)

/-- The loop that reads and writes up to the cap; an upload and a local file end with an empty chunk. -/
def streamLoop (stopsAtEmpty : Bool) (error : Option DownloadError) :
    ℕ → List UInt8 → List (List UInt8) → Outcome (List UInt8) Raised
  | i, written, [] => (written, (faults.at (.read i)).or (error.map fun _ => .fault .exception))
  | i, written, chunk :: chunks =>
    match faults (.read i) with
    | some f => (written, some (.fault f))
    | none =>
      if stopsAtEmpty && chunk.isEmpty then (written, none)
      else if cap < (written ++ chunk).length then (written, some .fileSizeExceeded)
      else
        match faults (.write i) with
        | some f => (written, some (.fault f))
        | none => streamLoop stopsAtEmpty error (i + 1) (written ++ chunk) chunks

def intoTarget (stopsAtEmpty : Bool) (source : ChunkSource) : Outcome (List UInt8) Raised :=
  entering (faults.at .openTarget) [] <| leaving (faults.at .closeTarget) <|
    streamLoop faults cap stopsAtEmpty source.error 0 [] source.chunks

def saveUploadToTempAsync (upload : ChunkSource) (fs : Files) (temp : TempPath fs) :
    Files × Except Raised String :=
  match faults .create with
  | some f => (fs, .error (.fault f))
  | none =>
    match faults .seek with
    | some f => (withTemp fs temp.val [], .error (.fault f))
    | none =>
      let streamed := intoTarget faults cap true upload
      match streamed.2 with
      | none => (withTemp fs temp.val streamed.1, .ok temp.val)
      | some .fileSizeExceeded =>
        (cleanupTempFile (withTemp fs temp.val streamed.1) temp.val, .error .fileSizeExceeded)
      | some (.fault f) => (withTemp fs temp.val streamed.1, .error (.fault f))

def copyFileStreaming (source : ChunkSource) : Outcome (List UInt8) Raised :=
  entering (faults.at .openSource) [] <| leaving (faults.at .closeSource) <| intoTarget faults cap true source

/-- The response is rejected before its body is read. -/
def rejection (response : HttpResponse) : Option Raised :=
  if response.status ≠ 200 then some (.fault .exception)
  else if cap < response.contentLength.getD 0 then some .fileSizeExceeded
  else none

def fetchHttpStreaming (exchange : Except DownloadError HttpResponse) : Outcome (List UInt8) Raised :=
  leaving (faults.at .closeSession) <| entering (faults.at .connect) [] <|
    match exchange with
    | .error _ => ([], some (.fault .exception))
    | .ok response => leaving (faults.at .release) <| entering (rejection cap response) [] <|
      intoTarget faults cap false response.content

end

/-! ### Downloads -/

/-- What a URI asks for, when the guards let it pass. -/
inductive Transfer where
  | file (source : ChunkSource)
  | http (exchange : Except DownloadError HttpResponse)

section

variable (s : DownloadService) (faults : Faults)

def transferOf (uri : String) : Except DownloadError Transfer :=
  match urlparse s.unicode uri "" with
  | .error message => .error (.valueError message)
  | .ok parsed =>
    let scheme := s.unicode.lower parsed.scheme
    if scheme = "file" then (resolveFileUri s parsed.path).map fun source => .file (s.files.read source)
    else if scheme ∈ ["http", "https"] then
      (validateHttpTarget s (hostname s.unicode parsed.netloc)).map fun _ =>
        .http (sessionGet s s.client.maxRedirects uri).2
    else .error (.valueError ("Unsupported URI scheme: '" ++ scheme ++ "'"))

def Transfer.stream (cap : ℕ) : Transfer → Outcome (List UInt8) Raised
  | .file source => copyFileStreaming faults cap source
  | .http exchange => fetchHttpStreaming faults cap exchange

def downloadToTempAsync (uri : String) (fs : Files) (temp : TempPath fs) : Files × Except Raised String :=
  match transferOf s uri with
  | .error _ => (fs, .error (.fault .exception))
  | .ok transfer =>
    match faults .create with
    | some f => (fs, .error (.fault f))
    | none =>
      let streamed := transfer.stream faults s.settings.maxDownloadBytes
      match streamed.2 with
      | none => (withTemp fs temp.val streamed.1, .ok temp.val)
      | some (.fault .cancelled) => (withTemp fs temp.val streamed.1, .error (.fault .cancelled))
      | some raised => (cleanupTempFile (withTemp fs temp.val streamed.1) temp.val, .error raised)

end

/-! ### All or nothing -/

/-- The call returns the path of a file with the bytes, at most `cap` of them, or raises and leaves the files
as they were. -/
def AllOrNothing (fs : Files) (path : String) (bytes : List UInt8) (cap : ℕ)
    (call : Files × Except Raised String) : Prop :=
  (call = (withTemp fs path bytes, .ok path) ∧ bytes.length ≤ cap) ∨ ∃ raised, call = (fs, .error raised)

/-- The chunks that are delivered: an upload and a local file end with an empty one. -/
def delivered (stopsAtEmpty : Bool) (chunks : List (List UInt8)) : List (List UInt8) :=
  if stopsAtEmpty then chunks.takeWhile fun chunk => !chunk.isEmpty else chunks

def Transfer.bytes : Transfer → List UInt8
  | .file source => (delivered true source.chunks).flatten
  | .http (.ok response) => response.content.chunks.flatten
  | .http (.error _) => []

section

variable (faults : Faults) (cap : ℕ) (stopsAtEmpty : Bool) (error : Option DownloadError)

/-- The first read or write that breaks off, of those up to the end of the chunks or the cap. -/
def firstFault : ℕ → ℕ → List (List UInt8) → Option Fault
  | i, _, [] => (faults (.read i)).or (error.map fun _ => .exception)
  | i, written, chunk :: chunks =>
    (faults (.read i)).or <|
      if stopsAtEmpty && chunk.isEmpty then none
      else if cap < written + chunk.length then none
      else (faults (.write i)).or (firstFault (i + 1) (written + chunk.length) chunks)

/-- What the target file is broken off with: its closing comes last. -/
def targetFault (source : ChunkSource) : Option Fault :=
  (faults .openTarget).or <| (faults .closeTarget).or <|
    firstFault faults cap stopsAtEmpty source.error 0 0 source.chunks

end

/-- The last of the operations of a transfer that breaks it off. -/
def Transfer.lastFault (faults : Faults) (cap : ℕ) : Transfer → Option Fault
  | .file source => (faults .openSource).or <| (faults .closeSource).or <| targetFault faults cap true source
  | .http exchange => (faults .closeSession).or <| (faults .connect).or <|
    match exchange with
    | .error _ => none
    | .ok response => (faults .release).or <|
      if (rejection cap response).isSome then none else targetFault faults cap false response.content

/-- Once there is a temporary file, no operation on the upload or the file breaks off. -/
def UploadUndisturbed (faults : Faults) (cap : ℕ) (upload : ChunkSource) : Prop :=
  faults .create = none → faults .seek = none ∧ targetFault faults cap true upload = none

/-- Once there is a temporary file, what breaks the download off last is no cancellation. -/
def DownloadUncancelled (s : DownloadService) (faults : Faults) (uri : String) : Prop :=
  ∀ transfer, transferOf s uri = .ok transfer → faults .create = none →
    transfer.lastFault faults s.settings.maxDownloadBytes ≠ some .cancelled

section

variable {faults : Faults} {cap : ℕ} {stopsAtEmpty : Bool} {error : Option DownloadError}

/-- A loop that ends well has written all chunks, within the cap. -/
lemma streamLoop_of_raised_eq_none {i : ℕ} {written : List UInt8} {chunks : List (List UInt8)}
    (hwritten : written.length ≤ cap)
    (h : (streamLoop faults cap stopsAtEmpty error i written chunks).2 = none) :
    (streamLoop faults cap stopsAtEmpty error i written chunks).1 =
        written ++ (delivered stopsAtEmpty chunks).flatten ∧
      (written ++ (delivered stopsAtEmpty chunks).flatten).length ≤ cap := by
  induction chunks generalizing i written with
  | nil =>
    have hnil : (delivered stopsAtEmpty []).flatten = [] := by cases stopsAtEmpty <;> rfl
    rw [hnil, List.append_nil]
    exact ⟨rfl, hwritten⟩
  | cons chunk chunks ih =>
    rw [streamLoop] at h ⊢
    split at h
    · cases h
    · split at h
      · rename_i hempty
        have hstop : (delivered stopsAtEmpty (chunk :: chunks)).flatten = [] := by
          rw [Bool.and_eq_true] at hempty
          rw [delivered, if_pos hempty.1, List.takeWhile_cons_of_neg (by simp [hempty.2]), List.flatten_nil]
        rw [if_pos hempty, hstop, List.append_nil]
        exact ⟨rfl, hwritten⟩
      · rename_i hempty
        split at h
        · cases h
        · rename_i hcap
          split at h
          · cases h
          · have hgoes : (delivered stopsAtEmpty (chunk :: chunks)).flatten =
                chunk ++ (delivered stopsAtEmpty chunks).flatten := by
              cases stopsAtEmpty with
              | false => rfl
              | true =>
                rw [delivered, if_pos rfl, List.takeWhile_cons_of_pos (by simpa using hempty), List.flatten_cons]
                rfl
            rw [if_neg hempty, if_neg hcap, hgoes, ← List.append_assoc]
            exact ih (not_lt.mp hcap) h

/-- What the loop raises: the first fault that it meets, or that the cap is exceeded. -/
lemma streamLoop_raised_fault_iff {i : ℕ} {written : List UInt8} {chunks : List (List UInt8)} {f : Fault} :
    (streamLoop faults cap stopsAtEmpty error i written chunks).2 = some (.fault f) ↔
      firstFault faults cap stopsAtEmpty error i written.length chunks = some f := by
  induction chunks generalizing i written with
  | nil =>
    rw [streamLoop, firstFault, Faults.at]
    cases faults (.read i) with
    | none => cases error <;> simp
    | some f' => simp
  | cons chunk chunks ih =>
    rw [streamLoop, firstFault]
    cases faults (.read i) with
    | some f' => simp
    | none =>
      dsimp only
      rw [Option.none_or, List.length_append]
      split_ifs
      · simp
      · simp
      · cases faults (.write i) with
        | some f' => simp
        | none =>
          have hrest := @ih (i + 1) (written ++ chunk)
          rw [List.length_append] at hrest
          rw [Option.none_or]
          exact hrest

/-- An operation breaks off, or else what it stands around does. -/
lemma at_or_eq_fault_iff {point : Point} {raised : Option Raised} {fault : Option Fault} {f : Fault}
    (h : raised = some (.fault f) ↔ fault = some f) :
    (faults.at point).or raised = some (.fault f) ↔ (faults point).or fault = some f := by
  rw [Faults.at]
  cases faults point with
  | none => rw [Option.map_none, Option.none_or, Option.none_or, h]
  | some f' => simp

variable {source : ChunkSource}

lemma intoTarget_of_raised_eq_none (h : (intoTarget faults cap stopsAtEmpty source).2 = none) :
    (intoTarget faults cap stopsAtEmpty source).1 = (delivered stopsAtEmpty source.chunks).flatten ∧
      (delivered stopsAtEmpty source.chunks).flatten.length ≤ cap := by
  rw [intoTarget] at h ⊢
  obtain ⟨henter, hbody⟩ := entering_of_raised_eq_none h
  obtain ⟨hleave, hloop⟩ := leaving_of_raised_eq_none hbody
  rw [henter, hleave]
  exact streamLoop_of_raised_eq_none (Nat.zero_le cap) hloop

lemma intoTarget_raised_fault_iff {f : Fault} :
    (intoTarget faults cap stopsAtEmpty source).2 = some (.fault f) ↔
      targetFault faults cap stopsAtEmpty source = some f := by
  rw [intoTarget, raised_entering, raised_leaving]
  exact at_or_eq_fault_iff (at_or_eq_fault_iff streamLoop_raised_fault_iff)

lemma Transfer.stream_of_raised_eq_none {transfer : Transfer}
    (h : (transfer.stream faults cap).2 = none) :
    (transfer.stream faults cap).1 = transfer.bytes ∧ transfer.bytes.length ≤ cap := by
  cases transfer with
  | file source =>
    rw [Transfer.stream, copyFileStreaming] at h ⊢
    obtain ⟨henter, hbody⟩ := entering_of_raised_eq_none h
    obtain ⟨hleave, htarget⟩ := leaving_of_raised_eq_none hbody
    rw [henter, hleave]
    exact intoTarget_of_raised_eq_none htarget
  | http exchange =>
    rw [Transfer.stream] at h ⊢
    unfold fetchHttpStreaming at h ⊢
    obtain ⟨hsession, hbody⟩ := leaving_of_raised_eq_none h
    obtain ⟨hconnect, hresponse⟩ := entering_of_raised_eq_none hbody
    rw [hsession, hconnect]
    cases exchange with
    | error e => cases hresponse
    | ok response =>
      obtain ⟨hrelease, haccepted⟩ := leaving_of_raised_eq_none hresponse
      obtain ⟨henter, htarget⟩ := entering_of_raised_eq_none haccepted
      dsimp only
      rw [hrelease, henter]
      exact intoTarget_of_raised_eq_none htarget

lemma rejection_ne_cancelled (response : HttpResponse) :
    rejection cap response ≠ some (.fault .cancelled) := by
  rw [rejection]
  split
  · decide
  · split
    · decide
    · exact Option.some_ne_none _ ∘ Eq.symm

lemma Transfer.stream_raised_cancelled_iff {transfer : Transfer} :
    (transfer.stream faults cap).2 = some (.fault .cancelled) ↔
      transfer.lastFault faults cap = some .cancelled := by
  cases transfer with
  | file source =>
    rw [Transfer.stream, copyFileStreaming, raised_entering, raised_leaving]
    exact at_or_eq_fault_iff (at_or_eq_fault_iff intoTarget_raised_fault_iff)
  | http exchange =>
    rw [Transfer.stream]
    unfold fetchHttpStreaming
    rw [raised_leaving, raised_entering]
    refine at_or_eq_fault_iff (at_or_eq_fault_iff ?_)
    cases exchange with
    | error e => simp
    | ok response =>
      dsimp only
      rw [raised_leaving, raised_entering]
      refine at_or_eq_fault_iff ?_
      cases hrejected : rejection cap response with
      | none => exact intoTarget_raised_fault_iff
      | some raised =>
        have hne : rejection cap response ≠ some (.fault .cancelled) := rejection_ne_cancelled response
        rw [hrejected] at hne
        simpa using hne

end

section

variable {fs : Files} (temp : TempPath fs)

lemma withTemp_ne (bytes : List UInt8) : withTemp fs temp.val bytes ≠ fs := by
  intro heq
  have hat := congrFun heq temp.val
  rw [withTemp, Function.update_self, temp.property] at hat
  cases hat

lemma cleanupTempFile_withTemp (bytes : List UInt8) :
    cleanupTempFile (withTemp fs temp.val bytes) temp.val = fs := by
  rw [cleanupTempFile, withTemp, Function.update_idem]
  exact Function.update_eq_self_iff.mpr temp.property.symm

/-- A call that raises is all or nothing when it leaves the files alone. -/
lemma allOrNothing_error_iff {path : String} {bytes : List UInt8} {cap : ℕ} {fs' : Files} {raised : Raised} :
    AllOrNothing fs path bytes cap (fs', .error raised) ↔ fs' = fs := by
  constructor
  · rintro (⟨heq, -⟩ | ⟨raised', heq⟩)
    · cases congrArg Prod.snd heq
    · exact congrArg Prod.fst heq
  · rintro rfl
    exact .inr ⟨raised, rfl⟩

lemma saveUploadToTempAsync_iff (faults : Faults) (cap : ℕ) (upload : ChunkSource) :
    AllOrNothing fs temp.val (delivered true upload.chunks).flatten cap
        (saveUploadToTempAsync faults cap upload fs temp) ↔ UploadUndisturbed faults cap upload := by
  rw [saveUploadToTempAsync, UploadUndisturbed]
  cases faults .create with
  | some f => exact iff_of_true (allOrNothing_error_iff.mpr rfl) fun h => by cases h
  | none =>
    rw [forall_prop_of_true rfl]
    cases faults .seek with
    | some f =>
      refine iff_of_false (fun h => ?_) (fun h => by cases h.1)
      exact withTemp_ne temp _ (allOrNothing_error_iff.mp h)
    | none =>
      have hfault := fun f => @intoTarget_raised_fault_iff faults cap true upload f
      dsimp only
      cases hraised : (intoTarget faults cap true upload).2 with
      | none =>
        obtain ⟨hbytes, hcap⟩ := intoTarget_of_raised_eq_none hraised
        refine iff_of_true (.inl ⟨by rw [hbytes], hcap⟩) ⟨rfl, ?_⟩
        refine Option.eq_none_iff_forall_ne_some.mpr fun f hf => ?_
        rw [← hfault, hraised] at hf
        cases hf
      | some raised =>
        cases raised with
        | fileSizeExceeded =>
          refine iff_of_true (allOrNothing_error_iff.mpr (cleanupTempFile_withTemp temp _)) ⟨rfl, ?_⟩
          refine Option.eq_none_iff_forall_ne_some.mpr fun f hf => ?_
          rw [← hfault, hraised] at hf
          cases hf
        | fault f =>
          refine iff_of_false (fun h => ?_) (fun h => ?_)
          · exact withTemp_ne temp _ (allOrNothing_error_iff.mp h)
          · rw [(hfault f).mp hraised] at h
            cases h.2

lemma downloadToTempAsync_iff (s : DownloadService) (faults : Faults) (uri : String) :
    AllOrNothing fs temp.val ((transferOf s uri).toOption.elim [] Transfer.bytes) s.settings.maxDownloadBytes
        (downloadToTempAsync s faults uri fs temp) ↔ DownloadUncancelled s faults uri := by
  rw [downloadToTempAsync, DownloadUncancelled]
  cases transferOf s uri with
  | error e => exact iff_of_true (allOrNothing_error_iff.mpr rfl) fun _ h => by cases h
  | ok transfer =>
    cases faults .create with
    | some f => exact iff_of_true (allOrNothing_error_iff.mpr rfl) fun _ _ h => by cases h
    | none =>
      have hcancelled := @Transfer.stream_raised_cancelled_iff faults s.settings.maxDownloadBytes transfer
      have hcondition : (∀ transfer', (.ok transfer : Except DownloadError Transfer) = .ok transfer' →
          (none : Option Fault) = none →
            transfer'.lastFault faults s.settings.maxDownloadBytes ≠ some .cancelled) ↔
          (transfer.stream faults s.settings.maxDownloadBytes).2 ≠ some (.fault .cancelled) := by
        rw [ne_eq, hcancelled]
        constructor
        · exact fun h => h transfer rfl rfl
        · rintro h _ ⟨⟩ -
          exact h
      rw [hcondition]
      dsimp only
      cases hraised : (transfer.stream faults s.settings.maxDownloadBytes).2 with
      | none =>
        obtain ⟨hbytes, hcap⟩ := Transfer.stream_of_raised_eq_none hraised
        exact iff_of_true (.inl ⟨by rw [hbytes]; rfl, hcap⟩) (Option.some_ne_none _).symm
      | some raised =>
        cases raised with
        | fileSizeExceeded =>
          refine iff_of_true (allOrNothing_error_iff.mpr (cleanupTempFile_withTemp temp _)) fun h => by cases h
        | fault f =>
          cases f with
          | exception =>
            refine iff_of_true (allOrNothing_error_iff.mpr (cleanupTempFile_withTemp temp _)) fun h => by cases h
          | cancelled =>
            refine iff_of_false (fun h => ?_) (fun h => h rfl)
            exact withTemp_ne temp _ (allOrNothing_error_iff.mp h)

/-- An upload is all or nothing exactly when nothing disturbs it once there is a temporary file, and a download
exactly when it is not cancelled then. -/
theorem tempFiles_allOrNothing_iff (faults : Faults) (fs : Files) (temp : TempPath fs) :
    (∀ cap upload, AllOrNothing fs temp.val (delivered true upload.chunks).flatten cap
        (saveUploadToTempAsync faults cap upload fs temp) ↔ UploadUndisturbed faults cap upload) ∧
      ∀ s uri, AllOrNothing fs temp.val ((transferOf s uri).toOption.elim [] Transfer.bytes)
        s.settings.maxDownloadBytes (downloadToTempAsync s faults uri fs temp) ↔
          DownloadUncancelled s faults uri :=
  ⟨saveUploadToTempAsync_iff temp faults, fun s uri => downloadToTempAsync_iff temp s faults uri⟩

end

/-- The first write fails, as on a full disk. -/
def diskFull : Faults := fun point => if point = .write 0 then some .exception else none

def emptyTemp : TempPath (fun _ => none) := ⟨"/tmp/upload.wav", rfl⟩

/-- An upload that cannot be written leaves its temporary file. -/
theorem unwritten_upload_stays :
    ¬AllOrNothing (fun _ => none) emptyTemp.val (delivered true [[1]]).flatten 10
      (saveUploadToTempAsync diskFull 10 ⟨[[1]], none⟩ (fun _ => none) emptyTemp) := by
  have hcall : saveUploadToTempAsync diskFull 10 ⟨[[1]], none⟩ (fun _ => none) emptyTemp =
      (withTemp (fun _ => none) emptyTemp.val [], .error (.fault .exception)) := rfl
  rw [hcall, allOrNothing_error_iff]
  exact withTemp_ne emptyTemp []

end AscendAI.AudioScribe.TempFiles
