import AscendAI.Lib.ForkJoin
import AscendAI.Rag.RagRetrievalService

/-!
# S3PresignedUrlService

`presignAll` hands one task for each source reference to the executor and joins them in order. A task asks S3 for
the head of its object and signs a URL. What the executor, S3 and the presigner answer to the task with a number
comes from outside.
-/

namespace AscendAI.Rag
open ForkJoin JavaText

structure SourceAttachments where
  enabled : Bool
  maxFileSize : ℤ
  deriving DecidableEq

structure SourceFile where
  name : JavaText
  mimeType : Option JavaText
  downloadUrl : JavaText
  expiresAt : ℤ
  sizeBytes : Option ℤ
  deriving DecidableEq

structure HeadObjectResponse where
  contentLength : Option ℤ
  contentType : Option JavaText

structure PresignedGetObjectRequest where
  url : JavaText
  expiresAt : ℤ

/-- What a call throws: an `Exception`, or another `Throwable`, which only the join sees. -/
inductive Thrown where
  | exception
  | error
  deriving DecidableEq

/-- What the executor, S3 and the presigner do with the task of a number. -/
structure PresignWorld where
  rejects : ℕ → Bool
  headObject : ℕ → SourceRef → Except Thrown HeadObjectResponse
  presignGetObject : ℕ → SourceRef → Except Thrown PresignedGetObjectRequest

structure SourceMetadata where
  sizeBytes : Option ℤ
  mimeType : Option JavaText

/-- A task: before its request for the head, before it signs, or at its end with what `presign` has returned or
thrown. -/
inductive PresignTask where
  | inspecting (ref : SourceRef)
  | signing (ref : SourceRef) (metadata : SourceMetadata)
  | completed (file : Option SourceFile)
  | failed

section Service

variable (attachments : SourceAttachments) (world : PresignWorld)

/-- `inspectSource`: the metadata of an object that is not too large. -/
def inspectSource (k : ℕ) (ref : SourceRef) : Except Thrown (Option SourceMetadata) :=
  match world.headObject k ref with
  | .error .exception => .ok none
  | .error .error => .error .error
  | .ok head =>
    if head.contentLength.any (attachments.maxFileSize < ·) then .ok none
    else .ok (some ⟨head.contentLength, ref.mimeType.or head.contentType⟩)

/-- `signUrl` -/
def signUrl (k : ℕ) (ref : SourceRef) (metadata : SourceMetadata) : Except Thrown (Option SourceFile) :=
  match world.presignGetObject k ref with
  | .error .exception => .ok none
  | .error .error => .error .error
  | .ok presigned =>
    .ok (some ⟨ref.displayName, metadata.mimeType, presigned.url, presigned.expiresAt, metadata.sizeBytes⟩)

/-- The next step of `presign`. -/
def advancePresign (k : ℕ) : PresignTask → PresignTask
  | .inspecting ref =>
    match inspectSource attachments world k ref with
    | .error _ => .failed
    | .ok none => .completed none
    | .ok (some metadata) => .signing ref metadata
  | .signing ref metadata =>
    match signUrl world k ref metadata with
    | .error _ => .failed
    | .ok file => .completed file
  | task => task

/-- What `join` gives when the future is completed; the exception of a task is caught there. -/
def PresignTask.joined? : PresignTask → Option (Option SourceFile)
  | .completed file => some file
  | .failed => some none
  | .inspecting _ => none
  | .signing .. => none

/-- The submissions and the joins of `presignAll`. -/
def presignProgram (refs : List SourceRef) : Program PresignTask (Option SourceFile) (List SourceFile) where
  count := refs.length
  rejects := world.rejects
  start k := (refs[k]?.map PresignTask.inspecting).getD .failed
  advance := advancePresign attachments world
  result? := PresignTask.joined?
  nothing := []
  collect results file := results ++ file.toList

/-- `presignAll`: it answers at once, or it starts its tasks. -/
def presignAll (refs : List SourceRef) :
    List SourceFile ⊕ Program PresignTask (Option SourceFile) (List SourceFile) :=
  if refs.isEmpty then .inl []
  else if !attachments.enabled then .inl []
  else .inr (presignProgram attachments world refs)

end Service

/-! ### What is asked of it -/

section Specification

variable (attachments : SourceAttachments) (world : PresignWorld)

/-- The file of a reference whose head and signature are there and whose size is unknown or within the cap. -/
def attachedFile (k : ℕ) (ref : SourceRef) : Option SourceFile :=
  match world.headObject k ref, world.presignGetObject k ref with
  | .ok head, .ok presigned =>
    if ∀ size ∈ head.contentLength, size ≤ attachments.maxFileSize then
      some ⟨ref.displayName, ref.mimeType.or head.contentType, presigned.url, presigned.expiresAt, head.contentLength⟩
    else none
  | _, _ => none

/-- The files of the references whose tasks the executor takes, in the order of the references. -/
def attachedFiles (refs : List SourceRef) : List SourceFile :=
  refs.zipIdx.filterMap fun item => if world.rejects item.2 then none else attachedFile attachments world item.2 item.1

/-- `presignAll` comes to its end without an exception, and with these files. -/
def PresignsBestEffort (refs : List SourceRef) : Prop :=
  match presignAll attachments world refs with
  | .inl files => files = attachedFiles attachments world refs
  | .inr program => program.Completes (attachedFiles attachments world refs)

end Specification

/-! ### The tasks -/

section Tasks

variable (attachments : SourceAttachments) (world : PresignWorld) (refs : List SourceRef)

/-- What the task of a number comes to. -/
def finalFile (k : ℕ) : Option SourceFile := refs[k]?.bind (attachedFile attachments world k)

/-- What holds of a task on its way to that. -/
def PresignTask.Leads (k : ℕ) : PresignTask → Prop
  | .inspecting ref => refs[k]? = some ref
  | .signing ref metadata => refs[k]? = some ref ∧ inspectSource attachments world k ref = .ok (some metadata)
  | .completed file => file = finalFile attachments world refs k
  | .failed => none = finalFile attachments world refs k

def PresignTask.left : PresignTask → ℕ
  | .inspecting _ => 2
  | .signing .. => 1
  | .completed _ => 0
  | .failed => 0

variable {attachments world refs} {k : ℕ} {ref : SourceRef}

/-- Without metadata there is no file. -/
lemma attachedFile_of_not_inspected (h : ∀ metadata, inspectSource attachments world k ref ≠ .ok (some metadata)) :
    attachedFile attachments world k ref = none := by
  unfold inspectSource at h
  unfold attachedFile
  cases hhead : world.headObject k ref with
  | error thrown => rfl
  | ok head =>
    cases world.presignGetObject k ref with
    | error thrown => rfl
    | ok presigned =>
      simp only [hhead] at h ⊢
      cases hsize : head.contentLength with
      | none => simp [hsize] at h
      | some size =>
        simp only [hsize, Option.any_some, decide_eq_true_eq] at h
        have hlarge : attachments.maxFileSize < size := by
          by_contra hfits
          rw [if_neg hfits] at h
          exact h _ rfl
        exact if_neg fun hall => absurd (hall size rfl) (Int.not_le.mpr hlarge)

/-- With metadata the file is what `signUrl` returns. -/
lemma attachedFile_of_inspected {metadata : SourceMetadata}
    (h : inspectSource attachments world k ref = .ok (some metadata)) :
    attachedFile attachments world k ref = (signUrl world k ref metadata).toOption.join := by
  unfold inspectSource at h
  unfold attachedFile signUrl
  cases hhead : world.headObject k ref with
  | error thrown => cases thrown <;> simp [hhead] at h
  | ok head =>
    rw [hhead] at h
    simp only at h
    by_cases hlarge : head.contentLength.any (attachments.maxFileSize < ·) = true
    · rw [if_pos hlarge] at h
      cases h
    rw [if_neg hlarge] at h
    obtain rfl := Option.some.inj (Except.ok.inj h)
    have hfits : ∀ size ∈ head.contentLength, size ≤ attachments.maxFileSize := by
      intro size hsize
      rw [Option.mem_def.mp hsize] at hlarge
      simpa using hlarge
    cases world.presignGetObject k ref with
    | error thrown => cases thrown <;> rfl
    | ok presigned => exact if_pos hfits

lemma leads_advancePresign {task : PresignTask} (h : task.Leads attachments world refs k)
    (hopen : task.joined? = none) :
    (advancePresign attachments world k task).Leads attachments world refs k ∧
      (advancePresign attachments world k task).left < task.left := by
  cases task with
  | inspecting ref =>
    have hfinal : finalFile attachments world refs k = attachedFile attachments world k ref := by
      rw [finalFile, show refs[k]? = some ref from h, Option.bind_some]
    rw [advancePresign]
    cases hinspect : inspectSource attachments world k ref with
    | error thrown =>
      refine ⟨?_, Nat.two_pos⟩
      exact (hfinal.trans (attachedFile_of_not_inspected fun metadata => by simp [hinspect])).symm
    | ok inspected =>
      cases inspected with
      | none =>
        refine ⟨?_, Nat.two_pos⟩
        exact (hfinal.trans (attachedFile_of_not_inspected fun metadata => by simp [hinspect])).symm
      | some metadata => exact ⟨⟨h, hinspect⟩, Nat.one_lt_two⟩
  | signing ref metadata =>
    obtain ⟨href, hinspect⟩ := h
    have hfinal : finalFile attachments world refs k = attachedFile attachments world k ref := by
      rw [finalFile, href, Option.bind_some]
    rw [attachedFile_of_inspected hinspect] at hfinal
    rw [advancePresign]
    cases hsign : signUrl world k ref metadata with
    | error thrown =>
      rw [hsign] at hfinal
      exact ⟨hfinal.symm, Nat.one_pos⟩
    | ok file =>
      rw [hsign] at hfinal
      exact ⟨hfinal.symm, Nat.one_pos⟩
  | completed file => cases hopen
  | failed => cases hopen

lemma presignProgram_settles (attachments : SourceAttachments) (world : PresignWorld) (refs : List SourceRef) :
    (presignProgram attachments world refs).Settles (finalFile attachments world refs)
      (PresignTask.Leads attachments world refs) PresignTask.left 2 := by
  refine ⟨fun k => ?_, fun k task h hopen => leads_advancePresign h hopen, fun k task b h hresult => ?_, fun k => ?_⟩
  · simp only [presignProgram]
    cases href : refs[k]? with
    | none => simp [PresignTask.Leads, finalFile, href]
    | some ref => exact href
  · cases task with
    | inspecting ref => cases hresult
    | signing ref metadata => cases hresult
    | completed file =>
      obtain rfl := Option.some.inj hresult
      exact h
    | failed =>
      obtain rfl := Option.some.inj hresult
      exact h
  · simp only [presignProgram]
    cases refs[k]? with
    | none => exact Nat.zero_le 2
    | some ref => exact le_rfl

/-- Joined in order, the tasks give the files of the references in order. -/
lemma collected_eq_attachedFiles (haccepts : ∀ k < refs.length, world.rejects k = false) :
    (presignProgram attachments world refs).collected (finalFile attachments world refs) refs.length =
      attachedFiles attachments world refs := by
  have hcollect : ∀ n, (presignProgram attachments world refs).collected (finalFile attachments world refs) n =
      (List.range n).filterMap (finalFile attachments world refs) := by
    intro n
    induction n with
    | zero => rfl
    | succ n ih =>
      rw [Program.collected_succ, ih, List.range_succ, List.filterMap_append]
      simp only [presignProgram, List.filterMap_cons, List.filterMap_nil]
      cases finalFile attachments world refs n <;> rfl
  have hnumbers : List.range refs.length = refs.zipIdx.map Prod.snd := by
    rw [List.zipIdx_map_snd, List.range_eq_range']
  rw [hcollect, hnumbers, List.filterMap_map, attachedFiles]
  apply List.filterMap_congr
  rintro ⟨ref, k⟩ hmem
  have href : refs[k]? = some ref := List.mk_mem_zipIdx_iff_getElem?.mp hmem
  have hk : k < refs.length := (List.getElem?_eq_some_iff.mp href).1
  rw [Function.comp_apply, finalFile, href, Option.bind_some, haccepts k hk]
  rfl

end Tasks

/-- Presigning is best effort exactly when the executor takes every task, and a service that is switched off
answers with no files. -/
theorem presignsBestEffort_iff (attachments : SourceAttachments) (world : PresignWorld) (refs : List SourceRef) :
    (attachments.enabled = true →
      (PresignsBestEffort attachments world refs ↔ ∀ k < refs.length, world.rejects k = false)) ∧
    (attachments.enabled = false → presignAll attachments world refs = .inl []) := by
  constructor
  · intro henabled
    cases refs with
    | nil => exact iff_of_true rfl fun k hk => absurd hk (Nat.not_lt_zero k)
    | cons ref refs =>
      have hall : PresignsBestEffort attachments world (ref :: refs) ↔
          (presignProgram attachments world (ref :: refs)).Completes
            (attachedFiles attachments world (ref :: refs)) := by
        rw [PresignsBestEffort, presignAll, henabled]
        rfl
      have hset := presignProgram_settles attachments world (ref :: refs)
      rw [hall]
      constructor
      · intro h k hk
        exact h.accepts hk
      · intro haccepts
        rw [← collected_eq_attachedFiles haccepts]
        exact (Program.completes_iff hset).mpr haccepts
  · intro hdisabled
    rw [presignAll, hdisabled]
    cases refs.isEmpty <;> rfl

/-- The executor rejects the first of two tasks, and S3 has an object of one byte for each. -/
def rejectingWorld : PresignWorld where
  rejects k := k = 0
  headObject _ _ := .ok ⟨some 1, none⟩
  presignGetObject _ _ := .ok ⟨[], 0⟩

/-- Nobody gets the second file, and the request fails with the exception. -/
theorem rejectingWorld_throws :
    ¬PresignsBestEffort ⟨true, 100⟩ rejectingWorld [⟨[], [], [], none⟩, ⟨[], [], [], none⟩] := by
  intro h
  have hcompletes : (presignProgram ⟨true, 100⟩ rejectingWorld
      [⟨[], [], [], none⟩, ⟨[], [], [], none⟩]).Completes
        (attachedFiles ⟨true, 100⟩ rejectingWorld [⟨[], [], [], none⟩, ⟨[], [], [], none⟩]) := h
  have haccepts := hcompletes.accepts Nat.two_pos
  exact absurd haccepts (by decide)

end AscendAI.Rag
