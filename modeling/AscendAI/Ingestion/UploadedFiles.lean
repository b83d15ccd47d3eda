import AscendAI.Ingestion.SanitizedNames
import AscendAI.Ingestion.Upload

/-!
# The files of one upload

Each accepted file is written under a key that depends on nothing but its name, so files of one request
keep apart exactly when their sanitized names do.
-/

namespace AscendAI.Ingestion

open JavaString

section

variable (cfg : UploadSettings)

def safeNameOf (file : MultipartFile) : String := sanitizeFilename cfg.cleanPath file.originalFilename

def keyOf (file : MultipartFile) : String := uploadKey cfg file.originalFilename

def sniffedType (file : MultipartFile) : String :=
  cfg.ingestion.locale.toLowerCase (detect cfg file (safeNameOf cfg file))

def isAllowed (file : MultipartFile) : Bool :=
  cfg.allowedMimeTypes.isEmpty || cfg.allowedMimeTypes.contains (sniffedType cfg file)

/-- The files that the request stores, and those that it refuses, in the order of the request. -/
def acceptedFiles (files : List MultipartFile) : List MultipartFile :=
  files.filter fun file => !file.bytes.isEmpty && isAllowed cfg file

def refusedFiles (files : List MultipartFile) : List MultipartFile :=
  files.filter fun file => !file.bytes.isEmpty && !isAllowed cfg file

def refusal (file : MultipartFile) : String :=
  safeNameOf cfg file ++ ": disallowed type '" ++ sniffedType cfg file ++ "'"

/-- The request, with a storage that does not fail. -/
def uploadAll (bucket : String → Option (List UInt8)) (files : List MultipartFile) :
    (String → Option (List UInt8)) × UploadOutcome :=
  uploadDocument cfg bucket (files.map fun file => (file, true))

def UploadOutcome.uploaded : UploadOutcome → List String
  | .failed _ => []
  | .ok uploaded _ => uploaded

/-- What the response says of the files: the keys of the accepted ones and the refusals of the others. -/
def Reports (files : List MultipartFile) : UploadOutcome → Prop
  | .ok uploaded failures =>
    uploaded = (acceptedFiles cfg files).map (keyOf cfg) ∧
      failures = (refusedFiles cfg files).map (refusal cfg)
  | .failed body => acceptedFiles cfg files = [] ∧
    (body = ⟨400, "no_file", "No file provided"⟩ ∧ refusedFiles cfg files = [] ∨
      body = ⟨415, "unsupported_media_type",
        "No files uploaded: " ++ "; ".intercalate ((refusedFiles cfg files).map (refusal cfg))⟩)

/-- The files of the request do not overwrite each other. -/
structure KeptApart (bucket : String → Option (List UInt8)) (files : List MultipartFile) : Prop where
  distinct : (uploadAll cfg bucket files).2.uploaded.Nodup
  contents : ∀ file ∈ acceptedFiles cfg files,
    (uploadAll cfg bucket files).1 (keyOf cfg file) = some file.bytes
  reported : Reports cfg files (uploadAll cfg bucket files).2
  once : (acceptedFiles cfg files ++ refusedFiles cfg files).Perm
    (files.filter fun file => !file.bytes.isEmpty)
  others : ∀ key, key ∉ (uploadAll cfg bucket files).2.uploaded →
    (uploadAll cfg bucket files).1 key = bucket key

/-! ### The loop -/

/-- The writes of the accepted files, one after the other. -/
def storeFiles (bucket : String → Option (List UInt8)) (files : List MultipartFile) :
    String → Option (List UInt8) :=
  files.foldl (fun bucket file => Function.update bucket (keyOf cfg file) (some file.bytes)) bucket

lemma storeFiles_of_notMem {bucket : String → Option (List UInt8)} {files : List MultipartFile}
    {key : String} (h : key ∉ files.map (keyOf cfg)) : storeFiles cfg bucket files key = bucket key := by
  induction files generalizing bucket with
  | nil => rfl
  | cons file files ih =>
    rw [List.map_cons, List.mem_cons, not_or] at h
    rw [storeFiles, List.foldl_cons, ← storeFiles, ih h.2, Function.update_of_ne h.1]

lemma storeFiles_of_mem {bucket : String → Option (List UInt8)} {files : List MultipartFile}
    (hnodup : (files.map (keyOf cfg)).Nodup) {file : MultipartFile} (h : file ∈ files) :
    storeFiles cfg bucket files (keyOf cfg file) = some file.bytes := by
  induction files generalizing bucket with
  | nil => cases h
  | cons first files ih =>
    rw [List.map_cons, List.nodup_cons] at hnodup
    rw [storeFiles, List.foldl_cons, ← storeFiles]
    rcases List.mem_cons.mp h with rfl | hrest
    · rw [storeFiles_of_notMem cfg hnodup.1, Function.update_self]
    · exact ih hnodup.2 hrest

/-- One file: it is skipped, refused, or stored. -/
lemma uploadFile_eq (s : UploadState) (file : MultipartFile) :
    uploadFile cfg s file true =
      if file.bytes.isEmpty then s
      else if isAllowed cfg file then
        { s with
          bucket := Function.update s.bucket (keyOf cfg file) (some file.bytes)
          uploadedKeys := s.uploadedKeys ++ [keyOf cfg file] }
      else { s with failures := s.failures ++ [refusal cfg file] } := by
  have hrefused : (!cfg.allowedMimeTypes.isEmpty && !cfg.allowedMimeTypes.contains
      (sniffedType cfg file)) = !isAllowed cfg file := by
    rw [isAllowed, Bool.not_or]
  unfold uploadFile
  simp only [← safeNameOf.eq_1, ← sniffedType.eq_1, hrefused, ← keyOf.eq_1]
  cases isAllowed cfg file with
  | true => rfl
  | false => rfl

lemma uploadFiles_eq (s : UploadState) (files : List MultipartFile) :
    uploadFiles cfg s (files.map fun file => (file, true)) =
      ⟨storeFiles cfg s.bucket (acceptedFiles cfg files),
        s.uploadedKeys ++ (acceptedFiles cfg files).map (keyOf cfg),
        s.failures ++ (refusedFiles cfg files).map (refusal cfg)⟩ := by
  induction files generalizing s with
  | nil => simp [uploadFiles, acceptedFiles, refusedFiles, storeFiles]
  | cons file files ih =>
    have hcons : uploadFiles cfg s ((file :: files).map fun file => (file, true)) =
        uploadFiles cfg (uploadFile cfg s file true) (files.map fun file => (file, true)) := rfl
    rw [hcons, ih, uploadFile_eq]
    cases hempty : file.bytes.isEmpty with
    | true => simp [acceptedFiles, refusedFiles, hempty]
    | false =>
      cases hallowed : isAllowed cfg file with
      | true => simp [acceptedFiles, refusedFiles, hempty, hallowed, storeFiles]
      | false => simp [acceptedFiles, refusedFiles, hempty, hallowed]

lemma acceptedFiles_append_refusedFiles_perm (files : List MultipartFile) :
    (acceptedFiles cfg files ++ refusedFiles cfg files).Perm
      (files.filter fun file => !file.bytes.isEmpty) := by
  have hsplit := List.filter_append_perm (fun file => isAllowed cfg file)
    (files.filter fun file => !file.bytes.isEmpty)
  simpa only [List.filter_filter, acceptedFiles, refusedFiles, Bool.and_comm] using hsplit

lemma uploadAll_eq (bucket : String → Option (List UInt8)) (files : List MultipartFile) :
    (uploadAll cfg bucket files).1 = storeFiles cfg bucket (acceptedFiles cfg files) ∧
      (uploadAll cfg bucket files).2.uploaded = (acceptedFiles cfg files).map (keyOf cfg) ∧
      Reports cfg files (uploadAll cfg bucket files).2 := by
  unfold uploadAll uploadDocument
  rw [uploadFiles_eq]
  simp only [List.all_map, List.nil_append]
  split
  · rename_i hall
    have hnone : ∀ p : MultipartFile → Bool, (files.filter fun file => !file.bytes.isEmpty && p file) = [] := by
      intro p
      rw [List.filter_eq_nil_iff]
      intro file hfile
      have hempty := List.all_eq_true.mp hall file hfile
      simp only [Function.comp_apply] at hempty
      simp [hempty]
    have haccepted : acceptedFiles cfg files = [] := hnone _
    have hrefused : refusedFiles cfg files = [] := hnone _
    rw [haccepted]
    exact ⟨rfl, rfl, haccepted, .inl ⟨rfl, hrefused⟩⟩
  · split
    · rename_i hkeys
      have haccepted : acceptedFiles cfg files = [] := by simpa using hkeys
      refine ⟨rfl, ?_, haccepted, .inr rfl⟩
      rw [haccepted]
      rfl
    · exact ⟨rfl, rfl, rfl, rfl⟩

/-! ### Keys and names -/

lemma slash_notMem_safeNameOf (file : MultipartFile) : '/' ∉ (safeNameOf cfg file).toList := by
  intro hmem
  have hchar := isNameChar_of_mem_sanitizeFilename cfg.cleanPath file.originalFilename hmem
  exact absurd hchar (by decide)

lemma keyOf_eq_iff (file file' : MultipartFile) :
    keyOf cfg file = keyOf cfg file' ↔ safeNameOf cfg file = safeNameOf cfg file' := by
  have hkey : ∀ file, ∃ folder : String, keyOf cfg file = folder ++ "/" ++ safeNameOf cfg file := by
    intro file
    unfold keyOf uploadKey determineFolder
    dsimp only
    split
    · exact ⟨_, rfl⟩
    · exact ⟨_, rfl⟩
  constructor
  · intro h
    obtain ⟨folder, hfile⟩ := hkey file
    obtain ⟨folder', hfile'⟩ := hkey file'
    have hlists : folder.toList ++ '/' :: (safeNameOf cfg file).toList =
        folder'.toList ++ '/' :: (safeNameOf cfg file').toList := by
      have heq := congrArg String.toList (hfile.symm.trans (h.trans hfile'))
      simpa using heq
    exact String.toList_injective (append_cons_inj_of_notMem hlists (slash_notMem_safeNameOf cfg file)
      (slash_notMem_safeNameOf cfg file')).2
  · intro h
    unfold keyOf uploadKey
    simp only [← safeNameOf.eq_1, h]

lemma nodup_keys_iff (files : List MultipartFile) :
    (files.map (keyOf cfg)).Nodup ↔ (files.map (safeNameOf cfg)).Nodup := by
  simp only [List.Nodup, List.pairwise_map, ne_eq, keyOf_eq_iff]

/-- The files of a request keep apart exactly when no two accepted ones have the same sanitized name. -/
theorem keptApart_iff (bucket : String → Option (List UInt8)) (files : List MultipartFile) :
    KeptApart cfg bucket files ↔ ((acceptedFiles cfg files).map (safeNameOf cfg)).Nodup := by
  obtain ⟨hbucket, huploaded, hreports⟩ := uploadAll_eq cfg bucket files
  rw [← nodup_keys_iff]
  constructor
  · intro h
    rw [← huploaded]
    exact h.distinct
  · intro hnodup
    refine ⟨huploaded ▸ hnodup, fun file hfile => ?_, hreports,
      acceptedFiles_append_refusedFiles_perm cfg files, fun key hkey => ?_⟩
    · rw [hbucket]
      exact storeFiles_of_mem cfg hnodup hfile
    · rw [hbucket]
      exact storeFiles_of_notMem cfg (huploaded ▸ hkey)

end

def twoReports : List MultipartFile :=
  [⟨some "a/report.pdf", none, [1]⟩, ⟨some "b/report.pdf", none, [2]⟩]

/-- Two reports of different folders have the same key: the second one is all that is left. -/
theorem twoReports_overwrite :
    (uploadAll plainUpload (fun _ => none) twoReports).2 =
        .ok ["documents/report.pdf", "documents/report.pdf"] [] ∧
      (uploadAll plainUpload (fun _ => none) twoReports).1 "documents/report.pdf" = some [2] ∧
      ¬KeptApart plainUpload (fun _ => none) twoReports := by
  have hresponse : (uploadAll plainUpload (fun _ => none) twoReports).2 =
      .ok ["documents/report.pdf", "documents/report.pdf"] [] := by
    decide +kernel
  refine ⟨hresponse, by decide +kernel, fun h => ?_⟩
  have hdistinct := h.distinct
  rw [hresponse] at hdistinct
  revert hdistinct
  decide

end AscendAI.Ingestion
