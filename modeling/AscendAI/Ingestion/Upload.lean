import AscendAI.Ingestion.IngestionSecurity
import AscendAI.Ingestion.Routing

/-!
# Upload of documents

`IngestionController.uploadDocument` stores each file of a request under a key made of a
folder and the sanitized name. The folder depends on the name as it is written, while the
pipelines look at the key in lower case.
-/

namespace AscendAI.Ingestion

open JavaString

structure MultipartFile where
  originalFilename : Option String
  contentType : Option String
  bytes : List UInt8

/-- What the upload depends on: the settings, Spring's `cleanPath`, the type that Tika finds for
bytes with a name (`none` when it fails), and the allowed types. -/
structure UploadSettings where
  ingestion : IngestionSettings
  cleanPath : String → String
  tika : List UInt8 → String → Option String
  allowedMimeTypes : List String

structure ApiError where
  status : ℕ
  error : String
  message : String
  deriving DecidableEq

inductive UploadOutcome where
  | failed (body : ApiError)
  | ok (uploaded failures : List String)
  deriving DecidableEq

section

variable (cfg : UploadSettings)

def determineFolder (filename : String) : String :=
  if endsWith filename ".md" then cfg.ingestion.markdownFolder ++ "/"
  else cfg.ingestion.documentsFolder ++ "/"

def uploadKey (original : Option String) : String :=
  let safeName := sanitizeFilename cfg.cleanPath original
  determineFolder cfg safeName ++ safeName

def detect (file : MultipartFile) (sanitizedFilename : String) : String :=
  match cfg.tika file.bytes sanitizedFilename with
  | some detected => cfg.ingestion.locale.toLowerCase detected
  | none =>
    match file.contentType with
    | some declared => cfg.ingestion.locale.toLowerCase declared
    | none => "application/octet-stream"

structure UploadState where
  bucket : String → Option (List UInt8)
  uploadedKeys : List String
  failures : List String

/-- One file of the loop. `stored` says whether `putObject` succeeds. -/
def uploadFile (s : UploadState) (file : MultipartFile) (stored : Bool) : UploadState :=
  if file.bytes.isEmpty then s
  else
    let safeName := sanitizeFilename cfg.cleanPath file.originalFilename
    let detected := cfg.ingestion.locale.toLowerCase (detect cfg file safeName)
    if !cfg.allowedMimeTypes.isEmpty && !cfg.allowedMimeTypes.contains detected then
      { s with failures := s.failures ++ [safeName ++ ": disallowed type '" ++ detected ++ "'"] }
    else
      let key := uploadKey cfg file.originalFilename
      if stored then
        { s with
          bucket := Function.update s.bucket key (some file.bytes)
          uploadedKeys := s.uploadedKeys ++ [key] }
      else { s with failures := s.failures ++ [key ++ ": Failed to upload file to S3"] }

def uploadFiles (s : UploadState) (files : List (MultipartFile × Bool)) : UploadState :=
  files.foldl (fun s file => uploadFile cfg s file.1 file.2) s

def uploadDocument (bucket : String → Option (List UInt8)) (files : List (MultipartFile × Bool)) :
    (String → Option (List UInt8)) × UploadOutcome :=
  if files.all fun file => file.1.bytes.isEmpty then
    (bucket, .failed ⟨400, "no_file", "No file provided"⟩)
  else
    let s := uploadFiles cfg ⟨bucket, [], []⟩ files
    if s.uploadedKeys.isEmpty then
      (s.bucket, .failed ⟨415, "unsupported_media_type",
        "No files uploaded: " ++ "; ".intercalate s.failures⟩)
    else (s.bucket, .ok s.uploadedKeys s.failures)

end

/-! ### Upload and pipelines -/

/-- Both pipelines take the object, read it alike, and read it as markdown just when it is in the
markdown folder. -/
structure PipelinesAgree (cfg : IngestionSettings) (key : String) : Prop where
  shouldIngest : shouldIngestKey cfg key = true
  routed : routeFile cfg (some key) ≠ .nullChannel
  sameProcessor : (routeFile cfg (some key)).processor = some (processorFor cfg key)
  markdown_iff : processorFor cfg key = .processMarkdown ↔
    startsWith key (cfg.markdownFolder ++ "/") = true

section Shipped

variable {locale : JavaLocale} (hlocale : locale.MapsAscii) {safeName : String}

lemma isAscii_append {s t : String} (hs : isAscii s = true) (ht : isAscii t = true) :
    isAscii (s ++ t) = true := by
  unfold isAscii
  rw [String.toList_append, List.all_append, Bool.and_eq_true]
  exact ⟨hs, ht⟩

include hlocale in
lemma toLowerCase_key {folder : String} (hfolder : isAscii (folder ++ "/") = true)
    (hname : isAscii safeName = true) :
    (locale.toLowerCase (folder ++ "/" ++ safeName)).toList =
      folder.toList.map Char.toLower ++ '/' :: (locale.toLowerCase safeName).toList := by
  rw [hlocale _ (isAscii_append hfolder hname), hlocale _ hname]
  simp

include hlocale in
lemma contains_key_iff {folder : String} (hfolder : isAscii (folder ++ "/") = true)
    (hname : isAscii safeName = true) {p : String} (hp : '/' ∉ p.toList) :
    contains (locale.toLowerCase (folder ++ "/" ++ safeName)) p = true ↔
      p.toList <:+: folder.toList.map Char.toLower ∨
        contains (locale.toLowerCase safeName) p = true := by
  unfold contains
  rw [decide_eq_true_iff, decide_eq_true_iff, toLowerCase_key hlocale hfolder hname,
    infix_append_cons_iff hp]

include hlocale in
lemma endsWith_key_iff {folder : String} (hfolder : isAscii (folder ++ "/") = true)
    (hname : isAscii safeName = true) {p : String} (hp : '/' ∉ p.toList) :
    endsWith (locale.toLowerCase (folder ++ "/" ++ safeName)) p = true ↔
      endsWith (locale.toLowerCase safeName) p = true := by
  unfold endsWith
  rw [List.isSuffixOf_iff_suffix, List.isSuffixOf_iff_suffix, toLowerCase_key hlocale hfolder hname,
    suffix_append_cons_iff hp]

/-- The pipelines take the same objects, so only the markdown folder can set them apart. -/
lemma pipelinesAgree_iff {cfg : IngestionSettings} {key : String} (hingest : shouldIngestKey cfg key = true) :
    PipelinesAgree cfg key ↔
      (processorFor cfg key = .processMarkdown ↔ startsWith key (cfg.markdownFolder ++ "/") = true) := by
  have hprocessor := processor_routeFile cfg key
  rw [if_pos hingest] at hprocessor
  constructor
  · exact fun h => h.markdown_iff
  · intro hmarkdown
    constructor
    · exact hingest
    · intro hnull
      rw [hnull] at hprocessor
      cases hprocessor
    · exact hprocessor
    · exact hmarkdown

include hlocale in
lemma pipelinesAgree_markdown (hname : isAscii safeName = true) :
    PipelinesAgree { locale := locale } ("markdown" ++ "/" ++ safeName) := by
  have hfolder : contains (locale.toLowerCase ("markdown" ++ "/" ++ safeName)) "markdown" = true := by
    rw [contains_key_iff hlocale (by decide) hname (by decide)]
    exact Or.inl (by decide)
  have hmarkdown : isMarkdown { locale := locale } ("markdown" ++ "/" ++ safeName) = true := by
    unfold isMarkdown
    rw [hfolder, Bool.or_true]
  rw [pipelinesAgree_iff (shouldIngestKey_of_isMarkdown hmarkdown), processorFor, if_pos hmarkdown]
  exact iff_of_true rfl (startsWith_append _ _)

include hlocale in
lemma pipelinesAgree_documents (hname : isAscii safeName = true) :
    PipelinesAgree { locale := locale } ("documents" ++ "/" ++ safeName) ↔
      isMarkdown { locale := locale } safeName = false := by
  set cfg : IngestionSettings := { locale := locale }
  set key := "documents" ++ "/" ++ safeName with hkey
  have hmarkdown : isMarkdown cfg key = isMarkdown cfg safeName := by
    unfold isMarkdown
    rw [Bool.eq_iff_iff, Bool.or_eq_true, Bool.or_eq_true, hkey,
      endsWith_key_iff hlocale (by decide) hname (by decide),
      contains_key_iff hlocale (by decide) hname (p := "markdown") (by decide)]
    have hnot : ¬("markdown".toList <:+: "documents".toList.map Char.toLower) := by decide
    simp only [cfg, hnot, false_or]
  have hfolder : contains (locale.toLowerCase key) "documents" = true := by
    rw [hkey, contains_key_iff hlocale (by decide) hname (by decide)]
    exact Or.inl (by decide)
  have hstarts : startsWith key (cfg.markdownFolder ++ "/") = false := by
    unfold startsWith
    rw [hkey]
    simp [cfg, List.isPrefixOf]
  have hingest : shouldIngestKey cfg key = true := shouldIngestKey_of_contains hfolder
  rw [pipelinesAgree_iff hingest, hstarts, processorFor, hmarkdown]
  cases isMarkdown cfg safeName with
  | false => exact iff_of_true (iff_of_false nofun Bool.false_ne_true) rfl
  | true =>
    apply iff_of_false
    · exact fun hiff => Bool.false_ne_true (hiff.mp rfl)
    · exact nofun

include hlocale in
/-- Upload and pipelines agree on a file unless its sanitized name does not end with `.md` but looks
like markdown in lower case. -/
theorem pipelinesAgree_uploadKey_iff (cleanPath : String → String)
    (tika : List UInt8 → String → Option String) (allowedMimeTypes : List String)
    (original : Option String) :
    PipelinesAgree { locale := locale }
        (uploadKey ⟨{ locale := locale }, cleanPath, tika, allowedMimeTypes⟩ original) ↔
      endsWith (sanitizeFilename cleanPath original) ".md" = true ∨
        endsWith (locale.toLowerCase (sanitizeFilename cleanPath original)) ".md" = false ∧
          contains (locale.toLowerCase (sanitizeFilename cleanPath original)) "markdown" = false := by
  have hname := isAscii_sanitizeFilename cleanPath original
  rw [← Bool.or_eq_false_iff]
  unfold uploadKey determineFolder
  dsimp only
  cases hmd : endsWith (sanitizeFilename cleanPath original) ".md" with
  | true => exact iff_of_true (pipelinesAgree_markdown hlocale hname) (Or.inl rfl)
  | false =>
    rw [if_neg Bool.false_ne_true, pipelinesAgree_documents hlocale hname]
    simp [isMarkdown]

end Shipped

def plainUpload : UploadSettings :=
  ⟨{ locale := .ascii }, id, fun _ _ => some "text/plain", ["text/plain"]⟩

theorem plainUpload_agrees :
    PipelinesAgree plainUpload.ingestion (uploadKey plainUpload (some "notes.md")) :=
  (pipelinesAgree_uploadKey_iff mapsAscii_ascii id (fun _ _ => some "text/plain") ["text/plain"]
    (some "notes.md")).mpr (.inl (by decide))

/-- The two ways to disagree: another case of the suffix, and the name of the folder in the name. -/
theorem upload_disagrees :
    ¬PipelinesAgree plainUpload.ingestion (uploadKey plainUpload (some "README.MD")) ∧
      ¬PipelinesAgree plainUpload.ingestion (uploadKey plainUpload (some "markdown-notes.pdf")) := by
  have hcase : uploadKey plainUpload (some "README.MD") = "documents/README.MD" := by decide
  have hword : uploadKey plainUpload (some "markdown-notes.pdf") = "documents/markdown-notes.pdf" := by
    decide
  rw [hcase, hword]
  constructor
  · intro h
    have hiff := h.markdown_iff
    revert hiff
    decide
  · intro h
    have hiff := h.markdown_iff
    revert hiff
    decide

end AscendAI.Ingestion
