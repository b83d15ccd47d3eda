import AscendAI.Lib.JavaString

/-!
# What an object of the bucket is

`ManualIngestionService` and the flow of `IngestionPipelineConfig` decide by its key whether
to ingest an object, and which processor of `IngestionService` reads it.
-/

namespace AscendAI.Ingestion

open JavaString

/-- `app.ingestion.folders.*` with its shipped values, and the locale of the machine. -/
structure IngestionSettings where
  locale : JavaLocale
  markdownFolder : String := "markdown"
  documentsFolder : String := "documents"

inductive Processor where
  | processMarkdown
  | processUnstructured
  deriving DecidableEq

inductive Channel where
  | markdownChannel
  | unstructuredChannel
  | nullChannel
  deriving DecidableEq

/-- The transformer of the flow that reads from the channel. -/
def Channel.processor : Channel → Option Processor
  | .markdownChannel => some .processMarkdown
  | .unstructuredChannel => some .processUnstructured
  | .nullChannel => none

section

variable (cfg : IngestionSettings)

def isMarkdown (key : String) : Bool :=
  endsWith (cfg.locale.toLowerCase key) ".md" ||
    contains (cfg.locale.toLowerCase key) cfg.markdownFolder

def processorFor (key : String) : Processor :=
  if isMarkdown cfg key then .processMarkdown else .processUnstructured

def shouldIngestKey (key : String) : Bool :=
  let path := cfg.locale.toLowerCase key
  if endsWith path ".md" || contains path cfg.markdownFolder then true
  else contains path cfg.documentsFolder

def routeFile : Option String → Channel
  | none => .nullChannel
  | some filename =>
    let path := cfg.locale.toLowerCase filename
    if endsWith path ".md" || contains path cfg.markdownFolder then .markdownChannel
    else if contains path cfg.documentsFolder then .unstructuredChannel
    else .nullChannel

variable {cfg} {key : String}

lemma shouldIngestKey_of_isMarkdown (h : isMarkdown cfg key = true) : shouldIngestKey cfg key = true := by
  unfold isMarkdown at h
  unfold shouldIngestKey
  rw [if_pos h]

lemma shouldIngestKey_of_contains
    (h : contains (cfg.locale.toLowerCase key) cfg.documentsFolder = true) :
    shouldIngestKey cfg key = true := by
  unfold shouldIngestKey
  dsimp only
  rw [h]
  exact ite_self true

/-- The two pipelines take the same objects and read them alike. -/
theorem processor_routeFile (cfg : IngestionSettings) (key : String) :
    (routeFile cfg (some key)).processor =
      if shouldIngestKey cfg key then some (processorFor cfg key) else none := by
  unfold routeFile shouldIngestKey processorFor isMarkdown
  dsimp only
  split_ifs with hmarkdown htrue
  · rfl
  · exact absurd rfl htrue
  · rfl
  · rfl

end

end AscendAI.Ingestion
