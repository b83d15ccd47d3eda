import AscendAI.Lib.FirstOccurrences
import AscendAI.Lib.JavaText
import AscendAI.Lib.TextBudget

/-!
# Retrieval of context for a prompt

`RagRetrievalService` keeps the documents at or above the threshold, puts their texts into a context
block and lists the objects they come from. The vector store is a parameter, and the scores are of any
type with a comparison.
-/

namespace AscendAI.Rag

open JavaText FirstOccurrences TextBudget

/-- The metadata of a document, every value as its `toString`. -/
abbrev Metadata := String → Option JavaText

structure Document (Score : Type) where
  text : Option JavaText
  score : Option Score
  metadata : Option Metadata

structure SourceRef where
  bucket : JavaText
  key : JavaText
  displayName : JavaText
  mimeType : Option JavaText
  deriving DecidableEq

structure RagRetrievalResult where
  context : JavaText
  sources : List SourceRef
  retrievalRan : Bool
  deriving DecidableEq

def RagRetrievalResult.skipped : RagRetrievalResult := ⟨[], [], false⟩

def RagRetrievalResult.empty : RagRetrievalResult := ⟨[], [], true⟩

structure RagProperties (Score : Type) where
  enabled : Bool
  topK : ℤ
  similarityThreshold : Score
  maxContextChars : ℤ

structure SearchRequest (Score : Type) where
  query : JavaText
  topK : ℤ
  similarityThreshold : Score

/-- `similaritySearch` of the store, which may throw. -/
abbrev VectorStore (Score : Type) := SearchRequest Score → Except String (List (Document Score))

variable {Score : Type}

/-! ### The sources of documents -/

def stringMeta (metadata : Option Metadata) (key : String) : Option JavaText :=
  metadata.bind fun values => values key

def slash : UInt16 := 0x2F

def basename (key : JavaText) : JavaText :=
  match lastIndexOf [slash] key with
  | some i => key.drop (i + 1)
  | none => key

/-- The reference that one document gives, if it has a key. -/
def sourceRef? (defaultBucket : JavaText) (doc : Document Score) : Option SourceRef :=
  match (stringMeta doc.metadata "key").or (stringMeta doc.metadata "source") with
  | none => none
  | some key =>
    if isBlank key then none
    else
      let bucket :=
        match stringMeta doc.metadata "bucket" with
        | none => defaultBucket
        | some bucket => if isBlank bucket then defaultBucket else bucket
      let displayName := (stringMeta doc.metadata "displayName").or (stringMeta doc.metadata "title")
      some ⟨bucket, key, displayName.getD (basename key), stringMeta doc.metadata "mimeType"⟩

def dedupKey (bucket key : JavaText) : JavaText := bucket ++ ofLiteral "::" ++ key

def trackSource (defaultBucket : JavaText) (dedup : OrderedDict JavaText SourceRef) (doc : Document Score) :
    OrderedDict JavaText SourceRef :=
  match sourceRef? defaultBucket doc with
  | none => dedup
  | some ref => putIfAbsent dedup (dedupKey ref.bucket ref.key) ref

def buildSourceRefs (defaultBucket : JavaText) (documents : List (Document Score)) : List SourceRef :=
  (documents.foldl (trackSource defaultBucket) .empty).items.map Prod.snd

/-! ### The context block -/

def header : JavaText :=
  ofLiteral "<rag_context>\nThe following context may be relevant. Use it only if it helps; otherwise ignore it.\n\n"

def separator : JavaText := ofLiteral "\n\n"

def footer : JavaText := ofLiteral "</rag_context>"

/-- The loop of `buildContextBlock`. -/
def appendTexts : ℤ → List (Document Score) → JavaText → JavaText
  | _, [], context => context
  | remaining, doc :: documents, context =>
    if remaining ≤ 0 then context
    else
      match doc.text with
      | none => appendTexts remaining documents context
      | some text =>
        if isBlank text then appendTexts remaining documents context
        else
          let snippet := if (text.length : ℤ) > remaining then text.take remaining.toNat else text
          appendTexts (remaining - snippet.length) documents (context ++ snippet ++ separator)

def buildContextBlock (maxContextChars : ℤ) (documents : List (Document Score)) : JavaText :=
  appendTexts maxContextChars documents header ++ footer

/-! ### Retrieval -/

section

variable [LE Score] [DecidableLE Score]

def isKept (threshold : Score) (d : Document Score) : Bool :=
  match d.score with
  | none => false
  | some score => decide (threshold ≤ score)

def keptDocuments (threshold : Score) (candidates : List (Document Score)) : List (Document Score) :=
  candidates.filter (isKept threshold)

def performSimilaritySearch (vectorStore : VectorStore Score) (searchRequest : SearchRequest Score) :
    List (Document Score) :=
  match vectorStore searchRequest with
  | .ok documents => documents
  | .error _ => []

def retrieve [Zero Score] (ragProperties : RagProperties Score) (defaultBucket : JavaText)
    (vectorStore : VectorStore Score) (query : JavaText) : RagRetrievalResult :=
  if !ragProperties.enabled then .skipped
  else
    let candidates := performSimilaritySearch vectorStore ⟨query, ragProperties.topK, 0⟩
    let kept := keptDocuments ragProperties.similarityThreshold candidates
    if kept.isEmpty then .empty
    else ⟨buildContextBlock ragProperties.maxContextChars kept, buildSourceRefs defaultBucket kept, true⟩

end

/-! ### What the two loops do -/

/-- The bucket and the key that a document gives. -/
def identity? (defaultBucket : JavaText) (doc : Document Score) : Option (JavaText × JavaText) :=
  (sourceRef? defaultBucket doc).map fun ref => (ref.bucket, ref.key)

def identities (defaultBucket : JavaText) (documents : List (Document Score)) : List (JavaText × JavaText) :=
  documents.filterMap (identity? defaultBucket)

/-- The bucket and the key as the deduplication joins them. -/
def joinedName (identity : JavaText × JavaText) : JavaText := dedupKey identity.1 identity.2

lemma foldl_trackSource (defaultBucket : JavaText) (documents : List (Document Score))
    (dedup : OrderedDict JavaText SourceRef) :
    documents.foldl (trackSource defaultBucket) dedup =
      putAllIfAbsent dedup ((documents.filterMap (sourceRef? defaultBucket)).map
        fun ref => (dedupKey ref.bucket ref.key, ref)) := by
  induction documents generalizing dedup with
  | nil => rfl
  | cons doc documents ih =>
    rw [List.foldl_cons, ih, trackSource]
    cases hsource : sourceRef? defaultBucket doc with
    | none => rw [List.filterMap_cons_none hsource]
    | some ref =>
      rw [List.filterMap_cons_some hsource, List.map_cons]
      rfl

/-- The references are the first ones under each joined name. -/
theorem identities_buildSourceRefs (defaultBucket : JavaText) (documents : List (Document Score)) :
    (buildSourceRefs defaultBucket documents).map (fun ref => (ref.bucket, ref.key)) =
      firsts joinedName (identities defaultBucket documents) := by
  have hidentities : identities defaultBucket documents =
      (documents.filterMap (sourceRef? defaultBucket)).map fun ref => (ref.bucket, ref.key) := by
    rw [List.map_filterMap]
    rfl
  rw [buildSourceRefs, foldl_trackSource, items_putAllIfAbsent_empty, ← map_firsts, List.map_map,
    List.map_map, hidentities, ← map_firsts]
  rfl

/-- The text of a document that the context block can use. -/
def usableText (doc : Document Score) : Option JavaText := doc.text.filter fun text => hasText text

lemma appendTexts_eq (remaining : ℤ) (documents : List (Document Score)) (context : JavaText) :
    appendTexts remaining documents context =
      context ++ (injected remaining.toNat (documents.filterMap usableText)).flatMap (· ++ separator) := by
  induction documents generalizing remaining context with
  | nil => exact (List.append_nil context).symm
  | cons doc documents ih =>
    rw [appendTexts]
    split
    · rename_i hremaining
      rw [Int.toNat_eq_zero.mpr hremaining, injected_zero]
      exact (List.append_nil context).symm
    · rename_i hremaining
      cases htext : doc.text with
      | none =>
        have husable : usableText doc = none := by rw [usableText, htext]; rfl
        rw [List.filterMap_cons_none husable]
        exact ih ..
      | some text =>
        dsimp only
        split
        · rename_i hblank
          have husable : usableText doc = none := by
            rw [usableText, htext, Option.filter_some, hasText, hblank]
            rfl
          rw [List.filterMap_cons_none husable]
          exact ih ..
        · rename_i hblank
          have husable : usableText doc = some text := by
            rw [usableText, htext, Option.filter_some, hasText, if_pos (by simpa using hblank)]
          have hsnippet : (if (text.length : ℤ) > remaining then text.take remaining.toNat else text) =
              text.take remaining.toNat := by
            split
            · rfl
            · exact (List.take_of_length_le (by omega)).symm
          have hrest : (remaining - (text.take remaining.toNat).length).toNat =
              remaining.toNat - text.length := by
            rw [List.length_take]
            omega
          rw [List.filterMap_cons_some husable, injected_cons_of_pos (by omega), hsnippet, ih, hrest,
            List.flatMap_cons]
          simp only [List.append_assoc]

end AscendAI.Rag
