import Mathlib.Data.List.Nodup
import Mathlib.Logic.Function.Basic
import AscendAI.Ingestion.IngestionService
import AscendAI.Provider.ProviderResolution

/-!
# Manual ingestion

`ManualIngestionService.run` over a bucket, the markers of the metadata store and the collections of
the vector stores. A run takes the listed objects one after the other; the failures of a run are an
input of it.
-/

namespace AscendAI.Ingestion

open JavaString Provider

/-! ### The bucket -/

structure S3Object where
  content : List UInt8
  lastModified : Option String
  deriving DecidableEq

/-- The objects of the bucket, one for each key. -/
structure Bucket where
  objects : List (String × S3Object)
  nodup : (objects.map Prod.fst).Nodup

namespace Bucket

def empty : Bucket := ⟨[], List.nodup_nil⟩

def delete (b : Bucket) (key : String) : Bucket where
  objects := b.objects.filter fun object => object.1 ≠ key
  nodup := b.nodup.sublist (List.filter_sublist.map Prod.fst)

def put (b : Bucket) (key : String) (object : S3Object) : Bucket where
  objects := (b.delete key).objects ++ [(key, object)]
  nodup := by
    rw [List.map_append, List.nodup_append]
    refine ⟨(b.delete key).nodup, List.nodup_singleton _, ?_⟩
    intro k hk k' hk' heq
    rw [List.map_singleton, List.mem_singleton] at hk'
    obtain ⟨object', hmem, rfl⟩ := List.mem_map.mp hk
    have hne := (List.mem_filter.mp hmem).2
    rw [decide_eq_true_iff] at hne
    exact hne (heq.trans hk')

/-- The objects that a listing with the prefix answers; a blank prefix is none. -/
def withPrefix (b : Bucket) (keyPrefix : Option String) : List (String × S3Object) :=
  match keyPrefix with
  | none => b.objects
  | some p => if isBlank p then b.objects else b.objects.filter fun object => startsWith object.1 p

lemma nodup_withPrefix (b : Bucket) (keyPrefix : Option String) :
    ((b.withPrefix keyPrefix).map Prod.fst).Nodup := by
  unfold withPrefix
  split
  · exact b.nodup
  · split_ifs
    · exact b.nodup
    · exact b.nodup.sublist (List.filter_sublist.map Prod.fst)

end Bucket

/-- The pages of a listing: every object is on one of them, once. -/
structure BucketListing where
  pages : List (String × S3Object) → List (List (String × S3Object))
  perm : ∀ objects, (pages objects).flatten.Perm objects

/-! ### The service -/

/-- The service with its collaborators. The ETag is a function of the content. -/
structure ManualIngestionService where
  settings : IngestionSettings
  embedding : EmbeddingProviderProperties
  extraction : Extraction
  listing : BucketListing
  eTag : List UInt8 → Option String

/-- The state that runs share: the bucket, the keys of the metadata store, and the chunks of each
collection. -/
structure IngestionState where
  bucket : Bucket
  markers : List String
  stores : String → List Document

def IngestionState.empty : IngestionState := ⟨.empty, [], fun _ => []⟩

/-- Where the ingestion of an object fails: at the claim or at the delete, which may have been carried
out, with a `RuntimeException` on the way to the chunks, with an `IngestionException` of the processor,
at an insertion after so many chunks are in, or at closing the stream. -/
inductive FaultPlace where
  | putIfAbsent (applied : Bool)
  | service
  | processor
  | delete (applied : Bool)
  | add (inserted : ℕ)
  | close
  deriving DecidableEq

/-- A failure; the removal of the marker may fail after it. -/
structure Fault where
  place : FaultPlace
  removeFails : Bool := false
  deriving DecidableEq

/-- What becomes of an object; `aborted` when an exception leaves the run. -/
inductive Outcome where
  | ignored
  | skipped
  | indexed (chunks : ℕ)
  | failed
  | aborted
  deriving DecidableEq

structure ManualIngestionResult where
  indexed : ℕ := 0
  skipped : ℕ := 0
  failed : ℕ := 0
  deriving DecidableEq

def ManualIngestionResult.count (r : ManualIngestionResult) : Outcome → ManualIngestionResult
  | .skipped => { r with skipped := r.skipped + 1 }
  | .indexed chunks => { r with indexed := r.indexed + chunks }
  | .failed => { r with failed := r.failed + 1 }
  | _ => r

section

variable (svc : ManualIngestionService)

def buildVersion (object : S3Object) : String :=
  if hasText (svc.eTag object.content) then (svc.eTag object.content).getD ""
  else object.lastModified.getD "unknown"

def buildMetadataKey (key version : String) : String := "manual-ingestion:" ++ key ++ ":" ++ version

def metadataKey (key : String) (object : S3Object) : String :=
  buildMetadataKey key (buildVersion svc object)

def addAll (store chunks : List Document) : List Document :=
  chunks.foldl (fun store chunk => store ++ [chunk]) store

def ingestIntoActiveCollection (s : IngestionState) (chunks : List Document)
    (embeddingProvider : Option String) (fault : Option FaultPlace) : IngestionState × Outcome :=
  match resolveVectorStore svc.settings.locale svc.embedding embeddingProvider with
  | .error _ => (s, .aborted)
  | .ok collection =>
    let withStore := fun store => { s with stores := Function.update s.stores collection store }
    let store := s.stores collection
    let removed := removeOldDocuments chunks store
    match chunks, fault with
    | _ :: _, some (.delete applied) => (withStore (if applied then removed else store), .aborted)
    | _ :: _, some (.add inserted) => (withStore (addAll removed (chunks.take inserted)), .aborted)
    | _, some .close => (withStore (addAll removed chunks), .aborted)
    | _, _ => (withStore (addAll removed chunks), .indexed chunks.length)

def ingestObject (s : IngestionState) (key : String) (content : List UInt8)
    (embeddingProvider : Option String) (fault : Option FaultPlace) : IngestionState × Outcome :=
  match fault with
  | some .service => (s, .aborted)
  | some .processor => (s, .failed)
  | _ =>
    let documents := documents svc.extraction svc.settings key content
    if documents.isEmpty then (s, if fault = some .close then .aborted else .skipped)
    else
      let chunks := svc.extraction.splitter.apply documents
      ingestIntoActiveCollection svc s chunks embeddingProvider fault

def removeMarker (s : IngestionState) (marker : String) (outcome : Outcome) (removeFails : Bool) :
    IngestionState × Outcome :=
  if removeFails then (s, .aborted) else ({ s with markers := s.markers.filter (· ≠ marker) }, outcome)

/-- The marker outlives the ingestion only if that does not fail. -/
def releaseOnFailure (ingested : IngestionState × Outcome) (marker : String) (removeFails : Bool) :
    IngestionState × Outcome :=
  match ingested.2 with
  | .failed => removeMarker ingested.1 marker .failed removeFails
  | .aborted => removeMarker ingested.1 marker .aborted removeFails
  | _ => ingested

def processObject (s : IngestionState) (object : String × S3Object) (embeddingProvider : Option String)
    (fault : Option Fault) : IngestionState × Outcome :=
  let key := object.1
  if isBlank key then (s, .ignored)
  else if !shouldIngestKey svc.settings key then (s, .skipped)
  else
    let marker := metadataKey svc key object.2
    let place := fault.map Fault.place
    let claimed := { s with markers := if marker ∈ s.markers then s.markers else marker :: s.markers }
    match place with
    | some (.putIfAbsent applied) => (if applied then claimed else s, .aborted)
    | _ =>
      if marker ∈ s.markers then (s, .skipped)
      else
        releaseOnFailure (ingestObject svc claimed key object.2.content embeddingProvider place) marker
          (fault.any Fault.removeFails)

/-- The loop over listed objects. There is no result when an exception leaves it. -/
def processObjects (embeddingProvider : Option String) (faults : String → Option Fault) :
    IngestionState → ManualIngestionResult → List (String × S3Object) →
      IngestionState × Option ManualIngestionResult
  | s, result, [] => (s, some result)
  | s, result, object :: objects =>
    let processed := processObject svc s object embeddingProvider (faults object.1)
    if processed.2 = .aborted then (processed.1, none)
    else processObjects embeddingProvider faults processed.1 (result.count processed.2) objects

def ingestionRun (s : IngestionState) (keyPrefix embeddingProvider : Option String)
    (faults : String → Option Fault) : IngestionState × Option ManualIngestionResult :=
  processObjects svc embeddingProvider faults s {}
    (svc.listing.pages (s.bucket.withPrefix keyPrefix)).flatten

end

inductive IngestionEvent where
  | put (key : String) (object : S3Object)
  | delete (key : String)
  | run (keyPrefix embeddingProvider : Option String) (faults : String → Option Fault)

def ingestionStep (svc : ManualIngestionService) (s : IngestionState) : IngestionEvent → IngestionState
  | .put key object => { s with bucket := s.bucket.put key object }
  | .delete key => { s with bucket := s.bucket.delete key }
  | .run keyPrefix embeddingProvider faults => (ingestionRun svc s keyPrefix embeddingProvider faults).1

/-- A run that returns with no failure leaves in the provider's collection, for every listed key that
is to be ingested, just the chunks of its content. -/
def Converges (svc : ManualIngestionService) (s : IngestionState) : IngestionEvent → Prop
  | .run keyPrefix embeddingProvider faults => ∀ result collection,
    (ingestionRun svc s keyPrefix embeddingProvider faults).2 = some result → result.failed = 0 →
    resolveVectorStore svc.settings.locale svc.embedding embeddingProvider = .ok collection →
    ∀ object ∈ s.bucket.withPrefix keyPrefix, shouldIngestKey svc.settings object.1 = true →
      ((ingestionRun svc s keyPrefix embeddingProvider faults).1.stores collection).filter
          (fun chunk => chunk.source = object.1) =
        chunksOf svc.extraction svc.settings object.1 object.2.content
  | _ => True

end AscendAI.Ingestion
