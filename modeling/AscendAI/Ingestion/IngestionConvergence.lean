import AscendAI.Ingestion.IngestionLedger

/-!
# Convergence of manual ingestion

Each collection holds what its ledger says, over every run. From this follows when a run of manual
ingestion leaves the collection of its provider up to date: just when everything that it passes over
was ingested there last with the chunks it has now.
-/

namespace AscendAI.Ingestion

open JavaString Provider Runs

section

variable {svc : ManualIngestionService} {t : TracedIngestion} {embeddingProvider : Option String}
  {faults : String → Option Fault}

/-! ### The collections and their ledger -/

lemma matches_tracedObject (h : Matches svc t) (object : String × S3Object) :
    Matches svc (tracedObject svc embeddingProvider faults t object) := by
  intro collection key
  unfold tracedObject
  dsimp only
  rw [processObject_stores]
  cases ingestedInto svc t.state object embeddingProvider (faults object.1) with
  | none => exact h collection key
  | some r =>
    obtain ⟨collection', inserted⟩ := r
    rw [filter_replaceChunks (fun chunk hchunk => source_of_mem_chunksOf hchunk), note_apply]
    split_ifs with hsame
    · obtain ⟨-, rfl⟩ := hsame
      rfl
    · exact h collection key

lemma matches_tracedObjects (h : Matches svc t) (objects : List (String × S3Object)) :
    Matches svc (tracedObjects svc embeddingProvider faults t objects) := by
  induction objects generalizing t with
  | nil => exact h
  | cons object objects ih =>
    unfold tracedObjects
    dsimp only
    split_ifs
    · exact matches_tracedObject h object
    · exact ih (matches_tracedObject h object)

lemma matches_tracedStep (h : Matches svc t) (e : IngestionEvent) : Matches svc (tracedStep svc t e) := by
  cases e with
  | put key object => exact h
  | delete key => exact h
  | run keyPrefix embeddingProvider faults => exact matches_tracedObjects h _

lemma matches_empty (svc : ManualIngestionService) : Matches svc .empty := fun _ _ => rfl

lemma tracedObjects_state (t : TracedIngestion) (result : ManualIngestionResult)
    (objects : List (String × S3Object)) :
    (tracedObjects svc embeddingProvider faults t objects).state =
      (processObjects svc embeddingProvider faults t.state result objects).1 := by
  induction objects generalizing t result with
  | nil => rfl
  | cons object objects ih =>
    unfold tracedObjects processObjects
    dsimp only
    split_ifs
    · rfl
    · exact ih _ _

lemma tracedStep_state (svc : ManualIngestionService) (t : TracedIngestion) (e : IngestionEvent) :
    (tracedStep svc t e).state = ingestionStep svc t.state e := by
  cases e with
  | put key object => rfl
  | delete key => rfl
  | run keyPrefix embeddingProvider faults => exact tracedObjects_state t {} _

/-! ### The objects of a run -/

def objectStep (svc : ManualIngestionService) (embeddingProvider : Option String)
    (faults : String → Option Fault) (s : IngestionState) (object : String × S3Object) : IngestionState :=
  (processObject svc s object embeddingProvider (faults object.1)).1

lemma failed_le_of_processObjects {s : IngestionState} {start result : ManualIngestionResult}
    {objects : List (String × S3Object)}
    (h : (processObjects svc embeddingProvider faults s start objects).2 = some result) :
    start.failed ≤ result.failed := by
  induction objects generalizing s start with
  | nil =>
    obtain rfl := Option.some.inj h
    exact Nat.le_refl _
  | cons object objects ih =>
    unfold processObjects at h
    dsimp only at h
    split_ifs at h
    have hcount : start.failed ≤ (start.count
        (processObject svc s object embeddingProvider (faults object.1)).2).failed := by
      cases (processObject svc s object embeddingProvider (faults object.1)).2 <;>
        simp [ManualIngestionResult.count]
    exact hcount.trans (ih h)

/-- A loop that returns with no failure has taken every object, with a clean outcome. -/
lemma clean_of_processObjects {s : IngestionState} {start result : ManualIngestionResult}
    {objects : List (String × S3Object)}
    (h : (processObjects svc embeddingProvider faults s start objects).2 = some result)
    (hfailed : result.failed = 0) :
    Along (objectStep svc embeddingProvider faults)
        (fun s object => (processObject svc s object embeddingProvider (faults object.1)).2.Clean) s objects ∧
      (processObjects svc embeddingProvider faults s start objects).1 =
        run (objectStep svc embeddingProvider faults) s objects := by
  induction objects generalizing s start with
  | nil => exact ⟨trivial, rfl⟩
  | cons object objects ih =>
    unfold processObjects at h ⊢
    dsimp only at h ⊢
    split_ifs at h with haborted
    rw [if_neg haborted]
    obtain ⟨halong, hstate⟩ := ih h
    refine ⟨⟨⟨?_, haborted⟩, halong⟩, hstate⟩
    intro houtcome
    have hle := failed_le_of_processObjects h
    rw [houtcome] at hle
    simp only [ManualIngestionResult.count] at hle
    omega

lemma filter_objectStep_of_ne {s : IngestionState} {object : String × S3Object} {key : String}
    (h : key ≠ object.1) (collection : String) :
    ((objectStep svc embeddingProvider faults s object).stores collection).filter
        (fun chunk => chunk.source = key) =
      (s.stores collection).filter fun chunk => chunk.source = key := by
  unfold objectStep
  rw [processObject_stores]
  cases ingestedInto svc s object embeddingProvider (faults object.1) with
  | none => rfl
  | some r =>
    obtain ⟨collection', inserted⟩ := r
    rw [filter_replaceChunks (fun chunk hchunk => source_of_mem_chunksOf hchunk),
      if_neg (fun hsame => h hsame.2)]

/-- The rest of a run leaves the chunks of other keys alone. -/
lemma filter_run_of_notMem {objects : List (String × S3Object)} {key : String}
    (h : key ∉ objects.map Prod.fst) (s : IngestionState) (collection : String) :
    ((run (objectStep svc embeddingProvider faults) s objects).stores collection).filter
        (fun chunk => chunk.source = key) =
      (s.stores collection).filter fun chunk => chunk.source = key := by
  induction objects generalizing s with
  | nil => rfl
  | cons object objects ih =>
    rw [List.map_cons, List.mem_cons, not_or] at h
    rw [run_cons, ih h.2, filter_objectStep_of_ne h.1]

/-- An object is up to date after its step exactly when it is fresh. -/
lemma objectFresh_iff {object : String × S3Object} {collection : String} (h : Matches svc t)
    (hcollection : resolveVectorStore svc.settings.locale svc.embedding embeddingProvider = .ok collection)
    (hclean : (processObject svc t.state object embeddingProvider (faults object.1)).2.Clean) :
    (shouldIngestKey svc.settings object.1 = true →
        ((objectStep svc embeddingProvider faults t.state object).stores collection).filter
            (fun chunk => chunk.source = object.1) =
          chunksOf svc.extraction svc.settings object.1 object.2.content) ↔
      ObjectFresh svc collection t object := by
  unfold ObjectFresh objectStep
  apply forall_congr'
  intro hingest
  rw [← h collection object.1, processObject_stores]
  unfold ingestedInto
  cases hpasses : passesOver svc t.state object with
  | true =>
    have hover : isBlank object.1 = true ∨ metadataKey svc object.1 object.2 ∈ t.state.markers := by
      simpa [passesOver, hingest] using hpasses
    have hover := hover.imp_right (Or.inl (b :=
      chunksOf svc.extraction svc.settings object.1 object.2.content = []))
    rw [if_pos rfl]
    exact ⟨fun hchunks _ => hchunks, fun hfresh => hfresh hover⟩
  | false =>
    rw [if_neg Bool.false_ne_true]
    by_cases hchunks : chunksOf svc.extraction svc.settings object.1 object.2.content = []
    · rw [hchunks]
      exact ⟨fun h _ => h, fun h => h (Or.inr (Or.inr rfl))⟩
    · have hover : ¬(isBlank object.1 = true ∨ metadataKey svc object.1 object.2 ∈ t.state.markers ∨
          chunksOf svc.extraction svc.settings object.1 object.2.content = []) := by
        have hnot : ¬(isBlank object.1 = true) ∧ metadataKey svc object.1 object.2 ∉ t.state.markers := by
          simpa [passesOver, hingest] using hpasses
        tauto
      have hplace := place_eq_none_of_clean hcollection hpasses hchunks hclean
      have hreplaced : replacedIn svc (chunksOf svc.extraction svc.settings object.1 object.2.content)
          embeddingProvider ((faults object.1).map Fault.place) =
            some (collection, (chunksOf svc.extraction svc.settings object.1 object.2.content).length) := by
        unfold replacedIn
        rw [if_neg (by simpa using hchunks), hcollection, hplace]
        rfl
      rw [hreplaced, filter_replaceChunks (fun chunk hchunk => source_of_mem_chunksOf hchunk),
        if_pos ⟨rfl, rfl⟩, List.take_length]
      exact iff_of_true rfl (fun h => absurd h hover)

lemma run_fresh_iff {collection : String} {objects : List (String × S3Object)} (h : Matches svc t)
    (hcollection : resolveVectorStore svc.settings.locale svc.embedding embeddingProvider = .ok collection)
    (hnodup : (objects.map Prod.fst).Nodup)
    (hclean : Along (objectStep svc embeddingProvider faults)
      (fun s object => (processObject svc s object embeddingProvider (faults object.1)).2.Clean)
      t.state objects) :
    (∀ object ∈ objects, shouldIngestKey svc.settings object.1 = true →
        ((run (objectStep svc embeddingProvider faults) t.state objects).stores collection).filter
            (fun chunk => chunk.source = object.1) =
          chunksOf svc.extraction svc.settings object.1 object.2.content) ↔
      Along (tracedObject svc embeddingProvider faults) (ObjectFresh svc collection) t objects := by
  induction objects generalizing t with
  | nil => exact iff_of_true (fun _ hobject => absurd hobject List.not_mem_nil) trivial
  | cons object objects ih =>
    rw [List.map_cons, List.nodup_cons] at hnodup
    rw [List.forall_mem_cons, run_cons, filter_run_of_notMem hnodup.1]
    exact and_congr (objectFresh_iff h hcollection hclean.1)
      (ih (matches_tracedObject h object) hnodup.2 hclean.2)

lemma converges_iff_fresh (h : Matches svc t) (e : IngestionEvent) :
    Converges svc t.state e ↔ Fresh svc t e := by
  cases e with
  | put key object => exact Iff.rfl
  | delete key => exact Iff.rfl
  | run keyPrefix embeddingProvider faults =>
    unfold Converges Fresh
    apply forall_congr'
    intro result
    apply forall_congr'
    intro collection
    apply forall₃_congr
    intro hresult hfailed hcollection
    have hperm := svc.listing.perm (t.state.bucket.withPrefix keyPrefix)
    have hnodup := (hperm.map Prod.fst).nodup_iff.mpr (t.state.bucket.nodup_withPrefix keyPrefix)
    obtain ⟨hclean, hstate⟩ := clean_of_processObjects hresult hfailed
    rw [← run_fresh_iff h hcollection hnodup hclean]
    unfold ingestionRun
    rw [hstate]
    apply forall_congr'
    intro object
    rw [hperm.mem_iff]

end

/-- Every run that returns with no failure leaves the collection of its provider up to date exactly
when every such run finds fresh what it passes over. -/
theorem manual_ingestion_converges_iff (svc : ManualIngestionService) (events : List IngestionEvent) :
    Along (ingestionStep svc) (Converges svc) .empty events ↔
      Along (tracedStep svc) (Fresh svc) .empty events := by
  have hfresh : Along (tracedStep svc) (fun t e => Converges svc t.state e) .empty events ↔
      Along (tracedStep svc) (Fresh svc) .empty events :=
    along_congr_of_invariant (I := Matches svc) (fun t e h => matches_tracedStep h e)
      (fun t e h => converges_iff_fresh h e) (matches_empty svc) events
  exact (along_map (tracedStep_state svc) (Converges svc) .empty events).trans hfresh

/-! ### Three ways not to converge -/

def bytesOf (text : String) : List UInt8 := text.toList.map fun c => UInt8.ofNat c.toNat

def textOf (content : List UInt8) : String := String.ofList (content.map fun b => Char.ofNat b.toNat)

/-- A splitter that makes a chunk of each document but the shortest. -/
def plainSplitter : TextSplitter where
  apply documents := documents.filter fun document => 5 < document.text.length
  source_mem _ chunk hchunk := ⟨chunk, List.mem_of_mem_filter hchunk, rfl⟩

def plainIngestion : ManualIngestionService where
  settings := { locale := .ascii }
  embedding := Provider.lmstudioEmbedding
  extraction := ⟨textOf, fun _ => none, fun _ _ => none, plainSplitter⟩
  listing := ⟨fun objects => [objects], fun objects => by simp⟩
  eTag content := some (textOf content)

def putNote (text : String) : IngestionEvent := .put "markdown/a.md" ⟨bytesOf text, none⟩

def runAll (embeddingProvider : Option String) : IngestionEvent := .run none embeddingProvider fun _ => none

/-- A note that goes back to its first text keeps the chunks of the second, one that was ingested with
one provider is missing for another, and one that loses its text keeps its chunks. -/
theorem manual_ingestion_diverges :
    ¬Along (ingestionStep plainIngestion) (Converges plainIngestion) .empty
        [putNote "green tea", runAll none, putNote "black tea", runAll none, putNote "green tea",
          runAll none] ∧
      ¬Along (ingestionStep plainIngestion) (Converges plainIngestion) .empty
        [putNote "green tea", runAll none, runAll (some "openai")] ∧
      ¬Along (ingestionStep plainIngestion) (Converges plainIngestion) .empty
        [putNote "green tea", runAll none, putNote "", runAll none] := by
  refine ⟨fun h => ?_, fun h => ?_, fun h => ?_⟩
  · have hlast := h.2.2.2.2.2.1 ⟨0, 1, 0⟩ "ascendai-768" (by decide) rfl (by decide)
      ("markdown/a.md", ⟨bytesOf "green tea", none⟩) (by decide) (by decide)
    revert hlast
    decide
  · have hlast := h.2.2.1 ⟨0, 1, 0⟩ "ascendai-1536" (by decide) rfl (by decide)
      ("markdown/a.md", ⟨bytesOf "green tea", none⟩) (by decide) (by decide)
    revert hlast
    decide
  · have hlast := h.2.2.2.1 ⟨0, 0, 0⟩ "ascendai-768" (by decide) rfl (by decide)
      ("markdown/a.md", ⟨bytesOf "", none⟩) (by decide) (by decide)
    revert hlast
    decide

end AscendAI.Ingestion
