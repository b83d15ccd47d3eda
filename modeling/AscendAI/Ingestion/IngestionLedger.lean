import AscendAI.Lib.Runs
import AscendAI.Ingestion.ManualIngestion

/-!
# What manual ingestion leaves behind

A ledger notes, for each collection and key, the content that was ingested there last and how many of
its chunks went in. A collection always holds what its ledger says. The marker of an object does not
name the collection and outlives the object, so a run may pass over an object that the ledger of the
run's collection does not know, or knows with another content.
-/

namespace AscendAI.Ingestion

open JavaString Provider Runs

/-- The last ingestion of each key into each collection. -/
abbrev Ledger := String → String → Option (List UInt8 × ℕ)

structure TracedIngestion where
  state : IngestionState
  ledger : Ledger

def TracedIngestion.empty : TracedIngestion := ⟨.empty, fun _ _ => none⟩

section

variable (svc : ManualIngestionService)

/-- The chunks that an entry of the ledger stands for. -/
def held (key : String) : Option (List UInt8 × ℕ) → List Document
  | none => []
  | some (content, inserted) => (chunksOf svc.extraction svc.settings key content).take inserted

/-- How many of the chunks an ingestion puts in once it has deleted the old ones; `none` when it does
not come to the delete. -/
def insertedChunks (chunks : List Document) : Option FaultPlace → Option ℕ
  | some (.putIfAbsent _) => none
  | some .service => none
  | some .processor => none
  | some (.delete applied) => if applied then some 0 else none
  | some (.add inserted) => some inserted
  | _ => some chunks.length

/-- The collection in which an ingestion replaces the chunks of a key, and how many go in. -/
def replacedIn (chunks : List Document) (embeddingProvider : Option String) (fault : Option FaultPlace) :
    Option (String × ℕ) :=
  if chunks.isEmpty then none
  else
    match resolveVectorStore svc.settings.locale svc.embedding embeddingProvider with
    | .error _ => none
    | .ok collection => (insertedChunks chunks fault).map fun inserted => (collection, inserted)

def passesOver (s : IngestionState) (object : String × S3Object) : Bool :=
  isBlank object.1 || !shouldIngestKey svc.settings object.1 ||
    decide (metadataKey svc object.1 object.2 ∈ s.markers)

def ingestedInto (s : IngestionState) (object : String × S3Object) (embeddingProvider : Option String)
    (fault : Option Fault) : Option (String × ℕ) :=
  if passesOver svc s object then none
  else replacedIn svc (chunksOf svc.extraction svc.settings object.1 object.2.content) embeddingProvider
    (fault.map Fault.place)

def note (ledger : Ledger) (key : String) (content : List UInt8) : Option (String × ℕ) → Ledger
  | none => ledger
  | some (collection, inserted) =>
    Function.update ledger collection
      (Function.update (ledger collection) key (some (content, inserted)))

def tracedObject (embeddingProvider : Option String) (faults : String → Option Fault)
    (t : TracedIngestion) (object : String × S3Object) : TracedIngestion where
  state := (processObject svc t.state object embeddingProvider (faults object.1)).1
  ledger := note t.ledger object.1 object.2.content
    (ingestedInto svc t.state object embeddingProvider (faults object.1))

def tracedObjects (embeddingProvider : Option String) (faults : String → Option Fault) :
    TracedIngestion → List (String × S3Object) → TracedIngestion
  | t, [] => t
  | t, object :: objects =>
    let t' := tracedObject svc embeddingProvider faults t object
    if (processObject svc t.state object embeddingProvider (faults object.1)).2 = .aborted then t'
    else tracedObjects embeddingProvider faults t' objects

def tracedStep (t : TracedIngestion) : IngestionEvent → TracedIngestion
  | .put key object => { t with state := ingestionStep svc t.state (.put key object) }
  | .delete key => { t with state := ingestionStep svc t.state (.delete key) }
  | .run keyPrefix embeddingProvider faults =>
    tracedObjects svc embeddingProvider faults t
      (svc.listing.pages (t.state.bucket.withPrefix keyPrefix)).flatten

/-- A run that passes over an object, because of its marker or because there is no chunk to put in,
finds that the last ingestion of the key into the collection was one of the same chunks. -/
def ObjectFresh (collection : String) (t : TracedIngestion) (object : String × S3Object) : Prop :=
  shouldIngestKey svc.settings object.1 = true →
    isBlank object.1 = true ∨ metadataKey svc object.1 object.2 ∈ t.state.markers ∨
      chunksOf svc.extraction svc.settings object.1 object.2.content = [] →
    held svc object.1 (t.ledger collection object.1) =
      chunksOf svc.extraction svc.settings object.1 object.2.content

/-- So does every object of a run that returns with no failure. -/
def Fresh (t : TracedIngestion) : IngestionEvent → Prop
  | .run keyPrefix embeddingProvider faults => ∀ result collection,
    (ingestionRun svc t.state keyPrefix embeddingProvider faults).2 = some result → result.failed = 0 →
    resolveVectorStore svc.settings.locale svc.embedding embeddingProvider = .ok collection →
    Along (tracedObject svc embeddingProvider faults) (ObjectFresh svc collection) t
      (svc.listing.pages (t.state.bucket.withPrefix keyPrefix)).flatten
  | _ => True

/-! ### One object -/

def replaceChunks (stores : String → List Document) (key : String) (chunks : List Document) :
    Option (String × ℕ) → String → List Document
  | none => stores
  | some (collection, inserted) =>
    Function.update stores collection
      ((stores collection).filter (fun chunk => chunk.source ≠ key) ++ chunks.take inserted)

lemma addAll_eq (store chunks : List Document) : addAll store chunks = store ++ chunks := by
  unfold addAll
  induction chunks generalizing store with
  | nil => simp
  | cons chunk chunks ih =>
    rw [List.foldl_cons, ih]
    simp

variable {svc} {s : IngestionState} {key : String} {chunks : List Document}
  {embeddingProvider : Option String}

/-- The failures with which an ingestion comes to the chunks. -/
def FaultPlace.Reaches : FaultPlace → Prop
  | .putIfAbsent _ => False
  | .service => False
  | .processor => False
  | _ => True

lemma reaches_of_ne {fault : Option FaultPlace} (hclaim : ∀ applied, fault ≠ some (.putIfAbsent applied))
    (hservice : fault ≠ some .service) (hprocessor : fault ≠ some .processor) :
    ∀ place ∈ fault, place.Reaches := by
  intro place hplace
  cases place with
  | putIfAbsent applied => exact absurd hplace (hclaim applied)
  | service => exact absurd hplace hservice
  | processor => exact absurd hplace hprocessor
  | delete applied => trivial
  | add inserted => trivial
  | close => trivial

lemma ingestIntoActiveCollection_stores (hsource : ∀ chunk ∈ chunks, chunk.source = key)
    {fault : Option FaultPlace} (hfault : ∀ place ∈ fault, place.Reaches) :
    (ingestIntoActiveCollection svc s chunks embeddingProvider fault).1.stores =
      replaceChunks s.stores key chunks (replacedIn svc chunks embeddingProvider fault) := by
  unfold ingestIntoActiveCollection replacedIn
  cases resolveVectorStore svc.settings.locale svc.embedding embeddingProvider with
  | error e => simp [replaceChunks]
  | ok collection =>
    cases chunks with
    | nil =>
      rcases fault with _ | place
      · simp [replaceChunks, removeOldDocuments, addAll_eq]
      · cases place <;> simp [replaceChunks, removeOldDocuments, addAll_eq]
    | cons first rest =>
      obtain rfl := hsource first List.mem_cons_self
      rcases fault with _ | place
      · simp [replaceChunks, removeOldDocuments, addAll_eq, insertedChunks]
      · cases place with
        | putIfAbsent applied => exact False.elim (hfault _ rfl)
        | service => exact False.elim (hfault _ rfl)
        | processor => exact False.elim (hfault _ rfl)
        | delete applied =>
          cases applied <;> simp [replaceChunks, removeOldDocuments, insertedChunks]
        | add inserted => simp [replaceChunks, removeOldDocuments, addAll_eq, insertedChunks]
        | close => simp [replaceChunks, removeOldDocuments, addAll_eq, insertedChunks]

lemma ingestIntoActiveCollection_indexed {fault : Option FaultPlace} {collection : String}
    (hcollection : resolveVectorStore svc.settings.locale svc.embedding embeddingProvider = .ok collection)
    (hchunks : chunks ≠ []) (hfault : ∀ place ∈ fault, place.Reaches)
    (h : (ingestIntoActiveCollection svc s chunks embeddingProvider fault).2 ≠ .aborted) : fault = none := by
  obtain ⟨first, rest, rfl⟩ := List.exists_cons_of_ne_nil hchunks
  unfold ingestIntoActiveCollection at h
  rw [hcollection] at h
  rcases fault with _ | place
  · rfl
  · cases place with
    | putIfAbsent applied => exact False.elim (hfault _ rfl)
    | service => exact False.elim (hfault _ rfl)
    | processor => exact False.elim (hfault _ rfl)
    | delete applied => exact absurd rfl h
    | add inserted => exact absurd rfl h
    | close => exact absurd rfl h

/-- The ingestion of an object in one place: it fails before the chunks, or it comes to them. -/
lemma ingestObject_eq (content : List UInt8) (fault : Option FaultPlace) :
    ingestObject svc s key content embeddingProvider fault =
      if fault = some .service then (s, .aborted)
      else if fault = some .processor then (s, .failed)
      else if (documents svc.extraction svc.settings key content).isEmpty then
        (s, if fault = some .close then .aborted else .skipped)
      else ingestIntoActiveCollection svc s (chunksOf svc.extraction svc.settings key content)
        embeddingProvider fault := by
  unfold ingestObject chunksOf
  rcases fault with _ | place
  · cases hempty : (documents svc.extraction svc.settings key content).isEmpty <;> simp [hempty]
  · cases place with
    | service => rfl
    | processor => rfl
    | _ => cases hempty : (documents svc.extraction svc.settings key content).isEmpty <;> simp [hempty]

lemma replacedIn_eq_none_of_insertedChunks {fault : Option FaultPlace}
    (h : insertedChunks chunks fault = none) : replacedIn svc chunks embeddingProvider fault = none := by
  unfold replacedIn
  rw [h]
  split_ifs
  · rfl
  · split <;> rfl

lemma ingestObject_stores (content : List UInt8) {fault : Option FaultPlace}
    (hfault : ∀ applied, fault ≠ some (.putIfAbsent applied)) :
    (ingestObject svc s key content embeddingProvider fault).1.stores =
      replaceChunks s.stores key (chunksOf svc.extraction svc.settings key content)
        (replacedIn svc (chunksOf svc.extraction svc.settings key content) embeddingProvider fault) := by
  rw [ingestObject_eq]
  by_cases hservice : fault = some .service
  · rw [if_pos hservice, replacedIn_eq_none_of_insertedChunks (by rw [hservice]; rfl)]
    rfl
  by_cases hprocessor : fault = some .processor
  · rw [if_neg hservice, if_pos hprocessor,
      replacedIn_eq_none_of_insertedChunks (by rw [hprocessor]; rfl)]
    rfl
  rw [if_neg hservice, if_neg hprocessor]
  by_cases hempty : (documents svc.extraction svc.settings key content).isEmpty = true
  · have hchunks : chunksOf svc.extraction svc.settings key content = [] := by
      rw [chunksOf, if_pos hempty]
    rw [if_pos hempty, hchunks]
    rfl
  · rw [if_neg hempty]
    apply ingestIntoActiveCollection_stores (fun chunk hchunk => source_of_mem_chunksOf hchunk)
    exact reaches_of_ne hfault hservice hprocessor

lemma removeMarker_stores (marker : String) (outcome : Outcome) (removeFails : Bool) :
    (removeMarker s marker outcome removeFails).1.stores = s.stores := by
  unfold removeMarker
  split_ifs <;> rfl

lemma releaseOnFailure_stores (ingested : IngestionState × Outcome) (marker : String) (removeFails : Bool) :
    (releaseOnFailure ingested marker removeFails).1.stores = ingested.1.stores := by
  unfold releaseOnFailure
  split
  · exact removeMarker_stores _ _ _
  · exact removeMarker_stores _ _ _
  · rfl

/-- The outcomes with which a run goes on and counts no failure. -/
def Outcome.Clean (outcome : Outcome) : Prop := outcome ≠ .failed ∧ outcome ≠ .aborted

lemma removeMarker_not_clean (marker : String) {outcome : Outcome} (h : ¬outcome.Clean)
    (removeFails : Bool) : ¬(removeMarker s marker outcome removeFails).2.Clean := by
  unfold removeMarker
  split_ifs
  · rintro ⟨-, h⟩
    exact h rfl
  · exact h

lemma clean_of_releaseOnFailure {ingested : IngestionState × Outcome} {marker : String}
    {removeFails : Bool} (h : (releaseOnFailure ingested marker removeFails).2.Clean) :
    ingested.2.Clean := by
  unfold releaseOnFailure at h
  split at h
  · exact absurd h (removeMarker_not_clean marker (fun h => h.1 rfl) removeFails)
  · exact absurd h (removeMarker_not_clean marker (fun h => h.2 rfl) removeFails)
  · exact h

variable {object : String × S3Object} {fault : Option Fault}

lemma processObject_of_passesOver (h : passesOver svc s object = true) :
    (processObject svc s object embeddingProvider fault).1.stores = s.stores := by
  unfold processObject
  dsimp only
  split_ifs with hblank hingest hmarker
  · rfl
  · rfl
  · split
    · split_ifs <;> rfl
    · rfl
  · exact absurd (by simpa [passesOver, hblank, hingest] using h) hmarker

def claimed (svc : ManualIngestionService) (s : IngestionState) (object : String × S3Object) :
    IngestionState :=
  { s with markers := metadataKey svc object.1 object.2 :: s.markers }

lemma processObject_of_not_passesOver (h : passesOver svc s object = false) :
    processObject svc s object embeddingProvider fault =
      match fault.map Fault.place with
      | some (.putIfAbsent applied) => (if applied then claimed svc s object else s, .aborted)
      | _ => releaseOnFailure (ingestObject svc (claimed svc s object) object.1 object.2.content
          embeddingProvider (fault.map Fault.place)) (metadataKey svc object.1 object.2)
          (fault.any Fault.removeFails) := by
  simp only [passesOver, Bool.or_eq_false_iff, Bool.not_eq_false', decide_eq_false_iff_not] at h
  obtain ⟨⟨hblank, hingest⟩, hmarker⟩ := h
  cases hplace : fault.map Fault.place with
  | none => simp [processObject, claimed, hblank, hingest, hmarker, hplace]
  | some place => cases place <;> simp [processObject, claimed, hblank, hingest, hmarker, hplace]

lemma processObject_stores :
    (processObject svc s object embeddingProvider fault).1.stores =
      replaceChunks s.stores object.1 (chunksOf svc.extraction svc.settings object.1 object.2.content)
        (ingestedInto svc s object embeddingProvider fault) := by
  unfold ingestedInto
  cases hpasses : passesOver svc s object with
  | true => exact processObject_of_passesOver hpasses
  | false =>
    rw [processObject_of_not_passesOver hpasses, if_neg Bool.false_ne_true]
    split
    · rename_i applied hplace
      rw [hplace, replacedIn_eq_none_of_insertedChunks rfl]
      cases applied <;> rfl
    · rename_i hplace
      rw [releaseOnFailure_stores]
      exact ingestObject_stores object.2.content hplace

/-- An ingestion that goes well comes to its end. -/
lemma place_eq_none_of_clean {collection : String}
    (hcollection : resolveVectorStore svc.settings.locale svc.embedding embeddingProvider = .ok collection)
    (hpasses : passesOver svc s object = false)
    (hchunks : chunksOf svc.extraction svc.settings object.1 object.2.content ≠ [])
    (hclean : (processObject svc s object embeddingProvider fault).2.Clean) :
    fault.map Fault.place = none := by
  rw [processObject_of_not_passesOver hpasses] at hclean
  split at hclean
  · exact absurd rfl hclean.2
  · rename_i hplace
    have hclean := clean_of_releaseOnFailure hclean
    rw [ingestObject_eq] at hclean
    split_ifs at hclean with hservice hprocessor hempty hclose
    · exact absurd rfl hclean.2
    · exact absurd rfl hclean.1
    · exact absurd rfl hclean.2
    · exact absurd (by rw [chunksOf, if_pos hempty]) hchunks
    · apply ingestIntoActiveCollection_indexed hcollection hchunks _ hclean.2
      exact reaches_of_ne hplace hservice hprocessor

/-! ### The ledger -/

/-- Each collection holds what its ledger says. -/
def Matches (svc : ManualIngestionService) (t : TracedIngestion) : Prop :=
  ∀ collection key, (t.state.stores collection).filter (fun chunk => chunk.source = key) =
    held svc key (t.ledger collection key)

lemma filter_take_of_source {key : String} {chunks : List Document}
    (hsource : ∀ chunk ∈ chunks, chunk.source = key) (inserted : ℕ) (key' : String) :
    (chunks.take inserted).filter (fun chunk => chunk.source = key') =
      if key' = key then chunks.take inserted else [] := by
  split_ifs with hkey
  · subst hkey
    rw [List.filter_eq_self]
    intro chunk hchunk
    exact decide_eq_true (hsource chunk (List.mem_of_mem_take hchunk))
  · rw [List.filter_eq_nil_iff]
    intro chunk hchunk
    rw [hsource chunk (List.mem_of_mem_take hchunk), decide_eq_true_iff]
    exact fun h => hkey h.symm

lemma filter_replaceChunks {stores : String → List Document} {key : String} {chunks : List Document}
    (hsource : ∀ chunk ∈ chunks, chunk.source = key) (collection : String) (inserted : ℕ)
    (collection' key' : String) :
    (replaceChunks stores key chunks (some (collection, inserted)) collection').filter
        (fun chunk => chunk.source = key') =
      if collection' = collection ∧ key' = key then chunks.take inserted
      else (stores collection').filter fun chunk => chunk.source = key' := by
  unfold replaceChunks
  dsimp only
  by_cases hcollection : collection' = collection
  · subst hcollection
    rw [Function.update_self, List.filter_append, List.filter_filter, filter_take_of_source hsource]
    by_cases hkey : key' = key
    · subst hkey
      simp
    · rw [if_neg hkey, if_neg (fun h => hkey h.2), List.append_nil]
      apply List.filter_congr
      intro chunk _
      by_cases hchunk : chunk.source = key'
      · simp [hchunk, hkey]
      · simp [hchunk]
  · rw [Function.update_of_ne hcollection, if_neg (fun h => hcollection h.1)]

lemma note_apply (ledger : Ledger) (key : String) (content : List UInt8) (collection : String)
    (inserted : ℕ) (collection' key' : String) :
    note ledger key content (some (collection, inserted)) collection' key' =
      if collection' = collection ∧ key' = key then some (content, inserted)
      else ledger collection' key' := by
  unfold note
  dsimp only
  by_cases hcollection : collection' = collection
  · subst hcollection
    rw [Function.update_self]
    by_cases hkey : key' = key
    · subst hkey
      simp
    · simp [hkey]
  · rw [Function.update_of_ne hcollection, if_neg (fun h => hcollection h.1)]

end

end AscendAI.Ingestion
