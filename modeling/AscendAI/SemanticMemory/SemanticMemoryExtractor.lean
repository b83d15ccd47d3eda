import AscendAI.Chat.ChatExecutor
import AscendAI.Lib.ProcessPool
import AscendAI.SemanticMemory.FactExtraction
import AscendAI.SemanticMemory.SemanticMemoryClient

/-!
# Threads of the SemanticMemoryExtractor

Every prompt starts a thread that asks a model for the facts in it and inserts them one after the other. The threads
of all prompts run at the same time over one service. A call of the service may be lost on its way there or on its
way back; whatever an insert throws is counted and the next fact is inserted.
-/

namespace AscendAI.SemanticMemory
open Chat Provider ProcessPool Runs

structure ExtractionRequest where
  userId : String
  userText : String
  provider : Option String
  model : Option String
  embeddingProvider : Option String

structure ExtractorCall where
  chatModel : ChatModel
  defaultModel : Option String
  options : Option ChatOptions
  userText : String

/-- The extractor with what it is given. `encode` and `decode` are between strings and code units. -/
structure SemanticMemoryExtractor where
  cfg : AgentProperties
  memory : AgentMemory
  mapper : ObjectMapper
  encode : String → JavaText
  decode : JavaText → String

section Flow

variable (x : SemanticMemoryExtractor) (request : ExtractionRequest)

def invokeExtractor (chatModel : ChatModel) (extractionModel : Option String) (options : Option ChatOptions) :
    ExtractorCall where
  chatModel := chatModel
  defaultModel := if options.isNone && JavaString.hasText extractionModel then extractionModel else none
  options := options
  userText := request.userText

def factsOf (response : Option ChatResponse) : List String :=
  let responseContent := (response.map resolveContent).getD ""
  (extractFactsFromJson x.mapper (some (x.encode responseContent))).map x.decode

/-- `executeExtractionFlow` up to the inserts, with the calls that it makes. -/
def extractFacts (llm : ℕ → ExtractorCall → Except Thrown (Option ChatResponse)) :
    List ExtractorCall × Except Thrown (List String) :=
  let extractionModel := resolveExtractionModel x.cfg request.provider request.model
  match resolveChatModel x.cfg request.provider with
  | .error message => ([], .error ⟨.illegalArgument, some message⟩)
  | .ok chatModel =>
    let strategy := resolveCacheStrategy x.cfg request.provider
    let first := invokeExtractor request chatModel extractionModel (buildOptions extractionModel strategy)
    match llm 0 first with
    | .ok response => ([first], .ok (factsOf x response))
    | .error e =>
      if !(e.isRuntime && isCacheConfigError x.cfg.locale e.message strategy) then ([first], .error e)
      else
        let second := invokeExtractor request chatModel extractionModel (withModel extractionModel)
        ([first, second], (llm 1 second).map (factsOf x))

end Flow

/-! ### The threads -/

/-- What becomes of a call of the service. -/
inductive Delivery where
  | answered
  | lost (carriedOut : Bool)
  deriving DecidableEq

/-- Before the model has answered, at the inserts with the facts, those that are left and the tally, or at an end. -/
inductive Stage where
  | asking
  | inserting (facts rest : List String) (ok failed : ℕ)
  | handled (e : Thrown)
  | died (e : Thrown)

/-- A thread. Which of its facts the service has stored is not known to it and is kept beside. -/
structure Extraction where
  request : ExtractionRequest
  stage : Stage
  stored : List String

abbrev Extractions := ProcessPool MemoryStore Extraction

section Threads

variable (x : SemanticMemoryExtractor)

/-- Where an insert goes, if the service takes it. -/
def insertTarget (a : AgentMemory) (userId fact : String) (embeddingProvider : Option String) : Option String :=
  if SemanticMemoryClient.isMissingUserId (some userId) || !a.properties.enabled then none
  else if !(validUserId a.service (some userId) &&
      decide ((fact.length : ℤ) ≤ a.service.settings.maxMemoryTextLength) && validProvider embeddingProvider) then none
  else
    match clientFor a.service embeddingProvider with
    | .error _ => none
    | .ok client => if fact = "" then none else some client.collectionName

/-- The model answers; an `Exception` is handled, another `Throwable` ends the thread. -/
def advanceAnswer (llm : ℕ → ExtractorCall → Except Thrown (Option ChatResponse)) (s : MemoryStore)
    (thread : Extraction) : Outcome MemoryStore Extraction :=
  match thread.stage with
  | .asking =>
    match (extractFacts x thread.request llm).2 with
    | .ok facts => ⟨s, { thread with stage := .inserting facts facts 0 0 }, []⟩
    | .error e => ⟨s, { thread with stage := if e.kind = .error then .died e else .handled e }, []⟩
  | _ => ⟨s, thread, []⟩

/-- What an insert leaves, whether the service has taken its fact, and whether it returns. -/
structure Attempt where
  store : MemoryStore
  taken : Bool
  returned : Bool

/-- `insertMemory` with what becomes of its call of the service, if it makes one. -/
def attempt (a : AgentMemory) (delivery : Delivery) (s : MemoryStore) (userId fact : String)
    (embeddingProvider : Option String) : Attempt :=
  let (store, result) := SemanticMemoryClient.insertMemory a s (some userId) (some fact) embeddingProvider
  let taken := (insertTarget a userId fact embeddingProvider).isSome
  let calls := !SemanticMemoryClient.isMissingUserId (some userId) && a.properties.enabled
  match delivery with
  | .answered => ⟨store, taken, result.isOk⟩
  | .lost true => ⟨store, taken, !calls⟩
  | .lost false => ⟨s, false, !calls⟩

/-- The next round of the loop of `insertFactsWithTally`. -/
def advanceInsert (delivery : Delivery) (s : MemoryStore) (thread : Extraction) : Outcome MemoryStore Extraction :=
  match thread.stage with
  | .inserting facts (fact :: rest) ok failed =>
    let tried := attempt x.memory delivery s thread.request.userId fact thread.request.embeddingProvider
    let stage := if tried.returned then .inserting facts rest (ok + 1) failed
      else .inserting facts rest ok (failed + 1)
    ⟨tried.store, ⟨thread.request, stage, if tried.taken then thread.stored ++ [fact] else thread.stored⟩, []⟩
  | _ => ⟨s, thread, []⟩

/-- A prompt starts a thread, a model answers a thread, or a thread inserts its next fact. -/
inductive ExtractionEvent where
  | start (request : ExtractionRequest)
  | answer (i : ℕ) (llm : ℕ → ExtractorCall → Except Thrown (Option ChatResponse))
  | insert (i : ℕ) (delivery : Delivery)

def Extractions.next (pool : Extractions) : ExtractionEvent → Extractions
  | .start request => pool.start ⟨request, .asking, []⟩
  | .answer i llm => pool.step (advanceAnswer x llm) i
  | .insert i delivery => pool.step (advanceInsert x delivery) i

end Threads

/-! ### One insert -/

section Insert

variable (a : AgentMemory) (s : MemoryStore) (userId fact : String) (embeddingProvider : Option String)

/-- Nothing stands between the extractor and the service. -/
def Reaches : Prop :=
  SemanticMemoryClient.isMissingUserId (some userId) = false ∧ a.properties.enabled = true

/-- An insert adds its fact where the service takes it, and otherwise nothing; one that returns was taken. -/
lemma insertMemory_target :
    (SemanticMemoryClient.insertMemory a s (some userId) (some fact) embeddingProvider).1 =
        (insertTarget a userId fact embeddingProvider).elim s (fun collection =>
          s.add a.service.mem0 collection userId fact) ∧
      ((SemanticMemoryClient.insertMemory a s (some userId) (some fact) embeddingProvider).2.isOk = true →
        Reaches a userId → (insertTarget a userId fact embeddingProvider).isSome = true) := by
  unfold SemanticMemoryClient.insertMemory insertTarget
  cases hmissing : SemanticMemoryClient.isMissingUserId (some userId) with
  | true =>
    refine ⟨rfl, fun _ hreaches => ?_⟩
    rw [Reaches, hmissing] at hreaches
    cases hreaches.1
  | false =>
    cases henabled : a.properties.enabled with
    | false =>
      refine ⟨rfl, fun _ hreaches => ?_⟩
      rw [Reaches, henabled] at hreaches
      cases hreaches.2
    | true =>
      have hne : userId ≠ "" := by
        rintro rfl
        exact absurd hmissing (by decide)
      simp only [Bool.not_true, Bool.or_self, Bool.false_eq_true, if_false, restRouter_insert,
        insertMemory_of_fields a.service s hne]
      by_cases hvalid : (validUserId a.service (some userId) &&
          decide ((fact.length : ℤ) ≤ a.service.settings.maxMemoryTextLength) && validProvider embeddingProvider) = true
      swap
      · rw [Bool.not_eq_true] at hvalid
        simp only [hvalid, Bool.not_false, if_true]
        exact ⟨rfl, fun h => absurd h Bool.false_ne_true⟩
      simp only [hvalid, Bool.not_true, Bool.false_eq_true, if_false]
      cases clientFor a.service embeddingProvider with
      | error e => exact ⟨rfl, fun h => absurd h Bool.false_ne_true⟩
      | ok client =>
        by_cases hempty : fact = ""
        · simp only [hempty, if_true]
          exact ⟨rfl, fun h => absurd h Bool.false_ne_true⟩
        · simp only [hempty, if_false]
          exact ⟨rfl, fun _ _ => rfl⟩

lemma attempt_store (delivery : Delivery) :
    (attempt a delivery s userId fact embeddingProvider).store =
      if (attempt a delivery s userId fact embeddingProvider).taken then
        (insertTarget a userId fact embeddingProvider).elim s (fun collection =>
          s.add a.service.mem0 collection userId fact)
      else s := by
  have hstore := (insertMemory_target a s userId fact embeddingProvider).1
  rcases delivery with _ | ⟨_ | _⟩
  · simp only [attempt, hstore]
    cases insertTarget a userId fact embeddingProvider <;> rfl
  · rfl
  · simp only [attempt, hstore]
    cases insertTarget a userId fact embeddingProvider <;> rfl

lemma isSome_of_taken {delivery : Delivery} (h : (attempt a delivery s userId fact embeddingProvider).taken = true) :
    (insertTarget a userId fact embeddingProvider).isSome = true := by
  rcases delivery with _ | ⟨_ | _⟩
  · exact h
  · cases h
  · exact h

lemma taken_of_returned {delivery : Delivery} (hreaches : Reaches a userId)
    (h : (attempt a delivery s userId fact embeddingProvider).returned = true) :
    (attempt a delivery s userId fact embeddingProvider).taken = true := by
  have hlost : (!(!SemanticMemoryClient.isMissingUserId (some userId) && a.properties.enabled)) ≠ true := by
    rw [hreaches.1, hreaches.2]
    decide
  rcases delivery with _ | ⟨_ | _⟩
  · exact (insertMemory_target a s userId fact embeddingProvider).2 h hreaches
  · exact absurd h hlost
  · exact absurd h hlost

/-- What an attempt adds to the list of a collection and a user. -/
def attemptAdds (delivery : Delivery) (collection userId' : String) : List String :=
  if (attempt a delivery s userId fact embeddingProvider).taken ∧ userId = userId' ∧
    insertTarget a userId fact embeddingProvider = some collection then [fact] else []

lemma memories_attempt (delivery : Delivery) (collection userId' : String) :
    (attempt a delivery s userId fact embeddingProvider).store.memories collection userId' =
      s.memories collection userId' ++ attemptAdds a s userId fact embeddingProvider delivery collection userId' := by
  rw [attempt_store, attemptAdds]
  by_cases htaken : (attempt a delivery s userId fact embeddingProvider).taken = true
  swap
  · rw [if_neg htaken, if_neg fun h => htaken h.1, List.append_nil]
  rw [if_pos htaken]
  cases htarget : insertTarget a userId fact embeddingProvider with
  | none => simp
  | some collection' =>
    rw [Option.elim_some, MemoryStore.memories_add]
    by_cases hsame : userId = userId' ∧ collection' = collection
    · obtain ⟨rfl, rfl⟩ := hsame
      rw [PerUserStore.insert_self, if_pos ⟨htaken, rfl, rfl⟩]
    · have hother : ¬(some collection' = some collection ∧ userId = userId') := fun h =>
        hsame ⟨h.2, Option.some.inj h.1⟩
      rw [if_neg fun h => hother ⟨h.2.2, h.2.1⟩, List.append_nil, PerUserStore.insert]
      by_cases hcollection : collection = collection'
      · subst hcollection
        have huser : userId' ≠ userId := fun heq => hother ⟨rfl, heq.symm⟩
        rw [Function.update_self, Function.update_of_ne huser]
      · rw [Function.update_of_ne hcollection]

end Insert

/-! ### What the threads store -/

section Stored

variable (x : SemanticMemoryExtractor)

/-- What a thread has stored in the list of a collection and a user. -/
def Extraction.storedIn (collection userId : String) (thread : Extraction) : List String :=
  if thread.request.userId = userId then thread.stored.filter fun fact =>
    insertTarget x.memory thread.request.userId fact thread.request.embeddingProvider = some collection
  else []

/-- A model has answered a thread of the request, with this result. -/
def Answered (events : List ExtractionEvent) (request : ExtractionRequest) (result : Except Thrown (List String)) :
    Prop :=
  ∃ i llm, .answer i llm ∈ events ∧ (extractFacts x request llm).2 = result

/-- The facts that were tried are all counted, what is stored is among them and in their order, and only what is
stored is counted as a success. -/
structure Tallies (request : ExtractionRequest) (stored tried : List String) (ok failed : ℕ) : Prop where
  stored_sublist : stored.Sublist tried
  stored_target : ∀ fact ∈ stored, (insertTarget x.memory request.userId fact request.embeddingProvider).isSome = true
  counted : ok + failed = tried.length
  ok_le : Reaches x.memory request.userId → ok ≤ stored.length

/-- What is known of a thread. -/
def Extraction.Accounts (events : List ExtractionEvent) (thread : Extraction) : Prop :=
  .start thread.request ∈ events ∧
    match thread.stage with
    | .asking => thread.stored = []
    | .inserting facts rest ok failed => Answered x events thread.request (.ok facts) ∧
        ∃ tried, facts = tried ++ rest ∧ Tallies x thread.request thread.stored tried ok failed
    | .handled e => thread.stored = [] ∧ e.kind ≠ .error ∧ Answered x events thread.request (.error e)
    | .died e => thread.stored = [] ∧ e.kind = .error ∧ Answered x events thread.request (.error e)

/-- The lists of the store are what they were and after it, in some order that keeps the order of each thread, what
the threads have stored there. -/
structure Kept (s₀ : MemoryStore) (events : List ExtractionEvent) (pool : Extractions) : Prop where
  lists : ∀ collection userId, ∃ new,
    pool.shared.memories collection userId = s₀.memories collection userId ++ new ∧
      new.Perm (pool.procs.flatMap (Extraction.storedIn x collection userId)) ∧
      ∀ thread ∈ pool.procs, (thread.storedIn x collection userId).Sublist new
  threads : ∀ thread ∈ pool.procs, thread.Accounts x events

variable {x} {s₀ : MemoryStore} {events : List ExtractionEvent} {pool : Extractions}

lemma Kept.start (h : Kept x s₀ events pool) {request : ExtractionRequest} (hevent : .start request ∈ events) :
    Kept x s₀ events (pool.start ⟨request, .asking, []⟩) := by
  have hnothing : ∀ collection userId,
      Extraction.storedIn x collection userId ⟨request, .asking, []⟩ = [] := by
    intro collection userId
    unfold Extraction.storedIn
    split <;> rfl
  constructor
  · intro collection userId
    obtain ⟨new, hmemories, hperm, hsublist⟩ := h.lists collection userId
    refine ⟨new, hmemories, ?_, ?_⟩
    · simpa [ProcessPool.start, hnothing] using hperm
    · intro thread hthread
      rcases List.mem_append.mp hthread with hold | hnew
      · exact hsublist thread hold
      · rw [List.mem_singleton.mp hnew, hnothing]
        exact List.nil_sublist new
  · intro thread hthread
    rcases List.mem_append.mp hthread with hold | hnew
    · exact h.threads thread hold
    · rw [List.mem_singleton.mp hnew]
      exact ⟨hevent, rfl⟩

/-- A step of a thread that adds to the lists of the store what it adds to its own. -/
lemma Kept.step (h : Kept x s₀ events pool) {advance : MemoryStore → Extraction → Outcome MemoryStore Extraction}
    {i : ℕ} {thread : Extraction} (hthread : pool.procs[i]? = some thread)
    (hstarted : (advance pool.shared thread).started = [])
    (hadds : ∀ collection userId, ∃ added,
      (advance pool.shared thread).shared.memories collection userId =
          pool.shared.memories collection userId ++ added ∧
        (advance pool.shared thread).next.storedIn x collection userId =
          thread.storedIn x collection userId ++ added)
    (haccounts : (advance pool.shared thread).next.Accounts x events) :
    Kept x s₀ events (pool.step advance i) := by
  have hnone : ∀ Q : Extraction → Prop, ∀ c ∈ (advance pool.shared thread).started, Q c := by
    intro Q c hc
    rw [hstarted] at hc
    cases hc
  constructor
  · intro collection userId
    obtain ⟨new, hmemories, hperm, hsublist⟩ := h.lists collection userId
    obtain ⟨added, hshared, hnext⟩ := hadds collection userId
    refine ⟨new ++ added, ?_, ?_, ?_⟩
    · rw [shared_step advance hthread, hshared, hmemories, List.append_assoc]
    · obtain ⟨rest, hbefore, hafter⟩ := flatMap_step advance (Extraction.storedIn x collection userId) hthread
      rw [hstarted, List.flatMap_nil, List.nil_append, hnext] at hafter
      have hmoved : (new ++ added).Perm (thread.storedIn x collection userId ++ added ++ rest) := by
        apply ((hperm.trans hbefore).append_right added).trans
        rw [List.append_assoc, List.append_assoc]
        exact List.perm_append_comm.append_left _
      exact hmoved.trans hafter.symm
    · refine forall_step hthread (fun c hc => ?_) ?_ (hnone _)
      · exact (hsublist c hc).trans (List.sublist_append_left new added)
      · rw [hnext]
        exact (hsublist thread (List.mem_of_getElem? hthread)).append_right added
  · exact forall_step hthread h.threads haccounts (hnone _)

/-- A step of a thread that adds nothing. -/
lemma adds_nothing {s : MemoryStore} {thread thread' : Extraction} (hrequest : thread'.request = thread.request)
    (hstored : thread'.stored = thread.stored) (collection userId : String) :
    ∃ added, s.memories collection userId = s.memories collection userId ++ added ∧
      thread'.storedIn x collection userId = thread.storedIn x collection userId ++ added := by
  refine ⟨[], (List.append_nil _).symm, ?_⟩
  rw [List.append_nil, Extraction.storedIn, Extraction.storedIn, hrequest, hstored]

lemma Kept.answer (h : Kept x s₀ events pool) {i : ℕ}
    {llm : ℕ → ExtractorCall → Except Thrown (Option ChatResponse)} (hevent : .answer i llm ∈ events) :
    Kept x s₀ events (pool.step (advanceAnswer x llm) i) := by
  cases hthread : pool.procs[i]? with
  | none =>
    rw [step_of_none hthread]
    exact h
  | some thread =>
    have haccounts := h.threads thread (List.mem_of_getElem? hthread)
    obtain ⟨request, stage, stored⟩ := thread
    cases stage with
    | asking =>
      obtain ⟨hstart, rfl⟩ := haccounts
      cases hfacts : (extractFacts x request llm).2 with
      | ok facts =>
        have hadvance : advanceAnswer x llm pool.shared ⟨request, .asking, []⟩ =
            ⟨pool.shared, ⟨request, .inserting facts facts 0 0, []⟩, []⟩ := by
          simp only [advanceAnswer, hfacts]
        apply h.step hthread
        · rw [hadvance]
        · rw [hadvance]
          exact adds_nothing rfl rfl
        · rw [hadvance]
          have htallies : Tallies x request [] [] 0 0 :=
            ⟨List.Sublist.slnil, (fun _ hfact => nomatch hfact), rfl, fun _ => le_refl 0⟩
          exact ⟨hstart, ⟨i, llm, hevent, hfacts⟩, [], (List.nil_append facts).symm, htallies⟩
      | error e =>
        have hadvance : advanceAnswer x llm pool.shared ⟨request, .asking, []⟩ =
            ⟨pool.shared, ⟨request, if e.kind = .error then .died e else .handled e, []⟩, []⟩ := by
          simp only [advanceAnswer, hfacts]
        apply h.step hthread
        · rw [hadvance]
        · rw [hadvance]
          exact adds_nothing rfl rfl
        · rw [hadvance]
          refine ⟨hstart, ?_⟩
          by_cases hkind : e.kind = .error
          · simp only [hkind, if_true]
            exact ⟨trivial, trivial, i, llm, hevent, hfacts⟩
          · simp only [hkind, if_false]
            exact ⟨trivial, hkind, i, llm, hevent, hfacts⟩
    | _ => exact h.step hthread rfl (adds_nothing rfl rfl) haccounts

lemma storedIn_snoc (request : ExtractionRequest) (stage stage' : Stage) (stored : List String) (fact : String)
    (collection userId : String) :
    Extraction.storedIn x collection userId ⟨request, stage', stored ++ [fact]⟩ =
      Extraction.storedIn x collection userId ⟨request, stage, stored⟩ ++
        if request.userId = userId ∧
            insertTarget x.memory request.userId fact request.embeddingProvider = some collection then [fact]
        else [] := by
  unfold Extraction.storedIn
  by_cases huser : request.userId = userId
  · by_cases htarget : insertTarget x.memory request.userId fact request.embeddingProvider = some collection
    · simp [← huser, htarget]
    · simp [← huser, htarget]
  · simp [huser]

/-- One round of the loop. -/
lemma Tallies.insert {request : ExtractionRequest} {stored tried : List String} {ok failed : ℕ}
    (h : Tallies x request stored tried ok failed) (s : MemoryStore) (delivery : Delivery) (fact : String) :
    ∀ round, round = attempt x.memory delivery s request.userId fact request.embeddingProvider →
      Tallies x request (if round.taken then stored ++ [fact] else stored) (tried ++ [fact])
        (if round.returned then ok + 1 else ok) (if round.returned then failed else failed + 1) := by
  rintro round rfl
  have htarget := @isSome_of_taken x.memory s request.userId fact request.embeddingProvider delivery
  have htaken := @taken_of_returned x.memory s request.userId fact request.embeddingProvider delivery
  revert htarget htaken
  generalize attempt x.memory delivery s request.userId fact request.embeddingProvider = round
  intro htarget htaken
  constructor
  · split
    · exact h.stored_sublist.append_right [fact]
    · exact h.stored_sublist.trans (List.sublist_append_left tried [fact])
  · split
    · rename_i hround
      intro stored' hstored'
      rcases List.mem_append.mp hstored' with hold | hnew
      · exact h.stored_target stored' hold
      · rw [List.mem_singleton.mp hnew]
        exact htarget hround
    · exact h.stored_target
  · have hcounted := h.counted
    rw [List.length_append, List.length_singleton]
    split <;> omega
  · intro hreaches
    have hle := h.ok_le hreaches
    by_cases hreturned : round.returned = true
    · rw [if_pos hreturned, if_pos (htaken hreaches hreturned), List.length_append, List.length_singleton]
      omega
    · rw [if_neg hreturned]
      split
      · rw [List.length_append]
        omega
      · exact hle

lemma Kept.insert (h : Kept x s₀ events pool) (i : ℕ) (delivery : Delivery) :
    Kept x s₀ events (pool.step (advanceInsert x delivery) i) := by
  cases hthread : pool.procs[i]? with
  | none =>
    rw [step_of_none hthread]
    exact h
  | some thread =>
    have haccounts := h.threads thread (List.mem_of_getElem? hthread)
    obtain ⟨request, stage, stored⟩ := thread
    cases stage with
    | inserting facts rest ok failed =>
      cases rest with
      | nil => exact h.step hthread rfl (adds_nothing rfl rfl) haccounts
      | cons fact rest =>
        apply h.step hthread
        · rfl
        · intro collection userId
          refine ⟨attemptAdds x.memory pool.shared request.userId fact request.embeddingProvider delivery collection
            userId, memories_attempt _ _ _ _ _ _ _ _, ?_⟩
          simp only [advanceInsert, attemptAdds]
          cases (attempt x.memory delivery pool.shared request.userId fact request.embeddingProvider).taken with
          | true =>
            simp only [if_true, true_and]
            exact storedIn_snoc request _ _ stored fact collection userId
          | false => simp [Extraction.storedIn]
        · obtain ⟨hstart, hanswered, tried, rfl, htallies⟩ := haccounts
          have hround := htallies.insert pool.shared delivery fact _ rfl
          refine ⟨hstart, ?_⟩
          simp only [advanceInsert]
          cases hreturned : (attempt x.memory delivery pool.shared request.userId fact
              request.embeddingProvider).returned with
          | true =>
            simp only [hreturned, if_true] at hround ⊢
            exact ⟨hanswered, tried ++ [fact], (List.append_cons tried fact rest), hround⟩
          | false =>
            simp only [hreturned, Bool.false_eq_true, if_false] at hround ⊢
            exact ⟨hanswered, tried ++ [fact], (List.append_cons tried fact rest), hround⟩
    | _ => exact h.step hthread rfl (adds_nothing rfl rfl) haccounts

lemma Kept.next (h : Kept x s₀ events pool) {event : ExtractionEvent} (hevent : event ∈ events) :
    Kept x s₀ events (Extractions.next x pool event) := by
  cases event with
  | start request => exact h.start hevent
  | answer i llm => exact h.answer hevent
  | insert i delivery => exact h.insert i delivery

lemma kept_run (x : SemanticMemoryExtractor) (s₀ : MemoryStore) (events : List ExtractionEvent) :
    Kept x s₀ events (run (Extractions.next x) ⟨s₀, []⟩ events) := by
  have hinitial : Kept x s₀ events ⟨s₀, []⟩ := by
    refine ⟨fun collection userId => ?_, fun _ h => nomatch h⟩
    exact ⟨[], (List.append_nil _).symm, List.Perm.refl [], fun _ h => nomatch h⟩
  exact run_keeps (fun pool event hevent h => h.next hevent) hinitial

end Stored

end AscendAI.SemanticMemory
