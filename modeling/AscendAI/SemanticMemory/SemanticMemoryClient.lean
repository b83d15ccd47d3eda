import AscendAI.Lib.JavaString
import AscendAI.Lib.Runs
import AscendAI.SemanticMemory.MemoryService

/-!
# SemanticMemoryClient

The client of the agent over the service. An insert sends its parameters where the service reads
them. A wipe sends them in the body, and the service reads them from the query string: it wipes the
default user in the collection of the default provider, whoever the wipe was meant for.
-/

namespace AscendAI.SemanticMemory
open Runs JavaString

structure SemanticMemoryProperties where
  enabled : Bool := true

/-- The agent's client and the service that it talks to. -/
structure AgentMemory where
  properties : SemanticMemoryProperties := {}
  service : MemoryService

/-- What `retrieve()` throws when the service answers with an error. -/
structure RestClientResponseException where
  statusCode : ℕ
  deriving DecidableEq, Repr

namespace SemanticMemoryClient

variable (a : AgentMemory) (s : MemoryStore)

def isMissingUserId (userId : Option String) : Bool := !hasText userId

/-- `search`: every error is answered by an empty list. -/
def search (userId query : Option String) (limit : ℤ) (embeddingProvider : Option String) :
    List MemoryEntry :=
  if isMissingUserId userId then []
  else if !a.properties.enabled then []
  else
    match (restRouter a.service s ⟨.get, "/api/v1/memory/search",
      [("user_id", userId.getD ""), ("query", query.getD ""), ("limit", toString limit),
        ("provider", embeddingProvider.getD "")], none⟩).2 with
    | .ok items => items
    | .failed _ => []

def insertMemory (userId fact embeddingProvider : Option String) :
    MemoryStore × Except RestClientResponseException Unit :=
  if isMissingUserId userId then (s, .ok ())
  else if !a.properties.enabled then (s, .ok ())
  else
    match restRouter a.service s ⟨.post, "/api/v1/memory/insert", [],
      some [("user_id", userId), ("text", fact), ("provider", embeddingProvider)]⟩ with
    | (s', .ok _) => (s', .ok ())
    | (s', .failed status) => (s', .error ⟨status⟩)

/-- `wipeUserMemory`: an error is logged. -/
def wipeUserMemory (userId embeddingProvider : Option String) : MemoryStore :=
  if isMissingUserId userId then s
  else if !a.properties.enabled then s
  else
    (restRouter a.service s ⟨.post, "/api/v1/memory/wipe", [],
      some [("user_id", userId), ("provider", embeddingProvider)]⟩).1

/-- `deleteMemory`: an error is logged. -/
def deleteMemory (userId memoryId embeddingProvider : Option String) : MemoryStore :=
  if isMissingUserId userId then s
  else if !hasText memoryId then s
  else if !a.properties.enabled then s
  else
    (restRouter a.service s ⟨.delete, "/api/v1/memory",
      [("memory_id", memoryId.getD ""), ("provider", embeddingProvider.getD "")], none⟩).1

end SemanticMemoryClient

inductive ClientCall where
  | insertMemory (userId fact : String) (embeddingProvider : Option String)
  | wipeUserMemory (userId : String) (embeddingProvider : Option String)
  | search (userId query : String) (limit : ℤ) (embeddingProvider : Option String)

def clientStep (a : AgentMemory) (s : MemoryStore) : ClientCall → MemoryStore
  | .insertMemory userId fact embeddingProvider =>
    (SemanticMemoryClient.insertMemory a s userId fact embeddingProvider).1
  | .wipeUserMemory userId embeddingProvider =>
    SemanticMemoryClient.wipeUserMemory a s userId embeddingProvider
  | .search _ _ _ _ => s

/-- The call is what the store of memories per collection and user does, for a user id of the
pattern and a provider with a collection. -/
def Refines (a : AgentMemory) (s : MemoryStore) : ClientCall → Prop
  | .insertMemory userId fact embeddingProvider => ∀ collection,
    matchesUserIdPattern userId = true → collectionOf a.service embeddingProvider = some collection →
      (SemanticMemoryClient.insertMemory a s userId fact embeddingProvider).1.memories =
        s.memories.insert collection userId fact
  | .wipeUserMemory userId embeddingProvider => ∀ collection,
    matchesUserIdPattern userId = true → collectionOf a.service embeddingProvider = some collection →
      (SemanticMemoryClient.wipeUserMemory a s userId embeddingProvider).memories =
        s.memories.wipe collection userId
  | .search userId query limit embeddingProvider => ∀ collection,
    matchesUserIdPattern userId = true → collectionOf a.service embeddingProvider = some collection →
      ∀ item ∈ SemanticMemoryClient.search a s userId query limit embeddingProvider,
        item.memory ∈ s.memories collection userId

/-- The list that every wipe empties. -/
def wipeTarget (a : AgentMemory) : Option (String × String) :=
  if !a.properties.enabled then none
  else (clientFor a.service none).toOption.map fun client =>
    (client.collectionName, a.service.settings.defaultUserId)

/-- The service accepts the insert. -/
def Accepts (a : AgentMemory) (userId fact : String) (embeddingProvider : Option String) : Prop :=
  a.properties.enabled = true ∧ (userId.length : ℤ) ≤ a.service.settings.maxUserIdLength ∧
    fact ≠ "" ∧ (fact.length : ℤ) ≤ a.service.settings.maxMemoryTextLength ∧
    validProvider embeddingProvider = true ∧ (clientFor a.service embeddingProvider).isOk = true

/-- An insert is accepted, and a wipe hits the list it is meant for, or finds both that list and the
one it hits empty. -/
def Conforms (a : AgentMemory) (s : MemoryStore) : ClientCall → Prop
  | .insertMemory userId fact embeddingProvider => ∀ collection,
    matchesUserIdPattern userId = true → collectionOf a.service embeddingProvider = some collection →
      Accepts a userId fact embeddingProvider
  | .wipeUserMemory userId embeddingProvider => ∀ collection,
    matchesUserIdPattern userId = true → collectionOf a.service embeddingProvider = some collection →
      wipeTarget a = some (collection, userId) ∨
        s.memories collection userId = [] ∧ ∀ target ∈ wipeTarget a, s.memories target.1 target.2 = []
  | .search _ _ _ _ => True

/-! ### User ids -/

lemma isWhitespace_of_userIdChar {c : Char} (h : userIdChar c = true) : isWhitespace c = false := by
  have hvals : (65 ≤ c.toNat ∧ c.toNat ≤ 90) ∨ (97 ≤ c.toNat ∧ c.toNat ≤ 122) ∨
      (48 ≤ c.toNat ∧ c.toNat ≤ 57) ∨ c.toNat ∈ [46, 95, 45, 64, 58, 43] := by
    unfold userIdChar at h
    simp only [Bool.or_eq_true, Bool.and_eq_true, decide_eq_true_eq, List.contains_iff_mem, Char.le_def,
      UInt32.le_iff_toNat_le] at h
    rcases h with ((hupper | hlower) | hdigit) | hsign
    · exact .inl hupper
    · exact .inr (.inl hlower)
    · exact .inr (.inr (.inl hdigit))
    · exact .inr (.inr (.inr (List.mem_map_of_mem (f := Char.toNat) hsign)))
  unfold isWhitespace
  simp only [List.mem_cons, List.not_mem_nil, or_false] at hvals
  simp only [Bool.or_eq_false_iff, Bool.and_eq_false_iff, decide_eq_false_iff_not, beq_eq_false_iff_ne]
  omega

lemma ne_empty_of_matchesUserIdPattern {userId : String} (h : matchesUserIdPattern userId = true) :
    userId ≠ "" := by
  rintro rfl
  revert h
  decide

lemma not_isMissingUserId {userId : String} (h : matchesUserIdPattern userId = true) :
    SemanticMemoryClient.isMissingUserId (some userId) = false := by
  have hne : userId.toList ≠ [] := fun hnil => ne_empty_of_matchesUserIdPattern h (String.ext hnil)
  obtain ⟨c, hc⟩ := List.exists_mem_of_ne_nil _ hne
  unfold matchesUserIdPattern at h
  simp only [Bool.and_eq_true, List.all_eq_true] at h
  have hblank : isBlank userId = false := by
    unfold isBlank
    rw [List.all_eq_false]
    exact ⟨c, hc, by simp [isWhitespace_of_userIdChar (h.1.1 c hc)]⟩
  simp [SemanticMemoryClient.isMissingUserId, hasText, hblank]

/-! ### The three calls -/

lemma insertMemory_of_fields (svc : MemoryService) (s : MemoryStore) {userId : String} (h : userId ≠ "")
    (fact : String) (provider : Option String) :
    insertMemory svc s (some [("user_id", some userId), ("text", some fact), ("provider", provider)]) =
      if !(validUserId svc (some userId) && decide ((fact.length : ℤ) ≤ svc.settings.maxMemoryTextLength) &&
        validProvider provider) then (s, .failed 422)
      else
        match clientFor svc provider with
        | .error e => (s, .failed e.status)
        | .ok client =>
          if fact = "" then (s, .failed 400)
          else (s.add svc.mem0 client.collectionName userId fact, .ok []) := by
  cases hclient : clientFor svc provider with
  | error e => simp [insertMemory, lastValue, List.lookup_cons, hclient]
  | ok client => simp [insertMemory, lastValue, List.lookup_cons, effectiveUserId, h, hclient]

/-- An omitted provider may travel as an empty query parameter. -/
lemma clientFor_getD (svc : MemoryService) (provider : Option String) :
    clientFor svc (some (provider.getD "")) = clientFor svc provider := by
  cases provider with
  | none =>
    have hblank : resolveProvider svc (some "") = resolveProvider svc none := rfl
    unfold clientFor
    rw [Option.getD_none, hblank]
  | some p => rfl

section Calls

variable (a : AgentMemory) (s : MemoryStore) {userId : String}

lemma insertMemory_cases (h : matchesUserIdPattern userId = true) (fact : String)
    (embeddingProvider : Option String) :
    (Accepts a userId fact embeddingProvider ∧ ∃ collection,
        collectionOf a.service embeddingProvider = some collection ∧
        (SemanticMemoryClient.insertMemory a s userId fact embeddingProvider).1 =
          s.add a.service.mem0 collection userId fact) ∨
      ¬Accepts a userId fact embeddingProvider ∧
        (SemanticMemoryClient.insertMemory a s userId fact embeddingProvider).1 = s := by
  unfold SemanticMemoryClient.insertMemory Accepts
  rw [not_isMissingUserId h, if_neg Bool.false_ne_true]
  by_cases henabled : a.properties.enabled = true
  swap
  · simp [henabled]
  rw [restRouter_insert, insertMemory_of_fields a.service s (ne_empty_of_matchesUserIdPattern h)]
  simp only [henabled, true_and, Bool.not_true, Bool.false_eq_true, if_false, validUserId, Option.all_some,
    h, Bool.and_true]
  by_cases hvalid : (decide ((userId.length : ℤ) ≤ a.service.settings.maxUserIdLength) &&
      decide ((fact.length : ℤ) ≤ a.service.settings.maxMemoryTextLength) &&
      validProvider embeddingProvider) = true
  swap
  · simp only [hvalid, Bool.not_false, if_true]
    simp only [Bool.and_eq_true, decide_eq_true_eq] at hvalid
    exact .inr ⟨by tauto, trivial⟩
  simp only [hvalid, Bool.not_true, Bool.false_eq_true, if_false]
  simp only [Bool.and_eq_true, decide_eq_true_eq] at hvalid
  cases hclient : clientFor a.service embeddingProvider with
  | error e => exact .inr ⟨by simp [Except.isOk, Except.toBool], rfl⟩
  | ok client =>
    by_cases hempty : fact = ""
    · simp [hempty]
    · refine .inl ⟨⟨hvalid.1.1, hempty, hvalid.1.2, hvalid.2, rfl⟩, client.collectionName,
        collectionOf_of_clientFor hclient, ?_⟩
      simp [hempty]

/-- Whatever user and provider a wipe is for, it empties the one list. -/
lemma wipeUserMemory_eq {userId : Option String} (h : SemanticMemoryClient.isMissingUserId userId = false)
    (embeddingProvider : Option String) :
    SemanticMemoryClient.wipeUserMemory a s userId embeddingProvider =
      (wipeTarget a).elim s fun target => s.deleteAll target.1 target.2 := by
  unfold SemanticMemoryClient.wipeUserMemory wipeTarget
  rw [h, if_neg Bool.false_ne_true]
  by_cases henabled : a.properties.enabled = true
  swap
  · simp [henabled]
  rw [restRouter_wipe]
  simp only [henabled, Bool.not_true, Bool.false_eq_true, if_false, wipeMemory, lastValue, List.reverse_nil,
    List.lookup_nil, validUserId, validProvider, Option.all_none, Bool.and_self]
  cases clientFor a.service none with
  | error e => rfl
  | ok client => rfl

lemma mem_search (h : matchesUserIdPattern userId = true) {query : Option String} {limit : ℤ}
    {embeddingProvider : Option String} {collection : String}
    (hcollection : collectionOf a.service embeddingProvider = some collection) {item : MemoryEntry}
    (hitem : item ∈ SemanticMemoryClient.search a s userId query limit embeddingProvider) :
    item.memory ∈ s.memories collection userId := by
  unfold SemanticMemoryClient.search at hitem
  rw [not_isMissingUserId h, if_neg Bool.false_ne_true] at hitem
  split at hitem
  · cases hitem
  rw [restRouter_search] at hitem
  have hprovider : lastValue [("user_id", (some userId).getD ""), ("query", query.getD ""),
      ("limit", toString limit), ("provider", embeddingProvider.getD "")] "provider" =
        some (embeddingProvider.getD "") := by
    simp [lastValue]
  have huser : lastValue [("user_id", (some userId).getD ""), ("query", query.getD ""),
      ("limit", toString limit), ("provider", embeddingProvider.getD "")] "user_id" = some userId :=
    lastValue_cons_self rfl userId
  unfold searchMemory at hitem
  rw [hprovider, huser] at hitem
  simp only [clientFor_getD] at hitem
  split at hitem
  · rename_i items hok
    split at hok
    · split at hok
      · cases hok
      cases hclient : clientFor a.service embeddingProvider with
      | error e =>
        rw [hclient] at hok
        cases hok
      | ok client =>
        rw [hclient] at hok
        obtain rfl := Option.some.inj (hcollection.symm.trans (collectionOf_of_clientFor hclient))
        have heffective : effectiveUserId a.service (some userId) = userId :=
          if_neg (ne_empty_of_matchesUserIdPattern h)
        obtain rfl := Response.ok.inj hok
        rw [heffective] at hitem
        exact s.memory_of_mem_search a.service.mem0 _ _ hitem
    · cases hok
  · cases hitem

end Calls

/-! ### Runs -/

lemma refines_iff_conforms (a : AgentMemory) (s : MemoryStore) (call : ClientCall) :
    Refines a s call ↔ Conforms a s call := by
  cases call with
  | insertMemory userId fact embeddingProvider =>
    unfold Refines Conforms
    apply forall₃_congr
    intro collection hpattern hcollection
    rcases insertMemory_cases a s hpattern fact embeddingProvider with
      ⟨haccepts, collection', hcollection', hstore⟩ | ⟨hrefused, hstore⟩
    · obtain rfl := Option.some.inj (hcollection.symm.trans hcollection')
      rw [hstore, MemoryStore.memories_add]
      exact ⟨fun _ => haccepts, fun _ => rfl⟩
    · rw [hstore]
      refine ⟨fun heq => ?_, fun haccepts => absurd haccepts hrefused⟩
      have hlength := congrArg List.length (congrFun (congrFun heq collection) userId)
      rw [PerUserStore.insert_self, List.length_append, List.length_singleton] at hlength
      omega
  | wipeUserMemory userId embeddingProvider =>
    unfold Refines Conforms
    apply forall₃_congr
    intro collection hpattern _
    rw [wipeUserMemory_eq a s (not_isMissingUserId hpattern)]
    cases wipeTarget a with
    | none =>
      rw [Option.elim_none, eq_comm, PerUserStore.wipe_eq_self_iff]
      simp
    | some target =>
      rw [Option.elim_some, MemoryStore.memories_deleteAll,
        PerUserStore.wipe_eq_wipe_iff s.memories target (collection, userId)]
      simp [and_comm]
  | search userId query limit embeddingProvider =>
    exact ⟨fun _ => trivial, fun _ collection hpattern hcollection item hitem =>
      mem_search a s hpattern hcollection hitem⟩

/-- A run of the client over the service is a run of the store of memories per collection and user
exactly when every insert is accepted and every wipe hits the list that it is meant for. -/
theorem client_refines_iff (a : AgentMemory) (s : MemoryStore) (calls : List ClientCall) :
    Along (clientStep a) (Refines a) s calls ↔ Along (clientStep a) (Conforms a) s calls :=
  along_congr (refines_iff_conforms a) s calls

/-- What the store is to do on a call. -/
def specStep (svc : MemoryService) (m : PerUserStore) : ClientCall → PerUserStore
  | .insertMemory userId fact embeddingProvider =>
    (collectionOf svc embeddingProvider).elim m fun collection => m.insert collection userId fact
  | .wipeUserMemory userId embeddingProvider =>
    (collectionOf svc embeddingProvider).elim m fun collection => m.wipe collection userId
  | .search _ _ _ _ => m

/-- The call is for a user id of the pattern and a provider with a collection. -/
def ClientCall.Recognised (svc : MemoryService) : ClientCall → Prop
  | .insertMemory userId _ embeddingProvider =>
    matchesUserIdPattern userId = true ∧ (collectionOf svc embeddingProvider).isSome = true
  | .wipeUserMemory userId embeddingProvider =>
    matchesUserIdPattern userId = true ∧ (collectionOf svc embeddingProvider).isSome = true
  | .search _ _ _ _ => True

lemma memories_clientStep {a : AgentMemory} {s : MemoryStore} {call : ClientCall}
    (hcall : call.Recognised a.service) (h : Conforms a s call) :
    (clientStep a s call).memories = specStep a.service s.memories call := by
  have hrefines := (refines_iff_conforms a s call).mpr h
  cases call with
  | insertMemory userId fact embeddingProvider =>
    obtain ⟨collection, hcollection⟩ := Option.isSome_iff_exists.mp hcall.2
    simp only [clientStep, specStep, hcollection, Option.elim_some]
    exact hrefines collection hcall.1 hcollection
  | wipeUserMemory userId embeddingProvider =>
    obtain ⟨collection, hcollection⟩ := Option.isSome_iff_exists.mp hcall.2
    simp only [clientStep, specStep, hcollection, Option.elim_some]
    exact hrefines collection hcall.1 hcollection
  | search userId query limit embeddingProvider => rfl

/-- The refinement over a whole run. -/
theorem memories_run {a : AgentMemory} {s : MemoryStore} {calls : List ClientCall}
    (hcalls : ∀ call ∈ calls, call.Recognised a.service)
    (h : Along (clientStep a) (Conforms a) s calls) :
    (run (clientStep a) s calls).memories = run (specStep a.service) s.memories calls := by
  apply run_refines _ ((along_of_forall (fun call hcall _ => hcalls call hcall) s).and h)
  intro s call hcall
  exact memories_clientStep hcall.1 hcall.2

def plainMem0 : Mem0 where
  newId n := String.ofList (List.replicate n 'i')
  newId_injective n n' h := by
    have hlength := congrArg String.length h
    simpa using hlength
  rank _ _ entries := entries
  rank_subset _ _ _ := List.Subset.refl _

def shippedMemory : AgentMemory where
  service := { mem0 := plainMem0, lower := fun s => String.ofList (s.toList.map Char.toLower) }

/-- A wipe leaves the memory that it is to remove. -/
theorem wipe_leaves_memory :
    ¬Along (clientStep shippedMemory) (Refines shippedMemory) MemoryStore.empty
      [.insertMemory "frosty" "likes tea" none, .wipeUserMemory "frosty" none] := by
  intro h
  have hwipe := congrFun (congrFun (h.2.1 "ascend_memory_768" (by decide) (by decide))
    "ascend_memory_768") "frosty"
  revert hwipe
  decide

end AscendAI.SemanticMemory
