import Mathlib
import AscendAI.Lib.Runs
import AscendAI.SemanticMemory.MemoryService

/-!
# The MCP tools of AscendMemory

The tools reach the same clients as the REST endpoints, after checks of their own: a tool refuses blank texts and
queries, which an endpoint takes, and takes user ids, providers and memory ids of any shape, which an endpoint
refuses.
-/

namespace AscendAI.SemanticMemory
open PythonString Runs

inductive ToolCall where
  | memoryInsert (text : String) (userId provider : Option String)
  | memorySearch (query : String) (userId : Option String) (limit : ℤ) (provider : Option String)
  | memoryDelete (memoryId : String) (provider : Option String)
  | memoryWipe (userId provider : Option String)
  deriving DecidableEq

/-- The envelope of a tool: its status with the results or a message. -/
inductive ToolAnswer where
  | results (items : List MemoryEntry)
  | message (text : String)
  | error (code operation message : String)
  deriving DecidableEq

section Tools

variable (svc : MemoryService) (s : MemoryStore)

/-- `_structured_error`; a `KeyError` is no `ValueError`. -/
def structuredError (operation : String) : ServiceError → ToolAnswer
  | .valueError message => .error "validation_error" operation message
  | .keyError _ => .error "internal_error" operation "An internal error occurred. Check service logs."

def memoryInsert (text : String) (userId provider : Option String) : MemoryStore × ToolAnswer :=
  if strip text = "" then (s, structuredError "memory_insert" (.valueError "text must not be empty"))
  else if (text.length : ℤ) > svc.settings.maxMemoryTextLength then
    (s, structuredError "memory_insert" (.valueError ("text exceeds maximum length of " ++
      toString svc.settings.maxMemoryTextLength ++ " characters")))
  else
    match clientFor svc provider with
    | .error e => (s, structuredError "memory_insert" e)
    | .ok client => (s.add svc.mem0 client.collectionName (effectiveUserId svc userId) text, .results [])

def memorySearch (query : String) (userId : Option String) (limit : ℤ) (provider : Option String) : ToolAnswer :=
  if strip query = "" then structuredError "memory_search" (.valueError "query must not be empty")
  else if (query.length : ℤ) > svc.settings.maxQueryLength then
    structuredError "memory_search" (.valueError ("query exceeds maximum length of " ++
      toString svc.settings.maxQueryLength ++ " characters"))
  else if limit < 1 ∨ limit > svc.settings.maxSearchLimit then
    structuredError "memory_search" (.valueError ("limit must be between 1 and " ++
      toString svc.settings.maxSearchLimit))
  else
    match clientFor svc provider with
    | .error e => structuredError "memory_search" e
    | .ok client => .results (s.search svc.mem0 client.collectionName query limit (effectiveUserId svc userId))

def memoryDelete (memoryId : String) (provider : Option String) : MemoryStore × ToolAnswer :=
  if strip memoryId = "" then (s, structuredError "memory_delete" (.valueError "memory_id must not be empty"))
  else
    match clientFor svc provider with
    | .error e => (s, structuredError "memory_delete" e)
    | .ok client => (s.delete client.collectionName memoryId, .message ("Memory " ++ memoryId ++ " deleted."))

def memoryWipe (userId provider : Option String) : MemoryStore × ToolAnswer :=
  match clientFor svc provider with
  | .error e => (s, structuredError "memory_wipe" e)
  | .ok client => (s.deleteAll client.collectionName (effectiveUserId svc userId),
      .message ("All memories wiped for user " ++ effectiveUserId svc userId ++ "."))

def callTool : ToolCall → MemoryStore × ToolAnswer
  | .memoryInsert text userId provider => memoryInsert svc s text userId provider
  | .memorySearch query userId limit provider => (s, memorySearch svc s query userId limit provider)
  | .memoryDelete memoryId provider => memoryDelete svc s memoryId provider
  | .memoryWipe userId provider => memoryWipe svc s userId provider

/-- A query parameter that may be omitted. -/
def optionalParam (name : String) (value : Option String) : List (String × String) :=
  (value.map fun v => (name, v)).toList

/-- The REST request with the arguments of a tool call. -/
def requestOf : ToolCall → Request
  | .memoryInsert text userId provider => ⟨.post, "/api/v1/memory/insert", [],
      some [("user_id", userId), ("text", some text), ("provider", provider)]⟩
  | .memorySearch query userId limit provider => ⟨.get, "/api/v1/memory/search",
      [("query", query), ("limit", toString limit)] ++ optionalParam "user_id" userId ++
        optionalParam "provider" provider, none⟩
  | .memoryDelete memoryId provider =>
      ⟨.delete, "/api/v1/memory", ("memory_id", memoryId) :: optionalParam "provider" provider, none⟩
  | .memoryWipe userId provider =>
      ⟨.post, "/api/v1/memory/wipe", optionalParam "user_id" userId ++ optionalParam "provider" provider, none⟩

end Tools

/-! ### What is asked of the two interfaces -/

/-- The answers say the same: success with the same items, an error of the caller, or one of the service. -/
def Response.Says : Response → ToolAnswer → Prop
  | .ok items, .results items' => items = items'
  | .ok items, .message _ => items = []
  | .failed status, .error code _ _ =>
    status ∈ [400, 422] ∧ code = "validation_error" ∨ status = 500 ∧ code = "internal_error"
  | _, _ => False

/-- The request and the tool call leave the same store and say the same. -/
def SameService (svc : MemoryService) (s : MemoryStore) (call : ToolCall) : Prop :=
  (restRouter svc s (requestOf call)).1 = (callTool svc s call).1 ∧
    (restRouter svc s (requestOf call)).2.Says (callTool svc s call).2

section Gates

variable (svc : MemoryService)

/-- The validation of the request. -/
def restGate : ToolCall → Bool
  | .memoryInsert text userId provider =>
    validUserId svc userId && (text.length : ℤ) ≤ svc.settings.maxMemoryTextLength && validProvider provider
  | .memorySearch query userId limit provider =>
    1 ≤ query.length && (query.length : ℤ) ≤ svc.settings.maxQueryLength && validUserId svc userId &&
      1 ≤ limit && limit ≤ svc.settings.maxSearchLimit && validProvider provider
  | .memoryDelete memoryId provider => 1 ≤ memoryId.length && memoryId.length ≤ 256 && validProvider provider
  | .memoryWipe userId provider => validUserId svc userId && validProvider provider

/-- The checks of the tool. -/
def mcpGate : ToolCall → Bool
  | .memoryInsert text _ _ => strip text ≠ "" && (text.length : ℤ) ≤ svc.settings.maxMemoryTextLength
  | .memorySearch query _ limit _ =>
    strip query ≠ "" && (query.length : ℤ) ≤ svc.settings.maxQueryLength && 1 ≤ limit &&
      limit ≤ svc.settings.maxSearchLimit
  | .memoryDelete memoryId _ => strip memoryId ≠ ""
  | .memoryWipe _ _ => true

def ToolCall.provider : ToolCall → Option String
  | .memoryInsert _ _ provider => provider
  | .memorySearch _ _ _ provider => provider
  | .memoryDelete _ provider => provider
  | .memoryWipe _ provider => provider

/-- An insert of the empty text, which the client of a usable provider refuses. -/
def ToolCall.refusedByClient (call : ToolCall) : Prop :=
  (∃ userId provider, call = .memoryInsert "" userId provider) ∧ (clientFor svc call.provider).isOk = true

/-- Both let the call pass or both refuse it, or the provider is refused in any case. -/
def DecideAlike (call : ToolCall) : Prop :=
  restGate svc call = mcpGate svc call ∨ (∃ message, clientFor svc call.provider = .error (.valueError message)) ∨
    call.refusedByClient svc

end Gates

/-! ### Behind the checks -/

section Served

variable (svc : MemoryService) (s : MemoryStore)

/-- What an endpoint does with its client. -/
def restServed (client : AscendMemoryClient) : ToolCall → MemoryStore × Response
  | .memoryInsert text userId _ =>
    if text = "" then (s, .failed 400)
    else (s.add svc.mem0 client.collectionName (effectiveUserId svc userId) text, .ok [])
  | .memorySearch query userId limit _ =>
    (s, .ok (s.search svc.mem0 client.collectionName query limit (effectiveUserId svc userId)))
  | .memoryDelete memoryId _ => (s.delete client.collectionName memoryId, .ok [])
  | .memoryWipe userId _ => (s.deleteAll client.collectionName (effectiveUserId svc userId), .ok [])

lemma lastValue_optionalParam_self (name : String) (value : Option String) :
    lastValue (optionalParam name value) name = value := by
  cases value with
  | none => rfl
  | some v => exact List.lookup_cons_self

lemma lastValue_optionalParam_of_ne {name other : String} (h : (other == name) = false) (value : Option String) :
    lastValue (optionalParam name value) other = none := by
  cases value with
  | none => rfl
  | some v =>
    rw [optionalParam, Option.map_some, Option.toList_some, lastValue, List.reverse_singleton,
      List.lookup_cons, h]
    rfl

lemma lastValue_userId (userId provider : Option String) :
    lastValue (optionalParam "user_id" userId ++ optionalParam "provider" provider) "user_id" = userId := by
  rw [lastValue_append, lastValue_optionalParam_of_ne rfl, lastValue_optionalParam_self, Option.none_or]

lemma lastValue_provider (params : List (String × String)) (hparams : lastValue params "provider" = none)
    (provider : Option String) :
    lastValue (params ++ optionalParam "provider" provider) "provider" = provider := by
  rw [lastValue_append, lastValue_optionalParam_self, hparams, Option.or_none]

lemma toInt?_toString (limit : ℤ) : (toString limit).toInt? = some limit := Int.toInt?_repr limit

lemma restRouter_requestOf (call : ToolCall) :
    restRouter svc s (requestOf call) =
      if restGate svc call then
        match clientFor svc call.provider with
        | .error e => (s, .failed e.status)
        | .ok client => restServed svc s client call
      else (s, .failed 422) := by
  cases call with
  | memoryInsert text userId provider =>
    have huser : (lastValue [("user_id", userId), ("text", some text), ("provider", provider)] "user_id").join =
        userId := by
      simp [lastValue, List.lookup_cons]
    have htext : (lastValue [("user_id", userId), ("text", some text), ("provider", provider)] "text").join =
        some text := by
      simp [lastValue, List.lookup_cons]
    have hprovider : (lastValue [("user_id", userId), ("text", some text), ("provider", provider)]
        "provider").join = provider := by
      simp [lastValue]
    rw [requestOf, restRouter_insert]
    cases hgate : restGate svc (.memoryInsert text userId provider) with
    | false =>
      simp only [restGate] at hgate
      simp only [insertMemory, huser, htext, hprovider, Option.all_some, ToolCall.provider, hgate]
      rfl
    | true =>
      simp only [restGate] at hgate
      simp only [insertMemory, huser, htext, hprovider, Option.all_some, ToolCall.provider, hgate]
      cases clientFor svc provider with
      | error e => rfl
      | ok client => rfl
  | memorySearch query userId limit provider =>
    have hquery : lastValue ([("query", query), ("limit", toString limit)] ++ optionalParam "user_id" userId ++
        optionalParam "provider" provider) "query" = some query := by
      rw [lastValue_append, lastValue_append, lastValue_optionalParam_of_ne rfl,
        lastValue_optionalParam_of_ne rfl]
      rfl
    have hlimit : lastValue ([("query", query), ("limit", toString limit)] ++ optionalParam "user_id" userId ++
        optionalParam "provider" provider) "limit" = some (toString limit) := by
      rw [lastValue_append, lastValue_append, lastValue_optionalParam_of_ne rfl,
        lastValue_optionalParam_of_ne rfl]
      rfl
    have huser : lastValue ([("query", query), ("limit", toString limit)] ++ optionalParam "user_id" userId ++
        optionalParam "provider" provider) "user_id" = userId := by
      rw [lastValue_append, lastValue_append, lastValue_optionalParam_of_ne rfl, lastValue_optionalParam_self]
      exact Option.or_none
    have hprovider : lastValue ([("query", query), ("limit", toString limit)] ++ optionalParam "user_id" userId ++
        optionalParam "provider" provider) "provider" = provider := by
      apply lastValue_provider
      rw [lastValue_append, lastValue_optionalParam_of_ne rfl]
      rfl
    rw [requestOf, restRouter_search]
    cases hgate : restGate svc (.memorySearch query userId limit provider) with
    | false =>
      simp only [restGate] at hgate
      simp only [searchMemory, hquery, hlimit, huser, hprovider, Option.elim_some, toInt?_toString,
        ToolCall.provider, hgate]
      rfl
    | true =>
      simp only [restGate] at hgate
      simp only [searchMemory, hquery, hlimit, huser, hprovider, Option.elim_some, toInt?_toString,
        ToolCall.provider, hgate]
      cases clientFor svc provider with
      | error e => rfl
      | ok client => rfl
  | memoryDelete memoryId provider =>
    have hmemory : lastValue (("memory_id", memoryId) :: optionalParam "provider" provider) "memory_id" =
        some memoryId := lastValue_cons_self (lastValue_optionalParam_of_ne rfl provider) memoryId
    have hprovider : lastValue (("memory_id", memoryId) :: optionalParam "provider" provider) "provider" =
        provider := lastValue_provider [("memory_id", memoryId)] rfl provider
    rw [requestOf, restRouter_delete]
    cases hgate : restGate svc (.memoryDelete memoryId provider) with
    | false =>
      simp only [restGate] at hgate
      simp only [deleteMemory, hmemory, hprovider, ToolCall.provider, hgate]
      rfl
    | true =>
      simp only [restGate] at hgate
      simp only [deleteMemory, hmemory, hprovider, ToolCall.provider, hgate]
      cases clientFor svc provider with
      | error e => rfl
      | ok client => rfl
  | memoryWipe userId provider =>
    have hprovider := lastValue_provider (optionalParam "user_id" userId)
      (lastValue_optionalParam_of_ne rfl userId) provider
    rw [requestOf, restRouter_wipe]
    cases hgate : restGate svc (.memoryWipe userId provider) with
    | false =>
      simp only [restGate] at hgate
      simp only [wipeMemory, lastValue_userId, hprovider, ToolCall.provider, hgate]
      rfl
    | true =>
      simp only [restGate] at hgate
      simp only [wipeMemory, lastValue_userId, hprovider, ToolCall.provider, hgate]
      cases clientFor svc provider with
      | error e => rfl
      | ok client => rfl

/-- What a tool does with its client. -/
def mcpServed (client : AscendMemoryClient) : ToolCall → MemoryStore × ToolAnswer
  | .memoryInsert text userId _ =>
    (s.add svc.mem0 client.collectionName (effectiveUserId svc userId) text, .results [])
  | .memorySearch query userId limit _ =>
    (s, .results (s.search svc.mem0 client.collectionName query limit (effectiveUserId svc userId)))
  | .memoryDelete memoryId _ =>
    (s.delete client.collectionName memoryId, .message ("Memory " ++ memoryId ++ " deleted."))
  | .memoryWipe userId _ => (s.deleteAll client.collectionName (effectiveUserId svc userId),
      .message ("All memories wiped for user " ++ effectiveUserId svc userId ++ "."))

def ToolCall.operation : ToolCall → String
  | .memoryInsert .. => "memory_insert"
  | .memorySearch .. => "memory_search"
  | .memoryDelete .. => "memory_delete"
  | .memoryWipe .. => "memory_wipe"

lemma callTool_eq (call : ToolCall) :
    ∃ message, callTool svc s call =
      if mcpGate svc call then
        match clientFor svc call.provider with
        | .error e => (s, structuredError call.operation e)
        | .ok client => mcpServed svc s client call
      else (s, structuredError call.operation (.valueError message)) := by
  cases call with
  | memoryInsert text userId provider =>
    simp only [callTool, memoryInsert, mcpGate, ToolCall.provider, ToolCall.operation, mcpServed]
    by_cases hblank : strip text = ""
    · exact ⟨"text must not be empty", by simp [hblank]⟩
    by_cases hlong : (text.length : ℤ) > svc.settings.maxMemoryTextLength
    · refine ⟨"text exceeds maximum length of " ++ toString svc.settings.maxMemoryTextLength ++ " characters", ?_⟩
      simp [hblank, hlong, not_le.mpr hlong]
    · exact ⟨"", by simp [hblank, hlong, not_lt.mp hlong]⟩
  | memorySearch query userId limit provider =>
    simp only [callTool, memorySearch, mcpGate, ToolCall.provider, ToolCall.operation, mcpServed]
    by_cases hblank : strip query = ""
    · exact ⟨"query must not be empty", by simp [hblank]⟩
    by_cases hlong : (query.length : ℤ) > svc.settings.maxQueryLength
    · refine ⟨"query exceeds maximum length of " ++ toString svc.settings.maxQueryLength ++ " characters", ?_⟩
      simp [hblank, hlong, not_le.mpr hlong]
    have hgate : (limit < 1 ∨ limit > svc.settings.maxSearchLimit) ↔
        (decide (1 ≤ limit) && decide (limit ≤ svc.settings.maxSearchLimit)) = false := by
      rw [← Bool.decide_and, decide_eq_false_iff_not]
      omega
    by_cases hlimit : limit < 1 ∨ limit > svc.settings.maxSearchLimit
    · refine ⟨"limit must be between 1 and " ++ toString svc.settings.maxSearchLimit, ?_⟩
      rw [if_neg hblank, if_neg hlong, if_pos hlimit]
      simp only [Bool.and_assoc, hgate.mp hlimit, Bool.and_false, Bool.false_eq_true, if_false]
    · refine ⟨"", ?_⟩
      have hopen := Bool.eq_true_of_not_eq_false (mt hgate.mpr hlimit)
      rw [if_neg hblank, if_neg hlong, if_neg hlimit]
      simp only [hblank, not_lt.mp hlong, ne_eq, not_false_eq_true, decide_true, Bool.and_assoc, hopen, Bool.and_self,
        if_true]
      cases clientFor svc provider with
      | error e => rfl
      | ok client => rfl
  | memoryDelete memoryId provider =>
    simp only [callTool, memoryDelete, mcpGate, ToolCall.provider, ToolCall.operation, mcpServed]
    by_cases hblank : strip memoryId = ""
    · exact ⟨"memory_id must not be empty", by simp [hblank]⟩
    · exact ⟨"", by simp [hblank]⟩
  | memoryWipe userId provider => exact ⟨"", rfl⟩

/-- Behind the checks the two do the same, but for the empty text. -/
lemma served_alike (client : AscendMemoryClient) {call : ToolCall}
    (h : ∀ userId provider, call ≠ .memoryInsert "" userId provider) :
    (restServed svc s client call).1 = (mcpServed svc s client call).1 ∧
      (restServed svc s client call).2.Says (mcpServed svc s client call).2 := by
  cases call with
  | memoryInsert text userId provider =>
    have htext : text ≠ "" := fun heq => h userId provider (by rw [heq])
    rw [restServed, if_neg htext]
    exact ⟨rfl, rfl⟩
  | memorySearch query userId limit provider => exact ⟨rfl, rfl⟩
  | memoryDelete memoryId provider => exact ⟨rfl, rfl⟩
  | memoryWipe userId provider => exact ⟨rfl, rfl⟩

/-- A success of an endpoint does not say what a refusal by a tool says, nor the other way round. -/
lemma not_says_refused (client : AscendMemoryClient) {call : ToolCall}
    (h : ∀ userId provider, call ≠ .memoryInsert "" userId provider) (operation : String) (e : ServiceError) :
    ¬(restServed svc s client call).2.Says (structuredError operation e) := by
  cases call with
  | memoryInsert text userId provider =>
    have htext : text ≠ "" := fun heq => h userId provider (by rw [heq])
    rw [restServed, if_neg htext]
    cases e <;> exact id
  | memorySearch query userId limit provider => cases e <;> exact id
  | memoryDelete memoryId provider => cases e <;> exact id
  | memoryWipe userId provider => cases e <;> exact id

lemma not_refused_says (client : AscendMemoryClient) (call : ToolCall) :
    ¬(Response.failed 422).Says (mcpServed svc s client call).2 := by
  cases call <;> exact id

lemma says_structuredError (operation : String) (e : ServiceError) :
    (Response.failed e.status).Says (structuredError operation e) := by
  cases e with
  | valueError message => exact .inl ⟨List.mem_cons_self, rfl⟩
  | keyError key => exact .inr ⟨rfl, rfl⟩

lemma says_refused (operation message : String) :
    (Response.failed 422).Says (structuredError operation (.valueError message)) := .inl ⟨by decide, rfl⟩

lemma not_says_keyError (operation key message : String) :
    ¬(Response.failed (ServiceError.keyError key).status).Says (structuredError operation (.valueError message)) ∧
      ¬(Response.failed 422).Says (structuredError operation (.keyError key)) := by
  constructor
  · rintro (⟨hstatus, -⟩ | ⟨-, hcode⟩)
    · have hnot : 500 ∉ [400, 422] := by decide
      exact hnot hstatus
    · revert hcode
      decide
  · rintro (⟨-, hcode⟩ | ⟨hstatus, -⟩)
    · revert hcode
      decide
    · revert hstatus
      decide

lemma mcpGate_empty (userId provider : Option String) : mcpGate svc (.memoryInsert "" userId provider) = false := rfl

/-- The two interfaces are the same service on a call exactly when they decide alike about it. -/
lemma sameService_iff (call : ToolCall) : SameService svc s call ↔ DecideAlike svc call := by
  obtain ⟨message, htool⟩ := callTool_eq svc s call
  unfold SameService DecideAlike
  rw [restRouter_requestOf, htool]
  cases hrest : restGate svc call <;> cases hmcp : mcpGate svc call
  · simp only [Bool.false_eq_true, if_false, true_and, true_or, iff_true]
    exact says_refused _ _
  · have hnonempty : ¬call.refusedByClient svc := by
      rintro ⟨⟨userId, provider, rfl⟩, -⟩
      rw [mcpGate_empty] at hmcp
      cases hmcp
    simp only [Bool.false_eq_true, if_false, if_true, hnonempty, or_false, false_or]
    cases clientFor svc call.provider with
    | error e =>
      cases e with
      | valueError message' => exact iff_of_true ⟨rfl, says_refused _ _⟩ ⟨message', rfl⟩
      | keyError key =>
        refine iff_of_false (fun h => (not_says_keyError _ key "").2 h.2) ?_
        rintro ⟨message', heq⟩
        cases heq
    | ok client =>
      refine iff_of_false (fun h => not_refused_says svc s client call h.2) ?_
      rintro ⟨message', heq⟩
      cases heq
  · simp only [Bool.false_eq_true, if_false, if_true, Bool.true_eq_false, false_or]
    rw [ToolCall.refusedByClient]
    cases hclient : clientFor svc call.provider with
    | error e =>
      cases e with
      | valueError message' => exact iff_of_true ⟨rfl, .inl ⟨List.mem_cons_self, rfl⟩⟩ (.inl ⟨message', rfl⟩)
      | keyError key =>
        refine iff_of_false (fun h => (not_says_keyError _ key _).1 h.2) ?_
        rintro (⟨message', heq⟩ | ⟨-, hok⟩)
        · cases heq
        · cases hok
    | ok client =>
      by_cases hempty : ∃ userId provider, call = .memoryInsert "" userId provider
      · refine iff_of_true ?_ (.inr ⟨hempty, rfl⟩)
        obtain ⟨userId, provider, rfl⟩ := hempty
        exact ⟨rfl, .inl ⟨by decide, rfl⟩⟩
      · refine iff_of_false (fun h => ?_) ?_
        · exact not_says_refused svc s client (fun userId provider heq => hempty ⟨userId, provider, heq⟩) _ _ h.2
        · rintro (⟨message', heq⟩ | ⟨hinsert, -⟩)
          · cases heq
          · exact hempty hinsert
  · have hnonempty : ∀ userId provider, call ≠ .memoryInsert "" userId provider := by
      rintro userId provider rfl
      rw [mcpGate_empty] at hmcp
      cases hmcp
    simp only [if_true, true_or, iff_true]
    cases clientFor svc call.provider with
    | error e => exact ⟨rfl, says_structuredError _ e⟩
    | ok client => exact served_alike svc s client hnonempty

end Served

def toolStep (svc : MemoryService) (s : MemoryStore) (call : ToolCall) : MemoryStore := (callTool svc s call).1

def requestStep (svc : MemoryService) (s : MemoryStore) (call : ToolCall) : MemoryStore :=
  (restRouter svc s (requestOf call)).1

end AscendAI.SemanticMemory
