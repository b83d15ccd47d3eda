import Mathlib.Data.List.Sort
import AscendAI.Lib.PythonString
import AscendAI.SemanticMemory.MemoryStore

/-!
# The AscendMemory service

The REST endpoints of the service over its clients, one for each provider. A parameter that
is declared as a query parameter is read from the query string only, and the fields of a
request model from the JSON body only.
-/

namespace AscendAI.SemanticMemory
open PythonString

structure Settings where
  lmstudioApiKey : String := "sk_local"
  openaiApiKey : String := ""
  geminiApiKey : String := ""
  mem0DefaultProvider : String := "lmstudio"
  defaultUserId : String := "default_user"
  maxUserIdLength : ℤ := 128
  maxQueryLength : ℤ := 2048
  maxMemoryTextLength : ℤ := 32768
  maxSearchLimit : ℤ := 100

inductive ApiKeySetting where
  | lmstudio
  | openai
  | gemini
  deriving DecidableEq, Repr

def ApiKeySetting.name : ApiKeySetting → String
  | .lmstudio => "LMSTUDIO_API_KEY"
  | .openai => "OPENAI_API_KEY"
  | .gemini => "GEMINI_API_KEY"

def providerSettingsValue (settings : Settings) : ApiKeySetting → String
  | .lmstudio => settings.lmstudioApiKey
  | .openai => settings.openaiApiKey
  | .gemini => settings.geminiApiKey

structure ProviderConfig where
  collectionName : String
  apiKeySetting : ApiKeySetting
  deriving DecidableEq, Repr

/-- Collections are keyed by dimension, so two providers share one. -/
def providerConfigs : List (String × ProviderConfig) :=
  [("lmstudio", ⟨"ascend_memory_768", .lmstudio⟩), ("openai", ⟨"ascend_memory_1536", .openai⟩),
    ("gemini", ⟨"ascend_memory_768", .gemini⟩)]

def supportedProviders : List String := (providerConfigs.map Prod.fst).insertionSort (· ≤ ·)

/-- The service: its settings, mem0, and `str.lower`. -/
structure MemoryService where
  settings : Settings := {}
  mem0 : Mem0
  lower : String → String

inductive ServiceError where
  | valueError (message : String)
  | keyError (key : String)
  deriving DecidableEq, Repr

def ServiceError.status : ServiceError → ℕ
  | .valueError _ => 400
  | .keyError _ => 500

structure AscendMemoryClient where
  provider : String
  collectionName : String
  deriving DecidableEq, Repr

inductive Method where
  | get
  | post
  | delete
  deriving DecidableEq, Repr

/-- A request: its query parameters, and its JSON body of strings and nulls. -/
structure Request where
  method : Method
  path : String
  query : List (String × String) := []
  body : Option (List (String × Option String)) := none

inductive Response where
  | ok (items : List MemoryEntry)
  | failed (status : ℕ)
  deriving DecidableEq, Repr

/-- The value of a name in a query or in a JSON object: the last one counts where the name is repeated. -/
def lastValue {α : Type} (entries : List (String × α)) (name : String) : Option α :=
  entries.reverse.lookup name

lemma lastValue_append {α : Type} (entries rest : List (String × α)) (name : String) :
    lastValue (entries ++ rest) name = (lastValue rest name).or (lastValue entries name) := by
  rw [lastValue, List.reverse_append, List.lookup_append]
  rfl

lemma lastValue_cons_self {α : Type} {name : String} {rest : List (String × α)}
    (h : lastValue rest name = none) (value : α) : lastValue ((name, value) :: rest) name = some value := by
  rw [← List.singleton_append, lastValue_append, h, Option.none_or]
  exact List.lookup_cons_self

def userIdChar (c : Char) : Bool :=
  ('A' ≤ c && c ≤ 'Z') || ('a' ≤ c && c ≤ 'z') || ('0' ≤ c && c ≤ '9') || "._-@:+".toList.contains c

def matchesUserIdPattern (userId : String) : Bool :=
  userId.toList.all userIdChar && 1 ≤ userId.length && userId.length ≤ 128

/-- A Python list of strings, as an f-string renders it. -/
def renderList (items : List String) : String :=
  "[" ++ String.intercalate ", " (items.map fun item => "'" ++ item ++ "'") ++ "]"

section Service

variable (svc : MemoryService)

def resolveProvider (provider : Option String) : Except ServiceError String :=
  match provider with
  | none => .ok svc.settings.mem0DefaultProvider
  | some p =>
    if strip p = "" then .ok svc.settings.mem0DefaultProvider
    else
      let candidate := svc.lower (strip p)
      if (providerConfigs.lookup candidate).isNone then
        .error (.valueError ("Unknown provider '" ++ candidate ++ "'. Allowed: " ++
          renderList supportedProviders))
      else .ok candidate

/-- `get_memory_client` with the constructor of the client that it keeps. -/
def getMemoryClient (provider : Option String) : Except ServiceError AscendMemoryClient := do
  let resolved ← resolveProvider svc provider
  match providerConfigs.lookup resolved with
  | none => .error (.keyError resolved)
  | some config =>
    if strip (providerSettingsValue svc.settings config.apiKeySetting) = "" then
      .error (.valueError ("Provider '" ++ resolved ++ "' requires env var " ++ config.apiKeySetting.name ++
        " but it is missing or blank. Set it before invoking this provider."))
    else .ok ⟨resolved, config.collectionName⟩

/-- The two lines with which every endpoint finds its client. -/
def clientFor (provider : Option String) : Except ServiceError AscendMemoryClient := do
  let resolvedProvider ← resolveProvider svc provider
  getMemoryClient svc (some resolvedProvider)

/-- `user_id or settings.DEFAULT_USER_ID` -/
def effectiveUserId : Option String → String
  | none => svc.settings.defaultUserId
  | some userId => if userId = "" then svc.settings.defaultUserId else userId

def validUserId (userId : Option String) : Bool :=
  userId.all fun u => (u.length : ℤ) ≤ svc.settings.maxUserIdLength && matchesUserIdPattern u

def validProvider (provider : Option String) : Bool := provider.all fun p => p.length ≤ 32

def searchMemory (s : MemoryStore) (params : List (String × String)) : Response :=
  let userId := lastValue params "user_id"
  let provider := lastValue params "provider"
  match lastValue params "query", (lastValue params "limit").elim (some 5) String.toInt? with
  | some query, some limit =>
    if !(1 ≤ query.length && (query.length : ℤ) ≤ svc.settings.maxQueryLength && validUserId svc userId &&
        1 ≤ limit && limit ≤ svc.settings.maxSearchLimit && validProvider provider) then .failed 422
    else
      match clientFor svc provider with
      | .error e => .failed e.status
      | .ok client =>
        .ok (s.search svc.mem0 client.collectionName query limit (effectiveUserId svc userId))
  | _, _ => .failed 422

/-- `insert_memory` of a body without `messages` and `metadata`. -/
def insertMemory (s : MemoryStore) (body : Option (List (String × Option String))) :
    MemoryStore × Response :=
  match body with
  | none => (s, .failed 422)
  | some fields =>
    let userId := (lastValue fields "user_id").join
    let text := (lastValue fields "text").join
    let provider := (lastValue fields "provider").join
    if !(validUserId svc userId && text.all (fun t => (t.length : ℤ) ≤ svc.settings.maxMemoryTextLength) &&
        validProvider provider) then (s, .failed 422)
    else
      match text with
      | none => (s, .failed 400)
      | some t =>
        match clientFor svc provider with
        | .error e => (s, .failed e.status)
        | .ok client =>
          if t = "" then (s, .failed 400)
          else (s.add svc.mem0 client.collectionName (effectiveUserId svc userId) t, .ok [])

def wipeMemory (s : MemoryStore) (params : List (String × String)) : MemoryStore × Response :=
  let userId := lastValue params "user_id"
  let provider := lastValue params "provider"
  if !(validUserId svc userId && validProvider provider) then (s, .failed 422)
  else
    match clientFor svc provider with
    | .error e => (s, .failed e.status)
    | .ok client => (s.deleteAll client.collectionName (effectiveUserId svc userId), .ok [])

def deleteMemory (s : MemoryStore) (params : List (String × String)) : MemoryStore × Response :=
  let provider := lastValue params "provider"
  match lastValue params "memory_id" with
  | none => (s, .failed 422)
  | some memoryId =>
    if !(1 ≤ memoryId.length && memoryId.length ≤ 256 && validProvider provider) then (s, .failed 422)
    else
      match clientFor svc provider with
      | .error e => (s, .failed e.status)
      | .ok client => (s.delete client.collectionName memoryId, .ok [])

/-- The paths of `rest_router`, with its prefix. -/
def restPaths : List String :=
  ["/api/v1/memory/search", "/api/v1/memory/insert", "/api/v1/memory/wipe", "/api/v1/memory"]

def restRouter (s : MemoryStore) (r : Request) : MemoryStore × Response :=
  if r.method = .get ∧ r.path = "/api/v1/memory/search" then (s, searchMemory svc s r.query)
  else if r.method = .post ∧ r.path = "/api/v1/memory/insert" then insertMemory svc s r.body
  else if r.method = .post ∧ r.path = "/api/v1/memory/wipe" then wipeMemory svc s r.query
  else if r.method = .delete ∧ r.path = "/api/v1/memory" then deleteMemory svc s r.query
  else if restPaths.contains r.path then (s, .failed 405)
  else (s, .failed 404)

lemma restRouter_search (s : MemoryStore) (query : List (String × String))
    (body : Option (List (String × Option String))) :
    restRouter svc s ⟨.get, "/api/v1/memory/search", query, body⟩ = (s, searchMemory svc s query) :=
  if_pos ⟨rfl, rfl⟩

lemma restRouter_insert (s : MemoryStore) (query : List (String × String))
    (body : Option (List (String × Option String))) :
    restRouter svc s ⟨.post, "/api/v1/memory/insert", query, body⟩ = insertMemory svc s body := by
  simp [restRouter]

lemma restRouter_wipe (s : MemoryStore) (query : List (String × String))
    (body : Option (List (String × Option String))) :
    restRouter svc s ⟨.post, "/api/v1/memory/wipe", query, body⟩ = wipeMemory svc s query := by
  simp [restRouter]

lemma restRouter_delete (s : MemoryStore) (query : List (String × String))
    (body : Option (List (String × Option String))) :
    restRouter svc s ⟨.delete, "/api/v1/memory", query, body⟩ = deleteMemory svc s query := by
  simp [restRouter]

/-- The collection that a provider stands for; a provider that is not recognised has none. -/
def collectionOf (provider : Option String) : Option String :=
  match resolveProvider svc provider with
  | .error _ => none
  | .ok resolved =>
    match resolveProvider svc (some resolved) with
    | .error _ => none
    | .ok resolved => (providerConfigs.lookup resolved).map ProviderConfig.collectionName

end Service

/-! ### Clients -/

section Laws

variable {svc : MemoryService}

lemma collectionOf_of_clientFor {provider : Option String} {client : AscendMemoryClient}
    (h : clientFor svc provider = .ok client) : collectionOf svc provider = some client.collectionName := by
  unfold clientFor getMemoryClient at h
  unfold collectionOf
  cases hfirst : resolveProvider svc provider with
  | error e =>
    rw [hfirst] at h
    cases h
  | ok resolved =>
    rw [hfirst] at h
    simp only [bind, Except.bind] at h ⊢
    cases hsecond : resolveProvider svc (some resolved) with
    | error e =>
      rw [hsecond] at h
      cases h
    | ok resolved' =>
      rw [hsecond] at h
      simp only at h ⊢
      cases hconfig : providerConfigs.lookup resolved' with
      | none =>
        rw [hconfig] at h
        cases h
      | some config =>
        rw [hconfig] at h
        simp only at h
        split at h
        · cases h
        · obtain rfl := Except.ok.inj h
          rfl

end Laws

end AscendAI.SemanticMemory
