import AscendAI.Lib.JavaString

/-!
# Providers of a request

A request may name a chat provider and an embedding provider. Each component of the agent resolves
a missing name by itself: the validator, the two resolvers of models and stores, the resolver of
cache strategies and the memory extractor.
-/

namespace AscendAI.Provider

open JavaString

/-- `AiProviderProperties.ProviderConfig` without the temperature. -/
structure ProviderConfig where
  isEnabled : Bool := false
  requiresHttp1 : Bool := false
  type : String
  baseUrl : String := ""
  apiKey : String := ""
  model : String
  memoryExtractionModel : Option String := none
  defaultEmbedding : Option String := none
  maxTokens : Option ℤ := none
  timeoutSeconds : Option ℤ := none
  deriving DecidableEq

/-- `app.ai` -/
structure AiProviderProperties where
  defaultProvider : String
  providers : List (String × ProviderConfig)

structure EmbeddingConfig where
  type : String := "openai"
  baseUrl : String := ""
  apiKey : String := ""
  model : String := ""
  dimensions : ℤ
  deriving DecidableEq

structure EmbeddingProviderProperties where
  defaultProvider : Option String
  providers : List (String × EmbeddingConfig)

/-- The shipped embedding providers, with lmstudio for the default one. -/
def lmstudioEmbedding : EmbeddingProviderProperties where
  defaultProvider := some "lmstudio"
  providers := [("lmstudio", { dimensions := 768 }), ("openai", { dimensions := 1536 }),
    ("gemini", { dimensions := 768 })]

/-- `app.ai.prompt-cache`, with the toggle of each provider that has one. -/
structure PromptCacheProperties where
  enabled : Bool := true
  providers : List (String × Bool) := []

structure AgentProperties where
  locale : JavaLocale
  ai : AiProviderProperties
  embedding : EmbeddingProviderProperties
  promptCache : PromptCacheProperties

/-- `map.get(key)` where the key may be null. -/
def getOrNull {α : Type} (map : List (String × α)) (key : Option String) : Option α :=
  key.bind fun k => map.lookup k

def formatNullable (s : Option String) : String := s.getD "null"

def formatKeys {α : Type} (map : List (String × α)) : String :=
  "[" ++ ", ".intercalate (map.map Prod.fst) ++ "]"

/-! ### VectorStoreResolver -/

section

variable (locale : JavaLocale) (embedding : EmbeddingProviderProperties)

def resolveProviderName (embeddingProvider : Option String) : Option String :=
  match embeddingProvider with
  | none => embedding.defaultProvider
  | some p => if isBlank p then embedding.defaultProvider else some (locale.toLowerCase p)

/-- `VectorStoreResolver.resolve`, by the collection of the store: the name that
`VectorStoreConfig` gives it, or the message of the exception. -/
def resolveVectorStore (embeddingProvider : Option String) : Except String String :=
  let resolvedProvider := resolveProviderName locale embedding embeddingProvider
  match getOrNull embedding.providers resolvedProvider with
  | none => .error ("VectorStore for embedding provider '" ++ formatNullable resolvedProvider ++ "' not found")
  | some config => .ok ("ascendai-" ++ toString config.dimensions)

end

section

variable (cfg : AgentProperties)

/-! ### EmbeddingProviderValidator -/

inductive ValidationError where
  | illegalArgument (message : String)
  | incompatibleEmbedding (message : String)
  deriving DecidableEq

def incompatibleChatProviders : List (ℤ × List String) := [(768, ["openai"]), (1536, ["lmstudio"])]

/-- `EmbeddingProviderValidator.resolveProvider` -/
def resolveProvider (provider defaultValue : Option String) : Option String :=
  match provider with
  | none => defaultValue
  | some p => if hasText (some p) then some (cfg.locale.toLowerCase (trim p)) else defaultValue

def validate (chatProvider embeddingProvider : Option String) : Except ValidationError Unit :=
  let resolvedChatProvider := resolveProvider cfg chatProvider (some cfg.ai.defaultProvider)
  let resolvedEmbeddingProvider := resolveProvider cfg embeddingProvider cfg.embedding.defaultProvider
  match getOrNull cfg.embedding.providers resolvedEmbeddingProvider with
  | none =>
    .error (.illegalArgument ("Unknown embedding provider: '" ++ formatNullable resolvedEmbeddingProvider ++
      "'. Available: " ++ formatKeys cfg.embedding.providers))
  | some embeddingConfig =>
    let incompatible := (incompatibleChatProviders.lookup embeddingConfig.dimensions).getD []
    if resolvedChatProvider.any incompatible.contains then
      let requiredDimensions : ℤ := if embeddingConfig.dimensions = 768 then 1536 else 768
      .error (.incompatibleEmbedding ("Chat provider '" ++ formatNullable resolvedChatProvider ++
        "' is incompatible with embedding provider '" ++ formatNullable resolvedEmbeddingProvider ++ "' (" ++
        toString embeddingConfig.dimensions ++ "-dim). Expected " ++ toString requiredDimensions ++
        "-dim embeddings. Set EMBEDDING_PROVIDER to a compatible provider or choose a different chat provider."))
    else .ok ()

/-! ### ChatModelResolver -/

structure ChatModel where
  name : String
  config : ProviderConfig
  deriving DecidableEq

/-- `registerProvider` over all providers. -/
def chatModels : List (String × ChatModel) :=
  (cfg.ai.providers.filter fun entry => entry.2.isEnabled).map fun entry =>
    (entry.1, ⟨entry.1, entry.2⟩)

def resolveChatModel (provider : Option String) : Except String ChatModel :=
  let resolvedProvider := match provider with
    | none => cfg.ai.defaultProvider
    | some p => if isBlank p then cfg.ai.defaultProvider else p
  match (chatModels cfg).lookup resolvedProvider with
  | none => .error ("AI provider '" ++ resolvedProvider ++ "' is not available. Enabled providers: " ++
      formatKeys (chatModels cfg))
  | some chatModel => .ok chatModel

/-! ### PromptCacheStrategyResolver -/

inductive PromptCacheStrategy where
  | anthropic
  | openAi (providerName : String)
  | noop (providerName : String)
  deriving DecidableEq

def openAiFamily : List String := ["openai", "gemini"]

def isProviderEnabled (providerName : String) : Bool :=
  if !cfg.promptCache.enabled then false
  else (cfg.promptCache.providers.lookup providerName).getD true

/-- `strategies.get(providerName)` after `init`. -/
def cacheStrategies (providerName : String) : Option PromptCacheStrategy :=
  if providerName = "anthropic" then some .anthropic
  else if openAiFamily.contains providerName then some (.openAi providerName)
  else none

def resolveCacheStrategy : Option String → PromptCacheStrategy
  | none => .noop "unknown"
  | some providerName =>
    if !isProviderEnabled cfg providerName then .noop providerName
    else (cacheStrategies providerName).getD (.noop providerName)

/-! ### SemanticMemoryExtractor and AscendChatService -/

def resolveExtractionModel (provider requestedModel : Option String) : Option String :=
  if hasText requestedModel then requestedModel
  else (getOrNull cfg.ai.providers provider).bind ProviderConfig.memoryExtractionModel

def activeEmbeddingProvider (provider embeddingProvider : Option String) : Option String :=
  match embeddingProvider with
  | some e => some e
  | none => (getOrNull cfg.ai.providers provider).bind ProviderConfig.defaultEmbedding

/-- `resolvedPrimaryProvider`, which the compaction takes. -/
def resolvedPrimaryProvider (provider : Option String) : String := provider.getD cfg.ai.defaultProvider

end

end AscendAI.Provider
