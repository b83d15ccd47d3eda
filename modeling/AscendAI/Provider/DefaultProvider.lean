import AscendAI.Provider.ProviderResolution
import AscendAI.SemanticMemory.SemanticMemoryClient

/-!
# A request without a provider

What `AscendChatService.prompt` chooses for a request without a chat provider, next to what it
chooses when the request names the default provider. The chat model and the provider of the
compaction agree. The embedding provider, the cache strategy and the model of the extraction are
looked up under the missing name and may differ.
-/

namespace AscendAI.Provider

open JavaString

structure Choices where
  validation : Except ValidationError Unit
  embeddingProvider : Option String
  memoryProvider : Except SemanticMemory.ServiceError String
  chatModel : Except String ChatModel
  cacheStrategy : PromptCacheStrategy
  extractionModel : Option String
  compactionProvider : String

def PromptCacheStrategy.isNoop : PromptCacheStrategy → Bool
  | .noop _ => true
  | _ => false

section

variable (cfg : AgentProperties) (svc : SemanticMemory.MemoryService)

/-- `AscendChatService.prompt` down to the calls of its collaborators. The options of the extraction
take a blank model for none. -/
def promptChoices (provider model embeddingProvider : Option String) : Choices where
  validation := validate cfg provider (activeEmbeddingProvider cfg provider embeddingProvider)
  embeddingProvider := resolveProviderName cfg.locale cfg.embedding
    (activeEmbeddingProvider cfg provider embeddingProvider)
  memoryProvider :=
    SemanticMemory.resolveProvider svc (activeEmbeddingProvider cfg provider embeddingProvider)
  chatModel := resolveChatModel cfg provider
  cacheStrategy := resolveCacheStrategy cfg provider
  extractionModel := (resolveExtractionModel cfg provider model).filter fun m => hasText (some m)
  compactionProvider := resolvedPrimaryProvider cfg provider

/-- The choices are the same. The name of a strategy that does nothing is never read. -/
structure Choices.Same (c c' : Choices) : Prop where
  validation : c.validation.isOk = c'.validation.isOk
  embeddingProvider : c.embeddingProvider = c'.embeddingProvider
  memoryProvider : c.memoryProvider = c'.memoryProvider
  chatModel : c.chatModel = c'.chatModel
  cacheStrategy : c.cacheStrategy = c'.cacheStrategy ∨
    c.cacheStrategy.isNoop = true ∧ c'.cacheStrategy.isNoop = true
  extractionModel : c.extractionModel = c'.extractionModel
  compactionProvider : c.compactionProvider = c'.compactionProvider

/-- The trimmed lower-case name of the default chat provider. -/
def normalizedDefault : String :=
  if hasText (some cfg.ai.defaultProvider) then cfg.locale.toLowerCase (trim cfg.ai.defaultProvider)
  else cfg.ai.defaultProvider

/-- The trimmed lower-case name of an embedding provider, or the default name where there is no text. -/
def normalizedEmbedding (embeddingProvider : Option String) : Option String :=
  match embeddingProvider.filter fun e => hasText (some e) with
  | none => cfg.embedding.defaultProvider
  | some e => some (cfg.locale.toLowerCase (trim e))

/-- The dimensions that the configuration gives to that name. -/
def dimensionsOf (embeddingProvider : Option String) : Option ℤ :=
  (getOrNull cfg.embedding.providers (normalizedEmbedding cfg embeddingProvider)).map
    EmbeddingConfig.dimensions

/-- Dimensions that a chat provider cannot go with. -/
def Clash (chatProvider : String) (dimensions : Option ℤ) : Prop :=
  dimensions = none ∨ dimensions = some 768 ∧ chatProvider = "openai" ∨
    dimensions = some 1536 ∧ chatProvider = "lmstudio"

instance (chatProvider : String) (dimensions : Option ℤ) : Decidable (Clash chatProvider dimensions) :=
  inferInstanceAs (Decidable (_ ∨ _ ∨ _))

/-- What the configuration, with `defaultConfig` for its default provider, must say for a missing name
to mean the default one. -/
structure DefaultIsNeutral (defaultConfig : ProviderConfig) (model embeddingProvider : Option String) :
    Prop where
  embedding : embeddingProvider = none → ∀ b, defaultConfig.defaultEmbedding = some b →
    isBlank b = true ∨ cfg.embedding.defaultProvider = some (cfg.locale.toLowerCase b)
  memory : embeddingProvider = none → ∀ b, defaultConfig.defaultEmbedding = some b →
    PythonString.strip b = "" ∨
      svc.lower (PythonString.strip b) = svc.settings.mem0DefaultProvider ∧
        (SemanticMemory.providerConfigs.lookup svc.settings.mem0DefaultProvider).isSome = true
  compatible :
    Clash cfg.ai.defaultProvider (dimensionsOf cfg embeddingProvider) ↔
      Clash (normalizedDefault cfg) (dimensionsOf cfg (embeddingProvider.or defaultConfig.defaultEmbedding))
  cache : isProviderEnabled cfg cfg.ai.defaultProvider = false ∨
    cfg.ai.defaultProvider ∉ ["anthropic", "openai", "gemini"]
  extraction : hasText model = true ∨ hasText defaultConfig.memoryExtractionModel = false

/-! ### One choice at a time -/

lemma mem_incompatible_iff (dimensions : ℤ) (c : String) :
    c ∈ (incompatibleChatProviders.lookup dimensions).getD [] ↔
      dimensions = 768 ∧ c = "openai" ∨ dimensions = 1536 ∧ c = "lmstudio" := by
  unfold incompatibleChatProviders
  by_cases h768 : dimensions = 768
  · subst h768
    simp
  · by_cases h1536 : dimensions = 1536
    · subst h1536
      simp [List.lookup_cons]
    · have hlookup : List.lookup dimensions [((768 : ℤ), ["openai"]), (1536, ["lmstudio"])] = none := by
        simp [List.lookup_eq_none_iff, h768, h1536]
      rw [hlookup]
      simp [h768, h1536]

lemma resolveProvider_embedding (embeddingProvider : Option String) :
    resolveProvider cfg embeddingProvider cfg.embedding.defaultProvider =
      normalizedEmbedding cfg embeddingProvider := by
  unfold resolveProvider normalizedEmbedding
  cases embeddingProvider with
  | none => rfl
  | some e =>
    dsimp only
    cases htext : hasText (some e) with
    | true => simp [Option.filter, htext]
    | false => simp [Option.filter, htext]

lemma validate_isOk_iff {chatProvider embeddingProvider : Option String} {c : String}
    (hc : resolveProvider cfg chatProvider (some cfg.ai.defaultProvider) = some c) :
    (validate cfg chatProvider embeddingProvider).isOk = true ↔
      ¬Clash c (dimensionsOf cfg embeddingProvider) := by
  unfold validate dimensionsOf Clash
  dsimp only
  rw [hc, resolveProvider_embedding]
  cases getOrNull cfg.embedding.providers (normalizedEmbedding cfg embeddingProvider) with
  | none => simp [Except.isOk, Except.toBool]
  | some config =>
    have hmem := mem_incompatible_iff config.dimensions c
    dsimp only
    rw [Option.any_some]
    by_cases hcontains : ((incompatibleChatProviders.lookup config.dimensions).getD []).contains c = true
    · rw [if_pos hcontains]
      rw [List.contains_iff_mem, hmem] at hcontains
      simp [Except.isOk, Except.toBool, hcontains]
    · rw [if_neg hcontains]
      rw [List.contains_iff_mem, hmem] at hcontains
      simp [Except.isOk, Except.toBool, hcontains]

lemma resolveProvider_default :
    resolveProvider cfg (some cfg.ai.defaultProvider) (some cfg.ai.defaultProvider) =
      some (normalizedDefault cfg) := by
  unfold resolveProvider normalizedDefault
  dsimp only
  split_ifs
  · rfl
  · rfl

lemma activeEmbeddingProvider_none (embeddingProvider : Option String) :
    activeEmbeddingProvider cfg none embeddingProvider = embeddingProvider := by
  cases embeddingProvider with
  | none => rfl
  | some e => rfl

variable {defaultConfig : ProviderConfig}
  (hdefault : cfg.ai.providers.lookup cfg.ai.defaultProvider = some defaultConfig)

include hdefault in
lemma activeEmbeddingProvider_default (embeddingProvider : Option String) :
    activeEmbeddingProvider cfg (some cfg.ai.defaultProvider) embeddingProvider =
      embeddingProvider.or defaultConfig.defaultEmbedding := by
  cases embeddingProvider with
  | none =>
    unfold activeEmbeddingProvider getOrNull
    rw [Option.bind_some, hdefault]
    rfl
  | some e => rfl

include hdefault in
lemma validation_same_iff (embeddingProvider : Option String) :
    (validate cfg none (activeEmbeddingProvider cfg none embeddingProvider)).isOk =
        (validate cfg (some cfg.ai.defaultProvider)
          (activeEmbeddingProvider cfg (some cfg.ai.defaultProvider) embeddingProvider)).isOk ↔
      (Clash cfg.ai.defaultProvider (dimensionsOf cfg embeddingProvider) ↔
        Clash (normalizedDefault cfg)
          (dimensionsOf cfg (embeddingProvider.or defaultConfig.defaultEmbedding))) := by
  rw [Bool.eq_iff_iff, validate_isOk_iff cfg rfl, validate_isOk_iff cfg (resolveProvider_default cfg),
    activeEmbeddingProvider_none, activeEmbeddingProvider_default cfg hdefault, not_iff_not]

lemma embedding_same_iff (defaultConfig : ProviderConfig) (embeddingProvider : Option String) :
    resolveProviderName cfg.locale cfg.embedding embeddingProvider =
        resolveProviderName cfg.locale cfg.embedding
          (embeddingProvider.or defaultConfig.defaultEmbedding) ↔
      (embeddingProvider = none → ∀ b, defaultConfig.defaultEmbedding = some b →
        isBlank b = true ∨ cfg.embedding.defaultProvider = some (cfg.locale.toLowerCase b)) := by
  cases embeddingProvider with
  | some e => simp
  | none =>
    cases defaultConfig.defaultEmbedding with
    | none => simp
    | some b =>
      cases hb : isBlank b with
      | true => simp [resolveProviderName, hb]
      | false => simp [resolveProviderName, hb]

lemma resolveProvider_eq_default_iff (b : String) :
    SemanticMemory.resolveProvider svc (some b) = SemanticMemory.resolveProvider svc none ↔
      PythonString.strip b = "" ∨
        svc.lower (PythonString.strip b) = svc.settings.mem0DefaultProvider ∧
          (SemanticMemory.providerConfigs.lookup svc.settings.mem0DefaultProvider).isSome = true := by
  unfold SemanticMemory.resolveProvider
  dsimp only
  split_ifs with hblank hunknown
  · exact iff_of_true rfl (Or.inl hblank)
  · rw [Option.isNone_iff_eq_none] at hunknown
    constructor
    · intro h
      cases h
    · rintro (h | ⟨heq, hsome⟩)
      · exact absurd h hblank
      · rw [← heq, hunknown] at hsome
        cases hsome
  · rw [Bool.not_eq_true, Option.isNone_eq_false_iff] at hunknown
    constructor
    · intro h
      have heq := Except.ok.inj h
      rw [heq] at hunknown
      exact Or.inr ⟨heq, hunknown⟩
    · rintro (h | ⟨heq, -⟩)
      · exact absurd h hblank
      · rw [heq]

lemma memory_same_iff (defaultConfig : ProviderConfig) (embeddingProvider : Option String) :
    SemanticMemory.resolveProvider svc embeddingProvider =
        SemanticMemory.resolveProvider svc
          (embeddingProvider.or defaultConfig.defaultEmbedding) ↔
      (embeddingProvider = none → ∀ b, defaultConfig.defaultEmbedding = some b →
        PythonString.strip b = "" ∨
          svc.lower (PythonString.strip b) = svc.settings.mem0DefaultProvider ∧
            (SemanticMemory.providerConfigs.lookup svc.settings.mem0DefaultProvider).isSome = true) := by
  cases embeddingProvider with
  | some e => simp
  | none =>
    cases defaultConfig.defaultEmbedding with
    | none => simp
    | some b =>
      simp only [Option.none_or, forall_const, Option.some.injEq, forall_eq']
      rw [eq_comm]
      exact resolveProvider_eq_default_iff svc b

lemma chatModel_same : resolveChatModel cfg none = resolveChatModel cfg (some cfg.ai.defaultProvider) := by
  unfold resolveChatModel
  dsimp only
  rw [ite_self]

lemma isNoop_cacheStrategies_iff (name : String) :
    ((cacheStrategies name).getD (.noop name)).isNoop = true ↔ name ∉ ["anthropic", "openai", "gemini"] := by
  unfold cacheStrategies openAiFamily
  split_ifs with hanthropic hopenAi
  · subst hanthropic
    decide
  · rw [List.contains_iff_mem] at hopenAi
    simp only [Option.getD_some, PromptCacheStrategy.isNoop, Bool.false_eq_true, false_iff, not_not]
    exact List.mem_cons_of_mem _ hopenAi
  · rw [List.contains_iff_mem] at hopenAi
    simp only [Option.getD_none, PromptCacheStrategy.isNoop, true_iff, List.mem_cons, not_or]
    simpa [hanthropic] using hopenAi

lemma isNoop_resolveCacheStrategy_iff (name : String) :
    (resolveCacheStrategy cfg (some name)).isNoop = true ↔
      isProviderEnabled cfg name = false ∨ name ∉ ["anthropic", "openai", "gemini"] := by
  rw [← isNoop_cacheStrategies_iff]
  cases henabled : isProviderEnabled cfg name with
  | false =>
    apply iff_of_true _ (Or.inl rfl)
    simp [resolveCacheStrategy, henabled, PromptCacheStrategy.isNoop]
  | true => simp [resolveCacheStrategy, henabled]

lemma cache_same_iff :
    (resolveCacheStrategy cfg none = resolveCacheStrategy cfg (some cfg.ai.defaultProvider) ∨
      (resolveCacheStrategy cfg none).isNoop = true ∧
        (resolveCacheStrategy cfg (some cfg.ai.defaultProvider)).isNoop = true) ↔
    (isProviderEnabled cfg cfg.ai.defaultProvider = false ∨
      cfg.ai.defaultProvider ∉ ["anthropic", "openai", "gemini"]) := by
  rw [← isNoop_resolveCacheStrategy_iff]
  constructor
  · rintro (heq | ⟨-, hnoop⟩)
    · rw [← heq]
      rfl
    · exact hnoop
  · intro hnoop
    exact Or.inr ⟨rfl, hnoop⟩

include hdefault in
lemma extraction_same_iff (model : Option String) :
    (resolveExtractionModel cfg none model).filter (fun m => hasText (some m)) =
        (resolveExtractionModel cfg (some cfg.ai.defaultProvider) model).filter
          (fun m => hasText (some m)) ↔
      hasText model = true ∨ hasText defaultConfig.memoryExtractionModel = false := by
  unfold resolveExtractionModel
  split_ifs with hmodel
  · exact iff_of_true rfl (Or.inl hmodel)
  · unfold getOrNull
    rw [Option.bind_some, hdefault, Option.bind_some, or_iff_right hmodel]
    cases hextraction : defaultConfig.memoryExtractionModel with
    | none => exact iff_of_true rfl rfl
    | some m =>
      cases htext : hasText (some m) with
      | false => simp [Option.filter, htext]
      | true => simp [Option.filter, htext]

end

/-- A request without a provider is a request for the default provider exactly when the
configuration is neutral. -/
theorem omitted_provider_same_iff (cfg : AgentProperties) (svc : SemanticMemory.MemoryService)
    (model embeddingProvider : Option String) {defaultConfig : ProviderConfig}
    (hdefault : cfg.ai.providers.lookup cfg.ai.defaultProvider = some defaultConfig) :
    (promptChoices cfg svc none model embeddingProvider).Same
        (promptChoices cfg svc (some cfg.ai.defaultProvider) model embeddingProvider) ↔
      DefaultIsNeutral cfg svc defaultConfig model embeddingProvider := by
  have hembedding := embedding_same_iff cfg defaultConfig embeddingProvider
  have hmemory := memory_same_iff svc defaultConfig embeddingProvider
  rw [← activeEmbeddingProvider_default cfg hdefault] at hembedding hmemory
  constructor
  · intro h
    constructor
    · apply hembedding.mp
      have := h.embeddingProvider
      rwa [promptChoices, promptChoices, activeEmbeddingProvider_none] at this
    · apply hmemory.mp
      have := h.memoryProvider
      rwa [promptChoices, promptChoices, activeEmbeddingProvider_none] at this
    · exact (validation_same_iff cfg hdefault embeddingProvider).mp h.validation
    · exact (cache_same_iff cfg).mp h.cacheStrategy
    · exact (extraction_same_iff cfg hdefault model).mp h.extractionModel
  · intro h
    constructor
    · exact (validation_same_iff cfg hdefault embeddingProvider).mpr h.compatible
    · have := hembedding.mpr h.embedding
      rwa [promptChoices, promptChoices, activeEmbeddingProvider_none]
    · have := hmemory.mpr h.memory
      rwa [promptChoices, promptChoices, activeEmbeddingProvider_none]
    · exact chatModel_same cfg
    · exact (cache_same_iff cfg).mpr h.cache
    · exact (extraction_same_iff cfg hdefault model).mpr h.extraction
    · rfl

def shippedLmstudio : ProviderConfig where
  isEnabled := true
  requiresHttp1 := true
  type := "anthropic"
  baseUrl := "http://127.0.0.1:1234"
  apiKey := "not-needed"
  model := "meta-llama-3.1-8b-instruct"
  memoryExtractionModel := some "meta-llama-3.1-8b-instruct"
  defaultEmbedding := some "lmstudio"
  maxTokens := some 16384
  timeoutSeconds := some 120

def shippedOpenAi : ProviderConfig where
  isEnabled := true
  type := "openai"
  baseUrl := "https://api.openai.com"
  apiKey := "not-set"
  model := "gpt-4o"
  memoryExtractionModel := some "gpt-4o-mini"
  defaultEmbedding := some "openai"
  timeoutSeconds := some 120

/-- Two of the shipped providers, and the shipped embedding providers. -/
def shippedWith (defaultProvider : String) : AgentProperties where
  locale := .ascii
  ai :=
    { defaultProvider := defaultProvider
      providers := [("lmstudio", shippedLmstudio), ("openai", shippedOpenAi)] }
  embedding := lmstudioEmbedding
  promptCache := { providers := [("anthropic", true), ("openai", true), ("gemini", true),
    ("minimax", false), ("lmstudio", false)] }

/-- With lmstudio for the default provider a request that names its model needs no provider. -/
theorem omitted_lmstudio_same :
    (promptChoices (shippedWith "lmstudio") SemanticMemory.shippedMemory.service none
        (some "gemma") none).Same
      (promptChoices (shippedWith "lmstudio") SemanticMemory.shippedMemory.service (some "lmstudio")
        (some "gemma") none) :=
  (omitted_provider_same_iff (shippedWith "lmstudio") SemanticMemory.shippedMemory.service (some "gemma")
    none (by decide : _ = some shippedLmstudio)).mpr
    { embedding := by decide +kernel
      memory := by decide +kernel
      compatible := by decide +kernel
      cache := by decide
      extraction := by decide }

def openAiByDefault : AgentProperties := shippedWith "openai"

/-- A request without a provider is rejected there, one for OpenAI is not. -/
theorem omitted_provider_rejected :
    ¬(promptChoices openAiByDefault SemanticMemory.shippedMemory.service none none none).Same
      (promptChoices openAiByDefault SemanticMemory.shippedMemory.service (some "openai") none none) := by
  intro h
  have hvalidation := h.validation
  revert hvalidation
  decide

end AscendAI.Provider
