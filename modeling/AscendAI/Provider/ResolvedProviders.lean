import AscendAI.Provider.DefaultProvider

/-!
# What the validator accepts and what the resolvers find

The validator trims a name and lower-cases it, the resolver of stores lower-cases it, and the resolver
of chat models takes it as it is. So they agree on exactly those names on which trimming and lower-casing
change nothing.
-/

namespace AscendAI.Provider

open JavaString

/-- A store that `VectorStoreConfig` builds: the entry it stands for, what its embedding model is built
from, and its collection. -/
structure QdrantVectorStore where
  providerName : String
  baseUrl : String
  apiKey : String
  model : String
  dimensions : ℤ
  collectionName : String
  deriving DecidableEq

def buildProviderVectorStore (providerName : String) (config : EmbeddingConfig) : QdrantVectorStore where
  providerName := providerName
  baseUrl := config.baseUrl
  apiKey := config.apiKey
  model := config.model
  dimensions := config.dimensions
  collectionName := "ascendai-" ++ toString config.dimensions

def embeddingProviderStoreMap (embedding : EmbeddingProviderProperties) :
    List (String × QdrantVectorStore) :=
  embedding.providers.map fun entry => (entry.1, buildProviderVectorStore entry.1 entry.2)

/-- `VectorStoreResolver.resolve`, with the store itself. -/
def resolveStore (locale : JavaLocale) (embedding : EmbeddingProviderProperties)
    (embeddingProvider : Option String) : Except String QdrantVectorStore :=
  let resolvedProvider := resolveProviderName locale embedding embeddingProvider
  match getOrNull (embeddingProviderStoreMap embedding) resolvedProvider with
  | none => .error ("VectorStore for embedding provider '" ++ formatNullable resolvedProvider ++ "' not found")
  | some vectorStore => .ok vectorStore

section

variable (cfg : AgentProperties)

/-- The chat key and the embedding key that the validator takes the two names for. -/
def validatedChatKey (provider : Option String) : Option String :=
  resolveProvider cfg provider (some cfg.ai.defaultProvider)

def validatedEmbeddingKey (embeddingProvider : Option String) : Option String :=
  resolveProvider cfg embeddingProvider cfg.embedding.defaultProvider

/-- The resolvers return the store and the model of the validated keys. -/
structure ResolvedAlike (provider embeddingProvider : Option String) : Prop where
  store : ∃ vectorStore,
    getOrNull (embeddingProviderStoreMap cfg.embedding) (validatedEmbeddingKey cfg embeddingProvider) =
      some vectorStore ∧
    resolveStore cfg.locale cfg.embedding embeddingProvider = .ok vectorStore
  chatModel : ∃ model, getOrNull (chatModels cfg) (validatedChatKey cfg provider) = some model ∧
    resolveChatModel cfg provider = .ok model

/-- The chat name is missing, or trimmed and in lower case; trimming the embedding name changes nothing
once both are lower-cased. -/
structure Normalized (provider embeddingProvider : Option String) : Prop where
  chat : ∀ p, provider = some p → isBlank p = true ∨ p = cfg.locale.toLowerCase (trim p)
  embedding : ∀ e, embeddingProvider = some e →
    isBlank e = true ∨ cfg.locale.toLowerCase e = cfg.locale.toLowerCase (trim e)

/-! ### The two maps -/

/-- A lookup in a map that is built entry by entry. -/
lemma lookup_map {α β : Type} (f : String → α → β) (entries : List (String × α)) (key : String) :
    (entries.map fun entry => (entry.1, f entry.1 entry.2)).lookup key = (entries.lookup key).map (f key) := by
  induction entries with
  | nil => rfl
  | cons entry entries ih =>
    rw [List.map_cons, List.lookup_cons, List.lookup_cons]
    by_cases hkey : key = entry.1
    · rw [hkey, beq_self_eq_true]
      rfl
    · rw [beq_eq_false_iff_ne.mpr hkey]
      exact ih

lemma lookup_storeMap (embedding : EmbeddingProviderProperties) (key : String) :
    (embeddingProviderStoreMap embedding).lookup key =
      (embedding.providers.lookup key).map (buildProviderVectorStore key) :=
  lookup_map buildProviderVectorStore embedding.providers key

lemma lookup_chatModels (henabled : ∀ entry ∈ cfg.ai.providers, entry.2.isEnabled = true) (key : String) :
    (chatModels cfg).lookup key = (cfg.ai.providers.lookup key).map (ChatModel.mk key) := by
  rw [chatModels, List.filter_eq_self.mpr henabled]
  exact lookup_map ChatModel.mk cfg.ai.providers key

/-- Both views of the store resolver show the same collection. -/
lemma resolveStore_collectionName (locale : JavaLocale) (embedding : EmbeddingProviderProperties)
    (embeddingProvider : Option String) :
    (resolveStore locale embedding embeddingProvider).map QdrantVectorStore.collectionName =
      resolveVectorStore locale embedding embeddingProvider := by
  simp only [resolveStore, resolveVectorStore]
  cases resolveProviderName locale embedding embeddingProvider with
  | none => rfl
  | some key =>
    simp only [getOrNull, Option.bind_some, lookup_storeMap]
    cases embedding.providers.lookup key with
    | none => rfl
    | some config => rfl

/-- A name finds the entry of a key exactly when it is the key, where the values tell their keys. -/
lemma lookup_agree_iff {α β : Type} {entries : List (String × α)} (f : String → α → β)
    (hf : ∀ key key' a a', f key a = f key' a' → key = key') {key name : String}
    (hkey : (entries.lookup key).isSome = true) :
    (∃ b, (entries.lookup key).map (f key) = some b ∧ (entries.lookup name).map (f name) = some b) ↔
      name = key := by
  constructor
  · rintro ⟨b, hb, hname⟩
    obtain ⟨a, -, rfl⟩ := Option.map_eq_some_iff.mp hb
    obtain ⟨a', -, heq⟩ := Option.map_eq_some_iff.mp hname
    exact hf name key a' a heq
  · rintro rfl
    obtain ⟨a, ha⟩ := Option.isSome_iff_exists.mp hkey
    exact ⟨f name a, by rw [ha, Option.map_some], by rw [ha, Option.map_some]⟩

/-! ### The names -/

variable {cfg} {provider embeddingProvider : Option String}

lemma resolveProviderName_eq_iff {key : String}
    (hkey : validatedEmbeddingKey cfg embeddingProvider = some key) :
    resolveProviderName cfg.locale cfg.embedding embeddingProvider = some key ↔
      ∀ e, embeddingProvider = some e →
        isBlank e = true ∨ cfg.locale.toLowerCase e = cfg.locale.toLowerCase (trim e) := by
  cases embeddingProvider with
  | none =>
    simp only [validatedEmbeddingKey, resolveProvider] at hkey
    simp [resolveProviderName, hkey]
  | some e =>
    simp only [validatedEmbeddingKey, resolveProvider, hasText] at hkey
    simp only [resolveProviderName]
    cases hblank : isBlank e with
    | true =>
      simp only [hblank, Bool.not_true, Bool.false_eq_true, if_false] at hkey
      simp [hblank, hkey]
    | false =>
      simp only [hblank, Bool.not_false, if_true, Option.some.injEq] at hkey
      simp [hblank, hkey]

/-- The name under which `ChatModelResolver.resolve` looks. -/
def chatName (cfg : AgentProperties) (provider : Option String) : String :=
  match provider with
  | none => cfg.ai.defaultProvider
  | some p => if isBlank p then cfg.ai.defaultProvider else p

lemma chatName_eq_iff {key : String} (hkey : validatedChatKey cfg provider = some key) :
    chatName cfg provider = key ↔
      ∀ p, provider = some p → isBlank p = true ∨ p = cfg.locale.toLowerCase (trim p) := by
  cases provider with
  | none =>
    simp only [validatedChatKey, resolveProvider, Option.some.injEq] at hkey
    simp [chatName, hkey]
  | some p =>
    simp only [validatedChatKey, resolveProvider, hasText] at hkey
    simp only [chatName]
    cases hblank : isBlank p with
    | true =>
      simp only [hblank, Bool.not_true, Bool.false_eq_true, if_false, Option.some.injEq] at hkey
      simp [hblank, hkey]
    | false =>
      simp only [hblank, Bool.not_false, if_true, Option.some.injEq] at hkey
      simp [hblank, hkey]

lemma configured_of_validate (h : validate cfg provider embeddingProvider = .ok ()) :
    ∃ key, validatedEmbeddingKey cfg embeddingProvider = some key ∧
      (cfg.embedding.providers.lookup key).isSome = true := by
  rw [validatedEmbeddingKey]
  simp only [validate] at h
  generalize resolveProvider cfg embeddingProvider cfg.embedding.defaultProvider = resolved at h
  cases resolved with
  | none => cases h
  | some key =>
    refine ⟨key, rfl, ?_⟩
    rw [getOrNull, Option.bind_some] at h
    cases hconfig : cfg.embedding.providers.lookup key with
    | none =>
      rw [hconfig] at h
      cases h
    | some config => rfl

lemma store_iff {key : String} (hkey : validatedEmbeddingKey cfg embeddingProvider = some key)
    (hconfigured : (cfg.embedding.providers.lookup key).isSome = true) :
    (∃ vectorStore,
        getOrNull (embeddingProviderStoreMap cfg.embedding) (validatedEmbeddingKey cfg embeddingProvider) =
          some vectorStore ∧
        resolveStore cfg.locale cfg.embedding embeddingProvider = .ok vectorStore) ↔
      resolveProviderName cfg.locale cfg.embedding embeddingProvider = some key := by
  have hname : ∀ key key' config config', buildProviderVectorStore key config =
      buildProviderVectorStore key' config' → key = key' :=
    fun _ _ _ _ h => congrArg QdrantVectorStore.providerName h
  have hresolve : ∀ vectorStore, resolveStore cfg.locale cfg.embedding embeddingProvider = .ok vectorStore ↔
      getOrNull (embeddingProviderStoreMap cfg.embedding)
        (resolveProviderName cfg.locale cfg.embedding embeddingProvider) = some vectorStore := by
    intro vectorStore
    simp only [resolveStore]
    cases getOrNull (embeddingProviderStoreMap cfg.embedding)
        (resolveProviderName cfg.locale cfg.embedding embeddingProvider) with
    | none => simp
    | some found => simp
  simp only [hresolve, hkey]
  cases resolveProviderName cfg.locale cfg.embedding embeddingProvider with
  | none => simp [getOrNull]
  | some name =>
    simp only [getOrNull, Option.bind_some, lookup_storeMap, Option.some.injEq]
    exact lookup_agree_iff buildProviderVectorStore hname hconfigured

lemma chatModel_iff (henabled : ∀ entry ∈ cfg.ai.providers, entry.2.isEnabled = true) {key : String}
    (hkey : validatedChatKey cfg provider = some key)
    (hconfigured : (cfg.ai.providers.lookup key).isSome = true) :
    (∃ model, getOrNull (chatModels cfg) (validatedChatKey cfg provider) = some model ∧
        resolveChatModel cfg provider = .ok model) ↔ chatName cfg provider = key := by
  have hname : ∀ key key' config config', ChatModel.mk key config = ChatModel.mk key' config' → key = key' :=
    fun _ _ _ _ h => congrArg ChatModel.name h
  have hresolve : ∀ model, resolveChatModel cfg provider = .ok model ↔
      (chatModels cfg).lookup (chatName cfg provider) = some model := by
    intro model
    unfold resolveChatModel chatName
    dsimp only
    generalize (chatModels cfg).lookup _ = found
    cases found with
    | none => simp
    | some found => simp
  simp only [hresolve, hkey, getOrNull, Option.bind_some, lookup_chatModels cfg henabled]
  exact lookup_agree_iff ChatModel.mk hname hconfigured

/-- Names that the validator accepts are resolved alike exactly when they are normalized. -/
theorem resolvedAlike_iff (cfg : AgentProperties)
    (henabled : ∀ entry ∈ cfg.ai.providers, entry.2.isEnabled = true)
    (provider embeddingProvider : Option String)
    (hvalid : validate cfg provider embeddingProvider = .ok ())
    (hconfigured : (getOrNull cfg.ai.providers (validatedChatKey cfg provider)).isSome = true) :
    ResolvedAlike cfg provider embeddingProvider ↔ Normalized cfg provider embeddingProvider := by
  obtain ⟨key, hkey, hstore⟩ := configured_of_validate hvalid
  obtain ⟨chatKey, hchatKey⟩ : ∃ chatKey, validatedChatKey cfg provider = some chatKey := by
    cases hchatKey : validatedChatKey cfg provider with
    | none =>
      rw [hchatKey] at hconfigured
      cases hconfigured
    | some chatKey => exact ⟨chatKey, rfl⟩
  rw [hchatKey, getOrNull, Option.bind_some] at hconfigured
  have hembedding := (store_iff hkey hstore).trans (resolveProviderName_eq_iff hkey)
  have hchat := (chatModel_iff henabled hchatKey hconfigured).trans (chatName_eq_iff hchatKey)
  constructor
  · intro h
    exact ⟨hchat.mp h.chatModel, hembedding.mp h.store⟩
  · intro h
    exact ⟨hembedding.mpr h.embedding, hchat.mpr h.chat⟩

end

theorem resolvedAlike_openai : ResolvedAlike openAiByDefault (some "openai") (some "OpenAI") :=
  (resolvedAlike_iff openAiByDefault (by decide) (some "openai") (some "OpenAI") (by decide +kernel)
    (by decide +kernel)).mpr
    ⟨fun p hp => .inr (by obtain rfl := Option.some.inj hp; decide +kernel),
      fun e he => .inr (by obtain rfl := Option.some.inj he; decide +kernel)⟩

/-- The validator accepts both requests; one ends for the chat name, the other for the embedding name. -/
theorem validated_names_not_resolved :
    validate openAiByDefault (some "OpenAI") (some "openai") = .ok () ∧
      (getOrNull openAiByDefault.ai.providers (validatedChatKey openAiByDefault (some "OpenAI"))).isSome = true ∧
      ¬ResolvedAlike openAiByDefault (some "OpenAI") (some "openai") ∧
    validate openAiByDefault (some "openai") (some " openai") = .ok () ∧
      ¬ResolvedAlike openAiByDefault (some "openai") (some " openai") := by
  refine ⟨by decide +kernel, by decide +kernel, fun h => ?_, by decide +kernel, fun h => ?_⟩
  · obtain ⟨model, -, hmodel⟩ := h.chatModel
    have hnone : (resolveChatModel openAiByDefault (some "OpenAI")).isOk = false := by decide +kernel
    rw [hmodel] at hnone
    cases hnone
  · obtain ⟨vectorStore, -, hstore⟩ := h.store
    have hnone : (resolveStore openAiByDefault.locale openAiByDefault.embedding (some " openai")).isOk = false := by
      decide +kernel
    rw [hstore] at hnone
    cases hnone

end AscendAI.Provider
