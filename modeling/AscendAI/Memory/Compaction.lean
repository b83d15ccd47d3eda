import AscendAI.Memory.Store

/-!
# ChatHistoryCompactionService

`maybeCompact` as the service runs it, together with the external calls it makes, and the
lemmas by which the other modules use it: when it applies a compaction, and what it writes.
-/

namespace AscendAI.Memory
open RowOrder JavaString

def summaryMarker : String := "[Conversation summary]"

def contextWindowDefaults : List (String × ℕ) :=
  [("openai", 128000), ("anthropic", 200000), ("gemini", 1000000), ("minimax", 200000),
    ("lmstudio", 8192)]

structure CompactionOverride where
  provider : Option String := none
  model : Option String := none

def CompactionOverride.hasProvider (o : CompactionOverride) : Bool := hasText o.provider

def CompactionOverride.hasModel (o : CompactionOverride) : Bool := hasText o.model

structure ResolvedCompactionTarget where
  provider : Option String
  model : Option String
  deriving DecidableEq, Repr

structure CompactionDecision where
  prefixCount : ℤ
  tokenEstimate : ℤ
  turnTriggered : Bool
  tokenTriggered : Bool
  deriving DecidableEq, Repr

def CompactionDecision.noCompaction : CompactionDecision := ⟨0, 0, false, false⟩

def CompactionDecision.shouldSkip (decision : CompactionDecision) : Bool := decision.prefixCount < 1

inductive Effect where
  | summarise (target : ResolvedCompactionTarget) (body : List ChatHistory)
  | deleteAllById (ids : List ℕ)
  | save (row : ChatHistory)
  | trim (key : String) (start stop : ℤ)
  | leftPush (key : String) (dto : MessageDto)
  | expire (key : String)
  deriving DecidableEq, Repr

/-- What the model of a target answers to a rendered prefix: `none` stands for a call that
throws or that answers without content. -/
abbrev Summariser := ResolvedCompactionTarget → List ChatHistory → Option String

/-- Every part fits an `int`, and the sum wraps. -/
def estimateTokens (history : List ChatHistory) : ℤ :=
  javaInt (history.foldl (fun total h => total + length h.content / 4) 0 : ℕ)

def contextWindow (provider : Option String) : ℕ :=
  (contextWindowDefaults.lookup (provider.getD "lmstudio")).getD 8192

def isSummary (entry : ChatHistory) : Bool :=
  equalsIgnoreCase MessageType.system.getValue entry.role && startsWith entry.content summaryMarker

section Service

variable (d : Deployment)

def resolveTarget (primaryProvider : Option String) (override : Option CompactionOverride) :
    ResolvedCompactionTarget :=
  let override := override.getD {}
  let provider := if override.hasProvider then override.provider else primaryProvider
  let provider := if !hasText provider then d.defaultProvider else provider
  let model := if override.hasModel then override.model
    else provider.bind fun p => d.compaction.providerDefaults.lookup p
  ⟨provider, model⟩

/-- `(int) (maxSummaryTokens * 1.5)`: exact in `double`, then truncated and saturated. -/
def hardCap : ℤ := max (-2 ^ 31) (min (2 ^ 31 - 1) ((3 * d.compaction.maxSummaryTokens).tdiv 2))

def validateSummary : Option String → Option String
  | none => none
  | some raw =>
    if isBlank raw then none
    else
      let trimmed := trim raw
      let trimmed := if !startsWith trimmed summaryMarker then summaryMarker ++ " " ++ trimmed else trimmed
      if ((length trimmed / 4 : ℕ) : ℤ) > hardCap d then none else some trimmed

def invokeSummariser (llm : Summariser) (target : ResolvedCompactionTarget) (body : List ChatHistory) :
    Option String :=
  validateSummary d (llm target body)

def computePrefixCount (turns : ℤ) : ℤ :=
  let prefixCount := max 1 (javaInt (turns - d.compaction.keepRecentTurns))
  if prefixCount ≥ turns then turns - 1 else prefixCount

def turnTriggered (history : List ChatHistory) : Bool := history.length ≥ d.compaction.turnTrigger

def tokenTriggered (history : List ChatHistory) (primaryProvider : Option String) : Bool :=
  (estimateTokens history : ℚ) ≥
    d.roundDouble (d.compaction.tokenTriggerFraction * contextWindow primaryProvider)

def decideCompaction (history : List ChatHistory) (primaryProvider : Option String) :
    CompactionDecision :=
  let turns : ℤ := history.length
  if !turnTriggered d history && !tokenTriggered d history primaryProvider then .noCompaction
  else if history.head?.any isSummary && turns - 1 < d.compaction.turnTrigger then .noCompaction
  else
    let prefixCount := computePrefixCount d turns
    if prefixCount < 1 then .noCompaction
    else ⟨prefixCount, estimateTokens history, turnTriggered d history,
      tokenTriggered d history primaryProvider⟩

/-- The one transaction: the prefix is deleted and the summary inserted with the current time. -/
def applyToPostgres (w : World) (conversationId : String) (body : List ChatHistory)
    (summary : String) : World × List Effect :=
  if !d.history.postgresEnabled then (w, [])
  else
    let idsToDelete := body.map ChatHistory.id
    let deleted := if idsToDelete.isEmpty then w
      else { w with table := w.table.deleteAllById idsToDelete }
    let role := MessageType.system.getValue
    (deleted.saveNow d conversationId role summary,
      (if idsToDelete.isEmpty then [] else [Effect.deleteAllById idsToDelete]) ++
        [Effect.save (deleted.table.newRow conversationId role summary (d.now deleted.readings))])

def applyToRedis (w : World) (conversationId : String) (prefixCount : ℤ) (summary : String) :
    World × List Effect :=
  if !d.history.redisEnabled then (w, [])
  else
    let key := chatKey conversationId
    let dto : MessageDto := ⟨MessageType.system.getValue, summary⟩
    ((w.trim key prefixCount (-1)).leftPush key dto,
      [.trim key prefixCount (-1), .leftPush key dto, .expire key])

/-- `maybeCompact`, with the calls it makes. Its `catch` is never reached here, since no store fails. -/
def maybeCompact (llm : Summariser) (w : World) (conversationId : String)
    (primaryProvider : Option String) (override : Option CompactionOverride) : World × List Effect :=
  if !d.compaction.enabled then (w, [])
  else if !d.history.redisEnabled && !d.history.postgresEnabled then (w, [])
  else
    let history := if d.history.postgresEnabled
      then w.table.findAllHistoryOrdered d.tie conversationId else []
    if history.isEmpty then (w, [])
    else
      let decision := decideCompaction d history primaryProvider
      if decision.shouldSkip then (w, [])
      else
        let body := history.take decision.prefixCount.toNat
        let target := resolveTarget d primaryProvider override
        match invokeSummariser d llm target body with
        | none => (w, [.summarise target body])
        | some summary =>
          let postgres := applyToPostgres d w conversationId body summary
          let redis := applyToRedis d postgres.1 conversationId decision.prefixCount summary
          (redis.1, .summarise target body :: postgres.2 ++ redis.2)

end Service

/-! ### What a run does -/

section Laws

variable (d : Deployment)

lemma computePrefixCount_bounds (turns : ℤ) (h : 1 ≤ computePrefixCount d turns) :
    2 ≤ turns ∧ computePrefixCount d turns ≤ turns - 1 := by
  simp only [computePrefixCount] at h ⊢
  split at h <;> split <;> omega

/-- What the prefix leaves: the last `keepRecentTurns` rows, or all but the first. -/
lemma drop_computePrefixCount (hkeep : 1 ≤ d.compaction.keepRecentTurns) {history : List ChatHistory}
    (hlength : (history.length : ℤ) < 2 ^ 31) {p : ℕ} (hp : computePrefixCount d history.length = p)
    (hpos : 1 ≤ p) :
    history.drop p =
      if (history.length : ℤ) ≤ d.compaction.keepRecentTurns then history.drop 1
      else ListWindow.newest d.compaction.keepRecentTurns.toNat history := by
  have hb := computePrefixCount_bounds d history.length (by omega)
  have hint := d.compaction.isJavaInt_keepRecentTurns
  have hexact : javaInt (history.length - d.compaction.keepRecentTurns) =
      history.length - d.compaction.keepRecentTurns :=
    javaInt_of_isJavaInt ⟨by have := hint.2; omega, by omega⟩
  simp only [computePrefixCount, hexact] at hp hb
  split
  · have h1 : p = 1 := by split at hp <;> omega
    rw [h1]
  · have h2 : p = history.length - d.compaction.keepRecentTurns.toNat := by split at hp <;> omega
    rw [ListWindow.newest, h2]

lemma length_drop_computePrefixCount {history : List ChatHistory} {p : ℕ}
    (hp : computePrefixCount d history.length = p) (hpos : 1 ≤ p) : 1 ≤ (history.drop p).length := by
  have hb := computePrefixCount_bounds d history.length (by omega)
  rw [List.length_drop]
  omega

variable (llm : Summariser) (w : World) (conversationId : String) (primaryProvider : Option String)
  (override : Option CompactionOverride)

/-- The history that a run reads when Postgres is enabled. -/
def historyOf : List ChatHistory := w.table.findAllHistoryOrdered d.tie conversationId

/-- The run replaces the first `p` rows of the history by `summary`. -/
structure Applies (p : ℕ) (summary : String) : Prop where
  enabled : d.compaction.enabled = true
  postgres : d.history.postgresEnabled = true
  decided : (decideCompaction d (historyOf d w conversationId) primaryProvider).prefixCount = p
  pos : 1 ≤ p
  summarised : invokeSummariser d llm (resolveTarget d primaryProvider override)
    ((historyOf d w conversationId).take p) = some summary

def compacted (p : ℕ) (summary : String) : World × List Effect :=
  let body := (historyOf d w conversationId).take p
  let postgres := applyToPostgres d w conversationId body summary
  let redis := applyToRedis d postgres.1 conversationId p summary
  (redis.1, .summarise (resolveTarget d primaryProvider override) body :: postgres.2 ++ redis.2)

variable {d llm w conversationId primaryProvider override}

lemma decideCompaction_prefixCount (history : List ChatHistory) (primaryProvider : Option String)
    (h : 1 ≤ (decideCompaction d history primaryProvider).prefixCount) :
    (decideCompaction d history primaryProvider).prefixCount = computePrefixCount d history.length := by
  simp only [decideCompaction] at h ⊢
  split_ifs at h ⊢
  all_goals first
    | rfl
    | exact absurd h (by decide)

lemma Applies.prefixCount {p : ℕ} {summary : String}
    (h : Applies d llm w conversationId primaryProvider override p summary) :
    computePrefixCount d (historyOf d w conversationId).length = p := by
  have hpos := h.pos
  rw [← decideCompaction_prefixCount _ primaryProvider, h.decided]
  rw [h.decided]
  omega

lemma Applies.length_bounds {p : ℕ} {summary : String}
    (h : Applies d llm w conversationId primaryProvider override p summary) :
    2 ≤ (historyOf d w conversationId).length ∧ p + 1 ≤ (historyOf d w conversationId).length := by
  have hpos := h.pos
  have hb := computePrefixCount_bounds d (historyOf d w conversationId).length
    (by rw [h.prefixCount]; omega)
  rw [h.prefixCount] at hb
  omega

variable (d llm w conversationId primaryProvider override) in
/-- A run applies a compaction, or it leaves both backends alone and saves no row. -/
theorem maybeCompact_cases :
    (∃ p summary, Applies d llm w conversationId primaryProvider override p summary ∧
      maybeCompact d llm w conversationId primaryProvider override =
        compacted d w conversationId primaryProvider override p summary) ∨
    (∀ p summary, ¬Applies d llm w conversationId primaryProvider override p summary) ∧
      (maybeCompact d llm w conversationId primaryProvider override).1 = w ∧
      ∀ row, Effect.save row ∉ (maybeCompact d llm w conversationId primaryProvider override).2 := by
  unfold maybeCompact
  by_cases henabled : d.compaction.enabled = true
  swap
  · refine .inr ⟨fun p summary h => henabled h.enabled, ?_⟩
    simp [henabled]
  by_cases hpostgres : d.history.postgresEnabled = true
  swap
  · refine .inr ⟨fun p summary h => hpostgres h.postgres, ?_⟩
    simp [hpostgres]
  simp only [henabled, hpostgres, Bool.not_true, Bool.false_eq_true, if_false, Bool.and_false, if_true]
  rw [← historyOf]
  by_cases hskip : (decideCompaction d (historyOf d w conversationId) primaryProvider).shouldSkip = true
  · refine .inr ⟨fun p summary h => ?_, ?_⟩
    · have hpos := h.pos
      rw [CompactionDecision.shouldSkip, h.decided, decide_eq_true_eq] at hskip
      omega
    · split
      · exact ⟨rfl, fun _ h => List.not_mem_nil h⟩
      · exact ⟨rfl, fun _ h => List.not_mem_nil h⟩
  obtain ⟨p, hp, hpos⟩ : ∃ p : ℕ,
      (decideCompaction d (historyOf d w conversationId) primaryProvider).prefixCount = p ∧ 1 ≤ p := by
    rw [CompactionDecision.shouldSkip, decide_eq_true_eq] at hskip
    exact ⟨(decideCompaction d (historyOf d w conversationId) primaryProvider).prefixCount.toNat,
      by omega, by omega⟩
  have hne : (historyOf d w conversationId).isEmpty = false := by
    have hb := computePrefixCount_bounds d (historyOf d w conversationId).length
      (by rw [← decideCompaction_prefixCount _ primaryProvider] <;> rw [hp] <;> omega)
    rw [List.isEmpty_eq_false_iff_exists_mem]
    exact List.exists_mem_of_length_pos (by omega)
  simp only [hne, hskip, Bool.false_eq_true, if_false, hp, Int.toNat_natCast]
  cases hsummary : invokeSummariser d llm (resolveTarget d primaryProvider override)
      ((historyOf d w conversationId).take p) with
  | none =>
    refine .inr ⟨fun p' summary h => ?_, rfl, fun row h => ?_⟩
    swap
    · cases List.mem_singleton.mp h
    have hpp : p' = p := by exact_mod_cast h.decided.symm.trans hp
    have hsome := h.summarised
    rw [hpp, hsummary] at hsome
    cases hsome
  | some summary =>
    exact .inl ⟨p, summary, ⟨henabled, hpostgres, hp, hpos, hsummary⟩, rfl⟩

lemma Applies.unique {p p' : ℕ} {summary summary' : String}
    (h : Applies d llm w conversationId primaryProvider override p summary)
    (h' : Applies d llm w conversationId primaryProvider override p' summary') :
    p = p' ∧ summary = summary' := by
  have hpp : p = p' := by exact_mod_cast h.decided.symm.trans h'.decided
  subst hpp
  exact ⟨rfl, Option.some.inj (h.summarised.symm.trans h'.summarised)⟩

theorem maybeCompact_of_applies {p : ℕ} {summary : String}
    (h : Applies d llm w conversationId primaryProvider override p summary) :
    maybeCompact d llm w conversationId primaryProvider override =
      compacted d w conversationId primaryProvider override p summary := by
  rcases maybeCompact_cases d llm w conversationId primaryProvider override with
    ⟨p', summary', h', heq⟩ | ⟨hno, -⟩
  · obtain ⟨rfl, rfl⟩ := h.unique h'
    exact heq
  · exact absurd h (hno p summary)

end Laws

end AscendAI.Memory
