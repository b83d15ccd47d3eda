import AscendAI.Memory.Compaction

/-!
# What a compaction leaves

The transaction deletes the prefix and inserts the summary stamped with the current time,
so by `created_at` the summary is the newest row of the conversation. This file says where
the two queries read it, and what a second run makes of that history.
-/

namespace AscendAI.Memory
open RowOrder JavaString

def summaryRow (d : Deployment) (w : World) (conversationId summary : String) : ChatHistory :=
  w.table.newRow conversationId MessageType.system.getValue summary (d.now w.readings)

lemma redis_applyToPostgres (d : Deployment) (conversationId : String) (body : List ChatHistory) (summary : String)
    (w : World) : (applyToPostgres d w conversationId body summary).1.redis = w.redis := by
  simp only [applyToPostgres]
  split
  · rfl
  · split <;> rfl

section Compacted

variable {d : Deployment} {llm : Summariser} {w : World} {conversationId : String}
  {primaryProvider : Option String} {override : Option CompactionOverride} {p : ℕ} {summary : String}

lemma table_compacted (h : Applies d llm w conversationId primaryProvider override p summary) :
    (compacted d w conversationId primaryProvider override p summary).1.table =
      (w.table.deleteAllById (((historyOf d w conversationId).take p).map ChatHistory.id)).save
        conversationId MessageType.system.getValue summary (d.now w.readings) := by
  have hne : (((historyOf d w conversationId).take p).map ChatHistory.id).isEmpty = false := by
    have hpos := h.pos
    have hb := h.length_bounds
    rw [List.isEmpty_eq_false_iff, ← List.length_pos_iff]
    simp only [List.length_map, List.length_take]
    omega
  simp only [compacted, applyToRedis, applyToPostgres, h.postgres, hne, Bool.not_true,
    Bool.false_eq_true, if_false]
  split <;> rfl

lemma redis_compacted (hredis : d.history.redisEnabled = true) (key : String) :
    (compacted d w conversationId primaryProvider override p summary).1.redis key =
      if key = chatKey conversationId
      then ⟨MessageType.system.getValue, summary⟩ :: (w.redis key).drop p else w.redis key := by
  have hpostgres := redis_applyToPostgres d conversationId ((historyOf d w conversationId).take p) summary w
  simp only [compacted, applyToRedis, hredis, Bool.not_true, Bool.false_eq_true, if_false, World.leftPush,
    World.trim]
  split
  · rename_i hkey
    rw [hkey, World.redis_setRedis_self, World.redis_setRedis_self, RedisList.ltrim_drop, hpostgres,
      RedisList.lpush]
  · rename_i hkey
    rw [World.redis_setRedis_of_ne _ hkey, World.redis_setRedis_of_ne _ hkey, hpostgres]

def keptRows (d : Deployment) (w : World) (conversationId : String) (p : ℕ) : List ChatHistory :=
  (w.table.deleteAllById (((historyOf d w conversationId).take p).map ChatHistory.id)).ofUser
    conversationId

lemma orderBy_keptRows (d : Deployment) (w : World) (conversationId : String) (p : ℕ) :
    orderBy (InOrder createdAtAsc d.tie.asc) (keptRows d w conversationId p) =
      (historyOf d w conversationId).drop p :=
  w.table.findAllHistoryOrdered_deleteAllById d.tie conversationId p

lemma keptRows_perm (d : Deployment) (w : World) (conversationId : String) (p : ℕ) :
    (keptRows d w conversationId p).Perm ((historyOf d w conversationId).drop p) := by
  rw [← orderBy_keptRows]
  exact (orderBy_perm _ _).symm

lemma ofUser_compacted (h : Applies d llm w conversationId primaryProvider override p summary) :
    (compacted d w conversationId primaryProvider override p summary).1.table.ofUser conversationId =
      keptRows d w conversationId p ++ [summaryRow d w conversationId summary] := by
  rw [table_compacted h, ChatHistoryTable.ofUser_save_self]
  rfl

lemma ofUser_compacted_of_ne (h : Applies d llm w conversationId primaryProvider override p summary)
    {other : String} (hne : other ≠ conversationId) :
    (compacted d w conversationId primaryProvider override p summary).1.table.ofUser other =
      w.table.ofUser other := by
  rw [table_compacted h, ChatHistoryTable.ofUser_save_of_ne _ hne.symm,
    ChatHistoryTable.ofUser_deleteAllById_of_ne _ hne.symm]
  intro r hr
  exact (ChatHistoryTable.mem_findAllHistoryOrdered _ d.tie).mp (List.mem_of_mem_take hr)

/-- The kept rows and the summary have different keys, so every order of them is determined. -/
lemma determined_compacted (h : Applies d llm w conversationId primaryProvider override p summary)
    (key : ChatHistory → ℤ) (tie : ChatHistory → ℕ) :
    Determined (InOrder key tie)
      (keptRows d w conversationId p ++ [summaryRow d w conversationId summary]) := by
  rw [← ofUser_compacted h]
  exact ChatHistoryTable.determined_ofUser _ key tie conversationId

lemma id_lt_summaryRow {r : ChatHistory} (hr : r ∈ keptRows d w conversationId p) (summary : String) :
    r.id < (summaryRow d w conversationId summary).id :=
  w.table.id_lt r (List.mem_of_mem_filter (List.mem_of_mem_filter hr))

end Compacted

/-! ### The summary in the two queries -/

/-- The prefix is replaced in place: the summary is read first, the kept rows follow in their order,
the other conversations are untouched, and a refill of the cache starts with the summary. -/
structure PrefixReplaced (d : Deployment) (w w' : World) (conversationId : String) (p : ℕ)
    (row : ChatHistory) : Prop where
  ordered : w'.table.findAllHistoryOrdered d.tie conversationId =
    row :: (historyOf d w conversationId).drop p
  others : ∀ other, other ≠ conversationId → w'.table.ofUser other = w.table.ofUser other
  recent : ∃ rows, w'.table.findRecentHistory d.tie conversationId (effectiveCacheSize d) = .ok rows ∧
    rows.reverse.head? = some row

/-- No time has passed since the kept rows were written, and the database happens to put the summary
before them in the one query and behind as many of them as the cache holds in the other. -/
def SummaryTiesFirst (d : Deployment) (w : World) (conversationId : String) (p : ℕ)
    (row : ChatHistory) : Prop :=
  let kept := (historyOf d w conversationId).drop p
  (∀ r ∈ kept, r.createdAt = row.createdAt ∧ d.tie.asc row < d.tie.asc r) ∧
    ((kept.filter fun r => d.tie.desc r ≤ d.tie.desc row).length + 1 : ℤ) =
      min (effectiveCacheSize d) (kept.length + 1)

section Position

variable {d : Deployment} {llm : Summariser} {w : World} {conversationId : String}
  {primaryProvider : Option String} {override : Option CompactionOverride} {p : ℕ} {summary : String}

lemma ordered_compacted_iff (h : Applies d llm w conversationId primaryProvider override p summary)
    (hclock : ∀ r ∈ w.table.rows, r.createdAt ≤ d.now w.readings) :
    (compacted d w conversationId primaryProvider override p summary).1.table.findAllHistoryOrdered
        d.tie conversationId =
      summaryRow d w conversationId summary :: (historyOf d w conversationId).drop p ↔
    ∀ r ∈ (historyOf d w conversationId).drop p, r.createdAt = d.now w.readings ∧
      d.tie.asc (summaryRow d w conversationId summary) < d.tie.asc r := by
  rw [ChatHistoryTable.findAllHistoryOrdered, ofUser_compacted h, ← orderBy_keptRows,
    orderBy_append_eq_cons_iff _ (determined_compacted h _ _)]
  simp only [mem_orderBy]
  apply forall₂_congr
  intro r hr
  have hid := id_lt_summaryRow hr summary
  have hle := hclock r (List.mem_of_mem_filter (List.mem_of_mem_filter hr))
  have hnow : (summaryRow d w conversationId summary).createdAt = d.now w.readings := rfl
  simp only [InOrder, createdAtAsc, hnow]
  omega

lemma recent_compacted_iff (h : Applies d llm w conversationId primaryProvider override p summary)
    (hties : ∀ r ∈ (historyOf d w conversationId).drop p, r.createdAt = d.now w.readings) :
    (∃ rows, (compacted d w conversationId primaryProvider override p
        summary).1.table.findRecentHistory d.tie conversationId (effectiveCacheSize d) = .ok rows ∧
      rows.reverse.head? = some (summaryRow d w conversationId summary)) ↔
    ((((historyOf d w conversationId).drop p).filter fun r =>
        d.tie.desc r ≤ d.tie.desc (summaryRow d w conversationId summary)).length + 1 : ℤ) =
      min (effectiveCacheSize d) (((historyOf d w conversationId).drop p).length + 1) := by
  have hid : ∀ r ∈ keptRows d w conversationId p,
      r.id < (summaryRow d w conversationId summary).id := fun r hr => id_lt_summaryRow hr summary
  have hnow : (summaryRow d w conversationId summary).createdAt = d.now w.readings := rfl
  have hdetermined := determined_compacted h createdAtDesc d.tie.desc
  rw [ChatHistoryTable.findRecentHistory, ofUser_compacted h]
  generalize summaryRow d w conversationId summary = row at hid hnow hdetermined ⊢
  have hperm := keptRows_perm d w conversationId p
  have hnotMem : row ∉ keptRows d w conversationId p := fun hmem => lt_irrefl _ (hid row hmem)
  have hcount : (keptRows d w conversationId p).filter (fun r => InOrder createdAtDesc d.tie.desc r row) =
      (keptRows d w conversationId p).filter fun r => d.tie.desc r ≤ d.tie.desc row := by
    apply List.filter_congr
    intro r hr
    have hlt := hid r hr
    have htie : r.createdAt = row.createdAt := (hties r (hperm.mem_iff.mp hr)).trans hnow.symm
    rw [decide_eq_decide]
    simp only [InOrder, createdAtDesc, htie, true_and]
    omega
  have hlast := getLast?_take_orderBy_iff _ hdetermined hnotMem (effectiveCacheSize d).toNat
  rw [hcount, (hperm.filter _).length_eq, hperm.length_eq] at hlast
  by_cases hneg : effectiveCacheSize d < 0
  · simp only [hneg, if_true, reduceCtorEq, false_and, exists_false, false_iff]
    omega
  · simp only [hneg, if_false, Except.ok.injEq, exists_eq_left', List.head?_reverse]
    rw [hlast]
    omega

/-- A compaction replaces the prefix in place only when the clock stood still since the kept rows. -/
theorem compaction_replaces_prefix_iff
    (h : Applies d llm w conversationId primaryProvider override p summary)
    (hclock : ∀ r ∈ w.table.rows, r.createdAt ≤ d.now w.readings) :
    PrefixReplaced d w (maybeCompact d llm w conversationId primaryProvider override).1 conversationId p
        (summaryRow d w conversationId summary) ↔
      SummaryTiesFirst d w conversationId p (summaryRow d w conversationId summary) := by
  rw [maybeCompact_of_applies h]
  have hordered := ordered_compacted_iff h hclock
  constructor
  · rintro ⟨hfirst, -, hrecent⟩
    have hties := hordered.mp hfirst
    exact ⟨hties, (recent_compacted_iff h fun r hr => (hties r hr).1).mp hrecent⟩
  · rintro ⟨hties, hcount⟩
    exact ⟨hordered.mpr hties, fun other hne => ofUser_compacted_of_ne h hne,
      (recent_compacted_iff h fun r hr => (hties r hr).1).mpr hcount⟩

end Position

/-- Two messages fire the turn trigger, and one of them is kept. -/
def compactsTwo : Deployment :=
  { Deployment.shipped with compaction := { turnTrigger := 2, keepRecentTurns := 1 } }

/-- The same on a clock that stands still, where the newest row of a tie is read first. -/
def compactsTwoAtOnce : Deployment :=
  { compactsTwo with now := fun _ => 0, tie := ⟨fun r => 9 - r.id, fun r => r.id⟩ }

def twoMessages (d : Deployment) : World :=
  (World.empty.saveNow d "c" "user" "hi").saveNow d "c" "assistant" "hello"

def alwaysGreeting : Summariser := fun _ _ => some "A greeting."

lemma applies_compactsTwo {d : Deployment} (h : d = compactsTwo ∨ d = compactsTwoAtOnce) :
    Applies d alwaysGreeting (twoMessages d) "c" none none 1 "[Conversation summary] A greeting." := by
  rcases h with rfl | rfl
  · exact ⟨rfl, rfl, by decide, le_rfl, by decide⟩
  · exact ⟨rfl, rfl, by decide, le_rfl, by decide⟩

/-- On the clock that stands still the summary comes first. -/
theorem compaction_replaces_prefix_at_once :
    PrefixReplaced compactsTwoAtOnce (twoMessages compactsTwoAtOnce)
      (maybeCompact compactsTwoAtOnce alwaysGreeting (twoMessages compactsTwoAtOnce) "c" none none).1
      "c" 1 ⟨2, "c", "system", "[Conversation summary] A greeting.", 0⟩ :=
  (compaction_replaces_prefix_iff (applies_compactsTwo (.inr rfl)) (by decide)).mpr
    ⟨by decide, by decide⟩

/-- On a clock that moves the summary of the first message is read after the second one. -/
theorem summary_read_last :
    Applies compactsTwo alwaysGreeting (twoMessages compactsTwo) "c" none none 1
        "[Conversation summary] A greeting." ∧
      ¬PrefixReplaced compactsTwo (twoMessages compactsTwo)
        (maybeCompact compactsTwo alwaysGreeting (twoMessages compactsTwo) "c" none none).1
        "c" 1 ⟨2, "c", "system", "[Conversation summary] A greeting.", 2⟩ := by
  refine ⟨applies_compactsTwo (.inl rfl), fun h => ?_⟩
  have hfirst := h.ordered
  revert hfirst
  decide

/-! ### A second run -/

/-- The history after the compaction fires neither trigger, or its first row is a summary and few
enough rows are left beside the new one. -/
def SkipsAgain (d : Deployment) (kept : List ChatHistory) (row : ChatHistory)
    (primaryProvider : Option String) : Prop :=
  ((kept.length + 1 : ℤ) < d.compaction.turnTrigger ∧
      tokenTriggered d (kept ++ [row]) primaryProvider = false) ∨
    (∃ r ∈ kept ++ [row], isSummary r = true ∧
        ∀ r' ∈ kept ++ [row], InOrder createdAtAsc d.tie.asc r r') ∧
      (kept.length : ℤ) < d.compaction.turnTrigger

lemma estimateTokens_perm {rows rows' : List ChatHistory} (h : rows.Perm rows') :
    estimateTokens rows = estimateTokens rows' := by
  unfold estimateTokens
  congr 2
  apply h.foldl_eq'
  intro a _ b _ total
  exact Nat.add_right_comm total _ _

lemma tokenTriggered_perm (d : Deployment) {rows rows' : List ChatHistory} (h : rows.Perm rows')
    (primaryProvider : Option String) :
    tokenTriggered d rows primaryProvider = tokenTriggered d rows' primaryProvider := by
  rw [tokenTriggered, tokenTriggered, estimateTokens_perm h]

/-- A decision on at least two rows skips when no trigger fires or a summary is first. -/
lemma shouldSkip_decideCompaction_iff (d : Deployment) {history : List ChatHistory}
    (hlength : 2 ≤ history.length) (primaryProvider : Option String) :
    (decideCompaction d history primaryProvider).shouldSkip = true ↔
      ((history.length : ℤ) < d.compaction.turnTrigger ∧
          tokenTriggered d history primaryProvider = false) ∨
        history.head?.any isSummary = true ∧ (history.length : ℤ) - 1 < d.compaction.turnTrigger := by
  have hcount : 1 ≤ computePrefixCount d history.length := by
    simp only [computePrefixCount]
    split <;> omega
  have hskip : CompactionDecision.noCompaction.shouldSkip = true := rfl
  simp only [decideCompaction]
  split_ifs with htrigger hsummary hsmall
  · simp only [hskip, true_iff]
    simp only [turnTriggered, Bool.and_eq_true, Bool.not_eq_true', decide_eq_false_iff_not] at htrigger
    exact .inl ⟨by omega, htrigger.2⟩
  · simp only [hskip, true_iff]
    simp only [Bool.and_eq_true, decide_eq_true_eq] at hsummary
    exact .inr hsummary
  · omega
  · simp only [turnTriggered, Bool.and_eq_true, Bool.not_eq_true', decide_eq_false_iff_not,
      decide_eq_true_eq] at htrigger hsummary
    simp only [CompactionDecision.shouldSkip, decide_eq_true_eq, hsmall, false_iff]
    rintro (⟨hturns, htokens⟩ | h)
    · exact htrigger ⟨by omega, htokens⟩
    · exact hsummary h

/-- A run that is enabled and has rows makes no call exactly when its decision skips. -/
lemma maybeCompact_effects_nil_iff {d : Deployment} {w : World} {conversationId : String}
    (llm : Summariser) (henabled : d.compaction.enabled = true)
    (hpostgres : d.history.postgresEnabled = true) (hne : historyOf d w conversationId ≠ [])
    (primaryProvider : Option String) (override : Option CompactionOverride) :
    (maybeCompact d llm w conversationId primaryProvider override).2 = [] ↔
      (decideCompaction d (historyOf d w conversationId) primaryProvider).shouldSkip = true := by
  have hempty : (historyOf d w conversationId).isEmpty = false := by simpa using hne
  simp only [maybeCompact, henabled, hpostgres, Bool.not_true, Bool.false_eq_true, if_false,
    Bool.and_false, if_true]
  rw [← historyOf, hempty, if_neg Bool.false_ne_true]
  split
  · rename_i hskip
    simp only [hskip]
  · rename_i hskip
    simp only [hskip, Bool.false_eq_true, iff_false]
    split <;> simp

section Repeat

variable {d : Deployment} {llm : Summariser} {w : World} {conversationId : String}
  {primaryProvider : Option String} {override : Option CompactionOverride} {p : ℕ} {summary : String}

lemma historyOf_compacted_perm
    (h : Applies d llm w conversationId primaryProvider override p summary) :
    (historyOf d (compacted d w conversationId primaryProvider override p summary).1 conversationId).Perm
      ((historyOf d w conversationId).drop p ++ [summaryRow d w conversationId summary]) := by
  rw [historyOf, ChatHistoryTable.findAllHistoryOrdered, ofUser_compacted h]
  exact (orderBy_perm _ _).trans ((keptRows_perm d w conversationId p).append_right _)

lemma head?_historyOf_compacted_iff
    (h : Applies d llm w conversationId primaryProvider override p summary) :
    (historyOf d (compacted d w conversationId primaryProvider override p summary).1
        conversationId).head?.any isSummary = true ↔
      ∃ r ∈ (historyOf d w conversationId).drop p ++ [summaryRow d w conversationId summary],
        isSummary r = true ∧
          ∀ r' ∈ (historyOf d w conversationId).drop p ++ [summaryRow d w conversationId summary],
            InOrder createdAtAsc d.tie.asc r r' := by
  have hmem : ∀ r, r ∈ keptRows d w conversationId p ++ [summaryRow d w conversationId summary] ↔
      r ∈ (historyOf d w conversationId).drop p ++ [summaryRow d w conversationId summary] := fun r =>
    ((keptRows_perm d w conversationId p).append_right _).mem_iff
  have hhead := fun r => head?_orderBy_eq_some_iff (InOrder createdAtAsc d.tie.asc) (x := r)
    (determined_compacted h createdAtAsc d.tie.asc)
  rw [historyOf, ChatHistoryTable.findAllHistoryOrdered, ofUser_compacted h, Option.any_eq_true]
  constructor
  · rintro ⟨r, hr, hsummary⟩
    obtain ⟨hin, hfirst⟩ := (hhead r).mp hr
    exact ⟨r, (hmem r).mp hin, hsummary, fun r' hr' => hfirst r' ((hmem r').mpr hr')⟩
  · rintro ⟨r, hin, hsummary, hfirst⟩
    exact ⟨r, (hhead r).mpr ⟨(hmem r).mpr hin, fun r' hr' => hfirst r' ((hmem r').mp hr')⟩, hsummary⟩

/-- A second run after a compaction, with no message in between, makes no call and writes nothing. -/
def SecondRunIdle (d : Deployment) (llm : Summariser) (w : World) (conversationId : String)
    (primaryProvider : Option String) (override : Option CompactionOverride) : Prop :=
  (maybeCompact d llm w conversationId primaryProvider override).2 = [] ∧
    (maybeCompact d llm w conversationId primaryProvider override).1 = w

lemma secondRunIdle_iff_effects (d : Deployment) (llm : Summariser) (w : World)
    (conversationId : String) (primaryProvider : Option String) (override : Option CompactionOverride) :
    SecondRunIdle d llm w conversationId primaryProvider override ↔
      (maybeCompact d llm w conversationId primaryProvider override).2 = [] := by
  refine ⟨And.left, fun heffects => ⟨heffects, ?_⟩⟩
  rcases maybeCompact_cases d llm w conversationId primaryProvider override with
    ⟨p, summary, -, heq⟩ | ⟨-, hworld, -⟩
  · rw [heq] at heffects
    simp [compacted] at heffects
  · exact hworld

/-- The raw rows that a compaction leaves after the summary. -/
def rawLeft (kept : List ChatHistory) : ℕ := (kept.filter fun r => !isSummary r).length

/-- Whenever fewer than `turnTrigger` raw messages are left, compaction is idempotent exactly when the
history that it leaves is quiet. -/
theorem compaction_idempotent_iff
    (h : Applies d llm w conversationId primaryProvider override p summary)
    (llm' : Summariser) (primaryProvider' : Option String) (override' : Option CompactionOverride) :
    ((rawLeft ((historyOf d w conversationId).drop p) : ℤ) < d.compaction.turnTrigger →
      SecondRunIdle d llm' (maybeCompact d llm w conversationId primaryProvider override).1
        conversationId primaryProvider' override') ↔
    ((rawLeft ((historyOf d w conversationId).drop p) : ℤ) < d.compaction.turnTrigger →
      SkipsAgain d ((historyOf d w conversationId).drop p) (summaryRow d w conversationId summary)
        primaryProvider') := by
  apply imp_congr_right
  intro _
  have hperm := historyOf_compacted_perm h
  have hkept := length_drop_computePrefixCount d h.prefixCount h.pos
  have hlength := hperm.length_eq
  rw [List.length_append, List.length_singleton] at hlength
  have hne : historyOf d (compacted d w conversationId primaryProvider override p summary).1
      conversationId ≠ [] := by
    rw [← List.length_pos_iff]
    omega
  rw [maybeCompact_of_applies h, secondRunIdle_iff_effects,
    maybeCompact_effects_nil_iff llm' h.enabled h.postgres hne,
    shouldSkip_decideCompaction_iff d (by omega), head?_historyOf_compacted_iff h,
    tokenTriggered_perm d hperm, hlength, SkipsAgain]
  push_cast
  simp only [add_sub_cancel_right]

end Repeat

/-- On the clock that stands still the second run finds the summary first. -/
theorem compaction_idempotent_at_once :
    SecondRunIdle compactsTwoAtOnce alwaysGreeting
      (maybeCompact compactsTwoAtOnce alwaysGreeting (twoMessages compactsTwoAtOnce) "c" none none).1
      "c" none none :=
  (compaction_idempotent_iff (applies_compactsTwo (.inr rfl)) alwaysGreeting none none).mpr
    (fun _ => .inr (by decide)) (by decide)

/-- With one raw message left, a second run summarises it together with the first summary. -/
theorem second_run_compacts_again :
    Applies compactsTwo alwaysGreeting (twoMessages compactsTwo) "c" none none 1
        "[Conversation summary] A greeting." ∧
      (rawLeft ((historyOf compactsTwo (twoMessages compactsTwo) "c").drop 1) : ℤ) < 2 ∧
      ¬SecondRunIdle compactsTwo alwaysGreeting
        (maybeCompact compactsTwo alwaysGreeting (twoMessages compactsTwo) "c" none none).1
        "c" none none := by
  refine ⟨applies_compactsTwo (.inl rfl), by decide, fun h => ?_⟩
  have hidle := h.1
  revert hidle
  decide

end AscendAI.Memory
