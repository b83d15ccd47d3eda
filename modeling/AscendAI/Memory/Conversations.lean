import AscendAI.Lib.KeyedRuns
import AscendAI.Memory.RecentWindow

/-!
# Conversations apart

What the chat memory does to one conversation depends on the contents of that conversation only: on its Redis list
and on the messages of its rows, in the order of insertion. The keys of the rows and their times do not matter as
long as the clock moves between any two readings.
-/

namespace AscendAI.Memory
open RedisList ListWindow RowOrder JavaString

/-- The contents of one conversation in the two backends. -/
structure Conversation where
  cached : List MessageDto
  stored : List MessageDto
  deriving DecidableEq

def conversation (conversationId : String) (w : World) : Conversation :=
  ⟨w.redis (chatKey conversationId), (w.table.ofUser conversationId).map ChatHistory.toDto⟩

/-- A row with the contents of a message. -/
def rowOf (dto : MessageDto) : ChatHistory := ⟨0, "", dto.role, dto.content, 0⟩

/-- The summariser sees the roles and the contents of the rows. -/
abbrev Transcriber := ResolvedCompactionTarget → List MessageDto → Option String

def Transcriber.summariser (llm : Transcriber) : Summariser := fun target body =>
  llm target (body.map ChatHistory.toDto)

namespace Conversation

def empty : Conversation := ⟨[], []⟩

variable (d : Deployment) (c : Conversation)

def loadFromPostgres : Except String (List Message) :=
  if effectiveCacheSize d < 0 then .error "LIMIT must not be negative"
  else .ok ((newest (effectiveCacheSize d).toNat c.stored).map mapDtoToMessage)

def get (lastN : ℤ) : Conversation × Except ServiceException (List Message) :=
  if !d.history.redisEnabled && !d.history.postgresEnabled then (c, .ok [])
  else
    let cached := if d.history.redisEnabled then c.cached.map mapDtoToMessage else []
    if !cached.isEmpty then (c, (sliceTail cached lastN).mapError .failedToRetrieve)
    else if !d.history.postgresEnabled then (c, .ok [])
    else
      match c.loadFromPostgres d with
      | .error cause => (c, .error (.failedToRetrieve cause))
      | .ok hydrated =>
        (if d.history.redisEnabled && !hydrated.isEmpty then { c with cached := c.cached ++ hydrated.map toDto } else c,
          (sliceTail hydrated lastN).mapError .failedToRetrieve)

def add (messages : List Message) : Conversation where
  cached :=
    if d.history.redisEnabled then ltrim (c.cached ++ messages.map toDto) 0 (effectiveCacheSize d - 1) else c.cached
  stored := if d.history.postgresEnabled then c.stored ++ messages.map toDto else c.stored

/-- The summary goes to the head of the list and behind the rows. -/
def replacePrefix (p : ℕ) (summary : String) : Conversation where
  cached :=
    if d.history.redisEnabled then ⟨MessageType.system.getValue, summary⟩ :: c.cached.drop p else c.cached
  stored :=
    if d.history.postgresEnabled then c.stored.drop p ++ [⟨MessageType.system.getValue, summary⟩] else c.stored

def compact (llm : Transcriber) (primaryProvider : Option String) (override : Option CompactionOverride) :
    Conversation :=
  if !d.compaction.enabled then c
  else if !d.history.redisEnabled && !d.history.postgresEnabled then c
  else
    let history := if d.history.postgresEnabled then c.stored else []
    if history.isEmpty then c
    else
      let decision := decideCompaction d (history.map rowOf) primaryProvider
      if decision.shouldSkip then c
      else
        match validateSummary d
            (llm (resolveTarget d primaryProvider override) (history.take decision.prefixCount.toNat)) with
        | none => c
        | some summary => c.replacePrefix d decision.prefixCount.toNat summary

def expire : Conversation := { c with cached := [] }

end Conversation

/-! ### Rows in the order of their times -/

/-- The rows were written one after the other, and before the next reading of the clock. -/
structure Stamped (d : Deployment) (w : World) : Prop where
  sorted : w.table.rows.Pairwise fun a b => a.createdAt < b.createdAt
  past : ∀ r ∈ w.table.rows, r.createdAt < d.now w.readings

lemma stamped_empty (d : Deployment) : Stamped d World.empty :=
  ⟨List.Pairwise.nil, fun _ hr => absurd hr List.not_mem_nil⟩

namespace Stamped

variable {d : Deployment} {w : World}

lemma setRedis (h : Stamped d w) (key : String) (l : List MessageDto) : Stamped d (w.setRedis key l) :=
  ⟨h.sorted, h.past⟩

lemma saveNow (hclock : StrictMono d.now) (h : Stamped d w) (userId role content : String) :
    Stamped d (w.saveNow d userId role content) := by
  constructor
  · rw [World.table_saveNow, ChatHistoryTable.rows_save, List.pairwise_append]
    refine ⟨h.sorted, List.pairwise_singleton _ _, fun a ha b hb => ?_⟩
    rw [List.mem_singleton.mp hb]
    exact h.past a ha
  · intro r hr
    have hnext : d.now w.readings < d.now (w.readings + 1) := hclock (Nat.lt_succ_self w.readings)
    rcases List.mem_append.mp hr with hold | hnew
    · exact (h.past r hold).trans hnext
    · rw [List.mem_singleton.mp hnew]
      exact hnext

lemma deleteAllById (h : Stamped d w) (ids : List ℕ) :
    Stamped d { w with table := w.table.deleteAllById ids } :=
  ⟨h.sorted.sublist List.filter_sublist, fun r hr => h.past r (List.mem_of_mem_filter hr)⟩

lemma ofUser (h : Stamped d w) (userId : String) :
    (w.table.ofUser userId).Pairwise fun a b => a.createdAt < b.createdAt :=
  h.sorted.sublist List.filter_sublist

/-- Read by time, the rows of a user come in the order of insertion. -/
lemma findAllHistoryOrdered (h : Stamped d w) (userId : String) :
    w.table.findAllHistoryOrdered d.tie userId = w.table.ofUser userId := by
  apply orderBy_eq_of_perm _ (w.table.determined_ofUser _ _ userId) (.refl _)
  refine (h.ofUser userId).imp fun {a b} hab => .inl ?_
  simp only [createdAtAsc]
  omega

lemma findRecentHistory (h : Stamped d w) (userId : String) {limit : ℤ} (hlimit : 0 ≤ limit) :
    w.table.findRecentHistory d.tie userId limit = .ok ((w.table.ofUser userId).reverse.take limit.toNat) := by
  rw [ChatHistoryTable.findRecentHistory, if_neg (by omega)]
  congr 2
  apply orderBy_eq_of_perm _ (w.table.determined_ofUser _ _ userId) (List.reverse_perm _)
  rw [List.pairwise_reverse]
  refine (h.ofUser userId).imp fun {a b} hab => .inl ?_
  simp only [createdAtDesc]
  omega

/-- The rows that a compaction deletes are the first ones. -/
lemma ofUser_deleteAllById (h : Stamped d w) (userId : String) (p : ℕ) :
    (w.table.deleteAllById (((w.table.ofUser userId).take p).map ChatHistory.id)).ofUser userId =
      (w.table.ofUser userId).drop p := by
  have hdeleted := (h.deleteAllById (((w.table.ofUser userId).take p).map ChatHistory.id)).findAllHistoryOrdered userId
  have hrest := w.table.findAllHistoryOrdered_deleteAllById d.tie userId p
  rw [h.findAllHistoryOrdered userId] at hrest
  exact hdeleted.symm.trans hrest

end Stamped

/-! ### The operations on their own conversation -/

section Own

variable {d : Deployment} {w : World} {conversationId : String}

lemma toDto_rowOf (dtos : List MessageDto) : (dtos.map rowOf).map ChatHistory.toDto = dtos := by
  rw [List.map_map]
  exact List.map_id dtos

/-- A decision depends on the contents of the history. -/
lemma decideCompaction_congr {history history' : List ChatHistory} (primaryProvider : Option String)
    (h : history.map ChatHistory.toDto = history'.map ChatHistory.toDto) :
    decideCompaction d history primaryProvider = decideCompaction d history' primaryProvider := by
  have hlength : history.length = history'.length := by
    simpa using congrArg List.length h
  have htokens : estimateTokens history = estimateTokens history' := by
    have hfold : ∀ l : List ChatHistory, l.foldl (fun total r => total + JavaString.length r.content / 4) 0 =
        (l.map ChatHistory.toDto).foldl (fun total dto => total + JavaString.length dto.content / 4) 0 := by
      intro l
      rw [List.foldl_map]
      rfl
    rw [estimateTokens, estimateTokens, hfold, hfold, h]
  have hsummary : history.head?.any isSummary = history'.head?.any isSummary := by
    have hhead : ∀ l : List ChatHistory, l.head?.any isSummary =
        (l.map ChatHistory.toDto).head?.any fun dto => isSummary (rowOf dto) := by
      intro l
      cases l <;> rfl
    rw [hhead, hhead, h]
  unfold decideCompaction turnTriggered tokenTriggered
  rw [hlength, htokens, hsummary]

lemma conversation_setRedis (l : List MessageDto) :
    conversation conversationId (w.setRedis (chatKey conversationId) l) =
      ⟨l, (conversation conversationId w).stored⟩ := by
  rw [conversation, World.redis_setRedis_self]
  rfl

lemma stored_saveNow (role content : String) :
    ((w.saveNow d conversationId role content).table.ofUser conversationId).map ChatHistory.toDto =
      (conversation conversationId w).stored ++ [⟨role, content⟩] := by
  rw [World.table_saveNow, ChatHistoryTable.ofUser_save_self, List.map_append]
  rfl

lemma loadFromRedis_conversation :
    loadFromRedis w (chatKey conversationId) = (conversation conversationId w).cached.map mapDtoToMessage := by
  rw [loadFromRedis, lrange_all]
  rfl

lemma loadFromPostgres_conversation (h : Stamped d w) :
    loadFromPostgres d w conversationId = (conversation conversationId w).loadFromPostgres d := by
  rw [loadFromPostgres, Conversation.loadFromPostgres]
  by_cases hsize : effectiveCacheSize d < 0
  · rw [if_pos hsize, ChatHistoryTable.findRecentHistory, if_pos hsize]
    rfl
  · rw [if_neg hsize, h.findRecentHistory conversationId (by omega)]
    simp only [Except.map, Except.ok.injEq]
    have hmap : ((conversation conversationId w).stored).map mapDtoToMessage =
        (w.table.ofUser conversationId).map mapToMessage := by
      rw [conversation, List.map_map]
      rfl
    rw [newest_map, hmap, newest, List.map_take, List.map_reverse, List.reverse_take, List.reverse_reverse,
      List.length_reverse]

theorem get_conversation (h : Stamped d w) (lastN : ℤ) :
    (conversation conversationId (get d w conversationId lastN).1, (get d w conversationId lastN).2) =
      (conversation conversationId w).get d lastN := by
  simp only [get, Conversation.get, loadFromRedis_conversation, loadFromPostgres_conversation h]
  by_cases hoff : (!d.history.redisEnabled && !d.history.postgresEnabled) = true
  · simp only [hoff, if_true]
  simp only [hoff, if_false, Bool.false_eq_true]
  generalize (if d.history.redisEnabled = true then (conversation conversationId w).cached.map mapDtoToMessage
    else []) = cached
  by_cases hcached : (!cached.isEmpty) = true
  · simp only [hcached, if_true]
  by_cases hpostgres : (!d.history.postgresEnabled) = true
  · simp only [hcached, hpostgres, if_true, if_false, Bool.false_eq_true]
  simp only [hcached, hpostgres, if_false, Bool.false_eq_true]
  cases (conversation conversationId w).loadFromPostgres d with
  | error cause => rfl
  | ok hydrated =>
    simp only
    split
    · rw [populateRedisCache, World.rightPushAll, conversation_setRedis]
      rfl
    · rfl

lemma conversation_addMessage (message : Message) :
    conversation conversationId (addMessage d conversationId w message) =
      ⟨if d.history.redisEnabled then (conversation conversationId w).cached ++ [toDto message]
          else (conversation conversationId w).cached,
        if d.history.postgresEnabled then (conversation conversationId w).stored ++ [toDto message]
          else (conversation conversationId w).stored⟩ := by
  have hpersist : ∀ w : World, conversation conversationId (persistToDb d w conversationId message) =
      ⟨(conversation conversationId w).cached, (conversation conversationId w).stored ++ [toDto message]⟩ := by
    intro w
    rw [conversation, persistToDb, stored_saveNow]
    rfl
  have hpush : conversation conversationId (w.rightPush (chatKey conversationId) (toDto message)) =
      ⟨(conversation conversationId w).cached ++ [toDto message], (conversation conversationId w).stored⟩ := by
    rw [World.rightPush, conversation_setRedis]
    rfl
  simp only [addMessage]
  cases d.history.redisEnabled <;> cases d.history.postgresEnabled <;> simp [hpersist, hpush]

lemma conversation_foldl_addMessage (messages : List Message) :
    conversation conversationId (messages.foldl (addMessage d conversationId) w) =
      ⟨if d.history.redisEnabled then (conversation conversationId w).cached ++ messages.map toDto
          else (conversation conversationId w).cached,
        if d.history.postgresEnabled then (conversation conversationId w).stored ++ messages.map toDto
          else (conversation conversationId w).stored⟩ := by
  induction messages generalizing w with
  | nil => simp
  | cons message messages ih =>
    rw [List.foldl_cons, ih, conversation_addMessage]
    cases d.history.redisEnabled <;> cases d.history.postgresEnabled <;> simp

theorem addMessages_conversation (messages : List Message) :
    conversation conversationId (addMessages d w conversationId messages) =
      (conversation conversationId w).add d messages := by
  simp only [addMessages, Conversation.add]
  cases hredis : d.history.redisEnabled with
  | true =>
    simp only [if_true, World.trim, conversation_setRedis, conversation_foldl_addMessage]
    have hcached : (messages.foldl (addMessage d conversationId) w).redis (chatKey conversationId) =
        (conversation conversationId w).cached ++ messages.map toDto := by
      have hfold : (conversation conversationId (messages.foldl (addMessage d conversationId) w)).cached = _ :=
        congrArg Conversation.cached (conversation_foldl_addMessage messages)
      rwa [hredis, if_pos rfl] at hfold
    rw [hcached]
  | false =>
    simp only [Bool.false_eq_true, if_false, conversation_foldl_addMessage, hredis]

lemma applyToPostgres_conversation (h : Stamped d w) (p : ℕ) (summary : String) :
    conversation conversationId
        (applyToPostgres d w conversationId ((w.table.ofUser conversationId).take p) summary).1 =
      ⟨(conversation conversationId w).cached,
        if d.history.postgresEnabled then
          (conversation conversationId w).stored.drop p ++ [⟨MessageType.system.getValue, summary⟩]
        else (conversation conversationId w).stored⟩ := by
  simp only [applyToPostgres]
  cases hpostgres : d.history.postgresEnabled with
  | false => simp
  | true =>
    simp only [Bool.not_true, Bool.false_eq_true, if_false, if_true]
    rw [conversation, stored_saveNow]
    split
    · rename_i hnone
      rw [List.isEmpty_iff, List.map_eq_nil_iff] at hnone
      have hdrop : (w.table.ofUser conversationId).drop p = w.table.ofUser conversationId := by
        rw [← List.take_append_drop p (w.table.ofUser conversationId), hnone, List.nil_append]
        simp [List.take_eq_nil_iff] at hnone
        rcases hnone with rfl | hnil
        · rfl
        · simp [hnil]
      rw [conversation, ← List.map_drop, hdrop]
      rfl
    · rw [conversation, conversation, h.ofUser_deleteAllById, List.map_drop]
      rfl

lemma applyToRedis_conversation (p : ℕ) (summary : String) :
    conversation conversationId (applyToRedis d w conversationId p summary).1 =
      ⟨if d.history.redisEnabled then
          ⟨MessageType.system.getValue, summary⟩ :: (conversation conversationId w).cached.drop p
        else (conversation conversationId w).cached, (conversation conversationId w).stored⟩ := by
  simp only [applyToRedis]
  cases d.history.redisEnabled with
  | false => rfl
  | true =>
    simp only [Bool.not_true, Bool.false_eq_true, if_false, if_true, World.leftPush, World.trim, conversation_setRedis,
      World.redis_setRedis_self, lpush, ltrim_drop]
    rfl

theorem maybeCompact_conversation (h : Stamped d w) (llm : Transcriber) (primaryProvider : Option String)
    (override : Option CompactionOverride) :
    conversation conversationId
        (maybeCompact d llm.summariser w conversationId primaryProvider override).1 =
      (conversation conversationId w).compact d llm primaryProvider override := by
  simp only [maybeCompact, Conversation.compact, h.findAllHistoryOrdered]
  split
  · rfl
  split
  · rfl
  cases hpostgres : d.history.postgresEnabled with
  | false => rfl
  | true =>
    simp only [if_true]
    have hdecision : decideCompaction d ((conversation conversationId w).stored.map rowOf) primaryProvider =
        decideCompaction d (w.table.ofUser conversationId) primaryProvider :=
      decideCompaction_congr primaryProvider (toDto_rowOf _)
    have hempty : (conversation conversationId w).stored.isEmpty = (w.table.ofUser conversationId).isEmpty :=
      List.isEmpty_map
    simp only [hdecision, hempty]
    split
    · rfl
    split
    · rfl
    rename_i hskip
    rw [CompactionDecision.shouldSkip, decide_eq_true_eq] at hskip
    obtain ⟨p, hp⟩ : ∃ p : ℕ,
        (decideCompaction d (w.table.ofUser conversationId) primaryProvider).prefixCount = p :=
      ⟨_, (Int.toNat_of_nonneg (by omega)).symm⟩
    simp only [hp, Int.toNat_natCast]
    have hsummary : invokeSummariser d llm.summariser (resolveTarget d primaryProvider override)
        ((w.table.ofUser conversationId).take p) = validateSummary d
          (llm (resolveTarget d primaryProvider override) ((conversation conversationId w).stored.take p)) := by
      rw [invokeSummariser, Transcriber.summariser, List.map_take]
      rfl
    rw [hsummary]
    cases validateSummary d
        (llm (resolveTarget d primaryProvider override) ((conversation conversationId w).stored.take p)) with
    | none => rfl
    | some summary =>
      simp only [applyToRedis_conversation, applyToPostgres_conversation h, Conversation.replacePrefix]

end Own

/-! ### The other conversations, and the times of the rows -/

section Others

variable {d : Deployment} {w : World} {conversationId other : String}

lemma conversation_setRedis_of_ne (h : other ≠ conversationId) (w : World) (l : List MessageDto) :
    conversation other (w.setRedis (chatKey conversationId) l) = conversation other w := by
  have hkey : chatKey other ≠ chatKey conversationId := fun heq => h (chatKey_injective heq)
  rw [conversation, World.redis_setRedis_of_ne w hkey]
  rfl

lemma conversation_saveNow_of_ne (h : other ≠ conversationId) (w : World) (role content : String) :
    conversation other (w.saveNow d conversationId role content) = conversation other w := by
  rw [conversation, World.table_saveNow, ChatHistoryTable.ofUser_save_of_ne _ h.symm]
  rfl

lemma get_of_ne (h : other ≠ conversationId) (lastN : ℤ) :
    conversation other (get d w conversationId lastN).1 = conversation other w := by
  have hpopulate : ∀ hydrated, conversation other (populateRedisCache w (chatKey conversationId) hydrated) =
      conversation other w := fun hydrated => conversation_setRedis_of_ne h w _
  simp only [get]
  repeat' split
  all_goals first
    | rfl
    | exact hpopulate _

lemma stamped_get (h : Stamped d w) (lastN : ℤ) : Stamped d (get d w conversationId lastN).1 := by
  have hpopulate : ∀ hydrated, Stamped d (populateRedisCache w (chatKey conversationId) hydrated) := fun hydrated =>
    h.setRedis _ _
  simp only [get]
  repeat' split
  all_goals first
    | exact h
    | exact hpopulate _

lemma addMessages_of_ne (h : other ≠ conversationId) (messages : List Message) :
    conversation other (addMessages d w conversationId messages) = conversation other w := by
  have hone : ∀ (w : World) message,
      conversation other (addMessage d conversationId w message) = conversation other w := by
    intro w message
    simp only [addMessage, persistToDb, World.rightPush]
    split <;> split <;> simp only [conversation_saveNow_of_ne h, conversation_setRedis_of_ne h]
  have hall : conversation other (messages.foldl (addMessage d conversationId) w) = conversation other w := by
    induction messages generalizing w with
    | nil => rfl
    | cons message messages ih => rw [List.foldl_cons, ih, hone]
  simp only [addMessages, World.trim]
  split
  · rw [conversation_setRedis_of_ne h, hall]
  · exact hall

lemma stamped_addMessages (hclock : StrictMono d.now) (h : Stamped d w) (messages : List Message) :
    Stamped d (addMessages d w conversationId messages) := by
  have hone : ∀ (w : World) message, Stamped d w → Stamped d (addMessage d conversationId w message) := by
    intro w message h
    simp only [addMessage, persistToDb, World.rightPush]
    split <;> split
    · exact (h.setRedis _ _).saveNow hclock _ _ _
    · exact h.saveNow hclock _ _ _
    · exact h.setRedis _ _
    · exact h
  have hall : Stamped d (messages.foldl (addMessage d conversationId) w) := by
    induction messages generalizing w with
    | nil => exact h
    | cons message messages ih => exact ih (hone w message h)
  simp only [addMessages, World.trim]
  split
  · exact hall.setRedis _ _
  · exact hall

/-- A compaction leaves both backends alone, or it deletes first rows of its conversation, inserts a summary and
writes the list. -/
lemma maybeCompact_writes (h : Stamped d w) (llm : Summariser) (primaryProvider : Option String)
    (override : Option CompactionOverride) :
    (maybeCompact d llm w conversationId primaryProvider override).1 = w ∨
      ∃ p prefixCount summary, (maybeCompact d llm w conversationId primaryProvider override).1 =
        (applyToRedis d (applyToPostgres d w conversationId ((w.table.ofUser conversationId).take p) summary).1
          conversationId prefixCount summary).1 := by
  simp only [maybeCompact, h.findAllHistoryOrdered]
  cases d.history.postgresEnabled with
  | false =>
    left
    split
    · rfl
    split
    · rfl
    · rfl
  | true =>
    simp only [if_true]
    split
    · exact .inl rfl
    split
    · exact .inl rfl
    split
    · exact .inl rfl
    split
    · exact .inl rfl
    split
    · exact .inl rfl
    · exact .inr ⟨_, _, _, rfl⟩

lemma applyToRedis_of_ne (h : other ≠ conversationId) (prefixCount : ℤ) (summary : String) :
    conversation other (applyToRedis d w conversationId prefixCount summary).1 = conversation other w := by
  simp only [applyToRedis, World.leftPush, World.trim]
  split
  · rfl
  · rw [conversation_setRedis_of_ne h, conversation_setRedis_of_ne h]

lemma stamped_applyToRedis (h : Stamped d w) (prefixCount : ℤ) (summary : String) :
    Stamped d (applyToRedis d w conversationId prefixCount summary).1 := by
  simp only [applyToRedis, World.leftPush, World.trim]
  split
  · exact h
  · exact (h.setRedis _ _).setRedis _ _

lemma applyToPostgres_of_ne (h : other ≠ conversationId) (p : ℕ) (summary : String) :
    conversation other
      (applyToPostgres d w conversationId ((w.table.ofUser conversationId).take p) summary).1 =
      conversation other w := by
  have hdelete : conversation other
      { w with table := w.table.deleteAllById (((w.table.ofUser conversationId).take p).map ChatHistory.id) } =
      conversation other w := by
    rw [conversation]
    simp only
    rw [w.table.ofUser_deleteAllById_of_ne h.symm fun r hr => (w.table.mem_ofUser).mp (List.mem_of_mem_take hr)]
    rfl
  simp only [applyToPostgres]
  split
  · rfl
  · rw [conversation_saveNow_of_ne h]
    split
    · rfl
    · exact hdelete

lemma stamped_applyToPostgres (hclock : StrictMono d.now) (h : Stamped d w) (body : List ChatHistory)
    (summary : String) : Stamped d (applyToPostgres d w conversationId body summary).1 := by
  simp only [applyToPostgres]
  split
  · exact h
  · split
    · exact h.saveNow hclock _ _ _
    · exact (h.deleteAllById _).saveNow hclock _ _ _

lemma maybeCompact_of_ne (hne : other ≠ conversationId) (h : Stamped d w) (llm : Summariser)
    (primaryProvider : Option String) (override : Option CompactionOverride) :
    conversation other (maybeCompact d llm w conversationId primaryProvider override).1 = conversation other w := by
  rcases maybeCompact_writes h llm primaryProvider override with hsame | ⟨p, prefixCount, summary, heq⟩
  · rw [hsame]
  · rw [heq, applyToRedis_of_ne hne, applyToPostgres_of_ne hne]

lemma stamped_maybeCompact (hclock : StrictMono d.now) (h : Stamped d w) (llm : Summariser)
    (primaryProvider : Option String) (override : Option CompactionOverride) :
    Stamped d (maybeCompact d llm w conversationId primaryProvider override).1 := by
  rcases maybeCompact_writes h llm primaryProvider override with hsame | ⟨p, prefixCount, summary, heq⟩
  · rw [hsame]
    exact h
  · rw [heq]
    exact stamped_applyToRedis (stamped_applyToPostgres hclock h _ _) _ _

end Others

end AscendAI.Memory
