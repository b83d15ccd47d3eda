import AscendAI.Memory.CompactionEffect
import AscendAI.Memory.PersistentChatMemory

/-!
# The two copies of a conversation across compactions

A compaction counts its prefix in the Postgres history and cuts as many elements off the Redis
list. The list was already cut by `add`, and it holds the last summary at its head; the table
holds that row behind the ones that were kept, and the query puts it where its time does. The two
copies stay the same conversation when the list was not cut shorter than the history and the query
reads every summary first.
-/

namespace AscendAI.Memory
open RedisList ListWindow Runs RowOrder

/-- The state of a run of `add` together with the calls that its compactions have made. -/
abbrev Traced := World × List Effect

def addTraced (d : Deployment) (s : Traced) (call : AddCall) : Traced :=
  (addStep d s.1 call,
    s.2 ++ (maybeCompact d call.llm (addMessages d s.1 call.conversationId call.messages)
      call.conversationId call.primaryProvider call.override).2)

lemma run_addTraced (d : Deployment) (s : Traced) (calls : List AddCall) :
    (run (addTraced d) s calls).1 = run (addStep d) s.1 calls := by
  induction calls generalizing s with
  | nil => rfl
  | cons call calls ih => rw [run_cons, run_cons, ih, addTraced]

/-- What a compaction is to leave of a history beside the summary. -/
def lastTurns (d : Deployment) (history : List ChatHistory) : List ChatHistory :=
  if (history.length : ℤ) ≤ d.compaction.keepRecentTurns then history.drop 1
  else newest d.compaction.keepRecentTurns.toNat history

def historyAt (d : Deployment) (w : World) (call : AddCall) : List ChatHistory :=
  historyOf d (addMessages d w call.conversationId call.messages) call.conversationId

def Compacts (d : Deployment) (w : World) (call : AddCall) (p : ℕ) (summary : String) : Prop :=
  Applies d call.llm (addMessages d w call.conversationId call.messages) call.conversationId
    call.primaryProvider call.override p summary

/-- After a compaction the Redis list is the summary and the last turns, and a query of Postgres reads
the same conversation. -/
def CopiesAgree (d : Deployment) (s : Traced) (call : AddCall) : Prop :=
  ∀ p summary, Compacts d s.1 call p summary →
    let conversation := ⟨MessageType.system.getValue, summary⟩ ::
      (lastTurns d (historyAt d s.1 call)).map ChatHistory.toDto
    (addStep d s.1 call).redis (chatKey call.conversationId) = conversation ∧
      (historyOf d (addStep d s.1 call) call.conversationId).map ChatHistory.toDto = conversation

/-- The rows that compactions have written. -/
def summaries (effects : List Effect) (rows : List ChatHistory) : List ChatHistory :=
  rows.filter fun r => Effect.save r ∈ effects

/-- What a summary stands for is older than the other rows, and these follow as they were written. -/
def chronological (effects : List Effect) (rows : List ChatHistory) : List ChatHistory :=
  summaries effects rows ++ rows.filter fun r => Effect.save r ∉ effects

/-- The query reads the row before `r`, which was written earlier: time went back since, or there is a
tie and the database puts the row first. -/
def ReadBefore (d : Deployment) (row r : ChatHistory) : Prop :=
  row.createdAt < r.createdAt ∨ row.createdAt = r.createdAt ∧ d.tie.asc row < d.tie.asc r

instance (d : Deployment) (row r : ChatHistory) : Decidable (ReadBefore d row r) :=
  inferInstanceAs (Decidable (_ ∨ _))

/-- Whenever the call compacts, the history is not longer than the Redis list may be, it is read with an
earlier summary first and the other rows as they were written, and the new summary is read before the
last turns. -/
def PrefixCached (d : Deployment) (s : Traced) (call : AddCall) : Prop :=
  ∀ p summary, Compacts d s.1 call p summary →
    let w := addMessages d s.1 call.conversationId call.messages
    ((historyAt d s.1 call).length : ℤ) ≤ effectiveCacheSize d ∧
      historyAt d s.1 call = chronological s.2 (w.table.ofUser call.conversationId) ∧
      ∀ r ∈ lastTurns d (historyAt d s.1 call), ReadBefore d (summaryRow d w call.conversationId summary) r

/-- The invariant: the Redis list is the head of the conversation, which starts with at most one summary. -/
structure Cached (d : Deployment) (s : Traced) : Prop where
  list : ∀ conversationId, s.1.redis (chatKey conversationId) =
    ltrim ((chronological s.2 (s.1.table.ofUser conversationId)).map ChatHistory.toDto) 0 (effectiveCacheSize d - 1)
  one : ∀ conversationId, (summaries s.2 (s.1.table.ofUser conversationId)).length ≤ 1
  saved : ∀ r, Effect.save r ∈ s.2 → r.id < s.1.table.nextId

section Chronological

variable {effects effects' : List Effect} {rows new : List ChatHistory}

lemma summaries_congr (h : ∀ r ∈ rows, Effect.save r ∈ effects' ↔ Effect.save r ∈ effects) :
    summaries effects' rows = summaries effects rows :=
  List.filter_congr fun r hr => decide_eq_decide.mpr (h r hr)

lemma chronological_congr (h : ∀ r ∈ rows, Effect.save r ∈ effects' ↔ Effect.save r ∈ effects) :
    chronological effects' rows = chronological effects rows := by
  have hothers : rows.filter (fun r => Effect.save r ∉ effects') = rows.filter fun r => Effect.save r ∉ effects :=
    List.filter_congr fun r hr => decide_eq_decide.mpr (not_congr (h r hr))
  rw [chronological, summaries_congr h, hothers, chronological]

lemma summaries_eq_nil (h : ∀ r ∈ rows, Effect.save r ∉ effects) : summaries effects rows = [] :=
  List.filter_eq_nil_iff.mpr fun r hr => by simpa using h r hr

lemma filter_not_saved (h : ∀ r ∈ rows, Effect.save r ∉ effects) :
    rows.filter (fun r => Effect.save r ∉ effects) = rows :=
  List.filter_eq_self.mpr fun r hr => by simpa using h r hr

/-- Messages that are added come last. -/
lemma summaries_append (h : ∀ r ∈ new, Effect.save r ∉ effects) :
    summaries effects (rows ++ new) = summaries effects rows := by
  rw [summaries, List.filter_append, ← summaries, ← summaries, summaries_eq_nil h, List.append_nil]

lemma chronological_append (h : ∀ r ∈ new, Effect.save r ∉ effects) :
    chronological effects (rows ++ new) = chronological effects rows ++ new := by
  rw [chronological, summaries_append h, List.filter_append, filter_not_saved h, ← List.append_assoc,
    ← chronological]

/-- A summary that is written comes first. -/
lemma summaries_concat (h : ∀ r ∈ rows, Effect.save r ∉ effects) {row : ChatHistory}
    (hrow : Effect.save row ∈ effects) : summaries effects (rows ++ [row]) = [row] := by
  rw [summaries, List.filter_append, ← summaries, summaries_eq_nil h, List.nil_append,
    List.filter_cons_of_pos (by simpa using hrow), List.filter_nil]

lemma chronological_concat (h : ∀ r ∈ rows, Effect.save r ∉ effects) {row : ChatHistory}
    (hrow : Effect.save row ∈ effects) : chronological effects (rows ++ [row]) = row :: rows := by
  rw [chronological, summaries_concat h hrow, List.filter_append, filter_not_saved h,
    List.filter_cons_of_neg (by simpa using hrow), List.filter_nil, List.append_nil, List.singleton_append]

/-- What is left behind a prefix that is not empty holds no summary, and stands as it was written. -/
lemma drop_chronological (hone : (summaries effects rows).length ≤ 1) {p : ℕ} (hp : 1 ≤ p) :
    (∀ r ∈ (chronological effects rows).drop p, Effect.save r ∉ effects) ∧
      ((chronological effects rows).drop p).Sublist rows := by
  have hdrop : (chronological effects rows).drop p =
      (rows.filter fun r => Effect.save r ∉ effects).drop (p - (summaries effects rows).length) := by
    rw [chronological, List.drop_append, List.drop_of_length_le (hone.trans hp), List.nil_append]
  rw [hdrop]
  constructor
  · intro r hr
    simpa using (List.mem_filter.mp (List.mem_of_mem_drop hr)).2
  · exact (List.drop_sublist _ _).trans List.filter_sublist

end Chronological

section Step

variable {d : Deployment} (hredis : d.history.redisEnabled = true)
  (hpostgres : d.history.postgresEnabled = true)

include hpostgres in
/-- The rows that the loop of `add` inserts carry the records that it pushes, under new keys. -/
lemma ofUser_addMessages (w : World) (conversationId : String) (messages : List Message) :
    w.table.nextId ≤ (addMessages d w conversationId messages).table.nextId ∧ ∃ new : List ChatHistory,
      (addMessages d w conversationId messages).table.ofUser conversationId =
          w.table.ofUser conversationId ++ new ∧
        new.map ChatHistory.toDto = messages.map toDto ∧ ∀ r ∈ new, w.table.nextId ≤ r.id := by
  have htable : (addMessages d w conversationId messages).table =
      (messages.foldl (addMessage d conversationId) w).table := by
    simp only [addMessages]
    split <;> rfl
  rw [htable]
  clear htable
  induction messages generalizing w with
  | nil => exact ⟨le_rfl, [], by simp, rfl, fun _ h => absurd h List.not_mem_nil⟩
  | cons message messages ih =>
    have hone : (addMessage d conversationId w message).table =
        w.table.save conversationId message.messageType.getValue message.text (d.now w.readings) := by
      simp only [addMessage, hpostgres, if_true, persistToDb, World.table_saveNow]
      split <;> rfl
    have hnext : w.table.nextId + 1 = (addMessage d conversationId w message).table.nextId := by
      rw [hone]
      rfl
    obtain ⟨hle, new, hrows, hdtos, hids⟩ := ih (addMessage d conversationId w message)
    rw [← hnext] at hle hids
    refine ⟨(Nat.le_succ _).trans hle, w.table.newRow conversationId message.messageType.getValue message.text
      (d.now w.readings) :: new, ?_, ?_, ?_⟩
    · rw [List.foldl_cons, hrows, hone, ChatHistoryTable.ofUser_save_self, List.append_assoc,
        List.singleton_append]
    · rw [List.map_cons, List.map_cons, hdtos]
      rfl
    · rw [List.forall_mem_cons]
      exact ⟨le_rfl, fun r hr => (Nat.le_succ _).trans (hids r hr)⟩

include hredis in
lemma addStep_eq (w : World) (call : AddCall) :
    addStep d w call = (maybeCompact d call.llm (addMessages d w call.conversationId call.messages)
      call.conversationId call.primaryProvider call.override).1 := by
  simp [addStep, add, hredis]

include hredis hpostgres in
/-- The loop and the trim of `add` keep the list the head of the conversation. -/
lemma cached_addMessages (hsize : 0 ≤ effectiveCacheSize d) {s : Traced} (h : Cached d s)
    (conversationId : String) (messages : List Message) :
    Cached d (addMessages d s.1 conversationId messages, s.2) := by
  obtain ⟨hnext, new, hrows, hdtos, hids⟩ := ofUser_addMessages hpostgres s.1 conversationId messages
  have hnew : ∀ r ∈ new, Effect.save r ∉ s.2 := fun r hr hsave =>
    absurd (h.saved r hsave) (not_lt.mpr (hids r hr))
  refine ⟨fun other => ?_, fun other => ?_, fun r hr => (h.saved r hr).trans_le hnext⟩
  · by_cases hc : other = conversationId
    · subst hc
      rw [redis_addMessages d s.1 hredis, h.list, hrows, chronological_append hnew, List.map_append, hdtos,
        ltrim_ltrim_append hsize]
    · rw [redis_addMessages_of_ne d s.1 hc hredis, ofUser_addMessages_of_ne d s.1 hc]
      exact h.list other
  · by_cases hc : other = conversationId
    · subst hc
      rw [hrows, summaries_append hnew]
      exact h.one other
    · rw [ofUser_addMessages_of_ne d s.1 hc]
      exact h.one other

end Step

/-- What a compaction leaves when both copies keep the conversation: the new summary and the kept rows. -/
structure CopiesKept (d : Deployment) (w w' : World) (effects : List Effect) (conversationId : String)
    (row : ChatHistory) (kept : List ChatHistory) : Prop where
  list : w'.redis (chatKey conversationId) = (row :: kept).map ChatHistory.toDto
  history : historyOf d w' conversationId = row :: kept
  rows : w'.table.ofUser conversationId = kept ++ [row]
  old : kept.Sublist (w.table.ofUser conversationId)
  raw : ∀ r ∈ kept, Effect.save r ∉ effects
  shorter : kept.length < (historyOf d w conversationId).length

section Compaction

variable {d : Deployment} {llm : Summariser} {w : World} {effects : List Effect}
  {conversationId : String} {primaryProvider : Option String} {override : Option CompactionOverride}
  {p : ℕ} {summary : String}

lemma save_mem_compacted_iff (h : Applies d llm w conversationId primaryProvider override p summary)
    {row : ChatHistory} : Effect.save row ∈ (compacted d w conversationId primaryProvider override p summary).2 ↔
      row = summaryRow d w conversationId summary := by
  simp only [compacted, applyToPostgres, applyToRedis, h.postgres, Bool.not_true, Bool.false_eq_true, if_false]
  split
  · split
    · simp [summaryRow]
    · simp [summaryRow]
  · split
    · simp [summaryRow, ChatHistoryTable.newRow, ChatHistoryTable.deleteAllById]
    · simp [summaryRow, ChatHistoryTable.newRow, ChatHistoryTable.deleteAllById]

/-- A compaction whose prefix is cached leaves the same conversation in both copies. -/
lemma compacted_copies (hredis : d.history.redisEnabled = true)
    (hkeep : 1 ≤ d.compaction.keepRecentTurns) (hcached : Cached d (w, effects))
    (h : Applies d llm w conversationId primaryProvider override p summary)
    (hlength : ((historyOf d w conversationId).length : ℤ) ≤ effectiveCacheSize d)
    (horder : historyOf d w conversationId = chronological effects (w.table.ofUser conversationId))
    (hfirst : ∀ r ∈ lastTurns d (historyOf d w conversationId),
      ReadBefore d (summaryRow d w conversationId summary) r) :
    CopiesKept d w (compacted d w conversationId primaryProvider override p summary).1 effects conversationId
      (summaryRow d w conversationId summary) (lastTurns d (historyOf d w conversationId)) := by
  set kept := lastTurns d (historyOf d w conversationId)
  have hlast : kept = (historyOf d w conversationId).drop p :=
    (drop_computePrefixCount d hkeep (hlength.trans_lt (isJavaInt_effectiveCacheSize d).2) h.prefixCount h.pos).symm
  obtain ⟨hraw, hsublist⟩ := drop_chronological (hcached.one conversationId) h.pos
  rw [← horder, ← hlast] at hraw hsublist
  have hbounds := h.length_bounds
  have hwhole : w.redis (chatKey conversationId) = (historyOf d w conversationId).map ChatHistory.toDto := by
    rw [hcached.list, ← horder, ltrim_oldest (by omega), List.take_of_length_le]
    rw [List.length_map]
    omega
  have hrows : keptRows d w conversationId p = kept := by
    have hnodup : (w.table.ofUser conversationId).Nodup := .of_map _ (w.table.nodup_id_ofUser conversationId)
    have hkept : (keptRows d w conversationId p).Sublist (w.table.ofUser conversationId) :=
      List.filter_sublist.filter _
    exact (hnodup.perm_iff_eq_of_sublist hkept hsublist).mp (hlast ▸ keptRows_perm d w conversationId p)
  refine ⟨?_, ?_, ?_, hsublist, hraw, ?_⟩
  · rw [redis_compacted hredis, if_pos rfl, hwhole, hlast, List.map_cons, List.map_drop]
    rfl
  · rw [historyOf, ChatHistoryTable.findAllHistoryOrdered, ofUser_compacted h, hlast, ← orderBy_keptRows,
      orderBy_append_eq_cons_iff _ (determined_compacted h _ _)]
    intro r hr
    have hid := id_lt_summaryRow hr summary
    have hmem : r ∈ kept := hrows ▸ hr
    have hbefore := hfirst r hmem
    unfold ReadBefore at hbefore
    simp only [InOrder, createdAtAsc]
    omega
  · rw [ofUser_compacted h, hrows]
  · have hpos := h.pos
    rw [hlast, List.length_drop]
    omega

/-- A compaction that leaves the conversation in both copies keeps the list the head of every conversation. -/
lemma Cached.of_compacted (hcached : Cached d (w, effects)) (hredis : d.history.redisEnabled = true)
    (h : Applies d llm w conversationId primaryProvider override p summary) {effects' : List Effect}
    {kept : List ChatHistory} (hlength : ((historyOf d w conversationId).length : ℤ) ≤ effectiveCacheSize d)
    (hcopies : CopiesKept d w (compacted d w conversationId primaryProvider override p summary).1 effects
      conversationId (summaryRow d w conversationId summary) kept)
    (hsaves : ∀ r, Effect.save r ∈ effects' ↔ Effect.save r ∈ effects ∨ r = summaryRow d w conversationId summary) :
    Cached d ((compacted d w conversationId primaryProvider override p summary).1, effects') := by
  have hrow : Effect.save (summaryRow d w conversationId summary) ∈ effects' := (hsaves _).mpr (.inr rfl)
  -- the rows of the other conversations are not the new summary
  have hsame : ∀ r ∈ w.table.rows, Effect.save r ∈ effects' ↔ Effect.save r ∈ effects := by
    intro r hr
    rw [hsaves, or_iff_left]
    rintro rfl
    exact lt_irrefl _ (w.table.id_lt _ hr)
  have hother : ∀ other, ∀ r ∈ w.table.ofUser other, Effect.save r ∈ effects' ↔ Effect.save r ∈ effects :=
    fun other r hr => hsame r (List.mem_of_mem_filter hr)
  have hraw : ∀ r ∈ kept, Effect.save r ∉ effects' := fun r hr => by
    rw [hother conversationId r (hcopies.old.subset hr)]
    exact hcopies.raw r hr
  refine ⟨fun other => ?_, fun other => ?_, fun r hr => ?_⟩
  · by_cases hc : other = conversationId
    · have hshorter := hcopies.shorter
      rw [hc, hcopies.list, hcopies.rows, chronological_concat hraw hrow, ltrim_oldest (by omega),
        List.take_of_length_le]
      rw [List.length_map, List.length_cons]
      omega
    · rw [redis_compacted hredis, if_neg (fun hkey => hc (chatKey_injective hkey)),
        ofUser_compacted_of_ne h hc, chronological_congr (hother other)]
      exact hcached.list other
  · by_cases hc : other = conversationId
    · rw [hc, hcopies.rows, summaries_concat hraw hrow]
      exact le_rfl
    · rw [ofUser_compacted_of_ne h hc, summaries_congr (hother other)]
      exact hcached.one other
  · have hnext : (compacted d w conversationId primaryProvider override p summary).1.table.nextId =
        w.table.nextId + 1 := by
      rw [table_compacted h]
      rfl
    rw [hnext]
    rcases (hsaves r).mp hr with hold | rfl
    · exact Nat.lt_succ_of_lt (hcached.saved r hold)
    · exact Nat.lt_succ_self _

end Compaction

/-- One call of `add` whose compaction, if any, finds its prefix cached. -/
lemma cached_addTraced {d : Deployment} (hredis : d.history.redisEnabled = true)
    (hpostgres : d.history.postgresEnabled = true) (hsize : 1 ≤ effectiveCacheSize d)
    (hkeep : 1 ≤ d.compaction.keepRecentTurns) (s : Traced) (call : AddCall) (hs : Cached d s)
    (hguard : PrefixCached d s call) : Cached d (addTraced d s call) ∧ CopiesAgree d s call := by
  have hadded := cached_addMessages hredis hpostgres (by omega) hs call.conversationId call.messages
  have hstep := addStep_eq hredis s.1 call
  rcases maybeCompact_cases d call.llm (addMessages d s.1 call.conversationId call.messages)
    call.conversationId call.primaryProvider call.override with
    ⟨p, summary, happlies, heq⟩ | ⟨hno, hworld, hsaves⟩
  swap
  · refine ⟨?_, fun p summary h => absurd h (hno p summary)⟩
    have hsame : ∀ r, Effect.save r ∈ (addTraced d s call).2 ↔ Effect.save r ∈ s.2 := fun r => by
      rw [addTraced, List.mem_append, or_iff_left (hsaves r)]
    rw [← hstep] at hworld
    refine ⟨fun conversationId => ?_, fun conversationId => ?_, fun r hr => ?_⟩
    · rw [chronological_congr fun r _ => hsame r, addTraced, hworld]
      exact hadded.list conversationId
    · rw [summaries_congr fun r _ => hsame r, addTraced, hworld]
      exact hadded.one conversationId
    · rw [addTraced, hworld]
      exact hadded.saved r ((hsame r).mp hr)
  set w := addMessages d s.1 call.conversationId call.messages with hw
  obtain ⟨hlength, horder, hfirst⟩ := hguard p summary happlies
  have hcopies := compacted_copies hredis hkeep hadded happlies hlength horder hfirst
  have hworld : (addTraced d s call).1 =
      (compacted d w call.conversationId call.primaryProvider call.override p summary).1 := by
    rw [addTraced, hstep, heq]
  have hsaves : ∀ r, Effect.save r ∈ (addTraced d s call).2 ↔
      Effect.save r ∈ s.2 ∨ r = summaryRow d w call.conversationId summary := fun r => by
    rw [addTraced, List.mem_append, ← hw, heq, save_mem_compacted_iff happlies]
  constructor
  · change Cached d ((addTraced d s call).1, (addTraced d s call).2)
    rw [hworld]
    exact hadded.of_compacted hredis happlies hlength hcopies hsaves
  · intro p' summary' happlies'
    obtain ⟨rfl, rfl⟩ := happlies.unique happlies'
    have hadd : addStep d s.1 call = (addTraced d s call).1 := rfl
    rw [hadd, hworld]
    refine ⟨hcopies.list, ?_⟩
    rw [hcopies.history]
    rfl

lemma le_effectiveCacheSize (d : Deployment) : d.history.maxSize ≤ effectiveCacheSize d := by
  simp only [effectiveCacheSize]
  split
  · exact le_rfl
  · exact le_max_left _ _

/-- In a run of `add` whose compactions all find their prefix in the cache, both backends hold the
same conversation after every compaction. -/
theorem compaction_copies_agree {d : Deployment} (hredis : d.history.redisEnabled = true)
    (hpostgres : d.history.postgresEnabled = true) (hsize : 1 ≤ d.history.maxSize)
    (hkeep : 1 ≤ d.compaction.keepRecentTurns) (calls : List AddCall)
    (hcached : Along (addTraced d) (PrefixCached d) (World.empty, []) calls) :
    Along (addTraced d) (CopiesAgree d) (World.empty, []) calls := by
  have heff : 1 ≤ effectiveCacheSize d := hsize.trans (le_effectiveCacheSize d)
  have hempty : Cached d (World.empty, []) :=
    ⟨fun _ => (ltrim_nil _ _).symm, fun _ => Nat.zero_le 1, fun _ h => absurd h List.not_mem_nil⟩
  exact along_of_invariant (cached_addTraced hredis hpostgres heff hkeep) hempty hcached

def addAll (messages : List Message) : AddCall where
  conversationId := "c"
  messages := messages
  llm := alwaysGreeting

/-- The clock stands still, and the database happens to read a summary before what it ties with. -/
def compactsTwoInOrder : Deployment :=
  { compactsTwoAtOnce with tie := ⟨fun r => if r.role = "system" then 0 else r.id + 1, fun r => r.id⟩ }

/-- Two compactions of a short conversation. -/
theorem compaction_copies_agree_twice :
    Along (addTraced compactsTwoInOrder) (CopiesAgree compactsTwoInOrder) (World.empty, [])
      [addAll [⟨.user, "hi"⟩, ⟨.assistant, "hello"⟩], addAll [⟨.user, "bye"⟩, ⟨.assistant, "bye"⟩]] := by
  refine compaction_copies_agree rfl rfl (by decide) (by decide)
    [addAll [⟨.user, "hi"⟩, ⟨.assistant, "hello"⟩], addAll [⟨.user, "bye"⟩, ⟨.assistant, "bye"⟩]]
    ⟨fun p summary h => ?_, fun p summary h => ?_, trivial⟩
  · have hcompacts : Compacts compactsTwoInOrder World.empty (addAll [⟨.user, "hi"⟩, ⟨.assistant, "hello"⟩]) 1
        "[Conversation summary] A greeting." := ⟨rfl, rfl, by decide, le_rfl, by decide⟩
    obtain ⟨rfl, rfl⟩ := hcompacts.unique h
    decide
  · have hcompacts : Compacts compactsTwoInOrder
        (addStep compactsTwoInOrder World.empty (addAll [⟨.user, "hi"⟩, ⟨.assistant, "hello"⟩]))
        (addAll [⟨.user, "bye"⟩, ⟨.assistant, "bye"⟩]) 3 "[Conversation summary] A greeting." :=
      ⟨rfl, rfl, by decide, by decide, by decide⟩
    obtain ⟨rfl, rfl⟩ := hcompacts.unique h
    decide

/-- With the shipped properties the twentieth message triggers a compaction of a list that was cut
to the nine oldest ones, and nothing but the summary is left of it. -/
theorem shipped_compaction_empties_cache :
    ¬Along (addTraced Deployment.shipped) (CopiesAgree Deployment.shipped) (World.empty, [])
      [addAll (List.replicate 20 ⟨.user, "hi"⟩)] := by
  intro h
  have hcompacts : Compacts Deployment.shipped World.empty (addAll (List.replicate 20 ⟨.user, "hi"⟩)) 12
      "[Conversation summary] A greeting." :=
    ⟨rfl, rfl, by decide, by decide, by decide⟩
  have hlist := (h.1 _ _ hcompacts).1
  revert hlist
  decide

/-- A history that is longer than the cache always leaves the copies different. -/
theorem copies_disagree_of_long_history {d : Deployment} (hredis : d.history.redisEnabled = true)
    (hsize : 1 ≤ d.history.maxSize) (hkeep : 1 ≤ d.compaction.keepRecentTurns) (s : Traced)
    (call : AddCall) {p : ℕ} {summary : String} (h : Compacts d s.1 call p summary)
    (hlong : effectiveCacheSize d < (historyAt d s.1 call).length)
    (hint : ((historyAt d s.1 call).length : ℤ) < 2 ^ 31) : ¬CopiesAgree d s call := by
  intro hagree
  have heff : 1 ≤ effectiveCacheSize d := hsize.trans (le_effectiveCacheSize d)
  have hlist := congrArg List.length (hagree p summary h).1
  have hlast : lastTurns d (historyAt d s.1 call) = (historyAt d s.1 call).drop p :=
    (drop_computePrefixCount d hkeep hint h.prefixCount h.pos).symm
  have hbounds : p + 1 ≤ (historyAt d s.1 call).length := h.length_bounds.2
  rw [addStep_eq hredis, maybeCompact_of_applies h, redis_compacted hredis, if_pos rfl,
    redis_addMessages d s.1 hredis, ltrim_oldest heff, hlast] at hlist
  simp only [List.length_cons, List.length_drop, List.length_take, List.length_map] at hlist
  omega

end AscendAI.Memory
