import AscendAI.Memory.CacheCoherence
import AscendAI.Memory.ConversationFrame
import AscendAI.Memory.ReadRows

/-!
# Cleared conversations

`clear` deletes the Redis list of a conversation, and nothing else. A later `get` refills the list
from the rows of the table, so a conversation stays cleared exactly when it had no rows.
-/

namespace AscendAI.Memory
open RedisList ProcessPool Runs RowOrder

/-- `clear`: the one command `DEL`, whatever the two toggles are. -/
def clear (w : World) (conversationId : String) : World := w.setRedis (chatKey conversationId) []

def System.clear (s : System) (conversationId : String) : System :=
  ⟨Memory.clear s.shared conversationId, s.procs⟩

lemma next_expire_eq_clear (d : Deployment) (s : System) (conversationId : String) :
    System.next d s (.expire conversationId) = s.clear conversationId := rfl

/-! ### What has been said since -/

/-- The call of `add` behind a process. -/
def Call.origin : Call → Option AddCall
  | .addPush call .. | .addInsert call .. | .addTrim call | .addExpire call | .addDispatch call
  | .compactFind call | .compactSummarise call _ | .compactTransaction call .. | .compactTrim call ..
  | .compactPush call .. | .compactExpire call => some call
  | .getRange .. | .getFind .. | .getPushAll .. | .getExpire .. | .returned _ | .finished => none

/-- The calls of `add` for the conversation among the events. -/
def callsTo (conversationId : String) (events : List Event) : List AddCall :=
  events.filterMap fun
    | .add call => if call.conversationId = conversationId then some call else none
    | _ => none

/-- One of the messages, as `get` returns it, or what a compaction of one of the calls makes of such
messages. -/
inductive SaidIn (d : Deployment) (messages : List Message) (calls : List AddCall) : Message → Prop
  | added {message : Message} (hmessage : message ∈ messages) : SaidIn d messages calls (restored message)
  | summarised {call : AddCall} {body : List ChatHistory} {summary : String} (hcall : call ∈ calls)
      (hbody : body ≠ []) (hrows : ∀ r ∈ body, SaidIn d messages calls (mapToMessage r))
      (hsummary : invokeSummariser d call.llm
        (resolveTarget d call.primaryProvider call.override) body = some summary) :
      SaidIn d messages calls ⟨.system, summary⟩

/-- The messages of the conversation that the calls in flight have yet to store, and those of the later
calls. -/
def messagesSince (conversationId : String) (s : System) (later : List Event) : List Message :=
  s.procs.flatMap (Call.toInsert conversationId) ++
    (callsTo conversationId later).flatMap AddCall.messages

/-- The calls for the conversation that are in flight or come later. -/
def callsSince (conversationId : String) (s : System) (later : List Event) : List AddCall :=
  (s.procs.filterMap Call.origin).filter (fun call => call.conversationId = conversationId) ++
    callsTo conversationId later

def SaidSince (d : Deployment) (conversationId : String) (s : System) (later : List Event) :
    Message → Prop :=
  SaidIn d (messagesSince conversationId s later) (callsSince conversationId s later)

lemma not_saidIn_nil (d : Deployment) (calls : List AddCall) (message : Message) :
    ¬SaidIn d [] calls message := by
  intro h
  induction h with
  | added hmessage => cases hmessage
  | summarised _ hbody _ _ ih =>
    obtain ⟨r, hr⟩ := List.exists_mem_of_ne_nil _ hbody
    exact ih r hr

/-- The conversation, cleared in the state, stays cleared: later it shows nothing but what has been
said since, and every other conversation shows what it would have shown without the `clear`. -/
def StaysCleared (d : Deployment) (conversationId : String) (s : System) : Prop :=
  ∀ later : List Event,
    (∀ (lastN : ℤ) (messages : List Message),
      (get d (run (System.next d) (s.clear conversationId) later).shared conversationId lastN).2 =
        .ok messages → ∀ message ∈ messages, SaidSince d conversationId s later message) ∧
    ∀ other, other ≠ conversationId → ∀ lastN : ℤ,
      (get d (run (System.next d) (s.clear conversationId) later).shared other lastN).2 =
        (get d (run (System.next d) s later).shared other lastN).2

/-! ### Other conversations -/

lemma agreeBut_clear (s : System) (conversationId : String) :
    System.AgreeBut conversationId (s.clear conversationId) s :=
  ⟨AgreeBut.setRedis_self _ _ _, List.forall₂_same.mpr fun _ _ => .inl rfl⟩

/-- Another conversation shows what it would have shown without the `clear`. -/
theorem get_run_clear_of_ne (d : Deployment) (s : System) {conversationId other : String}
    (hother : other ≠ conversationId) (later : List Event) (lastN : ℤ) :
    (get d (run (System.next d) (s.clear conversationId) later).shared other lastN).2 =
      (get d (run (System.next d) s later).shared other lastN).2 := by
  have h : System.AgreeBut conversationId (run (System.next d) (s.clear conversationId) later)
      (run (System.next d) s later) :=
    run_related (R := System.AgreeBut conversationId)
      (fun _ _ event h => System.AgreeBut.next d h event) (agreeBut_clear s conversationId) later
  exact h.shared.get_eq hother lastN

/-! ### The conversation itself -/

/-- Every message that the backends hold of the conversation is a `P`. -/
structure SaysOnly (P : Message → Prop) (conversationId : String) (w : World) : Prop where
  list : ∀ dto ∈ w.redis (chatKey conversationId), P (mapDtoToMessage dto)
  rows : ∀ r ∈ w.table.ofUser conversationId, P (mapToMessage r)

lemma restored_mapToMessage (r : ChatHistory) : restored (mapToMessage r) = mapToMessage r := by
  rw [restored_eq_self_iff, mapToMessage, createMessage]
  repeat' split
  all_goals simp

lemma createMessage_system (content : String) :
    createMessage MessageType.system.getValue content = ⟨.system, content⟩ :=
  restored_eq ⟨.system, content⟩

lemma sliceTail_subset {messages answer : List Message} {lastN : ℤ}
    (h : (sliceTail messages lastN).mapError ServiceException.failedToRetrieve = .ok answer) :
    ∀ message ∈ answer, message ∈ messages := by
  simp only [sliceTail] at h
  split at h
  · cases h
  · obtain rfl := Except.ok.inj h
    exact fun message hmessage => List.mem_of_mem_drop hmessage

namespace SaysOnly

variable {d : Deployment} {P : Message → Prop} {conversationId : String} {w : World}

lemma setRedis (h : SaysOnly P conversationId w) {other : String} {l : List MessageDto}
    (hl : other = conversationId → ∀ dto ∈ l, P (mapDtoToMessage dto)) :
    SaysOnly P conversationId (w.setRedis (chatKey other) l) := by
  refine ⟨?_, h.rows⟩
  by_cases hother : other = conversationId
  · rw [hother, World.redis_setRedis_self]
    exact hl hother
  · have hkey : chatKey conversationId ≠ chatKey other := fun heq => hother (chatKey_injective heq).symm
    rw [World.redis_setRedis_of_ne w hkey]
    exact h.list

/-- A push at either end of a list. -/
lemma push (h : SaysOnly P conversationId w) {other : String} {l : List MessageDto} {dto : MessageDto}
    (hl : ∀ dto' ∈ l, dto' = dto ∨ dto' ∈ w.redis (chatKey other))
    (hdto : other = conversationId → P (mapDtoToMessage dto)) :
    SaysOnly P conversationId (w.setRedis (chatKey other) l) := by
  refine h.setRedis fun hother dto' hdto' => ?_
  rcases hl dto' hdto' with rfl | hold
  · exact hdto hother
  · exact h.list dto' (hother ▸ hold)

lemma trim (h : SaysOnly P conversationId w) (other : String) (start stop : ℤ) :
    SaysOnly P conversationId (w.trim (chatKey other) start stop) :=
  h.setRedis fun hother dto hdto => h.list dto (hother ▸ (ltrim_sublist _ _ _).subset hdto)

lemma saveNow (h : SaysOnly P conversationId w) {other role content : String}
    (hrow : other = conversationId → P (createMessage role content)) :
    SaysOnly P conversationId (w.saveNow d other role content) := by
  refine ⟨h.list, fun r hr => ?_⟩
  rw [World.table_saveNow, ChatHistoryTable.mem_ofUser, ChatHistoryTable.rows_save, List.mem_append,
    List.mem_singleton] at hr
  obtain ⟨hr | rfl, huser⟩ := hr
  · exact h.rows r ((ChatHistoryTable.mem_ofUser _).mpr ⟨hr, huser⟩)
  · exact hrow huser

lemma applyToPostgres (h : SaysOnly P conversationId w) {other : String} (body : List ChatHistory)
    {summary : String} (hsummary : other = conversationId → P ⟨.system, summary⟩) :
    SaysOnly P conversationId (Memory.applyToPostgres d w other body summary).1 := by
  have hrow : other = conversationId → P (createMessage MessageType.system.getValue summary) := by
    rwa [createMessage_system]
  simp only [Memory.applyToPostgres]
  split
  · exact h
  split
  · exact h.saveNow hrow
  · have hdeleted : SaysOnly P conversationId
        { w with table := w.table.deleteAllById (body.map ChatHistory.id) } := by
      refine ⟨h.list, fun r hr => ?_⟩
      obtain ⟨hmem, huser⟩ := (ChatHistoryTable.mem_ofUser _).mp hr
      exact h.rows r ((ChatHistoryTable.mem_ofUser _).mpr ⟨List.mem_of_mem_filter hmem, huser⟩)
    exact hdeleted.saveNow hrow

/-- A `get` shows only what the backends hold. -/
lemma get (h : SaysOnly P conversationId w) {lastN : ℤ} {messages : List Message}
    (hget : (Memory.get d w conversationId lastN).2 = .ok messages) : ∀ message ∈ messages, P message := by
  have hcached : ∀ message ∈ (if d.history.redisEnabled = true
      then loadFromRedis w (chatKey conversationId) else []), P message := by
    intro message hmessage
    split at hmessage
    · rw [loadFromRedis, lrange_all] at hmessage
      obtain ⟨dto, hdto, rfl⟩ := List.mem_map.mp hmessage
      exact h.list dto hdto
    · cases hmessage
  simp only [Memory.get] at hget
  generalize (if d.history.redisEnabled = true then loadFromRedis w (chatKey conversationId) else []) =
    cached at hget hcached
  split at hget
  · obtain rfl := Except.ok.inj hget
    exact fun message hmessage => absurd hmessage List.not_mem_nil
  split at hget
  · exact fun message hmessage => hcached message (sliceTail_subset hget message hmessage)
  split at hget
  · obtain rfl := Except.ok.inj hget
    exact fun message hmessage => absurd hmessage List.not_mem_nil
  split at hget
  · cases hget
  · rename_i hydrated hhydrated
    intro message hmessage
    obtain ⟨r, hr, rfl⟩ := eq_mapToMessage_of_mem_loadFromPostgres hhydrated message
      (sliceTail_subset hget message hmessage)
    exact h.rows r hr

end SaysOnly

section Fresh

variable (d : Deployment) (messages : List Message) (calls : List AddCall) (conversationId : String)

/-- The call, when it is for the conversation, carries nothing but what is said in the messages and the
calls. -/
def Call.Fresh : Call → Prop
  | .getPushAll other _ hydrated => other = conversationId →
    ∀ message ∈ hydrated, SaidIn d messages calls (restored message)
  | .addPush call message rest | .addInsert call message rest => call.conversationId = conversationId →
    call ∈ calls ∧ ∀ m ∈ message :: rest, m ∈ messages
  | .addTrim call | .addExpire call | .addDispatch call | .compactFind call =>
    call.conversationId = conversationId → call ∈ calls
  | .compactSummarise call body => call.conversationId = conversationId →
    call ∈ calls ∧ body ≠ [] ∧ ∀ r ∈ body, SaidIn d messages calls (mapToMessage r)
  | .compactTransaction call _ summary | .compactTrim call _ summary | .compactPush call _ summary =>
    call.conversationId = conversationId → SaidIn d messages calls ⟨.system, summary⟩
  | .getRange .. | .getFind .. | .getExpire .. | .returned _ | .compactExpire _ | .finished => True

structure FreshIn (s : System) : Prop where
  shared : SaysOnly (SaidIn d messages calls) conversationId s.shared
  procs : ∀ c ∈ s.procs, c.Fresh d messages calls conversationId

variable {d messages calls conversationId}

lemma fresh_addNext {call : AddCall} {rest : List Message} (hcall : call.conversationId = conversationId →
    call ∈ calls ∧ ∀ m ∈ rest, m ∈ messages) :
    (addNext call rest).Fresh d messages calls conversationId := by
  cases rest with
  | nil => exact fun h => (hcall h).1
  | cons message rest => exact hcall

lemma take_prefixCount_ne_nil {history : List ChatHistory} {primaryProvider : Option String}
    (h : ¬(decideCompaction d history primaryProvider).shouldSkip = true) :
    history.take (decideCompaction d history primaryProvider).prefixCount.toNat ≠ [] := by
  have hlength := length_take_prefixCount h
  rw [CompactionDecision.shouldSkip, decide_eq_true_eq] at h
  intro hnil
  rw [hnil, List.length_nil] at hlength
  omega

lemma fresh_advance {w : World} (hw : SaysOnly (SaidIn d messages calls) conversationId w) {c : Call}
    (hc : c.Fresh d messages calls conversationId) :
    SaysOnly (SaidIn d messages calls) conversationId (advance d w c).shared ∧
      (advance d w c).next.Fresh d messages calls conversationId ∧
      ∀ c' ∈ (advance d w c).started, c'.Fresh d messages calls conversationId := by
  have hnone : ∀ c' ∈ ([] : List Call), c'.Fresh d messages calls conversationId :=
    fun _ h => absurd h List.not_mem_nil
  cases c with
  | getRange other lastN =>
    simp only [advance]
    generalize (if d.history.redisEnabled = true then _ else _) = cached
    repeat' split
    all_goals exact ⟨hw, trivial, hnone⟩
  | getFind other lastN =>
    simp only [advance]
    split
    · exact ⟨hw, trivial, hnone⟩
    rename_i hydrated hhydrated
    split
    · refine ⟨hw, fun hother message hmessage => ?_, hnone⟩
      obtain ⟨r, hr, rfl⟩ :=
        eq_mapToMessage_of_mem_loadFromPostgres (hother ▸ hhydrated) message hmessage
      rw [restored_mapToMessage]
      exact hw.rows r hr
    · exact ⟨hw, trivial, hnone⟩
  | getPushAll other lastN hydrated =>
    refine ⟨hw.setRedis fun hother dto hdto => ?_, trivial, hnone⟩
    rcases List.mem_append.mp hdto with hold | hnew
    · exact hw.list dto (hother ▸ hold)
    · obtain ⟨message, hmessage, rfl⟩ := List.mem_map.mp hnew
      exact hc hother message hmessage
  | addPush call message rest =>
    refine ⟨?_, hc, hnone⟩
    simp only [advance]
    split
    · refine hw.push (fun dto hdto => ?_) fun hcall => .added ((hc hcall).2 message (List.mem_cons_self ..))
      exact (List.mem_append.mp hdto).symm.imp_left List.mem_singleton.mp
    · exact hw
  | addInsert call message rest =>
    refine ⟨?_, fresh_addNext fun hcall => ?_, hnone⟩
    · simp only [advance]
      split
      · exact hw.saveNow fun hcall => .added ((hc hcall).2 message (List.mem_cons_self ..))
      · exact hw
    · exact (hc hcall).imp_right fun h m hm => h m (List.mem_cons_of_mem _ hm)
  | addTrim call =>
    refine ⟨?_, hc, hnone⟩
    simp only [advance]
    split
    · exact hw.trim _ _ _
    · exact hw
  | addExpire call => exact ⟨hw, hc, hnone⟩
  | addDispatch call =>
    refine ⟨hw, trivial, fun c' hc' => ?_⟩
    rw [List.mem_singleton.mp hc']
    exact hc
  | compactFind call =>
    simp only [advance]
    split
    · exact ⟨hw, trivial, hnone⟩
    split
    · exact ⟨hw, trivial, hnone⟩
    have hrows : call.conversationId = conversationId → ∀ r ∈ (if d.history.postgresEnabled = true
        then w.table.findAllHistoryOrdered d.tie call.conversationId else []),
        SaidIn d messages calls (mapToMessage r) := by
      intro hcall r hr
      split at hr
      · rw [hcall, ChatHistoryTable.mem_findAllHistoryOrdered, ← ChatHistoryTable.mem_ofUser] at hr
        exact hw.rows r hr
      · cases hr
    generalize (if d.history.postgresEnabled = true then _ else _) = history at hrows
    split
    · exact ⟨hw, trivial, hnone⟩
    split
    · exact ⟨hw, trivial, hnone⟩
    rename_i hskip
    refine ⟨hw, fun hcall => ⟨hc hcall, take_prefixCount_ne_nil hskip, fun r hr => ?_⟩, hnone⟩
    exact hrows hcall r (List.mem_of_mem_take hr)
  | compactSummarise call body =>
    simp only [advance]
    split
    · exact ⟨hw, trivial, hnone⟩
    · rename_i summary hsummary
      refine ⟨hw, fun hcall => ?_, hnone⟩
      obtain ⟨hmem, hbody, hrows⟩ := hc hcall
      exact .summarised hmem hbody hrows hsummary
  | compactTransaction call body summary => exact ⟨hw.applyToPostgres body hc, hc, hnone⟩
  | compactTrim call body summary =>
    simp only [advance]
    split
    · exact ⟨hw, trivial, hnone⟩
    · exact ⟨hw.trim _ _ _, hc, hnone⟩
  | compactPush call body summary =>
    refine ⟨hw.push (fun dto hdto => List.mem_cons.mp hdto) fun hcall => ?_, trivial, hnone⟩
    rw [mapDtoToMessage, createMessage_system]
    exact hc hcall
  | _ => exact ⟨hw, trivial, hnone⟩

lemma FreshIn.next {s : System} (h : FreshIn d messages calls conversationId s) {event : Event}
    (hevent : ∀ call ∈ callsTo conversationId [event], call ∈ calls ∧ ∀ m ∈ call.messages, m ∈ messages) :
    FreshIn d messages calls conversationId (System.next d s event) := by
  have hstart : ∀ c : Call, c.Fresh d messages calls conversationId →
      FreshIn d messages calls conversationId (s.start c) := by
    intro c hc
    refine ⟨h.shared, fun c' hc' => ?_⟩
    rcases List.mem_append.mp hc' with hold | hnew
    · exact h.procs c' hold
    · rwa [List.mem_singleton.mp hnew]
  cases event with
  | get other lastN =>
    refine hstart _ ?_
    rw [startGet]
    split
    all_goals trivial
  | add call =>
    refine hstart _ ?_
    rw [startAdd]
    split
    · trivial
    · exact fresh_addNext fun hcall => hevent call (by simp [callsTo, hcall])
  | step i =>
    cases hc : s.procs[i]? with
    | none =>
      rw [System.next, step_of_none hc]
      exact h
    | some c =>
      obtain ⟨hshared, hnext, hstarted⟩ := fresh_advance h.shared (h.procs c (List.mem_of_getElem? hc))
      refine ⟨?_, forall_step hc h.procs hnext hstarted⟩
      rwa [System.next, shared_step _ hc]
  | expire other =>
    refine ⟨h.shared.setRedis fun _ dto hdto => ?_, h.procs⟩
    exact absurd hdto List.not_mem_nil

end Fresh

section Cleared

variable {d : Deployment} {conversationId : String} {s : System}

lemma fresh_of_unread {messages : List Message} {calls : List AddCall} {c : Call}
    (hread : c.readFrom ≠ some conversationId)
    (hcalls : ∀ call, c.origin = some call → call.conversationId = conversationId → call ∈ calls)
    (hmessages : ∀ m ∈ c.toInsert conversationId, m ∈ messages) :
    c.Fresh d messages calls conversationId := by
  cases c with
  | getPushAll other lastN hydrated => exact fun hother => absurd (congrArg some hother) hread
  | addPush call message rest =>
    exact fun hcall => ⟨hcalls call rfl hcall, by simpa only [Call.toInsert, if_pos hcall] using hmessages⟩
  | addInsert call message rest =>
    exact fun hcall => ⟨hcalls call rfl hcall, by simpa only [Call.toInsert, if_pos hcall] using hmessages⟩
  | addTrim call => exact hcalls call rfl
  | addExpire call => exact hcalls call rfl
  | addDispatch call => exact hcalls call rfl
  | compactFind call => exact hcalls call rfl
  | compactSummarise call body => exact fun hcall => absurd (congrArg some hcall) hread
  | compactTransaction call body summary => exact fun hcall => absurd (congrArg some hcall) hread
  | compactTrim call body summary => exact fun hcall => absurd (congrArg some hcall) hread
  | compactPush call body summary => exact fun hcall => absurd (congrArg some hcall) hread
  | _ => trivial

/-- Without rows, nothing that was said before the `clear` is left. -/
lemma freshIn_run_clear (hreads : ReadsTable conversationId s)
    (hrows : s.shared.table.ofUser conversationId = []) (later : List Event) :
    FreshIn d (messagesSince conversationId s later) (callsSince conversationId s later) conversationId
      (run (System.next d) (s.clear conversationId) later) := by
  have hclear : FreshIn d (messagesSince conversationId s later) (callsSince conversationId s later)
      conversationId (s.clear conversationId) := by
    refine ⟨⟨?_, ?_⟩, fun c hc => fresh_of_unread ?_ ?_ ?_⟩
    · rw [System.clear, Memory.clear, World.redis_setRedis_self]
      exact fun dto hdto => absurd hdto List.not_mem_nil
    · rw [System.clear, Memory.clear, World.setRedis, hrows]
      exact fun r hr => absurd hr List.not_mem_nil
    · exact fun hread => hreads.rows c hc hread hrows
    · intro call horigin hcall
      have hmem : call ∈ s.procs.filterMap Call.origin := List.mem_filterMap.mpr ⟨c, hc, horigin⟩
      exact List.mem_append_left _ (List.mem_filter.mpr ⟨hmem, decide_eq_true hcall⟩)
    · exact fun m hm => List.mem_append_left _ (List.mem_flatMap.mpr ⟨c, hc, hm⟩)
  refine run_invariant (fun s event h hevent => h.next hevent) hclear ?_
  refine along_of_forall (fun event hevent _ call hcall => ?_) _
  have hlater : call ∈ callsTo conversationId later := by
    obtain ⟨event', hevent', hsome⟩ := List.mem_filterMap.mp hcall
    rw [List.mem_singleton.mp hevent'] at hsome
    exact List.mem_filterMap.mpr ⟨event, hevent, hsome⟩
  exact ⟨List.mem_append_right _ hlater,
    fun m hm => List.mem_append_right _ (List.mem_flatMap.mpr ⟨call, hlater, hm⟩)⟩

/-- The first `get` after a `clear` reads the newest rows. -/
lemma get_clear (conversationId : String) (hpostgres : d.history.postgresEnabled = true)
    (hsize : 0 < effectiveCacheSize d) (w : World) : ∃ (lastN : ℤ) (hydrated : List Message),
      (get d (clear w conversationId) conversationId lastN).2 = .ok hydrated ∧
        (w.table.ofUser conversationId ≠ [] → hydrated ≠ []) := by
  set hydrated := (((orderBy (InOrder createdAtDesc d.tie.desc) (w.table.ofUser conversationId)).take
    (effectiveCacheSize d).toNat).map mapToMessage).reverse with hdef
  refine ⟨hydrated.length, hydrated, ?_, fun hrows hnil => ?_⟩
  · have hload : loadFromPostgres d (clear w conversationId) conversationId = .ok hydrated := by
      have hpos : ¬effectiveCacheSize d < 0 := by omega
      simp only [loadFromPostgres, ChatHistoryTable.findRecentHistory, hpos, if_false, hdef]
      rfl
    have hcached : loadFromRedis (clear w conversationId) (chatKey conversationId) = [] := by
      rw [loadFromRedis, clear, World.redis_setRedis_self]
      rfl
    have hslice : sliceTail hydrated hydrated.length = .ok hydrated := by
      have hstart : max 0 ((hydrated.length : ℤ) - hydrated.length) = 0 := by omega
      simp only [sliceTail, hstart]
      rw [if_neg (by omega)]
      rfl
    simp only [get, hpostgres, hcached, hload, hslice]
    simp [Except.mapError]
  · obtain ⟨r, hr⟩ := List.exists_mem_of_ne_nil _ hrows
    rw [hdef, List.reverse_eq_nil_iff, List.map_eq_nil_iff, List.take_eq_nil_iff] at hnil
    rcases hnil with hzero | hnone
    · omega
    · have hmem : r ∈ orderBy (InOrder createdAtDesc d.tie.desc) (w.table.ofUser conversationId) :=
        (mem_orderBy _).mpr hr
      rw [hnone] at hmem
      cases hmem

end Cleared

/-- A conversation without rows stays cleared, as every conversation does when Postgres is off. One with
rows does not: the next `get` brings them back. -/
theorem stays_cleared_iff (d : Deployment) (conversationId : String) (before : List Event) :
    let s := run (System.next d) System.empty before
    (d.history.postgresEnabled = false ∨ s.shared.table.ofUser conversationId = [] →
        StaysCleared d conversationId s) ∧
      (0 < effectiveCacheSize d → s.procs.flatMap (Call.toInsert conversationId) = [] →
        StaysCleared d conversationId s →
        d.history.postgresEnabled = false ∨ s.shared.table.ofUser conversationId = []) := by
  intro s
  constructor
  · intro h later
    have hrows : s.shared.table.ofUser conversationId = [] :=
      h.elim (fun hpostgres => ofUser_run_of_disabled hpostgres conversationId before) id
    have hfresh := freshIn_run_clear (d := d) (readsTable_run d conversationId before) hrows later
    exact ⟨fun lastN messages hget => hfresh.shared.get hget,
      fun other hother lastN => get_run_clear_of_ne d s hother later lastN⟩
  · intro hsize hquiet h
    by_contra hnot
    rw [not_or, Bool.not_eq_false] at hnot
    obtain ⟨lastN, hydrated, hget, hne⟩ := get_clear conversationId hnot.1 hsize s.shared
    obtain ⟨message, hmessage⟩ := List.exists_mem_of_ne_nil _ (hne hnot.2)
    have hsaid := (h []).1 lastN hydrated hget message hmessage
    simp only [SaidSince, messagesSince, hquiet] at hsaid
    exact not_saidIn_nil d _ _ hsaid

def redisOnly : Deployment :=
  { Deployment.shipped with history := { Deployment.shipped.history with postgresEnabled := false } }

/-- A first message, stored by both backends. -/
def helloFrom (conversationId : String) : List Event :=
  .add ⟨conversationId, [⟨.user, "Hello"⟩], none, none, fun _ _ => none⟩ :: stepsOf 0 5

theorem stays_cleared_redis_only :
    StaysCleared redisOnly "user" (run (System.next redisOnly) System.empty (helloFrom "user")) :=
  (stays_cleared_iff redisOnly "user" (helloFrom "user")).1 (.inl rfl)

/-- With the shipped properties the message outlives the `clear`. -/
theorem cleared_message_comes_back :
    (get Deployment.shipped ((run (System.next Deployment.shipped) System.empty
        (helloFrom "user")).clear "user").shared "user" (effectiveCacheSize Deployment.shipped)).2 =
      .ok [⟨.user, "Hello"⟩] ∧
    ¬StaysCleared Deployment.shipped "user"
      (run (System.next Deployment.shipped) System.empty (helloFrom "user")) := by
  have hget : (get Deployment.shipped ((run (System.next Deployment.shipped) System.empty
      (helloFrom "user")).clear "user").shared "user" (effectiveCacheSize Deployment.shipped)).2 =
      .ok [⟨.user, "Hello"⟩] := by
    decide +kernel
  refine ⟨hget, fun h => ?_⟩
  have hsaid := (h []).1 _ _ hget _ (List.mem_singleton_self _)
  have hnone : messagesSince "user" (run (System.next Deployment.shipped) System.empty
      (helloFrom "user")) [] = [] := by
    decide +kernel
  rw [SaidSince, hnone] at hsaid
  exact not_saidIn_nil _ _ _ hsaid

end AscendAI.Memory
