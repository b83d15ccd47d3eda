import AscendAI.Chat.AscendChatService
import AscendAI.Provider.DefaultProvider

/-!
# The conversations of the users

Whatever the order in which the turns, compactions and expiries of all users come, what is stored for a user and how
the turns of that user end is a run of the events of that user over one conversation of its own. Of such a run it
is then shown what a conversation holds and what the model is told of it.
-/

namespace AscendAI.Chat
open Memory Runs ListWindow RedisList

/-! ### Two memories that do the same -/

section Simulation

variable {M M' : Type}

/-- `f` takes the one memory to the other, and the operations with it, from the states where `Inv` holds. -/
structure Simulates (ops : MemoryOps M) (ops' : MemoryOps M') (f : M → M') (Inv : M → Prop) : Prop where
  get : ∀ m, Inv m → (f (ops.get m).1, (ops.get m).2) = ops'.get (f m)
  add : ∀ m messages, Inv m → f (ops.add m messages) = ops'.add (f m) messages
  compact : ∀ m llm primaryProvider override, Inv m →
    f (ops.compact m llm primaryProvider override) = ops'.compact (f m) llm primaryProvider override
  expire : ∀ m, Inv m → f (ops.expire m) = ops'.expire (f m)

/-- Every operation leads to a related state. -/
structure MemoryOps.Within (ops : MemoryOps M) (R : M → M → Prop) : Prop where
  refl : ∀ m, R m m
  get : ∀ m, R m (ops.get m).1
  add : ∀ m messages, R m (ops.add m messages)
  compact : ∀ m llm primaryProvider override, R m (ops.compact m llm primaryProvider override)
  expire : ∀ m, R m (ops.expire m)

variable {cfg : ChatConfig} {ops : MemoryOps M} {ops' : MemoryOps M'} {f : M → M'} {Inv : M → Prop}

lemma beginTurn_simulates (h : Simulates ops ops' f Inv) {m : M} (hm : Inv m) (session : Session)
    (request : PromptRequest) (services : TurnServices) :
    (f (beginTurn cfg ops m session request services).1, (beginTurn cfg ops m session request services).2) =
      beginTurn cfg ops' (f m) session request services := by
  have hget := h.get m hm
  unfold beginTurn
  cases rejection cfg request with
  | error e => rfl
  | ok answer =>
    cases answer with
    | some answer => rfl
    | none =>
      cases assemble cfg services request with
      | error e => rfl
      | ok assembled =>
        simp only [← hget]
        cases (ops.get m).2 with
        | error e => rfl
        | ok history => rfl

lemma endTurn_simulates (h : Simulates ops ops' f Inv) {m : M} (hm : Inv m) (session : Session) (i : ℕ)
    (turn : InFlight) (llm : ℕ → ModelCall → Except Thrown (Option ChatResponse)) :
    (f (endTurn cfg ops m session i turn llm).1, (endTurn cfg ops m session i turn llm).2) =
      endTurn cfg ops' (f m) session i turn llm := by
  simp only [endTurn]
  cases (execute cfg.agent turn.question llm).result with
  | error e => rfl
  | ok response => simp only [h.add m _ hm]

lemma sessionStep_simulates (h : Simulates ops ops' f Inv) {m : M} (hm : Inv m) (session : Session) (event : Event) :
    (f (sessionStep cfg ops (m, session) event).1, (sessionStep cfg ops (m, session) event).2) =
      sessionStep cfg ops' (f m, session) event := by
  cases event with
  | prompt request services => exact beginTurn_simulates h hm session request services
  | answer userId i llm =>
    simp only [sessionStep]
    cases session.turns[i]?.join with
    | none => rfl
    | some turn => exact endTurn_simulates h hm session i turn llm
  | compact userId i llm =>
    simp only [sessionStep]
    cases session.compactions[i]?.join with
    | none => rfl
    | some compaction => simp only [h.compact m _ _ _ hm]
  | expire userId => simp only [sessionStep, h.expire m hm]

lemma sessionStep_within {R : M → M → Prop} (h : ops.Within R) (m : M) (session : Session) (event : Event) :
    R m (sessionStep cfg ops (m, session) event).1 := by
  cases event with
  | prompt request services =>
    simp only [sessionStep, beginTurn]
    cases rejection cfg request with
    | error e => exact h.refl m
    | ok answer =>
      cases answer with
      | some answer => exact h.refl m
      | none =>
        cases assemble cfg services request with
        | error e => exact h.refl m
        | ok assembled =>
          simp only
          cases (ops.get m).2 with
          | error e => exact h.get m
          | ok history => exact h.get m
  | answer userId i llm =>
    simp only [sessionStep]
    cases session.turns[i]?.join with
    | none => exact h.refl m
    | some turn =>
      simp only [endTurn]
      cases (execute cfg.agent turn.question llm).result with
      | error e => exact h.refl m
      | ok response => exact h.add m _
  | compact userId i llm =>
    simp only [sessionStep]
    cases session.compactions[i]?.join with
    | none => exact h.refl m
    | some compaction => exact h.compact m _ _ _
  | expire userId => exact h.expire m

end Simulation

/-! ### Each user alone -/

section Users

variable {d : Deployment}

lemma worldOps_simulates (userId : String) :
    Simulates (worldOps d userId) (conversationOps d) (conversation userId) (Stamped d) where
  get _ h := get_conversation h 100
  add _ messages _ := addMessages_conversation messages
  compact _ llm primaryProvider override h := maybeCompact_conversation h llm primaryProvider override
  expire _ _ := conversation_setRedis []

lemma worldOps_stamped (hclock : StrictMono d.now) (userId : String) :
    (worldOps d userId).Within fun w w' => Stamped d w → Stamped d w' where
  refl _ h := h
  get _ h := stamped_get h 100
  add _ messages h := stamped_addMessages hclock h messages
  compact _ llm primaryProvider override h := stamped_maybeCompact hclock h llm.summariser primaryProvider override
  expire _ h := h.setRedis _ _

lemma worldOps_others {userId other : String} (hne : other ≠ userId) :
    (worldOps d userId).Within fun w w' => Stamped d w → conversation other w' = conversation other w where
  refl _ _ := rfl
  get _ _ := get_of_ne hne 100
  add _ messages _ := addMessages_of_ne hne messages
  compact _ llm primaryProvider override h := maybeCompact_of_ne hne h llm.summariser primaryProvider override
  expire w _ := conversation_setRedis_of_ne hne w []

/-- The conversation of a user and the turns of that user. -/
def ChatState.ofUser (userId : String) (s : ChatState) : Conversation × Session :=
  (conversation userId s.world, s.sessions userId)

lemma chat_keyed (cfg : ChatConfig) (hclock : StrictMono cfg.deployment.now) :
    Keyed (ChatState.next cfg) (Event.userId cfg) ChatState.ofUser
      (fun _ => sessionStep cfg (conversationOps cfg.deployment)) (fun s => Stamped cfg.deployment s.world) where
  inv s event hs := sessionStep_within (worldOps_stamped hclock _) s.world _ event hs
  self s event hs := by
    rw [ChatState.ofUser, ChatState.next]
    simp only [Function.update_self]
    exact sessionStep_simulates (worldOps_simulates _) hs _ event
  other s event userId hs hne := by
    rw [ChatState.ofUser, ChatState.next]
    simp only [Function.update_of_ne hne.symm]
    rw [sessionStep_within (worldOps_others hne.symm) s.world _ event hs]
    rfl

/-- The conversation and the turns of a user after a run, from the events of that user. -/
lemma ofUser_run (cfg : ChatConfig) (hclock : StrictMono cfg.deployment.now) (events : List Event) (userId : String) :
    (run (ChatState.next cfg) .empty events).ofUser userId =
      run (sessionStep cfg (conversationOps cfg.deployment)) (.empty, .empty)
        (ofKey (Event.userId cfg) userId events) :=
  (chat_keyed cfg hclock).view_run (stamped_empty cfg.deployment) userId events

end Users

/-! ### What the model is told -/

/-- The messages that the turns of a user have stored, in the order of time. -/
def Session.told (session : Session) : List Message := session.outcomes.flatMap Outcome.stored

lemma Session.messageType_of_mem_told {session : Session} {message : Message} (h : message ∈ session.told) :
    message.messageType ≠ .tool := by
  obtain ⟨outcome, -, hmessage⟩ := List.mem_flatMap.mp h
  cases outcome with
  | rejected answer => cases hmessage
  | failed e => cases hmessage
  | asked question executed served =>
    rw [Outcome.stored] at hmessage
    cases hresult : executed.result with
    | error e =>
      rw [hresult] at hmessage
      cases hmessage
    | ok response =>
      rw [hresult] at hmessage
      rcases List.mem_pair.mp hmessage with rfl | rfl
      · exact MessageType.noConfusion
      · exact MessageType.noConfusion

lemma map_restored_told {session : Session} {messages : List Message} (h : messages <:+: session.told) :
    (messages.map toDto).map mapDtoToMessage = messages := by
  rw [List.map_map]
  refine (List.map_congr_left fun message hmessage => ?_).trans (List.map_id messages)
  exact (restored_eq_self_iff message).mpr (Session.messageType_of_mem_told (h.subset hmessage))

/-- What an event does to a memory and to what has been told. -/
inductive Change {M : Type} (ops : MemoryOps M) (m : M) (told : List Message) : Event → M → List Message → Prop where
  | nothing (event : Event) : Change ops m told event m told
  | get (event : Event) : Change ops m told event (ops.get m).1 told
  | add (event : Event) (messages : List Message) : Change ops m told event (ops.add m messages) (told ++ messages)
  | compact (event : Event) (llm : Transcriber) (primaryProvider : Option String)
    (override : Option CompactionOverride) : Change ops m told event (ops.compact m llm primaryProvider override) told
  | expire (userId : String) : Change ops m told (.expire userId) (ops.expire m) told

lemma change_sessionStep {M : Type} (cfg : ChatConfig) (ops : MemoryOps M) (m : M) (session : Session) (event : Event) :
    Change ops m session.told event (sessionStep cfg ops (m, session) event).1
      (sessionStep cfg ops (m, session) event).2.told := by
  have hsame : ∀ outcome : Outcome, outcome.stored = [] →
      ({ session with outcomes := session.outcomes ++ [outcome] } : Session).told = session.told := by
    intro outcome houtcome
    simp only [Session.told, List.flatMap_append, List.flatMap_singleton, houtcome, List.append_nil]
  cases event with
  | prompt request services =>
    simp only [sessionStep, beginTurn]
    cases rejection cfg request with
    | error e =>
      rw [hsame _ rfl]
      exact .nothing _
    | ok answer =>
      cases answer with
      | some answer =>
        rw [hsame _ rfl]
        exact .nothing _
      | none =>
        cases assemble cfg services request with
        | error e =>
          simp only
          rw [hsame _ rfl]
          exact .nothing _
        | ok assembled =>
          simp only
          cases (ops.get m).2 with
          | error e =>
            simp only
            rw [hsame _ rfl]
            exact .get _
          | ok history => exact .get _
  | answer userId i llm =>
    simp only [sessionStep]
    cases session.turns[i]?.join with
    | none => exact .nothing _
    | some turn =>
      simp only [endTurn]
      cases hresult : (execute cfg.agent turn.question llm).result with
      | error e =>
        have htold : Session.told { session with
            turns := session.turns.set i none
            outcomes := session.outcomes ++
              [.asked turn.question (execute cfg.agent turn.question llm) (.error e)] } = session.told := by
          have hstored :
              (Outcome.asked turn.question (execute cfg.agent turn.question llm) (.error e)).stored = [] := by
            rw [Outcome.stored, hresult]
            rfl
          exact hsame _ hstored
        simp only
        rw [htold]
        exact .nothing _
      | ok response =>
        have htold : Session.told {
            turns := session.turns.set i none
            compactions := session.compactions ++ [some {
              primaryProvider := some (Provider.resolvedPrimaryProvider cfg.agent.cfg turn.request.provider)
              override := ⟨turn.request.compactionProvider, turn.request.compactionModel⟩ }]
            outcomes := session.outcomes ++
              [.asked turn.question (execute cfg.agent turn.question llm) (serve turn response)] } =
            session.told ++ exchange turn.question response := by
          simp only [Session.told, List.flatMap_append, List.flatMap_singleton, Outcome.stored, hresult]
          rfl
        simp only
        rw [htold]
        exact .add _ _
  | compact userId i llm =>
    simp only [sessionStep]
    cases session.compactions[i]?.join with
    | none => exact .nothing _
    | some compaction => exact .compact _ _ _ _
  | expire userId => exact .expire userId

section History

variable {d : Deployment}

/-- A conversation has the messages that were told, and the list of Redis a piece of them: the newest ones, or as many
as it may hold. -/
structure Kept (d : Deployment) (told cached : List Message) (c : Conversation) : Prop where
  stored : c.stored = told.map toDto
  list : c.cached = cached.map toDto
  piece : cached <:+ told ∧ cached.length ≤ d.history.maxSize.toNat ∨
    cached <:+: told ∧ cached.length = d.history.maxSize.toNat
  off : d.history.redisEnabled = false → cached = []

lemma Kept.piece_told {told cached : List Message} {c : Conversation} (h : Kept d told cached c) : cached <:+: told :=
  h.piece.elim (fun h => h.1.isInfix) (fun h => h.1)

lemma Kept.length_le {told cached : List Message} {c : Conversation} (h : Kept d told cached c) :
    cached.length ≤ d.history.maxSize.toNat :=
  h.piece.elim (fun h => h.2) (fun h => h.2.le)

variable (hcompaction : d.compaction.enabled = false) (hpostgres : d.history.postgresEnabled = true)
  (hsize : 1 ≤ d.history.maxSize)
include hcompaction hpostgres hsize

/-- What is loaded, and what the list holds then. -/
lemma Kept.get {session : Session} {cached : List Message} {c : Conversation} (h : Kept d session.told cached c) :
    ∃ history cached', (c.get d 100).2 = .ok history ∧ Kept d session.told cached' (c.get d 100).1 ∧
      history = newest 100 (if cached = [] then newest d.history.maxSize.toNat session.told else cached) ∧
      (cached ≠ [] ∨ session.told = [] → cached' = cached) := by
  have hslice : ∀ messages, (sliceTail messages 100).mapError ServiceException.failedToRetrieve =
      .ok (newest 100 messages) := fun messages => by
    rw [show (100 : ℤ) = ((100 : ℕ) : ℤ) from rfl, sliceTail_natCast]
    rfl
  have hcached : (if d.history.redisEnabled then c.cached.map mapDtoToMessage else []) = cached := by
    cases hredis : d.history.redisEnabled with
    | false => rw [h.off hredis]; rfl
    | true => rw [if_pos rfl, h.list, map_restored_told h.piece_told]
  have hloaded : c.loadFromPostgres d = .ok (newest d.history.maxSize.toNat session.told) := by
    rw [Conversation.loadFromPostgres, effectiveCacheSize_disabled hcompaction, if_neg (by omega), h.stored,
      newest_map, map_restored_told (List.infix_refl _)]
  simp only [Conversation.get, hpostgres, Bool.not_true, Bool.and_false, Bool.false_eq_true, if_false, hcached, hloaded,
    hslice]
  by_cases hnil : cached = []
  swap
  · have hne : (!cached.isEmpty) = true := by simpa using hnil
    simp only [hne, if_true, if_neg hnil]
    exact ⟨_, cached, rfl, h, rfl, fun _ => rfl⟩
  subst hnil
  simp only [List.isEmpty_nil, Bool.not_true, Bool.false_eq_true, if_false, if_true]
  by_cases hrefill : (d.history.redisEnabled && !(newest d.history.maxSize.toNat session.told).isEmpty) = true
  · have hredis := (Bool.and_eq_true_iff.mp hrefill).1
    refine ⟨_, newest d.history.maxSize.toNat session.told, rfl, ⟨?_, ?_, .inl ⟨newest_suffix _ _, ?_⟩, ?_⟩, rfl, ?_⟩
    · rw [if_pos hrefill]
      exact h.stored
    · rw [if_pos hrefill, h.list]
      rfl
    · rw [length_newest]
      exact Nat.min_le_left _ _
    · intro hoff
      rw [hredis] at hoff
      cases hoff
    · rintro (hne | htold)
      · exact absurd rfl hne
      · rw [htold, newest_nil]
  · rw [if_neg hrefill]
    exact ⟨_, [], rfl, h, rfl, fun _ => rfl⟩

lemma Kept.add {told cached : List Message} {c : Conversation} (h : Kept d told cached c) (messages : List Message) :
    Kept d (told ++ messages)
      (if d.history.redisEnabled then (cached ++ messages).take d.history.maxSize.toNat else [])
      (c.add d messages) := by
  refine ⟨?_, ?_, ?_, fun hoff => by rw [hoff]; rfl⟩
  · rw [Conversation.add, hpostgres, if_pos rfl, h.stored, List.map_append]
  · rw [Conversation.add, effectiveCacheSize_disabled hcompaction, ltrim_oldest hsize, h.list]
    cases hredis : d.history.redisEnabled with
    | false => rw [h.off hredis]; rfl
    | true => simp only [if_true, ← List.map_append, ← List.map_take]
  · cases hredis : d.history.redisEnabled with
    | false => exact .inl ⟨List.nil_suffix, Nat.zero_le _⟩
    | true =>
      simp only [if_true, List.length_take]
      rcases h.piece with ⟨hsuffix, hlength⟩ | ⟨hpiece, hlength⟩
      · have hall : cached ++ messages <:+ told ++ messages := by
          obtain ⟨older, rfl⟩ := hsuffix
          exact ⟨older, (List.append_assoc ..).symm⟩
        by_cases hfits : (cached ++ messages).length ≤ d.history.maxSize.toNat
        · rw [List.take_of_length_le hfits]
          exact .inl ⟨hall, by omega⟩
        · exact .inr ⟨(List.take_prefix _ _).isInfix.trans hall.isInfix, by omega⟩
      · rw [List.take_append_of_le_length (by omega), List.take_of_length_le (by omega), List.length_append]
        exact .inr ⟨hpiece.trans (List.prefix_append _ _).isInfix, by omega⟩

omit hpostgres hsize in
lemma compact_disabled (c : Conversation) (llm : Transcriber) (primaryProvider : Option String)
    (override : Option CompactionOverride) : c.compact d llm primaryProvider override = c := by
  simp [Conversation.compact, hcompaction]

/-- Every event keeps the conversation; the list changes by an exchange, when it is filled again or when it expires. -/
lemma Kept.step (cfg : ChatConfig) {session : Session} {cached : List Message} {c : Conversation}
    (h : Kept d session.told cached c) (event : Event) :
    let state := sessionStep cfg (conversationOps d) (c, session) event
    ∃ cached', Kept d state.2.told cached' state.1 ∧
      (d.history.redisEnabled = true → cached = session.told.take d.history.maxSize.toNat →
        (∀ userId, event ≠ .expire userId) → cached' = state.2.told.take d.history.maxSize.toNat) := by
  have hchange := change_sessionStep cfg (conversationOps d) c session event
  generalize hstate : sessionStep cfg (conversationOps d) (c, session) event = state at hchange
  obtain ⟨c', session'⟩ := state
  simp only at hchange ⊢
  generalize session'.told = told' at hchange
  cases hchange with
  | nothing => exact ⟨cached, h, fun _ holdest _ => holdest⟩
  | get =>
    obtain ⟨history, cached', -, hkept, -, hsame⟩ := h.get hcompaction hpostgres hsize
    refine ⟨cached', hkept, fun _ holdest _ => (hsame ?_).trans holdest⟩
    by_cases hnil : cached = []
    · rw [holdest, List.take_eq_nil_iff] at hnil
      exact .inr (hnil.resolve_left (by omega))
    · exact .inl hnil
  | add _ messages =>
    refine ⟨_, h.add hcompaction hpostgres hsize messages, fun hredis holdest _ => ?_⟩
    rw [if_pos hredis, holdest, take_take_append]
  | compact _ llm primaryProvider override =>
    refine ⟨cached, ?_, fun _ holdest _ => holdest⟩
    have hsame : (conversationOps d).compact c llm primaryProvider override = c :=
      compact_disabled hcompaction c llm primaryProvider override
    rw [hsame]
    exact h
  | expire userId =>
    refine ⟨[], ⟨h.stored, rfl, .inl ⟨List.nil_suffix, Nat.zero_le _⟩, fun _ => rfl⟩, fun _ _ hevent => ?_⟩
    exact absurd rfl (hevent userId)

lemma kept_run (cfg : ChatConfig) (events : List Event) :
    let state := run (sessionStep cfg (conversationOps d)) (.empty, .empty) events
    ∃ cached, Kept d state.2.told cached state.1 ∧
      (d.history.redisEnabled = true → (∀ event ∈ events, ∀ userId, event ≠ .expire userId) →
        cached = state.2.told.take d.history.maxSize.toNat) := by
  suffices hrun : ∀ (c : Conversation) (session : Session) (cached : List Message), Kept d session.told cached c →
      let state := run (sessionStep cfg (conversationOps d)) (c, session) events
      ∃ cached', Kept d state.2.told cached' state.1 ∧
        (d.history.redisEnabled = true → cached = session.told.take d.history.maxSize.toNat →
          (∀ event ∈ events, ∀ userId, event ≠ .expire userId) →
            cached' = state.2.told.take d.history.maxSize.toNat) by
    obtain ⟨cached, hkept, holdest⟩ :=
      hrun .empty .empty [] ⟨rfl, rfl, .inl ⟨List.nil_suffix, Nat.zero_le _⟩, fun _ => rfl⟩
    exact ⟨cached, hkept, fun hredis hevents => holdest hredis List.take_nil.symm hevents⟩
  induction events with
  | nil => exact fun c session cached h => ⟨cached, h, fun _ holdest _ => holdest⟩
  | cons event events ih =>
    intro c session cached h
    obtain ⟨cached', hkept, hstep⟩ := h.step hcompaction hpostgres hsize cfg event
    obtain ⟨cached'', hkept', hrest⟩ := ih _ _ _ hkept
    refine ⟨cached'', hkept', fun hredis holdest hevents => ?_⟩
    rw [List.forall_mem_cons] at hevents
    exact hrest hredis (hstep hredis holdest hevents.1) hevents.2

end History

/-! ### What is answered -/

/-- A response over HTTP is one whose exchange has been stored. -/
def Outcome.Sound (outcome : Outcome) : Prop :=
  ∀ served, outcome.answer = .ok served → ∃ question, outcome.stored = exchange question served.response

lemma sound_rejected (answer : ApiError) : (Outcome.rejected answer).Sound := fun _ h => nomatch h

lemma sound_failed (e : Thrown) : (Outcome.failed e).Sound := fun _ h => nomatch h

lemma response_of_serve {turn : InFlight} {response : AiResponse} {served : ServedResponse}
    (h : serve turn response = .ok served) : served.response = response := by
  rw [serve] at h
  split at h
  · split at h
    · cases hfiles : turn.services.presignAll turn.userMessage.sources with
      | error e =>
        rw [hfiles] at h
        cases h
      | ok files =>
        rw [hfiles] at h
        rw [← Except.ok.inj h]
    · rw [← Except.ok.inj h]
  · rw [← Except.ok.inj h]

lemma sound_asked (turn : InFlight) {executed : Executed} {response : AiResponse}
    (hresult : executed.result = .ok response) :
    (Outcome.asked turn.question executed (serve turn response)).Sound := by
  intro served hanswer
  rw [Outcome.answer] at hanswer
  cases hserve : serve turn response with
  | error e =>
    rw [hserve] at hanswer
    cases hanswer
  | ok served' =>
    rw [hserve] at hanswer
    obtain rfl := Except.ok.inj hanswer
    refine ⟨turn.question, ?_⟩
    rw [Outcome.stored, hresult, response_of_serve hserve]
    rfl

lemma outcomes_sessionStep {M : Type} (cfg : ChatConfig) (ops : MemoryOps M) (m : M) (session : Session)
    (event : Event) (h : ∀ outcome ∈ session.outcomes, outcome.Sound) :
    ∀ outcome ∈ (sessionStep cfg ops (m, session) event).2.outcomes, outcome.Sound := by
  have hmore : ∀ outcome : Outcome, outcome.Sound → ∀ other ∈ session.outcomes ++ [outcome], other.Sound := by
    intro outcome houtcome other hother
    rcases List.mem_append.mp hother with hold | hnew
    · exact h other hold
    · rwa [List.mem_singleton.mp hnew]
  cases event with
  | prompt request services =>
    simp only [sessionStep, beginTurn]
    cases rejection cfg request with
    | error e => exact hmore _ (sound_failed e)
    | ok answer =>
      cases answer with
      | some answer => exact hmore _ (sound_rejected answer)
      | none =>
        cases assemble cfg services request with
        | error e => exact hmore _ (sound_failed e)
        | ok assembled =>
          simp only
          cases (ops.get m).2 with
          | error e => exact hmore _ (sound_failed _)
          | ok history => exact h
  | answer userId i llm =>
    simp only [sessionStep]
    cases session.turns[i]?.join with
    | none => exact h
    | some turn =>
      simp only [endTurn]
      cases hresult : (execute cfg.agent turn.question llm).result with
      | error e => exact hmore _ fun _ hanswer => nomatch hanswer
      | ok response => exact hmore _ (sound_asked turn hresult)
  | compact userId i llm =>
    simp only [sessionStep]
    cases session.compactions[i]?.join with
    | none => exact h
    | some compaction => exact h
  | expire userId => exact h

/-- The shipped memory without compaction, behind OpenAI and the local globs. -/
def openAiChat : ChatConfig where
  agent := ⟨Provider.openAiByDefault, some⟩
  vision := Provider.VisionCapabilityResolver.localVision
  deployment := uncompacted
  baseSystemPrompt := "You are AscendAI."
  searchLimit := 10
  defaultUserId := "user1"

def silentServices : TurnServices where
  getInstructions _ := .ok none
  search _ _ _ _ := .ok (some [])
  routeAndProcess _ _ _ := .ok []
  retrieve _ _ := .skipped
  decode _ := ""
  presignAll _ := .ok []

def openAiPrompt (userId prompt : String) : PromptRequest :=
  ⟨prompt, none, none, some "openai", none, some "openai", none, none, none, some userId⟩

/-- Two users ask, and the second one is answered first. -/
def overlappingTurns : List Event :=
  [.prompt (openAiPrompt "frosty" "a") silentServices, .prompt (openAiPrompt "sunny" "b") silentServices,
    .answer "sunny" 0 (fun _ _ => .ok (some ⟨some [some ⟨some "d", []⟩]⟩)),
    .answer "frosty" 0 (fun _ _ => .ok (some ⟨some [some ⟨some "c", []⟩]⟩))]

example : ((run (ChatState.next openAiChat) .empty overlappingTurns).sessions "frosty").told =
    [⟨.user, "a"⟩, ⟨.assistant, "c"⟩] := by decide +kernel

end AscendAI.Chat
