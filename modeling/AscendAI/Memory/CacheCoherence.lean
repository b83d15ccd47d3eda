import AscendAI.Memory.ChatSystem

/-!
# The cache and the table under overlapping calls

With compaction disabled the Redis list is either absent or the stored conversation followed by
the messages that calls in flight have pushed and not inserted yet. Three commands can break this:
a push that creates the list anew beside stored messages, an insert out of the order of the pushes,
and a hydration whose rows are no longer all there is.
-/

namespace AscendAI.Memory
open RedisList ProcessPool Runs RowOrder

def System.list (s : System) (conversationId : String) : List MessageDto :=
  s.shared.redis (chatKey conversationId)

def System.stored (d : Deployment) (s : System) (conversationId : String) : List MessageDto :=
  (s.shared.table.findAllHistoryOrdered d.tie conversationId).map ChatHistory.toDto

/-- The list is absent, or it is the stored conversation. -/
def Coherent (d : Deployment) (conversationId : String) (s : System) : Prop :=
  s.list conversationId = [] ∨ s.list conversationId = s.stored d conversationId

instance (d : Deployment) (conversationId : String) (s : System) :
    Decidable (Coherent d conversationId s) := inferInstanceAs (Decidable (_ ∨ _))

/-- The message that the call has pushed and not inserted yet. -/
def Call.pushed (conversationId : String) : Call → List MessageDto
  | .addInsert call message _ => if call.conversationId = conversationId then [toDto message] else []
  | _ => []

/-- The messages that the call has yet to insert. -/
def Call.toInsert (conversationId : String) : Call → List Message
  | .addPush call message messages =>
    if call.conversationId = conversationId then message :: messages else []
  | .addInsert call message messages =>
    if call.conversationId = conversationId then message :: messages else []
  | _ => []

def System.pending (s : System) (conversationId : String) : List MessageDto :=
  s.procs.flatMap (Call.pushed conversationId)

def System.total (s : System) (conversationId : String) : ℕ :=
  (s.shared.table.ofUser conversationId).length +
    (s.procs.flatMap (Call.toInsert conversationId)).length

/-- The conversation does not outgrow the cache. -/
def Fits (d : Deployment) (conversationId : String) (s : System) : Event → Prop
  | .add call => call.conversationId = conversationId →
    (s.total conversationId + call.messages.length : ℤ) ≤ d.history.maxSize
  | _ => True

/-- The next command of the call does not race with an expiry or with another call. -/
def Call.Safe (d : Deployment) (conversationId : String) (s : System) : Call → Prop
  | .addPush call _ _ => call.conversationId = conversationId → s.list conversationId = [] →
    s.stored d conversationId = [] ∧ s.pending conversationId = []
  | .addInsert call message _ => call.conversationId = conversationId →
    s.list conversationId = [] ∨
      (s.stored d conversationId ++ [toDto message] <+: s.list conversationId ∧
        ∀ r ∈ s.shared.table.ofUser conversationId, InOrder createdAtAsc d.tie.asc r
          (s.shared.table.newRow conversationId message.messageType.getValue message.text
            (d.now s.shared.readings)))
  | .getPushAll other _ hydrated => other = conversationId →
    s.list conversationId = [] ∧ hydrated.map toDto = s.stored d conversationId ∧
      s.pending conversationId = []
  | _ => True

def RaceFree (d : Deployment) (conversationId : String) (s : System) : Event → Prop
  | .step i => ∀ c ∈ s.procs[i]?, c.Safe d conversationId s
  | _ => True

instance (d : Deployment) (conversationId : String) (s : System) :
    (event : Event) → Decidable (Fits d conversationId s event)
  | .add _ => inferInstanceAs (Decidable (_ → _))
  | .get .. | .step _ | .expire _ => .isTrue trivial

instance (d : Deployment) (conversationId : String) (s : System) :
    (c : Call) → Decidable (c.Safe d conversationId s)
  | .addPush .. | .addInsert .. | .getPushAll .. => inferInstanceAs (Decidable (_ → _))
  | .getRange .. | .getFind .. | .getExpire .. | .returned _ | .addTrim _ | .addExpire _ | .addDispatch _
  | .compactFind _ | .compactSummarise .. | .compactTransaction .. | .compactTrim .. | .compactPush ..
  | .compactExpire _ | .finished => .isTrue trivial

instance (d : Deployment) (conversationId : String) (s : System) :
    (event : Event) → Decidable (RaceFree d conversationId s event)
  | .step _ => inferInstanceAs (Decidable (∀ c ∈ _, _))
  | .get .. | .add _ | .expire _ => .isTrue trivial

def Call.isCompaction : Call → Bool
  | .compactSummarise .. => true
  | .compactTransaction .. => true
  | .compactTrim .. => true
  | .compactPush .. => true
  | .compactExpire .. => true
  | _ => false

/-- The invariant of the runs of `get` and `add` without compaction. -/
structure CacheInvariant (d : Deployment) (conversationId : String) (s : System) : Prop where
  list : s.list conversationId = [] ∨ ∃ later,
    s.list conversationId = s.stored d conversationId ++ later ∧ later.Perm (s.pending conversationId)
  total : (s.total conversationId : ℤ) ≤ d.history.maxSize
  noCompaction : ∀ c ∈ s.procs, c.isCompaction = false

section AddNext

variable (conversationId : String) (call : AddCall) (messages : List Message)

@[simp] lemma pushed_addNext : (addNext call messages).pushed conversationId = [] := by
  cases messages <;> rfl

@[simp] lemma toInsert_addNext : (addNext call messages).toInsert conversationId =
    if call.conversationId = conversationId then messages else [] := by
  cases messages <;> simp [addNext, Call.toInsert]

@[simp] lemma isCompaction_addNext : (addNext call messages).isCompaction = false := by
  cases messages <;> rfl

end AddNext

/-! ### One step -/

section Step

variable {d : Deployment} {conversationId : String} {s : System} {i : ℕ} {c : Call}

lemma flatMap_next {β : Type} {f : Call → List β} (hf : ∀ call, f (.compactFind call) = [])
    (hc : s.procs[i]? = some c) :
    ∃ rest, (s.procs.flatMap f).Perm (f c ++ rest) ∧
      ((s.step (advance d) i).procs.flatMap f).Perm (f (advance d s.shared c).next ++ rest) := by
  obtain ⟨rest, hold, hnew⟩ := flatMap_step (advance d) f hc
  have hnone : (advance d s.shared c).started.flatMap f = [] := by
    rw [List.flatMap_eq_nil_iff]
    intro c' hc'
    obtain ⟨call, rfl⟩ := started_advance d s.shared c c' hc'
    exact hf call
  rw [hnone, List.nil_append] at hnew
  exact ⟨rest, hold, hnew⟩

lemma pending_step (hc : s.procs[i]? = some c)
    (hpushed : (advance d s.shared c).next.pushed conversationId = c.pushed conversationId) :
    (s.pending conversationId).Perm (System.pending (s.step (advance d) i) conversationId) := by
  obtain ⟨rest, hold, hnew⟩ := flatMap_next (d := d) (f := Call.pushed conversationId) (fun _ => rfl) hc
  rw [hpushed] at hnew
  exact hold.trans hnew.symm

lemma total_step (hc : s.procs[i]? = some c)
    (hrows : (advance d s.shared c).shared.table.ofUser conversationId =
      s.shared.table.ofUser conversationId)
    (hinsert : (advance d s.shared c).next.toInsert conversationId = c.toInsert conversationId) :
    System.total (s.step (advance d) i) conversationId = s.total conversationId := by
  obtain ⟨rest, hold, hnew⟩ := flatMap_next (d := d) (f := Call.toInsert conversationId) (fun _ => rfl) hc
  rw [hinsert] at hnew
  rw [System.total, System.total, shared_step (advance d) hc, hrows, (hnew.trans hold.symm).length_eq]

lemma CacheInvariant.noCompaction_step (h : CacheInvariant d conversationId s)
    (hc : s.procs[i]? = some c) (hnext : (advance d s.shared c).next.isCompaction = false) :
    ∀ c' ∈ (s.step (advance d) i).procs, c'.isCompaction = false := by
  apply forall_step hc h.noCompaction hnext
  intro c' hc'
  obtain ⟨call, rfl⟩ := started_advance d s.shared c c' hc'
  rfl

/-- A step that touches neither copy and changes no pushed or waiting message. -/
lemma CacheInvariant.step_of_frame (h : CacheInvariant d conversationId s)
    (hc : s.procs[i]? = some c)
    (hlist : (advance d s.shared c).shared.redis (chatKey conversationId) = s.list conversationId)
    (hrows : (advance d s.shared c).shared.table.ofUser conversationId =
      s.shared.table.ofUser conversationId)
    (hpushed : (advance d s.shared c).next.pushed conversationId = c.pushed conversationId)
    (hinsert : (advance d s.shared c).next.toInsert conversationId = c.toInsert conversationId)
    (hnext : (advance d s.shared c).next.isCompaction = false) :
    CacheInvariant d conversationId (s.step (advance d) i) := by
  have hshared := shared_step (advance d) hc
  refine ⟨?_, ?_, h.noCompaction_step hc hnext⟩
  · have hstored : System.stored d (s.step (advance d) i) conversationId =
        s.stored d conversationId := by
      rw [System.stored, System.stored, hshared, ChatHistoryTable.findAllHistoryOrdered, hrows]
      rfl
    rw [System.list, hshared, hlist, hstored]
    rcases h.list with hempty | ⟨later, heq, hperm⟩
    · exact .inl hempty
    · exact .inr ⟨later, heq, hperm.trans (pending_step hc hpushed)⟩
  · rw [total_step hc hrows hinsert]
    exact h.total

variable (hredis : d.history.redisEnabled = true) (hpostgres : d.history.postgresEnabled = true)
  (hcompaction : d.compaction.enabled = false) {call : AddCall} {message : Message}
  {messages : List Message}

/-- Where the push goes, when it does not create a list beside stored messages. -/
lemma CacheInvariant.list_push (h : CacheInvariant d conversationId s)
    (hsafe : s.list conversationId = [] →
      s.stored d conversationId = [] ∧ s.pending conversationId = []) (dto : MessageDto) :
    ∃ later, s.list conversationId ++ [dto] = s.stored d conversationId ++ later ∧
      later.Perm ([dto] ++ s.pending conversationId) := by
  rcases h.list with hempty | ⟨later, heq, hperm⟩
  · obtain ⟨hstored, hpending⟩ := hsafe hempty
    exact ⟨[dto], by rw [hempty, hstored], by rw [hpending, List.append_nil]⟩
  · refine ⟨later ++ [dto], by rw [heq, List.append_assoc], ?_⟩
    exact (List.perm_append_comm).trans (hperm.append_left [dto])

include hredis in
lemma CacheInvariant.step_addPush (h : CacheInvariant d conversationId s)
    (hc : s.procs[i]? = some (.addPush call message messages))
    (hsafe : Call.Safe d conversationId s (.addPush call message messages)) :
    CacheInvariant d conversationId (s.step (advance d) i) := by
  by_cases hcall : call.conversationId = conversationId
  swap
  · refine h.step_of_frame hc ?_ ?_ ?_ rfl rfl
    · simp only [advance, hredis, if_true, World.rightPush]
      exact World.redis_setRedis_of_ne _ (fun hkey => hcall (chatKey_injective hkey).symm) _
    · simp only [advance, hredis, if_true]
      rfl
    · simp [advance, Call.pushed, hcall]
  have hshared : (s.step (advance d) i).shared =
      s.shared.rightPush (chatKey conversationId) (toDto message) := by
    rw [shared_step (advance d) hc]
    simp only [advance, hredis, if_true, hcall]
  obtain ⟨later, heq, hperm⟩ := h.list_push (hsafe hcall) (toDto message)
  refine ⟨.inr ⟨later, ?_, ?_⟩, ?_, ?_⟩
  · rw [System.list, hshared, World.rightPush, World.redis_setRedis_self, rpush]
    rw [System.list] at heq
    rw [heq, System.stored, System.stored, hshared]
    rfl
  · obtain ⟨rest, hold, hnew⟩ :=
      flatMap_next (d := d) (f := Call.pushed conversationId) (fun _ => rfl) hc
    simp only [advance, Call.pushed, hcall, if_true, List.nil_append] at hold hnew
    exact hperm.trans ((hold.append_left [toDto message]).trans hnew.symm)
  · rw [total_step hc ?_ rfl]
    · exact h.total
    · simp only [advance, hredis, if_true]
      rfl
  · exact h.noCompaction_step hc rfl

include hpostgres in
lemma CacheInvariant.step_addInsert (h : CacheInvariant d conversationId s)
    (hc : s.procs[i]? = some (.addInsert call message messages))
    (hsafe : Call.Safe d conversationId s (.addInsert call message messages)) :
    CacheInvariant d conversationId (s.step (advance d) i) := by
  by_cases hcall : call.conversationId = conversationId
  swap
  · refine h.step_of_frame hc ?_ ?_ ?_ ?_ (isCompaction_addNext ..)
    · simp only [advance, hpostgres, if_true]
      rfl
    · simp only [advance, hpostgres, if_true]
      exact ChatHistoryTable.ofUser_save_of_ne _ hcall _ _ _
    · simp only [advance, pushed_addNext]
      exact (if_neg hcall).symm
    · simp only [advance, toInsert_addNext, if_neg hcall]
      exact (if_neg hcall).symm
  have hshared : (s.step (advance d) i).shared =
      s.shared.saveNow d conversationId message.messageType.getValue message.text := by
    rw [shared_step (advance d) hc]
    simp only [advance, hpostgres, if_true, hcall, persistToDb]
  have hrows : (s.step (advance d) i).shared.table.ofUser conversationId =
      s.shared.table.ofUser conversationId ++ [s.shared.table.newRow conversationId
        message.messageType.getValue message.text (d.now s.shared.readings)] := by
    rw [hshared, World.table_saveNow, ChatHistoryTable.ofUser_save_self]
  refine ⟨?_, ?_, ?_⟩
  · rcases hsafe hcall with hempty | ⟨hhead, hlast⟩
    · exact .inl (by rw [System.list, hshared]; exact hempty)
    right
    have hstored : System.stored d (s.step (advance d) i) conversationId =
        s.stored d conversationId ++ [toDto message] := by
      rw [System.stored, ChatHistoryTable.findAllHistoryOrdered, hrows, orderBy_append_greatest _ ?_ hlast,
        List.map_append]
      · rfl
      · rw [← hrows]
        exact ChatHistoryTable.determined_ofUser _ _ _ _
    obtain ⟨later, hlater⟩ := hhead
    refine ⟨later, ?_, ?_⟩
    · rw [hstored, hlater, System.list, hshared]
      rfl
    · obtain ⟨rest, hold, hnew⟩ :=
        flatMap_next (d := d) (f := Call.pushed conversationId) (fun _ => rfl) hc
      simp only [advance, pushed_addNext, List.nil_append] at hnew
      simp only [Call.pushed, hcall, if_true] at hold
      rcases h.list with hempty | ⟨later', heq, hperm⟩
      · rw [hempty, List.append_assoc] at hlater
        simp at hlater
      · rw [heq, List.append_assoc, List.append_right_inj] at hlater
        rw [← hlater] at hperm
        exact (hperm.trans hold).cons_inv.trans hnew.symm
  · have htotal := h.total
    obtain ⟨rest, hold, hnew⟩ :=
      flatMap_next (d := d) (f := Call.toInsert conversationId) (fun _ => rfl) hc
    simp only [advance, toInsert_addNext, hcall, if_true] at hnew
    simp only [Call.toInsert, hcall, if_true] at hold
    rw [System.total, hold.length_eq] at htotal
    rw [System.total, hrows, hnew.length_eq]
    simp only [List.length_append, List.length_cons, List.length_nil] at htotal ⊢
    omega
  · exact h.noCompaction_step hc (isCompaction_addNext ..)

lemma length_pending_le (s : System) (conversationId : String) :
    (s.pending conversationId).length ≤ (s.procs.flatMap (Call.toInsert conversationId)).length := by
  rw [System.pending]
  induction s.procs with
  | nil => exact le_rfl
  | cons c procs ih =>
    rw [List.flatMap_cons, List.flatMap_cons, List.length_append, List.length_append]
    refine Nat.add_le_add ?_ ih
    cases c <;> simp only [Call.pushed, Call.toInsert, List.length_nil, le_refl, Nat.zero_le]
    split <;> simp

/-- Nothing is cut off a list that holds no more than the conversation. -/
lemma CacheInvariant.ltrim_list (h : CacheInvariant d conversationId s) :
    ltrim (s.list conversationId) 0 (d.history.maxSize - 1) = s.list conversationId := by
  rcases h.list with hempty | ⟨later, heq, hperm⟩
  · rw [hempty, ltrim_nil]
  have htotal := h.total
  have hpending := length_pending_le s conversationId
  have hlength : (s.list conversationId).length ≤ s.total conversationId := by
    rw [heq, List.length_append, hperm.length_eq, System.stored, List.length_map,
      ChatHistoryTable.findAllHistoryOrdered, length_orderBy, System.total]
    exact Nat.add_le_add_left hpending _
  rcases lt_or_ge 0 d.history.maxSize with hpos | hzero
  · rw [ltrim_oldest hpos, List.take_of_length_le (by omega)]
  · have hnil : s.list conversationId = [] := List.length_eq_zero_iff.mp (by omega)
    rw [hnil, ltrim_nil]

include hredis hcompaction in
lemma CacheInvariant.step_addTrim (h : CacheInvariant d conversationId s)
    (hc : s.procs[i]? = some (.addTrim call)) :
    CacheInvariant d conversationId (s.step (advance d) i) := by
  refine h.step_of_frame hc ?_ ?_ rfl rfl rfl
  · simp only [advance, hredis, if_true, World.trim]
    by_cases hcall : call.conversationId = conversationId
    · rw [hcall, World.redis_setRedis_self, effectiveCacheSize_disabled hcompaction]
      exact h.ltrim_list
    · exact World.redis_setRedis_of_ne _ (fun hkey => hcall (chatKey_injective hkey).symm) _
  · simp only [advance, hredis, if_true]
    rfl

lemma CacheInvariant.step_getPushAll (h : CacheInvariant d conversationId s) {other : String}
    {lastN : ℤ} {hydrated : List Message}
    (hc : s.procs[i]? = some (.getPushAll other lastN hydrated))
    (hsafe : Call.Safe d conversationId s (.getPushAll other lastN hydrated)) :
    CacheInvariant d conversationId (s.step (advance d) i) := by
  by_cases hcall : other = conversationId
  swap
  · refine h.step_of_frame hc ?_ rfl rfl rfl rfl
    exact World.redis_setRedis_of_ne _ (fun hkey => hcall (chatKey_injective hkey).symm) _
  subst hcall
  obtain ⟨hempty, hhydrated, hpending⟩ := hsafe rfl
  have hshared : (s.step (advance d) i).shared = populateRedisCache s.shared (chatKey other) hydrated := by
    rw [shared_step (advance d) hc]
    rfl
  refine ⟨.inr ⟨[], ?_, ?_⟩, ?_, ?_⟩
  · rw [System.list] at hempty
    rw [System.list, hshared, populateRedisCache, World.rightPushAll, World.redis_setRedis_self, rpushAll,
      hempty, hhydrated, List.append_nil, List.nil_append, System.stored, System.stored, hshared]
    rfl
  · rw [← hpending]
    exact pending_step hc rfl
  · rw [total_step hc rfl rfl]
    exact h.total
  · exact h.noCompaction_step hc rfl

include hredis hpostgres hcompaction in
lemma CacheInvariant.step_call (h : CacheInvariant d conversationId s) (hc : s.procs[i]? = some c)
    (hsafe : c.Safe d conversationId s) : CacheInvariant d conversationId (s.step (advance d) i) := by
  have hnoCompaction := h.noCompaction c (List.mem_of_getElem? hc)
  cases c with
  | getRange other lastN =>
    apply h.step_of_frame hc
    all_goals
      simp only [advance, returnTail]
      split_ifs
      all_goals rfl
  | getFind other lastN =>
    apply h.step_of_frame hc
    all_goals
      simp only [advance, returnTail]
      repeat' split
      all_goals rfl
  | getPushAll other lastN hydrated => exact h.step_getPushAll hc hsafe
  | getExpire lastN hydrated => exact h.step_of_frame hc rfl rfl rfl rfl rfl
  | returned answer => exact h.step_of_frame hc rfl rfl rfl rfl rfl
  | addPush call message messages => exact h.step_addPush hredis hc hsafe
  | addInsert call message messages => exact h.step_addInsert hpostgres hc hsafe
  | addTrim call => exact h.step_addTrim hredis hcompaction hc
  | addExpire call => exact h.step_of_frame hc rfl rfl rfl rfl rfl
  | addDispatch call => exact h.step_of_frame hc rfl rfl rfl rfl rfl
  | compactFind call =>
    have hout : advance d s.shared (.compactFind call) = ⟨s.shared, .finished, []⟩ := by
      simp [advance, hcompaction]
    exact h.step_of_frame hc (by rw [hout]; rfl) (by rw [hout]) (by rw [hout]; rfl) (by rw [hout]; rfl)
      (by rw [hout]; rfl)
  | compactSummarise => cases hnoCompaction
  | compactTransaction => cases hnoCompaction
  | compactTrim => cases hnoCompaction
  | compactPush => cases hnoCompaction
  | compactExpire => cases hnoCompaction
  | finished => exact h.step_of_frame hc rfl rfl rfl rfl rfl

lemma CacheInvariant.start (h : CacheInvariant d conversationId s) (hpushed : c.pushed conversationId = [])
    (htotal : (s.total conversationId + (c.toInsert conversationId).length : ℤ) ≤ d.history.maxSize)
    (hnoCompaction : c.isCompaction = false) : CacheInvariant d conversationId (s.start c) := by
  refine ⟨?_, ?_, ?_⟩
  · rcases h.list with hempty | ⟨later, heq, hperm⟩
    · exact .inl hempty
    · refine .inr ⟨later, heq, ?_⟩
      rw [System.pending, ProcessPool.start, List.flatMap_append, List.flatMap_singleton, hpushed,
        List.append_nil]
      exact hperm
  · rw [System.total, ProcessPool.start, List.flatMap_append, List.flatMap_singleton, List.length_append]
    rw [System.total] at htotal
    push_cast at htotal ⊢
    omega
  · intro c' hc'
    rcases List.mem_append.mp hc' with hold | hnew
    · exact h.noCompaction c' hold
    · exact List.mem_singleton.mp hnew ▸ hnoCompaction

include hredis hpostgres hcompaction in
lemma CacheInvariant.next (h : CacheInvariant d conversationId s) (event : Event)
    (hfits : Fits d conversationId s event) (hsafe : RaceFree d conversationId s event) :
    CacheInvariant d conversationId (System.next d s event) := by
  have hon : (!d.history.redisEnabled && !d.history.postgresEnabled) = false := by simp [hredis]
  cases event with
  | get other lastN =>
    simp only [System.next, startGet, hon, Bool.false_eq_true, if_false]
    exact h.start rfl (by simpa [Call.toInsert] using h.total) rfl
  | add call =>
    simp only [System.next, startAdd, hon, Bool.false_eq_true, if_false]
    refine h.start (pushed_addNext ..) ?_ (isCompaction_addNext ..)
    rw [toInsert_addNext]
    split
    · rename_i hcall
      exact hfits hcall
    · simpa using h.total
  | step i =>
    cases hc : s.procs[i]? with
    | none =>
      rw [System.next, step_of_none hc]
      exact h
    | some c => exact h.step_call hredis hpostgres hcompaction hc (hsafe c hc)
  | expire other =>
    by_cases hother : other = conversationId
    · subst hother
      exact ⟨.inl (World.redis_setRedis_self ..), h.total, h.noCompaction⟩
    · refine ⟨?_, h.total, h.noCompaction⟩
      have hkey : chatKey conversationId ≠ chatKey other := fun hkey => hother (chatKey_injective hkey).symm
      rw [System.list, System.next, World.redis_setRedis_of_ne _ hkey]
      exact h.list

end Step

/-- When no call is in flight the invariant says that the cache is coherent. -/
lemma CacheInvariant.coherent {d : Deployment} {conversationId : String} {s : System}
    (h : CacheInvariant d conversationId s) (hquiet : s.Quiet) : Coherent d conversationId s := by
  have hpending : s.pending conversationId = [] := by
    rw [System.pending, List.flatMap_eq_nil_iff]
    intro c hc
    have hover := hquiet c hc
    cases c <;> first | rfl | cases hover
  rcases h.list with hempty | ⟨later, heq, hperm⟩
  · exact .inl hempty
  · rw [hpending, List.perm_nil] at hperm
    exact .inr (by rw [heq, hperm, List.append_nil])

/-- In a run whose commands do not race, the cache is absent or equals the table whenever no call is
in flight. -/
theorem cache_coherent {d : Deployment} (hredis : d.history.redisEnabled = true)
    (hpostgres : d.history.postgresEnabled = true) (hcompaction : d.compaction.enabled = false)
    (hsize : 0 ≤ d.history.maxSize) (conversationId : String) (events : List Event)
    (hfits : Along (System.next d) (Fits d conversationId) System.empty events)
    (hsafe : Along (System.next d) (RaceFree d conversationId) System.empty events)
    (hquiet : (run (System.next d) System.empty events).Quiet) :
    Coherent d conversationId (run (System.next d) System.empty events) := by
  have hempty : CacheInvariant d conversationId System.empty :=
    ⟨.inl rfl, by simpa [System.total, System.empty, World.empty] using hsize, by simp [System.empty]⟩
  refine (run_invariant ?_ hempty (hfits.and hsafe)).coherent hquiet
  exact fun s event h hguard => h.next hredis hpostgres hcompaction event hguard.1 hguard.2

/-- A read after the expiry restores the list before the next message is pushed. -/
theorem cache_coherent_after_read :
    Coherent uncompacted "c" (run (System.next uncompacted) System.empty
      (addAlone 0 ⟨"c", [⟨.user, "a"⟩], none, none, fun _ _ => none⟩ ++
        .expire "c" :: .get "c" 5 :: stepsOf 2 4 ++
        addAlone 3 ⟨"c", [⟨.assistant, "b"⟩], none, none, fun _ _ => none⟩)) :=
  cache_coherent rfl rfl rfl (by decide) "c"
    (addAlone 0 ⟨"c", [⟨.user, "a"⟩], none, none, fun _ _ => none⟩ ++
      .expire "c" :: .get "c" 5 :: stepsOf 2 4 ++
      addAlone 3 ⟨"c", [⟨.assistant, "b"⟩], none, none, fun _ _ => none⟩)
    (by decide) (by decide) (by decide)

/-- A message that is added after the expiry is all that the new list holds. -/
theorem cache_incoherent_after_expiry :
    Along (System.next uncompacted) (Fits uncompacted "c") System.empty
        (addAlone 0 ⟨"c", [⟨.user, "a"⟩], none, none, fun _ _ => none⟩ ++
          .expire "c" :: addAlone 2 ⟨"c", [⟨.assistant, "b"⟩], none, none, fun _ _ => none⟩) ∧
      (run (System.next uncompacted) System.empty
        (addAlone 0 ⟨"c", [⟨.user, "a"⟩], none, none, fun _ _ => none⟩ ++
          .expire "c" :: addAlone 2 ⟨"c", [⟨.assistant, "b"⟩], none, none, fun _ _ => none⟩)).Quiet ∧
      ¬Coherent uncompacted "c" (run (System.next uncompacted) System.empty
        (addAlone 0 ⟨"c", [⟨.user, "a"⟩], none, none, fun _ _ => none⟩ ++
          .expire "c" :: addAlone 2 ⟨"c", [⟨.assistant, "b"⟩], none, none, fun _ _ => none⟩)) := by
  decide

end AscendAI.Memory
