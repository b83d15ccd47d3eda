import AscendAI.Memory.CompactionRuns
import AscendAI.Memory.MessageTags

/-!
# Compactions that overlap

A compaction deletes the rows of its prefix by key, but cuts the Redis list by index, and it deletes
only the summary rows that it has read. Nothing is lost and no second summary stays when the prefix
is up to date at both steps: it holds every summary row that the transaction finds, and every message
whose element the trim cuts off.
-/

namespace AscendAI.Memory
open RedisList ProcessPool Runs

/-! ### Summary rows -/

def SingleSummary (conversationId : String) (a : Annotated) : Prop :=
  ∀ r ∈ a.system.shared.table.ofUser conversationId,
    ∀ r' ∈ a.system.shared.table.ofUser conversationId,
      r.id ∈ a.ghost.summaries → r'.id ∈ a.ghost.summaries → r = r'

/-- The prefix of the run is still what it was read to be: it holds every summary row that its
transaction finds, and every message whose element its trim cuts off the list. -/
def Call.UpToDate (conversationId : String) (a : Annotated) : Call → Prop
  | .compactTransaction call body _ => call.conversationId = conversationId →
    ∀ r ∈ a.system.shared.table.ofUser conversationId, r.id ∈ a.ghost.summaries →
      r.id ∈ body.map ChatHistory.id
  | .compactTrim call body _ => call.conversationId = conversationId →
    ∀ e ∈ a.ghost.cache.take body.length, ∀ t ∈ e.tags,
      t ∈ a.ghost.tagsOf body ∨ ∃ e' ∈ a.ghost.cache.drop body.length, t ∈ e'.tags
  | _ => True

/-- A compaction that makes its next step is up to date. -/
def Undisturbed (conversationId : String) (a : Annotated) : Event → Prop
  | .step i => ∀ c ∈ a.system.procs[i]?, c.UpToDate conversationId a
  | _ => True

instance (conversationId : String) (a : Annotated) : Decidable (SingleSummary conversationId a) :=
  inferInstanceAs (Decidable (∀ r ∈ _, ∀ r' ∈ _, _ → _ → _))

instance (conversationId : String) (a : Annotated) : (c : Call) → Decidable (c.UpToDate conversationId a)
  | .compactTransaction .. | .compactTrim .. => inferInstanceAs (Decidable (_ → _))
  | .getRange .. | .getFind .. | .getPushAll .. | .getExpire .. | .returned _ | .addPush .. | .addInsert ..
  | .addTrim _ | .addExpire _ | .addDispatch _ | .compactFind _ | .compactSummarise .. | .compactPush ..
  | .compactExpire _ | .finished => .isTrue trivial

instance (conversationId : String) (a : Annotated) :
    (event : Event) → Decidable (Undisturbed conversationId a event)
  | .step _ => inferInstanceAs (Decidable (∀ c ∈ _, _))
  | .get .. | .add _ | .expire _ => .isTrue trivial

def Event.isAdd : Event → Bool
  | .add _ => true
  | .step _ => true
  | _ => false

namespace SingleSummary

variable {d : Deployment} {conversationId : String} {s : System} {g : Ghost} {i : ℕ} {c : Call}

/-- The transaction deletes the summary row that it finds, so its own is the only one. -/
lemma step_transaction (hpostgres : d.history.postgresEnabled = true)
    (h : SingleSummary conversationId ⟨s, g⟩) {call : AddCall} {body : List ChatHistory} {summary : String}
    (hc : s.procs[i]? = some (.compactTransaction call body summary))
    (hguard : Call.UpToDate conversationId ⟨s, g⟩ (.compactTransaction call body summary)) :
    SingleSummary conversationId ⟨s.step (advance d) i,
      g.command d conversationId s i (.compactTransaction call body summary)⟩ := by
  have hshared := shared_step (advance d) hc
  have hmem : ∀ r ∈ (s.step (advance d) i).shared.table.ofUser conversationId,
      r.id ∈ g.summaries ++ [s.shared.table.nextId] →
      (r ∈ s.shared.table.ofUser conversationId ∧ r.id ∈ g.summaries ∧
          call.conversationId ≠ conversationId) ∨
        (r = s.shared.table.newRow call.conversationId MessageType.system.getValue summary
          (d.now s.shared.readings) ∧ call.conversationId = conversationId) := by
    intro r hr hsummary
    rw [hshared] at hr
    simp only [advance, mem_ofUser_applyToPostgres d s.shared hpostgres] at hr
    rcases hr with ⟨hr, hkept⟩ | hnew
    · have hlt := s.shared.table.id_lt r ((ChatHistoryTable.mem_ofUser _).mp hr).1
      have hs : r.id ∈ g.summaries := by
        rcases List.mem_append.mp hsummary with hs | hnew
        · exact hs
        · exact absurd (List.mem_singleton.mp hnew) hlt.ne
      exact .inl ⟨hr, hs, fun hcall => hkept (hguard hcall r hr hs)⟩
    · exact .inr hnew
  intro r hr r' hr' hs hs'
  rcases hmem r hr hs with ⟨hin, hsum, hne⟩ | ⟨heq, hcall⟩ <;>
    rcases hmem r' hr' hs' with ⟨hin', hsum', hne'⟩ | ⟨heq', hcall'⟩
  · exact h r hin r' hin' hsum hsum'
  · exact absurd hcall' hne
  · exact absurd hcall hne'
  · rw [heq, heq']

lemma step_call (hpostgres : d.history.postgresEnabled = true) (hrows : RowsTracked conversationId ⟨s, g⟩)
    (h : SingleSummary conversationId ⟨s, g⟩) (hc : s.procs[i]? = some c)
    (hguard : c.UpToDate conversationId ⟨s, g⟩) :
    SingleSummary conversationId ⟨s.step (advance d) i, g.command d conversationId s i c⟩ := by
  have hshared := shared_step (advance d) hc
  cases hwrites : c.writesTable with
  | false =>
    have hkeep := command_rows d conversationId s i g hwrites
    intro r hr r' hr' hs hs'
    simp only [hshared, table_advance d s.shared hwrites] at hr hr'
    simp only [hkeep.2] at hs hs'
    exact h r hr r' hr' hs hs'
  | true =>
    cases c with
    | addInsert call message messages =>
      have hold : ∀ r ∈ (s.step (advance d) i).shared.table.ofUser conversationId, r.id ∈ g.summaries →
          r ∈ s.shared.table.ofUser conversationId := by
        intro r hr hsummary
        rw [hshared, ChatHistoryTable.mem_ofUser] at hr
        simp only [advance, hpostgres, if_true, persistToDb, World.table_saveNow,
          ChatHistoryTable.rows_save, List.mem_append, List.mem_singleton] at hr
        rcases hr with ⟨hr | rfl, huser⟩
        · exact (ChatHistoryTable.mem_ofUser _).mpr ⟨hr, huser⟩
        · exact absurd (hrows.summaries _ hsummary) (lt_irrefl _)
      exact fun r hr r' hr' hs hs' => h r (hold r hr hs) r' (hold r' hr' hs') hs hs'
    | compactTransaction call body summary => exact h.step_transaction hpostgres hc hguard
    | _ => cases hwrites

lemma next (hpostgres : d.history.postgresEnabled = true) {a : Annotated}
    (hrows : RowsTracked conversationId a) (h : SingleSummary conversationId a) {event : Event}
    (hadd : event.isAdd = true) (hguard : Undisturbed conversationId a event) :
    SingleSummary conversationId (a.next d conversationId event) := by
  obtain ⟨s, g⟩ := a
  cases event with
  | get => cases hadd
  | expire => cases hadd
  | add call =>
    simp only [Annotated.next, Ghost.record]
    split <;> exact h
  | step i =>
    cases hc : s.procs[i]? with
    | none =>
      rw [Annotated.next_of_none d conversationId hc]
      exact h
    | some c =>
      rw [Annotated.next_of_some d conversationId hc]
      exact h.step_call hpostgres hrows hc (hguard c hc)

end SingleSummary

/-! ### Redis -/

def Call.isGet : Call → Bool
  | .getRange .. => true
  | .getFind .. => true
  | .getPushAll .. => true
  | .getExpire .. => true
  | .returned _ => true
  | _ => false

/-- The names that the call has yet to push, with the messages of a summary among them. -/
def Call.tagsToPush (conversationId : String) (g : Ghost) (i : ℕ) : Call → List Tag
  | .addPush call _ messages =>
    if call.conversationId = conversationId then lastTags i (messages.length + 1) else []
  | .addInsert call _ messages =>
    if call.conversationId = conversationId then lastTags i messages.length else []
  | .compactPush call body _ => if call.conversationId = conversationId then g.tagsOf body else []
  | _ => []

/-- The annotated list is the Redis list, and every added message is behind an element, cut by the cap,
or still to be pushed. -/
structure ListTracked (conversationId : String) (a : Annotated) : Prop where
  noGet : ∀ c ∈ a.system.procs, c.isGet = false
  entries : a.ghost.cache.map Entry.dto = a.system.shared.redis (chatKey conversationId)
  pushed : ∀ t ∈ a.ghost.added, t ∈ a.ghost.cut ∨ (∃ e ∈ a.ghost.cache, t ∈ e.tags) ∨
    ∃ (i : ℕ) (c : Call), a.system.procs[i]? = some c ∧ t ∈ c.tagsToPush conversationId a.ghost i

section AddNext

variable (conversationId : String) (g : Ghost) (i : ℕ) (call : AddCall) (messages : List Message)

lemma tagsToPush_addNext : (addNext call messages).tagsToPush conversationId g i =
    if call.conversationId = conversationId then lastTags i messages.length else [] := by
  cases messages <;> simp [addNext, Call.tagsToPush, lastTags]

lemma isGet_addNext : (addNext call messages).isGet = false := by
  cases messages <;> rfl

end AddNext

namespace ListTracked

variable {d : Deployment} {conversationId : String} {s : System} {g : Ghost} {i : ℕ} {c : Call}

lemma isGet_advance (w : World) (h : c.isGet = false) : (advance d w c).next.isGet = false := by
  cases c with
  | addInsert call message messages => exact isGet_addNext call messages
  | getRange => cases h
  | getFind => cases h
  | getPushAll => cases h
  | getExpire => cases h
  | returned => cases h
  | _ =>
    simp only [advance]
    repeat' split
    all_goals rfl

/-- The list commands act on the annotated list as they act on the Redis list. -/
lemma entries_step (hredis : d.history.redisEnabled = true) (h : ListTracked conversationId ⟨s, g⟩)
    (hc : s.procs[i]? = some c) :
    (g.command d conversationId s i c).cache.map Entry.dto =
      (advance d s.shared c).shared.redis (chatKey conversationId) := by
  have hget := h.noGet c (List.mem_of_getElem? hc)
  have hentries := h.entries
  simp only at hentries
  have hset : ∀ (other : String) (l : List MessageDto) (g' : Ghost),
      (other = conversationId → g'.cache.map Entry.dto = l) →
      (if other = conversationId then g' else g).cache.map Entry.dto =
        (s.shared.setRedis (chatKey other) l).redis (chatKey conversationId) := by
    intro other l g' hl
    split
    · rename_i hother
      rw [hother, World.redis_setRedis_self]
      exact hl hother
    · rename_i hother
      rw [World.redis_setRedis_of_ne _ (fun hkey => hother (chatKey_injective hkey).symm)]
      exact hentries
  cases c with
  | addPush call message messages =>
    simp only [Ghost.command, advance, hredis, if_true, World.rightPush]
    apply hset
    intro hcall
    rw [hcall, rpush, rpush, List.map_append, hentries]
    rfl
  | addTrim call =>
    simp only [Ghost.command, advance, hredis, if_true, World.trim]
    apply hset
    intro hcall
    rw [hcall, map_ltrim, hentries]
  | compactTrim call body summary =>
    simp only [Ghost.command, advance, hredis, Bool.not_true, Bool.false_eq_true, if_false, World.trim]
    apply hset
    intro hcall
    rw [hcall, map_ltrim, hentries]
  | compactPush call body summary =>
    simp only [Ghost.command, advance, World.leftPush]
    apply hset
    intro hcall
    rw [hcall, lpush, lpush, List.map_cons, hentries]
  | addInsert call message messages =>
    simp only [Ghost.command, advance, persistToDb]
    split <;> exact hentries
  | compactTransaction call body summary =>
    simp only [Ghost.command, advance, applyToPostgres]
    split
    · exact hentries
    · split <;> exact hentries
  | compactFind call =>
    simp only [Ghost.command, advance]
    repeat' split
    all_goals exact hentries
  | compactSummarise call body =>
    simp only [Ghost.command, advance]
    split <;> exact hentries
  | addExpire call => exact hentries
  | addDispatch call => exact hentries
  | compactExpire call => exact hentries
  | finished => exact hentries
  | getRange => cases hget
  | getFind => cases hget
  | getPushAll => cases hget
  | getExpire => cases hget
  | returned => cases hget

lemma tagsOf_command {userId : String} {body : List ChatHistory}
    (hbody : ∀ r ∈ body, WasRow s.shared.table userId r) (c : Call) :
    (g.command d conversationId s i c).tagsOf body = g.tagsOf body := by
  apply List.flatMap_congr
  intro r hr
  have hne := (hbody r hr).id_lt.ne
  cases c with
  | addInsert => exact Function.update_of_ne hne _ _
  | compactTransaction => exact Function.update_of_ne hne _ _
  | _ =>
    simp only [Ghost.command]
    repeat' split
    all_goals rfl

/-- A message behind an element stays there, is cut by the cap, or is in the summary that the same run
is about to push. -/
lemma cached_step (hguard : c.UpToDate conversationId ⟨s, g⟩) {t : Tag} {e : Entry} (he : e ∈ g.cache)
    (ht : t ∈ e.tags) (hredis : d.history.redisEnabled = true) :
    t ∈ (g.command d conversationId s i c).cut ∨
      (∃ e' ∈ (g.command d conversationId s i c).cache, t ∈ e'.tags) ∨
      t ∈ (advance d s.shared c).next.tagsToPush conversationId (g.command d conversationId s i c) i := by
  cases c with
  | addPush call message messages =>
    refine .inr (.inl ⟨e, ?_, ht⟩)
    simp only [Ghost.command]
    split
    · exact List.mem_append_left _ he
    · exact he
  | addTrim call =>
    simp only [Ghost.command]
    split
    swap
    · exact .inr (.inl ⟨e, he, ht⟩)
    by_cases hkept : t ∈ (ltrim g.cache 0 (effectiveCacheSize d - 1)).flatMap Entry.tags
    · obtain ⟨e', he', ht'⟩ := List.mem_flatMap.mp hkept
      exact .inr (.inl ⟨e', he', ht'⟩)
    · refine .inl (List.mem_append_right _ (List.mem_filter.mpr ⟨?_, by simpa using hkept⟩))
      exact List.mem_flatMap.mpr ⟨e, he, ht⟩
  | compactTrim call body summary =>
    simp only [Ghost.command, advance, hredis, Bool.not_true, Bool.false_eq_true, if_false, ltrim_drop,
      Call.tagsToPush]
    by_cases hcall : call.conversationId = conversationId
    swap
    · rw [if_neg hcall]
      exact .inr (.inl ⟨e, he, ht⟩)
    simp only [if_pos hcall]
    rw [← List.take_append_drop body.length g.cache, List.mem_append] at he
    rcases he with hcut | hkept
    · rcases hguard hcall e hcut t ht with hhead | ⟨e', he', ht'⟩
      · exact .inr (.inr hhead)
      · exact .inr (.inl ⟨e', he', ht'⟩)
    · exact .inr (.inl ⟨e, hkept, ht⟩)
  | compactPush call body summary =>
    refine .inr (.inl ⟨e, ?_, ht⟩)
    simp only [Ghost.command]
    split
    · exact List.mem_cons_of_mem _ he
    · exact he
  | _ => exact .inr (.inl ⟨e, he, ht⟩)

/-- A message that a call has yet to push is pushed by it, or still to be pushed. -/
lemma pushing_step {t : Tag} (ht : t ∈ c.tagsToPush conversationId g i) :
    (∃ e ∈ (g.command d conversationId s i c).cache, t ∈ e.tags) ∨
      t ∈ (advance d s.shared c).next.tagsToPush conversationId (g.command d conversationId s i c) i := by
  cases c with
  | addPush call message messages =>
    simp only [Call.tagsToPush] at ht
    split at ht
    swap
    · cases ht
    rename_i hcall
    obtain ⟨hfirst, hlt⟩ := mem_lastTags.mp ht
    simp only [Ghost.command, advance, Call.tagsToPush, if_pos hcall]
    rcases Nat.lt_succ_iff_lt_or_eq.mp hlt with hlater | hnow
    · exact .inr (mem_lastTags.mpr ⟨hfirst, hlater⟩)
    · refine .inl ⟨_, List.mem_append_right _ (List.mem_singleton_self _), ?_⟩
      exact List.mem_singleton.mpr (Prod.ext hfirst hnow)
  | addInsert call message messages =>
    right
    rw [advance, tagsToPush_addNext]
    exact ht
  | compactPush call body summary =>
    simp only [Call.tagsToPush] at ht
    split at ht
    swap
    · cases ht
    rename_i hcall
    simp only [Ghost.command, if_pos hcall]
    exact .inl ⟨_, List.mem_cons_self .., ht⟩
  | _ => cases ht

lemma step_call (hredis : d.history.redisEnabled = true) (hrows : RowsTracked conversationId ⟨s, g⟩)
    (h : ListTracked conversationId ⟨s, g⟩) (hc : s.procs[i]? = some c)
    (hguard : c.UpToDate conversationId ⟨s, g⟩) :
    ListTracked conversationId ⟨s.step (advance d) i, g.command d conversationId s i c⟩ := by
  have hshared := shared_step (advance d) hc
  refine ⟨forall_step hc h.noGet ?_ ?_, ?_, fun t ht => ?_⟩
  · exact isGet_advance s.shared (h.noGet c (List.mem_of_getElem? hc))
  · intro c' hc'
    obtain ⟨call, rfl⟩ := started_advance d s.shared c c' hc'
    rfl
  · simp only [hshared]
    exact h.entries_step hredis hc
  simp only [command_added] at ht
  rcases h.pushed t ht with hcut | ⟨e, he, htag⟩ | ⟨j, c', hj, htag⟩
  · left
    cases c <;> first
      | exact hcut
      | (simp only [Ghost.command]; split <;> first | exact hcut | exact List.mem_append_left _ hcut)
  · rcases cached_step hguard he htag hredis with hcut | hcache | hpush
    · exact .inl hcut
    · exact .inr (.inl hcache)
    · exact .inr (.inr ⟨i, _, getElem?_step_self hc, hpush⟩)
  · by_cases hij : j = i
    · subst hij
      obtain rfl := Option.some.inj (hc.symm.trans hj)
      rcases pushing_step htag with hcache | hpush
      · exact .inr (.inl hcache)
      · exact .inr (.inr ⟨j, _, getElem?_step_self hc, hpush⟩)
    · refine .inr (.inr ⟨j, c', getElem?_step_of_ne hij hj, ?_⟩)
      cases c' with
      | compactPush call body summary =>
        have hbody := hrows.bodies _ (List.mem_of_getElem? hj) call body rfl
        simpa only [Call.tagsToPush, tagsOf_command hbody] using htag
      | _ => exact htag

lemma next (hredis : d.history.redisEnabled = true) {a : Annotated}
    (hrows : RowsTracked conversationId a) (h : ListTracked conversationId a) {event : Event}
    (hadd : event.isAdd = true) (hguard : Undisturbed conversationId a event) :
    ListTracked conversationId (a.next d conversationId event) := by
  obtain ⟨s, g⟩ := a
  have hon : (!d.history.redisEnabled && !d.history.postgresEnabled) = false := by simp [hredis]
  cases event with
  | get => cases hadd
  | expire => cases hadd
  | add call =>
    simp only [Annotated.next, System.next, startAdd, hon, Bool.false_eq_true, if_false, Ghost.record]
    have hnoGet : ∀ c ∈ (s.start (addNext call call.messages)).procs, c.isGet = false := by
      intro c hc
      rcases List.mem_append.mp hc with hold | hnew
      · exact h.noGet c hold
      · rw [List.mem_singleton.mp hnew]
        exact isGet_addNext ..
    have hkeep : ∀ t ∈ g.added, t ∈ g.cut ∨ (∃ e ∈ g.cache, t ∈ e.tags) ∨
        ∃ (j : ℕ) (c : Call), (s.start (addNext call call.messages)).procs[j]? = some c ∧
          t ∈ c.tagsToPush conversationId g j := by
      intro t ht
      rcases h.pushed t ht with hcut | hcache | ⟨j, c', hj, htag⟩
      · exact .inl hcut
      · exact .inr (.inl hcache)
      · exact .inr (.inr ⟨j, c', getElem?_start_of_some hj, htag⟩)
    by_cases hcall : call.conversationId = conversationId
    · simp only [hcall, if_true]
      refine ⟨hnoGet, h.entries, fun t ht => ?_⟩
      rcases List.mem_append.mp ht with hadded | hnew
      · exact hkeep t hadded
      · refine .inr (.inr ⟨s.procs.length, _, getElem?_start_self _, ?_⟩)
        rw [tagsToPush_addNext, if_pos hcall]
        exact hnew
    · simp only [hcall, if_false]
      exact ⟨hnoGet, h.entries, hkeep⟩
  | step i =>
    cases hc : s.procs[i]? with
    | none =>
      rw [Annotated.next_of_none d conversationId hc]
      exact h
    | some c =>
      rw [Annotated.next_of_some d conversationId hc]
      exact h.step_call hredis hrows hc (hguard c hc)

end ListTracked

/-! ### Runs -/

/-- Every message of every call of `add` is behind a row, and behind an element of the Redis list unless
the cap has cut it; one row at most is a summary. -/
structure Accounted (conversationId : String) (a : Annotated) : Prop where
  postgres : ∀ t ∈ a.ghost.added,
    ∃ r ∈ a.system.shared.table.ofUser conversationId, t ∈ a.ghost.rows r.id
  entries : a.ghost.cache.map Entry.dto = a.system.shared.redis (chatKey conversationId)
  redis : ∀ t ∈ a.ghost.added, t ∈ a.ghost.cut ∨ ∃ e ∈ a.ghost.cache, t ∈ e.tags
  single : SingleSummary conversationId a

structure Tracked (conversationId : String) (a : Annotated) : Prop where
  rows : RowsTracked conversationId a
  list : ListTracked conversationId a
  single : SingleSummary conversationId a

lemma tracked_empty (conversationId : String) : Tracked conversationId Annotated.empty :=
  ⟨rowsTracked_empty conversationId, ⟨nofun, rfl, nofun⟩, nofun⟩

lemma Tracked.next {d : Deployment} (hredis : d.history.redisEnabled = true)
    (hpostgres : d.history.postgresEnabled = true) {conversationId : String} {a : Annotated}
    (h : Tracked conversationId a) {event : Event} (hadd : event.isAdd = true)
    (hguard : Undisturbed conversationId a event) :
    Tracked conversationId (a.next d conversationId event) :=
  ⟨h.rows.next hpostgres event, h.list.next hredis h.rows hadd hguard,
    h.single.next hpostgres h.rows hadd hguard⟩

/-- In a run of `add` whose compactions stay up to date, both copies account for every message, and the
conversation has one summary at most. -/
theorem undisturbed_compactions_account {d : Deployment} (hredis : d.history.redisEnabled = true)
    (hpostgres : d.history.postgresEnabled = true) (conversationId : String) (events : List Event)
    (hadds : ∀ event ∈ events, event.isAdd = true)
    (hguard : Along (Annotated.next d conversationId) (Undisturbed conversationId) Annotated.empty events)
    (hquiet : (run (Annotated.next d conversationId) Annotated.empty events).system.Quiet) :
    Accounted conversationId (run (Annotated.next d conversationId) Annotated.empty events) := by
  have hstep : ∀ a event, Tracked conversationId a →
      event.isAdd = true ∧ Undisturbed conversationId a event →
      Tracked conversationId (a.next d conversationId event) :=
    fun a event h hevent => h.next hredis hpostgres hevent.1 hevent.2
  obtain ⟨hrows, hlist, hsingle⟩ := run_invariant hstep (tracked_empty conversationId)
    ((along_of_forall (fun event h _ => hadds event h) _).and hguard)
  refine ⟨hrows.stored_of_quiet hquiet, hlist.entries, fun t ht => ?_, hsingle⟩
  rcases hlist.pushed t ht with hcut | hcache | ⟨i, c, hc, htag⟩
  · exact .inl hcut
  · exact .inr hcache
  · have hover := hquiet c (List.mem_of_getElem? hc)
    cases c <;> first | cases htag | cases hover

/-- Two additions one after the other, each with its compaction. -/
theorem compactions_in_turn_account :
    Accounted "c" (run (Annotated.next compactsTwo "c") Annotated.empty
      (addAlone 0 (addAll [⟨.user, "hi"⟩, ⟨.assistant, "hello"⟩]) ++
        addAlone 2 (addAll [⟨.user, "bye"⟩]))) :=
  undisturbed_compactions_account rfl rfl "c"
    (addAlone 0 (addAll [⟨.user, "hi"⟩, ⟨.assistant, "hello"⟩]) ++ addAlone 2 (addAll [⟨.user, "bye"⟩]))
    (by decide) (by decide) (by decide)

/-- Two compactions that read the same history. -/
def overlapping : List Event :=
  .add (addAll [⟨.user, "hi"⟩, ⟨.assistant, "hello"⟩]) :: stepsOf 0 7 ++
    .add (addAll [⟨.user, "bye"⟩]) :: stepsOf 2 5 ++ [.step 1, .step 3] ++ stepsOf 1 5 ++ stepsOf 3 5

/-- Both summaries are stored, and the last message is gone from the Redis list. -/
theorem overlapping_compactions_lose :
    (∀ event ∈ overlapping, event.isAdd = true) ∧
      (run (Annotated.next compactsTwo "c") Annotated.empty overlapping).system.Quiet ∧
      ¬SingleSummary "c" (run (Annotated.next compactsTwo "c") Annotated.empty overlapping) ∧
      (2, 0) ∈ (run (Annotated.next compactsTwo "c") Annotated.empty overlapping).ghost.added ∧
      ¬((2, 0) ∈ (run (Annotated.next compactsTwo "c") Annotated.empty overlapping).ghost.cut ∨
        ∃ e ∈ (run (Annotated.next compactsTwo "c") Annotated.empty overlapping).ghost.cache,
          (2, 0) ∈ e.tags) := by
  decide

end AscendAI.Memory
