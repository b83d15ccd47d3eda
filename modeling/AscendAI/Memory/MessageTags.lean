import AscendAI.Memory.ChatSystem

/-!
# Where a message is kept

Every added message gets a name, and ghost state follows the names through both copies: a row or
a list element stands for the names of the messages that it holds or summarises. Postgres never
loses a name, since a transaction deletes the very rows that its summary covers.
-/

namespace AscendAI.Memory
open RedisList ProcessPool Runs

/-- A message: the call that adds it, and how many of its messages come after it. -/
abbrev Tag := ℕ × ℕ

/-- The names of the last `n` messages of the call `i`. -/
def lastTags (i n : ℕ) : List Tag := (List.range n).map fun k => (i, k)

lemma mem_lastTags {i n : ℕ} {t : Tag} : t ∈ lastTags i n ↔ t.1 = i ∧ t.2 < n := by
  obtain ⟨j, k⟩ := t
  simp only [lastTags, List.mem_map, List.mem_range, Prod.mk.injEq]
  constructor
  · rintro ⟨k', hk, rfl, rfl⟩
    exact ⟨rfl, hk⟩
  · rintro ⟨rfl, hk⟩
    exact ⟨k, hk, rfl, rfl⟩

/-- An element of the Redis list and the messages that it stands for. -/
structure Entry where
  dto : MessageDto
  tags : List Tag

/-- What the code does not store: the names of the added messages, the elements of the Redis list with
their names, the names that the cap of the list has cut, the names behind each row, and the keys of
the summary rows. -/
structure Ghost where
  added : List Tag := []
  cache : List Entry := []
  cut : List Tag := []
  rows : ℕ → List Tag := fun _ => []
  summaries : List ℕ := []

def Ghost.tagsOf (g : Ghost) (body : List ChatHistory) : List Tag := body.flatMap fun r => g.rows r.id

structure Annotated where
  system : System
  ghost : Ghost

def Annotated.empty : Annotated := ⟨System.empty, {}⟩

section Record

variable (d : Deployment) (conversationId : String) (s : System)

/-- The ghost side of a command: the list commands act on the annotated list. -/
def Ghost.command (i : ℕ) (g : Ghost) : Call → Ghost
  | .addPush call message messages =>
    if call.conversationId = conversationId
    then { g with cache := rpush g.cache ⟨toDto message, [(i, messages.length)]⟩ } else g
  | .addInsert _ _ messages =>
    { g with rows := Function.update g.rows s.shared.table.nextId [(i, messages.length)] }
  | .addTrim call =>
    if call.conversationId = conversationId then
      let kept := ltrim g.cache 0 (effectiveCacheSize d - 1)
      { g with
        cache := kept
        cut := g.cut ++ (g.cache.flatMap Entry.tags).filter fun t => t ∉ kept.flatMap Entry.tags }
    else g
  | .compactTransaction _ body _ =>
    { g with
      rows := Function.update g.rows s.shared.table.nextId (g.tagsOf body)
      summaries := g.summaries ++ [s.shared.table.nextId] }
  | .compactTrim call body _ =>
    if call.conversationId = conversationId
    then { g with cache := ltrim g.cache body.length (-1) } else g
  | .compactPush call body summary =>
    if call.conversationId = conversationId
    then { g with cache := lpush g.cache ⟨⟨MessageType.system.getValue, summary⟩, g.tagsOf body⟩ } else g
  | _ => g

def Ghost.record (g : Ghost) : Event → Ghost
  | .add call =>
    if call.conversationId = conversationId
    then { g with added := g.added ++ lastTags s.procs.length call.messages.length } else g
  | .step i =>
    match s.procs[i]? with
    | some c => g.command d conversationId s i c
    | none => g
  | _ => g

end Record

def Annotated.next (d : Deployment) (conversationId : String) (a : Annotated) (event : Event) : Annotated :=
  ⟨System.next d a.system event, a.ghost.record d conversationId a.system event⟩

lemma Annotated.next_of_none (d : Deployment) (conversationId : String) {a : Annotated} {i : ℕ}
    (hc : a.system.procs[i]? = none) : a.next d conversationId (.step i) = a := by
  simp only [Annotated.next, System.next, step_of_none hc, Ghost.record, hc]

lemma Annotated.next_of_some (d : Deployment) (conversationId : String) {a : Annotated} {i : ℕ} {c : Call}
    (hc : a.system.procs[i]? = some c) : a.next d conversationId (.step i) =
      ⟨a.system.step (advance d) i, a.ghost.command d conversationId a.system i c⟩ := by
  simp only [Annotated.next, System.next, Ghost.record, hc]

/-- The ghost state does not act on the system. -/
lemma run_annotated (d : Deployment) (conversationId : String) (a : Annotated) (events : List Event) :
    (run (Annotated.next d conversationId) a events).system = run (System.next d) a.system events := by
  induction events generalizing a with
  | nil => rfl
  | cons event events ih => rw [run_cons, run_cons, ih, Annotated.next]

def Call.tagsToInsert (conversationId : String) (i : ℕ) : Call → List Tag
  | .addPush call _ messages =>
    if call.conversationId = conversationId then lastTags i (messages.length + 1) else []
  | .addInsert call _ messages =>
    if call.conversationId = conversationId then lastTags i (messages.length + 1) else []
  | _ => []

def Call.task : Call → Option (AddCall × List ChatHistory)
  | .compactSummarise call body => some (call, body)
  | .compactTransaction call body _ => some (call, body)
  | .compactTrim call body _ => some (call, body)
  | .compactPush call body _ => some (call, body)
  | _ => none

/-- Only an insert and a transaction write the table. -/
def Call.writesTable : Call → Bool
  | .addInsert .. => true
  | .compactTransaction .. => true
  | _ => false

/-- The row is, or was, in the table: no other row will ever have its key. -/
structure WasRow (t : ChatHistoryTable) (userId : String) (r : ChatHistory) : Prop where
  userId : r.userId = userId
  id_lt : r.id < t.nextId
  eq_of_id_eq : ∀ r' ∈ t.rows, r'.id = r.id → r' = r

/-! ### What a command does to the table -/

section Table

variable (d : Deployment) (w : World)

lemma tagsToInsert_addNext (conversationId : String) (i : ℕ) (call : AddCall) (messages : List Message) :
    (addNext call messages).tagsToInsert conversationId i =
      if call.conversationId = conversationId then lastTags i messages.length else [] := by
  cases messages <;> simp [addNext, Call.tagsToInsert, lastTags]

lemma task_addNext (call : AddCall) (messages : List Message) : (addNext call messages).task = none := by
  cases messages <;> rfl

/-- The transaction: the rows of the prefix are gone, and the summary is there. -/
lemma rows_applyToPostgres (hpostgres : d.history.postgresEnabled = true) (conversationId : String)
    (body : List ChatHistory) (summary : String) :
    (applyToPostgres d w conversationId body summary).1.table.rows =
        w.table.rows.filter (fun r => r.id ∉ body.map ChatHistory.id) ++
          [w.table.newRow conversationId MessageType.system.getValue summary (d.now w.readings)] ∧
      (applyToPostgres d w conversationId body summary).1.table.nextId = w.table.nextId + 1 := by
  simp only [applyToPostgres, hpostgres, Bool.not_true, Bool.false_eq_true, if_false]
  cases body with
  | nil =>
    refine ⟨?_, rfl⟩
    simp [ChatHistoryTable.newRow]
  | cons r body => exact ⟨rfl, rfl⟩

lemma mem_ofUser_applyToPostgres (hpostgres : d.history.postgresEnabled = true)
    (conversationId other : String) (body : List ChatHistory) (summary : String) (r : ChatHistory) :
    r ∈ (applyToPostgres d w conversationId body summary).1.table.ofUser other ↔
      (r ∈ w.table.ofUser other ∧ r.id ∉ body.map ChatHistory.id) ∨
        (r = w.table.newRow conversationId MessageType.system.getValue summary (d.now w.readings) ∧
          conversationId = other) := by
  rw [ChatHistoryTable.mem_ofUser, (rows_applyToPostgres d w hpostgres conversationId body summary).1,
    ChatHistoryTable.mem_ofUser, List.mem_append, List.mem_filter, List.mem_singleton, decide_eq_true_eq]
  constructor
  · rintro ⟨⟨hr, hid⟩ | rfl, huser⟩
    · exact .inl ⟨⟨hr, huser⟩, hid⟩
    · exact .inr ⟨rfl, huser⟩
  · rintro (⟨⟨hr, huser⟩, hid⟩ | ⟨rfl, huser⟩)
    · exact ⟨.inl ⟨hr, hid⟩, huser⟩
    · exact ⟨.inr rfl, huser⟩

lemma table_advance {c : Call} (h : c.writesTable = false) : (advance d w c).shared.table = w.table := by
  cases c with
  | addInsert call message messages => cases h
  | compactTransaction call body summary => cases h
  | _ =>
    simp only [advance]
    repeat' split
    all_goals rfl

section Ghost

variable (conversationId : String) (s : System) (i : ℕ) (g : Ghost)

lemma command_rows {c : Call} (h : c.writesTable = false) :
    (g.command d conversationId s i c).rows = g.rows ∧
      (g.command d conversationId s i c).summaries = g.summaries := by
  cases c with
  | addInsert call message messages => cases h
  | compactTransaction call body summary => cases h
  | _ =>
    simp only [Ghost.command]
    repeat' split
    all_goals simp

@[simp] lemma command_added (c : Call) : (g.command d conversationId s i c).added = g.added := by
  cases c <;> simp only [Ghost.command]
  all_goals
    split
    all_goals rfl

end Ghost

/-- A row after a command was there before it, or has a new key. -/
lemma rows_advance (hpostgres : d.history.postgresEnabled = true) (c : Call) :
    w.table.nextId ≤ (advance d w c).shared.table.nextId ∧
      ∀ r ∈ (advance d w c).shared.table.rows, r ∈ w.table.rows ∨ r.id = w.table.nextId := by
  cases c with
  | addInsert call message messages =>
    simp only [advance, hpostgres, if_true, persistToDb, World.table_saveNow]
    refine ⟨Nat.le_succ _, fun r hr => ?_⟩
    rw [ChatHistoryTable.rows_save, List.mem_append, List.mem_singleton] at hr
    exact hr.imp_right fun h => by rw [h]; rfl
  | compactTransaction call body summary =>
    obtain ⟨hrows, hnextId⟩ := rows_applyToPostgres d w hpostgres call.conversationId body summary
    simp only [advance, hrows, hnextId]
    refine ⟨Nat.le_succ _, fun r hr => ?_⟩
    rw [List.mem_append, List.mem_singleton] at hr
    exact hr.imp List.mem_of_mem_filter fun h => by rw [h]; rfl
  | _ =>
    rw [table_advance d w rfl]
    exact ⟨le_rfl, fun r hr => .inl hr⟩

lemma WasRow.advance (hpostgres : d.history.postgresEnabled = true) {userId : String} {r : ChatHistory}
    (h : WasRow w.table userId r) (c : Call) : WasRow (advance d w c).shared.table userId r := by
  obtain ⟨hnextId, hrows⟩ := rows_advance d w hpostgres c
  refine ⟨h.userId, h.id_lt.trans_le hnextId, fun r' hr' hid => ?_⟩
  rcases hrows r' hr' with hold | hnew
  · exact h.eq_of_id_eq r' hold hid
  · have hlt := h.id_lt
    omega

lemma wasRow_of_mem {t : ChatHistoryTable} {r : ChatHistory} (hr : r ∈ t.rows) : WasRow t r.userId r :=
  ⟨rfl, t.id_lt r hr, fun _ hr' hid => t.eq_of_id_eq hr' hr hid⟩

/-- A continuation has the prefix of its call, or one that the query has just returned. -/
lemma task_advance (c : Call) (call : AddCall) (body : List ChatHistory)
    (h : (advance d w c).next.task = some (call, body)) :
    c.task = some (call, body) ∨ ∀ r ∈ body, WasRow w.table call.conversationId r := by
  cases c with
  | compactFind call' =>
    right
    have hrows : ∀ r ∈ (if d.history.postgresEnabled = true
        then ChatHistoryTable.findAllHistoryOrdered d.tie w.table call'.conversationId else []),
        WasRow w.table call'.conversationId r := by
      intro r hr
      split at hr
      · obtain ⟨hmem, huser⟩ := (ChatHistoryTable.mem_findAllHistoryOrdered _ d.tie).mp hr
        exact huser ▸ wasRow_of_mem hmem
      · cases hr
    simp only [advance] at h
    generalize (if d.history.postgresEnabled = true
      then ChatHistoryTable.findAllHistoryOrdered d.tie w.table call'.conversationId else []) =
      history at h hrows
    split at h
    · cases h
    split at h
    · cases h
    split at h
    · cases h
    split at h
    · cases h
    obtain ⟨rfl, rfl⟩ := Prod.mk.inj (Option.some.inj h)
    exact fun r hr => hrows r (List.mem_of_mem_take hr)
  | addInsert call' message messages =>
    rw [advance, task_addNext] at h
    cases h
  | _ =>
    simp only [advance, returnTail] at h
    repeat' split at h
    all_goals first
      | exact .inl h
      | cases h

end Table

/-! ### Postgres -/

/-- Every added message is behind a row or still to be inserted, the prefixes of the compactions in
flight are rows, and the keys of summaries are keys. -/
structure RowsTracked (conversationId : String) (a : Annotated) : Prop where
  inserted : ∀ t ∈ a.ghost.added,
    (∃ r ∈ a.system.shared.table.ofUser conversationId, t ∈ a.ghost.rows r.id) ∨
      ∃ (i : ℕ) (c : Call), a.system.procs[i]? = some c ∧ t ∈ c.tagsToInsert conversationId i
  bodies : ∀ c ∈ a.system.procs, ∀ call body, c.task = some (call, body) →
    ∀ r ∈ body, WasRow a.system.shared.table call.conversationId r
  summaries : ∀ id ∈ a.ghost.summaries, id < a.system.shared.table.nextId

namespace RowsTracked

variable {d : Deployment} {conversationId : String} {s : System} {g : Ghost} {i : ℕ} {c : Call}

/-- What a row stands for stays behind a row: a transaction deletes only rows that its summary covers. -/
lemma stored_step (hpostgres : d.history.postgresEnabled = true)
    (h : RowsTracked conversationId ⟨s, g⟩) (hc : s.procs[i]? = some c) {t : Tag} {r : ChatHistory}
    (hr : r ∈ s.shared.table.ofUser conversationId) (ht : t ∈ g.rows r.id) :
    ∃ r' ∈ (advance d s.shared c).shared.table.ofUser conversationId,
      t ∈ (g.command d conversationId s i c).rows r'.id := by
  have hrow := (ChatHistoryTable.mem_ofUser _).mp hr
  have hold : r.id ≠ s.shared.table.nextId := (s.shared.table.id_lt r hrow.1).ne
  cases c with
  | addInsert call message messages =>
    refine ⟨r, ?_, ?_⟩
    · rw [ChatHistoryTable.mem_ofUser]
      simp only [advance, hpostgres, if_true, persistToDb, World.table_saveNow, ChatHistoryTable.rows_save]
      exact ⟨List.mem_append_left _ hrow.1, hrow.2⟩
    · simpa only [Ghost.command, Function.update_of_ne hold] using ht
  | compactTransaction call body summary =>
    simp only [advance, mem_ofUser_applyToPostgres d s.shared hpostgres, Ghost.command]
    by_cases hdeleted : r.id ∈ body.map ChatHistory.id
    · obtain ⟨r', hr', hid⟩ := List.mem_map.mp hdeleted
      have hbody := h.bodies _ (List.mem_of_getElem? hc) call body rfl r' hr'
      have heq : r = r' := hbody.eq_of_id_eq r hrow.1 hid.symm
      have huser : call.conversationId = conversationId := by
        rw [← hbody.userId, ← heq, hrow.2]
      refine ⟨_, .inr ⟨rfl, huser⟩, ?_⟩
      simp only [ChatHistoryTable.newRow, Function.update_self, Ghost.tagsOf, List.mem_flatMap]
      exact ⟨r', hr', heq ▸ ht⟩
    · exact ⟨r, .inl ⟨hr, hdeleted⟩, by rwa [Function.update_of_ne hold]⟩
  | _ =>
    refine ⟨r, ?_, ?_⟩
    · rwa [table_advance d s.shared rfl]
    · rwa [(command_rows d conversationId s i g rfl).1]

/-- A message that a call has yet to insert is inserted by it, or still to be inserted. -/
lemma waiting_step (hpostgres : d.history.postgresEnabled = true) (hc : s.procs[i]? = some c) {t : Tag}
    (ht : t ∈ c.tagsToInsert conversationId i) :
    (∃ r ∈ (advance d s.shared c).shared.table.ofUser conversationId,
        t ∈ (g.command d conversationId s i c).rows r.id) ∨
      t ∈ (advance d s.shared c).next.tagsToInsert conversationId i := by
  cases c with
  | addPush call message messages => exact .inr ht
  | addInsert call message messages =>
    simp only [Call.tagsToInsert] at ht
    split at ht
    swap
    · cases ht
    rename_i hcall
    obtain ⟨hfirst, hlt⟩ := mem_lastTags.mp ht
    rcases Nat.lt_succ_iff_lt_or_eq.mp hlt with hlater | hnow
    · right
      rw [advance, tagsToInsert_addNext, if_pos hcall]
      exact mem_lastTags.mpr ⟨hfirst, hlater⟩
    · refine .inl ⟨s.shared.table.newRow conversationId message.messageType.getValue message.text
        (d.now s.shared.readings), ?_, ?_⟩
      · simp only [advance, hpostgres, if_true, persistToDb, World.table_saveNow, hcall,
          ChatHistoryTable.ofUser_save_self]
        exact List.mem_append_right _ (List.mem_singleton_self _)
      · simp only [Ghost.command, ChatHistoryTable.newRow, Function.update_self, List.mem_singleton]
        exact Prod.ext hfirst hnow
  | _ => cases ht

lemma step_call (hpostgres : d.history.postgresEnabled = true) (h : RowsTracked conversationId ⟨s, g⟩)
    (hc : s.procs[i]? = some c) :
    RowsTracked conversationId ⟨s.step (advance d) i, g.command d conversationId s i c⟩ := by
  have hshared := shared_step (advance d) hc
  refine ⟨fun t ht => ?_, ?_, ?_⟩
  · simp only [hshared]
    simp only [command_added] at ht
    rcases h.inserted t ht with ⟨r, hr, htag⟩ | ⟨j, c', hj, htag⟩
    · exact .inl (h.stored_step hpostgres hc hr htag)
    · by_cases hij : j = i
      · subst hij
        obtain rfl := Option.some.inj (hc.symm.trans hj)
        refine (waiting_step hpostgres hc htag).imp_right fun hnext => ?_
        exact ⟨j, _, getElem?_step_self hc, hnext⟩
      · exact .inr ⟨j, c', getElem?_step_of_ne hij hj, htag⟩
  · simp only [hshared]
    refine forall_step hc ?_ ?_ ?_
    · exact fun c' hc' call body htask r hr =>
        (h.bodies c' hc' call body htask r hr).advance d s.shared hpostgres c
    · intro call body htask r hr
      rcases task_advance d s.shared c call body htask with hold | hread
      · exact (h.bodies c (List.mem_of_getElem? hc) call body hold r hr).advance d s.shared hpostgres c
      · exact (hread r hr).advance d s.shared hpostgres c
    · intro c' hc' call body htask
      obtain ⟨call', rfl⟩ := started_advance d s.shared c c' hc'
      cases htask
  · intro id hid
    rw [hshared]
    have hnextId := (rows_advance d s.shared hpostgres c).1
    cases hwrites : c.writesTable with
    | false =>
      simp only [(command_rows d conversationId s i g hwrites).2] at hid
      exact (h.summaries id hid).trans_le hnextId
    | true =>
      cases c with
      | addInsert call message messages => exact (h.summaries id hid).trans_le hnextId
      | compactTransaction call body summary =>
        simp only [advance, (rows_applyToPostgres d s.shared hpostgres _ body summary).2]
        rcases List.mem_append.mp hid with hold | hnew
        · exact (h.summaries id hold).trans (Nat.lt_succ_self _)
        · rw [List.mem_singleton.mp hnew]
          exact Nat.lt_succ_self _
      | _ => cases hwrites

lemma next (hpostgres : d.history.postgresEnabled = true) {a : Annotated}
    (h : RowsTracked conversationId a) (event : Event) :
    RowsTracked conversationId (a.next d conversationId event) := by
  obtain ⟨s, g⟩ := a
  have hon : (!d.history.redisEnabled && !d.history.postgresEnabled) = false := by simp [hpostgres]
  have hstart : ∀ c : Call, c.task = none → ∀ c' ∈ (s.start c).procs, ∀ call body,
      c'.task = some (call, body) → ∀ r ∈ body, WasRow s.shared.table call.conversationId r := by
    intro c hnone c' hc' call body htask
    rcases List.mem_append.mp hc' with hold | hnew
    · exact h.bodies c' hold call body htask
    · rw [List.mem_singleton.mp hnew, hnone] at htask
      cases htask
  cases event with
  | get other lastN =>
    simp only [Annotated.next, System.next, startGet, hon, Bool.false_eq_true, if_false, Ghost.record]
    refine ⟨fun t ht => (h.inserted t ht).imp_right ?_, hstart _ rfl, h.summaries⟩
    rintro ⟨j, c', hj, htag⟩
    exact ⟨j, c', getElem?_start_of_some hj, htag⟩
  | add call =>
    simp only [Annotated.next, System.next, startAdd, hon, Bool.false_eq_true, if_false, Ghost.record]
    have hkeep : ∀ t ∈ g.added, (∃ r ∈ s.shared.table.ofUser conversationId, t ∈ g.rows r.id) ∨
        ∃ (j : ℕ) (c : Call), (s.start (addNext call call.messages)).procs[j]? = some c ∧
          t ∈ c.tagsToInsert conversationId j := by
      intro t ht
      apply (h.inserted t ht).imp_right
      rintro ⟨j, c', hj, htag⟩
      exact ⟨j, c', getElem?_start_of_some hj, htag⟩
    by_cases hcall : call.conversationId = conversationId
    · simp only [hcall, if_true]
      refine ⟨fun t ht => ?_, hstart _ (task_addNext ..), h.summaries⟩
      rcases List.mem_append.mp ht with hadded | hnew
      · exact hkeep t hadded
      · refine .inr ⟨s.procs.length, _, getElem?_start_self _, ?_⟩
        rw [tagsToInsert_addNext, if_pos hcall]
        exact hnew
    · simp only [hcall, if_false]
      exact ⟨hkeep, hstart _ (task_addNext ..), h.summaries⟩
  | step i =>
    cases hc : s.procs[i]? with
    | none =>
      rw [Annotated.next_of_none d conversationId hc]
      exact h
    | some c =>
      rw [Annotated.next_of_some d conversationId hc]
      exact h.step_call hpostgres hc
  | expire other => exact ⟨h.inserted, h.bodies, h.summaries⟩

end RowsTracked

lemma RowsTracked.stored_of_quiet {conversationId : String} {a : Annotated}
    (h : RowsTracked conversationId a) (hquiet : a.system.Quiet) :
    ∀ t ∈ a.ghost.added, ∃ r ∈ a.system.shared.table.ofUser conversationId, t ∈ a.ghost.rows r.id := by
  intro t ht
  rcases h.inserted t ht with hstored | ⟨i, c, hc, htag⟩
  · exact hstored
  · have hover := hquiet c (List.mem_of_getElem? hc)
    cases c <;> first | cases htag | cases hover

lemma rowsTracked_empty (conversationId : String) : RowsTracked conversationId Annotated.empty :=
  ⟨nofun, nofun, nofun⟩

/-- However the calls overlap, Postgres loses no message. -/
theorem postgres_loses_nothing {d : Deployment} (hpostgres : d.history.postgresEnabled = true)
    (conversationId : String) (events : List Event)
    (hquiet : (run (Annotated.next d conversationId) Annotated.empty events).system.Quiet) :
    let a := run (Annotated.next d conversationId) Annotated.empty events
    ∀ t ∈ a.ghost.added, ∃ r ∈ a.system.shared.table.ofUser conversationId, t ∈ a.ghost.rows r.id := by
  refine RowsTracked.stored_of_quiet ?_ hquiet
  exact run_invariant (fun a event h _ => h.next hpostgres event) (rowsTracked_empty conversationId)
    (along_of_forall (P := fun _ _ => True) (fun _ _ _ => trivial) _)

end AscendAI.Memory
