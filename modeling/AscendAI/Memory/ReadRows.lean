import AscendAI.Memory.MessageTags

/-!
# What calls in flight have read

A call in flight holds rows of a conversation only if the conversation has rows: an insert adds one,
and the transaction of a compaction puts a row in the place of those it deletes.
-/

namespace AscendAI.Memory
open ProcessPool Runs RowOrder

lemma eq_mapToMessage_of_mem_loadFromPostgres {d : Deployment} {w : World} {conversationId : String}
    {hydrated : List Message} (hhydrated : loadFromPostgres d w conversationId = .ok hydrated) :
    ∀ message ∈ hydrated, ∃ r ∈ w.table.ofUser conversationId, message = mapToMessage r := by
  simp only [loadFromPostgres, ChatHistoryTable.findRecentHistory] at hhydrated
  split at hhydrated
  · cases hhydrated
  · obtain rfl := Except.ok.inj hhydrated
    intro message hmessage
    obtain ⟨r, hr, rfl⟩ := List.mem_map.mp (List.mem_reverse.mp hmessage)
    exact ⟨r, (mem_orderBy _).mp (List.mem_of_mem_take hr), rfl⟩

/-- The conversation of which the call has read rows. -/
def Call.readFrom : Call → Option String
  | .getPushAll conversationId .. => some conversationId
  | .compactSummarise call _ | .compactTransaction call .. | .compactTrim call .. | .compactPush call .. =>
    some call.conversationId
  | _ => none

/-- What the calls in flight have read of the table is, or was, there, and a conversation that has been
read still has rows. -/
structure ReadsTable (conversationId : String) (s : System) : Prop where
  bodies : ∀ c ∈ s.procs, ∀ call body, c.task = some (call, body) →
    ∀ r ∈ body, WasRow s.shared.table call.conversationId r
  rows : ∀ c ∈ s.procs, c.readFrom = some conversationId → s.shared.table.ofUser conversationId ≠ []

section Reachable

variable {d : Deployment} {conversationId : String} {w : World} {c : Call}

lemma table_advance_of_disabled (hpostgres : d.history.postgresEnabled = false) (w : World) (c : Call) :
    (advance d w c).shared.table = w.table := by
  cases hwrites : c.writesTable with
  | false => exact table_advance d w hwrites
  | true =>
    cases c with
    | addInsert call message rest => simp [advance, hpostgres]
    | compactTransaction call body summary => simp [advance, applyToPostgres, hpostgres]
    | _ => cases hwrites

lemma wasRow_advance {userId : String} {r : ChatHistory} (h : WasRow w.table userId r) (c : Call) :
    WasRow (advance d w c).shared.table userId r := by
  cases hpostgres : d.history.postgresEnabled with
  | false => rwa [table_advance_of_disabled hpostgres]
  | true => exact h.advance d w hpostgres c

/-- A transaction puts a summary row in the place of the rows that it deletes, so a conversation that
has rows keeps some. -/
lemma ofUser_advance_ne_nil (hbodies : ∀ call body, c.task = some (call, body) →
    ∀ r ∈ body, WasRow w.table call.conversationId r) (h : w.table.ofUser conversationId ≠ []) :
    (advance d w c).shared.table.ofUser conversationId ≠ [] := by
  cases hpostgres : d.history.postgresEnabled with
  | false => rwa [table_advance_of_disabled hpostgres]
  | true =>
    obtain ⟨r, hr⟩ := List.exists_mem_of_ne_nil _ h
    cases hwrites : c.writesTable with
    | false => rwa [table_advance d w hwrites]
    | true =>
      cases c with
      | addInsert call message rest =>
        refine List.ne_nil_of_mem (a := r) ?_
        obtain ⟨hmem, huser⟩ := (ChatHistoryTable.mem_ofUser _).mp hr
        simp only [advance, hpostgres, if_true, persistToDb, World.table_saveNow]
        exact (ChatHistoryTable.mem_ofUser _).mpr ⟨List.mem_append_left _ hmem, huser⟩
      | compactTransaction call body summary =>
        have hmem := fun r => mem_ofUser_applyToPostgres d w hpostgres call.conversationId conversationId
          body summary r
        by_cases hdeleted : r.id ∈ body.map ChatHistory.id
        · obtain ⟨r', hr', hid⟩ := List.mem_map.mp hdeleted
          have hbody := hbodies call body rfl r' hr'
          obtain ⟨hrow, huser⟩ := (ChatHistoryTable.mem_ofUser _).mp hr
          have hcall : call.conversationId = conversationId := by
            rw [← hbody.userId, ← hbody.eq_of_id_eq r hrow hid.symm, huser]
          exact List.ne_nil_of_mem ((hmem _).mpr (.inr ⟨rfl, hcall⟩))
        · exact List.ne_nil_of_mem ((hmem r).mpr (.inl ⟨hr, hdeleted⟩))
      | _ => cases hwrites

lemma readFrom_addNext (call : AddCall) (rest : List Message) : (addNext call rest).readFrom = none := by
  cases rest <;> rfl

lemma readFrom_advance (h : (advance d w c).next.readFrom = some conversationId) :
    c.readFrom = some conversationId ∨ w.table.ofUser conversationId ≠ [] := by
  cases c with
  | getRange other lastN =>
    simp only [advance] at h
    generalize (if d.history.redisEnabled = true then _ else _) = cached at h
    repeat' split at h
    all_goals cases h
  | getFind other lastN =>
    right
    simp only [advance] at h
    split at h
    · cases h
    rename_i hydrated hhydrated
    split at h
    · rename_i hne
      obtain rfl := Option.some.inj h
      obtain ⟨message, hmessage⟩ : ∃ message, message ∈ hydrated := by
        rw [Bool.and_eq_true, Bool.not_eq_true', List.isEmpty_eq_false_iff_exists_mem] at hne
        exact hne.2
      obtain ⟨r, hr, -⟩ := eq_mapToMessage_of_mem_loadFromPostgres hhydrated message hmessage
      exact List.ne_nil_of_mem hr
    · cases h
  | addInsert call message rest =>
    have hnone : (advance d w (.addInsert call message rest)).next.readFrom = none := readFrom_addNext call rest
    rw [hnone] at h
    cases h
  | compactFind call =>
    right
    simp only [advance] at h
    split at h
    · cases h
    split at h
    · cases h
    have hrows : ∀ r ∈ (if d.history.postgresEnabled = true
        then w.table.findAllHistoryOrdered d.tie call.conversationId else []),
        r ∈ w.table.ofUser call.conversationId := by
      intro r hr
      split at hr
      · rwa [ChatHistoryTable.mem_findAllHistoryOrdered, ← ChatHistoryTable.mem_ofUser] at hr
      · cases hr
    generalize (if d.history.postgresEnabled = true then _ else _) = history at h hrows
    split at h
    · cases h
    rename_i hne
    split at h
    · cases h
    obtain rfl := Option.some.inj h
    obtain ⟨r, hr⟩ := List.exists_mem_of_ne_nil history (by simpa using hne)
    exact List.ne_nil_of_mem (hrows r hr)
  | _ =>
    simp only [advance] at h
    repeat' split at h
    all_goals first
      | exact .inl h
      | cases h

lemma ReadsTable.start {s : System} (h : ReadsTable conversationId s) {c : Call} (htask : c.task = none)
    (hread : c.readFrom = none) : ReadsTable conversationId (s.start c) := by
  refine ⟨fun c' hc' => ?_, fun c' hc' => ?_⟩
  · rcases List.mem_append.mp hc' with hold | hnew
    · exact h.bodies c' hold
    · intro call body heq
      rw [List.mem_singleton.mp hnew, htask] at heq
      cases heq
  · rcases List.mem_append.mp hc' with hold | hnew
    · exact h.rows c' hold
    · intro heq
      rw [List.mem_singleton.mp hnew, hread] at heq
      cases heq

lemma ReadsTable.step {s : System} (h : ReadsTable conversationId s) {i : ℕ}
    (hc : s.procs[i]? = some c) : ReadsTable conversationId (s.step (advance d) i) := by
  have hmem := List.mem_of_getElem? hc
  have hrows : s.shared.table.ofUser conversationId ≠ [] →
      (advance d s.shared c).shared.table.ofUser conversationId ≠ [] :=
    ofUser_advance_ne_nil (h.bodies c hmem)
  refine ⟨?_, ?_⟩
  · rw [shared_step (advance d) hc]
    refine forall_step hc (fun c' hc' call body htask r hr => ?_) (fun call body htask r hr => ?_)
      fun c' hc' call body htask => ?_
    · exact wasRow_advance (h.bodies c' hc' call body htask r hr) c
    · rcases task_advance d s.shared c call body htask with hold | hnew
      · exact wasRow_advance (h.bodies c hmem call body hold r hr) c
      · exact wasRow_advance (hnew r hr) c
    · obtain ⟨call', rfl⟩ := started_advance d s.shared c c' hc'
      cases htask
  · rw [shared_step (advance d) hc]
    refine forall_step hc (fun c' hc' hread => hrows (h.rows c' hc' hread)) (fun hread => ?_)
      fun c' hc' hread => ?_
    · exact hrows ((readFrom_advance hread).elim (h.rows c hmem) id)
    · obtain ⟨call', rfl⟩ := started_advance d s.shared c c' hc'
      cases hread

lemma ReadsTable.next {s : System} (h : ReadsTable conversationId s) (event : Event) :
    ReadsTable conversationId (System.next d s event) := by
  cases event with
  | get other lastN =>
    refine h.start ?_ ?_
    all_goals
      rw [startGet]
      split
      all_goals rfl
  | add call =>
    rw [System.next, startAdd]
    split
    · exact h.start rfl rfl
    · exact h.start (task_addNext call call.messages) (readFrom_addNext call call.messages)
  | step i =>
    cases hc : s.procs[i]? with
    | none =>
      rw [System.next, step_of_none hc]
      exact h
    | some c => exact h.step hc
  | expire other => exact ⟨h.bodies, h.rows⟩

lemma readsTable_run (d : Deployment) (conversationId : String) (events : List Event) :
    ReadsTable conversationId (run (System.next d) System.empty events) := by
  have hempty : ReadsTable conversationId System.empty :=
    ⟨fun _ h => absurd h List.not_mem_nil, fun _ h => absurd h List.not_mem_nil⟩
  exact run_invariant (fun _ event h (_ : True) => h.next event) hempty (along_of_forall (by simp) _)

/-- Without Postgres no conversation gets a row. -/
lemma ofUser_run_of_disabled (hpostgres : d.history.postgresEnabled = false) (conversationId : String)
    (events : List Event) :
    (run (System.next d) System.empty events).shared.table.ofUser conversationId = [] := by
  have hstep : ∀ (s : System) (event : Event), s.shared.table.ofUser conversationId = [] → True →
      (System.next d s event).shared.table.ofUser conversationId = [] := by
    intro s event h _
    cases event with
    | step i =>
      cases hc : s.procs[i]? with
      | none => rwa [System.next, step_of_none hc]
      | some c => rwa [System.next, shared_step _ hc, table_advance_of_disabled hpostgres]
    | _ => exact h
  exact run_invariant hstep rfl (along_of_forall (by simp) _)

end Reachable

end AscendAI.Memory
