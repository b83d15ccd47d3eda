import AscendAI.WebSearch.ReadAnswers

/-!
# What the reader sends to a site

Each call that is handed over leaves one monitor behind. The cookies and the user agent that curl sends to a site are
one session: what a monitor has read in the browser of a human, or what FlareSolverr has given with a clearance, for a
page of the same domain.
-/

namespace AscendAI.WebSearch
open PythonUrl Runs ProcessPool

/-! ### Handovers and monitors -/

section Handovers

variable {x : ReadStrategies} {s : CookieStore} {call : ReadCall} {pool : ReadPool}
  {outcome : ProcessPool.Outcome CookieStore ReadTask}

/-- The page that a task watches. -/
def ReadTask.monitored : ReadTask → List String
  | .call _ => []
  | .monitor m => [m.url]

def ReadStage.handsOver : ReadStage → Bool
  | .finished (.humanIntervention _) => true
  | _ => false

/-- The page that a task has handed over. -/
def ReadTask.handedOver : ReadTask → List String
  | .call c => if c.stage.handsOver then [c.url] else []
  | .monitor _ => []

lemma handsOver_afterContent (mode : ReadMode) (url : String) (name : Tier) (tiers : List Tier) (visit : Visit)
    (text : String) : (afterContent x mode url name tiers visit text).handsOver = false := by
  unfold afterContent
  split
  · split
    · rfl
    · rfl
  · split
    · rfl
    split
    · rfl
    · split
      · rfl
      · rfl

lemma handsOver_afterVisit {mode : ReadMode} {url : String} (name : Tier) (escalating : Bool) (tiers : List Tier)
    {visit : Visit} (hnot : ∀ required, visit ≠ .novnc required) :
    (afterVisit x mode url name escalating tiers visit).handsOver = false := by
  unfold afterVisit
  split
  · exact handsOver_afterContent mode url name tiers visit _
  · split
    · rfl
    · rfl
  · rename_i required houtcome
    exact absurd (outcome_human_iff.mp houtcome) (hnot required)
  · rfl

/-- A visit hands a page over exactly when it starts a monitor for it. -/
lemma handedOver_conclude (name : Tier) (escalating : Bool) (tiers : List Tier) (visit : Visit) :
    (ReadTask.call (call.conclude x name escalating tiers visit)).handedOver =
      (visit.starts call.url).flatMap ReadTask.monitored := by
  by_cases hnovnc : ∃ required, visit = .novnc required
  · obtain ⟨required, rfl⟩ := hnovnc
    have houtcome : (Visit.novnc required).outcome x call.mode call.url = .humanIntervention required :=
      outcome_human_iff.mpr rfl
    simp only [ReadTask.handedOver, ReadCall.conclude, afterVisit, houtcome]
    rfl
  · have hnot : ∀ required, visit ≠ .novnc required := fun required heq => hnovnc ⟨required, heq⟩
    have hstarts : visit.starts call.url = [] := by
      cases visit with
      | novnc required => exact absurd rfl (hnot required)
      | _ => rfl
    rw [hstarts, List.flatMap_nil]
    simp only [ReadTask.handedOver, ReadCall.conclude, handsOver_afterVisit name escalating tiers hnot,
      Bool.false_eq_true, if_false]

lemma ReadCall.Awaits.handsOver {name : Tier} {escalating : Bool} {tiers : List Tier}
    (h : call.Awaits name escalating tiers) : call.stage.handsOver = false := by
  obtain hstage | ⟨curl, session, hstage, -, -⟩ := h
  · rw [hstage]
    rfl
  · rw [hstage]
    rfl

/-- A move of a call hands over one page for each monitor that it starts. -/
lemma ReadCall.Moved.handedOver (h : call.Moved x s outcome) :
    outcome.next.monitored = [] ∧ outcome.started.flatMap ReadTask.handedOver = [] ∧
      outcome.next.handedOver =
        (ReadTask.call call).handedOver ++ outcome.started.flatMap ReadTask.monitored := by
  cases h with
  | still => exact ⟨rfl, rfl, (List.append_nil _).symm⟩
  | checked tiers hstage =>
    refine ⟨rfl, rfl, ?_⟩
    simp only [ReadTask.handedOver, hstage, ReadStage.handsOver]
    cases tiers with
    | nil => rfl
    | cons name tiers =>
      simp only [ReadCall.check]
      split
      · rfl
      · rfl
  | asked curl session tiers hstage hsession =>
    refine ⟨rfl, rfl, ?_⟩
    simp only [ReadTask.handedOver, hstage, ReadStage.handsOver]
    rfl
  | visited name escalating tiers visit reply hawaits htier hfetch =>
    refine ⟨rfl, ?_, ?_⟩
    · cases visit <;> rfl
    · dsimp only
      rw [handedOver_conclude]
      simp only [ReadTask.handedOver, hawaits.handsOver, Bool.false_eq_true, if_false, List.nil_append]

/-- The pages that are watched are those that were handed over. -/
def ReadPool.Balanced (pool : ReadPool) : Prop :=
  (pool.procs.flatMap ReadTask.monitored).Perm (pool.procs.flatMap ReadTask.handedOver)

lemma ReadPool.Balanced.step (h : pool.Balanced)
    {advance : CookieStore → ReadTask → ProcessPool.Outcome CookieStore ReadTask} {i : ℕ} {task : ReadTask}
    (hget : pool.procs[i]? = some task)
    (hmonitored : (advance pool.shared task).next.monitored = task.monitored)
    (hstarted : (advance pool.shared task).started.flatMap ReadTask.handedOver = [])
    (hhanded : (advance pool.shared task).next.handedOver =
      task.handedOver ++ (advance pool.shared task).started.flatMap ReadTask.monitored) :
    ReadPool.Balanced (pool.step advance i) := by
  obtain ⟨rest, hbefore, hafter⟩ := flatMap_step advance ReadTask.monitored hget
  obtain ⟨rest', hbefore', hafter'⟩ := flatMap_step advance ReadTask.handedOver hget
  have hrest : (task.monitored ++ rest).Perm (task.handedOver ++ rest') := hbefore.symm.trans (h.trans hbefore')
  rw [hmonitored] at hafter
  rw [hhanded, hstarted, List.nil_append, List.append_assoc] at hafter'
  apply hafter.trans
  refine List.Perm.trans ?_ hafter'.symm
  refine (List.perm_append_comm_assoc _ _ _).trans ?_
  refine List.Perm.trans ?_ (List.perm_append_comm_assoc _ _ _)
  exact hrest.append_left _

lemma ReadPool.Balanced.next (h : pool.Balanced) (event : ReadEvent) : (pool.next x event).Balanced := by
  cases event with
  | request url heavyMode mode =>
    unfold ReadPool.Balanced at h ⊢
    simp only [ReadPool.next, start, List.flatMap_append]
    exact h.append (List.Perm.refl _)
  | move i move =>
    cases hget : pool.procs[i]? with
    | none =>
      rw [ReadPool.next, step_of_none hget]
      exact h
    | some task =>
      cases task with
      | call call =>
        have hmoved : call.Moved x pool.shared (advanceCall x move pool.shared call) := moved_advanceCall move
        obtain ⟨hmonitored, hstarted, hhanded⟩ := hmoved.handedOver
        exact @ReadPool.Balanced.step pool h (moveTask x move) i _ hget hmonitored hstarted hhanded
      | monitor monitor => exact @ReadPool.Balanced.step pool h (moveTask x move) i _ hget rfl rfl rfl
  | watch i move =>
    cases hget : pool.procs[i]? with
    | none =>
      rw [ReadPool.next, step_of_none hget]
      exact h
    | some task =>
      cases task with
      | call call =>
        exact @ReadPool.Balanced.step pool h (watchTask x move) i _ hget rfl rfl (List.append_nil _).symm
      | monitor monitor =>
        refine @ReadPool.Balanced.step pool h (watchTask x move) i _ hget ?_ rfl rfl
        have hmoved : monitor.Moved x.sources pool.shared move (advanceMonitor x.sources move pool.shared monitor) :=
          moved_advanceMonitor move
        simp only [watchTask, ReadTask.monitored, hmoved.url]
  | clock t => exact h
  | evict key => exact h

lemma balanced_run (x : ReadStrategies) (store : CookieStore) (events : List ReadEvent) :
    ReadPool.Balanced (run (ReadPool.next x) ⟨store, []⟩ events) := by
  apply run_keeps
  · exact fun pool event _ h => ReadPool.Balanced.next h event
  · exact List.Perm.refl _

/-- However the calls overlap, the monitors watch the pages that were handed over, each for one answer. -/
theorem handovers_are_monitored (x : ReadStrategies) (connected : Bool) (now : ℚ) (events : List ReadEvent) :
    let pool := run (ReadPool.next x) ⟨startManager connected now, []⟩ events
    (pool.procs.flatMap ReadTask.monitored).Perm (pool.procs.flatMap ReadTask.handedOver) :=
  balanced_run x (startManager connected now) events

end Handovers

/-! ### The sessions that are saved -/

section Saved

variable {x : ReadStrategies} {s : CookieStore} {call : ReadCall} {pool : ReadPool} {procs procs' : List ReadTask}
  {domain : String} {data : SessionData} {source source' : String → SessionData → Prop}
  {outcome : ProcessPool.Outcome CookieStore ReadTask}

/-- A monitor has saved the data for a page of the domain, or a visit of FlareSolverr has. -/
def SavedIn (x : ReadStrategies) (procs : List ReadTask) (domain : String) (data : SessionData) : Prop :=
  (∃ monitor, .monitor monitor ∈ procs ∧ getDomain x.sources.u x.sources.tld monitor.url = .ok domain ∧
      data ∈ monitor.saved) ∨
    ∃ call visit, .call call ∈ procs ∧ getDomain x.sources.u x.sources.tld call.url = .ok domain ∧
      visit ∈ call.visits ∧ visit.saves x = some data

/-- The same task, which has seen and saved no less. -/
def ReadTask.Later : ReadTask → ReadTask → Prop
  | .call c, .call c' => c'.url = c.url ∧ c.visits ⊆ c'.visits
  | .monitor m, .monitor m' => m'.url = m.url ∧ m.saved ⊆ m'.saved
  | _, _ => False

lemma ReadTask.Later.refl (task : ReadTask) : task.Later task := by
  cases task with
  | call c => exact ⟨rfl, List.Subset.refl _⟩
  | monitor m => exact ⟨rfl, List.Subset.refl _⟩

lemma SavedIn.later (h : SavedIn x procs domain data)
    (hlater : ∀ task ∈ procs, ∃ task' ∈ procs', task.Later task') : SavedIn x procs' domain data := by
  obtain ⟨monitor, hmem, hdomain, hdata⟩ | ⟨call, visit, hmem, hdomain, hvisit, hdata⟩ := h
  · obtain ⟨task', hmem', hsame⟩ := hlater _ hmem
    cases task' with
    | call call' => exact hsame.elim
    | monitor monitor' => exact .inl ⟨monitor', hmem', hsame.1 ▸ hdomain, hsame.2 hdata⟩
  · obtain ⟨task', hmem', hsame⟩ := hlater _ hmem
    cases task' with
    | call call' => exact .inr ⟨call', visit, hmem', hsame.1 ▸ hdomain, hsame.2 hvisit, hdata⟩
    | monitor monitor' => exact hsame.elim

/-- A step leaves every task with a later one. -/
lemma later_step {advance : CookieStore → ReadTask → ProcessPool.Outcome CookieStore ReadTask} {i : ℕ}
    {task : ReadTask} (hget : pool.procs[i]? = some task) (hnext : task.Later (advance pool.shared task).next) :
    ∀ t ∈ pool.procs, ∃ t' ∈ (pool.step advance i).procs, t.Later t' := by
  obtain ⟨before, after, hprocs, hstep⟩ := exists_split advance hget
  intro t ht
  rw [hprocs, List.mem_append, List.mem_cons] at ht
  rw [hstep]
  obtain hbefore | rfl | hafter := ht
  · exact ⟨t, by simp only [List.append_assoc, List.mem_append, hbefore, true_or], .refl t⟩
  · refine ⟨_, ?_, hnext⟩
    simp only [List.append_assoc, List.mem_append, List.cons_append, List.mem_cons, true_or, or_true]
  · refine ⟨t, ?_, .refl t⟩
    simp only [List.append_assoc, List.mem_append, List.cons_append, List.mem_cons, hafter, true_or, or_true]

lemma later_call (h : call.Moved x s outcome) : (ReadTask.call call).Later outcome.next := by
  cases h with
  | still => exact .refl _
  | checked tiers hstage => cases tiers with
    | nil => exact ⟨rfl, List.Subset.refl _⟩
    | cons name tiers => exact ⟨rfl, List.Subset.refl _⟩
  | asked curl session tiers hstage hsession => exact ⟨rfl, List.Subset.refl _⟩
  | visited name escalating tiers visit reply hawaits htier hfetch => exact ⟨rfl, List.subset_append_left _ _⟩

/-! ### The sessions that a call has got -/

/-- The data has a source for the domain of the URL. -/
def SourcedFor (x : ReadStrategies) (source : String → SessionData → Prop) (url : String) (data : SessionData) : Prop :=
  ∃ domain, getDomain x.sources.u x.sources.tld url = .ok domain ∧ source domain data

/-- Whatever the manager has given a call has a source. -/
structure ReadCall.SessionsFrom (x : ReadStrategies) (source : String → SessionData → Prop) (call : ReadCall) :
    Prop where
  pending : ∀ curl data tiers, call.stage = .requesting curl (some data) tiers → SourcedFor x source call.url data
  fetched : ∀ visit ∈ call.visits, ∀ fetch, visit.fetch = some fetch → ∀ data, fetch.session = .ok (some data) →
    SourcedFor x source call.url data

lemma ReadCall.SessionsFrom.mono (h : call.SessionsFrom x source)
    (himp : ∀ domain data, source domain data → source' domain data) : call.SessionsFrom x source' := by
  have hall : ∀ data, SourcedFor x source call.url data → SourcedFor x source' call.url data := by
    intro data hdata
    obtain ⟨domain, hdomain, hsource⟩ := hdata
    exact ⟨domain, hdomain, himp domain data hsource⟩
  exact ⟨fun curl data tiers hstage => hall data (h.pending curl data tiers hstage),
    fun visit hvisit fetch hfetch data hdata => hall data (h.fetched visit hvisit fetch hfetch data hdata)⟩

lemma afterContent_ne_requesting {mode : ReadMode} {url text : String} {name : Tier} {tiers tiers' : List Tier}
    {visit : Visit} {curl : CurlTier} {session : Option SessionData} :
    afterContent x mode url name tiers visit text ≠ .requesting curl session tiers' := by
  unfold afterContent
  split
  · split
    · exact nofun
    · exact nofun
  · split
    · exact nofun
    split
    · exact nofun
    · split
      · exact nofun
      · exact nofun

lemma afterVisit_ne_requesting {mode : ReadMode} {url : String} {name : Tier} {escalating : Bool}
    {tiers tiers' : List Tier} {visit : Visit} {curl : CurlTier} {session : Option SessionData} :
    afterVisit x mode url name escalating tiers visit ≠ .requesting curl session tiers' := by
  unfold afterVisit
  split
  · exact afterContent_ne_requesting
  · split
    · exact nofun
    · exact nofun
  · exact nofun
  · exact nofun

lemma getDomain_of_getSessionData {url : String} {answers : Bool} {session : Option SessionData}
    (h : getSessionData x.sources.u x.sources.tld s url answers = .ok session) :
    ∃ domain, getDomain x.sources.u x.sources.tld url = .ok domain := by
  cases hdomain : getDomain x.sources.u x.sources.tld url with
  | error message =>
    unfold getSessionData at h
    rw [hdomain] at h
    cases h
  | ok domain => exact ⟨domain, rfl⟩

lemma ReadCall.SessionsFrom.moved (h : call.SessionsFrom x source) (hs : s.Sourced source)
    (hmoved : call.Moved x s outcome) {call' : ReadCall} (hnext : outcome.next = .call call') :
    call'.SessionsFrom x source := by
  cases hmoved with
  | still =>
    cases hnext
    exact h
  | checked tiers hstage =>
    cases hnext
    cases tiers with
    | nil => exact ⟨nofun, h.fetched⟩
    | cons name tiers =>
      refine ⟨fun curl data tiers' hrequesting => ?_, h.fetched⟩
      simp only [ReadCall.check] at hrequesting
      split at hrequesting
      · cases hrequesting
      · cases hrequesting
  | asked curl session tiers hstage hsession =>
    cases hnext
    refine ⟨fun curl' data tiers' hrequesting => ?_, h.fetched⟩
    cases hrequesting
    obtain ⟨answers, hget⟩ := hsession
    obtain ⟨domain, hdomain⟩ := getDomain_of_getSessionData hget
    exact ⟨domain, hdomain, hs.get hdomain hget⟩
  | visited name escalating tiers visit reply hawaits htier hfetch =>
    cases hnext
    refine ⟨fun curl data tiers' hrequesting => absurd hrequesting afterVisit_ne_requesting, ?_⟩
    intro visit' hvisit' fetch hsome data hdata
    change visit' ∈ call.visits ++ [visit] at hvisit'
    rw [List.mem_append, List.mem_singleton] at hvisit'
    apply hvisit'.elim
    · exact fun hold => h.fetched visit' hold fetch hsome data hdata
    · intro heq
      obtain ⟨curl, hstage⟩ := hfetch fetch (heq ▸ hsome) (some data) hdata
      exact h.pending curl data tiers hstage

/-! ### Every run -/

/-- What the store and the calls have was saved by a task. -/
structure ReadPool.Known (x : ReadStrategies) (pool : ReadPool) : Prop where
  store : pool.shared.Sourced (SavedIn x pool.procs)
  calls : ∀ task ∈ pool.procs, task.OfCall (ReadCall.SessionsFrom x (SavedIn x pool.procs))

lemma ofCall_mono {P Q : ReadCall → Prop} (himp : ∀ call, P call → Q call) {task : ReadTask} (h : task.OfCall P) :
    task.OfCall Q := by
  cases task with
  | call c => exact himp c h
  | monitor m => trivial

lemma ReadPool.Known.start (h : pool.Known x) {call : ReadCall} (hnew : call.SessionsFrom x (fun _ _ => False)) :
    ReadPool.Known x (pool.start (.call call)) := by
  have hmono : ∀ domain data, SavedIn x pool.procs domain data →
      SavedIn x (pool.procs ++ [.call call]) domain data := fun domain data hsaved =>
    hsaved.later fun task htask => ⟨task, List.mem_append_left _ htask, .refl task⟩
  constructor
  · exact h.store.mono hmono
  · intro task htask
    change task ∈ pool.procs ++ [ReadTask.call call] at htask
    rw [List.mem_append, List.mem_singleton] at htask
    apply htask.elim
    · exact fun hold => ofCall_mono (fun _ hsessions => hsessions.mono hmono) (h.calls task hold)
    · intro heq
      rw [heq]
      exact hnew.mono fun _ _ hfalse => hfalse.elim

/-- A step of a task that keeps what it has seen and saved. -/
lemma ReadPool.Known.step (h : pool.Known x)
    {advance : CookieStore → ReadTask → ProcessPool.Outcome CookieStore ReadTask} {i : ℕ} {task : ReadTask}
    (hget : pool.procs[i]? = some task) (hlater : task.Later (advance pool.shared task).next)
    (hstore : ∀ source : String → SessionData → Prop,
      (∀ domain data, SavedIn x (pool.step advance i).procs domain data → source domain data) →
      pool.shared.Sourced source → (advance pool.shared task).shared.Sourced source)
    (hnext : ∀ source, pool.shared.Sourced source → task.OfCall (ReadCall.SessionsFrom x source) →
      (advance pool.shared task).next.OfCall (ReadCall.SessionsFrom x source))
    (hstarted : ∀ t ∈ (advance pool.shared task).started, ∀ P, t.OfCall P) :
    ReadPool.Known x (pool.step advance i) := by
  have hmono : ∀ domain data, SavedIn x pool.procs domain data →
      SavedIn x (pool.step advance i).procs domain data :=
    fun domain data hsaved => hsaved.later (later_step hget hlater)
  have hbefore : pool.shared.Sourced (SavedIn x (pool.step advance i).procs) := h.store.mono hmono
  have hcalls : ∀ t ∈ pool.procs, t.OfCall (ReadCall.SessionsFrom x (SavedIn x (pool.step advance i).procs)) :=
    fun t ht => ofCall_mono (fun _ hsessions => hsessions.mono hmono) (h.calls t ht)
  constructor
  · rw [shared_step advance hget]
    exact hstore _ (fun _ _ hsaved => hsaved) hbefore
  · apply forall_step hget hcalls
    · exact hnext _ hbefore (hcalls task (List.mem_of_getElem? hget))
    · exact fun t ht => hstarted t ht _

/-- The store after a move of a call. -/
lemma ReadCall.Moved.sourced (h : call.Moved x s outcome) (hs : s.Sourced source)
    (hsource : ∀ domain call' visit, outcome.next = .call call' →
      getDomain x.sources.u x.sources.tld call'.url = .ok domain → visit ∈ call'.visits →
      ∀ data, visit.saves x = some data → source domain data) : outcome.shared.Sourced source := by
  cases h with
  | still => exact hs
  | checked tiers hstage => exact hs
  | asked curl session tiers hstage hsession => exact hs
  | visited name escalating tiers visit reply hawaits htier hfetch =>
    change (saveVisit x s call.url visit reply).Sourced source
    unfold saveVisit
    cases hsaves : visit.saves x with
    | none => exact hs
    | some data =>
      cases hdomain : getDomain x.sources.u x.sources.tld call.url with
      | error message =>
        simp only [saveSessionData, hdomain]
        exact hs
      | ok domain =>
        have hvisit : visit ∈ (call.conclude x name escalating tiers visit).visits :=
          List.mem_append_right _ List.mem_cons_self
        exact hs.save hdomain (hsource domain _ visit rfl hdomain hvisit data hsaves) ttlSeconds reply

lemma ReadPool.Known.next (h : pool.Known x) (event : ReadEvent) : (pool.next x event).Known x := by
  cases event with
  | request url heavyMode mode => exact h.start ⟨nofun, nofun⟩
  | move i move =>
    cases hget : pool.procs[i]? with
    | none =>
      rw [ReadPool.next, step_of_none hget]
      exact h
    | some task =>
      cases task with
      | monitor monitor =>
        apply @ReadPool.Known.step x pool h (moveTask x move) i _ hget (.refl _)
        · exact fun source _ hs => hs
        · exact fun source _ hsessions => hsessions
        · exact fun t ht => absurd ht List.not_mem_nil
      | call call =>
        have hmoved : call.Moved x pool.shared (advanceCall x move pool.shared call) := moved_advanceCall move
        apply @ReadPool.Known.step x pool h (moveTask x move) i _ hget (later_call hmoved)
        · intro source hsource hs
          apply hmoved.sourced hs
          intro domain call' visit hnext hdomain hvisit data hsaves
          apply hsource
          refine .inr ⟨call', visit, ?_, hdomain, hvisit, hsaves⟩
          rw [← hnext]
          exact List.mem_of_getElem? (getElem?_step_self hget)
        · intro source hs hsessions
          obtain ⟨call', hnext⟩ := hmoved.exists_next
          change (advanceCall x move pool.shared call).next.OfCall _
          rw [hnext]
          exact ReadCall.SessionsFrom.moved hsessions hs hmoved hnext
        · exact fun t ht P => hmoved.started t ht
  | watch i move =>
    cases hget : pool.procs[i]? with
    | none =>
      rw [ReadPool.next, step_of_none hget]
      exact h
    | some task =>
      cases task with
      | call call =>
        apply @ReadPool.Known.step x pool h (watchTask x move) i _ hget (.refl _)
        · exact fun source _ hs => hs
        · exact fun source _ hsessions => hsessions
        · exact fun t ht => absurd ht List.not_mem_nil
      | monitor monitor =>
        have hmoved : monitor.Moved x.sources pool.shared move (advanceMonitor x.sources move pool.shared monitor) :=
          moved_advanceMonitor move
        apply @ReadPool.Known.step x pool h (watchTask x move) i _ hget ⟨hmoved.url, hmoved.saved_subset⟩
        · intro source hsource hs
          apply hmoved.sourced hs
          intro domain hdomain data hdata
          apply hsource
          refine .inl ⟨_, List.mem_of_getElem? (getElem?_step_self hget), ?_, hdata⟩
          rw [hmoved.url]
          exact hdomain
        · exact fun source _ _ => trivial
        · exact fun t ht => absurd ht List.not_mem_nil
  | clock t => exact ⟨⟨h.store.redis, h.store.memory⟩, h.calls⟩
  | evict key => exact ⟨@CookieStore.Sourced.evict x.sources.u x.sources.tld _ _ h.store key, h.calls⟩

lemma known_run (x : ReadStrategies) (connected : Bool) (now : ℚ) (events : List ReadEvent) :
    ReadPool.Known x (run (ReadPool.next x) ⟨startManager connected now, []⟩ events) := by
  apply run_keeps
  · exact fun pool event _ h => ReadPool.Known.next h event
  · refine ⟨⟨?_, ?_⟩, fun task htask => absurd htask List.not_mem_nil⟩
    · intro key entry hlookup
      cases hlookup
    · intro domain data hlookup
      cases hlookup

lemma clearance_of_saves {visit : Visit} (h : visit.saves x = some data) :
    "cf_clearance" ∈ data.cookies.map Prod.fst := by
  cases visit with
  | flaresolverr reply =>
    obtain ⟨session, -, -, hclearance⟩ := solved_of_flareSolverrData h
    exact hclearance
  | _ => cases h

end Saved

/-- However calls and monitors overlap: curl sends no cookies with an agent of its own, or the cookies and the agent of
one session that was saved for the domain: by the monitor of a page that was handed to a human, or with a clearance
cookie by FlareSolverr in a visit of a call. -/
theorem requests_carry_saved_sessions (x : ReadStrategies) (connected : Bool) (now : ℚ) (events : List ReadEvent) :
    let pool := run (ReadPool.next x) ⟨startManager connected now, []⟩ events
    ∀ task ∈ pool.procs, task.OfCall fun call =>
      ∀ visit ∈ call.visits, ∀ fetch, visit.fetch = some fetch → ∀ request, fetch.request = some request →
        request = ⟨[], fetch.agent⟩ ∨
          ∃ domain data, getDomain x.sources.u x.sources.tld call.url = .ok domain ∧
            request = ⟨data.cookies, data.userAgent⟩ ∧
            ((∃ monitor, .monitor monitor ∈ pool.procs ∧
                getDomain x.sources.u x.sources.tld monitor.url = .ok domain ∧ data ∈ monitor.saved ∧
                ∃ call' required, .call call' ∈ pool.procs ∧ call'.url = monitor.url ∧
                  call'.stage = .finished (.humanIntervention required)) ∨
              ∃ call' visit', .call call' ∈ pool.procs ∧
                getDomain x.sources.u x.sources.tld call'.url = .ok domain ∧ visit' ∈ call'.visits ∧
                visit'.saves x = some data ∧ "cf_clearance" ∈ data.cookies.map Prod.fst) := by
  intro pool task htask
  have hknown : pool.Known x := known_run x connected now events
  have hbalanced : pool.Balanced := balanced_run x (startManager connected now) events
  have hsessions := hknown.calls task htask
  cases task with
  | monitor monitor => trivial
  | call call =>
    intro visit hvisit fetch hfetch request hrequest
    unfold CurlFetch.request at hrequest
    split at hrequest
    · cases hrequest
    · cases hrequest
      exact .inl rfl
    · rename_i data hdata
      cases hrequest
      obtain ⟨domain, hdomain, hsaved⟩ := hsessions.fetched visit hvisit fetch hfetch data hdata
      refine .inr ⟨domain, data, hdomain, rfl, ?_⟩
      apply hsaved.imp
      · intro hmonitored
        obtain ⟨monitor, hmem, hsame, hdata⟩ := hmonitored
        refine ⟨monitor, hmem, hsame, hdata, ?_⟩
        have hurl : monitor.url ∈ pool.procs.flatMap ReadTask.monitored :=
          List.mem_flatMap.mpr ⟨_, hmem, List.mem_singleton_self _⟩
        obtain ⟨task', hmem', hhanded⟩ := List.mem_flatMap.mp (hbalanced.mem_iff.mp hurl)
        cases task' with
        | monitor monitor' => cases hhanded
        | call call' =>
          simp only [ReadTask.handedOver] at hhanded
          split at hhanded
          · rename_i hstage
            unfold ReadStage.handsOver at hstage
            split at hstage
            · rename_i required hfinished
              exact ⟨call', required, hmem', (List.mem_singleton.mp hhanded).symm, hfinished⟩
            · cases hstage
          · cases hhanded
      · intro hsolved
        obtain ⟨call', visit', hmem, hsame, hvisit', hsaves⟩ := hsolved
        exact ⟨call', visit', hmem, hsame, hvisit', hsaves, clearance_of_saves hsaves⟩

end AscendAI.WebSearch
