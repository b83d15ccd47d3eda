import AscendAI.WebSearch.ReadService

/-!
# What the reader serves

However the calls overlap, each of them does what `read` or `read_with_links` does on the outcomes of its visits. What
it answers with comes from a page that the detector has let through, a call that meets a challenge ends with a human,
and what curl sends to a site is one session that was saved for it.
-/

namespace AscendAI.WebSearch
open PythonUrl Runs ProcessPool

/-! ### What one move of a call does -/

section Moves

variable {x : ReadStrategies} {s : CookieStore} {call : ReadCall}

/-- The call is in the strategy of a round. -/
def ReadCall.Awaits (call : ReadCall) (name : Tier) (escalating : Bool) (tiers : List Tier) : Prop :=
  call.stage = .invoking name escalating tiers ∨
    ∃ curl session, call.stage = .requesting curl session tiers ∧ name = curl.tier ∧ escalating = false

/-- The fetch of a visit, if it is one of curl. -/
def Visit.fetch : Visit → Option CurlFetch
  | .beautifulsoup fetch => some fetch
  | .trafilatura fetch => some fetch
  | _ => none

/-- What a call does in one move: nothing, the check before a tier, the question for a session, or a visit to its end,
with what the call has got from the manager before. -/
inductive ReadCall.Moved (x : ReadStrategies) (s : CookieStore) (call : ReadCall) :
    ProcessPool.Outcome CookieStore ReadTask → Prop
  | still : Moved x s call ⟨s, .call call, []⟩
  | checked (tiers : List Tier) (hstage : call.stage = .choosing tiers) :
      Moved x s call ⟨s, .call (call.check x s.now tiers), []⟩
  | asked (curl : CurlTier) (session : Option SessionData) (tiers : List Tier)
      (hstage : call.stage = .invoking curl.tier false tiers)
      (hsession : ∃ answers, getSessionData x.sources.u x.sources.tld s call.url answers = .ok session) :
      Moved x s call ⟨s, .call { call with stage := .requesting curl session tiers }, []⟩
  | visited (name : Tier) (escalating : Bool) (tiers : List Tier) (visit : Visit) (reply : SetexReply)
      (hawaits : call.Awaits name escalating tiers) (htier : visit.tier = executed name escalating)
      (hfetch : ∀ fetch, visit.fetch = some fetch → ∀ session, fetch.session = .ok session →
        ∃ curl, call.stage = .requesting curl session tiers) :
      Moved x s call ⟨saveVisit x s call.url visit reply, .call (call.conclude x name escalating tiers visit),
        visit.starts call.url⟩

lemma tier_of_ofTier {tier : Tier} {curl : CurlTier} (h : CurlTier.ofTier tier = some curl) : tier = curl.tier := by
  cases tier with
  | beautifulsoup =>
    cases h
    rfl
  | trafilatura =>
    cases h
    rfl
  | _ => cases h

lemma executed_eq_curl {name : Tier} {escalating : Bool} {curl : CurlTier} (h : executed name escalating = curl.tier) :
    name = curl.tier ∧ escalating = false := by
  cases escalating with
  | false => exact ⟨h, rfl⟩
  | true => cases curl with
    | beautifulsoup => cases h
    | trafilatura => cases h

lemma tier_curlVisit (curl : CurlTier) (fetch : CurlFetch) : (curl.visit fetch).tier = curl.tier := by
  cases curl <;> rfl

lemma fetch_curlVisit (curl : CurlTier) (fetch : CurlFetch) : (curl.visit fetch).fetch = some fetch := by
  cases curl <;> rfl

lemma saveVisit_curlVisit (curl : CurlTier) (fetch : CurlFetch) (url : String) (reply : SetexReply) :
    saveVisit x s url (curl.visit fetch) reply = s := by
  cases curl <;> rfl

lemma starts_curlVisit (curl : CurlTier) (fetch : CurlFetch) (url : String) : (curl.visit fetch).starts url = [] := by
  cases curl <;> rfl

/-- A visit of curl as a move. -/
lemma moved_curlVisit {name : Tier} {escalating : Bool} {tiers : List Tier} {curl : CurlTier} {fetch : CurlFetch}
    (hawaits : call.Awaits name escalating tiers) (hname : executed name escalating = curl.tier)
    (hfetch : ∀ session, fetch.session = .ok session → call.stage = .requesting curl session tiers) :
    call.Moved x s ⟨s, .call (call.conclude x name escalating tiers (curl.visit fetch)), []⟩ := by
  have htier : (curl.visit fetch).tier = executed name escalating := (tier_curlVisit curl fetch).trans hname.symm
  have hvisited :=
    ReadCall.Moved.visited (x := x) (s := s) name escalating tiers (curl.visit fetch) .stored hawaits htier
  rw [saveVisit_curlVisit, starts_curlVisit] at hvisited
  apply hvisited
  intro fetch' hfetch' session hsession
  rw [fetch_curlVisit] at hfetch'
  cases hfetch'
  exact ⟨curl, hfetch session hsession⟩

lemma tier_of_completed {url : String} {tier : Tier} {move : ReadMove} {visit : Visit}
    (h : completed x url tier move = some visit) : visit.tier = tier ∧ visit.fetch = none := by
  unfold completed at h
  split at h <;> cases h <;> exact ⟨rfl, rfl⟩

lemma moved_advanceInvoking {name : Tier} {escalating : Bool} {tiers : List Tier} (move : ReadMove)
    (hstage : call.stage = .invoking name escalating tiers) :
    call.Moved x s (advanceInvoking x move s call name escalating tiers) := by
  unfold advanceInvoking
  split
  · rename_i curl answers hcurl
    have hname := tier_of_ofTier hcurl
    split
    · exact moved_curlVisit (.inl hstage) hname nofun
    · rename_i session hsession
      obtain ⟨rfl, rfl⟩ := executed_eq_curl hname
      exact .asked curl session tiers hstage ⟨answers, hsession⟩
  · exact .still
  · split
    · exact .still
    · rename_i visit hvisit
      obtain ⟨htier, hfetch⟩ := tier_of_completed hvisit
      apply ReadCall.Moved.visited name escalating tiers visit _ (.inl hstage) htier
      intro fetch hsome
      rw [hfetch] at hsome
      cases hsome

lemma moved_advanceCall (move : ReadMove) : call.Moved x s (advanceCall x move s call) := by
  unfold advanceCall
  split
  · rename_i tiers hstage
    exact .checked tiers hstage
  · rename_i name escalating tiers hstage
    exact moved_advanceInvoking _ hstage
  · rename_i curl session tiers agent response hstage
    apply moved_curlVisit (.inr ⟨curl, session, hstage, rfl, rfl⟩) rfl
    intro session' hsession
    cases hsession
    exact hstage
  · exact .still

end Moves

/-! ### A call and the sequential reader -/

section Sequential

variable {x : ReadStrategies} {s : Session} {call : ReadCall}

def ReadCall.invocations (x : ReadStrategies) (call : ReadCall) : List Invocation :=
  call.visits.map (Visit.invocation x call.mode call.url)

/-- What the outcomes of the visits and the checks of a call make of a session. -/
def ReadCall.session (x : ReadStrategies) (call : ReadCall) : Session where
  outcome k _ := ((call.visits[k]?).map (Visit.outcome x call.mode call.url)).getD .failed
  elapsed i := (call.checks[i]?).getD 0

/-- The sequential reader on the arguments of a call. -/
def ReadCall.sequential (x : ReadStrategies) (s : Session) (call : ReadCall) : Call :=
  match call.mode with
  | .read => read x.reader s call.url call.heavyMode
  | .withLinks linkFilter => readWithLinks x.reader s call.url linkFilter call.heavyMode

/-- The session has the outcomes that the call has met, and its times. -/
structure Agrees (x : ReadStrategies) (s : Session) (call : ReadCall) : Prop where
  outcome : ∀ k visit, call.visits[k]? = some visit → s.outcome k visit.tier = visit.outcome x call.mode call.url
  elapsed : ∀ i t, call.checks[i]? = some t → s.elapsed i = t

lemma agrees_session (call : ReadCall) : Agrees x (call.session x) call := by
  constructor
  · intro k visit hvisit
    simp only [ReadCall.session, hvisit, Option.map_some, Option.getD_some]
  · intro i t ht
    simp only [ReadCall.session, ht, Option.getD_some]

/-- The round of a mode in the sequential reader. -/
def ReadMode.round (x : ReadStrategies) (s : Session) (mode : ReadMode) (url : String) :
    Tier → List Invocation → List Invocation × Step :=
  match mode with
  | .read => readRound x.reader s
  | .withLinks linkFilter => readWithLinksRound x.reader s url linkFilter

def ReadMode.stepOf (x : ReadStrategies) (mode : ReadMode) (url : String) : Attempt → Step :=
  match mode with
  | .read => readStep x.reader
  | .withLinks linkFilter => linksStep x.reader url linkFilter

lemma round_eq (mode : ReadMode) (url : String) (name : Tier) (log : List Invocation) :
    mode.round x s url name log =
      (log ++ (attemptAt s log.length name).invocations, mode.stepOf x url (attemptAt s log.length name)) := by
  cases mode with
  | read => exact readRound_eq x.reader s name log
  | withLinks linkFilter => exact readWithLinksRound_eq x.reader s url linkFilter name log

/-- The rest of a ladder after a round. -/
def afterStep (x : ReadStrategies) (s : Session) (mode : ReadMode) (url : String) (i : ℕ) (log : List Invocation)
    (tiers : List Tier) : Step → Call
  | .stop answer => ⟨log, answer⟩
  | .next => climb x.reader s (mode.round x s url) i log tiers

lemma climb_cons (mode : ReadMode) (url : String) (i : ℕ) (log : List Invocation) (name : Tier) (tiers : List Tier) :
    climb x.reader s (mode.round x s url) i log (name :: tiers) =
      if budgetExceeded x.reader s i name then ⟨log, .failure "budget_exhausted"⟩
      else afterStep x s mode url (i + 1) (log ++ (attemptAt s log.length name).invocations) tiers
        (mode.stepOf x url (attemptAt s log.length name)) := by
  rw [climb, round_eq]
  cases mode.stepOf x url (attemptAt s log.length name) with
  | next => rfl
  | stop answer => rfl

/-- The attempt of a round in which the call is. -/
def roundAttempt (s : Session) (k : ℕ) (name : Tier) (escalating : Bool) : Attempt :=
  if escalating then .escalated name (s.outcome k .novnc) else attemptAt s k name

/-- The invocations of that attempt that are still to be made. -/
def roundInvocations (s : Session) (k : ℕ) (name : Tier) (escalating : Bool) : List Invocation :=
  if escalating then [⟨.novnc, s.outcome k .novnc⟩] else (attemptAt s k name).invocations

/-- The rest of a round in which the call is. -/
def ReadCall.inRound (x : ReadStrategies) (s : Session) (call : ReadCall) (name : Tier) (escalating : Bool)
    (tiers : List Tier) : Call :=
  afterStep x s call.mode call.url call.checks.length
    (call.invocations x ++ roundInvocations s (call.invocations x).length name escalating) tiers
    (call.mode.stepOf x call.url (roundAttempt s (call.invocations x).length name escalating))

/-- What the sequential reader makes of the rest of a call. -/
def ReadCall.rest (x : ReadStrategies) (s : Session) (call : ReadCall) : Call :=
  match call.stage with
  | .choosing tiers =>
    climb x.reader s (call.mode.round x s call.url) call.checks.length (call.invocations x) tiers
  | .invoking name escalating tiers => call.inRound x s name escalating tiers
  | .requesting curl _ tiers => call.inRound x s curl.tier false tiers
  | .finished answer => ⟨call.invocations x, answer⟩

lemma ReadCall.Awaits.rest {name : Tier} {escalating : Bool} {tiers : List Tier}
    (h : call.Awaits name escalating tiers) : call.rest x s = call.inRound x s name escalating tiers := by
  unfold ReadCall.rest
  obtain hstage | ⟨curl, session, hstage, rfl, rfl⟩ := h
  · rw [hstage]
  · rw [hstage]

def stageOf (tiers : List Tier) : Step → ReadStage
  | .stop answer => .finished answer
  | .next => .choosing tiers

lemma afterContent_eq {mode : ReadMode} {url text : String} {a : Attempt} {visit : Visit} (tiers : List Tier)
    (houtcome : a.outcome = .content text) (hproducer : a.producer = visit.tier) :
    afterContent x mode url a.tier tiers visit text = stageOf tiers (mode.stepOf x url a) := by
  cases mode with
  | read =>
    simp only [afterContent, ReadMode.stepOf, readStep, houtcome, hproducer]
    by_cases hvalid : x.reader.validator.validate text = true
    · rw [if_pos hvalid, if_pos hvalid, stageOf]
    · rw [if_neg hvalid, if_neg hvalid, stageOf]
  | withLinks linkFilter =>
    simp only [afterContent, ReadMode.stepOf, linksStep, houtcome]
    by_cases hempty : text = ""
    · rw [if_pos hempty, if_pos hempty, stageOf]
    · rw [if_neg hempty, if_neg hempty]
      cases x.reader.annotateLinks text url linkFilter with
      | error message => rfl
      | ok annotated =>
        obtain ⟨content, links⟩ := annotated
        by_cases hvalid : x.reader.validator.validate content = true
        · simp only [if_pos hvalid, stageOf]
        · simp only [if_neg hvalid, stageOf]

lemma stepOf_of_outcome (mode : ReadMode) (url : String) (a : Attempt) :
    (a.outcome = .challengeDetected → mode.stepOf x url a = .next) ∧
      (a.outcome = .failed → mode.stepOf x url a = .next) ∧
      ∀ required, a.outcome = .humanIntervention required →
        mode.stepOf x url a = .stop (.humanIntervention required) := by
  cases mode with
  | read =>
    simp only [ReadMode.stepOf, readStep]
    exact ⟨fun h => by rw [h], fun h => by rw [h], fun required h => by rw [h]⟩
  | withLinks linkFilter =>
    simp only [ReadMode.stepOf, linksStep]
    exact ⟨fun h => by rw [h], fun h => by rw [h], fun required h => by rw [h]⟩

/-- The stage after the visit that ends an attempt is what the step of the attempt says. -/
lemma afterVisit_eq {mode : ReadMode} {url : String} {a : Attempt} {escalating : Bool} {visit : Visit}
    (tiers : List Tier) (houtcome : a.outcome = visit.outcome x mode url) (hproducer : a.producer = visit.tier)
    (hends : visit.outcome x mode url = .challengeDetected → escalating = true) :
    afterVisit x mode url a.tier escalating tiers visit = stageOf tiers (mode.stepOf x url a) := by
  obtain ⟨hchallenge, hfailed, hhuman⟩ := @stepOf_of_outcome x mode url a
  unfold afterVisit
  cases hvisit : visit.outcome x mode url with
  | content text => exact afterContent_eq tiers (houtcome.trans hvisit) hproducer
  | challengeDetected =>
    rw [hchallenge (houtcome.trans hvisit)]
    simp only [hends hvisit, if_true, stageOf]
  | humanIntervention required =>
    rw [hhuman required (houtcome.trans hvisit)]
    rfl
  | failed =>
    rw [hfailed (houtcome.trans hvisit)]
    rfl

lemma invocations_conclude (name : Tier) (escalating : Bool) (tiers : List Tier) (visit : Visit) :
    (call.conclude x name escalating tiers visit).invocations x =
      call.invocations x ++ [visit.invocation x call.mode call.url] := by
  unfold ReadCall.invocations ReadCall.conclude
  rw [List.map_append]
  rfl

/-- A visit that ends an attempt leaves the call with the rest of the ladder. -/
lemma rest_conclude_of_ends {name : Tier} {escalating : Bool} {tiers : List Tier} {visit : Visit} {a : Attempt}
    (hname : a.tier = name) (houtcome : a.outcome = visit.outcome x call.mode call.url)
    (hproducer : a.producer = visit.tier)
    (hends : visit.outcome x call.mode call.url = .challengeDetected → escalating = true) :
    (call.conclude x name escalating tiers visit).rest x s =
      afterStep x s call.mode call.url call.checks.length
        (call.invocations x ++ [visit.invocation x call.mode call.url]) tiers (call.mode.stepOf x call.url a) := by
  subst hname
  have hstage : (call.conclude x a.tier escalating tiers visit).stage =
      stageOf tiers (call.mode.stepOf x call.url a) := afterVisit_eq tiers houtcome hproducer hends
  unfold ReadCall.rest
  rw [hstage, invocations_conclude]
  cases call.mode.stepOf x call.url a with
  | next => rfl
  | stop answer => rfl

/-- A visit takes the call on as the sequential reader would. -/
lemma rest_conclude {name : Tier} {escalating : Bool} {tiers : List Tier} {visit : Visit}
    (htier : visit.tier = executed name escalating)
    (hs : s.outcome (call.invocations x).length visit.tier = visit.outcome x call.mode call.url) :
    call.inRound x s name escalating tiers = (call.conclude x name escalating tiers visit).rest x s := by
  cases escalating with
  | true =>
    change visit.tier = .novnc at htier
    rw [htier] at hs
    have hrest := @rest_conclude_of_ends x s call name true tiers visit
      (.escalated name (visit.outcome x call.mode call.url)) rfl rfl htier.symm fun _ => rfl
    rw [hrest]
    simp only [ReadCall.inRound, roundInvocations, roundAttempt, if_true, hs, Visit.invocation, htier]
  | false =>
    change visit.tier = name at htier
    rw [htier] at hs
    by_cases hchallenge : visit.outcome x call.mode call.url = .challengeDetected
    · rw [hchallenge] at hs
      have hstage : (call.conclude x name false tiers visit).stage = .invoking name true tiers := by
        simp only [ReadCall.conclude, afterVisit, hchallenge, Bool.false_eq_true, if_false]
      unfold ReadCall.rest
      rw [hstage]
      simp only [ReadCall.inRound, invocations_conclude, roundInvocations, roundAttempt, Bool.false_eq_true, if_false,
        if_true, attemptAt_of_challenge s hs, Attempt.invocations, List.length_append, List.length_singleton,
        Visit.invocation, hchallenge, htier, List.append_assoc, List.singleton_append]
      rfl
    · have hdirect : s.outcome (call.invocations x).length name ≠ .challengeDetected := by
        rw [hs]
        exact hchallenge
      have hrest := @rest_conclude_of_ends x s call name false tiers visit
        (.direct name (s.outcome (call.invocations x).length name) hdirect) rfl hs htier.symm
        fun h => absurd h hchallenge
      rw [hrest]
      simp only [ReadCall.inRound, roundInvocations, roundAttempt, Bool.false_eq_true, if_false,
        attemptAt_of_unchallenged s hdirect, Attempt.invocations, Visit.invocation, hs, htier]

lemma Agrees.of_conclude {name : Tier} {escalating : Bool} {tiers : List Tier} {visit : Visit}
    (h : Agrees x s (call.conclude x name escalating tiers visit)) :
    Agrees x s call ∧
      s.outcome (call.invocations x).length visit.tier = visit.outcome x call.mode call.url := by
  have hlast : (call.visits ++ [visit])[call.visits.length]? = some visit := List.getElem?_concat_length
  refine ⟨⟨?_, h.elapsed⟩, ?_⟩
  · intro k visit' hvisit'
    apply h.outcome k visit'
    exact (List.getElem?_append_left (List.getElem?_eq_some_iff.mp hvisit').1).trans hvisit'
  · have hlength : (call.invocations x).length = call.visits.length := List.length_map _
    rw [hlength]
    exact h.outcome call.visits.length visit hlast

/-- The call so far is the beginning of what the sequential reader does, on whatever session goes on from there. -/
def ReadCall.Follows (x : ReadStrategies) (call : ReadCall) : Prop :=
  ∀ s, Agrees x s call → call.sequential x s = call.rest x s

lemma follows_startCall (now : ℚ) (url : String) (heavyMode : Bool) (mode : ReadMode) :
    (startCall x now url heavyMode mode).Follows x := by
  intro s hs
  cases mode with
  | read => rfl
  | withLinks linkFilter => rfl

lemma ReadCall.Follows.check (h : call.Follows x) (now : ℚ) {tiers : List Tier}
    (hstage : call.stage = .choosing tiers) : (call.check x now tiers).Follows x := by
  intro s hs
  cases tiers with
  | nil =>
    have hrest := h s ⟨hs.outcome, hs.elapsed⟩
    unfold ReadCall.rest at hrest
    rw [hstage] at hrest
    exact hrest
  | cons name tiers =>
    have hbefore : Agrees x s call := by
      refine ⟨hs.outcome, fun i t ht => hs.elapsed i t ?_⟩
      exact (List.getElem?_append_left (List.getElem?_eq_some_iff.mp ht).1).trans ht
    have helapsed : s.elapsed call.checks.length = now - call.startedAt :=
      hs.elapsed call.checks.length _ List.getElem?_concat_length
    have hrest := h s hbefore
    unfold ReadCall.rest at hrest
    rw [hstage] at hrest
    simp only [climb_cons, budgetExceeded, helapsed, Bool.and_eq_true, decide_eq_true_eq] at hrest
    refine hrest.trans ?_
    unfold ReadCall.rest
    by_cases hover : name ≠ .novnc ∧ x.reader.readTotalBudget < now - call.startedAt
    · rw [if_pos hover]
      simp only [ReadCall.check, if_pos hover]
      rfl
    · rw [if_neg hover]
      simp only [ReadCall.check, if_neg hover, ReadCall.inRound, List.length_append, List.length_singleton]
      rfl

lemma ReadCall.Follows.conclude (h : call.Follows x) {name : Tier} {escalating : Bool} {tiers : List Tier}
    {visit : Visit} (hawaits : call.Awaits name escalating tiers) (htier : visit.tier = executed name escalating) :
    (call.conclude x name escalating tiers visit).Follows x := by
  intro s hs
  obtain ⟨hbefore, houtcome⟩ := hs.of_conclude
  have hrest := h s hbefore
  rw [hawaits.rest, rest_conclude htier houtcome] at hrest
  exact hrest

lemma ReadCall.Follows.moved (h : call.Follows x) {store : CookieStore}
    {outcome : ProcessPool.Outcome CookieStore ReadTask} (hmoved : call.Moved x store outcome) {call' : ReadCall}
    (hnext : outcome.next = .call call') : call'.Follows x := by
  cases hmoved with
  | still =>
    cases hnext
    exact h
  | checked tiers hstage =>
    cases hnext
    exact h.check store.now hstage
  | asked curl session tiers hstage hsession =>
    cases hnext
    intro s hs
    have hrest := h s ⟨hs.outcome, hs.elapsed⟩
    unfold ReadCall.rest at hrest
    rw [hstage] at hrest
    exact hrest
  | visited name escalating tiers visit reply hawaits htier hfetch =>
    cases hnext
    exact h.conclude hawaits htier

end Sequential

/-! ### What holds of every call -/

section Runs

variable {x : ReadStrategies} {P : ReadCall → Prop}

/-- A property of the call of a task. -/
def ReadTask.OfCall (P : ReadCall → Prop) : ReadTask → Prop
  | .call c => P c
  | .monitor _ => True

lemma ofCall_starts (url : String) (visit : Visit) : ∀ task ∈ visit.starts url, task.OfCall P := by
  intro task htask
  cases visit with
  | novnc required =>
    rw [List.mem_singleton.mp htask]
    trivial
  | _ => cases htask

lemma ReadCall.Moved.exists_next {s : CookieStore} {call : ReadCall}
    {outcome : ProcessPool.Outcome CookieStore ReadTask} (h : call.Moved x s outcome) :
    ∃ call', outcome.next = .call call' := by
  cases h with
  | still => exact ⟨_, rfl⟩
  | checked tiers hstage => exact ⟨_, rfl⟩
  | asked curl session tiers hstage hsession => exact ⟨_, rfl⟩
  | visited name escalating tiers visit reply hawaits htier hfetch => exact ⟨_, rfl⟩

lemma ReadCall.Moved.started {s : CookieStore} {call : ReadCall}
    {outcome : ProcessPool.Outcome CookieStore ReadTask} (h : call.Moved x s outcome) :
    ∀ task ∈ outcome.started, task.OfCall P := by
  cases h with
  | visited name escalating tiers visit reply hawaits htier hfetch => exact ofCall_starts call.url visit
  | _ => exact fun task htask => absurd htask List.not_mem_nil

/-- The rule of the calls: what holds of a new call and is kept by every move holds of every call of a run. -/
theorem calls_run (hstart : ∀ now url heavyMode mode, P (startCall x now url heavyMode mode))
    (hmoved : ∀ s call outcome, ReadCall.Moved x s call outcome → P call →
      ∀ call', outcome.next = .call call' → P call')
    (store : CookieStore) (events : List ReadEvent) :
    ∀ task ∈ (run (ReadPool.next x) ⟨store, []⟩ events).procs, task.OfCall P := by
  have hkeeps : ∀ (pool : ReadPool), ∀ event ∈ events, (∀ task ∈ pool.procs, task.OfCall P) →
      ∀ task ∈ (pool.next x event).procs, task.OfCall P := by
    intro pool event _ h
    cases event with
    | request url heavyMode mode =>
      intro task htask
      rw [ReadPool.next, start, List.mem_append, List.mem_singleton] at htask
      apply htask.elim (h task)
      intro heq
      rw [heq]
      exact hstart _ _ _ _
    | move i move =>
      cases hget : pool.procs[i]? with
      | none =>
        rw [ReadPool.next, step_of_none hget]
        exact h
      | some task =>
        have htask := h task (List.mem_of_getElem? hget)
        apply forall_step hget h
        · cases task with
          | call call =>
            have hmove : call.Moved x pool.shared (advanceCall x move pool.shared call) := moved_advanceCall move
            obtain ⟨call', hnext⟩ := hmove.exists_next
            change ReadTask.OfCall P (advanceCall x move pool.shared call).next
            rw [hnext]
            exact hmoved _ _ _ hmove htask call' hnext
          | monitor monitor => exact htask
        · cases task with
          | call call => exact (moved_advanceCall move).started
          | monitor monitor => exact fun task htask => absurd htask List.not_mem_nil
    | watch i move =>
      cases hget : pool.procs[i]? with
      | none =>
        rw [ReadPool.next, step_of_none hget]
        exact h
      | some task =>
        have htask := h task (List.mem_of_getElem? hget)
        apply forall_step hget h
        · cases task with
          | call call => exact htask
          | monitor monitor => trivial
        · cases task with
          | call call => exact fun task htask => absurd htask List.not_mem_nil
          | monitor monitor => exact fun task htask => absurd htask List.not_mem_nil
    | clock t => exact h
    | evict key => exact h
  exact run_keeps hkeeps fun task htask => absurd htask List.not_mem_nil

/-- However the calls overlap, a call that has been answered did what the sequential reader does on the outcomes of its
visits and the times of its checks: it made the same invocations, and gave the same answer. -/
theorem reads_are_sequential (x : ReadStrategies) (connected : Bool) (now : ℚ) (events : List ReadEvent) :
    ∀ task ∈ (run (ReadPool.next x) ⟨startManager connected now, []⟩ events).procs,
      task.OfCall fun call => ∀ answer, call.stage = .finished answer →
        call.sequential x (call.session x) = ⟨call.invocations x, answer⟩ := by
  intro task htask
  have hfollows : task.OfCall (ReadCall.Follows x) :=
    calls_run (fun _ _ _ _ => follows_startCall _ _ _ _) (fun _ _ _ hmoved h _ hnext => h.moved hmoved hnext)
      (startManager connected now) events task htask
  cases task with
  | call call =>
    intro answer hstage
    have hrest := hfollows (call.session x) (agrees_session call)
    unfold ReadCall.rest at hrest
    rw [hstage] at hrest
    exact hrest
  | monitor monitor => trivial

end Runs

/-- The call of the task has been answered so. -/
def ReadTask.answers (answer : Answer) : ReadTask → Bool
  | .call ⟨_, _, _, _, .finished a, _, _⟩ => a = answer
  | _ => false

lemma exists_call_of_answers {procs : List ReadTask} {answer : Answer}
    (h : procs.any (ReadTask.answers answer) = true) :
    ∃ call, .call call ∈ procs ∧ call.stage = .finished answer := by
  obtain ⟨task, htask, hanswers⟩ := List.any_eq_true.mp h
  cases task with
  | call call =>
    obtain ⟨url, heavyMode, mode, startedAt, stage, visits, checks⟩ := call
    refine ⟨_, htask, ?_⟩
    cases stage with
    | finished a => exact congrArg _ (of_decide_eq_true hanswers)
    | _ => cases hanswers
  | monitor monitor => cases hanswers

/-- The plain reader, with extractors that take a page for its text. -/
def plainStrategies : ReadStrategies where
  sources :=
    { u := asciiData
      tld := ⟨fun host => ⟨host, ""⟩⟩
      reader := plainReader
      publicVncUrl := "http://localhost:6080"
      seleniumBrowserVncUrl := "http://localhost:7900" }
  isWord := Char.isAlphanum
  soupText html := .ok html
  trafilaturaExtract html := .ok (some html)

/-- A page is read while a human is asked to log in to another one. -/
def overlappingReads : List ReadEvent :=
  [.request "https://a.example/" false .read, .request "https://b.example/?login" false .read, .move 0 .check,
    .move 1 .check, .move 0 (.session true), .move 1 (.intervene none),
    .move 0 (.response "agent" (some ⟨200, plainPage⟩))]

theorem reads_are_sequential_overlapping :
    ∃ call, .call call ∈ (run (ReadPool.next plainStrategies) ⟨startManager true 0, []⟩ overlappingReads).procs ∧
      call.sequential plainStrategies (call.session plainStrategies) =
        ⟨call.invocations plainStrategies, .success plainPage none "1-beautifulsoup"⟩ := by
  obtain ⟨call, hcall, hstage⟩ := exists_call_of_answers
    (by decide +kernel : (run (ReadPool.next plainStrategies) ⟨startManager true 0, []⟩
      overlappingReads).procs.any (ReadTask.answers (.success plainPage none "1-beautifulsoup")) = true)
  exact ⟨call, hcall, reads_are_sequential plainStrategies true 0 overlappingReads (.call call) hcall _ hstage⟩

end AscendAI.WebSearch
