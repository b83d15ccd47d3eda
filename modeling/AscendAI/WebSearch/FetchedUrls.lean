import Mathlib.Logic.Relation
import AscendAI.WebSearch.ReaderLadder
import AscendAI.WebSearch.UrlValidator

/-!
# The URLs that a call fetches

The guard looks at the URL of the request only. What the curl_cffi tiers fetch and what the route handler
lets through is safe exactly when the redirects of the URL lead to safe URLs, the browser makes a safe URL of
it, and the pages behind that request nothing unsafe that the adblock rules would let pass.
-/

namespace AscendAI.WebSearch
open HttpNetwork Runs

def SafeUrl (s : WebSearchService) (url : String) : Prop := isSafeExternalUrl s url = .ok true

instance (s : WebSearchService) (url : String) : Decidable (SafeUrl s url) :=
  inferInstanceAs (Decidable (isSafeExternalUrl s url = .ok true))

/-- A loaded page leads to another: by a redirect, or by a reference that is not blocked. -/
inductive Visits (s : WebSearchService) : String × ℕ → String × ℕ → Prop
  | redirect {url target : String} {redirects : ℕ} (hredirect : s.web.redirect url = some target)
      (hlimit : redirects < s.browser.maxRedirects)
      (hpass : s.browser.routesRedirects = true → s.shouldBlock target = false) :
      Visits s (url, redirects) (target, redirects + 1)
  | reference {url target : String} {redirects : ℕ} (hreference : target ∈ s.web.references url)
      (hpass : s.shouldBlock target = false) : Visits s (url, redirects) (target, 0)

/-- A loaded page makes a request that the adblock rules let pass. -/
inductive Sends (s : WebSearchService) : String × ℕ → String → Prop
  | redirect {url target : String} {redirects : ℕ} (hredirect : s.web.redirect url = some target)
      (hlimit : redirects < s.browser.maxRedirects) (hroutes : s.browser.routesRedirects = true)
      (hpass : s.shouldBlock target = false) : Sends s (url, redirects) target
  | reference {url target : String} {redirects : ℕ} (hreference : target ∈ s.web.references url)
      (hpass : s.shouldBlock target = false) : Sends s (url, redirects) target

/-- The URL is safe, and so is all that the pages behind it send. -/
def BrowsesSafely (s : WebSearchService) (url : String) : Prop :=
  s.shouldBlock url = false → SafeUrl s url ∧ ∀ page, Relation.ReflTransGen (Visits s) (url, 0) page →
    ∀ target, Sends s page target → SafeUrl s target

section Browsing

variable {s : WebSearchService} {b : BrowserState} {page : String × ℕ} {target : String}

lemma mem_loaded_route {url : String} {redirects : ℕ} :
    page ∈ (b.route s url redirects).loaded ↔
      page ∈ b.loaded ∨ page = (url, redirects) ∧ s.shouldBlock url = false := by
  cases hblock : s.shouldBlock url <;> simp [BrowserState.route, routeHandler, hblock]

lemma mem_letThrough_route {url : String} {redirects : ℕ} :
    target ∈ (b.route s url redirects).letThrough ↔
      target ∈ b.letThrough ∨ target = url ∧ s.shouldBlock url = false := by
  cases hblock : s.shouldBlock url <;>
    simp [BrowserState.route, routeHandler, BrowserState.letThrough, hblock, eq_comm]

/-- What a step can do. -/
lemma browserStep_cases (b : BrowserState) (e : BrowserEvent) :
    browserStep s b e = b ∨
      ∃ url redirects target, (url, redirects) ∈ b.loaded ∧
        ((s.web.redirect url = some target ∧ redirects < s.browser.maxRedirects ∧
            (s.browser.routesRedirects = true ∧ browserStep s b e = b.route s target (redirects + 1) ∨
              s.browser.routesRedirects = false ∧
                browserStep s b e = { b with loaded := b.loaded ++ [(target, redirects + 1)] })) ∨
          (target ∈ s.web.references url ∧ browserStep s b e = b.route s target 0)) := by
  cases e with
  | redirect url redirects =>
    cases hredirect : s.web.redirect url with
    | none => exact Or.inl (by simp only [browserStep, hredirect])
    | some target =>
      simp only [browserStep, hredirect]
      by_cases henabled : (url, redirects) ∈ b.loaded ∧ redirects < s.browser.maxRedirects
      · refine Or.inr ⟨url, redirects, target, henabled.1, Or.inl ⟨hredirect, henabled.2, ?_⟩⟩
        rw [if_pos henabled]
        cases hroutes : s.browser.routesRedirects with
        | true => exact Or.inl ⟨rfl, if_pos rfl⟩
        | false => exact Or.inr ⟨rfl, if_neg Bool.false_ne_true⟩
      · exact Or.inl (if_neg henabled)
  | reference url redirects target =>
    simp only [browserStep]
    by_cases henabled : (url, redirects) ∈ b.loaded ∧ target ∈ s.web.references url
    · exact Or.inr ⟨url, redirects, target, henabled.1, Or.inr ⟨henabled.2, if_pos henabled⟩⟩
    · exact Or.inl (if_neg henabled)

lemma mem_loaded_step {e : BrowserEvent} (h : page ∈ (browserStep s b e).loaded) :
    page ∈ b.loaded ∨ ∃ opener ∈ b.loaded, Visits s opener page := by
  rcases browserStep_cases b e with hstep | ⟨url, redirects, target, hloaded, hstep⟩
  · rw [hstep] at h
    exact Or.inl h
  rcases hstep with ⟨hredirect, hlimit, ⟨hroutes, hstep⟩ | ⟨hroutes, hstep⟩⟩ | ⟨hreference, hstep⟩
  · rw [hstep, mem_loaded_route] at h
    rcases h with h | ⟨rfl, hpass⟩
    · exact Or.inl h
    · exact Or.inr ⟨_, hloaded, .redirect hredirect hlimit fun _ => hpass⟩
  · rw [hstep] at h
    rcases List.mem_append.mp h with h | h
    · exact Or.inl h
    · obtain rfl := List.mem_singleton.mp h
      have hunrouted : ¬s.browser.routesRedirects = true := by simp [hroutes]
      exact Or.inr ⟨_, hloaded, .redirect hredirect hlimit fun hrouted => absurd hrouted hunrouted⟩
  · rw [hstep, mem_loaded_route] at h
    rcases h with h | ⟨rfl, hpass⟩
    · exact Or.inl h
    · exact Or.inr ⟨_, hloaded, .reference hreference hpass⟩

lemma mem_letThrough_step {e : BrowserEvent} (h : target ∈ (browserStep s b e).letThrough) :
    target ∈ b.letThrough ∨ ∃ opener ∈ b.loaded, Sends s opener target := by
  rcases browserStep_cases b e with hstep | ⟨url, redirects, target', hloaded, hstep⟩
  · rw [hstep] at h
    exact Or.inl h
  rcases hstep with ⟨hredirect, hlimit, ⟨hroutes, hstep⟩ | ⟨-, hstep⟩⟩ | ⟨hreference, hstep⟩
  · rw [hstep, mem_letThrough_route] at h
    rcases h with h | ⟨rfl, hpass⟩
    · exact Or.inl h
    · exact Or.inr ⟨_, hloaded, .redirect hredirect hlimit hroutes hpass⟩
  · rw [hstep] at h
    exact Or.inl h
  · rw [hstep, mem_letThrough_route] at h
    rcases h with h | ⟨rfl, hpass⟩
    · exact Or.inl h
    · exact Or.inr ⟨_, hloaded, .reference hreference hpass⟩

/-- What a loaded page leads to is loaded at some step. -/
lemma exists_step_of_visits {next : String × ℕ} (hloaded : page ∈ b.loaded) (h : Visits s page next) :
    ∃ e, next ∈ (browserStep s b e).loaded := by
  cases h with
  | @redirect url target redirects hredirect hlimit hpass =>
    refine ⟨.redirect url redirects, ?_⟩
    simp only [browserStep, hredirect]
    rw [if_pos ⟨hloaded, hlimit⟩]
    by_cases hroutes : s.browser.routesRedirects
    · rw [if_pos hroutes, mem_loaded_route]
      exact Or.inr ⟨rfl, hpass hroutes⟩
    · rw [if_neg hroutes]
      exact List.mem_append_right _ (List.mem_singleton_self _)
  | @reference url target redirects hreference hpass =>
    refine ⟨.reference url redirects target, ?_⟩
    simp only [browserStep]
    rw [if_pos ⟨hloaded, hreference⟩, mem_loaded_route]
    exact Or.inr ⟨rfl, hpass⟩

/-- What a loaded page sends is let through at some step. -/
lemma exists_step_of_sends (hloaded : page ∈ b.loaded) (h : Sends s page target) :
    ∃ e, target ∈ (browserStep s b e).letThrough := by
  cases h with
  | @redirect url target redirects hredirect hlimit hroutes hpass =>
    refine ⟨.redirect url redirects, ?_⟩
    simp only [browserStep, hredirect]
    rw [if_pos ⟨hloaded, hlimit⟩, if_pos hroutes, mem_letThrough_route]
    exact Or.inr ⟨rfl, hpass⟩
  | @reference url target redirects hreference hpass =>
    refine ⟨.reference url redirects target, ?_⟩
    simp only [browserStep]
    rw [if_pos ⟨hloaded, hreference⟩, mem_letThrough_route]
    exact Or.inr ⟨rfl, hpass⟩

/-- What the loaded pages lead to is loaded in some run. -/
lemma exists_run_of_reaches {next : String × ℕ} (hloaded : page ∈ b.loaded)
    (h : Relation.ReflTransGen (Visits s) page next) : ∃ events, next ∈ (run (browserStep s) b events).loaded := by
  induction h with
  | refl => exact ⟨[], hloaded⟩
  | tail _ hvisit ih =>
    obtain ⟨events, hevents⟩ := ih
    obtain ⟨e, he⟩ := exists_step_of_visits hevents hvisit
    refine ⟨events ++ [e], ?_⟩
    rw [run_append]
    exact he

/-- The pages are reached from the URL, and what the route handler let through is safe. -/
structure Browses (s : WebSearchService) (url : String) (b : BrowserState) : Prop where
  passed : b.loaded ≠ [] → s.shouldBlock url = false
  reached : ∀ page ∈ b.loaded, Relation.ReflTransGen (Visits s) (url, 0) page
  safe : ∀ target ∈ b.letThrough, SafeUrl s target

lemma Browses.step {url : String} (hsafe : BrowsesSafely s url) (h : Browses s url b) (e : BrowserEvent) :
    Browses s url (browserStep s b e) where
  passed := by
    intro hne
    apply h.passed
    rintro hnil
    obtain ⟨page, hpage⟩ := List.exists_mem_of_ne_nil _ hne
    rcases mem_loaded_step hpage with hmem | ⟨opener, hmem, -⟩
    · exact List.ne_nil_of_mem hmem hnil
    · exact List.ne_nil_of_mem hmem hnil
  reached := by
    intro page hpage
    rcases mem_loaded_step hpage with hmem | ⟨opener, hmem, hvisit⟩
    · exact h.reached page hmem
    · exact (h.reached opener hmem).tail hvisit
  safe := by
    intro target htarget
    rcases mem_letThrough_step htarget with hmem | ⟨opener, hmem, hsends⟩
    · exact h.safe target hmem
    · exact (hsafe (h.passed (List.ne_nil_of_mem hmem))).2 opener (h.reached opener hmem) target hsends

lemma browses_goto {url : String} (hurl : s.shouldBlock url = false → SafeUrl s url) :
    Browses s url (({} : BrowserState).route s url 0) := by
  have hloaded : ∀ page ∈ (({} : BrowserState).route s url 0).loaded, page = (url, 0) ∧ s.shouldBlock url = false := by
    intro page hpage
    rcases mem_loaded_route.mp hpage with hnone | hpage
    · cases hnone
    · exact hpage
  refine ⟨fun hne => ?_, fun page hpage => ?_, fun target htarget => ?_⟩
  · obtain ⟨page, hpage⟩ := List.exists_mem_of_ne_nil _ hne
    exact (hloaded page hpage).2
  · rw [(hloaded page hpage).1]
  · rcases mem_letThrough_route.mp htarget with hnone | ⟨rfl, hpass⟩
    · cases hnone
    · exact hurl hpass

/-- The route handler lets only safe URLs through, in every run of the browser, exactly when the URL is safe
and all that the pages behind it send, or the URL is blocked. -/
theorem letThrough_safe_iff {url : String} :
    (∀ events, ∀ target ∈ (run (browserStep s) (({} : BrowserState).route s url 0) events).letThrough,
      SafeUrl s target) ↔ BrowsesSafely s url := by
  constructor
  · intro h hpass
    refine ⟨h [] url (mem_letThrough_route.mpr (Or.inr ⟨rfl, hpass⟩)), fun page hreach target hsends => ?_⟩
    have hstart : (url, 0) ∈ (({} : BrowserState).route s url 0).loaded :=
      mem_loaded_route.mpr (Or.inr ⟨rfl, hpass⟩)
    obtain ⟨events, hloaded⟩ := exists_run_of_reaches hstart hreach
    obtain ⟨e, he⟩ := exists_step_of_sends hloaded hsends
    apply h (events ++ [e])
    rw [run_append]
    exact he
  · intro hsafe events
    have hguard : Along (browserStep s) (fun _ _ => True) (({} : BrowserState).route s url 0) events :=
      along_of_forall (fun _ _ _ => trivial) _
    have hrun : Browses s url (run (browserStep s) (({} : BrowserState).route s url 0) events) :=
      run_invariant (fun _ e hb _ => hb.step hsafe e) (browses_goto fun hpass => (hsafe hpass).1) hguard
    exact hrun.safe

end Browsing

section Ladder

variable {r : WebReader} {session : Session} {request : ReadRequest}

/-- The ladder of a request as a loop over the prescribed attempts, which goes on after a failed one. -/
lemma exists_made_read (r : WebReader) (session : Session) (request : ReadRequest) :
    ∃ step attempts, (∀ a : Attempt, a.outcome = .failed → step a = .next) ∧
      Made step [] (attemptsFrom session 0 (affordable r session 0
        (selectStrategies r request.url request.heavyMode))) (request.read r session) attempts := by
  unfold ReadRequest.read
  by_cases hlinks : request.includeLinks
  · rw [if_pos hlinks]
    obtain ⟨attempts, hmade⟩ := exists_made_climb (readWithLinksRound_eq r session request.url request.linkFilter)
      0 [] (selectStrategies r request.url request.heavyMode)
    refine ⟨_, attempts, fun a hfailed => ?_, hmade⟩
    simp only [linksStep, hfailed]
  · rw [if_neg hlinks]
    obtain ⟨attempts, hmade⟩ := exists_made_climb (readRound_eq r session) 0 []
      (selectStrategies r request.url request.heavyMode)
    refine ⟨_, attempts, fun a hfailed => ?_, hmade⟩
    simp only [readStep, hfailed]

lemma affordable_subset (i : ℕ) (tiers : List Tier) : affordable r session i tiers ⊆ tiers := by
  induction tiers generalizing i with
  | nil => exact List.nil_subset _
  | cons name tiers ih =>
    unfold affordable
    by_cases hbudget : budgetExceeded r session i name
    · rw [if_pos hbudget]
      exact List.nil_subset _
    · rw [if_neg hbudget]
      exact List.cons_subset_cons _ (ih (i + 1))

/-- A call invokes only strategies that were selected, and NoVNC. -/
lemma tier_mem_selectStrategies {invocation : Invocation}
    (h : invocation ∈ (request.read r session).invocations) :
    invocation.tier ∈ selectStrategies r request.url request.heavyMode ∨ invocation.tier = .novnc := by
  obtain ⟨step, attempts, -, hmade⟩ := exists_made_read r session request
  rw [hmade.invocations, List.nil_append] at h
  obtain ⟨a, ha, hinvocation⟩ := List.mem_flatMap.mp h
  have htier : a.tier ∈ selectStrategies r request.url request.heavyMode := by
    have hmem : a.tier ∈ (attemptsFrom session 0 (affordable r session 0
        (selectStrategies r request.url request.heavyMode))).map Attempt.tier :=
      List.mem_map_of_mem (hmade.isPrefix.subset ha)
    rw [map_tier_attemptsFrom] at hmem
    exact affordable_subset _ _ hmem
  cases a with
  | direct tier outcome hunchallenged =>
    obtain rfl := List.mem_singleton.mp hinvocation
    exact Or.inl htier
  | escalated tier outcome =>
    rcases List.mem_cons.mp hinvocation with rfl | hinvocation
    · exact Or.inl htier
    · obtain rfl := List.mem_singleton.mp hinvocation
      exact Or.inr rfl

/-- Every strategy fails within the budget. -/
def stalledSession (r : WebReader) : Session := ⟨fun _ _ => .failed, fun _ => r.readTotalBudget⟩

lemma affordable_stalled (i : ℕ) (tiers : List Tier) : affordable r (stalledSession r) i tiers = tiers := by
  induction tiers generalizing i with
  | nil => rfl
  | cons name tiers ih =>
    have hbudget : ¬budgetExceeded r (stalledSession r) i name = true := by
      simp [budgetExceeded, stalledSession]
    rw [affordable, if_neg hbudget, ih]

lemma outcome_of_stalled {k : ℕ} {tiers : List Tier} {a : Attempt}
    (h : a ∈ attemptsFrom (stalledSession r) k tiers) : a = .direct a.tier .failed (by decide) := by
  induction tiers generalizing k with
  | nil => cases h
  | cons name tiers ih =>
    rcases List.mem_cons.mp h with rfl | h
    · rw [attemptAt_of_unchallenged (stalledSession r) (by simp [stalledSession])]
      rfl
    · exact ih h

/-- A ladder whose strategies all fail invokes all of them. -/
lemma invoked_of_stalled {name : Tier} (h : name ∈ selectStrategies r request.url request.heavyMode) :
    ⟨name, .failed⟩ ∈ (request.read r (stalledSession r)).invocations := by
  obtain ⟨step, attempts, hnext, hmade⟩ := exists_made_read r (stalledSession r) request
  rw [affordable_stalled] at hmade
  have hall : attempts = attemptsFrom (stalledSession r) 0 (selectStrategies r request.url request.heavyMode) := by
    rcases hmade.ends with ⟨a, hlast, hstop⟩ | ⟨hall, -, -⟩
    · have hdirect := outcome_of_stalled (hmade.isPrefix.subset (List.mem_of_getLast? hlast))
      rw [hnext a (by rw [hdirect]; rfl)] at hstop
      cases hstop
    · exact hall
  have hname : name ∈ attempts.map Attempt.tier := by
    rw [hall, map_tier_attemptsFrom]
    exact h
  obtain ⟨a, ha, rfl⟩ := List.mem_map.mp hname
  have hdirect := outcome_of_stalled (hall ▸ ha)
  rw [hmade.invocations, List.nil_append]
  refine List.mem_flatMap.mpr ⟨a, ha, ?_⟩
  rw [hdirect]
  exact List.mem_singleton_self _

end Ladder

section Reads

variable {s : WebSearchService} {session : Session} {request : ReadRequest} {call : Call}

/-- Every URL that the curl_cffi tiers fetch in the call, and every request that the route handler lets
through in its Playwright tier, is safe. -/
structure ReadsSafely (s : WebSearchService) (url : String) (call : Call) : Prop where
  curl : ∀ fetched ∈ curlFetched s url call, SafeUrl s fetched
  playwright : ∀ outcome, ⟨.playwrightStealth, outcome⟩ ∈ call.invocations →
    ∀ events, ∀ target ∈ (playwrightGetHtml s url events).letThrough, SafeUrl s target

lemma guardedRead_eq_ok {refusal : String → ReadError} :
    guardedRead s refusal session request = .ok call ↔
      SafeUrl s request.url ∧ call = request.read s.reader session := by
  unfold guardedRead SafeUrl
  cases hsafe : isSafeExternalUrl s request.url with
  | error e => simp
  | ok safe => cases safe <;> simp [eq_comm]

lemma mem_curlFetched {url fetched : String} :
    fetched ∈ curlFetched s url call ↔
      (∃ invocation ∈ call.invocations, invocation.tier ∈ [.beautifulsoup, .trafilatura]) ∧
        fetched ∈ fetchWithCurlCffi s url := by
  unfold curlFetched
  rw [List.mem_flatMap]
  constructor
  · rintro ⟨invocation, hinvocation, hmem⟩
    by_cases htier : invocation.tier ∈ [.beautifulsoup, .trafilatura]
    · rw [if_pos htier] at hmem
      exact ⟨⟨invocation, hinvocation, htier⟩, hmem⟩
    · rw [if_neg htier] at hmem
      cases hmem
  · rintro ⟨⟨invocation, hinvocation, htier⟩, hmem⟩
    refine ⟨invocation, hinvocation, ?_⟩
    rwa [if_pos htier]

/-- The redirects that curl follows from the URL lead to safe URLs. -/
def RedirectsSafely (s : WebSearchService) (url : String) : Prop :=
  ∀ k < s.curl.maxRedirects, ∀ target, hop (curlRedirect s) (k + 1) url = some target → SafeUrl s target

/-- A URL of a login goes to NoVNC only, and nothing is fetched. -/
lemma readsSafely_of_login (hlogin : isLoginRedirectUrl s.reader request.url = true) :
    ReadsSafely s request.url (request.read s.reader session) := by
  have honly : ∀ invocation ∈ (request.read s.reader session).invocations, invocation.tier = .novnc := by
    intro invocation hinvocation
    have htier := tier_mem_selectStrategies hinvocation
    simpa [selectStrategies, hlogin] using htier
  refine ⟨fun fetched hmem => ?_, fun outcome hinvocation => ?_⟩
  · obtain ⟨⟨invocation, hinvocation, htier⟩, -⟩ := mem_curlFetched.mp hmem
    rw [honly invocation hinvocation] at htier
    exact absurd htier (by decide)
  · have htier := honly _ hinvocation
    cases htier

/-- In heavy mode the curl_cffi tiers are left out. -/
lemma heavyMode_of_curl (hlogin : isLoginRedirectUrl s.reader request.url = false) {invocation : Invocation}
    (hinvocation : invocation ∈ (request.read s.reader session).invocations)
    (htier : invocation.tier ∈ [.beautifulsoup, .trafilatura]) : request.heavyMode = false := by
  by_contra hnot
  have hheavy : request.heavyMode = true := by simpa using hnot
  have hselected := tier_mem_selectStrategies hinvocation
  simp only [selectStrategies, hlogin, hheavy, Bool.false_eq_true, if_false, if_true] at hselected
  cases hname : invocation.tier <;> simp [hname] at htier hselected

lemma readsSafely_of_safe (hsafe : SafeUrl s request.url)
    (hlogin : isLoginRedirectUrl s.reader request.url = false)
    (hredirects : request.heavyMode = false → RedirectsSafely s request.url)
    (hbrowses : BrowsesSafely s (s.browser.normalize request.url)) :
    ReadsSafely s request.url (request.read s.reader session) := by
  refine ⟨fun fetched hmem => ?_, fun outcome _ => ?_⟩
  · obtain ⟨⟨invocation, hinvocation, htier⟩, hmem⟩ := mem_curlFetched.mp hmem
    have hlight := heavyMode_of_curl hlogin hinvocation htier
    exact forall_follow_iff.mpr ⟨hsafe, hredirects hlight⟩ fetched hmem
  · simp only [playwrightGetHtml, hlogin, Bool.false_eq_true, if_false]
    exact letThrough_safe_iff.mpr hbrowses

/-- When all strategies fail, curl follows all redirects of the URL. -/
lemma redirectsSafely_of_stalled
    (hlogin : isLoginRedirectUrl s.reader request.url = false) (hlight : request.heavyMode = false)
    (h : ReadsSafely s request.url (request.read s.reader (stalledSession s.reader))) :
    RedirectsSafely s request.url := by
  have hselected : Tier.beautifulsoup ∈ selectStrategies s.reader request.url request.heavyMode := by
    simp [selectStrategies, hlogin, hlight, strategies]
  have hinvoked := invoked_of_stalled hselected
  refine (forall_follow_iff.mp fun fetched hmem => ?_).2
  exact h.curl fetched (mem_curlFetched.mpr ⟨⟨_, hinvoked, by simp⟩, hmem⟩)

/-- When all strategies fail, the browser of the Playwright tier starts at the URL. -/
lemma browsesSafely_of_stalled
    (hlogin : isLoginRedirectUrl s.reader request.url = false)
    (h : ReadsSafely s request.url (request.read s.reader (stalledSession s.reader))) :
    BrowsesSafely s (s.browser.normalize request.url) := by
  have hselected : Tier.playwrightStealth ∈ selectStrategies s.reader request.url request.heavyMode := by
    cases hheavy : request.heavyMode <;> simp [selectStrategies, hlogin, strategies]
  have hsent := h.playwright _ (invoked_of_stalled hselected)
  simp only [playwrightGetHtml, hlogin, Bool.false_eq_true, if_false] at hsent
  exact letThrough_safe_iff.mp hsent

/-- For every request: all that it can fetch is safe, whatever the strategies and the clock do, exactly when
its URL is refused or goes straight to NoVNC, or its redirects, what the browser makes of it and the pages
behind that are safe. In heavy mode the redirects do not matter to curl. -/
theorem reads_safely_iff (s : WebSearchService) (request : ReadRequest) :
    (∀ session call, webRead s session request = .ok call ∨ readUrlV2 s session request = .ok call →
        ReadsSafely s request.url call) ↔
      (SafeUrl s request.url → isLoginRedirectUrl s.reader request.url = false →
        (request.heavyMode = false → RedirectsSafely s request.url) ∧
          BrowsesSafely s (s.browser.normalize request.url)) := by
  have hcall : ∀ session call, webRead s session request = .ok call ∨ readUrlV2 s session request = .ok call ↔
      SafeUrl s request.url ∧ call = request.read s.reader session := by
    intro session call
    rw [webRead, readUrlV2, guardedRead_eq_ok, guardedRead_eq_ok, or_self]
  constructor
  · intro h hsafe hlogin
    have hstalled := h (stalledSession s.reader) _ ((hcall _ _).mpr ⟨hsafe, rfl⟩)
    exact ⟨fun hlight => redirectsSafely_of_stalled hlogin hlight hstalled,
      browsesSafely_of_stalled hlogin hstalled⟩
  · intro h session call hread
    obtain ⟨hsafe, rfl⟩ := (hcall session call).mp hread
    cases hlogin : isLoginRedirectUrl s.reader request.url with
    | true => exact readsSafely_of_login hlogin
    | false =>
      obtain ⟨hredirects, hbrowses⟩ := h hsafe hlogin
      exact readsSafely_of_safe hsafe hlogin hredirects hbrowses

end Reads

/-- A network with a page that redirects curl to the metadata service, and one that references a host of
its own network. -/
def hostileService : WebSearchService where
  reader := plainReader
  unicode := asciiData
  shouldBlock _ := false
  curl := ⟨fun _ => true, 30⟩
  browser := ⟨id, 20, false⟩
  web := {
    getaddrinfo := fun host =>
      if host ∈ ["moved.example.com", "page.example.com"] then .ok ["93.184.216.34"] else .ok [host]
    redirect := fun url =>
      if url = "https://moved.example.com/" then some "http://169.254.169.254/latest/meta-data/" else none
    references := fun url => if url = "https://page.example.com/" then ["http://127.0.0.1:6379/"] else [] }

/-- Every strategy fails at once. -/
def failedSession : Session := ⟨fun _ _ => .failed, fun _ => 0⟩

/-- Curl fetches the metadata service, and the route handler lets the browser request a loopback address. -/
theorem metadata_service_fetched :
    ∃ call call', webRead hostileService failedSession { url := "https://moved.example.com/" } = .ok call ∧
      "http://169.254.169.254/latest/meta-data/" ∈ curlFetched hostileService "https://moved.example.com/" call ∧
      isSafeExternalUrl hostileService "http://169.254.169.254/latest/meta-data/" = .ok false ∧
      readUrlV2 hostileService failedSession { url := "https://page.example.com/" } = .ok call' ∧
      ⟨.playwrightStealth, .failed⟩ ∈ call'.invocations ∧
      "http://127.0.0.1:6379/" ∈ (playwrightGetHtml hostileService "https://page.example.com/"
        [.reference "https://page.example.com/" 0 "http://127.0.0.1:6379/"]).letThrough ∧
      isSafeExternalUrl hostileService "http://127.0.0.1:6379/" = .ok false :=
  ⟨_, _, guardedRead_eq_ok.mpr ⟨by decide +kernel, rfl⟩, by decide +kernel, by decide +kernel,
    guardedRead_eq_ok.mpr ⟨by decide +kernel, rfl⟩, by decide +kernel, by decide +kernel, by decide +kernel⟩

end AscendAI.WebSearch
