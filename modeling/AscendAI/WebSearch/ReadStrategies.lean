import AscendAI.WebSearch.ChallengeDetector
import AscendAI.WebSearch.SessionSources

/-!
# The strategies of the reader

What each strategy makes of what it is shown: a response, a solution of FlareSolverr, the pages that a browser renders
or a crawler has handled. A strategy gives its page away only when the detector lets it through.
-/

namespace AscendAI.WebSearch
open PythonUrl

/-- The strategies with the manager and the reader, the detector, the two extractors with the exceptions of their
parsers, and the timeout. -/
structure ReadStrategies where
  sources : SessionStrategies
  botDict : BotDict := {}
  isWord : Char → Bool
  soupText : String → Except String String
  trafilaturaExtract : String → Except String (Option String)
  extractTimeout : ℚ := 30

namespace ReadStrategies

variable (x : ReadStrategies)

def reader : WebReader := x.sources.reader

def detector : ChallengeDetector := ⟨x.botDict, x.sources.reader.lower, x.isWord⟩

end ReadStrategies

/-! ### What a strategy is shown -/

/-- What a response of curl says. Its address is only handed to the detector, which does not look at it. -/
structure HttpResponse where
  statusCode : ℕ
  text : String

def HttpResponse.ok (response : HttpResponse) : Bool := 200 ≤ response.statusCode && response.statusCode < 400

/-- The cookies and the user agent of a request. -/
structure CurlRequest where
  cookies : List (String × String)
  userAgent : String
  deriving DecidableEq

/-- The fetch of curl: the session data or the exception of the manager, what is sent with the random agent, and the
response, if there is one. -/
structure CurlFetch where
  session : Except String (Option SessionData)
  agent : String
  response : Option HttpResponse

def CurlFetch.request (fetch : CurlFetch) : Option CurlRequest :=
  match fetch.session with
  | .error _ => none
  | .ok none => some ⟨[], fetch.agent⟩
  | .ok (some data) => some ⟨data.cookies, data.userAgent⟩

/-- What FlareSolverr answers, with the page of the solution. -/
structure FlareReply where
  answer : FlareAnswer
  html : String

/-- What the browser shows at a round of the polls, and whether the network is idle in its window. -/
structure Poll where
  content : Option String
  idle : Bool

/-- A visit of Playwright: whether the page is opened and its context closed without an exception, the status when
`goto` gives a response, what the polls show, and what the page has at the end. An exception is `none`. -/
structure BrowserVisit where
  opened : Bool
  goto : Option (Option ℕ)
  polls : List Poll
  content : Option String
  closed : Bool

/-- What the handler of the crawler is given. -/
inductive CrawlContext where
  | playwright (content : String)
  | soup (text : String)
  | response (text : String)
  | other

def CrawlContext.html : CrawlContext → Option String
  | .playwright content => some content
  | .soup text => some text
  | .response text => some text
  | .other => none

/-- A crawl: the requests that were handled, or the exception of the crawler. -/
structure CrawlVisit where
  handled : List CrawlContext
  raised : Bool

/-- An invocation of a strategy with what it was shown. -/
inductive Visit where
  | beautifulsoup (fetch : CurlFetch)
  | trafilatura (fetch : CurlFetch)
  | flaresolverr (reply : FlareReply)
  | playwright (visit : BrowserVisit)
  | crawlee (visit : CrawlVisit)
  | novnc (required : HumanInterventionRequired)

def Visit.tier : Visit → Tier
  | .beautifulsoup _ => .beautifulsoup
  | .trafilatura _ => .trafilatura
  | .flaresolverr _ => .flaresolverr
  | .playwright _ => .playwrightStealth
  | .crawlee _ => .crawleeAdaptive
  | .novnc _ => .novnc

/-! ### What it makes of that -/

section Strategies

variable (x : ReadStrategies)

/-- `fetch_with_curl_cffi` -/
def CurlCffiFetcher.fetchWithCurlCffi (fetch : CurlFetch) : Outcome :=
  match fetch.session, fetch.response with
  | .error _, _ => .failed
  | .ok _, none => .content ""
  | .ok _, some response =>
    if x.detector.isLoginRequired response.text then .challengeDetected
    else if x.detector.isBlocked response.statusCode response.text then .challengeDetected
    else if response.ok then .content response.text
    else .content ""

namespace FlareSolverrStrategy

/-- The save before the checks raises, when the manager finds no domain. -/
def saveRaises (url : String) (answer : FlareAnswer) : Bool :=
  match flareSolverrData x.sources answer, getDomain x.sources.u x.sources.tld url with
  | some _, .error _ => true
  | _, _ => false

def getHtml (url : String) (reply : FlareReply) : Outcome :=
  if x.sources.flaresolverrUrl = "" then .content ""
  else
    match reply.answer with
    | .raised => .content ""
    | .notOk => .content ""
    | .solved _ =>
      if saveRaises x url reply.answer then .content ""
      else if x.detector.isLoginRequired reply.html then .challengeDetected
      else if x.detector.isBlocked 200 reply.html then .challengeDetected
      else .content reply.html

end FlareSolverrStrategy

namespace PlaywrightStrategy

/-- The rounds of the polls that are left: a challenge or an exception ends the visit, and an idle network the
polls. -/
def polled (status : ℕ) : ℕ → List Poll → Option Outcome
  | 0, _ => none
  | _ + 1, [] => some .failed
  | n + 1, poll :: polls =>
    match poll.content with
    | none => some .failed
    | some content =>
      if x.detector.isLoginRequired content then some .challengeDetected
      else if x.detector.isBlocked status content then some .challengeDetected
      else if poll.idle then none
      else polled status n polls

/-- `get_html` within the `try`. -/
def render (url : String) (visit : BrowserVisit) : Outcome :=
  if isLoginRedirectUrl x.reader url then .challengeDetected
  else
    match visit.goto with
    | none => .failed
    | some response =>
      match polled x (response.getD 200) x.extractTimeout.floor.toNat visit.polls with
      | some outcome => outcome
      | none =>
        match visit.content with
        | none => .failed
        | some content =>
          if x.detector.isLoginRequired content then .challengeDetected else .content content

def getHtml (url : String) (visit : BrowserVisit) : Outcome :=
  if !visit.opened || !visit.closed then .failed else render x url visit

end PlaywrightStrategy

namespace CrawleeStrategy

/-- The container after the handled requests. -/
def resultHtml (handled : List CrawlContext) : String :=
  handled.foldl (fun html context => context.html.getD html) ""

def getHtml (visit : CrawlVisit) : Outcome :=
  if visit.raised then .failed
  else if x.detector.isLoginRequired (resultHtml visit.handled) then .challengeDetected
  else if x.detector.isBlocked 200 (resultHtml visit.handled) then .challengeDetected
  else .content (resultHtml visit.handled)

end CrawleeStrategy

/-- `get_html` of the strategy of a visit. -/
def getHtml (url : String) : Visit → Outcome
  | .beautifulsoup fetch => CurlCffiFetcher.fetchWithCurlCffi x fetch
  | .trafilatura fetch => CurlCffiFetcher.fetchWithCurlCffi x fetch
  | .flaresolverr reply => FlareSolverrStrategy.getHtml x url reply
  | .playwright visit => PlaywrightStrategy.getHtml x url visit
  | .crawlee visit => CrawleeStrategy.getHtml x visit
  | .novnc required => .humanIntervention required

/-- The text that a strategy extracts from its page. The strategies with a browser hand an empty page to the extractor
too. -/
def extractText (tier : Tier) (html : String) : Except String String :=
  match tier with
  | .beautifulsoup => if html = "" then .ok "" else x.soupText html
  | .trafilatura => if html = "" then .ok "" else (x.trafilaturaExtract html).map (·.getD "")
  | .flaresolverr => if html = "" then .ok "" else (x.trafilaturaExtract html).map (·.getD "")
  | .playwrightStealth => (x.trafilaturaExtract html).map (·.getD "")
  | .crawleeAdaptive => (x.trafilaturaExtract html).map (·.getD "")
  | .novnc => .error "unreachable: NoVNCStrategy.get_html always raises"

/-- `extract` of the strategy of a visit. -/
def extract (url : String) (visit : Visit) : Outcome :=
  match getHtml x url visit with
  | .content html =>
    match extractText x visit.tier html with
    | .ok text => .content text
    | .error _ => .failed
  | outcome => outcome

end Strategies

/-! ### The pages that are given away -/

/-- The polls that show their page to the detector: up to the first one with an idle network. -/
def looked : ℕ → List Poll → List Poll
  | 0, _ => []
  | _ + 1, [] => []
  | n + 1, poll :: polls => poll :: if poll.idle then [] else looked n polls

/-- The detector has let the page through that a response of curl brought. -/
def CurlFetch.PagePasses (x : ReadStrategies) (html : String) (fetch : CurlFetch) : Prop :=
  ∃ response, fetch.response = some response ∧ response.ok = true ∧ response.text = html ∧
    x.detector.Passes response.statusCode html

/-- The detector has let every page of the polls through. At the end it looks only for a login. -/
def BrowserVisit.PagePasses (x : ReadStrategies) (html : String) (visit : BrowserVisit) : Prop :=
  visit.content = some html ∧ x.detector.isLoginRequired html = false ∧
    ∃ response, visit.goto = some response ∧
      ∀ poll ∈ looked x.extractTimeout.floor.toNat visit.polls,
        ∃ content, poll.content = some content ∧ x.detector.Passes (response.getD 200) content

/-- The detector has let the page through that the strategy of a visit gives away. -/
def Visit.PagePasses (x : ReadStrategies) (html : String) : Visit → Prop
  | .beautifulsoup fetch => fetch.PagePasses x html
  | .trafilatura fetch => fetch.PagePasses x html
  | .flaresolverr reply => reply.html = html ∧ x.detector.Passes 200 html
  | .playwright visit => visit.PagePasses x html
  | .crawlee visit => CrawleeStrategy.resultHtml visit.handled = html ∧ x.detector.Passes 200 html
  | .novnc _ => False

section Pages

variable {x : ReadStrategies} {url html : String}

lemma passes_of_fetchWithCurlCffi {fetch : CurlFetch} (h : CurlCffiFetcher.fetchWithCurlCffi x fetch = .content html) :
    html = "" ∨ fetch.PagePasses x html := by
  unfold CurlCffiFetcher.fetchWithCurlCffi at h
  split at h
  · cases h
  · cases h
    exact .inl rfl
  · rename_i response _ hresponse
    split at h
    · cases h
    rename_i hlogin
    split at h
    · cases h
    rename_i hblocked
    split at h
    · rename_i hok
      cases h
      exact .inr ⟨response, hresponse, hok, rfl, Bool.eq_false_iff.mpr hlogin, Bool.eq_false_iff.mpr hblocked⟩
    · cases h
      exact .inl rfl

lemma passes_of_flareSolverr {reply : FlareReply} (h : FlareSolverrStrategy.getHtml x url reply = .content html) :
    html = "" ∨ (Visit.flaresolverr reply).PagePasses x html := by
  unfold FlareSolverrStrategy.getHtml at h
  split at h
  · cases h
    exact .inl rfl
  split at h
  · cases h
    exact .inl rfl
  · cases h
    exact .inl rfl
  split at h
  · cases h
    exact .inl rfl
  split at h
  · cases h
  rename_i hlogin
  split at h
  · cases h
  rename_i hblocked
  cases h
  exact .inr ⟨rfl, Bool.eq_false_iff.mpr hlogin, Bool.eq_false_iff.mpr hblocked⟩

/-- Polls that end without an outcome have shown only pages that pass. -/
lemma passes_of_polled {status n : ℕ} {polls : List Poll} (h : PlaywrightStrategy.polled x status n polls = none) :
    ∀ poll ∈ looked n polls, ∃ content, poll.content = some content ∧ x.detector.Passes status content := by
  induction n generalizing polls with
  | zero => exact fun poll hpoll => absurd hpoll List.not_mem_nil
  | succ n ih =>
    cases polls with
    | nil => cases h
    | cons poll polls =>
      unfold PlaywrightStrategy.polled at h
      split at h
      · cases h
      rename_i content hcontent
      split at h
      · cases h
      rename_i hlogin
      split at h
      · cases h
      rename_i hblocked
      intro poll' hpoll'
      unfold looked at hpoll'
      apply (List.mem_cons.mp hpoll').elim
      · intro heq
        rw [heq]
        exact ⟨content, hcontent, Bool.eq_false_iff.mpr hlogin, Bool.eq_false_iff.mpr hblocked⟩
      · intro hrest
        split at h
        · rename_i hidle
          rw [if_pos hidle] at hrest
          exact absurd hrest List.not_mem_nil
        · rename_i hidle
          rw [if_neg hidle] at hrest
          exact ih h poll' hrest

/-- The polls end a visit only without a page. -/
lemma outcome_of_polled {status n : ℕ} {polls : List Poll} {outcome : Outcome}
    (h : PlaywrightStrategy.polled x status n polls = some outcome) :
    outcome = .failed ∨ outcome = .challengeDetected := by
  induction n generalizing polls with
  | zero => cases h
  | succ n ih =>
    cases polls with
    | nil =>
      cases h
      exact .inl rfl
    | cons poll polls =>
      unfold PlaywrightStrategy.polled at h
      split at h
      · cases h
        exact .inl rfl
      split at h
      · cases h
        exact .inr rfl
      split at h
      · cases h
        exact .inr rfl
      split at h
      · cases h
      · exact ih h

lemma passes_of_playwright {visit : BrowserVisit} (h : PlaywrightStrategy.getHtml x url visit = .content html) :
    visit.PagePasses x html := by
  unfold PlaywrightStrategy.getHtml PlaywrightStrategy.render at h
  split at h
  · cases h
  split at h
  · cases h
  split at h
  · cases h
  rename_i response hgoto
  split at h
  · rename_i outcome hpolled
    rw [h] at hpolled
    exact (outcome_of_polled hpolled).elim nofun nofun
  rename_i hpolled
  split at h
  · cases h
  rename_i content hcontent
  split at h
  · cases h
  rename_i hlogin
  cases h
  exact ⟨hcontent, Bool.eq_false_iff.mpr hlogin, response, hgoto, passes_of_polled hpolled⟩

lemma passes_of_crawlee {visit : CrawlVisit} (h : CrawleeStrategy.getHtml x visit = .content html) :
    (Visit.crawlee visit).PagePasses x html := by
  unfold CrawleeStrategy.getHtml at h
  split at h
  · cases h
  split at h
  · cases h
  rename_i hlogin
  split at h
  · cases h
  rename_i hblocked
  cases h
  exact ⟨rfl, Bool.eq_false_iff.mpr hlogin, Bool.eq_false_iff.mpr hblocked⟩

/-- A page that is given away has passed the detector, or is empty. -/
theorem passes_of_getHtml {visit : Visit} (h : getHtml x url visit = .content html) :
    html = "" ∨ visit.PagePasses x html := by
  cases visit with
  | beautifulsoup fetch => exact passes_of_fetchWithCurlCffi h
  | trafilatura fetch => exact passes_of_fetchWithCurlCffi h
  | flaresolverr reply => exact passes_of_flareSolverr h
  | playwright visit => exact .inr (passes_of_playwright h)
  | crawlee visit => exact .inr (passes_of_crawlee h)
  | novnc required => cases h

lemma exists_page_of_extract {visit : Visit} {text : String} (h : extract x url visit = .content text) :
    ∃ html, getHtml x url visit = .content html ∧ extractText x visit.tier html = .ok text := by
  unfold extract at h
  split at h
  · rename_i html hhtml
    split at h
    · rename_i text' htext
      cases h
      exact ⟨html, hhtml, htext⟩
    · cases h
  · rename_i outcome hnot
    exact absurd h (hnot text)

/-- A text that is extracted and not empty comes from a page that has passed the detector. -/
theorem passes_of_extract {visit : Visit} {text : String} (h : extract x url visit = .content text)
    (hne : text ≠ "") :
    ∃ html, visit.PagePasses x html ∧ extractText x visit.tier html = .ok text := by
  obtain ⟨html, hhtml, htext⟩ := exists_page_of_extract h
  refine ⟨html, (passes_of_getHtml hhtml).elim (fun hempty => ?_) id, htext⟩
  rw [hempty] at hhtml htext
  -- Only a browser hands an empty page on, and its page has passed.
  have hskips : extractText x visit.tier "" = .ok "" → visit.PagePasses x html := by
    intro hskip
    rw [hskip] at htext
    exact absurd (Except.ok.inj htext).symm hne
  cases visit with
  | beautifulsoup fetch => exact hskips rfl
  | trafilatura fetch => exact hskips rfl
  | flaresolverr reply => exact hskips rfl
  | playwright visit => exact hempty ▸ passes_of_playwright hhtml
  | crawlee visit => exact hempty ▸ passes_of_crawlee hhtml
  | novnc required => cases hhtml

end Pages

end AscendAI.WebSearch
