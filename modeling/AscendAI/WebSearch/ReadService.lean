import AscendAI.WebSearch.ReadStrategies
import AscendAI.WebSearch.ReaderLadder

/-!
# The reader as a service

Calls of the reader run at the same time over one cookie manager. A call checks its budget, invokes a strategy and
waits for what the strategy is shown; curl asks the manager for cookies, FlareSolverr saves some, and NoVNC starts a
monitor that goes on when the call has been answered.
-/

namespace AscendAI.WebSearch
open PythonUrl Runs ProcessPool

/-- `read`, or `read_with_links` with its filter. -/
inductive ReadMode where
  | read
  | withLinks (linkFilter : Option String)

/-- The strategies that fetch with curl. -/
inductive CurlTier where
  | beautifulsoup
  | trafilatura

def CurlTier.ofTier : Tier → Option CurlTier
  | .beautifulsoup => some .beautifulsoup
  | .trafilatura => some .trafilatura
  | _ => none

def CurlTier.tier : CurlTier → Tier
  | .beautifulsoup => .beautifulsoup
  | .trafilatura => .trafilatura

def CurlTier.visit : CurlTier → CurlFetch → Visit
  | .beautifulsoup => .beautifulsoup
  | .trafilatura => .trafilatura

/-- Where a call is: before the check of its next tier, in the strategy of a round, in the request of a fetch with the
session that it has got, or answered. -/
inductive ReadStage where
  | choosing (tiers : List Tier)
  | invoking (name : Tier) (escalating : Bool) (tiers : List Tier)
  | requesting (curl : CurlTier) (session : Option SessionData) (tiers : List Tier)
  | finished (answer : Answer)

/-- A call, with its visits and with what the clock showed at its checks. -/
structure ReadCall where
  url : String
  heavyMode : Bool
  mode : ReadMode
  startedAt : ℚ
  stage : ReadStage
  visits : List Visit
  checks : List ℚ

/-- How what a call waits for ends. -/
inductive ReadMove where
  | check
  | session (answers : Bool)
  | response (agent : String) (response : Option HttpResponse)
  | flare (reply : FlareReply) (save : SetexReply)
  | browser (visit : BrowserVisit)
  | crawl (visit : CrawlVisit)
  | intervene (tunnels : Option (List (Option String)))

/-- A call, or a monitor in the background. -/
inductive ReadTask where
  | call (call : ReadCall)
  | monitor (monitor : Monitor)

abbrev ReadPool := ProcessPool CookieStore ReadTask

/-- A request comes, a call or a monitor moves, time passes, or Redis drops a key. -/
inductive ReadEvent where
  | request (url : String) (heavyMode : Bool) (mode : ReadMode)
  | move (i : ℕ) (move : ReadMove)
  | watch (i : ℕ) (move : MonitorMove)
  | clock (t : ℚ)
  | evict (key : String)

section Service

variable (x : ReadStrategies)

/-! ### One call -/

/-- What the invocation of a strategy comes to in this mode. -/
def Visit.outcome (mode : ReadMode) (url : String) (visit : Visit) : Outcome :=
  match mode with
  | .read => extract x url visit
  | .withLinks _ => getHtml x url visit

def Visit.invocation (mode : ReadMode) (url : String) (visit : Visit) : Invocation :=
  ⟨visit.tier, visit.outcome x mode url⟩

/-- The stage after a strategy has given a text, in the round of the tier with this name. -/
def afterContent (mode : ReadMode) (url : String) (name : Tier) (tiers : List Tier) (visit : Visit) (text : String) :
    ReadStage :=
  match mode with
  | .read =>
    if x.reader.validator.validate text then .finished (.success text none visit.tier.name) else .choosing tiers
  | .withLinks linkFilter =>
    if text = "" then .choosing tiers
    else
      match x.reader.annotateLinks text url linkFilter with
      | .error message => .finished (.raised message)
      | .ok (content, links) =>
        if x.reader.validator.validate content then .finished (.success content (some links) name.name)
        else .choosing tiers

/-- The stage after a visit. -/
def afterVisit (mode : ReadMode) (url : String) (name : Tier) (escalating : Bool) (tiers : List Tier) (visit : Visit) :
    ReadStage :=
  match visit.outcome x mode url with
  | .content text => afterContent x mode url name tiers visit text
  | .challengeDetected => if escalating then .choosing tiers else .invoking name true tiers
  | .humanIntervention required => .finished (.humanIntervention required)
  | .failed => .choosing tiers

def ReadCall.conclude (call : ReadCall) (name : Tier) (escalating : Bool) (tiers : List Tier) (visit : Visit) :
    ReadCall :=
  { call with
    stage := afterVisit x call.mode call.url name escalating tiers visit
    visits := call.visits ++ [visit] }

/-- The check before the next tier. -/
def ReadCall.check (call : ReadCall) (now : ℚ) : List Tier → ReadCall
  | [] => { call with stage := .finished (.failure "all_tiers_failed") }
  | name :: tiers =>
    { call with
      stage :=
        if name ≠ .novnc ∧ x.reader.readTotalBudget < now - call.startedAt then .finished (.failure "budget_exhausted")
        else .invoking name false tiers
      checks := call.checks ++ [now - call.startedAt] }

/-- The strategy of a round: its tier, or NoVNC after a challenge. -/
def executed (name : Tier) (escalating : Bool) : Tier := if escalating then .novnc else name

/-- The visit that a move completes, for the strategies that do not ask the manager first. -/
def completed (url : String) : Tier → ReadMove → Option Visit
  | .flaresolverr, .flare reply _ => some (.flaresolverr reply)
  | .playwrightStealth, .browser visit => some (.playwright visit)
  | .crawleeAdaptive, .crawl visit => some (.crawlee visit)
  | .novnc, .intervene tunnels =>
    some (.novnc ⟨NoVNCStrategy.resolvePublicVncUrl x.sources tunnels,
      if isLoginRedirectUrl x.reader url then "login" else "captcha"⟩)
  | _, _ => none

/-- What FlareSolverr saves in a visit. -/
def Visit.saves : Visit → Option SessionData
  | .flaresolverr reply => flareSolverrData x.sources reply.answer
  | _ => none

/-- The monitor that NoVNC starts in a visit. -/
def Visit.starts (url : String) : Visit → List ReadTask
  | .novnc _ => [.monitor ⟨url, .launching, 0, []⟩]
  | _ => []

def ReadMove.reply : ReadMove → SetexReply
  | .flare _ save => save
  | _ => .stored

def saveVisit (s : CookieStore) (url : String) (visit : Visit) (reply : SetexReply) : CookieStore :=
  match visit.saves x with
  | none => s
  | some data => saveSessionData x.sources.u x.sources.tld s url data ttlSeconds reply

/-- A move in an invocation: the question of a fetch for cookies, or a whole visit. -/
def advanceInvoking (move : ReadMove) (s : CookieStore) (call : ReadCall) (name : Tier) (escalating : Bool)
    (tiers : List Tier) : ProcessPool.Outcome CookieStore ReadTask :=
  match CurlTier.ofTier (executed name escalating), move with
  | some curl, .session answers =>
    match getSessionData x.sources.u x.sources.tld s call.url answers with
    | .error message =>
      ⟨s, .call (call.conclude x name escalating tiers (curl.visit ⟨.error message, "", none⟩)), []⟩
    | .ok session => ⟨s, .call { call with stage := .requesting curl session tiers }, []⟩
  | some _, _ => ⟨s, .call call, []⟩
  | none, move =>
    match completed x call.url (executed name escalating) move with
    | none => ⟨s, .call call, []⟩
    | some visit =>
      ⟨saveVisit x s call.url visit move.reply, .call (call.conclude x name escalating tiers visit),
        visit.starts call.url⟩

def advanceCall (move : ReadMove) (s : CookieStore) (call : ReadCall) : ProcessPool.Outcome CookieStore ReadTask :=
  match call.stage, move with
  | .choosing tiers, .check => ⟨s, .call (call.check x s.now tiers), []⟩
  | .invoking name escalating tiers, move => advanceInvoking x move s call name escalating tiers
  | .requesting curl session tiers, .response agent response =>
    ⟨s, .call (call.conclude x curl.tier false tiers (curl.visit ⟨.ok session, agent, response⟩)), []⟩
  | _, _ => ⟨s, .call call, []⟩

/-! ### The service -/

def startCall (now : ℚ) (url : String) (heavyMode : Bool) (mode : ReadMode) : ReadCall :=
  ⟨url, heavyMode, mode, now, .choosing (selectStrategies x.reader url heavyMode), [], []⟩

def moveTask (move : ReadMove) (s : CookieStore) : ReadTask → ProcessPool.Outcome CookieStore ReadTask
  | .call call => advanceCall x move s call
  | .monitor monitor => ⟨s, .monitor monitor, []⟩

def watchTask (move : MonitorMove) (s : CookieStore) : ReadTask → ProcessPool.Outcome CookieStore ReadTask
  | .call call => ⟨s, .call call, []⟩
  | .monitor monitor =>
    ⟨(advanceMonitor x.sources move s monitor).shared, .monitor (advanceMonitor x.sources move s monitor).next, []⟩

def ReadPool.next (pool : ReadPool) : ReadEvent → ReadPool
  | .request url heavyMode mode => pool.start (.call (startCall x pool.shared.now url heavyMode mode))
  | .move i move => pool.step (moveTask x move) i
  | .watch i move => pool.step (watchTask x move) i
  | .clock t => ⟨cookieStep x.sources.u x.sources.tld pool.shared (.clock t), pool.procs⟩
  | .evict key => ⟨cookieStep x.sources.u x.sources.tld pool.shared (.evict key), pool.procs⟩

end Service

end AscendAI.WebSearch
