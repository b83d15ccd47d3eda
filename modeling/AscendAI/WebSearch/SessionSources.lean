import Mathlib.Data.Nat.Cast.Order.Ring
import Mathlib.Tactic.Linarith
import AscendAI.Lib.OrderedDict
import AscendAI.Lib.ProcessPool
import AscendAI.WebSearch.CookieIsolation
import AscendAI.WebSearch.WebReader

/-!
# Where session cookies come from

Two strategies save the cookies of a site. NoVNC starts a task in the background that watches a browser while a human
works in it, and saves its cookies every few seconds; FlareSolverr saves those of a solution that has passed the
challenge. The tasks run at the same time over one cookie manager.
-/

namespace AscendAI.WebSearch
open PythonUrl Runs ProcessPool

/-- A cookie of a browser, which may lack its parts. -/
structure BrowserCookie where
  name : Option String
  value : Option String

def BrowserCookie.item (cookie : BrowserCookie) : Option (String × String) :=
  match cookie.name, cookie.value with
  | some name, some value => some (name, value)
  | _, _ => none

/-- The dictionary of the cookies that have both parts. -/
def cookieDict (cookies : List BrowserCookie) : List (String × String) :=
  (OrderedDict.empty.setAll (cookies.filterMap BrowserCookie.item)).items

/-- What a strategy reads in a browser: the cookies and the user agent. -/
structure BrowserSession where
  cookies : List BrowserCookie
  userAgent : String

/-- The payload of a save. -/
def BrowserSession.data (session : BrowserSession) : SessionData := ⟨cookieDict session.cookies, session.userAgent⟩

/-- What the strategies use: the parts of the manager, the reader with its redirect check, and their settings. -/
structure SessionStrategies where
  u : UnicodeData
  tld : TldExtract
  reader : WebReader
  novncTimeoutSeconds : ℕ := 600
  flaresolverrUrl : String := ""
  publicVncUrl : String
  seleniumBrowserVncUrl : String

def ttlSeconds : ℚ := 7200

/-! ### NoVNC -/

namespace NoVNCStrategy

variable (x : SessionStrategies)

/-- The tunnels that ngrok lists with their public URLs, or `none` where it does not answer. -/
def resolvePublicVncUrl (tunnels : Option (List (Option String))) : String :=
  if !PythonString.contains x.publicVncUrl "api/tunnels" then x.publicVncUrl ++ "/vnc.html?autoconnect=true"
  else
    match tunnels with
    | none => x.seleniumBrowserVncUrl ++ "/vnc.html?autoconnect=true"
    | some tunnels => ((tunnels.head?.join).getD x.publicVncUrl) ++ "/vnc.html?autoconnect=true"

end NoVNCStrategy

/-- Where `_monitor_for_cookies` is. `start` is when the loop was entered. -/
inductive MonitorStage where
  | launching
  | opening
  | navigating
  | checking (start : ℚ)
  | syncing (start : ℚ)
  | sleeping (start wake : ℚ)
  | leaving
  | closing
  | finished
  deriving DecidableEq

/-- A monitor, with the rounds that it has made and what it has saved. -/
structure Monitor where
  url : String
  stage : MonitorStage
  rounds : ℕ
  saved : List SessionData

/-- How what a monitor waits for ends. A cancellation may come when the entry is in Redis already. -/
inductive MonitorMove where
  | returned
  | raised
  | cancelled (written : Option BrowserSession)
  | synced (session : BrowserSession) (reply : SetexReply) (currentUrl : String)

/-- The session that a move may save. -/
def MonitorMove.session : MonitorMove → Option BrowserSession
  | .synced session _ _ => some session
  | .cancelled written => written
  | _ => none

abbrev Monitors := ProcessPool CookieStore Monitor

def cookieSyncPollSeconds : ℚ := 5

section Monitor

variable (x : SessionStrategies)

/-- The human is past the page of the challenge. -/
def resolved (url currentUrl : String) : Bool := !isLoginRedirectUrl x.reader currentUrl && currentUrl != url

/-- A cancellation during a save that has reached Redis or not. -/
def cancelSave (s : CookieStore) (monitor : Monitor) (written : Option BrowserSession) :
    ProcessPool.Outcome CookieStore Monitor :=
  match written, getDomain x.u x.tld monitor.url with
  | some session, .ok domain =>
    if s.connected then
      ⟨(s.setex (redisKey domain) ttlSeconds session.data .stored).1,
        { monitor with stage := .leaving, saved := monitor.saved ++ [session.data] }, []⟩
    else ⟨s, { monitor with stage := .leaving }, []⟩
  | _, _ => ⟨s, { monitor with stage := .leaving }, []⟩

/-- One round of the loop after its check: the cookies are saved, and the loop is left when the page has changed. -/
def syncRound (s : CookieStore) (monitor : Monitor) (start : ℚ) :
    MonitorMove → ProcessPool.Outcome CookieStore Monitor
  | .synced session reply currentUrl =>
    match getDomain x.u x.tld monitor.url with
    | .error _ =>
      ⟨s, { monitor with stage := .sleeping start (s.now + cookieSyncPollSeconds), rounds := monitor.rounds + 1 }, []⟩
    | .ok _ =>
      ⟨saveSessionData x.u x.tld s monitor.url session.data ttlSeconds reply,
        { monitor with
          stage := if resolved x monitor.url currentUrl then .leaving
            else .sleeping start (s.now + cookieSyncPollSeconds)
          rounds := monitor.rounds + 1
          saved := monitor.saved ++ [session.data] }, []⟩
  | .cancelled written => cancelSave x s { monitor with rounds := monitor.rounds + 1 } written
  | _ =>
    ⟨s, { monitor with stage := .sleeping start (s.now + cookieSyncPollSeconds), rounds := monitor.rounds + 1 }, []⟩

/-- The stage after a move that saves nothing. -/
def nextStage (now : ℚ) (stage : MonitorStage) (move : MonitorMove) : MonitorStage :=
  match stage, move with
  | .launching, .returned => .opening
  | .launching, _ => .finished
  | .opening, .returned => .navigating
  | .opening, _ => .leaving
  | .navigating, .cancelled _ => .leaving
  | .navigating, _ => .checking now
  | .checking start, _ => if now - start < x.novncTimeoutSeconds then .syncing start else .leaving
  | .syncing start, _ => .syncing start
  | .sleeping _ _, .cancelled _ => .leaving
  | .sleeping start wake, _ => if wake ≤ now then .checking start else .sleeping start wake
  | .leaving, _ => .closing
  | .closing, _ => .finished
  | .finished, _ => .finished

def advanceMonitor (move : MonitorMove) (s : CookieStore) (monitor : Monitor) :
    ProcessPool.Outcome CookieStore Monitor :=
  match monitor.stage with
  | .syncing start => syncRound x s monitor start move
  | stage => ⟨s, { monitor with stage := nextStage x s.now stage move }, []⟩

end Monitor

/-! ### FlareSolverr -/

/-- What FlareSolverr answers: the request raises, the status is not `ok`, or it has a solution. -/
inductive FlareAnswer where
  | raised
  | notOk
  | solved (session : BrowserSession)

/-- `get_html` up to its save: what is saved, if anything is. -/
def flareSolverrData (x : SessionStrategies) (answer : FlareAnswer) : Option SessionData :=
  if x.flaresolverrUrl = "" then none
  else
    match answer with
    | .solved session =>
      if "cf_clearance" ∈ session.data.cookies.map Prod.fst then some session.data else none
    | _ => none

lemma solved_of_flareSolverrData {x : SessionStrategies} {answer : FlareAnswer} {data : SessionData}
    (h : flareSolverrData x answer = some data) :
    ∃ session, answer = .solved session ∧ data = session.data ∧ "cf_clearance" ∈ data.cookies.map Prod.fst := by
  unfold flareSolverrData at h
  split at h
  · cases h
  · cases answer with
    | raised => cases h
    | notOk => cases h
    | solved session =>
      simp only at h
      split at h
      · rename_i hclearance
        obtain rfl := Option.some.inj h
        exact ⟨session, rfl, rfl, hclearance⟩
      · cases h

/-! ### All together -/

/-- `get_html` starts a monitor, and raises. -/
def NoVNCStrategy.getHtml (x : SessionStrategies) (pool : Monitors) (url : String)
    (tunnels : Option (List (Option String))) : HumanInterventionRequired × Monitors :=
  (⟨resolvePublicVncUrl x tunnels, if isLoginRedirectUrl x.reader url then "login" else "captcha"⟩,
    pool.start ⟨url, .launching, 0, []⟩)

/-- A page is handed to a human, a monitor moves, FlareSolverr answers, time passes, or Redis drops a key. -/
inductive SourceEvent where
  | intervene (url : String) (tunnels : Option (List (Option String)))
  | move (i : ℕ) (move : MonitorMove)
  | solve (url : String) (answer : FlareAnswer) (reply : SetexReply)
  | clock (t : ℚ)
  | evict (key : String)

def Monitors.next (x : SessionStrategies) (pool : Monitors) : SourceEvent → Monitors
  | .intervene url tunnels => (NoVNCStrategy.getHtml x pool url tunnels).2
  | .move i move => pool.step (advanceMonitor x move) i
  | .solve url answer reply =>
    match flareSolverrData x answer with
    | none => pool
    | some data => ⟨saveSessionData x.u x.tld pool.shared url data ttlSeconds reply, pool.procs⟩
  | .clock t => ⟨cookieStep x.u x.tld pool.shared (.clock t), pool.procs⟩
  | .evict key => ⟨cookieStep x.u x.tld pool.shared (.evict key), pool.procs⟩

/-! ### What the store holds -/

section Sourced

variable {u : UnicodeData} {tld : TldExtract} {source source' : String → SessionData → Prop} {s : CookieStore}
  {domain : String} {data : SessionData}

/-- Whatever is held for a domain has a source for it. -/
structure CookieStore.Sourced (source : String → SessionData → Prop) (s : CookieStore) : Prop where
  redis : ∀ key entry, s.redis.lookup key = some entry → ∃ domain, key = redisKey domain ∧ source domain entry.data
  memory : ∀ domain data, s.memory.lookup domain = some data → source domain data

lemma CookieStore.Sourced.mono (h : s.Sourced source) (himp : ∀ domain data, source domain data → source' domain data) :
    s.Sourced source' := by
  constructor
  · intro key entry hlookup
    obtain ⟨domain, hkey, hsource⟩ := h.redis key entry hlookup
    exact ⟨domain, hkey, himp domain entry.data hsource⟩
  · exact fun domain data hlookup => himp domain data (h.memory domain data hlookup)

lemma CookieStore.Sourced.save (h : s.Sourced source) {url : String} (hdomain : getDomain u tld url = .ok domain)
    (hsource : source domain data) (ttlSeconds : ℚ) (reply : SetexReply) :
    (saveSessionData u tld s url data ttlSeconds reply).Sourced source := by
  rw [saveSessionData_eq hdomain]
  constructor
  · intro key entry hlookup
    rw [LastWrite.lookup_ite_insert] at hlookup
    split at hlookup
    · rename_i hhit
      obtain rfl := Option.some.inj hlookup
      exact ⟨domain, hhit.2, hsource⟩
    · exact h.redis key entry hlookup
  · intro domain' data' hlookup
    rw [LastWrite.lookup_ite_insert] at hlookup
    split at hlookup
    · rename_i hhit
      obtain rfl := Option.some.inj hlookup
      rw [hhit.2]
      exact hsource
    · exact h.memory domain' data' hlookup

lemma CookieStore.Sourced.setex (h : s.Sourced source) (hsource : source domain data) (ttlSeconds : ℚ)
    (reply : SetexReply) : (s.setex (redisKey domain) ttlSeconds data reply).1.Sourced source := by
  unfold CookieStore.setex
  split
  · exact h
  · constructor
    · intro key entry hlookup
      by_cases hkey : key = redisKey domain
      · rw [hkey, AList.lookup_insert] at hlookup
        obtain rfl := Option.some.inj hlookup
        exact ⟨domain, hkey, hsource⟩
      · rw [AList.lookup_insert_ne hkey] at hlookup
        exact h.redis key entry hlookup
    · exact h.memory

lemma CookieStore.Sourced.evict (h : s.Sourced source) (key : String) :
    (cookieStep u tld s (.evict key)).Sourced source := by
  constructor
  · intro key' entry hlookup
    by_cases hkey : key' = key
    · rw [hkey] at hlookup
      simp only [cookieStep, AList.lookup_erase] at hlookup
      cases hlookup
    · simp only [cookieStep, AList.lookup_erase_ne hkey] at hlookup
      exact h.redis key' entry hlookup
  · exact h.memory

/-- What a get returns has a source for the domain of its URL. -/
lemma CookieStore.Sourced.get (h : s.Sourced source) {url : String} (hdomain : getDomain u tld url = .ok domain)
    {answers : Bool} (hget : getSessionData u tld s url answers = .ok (some data)) : source domain data := by
  unfold getSessionData at hget
  rw [hdomain] at hget
  simp only at hget
  split at hget
  · rename_i found hfound
    obtain rfl := Option.some.inj (Except.ok.inj hget)
    split at hfound
    · obtain ⟨entry, hlookup, hlive⟩ := Option.bind_eq_some_iff.mp hfound
      split at hlive
      · obtain rfl := Option.some.inj hlive
        obtain ⟨domain', hkey, hsource⟩ := h.redis _ entry hlookup
        have hsame : domain = domain' := by
          by_contra hne
          exact redisKey_ne hne hkey
        rw [hsame]
        exact hsource
      · cases hlive
    · cases hfound
  · exact h.memory domain data (Except.ok.inj hget)

end Sourced

/-! ### What one move of a monitor does -/

section Moves

variable {x : SessionStrategies} {s : CookieStore} {monitor : Monitor}

/-- What a monitor did in one move: it stays with its URL, and it has saved at most one session more, for the domain of
that URL. -/
inductive Monitor.Moved (x : SessionStrategies) (s : CookieStore) (monitor : Monitor) (move : MonitorMove) :
    ProcessPool.Outcome CookieStore Monitor → Prop
  | quiet (next : Monitor) (hurl : next.url = monitor.url) (hsaved : next.saved = monitor.saved) :
      Moved x s monitor move ⟨s, next, []⟩
  | wrote (next : Monitor) (domain : String) (session : BrowserSession) (reply : SetexReply)
      (hdomain : getDomain x.u x.tld monitor.url = .ok domain) (hsession : move.session = some session)
      (hurl : next.url = monitor.url) (hsaved : next.saved = monitor.saved ++ [session.data]) :
      Moved x s monitor move ⟨saveSessionData x.u x.tld s monitor.url session.data ttlSeconds reply, next, []⟩
  | cut (next : Monitor) (domain : String) (session : BrowserSession)
      (hdomain : getDomain x.u x.tld monitor.url = .ok domain) (hsession : move.session = some session)
      (hurl : next.url = monitor.url) (hsaved : next.saved = monitor.saved ++ [session.data]) :
      Moved x s monitor move ⟨(s.setex (redisKey domain) ttlSeconds session.data .stored).1, next, []⟩

lemma moved_cancelSave {monitor' : Monitor} (hurl : monitor'.url = monitor.url)
    (hsaved : monitor'.saved = monitor.saved) (written : Option BrowserSession) :
    monitor.Moved x s (.cancelled written) (cancelSave x s monitor' written) := by
  unfold cancelSave
  rw [hurl, hsaved]
  cases written with
  | none => exact .quiet _ rfl rfl
  | some session =>
    cases hdomain : getDomain x.u x.tld monitor.url with
    | error e => exact .quiet _ rfl rfl
    | ok domain =>
      dsimp only
      split
      · exact .cut _ domain session hdomain rfl rfl rfl
      · exact .quiet _ rfl rfl

lemma moved_syncRound (start : ℚ) (move : MonitorMove) :
    monitor.Moved x s move (syncRound x s monitor start move) := by
  cases move with
  | returned => exact .quiet _ rfl rfl
  | raised => exact .quiet _ rfl rfl
  | cancelled written =>
    exact @moved_cancelSave x s monitor { monitor with rounds := monitor.rounds + 1 } rfl rfl written
  | synced session reply currentUrl =>
    unfold syncRound
    cases hdomain : getDomain x.u x.tld monitor.url with
    | error e => exact .quiet _ rfl rfl
    | ok domain => exact .wrote _ domain session reply hdomain rfl rfl rfl

lemma moved_advanceMonitor (move : MonitorMove) : monitor.Moved x s move (advanceMonitor x move s monitor) := by
  unfold advanceMonitor
  split
  · exact moved_syncRound _ move
  · exact .quiet _ rfl rfl

variable {move : MonitorMove} {outcome : ProcessPool.Outcome CookieStore Monitor}

lemma Monitor.Moved.started (h : monitor.Moved x s move outcome) : outcome.started = [] := by
  cases h <;> rfl

lemma Monitor.Moved.url (h : monitor.Moved x s move outcome) : outcome.next.url = monitor.url := by
  cases h <;> assumption

lemma Monitor.Moved.saved_subset (h : monitor.Moved x s move outcome) : monitor.saved ⊆ outcome.next.saved := by
  intro data hdata
  cases h with
  | quiet next hurl hsaved => exact hsaved ▸ hdata
  | wrote next domain session reply hdomain hsession hurl hsaved => exact hsaved ▸ List.mem_append_left _ hdata
  | cut next domain session hdomain hsession hurl hsaved => exact hsaved ▸ List.mem_append_left _ hdata

/-- What is saved after a move was saved before it, or is the session of the move. -/
lemma Monitor.Moved.saved_cases (h : monitor.Moved x s move outcome) {data : SessionData}
    (hdata : data ∈ outcome.next.saved) :
    data ∈ monitor.saved ∨ ∃ session, move.session = some session ∧ data = session.data := by
  cases h with
  | quiet next hurl hsaved => exact .inl (hsaved ▸ hdata)
  | wrote next domain session reply hdomain hsession hurl hsaved =>
    rw [hsaved, List.mem_append, List.mem_singleton] at hdata
    exact hdata.imp_right fun heq => ⟨session, hsession, heq⟩
  | cut next domain session hdomain hsession hurl hsaved =>
    rw [hsaved, List.mem_append, List.mem_singleton] at hdata
    exact hdata.imp_right fun heq => ⟨session, hsession, heq⟩

lemma now_saveSessionData (url : String) (data : SessionData) (ttlSeconds : ℚ) (reply : SetexReply) :
    (saveSessionData x.u x.tld s url data ttlSeconds reply).now = s.now := by
  cases hdomain : getDomain x.u x.tld url with
  | error e =>
    unfold saveSessionData
    rw [hdomain]
  | ok domain => rw [saveSessionData_eq hdomain]

lemma now_setex (key : String) (ttlSeconds : ℚ) (data : SessionData) (reply : SetexReply) :
    (s.setex key ttlSeconds data reply).1.now = s.now := by
  unfold CookieStore.setex
  split
  · rfl
  · rfl

lemma Monitor.Moved.now (h : monitor.Moved x s move outcome) : outcome.shared.now = s.now := by
  cases h with
  | quiet next hurl hsaved => rfl
  | wrote next domain session reply hdomain hsession hurl hsaved => exact now_saveSessionData _ _ _ _
  | cut next domain session hdomain hsession hurl hsaved => exact now_setex _ _ _ _

/-- What the move leaves in the store has a source, when what the monitor has saved has one. -/
lemma Monitor.Moved.sourced {source : String → SessionData → Prop} (h : monitor.Moved x s move outcome)
    (hs : s.Sourced source)
    (hsource : ∀ domain, getDomain x.u x.tld monitor.url = .ok domain →
      ∀ data ∈ outcome.next.saved, source domain data) :
    outcome.shared.Sourced source := by
  cases h with
  | quiet next hurl hsaved => exact hs
  | wrote next domain session reply hdomain hsession hurl hsaved =>
    have hmem : session.data ∈ next.saved := hsaved ▸ List.mem_append_right _ List.mem_cons_self
    exact hs.save hdomain (hsource domain hdomain _ hmem) ttlSeconds reply
  | cut next domain session hdomain hsession hurl hsaved =>
    have hmem : session.data ∈ next.saved := hsaved ▸ List.mem_append_right _ List.mem_cons_self
    exact hs.setex (hsource domain hdomain _ hmem) ttlSeconds .stored

end Moves

/-! ### The pace of a monitor -/

section Pace

variable {x : SessionStrategies} {s : CookieStore} {monitor : Monitor} {limit now now' rounds : ℚ}

/-- The time that the rounds of a monitor have taken when it is at a stage. -/
def MonitorStage.Allows (limit now rounds : ℚ) : MonitorStage → Prop
  | .launching | .opening | .navigating => rounds = 0
  | .checking start =>
    start + cookieSyncPollSeconds * rounds ≤ now ∧ cookieSyncPollSeconds * rounds < limit + cookieSyncPollSeconds
  | .syncing start => start + cookieSyncPollSeconds * rounds ≤ now ∧ cookieSyncPollSeconds * rounds < limit
  | .sleeping start wake =>
    start + cookieSyncPollSeconds * rounds ≤ wake ∧ cookieSyncPollSeconds * rounds < limit + cookieSyncPollSeconds
  | .leaving | .closing | .finished => cookieSyncPollSeconds * rounds < limit + cookieSyncPollSeconds

/-- A monitor in time, which saves at most once a round. -/
structure Monitor.Paced (limit now : ℚ) (monitor : Monitor) : Prop where
  allows : monitor.stage.Allows limit now monitor.rounds
  saved : monitor.saved.length ≤ monitor.rounds

lemma MonitorStage.Allows.mono {stage : MonitorStage} (h : stage.Allows limit now rounds) (hnow : now ≤ now') :
    stage.Allows limit now' rounds := by
  cases stage with
  | checking start => exact ⟨h.1.trans hnow, h.2⟩
  | syncing start => exact ⟨h.1.trans hnow, h.2⟩
  | _ => exact h

lemma MonitorStage.Allows.lt {stage : MonitorStage} (h : stage.Allows limit now rounds) (hlimit : 0 ≤ limit) :
    cookieSyncPollSeconds * rounds < limit + cookieSyncPollSeconds := by
  have hzero : rounds = 0 → cookieSyncPollSeconds * rounds < limit + cookieSyncPollSeconds := by
    intro hrounds
    rw [hrounds, mul_zero]
    exact add_pos_of_nonneg_of_pos hlimit (by decide)
  cases stage with
  | launching => exact hzero h
  | opening => exact hzero h
  | navigating => exact hzero h
  | checking start => exact h.2
  | syncing start => exact h.2.trans (lt_add_of_pos_right limit (by decide))
  | sleeping start wake => exact h.2
  | leaving => exact h
  | closing => exact h
  | finished => exact h

lemma allows_nextStage {stage : MonitorStage} (h : stage.Allows x.novncTimeoutSeconds now rounds) (move : MonitorMove) :
    (nextStage x now stage move).Allows x.novncTimeoutSeconds now rounds := by
  have hlt := h.lt (Nat.cast_nonneg x.novncTimeoutSeconds)
  have hchecking : rounds = 0 → (MonitorStage.checking now).Allows x.novncTimeoutSeconds now rounds := by
    intro hrounds
    refine ⟨?_, hlt⟩
    rw [hrounds, mul_zero, add_zero]
  cases stage with
  | launching => cases move with
    | returned => exact h
    | _ => exact hlt
  | opening => cases move with
    | returned => exact h
    | _ => exact hlt
  | navigating => cases move with
    | cancelled written => exact hlt
    | _ => exact hchecking h
  | checking start =>
    by_cases hnow : now - start < x.novncTimeoutSeconds
    · simp only [nextStage, if_pos hnow]
      refine ⟨h.1, ?_⟩
      linarith only [h.1, hnow]
    · simp only [nextStage, if_neg hnow]
      exact hlt
  | syncing start => exact h
  | sleeping start wake => cases move with
    | cancelled written => exact hlt
    | _ =>
      by_cases hwake : wake ≤ now
      · simp only [nextStage, if_pos hwake]
        exact ⟨h.1.trans hwake, h.2⟩
      · simp only [nextStage, if_neg hwake]
        exact h
  | leaving => exact h
  | closing => exact h
  | finished => exact h

/-- The round that a check has let in ends before the timeout and one pause. -/
lemma allows_round {start : ℚ} (h : (MonitorStage.syncing start).Allows limit now rounds) :
    (MonitorStage.sleeping start (now + cookieSyncPollSeconds)).Allows limit now (rounds + 1) := by
  unfold MonitorStage.Allows at h ⊢
  rw [mul_add, mul_one]
  exact ⟨by linarith only [h.1], by linarith only [h.2]⟩

lemma paced_cancelSave (h : cookieSyncPollSeconds * monitor.rounds < limit + cookieSyncPollSeconds)
    (hsaved : monitor.saved.length + 1 ≤ monitor.rounds) (written : Option BrowserSession) :
    (cancelSave x s monitor written).next.Paced limit now := by
  unfold cancelSave
  split
  · split
    · exact ⟨h, by simpa using hsaved⟩
    · exact ⟨h, Nat.le_of_succ_le hsaved⟩
  · exact ⟨h, Nat.le_of_succ_le hsaved⟩

lemma Monitor.Paced.syncRound {start : ℚ} (h : monitor.Paced limit s.now) (hstage : monitor.stage = .syncing start)
    (move : MonitorMove) : (syncRound x s monitor start move).next.Paced limit s.now := by
  have hallows := h.allows
  rw [hstage] at hallows
  have hround := allows_round hallows
  have hcast : ((monitor.rounds + 1 : ℕ) : ℚ) = monitor.rounds + 1 := Nat.cast_succ _
  rw [← hcast] at hround
  have hsaved : monitor.saved.length ≤ monitor.rounds + 1 := Nat.le_succ_of_le h.saved
  cases move with
  | returned => exact ⟨hround, hsaved⟩
  | raised => exact ⟨hround, hsaved⟩
  | cancelled written =>
    have hlength : monitor.saved.length + 1 ≤ monitor.rounds + 1 := Nat.succ_le_succ h.saved
    exact @paced_cancelSave x s { monitor with rounds := monitor.rounds + 1 } limit s.now hround.2 hlength written
  | synced session reply currentUrl =>
    unfold WebSearch.syncRound
    cases hdomain : getDomain x.u x.tld monitor.url with
    | error e => exact ⟨hround, hsaved⟩
    | ok domain =>
      refine ⟨?_, by simpa using h.saved⟩
      dsimp only
      split
      · exact hround.2
      · exact hround

lemma Monitor.Paced.advance (h : monitor.Paced x.novncTimeoutSeconds s.now) (move : MonitorMove) :
    (advanceMonitor x move s monitor).next.Paced x.novncTimeoutSeconds s.now := by
  unfold advanceMonitor
  split
  · rename_i start hstage
    exact h.syncRound hstage move
  · exact ⟨allows_nextStage h.allows move, h.saved⟩

end Pace

/-! ### Every run -/

section Accounted

variable {x : SessionStrategies} {events : List SourceEvent} {pool : Monitors}

/-- A monitor has saved the data for the domain, or FlareSolverr has solved a page of it. -/
def SavedFor (x : SessionStrategies) (events : List SourceEvent) (pool : Monitors) (domain : String)
    (data : SessionData) : Prop :=
  (∃ (i : ℕ) (monitor : Monitor), pool.procs[i]? = some monitor ∧
      getDomain x.u x.tld monitor.url = .ok domain ∧ data ∈ monitor.saved) ∨
    ∃ url answer reply, SourceEvent.solve url answer reply ∈ events ∧ getDomain x.u x.tld url = .ok domain ∧
      flareSolverrData x answer = some data

/-- A monitor of a page that was handed to a human, which has saved what it read in its moves. -/
structure Monitor.Accounted (x : SessionStrategies) (events : List SourceEvent) (now : ℚ) (i : ℕ)
    (monitor : Monitor) : Prop where
  paced : monitor.Paced x.novncTimeoutSeconds now
  intervened : ∃ tunnels, SourceEvent.intervene monitor.url tunnels ∈ events
  read : ∀ data ∈ monitor.saved, ∃ move session, SourceEvent.move i move ∈ events ∧ move.session = some session ∧
    data = session.data

/-- The store and the monitors of a run. -/
structure SourcesKnown (x : SessionStrategies) (events : List SourceEvent) (pool : Monitors) : Prop where
  store : pool.shared.Sourced (SavedFor x events pool)
  monitors : ∀ (i : ℕ) (monitor : Monitor), pool.procs[i]? = some monitor → monitor.Accounted x events pool.shared.now i

/-- A change that keeps the saves of every monitor keeps the sources. -/
lemma SavedFor.mono {pool' : Monitors} {domain : String} {data : SessionData}
    (h : SavedFor x events pool domain data)
    (hkeep : ∀ (i : ℕ) (monitor : Monitor), pool.procs[i]? = some monitor →
      ∃ monitor' : Monitor, pool'.procs[i]? = some monitor' ∧ monitor'.url = monitor.url ∧
        monitor.saved ⊆ monitor'.saved) :
    SavedFor x events pool' domain data := by
  refine h.imp_left ?_
  intro hsaved
  obtain ⟨i, monitor, hget, hdomain, hdata⟩ := hsaved
  obtain ⟨monitor', hget', hurl, hsubset⟩ := hkeep i monitor hget
  exact ⟨i, monitor', hget', hurl ▸ hdomain, hsubset hdata⟩

lemma Monitor.Accounted.mono {i : ℕ} {monitor : Monitor} {now now' : ℚ} (h : monitor.Accounted x events now i)
    (hnow : now ≤ now') : monitor.Accounted x events now' i :=
  ⟨⟨h.paced.allows.mono hnow, h.paced.saved⟩, h.intervened, h.read⟩

lemma SourcesKnown.start (h : SourcesKnown x events pool) {url : String}
    (hmem : ∃ tunnels, SourceEvent.intervene url tunnels ∈ events) :
    SourcesKnown x events (pool.start ⟨url, .launching, 0, []⟩) := by
  constructor
  · apply h.store.mono
    intro domain data hsaved
    exact hsaved.mono fun i monitor hget => ⟨monitor, getElem?_start_of_some hget, rfl, fun _ hdata => hdata⟩
  · intro i monitor hget
    rw [getElem?_start] at hget
    split at hget
    · obtain rfl := Option.some.inj hget
      refine ⟨⟨rfl, Nat.le_refl 0⟩, hmem, ?_⟩
      intro data hdata
      cases hdata
    · exact h.monitors i monitor hget

lemma SourcesKnown.move (h : SourcesKnown x events pool) {i : ℕ} {move : MonitorMove}
    (hmem : .move i move ∈ events) : SourcesKnown x events (pool.step (advanceMonitor x move) i) := by
  cases hget : pool.procs[i]? with
  | none =>
    rw [step_of_none hget]
    exact h
  | some monitor =>
    have hmoved : monitor.Moved x pool.shared move (advanceMonitor x move pool.shared monitor) :=
      moved_advanceMonitor move
    have hprocs := getElem?_step (advanceMonitor x move) hget hmoved.started
    have hself := @getElem?_step_self _ _ (advanceMonitor x move) _ _ _ hget
    constructor
    · rw [shared_step _ hget]
      apply hmoved.sourced
      · apply h.store.mono
        intro domain data hsaved
        apply hsaved.mono
        intro j monitor' hget'
        by_cases hij : j = i
        · rw [hij, hget] at hget'
          obtain rfl := Option.some.inj hget'
          exact ⟨_, hij ▸ hself, hmoved.url, hmoved.saved_subset⟩
        · exact ⟨monitor', getElem?_step_of_ne hij hget', rfl, fun _ hdata => hdata⟩
      · intro domain hdomain data hdata
        exact .inl ⟨i, _, hself, hmoved.url ▸ hdomain, hdata⟩
    · intro j monitor' hget'
      rw [shared_step _ hget, hmoved.now]
      rw [hprocs] at hget'
      split at hget'
      · rename_i hij
        obtain rfl := Option.some.inj hget'
        have hbefore := h.monitors i monitor hget
        rw [hij]
        refine ⟨hbefore.paced.advance move, hmoved.url ▸ hbefore.intervened, ?_⟩
        intro data hdata
        apply (hmoved.saved_cases hdata).elim (hbefore.read data)
        intro hnew
        obtain ⟨session, hsession, hdata⟩ := hnew
        exact ⟨move, session, hmem, hsession, hdata⟩
      · exact h.monitors j monitor' hget'

lemma SourcesKnown.next (h : SourcesKnown x events pool) (e : SourceEvent) (hmem : e ∈ events) :
    SourcesKnown x events (Monitors.next x pool e) := by
  cases e with
  | intervene url tunnels => exact h.start ⟨tunnels, hmem⟩
  | move i move => exact h.move hmem
  | solve url answer reply =>
    cases hdata : flareSolverrData x answer with
    | none =>
      simp only [Monitors.next, hdata]
      exact h
    | some data =>
      simp only [Monitors.next, hdata]
      constructor
      · cases hdomain : getDomain x.u x.tld url with
        | error e =>
          simp only [saveSessionData, hdomain]
          exact h.store
        | ok domain => exact h.store.save hdomain (.inr ⟨url, answer, reply, hmem, hdomain, hdata⟩) ttlSeconds reply
      · intro i monitor hget
        rw [now_saveSessionData]
        exact h.monitors i monitor hget
  | clock t =>
    refine ⟨⟨h.store.redis, h.store.memory⟩, ?_⟩
    exact fun i monitor hget => (h.monitors i monitor hget).mono (le_max_left _ _)
  | evict key => exact ⟨@CookieStore.Sourced.evict x.u x.tld _ _ h.store key, h.monitors⟩

lemma sourcesKnown_start (connected : Bool) (now : ℚ) : SourcesKnown x events ⟨startManager connected now, []⟩ := by
  refine ⟨⟨?_, ?_⟩, ?_⟩
  · intro key entry hlookup
    cases hlookup
  · intro domain data hlookup
    cases hlookup
  · intro i monitor hget
    cases hget

/-- Whatever a site is sent was read in a browser in which a human was asked to pass that site, or came with the
clearance cookie in a solution for it, and a monitor makes no more rounds than fit into its time. -/
theorem sessions_come_from_their_sources (x : SessionStrategies) (connected : Bool) (now : ℚ)
    (events : List SourceEvent) :
    let pool := run (Monitors.next x) ⟨startManager connected now, []⟩ events
    (∀ url answers domain data, getDomain x.u x.tld url = .ok domain →
      getSessionData x.u x.tld pool.shared url answers = .ok (some data) →
      (∃ i url' tunnels move session, SourceEvent.intervene url' tunnels ∈ events ∧ SourceEvent.move i move ∈ events ∧
        (pool.procs[i]?).map Monitor.url = some url' ∧ getDomain x.u x.tld url' = .ok domain ∧
        move.session = some session ∧ data = session.data) ∨
      ∃ url' session reply, SourceEvent.solve url' (.solved session) reply ∈ events ∧
        getDomain x.u x.tld url' = .ok domain ∧ data = session.data ∧
        "cf_clearance" ∈ data.cookies.map Prod.fst) ∧
    ∀ monitor ∈ pool.procs, monitor.saved.length ≤ monitor.rounds ∧
      cookieSyncPollSeconds * monitor.rounds < x.novncTimeoutSeconds + cookieSyncPollSeconds := by
  intro pool
  have hpool : SourcesKnown x events pool := by
    apply run_keeps
    · exact fun pool e hmem h => h.next e hmem
    · exact sourcesKnown_start connected now
  constructor
  · intro url answers domain data hdomain hget
    apply (hpool.store.get hdomain hget).imp
    · intro hsaved
      obtain ⟨i, monitor, hproc, hsame, hdata⟩ := hsaved
      have hmonitor := hpool.monitors i monitor hproc
      obtain ⟨move, session, hmove, hsession, heq⟩ := hmonitor.read data hdata
      obtain ⟨tunnels, hintervened⟩ := hmonitor.intervened
      refine ⟨i, monitor.url, tunnels, move, session, hintervened, hmove, ?_, hsame, hsession, heq⟩
      rw [hproc, Option.map_some]
    · intro hsolved
      obtain ⟨url', answer, reply, hmem, hsame, hdata⟩ := hsolved
      obtain ⟨session, hanswer, heq, hclearance⟩ := solved_of_flareSolverrData hdata
      exact ⟨url', session, reply, hanswer ▸ hmem, hsame, heq, hclearance⟩
  · intro monitor hmem
    obtain ⟨i, hget⟩ := List.mem_iff_getElem?.mp hmem
    have hpaced := (hpool.monitors i monitor hget).paced
    exact ⟨hpaced.saved, hpaced.allows.lt (Nat.cast_nonneg _)⟩

end Accounted

end AscendAI.WebSearch
