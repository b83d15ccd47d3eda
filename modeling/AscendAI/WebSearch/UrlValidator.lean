import AscendAI.Lib.HttpNetwork
import AscendAI.Lib.PythonUrl
import AscendAI.Lib.Runs
import AscendAI.WebSearch.WebReader

/-!
# URLs that are read

The guard of `web_read` and `read_url_v2`, the requests of the curl_cffi tiers, and the browser of the
Playwright tier with the route handler that its requests pass.
-/

namespace AscendAI.WebSearch
open HttpNetwork PythonUrl

/-- The network: the addresses of a host, where a URL redirects to, and what the page of a URL references. -/
structure Web where
  getaddrinfo : GetAddrInfo
  redirect : String → Option String
  references : String → List String

/-- The browser: the URL that it requests for one that it is told to go to, its limit of redirects, and
whether the route handler is called for them too. Playwright calls it for the first URL of a redirect only. -/
structure Browser where
  normalize : String → String
  maxRedirects : ℕ
  routesRedirects : Bool

/-- The service: its reader, `should_block` of the adblock rules, and what it finds outside. -/
structure WebSearchService where
  reader : WebReader
  unicode : UnicodeData
  shouldBlock : String → Bool
  curl : RedirectPolicy
  browser : Browser
  web : Web

inductive ReadError where
  | valueError (message : String)
  | httpException (statusCode : ℕ) (detail : String)
  | unicodeError (message : String)
  deriving DecidableEq

section Guard

variable (s : WebSearchService)

def isSafeExternalUrl (url : String) : Except ReadError Bool :=
  match urlparse s.unicode url "" with
  | .error _ => .ok false
  | .ok parsed =>
    if s.unicode.lower parsed.scheme ∉ ["http", "https"] then .ok false
    else
      let host := (hostname s.unicode parsed.netloc).getD ""
      if host = "" then .ok false
      else
        match s.web.getaddrinfo host with
        | .error .gaierror => .ok false
        | .error (.unicodeError message) => .error (.unicodeError message)
        | .ok infos =>
          .ok (infos.all fun info =>
            match IpAddress.ipAddress info with
            | some ip => ip.isPublic
            | none => false)

structure ReadRequest where
  url : String
  includeLinks : Bool := false
  linkFilter : Option String := none
  heavyMode : Bool := false

/-- The ladder that the request asks for. -/
def ReadRequest.read (r : WebReader) (session : Session) (request : ReadRequest) : Call :=
  if request.includeLinks then readWithLinks r session request.url request.linkFilter request.heavyMode
  else WebSearch.read r session request.url request.heavyMode

/-- What both entries do: they refuse the URL or read it. -/
def guardedRead (refusal : String → ReadError) (session : Session) (request : ReadRequest) :
    Except ReadError Call :=
  match isSafeExternalUrl s request.url with
  | .error e => .error e
  | .ok false =>
    .error (refusal "URL resolves to a private, loopback, link-local, or otherwise non-routable address")
  | .ok true => .ok (request.read s.reader session)

def webRead (session : Session) (request : ReadRequest) : Except ReadError Call :=
  guardedRead s .valueError session request

def readUrlV2 (session : Session) (request : ReadRequest) : Except ReadError Call :=
  guardedRead s (.httpException 400) session request

end Guard

section Fetch

variable (s : WebSearchService)

/-- Where curl goes from a URL. -/
def curlRedirect (url : String) : Option String := (s.web.redirect url).filter s.curl.follows

/-- The URLs that `fetch_with_curl_cffi` requests: it allows redirects. -/
def fetchWithCurlCffi (url : String) : List String := follow (curlRedirect s) s.curl.maxRedirects url

/-- What the curl_cffi tiers fetch during a call. -/
def curlFetched (url : String) (call : Call) : List String :=
  call.invocations.flatMap fun invocation =>
    if invocation.tier ∈ [.beautifulsoup, .trafilatura] then fetchWithCurlCffi s url else []

inductive RouteDecision where
  | abort
  | continue
  deriving DecidableEq, Repr

def routeHandler (url : String) : RouteDecision := if s.shouldBlock url then .abort else .continue

/-- The requests that the route handler decided, and the pages that the browser has loaded, each with the
number of redirects behind it. -/
structure BrowserState where
  routed : List (String × RouteDecision) := []
  loaded : List (String × ℕ) := []

/-- The page with this URL redirects, or requests what it references. -/
inductive BrowserEvent where
  | redirect (url : String) (redirects : ℕ)
  | reference (url : String) (redirects : ℕ) (target : String)

/-- A request that passes the route handler. -/
def BrowserState.route (b : BrowserState) (url : String) (redirects : ℕ) : BrowserState :=
  match routeHandler s url with
  | .abort => { b with routed := b.routed ++ [(url, .abort)] }
  | .continue => ⟨b.routed ++ [(url, .continue)], b.loaded ++ [(url, redirects)]⟩

def browserStep (b : BrowserState) : BrowserEvent → BrowserState
  | .redirect url redirects =>
    match s.web.redirect url with
    | none => b
    | some target =>
      if (url, redirects) ∈ b.loaded ∧ redirects < s.browser.maxRedirects then
        if s.browser.routesRedirects then b.route s target (redirects + 1)
        else { b with loaded := b.loaded ++ [(target, redirects + 1)] }
      else b
  | .reference url redirects target =>
    if (url, redirects) ∈ b.loaded ∧ target ∈ s.web.references url then b.route s target 0 else b

/-- `get_html` of the Playwright strategy up to the outcome: `page.goto`, unless the URL is one of a login. -/
def playwrightGetHtml (url : String) (events : List BrowserEvent) : BrowserState :=
  if isLoginRedirectUrl s.reader url then {}
  else Runs.run (browserStep s) (({} : BrowserState).route s (s.browser.normalize url) 0) events

/-- The requests that the route handler let through. -/
def BrowserState.letThrough (b : BrowserState) : List String :=
  b.routed.filterMap fun request => if request.2 = .continue then some request.1 else none

end Fetch

end AscendAI.WebSearch
