import Mathlib.Algebra.Order.Ring.Rat
import Mathlib.Data.List.AList
import AscendAI.Lib.PythonUrl
import AscendAI.Lib.Runs

/-!
# The cookie manager

AscendWebSearch keeps the clearance cookies of a site under a key that it cuts out of the URL, in Redis
when it is connected and answers, and in memory otherwise.
-/

namespace AscendAI.WebSearch
open PythonUrl

/-- The parts of a host that `tldextract` gives. -/
structure ExtractResult where
  domain : String
  suffix : String

/-- `tldextract` with its bundled list. -/
structure TldExtract where
  extract : String → ExtractResult

/-- Facts of `tldextract`: it drops a user name in front of a host, the parts of a host are made of the
host and of dots, and a text without slashes that is blank up to its query has no parts. -/
structure TldExtract.Lawful (tld : TldExtract) : Prop where
  extract_userinfo : ∀ user host, (∀ c ∈ user.toList ++ host.toList, isNetlocEnd c = false) →
    '@' ∉ host.toList → tld.extract (user ++ "@" ++ host) = tld.extract host
  mem_host : ∀ host c, c ≠ '.' →
    c ∈ (tld.extract host).domain.toList ∨ c ∈ (tld.extract host).suffix.toList → c ∈ host.toList
  extract_blank : ∀ host, '/' ∉ host.toList → (∀ c ∈ host.toList.takeWhile (!isNetlocEnd ·), PythonString.isSpace c) →
      tld.extract host = ⟨"", ""⟩

/-- The registrable domain of a host, or the host when it has none. -/
def TldExtract.apex (tld : TldExtract) (host : String) : String :=
  let extracted := tld.extract host
  if extracted.domain ≠ "" ∧ extracted.suffix ≠ "" then extracted.domain ++ "." ++ extracted.suffix else host

structure SessionData where
  cookies : List (String × String)
  userAgent : String
  deriving DecidableEq

structure RedisEntry where
  data : SessionData
  expiresAt : ℚ

structure CookieStore where
  connected : Bool
  redis : AList fun _ : String => RedisEntry
  memory : AList fun _ : String => SessionData
  now : ℚ

/-- How a `setex` ends. The reply can be lost after the entry is written. -/
inductive SetexReply where
  | stored
  | failed
  | storedAndFailed
  deriving DecidableEq

section Manager

variable (u : UnicodeData) (tld : TldExtract)

/-- The network location of the URL, or of the URL behind `//`. -/
def authority (url : String) : Except String String :=
  match urlparse u url "" with
  | .error e => .error e
  | .ok parsed =>
    if parsed.netloc ≠ "" then .ok parsed.netloc
    else (urlparse u ("//" ++ url) "http").map ParseResult.netloc

def getDomain (url : String) : Except String String :=
  match authority u url with
  | .error e => .error e
  | .ok netloc =>
    let host := if netloc ≠ "" then netloc else String.ofList (partition '/' url.toList).1
    let host := String.ofList (partition ':' (u.lower host).toList).1
    if host = "" ∨ '/' ∈ host.toList then .ok "" else .ok (tld.apex host)

def redisKey (domain : String) : String := "session_cookies:" ++ domain

/-- The live entry of a key in Redis. -/
def CookieStore.redisGet (s : CookieStore) (key : String) : Option SessionData :=
  (s.redis.lookup key).bind fun entry => if s.now < entry.expiresAt then some entry.data else none

/-- `setex`: a time to live that is not positive is refused. -/
def CookieStore.setex (s : CookieStore) (key : String) (ttlSeconds : ℚ) (data : SessionData)
    (reply : SetexReply) : CookieStore × Bool :=
  if ttlSeconds ≤ 0 ∨ reply = .failed then (s, false)
  else ({ s with redis := s.redis.insert key ⟨data, s.now + ttlSeconds⟩ }, reply = .stored)

def saveSessionData (s : CookieStore) (url : String) (data : SessionData) (ttlSeconds : ℚ)
    (reply : SetexReply) : CookieStore :=
  match getDomain u tld url with
  | .error _ => s
  | .ok domain =>
    let stored := if s.connected then s.setex (redisKey domain) ttlSeconds data reply else (s, false)
    if stored.2 then stored.1 else { stored.1 with memory := stored.1.memory.insert domain data }

/-- `answers` tells whether Redis answers the `get`. -/
def getSessionData (s : CookieStore) (url : String) (answers : Bool) : Except String (Option SessionData) :=
  match getDomain u tld url with
  | .error e => .error e
  | .ok domain =>
    match if s.connected ∧ answers then s.redisGet (redisKey domain) else none with
    | some data => .ok (some data)
    | none => .ok (s.memory.lookup domain)

/-- The manager saves, time passes, or Redis drops a key. -/
inductive CookieEvent where
  | save (url : String) (data : SessionData) (ttlSeconds : ℚ) (reply : SetexReply)
  | clock (t : ℚ)
  | evict (key : String)
  deriving DecidableEq

def cookieStep (s : CookieStore) : CookieEvent → CookieStore
  | .save url data ttlSeconds reply => saveSessionData u tld s url data ttlSeconds reply
  | .clock t => { s with now := max s.now t }
  | .evict key => { s with redis := s.redis.erase key }

def startManager (connected : Bool) (now : ℚ) : CookieStore := ⟨connected, ∅, ∅, now⟩

end Manager

end AscendAI.WebSearch
