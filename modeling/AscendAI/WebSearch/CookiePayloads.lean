import AscendAI.Lib.JsonDumps
import AscendAI.WebSearch.CookieIsolation

/-!
# Cookies as texts

What Redis holds are the JSON texts of payloads, while the memory holds the payloads themselves. Behind the same events
the manager over texts answers as the one over values does.
-/

namespace AscendAI.WebSearch
open JsonGrammar PythonUrl Runs

/-- `{"cookies": cookies, "user_agent": user_agent}` -/
def payload (data : SessionData) : JsonTree :=
  .obj [("cookies", .obj (data.cookies.map fun (name, value) => (name, .str value))),
    ("user_agent", .str data.userAgent)]

/-- No number is in a payload. -/
def noNumbers (_ : ℚ) : List Char := []

/-- `json.dumps(payload)` -/
def dumps (payload : JsonTree) : List Char := dump escapeAscii noNumbers payload

structure TextEntry where
  text : List Char
  expiresAt : ℚ

/-- The manager with its Redis as it is: a text under each key. -/
structure TextStore where
  connected : Bool
  redis : AList fun _ : String => TextEntry
  memory : AList fun _ : String => JsonTree
  now : ℚ

section Manager

variable (u : UnicodeData) (tld : TldExtract)

def TextStore.redisGet (s : TextStore) (key : String) : Option (List Char) :=
  (s.redis.lookup key).bind fun entry => if s.now < entry.expiresAt then some entry.text else none

def TextStore.setex (s : TextStore) (key : String) (ttlSeconds : ℚ) (text : List Char)
    (reply : SetexReply) : TextStore × Bool :=
  if ttlSeconds ≤ 0 ∨ reply = .failed then (s, false)
  else ({ s with redis := s.redis.insert key ⟨text, s.now + ttlSeconds⟩ }, reply = .stored)

/-- `save_session_data` -/
def TextStore.save (s : TextStore) (url : String) (data : SessionData) (ttlSeconds : ℚ) (reply : SetexReply) :
    TextStore :=
  match getDomain u tld url with
  | .error _ => s
  | .ok domain =>
    let stored := if s.connected then s.setex (redisKey domain) ttlSeconds (dumps (payload data)) reply else (s, false)
    if stored.2 then stored.1 else { stored.1 with memory := stored.1.memory.insert domain (payload data) }

/-- `get_session_data`: an empty text is a miss, and one that is no JSON text an error, which is caught. -/
def TextStore.get (readNumber : List Char → Option ℚ) (s : TextStore) (url : String) (answers : Bool) :
    Except String (Option JsonTree) :=
  match getDomain u tld url with
  | .error e => .error e
  | .ok domain =>
    let found := if s.connected ∧ answers then s.redisGet (redisKey domain) else none
    match found.bind fun text => if text = [] then none else read readNumber text with
    | some parsed => .ok (some parsed)
    | none => .ok (s.memory.lookup domain)

def textStep (s : TextStore) : CookieEvent → TextStore
  | .save url data ttlSeconds reply => s.save u tld url data ttlSeconds reply
  | .clock t => { s with now := max s.now t }
  | .evict key => { s with redis := s.redis.erase key }

def startTexts (connected : Bool) (now : ℚ) : TextStore := ⟨connected, ∅, ∅, now⟩

end Manager

/-! ### One payload -/

section Payload

variable (readNumber : List Char → Option ℚ)

lemma writable_payload (data : SessionData) : Writable readNumber noNumbers (payload data) := by
  refine ⟨?_, trivial, trivial⟩
  rw [Writable, fieldsWritable_iff]
  intro field hfield
  obtain ⟨cookie, -, rfl⟩ := List.mem_map.mp hfield
  trivial

/-- The text of a payload is read as the payload. -/
lemma read_dumps (data : SessionData) : read readNumber (dumps (payload data)) = some (payload data) :=
  read_document (document_dump charText_escapeAscii (writable_payload readNumber data))

lemma dumps_ne_nil (data : SessionData) : dumps (payload data) ≠ [] := List.cons_ne_nil _ _

end Payload

/-! ### The two managers -/

section Encodes

variable {u : UnicodeData} {tld : TldExtract} {t : TextStore} {s : CookieStore}

def RedisEntry.encode (entry : RedisEntry) : TextEntry := ⟨dumps (payload entry.data), entry.expiresAt⟩

/-- The texts and payloads of a manager are those of the values of another. -/
structure TextStore.Encodes (t : TextStore) (s : CookieStore) : Prop where
  connected : t.connected = s.connected
  now : t.now = s.now
  redis : ∀ key, t.redis.lookup key = (s.redis.lookup key).map RedisEntry.encode
  memory : ∀ domain, t.memory.lookup domain = (s.memory.lookup domain).map payload

lemma encodes_start (connected : Bool) (now : ℚ) : (startTexts connected now).Encodes (startManager connected now) :=
  ⟨rfl, rfl, fun _ => rfl, fun _ => rfl⟩

/-- Inserting on both sides keeps two maps alike. -/
lemma lookup_insert_map {α β : Type} {m : AList fun _ : String => α} {m' : AList fun _ : String => β} {f : β → α}
    (h : ∀ key, m.lookup key = (m'.lookup key).map f) (key : String) (value : β) (key' : String) :
    (m.insert key (f value)).lookup key' = ((m'.insert key value).lookup key').map f := by
  by_cases hkey : key' = key
  · rw [hkey, AList.lookup_insert, AList.lookup_insert, Option.map_some]
  · rw [AList.lookup_insert_ne hkey, AList.lookup_insert_ne hkey, h]

lemma TextStore.Encodes.setex (h : t.Encodes s) (key : String) (ttlSeconds : ℚ) (data : SessionData)
    (reply : SetexReply) :
    (t.setex key ttlSeconds (dumps (payload data)) reply).1.Encodes (s.setex key ttlSeconds data reply).1 ∧
      (t.setex key ttlSeconds (dumps (payload data)) reply).2 = (s.setex key ttlSeconds data reply).2 := by
  unfold TextStore.setex CookieStore.setex
  split
  · exact ⟨h, rfl⟩
  · refine ⟨⟨h.connected, h.now, ?_, h.memory⟩, rfl⟩
    rw [h.now]
    exact lookup_insert_map h.redis key ⟨data, s.now + ttlSeconds⟩

lemma TextStore.Encodes.remember (h : t.Encodes s) (domain : String) (data : SessionData) :
    TextStore.Encodes { t with memory := t.memory.insert domain (payload data) }
      { s with memory := s.memory.insert domain data } :=
  ⟨h.connected, h.now, h.redis, lookup_insert_map h.memory domain data⟩

lemma TextStore.Encodes.save (h : t.Encodes s) (url : String) (data : SessionData) (ttlSeconds : ℚ)
    (reply : SetexReply) :
    (t.save u tld url data ttlSeconds reply).Encodes (saveSessionData u tld s url data ttlSeconds reply) := by
  unfold TextStore.save saveSessionData
  cases getDomain u tld url with
  | error e => exact h
  | ok domain =>
    simp only [h.connected]
    cases s.connected with
    | false => exact h.remember domain data
    | true =>
      obtain ⟨hstored, hreply⟩ := h.setex (redisKey domain) ttlSeconds data reply
      simp only [if_true, hreply]
      split
      · exact hstored
      · exact hstored.remember domain data

lemma TextStore.Encodes.step (h : t.Encodes s) (e : CookieEvent) :
    (textStep u tld t e).Encodes (cookieStep u tld s e) := by
  cases e with
  | save url data ttlSeconds reply => exact h.save url data ttlSeconds reply
  | clock time =>
    have hnow : max t.now time = max s.now time := by rw [h.now]
    exact ⟨h.connected, hnow, h.redis, h.memory⟩
  | evict key =>
    refine ⟨h.connected, h.now, ?_, h.memory⟩
    intro key'
    by_cases hkey : key' = key
    · simp only [textStep, cookieStep]
      rw [hkey, AList.lookup_erase, AList.lookup_erase, Option.map_none]
    · simp only [textStep, cookieStep, AList.lookup_erase_ne hkey, h.redis]

/-- What Redis answers is the text of the value that it holds. -/
lemma TextStore.Encodes.redisGet (h : t.Encodes s) (key : String) :
    t.redisGet key = (s.redisGet key).map fun data => dumps (payload data) := by
  unfold TextStore.redisGet CookieStore.redisGet
  rw [h.redis, h.now]
  cases s.redis.lookup key with
  | none => rfl
  | some entry =>
    simp only [Option.map_some, Option.bind_some, RedisEntry.encode]
    split
    · rfl
    · rfl

lemma TextStore.Encodes.get (h : t.Encodes s) (readNumber : List Char → Option ℚ) (url : String) (answers : Bool) :
    t.get u tld readNumber url answers = (getSessionData u tld s url answers).map (Option.map payload) := by
  unfold TextStore.get getSessionData
  cases getDomain u tld url with
  | error e => rfl
  | ok domain =>
    have hfound : ((if t.connected ∧ answers then t.redisGet (redisKey domain) else none).bind fun text =>
        if text = [] then none else read readNumber text) =
        (if s.connected ∧ answers then s.redisGet (redisKey domain) else none).map payload := by
      rw [h.connected, h.redisGet]
      split
      · cases s.redisGet (redisKey domain) with
        | none => rfl
        | some data =>
          simp only [Option.map_some, Option.bind_some, if_neg (dumps_ne_nil data)]
          exact read_dumps readNumber data
      · rfl
    simp only [hfound]
    cases (if s.connected ∧ answers then s.redisGet (redisKey domain) else none) with
    | none => simp only [Option.map_none, h.memory, Except.map]
    | some data => rfl

/-- The manager over texts answers, after every run of saves, time and evictions, what the manager over values does. -/
theorem texts_answer_as_values (u : UnicodeData) (tld : TldExtract) (readNumber : List Char → Option ℚ)
    (connected : Bool) (now : ℚ) (events : List CookieEvent) (url : String) (answers : Bool) :
    (run (textStep u tld) (startTexts connected now) events).get u tld readNumber url answers =
      (getSessionData u tld (run (cookieStep u tld) (startManager connected now) events) url answers).map
        (Option.map payload) := by
  have h : TextStore.Encodes (run (textStep u tld) (startTexts connected now) events)
      (run (cookieStep u tld) (startManager connected now) events) := by
    apply run_related
    · exact fun _ _ e hencodes => hencodes.step e
    · exact encodes_start connected now
  exact h.get readNumber url answers

end Encodes

end AscendAI.WebSearch
