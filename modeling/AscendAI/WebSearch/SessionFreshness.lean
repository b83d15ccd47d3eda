import AscendAI.Lib.LastWrite
import AscendAI.WebSearch.CookieIsolation

/-!
# Freshness of session cookies

A save goes to Redis or falls back to memory, and what it leaves in the other store stays there. The saves
of a site are recorded beside the store, so that an answer can be compared with the latest of them.
-/

namespace AscendAI.WebSearch
open PythonUrl Runs LastWrite

variable {u : UnicodeData} {tld : TldExtract}

/-- A completed save of a site. Its entry may be in Redis, in memory or in both. -/
structure SessionSave where
  data : SessionData
  expiresAt : ℚ
  reachedRedis : Bool
  fellBack : Bool

/-- The store, and the completed saves of each site, the latest first. -/
structure SessionLog where
  store : CookieStore
  saves : String → List SessionSave

/-- A call of the manager with what Redis makes of it, or the passing of time. -/
inductive SessionEvent where
  | save (url : String) (data : SessionData) (ttlSeconds : ℚ) (reply : SetexReply)
  | get (url : String) (answers : Bool)
  | clock (t : ℚ)

def startLog (connected : Bool) (now : ℚ) : SessionLog := ⟨startManager connected now, fun _ => []⟩

def CookieStore.completedSave (s : CookieStore) (data : SessionData) (ttlSeconds : ℚ) (reply : SetexReply) :
    SessionSave :=
  ⟨data, s.now + ttlSeconds, writesRedis s.connected ttlSeconds reply, writesMemory s.connected ttlSeconds reply⟩

/-- A save of a URL that does not parse raises, and so does not complete. -/
def sessionStep (u : UnicodeData) (tld : TldExtract) (log : SessionLog) : SessionEvent → SessionLog
  | .save url data ttlSeconds reply =>
    let store := saveSessionData u tld log.store url data ttlSeconds reply
    match getDomain u tld url with
    | .error _ => ⟨store, log.saves⟩
    | .ok domain => ⟨store, record log.saves domain (log.store.completedSave data ttlSeconds reply)⟩
  | .get _ _ => log
  | .clock t => ⟨cookieStep u tld log.store (.clock t), log.saves⟩

/-- A get of a site returns the data of its latest save within the time to live of that save, or nothing. -/
def AnswersFresh (u : UnicodeData) (tld : TldExtract) (log : SessionLog) : SessionEvent → Prop
  | .get url answers => ∀ domain, getDomain u tld url = .ok domain →
      getSessionData u tld log.store url answers = .ok none ∨
        ∃ latest ∈ (log.saves domain).head?, getSessionData u tld log.store url answers = .ok (some latest.data) ∧
          log.store.now < latest.expiresAt
  | _ => True

/-- The data is that of the latest save, and the time to live of that save has not passed. -/
def IsCurrent (saves : List SessionSave) (now : ℚ) (data : SessionData) : Prop :=
  ∃ latest ∈ saves.head?, latest.data = data ∧ now < latest.expiresAt

instance (saves : List SessionSave) (now : ℚ) (data : SessionData) : Decidable (IsCurrent saves now data) :=
  inferInstanceAs (Decidable (∃ latest ∈ saves.head?, latest.data = data ∧ now < latest.expiresAt))

/-- The last save that reached Redis is current while it lives, and where it does not answer, the last save
that fell back to memory is. -/
structure NoneStale (saves : List SessionSave) (now : ℚ) (redisAnswers : Bool) : Prop where
  redis : redisAnswers → ∀ save ∈ saves.find? (·.reachedRedis), now < save.expiresAt →
    IsCurrent saves now save.data
  memory : (redisAnswers → ∀ save ∈ saves.find? (·.reachedRedis), save.expiresAt ≤ now) →
    ∀ save ∈ saves.find? (·.fellBack), IsCurrent saves now save.data

def LeavesNoneStale (u : UnicodeData) (tld : TldExtract) (log : SessionLog) : SessionEvent → Prop
  | .get url answers => ∀ domain, getDomain u tld url = .ok domain →
      NoneStale (log.saves domain) log.store.now (log.store.connected && answers)
  | _ => True

/-- Each store holds the last save of every site that went there. -/
structure Tracks (log : SessionLog) : Prop where
  redis : Holds log.store.redis redisKey SessionSave.reachedRedis
    (fun save => ⟨save.data, save.expiresAt⟩) log.saves
  memory : Holds log.store.memory id SessionSave.fellBack SessionSave.data log.saves

lemma tracks_startLog (connected : Bool) (now : ℚ) : Tracks (startLog connected now) :=
  ⟨holds_empty redisKey _ _, holds_empty id _ _⟩

lemma redisKey_injective : Function.Injective redisKey := fun _ _ h => not_imp_not.mp redisKey_ne h

lemma Tracks.step {log : SessionLog} (h : Tracks log) (e : SessionEvent) : Tracks (sessionStep u tld log e) := by
  cases e with
  | save url data ttlSeconds reply =>
    cases hdomain : getDomain u tld url with
    | error e =>
      have hstore : saveSessionData u tld log.store url data ttlSeconds reply = log.store := by
        unfold saveSessionData
        rw [hdomain]
      simp only [sessionStep, hdomain, hstore]
      exact h
    | ok domain =>
      simp only [sessionStep, hdomain, saveSessionData_eq hdomain]
      have hredis := h.redis.record redisKey_injective domain (log.store.completedSave data ttlSeconds reply)
      have hmemory := h.memory.record Function.injective_id domain (log.store.completedSave data ttlSeconds reply)
      exact ⟨hredis, hmemory⟩
  | get url answers => exact h
  | clock t => exact ⟨h.redis, h.memory⟩

/-- The save that a get finds: the last one in Redis while Redis answers and it lives, or else the last one
in memory. -/
def foundSave (saves : List SessionSave) (now : ℚ) (redisAnswers : Bool) : Option SessionSave :=
  ((if redisAnswers then saves.find? (·.reachedRedis) else none).filter fun save => now < save.expiresAt).or
    (saves.find? (·.fellBack))

lemma Tracks.getSessionData {log : SessionLog} (h : Tracks log) {url domain : String}
    (hdomain : getDomain u tld url = .ok domain) (answers : Bool) :
    getSessionData u tld log.store url answers =
      .ok ((foundSave (log.saves domain) log.store.now (log.store.connected && answers)).map SessionSave.data) := by
  have hredis := h.redis domain
  have hmemory := h.memory domain
  unfold WebSearch.getSessionData CookieStore.redisGet foundSave
  rw [hdomain]
  simp only [id_eq] at hmemory
  simp only [hredis, hmemory, ← Bool.and_eq_true]
  by_cases hanswers : (log.store.connected && answers) = true
  · simp only [hanswers, if_true]
    cases (log.saves domain).find? (·.reachedRedis) with
    | none => rfl
    | some save =>
      by_cases hlive : log.store.now < save.expiresAt <;> simp [Option.filter, hlive]
  · simp [hanswers]

section Found

variable {saves : List SessionSave} {now : ℚ} {redisAnswers : Bool}

lemma foundSave_redis {save : SessionSave} (hanswers : redisAnswers)
    (hsave : save ∈ saves.find? (·.reachedRedis)) (hlive : now < save.expiresAt) :
    foundSave saves now redisAnswers = some save := by
  unfold foundSave
  rw [if_pos hanswers, Option.mem_def.mp hsave, Option.filter_some, if_pos (decide_eq_true hlive), Option.some_or]

lemma foundSave_memory
    (hdead : redisAnswers → ∀ save ∈ saves.find? (·.reachedRedis), save.expiresAt ≤ now) :
    foundSave saves now redisAnswers = saves.find? (·.fellBack) := by
  unfold foundSave
  rw [Option.filter_eq_none_iff.mpr, Option.none_or]
  intro save hsave hlive
  by_cases hanswers : redisAnswers
  · rw [if_pos hanswers] at hsave
    exact absurd (of_decide_eq_true hlive) (not_lt.mpr (hdead hanswers save hsave))
  · rw [if_neg hanswers] at hsave
    cases hsave

/-- Nothing stale is left for a get to find. -/
lemma noneStale_iff :
    NoneStale saves now redisAnswers ↔
      ∀ save ∈ foundSave saves now redisAnswers, IsCurrent saves now save.data := by
  constructor
  · intro h save hsave
    by_cases hdead : redisAnswers → ∀ save ∈ saves.find? (·.reachedRedis), save.expiresAt ≤ now
    · rw [foundSave_memory hdead] at hsave
      exact h.memory hdead save hsave
    · push Not at hdead
      obtain ⟨hanswers, found, hfound, hlive⟩ := hdead
      obtain rfl := Option.some.inj ((foundSave_redis hanswers hfound hlive).symm.trans hsave)
      exact h.redis hanswers found hfound hlive
  · intro h
    refine ⟨fun hanswers save hsave hlive => ?_, fun hdead save hsave => ?_⟩
    · exact h save (foundSave_redis hanswers hsave hlive)
    · apply h
      rw [foundSave_memory hdead]
      exact hsave

end Found

lemma answersFresh_iff {log : SessionLog} (h : Tracks log) (e : SessionEvent) :
    AnswersFresh u tld log e ↔ LeavesNoneStale u tld log e := by
  cases e with
  | save url data ttlSeconds reply => exact Iff.rfl
  | clock t => exact Iff.rfl
  | get url answers =>
    simp only [AnswersFresh, LeavesNoneStale]
    refine forall_congr' fun domain => forall_congr' fun hdomain => ?_
    rw [noneStale_iff, h.getSessionData hdomain]
    cases foundSave (log.saves domain) log.store.now (log.store.connected && answers) with
    | none => simp
    | some save => simp [IsCurrent, eq_comm]

lemma AnswersFresh.isCurrent {log : SessionLog} {url domain : String} {answers : Bool}
    (h : AnswersFresh u tld log (.get url answers)) (hdomain : getDomain u tld url = .ok domain)
    {data : SessionData} (hget : getSessionData u tld log.store url answers = .ok (some data)) :
    IsCurrent (log.saves domain) log.store.now data := by
  rcases h domain hdomain with hnone | ⟨latest, hlatest, hsome, hlive⟩
  · rw [hget] at hnone
    cases hnone
  · rw [hget] at hsome
    obtain rfl := Option.some.inj (Except.ok.inj hsome)
    exact ⟨latest, hlatest, rfl, hlive⟩

/-- A get returns the data of the latest save of the site while it lives, or nothing, exactly when the saves
leave nothing stale in the store that it reads. -/
theorem sessions_fresh_iff (u : UnicodeData) (tld : TldExtract) (connected : Bool) (now : ℚ)
    (events : List SessionEvent) :
    Along (sessionStep u tld) (AnswersFresh u tld) (startLog connected now) events ↔
      Along (sessionStep u tld) (LeavesNoneStale u tld) (startLog connected now) events := by
  apply along_congr_of_invariant (I := Tracks)
  · exact fun log e h => h.step e
  · exact fun log e h => answersFresh_iff h e
  · exact tracks_startLog connected now

/-- What fell back to memory comes back when Redis, which has the next save, does not answer. Without Redis
it never expires. -/
theorem fallback_resurfaces :
    ¬ Along (sessionStep asciiData lastLabels) (AnswersFresh asciiData lastLabels) (startLog true 0)
        [.save "https://shop.com/" clearance 7200 .failed, .save "https://shop.com/" ⟨[], "UA"⟩ 7200 .stored,
          .get "https://shop.com/" false] ∧
      ¬ Along (sessionStep asciiData lastLabels) (AnswersFresh asciiData lastLabels) (startLog false 0)
        [.save "https://shop.com/" clearance 7200 .stored, .clock 7200, .get "https://shop.com/" true] := by
  have hdomain : getDomain asciiData lastLabels "https://shop.com/" = .ok "shop.com" := by decide +kernel
  constructor
  · intro h
    have hcurrent : IsCurrent _ _ clearance := AnswersFresh.isCurrent h.2.2.1 hdomain (by decide +kernel)
    exact absurd hcurrent (by decide +kernel)
  · intro h
    have hcurrent : IsCurrent _ _ clearance := AnswersFresh.isCurrent h.2.2.1 hdomain (by decide +kernel)
    exact absurd hcurrent (by decide +kernel)

end AscendAI.WebSearch
