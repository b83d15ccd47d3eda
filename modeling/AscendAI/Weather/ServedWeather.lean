import AscendAI.Lib.Runs
import AscendAI.Weather.WeatherToolService

/-!
# What the tools serve

Whatever calls run at the same time and whatever is evicted between their steps, what a call uses was answered by
Open-Meteo to the same question not longer ago than its cache allows, and a failure is that of a request of the call
itself.
-/

namespace AscendAI.Weather
open InputValidator ProcessPool Runs

section Provenance

variable {D : Type} (client : OpenMeteoClient D) (log : List (Exchange D))

/-- The response to a call gave a value for a place in a cache. -/
inductive Gave (response : Option HttpResponse) : ClientCall D → (k : CacheKey D) → k.Value → Prop where
  | mk (call : ClientCall D) (value : (call.key client.jdk).Value) (h : client.receive call response = .ok value) :
    Gave response call (call.key client.jdk) value

/-- At time `t` the value for the call was not older than its cache allows. -/
def Fresh (call : ClientCall D) (value : (call.key client.jdk).Value) (t : ℕ) : Prop :=
  ∃ asked response time, ⟨asked, response, time⟩ ∈ log ∧ Alike client.jdk asked call ∧
    Gave client response asked (call.key client.jdk) value ∧ time ≤ t ∧ t < time + (call.key client.jdk).ttl

/-- At time `t` a request for the call went out and failed. -/
def Refused (call : ClientCall D) (e : ClientFailure) (t : ℕ) : Prop :=
  ∃ response, ⟨call, response, t⟩ ∈ log ∧ client.receive call response = .error e

end Provenance

section Explained

variable {D : Type} (service : WeatherToolService D) (log : List (Exchange D)) (now : ℕ) (call : ToolCall)
  (startedAt : ℕ)

/-- The plan of a call, from the day on which it started. -/
def planOf : Except String Plan := call.plan service.client.jdk (service.today startedAt)

/-- The place was found at time `t`, with its coordinates. -/
structure FoundAt (fetch : Fetch) (latitude longitude : D) (geo : GeoResult D) (t : ℕ) :
    Prop where
  planned : ∃ city countryCode language, planOf service call startedAt = .ok (.place city countryCode language fetch) ∧
    Fresh service.client log (.geocode city countryCode language) (some geo) t
  latitude : geo.latitude = some latitude
  longitude : geo.longitude = some longitude
  started : startedAt ≤ t
  past : t ≤ now

/-- How the thread of a call has come to where it is. -/
inductive Explained : Stage D → Prop where
  | invalid {message : String} (hplan : planOf service call startedAt = .error message) :
    Explained (.answered (.invalidInput message call.requestedQuery startedAt))
  | locating {city : String} {countryCode : Option String} {language : String} {fetch : Fetch}
    (hplan : planOf service call startedAt = .ok (.place city countryCode language fetch)) :
    Explained (.locating city countryCode language fetch)
  | notFound {city : String} {countryCode : Option String} {language : String} {fetch : Fetch} {t : ℕ}
    {found : Option (GeoResult D)}
    (hplan : planOf service call startedAt = .ok (.place city countryCode language fetch))
    (hfresh : Fresh service.client log (.geocode city countryCode language) found t)
    (hnowhere : ∀ geo ∈ found, geo.latitude = none ∨ geo.longitude = none)
    (hstarted : startedAt ≤ t) (hpast : t ≤ now) :
    Explained (.answered (.cityNotFound call.requestedQuery t))
  | notLocated {city : String} {countryCode : Option String} {language : String} {fetch : Fetch} {t : ℕ}
    {e : ClientFailure} (hplan : planOf service call startedAt = .ok (.place city countryCode language fetch))
    (hrefused : Refused service.client log (.geocode city countryCode language) e t)
    (hstarted : startedAt ≤ t) (hpast : t ≤ now) {stage : Stage D} (hstage : stage = failed fetch.service t e) :
    Explained stage
  | fetching {fetch : Fetch} {latitude longitude : D} {geo : GeoResult D} {t : ℕ}
    (hfound : FoundAt service log now call startedAt fetch latitude longitude geo t) :
    Explained (.fetching fetch latitude longitude geo)
  | served {fetch : Fetch} {latitude longitude : D} {geo : GeoResult D} {t t' : ℕ}
    {body : ((fetch.call latitude longitude).key service.client.jdk).Value}
    (hfound : FoundAt service log now call startedAt fetch latitude longitude geo t)
    (hfresh : Fresh service.client log (fetch.call latitude longitude) body t') (hafter : t ≤ t') (hpast : t' ≤ now) :
    Explained (.answered (fetch.toResult service.client.jdk latitude longitude geo t' body))
  | notFetched {fetch : Fetch} {latitude longitude : D} {geo : GeoResult D} {t t' : ℕ} {e : ClientFailure}
    (hfound : FoundAt service log now call startedAt fetch latitude longitude geo t)
    (hrefused : Refused service.client log (fetch.call latitude longitude) e t') (hafter : t ≤ t')
    (hpast : t' ≤ now) {stage : Stage D} (hstage : stage = failed fetch.service t' e) : Explained stage
  | listing {query : String} {limit : ℤ} {language : String}
    (hplan : planOf service call startedAt = .ok (.candidates query limit language)) :
    Explained (.listing query limit language)
  | listed {query : String} {limit : ℤ} {language : String} {t : ℕ} {results : List (Option (GeoResult D))}
    (hplan : planOf service call startedAt = .ok (.candidates query limit language))
    (hfresh : Fresh service.client log (.geocodeAll query limit language) results t)
    (hstarted : startedAt ≤ t) (hpast : t ≤ now) {stage : Stage D}
    (hstage : stage = Weather.listed call.requestedQuery t results) : Explained stage
  | notListed {query : String} {limit : ℤ} {language : String} {t : ℕ} {e : ClientFailure}
    (hplan : planOf service call startedAt = .ok (.candidates query limit language))
    (hrefused : Refused service.client log (.geocodeAll query limit language) e t)
    (hstarted : startedAt ≤ t) (hpast : t ≤ now) {stage : Stage D} (hstage : stage = failed "Geocoding" t e) :
    Explained stage

end Explained

/-! ### The arguments that are let through -/

section Plans

variable {jdk : Jdk}

lemma lookUp_valid {D : Type} {city countryCode language check : Option String} {fetch fetch' : Fetch} {city' : String}
    {countryCode' : Option String} {language' : String}
    (h : lookUp jdk city countryCode language check fetch = .ok (.place city' countryCode' language' fetch')) :
    (ClientCall.geocode city' countryCode' language' : ClientCall D).Valid jdk := by
  unfold lookUp at h
  split at h
  · cases h
  · split at h
    · cases h
    · rename_i hcountry
      split at h
      · cases h
      · cases h
        exact ⟨normaliseCountryCode_mem hcountry, normaliseLanguage_mem language⟩

lemma lookUp_ne_candidates {city countryCode language check : Option String} {fetch : Fetch} {query : String}
    {limit : ℤ} {language' : String} :
    lookUp jdk city countryCode language check fetch ≠ .ok (.candidates query limit language') := by
  unfold lookUp
  split
  · rintro ⟨⟩
  · split
    · rintro ⟨⟩
    · split
      · rintro ⟨⟩
      · rintro ⟨⟩

lemma geocode_valid {D : Type} {query language : Option String} {limit : Option ℤ} {query' language' : String}
    {limit' : ℤ} (h : geocode jdk query limit language = .ok (.candidates query' limit' language')) :
    (ClientCall.geocodeAll query' limit' language' : ClientCall D).Valid jdk := by
  unfold geocode at h
  split at h
  · cases h
  · simp only [outside] at h
    split at h
    · cases h
    · rename_i hlimit
      cases h
      split at hlimit
      · cases hlimit
      · exact ⟨by omega, by omega, normaliseLanguage_mem language⟩

lemma geocode_ne_place {query language : Option String} {limit : Option ℤ} {city : String}
    {countryCode : Option String} {language' : String} {fetch : Fetch} :
    geocode jdk query limit language ≠ .ok (.place city countryCode language' fetch) := by
  unfold geocode
  split
  · rintro ⟨⟩
  · simp only
    split
    · rintro ⟨⟩
    · rintro ⟨⟩

lemma plan_eq (jdk : Jdk) (today : LocalDate) (call : ToolCall) :
    (∃ query limit language, call.plan jdk today = geocode jdk query limit language) ∨
      ∃ city countryCode language check fetch,
        call.plan jdk today = lookUp jdk city countryCode language check fetch := by
  cases call with
  | current city countryCode unit language => exact .inr ⟨city, countryCode, language, none, _, rfl⟩
  | forecast city countryCode days unit language => exact .inr ⟨_, _, _, _, _, rfl⟩
  | historical city countryCode date unit language => exact .inr ⟨_, _, _, _, _, rfl⟩
  | airQuality city countryCode language => exact .inr ⟨city, countryCode, language, none, _, rfl⟩
  | geocode query limit language => exact .inl ⟨_, _, _, rfl⟩

lemma plan_place_valid {D : Type} {today : LocalDate} {call : ToolCall} {city : String} {countryCode : Option String}
    {language : String} {fetch : Fetch} (h : call.plan jdk today = .ok (.place city countryCode language fetch)) :
    (ClientCall.geocode city countryCode language : ClientCall D).Valid jdk := by
  rcases plan_eq jdk today call with ⟨_, _, _, heq⟩ | ⟨_, _, _, _, _, heq⟩
  · exact absurd (heq.symm.trans h) geocode_ne_place
  · exact lookUp_valid (heq.symm.trans h)

lemma plan_candidates_valid {D : Type} {today : LocalDate} {call : ToolCall} {query : String} {limit : ℤ}
    {language : String} (h : call.plan jdk today = .ok (.candidates query limit language)) :
    (ClientCall.geocodeAll query limit language : ClientCall D).Valid jdk := by
  rcases plan_eq jdk today call with ⟨_, _, _, heq⟩ | ⟨_, _, _, _, _, heq⟩
  · exact geocode_valid (heq.symm.trans h)
  · exact absurd (heq.symm.trans h) lookUp_ne_candidates

lemma Fetch.call_valid {D : Type} (fetch : Fetch) (latitude longitude : D) :
    (fetch.call latitude longitude).Valid jdk := by
  cases fetch <;> exact trivial

end Plans

/-! ### One call of the client -/

section Client

variable {D : Type} {client : OpenMeteoClient D}

/-- Every request was for a valid call and lies in the past, and what is held was answered to one. -/
structure ClientState.Sound (client : OpenMeteoClient D) (s : ClientState D) : Prop where
  valid : ∀ e ∈ s.log, e.call.Valid client.jdk
  past : ∀ e ∈ s.log, e.time ≤ s.now
  backed : s.cache.Backed fun k value written =>
    ∃ asked response, ⟨asked, response, written⟩ ∈ s.log ∧ Gave client response asked k value

lemma Gave.key_eq {response : Option HttpResponse} {call : ClientCall D} {k : CacheKey D} {value : k.Value}
    (h : Gave client response call k value) : call.key client.jdk = k := by
  cases h
  rfl

lemma ClientCall.ttl_pos (k : CacheKey D) : 0 < k.ttl := by
  cases k <;> exact Nat.succ_pos _

lemma sound_initial : (ClientState.initial : ClientState D).Sound client :=
  ⟨fun _ h => (nomatch h), fun _ h => (nomatch h), LoadingCache.backed_empty⟩

/-- What one call does to a sound state. -/
structure Invoked (client : OpenMeteoClient D) (s : ClientState D) (call : ClientCall D)
    (outcome : ClientState D × Except ClientFailure (call.key client.jdk).Value) : Prop where
  sound : outcome.1.Sound client
  now : outcome.1.now = s.now
  log : s.log ⊆ outcome.1.log
  fresh : ∀ value, outcome.2 = .ok value → Fresh client outcome.1.log call value s.now
  refused : ∀ e, outcome.2 = .error e → Refused client outcome.1.log call e s.now

lemma ClientState.Sound.asked {s : ClientState D} (h : s.Sound client) {call : ClientCall D}
    (hvalid : call.Valid client.jdk) (response : Option HttpResponse) (cache : LoadingCache (CacheKey D) CacheKey.Value)
    (hbacked : cache.Backed fun k value written => ∃ asked response', ⟨asked, response', written⟩ ∈
      s.log ++ [⟨call, response, s.now⟩] ∧ Gave client response' asked k value) :
    (⟨s.now, cache, s.log ++ [⟨call, response, s.now⟩]⟩ : ClientState D).Sound client := by
  refine ⟨fun e he => ?_, fun e he => ?_, hbacked⟩
  · rcases List.mem_append.mp he with hold | hnew
    · exact h.valid e hold
    · rw [List.mem_singleton.mp hnew]
      exact hvalid
  · rcases List.mem_append.mp he with hold | hnew
    · exact h.past e hold
    · rw [List.mem_singleton.mp hnew]

variable [DecidableEq D]

lemma ClientState.Sound.invoke {s : ClientState D} (h : s.Sound client) {call : ClientCall D}
    (hvalid : call.Valid client.jdk) (upstream : UpstreamRequest D → Option HttpResponse) :
    Invoked client s call (client.invoke s call upstream) := by
  have hgrows : s.log ⊆ s.log ++ [⟨call, upstream call.request, s.now⟩] := List.subset_append_left _ _
  have hlast : (⟨call, upstream call.request, s.now⟩ : Exchange D) ∈
      s.log ++ [⟨call, upstream call.request, s.now⟩] := List.mem_append_right _ (List.mem_singleton_self _)
  have hkept : s.cache.Backed fun k value written => ∃ asked response, ⟨asked, response, written⟩ ∈
      s.log ++ [⟨call, upstream call.request, s.now⟩] ∧ Gave client response asked k value := by
    refine LoadingCache.Backed.mono h.backed ?_
    rintro k value written ⟨asked, response, hasked, hgave⟩
    exact ⟨asked, response, hgrows hasked, hgave⟩
  rcases client.invoke_cases s call upstream with
    ⟨value, written, hentry, halive, heq⟩ | ⟨hdead, ⟨value, hreceive, heq⟩ | ⟨e, hreceive, heq⟩⟩
  · rw [heq]
    refine ⟨h, rfl, List.Subset.refl _, fun value' hvalue' => ?_, fun e he => nomatch he⟩
    obtain rfl := Except.ok.inj hvalue'
    obtain ⟨asked, response, hasked, hgave⟩ := h.backed _ _ _ hentry
    have halike := alike_of_key (h.valid _ hasked) hvalid hgave.key_eq
    exact ⟨asked, response, written, hasked, halike, hgave, h.past _ hasked, halive⟩
  · rw [heq]
    have hgave := Gave.mk call value hreceive
    refine ⟨h.asked hvalid _ _ ?_, rfl, hgrows, fun value' hvalue' => ?_, fun e he => nomatch he⟩
    · exact LoadingCache.Backed.put hkept ⟨call, _, hlast, hgave⟩
    · obtain rfl := Except.ok.inj hvalue'
      have hpos := ClientCall.ttl_pos (call.key client.jdk)
      exact ⟨call, _, s.now, hlast, .same call, hgave, le_refl _, by omega⟩
  · rw [heq]
    refine ⟨h.asked hvalid _ _ hkept, rfl, hgrows, fun value hvalue => (nomatch hvalue), fun e' he' => ?_⟩
    obtain rfl := Except.error.inj he'
    exact ⟨_, hlast, hreceive⟩

end Client

/-! ### All calls together -/

section Runs

variable {D : Type} {service : WeatherToolService D} {log log' : List (Exchange D)} {now now' : ℕ}
  {call : ToolCall} {startedAt : ℕ}

lemma Fresh.mono {client : OpenMeteoClient D} {call : ClientCall D} {value : (call.key client.jdk).Value} {t : ℕ}
    (h : Fresh client log call value t) (hlog : log ⊆ log') : Fresh client log' call value t := by
  obtain ⟨asked, response, time, hasked, hrest⟩ := h
  exact ⟨asked, response, time, hlog hasked, hrest⟩

lemma Refused.mono {client : OpenMeteoClient D} {call : ClientCall D} {e : ClientFailure} {t : ℕ}
    (h : Refused client log call e t) (hlog : log ⊆ log') : Refused client log' call e t := by
  obtain ⟨response, hasked, hrest⟩ := h
  exact ⟨response, hlog hasked, hrest⟩

lemma FoundAt.mono {fetch : Fetch} {latitude longitude : D} {geo : GeoResult D} {t : ℕ}
    (h : FoundAt service log now call startedAt fetch latitude longitude geo t) (hlog : log ⊆ log')
    (hnow : now ≤ now') :
    FoundAt service log' now' call startedAt fetch latitude longitude geo t := by
  obtain ⟨city, countryCode, language, hplan, hfresh⟩ := h.planned
  exact ⟨⟨city, countryCode, language, hplan, hfresh.mono hlog⟩, h.latitude, h.longitude, h.started, h.past.trans hnow⟩

/-- An explanation stays one when time passes and more is asked. -/
lemma Explained.mono {stage : Stage D} (h : Explained service log now call startedAt stage) (hlog : log ⊆ log')
    (hnow : now ≤ now') : Explained service log' now' call startedAt stage := by
  cases h with
  | invalid hplan => exact .invalid hplan
  | locating hplan => exact .locating hplan
  | notFound hplan hfresh hnowhere hstarted hpast =>
    exact .notFound hplan (hfresh.mono hlog) hnowhere hstarted (hpast.trans hnow)
  | notLocated hplan hrefused hstarted hpast hstage =>
    exact .notLocated hplan (hrefused.mono hlog) hstarted (hpast.trans hnow) hstage
  | fetching hfound => exact .fetching (hfound.mono hlog hnow)
  | served hfound hfresh hafter hpast =>
    exact .served (hfound.mono hlog hnow) (hfresh.mono hlog) hafter (hpast.trans hnow)
  | notFetched hfound hrefused hafter hpast hstage =>
    exact .notFetched (hfound.mono hlog hnow) (hrefused.mono hlog) hafter (hpast.trans hnow) hstage
  | listing hplan => exact .listing hplan
  | listed hplan hfresh hstarted hpast hstage =>
    exact .listed hplan (hfresh.mono hlog) hstarted (hpast.trans hnow) hstage
  | notListed hplan hrefused hstarted hpast hstage =>
    exact .notListed hplan (hrefused.mono hlog) hstarted (hpast.trans hnow) hstage

/-- The state of the client is sound and every thread is explained. -/
structure Served (service : WeatherToolService D) (pool : WeatherPool D) : Prop where
  sound : pool.shared.Sound service.client
  started : ∀ thread ∈ pool.procs, thread.startedAt ≤ pool.shared.now
  threads : ∀ thread ∈ pool.procs,
    Explained service pool.shared.log pool.shared.now thread.call thread.startedAt thread.stage

lemma served_initial : Served service WeatherPool.initial :=
  ⟨sound_initial, fun _ h => (nomatch h), fun _ h => nomatch h⟩

lemma Served.start {pool : WeatherPool D} (h : Served service pool) (call : ToolCall) :
    Served service (pool.start (startThread service pool.shared.now call)) := by
  refine ⟨h.sound, fun thread hthread => ?_, fun thread hthread => ?_⟩
  · rcases List.mem_append.mp hthread with hold | hnew
    · exact h.started thread hold
    · rw [List.mem_singleton.mp hnew]
      exact le_refl pool.shared.now
  · rcases List.mem_append.mp hthread with hold | hnew
    · exact h.threads thread hold
    · rw [List.mem_singleton.mp hnew]
      cases hcall : call.plan service.client.jdk (service.today pool.shared.now) with
      | error message =>
        simp only [startThread, hcall]
        exact .invalid hcall
      | ok plan =>
        cases plan with
        | place city countryCode language fetch =>
          simp only [startThread, hcall]
          exact .locating hcall
        | candidates query limit language =>
          simp only [startThread, hcall]
          exact .listing hcall

/-- A stage at which a thread has ended. -/
def Stage.IsOver : Stage D → Prop
  | .answered _ => True
  | .threw => True
  | _ => False

lemma isOver_failed (name : String) (t : ℕ) (e : ClientFailure) : (failed name t e : Stage D).IsOver := by
  cases e <;> trivial

lemma isOver_listed (requestedQuery : Option String) (t : ℕ) (results : List (Option (GeoResult D))) :
    (listed requestedQuery t results).IsOver := by
  unfold listed
  split
  · trivial
  · split <;> trivial

/-- A thread that has not ended is where its plan or the place that it found has led it. -/
lemma Explained.not_over {stage : Stage D} (h : Explained service log now call startedAt stage)
    (hstage : ¬stage.IsOver) :
    (∃ city countryCode language fetch, stage = .locating city countryCode language fetch ∧
        planOf service call startedAt = .ok (.place city countryCode language fetch)) ∨
      (∃ fetch latitude longitude geo t, stage = .fetching fetch latitude longitude geo ∧
        FoundAt service log now call startedAt fetch latitude longitude geo t) ∨
      ∃ query limit language, stage = .listing query limit language ∧
        planOf service call startedAt = .ok (.candidates query limit language) := by
  cases h with
  | locating hplan => exact .inl ⟨_, _, _, _, rfl, hplan⟩
  | fetching hfound => exact .inr (.inl ⟨_, _, _, _, _, rfl, hfound⟩)
  | listing hplan => exact .inr (.inr ⟨_, _, _, rfl, hplan⟩)
  | invalid hplan => exact absurd trivial hstage
  | notFound hplan hfresh hnowhere hstarted hpast => exact absurd trivial hstage
  | served hfound hfresh hafter hpast => exact absurd trivial hstage
  | notLocated hplan hrefused hstarted hpast heq => exact absurd (heq ▸ isOver_failed _ _ _) hstage
  | notFetched hfound hrefused hafter hpast heq => exact absurd (heq ▸ isOver_failed _ _ _) hstage
  | listed hplan hfresh hstarted hpast heq => exact absurd (heq ▸ isOver_listed _ _ _) hstage
  | notListed hplan hrefused hstarted hpast heq => exact absurd (heq ▸ isOver_failed _ _ _) hstage

variable [DecidableEq D]

/-- What a thread does to the rest of the pool. -/
lemma Served.advanced {pool : WeatherPool D} (h : Served service pool) {i : ℕ} {thread : ToolThread D}
    {upstream : UpstreamRequest D → Option HttpResponse} {s' : ClientState D} {stage : Stage D}
    (hthread : pool.procs[i]? = some thread)
    (hadvance : advance service upstream pool.shared thread = ⟨s', { thread with stage := stage }, []⟩)
    (hsound : s'.Sound service.client) (hnow : s'.now = pool.shared.now) (hlog : pool.shared.log ⊆ s'.log)
    (hstage : Explained service s'.log s'.now thread.call thread.startedAt stage) :
    Served service (pool.step (advance service upstream) i) := by
  have hshared : (pool.step (advance service upstream) i).shared = s' := by
    rw [shared_step _ hthread, hadvance]
  have hstarted : ∀ Q : ToolThread D → Prop, ∀ c ∈ (advance service upstream pool.shared thread).started, Q c := by
    intro Q c hc
    rw [hadvance] at hc
    cases hc
  constructor
  · rw [hshared]
    exact hsound
  · rw [hshared, hnow]
    apply forall_step hthread h.started _ (hstarted _)
    rw [hadvance]
    exact h.started thread (List.mem_of_getElem? hthread)
  · rw [hshared]
    refine forall_step hthread (fun c hc => ?_) ?_ (hstarted _)
    · exact (h.threads c hc).mono hlog (le_of_eq hnow.symm)
    · rw [hadvance]
      exact hstage

section Stages

variable {pool : WeatherPool D} {i : ℕ} {upstream : UpstreamRequest D → Option HttpResponse}

lemma Served.locate (h : Served service pool) {city : String} {countryCode : Option String} {language : String}
    {fetch : Fetch} (hthread : pool.procs[i]? = some ⟨call, startedAt, .locating city countryCode language fetch⟩)
    (hplan : planOf service call startedAt = .ok (.place city countryCode language fetch))
    (hstarted : startedAt ≤ pool.shared.now) : Served service (pool.step (advance service upstream) i) := by
  have hinvoked := h.sound.invoke (plan_place_valid hplan) upstream
  obtain ⟨s', result, houtcome⟩ : ∃ s' result,
      service.client.invoke pool.shared (.geocode city countryCode language) upstream = (s', result) := ⟨_, _, rfl⟩
  rw [houtcome] at hinvoked
  have hpast : pool.shared.now ≤ s'.now := le_of_eq hinvoked.now.symm
  cases result with
  | error e =>
    have hstage : Explained service s'.log s'.now call startedAt (failed fetch.service pool.shared.now e) :=
      .notLocated hplan (hinvoked.refused e rfl) hstarted hpast rfl
    refine h.advanced hthread ?_ hinvoked.sound hinvoked.now hinvoked.log hstage
    simp only [advance, houtcome]
  | ok found =>
    have hfresh := hinvoked.fresh found rfl
    have hstage : Explained service s'.log s'.now call startedAt
        (located call.requestedQuery fetch pool.shared.now found) := by
      cases found with
      | none => exact .notFound hplan hfresh (fun _ hgeo => nomatch hgeo) hstarted hpast
      | some geo =>
        cases hlatitude : geo.latitude with
        | none =>
          simp only [located, hlatitude]
          refine .notFound hplan hfresh (fun geo' hgeo' => .inl ?_) hstarted hpast
          rw [← Option.some.inj hgeo', hlatitude]
        | some latitude =>
          cases hlongitude : geo.longitude with
          | none =>
            simp only [located, hlatitude, hlongitude]
            refine .notFound hplan hfresh (fun geo' hgeo' => .inr ?_) hstarted hpast
            rw [← Option.some.inj hgeo', hlongitude]
          | some longitude =>
            simp only [located, hlatitude, hlongitude]
            exact .fetching ⟨⟨city, countryCode, language, hplan, hfresh⟩, hlatitude, hlongitude, hstarted, hpast⟩
    refine h.advanced hthread ?_ hinvoked.sound hinvoked.now hinvoked.log hstage
    simp only [advance, houtcome]

lemma Served.fetch (h : Served service pool) {fetch : Fetch} {latitude longitude : D} {geo : GeoResult D} {t : ℕ}
    (hthread : pool.procs[i]? = some ⟨call, startedAt, .fetching fetch latitude longitude geo⟩)
    (hfound : FoundAt service pool.shared.log pool.shared.now call startedAt fetch latitude longitude geo t) :
    Served service (pool.step (advance service upstream) i) := by
  have hinvoked := h.sound.invoke (fetch.call_valid latitude longitude) upstream
  obtain ⟨s', result, houtcome⟩ : ∃ s' result,
      service.client.invoke pool.shared (fetch.call latitude longitude) upstream = (s', result) := ⟨_, _, rfl⟩
  rw [houtcome] at hinvoked
  have hpast : pool.shared.now ≤ s'.now := le_of_eq hinvoked.now.symm
  have hfound' := hfound.mono hinvoked.log hpast
  cases result with
  | error e =>
    have hstage : Explained service s'.log s'.now call startedAt (failed fetch.service pool.shared.now e) :=
      .notFetched hfound' (hinvoked.refused e rfl) hfound.past hpast rfl
    refine h.advanced hthread ?_ hinvoked.sound hinvoked.now hinvoked.log hstage
    simp only [advance, houtcome]
  | ok body =>
    have hstage : Explained service s'.log s'.now call startedAt
        (.answered (fetch.toResult service.client.jdk latitude longitude geo pool.shared.now body)) :=
      .served hfound' (hinvoked.fresh body rfl) hfound.past hpast
    refine h.advanced hthread ?_ hinvoked.sound hinvoked.now hinvoked.log hstage
    simp only [advance, houtcome]

lemma Served.list (h : Served service pool) {query : String} {limit : ℤ} {language : String}
    (hthread : pool.procs[i]? = some ⟨call, startedAt, .listing query limit language⟩)
    (hplan : planOf service call startedAt = .ok (.candidates query limit language))
    (hstarted : startedAt ≤ pool.shared.now) : Served service (pool.step (advance service upstream) i) := by
  have hinvoked := h.sound.invoke (plan_candidates_valid hplan) upstream
  obtain ⟨s', result, houtcome⟩ : ∃ s' result,
      service.client.invoke pool.shared (.geocodeAll query limit language) upstream = (s', result) := ⟨_, _, rfl⟩
  rw [houtcome] at hinvoked
  have hpast : pool.shared.now ≤ s'.now := le_of_eq hinvoked.now.symm
  cases result with
  | error e =>
    have hstage : Explained service s'.log s'.now call startedAt (failed "Geocoding" pool.shared.now e) :=
      .notListed hplan (hinvoked.refused e rfl) hstarted hpast rfl
    refine h.advanced hthread ?_ hinvoked.sound hinvoked.now hinvoked.log hstage
    simp only [advance, houtcome]
  | ok results =>
    have hstage : Explained service s'.log s'.now call startedAt
        (listed call.requestedQuery pool.shared.now results) :=
      .listed hplan (hinvoked.fresh results rfl) hstarted hpast rfl
    refine h.advanced hthread ?_ hinvoked.sound hinvoked.now hinvoked.log hstage
    simp only [advance, houtcome]

end Stages

lemma Served.step {pool : WeatherPool D} (h : Served service pool) (i : ℕ)
    (upstream : UpstreamRequest D → Option HttpResponse) :
    Served service (pool.step (advance service upstream) i) := by
  cases hthread : pool.procs[i]? with
  | none =>
    rw [step_of_none hthread]
    exact h
  | some thread =>
    have hexplained := h.threads thread (List.mem_of_getElem? hthread)
    have hstarted := h.started thread (List.mem_of_getElem? hthread)
    obtain ⟨call, startedAt, stage⟩ := thread
    by_cases hover : stage.IsOver
    · cases stage with
      | answered result => exact h.advanced hthread rfl h.sound rfl (List.Subset.refl _) hexplained
      | threw => exact h.advanced hthread rfl h.sound rfl (List.Subset.refl _) hexplained
      | _ => exact absurd hover id
    · rcases hexplained.not_over hover with ⟨city, countryCode, language, fetch, rfl, hplan⟩ |
        ⟨fetch, latitude, longitude, geo, t, rfl, hfound⟩ | ⟨query, limit, language, rfl, hplan⟩
      · exact h.locate hthread hplan hstarted
      · exact h.fetch hthread hfound
      · exact h.list hthread hplan hstarted

lemma Served.evict {pool : WeatherPool D} (h : Served service pool) (key : CacheKey D) :
    Served service (pool.next service (.evict key)) :=
  ⟨⟨h.sound.valid, h.sound.past, h.sound.backed.evict key⟩, h.started, h.threads⟩

lemma Served.tick {pool : WeatherPool D} (h : Served service pool) (seconds : ℕ) :
    Served service (pool.next service (.tick seconds)) := by
  have hlater : pool.shared.now ≤ pool.shared.now + seconds := Nat.le_add_right _ _
  refine ⟨⟨h.sound.valid, fun e he => (h.sound.past e he).trans hlater, h.sound.backed⟩, fun thread hthread => ?_,
    fun thread hthread => ?_⟩
  · exact (h.started thread hthread).trans hlater
  · exact (h.threads thread hthread).mono (List.Subset.refl _) hlater

lemma Served.next {pool : WeatherPool D} (h : Served service pool) (event : WeatherEvent D) :
    Served service (pool.next service event) := by
  cases event with
  | start call => exact h.start call
  | step i upstream => exact h.step i upstream
  | evict key => exact h.evict key
  | tick seconds => exact h.tick seconds

end Runs

def Stage.hasStatus {D : Type} (status : WeatherToolStatus) : Stage D → Bool
  | .answered result => result.status = status
  | _ => false

/-- A world with one city and the weather of one minute. -/
def osloService : WeatherToolService ℤ where
  client :=
    { jdk :=
        { nfkc := id
          locale := .ascii
          toUpperCase := id
          isLetter := Char.isAlpha
          isMark _ := false
          isSpaceSeparator c := c == ' '
          isoCountries := []
          isoCountries_letters := fun _ h => absurd h List.not_mem_nil }
      decode call _ _ :=
        match call with
        | .geocode .. => .ok (some ⟨some [some ⟨some 60, some 11, some "Oslo", some "Norway", some "NO"⟩]⟩)
        | .fetchCurrentWeather .. => .ok (some ⟨some ⟨some 4, some 12, some 270, some 3, some "2026-05-08T09:15"⟩⟩)
        | _ => .error () }
  today _ := (LocalDate.of? 2026 5 8).get rfl

/-- Two calls for the same city with a pause between them; the second one finds the place in its cache. -/
def osloCalls : List (WeatherEvent ℤ) :=
  let upstream := fun _ => some ⟨200, -1, [[0x7b]]⟩
  [.start (.current (some "Oslo") none none none), .step 0 upstream, .step 0 upstream, .tick 900,
    .start (.current (some "OSLO ") none none none), .step 1 fun _ => none, .step 1 upstream]

section Traffic

variable {D : Type} [DecidableEq D]

/-- The requests whose responses filled a place of a cache. -/
def loadsOf (client : OpenMeteoClient D) (k : CacheKey D) (log : List (Exchange D)) : ℕ :=
  log.countP fun e => decide (e.call.key client.jdk = k) && (client.receive e.call e.response).isOk

def WeatherEvent.evicts (k : CacheKey D) : WeatherEvent D → Bool
  | .evict key => key = k
  | _ => false

/-- What is held for the key is in step with the requests for it. -/
def InStep (client : OpenMeteoClient D) (k : CacheKey D) (s : ClientState D) (evictions : ℕ) : Prop :=
  LoadingCache.Metered k.ttl s.now (loadsOf client k s.log) evictions (s.cache k)

variable {service : WeatherToolService D} {k : CacheKey D} {evictions : ℕ}

lemma InStep.invoke {client : OpenMeteoClient D} {s : ClientState D} (h : InStep client k s evictions)
    (call : ClientCall D) (upstream : UpstreamRequest D → Option HttpResponse) :
    InStep client k (client.invoke s call upstream).1 evictions := by
  rcases client.invoke_cases s call upstream with
    ⟨value, written, hentry, halive, heq⟩ | ⟨hdead, ⟨value, hreceive, heq⟩ | ⟨e, hreceive, heq⟩⟩
  · rw [heq]
    exact h
  · rw [heq]
    unfold InStep loadsOf at *
    by_cases hkey : call.key client.jdk = k
    · subst hkey
      have hloaded := h.load (ClientCall.ttl_pos _) hdead value
      simpa [List.countP_append, hreceive, Except.isOk, Except.toBool] using hloaded
    · simpa [List.countP_append, hkey, LoadingCache.put_of_ne s.now s.cache (Ne.symm hkey)] using h
  · rw [heq]
    unfold InStep loadsOf at *
    simpa [List.countP_append, hreceive, Except.isOk, Except.toBool] using h

variable (service) in
lemma advance_shared (upstream : UpstreamRequest D → Option HttpResponse) (s : ClientState D)
    (thread : ToolThread D) :
    (advance service upstream s thread).shared = s ∨
      ∃ call, (advance service upstream s thread).shared = (service.client.invoke s call upstream).1 := by
  obtain ⟨call, startedAt, stage⟩ := thread
  cases stage with
  | locating city countryCode language fetch =>
    refine .inr ⟨.geocode city countryCode language, ?_⟩
    simp only [advance]
    split <;> rename_i heq <;> rw [heq]
  | fetching fetch latitude longitude geo =>
    refine .inr ⟨fetch.call latitude longitude, ?_⟩
    simp only [advance]
    split <;> rename_i heq <;> rw [heq]
  | listing query limit language =>
    refine .inr ⟨.geocodeAll query limit language, ?_⟩
    simp only [advance]
    split <;> rename_i heq <;> rw [heq]
  | answered result => exact .inl rfl
  | threw => exact .inl rfl

lemma InStep.next {pool : WeatherPool D} (h : InStep service.client k pool.shared evictions)
    (event : WeatherEvent D) :
    InStep service.client k (pool.next service event).shared (evictions + if event.evicts k then 1 else 0) := by
  cases event with
  | start call => exact h.more 0
  | step i upstream =>
    apply LoadingCache.Metered.more
    cases hthread : pool.procs[i]? with
    | none =>
      rw [WeatherPool.next, step_of_none hthread]
      exact h
    | some thread =>
      rw [WeatherPool.next, shared_step _ hthread]
      rcases advance_shared service upstream pool.shared thread with hsame | ⟨call, hcall⟩
      · rw [hsame]
        exact h
      · rw [hcall]
        exact h.invoke call upstream
  | evict key =>
    by_cases hkey : key = k
    · subst hkey
      simp only [WeatherEvent.evicts, decide_true, if_true]
      have hevicted := LoadingCache.Metered.evict h
      rwa [← pool.shared.cache.evict_self key] at hevicted
    · simp only [WeatherEvent.evicts, hkey, decide_false, Bool.false_eq_true, if_false]
      unfold InStep at h
      rwa [← pool.shared.cache.evict_of_ne (Ne.symm hkey)] at h
  | tick seconds => exact LoadingCache.Metered.later h seconds

lemma InStep.run (events : List (WeatherEvent D)) {pool : WeatherPool D}
    (h : InStep service.client k pool.shared evictions) :
    InStep service.client k (run (WeatherPool.next service) pool events).shared
      (evictions + events.countP (WeatherEvent.evicts k)) := by
  induction events generalizing pool evictions with
  | nil => exact h
  | cons event events ih =>
    rw [run_cons, List.countP_cons, Nat.add_comm (List.countP _ _), ← Nat.add_assoc]
    exact ih (h.next event)

end Traffic

end AscendAI.Weather
