import AscendAI.Lib.LoadingCache
import AscendAI.Weather.InputValidator

/-!
# OpenMeteoClient

The calls of Open-Meteo behind six caches. A call that no cache answers goes out as a request; its response is read up
to a limit and decoded by the HTTP client, which is outside, and what the call makes of the body is kept. Numbers of
the upstream are of any type with an equality.
-/

namespace AscendAI.Weather
open JavaString InputValidator

/-! ### What Open-Meteo answers -/

structure GeoResult (D : Type) where
  latitude : Option D
  longitude : Option D
  name : Option String
  country : Option String
  countryCode : Option String

/-- A body may lack its results, and a result may be null. -/
structure GeoResponse (D : Type) where
  results : Option (List (Option (GeoResult D)))

structure Current (D : Type) where
  temperature : Option D
  windSpeed : Option D
  windDirection : Option D
  weatherCode : Option ℤ
  time : Option String

structure CurrentWeatherUpstream (D : Type) where
  currentWeather : Option (Current D)

structure Daily (D : Type) where
  time : Option (List (Option String))
  temperature2mMax : Option (List (Option D))
  temperature2mMin : Option (List (Option D))
  precipitationSum : Option (List (Option D))
  weatherCode : Option (List (Option ℤ))

structure ForecastUpstream (D : Type) where
  daily : Option (Daily D)

structure AirQuality (D : Type) where
  pm10 : Option D
  pm25 : Option D
  usAqi : Option ℤ
  europeanAqi : Option ℤ

structure AirQualityUpstream (D : Type) where
  current : Option (AirQuality D)

/-- A response: the advertised length, or -1, and the body as the stream hands it out. -/
structure HttpResponse where
  status : ℕ
  contentLength : ℤ
  chunks : List (List UInt8)

/-! ### The limit on responses -/

namespace ResponseSizeLimitingInterceptor

def defaultMaxBytes : ℕ := 256 * 1024

/-- The loop over the stream: the number of bytes that were read, and whether all of them fit. -/
def readAll (maxBytes total : ℕ) : List (List UInt8) → ℕ × Bool
  | [] => (total, true)
  | chunk :: chunks =>
    if total + chunk.length > maxBytes then (total + chunk.length, false)
    else readAll maxBytes (total + chunk.length) chunks

/-- `intercept`: the body, if the response is let through. -/
def intercept (maxBytes : ℕ) (response : HttpResponse) : Option (List UInt8) :=
  if response.contentLength > maxBytes then none
  else if (readAll maxBytes 0 response.chunks).2 then some response.chunks.flatten
  else none

lemma readAll_snd (maxBytes total : ℕ) (chunks : List (List UInt8)) (h : total ≤ maxBytes) :
    (readAll maxBytes total chunks).2 = decide (total + chunks.flatten.length ≤ maxBytes) := by
  induction chunks generalizing total with
  | nil => simp [readAll, h]
  | cons chunk chunks ih =>
    rw [readAll, List.flatten_cons, List.length_append]
    by_cases hfits : total + chunk.length > maxBytes
    · rw [if_pos hfits]
      symm
      rw [decide_eq_false_iff_not]
      omega
    · rw [if_neg hfits, ih _ (by omega), ← Nat.add_assoc]

/-- However the stream is cut, a response is let through exactly if what it advertises and what it sends fit. -/
lemma intercept_eq_some_iff {maxBytes : ℕ} {response : HttpResponse} {body : List UInt8} :
    intercept maxBytes response = some body ↔
      response.contentLength ≤ maxBytes ∧ response.chunks.flatten = body ∧ body.length ≤ maxBytes := by
  unfold intercept
  rw [readAll_snd _ _ _ (Nat.zero_le _), Nat.zero_add]
  by_cases hadvertised : response.contentLength > maxBytes
  · rw [if_pos hadvertised]
    constructor
    · rintro ⟨⟩
    · rintro ⟨hle, -⟩
      omega
  · rw [if_neg hadvertised]
    by_cases hfits : response.chunks.flatten.length ≤ maxBytes
    · simp only [hfits, decide_true, if_true, Option.some.injEq]
      constructor
      · rintro rfl
        exact ⟨by omega, rfl, hfits⟩
      · exact fun h => h.2.1
    · simp only [hfits, decide_false, Bool.false_eq_true, if_false]
      constructor
      · rintro ⟨⟩
      · rintro ⟨-, rfl, hlength⟩
        exact absurd hlength hfits

end ResponseSizeLimitingInterceptor

/-! ### Calls, requests and keys -/

inductive ClientCall (D : Type) where
  | geocode (city : String) (countryCode : Option String) (language : String)
  | fetchCurrentWeather (latitude longitude : D) (unit : String)
  | fetchForecast (latitude longitude : D) (days : ℤ) (unit : String)
  | fetchHistoricalWeather (latitude longitude : D) (date : String) (unit : String)
  | fetchAirQuality (latitude longitude : D)
  | geocodeAll (query : String) (limit : ℤ) (language : String)

inductive QueryValue (D : Type) where
  | text (value : String)
  | number (value : D)
  | integer (value : ℤ)
  | flag (value : Bool)

structure UpstreamRequest (D : Type) where
  endpoint : String
  query : List (String × QueryValue D)

namespace WeatherApiEndpoints

def geocoding : String := "https://geocoding-api.open-meteo.com/v1/search"
def forecast : String := "https://api.open-meteo.com/v1/forecast"
def archive : String := "https://archive-api.open-meteo.com/v1/archive"
def airQuality : String := "https://air-quality-api.open-meteo.com/v1/air-quality"
def source : String := "open-meteo"

end WeatherApiEndpoints

/-- The six caches with their keys. -/
inductive CacheKey (D : Type) where
  | geocodingSingle (key : String)
  | geocodingMulti (key : String)
  | currentWeather (latitude longitude : D) (unit : String)
  | forecast (latitude longitude : D) (days : ℤ) (unit : String)
  | historicalWeather (latitude longitude : D) (date : String) (unit : String)
  | airQuality (latitude longitude : D)
  deriving DecidableEq

section Types

variable {D : Type}

/-- What a cache keeps. A body may be null. -/
def CacheKey.Value : CacheKey D → Type
  | .geocodingSingle _ => Option (GeoResult D)
  | .geocodingMulti _ => List (Option (GeoResult D))
  | .currentWeather _ _ _ => Option (CurrentWeatherUpstream D)
  | .forecast _ _ _ _ => Option (ForecastUpstream D)
  | .historicalWeather _ _ _ _ => Option (ForecastUpstream D)
  | .airQuality _ _ => Option (AirQualityUpstream D)

/-- `CacheConfig`: how many seconds a value is kept. -/
def CacheKey.ttl : CacheKey D → ℕ
  | .geocodingSingle _ => 24 * 3600
  | .geocodingMulti _ => 24 * 3600
  | .currentWeather _ _ _ => 10 * 60
  | .forecast _ _ _ _ => 30 * 60
  | .historicalWeather _ _ _ _ => 24 * 3600
  | .airQuality _ _ => 15 * 60

/-- What the body of the response to a call is read as. -/
def ClientCall.Body : ClientCall D → Type
  | .geocode _ _ _ => GeoResponse D
  | .fetchCurrentWeather _ _ _ => CurrentWeatherUpstream D
  | .fetchForecast _ _ _ _ => ForecastUpstream D
  | .fetchHistoricalWeather _ _ _ _ => ForecastUpstream D
  | .fetchAirQuality _ _ => AirQualityUpstream D
  | .geocodeAll _ _ _ => GeoResponse D

def dailyFields : String := "temperature_2m_max,temperature_2m_min,precipitation_sum,weather_code"

def ClientCall.request : ClientCall D → UpstreamRequest D
  | .geocode city _ language => ⟨WeatherApiEndpoints.geocoding,
    [("name", .text city), ("count", .integer 5), ("language", .text language), ("format", .text "json")]⟩
  | .fetchCurrentWeather latitude longitude unit => ⟨WeatherApiEndpoints.forecast,
    [("latitude", .number latitude), ("longitude", .number longitude), ("current_weather", .flag true),
      ("temperature_unit", .text unit)]⟩
  | .fetchForecast latitude longitude days unit => ⟨WeatherApiEndpoints.forecast,
    [("latitude", .number latitude), ("longitude", .number longitude), ("daily", .text dailyFields),
      ("forecast_days", .integer days), ("temperature_unit", .text unit)]⟩
  | .fetchHistoricalWeather latitude longitude date unit => ⟨WeatherApiEndpoints.archive,
    [("latitude", .number latitude), ("longitude", .number longitude), ("start_date", .text date),
      ("end_date", .text date), ("daily", .text dailyFields), ("temperature_unit", .text unit)]⟩
  | .fetchAirQuality latitude longitude => ⟨WeatherApiEndpoints.airQuality,
    [("latitude", .number latitude), ("longitude", .number longitude),
      ("current", .text "pm10,pm2_5,us_aqi,european_aqi")]⟩
  | .geocodeAll query limit language => ⟨WeatherApiEndpoints.geocoding,
    [("name", .text query), ("count", .integer limit), ("language", .text language), ("format", .text "json")]⟩

def geocodeKey (jdk : Jdk) (city : String) (countryCode : Option String) (language : String) : String :=
  normaliseCacheKey jdk city ++ "|" ++ countryCode.getD "null" ++ "|" ++ language

def geocodeAllKey (jdk : Jdk) (query : String) (limit : ℤ) (language : String) : String :=
  normaliseCacheKey jdk query ++ "|" ++ toString limit ++ "|" ++ language

def ClientCall.key (jdk : Jdk) : ClientCall D → CacheKey D
  | .geocode city countryCode language => .geocodingSingle (geocodeKey jdk city countryCode language)
  | .fetchCurrentWeather latitude longitude unit => .currentWeather latitude longitude unit
  | .fetchForecast latitude longitude days unit => .forecast latitude longitude days unit
  | .fetchHistoricalWeather latitude longitude date unit => .historicalWeather latitude longitude date unit
  | .fetchAirQuality latitude longitude => .airQuality latitude longitude
  | .geocodeAll query limit language => .geocodingMulti (geocodeAllKey jdk query limit language)

/-! ### What a call makes of a body -/

/-- What a call throws: a `RestClientException`, or the exception of a null result. -/
inductive ClientFailure where
  | restClient
  | nullPointer
  deriving DecidableEq

/-- The first candidate of the country. -/
def firstOfCountry (countryCode : String) : List (Option (GeoResult D)) → Except ClientFailure (Option (GeoResult D))
  | [] => .ok none
  | none :: _ => .error .nullPointer
  | some candidate :: candidates =>
    if candidate.countryCode.any (equalsIgnoreCase countryCode) then .ok (some candidate)
    else firstOfCountry countryCode candidates

def pickBestMatch (first : Option (GeoResult D)) (candidates : List (Option (GeoResult D)))
    (countryCode : Option String) : Except ClientFailure (Option (GeoResult D)) :=
  match countryCode with
  | none => if first.isNone then .error .nullPointer else .ok first
  | some code => (firstOfCountry code (first :: candidates)).map fun found => found.or first

def ClientCall.read (jdk : Jdk) : (call : ClientCall D) → Option call.Body → Except ClientFailure (call.key jdk).Value
  | .geocode _ countryCode _, body =>
    match body.bind GeoResponse.results with
    | none => .ok (none : Option (GeoResult D))
    | some [] => .ok (none : Option (GeoResult D))
    | some (first :: candidates) => pickBestMatch first candidates countryCode
  | .fetchCurrentWeather _ _ _, body => .ok body
  | .fetchForecast _ _ _ _, body => .ok body
  | .fetchHistoricalWeather _ _ _ _, body => .ok body
  | .fetchAirQuality _ _, body => .ok body
  | .geocodeAll _ _ _, body => .ok ((body.bind GeoResponse.results).getD [])

end Types

/-- The client with what it is built on: the JDK and the decoding of a response, which may be refused and whose body
may be null. -/
structure OpenMeteoClient (D : Type) where
  jdk : Jdk
  decode : (call : ClientCall D) → (status : ℕ) → List UInt8 → Except Unit (Option call.Body)

section Client

variable {D : Type} (client : OpenMeteoClient D)

/-- What a call makes of the response to its request, which there may be none to. -/
def OpenMeteoClient.receive (call : ClientCall D) (response : Option HttpResponse) :
    Except ClientFailure (call.key client.jdk).Value :=
  match response with
  | none => .error .restClient
  | some response =>
    match ResponseSizeLimitingInterceptor.intercept ResponseSizeLimitingInterceptor.defaultMaxBytes response with
    | none => .error .restClient
    | some bytes =>
      match client.decode call response.status bytes with
      | .error _ => .error .restClient
      | .ok body => call.read client.jdk body

/-- A request that went out, and when its response had been read. -/
structure Exchange (D : Type) where
  call : ClientCall D
  response : Option HttpResponse
  time : ℕ

/-- The clock, the caches and the requests that went out. -/
structure ClientState (D : Type) where
  now : ℕ
  cache : LoadingCache (CacheKey D) CacheKey.Value
  log : List (Exchange D)

def ClientState.initial : ClientState D := ⟨0, LoadingCache.empty, []⟩

variable [DecidableEq D]

/-- A call, with what Open-Meteo answers if it is asked. Calls of one key wait for each other, so a call that asks
takes place when it has its answer. -/
def OpenMeteoClient.invoke (s : ClientState D) (call : ClientCall D)
    (upstream : UpstreamRequest D → Option HttpResponse) :
    ClientState D × Except ClientFailure (call.key client.jdk).Value :=
  let response := upstream call.request
  let (cache, result) := s.cache.get CacheKey.ttl s.now (call.key client.jdk) (client.receive call response)
  if (s.cache.live CacheKey.ttl s.now (call.key client.jdk)).isSome then (⟨s.now, cache, s.log⟩, result)
  else (⟨s.now, cache, s.log ++ [⟨call, response, s.now⟩]⟩, result)

/-- The call is held and alive, or it goes out and its value is put into the cache, or it goes out and fails. -/
lemma OpenMeteoClient.invoke_cases (s : ClientState D) (call : ClientCall D)
    (upstream : UpstreamRequest D → Option HttpResponse) :
    (∃ value written, s.cache (call.key client.jdk) = some (value, written) ∧
        s.now < written + (call.key client.jdk).ttl ∧ client.invoke s call upstream = (s, .ok value)) ∨
      (∀ value written, s.cache (call.key client.jdk) = some (value, written) →
          written + (call.key client.jdk).ttl ≤ s.now) ∧
        ((∃ value, client.receive call (upstream call.request) = .ok value ∧
            client.invoke s call upstream = (⟨s.now, s.cache.put s.now (call.key client.jdk) value,
              s.log ++ [⟨call, upstream call.request, s.now⟩]⟩, .ok value)) ∨
          ∃ e, client.receive call (upstream call.request) = .error e ∧
            client.invoke s call upstream = (⟨s.now, s.cache, s.log ++ [⟨call, upstream call.request, s.now⟩]⟩,
              .error e)) := by
  cases hlive : s.cache.live CacheKey.ttl s.now (call.key client.jdk) with
  | some value =>
    obtain ⟨written, hentry, halive⟩ := LoadingCache.live_eq_some_iff.mp hlive
    refine .inl ⟨value, written, hentry, halive, ?_⟩
    simp only [invoke, hlive, LoadingCache.get_of_live hlive, Option.isSome_some, if_true]
  | none =>
    refine .inr ⟨LoadingCache.live_eq_none_iff.mp hlive, ?_⟩
    cases hreceive : client.receive call (upstream call.request) with
    | ok value =>
      refine .inl ⟨value, rfl, ?_⟩
      simp only [invoke, hlive, LoadingCache.get_of_load hlive hreceive, Option.isSome_none, Bool.false_eq_true,
        if_false]
    | error e =>
      refine .inr ⟨e, rfl, ?_⟩
      simp only [invoke, hlive, LoadingCache.get_of_failure hlive hreceive, Option.isSome_none, Bool.false_eq_true,
        if_false]

end Client

/-! ### Keys -/

section Keys

variable {jdk : Jdk}

/-- What the tools ask for: a known country or none, a language of the list, and a limit in its bounds. -/
def ClientCall.Valid (jdk : Jdk) {D : Type} : ClientCall D → Prop
  | .geocode _ countryCode language => (∀ code ∈ countryCode, code ∈ jdk.isoCountries) ∧ language ∈ supportedLanguages
  | .geocodeAll _ limit language => 1 ≤ limit ∧ limit ≤ 10 ∧ language ∈ supportedLanguages
  | _ => True

/-- The parts of a key around its bars are found again. -/
lemma barred_inj {name name' middle middle' language language' : String} (hmiddle : '|' ∉ middle.toList)
    (hmiddle' : '|' ∉ middle'.toList) (hlanguage : '|' ∉ language.toList) (hlanguage' : '|' ∉ language'.toList)
    (h : name ++ "|" ++ middle ++ "|" ++ language = name' ++ "|" ++ middle' ++ "|" ++ language') :
    name = name' ∧ middle = middle' ∧ language = language' := by
  have hchars := congrArg String.toList h
  simp only [String.toList_append] at hchars
  have hbar : "|".toList = ['|'] := rfl
  rw [hbar, List.append_assoc _ ['|'] language.toList, List.append_assoc _ ['|'] language'.toList,
    List.singleton_append, List.singleton_append] at hchars
  obtain ⟨hfront, hback⟩ := append_cons_inj_of_notMem hchars hlanguage hlanguage'
  rw [List.append_assoc, List.append_assoc, List.singleton_append, List.singleton_append] at hfront
  obtain ⟨hname, hmid⟩ := append_cons_inj_of_notMem hfront hmiddle hmiddle'
  exact ⟨String.ext hname, String.ext hmid, String.ext hback⟩

lemma bar_notMem_language {language : String} (h : language ∈ supportedLanguages) : '|' ∉ language.toList := by
  have hall : ∀ language ∈ supportedLanguages, '|' ∉ language.toList := by decide
  exact hall language h

lemma bar_notMem_country {countryCode : Option String} (h : ∀ code ∈ countryCode, code ∈ jdk.isoCountries) :
    '|' ∉ (countryCode.getD "null").toList := by
  cases countryCode with
  | none => decide
  | some code =>
    intro hbar
    have hletters := List.all_eq_true.mp (jdk.isoCountries_letters code (h code rfl)).2 '|' hbar
    revert hletters
    decide

lemma country_inj {countryCode countryCode' : Option String} (h : ∀ code ∈ countryCode, code ∈ jdk.isoCountries)
    (h' : ∀ code ∈ countryCode', code ∈ jdk.isoCountries)
    (heq : countryCode.getD "null" = countryCode'.getD "null") : countryCode = countryCode' := by
  have hnull : ∀ code ∈ jdk.isoCountries, code ≠ "null" := by
    rintro code hcode rfl
    have hlength := (jdk.isoCountries_letters _ hcode).1
    revert hlength
    decide
  cases countryCode with
  | none =>
    cases countryCode' with
    | none => rfl
    | some code' => exact absurd heq.symm (hnull code' (h' code' rfl))
  | some code =>
    cases countryCode' with
    | none => exact absurd heq (hnull code (h code rfl))
    | some code' => exact congrArg some heq

lemma limit_inj {limit limit' : ℤ} (h : 1 ≤ limit ∧ limit ≤ 10) (h' : 1 ≤ limit' ∧ limit' ≤ 10)
    (heq : toString limit = toString limit') : limit = limit' := by
  have hall : ∀ n ∈ List.range 11, ∀ n' ∈ List.range 11, toString (n : ℤ) = toString (n' : ℤ) → n = n' := by decide
  obtain ⟨n, rfl⟩ := Int.eq_ofNat_of_zero_le (show 0 ≤ limit by omega)
  obtain ⟨n', rfl⟩ := Int.eq_ofNat_of_zero_le (show 0 ≤ limit' by omega)
  have hn := hall n (List.mem_range.mpr (by omega)) n' (List.mem_range.mpr (by omega)) heq
  rw [hn]

lemma bar_notMem_limit {limit : ℤ} (h : 1 ≤ limit ∧ limit ≤ 10) : '|' ∉ (toString limit).toList := by
  have hall : ∀ n ∈ List.range 11, '|' ∉ (toString (n : ℤ)).toList := by decide
  obtain ⟨n, rfl⟩ := Int.eq_ofNat_of_zero_le (show 0 ≤ limit by omega)
  exact hall n (List.mem_range.mpr (by omega))

/-- Calls that share a place in a cache are the same but for the spelling of a name. -/
inductive Alike (jdk : Jdk) {D : Type} : ClientCall D → ClientCall D → Prop where
  | same (call : ClientCall D) : Alike jdk call call
  | geocode (city city' : String) (countryCode : Option String) (language : String)
    (h : normaliseCacheKey jdk city = normaliseCacheKey jdk city') :
    Alike jdk (.geocode city countryCode language) (.geocode city' countryCode language)
  | geocodeAll (query query' : String) (limit : ℤ) (language : String)
    (h : normaliseCacheKey jdk query = normaliseCacheKey jdk query') :
    Alike jdk (.geocodeAll query limit language) (.geocodeAll query' limit language)

lemma alike_of_key {D : Type} {call call' : ClientCall D} (hvalid : call.Valid jdk) (hvalid' : call'.Valid jdk)
    (h : call.key jdk = call'.key jdk) : Alike jdk call call' := by
  cases call with
  | geocode city countryCode language =>
    cases call' with
    | geocode city' countryCode' language' =>
      obtain ⟨hname, hcountry, rfl⟩ := barred_inj (bar_notMem_country hvalid.1) (bar_notMem_country hvalid'.1)
        (bar_notMem_language hvalid.2) (bar_notMem_language hvalid'.2) (CacheKey.geocodingSingle.inj h)
      rw [country_inj hvalid.1 hvalid'.1 hcountry]
      exact .geocode city city' countryCode' language hname
    | _ => cases h
  | geocodeAll query limit language =>
    cases call' with
    | geocodeAll query' limit' language' =>
      have hlimit : 1 ≤ limit ∧ limit ≤ 10 := ⟨hvalid.1, hvalid.2.1⟩
      have hlimit' : 1 ≤ limit' ∧ limit' ≤ 10 := ⟨hvalid'.1, hvalid'.2.1⟩
      obtain ⟨hname, hlimits, rfl⟩ := barred_inj (bar_notMem_limit hlimit) (bar_notMem_limit hlimit')
        (bar_notMem_language hvalid.2.2) (bar_notMem_language hvalid'.2.2) (CacheKey.geocodingMulti.inj h)
      rw [limit_inj hlimit hlimit' hlimits]
      exact .geocodeAll query query' limit' language hname
    | _ => cases h
  | fetchCurrentWeather latitude longitude unit =>
    cases call' with
    | fetchCurrentWeather latitude' longitude' unit' =>
      obtain ⟨rfl, rfl, rfl⟩ := CacheKey.currentWeather.inj h
      exact .same _
    | _ => cases h
  | fetchForecast latitude longitude days unit =>
    cases call' with
    | fetchForecast latitude' longitude' days' unit' =>
      obtain ⟨rfl, rfl, rfl, rfl⟩ := CacheKey.forecast.inj h
      exact .same _
    | _ => cases h
  | fetchHistoricalWeather latitude longitude date unit =>
    cases call' with
    | fetchHistoricalWeather latitude' longitude' date' unit' =>
      obtain ⟨rfl, rfl, rfl, rfl⟩ := CacheKey.historicalWeather.inj h
      exact .same _
    | _ => cases h
  | fetchAirQuality latitude longitude =>
    cases call' with
    | fetchAirQuality latitude' longitude' =>
      obtain ⟨rfl, rfl⟩ := CacheKey.airQuality.inj h
      exact .same _
    | _ => cases h

end Keys

end AscendAI.Weather
