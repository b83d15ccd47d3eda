import AscendAI.Lib.ProcessPool
import AscendAI.Weather.OpenMeteoClient

/-!
# WeatherToolService

The five tools over the client. A call of a tool is checked when it starts; then it looks its place up and asks for
the weather there, or lists the candidates for a name. Calls run at the same time over the caches, values may be
evicted, and time passes between any two steps.
-/

namespace AscendAI.Weather
open InputValidator ProcessPool

/-! ### Results -/

inductive WeatherToolStatus where
  | ok
  | cityNotFound
  | noResults
  | upstreamUnavailable
  | invalidInput
  deriving DecidableEq

structure ResolvedLocation (D : Type) where
  name : Option String
  country : Option String
  countryCode : Option String
  latitude : Option D
  longitude : Option D

structure Temperature (D : Type) where
  value : Option D
  unit : String

structure Wind (D : Type) where
  speed : Option D
  direction : Option D
  unit : String

structure DailyForecast (D : Type) where
  date : Option String
  maxTemp : Option D
  minTemp : Option D
  precipitationSum : Option D
  weatherCode : Option ℤ

/-- What the results of the tools have of their own. -/
inductive Payload (D : Type) where
  | currentWeather (location : ResolvedLocation D) (temperature : Temperature D) (weatherCode : Option ℤ)
    (wind : Wind D) (observedAt : Option String)
  | forecast (location : ResolvedLocation D) (forecast : List (DailyForecast D)) (temperatureUnit : String)
  | historicalWeather (location : ResolvedLocation D) (day : DailyForecast D) (temperatureUnit : String)
  | airQuality (location : ResolvedLocation D) (pm10 pm25 : Option D) (usAqi europeanAqi : Option ℤ)
  | candidates (candidates : List (ResolvedLocation D))

/-- A result of any of the tools. -/
structure ToolResult (D : Type) where
  status : WeatherToolStatus
  message : Option String
  requestedQuery : Option String
  payload : Option (Payload D)
  fetchedAt : ℕ
  source : String := WeatherApiEndpoints.source

section Results

variable {D : Type}

def ToolResult.ok (payload : Payload D) (now : ℕ) : ToolResult D where
  status := .ok
  message := none
  requestedQuery := none
  payload := some payload
  fetchedAt := now

def ToolResult.cityNotFound (requestedQuery : Option String) (now : ℕ) : ToolResult D where
  status := .cityNotFound
  message := some "Location not found"
  requestedQuery := requestedQuery
  payload := none
  fetchedAt := now

def ToolResult.noResults (requestedQuery : Option String) (now : ℕ) : ToolResult D where
  status := .noResults
  message := some "No results found"
  requestedQuery := requestedQuery
  payload := none
  fetchedAt := now

def ToolResult.upstreamUnavailable (service : String) (now : ℕ) : ToolResult D where
  status := .upstreamUnavailable
  message := some (service ++ " service unavailable")
  requestedQuery := none
  payload := none
  fetchedAt := now

def ToolResult.invalidInput (message : String) (requestedQuery : Option String) (now : ℕ) : ToolResult D where
  status := .invalidInput
  message := some message
  requestedQuery := requestedQuery
  payload := none
  fetchedAt := now

/-- `ResolvedLocation.from` -/
def ResolvedLocation.of (geo : GeoResult D) : ResolvedLocation D :=
  ⟨geo.name, geo.country, geo.countryCode, geo.latitude, geo.longitude⟩

def windUnit : String := "km/h"

def getOrNull {α : Type} (list : Option (List (Option α))) (index : ℕ) : Option α :=
  (list.bind fun list => list[index]?).join

def dailyForecast (daily : Daily D) (date : Option String) (index : ℕ) : DailyForecast D :=
  ⟨date, getOrNull daily.temperature2mMax index, getOrNull daily.temperature2mMin index,
    getOrNull daily.precipitationSum index, getOrNull daily.weatherCode index⟩

variable (geo : GeoResult D) (unit : String) (now : ℕ)

def toResult (upstream : Option (CurrentWeatherUpstream D)) : ToolResult D :=
  match upstream.bind CurrentWeatherUpstream.currentWeather with
  | none => .upstreamUnavailable "Weather" now
  | some current => .ok (.currentWeather (.of geo) ⟨current.temperature, unit⟩ current.weatherCode
      ⟨current.windSpeed, current.windDirection, windUnit⟩ current.time) now

def toForecastResult (upstream : Option (ForecastUpstream D)) : ToolResult D :=
  match upstream.bind ForecastUpstream.daily with
  | none => .upstreamUnavailable "Weather" now
  | some daily =>
    match daily.time.getD [] with
    | [] => .upstreamUnavailable "Weather" now
    | times => .ok (.forecast (.of geo) (times.mapIdx fun i date => dailyForecast daily date i) unit) now

def toHistoricalResult (upstream : Option (ForecastUpstream D)) : ToolResult D :=
  match upstream.bind ForecastUpstream.daily with
  | none => .upstreamUnavailable "Weather" now
  | some daily =>
    match daily.time.getD [] with
    | [] => .upstreamUnavailable "Weather" now
    | date :: _ => .ok (.historicalWeather (.of geo) (dailyForecast daily date 0) unit) now

def toAirQualityResult (upstream : Option (AirQualityUpstream D)) : ToolResult D :=
  match upstream.bind AirQualityUpstream.current with
  | none => .upstreamUnavailable "Air quality" now
  | some current =>
    .ok (.airQuality (.of geo) current.pm10 current.pm25 current.usAqi current.europeanAqi) now

end Results

/-! ### The tools -/

/-- What a tool asks of a place. -/
inductive Fetch where
  | currentWeather (unit : String)
  | forecast (days : ℤ) (unit : String)
  | historicalWeather (date unit : String)
  | airQuality

/-- What a tool does with arguments that were let through. -/
inductive Plan where
  | place (city : String) (countryCode : Option String) (language : String) (fetch : Fetch)
  | candidates (query : String) (limit : ℤ) (language : String)

section Fetch

variable {D : Type}

def Fetch.call (latitude longitude : D) : Fetch → ClientCall D
  | .currentWeather unit => .fetchCurrentWeather latitude longitude unit
  | .forecast days unit => .fetchForecast latitude longitude days unit
  | .historicalWeather date unit => .fetchHistoricalWeather latitude longitude date unit
  | .airQuality => .fetchAirQuality latitude longitude

def Fetch.service : Fetch → String
  | .airQuality => "Air quality"
  | _ => "Weather"

def Fetch.toResult (jdk : Jdk) (latitude longitude : D) (geo : GeoResult D) (now : ℕ) :
    (fetch : Fetch) → ((fetch.call latitude longitude).key jdk).Value → ToolResult D
  | .currentWeather unit, upstream => Weather.toResult geo unit now upstream
  | .forecast _ unit, upstream => toForecastResult geo unit now upstream
  | .historicalWeather _ unit, upstream => toHistoricalResult geo unit now upstream
  | .airQuality, upstream => toAirQualityResult geo now upstream

end Fetch

section Tools

variable (jdk : Jdk)

/-- The tools that look a place up, with their further check. -/
def lookUp (city countryCode language : Option String) (check : Option String) (fetch : Fetch) :
    Except String Plan :=
  match validateCity jdk city with
  | some cityError => .error cityError
  | none =>
    match validateCountryCode jdk countryCode with
    | some countryError => .error countryError
    | none =>
      match check with
      | some error => .error error
      | none =>
        .ok (.place (city.getD "") (normaliseCountryCode jdk countryCode) (normaliseLanguage jdk language) fetch)

def outside (value least most : ℤ) (label : String) : Option String :=
  if value < least ∨ value > most then
    some (label ++ " must be between " ++ toString least ++ " and " ++ toString most)
  else none

def getCurrentWeather (city countryCode unit language : Option String) : Except String Plan :=
  lookUp jdk city countryCode language none (.currentWeather (normaliseUnit jdk unit))

def getForecast (city countryCode : Option String) (days : Option ℤ) (unit language : Option String) :
    Except String Plan :=
  let resolvedDays := days.getD 7
  lookUp jdk city countryCode language (outside resolvedDays 1 16 "days")
    (.forecast resolvedDays (normaliseUnit jdk unit))

def getHistoricalWeather (today : LocalDate) (city countryCode date unit language : Option String) :
    Except String Plan :=
  lookUp jdk city countryCode language (validateHistoricalDate today date)
    (.historicalWeather (date.getD "") (normaliseUnit jdk unit))

def getAirQuality (city countryCode language : Option String) : Except String Plan :=
  lookUp jdk city countryCode language none .airQuality

def geocode (query : Option String) (limit : Option ℤ) (language : Option String) : Except String Plan :=
  match validatePlaceName jdk query "Query" with
  | some queryError => .error queryError
  | none =>
    let resolvedLimit := limit.getD 5
    match outside resolvedLimit 1 10 "limit" with
    | some error => .error error
    | none => .ok (.candidates (query.getD "") resolvedLimit (normaliseLanguage jdk language))

end Tools

inductive ToolCall where
  | current (city countryCode unit language : Option String)
  | forecast (city countryCode : Option String) (days : Option ℤ) (unit language : Option String)
  | historical (city countryCode date unit language : Option String)
  | airQuality (city countryCode language : Option String)
  | geocode (query : Option String) (limit : Option ℤ) (language : Option String)

def ToolCall.requestedQuery : ToolCall → Option String
  | .current city _ _ _ => city
  | .forecast city _ _ _ _ => city
  | .historical city _ _ _ _ => city
  | .airQuality city _ _ => city
  | .geocode query _ _ => query

def ToolCall.plan (jdk : Jdk) (today : LocalDate) : ToolCall → Except String Plan
  | .current city countryCode unit language => getCurrentWeather jdk city countryCode unit language
  | .forecast city countryCode days unit language => getForecast jdk city countryCode days unit language
  | .historical city countryCode date unit language =>
    getHistoricalWeather jdk today city countryCode date unit language
  | .airQuality city countryCode language => getAirQuality jdk city countryCode language
  | .geocode query limit language => Weather.geocode jdk query limit language

/-! ### Calls at the same time -/

/-- Where a call of a tool is. -/
inductive Stage (D : Type) where
  | locating (city : String) (countryCode : Option String) (language : String) (fetch : Fetch)
  | fetching (fetch : Fetch) (latitude longitude : D) (geo : GeoResult D)
  | listing (query : String) (limit : ℤ) (language : String)
  | answered (result : ToolResult D)
  | threw

structure ToolThread (D : Type) where
  call : ToolCall
  startedAt : ℕ
  stage : Stage D

/-- The service with the day that each second of its clock falls on. -/
structure WeatherToolService (D : Type) where
  client : OpenMeteoClient D
  today : ℕ → LocalDate

abbrev WeatherPool (D : Type) := ProcessPool (ClientState D) (ToolThread D)

inductive WeatherEvent (D : Type) where
  | start (call : ToolCall)
  | step (i : ℕ) (upstream : UpstreamRequest D → Option HttpResponse)
  | evict (key : CacheKey D)
  | tick (seconds : ℕ)

section Threads

variable {D : Type} (service : WeatherToolService D)

def startThread (now : ℕ) (call : ToolCall) : ToolThread D where
  call := call
  startedAt := now
  stage :=
    match call.plan service.client.jdk (service.today now) with
    | .error message => .answered (.invalidInput message call.requestedQuery now)
    | .ok (.place city countryCode language fetch) => .locating city countryCode language fetch
    | .ok (.candidates query limit language) => .listing query limit language

/-- The place is there and has its coordinates. -/
def located (requestedQuery : Option String) (fetch : Fetch) (now : ℕ) (found : Option (GeoResult D)) : Stage D :=
  match found with
  | none => .answered (.cityNotFound requestedQuery now)
  | some geo =>
    match geo.latitude, geo.longitude with
    | some latitude, some longitude => .fetching fetch latitude longitude geo
    | _, _ => .answered (.cityNotFound requestedQuery now)

/-- Without a null among them, the results are the candidates. -/
def listed (requestedQuery : Option String) (now : ℕ) (results : List (Option (GeoResult D))) : Stage D :=
  if results.isEmpty then .answered (.noResults requestedQuery now)
  else if results.any Option.isNone then .threw
  else .answered (.ok (.candidates (results.filterMap fun result => result.map ResolvedLocation.of)) now)

/-- A `RestClientException` is caught. -/
def failed (name : String) (now : ℕ) : ClientFailure → Stage D
  | .restClient => .answered (.upstreamUnavailable name now)
  | .nullPointer => .threw

variable [DecidableEq D]

def advance (upstream : UpstreamRequest D → Option HttpResponse) (s : ClientState D) (thread : ToolThread D) :
    Outcome (ClientState D) (ToolThread D) :=
  match thread.stage with
  | .locating city countryCode language fetch =>
    match service.client.invoke s (.geocode city countryCode language) upstream with
    | (s', .ok found) => ⟨s', { thread with stage := located thread.call.requestedQuery fetch s.now found }, []⟩
    | (s', .error e) => ⟨s', { thread with stage := failed fetch.service s.now e }, []⟩
  | .fetching fetch latitude longitude geo =>
    match service.client.invoke s (fetch.call latitude longitude) upstream with
    | (s', .ok body) =>
      ⟨s', { thread with
        stage := .answered (fetch.toResult service.client.jdk latitude longitude geo s.now body) }, []⟩
    | (s', .error e) => ⟨s', { thread with stage := failed fetch.service s.now e }, []⟩
  | .listing query limit language =>
    match service.client.invoke s (.geocodeAll query limit language) upstream with
    | (s', .ok results) => ⟨s', { thread with stage := listed thread.call.requestedQuery s.now results }, []⟩
    | (s', .error e) => ⟨s', { thread with stage := failed "Geocoding" s.now e }, []⟩
  | .answered _ => ⟨s, thread, []⟩
  | .threw => ⟨s, thread, []⟩

def WeatherPool.next (pool : WeatherPool D) : WeatherEvent D → WeatherPool D
  | .start call => pool.start (startThread service pool.shared.now call)
  | .step i upstream => pool.step (advance service upstream) i
  | .evict key => ⟨{ pool.shared with cache := pool.shared.cache.evict key }, pool.procs⟩
  | .tick seconds => ⟨{ pool.shared with now := pool.shared.now + seconds }, pool.procs⟩

def WeatherPool.initial : WeatherPool D := ⟨.initial, []⟩

end Threads

end AscendAI.Weather
