import Mathlib.Data.List.Dedup
import Mathlib.Data.Rat.Defs
import AscendAI.Lib.PythonString

/-!
# WebReader

The reader of AscendWebSearch: its tiers, the validator, the escalation to NoVNC and the two ladders.
What a strategy does at each invocation and what the clock shows come from outside.
-/

namespace AscendAI.WebSearch
open PythonString

/-! ### The validator -/

structure ValidatorSettings where
  validationMinWords : ℕ := 10
  minFleschScore : ℚ := 20
  minTtr : ℚ := 1 / 10
  errorKeywords : List String := ["Access Denied", "403 Forbidden", "Captcha", "Security Check",
    "Enable JavaScript", "Additional Verification Required", "Ray ID"]

/-- The validator over textstat, which gives the lexicon count and the Flesch score or raises. -/
structure ContentValidator where
  settings : ValidatorSettings := {}
  textstat : String → Option (ℕ × ℚ)

namespace ContentValidator

variable (v : ContentValidator)

def isEmpty (text : String) : Bool := strip text = ""

def containsErrorKeywords (text : String) : Bool := v.settings.errorKeywords.any (contains text)

def isSufficientLength (text : String) : Bool := v.settings.validationMinWords ≤ (split text).length

def isRepetitive (words : List String) : Bool :=
  50 < words.length && decide ((words.dedup.length : ℚ) / words.length < v.settings.minTtr)

def passesQualityMetrics (text : String) : Bool :=
  match v.textstat text with
  | none => true
  | some (lexCount, fleschScore) =>
    if lexCount < v.settings.validationMinWords ∧ fleschScore < v.settings.minFleschScore then false
    else !v.isRepetitive (split text)

def validate (text : String) : Bool :=
  if isEmpty text then false
  else if v.containsErrorKeywords text then false
  else if !v.isSufficientLength text then false
  else v.passesQualityMetrics text

end ContentValidator

/-! ### Strategies -/

inductive Tier where
  | beautifulsoup
  | trafilatura
  | flaresolverr
  | playwrightStealth
  | crawleeAdaptive
  | novnc
  deriving DecidableEq, Repr

def Tier.name : Tier → String
  | .beautifulsoup => "1-beautifulsoup"
  | .trafilatura => "2-trafilatura"
  | .flaresolverr => "3-flaresolverr"
  | .playwrightStealth => "4-playwright_stealth"
  | .crawleeAdaptive => "5-crawlee_adaptive"
  | .novnc => "6-novnc"

structure HumanInterventionRequired where
  vncUrl : String
  interventionType : String
  deriving DecidableEq, Repr

/-- How an invocation of a strategy ends: with a text or a page, which may be empty, or with an
exception. -/
inductive Outcome where
  | content (text : String)
  | challengeDetected
  | humanIntervention (required : HumanInterventionRequired)
  | failed
  deriving DecidableEq, Repr

structure Invocation where
  tier : Tier
  outcome : Outcome
  deriving DecidableEq, Repr

/-- What happens outside the reader during one call: the outcome of the invocation with a number, and
the time that has passed at the check before a tier. -/
structure Session where
  outcome : ℕ → Tier → Outcome
  elapsed : ℕ → ℚ

abbrev LinkMap := List (ℕ × String)

/-- The reader: its validator, `annotate_links` with the exceptions of its parsers, and `str.lower`. -/
structure WebReader where
  validator : ContentValidator
  annotateLinks : String → String → Option String → Except String (String × LinkMap)
  lower : String → String
  readTotalBudget : ℚ := 90

inductive Answer where
  | success (content : String) (links : Option LinkMap) (mode : String)
  | failure (reason : String)
  | humanIntervention (required : HumanInterventionRequired)
  | raised (message : String)
  deriving DecidableEq, Repr

/-- A call of the reader: the invocations that it makes, and its answer. -/
structure Call where
  invocations : List Invocation
  answer : Answer
  deriving DecidableEq, Repr

section Reader

variable (r : WebReader) (s : Session)

def isLoginRedirectUrl (url : String) : Bool :=
  url ≠ "" && ["?login", "continue=", "signin", "login=", "auth?"].any (contains (r.lower url))

def strategies : List Tier :=
  [.beautifulsoup, .trafilatura, .flaresolverr, .playwrightStealth, .crawleeAdaptive, .novnc]

def selectStrategies (url : String) (heavyMode : Bool) : List Tier :=
  if isLoginRedirectUrl r url then [.novnc]
  else if heavyMode then [.playwrightStealth, .crawleeAdaptive, .novnc]
  else strategies

/-- `_budget_exceeded` at the check with this number; NoVNC is exempt. -/
def budgetExceeded (i : ℕ) (name : Tier) : Bool :=
  name ≠ .novnc && decide (r.readTotalBudget < s.elapsed i)

/-- One invocation of a strategy, after the ones of the log. -/
def invoke (log : List Invocation) (name : Tier) : List Invocation × Outcome :=
  (log ++ [⟨name, s.outcome log.length name⟩], s.outcome log.length name)

/-- `_execute_strategy` up to what it does on a challenge. -/
def executeStrategyOr
    (onChallenge : List Invocation → List Invocation × Except HumanInterventionRequired (Option (String × Tier)))
    (name : Tier) (log : List Invocation) :
    List Invocation × Except HumanInterventionRequired (Option (String × Tier)) :=
  match invoke s log name with
  | (log', .content content) =>
    (log', .ok (if r.validator.validate content then some (content, name) else none))
  | (log', .challengeDetected) => onChallenge log'
  | (log', .humanIntervention required) => (log', .error required)
  | (log', .failed) => (log', .ok none)

/-- `_execute_strategy`: the content and the mode, if there is any. -/
def executeStrategy (escalating : Bool) (name : Tier) (log : List Invocation) :
    List Invocation × Except HumanInterventionRequired (Option (String × Tier)) :=
  executeStrategyOr r s
    (fun log' => if escalating then (log', .ok none)
      else executeStrategyOr r s (fun log'' => (log'', .ok none)) .novnc log') name log

/-- `_execute_html_strategy` up to what it does on a challenge. -/
def executeHtmlStrategyOr
    (onChallenge : List Invocation → List Invocation × Except HumanInterventionRequired String)
    (name : Tier) (log : List Invocation) : List Invocation × Except HumanInterventionRequired String :=
  match invoke s log name with
  | (log', .content html) => (log', .ok html)
  | (log', .challengeDetected) => onChallenge log'
  | (log', .humanIntervention required) => (log', .error required)
  | (log', .failed) => (log', .ok "")

/-- `_execute_html_strategy`: the page, or the empty string. -/
def executeHtmlStrategy (escalating : Bool) (name : Tier) (log : List Invocation) :
    List Invocation × Except HumanInterventionRequired String :=
  executeHtmlStrategyOr s
    (fun log' => if escalating then (log', .ok "")
      else executeHtmlStrategyOr s (fun log'' => (log'', .ok "")) .novnc log') name log

/-- What one round of a ladder does: it goes on to the next tier, or ends the call. -/
inductive Step where
  | next
  | stop (answer : Answer)
  deriving DecidableEq

/-- The loop of both ladders, from the tier with this number on. -/
def climb (round : Tier → List Invocation → List Invocation × Step) :
    ℕ → List Invocation → List Tier → Call
  | _, log, [] => ⟨log, .failure "all_tiers_failed"⟩
  | i, log, name :: tiers =>
    if budgetExceeded r s i name then ⟨log, .failure "budget_exhausted"⟩
    else
      match round name log with
      | (log', .stop answer) => ⟨log', answer⟩
      | (log', .next) => climb round (i + 1) log' tiers

def readRound (name : Tier) (log : List Invocation) : List Invocation × Step :=
  match executeStrategy r s false name log with
  | (log', .error required) => (log', .stop (.humanIntervention required))
  | (log', .ok (some (content, mode))) => (log', .stop (.success content none mode.name))
  | (log', .ok none) => (log', .next)

def read (url : String) (heavyMode : Bool) : Call :=
  climb r s (readRound r s) 0 [] (selectStrategies r url heavyMode)

def readWithLinksRound (url : String) (linkFilter : Option String) (name : Tier) (log : List Invocation) :
    List Invocation × Step :=
  match executeHtmlStrategy s false name log with
  | (log', .error required) => (log', .stop (.humanIntervention required))
  | (log', .ok html) =>
    if html = "" then (log', .next)
    else
      match r.annotateLinks html url linkFilter with
      | .error message => (log', .stop (.raised message))
      | .ok (content, links) =>
        -- The mode is the tier of the loop, whichever strategy gave the page.
        if r.validator.validate content then (log', .stop (.success content (some links) name.name))
        else (log', .next)

def readWithLinks (url : String) (linkFilter : Option String) (heavyMode : Bool) : Call :=
  climb r s (readWithLinksRound r s url linkFilter) 0 [] (selectStrategies r url heavyMode)

end Reader

end AscendAI.WebSearch
