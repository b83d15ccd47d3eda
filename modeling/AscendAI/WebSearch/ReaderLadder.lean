import AscendAI.WebSearch.WebReader

/-!
# The ladder of the reader

What the outcomes of the strategies prescribe is a list of attempts, one for each tier that the budget
allows. A ladder makes the attempts in order up to the first one that ends the call. `read` answers with
the strategy that produced the content, and `read_with_links` with the tier of that attempt.
-/

namespace AscendAI.WebSearch

/-- One tier of a ladder: its strategy alone, or challenged and then NoVNC. -/
inductive Attempt where
  | direct (tier : Tier) (outcome : Outcome) (unchallenged : outcome ≠ .challengeDetected)
  | escalated (tier : Tier) (outcome : Outcome)
  deriving DecidableEq

namespace Attempt

def tier : Attempt → Tier
  | .direct tier _ _ => tier
  | .escalated tier _ => tier

/-- The strategy of the last invocation. -/
def producer : Attempt → Tier
  | .direct tier _ _ => tier
  | .escalated _ _ => .novnc

def outcome : Attempt → Outcome
  | .direct _ outcome _ => outcome
  | .escalated _ outcome => outcome

def invocations : Attempt → List Invocation
  | .direct tier outcome _ => [⟨tier, outcome⟩]
  | .escalated tier outcome => [⟨tier, .challengeDetected⟩, ⟨.novnc, outcome⟩]

/-- The attempt yields accepted content or needs a human. -/
def Settles (accepts : String → Option String) (a : Attempt) : Prop :=
  match a.outcome with
  | .content text => (accepts text).isSome = true
  | .humanIntervention _ => True
  | .challengeDetected => False
  | .failed => False

/-- The answer is what the attempt yields, under the name of the strategy that produced it. -/
def AnswersWith (accepts : String → Option String) (a : Attempt) : Answer → Prop
  | .success content _ mode => ∃ text, a.outcome = .content text ∧ accepts text = some content ∧
      mode = a.producer.name
  | .humanIntervention required => a.outcome = .humanIntervention required
  | .failure _ => False
  | .raised _ => False

lemma getLast?_invocations (a : Attempt) : a.invocations.getLast? = some ⟨a.producer, a.outcome⟩ := by
  cases a <;> rfl

lemma length_invocations_le (a : Attempt) : a.invocations.length ≤ 2 := by
  cases a with
  | direct tier outcome h => exact Nat.le_succ 1
  | escalated tier outcome => exact le_rfl

end Attempt

section Ladder

variable (r : WebReader) (s : Session)

def attemptAt (k : ℕ) (name : Tier) : Attempt :=
  if h : s.outcome k name = .challengeDetected then .escalated name (s.outcome (k + 1) .novnc)
  else .direct name (s.outcome k name) h

/-- What the outcomes prescribe for these tiers, from the invocation with this number on. -/
def attemptsFrom : ℕ → List Tier → List Attempt
  | _, [] => []
  | k, name :: tiers =>
    attemptAt s k name :: attemptsFrom (k + (attemptAt s k name).invocations.length) tiers

/-- The tiers before the first one that the budget refuses. -/
def affordable : ℕ → List Tier → List Tier
  | _, [] => []
  | i, name :: tiers => if budgetExceeded r s i name then [] else name :: affordable (i + 1) tiers

/-- A call of a ladder in terms of its attempts: their order, where it stops, and what it answers. -/
structure Climbs (accepts : String → Option String) (ladder : List Tier) (call : Call)
    (attempts : List Attempt) : Prop where
  invocations : call.invocations = attempts.flatMap Attempt.invocations
  outcomes : ∀ k invocation, call.invocations[k]? = some invocation →
    invocation.outcome = s.outcome k invocation.tier
  order : attempts.map Attempt.tier <+: affordable r s 0 ladder
  earlier : ∀ a ∈ attempts.dropLast, ¬a.Settles accepts
  answer : (∃ a, attempts.getLast? = some a ∧ a.AnswersWith accepts call.answer) ∨
    attempts.map Attempt.tier = affordable r s 0 ladder ∧ (∀ a ∈ attempts, ¬a.Settles accepts) ∧
      ∃ reason, call.answer = .failure reason

def LadderLaw (accepts : String → Option String) (ladder : List Tier) (call : Call) : Prop :=
  ∃ attempts, Climbs r s accepts ladder call attempts

def readAccepts (text : String) : Option String :=
  if r.validator.validate text then some text else none

def linksAccepts (url : String) (linkFilter : Option String) (html : String) : Option String :=
  if html = "" then none
  else
    match r.annotateLinks html url linkFilter with
    | .error _ => none
    | .ok (content, _) => if r.validator.validate content then some content else none

/-- What a round of `read` does after an attempt. -/
def readStep (a : Attempt) : Step :=
  match a.outcome with
  | .content text =>
    if r.validator.validate text then .stop (.success text none a.producer.name) else .next
  | .humanIntervention required => .stop (.humanIntervention required)
  | .challengeDetected => .next
  | .failed => .next

def linksStep (url : String) (linkFilter : Option String) (a : Attempt) : Step :=
  match a.outcome with
  | .content html =>
    if html = "" then .next
    else
      match r.annotateLinks html url linkFilter with
      | .error message => .stop (.raised message)
      | .ok (content, links) =>
        if r.validator.validate content then .stop (.success content (some links) a.tier.name) else .next
  | .humanIntervention required => .stop (.humanIntervention required)
  | .challengeDetected => .next
  | .failed => .next

/-- The attempt gives no page on which `annotate_links` raises, and no accepted page of NoVNC for another
tier. -/
def Attempt.Faithful (url : String) (linkFilter : Option String) (a : Attempt) : Prop :=
  match a.outcome with
  | .content html => html = "" ∨ ∃ content links, r.annotateLinks html url linkFilter = .ok (content, links) ∧
      (r.validator.validate content = true → a.tier = a.producer)
  | _ => True

/-! ### The rounds -/

lemma attemptAt_of_challenge {k : ℕ} {name : Tier} (h : s.outcome k name = .challengeDetected) :
    attemptAt s k name = .escalated name (s.outcome (k + 1) .novnc) := dif_pos h

lemma attemptAt_of_unchallenged {k : ℕ} {name : Tier} (h : s.outcome k name ≠ .challengeDetected) :
    attemptAt s k name = .direct name (s.outcome k name) h := dif_neg h

lemma readRound_eq (name : Tier) (log : List Invocation) :
    readRound r s name log =
      (log ++ (attemptAt s log.length name).invocations, readStep r (attemptAt s log.length name)) := by
  by_cases hchallenge : s.outcome log.length name = .challengeDetected
  · rw [attemptAt_of_challenge s hchallenge]
    simp only [readRound, executeStrategy, executeStrategyOr, invoke, hchallenge, Bool.false_eq_true, if_false,
      List.length_append, List.length_singleton, Attempt.invocations, readStep, Attempt.outcome,
      Attempt.producer, List.append_assoc, List.singleton_append]
    cases s.outcome (log.length + 1) .novnc with
    | content text => cases hvalid : r.validator.validate text <;> simp [hvalid]
    | challengeDetected => rfl
    | humanIntervention required => rfl
    | failed => rfl
  · rw [attemptAt_of_unchallenged s hchallenge]
    simp only [readRound, executeStrategy, executeStrategyOr, invoke, Attempt.invocations, readStep,
      Attempt.outcome, Attempt.producer]
    cases houtcome : s.outcome log.length name with
    | content text => cases hvalid : r.validator.validate text <;> simp [hvalid]
    | challengeDetected => exact absurd houtcome hchallenge
    | humanIntervention required => rfl
    | failed => rfl

lemma readWithLinksRound_eq (url : String) (linkFilter : Option String) (name : Tier)
    (log : List Invocation) :
    readWithLinksRound r s url linkFilter name log =
      (log ++ (attemptAt s log.length name).invocations,
        linksStep r url linkFilter (attemptAt s log.length name)) := by
  by_cases hchallenge : s.outcome log.length name = .challengeDetected
  · rw [attemptAt_of_challenge s hchallenge]
    simp only [readWithLinksRound, executeHtmlStrategy, executeHtmlStrategyOr, invoke, hchallenge,
      Bool.false_eq_true, if_false, List.length_append, List.length_singleton, Attempt.invocations, linksStep,
      Attempt.outcome, Attempt.tier, List.append_assoc, List.singleton_append]
    cases s.outcome (log.length + 1) .novnc with
    | content html =>
      by_cases hempty : html = ""
      · simp only [hempty, if_true]
      · simp only [hempty, if_false]
        cases r.annotateLinks html url linkFilter with
        | error message => rfl
        | ok annotated => cases hvalid : r.validator.validate annotated.1 <;> simp [hvalid]
    | challengeDetected => rfl
    | humanIntervention required => rfl
    | failed => rfl
  · rw [attemptAt_of_unchallenged s hchallenge]
    simp only [readWithLinksRound, executeHtmlStrategy, executeHtmlStrategyOr, invoke, Attempt.invocations,
      linksStep, Attempt.outcome, Attempt.tier]
    cases houtcome : s.outcome log.length name with
    | content html =>
      by_cases hempty : html = ""
      · simp only [hempty, if_true]
      · simp only [hempty, if_false]
        cases r.annotateLinks html url linkFilter with
        | error message => rfl
        | ok annotated => cases hvalid : r.validator.validate annotated.1 <;> simp [hvalid]
    | challengeDetected => exact absurd houtcome hchallenge
    | humanIntervention required => rfl
    | failed => rfl

/-! ### The loop -/

/-- What a loop with these steps makes of the prescribed attempts: it stops at the first one whose step
stops, and fails when there is none. -/
structure Made (step : Attempt → Step) (log : List Invocation) (prescribed : List Attempt) (call : Call)
    (attempts : List Attempt) : Prop where
  isPrefix : attempts <+: prescribed
  invocations : call.invocations = log ++ attempts.flatMap Attempt.invocations
  earlier : ∀ a ∈ attempts.dropLast, step a = .next
  ends : (∃ a, attempts.getLast? = some a ∧ step a = .stop call.answer) ∨
    attempts = prescribed ∧ (∀ a ∈ attempts, step a = .next) ∧ ∃ reason, call.answer = .failure reason

variable {r s}

lemma exists_made_climb {step : Attempt → Step} {round : Tier → List Invocation → List Invocation × Step}
    (hround : ∀ name log, round name log =
      (log ++ (attemptAt s log.length name).invocations, step (attemptAt s log.length name)))
    (i : ℕ) (log : List Invocation) (tiers : List Tier) :
    ∃ attempts, Made step log (attemptsFrom s log.length (affordable r s i tiers))
      (climb r s round i log tiers) attempts := by
  induction tiers generalizing i log with
  | nil =>
    refine ⟨[], List.nil_prefix, (List.append_nil log).symm, by simp, .inr ⟨rfl, by simp, _, rfl⟩⟩
  | cons name tiers ih =>
    rw [affordable, climb]
    by_cases hbudget : budgetExceeded r s i name = true
    · rw [if_pos hbudget, if_pos hbudget]
      exact ⟨[], List.nil_prefix, (List.append_nil log).symm, by simp, .inr ⟨rfl, by simp, _, rfl⟩⟩
    rw [if_neg hbudget, if_neg hbudget, hround, attemptsFrom]
    cases hstep : step (attemptAt s log.length name) with
    | stop answer =>
      refine ⟨[attemptAt s log.length name], ?_, ?_, by simp, .inl ⟨_, rfl, hstep⟩⟩
      · exact List.prefix_append [_] _
      · simp
    | next =>
      obtain ⟨attempts, hmade⟩ := ih (i + 1) (log ++ (attemptAt s log.length name).invocations)
      rw [List.length_append] at hmade
      refine ⟨attemptAt s log.length name :: attempts, ?_, ?_, ?_, ?_⟩
      · exact (List.cons_prefix_cons).mpr ⟨rfl, hmade.isPrefix⟩
      · rw [hmade.invocations, List.flatMap_cons, List.append_assoc]
      · intro a ha
        cases attempts with
        | nil => simp at ha
        | cons a' attempts =>
          rw [List.dropLast_cons_cons, List.mem_cons] at ha
          rcases ha with rfl | ha
          · exact hstep
          · exact hmade.earlier a ha
      · rcases hmade.ends with ⟨a, hlast, hanswer⟩ | ⟨hall, hnext, reason, hanswer⟩
        · refine .inl ⟨a, ?_, hanswer⟩
          rw [List.getLast?_cons, hlast, Option.getD_some]
        · refine .inr ⟨by rw [hall], ?_, reason, hanswer⟩
          intro a ha
          rcases List.mem_cons.mp ha with rfl | ha
          · exact hstep
          · exact hnext a ha

lemma map_tier_attemptsFrom (k : ℕ) (tiers : List Tier) :
    (attemptsFrom s k tiers).map Attempt.tier = tiers := by
  induction tiers generalizing k with
  | nil => rfl
  | cons name tiers ih =>
    have htier : (attemptAt s k name).tier = name := by
      unfold attemptAt
      split <;> rfl
    rw [attemptsFrom, List.map_cons, ih, htier]

/-- The invocations of the prescribed attempts have the outcomes of their numbers. -/
lemma outcome_of_attemptsFrom (k : ℕ) (tiers : List Tier) (j : ℕ) {invocation : Invocation}
    (h : ((attemptsFrom s k tiers).flatMap Attempt.invocations)[j]? = some invocation) :
    invocation.outcome = s.outcome (k + j) invocation.tier := by
  induction tiers generalizing k j with
  | nil => cases h
  | cons name tiers ih =>
    rw [attemptsFrom, List.flatMap_cons] at h
    by_cases hj : j < (attemptAt s k name).invocations.length
    · rw [List.getElem?_append_left hj] at h
      by_cases hchallenge : s.outcome k name = .challengeDetected
      · rw [attemptAt_of_challenge s hchallenge] at h
        match j, h with
        | 0, h =>
          obtain rfl := Option.some.inj h
          exact hchallenge.symm
        | 1, h =>
          obtain rfl := Option.some.inj h
          rfl
      · rw [attemptAt_of_unchallenged s hchallenge] at h
        match j, h with
        | 0, h =>
          obtain rfl := Option.some.inj h
          rfl
    · rw [List.getElem?_append_right (not_lt.mp hj)] at h
      have hrest := ih _ _ h
      rw [Nat.add_assoc, Nat.add_sub_cancel' (not_lt.mp hj)] at hrest
      exact hrest

lemma climbs_of_made {accepts : String → Option String} {step : Attempt → Step} {ladder : List Tier}
    {call : Call} {attempts : List Attempt}
    (h : Made step [] (attemptsFrom s 0 (affordable r s 0 ladder)) call attempts)
    (hnext : ∀ a, step a = .next → ¬a.Settles accepts)
    (hstop : ∀ a, attempts.getLast? = some a → step a = .stop call.answer →
      a.AnswersWith accepts call.answer) : Climbs r s accepts ladder call attempts where
  invocations := h.invocations
  outcomes k invocation hk := by
    obtain ⟨rest, hrest⟩ := h.isPrefix
    rw [h.invocations, List.nil_append] at hk
    have hlong : ((attemptsFrom s 0 (affordable r s 0 ladder)).flatMap Attempt.invocations)[k]? =
        some invocation := by
      rw [← hrest, List.flatMap_append, List.getElem?_append_left (List.getElem?_eq_some_iff.mp hk).1, hk]
    simpa using outcome_of_attemptsFrom 0 _ k hlong
  order := by
    have hmap := h.isPrefix.map Attempt.tier
    rwa [map_tier_attemptsFrom] at hmap
  earlier a ha := hnext a (h.earlier a ha)
  answer := by
    rcases h.ends with ⟨a, hlast, hanswer⟩ | ⟨hall, hsteps, hfailure⟩
    · exact .inl ⟨a, hlast, hstop a hlast hanswer⟩
    · refine .inr ⟨?_, fun a ha => hnext a (hsteps a ha), hfailure⟩
      rw [hall, map_tier_attemptsFrom]

/-- At most two invocations for each tier. -/
theorem length_invocations_le_of_law {accepts : String → Option String} {ladder : List Tier} {call : Call}
    (h : LadderLaw r s accepts ladder call) : call.invocations.length ≤ 2 * (affordable r s 0 ladder).length := by
  obtain ⟨attempts, hclimbs⟩ := h
  have htwo : ∀ attempts : List Attempt, (attempts.flatMap Attempt.invocations).length ≤ 2 * attempts.length := by
    intro attempts
    induction attempts with
    | nil => exact le_rfl
    | cons a attempts ih =>
      have ha := a.length_invocations_le
      rw [List.flatMap_cons, List.length_append, List.length_cons]
      omega
  have hlength := hclimbs.order.length_le
  rw [List.length_map] at hlength
  rw [hclimbs.invocations]
  exact (htwo attempts).trans (by omega)

/-! ### The two ladders -/

lemma not_settles_of_readStep {a : Attempt} (h : readStep r a = .next) : ¬a.Settles (readAccepts r) := by
  unfold readStep at h
  unfold Attempt.Settles readAccepts
  cases houtcome : a.outcome with
  | content text =>
    rw [houtcome] at h
    cases hvalid : r.validator.validate text <;> simp [hvalid] at h ⊢
  | challengeDetected => exact not_false
  | humanIntervention required =>
    rw [houtcome] at h
    cases h
  | failed => exact not_false

lemma answersWith_of_readStep {a : Attempt} {answer : Answer} (h : readStep r a = .stop answer) :
    a.AnswersWith (readAccepts r) answer := by
  unfold readStep at h
  cases houtcome : a.outcome with
  | content text =>
    rw [houtcome] at h
    cases hvalid : r.validator.validate text with
    | false => simp [hvalid] at h
    | true =>
      simp only [hvalid, if_true, Step.stop.injEq] at h
      subst h
      exact ⟨text, houtcome, if_pos hvalid, rfl⟩
  | challengeDetected =>
    rw [houtcome] at h
    cases h
  | humanIntervention required =>
    rw [houtcome] at h
    simp only [Step.stop.injEq] at h
    subst h
    exact houtcome
  | failed =>
    rw [houtcome] at h
    cases h

/-- The law holds of every call of `read`. -/
theorem read_law (r : WebReader) (s : Session) (url : String) (heavyMode : Bool) :
    LadderLaw r s (readAccepts r) (selectStrategies r url heavyMode) (read r s url heavyMode) := by
  obtain ⟨attempts, hmade⟩ := exists_made_climb (readRound_eq r s) 0 [] (selectStrategies r url heavyMode)
  exact ⟨attempts, climbs_of_made hmade (fun _ => not_settles_of_readStep)
    (fun _ _ => answersWith_of_readStep)⟩

lemma not_settles_of_linksStep {url : String} {linkFilter : Option String} {a : Attempt}
    (h : linksStep r url linkFilter a = .next) : ¬a.Settles (linksAccepts r url linkFilter) := by
  unfold linksStep at h
  unfold Attempt.Settles linksAccepts
  cases houtcome : a.outcome with
  | content html =>
    rw [houtcome] at h
    by_cases hempty : html = ""
    · simp [hempty]
    simp only [hempty, if_false] at h ⊢
    cases hannotated : r.annotateLinks html url linkFilter with
    | error message => simp
    | ok annotated =>
      rw [hannotated] at h
      cases hvalid : r.validator.validate annotated.1 <;> simp [hvalid] at h ⊢
  | challengeDetected => exact not_false
  | humanIntervention required =>
    rw [houtcome] at h
    cases h
  | failed => exact not_false

lemma linksStep_stop {url : String} {linkFilter : Option String} {a : Attempt} {answer : Answer}
    (h : linksStep r url linkFilter a = .stop answer) :
    (∃ required, a.outcome = .humanIntervention required ∧ answer = .humanIntervention required) ∨
      ∃ html, a.outcome = .content html ∧ html ≠ "" ∧
        ((∃ message, r.annotateLinks html url linkFilter = .error message ∧ answer = .raised message) ∨
          ∃ content links, r.annotateLinks html url linkFilter = .ok (content, links) ∧
            r.validator.validate content = true ∧ answer = .success content (some links) a.tier.name) := by
  unfold linksStep at h
  cases houtcome : a.outcome with
  | content html =>
    rw [houtcome] at h
    refine .inr ⟨html, rfl, ?_⟩
    by_cases hempty : html = ""
    · simp [hempty] at h
    refine ⟨hempty, ?_⟩
    simp only [hempty, if_false] at h
    cases hannotated : r.annotateLinks html url linkFilter with
    | error message =>
      rw [hannotated] at h
      exact .inl ⟨message, rfl, (Step.stop.inj h).symm⟩
    | ok annotated =>
      rw [hannotated] at h
      obtain ⟨content, links⟩ := annotated
      cases hvalid : r.validator.validate content with
      | false => simp [hvalid] at h
      | true =>
        simp only [hvalid, if_true] at h
        exact .inr ⟨content, links, rfl, hvalid, (Step.stop.inj h).symm⟩
  | challengeDetected =>
    rw [houtcome] at h
    cases h
  | humanIntervention required =>
    rw [houtcome] at h
    exact .inl ⟨required, rfl, (Step.stop.inj h).symm⟩
  | failed =>
    rw [houtcome] at h
    cases h

lemma answersWith_of_faithful {url : String} {linkFilter : Option String} {a : Attempt} {answer : Answer}
    (h : linksStep r url linkFilter a = .stop answer) (hfaithful : a.Faithful r url linkFilter) :
    a.AnswersWith (linksAccepts r url linkFilter) answer := by
  obtain ⟨required, houtcome, rfl⟩ | ⟨html, houtcome, hempty, hpage⟩ := linksStep_stop h
  · exact houtcome
  unfold Attempt.Faithful at hfaithful
  rw [houtcome] at hfaithful
  obtain ⟨content, links, hok, hmode⟩ := hfaithful.resolve_left hempty
  obtain ⟨message, herror, -⟩ | ⟨content', links', hok', hvalid, rfl⟩ := hpage
  · rw [hok] at herror
    cases herror
  · obtain ⟨rfl, rfl⟩ := Prod.mk.inj (Except.ok.inj (hok.symm.trans hok'))
    refine ⟨html, houtcome, ?_, by rw [hmode hvalid]⟩
    simp [linksAccepts, hempty, hok, hvalid]

lemma tier_name_injective : Function.Injective Tier.name := by
  intro tier tier' h
  cases tier <;> cases tier' <;> first | rfl | exact absurd h (by decide)

/-- Only the producer of the last invocation can answer for it. -/
lemma faithful_of_answersWith {url : String} {linkFilter : Option String} {a a' : Attempt} {answer : Answer}
    (h : linksStep r url linkFilter a = .stop answer) (hproducer : a'.producer = a.producer)
    (hanswers : a'.AnswersWith (linksAccepts r url linkFilter) answer) : a.Faithful r url linkFilter := by
  obtain ⟨required, houtcome, rfl⟩ | ⟨html, houtcome, hempty, hpage⟩ := linksStep_stop h
  · unfold Attempt.Faithful
    rw [houtcome]
    trivial
  · unfold Attempt.Faithful
    rw [houtcome]
    obtain ⟨message, -, rfl⟩ | ⟨content, links, hok, hvalid, rfl⟩ := hpage
    · exact hanswers.elim
    · obtain ⟨_, _, _, hmode⟩ := hanswers
      refine .inr ⟨content, links, hok, fun _ => ?_⟩
      rw [← hproducer]
      exact tier_name_injective hmode

section Made

variable {step : Attempt → Step} {log : List Invocation} {prescribed attempts : List Attempt} {call : Call}
  {a : Attempt}

lemma Made.find?_of_stop (h : Made step log prescribed call attempts) (hlast : attempts.getLast? = some a)
    (hstop : step a = .stop call.answer) : prescribed.find? (fun a => step a ≠ .next) = some a := by
  obtain ⟨rest, hrest⟩ := h.isPrefix
  have hsplit := List.dropLast_append_getLast? a hlast
  have hearlier : attempts.dropLast.find? (fun a => step a ≠ .next) = none := by
    rw [List.find?_eq_none]
    intro b hb
    simp [h.earlier b hb]
  have hne : step a ≠ .next := by simp [hstop]
  rw [← hrest, ← hsplit, List.append_assoc, List.find?_append, hearlier, Option.none_or,
    List.singleton_append, List.find?_cons_of_pos (by simpa using hne)]

lemma Made.stop_of_find? (h : Made step log prescribed call attempts)
    (hfind : prescribed.find? (fun a => step a ≠ .next) = some a) :
    attempts.getLast? = some a ∧ step a = .stop call.answer := by
  rcases h.ends with ⟨a', hlast, hanswer⟩ | ⟨rfl, hnext, -⟩
  · obtain rfl := Option.some.inj ((h.find?_of_stop hlast hanswer).symm.trans hfind)
    exact ⟨hlast, hanswer⟩
  · have hstop := List.find?_some hfind
    have hstep := hnext a (List.mem_of_find?_eq_some hfind)
    simp [hstep] at hstop

end Made

lemma getLast?_flatMap_invocations {attempts : List Attempt} {a : Attempt} (h : attempts.getLast? = some a) :
    (attempts.flatMap Attempt.invocations).getLast? = some ⟨a.producer, a.outcome⟩ := by
  have hsplit := List.dropLast_append_getLast? a h
  rw [← hsplit, List.flatMap_append, List.getLast?_append, List.flatMap_singleton,
    a.getLast?_invocations, Option.some_or]

/-- The law holds of a call of `read_with_links` exactly when the first attempt that ends it is
faithful. -/
theorem readWithLinks_law_iff (r : WebReader) (s : Session) (url : String) (linkFilter : Option String)
    (heavyMode : Bool) :
    LadderLaw r s (linksAccepts r url linkFilter) (selectStrategies r url heavyMode)
        (readWithLinks r s url linkFilter heavyMode) ↔
      ∀ a, (attemptsFrom s 0 (affordable r s 0 (selectStrategies r url heavyMode))).find?
        (fun a => linksStep r url linkFilter a ≠ .next) = some a → a.Faithful r url linkFilter := by
  obtain ⟨attempts, hmade⟩ := exists_made_climb (readWithLinksRound_eq r s url linkFilter) 0 []
    (selectStrategies r url heavyMode)
  constructor
  · rintro ⟨attempts', hclimbs⟩ a hfind
    obtain ⟨hlast, hstop⟩ := hmade.stop_of_find? hfind
    have hinvocations := hclimbs.invocations.symm.trans hmade.invocations
    rw [List.nil_append] at hinvocations
    rcases hclimbs.answer with ⟨a', hlast', hanswers⟩ | ⟨-, -, reason, hfailure⟩
    · have hinvocation := getLast?_flatMap_invocations hlast'
      rw [hinvocations, getLast?_flatMap_invocations hlast] at hinvocation
      have hproducer := congrArg Invocation.tier (Option.some.inj hinvocation)
      exact faithful_of_answersWith hstop hproducer.symm hanswers
    · obtain ⟨required, -, hanswer⟩ | ⟨_, -, -, ⟨_, -, hanswer⟩ | ⟨_, _, -, -, hanswer⟩⟩ :=
        linksStep_stop hstop
      · cases hfailure.symm.trans hanswer
      · cases hfailure.symm.trans hanswer
      · cases hfailure.symm.trans hanswer
  · intro hfaithful
    refine ⟨attempts, climbs_of_made hmade (fun _ => not_settles_of_linksStep) fun a hlast hstop => ?_⟩
    exact answersWith_of_faithful hstop (hfaithful a (hmade.find?_of_stop hlast hstop))

/-- What the outcomes, the budget and the validator do to the two ladders: `read` always keeps the law,
and `read_with_links` exactly when the attempt that ends the call is faithful. -/
theorem ladders_law_iff (r : WebReader) (s : Session) (url : String) (linkFilter : Option String)
    (heavyMode : Bool) :
    LadderLaw r s (readAccepts r) (selectStrategies r url heavyMode) (read r s url heavyMode) ∧
      (LadderLaw r s (linksAccepts r url linkFilter) (selectStrategies r url heavyMode)
          (readWithLinks r s url linkFilter heavyMode) ↔
        ∀ a, (attemptsFrom s 0 (affordable r s 0 (selectStrategies r url heavyMode))).find?
          (fun a => linksStep r url linkFilter a ≠ .next) = some a → a.Faithful r url linkFilter) :=
  ⟨read_law r s url heavyMode, readWithLinks_law_iff r s url linkFilter heavyMode⟩

end Ladder

/-- A reader with the shipped settings, for pages without links. -/
def plainReader : WebReader where
  validator := ⟨{}, fun _ => none⟩
  annotateLinks html _ _ := .ok (html, [])
  lower url := url

def plainPage : String := "a page of ten words that the validator will take"

/-- Every strategy is challenged, and NoVNC gives the page. -/
def challengedSession : Session where
  outcome _ name := if name = .novnc then .content plainPage else .challengeDetected
  elapsed _ := 0

/-- The page of NoVNC is reported under the name of the strategy that was challenged. -/
theorem page_under_other_name :
    (readWithLinks plainReader challengedSession "https://a.example" none false).answer =
        .success plainPage (some []) "1-beautifulsoup" ∧
      ¬LadderLaw plainReader challengedSession (linksAccepts plainReader "https://a.example" none)
        (selectStrategies plainReader "https://a.example" false)
        (readWithLinks plainReader challengedSession "https://a.example" none false) := by
  refine ⟨by decide, fun h => ?_⟩
  have hfirst := (readWithLinks_law_iff ..).mp h (.escalated .beautifulsoup (.content plainPage)) (by decide)
  rcases hfirst with hempty | ⟨content, links, hok, hmode⟩
  · exact absurd hempty (by decide)
  · obtain ⟨rfl, rfl⟩ := Prod.mk.inj (Except.ok.inj hok)
    exact absurd (hmode (by decide)) (by decide)

end AscendAI.WebSearch
