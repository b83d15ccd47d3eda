import AscendAI.WebSearch.ReaderLadder

/-!
# When NoVNC is offered

A check that finds the budget exceeded ends the ladder, and with it the tier that the check exempts. NoVNC
runs before an error answer when no such check is reached.
-/

namespace AscendAI.WebSearch

/-- A call that fails has invoked NoVNC. -/
def Call.OffersNovnc (call : Call) : Prop :=
  ∀ reason, call.answer = .failure reason → ∃ invocation ∈ call.invocations, invocation.tier = .novnc

/-- In front of each tier for which the time is over there is one whose outcome turns the ladder away: to
NoVNC, or to an end without an error answer. -/
def TurnsInTime (r : WebReader) (s : Session) (turns : Outcome → Prop) (tiers : List Tier) : Prop :=
  ∀ i name, tiers[i]? = some name → budgetExceeded r s i name = true →
    ∃ j < i, ∃ earlier, tiers[j]? = some earlier ∧ turns (s.outcome j earlier)

def readTurns (r : WebReader) : Outcome → Prop
  | .content text => r.validator.validate text = true
  | .challengeDetected => True
  | .humanIntervention _ => True
  | .failed => False

def linksTurns (r : WebReader) (url : String) (linkFilter : Option String) : Outcome → Prop
  | .content html => html ≠ "" ∧ ∀ content links,
      r.annotateLinks html url linkFilter = .ok (content, links) → r.validator.validate content = true
  | .challengeDetected => True
  | .humanIntervention _ => True
  | .failed => False

section Ladder

variable {r : WebReader} {s : Session} {turns : Outcome → Prop}

/-- One tier more in front, which does not turn the ladder away. -/
lemma turnsInTime_cons_iff {name : Tier} {tiers : List Tier} {k : ℕ} (hturns : ¬turns (s.outcome k name)) :
    (∀ i name', (name :: tiers)[i]? = some name' → budgetExceeded r s (k + i) name' = true →
        ∃ j < i, ∃ earlier, (name :: tiers)[j]? = some earlier ∧ turns (s.outcome (k + j) earlier)) ↔
      budgetExceeded r s k name ≠ true ∧
        ∀ i name', tiers[i]? = some name' → budgetExceeded r s (k + 1 + i) name' = true →
          ∃ j < i, ∃ earlier, tiers[j]? = some earlier ∧ turns (s.outcome (k + 1 + j) earlier) := by
  constructor
  · intro h
    constructor
    · intro hbudget
      obtain ⟨j, hj, -⟩ := h 0 name rfl hbudget
      exact absurd hj (Nat.not_lt_zero j)
    · intro i name' hname hbudget
      rw [Nat.add_right_comm k 1 i] at hbudget
      obtain ⟨j, hj, earlier, hearlier, hturn⟩ := h (i + 1) name' hname hbudget
      cases j with
      | zero =>
        obtain rfl := Option.some.inj hearlier
        exact absurd hturn hturns
      | succ j =>
        rw [← Nat.add_assoc, Nat.add_right_comm] at hturn
        exact ⟨j, Nat.lt_of_succ_lt_succ hj, earlier, hearlier, hturn⟩
  · rintro ⟨hfirst, hrest⟩ i name' hname hbudget
    cases i with
    | zero =>
      obtain rfl := Option.some.inj hname
      exact absurd hbudget hfirst
    | succ i =>
      rw [← Nat.add_assoc, Nat.add_right_comm] at hbudget
      obtain ⟨j, hj, earlier, hearlier, hturn⟩ := hrest i name' hname hbudget
      rw [Nat.add_right_comm k 1 j] at hturn
      exact ⟨j + 1, Nat.succ_lt_succ hj, earlier, hearlier, hturn⟩

/-- What a ladder needs of its rounds: they make the attempt that the outcomes prescribe, they never end in
an error answer, and the turns are the outcomes after which the ladder does not simply go on. -/
structure Rounds (r : WebReader) (s : Session) (turns : Outcome → Prop) (step : Attempt → Step)
    (round : Tier → List Invocation → List Invocation × Step) : Prop where
  attempt : ∀ name log, round name log =
    (log ++ (attemptAt s log.length name).invocations, step (attemptAt s log.length name))
  noFailure : ∀ a reason, step a ≠ .stop (.failure reason)
  challenge : turns .challengeDetected
  turns_iff : ∀ name outcome h, turns outcome ↔ step (.direct name outcome h) ≠ .next

variable {step : Attempt → Step} {round : Tier → List Invocation → List Invocation × Step}

/-- What a ladder has invoked stays in its call. -/
lemma Rounds.mem_climb (h : Rounds r s turns step round) (i : ℕ) (tiers : List Tier) {log : List Invocation}
    {invocation : Invocation} (hmem : invocation ∈ log) : invocation ∈ (climb r s round i log tiers).invocations := by
  obtain ⟨attempts, hmade⟩ := exists_made_climb h.attempt i log tiers
  rw [hmade.invocations]
  exact List.mem_append_left _ hmem

lemma offersNovnc_of_mem {call : Call} {outcome : Outcome} (h : ⟨.novnc, outcome⟩ ∈ call.invocations) :
    call.OffersNovnc :=
  fun _ _ => ⟨_, h, rfl⟩

lemma Rounds.offersNovnc_novnc (h : Rounds r s turns step round) (i : ℕ) (log : List Invocation) :
    (climb r s round i log [.novnc]).OffersNovnc := by
  have hbudget : ¬budgetExceeded r s i .novnc = true := by simp [budgetExceeded]
  have hmem : ∃ outcome, (⟨.novnc, outcome⟩ : Invocation) ∈
      log ++ (attemptAt s log.length .novnc).invocations := by
    cases hattempt : attemptAt s log.length .novnc with
    | direct tier outcome hne =>
      have htier : (attemptAt s log.length .novnc).tier = .novnc := by
        unfold attemptAt
        split <;> rfl
      rw [hattempt, Attempt.tier] at htier
      subst htier
      exact ⟨outcome, List.mem_append_right _ List.mem_cons_self⟩
    | escalated tier outcome => exact ⟨outcome, List.mem_append_right _ (by simp [Attempt.invocations])⟩
  obtain ⟨outcome, hmem⟩ := hmem
  rw [climb, if_neg hbudget, h.attempt]
  cases step (attemptAt s log.length .novnc) with
  | stop answer => exact offersNovnc_of_mem hmem
  | next => exact offersNovnc_of_mem hmem

/-- A challenge leads to NoVNC, and the other turns end the call without an error answer. -/
lemma Rounds.offersNovnc_of_turns (h : Rounds r s turns step round) {name : Tier} (tiers : List Tier)
    {log : List Invocation} (hbudget : ¬budgetExceeded r s log.length name = true)
    (hturns : turns (s.outcome log.length name)) :
    (climb r s round log.length log (name :: tiers)).OffersNovnc := by
  rw [climb, if_neg hbudget, h.attempt]
  by_cases hchallenge : s.outcome log.length name = .challengeDetected
  · rw [attemptAt_of_challenge s hchallenge]
    have hmem : (⟨.novnc, s.outcome (log.length + 1) .novnc⟩ : Invocation) ∈
        log ++ (Attempt.escalated name (s.outcome (log.length + 1) .novnc)).invocations :=
      List.mem_append_right _ (by simp [Attempt.invocations])
    cases step (.escalated name (s.outcome (log.length + 1) .novnc)) with
    | stop answer => exact offersNovnc_of_mem hmem
    | next => exact offersNovnc_of_mem (h.mem_climb _ _ hmem)
  · rw [attemptAt_of_unchallenged s hchallenge]
    cases hstep : step (.direct name (s.outcome log.length name) hchallenge) with
    | stop answer =>
      rintro reason rfl
      exact absurd hstep (h.noFailure _ reason)
    | next => exact absurd hstep ((h.turns_iff name _ hchallenge).mp hturns)

/-- A ladder that has not met a challenge yet offers NoVNC exactly when it turns in time. -/
lemma Rounds.offersNovnc_climb_iff (h : Rounds r s turns step round) {tiers : List Tier} (htiers : .novnc ∉ tiers)
    {log : List Invocation} (hlog : ∀ invocation ∈ log, invocation.tier ≠ .novnc) :
    (climb r s round log.length log (tiers ++ [.novnc])).OffersNovnc ↔
      ∀ i name, (tiers ++ [.novnc])[i]? = some name → budgetExceeded r s (log.length + i) name = true →
        ∃ j < i, ∃ earlier, (tiers ++ [.novnc])[j]? = some earlier ∧ turns (s.outcome (log.length + j) earlier) := by
  induction tiers generalizing log with
  | nil =>
    refine iff_of_true (h.offersNovnc_novnc _ log) fun i name hname hbudget => ?_
    have hnovnc : name = .novnc := List.mem_singleton.mp (List.mem_of_getElem? hname)
    rw [hnovnc] at hbudget
    simp [budgetExceeded] at hbudget
  | cons name tiers ih =>
    obtain ⟨hname, hrest⟩ := List.ne_and_not_mem_of_not_mem_cons htiers
    rw [List.cons_append]
    by_cases hbudget : budgetExceeded r s log.length name = true
    · -- The loop ends with an error answer, and no tier in front has called NoVNC.
      rw [climb, if_pos hbudget]
      apply iff_of_false
      · intro hoffers
        obtain ⟨invocation, hmem, htier⟩ := hoffers _ rfl
        exact hlog invocation hmem htier
      · intro hturns
        obtain ⟨j, hj, -⟩ := hturns 0 name rfl hbudget
        exact absurd hj (Nat.not_lt_zero j)
    by_cases hturns : turns (s.outcome log.length name)
    · have hright : ∀ i name', (name :: (tiers ++ [.novnc]))[i]? = some name' →
          budgetExceeded r s (log.length + i) name' = true → ∃ j < i, ∃ earlier,
            (name :: (tiers ++ [.novnc]))[j]? = some earlier ∧ turns (s.outcome (log.length + j) earlier) := by
        intro i name' hname' hbudget'
        cases i with
        | zero =>
          obtain rfl := Option.some.inj hname'
          exact absurd hbudget' hbudget
        | succ i => exact ⟨0, Nat.succ_pos i, name, rfl, hturns⟩
      exact iff_of_true (h.offersNovnc_of_turns (tiers ++ [.novnc]) hbudget hturns) hright
    · have hchallenge : s.outcome log.length name ≠ .challengeDetected := by
        intro hchallenge
        rw [hchallenge] at hturns
        exact hturns h.challenge
      have hstep : step (.direct name (s.outcome log.length name) hchallenge) = .next := by
        by_contra hstop
        exact hturns ((h.turns_iff name _ hchallenge).mpr hstop)
      have hlog' : ∀ invocation ∈ log ++ [⟨name, s.outcome log.length name⟩], invocation.tier ≠ .novnc := by
        rw [List.forall_mem_append, List.forall_mem_singleton]
        exact ⟨hlog, hname.symm⟩
      have hlength : (log ++ [(⟨name, s.outcome log.length name⟩ : Invocation)]).length = log.length + 1 :=
        List.length_append
      have hlater := ih hrest hlog'
      rw [hlength] at hlater
      rw [climb, if_neg hbudget, h.attempt, attemptAt_of_unchallenged s hchallenge, hstep,
        turnsInTime_cons_iff hturns, and_iff_right hbudget]
      exact hlater

/-- NoVNC is the last tier of every ladder. -/
lemma selectStrategies_eq (r : WebReader) (url : String) (heavyMode : Bool) :
    ∃ tiers, .novnc ∉ tiers ∧ selectStrategies r url heavyMode = tiers ++ [.novnc] := by
  unfold selectStrategies
  split_ifs
  · exact ⟨[], by decide, rfl⟩
  · exact ⟨[.playwrightStealth, .crawleeAdaptive], by decide, rfl⟩
  · exact ⟨[.beautifulsoup, .trafilatura, .flaresolverr, .playwrightStealth, .crawleeAdaptive], by decide, rfl⟩

lemma Rounds.offersNovnc_iff (h : Rounds r s turns step round) (url : String) (heavyMode : Bool) :
    (climb r s round 0 [] (selectStrategies r url heavyMode)).OffersNovnc ↔
      TurnsInTime r s turns (selectStrategies r url heavyMode) := by
  obtain ⟨tiers, htiers, hselect⟩ := selectStrategies_eq r url heavyMode
  have hlog : ∀ invocation ∈ ([] : List Invocation), invocation.tier ≠ .novnc :=
    fun _ hmem => absurd hmem List.not_mem_nil
  have hclimb := h.offersNovnc_climb_iff htiers hlog
  simp only [List.length_nil, Nat.zero_add] at hclimb
  rw [hselect, TurnsInTime]
  exact hclimb

variable (r s)

lemma rounds_read : Rounds r s (readTurns r) (readStep r) (readRound r s) := by
  refine ⟨readRound_eq r s, fun a reason h => ?_, trivial, fun name outcome h => ?_⟩
  · exact answersWith_of_readStep h
  · cases outcome with
    | content text => cases hvalid : r.validator.validate text <;> simp [readTurns, readStep, Attempt.outcome, hvalid]
    | challengeDetected => exact absurd rfl h
    | humanIntervention required => simp [readTurns, readStep, Attempt.outcome]
    | failed => simp [readTurns, readStep, Attempt.outcome]

lemma rounds_readWithLinks (url : String) (linkFilter : Option String) :
    Rounds r s (linksTurns r url linkFilter) (linksStep r url linkFilter) (readWithLinksRound r s url linkFilter) := by
  refine ⟨readWithLinksRound_eq r s url linkFilter, fun a reason h => ?_, trivial, fun name outcome h => ?_⟩
  · obtain ⟨required, -, hanswer⟩ | ⟨_, -, -, ⟨_, -, hanswer⟩ | ⟨_, _, -, -, hanswer⟩⟩ := linksStep_stop h
    · cases hanswer
    · cases hanswer
    · cases hanswer
  · cases outcome with
    | content html =>
      by_cases hempty : html = ""
      · simp [linksTurns, linksStep, Attempt.outcome, hempty]
      · cases hannotated : r.annotateLinks html url linkFilter with
        | error message => simp [linksTurns, linksStep, Attempt.outcome, hempty, hannotated]
        | ok annotated =>
          obtain ⟨content, links⟩ := annotated
          cases hvalid : r.validator.validate content <;>
            simp [linksTurns, linksStep, Attempt.outcome, hempty, hannotated, hvalid]
    | challengeDetected => exact absurd rfl h
    | humanIntervention required => simp [linksTurns, linksStep, Attempt.outcome]
    | failed => simp [linksTurns, linksStep, Attempt.outcome]

end Ladder

/-- Both ladders offer NoVNC before an error answer exactly when, in front of each tier for which the time is
over, an outcome has turned them away. -/
theorem novnc_offered_iff (r : WebReader) (s : Session) (url : String) (linkFilter : Option String)
    (heavyMode : Bool) :
    ((read r s url heavyMode).OffersNovnc ↔ TurnsInTime r s (readTurns r) (selectStrategies r url heavyMode)) ∧
      ((readWithLinks r s url linkFilter heavyMode).OffersNovnc ↔
        TurnsInTime r s (linksTurns r url linkFilter) (selectStrategies r url heavyMode)) :=
  ⟨(rounds_read r s).offersNovnc_iff url heavyMode,
    (rounds_readWithLinks r s url linkFilter).offersNovnc_iff url heavyMode⟩

/-- The first two tiers fail, and the second one takes until after the end of the budget. -/
def slowSession : Session where
  outcome _ _ := .failed
  elapsed i := if i < 2 then 0 else 91

/-- The third check ends both ladders, and nobody has been asked to help. -/
theorem slowSession_not_offered :
    ¬(read plainReader slowSession "https://a.example" false).OffersNovnc ∧
      ¬(readWithLinks plainReader slowSession "https://a.example" none false).OffersNovnc := by
  constructor
  · intro hoffers
    have hanswer : (read plainReader slowSession "https://a.example" false).answer = .failure "budget_exhausted" := by
      decide
    obtain ⟨invocation, hmem, htier⟩ := hoffers _ hanswer
    revert invocation
    decide
  · intro hoffers
    have hanswer : (readWithLinks plainReader slowSession "https://a.example" none false).answer =
        .failure "budget_exhausted" := by
      decide
    obtain ⟨invocation, hmem, htier⟩ := hoffers _ hanswer
    revert invocation
    decide

end AscendAI.WebSearch
