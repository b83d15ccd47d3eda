import AscendAI.WebSearch.ServedReads

/-!
# What the answers of the reader tell

A content comes from a page that the detector has let through, after visits that gave nothing. A call that meets a
challenge is handed to a human, and each call that is handed over leaves one monitor behind.
-/

namespace AscendAI.WebSearch
open Runs ProcessPool

section Answers

variable {x : ReadStrategies} {call : ReadCall} {mode : ReadMode} {url : String}

/-! ### The outcomes that pass a tier over -/

/-- The text of a visit is not accepted. -/
def ReadMode.Refuses (x : ReadStrategies) (mode : ReadMode) (url text : String) : Prop :=
  match mode with
  | .read => x.reader.validator.validate text = false
  | .withLinks linkFilter => text = "" ∨ ∃ content links,
      x.reader.annotateLinks text url linkFilter = .ok (content, links) ∧ x.reader.validator.validate content = false

/-- A visit that gave nothing, so that the ladder goes on to the next tier. -/
def Visit.PassedOver (x : ReadStrategies) (mode : ReadMode) (url : String) (visit : Visit) : Prop :=
  visit.outcome x mode url = .failed ∨
    ∃ text, visit.outcome x mode url = .content text ∧ mode.Refuses x url text

/-- What an answer tells about the visits of its call. -/
inductive ReadCall.Explains (x : ReadStrategies) (call : ReadCall) : Answer → Prop
  | read (front : List Visit) (visit : Visit) (html text : String) (hvisits : call.visits = front ++ [visit])
      (hfront : ∀ v ∈ front, v.PassedOver x call.mode call.url) (hmode : call.mode = .read)
      (hpage : visit.PagePasses x html) (htext : extractText x visit.tier html = .ok text)
      (hvalid : x.reader.validator.validate text = true) :
      Explains x call (.success text none visit.tier.name)
  | withLinks (front : List Visit) (visit : Visit) (html content : String) (links : LinkMap)
      (linkFilter : Option String) (hvisits : call.visits = front ++ [visit])
      (hfront : ∀ v ∈ front, v.PassedOver x call.mode call.url) (hmode : call.mode = .withLinks linkFilter)
      (hpage : visit.PagePasses x html)
      (hannotated : x.reader.annotateLinks html call.url linkFilter = .ok (content, links))
      (hvalid : x.reader.validator.validate content = true) :
      Explains x call (.success content (some links) visit.tier.name)
  | handedOver (front challenged : List Visit) (required : HumanInterventionRequired)
      (hvisits : call.visits = front ++ (challenged ++ [.novnc required]))
      (hfront : ∀ v ∈ front, v.PassedOver x call.mode call.url) (hone : challenged.length ≤ 1)
      (hchallenged : ∀ v ∈ challenged, v.outcome x call.mode call.url = .challengeDetected) :
      Explains x call (.humanIntervention required)
  | raised (front : List Visit) (visit : Visit) (html message : String) (linkFilter : Option String)
      (hvisits : call.visits = front ++ [visit]) (hfront : ∀ v ∈ front, v.PassedOver x call.mode call.url)
      (hmode : call.mode = .withLinks linkFilter) (hpage : visit.PagePasses x html)
      (hraised : x.reader.annotateLinks html call.url linkFilter = .error message) :
      Explains x call (.raised message)
  | failure (reason : String) (hvisits : ∀ v ∈ call.visits, v.PassedOver x call.mode call.url) :
      Explains x call (.failure reason)

/-! ### The strategy that hands over -/

lemma getHtml_human {visit : Visit} {required : HumanInterventionRequired}
    (h : getHtml x url visit = .humanIntervention required) : visit = .novnc required := by
  have hcurl : ∀ fetch, CurlCffiFetcher.fetchWithCurlCffi x fetch ≠ .humanIntervention required := by
    intro fetch
    unfold CurlCffiFetcher.fetchWithCurlCffi
    split
    · exact nofun
    · exact nofun
    · split
      · exact nofun
      split
      · exact nofun
      split
      · exact nofun
      · exact nofun
  cases visit with
  | beautifulsoup fetch => exact absurd h (hcurl fetch)
  | trafilatura fetch => exact absurd h (hcurl fetch)
  | flaresolverr reply =>
    simp only [getHtml, FlareSolverrStrategy.getHtml] at h
    split at h
    · cases h
    split at h
    · cases h
    · cases h
    split at h
    · cases h
    split at h
    · cases h
    split at h
    · cases h
    · cases h
  | playwright visit =>
    simp only [getHtml, PlaywrightStrategy.getHtml, PlaywrightStrategy.render] at h
    split at h
    · cases h
    split at h
    · cases h
    split at h
    · cases h
    split at h
    · rename_i hpolled
      rw [h] at hpolled
      exact (outcome_of_polled hpolled).elim nofun nofun
    split at h
    · cases h
    split at h
    · cases h
    · cases h
  | crawlee visit =>
    simp only [getHtml, CrawleeStrategy.getHtml] at h
    split at h
    · cases h
    split at h
    · cases h
    split at h
    · cases h
    · cases h
  | novnc required' =>
    cases h
    rfl

/-- Only NoVNC hands over, and it does nothing else. -/
lemma outcome_human_iff {visit : Visit} {required : HumanInterventionRequired} :
    visit.outcome x mode url = .humanIntervention required ↔ visit = .novnc required := by
  constructor
  · intro h
    cases mode with
    | read =>
      apply getHtml_human
      simp only [Visit.outcome, extract] at h
      split at h
      · split at h
        · cases h
        · cases h
      · exact h
    | withLinks linkFilter => exact getHtml_human h
  · intro h
    rw [h]
    cases mode with
    | read => rfl
    | withLinks linkFilter => rfl

lemma eq_novnc_of_tier {visit : Visit} (h : visit.tier = .novnc) : ∃ required, visit = .novnc required := by
  cases visit with
  | novnc required => exact ⟨required, rfl⟩
  | _ => cases h

lemma validate_empty (v : ContentValidator) : v.validate "" = false := rfl

/-! ### One visit -/

/-- What the visits of a call tell at its stage. -/
def ReadCall.Told (x : ReadStrategies) (call : ReadCall) : Prop :=
  match call.stage with
  | .choosing _ => ∀ v ∈ call.visits, v.PassedOver x call.mode call.url
  | .invoking _ false _ => ∀ v ∈ call.visits, v.PassedOver x call.mode call.url
  | .invoking _ true _ => ∃ front v, call.visits = front ++ [v] ∧
      (∀ v ∈ front, v.PassedOver x call.mode call.url) ∧ v.outcome x call.mode call.url = .challengeDetected
  | .requesting _ _ _ => ∀ v ∈ call.visits, v.PassedOver x call.mode call.url
  | .finished answer => call.Explains x answer

lemma forall_passedOver_concat {visits : List Visit} {visit : Visit} (h : ∀ v ∈ visits, v.PassedOver x mode url)
    (hvisit : visit.PassedOver x mode url) : ∀ v ∈ visits ++ [visit], v.PassedOver x mode url := by
  intro v hv
  rw [List.mem_append, List.mem_singleton] at hv
  exact hv.elim (h v) fun heq => heq ▸ hvisit

lemma told_of_choosing {tiers : List Tier} (hstage : call.stage = .choosing tiers)
    (h : ∀ v ∈ call.visits, v.PassedOver x call.mode call.url) : call.Told x := by
  unfold ReadCall.Told
  rw [hstage]
  exact h

lemma told_of_finished {answer : Answer} (hstage : call.stage = .finished answer) (h : call.Explains x answer) :
    call.Told x := by
  unfold ReadCall.Told
  rw [hstage]
  exact h

/-- A visit of the tier of the round that gives a text. -/
lemma told_content {name : Tier} {tiers : List Tier} {visit : Visit} {text : String} (htier : visit.tier = name)
    (h : ∀ v ∈ call.visits, v.PassedOver x call.mode call.url)
    (houtcome : visit.outcome x call.mode call.url = .content text) :
    (call.conclude x name false tiers visit).Told x := by
  have hstage : (call.conclude x name false tiers visit).stage =
      afterContent x call.mode call.url name tiers visit text := by
    simp only [ReadCall.conclude, afterVisit, houtcome]
  have hrefused : call.mode.Refuses x call.url text →
      (call.conclude x name false tiers visit).stage = .choosing tiers →
        (call.conclude x name false tiers visit).Told x := fun hrefuses hchoosing =>
    told_of_choosing hchoosing (forall_passedOver_concat h (.inr ⟨text, houtcome, hrefuses⟩))
  cases hmode : call.mode with
  | read =>
    rw [hmode] at hstage houtcome
    unfold afterContent at hstage
    dsimp only at hstage
    split at hstage
    · rename_i hvalid
      have hne : text ≠ "" := by
        intro hempty
        rw [hempty, validate_empty] at hvalid
        cases hvalid
      obtain ⟨html, hpage, htext⟩ := passes_of_extract houtcome hne
      exact told_of_finished hstage (.read call.visits visit html text rfl h hmode hpage htext hvalid)
    · rename_i hvalid
      apply hrefused _ hstage
      rw [hmode]
      exact Bool.eq_false_iff.mpr hvalid
  | withLinks linkFilter =>
    rw [hmode] at hstage houtcome
    unfold afterContent at hstage
    dsimp only at hstage
    split at hstage
    · rename_i hempty
      apply hrefused _ hstage
      rw [hmode]
      exact .inl hempty
    rename_i hne
    have hpage : visit.PagePasses x text := (passes_of_getHtml houtcome).resolve_left hne
    split at hstage
    · rename_i message hraised
      exact told_of_finished hstage (.raised call.visits visit text message linkFilter rfl h hmode hpage hraised)
    · rename_i content links hannotated
      split at hstage
      · rename_i hvalid
        rw [← htier] at hstage ⊢
        exact told_of_finished hstage
          (.withLinks call.visits visit text content links linkFilter rfl h hmode hpage hannotated hvalid)
      · rename_i hvalid
        apply hrefused _ hstage
        rw [hmode]
        exact .inr ⟨content, links, hannotated, Bool.eq_false_iff.mpr hvalid⟩

/-- A visit of the tier of the round. -/
lemma told_conclude {name : Tier} {tiers : List Tier} {visit : Visit} (htier : visit.tier = name)
    (h : ∀ v ∈ call.visits, v.PassedOver x call.mode call.url) :
    (call.conclude x name false tiers visit).Told x := by
  cases houtcome : visit.outcome x call.mode call.url with
  | content text => exact told_content htier h houtcome
  | challengeDetected =>
    have hstage : (call.conclude x name false tiers visit).stage = .invoking name true tiers := by
      simp only [ReadCall.conclude, afterVisit, houtcome, Bool.false_eq_true, if_false]
    unfold ReadCall.Told
    rw [hstage]
    exact ⟨call.visits, visit, rfl, h, houtcome⟩
  | humanIntervention required =>
    have hstage : (call.conclude x name false tiers visit).stage = .finished (.humanIntervention required) := by
      simp only [ReadCall.conclude, afterVisit, houtcome]
    obtain rfl := outcome_human_iff.mp houtcome
    apply told_of_finished hstage
    exact .handedOver call.visits [] required rfl h (Nat.zero_le 1) fun v hv => absurd hv List.not_mem_nil
  | failed =>
    have hstage : (call.conclude x name false tiers visit).stage = .choosing tiers := by
      simp only [ReadCall.conclude, afterVisit, houtcome]
    exact told_of_choosing hstage (forall_passedOver_concat h (.inl houtcome))

/-- The visit of NoVNC after a challenge. -/
lemma told_conclude_escalating {name : Tier} {tiers : List Tier} {visit : Visit} (htier : visit.tier = .novnc)
    (h : ∃ front v, call.visits = front ++ [v] ∧ (∀ v ∈ front, v.PassedOver x call.mode call.url) ∧
      v.outcome x call.mode call.url = .challengeDetected) :
    (call.conclude x name true tiers visit).Told x := by
  obtain ⟨required, rfl⟩ := eq_novnc_of_tier htier
  obtain ⟨front, v, hvisits, hfront, hchallenge⟩ := h
  have houtcome : (Visit.novnc required).outcome x call.mode call.url = .humanIntervention required :=
    outcome_human_iff.mpr rfl
  have hstage :
      (call.conclude x name true tiers (.novnc required)).stage = .finished (.humanIntervention required) := by
    simp only [ReadCall.conclude, afterVisit, houtcome]
  apply told_of_finished hstage
  refine .handedOver front [v] required ?_ hfront (Nat.le_refl 1) ?_
  · change call.visits ++ [.novnc required] = _
    rw [hvisits, List.append_assoc]
  · intro v' hv'
    rw [List.mem_singleton.mp hv']
    exact hchallenge

lemma ReadCall.Told.moved (h : call.Told x) {s : CookieStore} {outcome : ProcessPool.Outcome CookieStore ReadTask}
    (hmoved : call.Moved x s outcome) {call' : ReadCall} (hnext : outcome.next = .call call') : call'.Told x := by
  cases hmoved with
  | still =>
    cases hnext
    exact h
  | checked tiers hstage =>
    cases hnext
    unfold ReadCall.Told at h
    rw [hstage] at h
    cases tiers with
    | nil => exact .failure _ h
    | cons name tiers =>
      by_cases hover : name ≠ .novnc ∧ x.reader.readTotalBudget < s.now - call.startedAt
      · have hfinished : (call.check x s.now (name :: tiers)).stage = .finished (.failure "budget_exhausted") := by
          simp only [ReadCall.check, if_pos hover]
        exact told_of_finished hfinished (.failure _ h)
      · have hinvoking : (call.check x s.now (name :: tiers)).stage = .invoking name false tiers := by
          simp only [ReadCall.check, if_neg hover]
        unfold ReadCall.Told
        rw [hinvoking]
        exact h
  | asked curl session tiers hstage hsession =>
    cases hnext
    unfold ReadCall.Told at h
    rw [hstage] at h
    exact h
  | visited name escalating tiers visit reply hawaits htier hfetch =>
    cases hnext
    unfold ReadCall.Told at h
    obtain hstage | ⟨curl, session, hstage, rfl, rfl⟩ := hawaits
    · rw [hstage] at h
      cases escalating with
      | false => exact told_conclude htier h
      | true => exact told_conclude_escalating htier h
    · rw [hstage] at h
      exact told_conclude htier h

end Answers

end AscendAI.WebSearch
