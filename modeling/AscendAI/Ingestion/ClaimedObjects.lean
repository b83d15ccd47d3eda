import AscendAI.Ingestion.IngestionConvergence
import AscendAI.Ingestion.LoggedIngestion
import AscendAI.Lib.ActionLog

/-!
# What happens to a claimed object

The marker of an object belongs to the run that claimed it until that run ends its ingestion. A marker
that stays behind belongs to an ingestion that went through, or to a claim that was never answered.
-/

namespace AscendAI.Ingestion

open Runs ActionLog

/-- The action puts or removes the marker. -/
def IngestionAction.concerns : IngestionAction → String → Prop
  | .claimed key version, marker => buildMetadataKey key version = marker
  | .unanswered key version, marker => buildMetadataKey key version = marker
  | .removed key version, marker => buildMetadataKey key version = marker
  | .read _ _, _ => False
  | .deleted _ _, _ => False
  | .inserted _ _, _ => False

/-- Every removal is one of a marker that the same run claimed and nobody has touched since. -/
def OwnRemovals (log : List (ℕ × IngestionAction)) : Prop :=
  ∀ before i key version after, log = before ++ (i, .removed key version) :: after →
    ∃ since, Since IngestionAction.concerns before i (.claimed key version) (buildMetadataKey key version) since

def RunningIngestion.claim? (run : RunningIngestion) : Option Claim :=
  match run.phase with
  | .ingesting claim _ => some claim
  | _ => none

section

variable (svc : ManualIngestionService)

/-- What a run does to ingest an object: it reads a content, deletes the chunks of the object, and inserts
all chunks of the content. -/
def ingestionOf (key : String) (content : List UInt8) (collection : String) : List IngestionAction :=
  let chunks := chunksOf svc.extraction svc.settings key content
  .read key content ::
    if (documents svc.extraction svc.settings key content).isEmpty then []
    else .deleted collection chunks :: chunks.map (.inserted collection)

/-- The last to touch the marker was a run that claimed it and then ingested its object. -/
def LeftByIngestion (log : List (ℕ × IngestionAction)) (marker : String) : Prop :=
  ∃ i key version content collection since, buildMetadataKey key version = marker ∧
    Since IngestionAction.concerns log i (.claimed key version) marker since ∧
    ingestionOf svc key content collection <+: since

/-- The stores are as the log says, and the removals are of own markers; two runs are never at the same object
in the same version; and where no run is in flight, a marker is one that an ingestion left which went through. -/
structure ClaimsReleased (stores : String → List Document) (pool : IngestionPool) : Prop where
  recorded : Recorded stores pool
  ownRemovals : OwnRemovals pool.shared.log
  exclusive : ∀ (i j : ℕ) (run run' : RunningIngestion) (claim claim' : Claim),
    pool.procs[i]? = some run → pool.procs[j]? = some run' → run.claim? = some claim →
    run'.claim? = some claim' → claim.key = claim'.key → claim.version = claim'.version → i = j
  left : (∀ run ∈ pool.procs, run.phase = .finished) →
    ∀ marker ∈ pool.shared.state.markers, LeftByIngestion svc pool.shared.log marker

/-- What a run has done with its object when it has come so far, and how its counter stands. -/
def Progress.Reached (claim : Claim) (failed : ℕ) (since : List IngestionAction) : Progress → Prop
  | .reading => failed = claim.failedBefore ∧ since = []
  | .extracting content => failed = claim.failedBefore ∧ since = [.read claim.key content]
  | .deleting chunks => failed = claim.failedBefore ∧ ∃ content,
    (documents svc.extraction svc.settings claim.key content).isEmpty = false ∧
      chunks = chunksOf svc.extraction svc.settings claim.key content ∧ since = [.read claim.key content]
  | .inserting collection chunks next => failed = claim.failedBefore ∧ ∃ content,
    (documents svc.extraction svc.settings claim.key content).isEmpty = false ∧
      chunks = chunksOf svc.extraction svc.settings claim.key content ∧
        since = .read claim.key content :: .deleted collection chunks ::
          (chunks.take next).map (.inserted collection)
  | .closing => failed = claim.failedBefore ∧ ∃ content collection,
    since = ingestionOf svc claim.key content collection
  | .ended threw => threw = true ∨ failed > claim.failedBefore ∨ ∃ content collection,
    since = ingestionOf svc claim.key content collection

/-- What a step of a run can be. -/
inductive Moves (s : IngestionState) (run : RunningIngestion) : Move → Prop
  | outside {next} : run.claim? = none → next.claim? = none → Moves s run ⟨s, next, none⟩
  | claimed {next} (claim : Claim) : run.claim? = none → claim.marker ∉ s.markers →
    next.phase = .ingesting claim .reading → next.result.failed = claim.failedBefore →
    Moves s run ⟨{ s with markers := claim.marker :: s.markers }, next,
      some (.claimed claim.key claim.version)⟩
  | unanswered {next} (claim : Claim) : run.claim? = none → claim.marker ∉ s.markers → next.claim? = none →
    Moves s run ⟨{ s with markers := claim.marker :: s.markers }, next,
      some (.unanswered claim.key claim.version)⟩
  | inside {s' next action} (claim : Claim) (progress progress' : Progress) :
    run.phase = .ingesting claim progress → next.phase = .ingesting claim progress' →
    s'.markers = s.markers → (∀ a ∈ action, ∀ marker, ¬a.concerns marker) →
    (∀ since, progress.Reached svc claim run.result.failed since →
      progress'.Reached svc claim next.result.failed (since ++ action.toList)) →
    Moves s run ⟨s', next, action⟩
  | kept {next} (claim : Claim) (progress : Progress) : run.phase = .ingesting claim progress →
    next.claim? = none → (∀ since, progress.Reached svc claim run.result.failed since →
      ∃ content collection, since = ingestionOf svc claim.key content collection) →
    Moves s run ⟨s, next, none⟩
  | removed {next} (claim : Claim) (progress : Progress) : run.phase = .ingesting claim progress →
    next.claim? = none →
    Moves s run ⟨{ s with markers := s.markers.filter (· ≠ claim.marker) }, next,
      some (.removed claim.key claim.version)⟩

end

variable {svc : ManualIngestionService} {s : IngestionState} {run : RunningIngestion}

lemma not_concerns_read (key : String) (content : List UInt8) (marker : String) :
    ¬(IngestionAction.read key content).concerns marker := id

lemma not_concerns_deleted (collection : String) (chunks : List Document) (marker : String) :
    ¬(IngestionAction.deleted collection chunks).concerns marker := id

lemma not_concerns_inserted (collection : String) (chunk : Document) (marker : String) :
    ¬(IngestionAction.inserted collection chunk).concerns marker := id

lemma moves_nextObject (failure : Option StepFailure) (hphase : run.phase = .listing) :
    Moves svc s run (nextObject svc failure s run) := by
  have hclaim : run.claim? = none := by rw [RunningIngestion.claim?, hphase]
  obtain ⟨next, hnext, hstays | hends, -⟩ | ⟨claim, next, hnext, -, hmarker, hreading, hfailed⟩ |
    ⟨e, claim, next, hnext, -, -, -, hmarker, hends⟩ := nextObject_cases svc failure s run
  · rw [hnext]
    exact .outside hclaim (by rw [RunningIngestion.claim?, hstays, hphase])
  · rw [hnext]
    exact .outside hclaim (by rw [RunningIngestion.claim?, hends])
  · rw [hnext]
    exact .claimed claim hclaim hmarker hreading hfailed
  · rw [hnext]
    exact .unanswered claim hclaim hmarker (by rw [RunningIngestion.claim?, hends])

/-- An exception in the `try` block is one that counts or leaves the method, whatever the call that threw it
has done. -/
lemma moves_throw {claim : Claim} {progress : Progress} (hphase : run.phase = .ingesting claim progress)
    (hfailed : ∀ since, progress.Reached svc claim run.result.failed since →
      run.result.failed = claim.failedBefore) (e : ThrownException) {s' : IngestionState}
    {action : Option IngestionAction} (hmarkers : s'.markers = s.markers)
    (hquiet : ∀ a ∈ action, ∀ marker, ¬a.concerns marker) :
    Moves svc s run ⟨s', run.throw claim e, action⟩ := by
  cases e with
  | ingestion =>
    refine .inside claim progress (.ended false) hphase rfl hmarkers hquiet ?_
    intro since hreached
    have hequal := hfailed since hreached
    exact .inr (.inl (by simp only [RunningIngestion.throw]; omega))
  | io => exact .inside claim progress (.ended true) hphase rfl hmarkers hquiet fun _ _ => .inl rfl
  | runtime => exact .inside claim progress (.ended true) hphase rfl hmarkers hquiet fun _ _ => .inl rfl

lemma moves_callStore (failure : Option StepFailure) {claim : Claim} {progress : Progress} (progress' : Progress)
    {s' : IngestionState} {action : IngestionAction} {next : RunningIngestion}
    (hphase : run.phase = .ingesting claim progress)
    (hfailed : ∀ since, progress.Reached svc claim run.result.failed since →
      run.result.failed = claim.failedBefore)
    (hmarkers : s'.markers = s.markers) (haction : ∀ marker, ¬action.concerns marker)
    (hphase' : next.phase = .ingesting claim progress')
    (hreached : ∀ since, progress.Reached svc claim run.result.failed since →
      progress'.Reached svc claim next.result.failed (since ++ [action])) :
    Moves svc s run (callStore failure s run claim s' action next) := by
  have hquiet : ∀ a ∈ some action, ∀ marker, ¬a.concerns marker := by
    rintro _ ⟨⟩
    exact haction
  unfold callStore
  split
  · exact .inside claim progress progress' hphase hphase' hmarkers hquiet hreached
  · split
    · exact moves_throw hphase hfailed _ hmarkers hquiet
    · exact moves_throw hphase hfailed _ rfl fun _ h => (Option.not_mem_none _ h).elim

lemma moves_ingestStep (failure : Option StepFailure) {claim : Claim} {progress : Progress}
    (hphase : run.phase = .ingesting claim progress) :
    Moves svc s run (ingestStep svc failure s run claim progress) := by
  have hquiet : ∀ a ∈ (none : Option IngestionAction), ∀ marker, ¬a.concerns marker :=
    fun _ h => (Option.not_mem_none _ h).elim
  unfold ingestStep
  cases progress with
  | reading =>
    dsimp only
    split
    · exact moves_throw hphase (fun _ h => h.1) _ rfl hquiet
    · exact moves_throw hphase (fun _ h => h.1) _ rfl hquiet
    · rename_i object _
      refine .inside claim .reading (.extracting object.content) hphase rfl rfl ?_ ?_
      · rintro _ ⟨⟩
        exact not_concerns_read _ _
      · rintro since ⟨hfailed, rfl⟩
        exact ⟨hfailed, rfl⟩
  | extracting content =>
    dsimp only
    split
    · exact moves_throw hphase (fun _ h => h.1) _ rfl hquiet
    · split
      · rename_i hempty
        refine .inside claim (.extracting content) .closing hphase rfl rfl hquiet ?_
        rintro since ⟨hfailed, rfl⟩
        refine ⟨hfailed, content, "", ?_⟩
        rw [ingestionOf, if_pos hempty]
        rfl
      · rename_i hdocuments
        refine .inside claim (.extracting content) (.deleting _) hphase rfl rfl hquiet ?_
        rintro since ⟨hfailed, rfl⟩
        exact ⟨hfailed, content, Bool.eq_false_iff.mpr hdocuments, by rw [chunksOf, if_neg hdocuments], rfl⟩
  | deleting chunks =>
    dsimp only
    split
    · exact moves_throw hphase (fun _ h => h.1) _ rfl hquiet
    · rename_i collection _
      refine moves_callStore failure (.inserting collection chunks 0) hphase (fun _ h => h.1) rfl
        (not_concerns_deleted _ _) rfl ?_
      rintro since ⟨hfailed, content, hdocuments, hchunks, rfl⟩
      exact ⟨hfailed, content, hdocuments, hchunks, rfl⟩
  | inserting collection chunks next =>
    dsimp only
    split
    · rename_i hend
      refine .inside claim (.inserting collection chunks next) .closing hphase rfl rfl hquiet ?_
      rintro since ⟨hfailed, content, hdocuments, rfl, rfl⟩
      refine ⟨hfailed, content, collection, ?_⟩
      rw [List.take_of_length_le (List.getElem?_eq_none_iff.mp hend), ingestionOf, hdocuments,
        if_neg Bool.false_ne_true]
      exact List.append_nil _
    · rename_i chunk hchunk
      refine moves_callStore failure (.inserting collection chunks (next + 1)) hphase (fun _ h => h.1)
        rfl (not_concerns_inserted _ _) rfl ?_
      rintro since ⟨hfailed, content, hdocuments, hchunks, rfl⟩
      refine ⟨hfailed, content, hdocuments, hchunks, ?_⟩
      rw [List.take_add_one, hchunk, List.map_append]
      rfl
  | closing =>
    dsimp only
    split
    · exact moves_throw hphase (fun _ h => h.1) _ rfl hquiet
    · refine .inside claim .closing (.ended false) hphase rfl rfl hquiet ?_
      rintro since ⟨hfailed, hdone⟩
      rw [Option.toList_none, List.append_nil]
      exact .inr (.inr hdone)
  | ended threw =>
    dsimp only
    have hnext : (if threw then run.finish else { run with phase := .listing }).claim? = none := by
      cases threw with
      | true => rfl
      | false => rfl
    split
    · exact .removed claim (.ended threw) hphase hnext
    · rename_i hkept
      refine .kept claim (.ended threw) hphase hnext fun since hreached => ?_
      simp only [gt_iff_lt, Bool.or_eq_true, decide_eq_true_eq, not_or] at hkept
      exact (hreached.resolve_left hkept.1).resolve_left hkept.2

theorem moves_nextMove (svc : ManualIngestionService) (failure : Option StepFailure) (s : IngestionState)
    (run : RunningIngestion) : Moves svc s run (nextMove svc failure s run) := by
  unfold nextMove
  split
  · exact moves_nextObject failure ‹_›
  · exact moves_ingestStep failure ‹_›
  · rename_i hphase
    have hclaim : run.claim? = none := by rw [RunningIngestion.claim?, hphase]
    exact .outside hclaim hclaim

/-! ### All runs -/

/-- The last to touch the marker was a claim that was never answered. -/
def LostClaim (log : List (ℕ × IngestionAction)) (marker : String) : Prop :=
  ∃ i key version since, buildMetadataKey key version = marker ∧
    Since IngestionAction.concerns log i (.unanswered key version) marker since

/-- No run is at the object of the marker any more. -/
def Settled (svc : ManualIngestionService) (log : List (ℕ × IngestionAction)) (marker : String) : Prop :=
  LeftByIngestion svc log marker ∨ LostClaim log marker

/-- The invariant: a run at an object has its marker, has done what its place in the code says since it
claimed the object, and has the marker for itself. Every other marker is settled, and a claim that was never
answered keeps its marker. -/
structure Claimed (svc : ManualIngestionService) (pool : IngestionPool) : Prop where
  ownRemovals : OwnRemovals pool.shared.log
  held : ∀ (i : ℕ) (run : RunningIngestion) (claim : Claim) (progress : Progress),
    pool.procs[i]? = some run → run.phase = .ingesting claim progress →
    claim.marker ∈ pool.shared.state.markers ∧ ∃ since,
      Since IngestionAction.concerns pool.shared.log i (.claimed claim.key claim.version) claim.marker since ∧
        progress.Reached svc claim run.result.failed since
  apart : ∀ (i j : ℕ) (run run' : RunningIngestion) (claim claim' : Claim),
    pool.procs[i]? = some run → pool.procs[j]? = some run' → run.claim? = some claim →
    run'.claim? = some claim' → claim.marker = claim'.marker → i = j
  covered : ∀ marker ∈ pool.shared.state.markers,
    (∃ (i : ℕ) (run : RunningIngestion) (claim : Claim), pool.procs[i]? = some run ∧
      run.claim? = some claim ∧ claim.marker = marker) ∨ Settled svc pool.shared.log marker
  lost : ∀ entry ∈ pool.shared.log, ∀ key version, entry.2 = .unanswered key version →
    buildMetadataKey key version ∈ pool.shared.state.markers ∧
      LostClaim pool.shared.log (buildMetadataKey key version)

lemma claim?_eq_some_iff {claim : Claim} :
    run.claim? = some claim ↔ ∃ progress, run.phase = .ingesting claim progress := by
  rw [RunningIngestion.claim?]
  cases run.phase with
  | ingesting claim' progress => simp
  | listing => simp
  | finished => simp

lemma LeftByIngestion.append {log : List (ℕ × IngestionAction)} {marker : String}
    (h : LeftByIngestion svc log marker) (i : ℕ) {action : IngestionAction} (haction : ¬action.concerns marker) :
    LeftByIngestion svc (log ++ [(i, action)]) marker := by
  obtain ⟨j, key, version, content, collection, since, hmarker, hsince, hprefix⟩ := h
  obtain ⟨since', hlonger, hsince'⟩ := hsince.append (j := i) haction
  exact ⟨j, key, version, content, collection, since', hmarker, hsince', hprefix.trans hlonger⟩

lemma LostClaim.append {log : List (ℕ × IngestionAction)} {marker : String} (h : LostClaim log marker) (i : ℕ)
    {action : IngestionAction} (haction : ¬action.concerns marker) : LostClaim (log ++ [(i, action)]) marker := by
  obtain ⟨j, key, version, since, hmarker, hsince⟩ := h
  obtain ⟨since', -, hsince'⟩ := hsince.append (j := i) haction
  exact ⟨j, key, version, since', hmarker, hsince'⟩

lemma Settled.append {log : List (ℕ × IngestionAction)} {marker : String} (h : Settled svc log marker) (i : ℕ)
    {action : IngestionAction} (haction : ¬action.concerns marker) : Settled svc (log ++ [(i, action)]) marker :=
  h.imp (fun hleft => hleft.append i haction) fun hlost => hlost.append i haction

/-- Who claimed the marker and got the answer has not lost the claim. -/
lemma not_lostClaim {log : List (ℕ × IngestionAction)} {i : ℕ} {key version : String} {since : List IngestionAction}
    (h : Since IngestionAction.concerns log i (.claimed key version) (buildMetadataKey key version) since) :
    ¬LostClaim log (buildMetadataKey key version) := by
  rintro ⟨j, key', version', since', hmarker, hsince⟩
  cases (h.unique hsince rfl hmarker).2.1

theorem Claimed.claimsReleased {pool : IngestionPool} (h : Claimed svc pool) {stores : String → List Document}
    (hrecorded : Recorded stores pool) (hanswered : AllAnswered pool) : ClaimsReleased svc stores pool := by
  refine ⟨hrecorded, h.ownRemovals, ?_, fun hfinished marker hmarker => ?_⟩
  · intro i j run run' claim claim' hi hj hrun hrun' hkey hversion
    refine h.apart i j run run' claim claim' hi hj hrun hrun' ?_
    rw [Claim.marker, Claim.marker, hkey, hversion]
  · rcases h.covered marker hmarker with ⟨i, run, claim, hi, hrun, -⟩ | hleft | ⟨i, key, version, since, -, hsince⟩
    · rw [RunningIngestion.claim?, hfinished run (List.mem_of_getElem? hi)] at hrun
      cases hrun
    · exact hleft
    · cases hanswered _ hsince.mem

/-- A claim that was never answered has left a marker that no ingestion left. -/
theorem Claimed.allAnswered {pool : IngestionPool} (h : Claimed svc pool)
    (hleft : ∀ marker ∈ pool.shared.state.markers, LeftByIngestion svc pool.shared.log marker) :
    AllAnswered pool := by
  rintro ⟨i, action⟩ hentry
  cases action with
  | unanswered key version =>
    obtain ⟨hmarker, hlost⟩ := h.lost _ hentry key version rfl
    obtain ⟨j, key', version', content, collection, since, heq, hsince, -⟩ := hleft _ hmarker
    rw [← heq] at hsince hlost
    exact absurd hlost (not_lostClaim hsince)
  | _ => rfl

lemma OwnRemovals.append {log : List (ℕ × IngestionAction)} (h : OwnRemovals log) {i : ℕ}
    {action : IngestionAction} (haction : ∀ key version, action = .removed key version → ∃ since,
      Since IngestionAction.concerns log i (.claimed key version) (buildMetadataKey key version) since) :
    OwnRemovals (log ++ [(i, action)]) := by
  intro before j key version after heq
  rcases List.eq_nil_or_concat after with rfl | ⟨after', entry, rfl⟩
  · obtain ⟨rfl, hentry⟩ := List.append_inj' heq rfl
    obtain ⟨rfl, rfl⟩ := Prod.mk.inj (List.cons.inj hentry).1
    exact haction key version rfl
  · rw [List.concat_eq_append, ← List.cons_append, ← List.append_assoc] at heq
    exact h before j key version after' (List.append_inj' heq rfl).1

section Step

variable {pool pool' : IngestionPool} {i : ℕ} {next : RunningIngestion} {action : Option IngestionAction}

/-- The other runs do not notice a step, as long as their markers stay and are not touched. -/
lemma Claimed.of_step (h : Claimed svc pool)
    (hprocs : ∀ j, pool'.procs[j]? = if j = i then some next else pool.procs[j]?)
    (hlog : pool'.shared.log = pool.shared.log ++ action.toList.map fun action => (i, action))
    (hown : OwnRemovals pool'.shared.log)
    (hothers : ∀ (j : ℕ) (run' : RunningIngestion) (claim' : Claim), j ≠ i → pool.procs[j]? = some run' →
      run'.claim? = some claim' → claim'.marker ∈ pool'.shared.state.markers ∧
        (∀ a ∈ action, ¬a.concerns claim'.marker) ∧
        ∀ claim, next.claim? = some claim → claim.marker ≠ claim'.marker)
    (hself : ∀ claim progress, next.phase = .ingesting claim progress →
      claim.marker ∈ pool'.shared.state.markers ∧ ∃ since,
        Since IngestionAction.concerns pool'.shared.log i (.claimed claim.key claim.version) claim.marker since ∧
          progress.Reached svc claim next.result.failed since)
    (hcovered : ∀ marker ∈ pool'.shared.state.markers,
      (∃ claim, next.claim? = some claim ∧ claim.marker = marker) ∨
        (∃ (j : ℕ) (run' : RunningIngestion) (claim' : Claim), j ≠ i ∧ pool.procs[j]? = some run' ∧
          run'.claim? = some claim' ∧ claim'.marker = marker) ∨ Settled svc pool'.shared.log marker)
    (hlost : ∀ marker ∈ pool.shared.state.markers, LostClaim pool.shared.log marker →
      marker ∈ pool'.shared.state.markers ∧ ∀ a ∈ action, ¬a.concerns marker)
    (hnew : ∀ key version, action = some (.unanswered key version) →
      buildMetadataKey key version ∈ pool'.shared.state.markers) :
    Claimed svc pool' := by
  have hself? : pool'.procs[i]? = some next := by rw [hprocs, if_pos rfl]
  have hother? : ∀ {j}, j ≠ i → pool'.procs[j]? = pool.procs[j]? := fun hj => by rw [hprocs, if_neg hj]
  refine ⟨hown, ?_, ?_, ?_, ?_⟩
  · intro j run' claim' progress' hj hphase
    by_cases hji : j = i
    · subst hji
      obtain rfl := Option.some.inj (hself?.symm.trans hj)
      exact hself claim' progress' hphase
    · rw [hother? hji] at hj
      have hclaim' := claim?_eq_some_iff.mpr ⟨progress', hphase⟩
      obtain ⟨hmarker, hquiet, -⟩ := hothers j run' claim' hji hj hclaim'
      obtain ⟨-, since, hsince, hreached⟩ := h.held j run' claim' progress' hj hphase
      refine ⟨hmarker, since, ?_, hreached⟩
      rw [hlog]
      exact append_toList (P := fun log => Since _ log j _ _ since) hsince i
        fun a ha => hsince.append_other (Ne.symm hji) (hquiet a ha)
  · intro j k run' run'' claim' claim'' hj hk hclaim' hclaim'' hmarker
    by_cases hji : j = i
    · by_cases hki : k = i
      · rw [hji, hki]
      · subst hji
        obtain rfl := Option.some.inj (hself?.symm.trans hj)
        rw [hother? hki] at hk
        exact absurd hmarker ((hothers k run'' claim'' hki hk hclaim'').2.2 claim' hclaim')
    · rw [hother? hji] at hj
      by_cases hki : k = i
      · subst hki
        obtain rfl := Option.some.inj (hself?.symm.trans hk)
        exact absurd hmarker.symm ((hothers j run' claim' hji hj hclaim').2.2 claim'' hclaim'')
      · rw [hother? hki] at hk
        exact h.apart j k run' run'' claim' claim'' hj hk hclaim' hclaim'' hmarker
  · intro marker hmarker
    rcases hcovered marker hmarker with ⟨claim, hclaim, heq⟩ | ⟨j, run', claim', hji, hj, hclaim', heq⟩ | hleft
    · exact .inl ⟨i, next, claim, hself?, hclaim, heq⟩
    · exact .inl ⟨j, run', claim', by rw [hother? hji, hj], hclaim', heq⟩
    · exact .inr hleft
  · intro entry hentry key version heq
    rw [hlog, List.mem_append] at hentry
    rcases hentry with hold | hentry
    · obtain ⟨hmarker, hclaim⟩ := h.lost entry hold key version heq
      obtain ⟨hkept, hquiet⟩ := hlost _ hmarker hclaim
      refine ⟨hkept, ?_⟩
      rw [hlog]
      exact append_toList (P := fun log => LostClaim log _) hclaim i fun a ha => hclaim.append i (hquiet a ha)
    · obtain ⟨a, ha, rfl⟩ := List.mem_map.mp hentry
      obtain rfl : a = .unanswered key version := heq
      rw [Option.mem_toList] at ha
      refine ⟨hnew key version ha, i, key, version, [], rfl, ?_⟩
      rw [hlog, ha]
      exact since_append_self _ _ _ _

/-- The marker of another run is there, and it is not the one of this run. -/
lemma Claimed.other_marker (h : Claimed svc pool) (hi : pool.procs[i]? = some run) {j : ℕ} (hji : j ≠ i)
    {run' : RunningIngestion} {claim' : Claim} (hj : pool.procs[j]? = some run')
    (hclaim' : run'.claim? = some claim') : claim'.marker ∈ pool.shared.state.markers ∧
      ∀ claim, run.claim? = some claim → claim.marker ≠ claim'.marker := by
  obtain ⟨progress', hphase'⟩ := claim?_eq_some_iff.mp hclaim'
  refine ⟨(h.held j run' claim' progress' hj hphase').1, fun claim hclaim heq => ?_⟩
  exact hji (h.apart i j run run' claim claim' hi hj hclaim hclaim' heq).symm

/-- Who has a marker: this run, another one, or nobody. -/
lemma Claimed.holder (h : Claimed svc pool) (hi : pool.procs[i]? = some run) {marker : String}
    (hmarker : marker ∈ pool.shared.state.markers) :
    (∃ claim, run.claim? = some claim ∧ claim.marker = marker) ∨
      (∃ (j : ℕ) (run' : RunningIngestion) (claim' : Claim), j ≠ i ∧ pool.procs[j]? = some run' ∧
        run'.claim? = some claim' ∧ claim'.marker = marker) ∨
        Settled svc pool.shared.log marker := by
  rcases h.covered marker hmarker with ⟨j, run', claim', hj, hclaim', heq⟩ | hleft
  · by_cases hji : j = i
    · subst hji
      obtain rfl := Option.some.inj (hi.symm.trans hj)
      exact .inl ⟨claim', hclaim', heq⟩
    · exact .inr (.inl ⟨j, run', claim', hji, hj, hclaim', heq⟩)
  · exact .inr (.inr hleft)

lemma not_ingesting_of_claim? (h : next.claim? = none) (claim : Claim) (progress : Progress) :
    next.phase ≠ .ingesting claim progress := by
  intro hphase
  rw [claim?_eq_some_iff.mpr ⟨progress, hphase⟩] at h
  cases h

/-- The run does not touch the marker of a claim that was never answered. -/
lemma Claimed.marker_ne_lost (h : Claimed svc pool) (hi : pool.procs[i]? = some run) {claim : Claim}
    (hrun : run.claim? = some claim) {marker : String} (hlost : LostClaim pool.shared.log marker) :
    claim.marker ≠ marker := by
  rintro rfl
  obtain ⟨progress, hphase⟩ := claim?_eq_some_iff.mp hrun
  obtain ⟨-, since, hsince, -⟩ := h.held i run claim progress hi hphase
  exact not_lostClaim hsince hlost

/-- The run is at no object any more, and a marker that it leaves behind is left by an ingestion. -/
lemma Claimed.of_leaving (h : Claimed svc pool) (hi : pool.procs[i]? = some run)
    (hprocs : ∀ j, pool'.procs[j]? = if j = i then some next else pool.procs[j]?)
    (hmarkers : pool'.shared.state.markers = pool.shared.state.markers)
    (hlog : pool'.shared.log = pool.shared.log) (hnext : next.claim? = none)
    (hleft : ∀ claim, run.claim? = some claim → LeftByIngestion svc pool.shared.log claim.marker) :
    Claimed svc pool' := by
  have hlog' : pool'.shared.log =
      pool.shared.log ++ (none : Option IngestionAction).toList.map fun action => (i, action) :=
    hlog.trans (List.append_nil _).symm
  refine h.of_step hprocs hlog' (hlog ▸ h.ownRemovals) ?_ ?_ ?_ ?_ fun _ _ heq => by cases heq
  · intro j run' claim' hji hj hclaim'
    obtain ⟨hmarker, -⟩ := h.other_marker hi hji hj hclaim'
    rw [hmarkers, hnext]
    exact ⟨hmarker, fun _ ha => (Option.not_mem_none _ ha).elim, fun _ hclaim => by cases hclaim⟩
  · exact fun claim progress hphase => absurd hphase (not_ingesting_of_claim? hnext claim progress)
  · intro marker hmarker
    rw [hmarkers] at hmarker
    rw [hlog]
    rcases h.holder hi hmarker with ⟨claim, hclaim, rfl⟩ | hother
    · exact .inr (.inr (.inl (hleft claim hclaim)))
    · exact .inr hother
  · intro marker hmarker _
    rw [hmarkers]
    exact ⟨hmarker, fun _ ha => (Option.not_mem_none _ ha).elim⟩

/-- The run puts a marker that nobody has, and goes on with the object or has lost its claim. -/
lemma Claimed.of_putting (h : Claimed svc pool) (hi : pool.procs[i]? = some run)
    (hprocs : ∀ j, pool'.procs[j]? = if j = i then some next else pool.procs[j]?) {claim : Claim}
    {action : IngestionAction} (hmarkers : pool'.shared.state.markers = claim.marker :: pool.shared.state.markers)
    (hlog : pool'.shared.log = pool.shared.log ++ [(i, action)])
    (hrun : run.claim? = none) (hfree : claim.marker ∉ pool.shared.state.markers)
    (hput : action = .claimed claim.key claim.version ∧ next.phase = .ingesting claim .reading ∧
        next.result.failed = claim.failedBefore ∨
      action = .unanswered claim.key claim.version ∧ next.claim? = none) : Claimed svc pool' := by
  have hapart : ∀ marker ∈ pool.shared.state.markers, claim.marker ≠ marker := by
    rintro marker hmarker rfl
    exact hfree hmarker
  have hquiet : ∀ marker ∈ pool.shared.state.markers, ¬action.concerns marker := by
    intro marker hmarker
    obtain ⟨rfl, -⟩ | ⟨rfl, -⟩ := hput
    · exact hapart marker hmarker
    · exact hapart marker hmarker
  have hnext : ∀ claim', next.claim? = some claim' → claim' = claim := by
    intro claim' hclaim'
    obtain ⟨-, hphase, -⟩ | ⟨-, hnone⟩ := hput
    · rw [claim?_eq_some_iff.mpr ⟨.reading, hphase⟩] at hclaim'
      exact (Option.some.inj hclaim').symm
    · rw [hnone] at hclaim'
      cases hclaim'
  have hlog' : pool'.shared.log = pool.shared.log ++ (some action).toList.map fun action => (i, action) := hlog
  refine h.of_step hprocs hlog' ?_ ?_ ?_ ?_ ?_ ?_
  · rw [hlog]
    refine h.ownRemovals.append fun key version heq => ?_
    obtain ⟨rfl, -⟩ | ⟨rfl, -⟩ := hput
    · cases heq
    · cases heq
  · intro j run' claim' hji hj hclaim'
    obtain ⟨hmarker, -⟩ := h.other_marker hi hji hj hclaim'
    rw [hmarkers]
    refine ⟨List.mem_cons_of_mem _ hmarker, ?_, fun claim'' hclaim'' => ?_⟩
    · rintro _ ⟨⟩
      exact hquiet _ hmarker
    · rw [hnext claim'' hclaim'']
      exact hapart _ hmarker
  · intro claim' progress' hphase'
    obtain ⟨rfl, hphase, hfailed⟩ | ⟨-, hnone⟩ := hput
    · rw [hphase] at hphase'
      cases hphase'
      rw [hmarkers, hlog]
      exact ⟨List.mem_cons_self, [], since_append_self .., hfailed, rfl⟩
    · exact absurd hphase' (not_ingesting_of_claim? hnone claim' progress')
  · intro marker hmarker
    rw [hmarkers] at hmarker
    rcases List.mem_cons.mp hmarker with rfl | hmarker
    · obtain ⟨-, hphase, -⟩ | ⟨rfl, -⟩ := hput
      · exact .inl ⟨claim, claim?_eq_some_iff.mpr ⟨.reading, hphase⟩, rfl⟩
      · rw [hlog]
        exact .inr (.inr (.inr ⟨i, claim.key, claim.version, [], rfl, since_append_self ..⟩))
    · rcases h.holder hi hmarker with ⟨claim', hclaim', -⟩ | hother | hsettled
      · rw [hrun] at hclaim'
        cases hclaim'
      · exact .inr (.inl hother)
      · rw [hlog]
        exact .inr (.inr (hsettled.append i (hquiet marker hmarker)))
  · intro marker hmarker _
    rw [hmarkers]
    refine ⟨List.mem_cons_of_mem _ hmarker, ?_⟩
    rintro _ ⟨⟩
    exact hquiet marker hmarker
  · intro key version heq
    obtain ⟨rfl, -⟩ | ⟨rfl, -⟩ := hput
    · cases heq
    · cases heq
      rw [hmarkers]
      exact List.mem_cons_self

/-- The run goes on with its object, and what it does concerns no marker. -/
lemma Claimed.of_inside (h : Claimed svc pool) (hi : pool.procs[i]? = some run)
    (hprocs : ∀ j, pool'.procs[j]? = if j = i then some next else pool.procs[j]?)
    (hmarkers : pool'.shared.state.markers = pool.shared.state.markers)
    (hlog : pool'.shared.log = pool.shared.log ++ action.toList.map fun action => (i, action))
    {claim : Claim} {progress progress' : Progress} (hphase : run.phase = .ingesting claim progress)
    (hphase' : next.phase = .ingesting claim progress')
    (hquiet : ∀ a ∈ action, ∀ marker, ¬a.concerns marker)
    (hreached : ∀ since, progress.Reached svc claim run.result.failed since →
      progress'.Reached svc claim next.result.failed (since ++ action.toList)) :
    Claimed svc pool' := by
  have hrun : run.claim? = some claim := claim?_eq_some_iff.mpr ⟨progress, hphase⟩
  have hnext : next.claim? = some claim := claim?_eq_some_iff.mpr ⟨progress', hphase'⟩
  refine h.of_step hprocs hlog ?_ ?_ ?_ ?_ ?_ ?_
  · rw [hlog]
    refine append_toList h.ownRemovals i fun a ha => h.ownRemovals.append fun key version heq => ?_
    subst heq
    exact absurd rfl (hquiet _ ha (buildMetadataKey key version))
  · intro j run' claim' hji hj hclaim'
    obtain ⟨hmarker, hne⟩ := h.other_marker hi hji hj hclaim'
    rw [hmarkers, hnext, ← hrun]
    exact ⟨hmarker, fun a ha => hquiet a ha _, hne⟩
  · intro claim' progress'' hphase''
    rw [hphase'] at hphase''
    cases hphase''
    obtain ⟨hmarker, since, hsince, hdone⟩ := h.held i run claim progress hi hphase
    rw [hmarkers, hlog]
    refine ⟨hmarker, since ++ action.toList, ?_, hreached since hdone⟩
    cases action with
    | none =>
      rw [Option.toList_none, List.map_nil, List.append_nil, List.append_nil]
      exact hsince
    | some a => exact hsince.append_own (hquiet a rfl _)
  · intro marker hmarker
    rw [hmarkers] at hmarker
    rcases h.holder hi hmarker with hself | hother | hsettled
    · rw [hnext, ← hrun]
      exact .inl hself
    · exact .inr (.inl hother)
    · rw [hlog]
      exact .inr (.inr (append_toList (P := fun log => Settled svc log marker) hsettled i
        fun a ha => hsettled.append i (hquiet a ha marker)))
  · intro marker hmarker _
    rw [hmarkers]
    exact ⟨hmarker, fun a ha => hquiet a ha marker⟩
  · exact fun key version heq => (hquiet _ heq (buildMetadataKey key version) rfl).elim

/-- The run removes its marker. -/
lemma Claimed.of_removing (h : Claimed svc pool) (hi : pool.procs[i]? = some run)
    (hprocs : ∀ j, pool'.procs[j]? = if j = i then some next else pool.procs[j]?) {claim : Claim}
    (hmarkers : ∀ {marker}, marker ∈ pool'.shared.state.markers ↔
      marker ∈ pool.shared.state.markers ∧ marker ≠ claim.marker)
    (hlog : pool'.shared.log = pool.shared.log ++ [(i, .removed claim.key claim.version)])
    {progress : Progress} (hphase : run.phase = .ingesting claim progress) (hnext : next.claim? = none) :
    Claimed svc pool' := by
  have hrun : run.claim? = some claim := claim?_eq_some_iff.mpr ⟨progress, hphase⟩
  have hlog' : pool'.shared.log = pool.shared.log ++
      (some (IngestionAction.removed claim.key claim.version)).toList.map fun action => (i, action) := hlog
  refine h.of_step hprocs hlog' ?_ ?_ ?_ ?_ ?_ fun _ _ heq => by cases heq
  · rw [hlog]
    refine h.ownRemovals.append fun key version heq => ?_
    cases heq
    obtain ⟨-, since, hsince, -⟩ := h.held i run claim progress hi hphase
    exact ⟨since, hsince⟩
  · intro j run' claim' hji hj hclaim'
    obtain ⟨hmarker, hne⟩ := h.other_marker hi hji hj hclaim'
    refine ⟨hmarkers.mpr ⟨hmarker, (hne claim hrun).symm⟩, ?_, fun _ hclaim => ?_⟩
    · rintro _ ⟨⟩
      exact hne claim hrun
    · rw [hnext] at hclaim
      cases hclaim
  · exact fun claim progress hphase => absurd hphase (not_ingesting_of_claim? hnext claim progress)
  · intro marker hmarker
    obtain ⟨hmarker, hne⟩ := hmarkers.mp hmarker
    rcases h.holder hi hmarker with ⟨claim', hclaim', rfl⟩ | hother | hsettled
    · rw [hrun] at hclaim'
      cases hclaim'
      exact absurd rfl hne
    · exact .inr (.inl hother)
    · rw [hlog]
      exact .inr (.inr (hsettled.append i (Ne.symm hne)))
  · intro marker hmarker hlost
    have hne := h.marker_ne_lost hi hrun hlost
    refine ⟨hmarkers.mpr ⟨hmarker, hne.symm⟩, ?_⟩
    rintro _ ⟨⟩
    exact hne

/-- A step of one run, whatever it is. -/
theorem Claimed.moves (h : Claimed svc pool) (hi : pool.procs[i]? = some run) {move : Move}
    (hmove : Moves svc pool.shared.state run move)
    (hprocs : ∀ j, pool'.procs[j]? = if j = i then some move.next else pool.procs[j]?)
    (hstate : pool'.shared.state = move.state)
    (hlog : pool'.shared.log = pool.shared.log ++ move.action.toList.map fun action => (i, action)) :
    Claimed svc pool' := by
  cases hmove with
  | outside hrun hnext =>
    refine h.of_leaving hi hprocs (by rw [hstate]) (hlog.trans (List.append_nil _)) hnext fun claim hclaim => ?_
    rw [hrun] at hclaim
    cases hclaim
  | claimed claim hrun hfree hphase hfailed =>
    exact h.of_putting hi hprocs (by rw [hstate]) hlog hrun hfree (.inl ⟨rfl, hphase, hfailed⟩)
  | unanswered claim hrun hfree hnext =>
    exact h.of_putting hi hprocs (by rw [hstate]) hlog hrun hfree (.inr ⟨rfl, hnext⟩)
  | inside claim progress progress' hphase hphase' hmarkers hquiet hreached =>
    have hmarkers' : pool'.shared.state.markers = pool.shared.state.markers := by rw [hstate, hmarkers]
    exact h.of_inside hi hprocs hmarkers' hlog hphase hphase' hquiet hreached
  | kept claim progress hphase hnext hcomplete =>
    refine h.of_leaving hi hprocs (by rw [hstate]) (hlog.trans (List.append_nil _)) hnext fun claim' hclaim' => ?_
    rw [claim?_eq_some_iff.mpr ⟨progress, hphase⟩] at hclaim'
    cases hclaim'
    -- the run leaves its marker behind, after all that it has done
    obtain ⟨-, since, hsince, hdone⟩ := h.held i run claim progress hi hphase
    obtain ⟨content, collection, rfl⟩ := hcomplete since hdone
    exact ⟨i, claim.key, claim.version, content, collection, _, rfl, hsince, List.prefix_refl _⟩
  | removed claim progress hphase hnext =>
    refine h.of_removing hi hprocs ?_ hlog hphase hnext
    intro marker
    rw [hstate, List.mem_filter, decide_eq_true_eq]

end Step

lemma Claimed.withBucket {pool : IngestionPool} (h : Claimed svc pool) (bucket : Bucket) :
    Claimed svc (pool.withBucket bucket) :=
  ⟨h.ownRemovals, h.held, h.apart, h.covered, h.lost⟩

lemma Claimed.start {pool : IngestionPool} (h : Claimed svc pool) (run : RunningIngestion)
    (hrun : run.claim? = none) : Claimed svc (pool.start run) := by
  have hold : ∀ {j : ℕ} {run' : RunningIngestion} {claim' : Claim}, (pool.start run).procs[j]? = some run' →
      run'.claim? = some claim' → pool.procs[j]? = some run' := by
    intro j run' claim' hj hclaim'
    rw [ProcessPool.getElem?_start] at hj
    split at hj
    · rw [← Option.some.inj hj, hrun] at hclaim'
      cases hclaim'
    · exact hj
  refine ⟨h.ownRemovals, ?_, ?_, ?_, h.lost⟩
  · intro j run' claim' progress' hj hphase
    exact h.held j run' claim' progress' (hold hj (claim?_eq_some_iff.mpr ⟨progress', hphase⟩)) hphase
  · intro j k run' run'' claim' claim'' hj hk hclaim' hclaim'' hmarker
    exact h.apart j k run' run'' claim' claim'' (hold hj hclaim') (hold hk hclaim'') hclaim' hclaim'' hmarker
  · intro marker hmarker
    rcases h.covered marker hmarker with ⟨j, run', claim', hj, hholds⟩ | hleft
    · exact .inl ⟨j, run', claim', ProcessPool.getElem?_start_of_some hj, hholds⟩
    · exact .inr hleft

lemma Claimed.next {pool : IngestionPool} (h : Claimed svc pool) (event : PoolEvent) :
    Claimed svc (pool.next svc event) := by
  cases event with
  | put key object => exact h.withBucket _
  | delete key => exact h.withBucket _
  | start embeddingProvider pages => exact h.start _ rfl
  | step i failure =>
    cases hi : pool.procs[i]? with
    | none =>
      rw [IngestionPool.next, ProcessPool.step_of_none hi]
      exact h
    | some run =>
      have hshared := ProcessPool.shared_step (advanceIngestion svc i failure) hi
      refine h.moves hi (moves_nextMove svc failure pool.shared.state run) ?_ ?_ ?_
      · exact ProcessPool.getElem?_step (advanceIngestion svc i failure) hi rfl
      · rw [IngestionPool.next, hshared]
        rfl
      · rw [IngestionPool.next, hshared]
        rfl

lemma claimed_initial (svc : ManualIngestionService) (bucket : Bucket) (stores : String → List Document) :
    Claimed svc (.initial bucket stores) := by
  refine ⟨?_, ?_, ?_, ?_, ?_⟩
  · intro before i key version after heq
    exact absurd heq.symm (List.append_ne_nil_of_right_ne_nil _ (List.cons_ne_nil _ _))
  · intro i run claim progress hi
    cases hi
  · intro i j run run' claim claim' hi
    cases hi
  · intro marker hmarker
    cases hmarker
  · intro entry hentry
    cases hentry

/-- Whatever happens to the bucket, whichever runs start, in whatever order they take their steps and
wherever these fail: a run reads what the bucket has; no claim outlives a failed ingestion as long as every
claim is answered; and once no run is in flight, none has only if every claim was answered. -/
theorem claims_released_iff (svc : ManualIngestionService) (bucket : Bucket) (stores : String → List Document)
    (events : List PoolEvent) :
    let pool := Runs.run (IngestionPool.next svc) (.initial bucket stores) events
    Along (IngestionPool.next svc) (ReadsBucket svc) (.initial bucket stores) events ∧
      (Along (IngestionPool.next svc) (Answered svc) (.initial bucket stores) events →
        ClaimsReleased svc stores pool) ∧
      ((∀ run ∈ pool.procs, run.phase = .finished) → (ClaimsReleased svc stores pool ↔
        Along (IngestionPool.next svc) (Answered svc) (.initial bucket stores) events)) := by
  intro pool
  have hanyway : ∀ P : IngestionPool → Prop, (∀ pool event, P pool → P (pool.next svc event)) →
      P (.initial bucket stores) → P pool := fun P hstep hinitial =>
    run_invariant (fun pool event h (_ : True) => hstep pool event h) hinitial
      (along_of_forall (fun _ _ _ => trivial) _)
  have hclaimed : Claimed svc pool := hanyway _ (fun _ event h => h.next event) (claimed_initial svc bucket stores)
  have hrecorded : Recorded stores pool := hanyway _ (fun _ event h => h.next event) rfl
  have hreleased : Along (IngestionPool.next svc) (Answered svc) (.initial bucket stores) events →
      ClaimsReleased svc stores pool := fun hanswered =>
    hclaimed.claimsReleased hrecorded ((allAnswered_run_iff svc bucket stores events).mpr hanswered)
  refine ⟨along_of_forall (fun event _ pool => readsBucket svc pool event) _, hreleased, fun hfinished => ?_⟩
  refine ⟨fun h => ?_, hreleased⟩
  exact (allAnswered_run_iff svc bucket stores events).mp (hclaimed.allAnswered (h.left hfinished))

/-- A run over one note, whose `putIfAbsent` puts the marker and then throws. -/
def lostClaimRun : List PoolEvent :=
  [.start none [[⟨some "markdown/a.md", some "v1", none⟩]], .step 0 none, .step 0 (some ⟨.runtime, true⟩)]

/-- No run is in flight any more, nothing has been ingested, and the marker is there. -/
theorem lost_claim_outlives_run : ¬ClaimsReleased plainIngestion (fun _ => [])
    (Runs.run (IngestionPool.next plainIngestion)
      (.initial (Bucket.empty.put "markdown/a.md" ⟨bytesOf "green tea", none⟩) fun _ => []) lostClaimRun) := by
  intro h
  have hfinished : ∀ run ∈ (Runs.run (IngestionPool.next plainIngestion)
      (.initial (Bucket.empty.put "markdown/a.md" ⟨bytesOf "green tea", none⟩) fun _ => []) lostClaimRun).procs,
      run.phase = .finished := by
    intro run hrun
    rw [List.mem_singleton.mp hrun]
    rfl
  obtain ⟨i, key, version, content, collection, since, -, hsince, -⟩ :=
    h.left hfinished "manual-ingestion:markdown/a.md:v1" (by decide)
  cases List.mem_singleton.mp hsince.mem

end AscendAI.Ingestion
