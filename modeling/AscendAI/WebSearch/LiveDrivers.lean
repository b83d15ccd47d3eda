import AscendAI.WebSearch.BrowserPool

/-!
# The drivers of the browser pool

At every place where the holder of the lock stands it is known which driver runs and which one the
pool holds. No place has two, and a browser that can be returned is of the one that is held.
-/

namespace AscendAI.WebSearch
open ProcessPool Runs

namespace PoolState

variable {s : PoolState} {b : PooledBrowser} {d : ℕ}

/-- No driver but the one that the pool holds runs, and a browser of the pool that is connected was
launched by it. -/
structure Settled (s : PoolState) : Prop where
  drivers : s.drivers = s.playwright.toList
  browser : ∀ b, s.usable = some b → s.playwright = some b.driver
  numbered : ∀ b, s.browser = some b → b.serial < s.launched

/-- The browser of the pool, if there is one, is an earlier one that has disconnected. -/
structure Disconnected (s : PoolState) : Prop where
  unusable : s.usable = none
  numbered : ∀ b, s.browser = some b → b.serial < s.launched

lemma usable_eq_some_iff : s.usable = some b ↔ s.browser = some b ∧ b ∈ s.connected := by
  rw [usable, Option.filter_eq_some_iff, List.contains_iff_mem]

lemma usable_eq_none_iff : s.usable = none ↔ ∀ b, s.browser = some b → b ∉ s.connected := by
  rw [Option.eq_none_iff_forall_ne_some]
  refine forall_congr' fun b => ?_
  rw [ne_eq, usable_eq_some_iff, not_and]

/-- Fewer browsers are connected, so fewer are usable. -/
lemma usable_of_filter {p : PooledBrowser → Bool} {s' : PoolState} (h : s'.usable = some b)
    (hbrowser : s'.browser = s.browser) (hconnected : s'.connected = s.connected.filter p) :
    s.usable = some b := by
  rw [usable_eq_some_iff] at h ⊢
  rw [hbrowser, hconnected] at h
  exact ⟨h.1, (List.mem_filter.mp h.2).1⟩

lemma Disconnected.of_filter {p : PooledBrowser → Bool} {s' : PoolState} (h : s.Disconnected)
    (hbrowser : s'.browser = s.browser) (hconnected : s'.connected = s.connected.filter p)
    (hlaunched : s'.launched = s.launched) : s'.Disconnected := by
  refine ⟨?_, fun b hb => ?_⟩
  · rw [Option.eq_none_iff_forall_ne_some]
    intro b hb
    have hold := usable_of_filter hb hbrowser hconnected
    rw [h.unusable] at hold
    cases hold
  · rw [hlaunched]
    exact h.numbered b (hbrowser ▸ hb)

lemma Disconnected.disconnect (h : s.Disconnected) (b : PooledBrowser) : (s.disconnect b).Disconnected :=
  h.of_filter rfl rfl rfl

lemma Disconnected.stopDriver (h : s.Disconnected) (d : ℕ) : (s.stopDriver d).Disconnected :=
  h.of_filter rfl rfl rfl

/-- A new browser is not the old one. -/
lemma Disconnected.launch (h : s.Disconnected) (d : ℕ) : (s.launch d).Disconnected := by
  refine ⟨?_, fun b hb => (h.numbered b hb).trans (Nat.lt_succ_self _)⟩
  rw [usable_eq_none_iff]
  intro b hb hmem
  have hold := usable_eq_none_iff.mp h.unusable b hb
  have hnumber := h.numbered b hb
  rcases List.mem_append.mp hmem with hmem | hmem
  · exact hold hmem
  · rw [List.mem_singleton.mp hmem] at hnumber
    exact absurd hnumber (lt_irrefl _)

lemma Settled.disconnect (h : s.Settled) (b : PooledBrowser) : (s.disconnect b).Settled :=
  ⟨h.drivers, fun b' hb' => h.browser b' (usable_of_filter hb' rfl rfl), h.numbered⟩

lemma Settled.disconnected (h : s.Settled) (hnone : s.usable = none) : s.Disconnected :=
  ⟨hnone, h.numbered⟩

/-- Without a usable browser it is enough that the driver of the pool is the one that runs. -/
lemma Disconnected.settled (h : s.Disconnected) (hdrivers : s.drivers = s.playwright.toList) : s.Settled := by
  refine ⟨hdrivers, fun b hb => ?_, h.numbered⟩
  rw [h.unusable] at hb
  cases hb

/-- The only driver is stopped. -/
lemma drivers_stopDriver (h : s.drivers = [d]) : (s.stopDriver d).drivers = [] := by
  simp [PoolState.stopDriver, h]

lemma disconnected_of_none (h : s.browser = none) : s.Disconnected := by
  refine ⟨?_, fun b hb => ?_⟩
  · rw [usable, h]
    rfl
  · rw [h] at hb
    cases hb

end PoolState

/-- What the holder of the lock knows where it stands. -/
def PoolTask.Knows (s : PoolState) : PoolTask → Prop
  | .recheck _ | .closeBrowser | .clearBrowser => s.Settled
  | .stopPrior _ => s.Settled ∧ s.Disconnected
  | .clearPrior _ => s.drivers = [] ∧ s.Disconnected
  | .startDriver _ => s.drivers = [] ∧ s.playwright = none ∧ s.Disconnected
  | .storeDriver _ d => s.drivers = [d] ∧ s.Disconnected
  | .launchBrowser _ d => s.drivers = [d] ∧ s.playwright = some d ∧ s.Disconnected
  | .storeBrowser _ b =>
    s.drivers = [b.driver] ∧ s.playwright = some b.driver ∧ b.serial < s.launched ∧ s.Disconnected
  | .stopDriver => s.Settled ∧ s.browser = none
  | .clearDriver => s.drivers = [] ∧ s.browser = none
  | _ => True

def poolLock : LockProtocol PoolState PoolTask where
  locked := PoolState.locked
  inside := PoolTask.inside
  Free := PoolState.Settled
  Holds s task := task.Knows s

lemma Opener.finish_inside (o : Opener) (b : PooledBrowser) : (o.finish b).inside = false := by
  cases o <;> rfl

/-- A step of the holder keeps what it knows, or settles the state and frees the lock. -/
lemma advancePool_inside (fails : Bool) (s : PoolState) (task : PoolTask) (hin : task.inside = true)
    (h : task.Knows s) :
    ((advancePool fails s task).shared.locked = s.locked ∧ (advancePool fails s task).next.inside = true ∧
      (advancePool fails s task).next.Knows (advancePool fails s task).shared) ∨
    ((advancePool fails s task).shared.locked = false ∧ (advancePool fails s task).next.inside = false ∧
      (advancePool fails s task).shared.Settled) := by
  cases task with
  | recheck o =>
    simp only [advancePool]
    split
    · exact .inr ⟨rfl, o.finish_inside _, h.drivers, h.browser, h.numbered⟩
    · rename_i hnone
      exact .inl ⟨rfl, rfl, h, h.disconnected hnone⟩
  | stopPrior o =>
    obtain ⟨hsettled, hdisconnected⟩ := h
    have hdrivers := hsettled.drivers
    simp only [advancePool]
    split
    · rename_i d hd
      rw [hd] at hdrivers
      exact .inl ⟨rfl, rfl, PoolState.drivers_stopDriver hdrivers, hdisconnected.stopDriver d⟩
    · rename_i hnone
      rw [hnone] at hdrivers
      exact .inl ⟨rfl, rfl, hdrivers, hnone, hdisconnected⟩
  | clearPrior o => exact .inl ⟨rfl, rfl, h.1, rfl, h.2.unusable, h.2.numbered⟩
  | startDriver o =>
    obtain ⟨hdrivers, hnone, hdisconnected⟩ := h
    simp only [advancePool]
    split
    · have hsettled := hdisconnected.settled (by rw [hdrivers, hnone]; rfl)
      exact .inr ⟨rfl, rfl, hsettled.drivers, hsettled.browser, hsettled.numbered⟩
    · refine .inl ⟨rfl, rfl, ?_, hdisconnected.unusable, hdisconnected.numbered⟩
      simp only [PoolState.startDriver, hdrivers, List.nil_append]
  | storeDriver o d => exact .inl ⟨rfl, rfl, h.1, rfl, h.2.unusable, h.2.numbered⟩
  | launchBrowser o d =>
    obtain ⟨hdrivers, hheld, hdisconnected⟩ := h
    simp only [advancePool]
    split
    · have hsettled := hdisconnected.settled (by rw [hdrivers, hheld]; rfl)
      exact .inr ⟨rfl, rfl, hsettled.drivers, hsettled.browser, hsettled.numbered⟩
    · exact .inl ⟨rfl, rfl, hdrivers, hheld, Nat.lt_succ_self _, hdisconnected.launch d⟩
  | storeBrowser o b =>
    obtain ⟨hdrivers, hheld, hnumber, hdisconnected⟩ := h
    refine .inr ⟨rfl, o.finish_inside b, ?_, ?_, ?_⟩
    · rw [show (advancePool fails s (.storeBrowser o b)).shared.drivers = s.drivers from rfl, hdrivers]
      simp only [advancePool, hheld, Option.toList_some]
    · intro b' hb'
      obtain ⟨heq, -⟩ := PoolState.usable_eq_some_iff.mp hb'
      rw [← Option.some.inj heq]
      exact hheld
    · intro b' hb'
      rw [← Option.some.inj hb']
      exact hnumber
  | closeBrowser =>
    simp only [advancePool]
    split
    · rename_i b hb
      refine .inl ⟨?_, rfl, ?_⟩
      · cases fails <;> rfl
      · cases fails with
        | true => exact h
        | false => exact h.disconnect b
    · rename_i hnone
      exact .inl ⟨rfl, rfl, h, hnone⟩
  | clearBrowser =>
    have hnone : ({ s with browser := none } : PoolState).Disconnected :=
      PoolState.disconnected_of_none rfl
    exact .inl ⟨rfl, rfl, hnone.settled h.drivers, rfl⟩
  | stopDriver =>
    obtain ⟨hsettled, hnone⟩ := h
    have hdrivers := hsettled.drivers
    simp only [advancePool]
    split
    · rename_i d hd
      rw [hd] at hdrivers
      exact .inl ⟨rfl, rfl, PoolState.drivers_stopDriver hdrivers, hnone⟩
    · exact .inr ⟨rfl, rfl, hsettled.drivers, hsettled.browser, hsettled.numbered⟩
  | clearDriver =>
    have hnone : ({ s with playwright := none, locked := false } : PoolState).Disconnected :=
      PoolState.disconnected_of_none h.2
    exact .inr ⟨rfl, rfl, hnone.settled h.1⟩
  | _ => cases hin

/-- A step outside the block reads or takes the free lock. -/
lemma advancePool_outside (fails : Bool) (s : PoolState) (task : PoolTask) (hout : task.inside = false) :
    ((advancePool fails s task).shared = s ∧ (advancePool fails s task).next.inside = false) ∨
    (s.locked = false ∧ (advancePool fails s task).shared.locked = true ∧
      (advancePool fails s task).next.inside = true ∧
      (s.Settled → (advancePool fails s task).next.Knows (advancePool fails s task).shared)) := by
  have htaken : s.Settled → ({ s with locked := true } : PoolState).Settled :=
    fun h => ⟨h.drivers, h.browser, h.numbered⟩
  cases task with
  | fastPath =>
    simp only [advancePool]
    split <;> exact .inl ⟨rfl, rfl⟩
  | acquire o =>
    simp only [advancePool]
    split
    · exact .inl ⟨rfl, rfl⟩
    · rename_i hfree
      exact .inr ⟨Bool.eq_false_iff.mpr hfree, rfl, rfl, htaken⟩
  | acquireStop =>
    simp only [advancePool]
    split
    · exact .inl ⟨rfl, rfl⟩
    · rename_i hfree
      exact .inr ⟨Bool.eq_false_iff.mpr hfree, rfl, rfl, htaken⟩
  | completed => exact .inl ⟨rfl, rfl⟩
  | returned b => exact .inl ⟨rfl, rfl⟩
  | raised => exact .inl ⟨rfl, rfl⟩
  | _ => cases hout

lemma started_advancePool (fails : Bool) (s : PoolState) (task : PoolTask) :
    (advancePool fails s task).started = [] := by
  cases task <;> simp only [advancePool] <;> try split
  all_goals rfl

lemma poolLock_respectedBy (fails : Bool) : poolLock.RespectedBy (advancePool fails) where
  started := started_advancePool fails
  outside := advancePool_outside fails
  inside := advancePool_inside fails

/-- What the holder knows bears a disconnection. -/
lemma PoolTask.knows_disconnect {s : PoolState} {task : PoolTask} (h : task.Knows s) (b : PooledBrowser) :
    task.Knows (s.disconnect b) := by
  cases task with
  | recheck o => exact h.disconnect b
  | stopPrior o => exact ⟨h.1.disconnect b, h.2.disconnect b⟩
  | clearPrior o => exact ⟨h.1, h.2.disconnect b⟩
  | startDriver o => exact ⟨h.1, h.2.1, h.2.2.disconnect b⟩
  | storeDriver o d => exact ⟨h.1, h.2.disconnect b⟩
  | launchBrowser o d => exact ⟨h.1, h.2.1, h.2.2.disconnect b⟩
  | storeBrowser o b' => exact ⟨h.1, h.2.1, h.2.2.1, h.2.2.2.disconnect b⟩
  | closeBrowser => exact h.disconnect b
  | clearBrowser => exact h.disconnect b
  | stopDriver => exact ⟨h.1.disconnect b, h.2⟩
  | clearDriver => exact h
  | _ => trivial

namespace BrowserPool

variable {pool : BrowserPool}

lemma owned_init : poolLock.Owned init := by
  refine .free rfl (fun i task hi => ?_) ⟨rfl, fun b hb => ?_, fun b hb => ?_⟩
  · cases hi
  · cases hb
  · cases hb

lemma owned_next (h : poolLock.Owned pool) (event : PoolEvent) : poolLock.Owned (pool.next event) := by
  cases event with
  | call c =>
    refine h.start ?_
    cases c with
    | opener o => cases o <;> rfl
    | stop => rfl
  | step i fails => exact h.step (poolLock_respectedBy fails) i
  | disconnect b =>
    exact h.change rfl (fun hfree => hfree.disconnect b) fun task _ hholds => PoolTask.knows_disconnect hholds b

lemma owned_run (h : poolLock.Owned pool) (events : List PoolEvent) : poolLock.Owned (run next pool events) := by
  have hstep : ∀ pool event, poolLock.Owned pool → True → poolLock.Owned (next pool event) :=
    fun _ event h _ => owned_next h event
  exact run_invariant hstep h (along_of_forall (fun _ _ _ => trivial) pool)

lemma drivers_length_of_settled {s : PoolState} (h : s.Settled) : s.drivers.length ≤ 1 := by
  rw [h.drivers]
  exact Option.length_toList_le

/-- At every place inside the block the pool is settled, or it has one driver at most and no usable browser. -/
lemma settled_or_disconnected {s : PoolState} {task : PoolTask} (hin : task.inside = true) (h : task.Knows s) :
    s.Settled ∨ s.drivers.length ≤ 1 ∧ s.Disconnected := by
  cases task with
  | recheck o => exact .inl h
  | stopPrior o => exact .inl h.1
  | clearPrior o => exact .inr ⟨by simp [h.1], h.2⟩
  | startDriver o => exact .inr ⟨by simp [h.1], h.2.2⟩
  | storeDriver o d => exact .inr ⟨by simp [h.1], h.2⟩
  | launchBrowser o d => exact .inr ⟨by simp [h.1], h.2.2⟩
  | storeBrowser o b => exact .inr ⟨by simp [h.1], h.2.2.2⟩
  | closeBrowser => exact .inl h
  | clearBrowser => exact .inl h
  | stopDriver => exact .inl h.1
  | clearDriver => exact .inr ⟨by simp [h.1], PoolState.disconnected_of_none h.2⟩
  | _ => cases hin

/-- In every state at most one driver is started and not yet stopped. -/
lemma drivers_length_le (h : poolLock.Owned pool) : pool.shared.drivers.length ≤ 1 := by
  refine h.shared (Q := fun s => s.drivers.length ≤ 1) (fun s hs => ?_) fun s task hin hknows => ?_
  · exact drivers_length_of_settled hs
  · rcases settled_or_disconnected hin hknows with hsettled | ⟨hlength, -⟩
    · exact drivers_length_of_settled hsettled
    · exact hlength

/-- A browser that can be returned is of the driver that the pool holds. -/
lemma held_of_usable (h : poolLock.Owned pool) {b : PooledBrowser} (hb : pool.shared.usable = some b) :
    pool.shared.playwright = some b.driver := by
  refine h.shared (Q := fun s => s.usable = some b → s.playwright = some b.driver)
    (fun s hs => hs.browser b) (fun s task hin hknows hb => ?_) hb
  rcases settled_or_disconnected hin hknows with hsettled | ⟨-, hdisconnected⟩
  · exact hsettled.browser b hb
  · rw [hdisconnected.unusable] at hb
    cases hb

/-- The steps that end with a browser. -/
lemma cases_of_returned {fails : Bool} {s : PoolState} {task : PoolTask} {b : PooledBrowser}
    (h : (advancePool fails s task).next = .returned b) (hnew : task ≠ .returned b) :
    (s.usable = some b ∧ (advancePool fails s task).shared.playwright = s.playwright) ∨
      task = .storeBrowser .getBrowser b := by
  cases task with
  | fastPath =>
    simp only [advancePool] at h ⊢
    split at h
    · rename_i hb
      obtain rfl := PoolTask.returned.inj h
      exact .inl ⟨hb, rfl⟩
    · cases h
  | recheck o =>
    simp only [advancePool] at h ⊢
    split at h
    · rename_i b' hb
      cases o with
      | start => cases h
      | getBrowser =>
        obtain rfl := PoolTask.returned.inj h
        exact .inl ⟨hb, rfl⟩
    · cases h
  | storeBrowser o b' =>
    cases o with
    | start => cases h
    | getBrowser =>
      obtain rfl := PoolTask.returned.inj h
      exact .inr rfl
  | returned b' => exact absurd h hnew
  | clearPrior o => cases h
  | storeDriver o d => cases h
  | clearBrowser => cases h
  | clearDriver => cases h
  | completed => cases h
  | raised => cases h
  | _ =>
    simp only [advancePool] at h
    split at h <;> cases h

lemma returnsOfHeld_of_owned (h : poolLock.Owned pool) (event : PoolEvent) : pool.ReturnsOfHeld event := by
  intro i b hnew hreturned
  cases event with
  | call c =>
    rw [next, getElem?_start] at hreturned
    split at hreturned
    · have hfirst : c.first ≠ .returned b := by
        cases c with
        | opener o => cases o <;> nofun
        | stop => nofun
      exact absurd (Option.some.inj hreturned) hfirst
    · exact absurd hreturned hnew
  | disconnect b' => exact absurd hreturned hnew
  | step j fails =>
    cases hj : pool.procs[j]? with
    | none =>
      rw [next, step_of_none hj] at hreturned
      exact absurd hreturned hnew
    | some task =>
      rw [next, getElem?_step _ hj (started_advancePool ..)] at hreturned
      split at hreturned
      · rename_i hij
        subst hij
        have htask : task ≠ .returned b := by
          rintro rfl
          exact hnew hj
        rw [next, shared_step _ hj]
        rcases cases_of_returned (Option.some.inj hreturned) htask with ⟨husable, hsame⟩ | rfl
        · rw [hsame]
          exact held_of_usable h husable
        · exact (h.holds hj rfl).2.1
      · exact absurd hreturned hnew

/-! ### A stop without other calls -/

/-- How many steps a call of `stop` has left. -/
def stopLeft : PoolTask → Option ℕ
  | .acquireStop => some 5
  | .closeBrowser => some 4
  | .clearBrowser => some 3
  | .stopDriver => some 2
  | .clearDriver => some 1
  | .completed => some 0
  | _ => none

/-- The other calls are finished, and the stop has at most so many steps left. -/
structure StopsAlone (n left : ℕ) (pool : BrowserPool) : Prop where
  owned : poolLock.Owned pool
  others : ∀ (j : ℕ) task, pool.procs[j]? = some task → j ≠ n → task.finished = true
  stopping : ∃ task k, pool.procs[n]? = some task ∧ stopLeft task = some k ∧ k ≤ left
  stopped : pool.procs[n]? = some .completed → pool.shared.drivers = []

lemma outside_of_finished {task : PoolTask} (h : task.finished = true) : task.inside = false := by
  cases task with
  | completed => rfl
  | returned b => rfl
  | raised => rfl
  | _ => cases h

lemma advancePool_of_finished (fails : Bool) (s : PoolState) {task : PoolTask} (h : task.finished = true) :
    advancePool fails s task = ⟨s, task, []⟩ := by
  cases task with
  | completed => rfl
  | returned b => rfl
  | raised => rfl
  | _ => cases h

lemma step_of_finished {j : ℕ} {task : PoolTask} (fails : Bool) (hj : pool.procs[j]? = some task)
    (h : task.finished = true) : pool.step (advancePool fails) j = pool := by
  obtain ⟨hlt, rfl⟩ := List.getElem?_eq_some_iff.mp hj
  rw [step_of_some hj, advancePool_of_finished fails pool.shared h, List.set_getElem_self, List.append_nil]

/-- Each step of the stop that finds the lock free brings it nearer to its end. -/
lemma stopLeft_advance (fails : Bool) {s : PoolState} {task : PoolTask} {k : ℕ} (h : stopLeft task = some k)
    (hfree : task = .acquireStop → s.locked = false) :
    ∃ k', stopLeft (advancePool fails s task).next = some k' ∧ k' ≤ k - 1 := by
  cases task with
  | acquireStop =>
    obtain rfl := Option.some.inj h
    have hnot : ¬s.locked = true := by simp [hfree rfl]
    simp only [advancePool, if_neg hnot]
    exact ⟨4, rfl, le_rfl⟩
  | closeBrowser =>
    obtain rfl := Option.some.inj h
    simp only [advancePool]
    split
    · exact ⟨3, rfl, le_rfl⟩
    · exact ⟨2, rfl, by omega⟩
  | clearBrowser =>
    obtain rfl := Option.some.inj h
    exact ⟨2, rfl, le_rfl⟩
  | stopDriver =>
    obtain rfl := Option.some.inj h
    simp only [advancePool]
    split
    · exact ⟨1, rfl, le_rfl⟩
    · exact ⟨0, rfl, Nat.zero_le _⟩
  | clearDriver =>
    obtain rfl := Option.some.inj h
    exact ⟨0, rfl, le_rfl⟩
  | completed =>
    obtain rfl := Option.some.inj h
    exact ⟨0, rfl, le_rfl⟩
  | _ => cases h

/-- The step that ends a stop finds no driver. -/
lemma drivers_of_completed {fails : Bool} {s : PoolState} {task : PoolTask} {k : ℕ}
    (h : stopLeft task = some k) (hknows : task.Knows s) (hnew : task ≠ .completed)
    (hend : (advancePool fails s task).next = .completed) :
    (advancePool fails s task).shared.drivers = [] := by
  cases task with
  | stopDriver =>
    simp only [advancePool] at hend ⊢
    split at hend
    · cases hend
    · rename_i hnone
      have hdrivers := hknows.1.drivers
      rw [hnone] at hdrivers
      exact hdrivers
  | clearDriver => exact hknows.1
  | completed => exact absurd rfl hnew
  | acquireStop =>
    simp only [advancePool] at hend
    split at hend <;> cases hend
  | closeBrowser =>
    simp only [advancePool] at hend
    split at hend <;> cases hend
  | clearBrowser => cases hend
  | _ => cases h

lemma StopsAlone.step_self {n left : ℕ} (h : StopsAlone n left pool) (fails : Bool) :
    StopsAlone n (left - 1) (pool.next (.step n fails)) := by
  obtain ⟨task, k, htask, hk, hle⟩ := h.stopping
  have hprocs := getElem?_step (advancePool fails) htask (started_advancePool ..)
  have hself : (pool.next (.step n fails)).procs[n]? = some (advancePool fails pool.shared task).next :=
    getElem?_step_self htask
  have hfree : task = .acquireStop → pool.shared.locked = false := by
    rintro rfl
    refine (h.owned.free_of_outside fun j task' hj => ?_).1
    by_cases hjn : j = n
    · rw [hjn, htask] at hj
      obtain rfl := Option.some.inj hj
      rfl
    · exact outside_of_finished (h.others j task' hj hjn)
  obtain ⟨k', hk', hle'⟩ := stopLeft_advance fails hk hfree
  refine ⟨owned_next h.owned _, fun j task' hj hjn => ?_, ⟨_, k', hself, hk', by omega⟩, fun hend => ?_⟩
  · rw [next, hprocs, if_neg hjn] at hj
    exact h.others j task' hj hjn
  · rw [hself] at hend
    rw [next, shared_step _ htask]
    by_cases hdone : task = .completed
    · subst hdone
      exact h.stopped htask
    · have hknows : task.Knows pool.shared := by
        cases hin : task.inside with
        | true => exact h.owned.holds htask hin
        | false =>
          cases task with
          | acquireStop => trivial
          | completed => trivial
          | fastPath => trivial
          | acquire o => trivial
          | returned b => trivial
          | raised => trivial
          | _ => cases hin
      exact drivers_of_completed hk hknows hdone (Option.some.inj hend)

lemma StopsAlone.next {n left : ℕ} (h : StopsAlone n left pool) {event : PoolEvent}
    (hcall : event.isCall = false) :
    StopsAlone n (left - if event.isStepOf n then 1 else 0) (pool.next event) := by
  cases event with
  | call c => cases hcall
  | disconnect b => exact ⟨owned_next h.owned _, h.others, h.stopping, h.stopped⟩
  | step j fails =>
    by_cases hj : j = n
    · rw [PoolEvent.isStepOf, hj, BEq.rfl, if_pos rfl]
      exact h.step_self fails
    · have hother : (PoolEvent.step j fails).isStepOf n = false := by simpa [PoolEvent.isStepOf] using hj
      have hsame : pool.next (.step j fails) = pool := by
        cases hget : pool.procs[j]? with
        | none => exact step_of_none hget
        | some task => exact step_of_finished fails hget (h.others j task hget hj)
      rw [hother, hsame]
      exact h

lemma StopsAlone.run {n left : ℕ} (h : StopsAlone n left pool) {events : List PoolEvent}
    (hcalls : ∀ event ∈ events, event.isCall = false) :
    StopsAlone n (left - events.countP (PoolEvent.isStepOf n)) (Runs.run BrowserPool.next pool events) := by
  induction events generalizing pool left with
  | nil => exact h
  | cons event events ih =>
    obtain ⟨hevent, hrest⟩ := List.forall_mem_cons.mp hcalls
    have htail := ih (h.next hevent) hrest
    rw [run_cons, List.countP_cons]
    rwa [Nat.sub_sub, Nat.add_comm] at htail

lemma stopLeavesNone_of_owned (h : poolLock.Owned pool) : pool.StopLeavesNone := by
  intro hfinished events hcalls
  have hself : (pool.next (.call .stop)).procs[pool.procs.length]? = some .acquireStop :=
    getElem?_start_self _
  have hstart : StopsAlone pool.procs.length 5 (pool.next (.call .stop)) := by
    refine ⟨owned_next h _, fun j task hj hjn => ?_, ⟨_, 5, hself, rfl, le_rfl⟩, fun hend => ?_⟩
    · rw [BrowserPool.next, getElem?_start, if_neg hjn] at hj
      exact hfinished task (List.mem_of_getElem? hj)
    · rw [hself] at hend
      cases hend
  have hend := hstart.run hcalls
  refine ⟨hend.stopped, fun hsteps => ?_⟩
  obtain ⟨task, k, htask, hk, hle⟩ := hend.stopping
  obtain rfl : k = 0 := by omega
  have hcompleted : task = .completed := by
    cases task with
    | completed => rfl
    | _ => cases hk
  rw [htask, hcompleted]

/-- In every run at most one driver is started and not yet stopped, every browser that is returned was
launched by the driver that the pool then holds, and a stop with no concurrent or later call leaves no
driver. -/
theorem browserPool_leaksNoDriver (events : List PoolEvent) :
    (run next init events).shared.drivers.length ≤ 1 ∧
      Along next ReturnsOfHeld init events ∧ (run next init events).StopLeavesNone := by
  have howned := owned_run owned_init events
  refine ⟨drivers_length_le howned, ?_, stopLeavesNone_of_owned howned⟩
  have hstep : ∀ pool event, poolLock.Owned pool → True →
      poolLock.Owned (next pool event) ∧ ReturnsOfHeld pool event :=
    fun pool event h _ => ⟨owned_next h event, returnsOfHeld_of_owned h event⟩
  exact along_of_invariant hstep owned_init (along_of_forall (fun _ _ _ => trivial) init)

example :
    let pool := run next init ([.call (.opener .getBrowser)] ++ List.replicate 8 (.step 0 false) ++
      [.disconnect ⟨0, 0⟩, .call (.opener .getBrowser)] ++ List.replicate 9 (.step 1 false))
    pool.procs = [.returned ⟨0, 0⟩, .returned ⟨1, 1⟩] ∧ pool.shared.drivers = [1] := by
  decide

end BrowserPool

end AscendAI.WebSearch
