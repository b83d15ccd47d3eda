import AscendAI.Lib.OrderedDict
import AscendAI.Lib.ProcessPool
import AscendAI.Lib.Runs
import AscendAI.Ocr.PaddleOcrService

/-!
# The engine cache of the OCR service

`process_ocr` runs each request in a worker thread, and all of them share one `OrderedDict` of engines
without a lock. A call of `_get_engine` is a process whose steps are the operations on the dictionary
and the construction of an engine.
-/

namespace AscendAI.Ocr
open ProcessPool Runs

structure CacheSettings extends Settings where
  engineCacheMaxSize : ℕ := 8
  engineCacheMaxSize_pos : 1 ≤ engineCacheMaxSize := by decide

/-- An engine as an object: its language, and its number among the engines built so far. -/
structure PaddleOcr where
  lang : String
  serial : ℕ
  deriving DecidableEq

structure EngineStore where
  engines : OrderedDict String PaddleOcr := .empty
  built : ℕ := 0

/-- Where a call of `_get_engine` stands: before its next operation, or at its end. -/
inductive EngineCall where
  | lookup (language : String)
  | moveToEnd (language : String) (cached : PaddleOcr)
  | construct (language : String)
  | insert (language : String) (engine : PaddleOcr)
  | testLength (language : String) (engine : PaddleOcr)
  | popitem (language : String) (engine : PaddleOcr)
  | returned (language : String) (engine : PaddleOcr)
  | keyError
  | raised
  deriving DecidableEq

def EngineCall.isOver : EngineCall → Bool
  | .returned .. | .keyError | .raised => true
  | _ => false

section Service

variable (settings : CacheSettings)

/-- The check before the first operation; an unsupported language raises `ValueError`. -/
def startGetEngine (language : String) : EngineCall :=
  if settings.supportedLanguages.contains language then .lookup language else .raised

/-- One operation of `_get_engine` or `_evict_if_over_capacity`; `fails` says whether a constructor
raises. -/
def advanceEngine (fails : Bool) (store : EngineStore) : EngineCall → Outcome EngineStore EngineCall
  | .lookup language =>
    match store.engines.get? language with
    | some cached => ⟨store, .moveToEnd language cached, []⟩
    | none => ⟨store, .construct language, []⟩
  | .moveToEnd language cached =>
    match store.engines.moveToEnd? language with
    | some engines => ⟨{ store with engines := engines }, .returned language cached, []⟩
    | none => ⟨store, .keyError, []⟩
  | .construct language =>
    if fails then ⟨store, .raised, []⟩
    else ⟨{ store with built := store.built + 1 }, .insert language ⟨language, store.built⟩, []⟩
  | .insert language engine =>
    ⟨{ store with engines := store.engines.set language engine }, .testLength language engine, []⟩
  | .testLength language engine =>
    if settings.engineCacheMaxSize < store.engines.size then ⟨store, .popitem language engine, []⟩
    else ⟨store, .returned language engine, []⟩
  | .popitem language engine =>
    match store.engines.popFirst? with
    | some (_, engines) => ⟨{ store with engines := engines }, .testLength language engine, []⟩
    | none => ⟨store, .keyError, []⟩
  | call => ⟨store, call, []⟩

abbrev EnginePool := ProcessPool EngineStore EngineCall

def EnginePool.empty : EnginePool := ⟨{}, []⟩

/-- A new call, or the next operation of a call that is under way. -/
inductive EngineEvent where
  | getEngine (language : String)
  | step (i : ℕ) (fails : Bool)
  deriving DecidableEq

def EnginePool.next (pool : EnginePool) : EngineEvent → EnginePool
  | .getEngine language => pool.start (startGetEngine settings language)
  | .step i fails => pool.step (advanceEngine settings fails) i

end Service

/-! ### What is asked of the cache -/

structure EnginePool.Safe (settings : CacheSettings) (pool : EnginePool) : Prop where
  noKeyError : .keyError ∉ pool.procs
  ownLanguage : ∀ language engine, .returned language engine ∈ pool.procs → engine.lang = language
  withinCapacity : (∀ c ∈ pool.procs, c.isOver = true) → pool.shared.engines.size ≤ settings.engineCacheMaxSize

/-- What a call relies on when it reorders or evicts: the language that it has looked up is still in the
cache, and the cache that it has found too large is not empty. -/
def EngineCall.FindsItsItem (store : EngineStore) : EngineCall → Prop
  | .moveToEnd language _ => language ∈ store.engines.keys
  | .popitem .. => store.engines.items ≠ []
  | _ => True

def EngineEvent.FindsItsItem (pool : EnginePool) : EngineEvent → Prop
  | .getEngine _ => True
  | .step i _ => ∀ c ∈ pool.procs[i]?, c.FindsItsItem pool.shared

instance (store : EngineStore) : (c : EngineCall) → Decidable (c.FindsItsItem store)
  | .moveToEnd .. => inferInstanceAs (Decidable (_ ∈ _))
  | .popitem .. => inferInstanceAs (Decidable (_ ≠ _))
  | .lookup _ | .construct _ | .insert .. | .testLength .. | .returned .. | .keyError | .raised =>
    .isTrue trivial

instance (pool : EnginePool) : (event : EngineEvent) → Decidable (event.FindsItsItem pool)
  | .getEngine _ => .isTrue trivial
  | .step .. => inferInstanceAs (Decidable (∀ c ∈ _, _))

/-! ### Every cached engine has its own language, and who fills the cache empties it -/

/-- The language that a call works for, and the engine that it holds. -/
def EngineCall.HoldsOwn : EngineCall → Prop
  | .moveToEnd language engine | .insert language engine | .testLength language engine
  | .popitem language engine | .returned language engine => engine.lang = language
  | .lookup _ | .construct _ | .keyError | .raised => True

def EngineCall.evicts : EngineCall → Bool
  | .testLength .. | .popitem .. => true
  | _ => false

lemma EngineCall.isOver_of_evicts {c : EngineCall} (h : c.evicts = true) : c.isOver = false := by
  cases c <;> first | rfl | cases h

structure EnginePool.Sound (settings : CacheSettings) (pool : EnginePool) : Prop where
  cached : ∀ item ∈ pool.shared.engines.items, item.2.lang = item.1
  held : ∀ c ∈ pool.procs, c.HoldsOwn
  evicted : settings.engineCacheMaxSize < pool.shared.engines.size → ∃ c ∈ pool.procs, c.evicts = true

section Steps

variable (settings : CacheSettings) (fails : Bool) {store : EngineStore} {c : EngineCall}

lemma holdsOwn_advance (hcached : ∀ item ∈ store.engines.items, item.2.lang = item.1) (hc : c.HoldsOwn) :
    (advanceEngine settings fails store c).next.HoldsOwn := by
  cases c with
  | lookup language =>
    cases hget : store.engines.get? language with
    | none => simp only [advanceEngine, hget, EngineCall.HoldsOwn]
    | some cached =>
      simp only [advanceEngine, hget]
      exact hcached _ (OrderedDict.get?_eq_some_iff.mp hget)
  | construct language =>
    simp only [advanceEngine]
    split <;> simp [EngineCall.HoldsOwn]
  | insert language engine => exact hc
  | returned language engine => exact hc
  | keyError => trivial
  | raised => trivial
  | _ =>
    simp only [advanceEngine]
    split <;> first | exact hc | trivial

lemma cached_advance (hcached : ∀ item ∈ store.engines.items, item.2.lang = item.1) (hc : c.HoldsOwn) :
    ∀ item ∈ (advanceEngine settings fails store c).shared.engines.items, item.2.lang = item.1 := by
  cases c with
  | moveToEnd language cached =>
    cases hmove : store.engines.moveToEnd? language with
    | none => simpa only [advanceEngine, hmove] using hcached
    | some engines =>
      simp only [advanceEngine, hmove]
      intro item hitem
      exact hcached item ((OrderedDict.perm_of_moveToEnd? hmove).mem_iff.mp hitem)
  | insert language engine =>
    rintro ⟨key, value⟩ hitem
    rcases OrderedDict.mem_items_set.mp hitem with ⟨rfl, rfl⟩ | ⟨-, hold⟩
    · exact hc
    · exact hcached _ hold
  | popitem language engine =>
    cases hpop : store.engines.popFirst? with
    | none => simpa only [advanceEngine, hpop] using hcached
    | some popped =>
      obtain ⟨oldest, engines⟩ := popped
      simp only [advanceEngine, hpop]
      intro item hitem
      apply hcached
      rw [OrderedDict.items_of_popFirst? hpop]
      exact List.mem_cons_of_mem _ hitem
  | _ =>
    simp only [advanceEngine]
    try split
    all_goals exact hcached

/-- A call that has changed the size of the cache stays to evict, and stops only within the capacity. -/
lemma size_advance (store : EngineStore) (c : EngineCall) :
    (advanceEngine settings fails store c).next.evicts = true ∨
      (advanceEngine settings fails store c).shared.engines.size ≤ settings.engineCacheMaxSize ∨
      (c.evicts = false ∧ (advanceEngine settings fails store c).shared.engines.size = store.engines.size) := by
  cases c with
  | lookup language =>
    simp only [advanceEngine]
    split <;> exact .inr (.inr ⟨rfl, rfl⟩)
  | moveToEnd language cached =>
    cases hmove : store.engines.moveToEnd? language with
    | none =>
      simp only [advanceEngine, hmove]
      exact .inr (.inr ⟨rfl, trivial⟩)
    | some engines =>
      simp only [advanceEngine, hmove]
      have hsize := (OrderedDict.perm_of_moveToEnd? hmove).length_eq
      exact .inr (.inr ⟨rfl, hsize⟩)
  | construct language =>
    simp only [advanceEngine]
    split <;> exact .inr (.inr ⟨rfl, rfl⟩)
  | insert language engine => exact .inl rfl
  | testLength language engine =>
    simp only [advanceEngine]
    split
    · exact .inl rfl
    · rename_i hwithin
      exact .inr (.inl (not_lt.mp hwithin))
  | popitem language engine =>
    cases hpop : store.engines.popFirst? with
    | none =>
      simp only [advanceEngine, hpop]
      refine .inr (.inl ?_)
      rw [OrderedDict.size, OrderedDict.popFirst?_eq_none_iff.mp hpop]
      exact Nat.zero_le _
    | some popped =>
      simp only [advanceEngine, hpop]
      exact .inl rfl
  | returned | keyError | raised => exact .inr (.inr ⟨rfl, rfl⟩)

end Steps

lemma started_advanceEngine (settings : CacheSettings) (fails : Bool) (store : EngineStore)
    (c : EngineCall) : (advanceEngine settings fails store c).started = [] := by
  cases c <;> simp only [advanceEngine] <;> try split
  all_goals rfl

namespace EnginePool

variable {settings : CacheSettings} {pool : EnginePool}

lemma sound_empty (settings : CacheSettings) : Sound settings empty :=
  ⟨nofun, nofun, nofun⟩

lemma Sound.step (h : pool.Sound settings) {i : ℕ} (fails : Bool) {c : EngineCall}
    (hc : pool.procs[i]? = some c) :
    Sound settings (ProcessPool.step (advanceEngine settings fails) pool i) := by
  have hshared := shared_step (advanceEngine settings fails) hc
  have hown := h.held c (List.mem_of_getElem? hc)
  refine ⟨?_, ?_, fun hover => ?_⟩
  · rw [hshared]
    exact cached_advance settings fails h.cached hown
  · apply forall_step hc h.held (holdsOwn_advance settings fails h.cached hown)
    rw [started_advanceEngine]
    nofun
  rw [hshared] at hover
  rcases size_advance settings fails pool.shared c with hevicts | hwithin | ⟨hstays, hsize⟩
  · exact ⟨_, List.mem_of_getElem? (getElem?_step_self hc), hevicts⟩
  · exact absurd hover (not_lt.mpr hwithin)
  · rw [hsize] at hover
    obtain ⟨c', hmem, hevicts⟩ := h.evicted hover
    obtain ⟨j, hj⟩ := List.mem_iff_getElem?.mp hmem
    have hne : j ≠ i := by
      rintro rfl
      have hsame := Option.some.inj (hc.symm.trans hj)
      rw [hsame, hevicts] at hstays
      cases hstays
    exact ⟨c', List.mem_of_getElem? (getElem?_step_of_ne hne hj), hevicts⟩

lemma Sound.next (h : pool.Sound settings) (event : EngineEvent) : Sound settings (pool.next settings event) := by
  cases event with
  | getEngine language =>
    refine ⟨h.cached, fun c hc => ?_, fun hover => ?_⟩
    · rcases List.mem_append.mp hc with hold | hnew
      · exact h.held c hold
      · rw [List.mem_singleton.mp hnew, startGetEngine]
        split <;> trivial
    · obtain ⟨c, hc, hevicts⟩ := h.evicted hover
      exact ⟨c, List.mem_append_left _ hc, hevicts⟩
  | step i fails =>
    cases hc : pool.procs[i]? with
    | none =>
      rw [EnginePool.next, step_of_none hc]
      exact h
    | some c => exact h.step fails hc

lemma Sound.withinCapacity (h : pool.Sound settings) (hquiet : ∀ c ∈ pool.procs, c.isOver = true) :
    pool.shared.engines.size ≤ settings.engineCacheMaxSize := by
  by_contra hover
  obtain ⟨c, hc, hevicts⟩ := h.evicted (not_le.mp hover)
  have hopen := EngineCall.isOver_of_evicts hevicts
  rw [hquiet c hc] at hopen
  cases hopen

/-! ### The two operations that can fail -/

lemma next_eq_keyError_iff (settings : CacheSettings) (fails : Bool) (store : EngineStore) {c : EngineCall}
    (hc : c ≠ .keyError) :
    (advanceEngine settings fails store c).next = .keyError ↔ ¬c.FindsItsItem store := by
  cases c with
  | moveToEnd language cached =>
    rw [EngineCall.FindsItsItem, ← OrderedDict.moveToEnd?_eq_none_iff]
    cases hmove : store.engines.moveToEnd? language <;> simp [advanceEngine, hmove]
  | popitem language engine =>
    rw [EngineCall.FindsItsItem, ne_eq, not_not, ← OrderedDict.popFirst?_eq_none_iff]
    cases hpop : store.engines.popFirst? <;> simp [advanceEngine, hpop]
  | keyError => exact absurd rfl hc
  | _ =>
    simp only [EngineCall.FindsItsItem, not_true, iff_false, advanceEngine]
    try split
    all_goals
      intro h
      cases h

lemma keyError_notMem_next_iff (settings : CacheSettings) (pool : EnginePool) (event : EngineEvent) :
    .keyError ∉ (pool.next settings event).procs ↔
      .keyError ∉ pool.procs ∧ event.FindsItsItem pool := by
  cases event with
  | getEngine language =>
    have hstart : EngineCall.keyError ≠ startGetEngine settings language := by
      intro h
      rw [startGetEngine] at h
      split at h <;> cases h
    simp [EnginePool.next, ProcessPool.start, EngineEvent.FindsItsItem, hstart]
  | step i fails =>
    simp only [EnginePool.next, EngineEvent.FindsItsItem]
    cases hc : pool.procs[i]? with
    | none => simp [step_of_none hc]
    | some c =>
      have hmem := List.mem_of_getElem? hc
      simp only [Option.mem_some_iff, forall_eq']
      constructor
      · intro hsafe
        have hold : EngineCall.keyError ∉ pool.procs := by
          intro hold
          obtain ⟨j, hj⟩ := List.mem_iff_getElem?.mp hold
          by_cases hij : j = i
          · subst hij
            have hself : (ProcessPool.step (advanceEngine settings fails) pool j).procs[j]? = some .keyError :=
              getElem?_step_self hj
            exact hsafe (List.mem_of_getElem? hself)
          · exact hsafe (List.mem_of_getElem? (getElem?_step_of_ne hij hj))
        have hne : c ≠ .keyError := fun h => hold (h ▸ hmem)
        refine ⟨hold, by_contra fun hfinds => hsafe ?_⟩
        rw [← (next_eq_keyError_iff settings fails pool.shared hne).mpr hfinds]
        exact List.mem_of_getElem? (getElem?_step_self hc)
      · rintro ⟨hold, hfinds⟩ hbad
        have hne : c ≠ .keyError := fun h => hold (h ▸ hmem)
        have hall : ∀ c' ∈ (ProcessPool.step (advanceEngine settings fails) pool i).procs, c' ≠ .keyError := by
          apply forall_step (Q := (· ≠ .keyError)) hc
          · exact fun c' hc' h => hold (h ▸ hc')
          · exact fun h => (next_eq_keyError_iff settings fails pool.shared hne).mp h hfinds
          · rw [started_advanceEngine]
            exact fun c' hc' => absurd hc' List.not_mem_nil
        exact hall _ hbad rfl

lemma noKeyError_run_iff (settings : CacheSettings) (events : List EngineEvent) :
    .keyError ∉ (run (next settings) empty events).procs ↔
      Along (next settings) (fun pool event => event.FindsItsItem pool) empty events := by
  have hempty : EngineCall.keyError ∉ empty.procs := List.not_mem_nil
  have h := run_iff_along (I := fun pool : EnginePool => .keyError ∉ pool.procs)
    (keyError_notMem_next_iff settings) empty events
  rw [h]
  exact and_iff_right hempty

lemma safe_run (settings : CacheSettings) {events : List EngineEvent}
    (hevents : Along (next settings) (fun pool event => event.FindsItsItem pool) empty events) :
    Safe settings (run (next settings) empty events) := by
  have hsound : Sound settings (run (next settings) empty events) :=
    run_invariant (fun _ event h _ => h.next event) (sound_empty settings) hevents
  exact ⟨(noKeyError_run_iff settings events).mpr hevents, fun language engine => hsound.held _,
    hsound.withinCapacity⟩

end EnginePool

/-- The cache is safe in exactly the runs in which a call finds the item that it reorders or evicts. -/
theorem engineCache_safe_iff (settings : CacheSettings) (events : List EngineEvent) :
    (run (EnginePool.next settings) EnginePool.empty events).Safe settings ↔
      Along (EnginePool.next settings) (fun pool event => event.FindsItsItem pool) EnginePool.empty events :=
  ⟨fun hsafe => (EnginePool.noKeyError_run_iff settings events).mp hsafe.noKeyError,
    EnginePool.safe_run settings⟩

/-- One engine at most, and two languages. -/
def oneEngine : CacheSettings where
  supportedLanguages := ["en", "pl"]
  engineCacheMaxSize := 1

/-- A second request for `en` looks its engine up; before it moves the engine to the end, a request for
`pl` evicts it. -/
def evictedBeforeMove : List EngineEvent :=
  .getEngine "en" :: List.replicate 4 (.step 0 false) ++ [.getEngine "en", .step 1 false, .getEngine "pl"] ++
    List.replicate 6 (.step 2 false) ++ [.step 1 false]

theorem evictedBeforeMove_not_safe :
    ¬(run (EnginePool.next oneEngine) EnginePool.empty evictedBeforeMove).Safe oneEngine := by
  intro hsafe
  exact hsafe.noKeyError (by decide)

/-! ### A cache with room for every language -/

/-- No call evicts, so what a call has found stays. -/
def EngineCall.Kept (settings : CacheSettings) (store : EngineStore) : EngineCall → Prop
  | .lookup language | .construct language | .insert language _ => language ∈ settings.supportedLanguages
  | .moveToEnd language _ => language ∈ store.engines.keys
  | .popitem .. => False
  | .testLength .. | .returned .. | .keyError | .raised => True

structure EnginePool.Kept (settings : CacheSettings) (pool : EnginePool) : Prop where
  supported : ∀ language ∈ pool.shared.engines.keys, language ∈ settings.supportedLanguages
  calls : ∀ c ∈ pool.procs, c.Kept settings pool.shared

section Room

variable {settings : CacheSettings} {store : EngineStore} {c : EngineCall}

lemma EngineCall.Kept.findsItsItem (h : c.Kept settings store) : c.FindsItsItem store := by
  cases c with
  | moveToEnd language cached => exact h
  | popitem language engine => exact h.elim
  | _ => trivial

lemma EngineCall.Kept.mono {store' : EngineStore} (h : c.Kept settings store)
    (hkeys : ∀ language ∈ store.engines.keys, language ∈ store'.engines.keys) : c.Kept settings store' := by
  cases c with
  | moveToEnd language cached => exact hkeys language h
  | _ => exact h

lemma size_le_of_supported (hroom : settings.supportedLanguages.length ≤ settings.engineCacheMaxSize)
    (hsupported : ∀ language ∈ store.engines.keys, language ∈ settings.supportedLanguages) :
    store.engines.size ≤ settings.engineCacheMaxSize := by
  have hnodup : store.engines.keys.Nodup := store.engines.nodup
  have hle := hnodup.length_le_of_subset hsupported
  rw [OrderedDict.length_keys] at hle
  exact hle.trans hroom

/-- An operation of a call that does not evict: the cache keeps its languages. -/
lemma keys_advance (fails : Bool) (h : c.Kept settings store) (language : String) :
    (language ∈ store.engines.keys →
        language ∈ (advanceEngine settings fails store c).shared.engines.keys) ∧
      (language ∈ (advanceEngine settings fails store c).shared.engines.keys →
        language ∈ store.engines.keys ∨ language ∈ settings.supportedLanguages) := by
  cases c with
  | moveToEnd key cached =>
    cases hmove : store.engines.moveToEnd? key with
    | none => simp only [advanceEngine, hmove]; exact ⟨id, .inl⟩
    | some engines =>
      simp only [advanceEngine, hmove]
      have hperm := ((OrderedDict.perm_of_moveToEnd? hmove).map Prod.fst).mem_iff (a := language)
      exact ⟨hperm.mpr, fun hkey => .inl (hperm.mp hkey)⟩
  | insert key engine =>
    simp only [advanceEngine, OrderedDict.mem_keys_set]
    refine ⟨.inr, ?_⟩
    rintro (rfl | hkey)
    · exact .inr h
    · exact .inl hkey
  | popitem key engine => exact h.elim
  | _ =>
    simp only [advanceEngine]
    try split
    all_goals exact ⟨id, .inl⟩

lemma kept_advance (hroom : settings.supportedLanguages.length ≤ settings.engineCacheMaxSize) (fails : Bool)
    (hsupported : ∀ language ∈ store.engines.keys, language ∈ settings.supportedLanguages)
    (h : c.Kept settings store) :
    (advanceEngine settings fails store c).next.Kept settings (advanceEngine settings fails store c).shared := by
  cases c with
  | lookup language =>
    cases hget : store.engines.get? language with
    | none =>
      simp only [advanceEngine, hget]
      exact h
    | some cached =>
      simp only [advanceEngine, hget]
      exact OrderedDict.mem_keys_of_mem (OrderedDict.get?_eq_some_iff.mp hget)
  | construct language =>
    simp only [advanceEngine]
    split
    · trivial
    · exact h
  | testLength language engine =>
    have hsize := size_le_of_supported hroom hsupported
    simp only [advanceEngine, if_neg (not_lt.mpr hsize)]
    trivial
  | popitem language engine => exact h.elim
  | moveToEnd language cached =>
    simp only [advanceEngine]
    split <;> trivial
  | _ => trivial

lemma EnginePool.Kept.next (hroom : settings.supportedLanguages.length ≤ settings.engineCacheMaxSize)
    {pool : EnginePool} (h : pool.Kept settings) (event : EngineEvent) :
    Kept settings (pool.next settings event) ∧ event.FindsItsItem pool := by
  cases event with
  | getEngine language =>
    refine ⟨⟨h.supported, fun c hc => ?_⟩, trivial⟩
    rcases List.mem_append.mp hc with hold | hnew
    · exact h.calls c hold
    · rw [List.mem_singleton.mp hnew, startGetEngine]
      split
      · rename_i hlanguage
        exact List.contains_iff_mem.mp hlanguage
      · trivial
  | step i fails =>
    cases hc : pool.procs[i]? with
    | none =>
      rw [EnginePool.next, step_of_none hc]
      exact ⟨h, by simp [EngineEvent.FindsItsItem, hc]⟩
    | some c =>
      have hkept := h.calls c (List.mem_of_getElem? hc)
      have hshared := shared_step (advanceEngine settings fails) hc
      refine ⟨⟨fun language hkey => ?_, ?_⟩, ?_⟩
      · rw [EnginePool.next, hshared] at hkey
        rcases (keys_advance fails hkept language).2 hkey with hold | hnew
        · exact h.supported language hold
        · exact hnew
      · rw [EnginePool.next, hshared]
        apply forall_step (Q := fun c' => c'.Kept settings (advanceEngine settings fails pool.shared c).shared) hc
        · intro c' hc'
          exact (h.calls c' hc').mono fun language => (keys_advance fails hkept language).1
        · exact kept_advance hroom fails h.supported hkept
        · rw [started_advanceEngine]
          nofun
      · intro c' hc'
        rw [hc, Option.mem_some_iff] at hc'
        rw [← hc']
        exact hkept.findsItsItem

end Room

/-- Without evictions the missing lock does no harm. -/
theorem engineCache_safe_of_room {settings : CacheSettings}
    (hroom : settings.supportedLanguages.length ≤ settings.engineCacheMaxSize) (events : List EngineEvent) :
    (run (EnginePool.next settings) EnginePool.empty events).Safe settings := by
  apply EnginePool.safe_run
  have hempty : EnginePool.Kept settings EnginePool.empty := ⟨nofun, nofun⟩
  have hstep : ∀ (pool : EnginePool) (event : EngineEvent), pool.Kept settings → True →
      EnginePool.Kept settings (pool.next settings event) ∧ event.FindsItsItem pool :=
    fun _ event h _ => h.next hroom event
  exact along_of_invariant hstep hempty (along_of_forall (fun _ _ _ => trivial) _)

end AscendAI.Ocr
