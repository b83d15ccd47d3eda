import AscendAI.Lib.RecentlyUsed
import AscendAI.Ocr.EngineCache

/-!
# Engines that are asked for one after the other

`_get_engine` as one call, when no other call comes in between. The cache then holds the engines of the
languages that were obtained last, in the order in which they were.
-/

namespace AscendAI.Ocr
open ListWindow RecentlyUsed

/-- What `_get_engine` raises; the constructor of an engine raises what it likes. -/
inductive EngineError where
  | unsupportedLanguage (language : String)
  | construction
  | keyError
  deriving DecidableEq

section Service

variable (settings : CacheSettings)

/-- `_evict_if_over_capacity` -/
def evictIfOverCapacity (engines : OrderedDict String PaddleOcr) : OrderedDict String PaddleOcr :=
  if settings.engineCacheMaxSize < engines.size then
    match _h : engines.popFirst? with
    | some (_, rest) => evictIfOverCapacity rest
    | none => engines
  else engines
termination_by engines.size
decreasing_by
  rw [OrderedDict.size, OrderedDict.size, OrderedDict.items_of_popFirst? _h]
  exact Nat.lt_succ_self _

/-- `_get_engine`; `fails` says whether the constructor raises. -/
def getEngine (fails : Bool) (store : EngineStore) (language : String) :
    EngineStore × Except EngineError PaddleOcr :=
  if !settings.supportedLanguages.contains language then (store, .error (.unsupportedLanguage language))
  else
    match store.engines.get? language with
    | some cached =>
      match store.engines.moveToEnd? language with
      | some engines => ({ store with engines := engines }, .ok cached)
      | none => (store, .error .keyError)
    | none =>
      if fails then (store, .error .construction)
      else
        let engine : PaddleOcr := ⟨language, store.built⟩
        ⟨⟨evictIfOverCapacity settings (store.engines.set language engine), store.built + 1⟩, .ok engine⟩

structure EngineRequest where
  language : String
  fails : Bool

/-- The calls one after the other, with the languages whose engines they returned. -/
def getEngines (store : EngineStore) : List EngineRequest → EngineStore × List String
  | [] => (store, [])
  | request :: requests =>
    let answer := getEngine settings request.fails store request.language
    let later := getEngines answer.1 requests
    (later.1, if answer.2.isOk then request.language :: later.2 else later.2)

end Service

/-! ### What a call leaves in the cache -/

section Calls

variable {settings : CacheSettings}

/-- The oldest engines go until the others fit. -/
lemma keys_evictIfOverCapacity (engines : OrderedDict String PaddleOcr) :
    (evictIfOverCapacity settings engines).keys = newest settings.engineCacheMaxSize engines.keys := by
  fun_induction evictIfOverCapacity settings engines with
  | case1 engines hover oldest rest hpop ih =>
    have hkeys := OrderedDict.keys_of_popFirst? hpop
    rw [← OrderedDict.length_keys, hkeys, List.length_cons] at hover
    rw [ih, hkeys, newest, newest, List.length_cons,
      Nat.succ_sub (Nat.lt_succ_iff.mp hover), List.drop_succ_cons]
  | case2 engines hover hpop =>
    rw [OrderedDict.size, OrderedDict.popFirst?_eq_none_iff.mp hpop] at hover
    exact absurd hover (Nat.not_lt_zero _)
  | case3 engines hwithin =>
    rw [← OrderedDict.length_keys] at hwithin
    rw [newest, Nat.sub_eq_zero_of_le (not_lt.mp hwithin), List.drop_zero]

/-- An engine that is not evicted stays what it was. -/
lemma get?_evictIfOverCapacity {engines : OrderedDict String PaddleOcr} {language : String}
    (hstays : language ∈ (evictIfOverCapacity settings engines).keys) :
    (evictIfOverCapacity settings engines).get? language = engines.get? language := by
  fun_induction evictIfOverCapacity settings engines with
  | case1 engines hover oldest rest hpop ih =>
    have hitems := OrderedDict.items_of_popFirst? hpop
    rw [ih hstays]
    have hmem : language ∈ rest.keys := by
      apply (newest_suffix settings.engineCacheMaxSize rest.keys).subset
      rwa [← keys_evictIfOverCapacity]
    obtain ⟨engine, hengine⟩ := OrderedDict.mem_keys_iff.mp hmem
    have hrest : rest.get? language = some engine := OrderedDict.get?_eq_some_iff.mpr hengine
    have hold : engines.get? language = some engine := by
      rw [OrderedDict.get?_eq_some_iff, hitems]
      exact List.mem_cons_of_mem _ hengine
    rw [hrest, hold]
  | case2 => rfl
  | case3 => rfl

/-- What a call does: it fails and leaves the store alone, or it finds its engine and makes it the last one,
or it builds one and evicts. -/
lemma getEngine_cases (settings : CacheSettings) (fails : Bool) (store : EngineStore) (language : String) :
    (∃ error, error ≠ .keyError ∧ (language ∈ settings.supportedLanguages → store.engines.get? language = none) ∧
      getEngine settings fails store language = (store, .error error)) ∨
    (∃ cached engines, language ∈ settings.supportedLanguages ∧ store.engines.get? language = some cached ∧
      store.engines.moveToEnd? language = some engines ∧
      getEngine settings fails store language = ({ store with engines := engines }, .ok cached)) ∨
    (store.engines.get? language = none ∧ language ∈ settings.supportedLanguages ∧
      getEngine settings fails store language =
        (⟨evictIfOverCapacity settings (store.engines.set language ⟨language, store.built⟩), store.built + 1⟩,
          .ok ⟨language, store.built⟩)) := by
  unfold getEngine
  by_cases hsupported : language ∈ settings.supportedLanguages
  · rw [if_neg (by simpa using hsupported)]
    cases hget : store.engines.get? language with
    | some cached =>
      have hmem : language ∈ store.engines.keys :=
        OrderedDict.mem_keys_of_mem (OrderedDict.get?_eq_some_iff.mp hget)
      obtain ⟨engines, hmove⟩ := Option.ne_none_iff_exists'.mp fun h =>
        (OrderedDict.moveToEnd?_eq_none_iff.mp h) hmem
      exact .inr (.inl ⟨cached, engines, hsupported, rfl, hmove, by simp only [hmove]⟩)
    | none =>
      cases fails with
      | true => exact .inl ⟨.construction, EngineError.noConfusion, fun _ => rfl, rfl⟩
      | false => exact .inr (.inr ⟨rfl, hsupported, rfl⟩)
  · rw [if_pos (by simpa using hsupported)]
    exact .inl ⟨.unsupportedLanguage language, EngineError.noConfusion, fun h => absurd h hsupported, rfl⟩

/-! ### The call as a process -/

/-- What the process of a call ends with. -/
def endOf (language : String) : Except EngineError PaddleOcr → EngineCall
  | .ok engine => .returned language engine
  | .error .keyError => .keyError
  | .error _ => .raised

/-- One operation of a call that runs alone. -/
def stepAlone (settings : CacheSettings) (fails : Bool) (state : EngineStore × EngineCall) : EngineStore × EngineCall :=
  ((advanceEngine settings fails state.1 state.2).shared, (advanceEngine settings fails state.1 state.2).next)

lemma evict_alone (settings : CacheSettings) (fails : Bool) (engines : OrderedDict String PaddleOcr) (built : ℕ)
    (language : String) (engine : PaddleOcr) :
    ∃ n, (stepAlone settings fails)^[n] (⟨engines, built⟩, .testLength language engine) =
      (⟨evictIfOverCapacity settings engines, built⟩, .returned language engine) := by
  fun_induction evictIfOverCapacity settings engines with
  | case1 engines hover oldest rest hpop ih =>
    obtain ⟨n, hn⟩ := ih
    refine ⟨n + 2, ?_⟩
    have htest : stepAlone settings fails (⟨engines, built⟩, .testLength language engine) =
        (⟨engines, built⟩, .popitem language engine) := by
      simp only [stepAlone, advanceEngine, if_pos hover]
    have hpopped : stepAlone settings fails (⟨engines, built⟩, .popitem language engine) =
        (⟨rest, built⟩, .testLength language engine) := by
      simp only [stepAlone, advanceEngine, hpop]
    rw [Function.iterate_succ_apply, htest, Function.iterate_succ_apply, hpopped, hn]
  | case2 engines hover hpop =>
    rw [OrderedDict.size, OrderedDict.popFirst?_eq_none_iff.mp hpop] at hover
    exact absurd hover (Nat.not_lt_zero _)
  | case3 engines hwithin =>
    refine ⟨1, ?_⟩
    simp only [Function.iterate_one, stepAlone, advanceEngine, if_neg hwithin]

/-- Taken without a step of another call in between, the operations of the process are the call. -/
theorem getEngine_alone (fails : Bool) (store : EngineStore) (language : String) :
    ∃ n, (stepAlone settings fails)^[n] (store, startGetEngine settings language) =
      ((getEngine settings fails store language).1, endOf language (getEngine settings fails store language).2) := by
  unfold getEngine startGetEngine
  cases settings.supportedLanguages.contains language with
  | false => exact ⟨0, rfl⟩
  | true =>
    cases hget : store.engines.get? language with
    | some cached =>
      refine ⟨2, ?_⟩
      cases hmove : store.engines.moveToEnd? language <;>
        simp [stepAlone, advanceEngine, hget, hmove, endOf]
    | none =>
      cases fails with
      | true =>
        refine ⟨2, ?_⟩
        simp [stepAlone, advanceEngine, hget, endOf]
      | false =>
        obtain ⟨n, hn⟩ := evict_alone settings false (store.engines.set language ⟨language, store.built⟩)
          (store.built + 1) language ⟨language, store.built⟩
        refine ⟨n + 3, ?_⟩
        simp only [Bool.not_true, Bool.false_eq_true, if_false, if_true, endOf]
        rw [← hn, Function.iterate_succ_apply, Function.iterate_succ_apply, Function.iterate_succ_apply]
        simp [stepAlone, advanceEngine, hget]

/-! ### The cache over a sequence of calls -/

/-- The cache holds what was used last. -/
structure EngineStore.Recent (settings : CacheSettings) (store : EngineStore) (used : List String) : Prop where
  keys : store.engines.keys = newest settings.engineCacheMaxSize used.dedup
  supported : ∀ language ∈ used, language ∈ settings.supportedLanguages

namespace EngineStore.Recent

variable {store : EngineStore} {used : List String}

lemma supported_of_mem_keys (h : store.Recent settings used) {language : String}
    (hmem : language ∈ store.engines.keys) : language ∈ settings.supportedLanguages := by
  rw [h.keys] at hmem
  exact h.supported language (List.mem_dedup.mp ((newest_suffix _ _).subset hmem))

lemma supported_of_get? (h : store.Recent settings used) {language : String} {cached : PaddleOcr}
    (hget : store.engines.get? language = some cached) : language ∈ settings.supportedLanguages :=
  h.supported_of_mem_keys (OrderedDict.mem_keys_of_mem (OrderedDict.get?_eq_some_iff.mp hget))

lemma concat_supported (h : store.Recent settings used) {language : String}
    (hsupported : language ∈ settings.supportedLanguages) :
    ∀ language' ∈ used ++ [language], language' ∈ settings.supportedLanguages :=
  List.forall_mem_append.mpr ⟨h.supported, List.forall_mem_singleton.mpr hsupported⟩

lemma moveToEnd (h : store.Recent settings used) {language : String} {engines : OrderedDict String PaddleOcr}
    (hsupported : language ∈ settings.supportedLanguages)
    (hmove : store.engines.moveToEnd? language = some engines) :
    EngineStore.Recent settings { store with engines := engines } (used ++ [language]) := by
  refine ⟨?_, h.concat_supported hsupported⟩
  have hmem : language ∈ store.engines.keys := by
    by_contra hnot
    rw [OrderedDict.moveToEnd?_eq_none_iff.mpr hnot] at hmove
    cases hmove
  rw [h.keys] at hmem
  rw [OrderedDict.keys_moveToEnd? hmove, h.keys, dedup_concat, newest_touch_of_mem (List.nodup_dedup used) hmem]

lemma insert (h : store.Recent settings used) {language : String}
    (hsupported : language ∈ settings.supportedLanguages) (hnot : language ∉ store.engines.keys)
    (engine : PaddleOcr) (built : ℕ) :
    EngineStore.Recent settings ⟨evictIfOverCapacity settings (store.engines.set language engine), built⟩
      (used ++ [language]) := by
  refine ⟨?_, h.concat_supported hsupported⟩
  rw [keys_evictIfOverCapacity, OrderedDict.keys_set_of_notMem hnot, h.keys, dedup_concat, newest_touch_of_notMem]
  rwa [← h.keys]

/-- A call that returns an engine makes its language the one that was used last. -/
lemma getEngine (h : store.Recent settings used) (fails : Bool) (language : String) :
    (getEngine settings fails store language).1.Recent settings
      (if (getEngine settings fails store language).2.isOk then used ++ [language] else used) := by
  rcases getEngine_cases settings fails store language with
    ⟨error, -, -, hcall⟩ | ⟨cached, engines, hsupported, -, hmove, hcall⟩ | ⟨hget, hsupported, hcall⟩
  · rw [hcall]
    exact h
  · rw [hcall]
    exact h.moveToEnd hsupported hmove
  · rw [hcall]
    exact h.insert hsupported (OrderedDict.get?_eq_none_iff.mp hget) _ _

lemma getEngines (h : store.Recent settings used) (requests : List EngineRequest) :
    (getEngines settings store requests).1.Recent settings (used ++ (getEngines settings store requests).2) := by
  induction requests generalizing store used with
  | nil =>
    rw [Ocr.getEngines, List.append_nil]
    exact h
  | cons request requests ih =>
    have hlater := ih (h.getEngine request.fails request.language)
    rw [Ocr.getEngines]
    split_ifs at hlater ⊢ with hok
    · rwa [List.append_assoc] at hlater
    · exact hlater

end EngineStore.Recent

lemma recent_empty (settings : CacheSettings) : EngineStore.Recent settings {} [] :=
  ⟨(newest_nil _).symm, fun _ h => absurd h List.not_mem_nil⟩

/-- An engine that is in the cache before and after a call is the same object. -/
lemma get?_getEngine (settings : CacheSettings) (fails : Bool) {store : EngineStore} {language other : String}
    {engine : PaddleOcr} (hget : store.engines.get? other = some engine)
    (hstays : other ∈ (getEngine settings fails store language).1.engines.keys) :
    (getEngine settings fails store language).1.engines.get? other = some engine := by
  rcases getEngine_cases settings fails store language with
    ⟨error, -, -, hcall⟩ | ⟨cached, engines, -, -, hmove, hcall⟩ | ⟨hnone, -, hcall⟩
  · rwa [hcall]
  · rw [hcall, OrderedDict.get?_moveToEnd? hmove, hget]
  · rw [hcall] at hstays ⊢
    have hne : other ≠ language := by
      rintro rfl
      rw [hget] at hnone
      cases hnone
    rw [get?_evictIfOverCapacity hstays, OrderedDict.get?_set, if_neg hne, hget]

/-- After any calls, the cache holds the languages that were obtained last, in that order; a language in it
is answered with its engine and without a construction, an engine stays the same as long as it is in the cache,
and a call that fails leaves the store as it was. -/
theorem engineCache_recentlyUsed (settings : CacheSettings) (requests : List EngineRequest) :
    let store := (getEngines settings {} requests).1
    let obtained := (getEngines settings {} requests).2
    store.engines.keys = newest settings.engineCacheMaxSize obtained.dedup ∧
    store.engines.keys.length = min settings.engineCacheMaxSize obtained.dedup.length ∧
    ∀ fails language,
      (∀ cached, store.engines.get? language = some cached → ∃ engines,
        getEngine settings fails store language = ({ store with engines := engines }, .ok cached)) ∧
      (∀ other engine, store.engines.get? other = some engine →
        other ∈ (getEngine settings fails store language).1.engines.keys →
        (getEngine settings fails store language).1.engines.get? other = some engine) ∧
      ∀ error, (getEngine settings fails store language).2 = .error error →
        (getEngine settings fails store language).1 = store := by
  have hrecent := (recent_empty settings).getEngines requests
  rw [List.nil_append] at hrecent
  refine ⟨hrecent.keys, ?_, fun fails language => ⟨fun cached hget => ?_, fun other engine hget hstays => ?_,
    fun error herror => ?_⟩⟩
  · rw [hrecent.keys, length_newest]
  · rcases getEngine_cases settings fails _ language with
      ⟨error, -, hnone, -⟩ | ⟨cached', engines, -, hget', -, hcall⟩ | ⟨hnone, -⟩
    · rw [hnone (hrecent.supported_of_get? hget)] at hget
      cases hget
    · obtain rfl := Option.some.inj (hget'.symm.trans hget)
      exact ⟨engines, hcall⟩
    · rw [hnone] at hget
      cases hget
  · exact get?_getEngine settings fails hget hstays
  · rcases getEngine_cases settings fails (getEngines settings {} requests).1 language with
      ⟨error', -, -, hcall⟩ | ⟨cached, engines, -, -, -, hcall⟩ | ⟨-, -, hcall⟩
    · rw [hcall]
    · rw [hcall] at herror
      cases herror
    · rw [hcall] at herror
      cases herror

end Calls

end AscendAI.Ocr
