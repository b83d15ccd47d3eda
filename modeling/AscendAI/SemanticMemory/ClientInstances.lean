import AscendAI.Lib.OrderedDict
import AscendAI.Lib.ProcessPool
import AscendAI.Lib.Runs
import AscendAI.SemanticMemory.MemoryService

/-!
# The client of a provider

`get_memory_client` builds a client at the first request for its provider. It looks the instance up,
takes the lock, looks it up again, and builds and stores it before the lock is free. A call is a
process of a pool, and each of these is one of its steps.
-/

namespace AscendAI.SemanticMemory
open ProcessPool Runs

/-- A client as an object: its number among the clients built so far is its identity. -/
structure ClientInstance where
  client : AscendMemoryClient
  serial : ℕ
  deriving DecidableEq

/-- The module's `_client_instances` and `_client_lock`, and the successful constructions in order. -/
structure ClientRegistry where
  instances : OrderedDict String ClientInstance := .empty
  locked : Bool := false
  built : List ClientInstance := []

inductive GetClientError where
  | service (error : ServiceError)
  | fromConfig
  deriving DecidableEq

/-- Where a call of `get_memory_client` stands: before its next step, or at its end. -/
inductive GetClient where
  | lookup (resolved : String)
  | acquire (resolved : String)
  | recheck (resolved : String)
  | construct (resolved : String)
  | store (resolved : String) (client : ClientInstance)
  | release (resolved : String) (outcome : Except GetClientError ClientInstance)
  | returned (resolved : String) (client : ClientInstance)
  | raised (error : GetClientError)

/-- The call is in the block of the lock. -/
def GetClient.inside : GetClient → Bool
  | .recheck _ | .construct _ | .store .. | .release .. => true
  | .lookup _ | .acquire _ | .returned .. | .raised _ => false

section Service

variable (svc : MemoryService)

/-- `AscendMemoryClient.__init__` up to `Memory.from_config`. -/
def newAscendMemoryClient (provider : String) : Except ServiceError AscendMemoryClient :=
  match providerConfigs.lookup provider with
  | none => .error (.keyError provider)
  | some config =>
    if PythonString.strip (providerSettingsValue svc.settings config.apiKeySetting) = "" then
      .error (.valueError ("Provider '" ++ provider ++ "' requires env var " ++ config.apiKeySetting.name ++
        " but it is missing or blank. Set it before invoking this provider."))
    else .ok ⟨provider, config.collectionName⟩

/-- The construction; `fails` says whether `Memory.from_config` raises. -/
def constructClient (fails : Bool) (provider : String) : Except GetClientError AscendMemoryClient :=
  match newAscendMemoryClient svc provider with
  | .error e => .error (.service e)
  | .ok client => if fails then .error .fromConfig else .ok client

def startGetClient (provider : Option String) : GetClient :=
  match resolveProvider svc provider with
  | .error e => .raised (.service e)
  | .ok resolved => .lookup resolved

/-- One step of `get_memory_client`; a call that finds the lock taken waits. -/
def advanceClient (fails : Bool) (registry : ClientRegistry) : GetClient → Outcome ClientRegistry GetClient
  | .lookup resolved =>
    match registry.instances.get? resolved with
    | some existing => ⟨registry, .returned resolved existing, []⟩
    | none => ⟨registry, .acquire resolved, []⟩
  | .acquire resolved =>
    if registry.locked then ⟨registry, .acquire resolved, []⟩
    else ⟨{ registry with locked := true }, .recheck resolved, []⟩
  | .recheck resolved =>
    match registry.instances.get? resolved with
    | some existing => ⟨registry, .release resolved (.ok existing), []⟩
    | none => ⟨registry, .construct resolved, []⟩
  | .construct resolved =>
    match constructClient svc fails resolved with
    | .error e => ⟨registry, .release resolved (.error e), []⟩
    | .ok client => ⟨{ registry with built := registry.built ++ [⟨client, registry.built.length⟩] },
        .store resolved ⟨client, registry.built.length⟩, []⟩
  | .store resolved client =>
    ⟨{ registry with instances := registry.instances.set resolved client }, .release resolved (.ok client), []⟩
  | .release resolved outcome =>
    ⟨{ registry with locked := false }, match outcome with
      | .ok client => .returned resolved client
      | .error e => .raised e, []⟩
  | call => ⟨registry, call, []⟩

abbrev ClientPool := ProcessPool ClientRegistry GetClient

def ClientPool.empty : ClientPool := ⟨{}, []⟩

/-- A new call, or the next step of a call that is under way. -/
inductive ClientEvent where
  | getClient (provider : Option String)
  | step (i : ℕ) (fails : Bool)

def ClientPool.next (pool : ClientPool) : ClientEvent → ClientPool
  | .getClient provider => pool.start (startGetClient svc provider)
  | .step i fails => pool.step (advanceClient svc fails) i

end Service

/-- Alone, a call resolves the provider and builds the client. -/
lemma getMemoryClient_eq (svc : MemoryService) (provider : Option String) :
    getMemoryClient svc provider = resolveProvider svc provider >>= newAscendMemoryClient svc := rfl

/-! ### What is asked of the registry -/

structure ClientPool.OnePerProvider (pool : ClientPool) : Prop where
  built : (pool.shared.built.map fun c => c.client.provider).Nodup
  same : ∀ resolved c c', .returned resolved c ∈ pool.procs → .returned resolved c' ∈ pool.procs → c = c'
  distinct : ∀ resolved resolved' c c', .returned resolved c ∈ pool.procs →
    .returned resolved' c' ∈ pool.procs → resolved ≠ resolved' → c.serial ≠ c'.serial
  free : (∀ call ∈ pool.procs, call.inside = false) → pool.shared.locked = false

/-- A construction that raises leaves the instances as they are, and the step with which the call then
leaves the block frees the lock. -/
def LeavesRegistry (svc : MemoryService) (pool : ClientPool) : ClientEvent → Prop
  | .getClient _ => True
  | .step i fails =>
    (∀ resolved e, pool.procs[i]? = some (.construct resolved) → constructClient svc fails resolved = .error e →
      (pool.next svc (.step i fails)).shared = pool.shared ∧
        (pool.next svc (.step i fails)).procs[i]? = some (.release resolved (.error e))) ∧
    (∀ resolved e, pool.procs[i]? = some (.release resolved (.error e)) →
      (pool.next svc (.step i fails)).shared = { pool.shared with locked := false } ∧
        (pool.next svc (.step i fails)).procs[i]? = some (.raised e))

/-! ### The lock -/

/-- The lock is taken exactly while its holder is in the block, and no other call is. -/
structure ClientPool.HeldBy (holder : Option ℕ) (pool : ClientPool) : Prop where
  locked : pool.shared.locked = holder.isSome
  inside : ∀ i call, pool.procs[i]? = some call → (call.inside = true ↔ holder = some i)
  present : ∀ i, holder = some i → i < pool.procs.length

section Steps

variable {svc : MemoryService} {pool : ClientPool} {holder : Option ℕ} {i : ℕ} {call : GetClient}

lemma started_advanceClient (svc : MemoryService) (fails : Bool) (registry : ClientRegistry) (call : GetClient) :
    (advanceClient svc fails registry call).started = [] := by
  cases call <;> simp only [advanceClient] <;> try split
  all_goals rfl

lemma startGetClient_inside (svc : MemoryService) (provider : Option String) :
    (startGetClient svc provider).inside = false := by
  rw [startGetClient]
  split <;> rfl

/-- What a step does to the lock: it takes the free lock, frees it, or leaves it and stays on its side. -/
lemma lock_advance (svc : MemoryService) (fails : Bool) (registry : ClientRegistry) (call : GetClient) :
    (call.inside = false ∧ registry.locked = false ∧
        (advanceClient svc fails registry call).shared.locked = true ∧
        (advanceClient svc fails registry call).next.inside = true) ∨
      (call.inside = true ∧ (advanceClient svc fails registry call).shared.locked = false ∧
        (advanceClient svc fails registry call).next.inside = false) ∨
      ((advanceClient svc fails registry call).shared.locked = registry.locked ∧
        (advanceClient svc fails registry call).next.inside = call.inside) := by
  cases call with
  | acquire resolved =>
    simp only [advanceClient]
    split
    · exact .inr (.inr ⟨rfl, rfl⟩)
    · rename_i hfree
      exact .inl ⟨rfl, Bool.eq_false_of_not_eq_true hfree, rfl, rfl⟩
  | release resolved outcome =>
    refine .inr (.inl ⟨rfl, rfl, ?_⟩)
    cases outcome <;> rfl
  | store resolved client => exact .inr (.inr ⟨rfl, rfl⟩)
  | returned resolved client => exact .inr (.inr ⟨rfl, rfl⟩)
  | raised e => exact .inr (.inr ⟨rfl, rfl⟩)
  | _ =>
    simp only [advanceClient]
    split <;> exact .inr (.inr ⟨rfl, rfl⟩)

/-- Only a call in the block changes the instances or builds a client. -/
lemma advance_of_not_inside (svc : MemoryService) (fails : Bool) (registry : ClientRegistry)
    (h : call.inside = false) :
    (advanceClient svc fails registry call).shared.instances = registry.instances ∧
      (advanceClient svc fails registry call).shared.built = registry.built := by
  cases call with
  | lookup resolved =>
    simp only [advanceClient]
    split <;> exact ⟨rfl, rfl⟩
  | acquire resolved =>
    simp only [advanceClient]
    split <;> exact ⟨rfl, rfl⟩
  | returned resolved client => exact ⟨rfl, rfl⟩
  | raised e => exact ⟨rfl, rfl⟩
  | _ => cases h

namespace ClientPool

lemma HeldBy.eq_of_inside (h : pool.HeldBy holder) {j : ℕ} {call' : GetClient}
    (hi : pool.procs[i]? = some call) (hj : pool.procs[j]? = some call') (hin : call.inside = true)
    (hin' : call'.inside = true) : i = j := by
  have hholder := (h.inside i call hi).mp hin
  have hholder' := (h.inside j call' hj).mp hin'
  exact Option.some.inj (hholder.symm.trans hholder')

lemma HeldBy.start (h : pool.HeldBy holder) (hout : call.inside = false) :
    HeldBy holder (ProcessPool.start pool call) := by
  refine ⟨h.locked, fun i call' hi => ?_, fun i hi => ?_⟩
  · rw [getElem?_start] at hi
    split at hi
    · rename_i hlast
      obtain rfl := Option.some.inj hi
      rw [hout, hlast]
      refine ⟨nofun, fun hholder => ?_⟩
      exact absurd (h.present _ hholder) (lt_irrefl _)
    · exact h.inside i call' hi
  · have hlt := h.present i hi
    simp only [ProcessPool.start, List.length_append, List.length_singleton]
    omega

lemma HeldBy.step (h : pool.HeldBy holder) (fails : Bool) (hc : pool.procs[i]? = some call) :
    ∃ holder', HeldBy holder' (ProcessPool.step (advanceClient svc fails) pool i) := by
  have hshared := shared_step (advanceClient svc fails) hc
  have hprocs := getElem?_step (advanceClient svc fails) hc
    (started_advanceClient svc fails pool.shared call)
  have hi := (List.getElem?_eq_some_iff.mp hc).1
  have hlength : (ProcessPool.step (advanceClient svc fails) pool i).procs.length = pool.procs.length := by
    rw [step_of_some hc, started_advanceClient, List.append_nil, List.length_set]
  rcases lock_advance svc fails pool.shared call with
    ⟨hout, hfree, hlocked, hin⟩ | ⟨hin, hlocked, hout⟩ | ⟨hlocked, hsame⟩
  · have hnone : holder = none := by
      have hlock := h.locked
      rw [hfree] at hlock
      exact Option.isNone_iff_eq_none.mp (by simpa using hlock.symm)
    refine ⟨some i, by rw [hshared, hlocked]; rfl, fun j call' hj => ?_, fun j hj => ?_⟩
    · rw [hprocs] at hj
      split at hj
      · rename_i hij
        obtain rfl := Option.some.inj hj
        simp [hin, hij]
      · rename_i hij
        have hother := h.inside j call' hj
        rw [hother, hnone]
        simp [Ne.symm hij]
    · rw [hlength, ← Option.some.inj hj]
      exact hi
  · have hholder := (h.inside i call hc).mp hin
    refine ⟨none, by rw [hshared, hlocked]; rfl, fun j call' hj => ?_, nofun⟩
    rw [hprocs] at hj
    split at hj
    · obtain rfl := Option.some.inj hj
      simp [hout]
    · rename_i hij
      have hother := h.inside j call' hj
      rw [hother, hholder]
      simp [Ne.symm hij]
  · refine ⟨holder, by rw [hshared, hlocked, h.locked], fun j call' hj => ?_, fun j hj => ?_⟩
    · rw [hprocs] at hj
      split at hj
      · rename_i hij
        obtain rfl := Option.some.inj hj
        rw [hsame, hij]
        exact h.inside i call hc
      · exact h.inside j call' hj
    · rw [hlength]
      exact h.present j hj

lemma HeldBy.free (h : pool.HeldBy holder) (hquiet : ∀ call ∈ pool.procs, call.inside = false) :
    pool.shared.locked = false := by
  rw [h.locked]
  cases holder with
  | none => rfl
  | some i =>
    have hi := h.present i rfl
    have hin := (h.inside i _ (List.getElem?_eq_getElem hi)).mpr rfl
    rw [hquiet _ (List.getElem_mem hi)] at hin
    cases hin

end ClientPool

end Steps

/-! ### The instances -/

/-- What a call knows where it stands. -/
def GetClient.Knows (registry : ClientRegistry) : GetClient → Prop
  | .construct resolved => resolved ∉ registry.instances.keys
  | .store resolved client =>
    client ∈ registry.built ∧ client.client.provider = resolved ∧ resolved ∉ registry.instances.keys
  | .release resolved (.ok client) | .returned resolved client => (resolved, client) ∈ registry.instances.items
  | .release _ (.error _) | .lookup _ | .acquire _ | .recheck _ | .raised _ => True

/-- Every instance is a client that was built for its provider, and every client that was built is
stored or about to be. -/
structure ClientPool.Registered (svc : MemoryService) (pool : ClientPool) : Prop where
  stored : ∀ resolved client, (resolved, client) ∈ pool.shared.instances.items →
    client ∈ pool.shared.built ∧ client.client.provider = resolved
  numbered : ∀ (k : ℕ) (client : ClientInstance), pool.shared.built[k]? = some client → client.serial = k
  constructed : ∀ client ∈ pool.shared.built,
    newAscendMemoryClient svc client.client.provider = .ok client.client
  kept : ∀ client ∈ pool.shared.built, (client.client.provider, client) ∈ pool.shared.instances.items ∨
    .store client.client.provider client ∈ pool.procs
  calls : ∀ call ∈ pool.procs, call.Knows pool.shared

section Steps

variable {svc : MemoryService} {fails : Bool} {registry : ClientRegistry} {call : GetClient}

lemma constructed_of_constructClient {resolved : String} {client : AscendMemoryClient}
    (h : constructClient svc fails resolved = .ok client) :
    newAscendMemoryClient svc resolved = .ok client := by
  unfold constructClient at h
  split at h
  · cases h
  · rename_i client' hnew
    split at h
    · cases h
    · rw [hnew, Except.ok.inj h]

lemma provider_of_newAscendMemoryClient {resolved : String} {client : AscendMemoryClient}
    (h : newAscendMemoryClient svc resolved = .ok client) : client.provider = resolved := by
  unfold newAscendMemoryClient at h
  split at h
  · cases h
  · split at h
    · cases h
    · rw [← Except.ok.inj h]

lemma GetClient.Knows.mono {registry' : ClientRegistry} (h : call.Knows registry)
    (hitems : ∀ item ∈ registry.instances.items, item ∈ registry'.instances.items)
    (hbuilt : ∀ client ∈ registry.built, client ∈ registry'.built)
    (hkeys : call.inside = true → registry'.instances = registry.instances) : call.Knows registry' := by
  cases call with
  | construct resolved =>
    unfold Knows
    rw [hkeys rfl]
    exact h
  | store resolved client =>
    unfold Knows
    rw [hkeys rfl]
    exact ⟨hbuilt client h.1, h.2⟩
  | release resolved outcome =>
    cases outcome with
    | ok client => exact hitems _ h
    | error e => trivial
  | returned resolved client => exact hitems _ h
  | _ => trivial

/-- An instance that is stored stays, since only a missing one is built. -/
lemma items_advance (h : call.Knows registry) :
    ∀ item ∈ registry.instances.items, item ∈ (advanceClient svc fails registry call).shared.instances.items := by
  rintro ⟨key, client⟩ hitem
  cases call with
  | store resolved client' =>
    apply OrderedDict.mem_items_set.mpr
    refine .inr ⟨?_, hitem⟩
    rintro rfl
    exact h.2.2 (OrderedDict.mem_keys_of_mem hitem)
  | _ =>
    simp only [advanceClient]
    try split
    all_goals exact hitem

/-- A step builds at most the client that the call then stores. -/
lemma built_advance (svc : MemoryService) (fails : Bool) (registry : ClientRegistry) (call : GetClient) :
    (advanceClient svc fails registry call).shared.built = registry.built ∨
      ∃ client, newAscendMemoryClient svc client.provider = .ok client ∧
        (advanceClient svc fails registry call).shared.built =
          registry.built ++ [⟨client, registry.built.length⟩] ∧
        (advanceClient svc fails registry call).next =
          .store client.provider ⟨client, registry.built.length⟩ := by
  cases call with
  | construct resolved =>
    simp only [advanceClient]
    split
    · exact .inl rfl
    · rename_i client hclient
      have hnew := constructed_of_constructClient hclient
      have hprovider := provider_of_newAscendMemoryClient hnew
      subst hprovider
      exact .inr ⟨client, hnew, rfl, rfl⟩
  | _ =>
    left
    simp only [advanceClient]
    try split
    all_goals rfl

lemma stored_of_advance {resolved : String} {client : ClientInstance}
    (h : (resolved, client) ∈ (advanceClient svc fails registry call).shared.instances.items) :
    (resolved, client) ∈ registry.instances.items ∨ call = .store resolved client := by
  cases call with
  | store resolved' client' =>
    rcases OrderedDict.mem_items_set.mp h with ⟨rfl, rfl⟩ | ⟨-, hold⟩
    · exact .inr rfl
    · exact .inl hold
  | _ =>
    left
    simp only [advanceClient] at h
    try split at h
    all_goals exact h

lemma knows_advance (h : call.Knows registry) :
    (advanceClient svc fails registry call).next.Knows (advanceClient svc fails registry call).shared := by
  cases call with
  | lookup resolved =>
    cases hget : registry.instances.get? resolved with
    | none =>
      simp only [advanceClient, hget]
      trivial
    | some existing =>
      simp only [advanceClient, hget]
      exact OrderedDict.get?_eq_some_iff.mp hget
  | acquire resolved =>
    simp only [advanceClient]
    split <;> trivial
  | recheck resolved =>
    cases hget : registry.instances.get? resolved with
    | none =>
      simp only [advanceClient, hget]
      exact OrderedDict.get?_eq_none_iff.mp hget
    | some existing =>
      simp only [advanceClient, hget]
      exact OrderedDict.get?_eq_some_iff.mp hget
  | construct resolved =>
    simp only [advanceClient]
    split
    · trivial
    · rename_i client hclient
      have hprovider := provider_of_newAscendMemoryClient (constructed_of_constructClient hclient)
      exact ⟨List.mem_append_right _ (List.mem_singleton_self _), hprovider, h⟩
  | store resolved client => exact OrderedDict.mem_items_set.mpr (.inl ⟨rfl, rfl⟩)
  | release resolved outcome =>
    cases outcome with
    | ok client => exact h
    | error e => trivial
  | returned resolved client => exact h
  | raised e => trivial

end Steps

namespace ClientPool

variable {svc : MemoryService} {pool : ClientPool} {holder : Option ℕ} {i : ℕ} {call : GetClient}

lemma mem_built_advance {client : ClientInstance} (fails : Bool) (hclient : client ∈ pool.shared.built) :
    client ∈ (advanceClient svc fails pool.shared call).shared.built := by
  rcases built_advance svc fails pool.shared call with hsame | ⟨new, -, hadded, -⟩
  · rwa [hsame]
  · rw [hadded]
    exact List.mem_append_left _ hclient

/-- A new client takes the next number. -/
lemma Registered.numbered_advance (h : pool.Registered svc) (fails : Bool) (k : ℕ) (client : ClientInstance)
    (hk : (advanceClient svc fails pool.shared call).shared.built[k]? = some client) : client.serial = k := by
  rcases built_advance svc fails pool.shared call with hsame | ⟨new, -, hadded, -⟩
  · rw [hsame] at hk
    exact h.numbered k client hk
  · rw [hadded, List.getElem?_append] at hk
    split at hk
    · exact h.numbered k client hk
    · rename_i hle
      have hk0 := (List.getElem?_eq_some_iff.mp hk).1
      rw [List.length_singleton] at hk0
      have hkeq : k = pool.shared.built.length := by omega
      rw [hkeq, Nat.sub_self] at hk
      rw [← Option.some.inj hk, hkeq]

lemma Registered.constructed_advance (h : pool.Registered svc) (fails : Bool) (client : ClientInstance)
    (hclient : client ∈ (advanceClient svc fails pool.shared call).shared.built) :
    newAscendMemoryClient svc client.client.provider = .ok client.client := by
  rcases built_advance svc fails pool.shared call with hsame | ⟨new, hnew, hadded, -⟩
  · rw [hsame] at hclient
    exact h.constructed client hclient
  · rw [hadded, List.mem_append, List.mem_singleton] at hclient
    rcases hclient with hold | rfl
    · exact h.constructed client hold
    · exact hnew

/-- A client that was about to be stored still is, unless it is its call that moves and stores it. -/
lemma Registered.kept_step (h : pool.Registered svc) (fails : Bool) (hc : pool.procs[i]? = some call)
    (client : ClientInstance) (hclient : client ∈ (advanceClient svc fails pool.shared call).shared.built) :
    (client.client.provider, client) ∈ (advanceClient svc fails pool.shared call).shared.instances.items ∨
      .store client.client.provider client ∈ (ProcessPool.step (advanceClient svc fails) pool i).procs := by
  have hstays : client ∈ pool.shared.built → (client.client.provider, client) ∈
        (advanceClient svc fails pool.shared call).shared.instances.items ∨
      .store client.client.provider client ∈ (ProcessPool.step (advanceClient svc fails) pool i).procs := by
    intro hold
    rcases h.kept client hold with hstored | hstoring
    · exact .inl (items_advance (h.calls call (List.mem_of_getElem? hc)) _ hstored)
    · obtain ⟨j, hj⟩ := List.mem_iff_getElem?.mp hstoring
      by_cases hij : j = i
      · subst hij
        obtain rfl := Option.some.inj (hc.symm.trans hj)
        exact .inl (OrderedDict.mem_items_set.mpr (.inl ⟨rfl, rfl⟩))
      · refine .inr (List.mem_of_getElem? (i := j) ?_)
        rw [getElem?_step (advanceClient svc fails) hc (started_advanceClient svc fails pool.shared call),
          if_neg hij, hj]
  rcases built_advance svc fails pool.shared call with hsame | ⟨new, -, hadded, hnext⟩
  · rw [hsame] at hclient
    exact hstays hclient
  · rw [hadded, List.mem_append, List.mem_singleton] at hclient
    rcases hclient with hold | rfl
    · exact hstays hold
    · have hself : (advanceClient svc fails pool.shared call).next ∈
          (ProcessPool.step (advanceClient svc fails) pool i).procs :=
        List.mem_of_getElem? (getElem?_step_self hc)
      rw [hnext] at hself
      exact .inr hself

lemma Registered.step (h : pool.Registered svc) (hlock : pool.HeldBy holder) (fails : Bool)
    (hc : pool.procs[i]? = some call) :
    Registered svc (ProcessPool.step (advanceClient svc fails) pool i) := by
  have hshared := shared_step (advanceClient svc fails) hc
  have hprocs := getElem?_step (advanceClient svc fails) hc
    (started_advanceClient svc fails pool.shared call)
  have hknows := h.calls call (List.mem_of_getElem? hc)
  refine ⟨?_, ?_, ?_, ?_, ?_⟩
  · rw [hshared]
    intro resolved client hitem
    have hbefore : client ∈ pool.shared.built ∧ client.client.provider = resolved := by
      rcases stored_of_advance hitem with hold | rfl
      · exact h.stored resolved client hold
      · exact ⟨hknows.1, hknows.2.1⟩
    exact ⟨mem_built_advance fails hbefore.1, hbefore.2⟩
  · rw [hshared]
    exact h.numbered_advance fails
  · rw [hshared]
    exact h.constructed_advance fails
  · rw [hshared]
    exact h.kept_step fails hc
  · rw [hshared]
    intro call' hcall'
    obtain ⟨j, hj⟩ := List.mem_iff_getElem?.mp hcall'
    rw [hprocs] at hj
    split at hj
    · obtain rfl := Option.some.inj hj
      exact knows_advance hknows
    · rename_i hij
      apply (h.calls call' (List.mem_of_getElem? hj)).mono (items_advance hknows)
        fun client hclient => mem_built_advance fails hclient
      intro hin'
      -- the other call is in the block, so the one that moves is not
      cases hin : call.inside with
      | true => exact absurd (hlock.eq_of_inside hj hc hin' hin) hij
      | false => exact (advance_of_not_inside svc fails pool.shared hin).1

lemma Registered.start (h : pool.Registered svc) (provider : Option String) :
    Registered svc (ProcessPool.start pool (startGetClient svc provider)) := by
  refine ⟨h.stored, h.numbered, h.constructed, fun client hclient => ?_, fun call hcall => ?_⟩
  · rcases h.kept client hclient with hstored | hstoring
    · exact .inl hstored
    · exact .inr (List.mem_append_left _ hstoring)
  · rcases List.mem_append.mp hcall with hold | hnew
    · exact h.calls call hold
    · rw [List.mem_singleton.mp hnew, startGetClient]
      split <;> trivial

/-- Two clients of one provider would both be stored under it, or one caller at most stores. -/
lemma Registered.eq_of_provider (h : pool.Registered svc) (hlock : pool.HeldBy holder)
    {client client' : ClientInstance} (hb : client ∈ pool.shared.built) (hb' : client' ∈ pool.shared.built)
    (hp : client.client.provider = client'.client.provider) : client = client' := by
  rcases h.kept client hb with hstored | hstoring <;> rcases h.kept client' hb' with hstored' | hstoring'
  · rw [hp] at hstored
    exact OrderedDict.eq_of_mem hstored hstored'
  · have hmissing := (h.calls _ hstoring').2.2
    rw [← hp] at hmissing
    exact absurd (OrderedDict.mem_keys_of_mem hstored) hmissing
  · have hmissing := (h.calls _ hstoring).2.2
    rw [hp] at hmissing
    exact absurd (OrderedDict.mem_keys_of_mem hstored') hmissing
  · obtain ⟨j, hj⟩ := List.mem_iff_getElem?.mp hstoring
    obtain ⟨j', hj'⟩ := List.mem_iff_getElem?.mp hstoring'
    have hsame := hlock.eq_of_inside hj hj' rfl rfl
    rw [hsame, hj'] at hj
    injection hj with hcall
    injection hcall with _ hclient
    exact hclient.symm

lemma Registered.nodup_providers (h : pool.Registered svc) (hlock : pool.HeldBy holder) :
    (pool.shared.built.map fun client => client.client.provider).Nodup := by
  have hnodup : pool.shared.built.Nodup := by
    rw [List.nodup_iff_getElem?_ne_getElem?]
    intro k k' hlt hk' heq
    have hserial := h.numbered k' _ (List.getElem?_eq_getElem hk')
    rw [List.getElem?_eq_getElem hk'] at heq
    have hserial' := h.numbered k _ heq
    omega
  exact hnodup.map_on fun client hb client' hb' hp => h.eq_of_provider hlock hb hb' hp

/-- The state of a run: a holder of the lock, and the registry. -/
def Sound (svc : MemoryService) (pool : ClientPool) : Prop :=
  (∃ holder, pool.HeldBy holder) ∧ pool.Registered svc

lemma sound_empty (svc : MemoryService) : Sound svc empty :=
  ⟨⟨none, rfl, nofun, nofun⟩, nofun, nofun, nofun, nofun, nofun⟩

lemma Sound.next (h : pool.Sound svc) (event : ClientEvent) : Sound svc (pool.next svc event) := by
  obtain ⟨⟨holder, hlock⟩, hregistered⟩ := h
  cases event with
  | getClient provider =>
    exact ⟨⟨holder, hlock.start (startGetClient_inside svc provider)⟩, hregistered.start provider⟩
  | step i fails =>
    cases hc : pool.procs[i]? with
    | none =>
      rw [ClientPool.next, step_of_none hc]
      exact ⟨⟨holder, hlock⟩, hregistered⟩
    | some call => exact ⟨hlock.step fails hc, hregistered.step hlock fails hc⟩

lemma sound_run (svc : MemoryService) (events : List ClientEvent) :
    Sound svc (run (next svc) empty events) :=
  run_invariant (fun _ event h _ => h.next event) (sound_empty svc)
    (along_of_forall (P := fun _ _ => True) (fun _ _ _ => trivial) empty)

lemma Sound.onePerProvider (h : pool.Sound svc) : pool.OnePerProvider := by
  obtain ⟨⟨holder, hlock⟩, hregistered⟩ := h
  have hreturned : ∀ resolved client, .returned resolved client ∈ pool.procs →
      (resolved, client) ∈ pool.shared.instances.items :=
    fun resolved client hmem => hregistered.calls _ hmem
  refine ⟨hregistered.nodup_providers hlock, ?_, ?_, hlock.free⟩
  · intro resolved client client' hmem hmem'
    exact OrderedDict.eq_of_mem (hreturned resolved client hmem) (hreturned resolved client' hmem')
  · intro resolved resolved' client client' hmem hmem' hne hserial
    obtain ⟨hb, hp⟩ := hregistered.stored resolved client (hreturned resolved client hmem)
    obtain ⟨hb', hp'⟩ := hregistered.stored resolved' client' (hreturned resolved' client' hmem')
    obtain ⟨k, hk⟩ := List.mem_iff_getElem?.mp hb
    obtain ⟨k', hk'⟩ := List.mem_iff_getElem?.mp hb'
    rw [hregistered.numbered k client hk, hregistered.numbered k' client' hk'] at hserial
    rw [hserial, hk'] at hk
    rw [← hp, ← hp', Option.some.inj hk] at hne
    exact hne rfl

end ClientPool

/-- A call that returns gives the client that it would have built alone. -/
theorem returned_constructs (svc : MemoryService) (events : List ClientEvent) {resolved : String}
    {client : ClientInstance}
    (h : .returned resolved client ∈ (run (ClientPool.next svc) ClientPool.empty events).procs) :
    newAscendMemoryClient svc resolved = .ok client.client := by
  obtain ⟨-, hregistered⟩ := ClientPool.sound_run svc events
  obtain ⟨hbuilt, hprovider⟩ := hregistered.stored resolved client (hregistered.calls _ h)
  rw [← hprovider]
  exact hregistered.constructed client hbuilt

lemma leavesRegistry (svc : MemoryService) (pool : ClientPool) (event : ClientEvent) :
    LeavesRegistry svc pool event := by
  cases event with
  | getClient provider => trivial
  | step i fails =>
    refine ⟨fun resolved e hc hraises => ?_, fun resolved e hc => ?_⟩
    · have hadvance : advanceClient svc fails pool.shared (.construct resolved) =
          ⟨pool.shared, .release resolved (.error e), []⟩ := by
        simp only [advanceClient, hraises]
      rw [ClientPool.next, shared_step _ hc, getElem?_step_self hc, hadvance]
      exact ⟨rfl, rfl⟩
    · rw [ClientPool.next, shared_step _ hc, getElem?_step_self hc]
      exact ⟨rfl, rfl⟩

/-- One client is built for a provider at most, every call for the provider returns it, and a
construction that raises leaves no trace. -/
theorem oneClient_per_provider (svc : MemoryService) (events : List ClientEvent) :
    (run (ClientPool.next svc) ClientPool.empty events).OnePerProvider ∧
      Along (ClientPool.next svc) (LeavesRegistry svc) ClientPool.empty events :=
  ⟨(ClientPool.sound_run svc events).onePerProvider,
    along_of_forall (fun event _ pool => leavesRegistry svc pool event) ClientPool.empty⟩

end AscendAI.SemanticMemory
