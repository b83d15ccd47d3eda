import AscendAI.SemanticMemory.SemanticMemoryClient

/-!
# Memories of different users

What an operation of one user does to the memories of another. An insert and a search leave them
alone. A wipe empties the list of the default user. A delete carries no user at all: it removes
the entry with the id, whoever owns it.
-/

namespace AscendAI.SemanticMemory
open Runs JavaString

/-- An operation of the client, without the user that it is made for. -/
inductive UserOperation where
  | insertMemory (fact embeddingProvider : Option String)
  | wipeUserMemory (embeddingProvider : Option String)
  | deleteMemory (memoryId embeddingProvider : Option String)
  | search (query : Option String) (limit : ℤ) (embeddingProvider : Option String)

def operate (a : AgentMemory) (s : MemoryStore) (userId : String) : UserOperation → MemoryStore
  | .insertMemory fact embeddingProvider =>
    (SemanticMemoryClient.insertMemory a s (some userId) fact embeddingProvider).1
  | .wipeUserMemory embeddingProvider =>
    SemanticMemoryClient.wipeUserMemory a s (some userId) embeddingProvider
  | .deleteMemory memoryId embeddingProvider =>
    SemanticMemoryClient.deleteMemory a s (some userId) memoryId embeddingProvider
  | .search _ _ _ => s

/-- The memories of a user, and every later search for the user, are the same in both stores. -/
structure SameFor (a : AgentMemory) (userId : String) (s s' : MemoryStore) : Prop where
  memories : ∀ collection, s'.entriesOf collection userId = s.entriesOf collection userId
  searches : ∀ query limit embeddingProvider,
    SemanticMemoryClient.search a s' (some userId) query limit embeddingProvider =
      SemanticMemoryClient.search a s (some userId) query limit embeddingProvider

/-- The collection in which a delete looks for its id. -/
def deleteTarget (a : AgentMemory) (memoryId embeddingProvider : Option String) : Option String :=
  if !(hasText memoryId && a.properties.enabled && validProvider embeddingProvider &&
      decide ((memoryId.getD "").length ≤ 256)) then none
  else (clientFor a.service embeddingProvider).toOption.map AscendMemoryClient.collectionName

/-- A wipe does not hit a list of `v` that holds something, and a delete does not name an entry
of `v`. -/
def Harmless (a : AgentMemory) (s : MemoryStore) (u v : String) : UserOperation → Prop
  | .wipeUserMemory _ => hasText (some u) = true →
    ∀ target ∈ wipeTarget a, target.2 = v → s.entriesOf target.1 v = []
  | .deleteMemory memoryId embeddingProvider => hasText (some u) = true →
    ∀ collection ∈ deleteTarget a memoryId embeddingProvider, ∀ e ∈ s.entriesOf collection v,
      some e.id ≠ memoryId
  | .insertMemory _ _ => True
  | .search _ _ _ => True

section Operations

variable (a : AgentMemory) (s : MemoryStore)

lemma insertMemory_store (svc : MemoryService) (body : Option (List (String × Option String))) :
    (insertMemory svc s body).1 = s ∨ ∃ fields collection text, body = some fields ∧
      (insertMemory svc s body).1 = s.add svc.mem0 collection
        (effectiveUserId svc (lastValue fields "user_id").join) text := by
  cases body with
  | none => exact .inl rfl
  | some fields =>
    unfold insertMemory
    simp only
    split
    · exact .inl rfl
    split
    · exact .inl rfl
    split
    · exact .inl rfl
    rename_i client _
    split
    · exact .inl rfl
    · exact .inr ⟨fields, client.collectionName, _, rfl, rfl⟩

/-- An insert adds at most one entry, and the entry is the user's own. -/
lemma insertMemory_adds (userId : String) (fact embeddingProvider : Option String) :
    (SemanticMemoryClient.insertMemory a s (some userId) fact embeddingProvider).1 = s ∨
      ∃ collection text, (SemanticMemoryClient.insertMemory a s (some userId) fact embeddingProvider).1 =
        s.add a.service.mem0 collection userId text := by
  unfold SemanticMemoryClient.insertMemory
  cases hmissing : SemanticMemoryClient.isMissingUserId (some userId) with
  | true => exact .inl rfl
  | false =>
    cases a.properties.enabled with
    | false => exact .inl rfl
    | true =>
      have hne : userId ≠ "" := by
        rintro rfl
        exact absurd hmissing (by decide)
      simp only [Bool.false_eq_true, if_false, Bool.not_true, restRouter_insert]
      have hstore : (insertMemory a.service s (some [("user_id", some userId), ("text", fact),
            ("provider", embeddingProvider)])).1 = s ∨ ∃ collection text,
          (insertMemory a.service s (some [("user_id", some userId), ("text", fact),
            ("provider", embeddingProvider)])).1 = s.add a.service.mem0 collection userId text := by
        rcases insertMemory_store s a.service _ with hsame | ⟨fields, collection, text, hfields, hadd⟩
        · exact .inl hsame
        · obtain rfl := Option.some.inj hfields
          refine .inr ⟨collection, text, hadd.trans ?_⟩
          rw [lastValue_cons_self rfl, Option.join_some, effectiveUserId, if_neg hne]
      generalize insertMemory a.service s _ = answer at hstore ⊢
      obtain ⟨s', _ | _⟩ := answer
      · exact hstore
      · exact hstore

/-- A delete removes the entries with the id from the collection that it is directed at, and never
reads whom they belong to. -/
lemma deleteMemory_eq {userId : String} (h : hasText (some userId) = true)
    (memoryId embeddingProvider : Option String) :
    SemanticMemoryClient.deleteMemory a s (some userId) memoryId embeddingProvider =
      (deleteTarget a memoryId embeddingProvider).elim s fun collection =>
        s.delete collection (memoryId.getD "") := by
  unfold SemanticMemoryClient.deleteMemory SemanticMemoryClient.isMissingUserId deleteTarget
  rw [h, Bool.not_true, if_neg Bool.false_ne_true]
  cases htext : hasText memoryId with
  | false => rfl
  | true =>
    cases a.properties.enabled with
    | false => rfl
    | true =>
      obtain ⟨id, rfl⟩ : ∃ id, memoryId = some id := by
        cases memoryId with
        | none => cases htext
        | some id => exact ⟨id, rfl⟩
      have hlength : 1 ≤ id.length := by
        rw [Nat.one_le_iff_ne_zero]
        intro hzero
        rw [String.length_eq_zero_iff.mp hzero] at htext
        revert htext
        decide
      have hprovider : validProvider (some (embeddingProvider.getD "")) = validProvider embeddingProvider := by
        cases embeddingProvider <;> rfl
      rw [restRouter_delete]
      simp only [Bool.not_true, Bool.false_eq_true, if_false, Bool.true_and, Option.getD_some,
        deleteMemory]
      have hlookup : lastValue [("memory_id", id), ("provider", embeddingProvider.getD "")] "provider" =
          some (embeddingProvider.getD "") := by
        simp [lastValue]
      rw [lastValue_cons_self rfl, hlookup, hprovider, clientFor_getD]
      simp only [decide_eq_true hlength, Bool.true_and]
      rw [Bool.and_comm]
      split
      · rfl
      · cases clientFor a.service embeddingProvider with
        | error e => rfl
        | ok client => rfl

lemma exists_id_of_deleteTarget {a : AgentMemory} {memoryId embeddingProvider : Option String}
    {collection : String} (h : deleteTarget a memoryId embeddingProvider = some collection) :
    ∃ id, memoryId = some id := by
  cases memoryId with
  | none => exact absurd h (by simp [deleteTarget, hasText])
  | some id => exact ⟨id, rfl⟩

end Operations

/-! ### What the other user sees -/

section OtherUser

variable {a : AgentMemory} {s s' : MemoryStore}

lemma searchMemory_congr (svc : MemoryService) (params : List (String × String))
    (h : ∀ collection, s'.entriesOf collection (effectiveUserId svc (lastValue params "user_id")) =
      s.entriesOf collection (effectiveUserId svc (lastValue params "user_id"))) :
    searchMemory svc s' params = searchMemory svc s params := by
  have hsearch : ∀ collection query topK,
      s'.search svc.mem0 collection query topK (effectiveUserId svc (lastValue params "user_id")) =
        s.search svc.mem0 collection query topK (effectiveUserId svc (lastValue params "user_id")) :=
    fun collection query topK => congrArg (svc.mem0.rank query topK) (h collection)
  simp only [searchMemory, hsearch]

/-- A search reads the entries of its user only. -/
lemma search_congr {userId : String}
    (h : ∀ collection, s'.entriesOf collection userId = s.entriesOf collection userId)
    (query : Option String) (limit : ℤ) (embeddingProvider : Option String) :
    SemanticMemoryClient.search a s' (some userId) query limit embeddingProvider =
      SemanticMemoryClient.search a s (some userId) query limit embeddingProvider := by
  unfold SemanticMemoryClient.search
  cases hmissing : SemanticMemoryClient.isMissingUserId (some userId) with
  | true => rfl
  | false =>
    have hne : userId ≠ "" := by
      rintro rfl
      exact absurd hmissing (by decide)
    rw [restRouter_search, restRouter_search, searchMemory_congr]
    rw [lastValue_cons_self rfl, Option.getD_some, effectiveUserId, if_neg hne]
    exact h

lemma sameFor_iff {userId : String} : SameFor a userId s s' ↔
    ∀ collection, s'.entriesOf collection userId = s.entriesOf collection userId :=
  ⟨SameFor.memories, fun h => ⟨h, search_congr h⟩⟩

lemma sameFor_deleteAll (collection userId v : String) :
    SameFor a v s (s.deleteAll collection userId) ↔ (userId = v → s.entriesOf collection v = []) := by
  rw [sameFor_iff]
  simp only [MemoryStore.entriesOf_deleteAll]
  constructor
  · rintro h rfl
    have hcollection := h collection
    rw [if_pos ⟨rfl, rfl⟩] at hcollection
    exact hcollection.symm
  · intro h collection'
    split
    · rename_i heq
      rw [heq.1, h heq.2.symm]
    · rfl

lemma sameFor_delete (collection memoryId v : String) :
    SameFor a v s (s.delete collection memoryId) ↔ ∀ e ∈ s.entriesOf collection v, e.id ≠ memoryId := by
  rw [sameFor_iff]
  simp only [MemoryStore.entriesOf_delete]
  constructor
  · intro h e he
    have hcollection := h collection
    rw [if_pos rfl, List.filter_eq_self] at hcollection
    simpa using hcollection e he
  · intro h collection'
    split
    · rename_i heq
      subst heq
      rw [List.filter_eq_self]
      simpa using h
    · rfl

lemma sameFor_refl (userId : String) : SameFor a userId s s := ⟨fun _ => rfl, fun _ _ _ => rfl⟩

lemma SameFor.trans {s'' : MemoryStore} {userId : String} (h : SameFor a userId s s')
    (h' : SameFor a userId s' s'') : SameFor a userId s s'' :=
  sameFor_iff.mpr fun collection => (h'.memories collection).trans (h.memories collection)

end OtherUser

/-! ### One lemma for each operation -/

section Operate

variable (a : AgentMemory) (s : MemoryStore) {u v : String}

lemma sameFor_insertMemory (h : u ≠ v) (fact embeddingProvider : Option String) :
    SameFor a v s (operate a s u (.insertMemory fact embeddingProvider)) := by
  simp only [operate]
  rcases insertMemory_adds a s u fact embeddingProvider with hsame | ⟨collection, text, hadd⟩
  · rw [hsame]
    exact sameFor_refl v
  · rw [hadd, sameFor_iff]
    exact fun collection' => s.entriesOf_add_of_ne _ _ _ h text collection'

lemma sameFor_wipeUserMemory_iff (embeddingProvider : Option String) :
    SameFor a v s (operate a s u (.wipeUserMemory embeddingProvider)) ↔
      Harmless a s u v (.wipeUserMemory embeddingProvider) := by
  cases htext : hasText (some u) with
  | false =>
    have hmissing : SemanticMemoryClient.isMissingUserId (some u) = true := by
      rw [SemanticMemoryClient.isMissingUserId, htext, Bool.not_false]
    simp only [operate, SemanticMemoryClient.wipeUserMemory, hmissing, if_true]
    exact ⟨fun _ htrue => absurd (htext.symm.trans htrue) (by decide), fun _ => sameFor_refl v⟩
  | true =>
    have hmissing : SemanticMemoryClient.isMissingUserId (some u) = false := by
      rw [SemanticMemoryClient.isMissingUserId, htext, Bool.not_true]
    simp only [operate, Harmless, htext, wipeUserMemory_eq a s hmissing]
    cases wipeTarget a with
    | none => simp [sameFor_refl]
    | some target => simp [sameFor_deleteAll]

lemma sameFor_deleteMemory_iff (memoryId embeddingProvider : Option String) :
    SameFor a v s (operate a s u (.deleteMemory memoryId embeddingProvider)) ↔
      Harmless a s u v (.deleteMemory memoryId embeddingProvider) := by
  cases htext : hasText (some u) with
  | false =>
    have hmissing : SemanticMemoryClient.isMissingUserId (some u) = true := by
      rw [SemanticMemoryClient.isMissingUserId, htext, Bool.not_false]
    simp only [operate, SemanticMemoryClient.deleteMemory, hmissing, if_true]
    exact ⟨fun _ htrue => absurd (htext.symm.trans htrue) (by decide), fun _ => sameFor_refl v⟩
  | true =>
    simp only [operate, Harmless, htext, deleteMemory_eq a s htext]
    cases htarget : deleteTarget a memoryId embeddingProvider with
    | none => simp [sameFor_refl]
    | some collection =>
      obtain ⟨id, rfl⟩ := exists_id_of_deleteTarget htarget
      simp [sameFor_delete]

end Operate

/-- The memories of another user are as if the operation had not been made exactly when it is no
wipe that hits them and no delete that names one of them. -/
theorem otherUser_same_iff (a : AgentMemory) (s : MemoryStore) {u v : String} (h : u ≠ v)
    (op : UserOperation) : SameFor a v s (operate a s u op) ↔ Harmless a s u v op := by
  cases op with
  | insertMemory fact embeddingProvider =>
    exact ⟨fun _ => trivial, fun _ => sameFor_insertMemory a s h fact embeddingProvider⟩
  | wipeUserMemory embeddingProvider => exact sameFor_wipeUserMemory_iff a s embeddingProvider
  | deleteMemory memoryId embeddingProvider => exact sameFor_deleteMemory_iff a s memoryId embeddingProvider
  | search query limit embeddingProvider => exact ⟨fun _ => trivial, fun _ => sameFor_refl v⟩

/-- Over a run of other users' operations: what each step leaves alone is left alone at the end. -/
theorem otherUsers_same_run {a : AgentMemory} {s : MemoryStore} {v : String}
    {ops : List (String × UserOperation)} (husers : ∀ op ∈ ops, op.1 ≠ v)
    (hops : Along (fun s op => operate a s op.1 op.2) (fun s op => Harmless a s op.1 v op.2) s ops) :
    SameFor a v s (run (fun s op => operate a s op.1 op.2) s ops) := by
  have hguard := (along_of_forall (fun op hop _ => husers op hop) s).and hops
  have hstep : ∀ s' (op : String × UserOperation), SameFor a v s s' → op.1 ≠ v ∧ Harmless a s' op.1 v op.2 →
      SameFor a v s (operate a s' op.1 op.2) := by
    rintro s' ⟨u, op⟩ hsame ⟨hne, hharmless⟩
    have hnext : SameFor a v s' (operate a s' u op) := by
      cases op with
      | insertMemory fact embeddingProvider => exact sameFor_insertMemory a s' hne fact embeddingProvider
      | wipeUserMemory embeddingProvider => exact (sameFor_wipeUserMemory_iff a s' embeddingProvider).mpr hharmless
      | deleteMemory memoryId embeddingProvider =>
        exact (sameFor_deleteMemory_iff a s' memoryId embeddingProvider).mpr hharmless
      | search query limit embeddingProvider => exact sameFor_refl v
    exact hsame.trans hnext
  exact run_invariant hstep (sameFor_refl v) hguard

def frostyAndSunny : MemoryStore :=
  run (fun s op => operate shippedMemory s op.1 op.2) MemoryStore.empty
    [("frosty", .insertMemory (some "likes tea") none), ("sunny", .insertMemory (some "likes snow") none),
      ("frosty", .insertMemory (some "lives in Oslo") none)]

/-- A delete made for one user removes a memory of another. -/
theorem delete_touches_other :
    ¬SameFor shippedMemory "sunny" frostyAndSunny
      (operate shippedMemory frostyAndSunny "frosty" (.deleteMemory (some "i") none)) := by
  intro h
  have hmemories := h.memories "ascend_memory_768"
  revert hmemories
  decide

theorem own_delete_harmless : SameFor shippedMemory "sunny" frostyAndSunny
    (operate shippedMemory frostyAndSunny "frosty" (.deleteMemory (some "ii") none)) :=
  (otherUser_same_iff shippedMemory frostyAndSunny (by decide) _).mpr fun _ => by decide

end AscendAI.SemanticMemory
