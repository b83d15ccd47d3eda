import Mathlib.Logic.Function.Basic
import Mathlib.Data.Int.Notation
import Mathlib.Data.List.Basic
import Mathlib.Tactic.Common

/-!
# The vector store behind mem0

Collections of entries, each with its owner, and the four operations of mem0 on one
collection. The purpose of the store is a list of memories per collection and user, on
which an insert appends and a wipe empties one list.
-/

namespace AscendAI.SemanticMemory

structure MemoryEntry where
  id : String
  userId : String
  memory : String
  deriving DecidableEq, Repr

structure MemoryStore where
  collections : String → List MemoryEntry
  issued : ℕ

/-- What mem0 brings: the keys of new entries and the ranking of a search, which returns some of
the entries that it is given. -/
structure Mem0 where
  newId : ℕ → String
  newId_injective : Function.Injective newId
  rank : String → ℤ → List MemoryEntry → List MemoryEntry
  rank_subset : ∀ query topK entries, rank query topK entries ⊆ entries

abbrev PerUserStore := String → String → List String

namespace PerUserStore

def insert (m : PerUserStore) (collection userId text : String) : PerUserStore :=
  Function.update m collection (Function.update (m collection) userId (m collection userId ++ [text]))

def wipe (m : PerUserStore) (collection userId : String) : PerUserStore :=
  Function.update m collection (Function.update (m collection) userId [])

lemma insert_self (m : PerUserStore) (collection userId text : String) :
    m.insert collection userId text collection userId = m collection userId ++ [text] := by
  unfold insert
  rw [Function.update_self, Function.update_self]

lemma wipe_self (m : PerUserStore) (collection userId : String) :
    m.wipe collection userId collection userId = [] := by
  unfold wipe
  rw [Function.update_self, Function.update_self]

lemma wipe_of_ne (m : PerUserStore) {collection userId collection' userId' : String}
    (h : (collection', userId') ≠ (collection, userId)) :
    m.wipe collection userId collection' userId' = m collection' userId' := by
  unfold wipe
  by_cases hcollection : collection' = collection
  · subst hcollection
    have huser : userId' ≠ userId := fun heq => h (by rw [heq])
    rw [Function.update_self, Function.update_of_ne huser]
  · rw [Function.update_of_ne hcollection]

lemma wipe_eq_self_iff (m : PerUserStore) (collection userId : String) :
    m.wipe collection userId = m ↔ m collection userId = [] := by
  unfold wipe
  rw [Function.update_eq_self_iff, Function.update_eq_self_iff, eq_comm]

/-- Two wipes agree when they are of one list, or of two lists that are both empty. -/
lemma wipe_eq_wipe_iff (m : PerUserStore) (a b : String × String) :
    m.wipe a.1 a.2 = m.wipe b.1 b.2 ↔ a = b ∨ m a.1 a.2 = [] ∧ m b.1 b.2 = [] := by
  constructor
  · intro h
    by_cases hab : a = b
    · exact .inl hab
    refine .inr ⟨?_, ?_⟩
    · have ha := congrFun (congrFun h a.1) a.2
      rw [wipe_self, wipe_of_ne m hab] at ha
      exact ha.symm
    · have hb := congrFun (congrFun h b.1) b.2
      rw [wipe_self, wipe_of_ne m (Ne.symm hab)] at hb
      exact hb
  · rintro (rfl | ⟨ha, hb⟩)
    · rfl
    · rw [(wipe_eq_self_iff m a.1 a.2).mpr ha, (wipe_eq_self_iff m b.1 b.2).mpr hb]

end PerUserStore

namespace MemoryStore

/-- `Memory.add`, without inference: one entry with the text of the message. -/
def add (m : Mem0) (s : MemoryStore) (collection userId text : String) : MemoryStore where
  collections := Function.update s.collections collection
    (s.collections collection ++ [⟨m.newId s.issued, userId, text⟩])
  issued := s.issued + 1

/-- `Memory.search` with the filter on the user. -/
def search (m : Mem0) (s : MemoryStore) (collection query : String) (topK : ℤ) (userId : String) :
    List MemoryEntry :=
  m.rank query topK ((s.collections collection).filter fun e => e.userId = userId)

def deleteAll (s : MemoryStore) (collection userId : String) : MemoryStore where
  collections := Function.update s.collections collection
    ((s.collections collection).filter fun e => e.userId ≠ userId)
  issued := s.issued

def delete (s : MemoryStore) (collection memoryId : String) : MemoryStore where
  collections := Function.update s.collections collection
    ((s.collections collection).filter fun e => e.id ≠ memoryId)
  issued := s.issued

def memories (s : MemoryStore) : PerUserStore := fun collection userId =>
  ((s.collections collection).filter fun e => e.userId = userId).map MemoryEntry.memory

def entriesOf (s : MemoryStore) (collection userId : String) : List MemoryEntry :=
  (s.collections collection).filter fun e => e.userId = userId

def empty : MemoryStore := ⟨fun _ => [], 0⟩

variable (m : Mem0) (s : MemoryStore) (collection userId : String)

theorem memories_add (text : String) :
    (s.add m collection userId text).memories = s.memories.insert collection userId text := by
  funext collection' userId'
  unfold memories add PerUserStore.insert
  by_cases hcollection : collection' = collection
  · subst hcollection
    by_cases huser : userId' = userId
    · simp [huser]
    · simp [huser, Ne.symm huser]
  · simp [hcollection]

theorem memories_deleteAll :
    (s.deleteAll collection userId).memories = s.memories.wipe collection userId := by
  funext collection' userId'
  unfold memories deleteAll PerUserStore.wipe
  by_cases hcollection : collection' = collection
  · subst hcollection
    by_cases huser : userId' = userId
    · simp [huser, List.filter_filter]
    · have hboth : ∀ e : MemoryEntry, (e.userId = userId' ∧ e.userId ≠ userId) ↔ e.userId = userId' :=
        fun e => ⟨And.left, fun h => ⟨h, fun h' => huser (h.symm.trans h')⟩⟩
      simp only [Function.update_self, List.filter_filter, Function.update_of_ne huser,
        ← Bool.decide_and, hboth]
  · simp [hcollection]

/-! What each operation leaves of the entries of one user. -/

lemma entriesOf_add_of_ne {userId' : String} (h : userId ≠ userId') (text collection' : String) :
    (s.add m collection userId text).entriesOf collection' userId' = s.entriesOf collection' userId' := by
  unfold entriesOf add
  by_cases hcollection : collection' = collection
  · subst hcollection
    simp [h]
  · simp [hcollection]

lemma entriesOf_deleteAll (collection' userId' : String) :
    (s.deleteAll collection userId).entriesOf collection' userId' =
      if collection' = collection ∧ userId' = userId then [] else s.entriesOf collection' userId' := by
  unfold entriesOf deleteAll
  by_cases hcollection : collection' = collection
  swap
  · simp [hcollection]
  subst hcollection
  simp only [Function.update_self, List.filter_filter, true_and]
  by_cases huser : userId' = userId
  · subst huser
    rw [if_pos rfl, List.filter_eq_nil_iff]
    simp
  · rw [if_neg huser]
    apply List.filter_congr
    intro e _
    by_cases he : e.userId = userId'
    · simp [he, huser]
    · simp [he]

lemma entriesOf_delete (memoryId collection' userId' : String) :
    (s.delete collection memoryId).entriesOf collection' userId' =
      if collection' = collection then (s.entriesOf collection' userId').filter fun e => e.id ≠ memoryId
      else s.entriesOf collection' userId' := by
  unfold entriesOf delete
  by_cases hcollection : collection' = collection
  · subst hcollection
    simp only [Function.update_self, if_true, List.filter_filter]
    apply List.filter_congr
    intro e _
    exact Bool.and_comm _ _
  · simp only [Function.update_of_ne hcollection, if_neg hcollection]

theorem memory_of_mem_search {query : String} {topK : ℤ} {e : MemoryEntry}
    (h : e ∈ s.search m collection query topK userId) : e.memory ∈ s.memories collection userId := by
  unfold memories
  exact List.mem_map_of_mem (m.rank_subset query topK _ h)

end MemoryStore

end AscendAI.SemanticMemory
