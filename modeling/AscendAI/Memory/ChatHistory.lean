import Mathlib.Tactic.Common
import AscendAI.Lib.RowOrder
import AscendAI.Memory.Message

/-!
# The table chat_history

Rows carry a serial key and the `created_at` that the application wrote. Both queries
sort by `created_at` alone; the order of rows with the same `created_at` is left to the
database and is a parameter here.
-/

namespace AscendAI.Memory
open RowOrder JavaString

structure ChatHistory where
  id : ℕ
  userId : String
  role : String
  content : String
  createdAt : ℕ
  deriving DecidableEq, Repr

def ChatHistory.toDto (h : ChatHistory) : MessageDto := ⟨h.role, h.content⟩

/-- The rows of the table in the order of insertion. The key is `SERIAL`: it is unique
and below the next value of its sequence. -/
structure ChatHistoryTable where
  rows : List ChatHistory
  nextId : ℕ
  id_lt : ∀ r ∈ rows, r.id < nextId
  nodup_id : (rows.map ChatHistory.id).Nodup

/-- How the database orders rows of the same `created_at`, in either direction. -/
structure TieOrder where
  asc : ChatHistory → ℕ
  desc : ChatHistory → ℕ

/-- The order of a query: by the sort key, then as the database likes, at last by the row key. -/
def InOrder (key : ChatHistory → ℤ) (tie : ChatHistory → ℕ) (a b : ChatHistory) : Prop :=
  key a < key b ∨ key a = key b ∧ (tie a < tie b ∨ tie a = tie b ∧ a.id ≤ b.id)

section Order

variable (key : ChatHistory → ℤ) (tie : ChatHistory → ℕ)

instance : DecidableRel (InOrder key tie) := fun _ _ => inferInstanceAs (Decidable (_ ∨ _))

instance : Std.Total (InOrder key tie) where
  total a b := by
    simp only [InOrder]
    omega

instance : IsTrans ChatHistory (InOrder key tie) where
  trans a b c hab hbc := by
    simp only [InOrder] at hab hbc ⊢
    omega

lemma id_eq_of_inOrder {a b : ChatHistory} (hab : InOrder key tie a b) (hba : InOrder key tie b a) :
    a.id = b.id := by
  simp only [InOrder] at hab hba
  omega

lemma determined_of_nodup_id {rows : List ChatHistory} (h : (rows.map ChatHistory.id).Nodup) :
    Determined (InOrder key tie) rows := fun _ ha _ hb hab hba =>
  List.inj_on_of_nodup_map h ha hb (id_eq_of_inOrder key tie hab hba)

end Order

def createdAtAsc (h : ChatHistory) : ℤ := h.createdAt

def createdAtDesc (h : ChatHistory) : ℤ := -h.createdAt

namespace ChatHistoryTable

def empty : ChatHistoryTable := ⟨[], 0, by simp, by simp⟩

def newRow (t : ChatHistoryTable) (userId role content : String) (createdAt : ℕ) : ChatHistory :=
  ⟨t.nextId, userId, role, content, createdAt⟩

/-- `repository.save` of an entity without a key: an `INSERT`. -/
def save (t : ChatHistoryTable) (userId role content : String) (createdAt : ℕ) : ChatHistoryTable where
  rows := t.rows ++ [t.newRow userId role content createdAt]
  nextId := t.nextId + 1
  id_lt := by
    intro r hr
    rcases List.mem_append.mp hr with h | h
    · exact Nat.lt_succ_of_lt (t.id_lt r h)
    · rw [List.mem_singleton.mp h]
      exact Nat.lt_succ_self t.nextId
  nodup_id := by
    rw [List.map_append, List.nodup_append]
    refine ⟨t.nodup_id, by simp, fun a ha b hb => ?_⟩
    obtain ⟨r, hr, rfl⟩ := List.mem_map.mp ha
    rw [List.mem_singleton.mp hb]
    exact Nat.ne_of_lt (t.id_lt r hr)

def deleteAllById (t : ChatHistoryTable) (ids : List ℕ) : ChatHistoryTable where
  rows := t.rows.filter (fun r => r.id ∉ ids)
  nextId := t.nextId
  id_lt := fun r hr => t.id_lt r (List.mem_of_mem_filter hr)
  nodup_id := t.nodup_id.sublist (List.filter_sublist.map _)

def ofUser (t : ChatHistoryTable) (userId : String) : List ChatHistory :=
  t.rows.filter (fun r => r.userId = userId)

/-- `SELECT * FROM chat_history WHERE user_id = :userId ORDER BY created_at ASC` -/
def findAllHistoryOrdered (tie : TieOrder) (t : ChatHistoryTable) (userId : String) :
    List ChatHistory :=
  orderBy (InOrder createdAtAsc tie.asc) (t.ofUser userId)

/-- `SELECT * FROM chat_history WHERE user_id = :userId ORDER BY created_at DESC LIMIT :limit` -/
def findRecentHistory (tie : TieOrder) (t : ChatHistoryTable) (userId : String) (limit : ℤ) :
    Except String (List ChatHistory) :=
  if limit < 0 then .error "LIMIT must not be negative"
  else .ok ((orderBy (InOrder createdAtDesc tie.desc) (t.ofUser userId)).take limit.toNat)

section Laws

variable (t : ChatHistoryTable) (tie : TieOrder)

@[simp] lemma ofUser_empty (userId : String) : empty.ofUser userId = [] := rfl

@[simp] lemma rows_save (userId role content : String) (createdAt : ℕ) :
    (t.save userId role content createdAt).rows = t.rows ++ [t.newRow userId role content createdAt] :=
  rfl

lemma ofUser_save_self (userId role content : String) (createdAt : ℕ) :
    (t.save userId role content createdAt).ofUser userId =
      t.ofUser userId ++ [t.newRow userId role content createdAt] := by
  simp [ofUser, save, newRow]

lemma ofUser_save_of_ne {userId other : String} (h : userId ≠ other) (role content : String)
    (createdAt : ℕ) : (t.save userId role content createdAt).ofUser other = t.ofUser other := by
  simp [ofUser, save, newRow, h]

lemma mem_ofUser {userId : String} {r : ChatHistory} :
    r ∈ t.ofUser userId ↔ r ∈ t.rows ∧ r.userId = userId := by
  simp [ofUser]

lemma nodup_id_ofUser (userId : String) : ((t.ofUser userId).map ChatHistory.id).Nodup :=
  t.nodup_id.sublist (List.filter_sublist.map _)

lemma determined_ofUser (key : ChatHistory → ℤ) (tie : ChatHistory → ℕ) (userId : String) :
    Determined (InOrder key tie) (t.ofUser userId) :=
  determined_of_nodup_id key tie (t.nodup_id_ofUser userId)

@[simp] lemma mem_findAllHistoryOrdered {userId : String} {r : ChatHistory} :
    r ∈ t.findAllHistoryOrdered tie userId ↔ r ∈ t.rows ∧ r.userId = userId := by
  rw [findAllHistoryOrdered, mem_orderBy, mem_ofUser]

lemma eq_of_id_eq {a b : ChatHistory} (ha : a ∈ t.rows) (hb : b ∈ t.rows) (h : a.id = b.id) : a = b :=
  List.inj_on_of_nodup_map t.nodup_id ha hb h

/-- Deleting the keys of listed rows leaves every other conversation alone. -/
lemma ofUser_deleteAllById_of_ne {userId other : String} (h : userId ≠ other) {deleted : List ChatHistory}
    (hdeleted : ∀ r ∈ deleted, r ∈ t.rows ∧ r.userId = userId) :
    (t.deleteAllById (deleted.map ChatHistory.id)).ofUser other = t.ofUser other := by
  rw [ofUser, deleteAllById, List.filter_filter, ofUser]
  apply List.filter_congr
  intro r hr
  by_cases hu : r.userId = other
  · have hnot : r.id ∉ deleted.map ChatHistory.id := by
      intro hmem
      obtain ⟨r', hr', hid⟩ := List.mem_map.mp hmem
      have heq := t.eq_of_id_eq (hdeleted r' hr').1 hr hid
      exact h ((hdeleted r' hr').2.symm.trans ((congrArg ChatHistory.userId heq).trans hu))
    simp [hu, hnot]
  · simp [hu]

/-- Deleting the first rows of an answer leaves the rest of it. -/
lemma findAllHistoryOrdered_deleteAllById (userId : String) (p : ℕ) :
    (t.deleteAllById (((t.findAllHistoryOrdered tie userId).take p).map ChatHistory.id)).findAllHistoryOrdered
      tie userId = (t.findAllHistoryOrdered tie userId).drop p := by
  set history := t.findAllHistoryOrdered tie userId with hhistory
  have hnodup : (history.map ChatHistory.id).Nodup :=
    ((orderBy_perm _ (t.ofUser userId)).map _).nodup_iff.mpr (t.nodup_id_ofUser userId)
  have hfilter : (t.deleteAllById ((history.take p).map ChatHistory.id)).ofUser userId =
      (t.ofUser userId).filter (fun r => r.id ∉ (history.take p).map ChatHistory.id) := by
    simp only [ofUser, deleteAllById, List.filter_filter, Bool.and_comm]
  rw [findAllHistoryOrdered, hfilter, orderBy_filter _ (t.determined_ofUser _ _ userId),
    ← findAllHistoryOrdered, ← hhistory]
  conv_lhs => rw [← List.take_append_drop p history]
  rw [← List.take_append_drop p history, List.map_append, List.nodup_append] at hnodup
  have htake : (history.take p).filter (fun r => r.id ∉ (history.take p).map ChatHistory.id) = [] := by
    rw [List.filter_eq_nil_iff]
    intro r hr
    have hmem : r.id ∈ (history.take p).map ChatHistory.id := List.mem_map_of_mem hr
    simp only [hmem, not_true_eq_false, decide_false, Bool.false_eq_true, not_false_eq_true]
  have hdrop : (history.drop p).filter (fun r => r.id ∉ (history.take p).map ChatHistory.id) =
      history.drop p := by
    rw [List.filter_eq_self]
    intro r hr
    rw [decide_eq_true_eq]
    exact fun hmem => hnodup.2.2 _ hmem _ (List.mem_map_of_mem hr) rfl
  rw [List.filter_append, List.take_append_drop, htake, hdrop, List.nil_append]

end Laws

end ChatHistoryTable

end AscendAI.Memory
