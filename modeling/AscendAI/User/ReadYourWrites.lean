import AscendAI.User.InstructionCache

/-!
# Reading the instructions that were written

The two methods and the expiry of a key, one after the other. A save that updates no row fails, so a
user without a row never gets one; and a stored text that is the marker of the cache is read back from
the cache as no text.
-/

namespace AscendAI.User
open Runs

inductive Operation where
  | get (userId : String)
  | update (userId text : String)
  | expire (userId : String)

def Operation.isUpdate : Operation → Bool
  | .update .. => true
  | _ => false

/-- The stores, with the text of the latest update of each user. -/
structure Instructed where
  stores : InstructionStores
  latest : String → String

def Instructed.empty : Instructed := ⟨⟨fun _ => none, fun _ => none⟩, fun _ => ""⟩

section

variable (r : UserInstructionRepository)

def Instructed.next (s : Instructed) : Operation → Instructed
  | .get userId => ⟨(getInstructions s.stores userId).1, s.latest⟩
  | .update userId text =>
    ⟨(updateInstructions r s.stores userId text).1, Function.update s.latest userId text⟩
  | .expire userId => ⟨s.stores.deleteKey (instructionsKey userId), s.latest⟩

/-- An update succeeds, and a read returns the text of the latest update. -/
def ReadsWrites (s : Instructed) : Operation → Prop
  | .get userId => (getInstructions s.stores userId).2 = s.latest userId
  | .update userId text => (updateInstructions r s.stores userId text).2 = .ok ()
  | .expire _ => True

/-- The repository takes the row of an update, and a read does not find a text in the cache that is the
marker. -/
def Stored (s : Instructed) : Operation → Prop
  | .get userId => ¬(s.stores.redis (instructionsKey userId) = some emptyMarker ∧
    s.latest userId = emptyMarker)
  | .update userId _ => r.saves s.stores userId = true
  | .expire _ => True

/-- The rows hold the latest texts, and the cache holds what the rows denote. -/
structure UpToDate (s : Instructed) : Prop where
  fresh : ∀ userId, Fresh s.stores userId
  latest : ∀ userId, s.latest userId = answerFor (s.stores.findById userId)

variable {r} {s : Instructed} {userId : String}

lemma fresh_deleteKey {w : InstructionStores} (h : Fresh w userId) (key : String) :
    Fresh (w.deleteKey key) userId := by
  intro cached hcached
  by_cases hkey : instructionsKey userId = key
  · simp [InstructionStores.deleteKey, hkey] at hcached
  · simp only [InstructionStores.deleteKey, Function.update_of_ne hkey] at hcached
    exact h cached hcached

lemma UpToDate.get (h : UpToDate s) (userId : String) : UpToDate (s.next r (.get userId)) := by
  simp only [Instructed.next, getInstructions]
  cases hcached : s.stores.redis (instructionsKey userId) with
  | some cached => exact h
  | none =>
    refine ⟨fun other cached hother => ?_, h.latest⟩
    by_cases huser : other = userId
    · simp only [InstructionStores.setKey, huser, Function.update_self, Option.mem_some_iff] at hother
      rw [← hother, huser]
      rfl
    · have hkey : instructionsKey other ≠ instructionsKey userId :=
        fun heq => huser (instructionsKey_injective heq)
      simp only [InstructionStores.setKey, Function.update_of_ne hkey] at hother
      exact h.fresh other cached hother

lemma UpToDate.update (h : UpToDate s) (text : String) (hsaves : r.saves s.stores userId = true) :
    UpToDate (s.next r (.update userId text)) := by
  simp only [Instructed.next, updateInstructions, hsaves, if_true]
  constructor
  · intro other cached hother
    by_cases huser : other = userId
    · simp [InstructionStores.deleteKey, huser] at hother
    · have hkey : instructionsKey other ≠ instructionsKey userId :=
        fun heq => huser (instructionsKey_injective heq)
      simp only [InstructionStores.commit_redis, InstructionStores.deleteKey,
        Function.update_of_ne hkey] at hother
      rw [h.fresh other cached hother]
      simp [InstructionStores.findById, InstructionStores.commit, Function.update_of_ne huser]
  · intro other
    by_cases huser : other = userId
    · simp [InstructionStores.findById, InstructionStores.commit, huser, answerFor]
    · simp [InstructionStores.findById, InstructionStores.commit, Function.update_of_ne huser,
        h.latest other]

lemma UpToDate.next (h : UpToDate s) {op : Operation} (hop : Stored r s op) : UpToDate (s.next r op) := by
  cases op with
  | get userId => exact h.get userId
  | update userId text => exact h.update text hop
  | expire userId => exact ⟨fun other => fresh_deleteKey (h.fresh other) _, h.latest⟩

lemma readsWrites_iff_stored (h : UpToDate s) (op : Operation) : ReadsWrites r s op ↔ Stored r s op := by
  cases op with
  | get userId =>
    have hlatest := h.latest userId
    simp only [ReadsWrites, Stored, getInstructions]
    cases hcached : s.stores.redis (instructionsKey userId) with
    | none => simp [hlatest]
    | some cached =>
      have hfresh := h.fresh userId cached hcached
      cases hrow : s.stores.findById userId with
      | none =>
        rw [hrow] at hfresh hlatest
        simp [hfresh, hlatest, cacheValue, answerFor, emptyMarker]
      | some instruction =>
        rw [hrow] at hfresh hlatest
        simp only [hfresh, hlatest, cacheValue, answerFor, Option.some.injEq, and_self]
        by_cases hmarker : emptyMarker = instruction.instructionText
        · simp [← hmarker, emptyMarker]
        · simp [hmarker, Ne.symm hmarker]
  | update userId text =>
    simp only [ReadsWrites, Stored, updateInstructions]
    cases r.saves s.stores userId with
    | true => simp
    | false => simp
  | expire userId => exact Iff.rfl

lemma upToDate_empty : UpToDate Instructed.empty :=
  ⟨fun _ _ h => (Option.not_mem_none _ h).elim, fun _ => rfl⟩

/-- In a run from the empty table, every update succeeds and every read returns the latest text exactly
when the repository takes every row and no read finds the marker for a text. -/
theorem readsWrites_iff_along_stored (r : UserInstructionRepository) (ops : List Operation) :
    Along (Instructed.next r) (ReadsWrites r) Instructed.empty ops ↔
      Along (Instructed.next r) (Stored r) Instructed.empty ops :=
  along_iff_guard (I := UpToDate) (fun _ _ h hop => h.next hop) (fun _ op h => readsWrites_iff_stored h op)
    upToDate_empty ops

/-- A save that does not insert leaves the empty table empty. -/
lemma table_next_of_empty (hinserts : r.insertsMissing = false) (h : ∀ userId, s.stores.table userId = none)
    (op : Operation) : ∀ userId, (s.next r op).stores.table userId = none := by
  cases op with
  | get userId =>
    simp only [Instructed.next, getInstructions]
    split
    · exact h
    · exact h
  | update userId text =>
    have hsaves : r.saves s.stores userId = false := by
      simp [UserInstructionRepository.saves, hinserts, InstructionStores.findById, h userId]
    simp only [Instructed.next, updateInstructions, hsaves]
    exact h
  | expire userId => exact h

lemma stored_iff_of_empty (hinserts : r.insertsMissing = false) (h : ∀ userId, s.stores.table userId = none)
    (hupToDate : UpToDate s) (op : Operation) : Stored r s op ↔ op.isUpdate = false := by
  cases op with
  | get userId =>
    have hlatest : s.latest userId = "" := by
      rw [hupToDate.latest, InstructionStores.findById, h userId]
      rfl
    simp [Stored, Operation.isUpdate, hlatest, emptyMarker]
  | update userId text =>
    simp [Stored, Operation.isUpdate, UserInstructionRepository.saves, hinserts,
      InstructionStores.findById, h userId]
  | expire userId => simp [Stored, Operation.isUpdate]

/-- With a save that does not insert, the service meets its purpose in the runs without an update only. -/
theorem readsWrites_iff_no_update (r : UserInstructionRepository) (hinserts : r.insertsMissing = false)
    (ops : List Operation) :
    Along (Instructed.next r) (ReadsWrites r) Instructed.empty ops ↔ ∀ op ∈ ops, op.isUpdate = false := by
  rw [readsWrites_iff_along_stored, ← along_const_iff Instructed.empty ops]
  refine along_iff_guard (I := fun s => UpToDate s ∧ ∀ userId, s.stores.table userId = none)
    (fun s op h hop => ⟨?_, table_next_of_empty hinserts h.2 op⟩)
    (fun s op h => stored_iff_of_empty hinserts h.2 h.1 op) ⟨upToDate_empty, fun _ => rfl⟩ ops
  exact h.1.next ((stored_iff_of_empty hinserts h.2 h.1 op).mpr hop)

end

theorem readsWrites_without_update :
    Along (Instructed.next ⟨false⟩) (ReadsWrites ⟨false⟩) Instructed.empty [.get "user", .expire "user", .get "user"] :=
  (readsWrites_iff_no_update ⟨false⟩ rfl [.get "user", .expire "user", .get "user"]).mpr (by decide)

/-- The first update of a user fails. -/
theorem first_update_fails :
    (updateInstructions ⟨false⟩ Instructed.empty.stores "user" "Answer in Polish.").2 =
        .error ⟨"Failed to update user instructions"⟩ ∧
      ¬Along (Instructed.next ⟨false⟩) (ReadsWrites ⟨false⟩) Instructed.empty
        [.update "user" "Answer in Polish."] := by
  refine ⟨rfl, fun h => ?_⟩
  have hupdate : (updateInstructions ⟨false⟩ Instructed.empty.stores "user" "Answer in Polish.").2 = .ok () :=
    h.1
  cases hupdate

end AscendAI.User
