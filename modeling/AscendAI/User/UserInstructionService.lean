import Mathlib.Logic.Function.Basic
import AscendAI.Lib.ProcessPool
import AscendAI.Lib.Runs

/-!
# UserInstructionService

The table of user instructions and its cache, the two methods of the service, and the same
methods command by command as processes over the two stores.
-/

namespace AscendAI.User
open ProcessPool Runs

structure UserInstruction where
  userId : String
  instructionText : String
  deriving DecidableEq, Repr

/-- The Redis strings and the committed rows of `user_instructions`. -/
structure InstructionStores where
  redis : String → Option String
  table : String → Option UserInstruction

/-- What `save` does with an id that has no row: it inserts the row, or it throws because its
update finds none. -/
structure UserInstructionRepository where
  insertsMissing : Bool

structure ServiceException where
  message : String
  deriving DecidableEq, Repr

def emptyMarker : String := "EMPTY"

def instructionsKey (userId : String) : String := "user:" ++ userId ++ ":instructions"

lemma instructionsKey_injective : Function.Injective instructionsKey := fun _ _ h =>
  (String.append_right_inj "user:").mp ((String.append_left_inj ":instructions").mp h)

namespace InstructionStores

variable (w : InstructionStores)

def findById (userId : String) : Option UserInstruction := w.table userId

def setKey (key value : String) : InstructionStores :=
  { w with redis := Function.update w.redis key (some value) }

def deleteKey (key : String) : InstructionStores := { w with redis := Function.update w.redis key none }

def commit (entity : UserInstruction) : InstructionStores :=
  { w with table := Function.update w.table entity.userId (some entity) }

@[simp] lemma setKey_table (key value : String) : (w.setKey key value).table = w.table := rfl

@[simp] lemma deleteKey_table (key : String) : (w.deleteKey key).table = w.table := rfl

@[simp] lemma commit_redis (entity : UserInstruction) : (w.commit entity).redis = w.redis := rfl

end InstructionStores

def UserInstructionRepository.saves (r : UserInstructionRepository) (w : InstructionStores)
    (userId : String) : Bool := r.insertsMissing || (w.findById userId).isSome

/-- What the cache holds for a row, and for no row. -/
def cacheValue : Option UserInstruction → String
  | some instruction => instruction.instructionText
  | none => emptyMarker

def answerFor : Option UserInstruction → String
  | some instruction => instruction.instructionText
  | none => ""

def getInstructions (w : InstructionStores) (userId : String) : InstructionStores × String :=
  match w.redis (instructionsKey userId) with
  | some cached => (w, if emptyMarker = cached then "" else cached)
  | none =>
    let instruction := w.findById userId
    (w.setKey (instructionsKey userId) (cacheValue instruction), answerFor instruction)

/-- `updateInstructions` with the commit of its transaction. -/
def updateInstructions (r : UserInstructionRepository) (w : InstructionStores) (userId text : String) :
    InstructionStores × Except ServiceException Unit :=
  let entity : UserInstruction := ⟨userId, text⟩
  if r.saves w userId then ((w.deleteKey (instructionsKey userId)).commit entity, .ok ())
  else (w, .error ⟨"Failed to update user instructions"⟩)

/-- A call, before its next command. -/
inductive Call where
  | getCached (userId : String)
  | getFind (userId : String)
  | getSet (userId : String) (instruction : Option UserInstruction)
  | returned (answer : String)
  | updateSave (userId text : String)
  | updateDelete (userId text : String)
  | updateCommit (userId text : String)
  | updated (answer : Except ServiceException Unit)

def Call.isOver : Call → Bool
  | .returned _ => true
  | .updated _ => true
  | _ => false

def advance (r : UserInstructionRepository) (w : InstructionStores) : Call → Outcome InstructionStores Call
  | .getCached userId =>
    match w.redis (instructionsKey userId) with
    | some cached => ⟨w, .returned (if emptyMarker = cached then "" else cached), []⟩
    | none => ⟨w, .getFind userId, []⟩
  | .getFind userId => ⟨w, .getSet userId (w.findById userId), []⟩
  | .getSet userId instruction =>
    ⟨w.setKey (instructionsKey userId) (cacheValue instruction), .returned (answerFor instruction), []⟩
  | .returned answer => ⟨w, .returned answer, []⟩
  | .updateSave userId text =>
    -- The saved row stays in the open transaction, where no other call reads it.
    if r.saves w userId then ⟨w, .updateDelete userId text, []⟩
    else ⟨w, .updated (.error ⟨"Failed to update user instructions"⟩), []⟩
  | .updateDelete userId text => ⟨w.deleteKey (instructionsKey userId), .updateCommit userId text, []⟩
  | .updateCommit userId text => ⟨w.commit ⟨userId, text⟩, .updated (.ok ()), []⟩
  | .updated answer => ⟨w, .updated answer, []⟩

section Advance

variable (r : UserInstructionRepository) (w : InstructionStores) (userId text : String)

lemma advance_getCached :
    (∃ answer, advance r w (.getCached userId) = ⟨w, .returned answer, []⟩) ∨
      advance r w (.getCached userId) = ⟨w, .getFind userId, []⟩ := by
  simp only [advance]
  cases w.redis (instructionsKey userId) with
  | some cached => exact .inl ⟨_, rfl⟩
  | none => exact .inr rfl

lemma advance_updateSave :
    r.saves w userId = true ∧
        advance r w (.updateSave userId text) = ⟨w, .updateDelete userId text, []⟩ ∨
      r.saves w userId = false ∧
        ∃ answer, advance r w (.updateSave userId text) = ⟨w, .updated answer, []⟩ := by
  simp only [advance]
  cases hsaves : r.saves w userId with
  | true => exact .inl ⟨rfl, if_pos rfl⟩
  | false => exact .inr ⟨rfl, _, if_neg Bool.false_ne_true⟩

lemma advance_started (c : Call) : (advance r w c).started = [] := by
  cases c with
  | getCached userId =>
    obtain ⟨answer, h⟩ | h := advance_getCached r w userId
    · rw [h]
    · rw [h]
  | updateSave userId text =>
    obtain ⟨_, h⟩ | ⟨_, answer, h⟩ := advance_updateSave r w userId text
    · rw [h]
    · rw [h]
  | _ => rfl

end Advance

abbrev System := ProcessPool InstructionStores Call

/-- What can happen next: a call arrives, a call makes a step, or the key of a user expires. -/
inductive Event where
  | get (userId : String)
  | update (userId text : String)
  | step (i : ℕ)
  | expire (userId : String)

def System.next (r : UserInstructionRepository) (s : System) : Event → System
  | .get userId => s.start (.getCached userId)
  | .update userId text => s.start (.updateSave userId text)
  | .step i => s.step (advance r) i
  | .expire userId => ⟨s.shared.deleteKey (instructionsKey userId), s.procs⟩

def System.Quiet (s : System) : Prop := ∀ c ∈ s.procs, c.isOver = true

instance (s : System) : Decidable s.Quiet := inferInstanceAs (Decidable (∀ c ∈ _, _))

/-! ### A call that runs alone -/

section Alone

variable (r : UserInstructionRepository) (w : InstructionStores) (userId : String)

lemma next_single (c : Call) : System.next r ⟨w, [c]⟩ (.step 0) =
    ⟨(advance r w c).shared, (advance r w c).next :: (advance r w c).started⟩ := rfl

theorem run_get_alone : run (System.next r) ⟨w, [.getCached userId]⟩ (List.replicate 3 (.step 0)) =
    ⟨(getInstructions w userId).1, [.returned (getInstructions w userId).2]⟩ := by
  simp only [List.replicate, run_cons, run_nil, next_single, advance, getInstructions]
  cases hcached : w.redis (instructionsKey userId) with
  | some cached => rfl
  | none => rfl

theorem run_update_alone (text : String) :
    run (System.next r) ⟨w, [.updateSave userId text]⟩ (List.replicate 3 (.step 0)) =
      ⟨(updateInstructions r w userId text).1, [.updated (updateInstructions r w userId text).2]⟩ := by
  simp only [List.replicate, run_cons, run_nil, next_single, advance, updateInstructions]
  by_cases hsaves : r.saves w userId = true
  · simp only [hsaves, if_true]
    rfl
  · simp only [hsaves]
    rfl

end Alone

end AscendAI.User
