import Mathlib.Data.Rat.Init
import Mathlib.Algebra.Order.Ring.Rat
import AscendAI.Lib.RedisList
import AscendAI.Memory.ChatHistory

/-!
# The two backends of the chat memory

The configuration of the chat memory, and the state behind it: the Redis lists, the table
and the number of clock readings made so far.
-/

namespace AscendAI.Memory
open RedisList JavaString

/-- Java `int` arithmetic wraps around. -/
def javaInt (n : ℤ) : ℤ := n.bmod (2 ^ 32)

/-- The values of an `int`. -/
def IsJavaInt (n : ℤ) : Prop := -2 ^ 31 ≤ n ∧ n < 2 ^ 31

instance (n : ℤ) : Decidable (IsJavaInt n) := inferInstanceAs (Decidable (_ ∧ _))

lemma javaInt_of_isJavaInt {n : ℤ} (h : IsJavaInt n) : javaInt n = n :=
  Int.bmod_eq_of_le (by have := h.1; omega) (by have := h.2; omega)

lemma isJavaInt_javaInt (n : ℤ) : IsJavaInt (javaInt n) := by
  have hle := Int.le_bmod (x := n) (m := 2 ^ 32) (by decide)
  have hlt := Int.bmod_lt (x := n) (m := 2 ^ 32) (by decide)
  unfold IsJavaInt javaInt
  omega

structure ChatHistoryProperties where
  maxSize : ℤ := 5
  isJavaInt_maxSize : IsJavaInt maxSize := by decide
  redisEnabled : Bool := true
  postgresEnabled : Bool := true

structure ChatHistoryCompactionProperties where
  enabled : Bool := true
  turnTrigger : ℤ := 20
  tokenTriggerFraction : ℚ := 1 / 2
  keepRecentTurns : ℤ := 8
  isJavaInt_keepRecentTurns : IsJavaInt keepRecentTurns := by decide
  maxSummaryTokens : ℤ := 800
  providerDefaults : List (String × String) := []

/-- What the services are given: their properties, the successive answers of
`LocalDateTime.now()`, the database's order of ties and the rounding of `double` products. -/
structure Deployment where
  history : ChatHistoryProperties := {}
  compaction : ChatHistoryCompactionProperties := {}
  defaultProvider : Option String := none
  now : ℕ → ℕ
  tie : TieOrder
  roundDouble : ℚ → ℚ

/-- The shipped properties, over a clock that moves between any two readings. -/
def Deployment.shipped : Deployment where
  now := id
  tie := ⟨fun _ => 0, fun _ => 0⟩
  roundDouble := id

/-- The same without compaction. -/
def uncompacted : Deployment :=
  { Deployment.shipped with compaction := { Deployment.shipped.compaction with enabled := false } }

structure World where
  redis : String → List MessageDto
  table : ChatHistoryTable
  readings : ℕ

namespace World

def empty : World := ⟨fun _ => [], ChatHistoryTable.empty, 0⟩

def setRedis (w : World) (key : String) (l : List MessageDto) : World :=
  { w with redis := Function.update w.redis key l }

def rightPush (w : World) (key : String) (dto : MessageDto) : World :=
  w.setRedis key (rpush (w.redis key) dto)

def rightPushAll (w : World) (key : String) (dtos : List MessageDto) : World :=
  w.setRedis key (rpushAll (w.redis key) dtos)

def leftPush (w : World) (key : String) (dto : MessageDto) : World :=
  w.setRedis key (lpush (w.redis key) dto)

def trim (w : World) (key : String) (start stop : ℤ) : World :=
  w.setRedis key (ltrim (w.redis key) start stop)

/-- `repository.save` of a new entity stamped with the current time. -/
def saveNow (d : Deployment) (w : World) (userId role content : String) : World :=
  { w with table := w.table.save userId role content (d.now w.readings), readings := w.readings + 1 }

@[simp] lemma redis_setRedis_self (w : World) (key : String) (l : List MessageDto) :
    (w.setRedis key l).redis key = l := by
  simp [setRedis]

lemma redis_setRedis_of_ne (w : World) {key other : String} (h : other ≠ key) (l : List MessageDto) :
    (w.setRedis key l).redis other = w.redis other := by
  simp [setRedis, Function.update_of_ne h]

@[simp] lemma table_saveNow (d : Deployment) (w : World) (userId role content : String) :
    (w.saveNow d userId role content).table =
      w.table.save userId role content (d.now w.readings) := rfl

end World

def chatKey (conversationId : String) : String := "chat:" ++ conversationId

lemma chatKey_injective : Function.Injective chatKey := fun _ _ h =>
  (String.append_right_inj "chat:").mp h

/-- The size to which the Redis list is cut and with which it is refilled. -/
def effectiveCacheSize (d : Deployment) : ℤ :=
  let base := d.history.maxSize
  if !d.compaction.enabled then base
  else max base (javaInt (d.compaction.keepRecentTurns + 1))

lemma isJavaInt_effectiveCacheSize (d : Deployment) : IsJavaInt (effectiveCacheSize d) := by
  have hbase := d.history.isJavaInt_maxSize
  have hkeep := isJavaInt_javaInt (d.compaction.keepRecentTurns + 1)
  unfold effectiveCacheSize
  dsimp only
  split
  · exact hbase
  · exact ⟨hbase.1.trans (le_max_left _ _), max_lt hbase.2 hkeep.2⟩

lemma effectiveCacheSize_disabled {d : Deployment} (hcompaction : d.compaction.enabled = false) :
    effectiveCacheSize d = d.history.maxSize := by
  simp [effectiveCacheSize, hcompaction]

end AscendAI.Memory
