import AscendAI.Lib.Runs
import AscendAI.Memory.Compaction

/-!
# PersistentChatMemory

`get` and `add` over the two backends. `persistToDb` is called on `this`, so the insert runs
before the next message is pushed; the dispatch of `maybeCompact` is the last act of `add`,
and here it also finishes before `add` returns.
-/

namespace AscendAI.Memory
open RedisList

/-- What `get` throws, with the message of its cause. -/
inductive ServiceException where
  | failedToRetrieve (cause : String)
  deriving DecidableEq, Repr

section Service

variable (d : Deployment)

def loadFromRedis (w : World) (key : String) : List Message :=
  (lrange (w.redis key) 0 (-1)).map mapDtoToMessage

def mapToMessage (h : ChatHistory) : Message := createMessage h.role h.content

def loadFromPostgres (w : World) (conversationId : String) : Except String (List Message) :=
  (w.table.findRecentHistory d.tie conversationId (effectiveCacheSize d)).map fun history =>
    (history.map mapToMessage).reverse

def populateRedisCache (w : World) (key : String) (hydrated : List Message) : World :=
  w.rightPushAll key (hydrated.map toDto)

/-- `subList` throws when a negative `lastN` puts the start past the end. -/
def sliceTail (messages : List Message) (lastN : ℤ) : Except String (List Message) :=
  let start := max 0 (messages.length - lastN)
  if start > messages.length then .error "fromIndex > toIndex" else .ok (messages.drop start.toNat)

/-- `get`: its answer or exception, and the state it leaves. -/
def get (w : World) (conversationId : String) (lastN : ℤ) :
    World × Except ServiceException (List Message) :=
  if !d.history.redisEnabled && !d.history.postgresEnabled then (w, .ok [])
  else
    let key := chatKey conversationId
    let cached := if d.history.redisEnabled then loadFromRedis w key else []
    if !cached.isEmpty then (w, (sliceTail cached lastN).mapError .failedToRetrieve)
    else if !d.history.postgresEnabled then (w, .ok [])
    else
      match loadFromPostgres d w conversationId with
      | .error cause => (w, .error (.failedToRetrieve cause))
      | .ok hydrated =>
        (if d.history.redisEnabled && !hydrated.isEmpty then populateRedisCache w key hydrated else w,
          (sliceTail hydrated lastN).mapError .failedToRetrieve)

def persistToDb (w : World) (userId : String) (message : Message) : World :=
  w.saveNow d userId message.messageType.getValue message.text

def addMessage (conversationId : String) (w : World) (message : Message) : World :=
  let pushed := if d.history.redisEnabled then w.rightPush (chatKey conversationId) (toDto message) else w
  if d.history.postgresEnabled then persistToDb d pushed conversationId message else pushed

/-- `add` up to the dispatch of the compaction. -/
def addMessages (w : World) (conversationId : String) (messages : List Message) : World :=
  let stored := messages.foldl (addMessage d conversationId) w
  if d.history.redisEnabled then
    stored.trim (chatKey conversationId) 0 (effectiveCacheSize d - 1)
  else stored

def add (llm : Summariser) (w : World) (conversationId : String) (messages : List Message)
    (primaryProvider : Option String) (override : Option CompactionOverride) : World :=
  if !d.history.redisEnabled && !d.history.postgresEnabled then w
  else (maybeCompact d llm (addMessages d w conversationId messages) conversationId primaryProvider
    override).1

end Service

/-- One call of `add`, with what the summariser would answer to its compaction. -/
structure AddCall where
  conversationId : String
  messages : List Message
  primaryProvider : Option String := none
  override : Option CompactionOverride := some {}
  llm : Summariser := fun _ _ => none

def addStep (d : Deployment) (w : World) (call : AddCall) : World :=
  add d call.llm w call.conversationId call.messages call.primaryProvider call.override

/-- The messages that a run adds to a conversation. -/
def addedTo (conversationId : String) (calls : List AddCall) : List Message :=
  (calls.filter (fun call => call.conversationId = conversationId)).flatMap AddCall.messages

lemma addedTo_cons_self (call : AddCall) (calls : List AddCall) :
    addedTo call.conversationId (call :: calls) = call.messages ++ addedTo call.conversationId calls := by
  simp [addedTo]

lemma addedTo_cons_of_ne {call : AddCall} {conversationId : String}
    (h : conversationId ≠ call.conversationId) (calls : List AddCall) :
    addedTo conversationId (call :: calls) = addedTo conversationId calls := by
  simp [addedTo, Ne.symm h]

/-! ### The two backends after the loop -/

section Laws

variable (d : Deployment) (w : World)

lemma redis_foldl_addMessage (hredis : d.history.redisEnabled = true) (conversationId key : String)
    (messages : List Message) :
    (messages.foldl (addMessage d conversationId) w).redis key =
      if key = chatKey conversationId then w.redis key ++ messages.map toDto else w.redis key := by
  induction messages generalizing w with
  | nil => simp
  | cons message messages ih =>
    have hone : (addMessage d conversationId w message).redis key =
        if key = chatKey conversationId then w.redis key ++ [toDto message] else w.redis key := by
      have hpush : (addMessage d conversationId w message).redis =
          (w.rightPush (chatKey conversationId) (toDto message)).redis := by
        simp only [addMessage, hredis, if_true, persistToDb]
        split <;> rfl
      rw [hpush, World.rightPush]
      split
      · rename_i h
        rw [h, World.redis_setRedis_self, rpush]
      · rename_i h
        exact World.redis_setRedis_of_ne w h _
    rw [List.foldl_cons, ih, hone]
    split <;> simp

lemma redis_addMessages (hredis : d.history.redisEnabled = true) (conversationId : String)
    (messages : List Message) :
    (addMessages d w conversationId messages).redis (chatKey conversationId) =
      ltrim (w.redis (chatKey conversationId) ++ messages.map toDto) 0 (effectiveCacheSize d - 1) := by
  simp only [addMessages, hredis, if_true, World.trim, World.redis_setRedis_self,
    redis_foldl_addMessage d w hredis]

lemma redis_addMessages_of_ne {conversationId other : String} (h : other ≠ conversationId)
    (hredis : d.history.redisEnabled = true) (messages : List Message) :
    (addMessages d w conversationId messages).redis (chatKey other) = w.redis (chatKey other) := by
  have hkey : chatKey other ≠ chatKey conversationId := fun heq => h (chatKey_injective heq)
  simp only [addMessages, hredis, if_true, World.trim, World.redis_setRedis_of_ne _ hkey,
    redis_foldl_addMessage d w hredis, if_neg hkey]

lemma table_addMessage_of_ne {conversationId other : String} (h : other ≠ conversationId)
    (message : Message) :
    (addMessage d conversationId w message).table.ofUser other = w.table.ofUser other := by
  simp only [addMessage, persistToDb]
  split
  · rw [World.table_saveNow, ChatHistoryTable.ofUser_save_of_ne _ h.symm]
    split <;> rfl
  · split <;> rfl

lemma ofUser_addMessages_of_ne {conversationId other : String} (h : other ≠ conversationId)
    (messages : List Message) :
    (addMessages d w conversationId messages).table.ofUser other = w.table.ofUser other := by
  have hfold : (messages.foldl (addMessage d conversationId) w).table.ofUser other =
      w.table.ofUser other := by
    induction messages generalizing w with
    | nil => rfl
    | cons message messages ih => rw [List.foldl_cons, ih, table_addMessage_of_ne d w h]
  simp only [addMessages]
  split
  · exact hfold
  · exact hfold

lemma addMessages_nil_table (conversationId : String) :
    (addMessages d w conversationId []).table = w.table := by
  simp only [addMessages, List.foldl_nil]
  split <;> rfl

lemma maybeCompact_disabled (hcompaction : d.compaction.enabled = false) (llm : Summariser)
    (conversationId : String) (primaryProvider : Option String)
    (override : Option CompactionOverride) :
    maybeCompact d llm w conversationId primaryProvider override = (w, []) := by
  simp [maybeCompact, hcompaction]

lemma addStep_disabled (hcompaction : d.compaction.enabled = false)
    (hredis : d.history.redisEnabled = true) (call : AddCall) :
    addStep d w call = addMessages d w call.conversationId call.messages := by
  simp [addStep, add, hredis, maybeCompact_disabled d _ hcompaction]

end Laws

end AscendAI.Memory
