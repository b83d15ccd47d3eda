import AscendAI.Lib.Failure
import AscendAI.Memory.CompactionEffect
import AscendAI.Memory.PersistentChatMemory

/-!
# Compactions that fail or are watched

A compaction that applies replaces the prefix by five commands, one after the other: the transaction, the
trim of the Redis list, the serialisation of the summary, its push, and the expiry. One of them may fail,
and `get` may be called between any two of them.
-/

namespace AscendAI.Memory
open RedisList Failure

inductive CompactionCommand where
  | transaction
  | trim
  | serialise
  | leftPush
  | expire
  deriving DecidableEq

/-- The calls of `get` before each command and after the last one, by `lastN`, and the failure. -/
structure Interference where
  gets : CompactionCommand → List ℤ
  getsAfter : List ℤ
  failure : Option (Failure CompactionCommand)

/-- What is left, and the lists that were read from Redis. -/
structure Observed where
  world : World
  reads : List (List MessageDto)

section Commands

variable (d : Deployment) (conversationId : String)

def runGets : List ℤ → World → Observed
  | [], w => ⟨w, []⟩
  | lastN :: rest, w =>
    let next := runGets rest (get d w conversationId lastN).1
    ⟨next.world, lrange (w.redis (chatKey conversationId)) 0 (-1) :: next.reads⟩

variable (body : List ChatHistory) (summary : String)

def CompactionCommand.effect (w : World) : CompactionCommand → World
  | .transaction => (applyToPostgres d w conversationId body summary).1
  | .trim => w.trim (chatKey conversationId) body.length (-1)
  | .serialise => w
  | .leftPush => w.leftPush (chatKey conversationId) ⟨MessageType.system.getValue, summary⟩
  | .expire => w

variable (interference : Interference)

/-- The commands up to a failure: the serialisation's is caught in `applyToRedis`, which then ends, and any
other by `maybeCompact`. -/
def runCommands : List CompactionCommand → World → Observed
  | [], w => runGets d conversationId interference.getsAfter w
  | command :: rest, w =>
    let before := runGets d conversationId (interference.gets command) w
    let attempted := attempt interference.failure command
      (fun w => command.effect d conversationId body summary w) before.world
    let next := if attempted.2 then runGets d conversationId interference.getsAfter attempted.1
      else runCommands rest attempted.1
    ⟨next.world, before.reads ++ next.reads⟩

/-- The commands of a compaction that applies, with both backends enabled. -/
def runCompaction (w : World) : Observed :=
  runCommands d conversationId body summary interference [.transaction, .trim, .serialise, .leftPush, .expire] w

end Commands

/-- Every message that was in the list is there, or the summary that covers it is. -/
def HoleFree (before covered : List MessageDto) (summary : MessageDto) (list : List MessageDto) : Prop :=
  ∀ message ∈ before, message ∈ list ∨ message ∈ covered ∧ summary ∈ list

section Property

variable (d : Deployment) (conversationId : String) (p : ℕ) (summary : String)

def summaryDto (summary : String) : MessageDto := ⟨MessageType.system.getValue, summary⟩

/-- The rows that the summary covers. -/
def bodyOf (w : World) : List ChatHistory := (historyOf d w conversationId).take p

/-- Both backends are as they were, or both are compacted. -/
def BothOrNeither (w w' : World) : Prop :=
  w'.table = w.table ∧ w'.redis (chatKey conversationId) = w.redis (chatKey conversationId) ∨
    w'.table = (applyToPostgres d w conversationId (bodyOf d conversationId p w) summary).1.table ∧
      w'.redis (chatKey conversationId) =
        summaryDto summary :: (w.redis (chatKey conversationId)).drop p

/-- No list that is read or left behind has a hole, and after a failure the backends agree. -/
structure LeavesNoHole (interference : Interference) (w : World) (o : Observed) : Prop where
  reads : ∀ list ∈ o.reads, HoleFree (w.redis (chatKey conversationId))
    ((bodyOf d conversationId p w).map ChatHistory.toDto) (summaryDto summary) list
  left : HoleFree (w.redis (chatKey conversationId)) ((bodyOf d conversationId p w).map ChatHistory.toDto)
    (summaryDto summary) (o.world.redis (chatKey conversationId))
  agree : interference.failure ≠ none → BothOrNeither d conversationId p summary w o.world

/-- Nothing fails between the commit and the push, and no `get` comes between the trim and the push, unless the
messages that are in the list then make up for it. -/
def Harmless (interference : Interference) (w : World) : Prop :=
  let before := w.redis (chatKey conversationId)
  let covered := (bodyOf d conversationId p w).map ChatHistory.toDto
  let pushed := (interference.gets .serialise ≠ [] ∨ interference.gets .leftPush ≠ [] →
      HoleFree before covered (summaryDto summary) (before.drop p)) ∧
    HoleFree before covered (summaryDto summary) (summaryDto summary :: before.drop p)
  match interference.failure with
  | none => pushed
  | some ⟨.transaction, false⟩ => True
  | some ⟨.transaction, true⟩ => before = summaryDto summary :: before.drop p
  | some ⟨.trim, false⟩ => before = summaryDto summary :: before.drop p
  | some ⟨.trim, true⟩ => False
  | some ⟨.serialise, _⟩ => False
  | some ⟨.leftPush, false⟩ => False
  | some ⟨.leftPush, true⟩ => pushed
  | some ⟨.expire, _⟩ => pushed

end Property

/-! ### What is observed -/

section Steps

variable {d : Deployment} {conversationId : String}

/-- A list that is there is read, and nothing is written. -/
lemma runGets_of_ne_nil (hredis : d.history.redisEnabled = true) {w : World}
    (hne : w.redis (chatKey conversationId) ≠ []) (gets : List ℤ) :
    runGets d conversationId gets w = ⟨w, gets.map fun _ => w.redis (chatKey conversationId)⟩ := by
  have hcached : (loadFromRedis w (chatKey conversationId)).isEmpty = false := by
    rw [loadFromRedis, lrange_all]
    simpa using hne
  have hget : ∀ lastN, (get d w conversationId lastN).1 = w := by
    intro lastN
    simp only [get, hredis, Bool.not_true, Bool.false_and, Bool.false_eq_true, if_false, if_true, hcached,
      Bool.not_false]
  induction gets with
  | nil => rfl
  | cons lastN rest ih => rw [runGets, hget, ih, lrange_all, List.map_cons]

/-- What holds of all lists that are read and of the state that is left. -/
def Observed.Satisfies (o : Observed) (conversationId : String) (p : List MessageDto → Prop)
    (q : World → Prop) : Prop :=
  (∀ list ∈ o.reads, p list) ∧ p (o.world.redis (chatKey conversationId)) ∧ q o.world

variable {p : List MessageDto → Prop} {q : World → Prop}

lemma satisfies_runGets (hredis : d.history.redisEnabled = true) {w : World}
    (hne : w.redis (chatKey conversationId) ≠ []) (gets : List ℤ) :
    (runGets d conversationId gets w).Satisfies conversationId p q ↔
      p (w.redis (chatKey conversationId)) ∧ q w := by
  rw [runGets_of_ne_nil hredis hne, Observed.Satisfies]
  constructor
  · exact fun h => h.2
  · rintro ⟨hp, hq⟩
    refine ⟨fun list hlist => ?_, hp, hq⟩
    obtain ⟨-, -, rfl⟩ := List.mem_map.mp hlist
    exact hp

variable {body : List ChatHistory} {summary : String} {interference : Interference}

/-- One command: what is read before it, and then the end or the other commands. -/
lemma satisfies_runCommands (hredis : d.history.redisEnabled = true) {w : World}
    (hne : w.redis (chatKey conversationId) ≠ []) (command : CompactionCommand) (rest : List CompactionCommand) :
    (runCommands d conversationId body summary interference (command :: rest) w).Satisfies conversationId p q ↔
      (interference.gets command ≠ [] → p (w.redis (chatKey conversationId))) ∧
      (if (attempt interference.failure command (fun w => command.effect d conversationId body summary w) w).2 then
        runGets d conversationId interference.getsAfter
          (attempt interference.failure command (fun w => command.effect d conversationId body summary w) w).1
      else runCommands d conversationId body summary interference rest
          (attempt interference.failure command
            (fun w => command.effect d conversationId body summary w) w).1).Satisfies conversationId p q := by
  rw [runCommands]
  simp only [runGets_of_ne_nil hredis hne]
  generalize (if (attempt interference.failure command
    (fun w => command.effect d conversationId body summary w) w).2 = true then _ else _ : Observed) = next
  simp only [Observed.Satisfies, List.forall_mem_append, and_assoc]
  apply and_congr_left
  intro _
  constructor
  · intro h hgets
    obtain ⟨lastN, hlastN⟩ := List.exists_mem_of_ne_nil _ hgets
    exact h _ (List.mem_map_of_mem hlastN)
  · intro h list hlist
    obtain ⟨lastN, hlastN, rfl⟩ := List.mem_map.mp hlist
    exact h (List.ne_nil_of_mem hlastN)

/-- A command that does not fail. -/
lemma satisfies_runCommands_of_ne (hredis : d.history.redisEnabled = true) {w : World}
    (hne : w.redis (chatKey conversationId) ≠ []) {command : CompactionCommand} (rest : List CompactionCommand)
    (hfailure : ∀ f ∈ interference.failure, f.command ≠ command) {w' : World}
    (hleft : command.effect d conversationId body summary w = w') :
    (runCommands d conversationId body summary interference (command :: rest) w).Satisfies conversationId p q ↔
      (interference.gets command ≠ [] → p (w.redis (chatKey conversationId))) ∧
      (runCommands d conversationId body summary interference rest w').Satisfies conversationId p q := by
  rw [satisfies_runCommands hredis hne, attempt_of_ne _ _ _ hfailure, hleft, if_neg Bool.false_ne_true]

/-- A command that fails ends the run, in the state before it or after it. -/
lemma satisfies_runCommands_of_failure (hredis : d.history.redisEnabled = true) {w : World}
    (hne : w.redis (chatKey conversationId) ≠ []) {command : CompactionCommand} (rest : List CompactionCommand)
    (carriedOut : Bool) (hfailure : interference.failure = some ⟨command, carriedOut⟩) {w' : World}
    (hleft : (if carriedOut then command.effect d conversationId body summary w else w) = w')
    (hne' : w'.redis (chatKey conversationId) ≠ []) :
    (runCommands d conversationId body summary interference (command :: rest) w).Satisfies conversationId p q ↔
      (interference.gets command ≠ [] → p (w.redis (chatKey conversationId))) ∧
      p (w'.redis (chatKey conversationId)) ∧ q w' := by
  rw [satisfies_runCommands hredis hne, hfailure, attempt_self, hleft, if_pos rfl, satisfies_runGets hredis hne']

end Steps

/-! ### The five states -/

section States

variable (d : Deployment) (conversationId : String) (body : List ChatHistory) (summary : String) (w : World)

/-- The transaction uses up a row id. -/
lemma table_applyToPostgres_ne (hpostgres : d.history.postgresEnabled = true) :
    (applyToPostgres d w conversationId body summary).1.table ≠ w.table := by
  have hnext : (applyToPostgres d w conversationId body summary).1.table.nextId = w.table.nextId + 1 := by
    simp only [applyToPostgres, hpostgres, Bool.not_true, Bool.false_eq_true, if_false]
    split <;> rfl
  intro heq
  rw [heq] at hnext
  omega

@[simp] lemma redis_effect_trim :
    (CompactionCommand.trim.effect d conversationId body summary w).redis (chatKey conversationId) =
      (w.redis (chatKey conversationId)).drop body.length := by
  rw [CompactionCommand.effect, World.trim, World.redis_setRedis_self, ltrim_drop]

@[simp] lemma redis_effect_leftPush :
    (CompactionCommand.leftPush.effect d conversationId body summary w).redis (chatKey conversationId) =
      summaryDto summary :: w.redis (chatKey conversationId) := by
  rw [CompactionCommand.effect, World.leftPush, World.redis_setRedis_self, lpush, summaryDto]

end States

section Main

variable {d : Deployment} {llm : Summariser} {w : World} {conversationId : String}
  {primaryProvider : Option String} {override : Option CompactionOverride} {p : ℕ} {summary : String}

lemma length_bodyOf (happlies : Applies d llm w conversationId primaryProvider override p summary) :
    (bodyOf d conversationId p w).length = p := by
  have hbounds := happlies.length_bounds.2
  rw [bodyOf, List.length_take]
  omega

lemma leavesNoHole_iff_satisfies (interference : Interference) (o : Observed) :
    LeavesNoHole d conversationId p summary interference w o ↔
      o.Satisfies conversationId
        (HoleFree (w.redis (chatKey conversationId)) ((bodyOf d conversationId p w).map ChatHistory.toDto)
          (summaryDto summary))
        (fun w' => interference.failure ≠ none → BothOrNeither d conversationId p summary w w') :=
  ⟨fun h => ⟨h.reads, h.left, h.agree⟩, fun h => ⟨h.1, h.2.1, h.2.2⟩⟩

lemma HoleFree.refl (before covered : List MessageDto) (dto : MessageDto) :
    HoleFree before covered dto before := fun _ hmessage => .inl hmessage

/-- When the two orders agree, the list of a compaction that finished has no hole. -/
lemma holeFree_cons_drop {before : List MessageDto}
    (horder : before = (historyOf d w conversationId).map ChatHistory.toDto) (dto : MessageDto) :
    HoleFree before ((bodyOf d conversationId p w).map ChatHistory.toDto) dto (dto :: before.drop p) := by
  intro message hmessage
  rw [← List.take_append_drop p before, List.mem_append] at hmessage
  rcases hmessage with htaken | hkept
  · rw [horder, ← List.map_take] at htaken
    exact .inr ⟨htaken, List.mem_cons_self⟩
  · exact .inl (List.mem_cons_of_mem _ hkept)

/-- Once the transaction is committed, the backends agree only when Redis is compacted too. -/
lemma bothOrNeither_iff_of_committed (hpostgres : d.history.postgresEnabled = true) {w' : World}
    (htable : w'.table = (applyToPostgres d w conversationId (bodyOf d conversationId p w) summary).1.table) :
    BothOrNeither d conversationId p summary w w' ↔
      w'.redis (chatKey conversationId) = summaryDto summary :: (w.redis (chatKey conversationId)).drop p := by
  have hne := table_applyToPostgres_ne d conversationId (bodyOf d conversationId p w) summary w hpostgres
  rw [BothOrNeither, htable]
  constructor
  · rintro (⟨heq, -⟩ | ⟨-, hcompacted⟩)
    · exact absurd heq hne
    · exact hcompacted
  · intro hcompacted
    exact .inr ⟨rfl, hcompacted⟩

/-- The states after the transaction, the trim and the push. -/
structure States (d : Deployment) (conversationId : String) (p : ℕ) (summary : String)
    (w committed trimmed pushed : World) : Prop where
  commits : CompactionCommand.transaction.effect d conversationId (bodyOf d conversationId p w) summary w = committed
  trims : CompactionCommand.trim.effect d conversationId (bodyOf d conversationId p w) summary committed = trimmed
  serialises : CompactionCommand.serialise.effect d conversationId (bodyOf d conversationId p w) summary trimmed =
    trimmed
  pushes : CompactionCommand.leftPush.effect d conversationId (bodyOf d conversationId p w) summary trimmed = pushed
  expires : CompactionCommand.expire.effect d conversationId (bodyOf d conversationId p w) summary pushed = pushed
  redis_committed : committed.redis (chatKey conversationId) = w.redis (chatKey conversationId)
  redis_trimmed : trimmed.redis (chatKey conversationId) = (w.redis (chatKey conversationId)).drop p
  redis_pushed : pushed.redis (chatKey conversationId) =
    summaryDto summary :: (w.redis (chatKey conversationId)).drop p
  agree_committed : BothOrNeither d conversationId p summary w committed ↔
    w.redis (chatKey conversationId) = summaryDto summary :: (w.redis (chatKey conversationId)).drop p
  disagree_trimmed : ¬BothOrNeither d conversationId p summary w trimmed
  agree_pushed : BothOrNeither d conversationId p summary w pushed
  kept_ne_nil : (w.redis (chatKey conversationId)).drop p ≠ []

lemma exists_states (happlies : Applies d llm w conversationId primaryProvider override p summary)
    (hsame : (w.redis (chatKey conversationId)).Perm ((historyOf d w conversationId).map ChatHistory.toDto)) :
    ∃ committed trimmed pushed, States d conversationId p summary w committed trimmed pushed := by
  have hbody := length_bodyOf happlies
  generalize hcommits : CompactionCommand.transaction.effect d conversationId (bodyOf d conversationId p w)
    summary w = committed
  generalize htrims : CompactionCommand.trim.effect d conversationId (bodyOf d conversationId p w)
    summary committed = trimmed
  generalize hpushes : CompactionCommand.leftPush.effect d conversationId (bodyOf d conversationId p w)
    summary trimmed = pushed
  have hcommitted : committed.redis = w.redis := by
    rw [← hcommits]
    exact redis_applyToPostgres d conversationId _ summary w
  have htrimmed : trimmed.redis (chatKey conversationId) = (w.redis (chatKey conversationId)).drop p := by
    rw [← htrims, redis_effect_trim, hbody, hcommitted]
  have hpushed : pushed.redis (chatKey conversationId) =
      summaryDto summary :: (w.redis (chatKey conversationId)).drop p := by
    rw [← hpushes, redis_effect_leftPush, htrimmed]
  have htable : committed.table =
      (applyToPostgres d w conversationId (bodyOf d conversationId p w) summary).1.table := by
    rw [← hcommits, CompactionCommand.effect]
  have htable' : trimmed.table = committed.table := by
    rw [← htrims]
    rfl
  have htable'' : pushed.table = trimmed.table := by
    rw [← hpushes]
    rfl
  refine ⟨committed, trimmed, pushed, hcommits, htrims, rfl, hpushes, rfl, congrFun hcommitted _, htrimmed, hpushed,
    ?_, ?_, ?_, ?_⟩
  · rw [bothOrNeither_iff_of_committed happlies.postgres htable, hcommitted]
  · rw [bothOrNeither_iff_of_committed happlies.postgres (htable'.trans htable), htrimmed]
    intro heq
    have hlength := congrArg List.length heq
    rw [List.length_cons] at hlength
    omega
  · rw [bothOrNeither_iff_of_committed happlies.postgres (htable''.trans (htable'.trans htable))]
    exact hpushed
  · have hlength := hsame.length_eq
    have hbounds := happlies.length_bounds.2
    rw [List.length_map] at hlength
    rw [← List.length_pos_iff, List.length_drop]
    omega

namespace States

variable {committed trimmed pushed : World} {interference : Interference} {NoHole : List MessageDto → Prop}
  {q : World → Prop} (h : States d conversationId p summary w committed trimmed pushed)
include h

lemma ne_nil : w.redis (chatKey conversationId) ≠ [] := by
  intro hnil
  have hkept := h.kept_ne_nil
  rw [hnil, List.drop_nil] at hkept
  exact hkept rfl

lemma committed_ne_nil : committed.redis (chatKey conversationId) ≠ [] := by
  rw [h.redis_committed]
  exact h.ne_nil

lemma trimmed_ne_nil : trimmed.redis (chatKey conversationId) ≠ [] := by
  rw [h.redis_trimmed]
  exact h.kept_ne_nil

lemma pushed_ne_nil : pushed.redis (chatKey conversationId) ≠ [] := by
  rw [h.redis_pushed]
  exact List.cons_ne_nil _ _

variable (hredis : d.history.redisEnabled = true)
include hredis

/-- A read before the trim finds the whole list. -/
lemma satisfies_commits (hbefore : NoHole (w.redis (chatKey conversationId)))
    (hfailure : ∀ f ∈ interference.failure, f.command ≠ .transaction) :
    (runCompaction d conversationId (bodyOf d conversationId p w) summary interference w).Satisfies
        conversationId NoHole q ↔
      (runCommands d conversationId (bodyOf d conversationId p w) summary interference
        [.trim, .serialise, .leftPush, .expire] committed).Satisfies conversationId NoHole q := by
  rw [runCompaction, satisfies_runCommands_of_ne hredis h.ne_nil _ hfailure h.commits]
  exact and_iff_right fun _ => hbefore

lemma satisfies_trims (hbefore : NoHole (w.redis (chatKey conversationId)))
    (hfailure : ∀ f ∈ interference.failure, f.command ≠ .transaction ∧ f.command ≠ .trim) :
    (runCompaction d conversationId (bodyOf d conversationId p w) summary interference w).Satisfies
        conversationId NoHole q ↔
      (runCommands d conversationId (bodyOf d conversationId p w) summary interference
        [.serialise, .leftPush, .expire] trimmed).Satisfies conversationId NoHole q := by
  rw [h.satisfies_commits hredis hbefore fun f hf => (hfailure f hf).1,
    satisfies_runCommands_of_ne hredis h.committed_ne_nil _ (fun f hf => (hfailure f hf).2) h.trims, h.redis_committed]
  exact and_iff_right fun _ => hbefore

/-- A run that trims and does not push ends with the kept suffix. -/
lemma trimmed_of_satisfies
    (hfailure : interference.failure = some ⟨.serialise, true⟩ ∨ interference.failure = some ⟨.serialise, false⟩ ∨
      interference.failure = some ⟨.leftPush, false⟩)
    (hrun : (runCommands d conversationId (bodyOf d conversationId p w) summary interference
      [.serialise, .leftPush, .expire] trimmed).Satisfies conversationId NoHole q) : q trimmed := by
  rcases hfailure with hfailure | hfailure | hfailure
  · rw [satisfies_runCommands_of_failure hredis h.trimmed_ne_nil _ true hfailure ((if_pos rfl).trans h.serialises)
      h.trimmed_ne_nil] at hrun
    exact hrun.2.2
  · rw [satisfies_runCommands_of_failure hredis h.trimmed_ne_nil _ false hfailure (if_neg Bool.false_ne_true)
      h.trimmed_ne_nil] at hrun
    exact hrun.2.2
  · rw [satisfies_runCommands_of_ne hredis h.trimmed_ne_nil _ (by simp [hfailure]) h.serialises,
      satisfies_runCommands_of_failure hredis h.trimmed_ne_nil _ false hfailure (if_neg Bool.false_ne_true)
      h.trimmed_ne_nil] at hrun
    exact hrun.2.2.2

/-- A run that pushes: what is read between the trim and the push, and what is there at the end. -/
lemma satisfies_pushes
    (hfailure : ∀ f ∈ interference.failure, f = ⟨.leftPush, true⟩ ∨ f.command = .expire) :
    (runCommands d conversationId (bodyOf d conversationId p w) summary interference
        [.serialise, .leftPush, .expire] trimmed).Satisfies conversationId NoHole q ↔
      ((interference.gets .serialise ≠ [] ∨ interference.gets .leftPush ≠ [] →
        NoHole ((w.redis (chatKey conversationId)).drop p)) ∧
        NoHole (summaryDto summary :: (w.redis (chatKey conversationId)).drop p)) ∧ q pushed := by
  have hserialise : ∀ f ∈ interference.failure, f.command ≠ .serialise := by
    intro f hf
    rcases hfailure f hf with rfl | hexpire
    · simp
    · simp [hexpire]
  -- Once it is pushed, a read before the expiry sees what is left in the end.
  have hend : ∀ {reads : Prop}, (reads → NoHole (pushed.redis (chatKey conversationId))) ∧
      NoHole (pushed.redis (chatKey conversationId)) ∧ q pushed ↔
        NoHole (pushed.redis (chatKey conversationId)) ∧ q pushed :=
    and_iff_right_of_imp fun hleft _ => hleft.1
  rw [satisfies_runCommands_of_ne hredis h.trimmed_ne_nil _ hserialise h.serialises, h.redis_trimmed, or_imp, and_assoc,
    and_assoc, ← h.redis_pushed]
  apply and_congr_right
  intro _
  cases hcase : interference.failure with
  | none =>
    have hnone : ∀ command, ∀ f ∈ interference.failure, f.command ≠ command := by
      rw [hcase]
      simp
    rw [satisfies_runCommands_of_ne hredis h.trimmed_ne_nil _ (hnone _) h.pushes, h.redis_trimmed,
      satisfies_runCommands_of_ne hredis h.pushed_ne_nil _ (hnone _) h.expires, runCommands,
      satisfies_runGets hredis h.pushed_ne_nil, hend]
  | some f =>
    obtain ⟨command, carriedOut⟩ := f
    rcases hfailure _ hcase with heq | hexpire
    · obtain ⟨rfl, rfl⟩ := Failure.mk.inj heq
      rw [satisfies_runCommands_of_failure hredis h.trimmed_ne_nil _ true hcase ((if_pos rfl).trans h.pushes)
        h.pushed_ne_nil, h.redis_trimmed]
    · obtain rfl : command = .expire := hexpire
      rw [satisfies_runCommands_of_ne hredis h.trimmed_ne_nil _ (by simp [hcase]) h.pushes, h.redis_trimmed,
        satisfies_runCommands_of_failure hredis h.pushed_ne_nil _ carriedOut hcase (by rw [h.expires, ite_self])
        h.pushed_ne_nil, hend]

end States

/-- A compaction of two backends that hold the same messages leaves no hole exactly when its failure and the
reads in between are harmless. -/
theorem leavesNoHole_iff (hredis : d.history.redisEnabled = true)
    (happlies : Applies d llm w conversationId primaryProvider override p summary)
    (hsame : (w.redis (chatKey conversationId)).Perm ((historyOf d w conversationId).map ChatHistory.toDto))
    (interference : Interference) :
    LeavesNoHole d conversationId p summary interference w
        (runCompaction d conversationId (bodyOf d conversationId p w) summary interference w) ↔
      Harmless d conversationId p summary interference w := by
  obtain ⟨committed, trimmed, pushed, h⟩ := exists_states happlies hsame
  obtain ⟨gets, getsAfter, failure⟩ := interference
  rw [leavesNoHole_iff_satisfies]
  simp only [Harmless]
  have hbefore := HoleFree.refl (w.redis (chatKey conversationId))
    ((bodyOf d conversationId p w).map ChatHistory.toDto) (summaryDto summary)
  generalize HoleFree (w.redis (chatKey conversationId)) ((bodyOf d conversationId p w).map ChatHistory.toDto)
    (summaryDto summary) = NoHole at hbefore ⊢
  cases failure with
  | none =>
    rw [h.satisfies_trims hredis hbefore (by simp), h.satisfies_pushes hredis (by simp)]
    exact and_iff_left fun hnone => absurd rfl hnone
  | some f =>
    obtain ⟨command, carriedOut⟩ := f
    have hfails : some (⟨command, carriedOut⟩ : Failure CompactionCommand) ≠ none := Option.some_ne_none _
    cases command with
    | transaction =>
      rw [runCompaction]
      cases carriedOut with
      | false =>
        rw [satisfies_runCommands_of_failure hredis h.ne_nil _ false rfl (if_neg Bool.false_ne_true) h.ne_nil]
        exact iff_true_intro ⟨fun _ => hbefore, hbefore, fun _ => .inl ⟨rfl, rfl⟩⟩
      | true =>
        rw [satisfies_runCommands_of_failure hredis h.ne_nil _ true rfl ((if_pos rfl).trans h.commits)
          h.committed_ne_nil, h.redis_committed, h.agree_committed]
        exact ⟨fun hrun => hrun.2.2 hfails, fun heq => ⟨fun _ => hbefore, hbefore, fun _ => heq⟩⟩
    | trim =>
      rw [h.satisfies_commits hredis hbefore (by simp)]
      cases carriedOut with
      | false =>
        rw [satisfies_runCommands_of_failure hredis h.committed_ne_nil _ false rfl (if_neg Bool.false_ne_true)
          h.committed_ne_nil, h.redis_committed, h.agree_committed]
        exact ⟨fun hrun => hrun.2.2 hfails, fun heq => ⟨fun _ => hbefore, hbefore, fun _ => heq⟩⟩
      | true =>
        rw [satisfies_runCommands_of_failure hredis h.committed_ne_nil _ true rfl ((if_pos rfl).trans h.trims)
          h.trimmed_ne_nil, iff_false]
        exact fun hrun => h.disagree_trimmed (hrun.2.2 hfails)
    | serialise =>
      rw [h.satisfies_trims hredis hbefore (by simp), iff_false]
      intro hrun
      have hagree := h.trimmed_of_satisfies hredis (by cases carriedOut <;> simp) hrun
      exact h.disagree_trimmed (hagree hfails)
    | leftPush =>
      rw [h.satisfies_trims hredis hbefore (by simp)]
      cases carriedOut with
      | false =>
        rw [iff_false]
        intro hrun
        exact h.disagree_trimmed (h.trimmed_of_satisfies hredis (by simp) hrun hfails)
      | true =>
        rw [h.satisfies_pushes hredis (by simp)]
        exact and_iff_left fun _ => h.agree_pushed
    | expire =>
      rw [h.satisfies_trims hredis hbefore (by simp), h.satisfies_pushes hredis (by simp)]
      exact and_iff_left fun _ => h.agree_pushed

/-- Undisturbed, the commands leave what `maybeCompact` leaves. -/
theorem runCompaction_undisturbed (hredis : d.history.redisEnabled = true)
    (happlies : Applies d llm w conversationId primaryProvider override p summary) :
    (runCompaction d conversationId (bodyOf d conversationId p w) summary ⟨fun _ => [], [], none⟩ w).world =
      (maybeCompact d llm w conversationId primaryProvider override).1 := by
  have hbody := length_bodyOf happlies
  rw [maybeCompact_of_applies happlies]
  simp only [runCompaction, runCommands, runGets, attempt_none, Bool.false_eq_true, if_false, hbody,
    CompactionCommand.effect, compacted, applyToRedis, hredis, Bool.not_true]
  rfl

end Main

/-- One call of `get`, before one command. -/
def readBefore (command : CompactionCommand) : CompactionCommand → List ℤ :=
  fun command' => if command' = command then [10] else []

/-- The two messages in both backends. -/
def cachedTwo : World :=
  addMessages compactsTwo World.empty "c" [⟨.user, "hi"⟩, ⟨.assistant, "hello"⟩]

lemma applies_cachedTwo :
    Applies compactsTwo alwaysGreeting cachedTwo "c" none none 1 "[Conversation summary] A greeting." :=
  ⟨rfl, rfl, by decide, le_rfl, by decide⟩

lemma cachedTwo_same : (cachedTwo.redis (chatKey "c")).Perm ((historyOf compactsTwo cachedTwo "c").map
    ChatHistory.toDto) := by
  decide

/-- An expiry that fails does no harm, nor does a read before the trim. -/
theorem leavesNoHole_expire :
    LeavesNoHole compactsTwo "c" 1 "[Conversation summary] A greeting."
      ⟨readBefore .trim, [10], some ⟨.expire, false⟩⟩ cachedTwo
      (runCompaction compactsTwo "c" (bodyOf compactsTwo "c" 1 cachedTwo) "[Conversation summary] A greeting."
        ⟨readBefore .trim, [10], some ⟨.expire, false⟩⟩ cachedTwo) :=
  (leavesNoHole_iff rfl applies_cachedTwo cachedTwo_same _).mpr
    ⟨fun hread => absurd hread (by decide), holeFree_cons_drop (by decide) _⟩

/-- A read between the trim and the push finds neither the first message nor the summary, and a push that fails
leaves Redis so while the rows are compacted. -/
theorem hole_between_trim_and_push :
    Applies compactsTwo alwaysGreeting cachedTwo "c" none none 1 "[Conversation summary] A greeting." ∧
      (cachedTwo.redis (chatKey "c")).Perm ((historyOf compactsTwo cachedTwo "c").map ChatHistory.toDto) ∧
      ¬LeavesNoHole compactsTwo "c" 1 "[Conversation summary] A greeting."
        ⟨readBefore .leftPush, [], none⟩ cachedTwo
        (runCompaction compactsTwo "c" (bodyOf compactsTwo "c" 1 cachedTwo) "[Conversation summary] A greeting."
          ⟨readBefore .leftPush, [], none⟩ cachedTwo) ∧
      ¬LeavesNoHole compactsTwo "c" 1 "[Conversation summary] A greeting."
        ⟨fun _ => [], [], some ⟨.leftPush, false⟩⟩ cachedTwo
        (runCompaction compactsTwo "c" (bodyOf compactsTwo "c" 1 cachedTwo) "[Conversation summary] A greeting."
          ⟨fun _ => [], [], some ⟨.leftPush, false⟩⟩ cachedTwo) := by
  refine ⟨applies_cachedTwo, cachedTwo_same, fun h => ?_, fun h => ?_⟩
  · have hread := h.reads [⟨"assistant", "hello"⟩] (by decide) ⟨"user", "hi"⟩ (by decide)
    revert hread
    decide
  · have hleft := h.left ⟨"user", "hi"⟩ (by decide)
    revert hleft
    decide

end AscendAI.Memory
