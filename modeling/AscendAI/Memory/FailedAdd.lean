import AscendAI.Lib.Failure
import AscendAI.Memory.PersistentChatMemory

/-!
# Calls of add that fail

`add` pushes each message to Redis and inserts it into the table, then trims the list and renews its expiry. A
command on Redis that fails ends the call with an exception; an insert that fails is logged and the loop goes
on. As in `addMessages`, the run ends before the dispatch of the compaction.
-/

namespace AscendAI.Memory
open RedisList Failure RowOrder

/-- The commands of a call, those of the loop with the index of their message. -/
inductive AddCommand where
  | push (i : ℕ)
  | insert (i : ℕ)
  | trim
  | expire
  deriving DecidableEq

section Run

variable (d : Deployment) (conversationId : String) (failure : Option (Failure AddCommand))

/-- The clock is read before the insert, whose failure is only logged. -/
def runPersistToDb (i : ℕ) (w : World) (message : Message) : World :=
  let saved := attempt failure (.insert i) (fun w =>
    { w with table := w.table.save conversationId message.messageType.getValue message.text (d.now w.readings) }) w
  { saved.1 with readings := saved.1.readings + 1 }

/-- The loop from the message `i` on, and whether it threw. -/
def runMessages (i : ℕ) : List Message → World → World × Bool
  | [], w => (w, false)
  | message :: messages, w =>
    let pushed := if d.history.redisEnabled
      then attempt failure (.push i) (fun w => w.rightPush (chatKey conversationId) (toDto message)) w
      else (w, false)
    if pushed.2 then pushed
    else
      let persisted := if d.history.postgresEnabled
        then runPersistToDb d conversationId failure i pushed.1 message else pushed.1
      runMessages (i + 1) messages persisted

/-- `add` up to the dispatch of the compaction, and whether it threw. -/
def runAdd (w : World) (messages : List Message) : World × Bool :=
  if !d.history.redisEnabled && !d.history.postgresEnabled then (w, false)
  else
    let looped := runMessages d conversationId failure 0 messages w
    if looped.2 then looped
    else if !d.history.redisEnabled then looped
    else
      let trimmed := attempt failure .trim
        (fun w => w.trim (chatKey conversationId) 0 (effectiveCacheSize d - 1)) looped.1
      if trimmed.2 then trimmed else attempt failure .expire (fun w => w) trimmed.1

end Run

/-- The messages of the table, in the order of their insertion. -/
def storedMessages (conversationId : String) (w : World) : List MessageDto :=
  (w.table.ofUser conversationId).map ChatHistory.toDto

/-- Redis holds the stored messages, or those of them that the cap leaves. -/
def SameUpToCap (d : Deployment) (redis stored : List MessageDto) : Prop :=
  redis = stored ∨ redis = ltrim stored 0 (effectiveCacheSize d - 1)

instance (d : Deployment) (redis stored : List MessageDto) : Decidable (SameUpToCap d redis stored) :=
  inferInstanceAs (Decidable (_ ∨ _))

/-- After a call the stores hold the same messages, and if it threw neither of them has gained one. -/
structure StoresAgree (d : Deployment) (conversationId : String) (before : List MessageDto)
    (outcome : World × Bool) : Prop where
  same : SameUpToCap d (outcome.1.redis (chatKey conversationId)) (storedMessages conversationId outcome.1)
  nothingGained : outcome.2 = true → (outcome.1.redis (chatKey conversationId)).Sublist before ∧
    (storedMessages conversationId outcome.1).Sublist before

/-- Nothing had been written when the call failed, or an insert failed and its row is there or does not count. -/
def FailsClean (d : Deployment) (before : List MessageDto) (messages : List Message) :
    Option (Failure AddCommand) → Prop
  | none => True
  | some ⟨.push i, carriedOut⟩ => messages.length ≤ i ∨ i = 0 ∧ carriedOut = false
  | some ⟨.insert i, carriedOut⟩ => carriedOut = true ∨
    SameUpToCap d (ltrim (before ++ messages.map toDto) 0 (effectiveCacheSize d - 1))
      (before ++ (messages.eraseIdx i).map toDto)
  | some ⟨.trim, _⟩ => messages = []
  | some ⟨.expire, _⟩ => messages = []

/-! ### The two stores -/

def contents (conversationId : String) (w : World) : List MessageDto × List MessageDto :=
  (w.redis (chatKey conversationId), storedMessages conversationId w)

section Contents

variable {d : Deployment} {conversationId : String}

/-- Rows that are sorted by time are read in the order of their insertion. -/
lemma findAllHistoryOrdered_of_sorted {w : World}
    (hsorted : (w.table.ofUser conversationId).Pairwise (InOrder createdAtAsc d.tie.asc)) :
    (historyOf d w conversationId).map ChatHistory.toDto = storedMessages conversationId w := by
  have hdetermined := ChatHistoryTable.determined_ofUser w.table createdAtAsc d.tie.asc conversationId
  rw [historyOf, ChatHistoryTable.findAllHistoryOrdered, orderBy_eq_of_perm _ hdetermined (.refl _) hsorted,
    storedMessages]

lemma contents_rightPush (w : World) (dto : MessageDto) :
    contents conversationId (w.rightPush (chatKey conversationId) dto) =
      ((contents conversationId w).1 ++ [dto], (contents conversationId w).2) := by
  rw [contents, World.rightPush, World.redis_setRedis_self]
  rfl

lemma contents_trim (w : World) (start stop : ℤ) :
    contents conversationId (w.trim (chatKey conversationId) start stop) =
      (ltrim (contents conversationId w).1 start stop, (contents conversationId w).2) := by
  rw [contents, World.trim, World.redis_setRedis_self]
  rfl

lemma contents_persistToDb (w : World) (message : Message) :
    contents conversationId (persistToDb d w conversationId message) =
      ((contents conversationId w).1, (contents conversationId w).2 ++ [toDto message]) := by
  rw [contents, storedMessages, persistToDb, World.table_saveNow, ChatHistoryTable.ofUser_save_self, List.map_append]
  rfl

lemma contents_addMessage (hredis : d.history.redisEnabled = true) (hpostgres : d.history.postgresEnabled = true)
    (w : World) (message : Message) :
    contents conversationId (addMessage d conversationId w message) =
      ((contents conversationId w).1 ++ [toDto message], (contents conversationId w).2 ++ [toDto message]) := by
  simp only [addMessage, hredis, hpostgres, if_true]
  rw [contents_persistToDb, contents_rightPush]

lemma contents_foldl_addMessage (hredis : d.history.redisEnabled = true)
    (hpostgres : d.history.postgresEnabled = true) (messages : List Message) (w : World) :
    contents conversationId (messages.foldl (addMessage d conversationId) w) =
      ((contents conversationId w).1 ++ messages.map toDto, (contents conversationId w).2 ++ messages.map toDto) := by
  induction messages generalizing w with
  | nil => simp
  | cons message messages ih =>
    rw [List.foldl_cons, ih, contents_addMessage hredis hpostgres, List.map_cons, List.append_assoc,
      List.append_assoc, List.singleton_append]

end Contents

/-! ### The loop -/

section Loop

variable {d : Deployment} {conversationId : String} {failure : Option (Failure AddCommand)}

/-- An insert stores its row unless it fails without effect. -/
lemma runPersistToDb_of_ne {i : ℕ} (hfailure : failure ≠ some ⟨.insert i, false⟩) (w : World) (message : Message) :
    runPersistToDb d conversationId failure i w message = persistToDb d w conversationId message := by
  have hsaved : (attempt failure (.insert i) (fun w : World =>
      { w with table := w.table.save conversationId message.messageType.getValue message.text (d.now w.readings) })
        w).1 =
      { w with table := w.table.save conversationId message.messageType.getValue message.text (d.now w.readings) } := by
    cases failure with
    | none => rfl
    | some f =>
      obtain ⟨command, carriedOut⟩ := f
      by_cases hcommand : command = .insert i
      · subst hcommand
        cases carriedOut with
        | false => exact absurd rfl hfailure
        | true => rw [attempt_self, if_pos rfl]
      · rw [attempt_of_ne]
        intro f hf
        cases hf
        exact hcommand
  rw [runPersistToDb, hsaved]
  rfl

/-- The failure, if there is one, neither stops the loop nor loses a row at the messages from `i` on. -/
def Spares (failure : Option (Failure AddCommand)) (i n : ℕ) : Prop :=
  ∀ j, i ≤ j → j < i + n → (∀ f ∈ failure, f.command ≠ .push j) ∧ failure ≠ some ⟨.insert j, false⟩

lemma spares_none (i n : ℕ) : Spares none i n := fun _ _ _ => ⟨by simp, by simp⟩

lemma spares_push {k i n : ℕ} (carriedOut : Bool) (h : k < i ∨ i + n ≤ k) :
    Spares (some ⟨.push k, carriedOut⟩) i n := by
  intro j hle hlt
  have hne : k ≠ j := by omega
  exact ⟨by simpa using hne, by simp⟩

lemma spares_insert {k i n : ℕ} (carriedOut : Bool) (h : carriedOut = true ∨ k < i ∨ i + n ≤ k) :
    Spares (some ⟨.insert k, carriedOut⟩) i n := by
  intro j hle hlt
  refine ⟨by simp, ?_⟩
  rintro ⟨⟩
  simp only [Bool.false_eq_true, false_or] at h
  omega

/-- A failure after the loop. -/
lemma spares_of_ne {f : Failure AddCommand} (h : f.command = .trim ∨ f.command = .expire) (i n : ℕ) :
    Spares (some f) i n := by
  obtain ⟨command, carriedOut⟩ := f
  intro j _ _
  rcases h with h | h
  · cases h
    exact ⟨by simp, by simp⟩
  · cases h
    exact ⟨by simp, by simp⟩

variable (d conversationId)

/-- What the loop does with a message that the failure spares is what `addMessage` does. -/
lemma runMessages_append_of_spares (xs ys : List Message) (i : ℕ) (w : World) (hspares : Spares failure i xs.length) :
    runMessages d conversationId failure i (xs ++ ys) w =
      runMessages d conversationId failure (i + xs.length) ys (xs.foldl (addMessage d conversationId) w) := by
  induction xs generalizing i w with
  | nil => rfl
  | cons message xs ih =>
    obtain ⟨hpush, hinsert⟩ := hspares i le_rfl (by simp)
    have hstep : runMessages d conversationId failure i (message :: (xs ++ ys)) w =
        runMessages d conversationId failure (i + 1) (xs ++ ys) (addMessage d conversationId w message) := by
      rw [runMessages, attempt_of_ne _ _ _ hpush]
      simp only [runPersistToDb_of_ne hinsert, addMessage]
      by_cases hredis : d.history.redisEnabled = true
      · simp only [hredis, if_true, Bool.false_eq_true, if_false]
      · simp only [hredis, Bool.false_eq_true, if_false]
    rw [List.cons_append, hstep, ih (i + 1), List.foldl_cons, List.length_cons, Nat.add_right_comm, Nat.add_assoc]
    intro j hle hlt
    apply hspares j (by omega)
    rw [List.length_cons]
    omega

lemma runMessages_of_spares (messages : List Message) (i : ℕ) (w : World) (hspares : Spares failure i messages.length) :
    runMessages d conversationId failure i messages w = (messages.foldl (addMessage d conversationId) w, false) := by
  have h := runMessages_append_of_spares d conversationId messages [] i w hspares
  rw [List.append_nil] at h
  rw [h, runMessages]

variable {d}

/-- A push that fails ends the loop. -/
lemma runMessages_of_push (hredis : d.history.redisEnabled = true) (xs ys : List Message) (message : Message)
    (carriedOut : Bool) (w : World) :
    runMessages d conversationId (some ⟨.push xs.length, carriedOut⟩) 0 (xs ++ message :: ys) w =
      (if carriedOut then (xs.foldl (addMessage d conversationId) w).rightPush (chatKey conversationId) (toDto message)
        else xs.foldl (addMessage d conversationId) w, true) := by
  rw [runMessages_append_of_spares d conversationId xs _ 0 w (spares_push carriedOut (.inr (Nat.zero_add _).le)),
    Nat.zero_add, runMessages, attempt_self]
  simp only [hredis, if_true]

/-- An insert that fails without effect loses the row of its message only. -/
lemma runMessages_of_insert (hredis : d.history.redisEnabled = true) (hpostgres : d.history.postgresEnabled = true)
    (xs ys : List Message) (message : Message) (w : World) :
    (runMessages d conversationId (some ⟨.insert xs.length, false⟩) 0 (xs ++ message :: ys) w).2 = false ∧
      contents conversationId
          (runMessages d conversationId (some ⟨.insert xs.length, false⟩) 0 (xs ++ message :: ys) w).1 =
        ((contents conversationId w).1 ++ (xs ++ message :: ys).map toDto,
          (contents conversationId w).2 ++ (xs ++ ys).map toDto) := by
  have hlost : ∀ w, contents conversationId
      (runPersistToDb d conversationId (some ⟨.insert xs.length, false⟩) xs.length w message) =
        contents conversationId w := by
    intro w
    rw [runPersistToDb, attempt_self]
    rfl
  rw [runMessages_append_of_spares d conversationId xs _ 0 w (spares_insert false (.inr (.inr (Nat.zero_add _).le))),
    Nat.zero_add, runMessages, attempt_of_ne _ _ _ (by simp)]
  simp only [hredis, hpostgres, if_true, Bool.false_eq_true, if_false]
  rw [runMessages_of_spares d conversationId ys _ _ (spares_insert false (.inr (.inl (Nat.lt_succ_self _)))),
    contents_foldl_addMessage hredis hpostgres, hlost, contents_rightPush,
    contents_foldl_addMessage hredis hpostgres]
  refine ⟨rfl, Prod.ext ?_ ?_⟩
  · simp
  · simp

end Loop

/-! ### The whole call -/

section Main

variable {d : Deployment} {conversationId : String} {failure : Option (Failure AddCommand)} {w : World}
  {messages : List Message}

lemma runAdd_of_thrown (hredis : d.history.redisEnabled = true)
    (hthrown : (runMessages d conversationId failure 0 messages w).2 = true) :
    runAdd d conversationId failure w messages = runMessages d conversationId failure 0 messages w := by
  simp only [runAdd, hredis, hthrown, Bool.not_true, Bool.false_and, Bool.false_eq_true, if_false, if_true]

/-- After a loop that did not throw, the trim and the expiry. -/
lemma runAdd_of_looped (hredis : d.history.redisEnabled = true)
    (hlooped : (runMessages d conversationId failure 0 messages w).2 = false) :
    runAdd d conversationId failure w messages =
      if (attempt failure .trim (fun w => w.trim (chatKey conversationId) 0 (effectiveCacheSize d - 1))
          (runMessages d conversationId failure 0 messages w).1).2
      then attempt failure .trim (fun w => w.trim (chatKey conversationId) 0 (effectiveCacheSize d - 1))
        (runMessages d conversationId failure 0 messages w).1
      else attempt failure .expire (fun w => w)
        (attempt failure .trim (fun w => w.trim (chatKey conversationId) 0 (effectiveCacheSize d - 1))
          (runMessages d conversationId failure 0 messages w).1).1 := by
  simp only [runAdd, hredis, hlooped, Bool.not_true, Bool.false_and, Bool.false_eq_true, if_false]

lemma runAdd_of_trimmed (hredis : d.history.redisEnabled = true)
    (hlooped : (runMessages d conversationId failure 0 messages w).2 = false)
    (hfailure : ∀ f ∈ failure, f.command ≠ .trim ∧ f.command ≠ .expire) :
    runAdd d conversationId failure w messages =
      ((runMessages d conversationId failure 0 messages w).1.trim (chatKey conversationId) 0
        (effectiveCacheSize d - 1), false) := by
  rw [runAdd_of_looped hredis hlooped, attempt_of_ne _ _ _ fun f hf => (hfailure f hf).1,
    attempt_of_ne _ _ _ fun f hf => (hfailure f hf).2, if_neg Bool.false_ne_true]

/-- A call in which nothing fails is `addMessages`. -/
theorem runAdd_undisturbed (hredis : d.history.redisEnabled = true) :
    runAdd d conversationId none w messages = (addMessages d w conversationId messages, false) := by
  have hloop := runMessages_of_spares d conversationId messages 0 w
    (spares_none 0 messages.length)
  have hlooped := congrArg Prod.snd hloop
  rw [runAdd_of_trimmed hredis hlooped (by simp), hloop]
  simp only [addMessages, hredis, if_true]

lemma storesAgree_iff_of_contents {before redis stored : List MessageDto} {outcome : World × Bool}
    (h : contents conversationId outcome.1 = (redis, stored)) :
    StoresAgree d conversationId before outcome ↔
      SameUpToCap d redis stored ∧ (outcome.2 = true → redis.Sublist before ∧ stored.Sublist before) := by
  obtain ⟨rfl, rfl⟩ := Prod.mk.inj h
  exact ⟨fun h => ⟨h.same, h.nothingGained⟩, fun h => ⟨h.1, h.2⟩⟩

/-- When the loop loses no row and nothing fails after it, the stores agree. -/
lemma storesAgree_of_spares (hredis : d.history.redisEnabled = true) (hpostgres : d.history.postgresEnabled = true)
    (hsame : w.redis (chatKey conversationId) = storedMessages conversationId w)
    (hspares : Spares failure 0 messages.length)
    (hfailure : ∀ f ∈ failure, f.command ≠ .trim ∧ f.command ≠ .expire) :
    StoresAgree d conversationId (storedMessages conversationId w) (runAdd d conversationId failure w messages) := by
  have hloop := runMessages_of_spares d conversationId messages 0 w hspares
  have hlooped := congrArg Prod.snd hloop
  rw [runAdd_of_trimmed hredis hlooped hfailure, hloop,
    storesAgree_iff_of_contents ((contents_trim _ _ _).trans (by
      rw [contents_foldl_addMessage hredis hpostgres, contents, hsame]))]
  exact ⟨.inr rfl, fun h => absurd h Bool.false_ne_true⟩

lemma exists_split {i : ℕ} (hi : i < messages.length) :
    ∃ xs message ys, messages = xs ++ message :: ys ∧ xs.length = i := by
  refine ⟨messages.take i, messages[i], messages.drop (i + 1), ?_, ?_⟩
  · rw [List.cons_getElem_drop_succ, List.take_append_drop]
  · rw [List.length_take]
    omega

/-- A list that is cut has gained a batch when the rows have. -/
lemma ltrim_gained_iff (before gained : List MessageDto) :
    SameUpToCap d (ltrim (before ++ gained) 0 (effectiveCacheSize d - 1)) (before ++ gained) ∧
        (true = true → (ltrim (before ++ gained) 0 (effectiveCacheSize d - 1)).Sublist before ∧
          (before ++ gained).Sublist before) ↔
      gained = [] := by
  constructor
  · rintro ⟨-, hthrown⟩
    simpa using (hthrown rfl).2
  · rintro rfl
    rw [List.append_nil]
    exact ⟨.inr rfl, fun _ => ⟨ltrim_sublist _ _ _, .refl _⟩⟩

section OneFailure

variable (hredis : d.history.redisEnabled = true) (hpostgres : d.history.postgresEnabled = true)
  (hsame : w.redis (chatKey conversationId) = storedMessages conversationId w)
include hredis hpostgres hsame

lemma contents_foldl_of_same (messages : List Message) :
    contents conversationId (messages.foldl (addMessage d conversationId) w) =
      (storedMessages conversationId w ++ messages.map toDto,
        storedMessages conversationId w ++ messages.map toDto) := by
  rw [contents_foldl_addMessage hredis hpostgres, contents, hsame]

lemma storesAgree_push_iff (i : ℕ) (carriedOut : Bool) :
    StoresAgree d conversationId (storedMessages conversationId w)
        (runAdd d conversationId (some ⟨.push i, carriedOut⟩) w messages) ↔
      messages.length ≤ i ∨ i = 0 ∧ carriedOut = false := by
  by_cases hi : i < messages.length
  · obtain ⟨xs, message, ys, rfl, rfl⟩ := exists_split hi
    have hloop := runMessages_of_push conversationId hredis xs ys message carriedOut w
    have hcontents := contents_foldl_of_same hredis hpostgres hsame xs
    rw [runAdd_of_thrown hredis (congrArg Prod.snd hloop), hloop]
    cases carriedOut with
    | false =>
      rw [if_neg Bool.false_ne_true, storesAgree_iff_of_contents hcontents]
      simp [SameUpToCap]
    | true =>
      rw [if_pos rfl, storesAgree_iff_of_contents ((contents_rightPush _ _).trans (by rw [hcontents]))]
      simp [SameUpToCap]
  · have hspares := spares_push carriedOut (.inr (by omega : 0 + messages.length ≤ i))
    exact iff_of_true (storesAgree_of_spares hredis hpostgres hsame hspares (by simp)) (.inl (by omega))

lemma storesAgree_insert_iff (i : ℕ) (carriedOut : Bool) :
    StoresAgree d conversationId (storedMessages conversationId w)
        (runAdd d conversationId (some ⟨.insert i, carriedOut⟩) w messages) ↔
      carriedOut = true ∨ SameUpToCap d
        (ltrim (storedMessages conversationId w ++ messages.map toDto) 0 (effectiveCacheSize d - 1))
        (storedMessages conversationId w ++ (messages.eraseIdx i).map toDto) := by
  by_cases hstored : carriedOut = true ∨ messages.length ≤ i
  · have hspares : Spares (some ⟨.insert i, carriedOut⟩) 0 messages.length := by
      apply spares_insert
      rcases hstored with hcarriedOut | hi
      · exact .inl hcarriedOut
      · exact .inr (.inr (by omega))
    refine iff_of_true (storesAgree_of_spares hredis hpostgres hsame hspares (by simp)) ?_
    rcases hstored with hcarriedOut | hi
    · exact .inl hcarriedOut
    · exact .inr (.inr (by rw [List.eraseIdx_of_length_le hi]))
  · rw [not_or, Bool.not_eq_true, not_le] at hstored
    obtain ⟨rfl, hi⟩ := hstored
    obtain ⟨xs, message, ys, rfl, rfl⟩ := exists_split hi
    obtain ⟨hlooped, hcontents⟩ :=
      runMessages_of_insert conversationId hredis hpostgres xs ys message w
    have herase : (xs ++ message :: ys).eraseIdx xs.length = xs ++ ys := by
      rw [List.eraseIdx_append_of_length_le le_rfl, Nat.sub_self, List.eraseIdx_cons_zero]
    have hbefore : contents conversationId w = (storedMessages conversationId w, storedMessages conversationId w) := by
      rw [contents, hsame]
    rw [hbefore] at hcontents
    rw [runAdd_of_trimmed hredis hlooped (by simp),
      storesAgree_iff_of_contents ((contents_trim _ _ _).trans (by rw [hcontents])), herase]
    simp

/-- Once the loop is over, both stores have gained the whole batch. -/
lemma storesAgree_trim_iff (carriedOut : Bool) :
    StoresAgree d conversationId (storedMessages conversationId w)
        (runAdd d conversationId (some ⟨.trim, carriedOut⟩) w messages) ↔ messages = [] := by
  have hcontents := contents_foldl_of_same hredis hpostgres hsame messages
  have hloop := runMessages_of_spares d conversationId messages 0 w
    (spares_of_ne (f := ⟨.trim, carriedOut⟩) (.inl rfl) _ _)
  rw [runAdd_of_looped hredis (congrArg Prod.snd hloop), hloop, attempt_self, if_pos rfl]
  cases carriedOut with
  | false =>
    rw [if_neg Bool.false_ne_true, storesAgree_iff_of_contents hcontents]
    simp [SameUpToCap]
  | true =>
    rw [if_pos rfl, storesAgree_iff_of_contents ((contents_trim _ _ _).trans (by rw [hcontents])), ltrim_gained_iff,
      List.map_eq_nil_iff]

lemma storesAgree_expire_iff (carriedOut : Bool) :
    StoresAgree d conversationId (storedMessages conversationId w)
        (runAdd d conversationId (some ⟨.expire, carriedOut⟩) w messages) ↔ messages = [] := by
  have hcontents := contents_foldl_of_same hredis hpostgres hsame messages
  have hloop := runMessages_of_spares d conversationId messages 0 w
    (spares_of_ne (f := ⟨.expire, carriedOut⟩) (.inr rfl) _ _)
  rw [runAdd_of_looped hredis (congrArg Prod.snd hloop), hloop, attempt_of_ne _ _ _ (by simp),
    if_neg Bool.false_ne_true, attempt_self, ite_self,
    storesAgree_iff_of_contents ((contents_trim _ _ _).trans (by rw [hcontents])), ltrim_gained_iff,
    List.map_eq_nil_iff]

end OneFailure

/-- After a call with one failure the stores agree, and a call that throws has stored nothing, exactly when the
failure is clean. -/
theorem storesAgree_iff (hredis : d.history.redisEnabled = true) (hpostgres : d.history.postgresEnabled = true)
    (hsame : w.redis (chatKey conversationId) = storedMessages conversationId w)
    (failure : Option (Failure AddCommand)) (messages : List Message) :
    StoresAgree d conversationId (storedMessages conversationId w) (runAdd d conversationId failure w messages) ↔
      FailsClean d (storedMessages conversationId w) messages failure := by
  cases failure with
  | none => exact iff_of_true (storesAgree_of_spares hredis hpostgres hsame (spares_none _ _) (by simp)) trivial
  | some f =>
    obtain ⟨command, carriedOut⟩ := f
    cases command with
    | push i => exact storesAgree_push_iff hredis hpostgres hsame i carriedOut
    | insert i => exact storesAgree_insert_iff hredis hpostgres hsame i carriedOut
    | trim => exact storesAgree_trim_iff hredis hpostgres hsame carriedOut
    | expire => exact storesAgree_expire_iff hredis hpostgres hsame carriedOut

end Main

/-- A conversation of one message. -/
def oneMessage : World := addMessages Deployment.shipped World.empty "c" [⟨.system, "be brief"⟩]

/-- When the first push fails before it reaches Redis, nothing has happened. -/
theorem storesAgree_first_push :
    StoresAgree Deployment.shipped "c" (storedMessages "c" oneMessage)
      (runAdd Deployment.shipped "c" (some ⟨.push 0, false⟩) oneMessage [⟨.user, "hi"⟩, ⟨.assistant, "hello"⟩]) :=
  (storesAgree_iff rfl rfl (by decide) _ _).mpr (.inr ⟨rfl, rfl⟩)

/-- A second push that fails makes `add` throw with the first message in both stores, and an insert that fails
leaves its message in Redis only. -/
theorem failed_add_half_done :
    oneMessage.redis (chatKey "c") = storedMessages "c" oneMessage ∧
      ¬StoresAgree Deployment.shipped "c" (storedMessages "c" oneMessage)
        (runAdd Deployment.shipped "c" (some ⟨.push 1, false⟩) oneMessage
          [⟨.user, "hi"⟩, ⟨.assistant, "hello"⟩]) ∧
      ¬StoresAgree Deployment.shipped "c" (storedMessages "c" oneMessage)
        (runAdd Deployment.shipped "c" (some ⟨.insert 0, false⟩) oneMessage [⟨.user, "hi"⟩]) := by
  refine ⟨by decide, fun h => ?_, fun h => ?_⟩
  · have hgained := (h.nothingGained (by decide)).1
    revert hgained
    decide
  · have hsame := h.same
    revert hsame
    decide

end AscendAI.Memory
