import AscendAI.Memory.PersistentChatMemory

/-!
# The window that get returns

`add` pushes at the tail of the Redis list and cuts it with `LTRIM key 0 (size - 1)`, which
keeps the head. The list therefore holds the oldest messages of a conversation, and `get`
returns the end of those.
-/

namespace AscendAI.Memory
open RedisList ListWindow Runs

/-- The `min(lastN, maxSize, total)` newest messages, in the order in which they were added. -/
def IsRecentWindow (maxSize : ℤ) (lastN : ℕ) (all answer : List Message) : Prop :=
  answer <:+ all ∧ (answer.length : ℤ) = min (min (lastN : ℤ) maxSize) all.length

/-- When the head of the list is as good as its tail: nothing was cut and no tool message is read
back as a user message, or the cut happens to repeat the newest messages. -/
def WindowKept (maxSize : ℤ) (lastN : ℕ) (all : List Message) : Prop :=
  let k := min lastN maxSize.toNat
  0 ≤ maxSize ∧ (lastN = 0 ∨ all = [] ∨ 1 ≤ maxSize ∧
    (all.length ≤ maxSize ∧ (∀ m ∈ newest k all, m.messageType ≠ .tool) ∨
      maxSize < all.length ∧ (newest k (all.take maxSize.toNat)).map restored = newest k all))

section Window

variable {d : Deployment} (hcompaction : d.compaction.enabled = false)
  (hredis : d.history.redisEnabled = true) (conversationId : String)

include hcompaction hredis in
/-- What a run leaves in the Redis list: the end at which nothing is pushed. -/
lemma redis_run (hsize : 0 ≤ d.history.maxSize) (calls : List AddCall) :
    (run (addStep d) World.empty calls).redis (chatKey conversationId) =
      ltrim ((addedTo conversationId calls).map toDto) 0 (d.history.maxSize - 1) := by
  suffices h : ∀ (w : World) (before : List Message),
      w.redis (chatKey conversationId) = ltrim (before.map toDto) 0 (d.history.maxSize - 1) →
      (run (addStep d) w calls).redis (chatKey conversationId) =
        ltrim ((before ++ addedTo conversationId calls).map toDto) 0 (d.history.maxSize - 1) by
    exact h World.empty [] (ltrim_nil _ _).symm
  induction calls with
  | nil =>
    intro w before hw
    simpa [addedTo] using hw
  | cons call calls ih =>
    intro w before hw
    rw [run_cons]
    by_cases hc : conversationId = call.conversationId
    · subst hc
      rw [addedTo_cons_self, ← List.append_assoc]
      apply ih
      rw [addStep_disabled d w hcompaction hredis, redis_addMessages d w hredis,
        effectiveCacheSize_disabled hcompaction, hw, ltrim_ltrim_append hsize, List.map_append]
    · rw [addedTo_cons_of_ne hc]
      apply ih
      rw [addStep_disabled d w hcompaction hredis, redis_addMessages_of_ne d w hc hredis, hw]

include hcompaction hredis in
lemma ofUser_run_of_addedTo_nil {calls : List AddCall} (h : addedTo conversationId calls = []) :
    (run (addStep d) World.empty calls).table.ofUser conversationId = [] := by
  suffices hrun : ∀ w : World, w.table.ofUser conversationId = [] →
      (run (addStep d) w calls).table.ofUser conversationId = [] by
    exact hrun World.empty rfl
  induction calls with
  | nil => exact fun w hw => hw
  | cons call calls ih =>
    intro w hw
    rw [run_cons, addStep_disabled d w hcompaction hredis]
    by_cases hc : conversationId = call.conversationId
    · subst hc
      rw [addedTo_cons_self, List.append_eq_nil_iff] at h
      apply ih h.2
      rw [h.1, addMessages_nil_table]
      exact hw
    · rw [addedTo_cons_of_ne hc] at h
      exact ih h _ (by rw [ofUser_addMessages_of_ne d w hc, hw])

lemma loadFromRedis_eq {w : World} (all : List Message)
    (h : w.redis (chatKey conversationId) = all.map toDto) :
    loadFromRedis w (chatKey conversationId) = all.map restored := by
  rw [loadFromRedis, lrange_all, h, List.map_map]
  rfl

lemma sliceTail_natCast (messages : List Message) (lastN : ℕ) :
    sliceTail messages lastN = .ok (newest lastN messages) := by
  have hstart : ¬max 0 ((messages.length : ℤ) - lastN) > messages.length := by omega
  have hdrop : (max 0 ((messages.length : ℤ) - lastN)).toNat = messages.length - lastN := by omega
  simp only [sliceTail, hstart, if_false, hdrop, newest]

include hredis in
lemma get_of_redis {w : World} {stored : List Message} (hne : stored ≠ [])
    (h : w.redis (chatKey conversationId) = stored.map toDto) (lastN : ℕ) :
    get d w conversationId lastN = (w, .ok (newest lastN (stored.map restored))) := by
  have hcached : (stored.map restored).isEmpty = false := by simp [hne]
  simp only [get, hredis, Bool.not_true, Bool.false_and, Bool.false_eq_true, if_false, if_true,
    loadFromRedis_eq conversationId stored h, hcached, Bool.not_false, sliceTail_natCast]
  rfl

include hcompaction hredis in
lemma get_of_empty (hsize : 0 ≤ d.history.maxSize) {w : World}
    (h : w.redis (chatKey conversationId) = []) (hrows : w.table.ofUser conversationId = [])
    (lastN : ℕ) : (get d w conversationId lastN).2 = .ok [] := by
  have hload : loadFromPostgres d w conversationId = .ok [] := by
    have hlimit : ¬d.history.maxSize < 0 := by omega
    simp [loadFromPostgres, ChatHistoryTable.findRecentHistory, effectiveCacheSize_disabled hcompaction,
      hlimit, hrows, RowOrder.orderBy, Except.map]
  have hcached : loadFromRedis w (chatKey conversationId) = [] :=
    loadFromRedis_eq conversationId [] h
  simp only [get, hredis, hcached, hload]
  cases d.history.postgresEnabled <;> simp [sliceTail_natCast, Except.mapError]

end Window

lemma isRecentWindow_iff {maxSize : ℤ} (hsize : 0 ≤ maxSize) (lastN : ℕ) (all answer : List Message) :
    IsRecentWindow maxSize lastN all answer ↔ answer = newest (min lastN maxSize.toNat) all := by
  have hlength : (answer.length : ℤ) = min (min (lastN : ℤ) maxSize) all.length ↔
      answer.length = min (min lastN maxSize.toNat) all.length := by omega
  rw [IsRecentWindow, hlength]
  constructor
  · rintro ⟨hsuffix, hlen⟩
    exact (suffix_iff_eq_newest hlen).mp hsuffix
  · rintro rfl
    exact ⟨List.drop_suffix _ _, length_newest _ _⟩

/-- When the end of the oldest messages is the end of all messages. -/
lemma windowKept_iff {maxSize : ℤ} (hsize : 1 ≤ maxSize) (lastN : ℕ) {all : List Message}
    (hne : all ≠ []) :
    (newest (min lastN maxSize.toNat) (all.take maxSize.toNat)).map restored =
      newest (min lastN maxSize.toNat) all ↔ WindowKept maxSize lastN all := by
  have hpos : 0 ≤ maxSize := by omega
  simp only [WindowKept, hpos, hsize, hne, true_and, false_or]
  set k := min lastN maxSize.toNat with hk
  constructor
  · intro h
    by_cases hlast : lastN = 0
    · exact .inl hlast
    by_cases htotal : (all.length : ℤ) ≤ maxSize
    · refine .inr (.inl ⟨htotal, fun m hm => ?_⟩)
      rw [← h] at hm
      obtain ⟨m', -, rfl⟩ := List.mem_map.mp hm
      exact restored_ne_tool m'
    · exact .inr (.inr ⟨by omega, h⟩)
  · rintro (hlast | ⟨htotal, htool⟩ | ⟨-, h⟩)
    · simp [hk, hlast]
    · have hlen : all.length ≤ maxSize.toNat := by omega
      rw [List.take_of_length_le hlen]
      rw [List.map_congr_left fun m hm => (restored_eq_self_iff m).mpr (htool m hm), List.map_id']
    · exact h

/-- After any calls of `add`, with compaction disabled, `get` returns the newest messages exactly
when the head of the conversation is as good as its tail. -/
theorem get_recent_window_iff {d : Deployment} (hcompaction : d.compaction.enabled = false)
    (hredis : d.history.redisEnabled = true) (calls : List AddCall) (conversationId : String)
    (lastN : ℕ) :
    (∃ answer, (get d (run (addStep d) World.empty calls) conversationId lastN).2 = .ok answer ∧
      IsRecentWindow d.history.maxSize lastN (addedTo conversationId calls) answer) ↔
    WindowKept d.history.maxSize lastN (addedTo conversationId calls) := by
  by_cases hsize : 0 ≤ d.history.maxSize
  swap
  · constructor
    · rintro ⟨answer, -, -, hlen⟩
      omega
    · exact fun h => absurd h.1 hsize
  have hlist := redis_run hcompaction hredis conversationId hsize calls
  set all := addedTo conversationId calls with hall
  by_cases hne : all = []
  · have hempty := get_of_empty hcompaction hredis conversationId hsize (by rw [hlist, hne]; simp)
      (ofUser_run_of_addedTo_nil hcompaction hredis conversationId (hall ▸ hne)) lastN
    refine ⟨fun _ => ⟨hsize, .inr (.inl hne)⟩, fun _ => ⟨[], hempty, ?_⟩⟩
    rw [isRecentWindow_iff hsize, hne, newest_nil]
  rcases hsize.eq_or_lt with hzero | hpos
  · rw [← hzero, ltrim_oldest_zero] at hlist
    rw [get_of_redis hredis conversationId hne hlist]
    simp only [Except.ok.injEq, exists_eq_left', isRecentWindow_iff hsize]
    rw [← hzero]
    have htotal : all.length ≠ 0 := fun h => hne (List.length_eq_zero_iff.mp h)
    constructor
    · intro h
      have hlen := congrArg List.length h
      rw [length_newest, length_newest, List.length_map, Int.toNat_zero] at hlen
      exact ⟨le_rfl, .inl (by omega)⟩
    · rintro ⟨-, rfl | h | ⟨h, -⟩⟩
      · simp
      · exact absurd h hne
      · omega
  · rw [ltrim_oldest hpos, ← List.map_take] at hlist
    have hstored : all.take d.history.maxSize.toNat ≠ [] := by
      simp only [ne_eq, List.take_eq_nil_iff, hne, or_false]
      omega
    rw [get_of_redis hredis conversationId hstored hlist]
    simp only [Except.ok.injEq, exists_eq_left', isRecentWindow_iff hsize]
    have hlen : (all.take d.history.maxSize.toNat).length ≤ d.history.maxSize.toNat := by simp
    rw [← newest_map, ← newest_min (k := lastN) hlen, windowKept_iff hpos lastN hne]

/-- Two messages fit the shipped cap of five. -/
theorem get_recent_window_two_of_five :
    ∃ answer, (get { Deployment.shipped with compaction := { enabled := false } }
      (run (addStep { Deployment.shipped with compaction := { enabled := false } }) World.empty
        [⟨"c", [⟨.user, "a"⟩, ⟨.assistant, "b"⟩], none, some {}, fun _ _ => none⟩]) "c" 2).2 =
        .ok answer ∧
      IsRecentWindow 5 2 [⟨.user, "a"⟩, ⟨.assistant, "b"⟩] answer :=
  (get_recent_window_iff (d := { Deployment.shipped with compaction := { enabled := false } }) rfl rfl
    [⟨"c", [⟨.user, "a"⟩, ⟨.assistant, "b"⟩], none, some {}, fun _ _ => none⟩] "c" 2).mpr
    ⟨by decide, .inr (.inr ⟨by decide, .inl ⟨by decide, by decide⟩⟩)⟩

/-- With a cap of one, the second message is cut and the first is returned. -/
theorem get_misses_newest_message :
    ¬∃ answer, (get { Deployment.shipped with
          history := { maxSize := 1 }, compaction := { enabled := false } }
      (run (addStep { Deployment.shipped with
          history := { maxSize := 1 }, compaction := { enabled := false } }) World.empty
        [⟨"c", [⟨.user, "a"⟩], none, some {}, fun _ _ => none⟩,
          ⟨"c", [⟨.assistant, "b"⟩], none, some {}, fun _ _ => none⟩]) "c" 1).2 = .ok answer ∧
      IsRecentWindow 1 1 [⟨.user, "a"⟩, ⟨.assistant, "b"⟩] answer := by
  rintro ⟨answer, hget, hsuffix, -⟩
  have hfirst : (get { Deployment.shipped with
          history := { maxSize := 1 }, compaction := { enabled := false } }
      (run (addStep { Deployment.shipped with
          history := { maxSize := 1 }, compaction := { enabled := false } }) World.empty
        [⟨"c", [⟨.user, "a"⟩], none, some {}, fun _ _ => none⟩,
          ⟨"c", [⟨.assistant, "b"⟩], none, some {}, fun _ _ => none⟩]) "c" 1).2 =
      .ok [⟨.user, "a"⟩] := by decide
  obtain rfl := Except.ok.inj (hget.symm.trans hfirst)
  revert hsuffix
  decide

end AscendAI.Memory
