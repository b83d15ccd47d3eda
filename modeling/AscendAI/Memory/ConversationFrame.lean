import AscendAI.Memory.ChatSystem

/-!
# Conversations apart

Two systems that differ in the Redis list of one conversation, and in calls of `get` for it, stay so:
the table is written without a look at the lists, and a command on a list looks at that list only.
-/

namespace AscendAI.Memory
open RedisList ProcessPool Runs

/-- The backends agree but for the list of the conversation. -/
structure AgreeBut (conversationId : String) (w w' : World) : Prop where
  redis : ∀ key, key ≠ chatKey conversationId → w.redis key = w'.redis key
  table : w.table = w'.table
  readings : w.readings = w'.readings

def Call.isGetOf (conversationId : String) : Call → Prop
  | .getRange other _ | .getFind other _ | .getPushAll other _ _ => other = conversationId
  | .getExpire .. | .returned _ => True
  | _ => False

/-- The same call, or two calls of `get` for the conversation. -/
def Alike (conversationId : String) (c c' : Call) : Prop :=
  c = c' ∨ c.isGetOf conversationId ∧ c'.isGetOf conversationId

namespace AgreeBut

variable {d : Deployment} {conversationId : String} {w w' w'' : World}

lemma refl (conversationId : String) (w : World) : AgreeBut conversationId w w := ⟨fun _ _ => rfl, rfl, rfl⟩

lemma symm (h : AgreeBut conversationId w w') : AgreeBut conversationId w' w :=
  ⟨fun key hkey => (h.redis key hkey).symm, h.table.symm, h.readings.symm⟩

lemma trans (h : AgreeBut conversationId w w') (h' : AgreeBut conversationId w' w'') :
    AgreeBut conversationId w w'' :=
  ⟨fun key hkey => (h.redis key hkey).trans (h'.redis key hkey), h.table.trans h'.table,
    h.readings.trans h'.readings⟩

lemma setRedis_self (w : World) (conversationId : String) (l : List MessageDto) :
    AgreeBut conversationId (w.setRedis (chatKey conversationId) l) w :=
  ⟨fun _ hkey => World.redis_setRedis_of_ne w hkey l, rfl, rfl⟩

/-- A command on one list, whose new content depends on nothing but the old one. -/
lemma setRedis (h : AgreeBut conversationId w w') (key : String)
    (f : List MessageDto → List MessageDto) :
    AgreeBut conversationId (w.setRedis key (f (w.redis key))) (w'.setRedis key (f (w'.redis key))) := by
  refine ⟨fun other hother => ?_, h.table, h.readings⟩
  by_cases heq : other = key
  · rw [heq] at hother ⊢
    rw [World.redis_setRedis_self, World.redis_setRedis_self, h.redis key hother]
  · rw [World.redis_setRedis_of_ne w heq, World.redis_setRedis_of_ne w' heq, h.redis other hother]

lemma saveNow (h : AgreeBut conversationId w w') (userId role content : String) :
    AgreeBut conversationId (w.saveNow d userId role content) (w'.saveNow d userId role content) := by
  refine ⟨h.redis, ?_, ?_⟩
  · simp only [World.saveNow, h.table, h.readings]
  · simp only [World.saveNow, h.readings]

lemma applyToPostgres (h : AgreeBut conversationId w w') (other : String) (body : List ChatHistory)
    (summary : String) :
    AgreeBut conversationId (Memory.applyToPostgres d w other body summary).1
      (Memory.applyToPostgres d w' other body summary).1 := by
  simp only [Memory.applyToPostgres]
  split
  · exact h
  · apply saveNow
    split
    · exact h
    · exact ⟨h.redis, by rw [h.table], h.readings⟩

lemma loadFromPostgres (h : AgreeBut conversationId w w') (other : String) :
    Memory.loadFromPostgres d w other = Memory.loadFromPostgres d w' other := by
  simp only [Memory.loadFromPostgres, h.table]

lemma get_eq (h : AgreeBut conversationId w w') {other : String} (hother : other ≠ conversationId)
    (lastN : ℤ) : (get d w other lastN).2 = (get d w' other lastN).2 := by
  have hkey : chatKey other ≠ chatKey conversationId := fun heq => hother (chatKey_injective heq)
  have hcached : loadFromRedis w (chatKey other) = loadFromRedis w' (chatKey other) := by
    simp only [loadFromRedis, h.redis _ hkey]
  simp only [get, hcached, h.loadFromPostgres other]
  repeat' split
  all_goals rfl

end AgreeBut

section Frame

variable (d : Deployment) {conversationId : String}

/-- A `get` writes no list but that of its conversation. -/
lemma agreeBut_advance_of_isGetOf (w : World) {c : Call} (hc : c.isGetOf conversationId) :
    AgreeBut conversationId (advance d w c).shared w ∧ (advance d w c).next.isGetOf conversationId ∧
      (advance d w c).started = [] := by
  cases c with
  | getRange other lastN =>
    simp only [advance]
    generalize (if d.history.redisEnabled = true then _ else _) = cached
    split
    · exact ⟨.refl _ _, trivial, rfl⟩
    split
    · exact ⟨.refl _ _, trivial, rfl⟩
    · exact ⟨.refl _ _, hc, rfl⟩
  | getFind other lastN =>
    simp only [advance]
    split
    · exact ⟨.refl _ _, trivial, rfl⟩
    split
    · exact ⟨.refl _ _, hc, rfl⟩
    · exact ⟨.refl _ _, trivial, rfl⟩
  | getPushAll other lastN hydrated =>
    obtain rfl : other = conversationId := hc
    exact ⟨AgreeBut.setRedis_self w other _, trivial, rfl⟩
  | getExpire lastN hydrated => exact ⟨.refl _ _, trivial, rfl⟩
  | returned answer => exact ⟨.refl _ _, trivial, rfl⟩
  | _ => exact hc.elim

lemma agreeBut_advance {w w' : World} (hw : AgreeBut conversationId w w') {c c' : Call}
    (hc : Alike conversationId c c') :
    AgreeBut conversationId (advance d w c).shared (advance d w' c').shared ∧
      Alike conversationId (advance d w c).next (advance d w' c').next ∧
      List.Forall₂ (Alike conversationId) (advance d w c).started (advance d w' c').started := by
  have hgets : ∀ {c c' : Call}, c.isGetOf conversationId → c'.isGetOf conversationId →
      AgreeBut conversationId (advance d w c).shared (advance d w' c').shared ∧
        Alike conversationId (advance d w c).next (advance d w' c').next ∧
        List.Forall₂ (Alike conversationId) (advance d w c).started (advance d w' c').started := by
    intro c c' hc hc'
    obtain ⟨hshared, hnext, hstarted⟩ := agreeBut_advance_of_isGetOf d w hc
    obtain ⟨hshared', hnext', hstarted'⟩ := agreeBut_advance_of_isGetOf d w' hc'
    refine ⟨hshared.trans (hw.trans hshared'.symm), .inr ⟨hnext, hnext'⟩, ?_⟩
    rw [hstarted, hstarted']
    exact .nil
  obtain rfl | ⟨hc, hc'⟩ := hc
  swap
  · exact hgets hc hc'
  cases c with
  | getRange other lastN =>
    by_cases hother : other = conversationId
    · exact hgets hother hother
    have hkey : chatKey other ≠ chatKey conversationId := fun heq => hother (chatKey_injective heq)
    simp only [advance, loadFromRedis, hw.redis _ hkey]
    repeat' split
    all_goals exact ⟨hw, .inl rfl, .nil⟩
  | getFind other lastN =>
    simp only [advance, hw.loadFromPostgres other]
    repeat' split
    all_goals exact ⟨hw, .inl rfl, .nil⟩
  | getPushAll other lastN hydrated => exact ⟨hw.setRedis _ (rpushAll · _), .inl rfl, .nil⟩
  | addPush call message messages =>
    simp only [advance]
    split
    · exact ⟨hw.setRedis _ (rpush · _), .inl rfl, .nil⟩
    · exact ⟨hw, .inl rfl, .nil⟩
  | addInsert call message messages =>
    simp only [advance]
    split
    · exact ⟨hw.saveNow _ _ _, .inl rfl, .nil⟩
    · exact ⟨hw, .inl rfl, .nil⟩
  | addTrim call =>
    simp only [advance]
    split
    · exact ⟨hw.setRedis _ (ltrim · _ _), .inl rfl, .nil⟩
    · exact ⟨hw, .inl rfl, .nil⟩
  | addDispatch call => exact ⟨hw, .inl rfl, .cons (.inl rfl) .nil⟩
  | compactFind call =>
    simp only [advance, hw.table]
    repeat' split
    all_goals exact ⟨hw, .inl rfl, .nil⟩
  | compactTransaction call body summary => exact ⟨hw.applyToPostgres _ _ _, .inl rfl, .nil⟩
  | compactTrim call body summary =>
    simp only [advance]
    split
    · exact ⟨hw, .inl rfl, .nil⟩
    · exact ⟨hw.setRedis _ (ltrim · _ _), .inl rfl, .nil⟩
  | compactPush call body summary => exact ⟨hw.setRedis _ (lpush · _), .inl rfl, .nil⟩
  | compactSummarise call body =>
    simp only [advance]
    split
    all_goals exact ⟨hw, .inl rfl, .nil⟩
  | _ => exact ⟨hw, .inl rfl, .nil⟩

/-- Two systems that differ in the list of the conversation and in calls of `get` for it. -/
abbrev System.AgreeBut (conversationId : String) : System → System → Prop :=
  Related (Memory.AgreeBut conversationId) (Alike conversationId)

lemma System.AgreeBut.next {s t : System} (h : s.AgreeBut conversationId t) (event : Event) :
    System.AgreeBut conversationId (System.next d s event) (System.next d t event) := by
  cases event with
  | get other lastN => exact h.start (.inl rfl)
  | add call => exact h.start (.inl rfl)
  | step i => exact h.step (fun _ _ _ _ hw hc => agreeBut_advance d hw hc) i
  | expire other => exact ⟨h.shared.setRedis _ fun _ => [], h.procs⟩

end Frame

end AscendAI.Memory
