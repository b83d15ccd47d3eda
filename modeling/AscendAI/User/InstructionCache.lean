import AscendAI.User.UserInstructionService

/-!
# The cache of user instructions

A key is fresh when it is absent or holds what the committed row denotes. The cache is covered
when every key that is not fresh has an update in flight that is still to delete it.
-/

namespace AscendAI.User
open ProcessPool Runs

def Fresh (w : InstructionStores) (userId : String) : Prop :=
  ∀ cached ∈ w.redis (instructionsKey userId), cached = cacheValue (w.findById userId)

instance (w : InstructionStores) (userId : String) : Decidable (Fresh w userId) :=
  inferInstanceAs (Decidable (∀ cached ∈ _, _))

section Guards

variable (r : UserInstructionRepository)

/-- The call is an update of the user that has not deleted the key yet and is not about to fail. -/
def Call.deletesLater (w : InstructionStores) (userId : String) : Call → Bool
  | .updateSave userId' _ => userId' = userId && r.saves w userId
  | .updateDelete userId' _ => userId' = userId
  | _ => false

/-- An update has saved its row only if the repository takes it. -/
def Call.hasSaved (w : InstructionStores) : Call → Bool
  | .updateDelete userId _ => r.saves w userId
  | .updateCommit userId _ => r.saves w userId
  | _ => true

def WillDelete (s : System) (userId : String) : Prop :=
  ∃ c ∈ s.procs, c.deletesLater r s.shared userId = true

instance (s : System) (userId : String) : Decidable (WillDelete r s userId) :=
  inferInstanceAs (Decidable (∃ c ∈ _, _))

def Saved (s : System) : Prop := ∀ c ∈ s.procs, c.hasSaved r s.shared = true

def Covered (s : System) : Prop := ∀ userId, Fresh s.shared userId ∨ WillDelete r s userId

/-- A read is not about to store what the row no longer denotes, and an update is not about to
commit while the key holds something else, unless another update is still to delete the key. -/
def Call.Guarded (s : System) : Call → Prop
  | .getSet userId instruction =>
    cacheValue instruction = cacheValue (s.shared.findById userId) ∨ WillDelete r s userId
  | .updateCommit userId text =>
    (∀ cached ∈ s.shared.redis (instructionsKey userId), cached = text) ∨ WillDelete r s userId
  | _ => True

instance (s : System) : (c : Call) → Decidable (c.Guarded r s)
  | .getSet _ _ => inferInstanceAs (Decidable (_ ∨ _))
  | .updateCommit _ _ => inferInstanceAs (Decidable (_ ∨ _))
  | .getCached _ | .getFind _ | .returned _ | .updateSave _ _ | .updateDelete _ _ | .updated _ =>
    inferInstanceAs (Decidable True)

def Event.Guarded (s : System) : Event → Prop
  | .step i => ∀ c ∈ s.procs[i]?, c.Guarded r s
  | _ => True

instance (s : System) : (e : Event) → Decidable (e.Guarded r s)
  | .step _ => inferInstanceAs (Decidable (∀ c ∈ _, _))
  | .get _ | .update _ _ | .expire _ => inferInstanceAs (Decidable True)

end Guards

section Steps

variable {r : UserInstructionRepository} {s : System} {i : ℕ} {c : Call} {userId : String}

/-! ### The rows that a save takes -/

lemma saves_commit {w : InstructionStores} (entity : UserInstruction)
    (h : r.saves w entity.userId = true) (userId : String) :
    r.saves (w.commit entity) userId = r.saves w userId := by
  unfold UserInstructionRepository.saves InstructionStores.findById InstructionStores.commit at *
  by_cases huser : userId = entity.userId
  · subst huser
    simp only [h, Function.update_self, Option.isSome_some, Bool.or_true]
  · simp only [Function.update_of_ne huser]

lemma saves_advance (h : c.hasSaved r s.shared = true) (userId : String) :
    r.saves (advance r s.shared c).shared userId = r.saves s.shared userId := by
  cases c with
  | getCached userId' =>
    obtain ⟨answer, hcall⟩ | hcall := advance_getCached r s.shared userId'
    · rw [hcall]
    · rw [hcall]
  | updateSave userId' text =>
    obtain ⟨_, hcall⟩ | ⟨_, answer, hcall⟩ := advance_updateSave r s.shared userId' text
    · rw [hcall]
    · rw [hcall]
  | updateCommit userId' text => exact saves_commit ⟨userId', text⟩ h userId
  | _ => rfl

lemma saved_start (h : Saved r s) (hc : c.hasSaved r s.shared = true) : Saved r (s.start c) := by
  intro c' hc'
  rw [start, List.mem_append, List.mem_singleton] at hc'
  rcases hc' with hold | rfl
  · exact h c' hold
  · exact hc

lemma hasSaved_advance (h : c.hasSaved r s.shared = true) :
    (advance r s.shared c).next.hasSaved r s.shared = true := by
  cases c with
  | getCached userId' =>
    obtain ⟨answer, hcall⟩ | hcall := advance_getCached r s.shared userId'
    · rw [hcall]
      rfl
    · rw [hcall]
      rfl
  | updateSave userId' text =>
    obtain ⟨hsaves, hcall⟩ | ⟨_, answer, hcall⟩ := advance_updateSave r s.shared userId' text
    · rw [hcall]
      exact hsaves
    · rw [hcall]
      rfl
  | updateDelete userId' text => exact h
  | _ => rfl

lemma saved_next (h : Saved r s) (e : Event) : Saved r (s.next r e) := by
  cases e with
  | get userId => exact saved_start h rfl
  | update userId text => exact saved_start h rfl
  | expire userId =>
    intro c hc
    have hold := h c hc
    cases c <;> exact hold
  | step i =>
    cases hi : s.procs[i]? with
    | none =>
      rw [System.next, step_of_none hi]
      exact h
    | some c =>
      have hc := h c (List.mem_of_getElem? hi)
      have hsame : ∀ c' : Call, c'.hasSaved r (s.step (advance r) i).shared = c'.hasSaved r s.shared := by
        intro c'
        rw [shared_step (advance r) hi]
        cases c' <;> simp only [Call.hasSaved, saves_advance hc]
      unfold Saved System.next
      simp only [hsame]
      apply forall_step hi h (hasSaved_advance hc)
      rw [advance_started]
      simp

/-! ### Who is still to delete the key -/

lemma deletesLater_advance (hkeep : ∀ text, c ≠ .updateDelete userId text) :
    (advance r s.shared c).next.deletesLater r s.shared userId = c.deletesLater r s.shared userId := by
  cases c with
  | getCached userId' =>
    obtain ⟨answer, hcall⟩ | hcall := advance_getCached r s.shared userId'
    · rw [hcall]
      rfl
    · rw [hcall]
      rfl
  | updateSave userId' text =>
    by_cases huser : userId' = userId
    · subst huser
      obtain ⟨hsaves, hcall⟩ | ⟨hsaves, answer, hcall⟩ := advance_updateSave r s.shared userId' text
      · simp [hcall, Call.deletesLater, hsaves]
      · simp [hcall, Call.deletesLater, hsaves]
    · obtain ⟨hsaves, hcall⟩ | ⟨hsaves, answer, hcall⟩ := advance_updateSave r s.shared userId' text
      · simp [hcall, Call.deletesLater, huser]
      · simp [hcall, Call.deletesLater, huser]
  | updateDelete userId' text =>
    have huser : userId' ≠ userId := by
      rintro rfl
      exact hkeep text rfl
    simp [advance, Call.deletesLater, huser]
  | _ => rfl

lemma willDelete_step (hi : s.procs[i]? = some c) (hc : c.hasSaved r s.shared = true)
    (hkeep : ∀ text, c ≠ .updateDelete userId text) :
    WillDelete r (s.step (advance r) i) userId ↔ WillDelete r s userId := by
  have hsame : ∀ c' : Call, c'.deletesLater r (s.step (advance r) i).shared userId =
      c'.deletesLater r s.shared userId := by
    intro c'
    rw [shared_step (advance r) hi]
    cases c' <;> simp only [Call.deletesLater, saves_advance hc]
  obtain ⟨before, after, hprocs, hstep⟩ := exists_split (advance r) hi
  unfold WillDelete
  simp only [hsame, hstep, hprocs, advance_started, List.append_nil, List.mem_append, List.mem_cons,
    or_and_right, exists_or, exists_eq_left, deletesLater_advance hkeep]

lemma willDelete_start (h : WillDelete r s userId) (c : Call) : WillDelete r (s.start c) userId := by
  obtain ⟨c', hc', hdeletes⟩ := h
  exact ⟨c', List.mem_append_left _ hc', hdeletes⟩

/-! ### The cache stays covered -/

lemma fresh_deleteKey_self (w : InstructionStores) (userId : String) :
    Fresh (w.deleteKey (instructionsKey userId)) userId := by
  intro cached hcached
  simp [InstructionStores.deleteKey] at hcached

lemma fresh_deleteKey_of_ne (w : InstructionStores) {userId userId' : String} (h : userId ≠ userId') :
    Fresh (w.deleteKey (instructionsKey userId')) userId ↔ Fresh w userId := by
  have hkey : instructionsKey userId ≠ instructionsKey userId' := fun heq =>
    h (instructionsKey_injective heq)
  simp only [Fresh, InstructionStores.deleteKey, InstructionStores.findById, Function.update_of_ne hkey]

lemma fresh_setKey_self (w : InstructionStores) (userId value : String) :
    Fresh (w.setKey (instructionsKey userId) value) userId ↔ value = cacheValue (w.findById userId) := by
  simp [Fresh, InstructionStores.setKey, InstructionStores.findById]

lemma fresh_setKey_of_ne (w : InstructionStores) {userId userId' : String} (h : userId ≠ userId')
    (value : String) : Fresh (w.setKey (instructionsKey userId') value) userId ↔ Fresh w userId := by
  have hkey : instructionsKey userId ≠ instructionsKey userId' := fun heq =>
    h (instructionsKey_injective heq)
  simp only [Fresh, InstructionStores.setKey, InstructionStores.findById, Function.update_of_ne hkey]

lemma fresh_commit_self (w : InstructionStores) (userId text : String) :
    Fresh (w.commit ⟨userId, text⟩) userId ↔ ∀ cached ∈ w.redis (instructionsKey userId), cached = text := by
  simp [Fresh, InstructionStores.commit, InstructionStores.findById, cacheValue]

lemma fresh_commit_of_ne (w : InstructionStores) {userId userId' : String} (h : userId ≠ userId')
    (text : String) : Fresh (w.commit ⟨userId', text⟩) userId ↔ Fresh w userId := by
  simp only [Fresh, InstructionStores.commit, InstructionStores.findById, Function.update_of_ne h]

lemma covered_start (h : Covered r s) (c : Call) : Covered r (s.start c) := by
  intro userId
  rcases h userId with hfresh | hwill
  · exact .inl hfresh
  · exact .inr (willDelete_start hwill c)

/-- A step that only one user's key and row can feel keeps the cache covered exactly when it does so
for that user. -/
lemma covered_step_iff (userId' : String) (hi : s.procs[i]? = some c) (hc : c.hasSaved r s.shared = true)
    (h : Covered r s) (hkeep : ∀ userId text, c ≠ .updateDelete userId text)
    (hothers : ∀ userId, userId ≠ userId' →
      (Fresh (s.step (advance r) i).shared userId ↔ Fresh s.shared userId)) :
    Covered r (s.step (advance r) i) ↔
      Fresh (s.step (advance r) i).shared userId' ∨ WillDelete r s userId' := by
  unfold Covered
  simp only [fun userId => willDelete_step hi hc (hkeep userId)]
  constructor
  · exact fun hcovered => hcovered userId'
  · intro hself userId
    by_cases huser : userId = userId'
    · subst huser
      exact hself
    · rw [hothers userId huser]
      exact h userId

lemma covered_step_of_shared (hi : s.procs[i]? = some c) (hc : c.hasSaved r s.shared = true)
    (h : Covered r s) (hkeep : ∀ userId text, c ≠ .updateDelete userId text)
    (hsame : (advance r s.shared c).shared = s.shared) : Covered r (s.step (advance r) i) := by
  intro userId
  rw [willDelete_step hi hc (hkeep userId), shared_step (advance r) hi, hsame]
  exact h userId

lemma covered_step_updateDelete {text : String} (hi : s.procs[i]? = some (.updateDelete userId text))
    (hc : (Call.updateDelete userId text).hasSaved r s.shared = true) (h : Covered r s) :
    Covered r (s.step (advance r) i) := by
  have hshared : (s.step (advance r) i).shared = s.shared.deleteKey (instructionsKey userId) :=
    shared_step (advance r) hi
  intro userId'
  by_cases huser : userId' = userId
  · subst huser
    rw [hshared]
    exact .inl (fresh_deleteKey_self s.shared userId')
  · have hkeep : ∀ text', Call.updateDelete userId text ≠ .updateDelete userId' text' := by
      intro text' heq
      exact huser (Call.updateDelete.inj heq).1.symm
    rw [willDelete_step hi hc hkeep, hshared, fresh_deleteKey_of_ne s.shared huser]
    exact h userId'

/-- The cache stays covered over an event exactly when the event meets its guard. -/
theorem covered_next_iff (hsaved : Saved r s) (h : Covered r s) (e : Event) :
    Covered r (s.next r e) ↔ e.Guarded r s := by
  cases e with
  | get userId => exact ⟨fun _ => trivial, fun _ => covered_start h _⟩
  | update userId text => exact ⟨fun _ => trivial, fun _ => covered_start h _⟩
  | expire userId =>
    refine ⟨fun _ => trivial, fun _ userId' => ?_⟩
    by_cases huser : userId' = userId
    · subst huser
      exact .inl (fresh_deleteKey_self s.shared userId')
    · rcases h userId' with hfresh | ⟨c, hc, hdeletes⟩
      · exact .inl ((fresh_deleteKey_of_ne s.shared huser).mpr hfresh)
      · refine .inr ⟨c, hc, ?_⟩
        cases c <;> exact hdeletes
  | step i =>
    change Covered r (s.step (advance r) i) ↔ ∀ c ∈ s.procs[i]?, c.Guarded r s
    cases hi : s.procs[i]? with
    | none =>
      rw [step_of_none hi]
      simpa using h
    | some c =>
      have hc := hsaved c (List.mem_of_getElem? hi)
      simp only [Option.mem_some, forall_eq']
      cases c with
      | getSet userId instruction =>
        rw [covered_step_iff userId hi hc h (by simp), shared_step (advance r) hi]
        · exact or_congr_left (fresh_setKey_self ..)
        · intro userId' huser
          rw [shared_step (advance r) hi]
          exact fresh_setKey_of_ne s.shared huser _
      | updateCommit userId text =>
        rw [covered_step_iff userId hi hc h (by simp), shared_step (advance r) hi]
        · exact or_congr_left (fresh_commit_self ..)
        · intro userId' huser
          rw [shared_step (advance r) hi]
          exact fresh_commit_of_ne s.shared huser _
      | updateDelete userId text => exact ⟨fun _ => trivial, fun _ => covered_step_updateDelete hi hc h⟩
      | getCached userId =>
        refine ⟨fun _ => trivial, fun _ => covered_step_of_shared hi hc h (by simp) ?_⟩
        obtain ⟨answer, hcall⟩ | hcall := advance_getCached r s.shared userId
        · rw [hcall]
        · rw [hcall]
      | updateSave userId text =>
        refine ⟨fun _ => trivial, fun _ => covered_step_of_shared hi hc h (by simp) ?_⟩
        obtain ⟨_, hcall⟩ | ⟨_, answer, hcall⟩ := advance_updateSave r s.shared userId text
        · rw [hcall]
        · rw [hcall]
      | getFind userId => exact ⟨fun _ => trivial, fun _ => covered_step_of_shared hi hc h (by simp) rfl⟩
      | returned answer => exact ⟨fun _ => trivial, fun _ => covered_step_of_shared hi hc h (by simp) rfl⟩
      | updated answer => exact ⟨fun _ => trivial, fun _ => covered_step_of_shared hi hc h (by simp) rfl⟩

lemma fresh_of_quiet (h : Covered r s) (hquiet : s.Quiet) (userId : String) : Fresh s.shared userId := by
  rcases h userId with hfresh | ⟨c, hc, hdeletes⟩
  · exact hfresh
  · have hover := hquiet c hc
    cases c <;> first | exact absurd hover Bool.false_ne_true | exact absurd hdeletes Bool.false_ne_true

end Steps

section Runs

variable {r : UserInstructionRepository} {w : InstructionStores}

/-- The cache is covered along a run exactly when every event of the run meets its guard. -/
theorem covered_along_iff (hw : ∀ userId, Fresh w userId) (events : List Event) :
    Along (System.next r) (fun s e => Covered r (s.next r e)) ⟨w, []⟩ events ↔
      Along (System.next r) (fun s e => e.Guarded r s) ⟨w, []⟩ events := by
  have hsaved : Saved r ⟨w, []⟩ := fun _ hc => absurd hc List.not_mem_nil
  have hcovered : Covered r ⟨w, []⟩ := fun userId => .inl (hw userId)
  have hkeep : ∀ s e, Saved r s → Saved r (System.next r s e) := fun _ e hs => saved_next hs e
  have hiff : ∀ s e, Saved r s → Covered r s → (Covered r (System.next r s e) ↔ e.Guarded r s) :=
    fun _ e hs hc => covered_next_iff hs hc e
  exact along_invariant_iff hkeep hiff ⟨hsaved, hcovered⟩ events

/-- In a run whose events all meet their guards, no key is stale when no call is in flight. -/
theorem fresh_when_quiet (hw : ∀ userId, Fresh w userId) {events : List Event}
    (hguard : Along (System.next r) (fun s e => e.Guarded r s) ⟨w, []⟩ events)
    (hquiet : (run (System.next r) ⟨w, []⟩ events).Quiet) (userId : String) :
    Fresh (run (System.next r) ⟨w, []⟩ events).shared userId := by
  have hcovered : Covered r ⟨w, []⟩ := fun userId => .inl (hw userId)
  have hnext : ∀ s e, Covered r s → Covered r (System.next r s e) → Covered r (System.next r s e) :=
    fun _ _ _ h => h
  have hend := run_invariant hnext hcovered ((covered_along_iff hw events).mpr hguard)
  exact fresh_of_quiet hend hquiet userId

def frostyStores : InstructionStores where
  redis _ := none
  table userId := if userId = "frosty" then some ⟨"frosty", "Be brief."⟩ else none

lemma fresh_frostyStores (userId : String) : Fresh frostyStores userId := fun _ hcached => by
  cases hcached

/-- The read finds the row before the update commits, and stores it after the update has deleted
the key. -/
def racingEvents : List Event :=
  [.get "frosty", .update "frosty" "Be thorough.", .step 0, .step 0, .step 1, .step 1, .step 0, .step 1]

/-- The read is over before the update deletes the key. -/
def orderedEvents : List Event :=
  [.get "frosty", .update "frosty" "Be thorough.", .step 0, .step 0, .step 0, .step 1, .step 1, .step 1]

/-- The old text stays in the cache behind the committed one. -/
theorem race_leaves_stale :
    (run (System.next ⟨false⟩) ⟨frostyStores, []⟩ racingEvents).Quiet ∧
      ¬Fresh (run (System.next ⟨false⟩) ⟨frostyStores, []⟩ racingEvents).shared "frosty" := by
  decide

theorem ordered_calls_fresh :
    Fresh (run (System.next ⟨false⟩) ⟨frostyStores, []⟩ orderedEvents).shared "frosty" :=
  fresh_when_quiet fresh_frostyStores (by decide) (by decide) "frosty"

end Runs

end AscendAI.User
