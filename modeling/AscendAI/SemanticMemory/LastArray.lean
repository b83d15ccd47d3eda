import AscendAI.Lib.BracketReading
import AscendAI.SemanticMemory.FactExtraction

/-!
# The array that the bracket scan finds

The state of the scan after a part of the text tells the mode and the depth there, where the outermost open
bracket is, and which pair of outermost brackets closed last.
-/

namespace AscendAI.SemanticMemory
open JavaText JsonText BracketReading

/-- The characters that the scan looks at. -/
def jsonSigns : Signs UInt16 := ⟨backslash, quote, openBracket, closeBracket⟩

lemma openBracket_ne : openBracket ≠ backslash ∧ openBracket ≠ quote := by decide

lemma closeBracket_ne : closeBracket ≠ backslash ∧ closeBracket ≠ quote ∧ closeBracket ≠ openBracket := by decide

namespace BracketScanState

def mode (state : BracketScanState) : Mode := ⟨state.inString, state.escaped⟩

section Consume

variable (state : BracketScanState) {c : UInt16} (index : ℕ)

/-- Inside a string or an escape, and at a character without a meaning, only the mode changes. -/
lemma consume_of_inert (h : state.mode.mark jsonSigns c = .inert) :
    state.consume c index =
      { state with
        inString := (state.mode.next jsonSigns c).inString
        escaped := (state.mode.next jsonSigns c).escaped } := by
  rw [mark_eq_inert_iff] at h
  obtain ⟨depth, currentStart, lastClosed, inString, escaped⟩ := state
  simp only [mode, Mode.next, jsonSigns, consume] at h ⊢
  by_cases hescaped : escaped = true
  · simp [hescaped]
  by_cases hback : c = backslash
  · simp [hescaped, hback]
  by_cases hquote : c = quote
  · subst hquote
    simp [hescaped, hback]
  by_cases hstring : inString = true
  · simp [hescaped, hback, hquote, hstring]
  obtain ⟨hopen, hclose⟩ : c ≠ openBracket ∧ c ≠ closeBracket := by tauto
  simp [hescaped, hback, hquote, hstring, hopen, hclose]

lemma consume_of_opens (h : state.mode.mark jsonSigns c = .opens) :
    state.consume c index =
      { state with
        currentStart := if state.depth = 0 then some index else state.currentStart
        depth := state.depth + 1 } := by
  have hmode : state.mode = {} := eq_of_mark_ne_inert jsonSigns (c := c) (by rw [h]; decide)
  obtain rfl : c = openBracket := eq_opening_of_mark jsonSigns h
  obtain ⟨depth, currentStart, lastClosed, inString, escaped⟩ := state
  obtain ⟨rfl, rfl⟩ := Mode.mk.inj hmode
  simp [consume, openBracket_ne]

lemma consume_of_closes (h : state.mode.mark jsonSigns c = .closes) {start : ℕ}
    (hstart : 0 < state.depth → state.currentStart = some start) :
    state.consume c index =
      if state.depth = 1 then { state with depth := 0, lastClosed := some ⟨start, index⟩, currentStart := none }
      else { state with depth := state.depth - 1 } := by
  have hmode : state.mode = {} := eq_of_mark_ne_inert jsonSigns (c := c) (by rw [h]; decide)
  obtain rfl : c = closeBracket := eq_closing_of_mark jsonSigns h
  obtain ⟨depth, currentStart, lastClosed, inString, escaped⟩ := state
  obtain ⟨rfl, rfl⟩ := Mode.mk.inj hmode
  rcases depth with _ | _ | depth
  · simp [consume, closeBracket_ne]
  · obtain rfl : currentStart = some start := hstart Nat.zero_lt_one
    simp [consume, closeBracket_ne]
  · obtain rfl : currentStart = some start := hstart (Nat.succ_pos _)
    simp [consume, closeBracket_ne]

/-- A bracket that counts leaves the mode as it is. -/
lemma next_of_mark_ne_inert (h : state.mode.mark jsonSigns c ≠ .inert) :
    state.mode.next jsonSigns c = state.mode := by
  have hmode := eq_of_mark_ne_inert jsonSigns h
  rw [ne_eq, mark_eq_inert_iff] at h
  push Not at h
  rw [hmode, Mode.next, if_neg (by simp), if_neg h.2.1, if_neg h.2.2.1]

end Consume

/-- What the state says of the text in front of it. -/
structure Reads (text : JavaText) (state : BracketScanState) : Prop where
  mode : state.mode = Mode.after jsonSigns {} text
  depth : state.depth = BracketReading.depth (marks jsonSigns text)
  outermost : 0 < state.depth → ∃ start, state.currentStart = some start ∧
    OpenSince (marks jsonSigns text) start text.length
  noneClosed : state.lastClosed = none → ∀ start stop, ¬IsPair (marks jsonSigns text) start stop
  lastClosed : ∀ range, state.lastClosed = some range → IsLastPair (marks jsonSigns text) range.start range.stop

lemma reads_nil : Reads [] {} := by
  refine ⟨rfl, rfl, fun h => absurd h (lt_irrefl 0), fun _ start stop h => ?_, fun range h => by cases h⟩
  exact absurd h.stop_lt (Nat.not_lt_zero stop)

/-- A mark that closes no outermost brackets leaves the pairs as they are. -/
lemma Reads.concat_of_not_closing {text : JavaText} {state state' : BracketScanState} (h : Reads text state)
    {c : UInt16} (hmark : state.mode.mark jsonSigns c ≠ .closes ∨ state.depth ≠ 1)
    (hclosed : state'.lastClosed = state.lastClosed) (hmode : state'.mode = state.mode.next jsonSigns c)
    (hdepth : state'.depth = (state.mode.mark jsonSigns c).apply state.depth)
    (houtermost : 0 < state'.depth → ∃ start, state'.currentStart = some start ∧
      OpenSince (marks jsonSigns (text ++ [c])) start (text.length + 1)) : Reads (text ++ [c]) state' := by
  have hpairs : ∀ start stop, IsPair (marks jsonSigns (text ++ [c])) start stop ↔
      IsPair (marks jsonSigns text) start stop := by
    intro start stop
    rw [marks_concat, isPair_concat_iff]
    refine or_iff_left fun ⟨_, hcloses, hone, _⟩ => ?_
    rw [← h.mode] at hcloses
    rw [← h.depth] at hone
    exact hmark.elim (fun hne => hne hcloses) fun hne => hne hone
  refine ⟨?_, ?_, ?_, fun hnone start stop => ?_, fun range hsome => ?_⟩
  · rw [after_concat, ← h.mode, hmode]
  · rw [marks_concat, depth_concat, ← h.mode, ← h.depth, hdepth]
  · rw [List.length_append, List.length_singleton]
    exact houtermost
  · rw [hpairs]
    exact h.noneClosed (hclosed ▸ hnone) start stop
  · have hlast := h.lastClosed range (hclosed ▸ hsome)
    exact ⟨(hpairs _ _).mpr hlast.toIsPair, fun start' stop' hpair => hlast.last start' stop' ((hpairs _ _).mp hpair)⟩

/-- The bracket that closes outermost brackets makes them the last pair. -/
lemma Reads.concat_of_closing {text : JavaText} {state : BracketScanState} (h : Reads text state) {c : UInt16}
    (hmark : state.mode.mark jsonSigns c = .closes) (hone : state.depth = 1) {start : ℕ}
    (hopen : OpenSince (marks jsonSigns text) start (marks jsonSigns text).length) :
    Reads (text ++ [c])
      { state with depth := 0, lastClosed := some ⟨start, text.length⟩, currentStart := none } := by
  have hnext := next_of_mark_ne_inert state (by rw [hmark]; decide)
  have hmarks : marks jsonSigns (text ++ [c]) = marks jsonSigns text ++ [.closes] := by
    rw [marks_concat, ← h.mode, hmark]
  have hlength : (marks jsonSigns text).length = text.length := length_marks ..
  have hdepth : BracketReading.depth (marks jsonSigns text) = 1 := by rw [← h.depth, hone]
  refine ⟨?_, ?_, fun hpos => absurd hpos (lt_irrefl 0), fun hnone => ?_, fun range hsome => ?_⟩
  · rw [after_concat, ← h.mode, hnext]
    rfl
  · rw [hmarks, depth_concat, hdepth]
    rfl
  · exact absurd hnone (Option.some_ne_none _)
  · obtain rfl := Option.some.inj hsome
    rw [hmarks]
    rw [hlength] at hopen
    refine ⟨isPair_concat_iff.mpr (.inr ⟨hlength.symm, rfl, hdepth, hopen⟩), fun start' stop' hpair => ?_⟩
    have hlt := hpair.stop_lt
    rw [List.length_append, List.length_singleton, hlength] at hlt
    exact Nat.lt_succ_iff.mp hlt

lemma Reads.consume {text : JavaText} {state : BracketScanState} (h : Reads text state) (c : UInt16) :
    Reads (text ++ [c]) (state.consume c text.length) := by
  have hmarks : marks jsonSigns (text ++ [c]) = marks jsonSigns text ++ [state.mode.mark jsonSigns c] := by
    rw [marks_concat, h.mode]
  have hlength : (marks jsonSigns text).length = text.length := length_marks ..
  cases hmark : state.mode.mark jsonSigns c with
  | inert =>
    rw [consume_of_inert state text.length hmark]
    refine h.concat_of_not_closing (.inl (by rw [hmark]; decide)) rfl rfl (by rw [hmark]; rfl) fun hpos => ?_
    obtain ⟨start, hstart, hopen⟩ := h.outermost hpos
    rw [← hlength] at hopen ⊢
    rw [hmarks, hmark]
    exact ⟨start, hstart, hopen.concat (by rw [← h.depth]; exact hpos)⟩
  | opens =>
    have hnext := next_of_mark_ne_inert state (by rw [hmark]; decide)
    rw [consume_of_opens state text.length hmark]
    refine h.concat_of_not_closing (.inl (by rw [hmark]; decide)) rfl hnext.symm (by rw [hmark]; rfl) fun _ => ?_
    rw [hmarks, hmark, ← hlength]
    by_cases hzero : state.depth = 0
    · exact ⟨_, if_pos hzero, openSince_concat_opens (by rw [← h.depth, hzero])⟩
    · obtain ⟨start, hstart, hopen⟩ := h.outermost (Nat.pos_of_ne_zero hzero)
      rw [← hlength] at hopen
      exact ⟨start, by rw [if_neg hzero, hstart], hopen.concat (Nat.succ_pos _)⟩
  | closes =>
    have hnext := next_of_mark_ne_inert state (by rw [hmark]; decide)
    by_cases hzero : state.depth = 0
    · have hnone : 0 < state.depth → state.currentStart = some 0 := fun hpos => absurd hzero hpos.ne'
      rw [consume_of_closes state text.length hmark hnone, if_neg (by omega)]
      refine h.concat_of_not_closing (.inr (by omega)) rfl hnext.symm (by rw [hmark]; rfl) fun hpos => ?_
      exact absurd hpos (by simp [hzero])
    · obtain ⟨start, hstart, hopen⟩ := h.outermost (Nat.pos_of_ne_zero hzero)
      rw [consume_of_closes state text.length hmark fun _ => hstart]
      rw [← hlength] at hopen
      by_cases hone : state.depth = 1
      · rw [if_pos hone]
        exact h.concat_of_closing hmark hone hopen
      · rw [if_neg hone]
        refine h.concat_of_not_closing (.inr hone) rfl hnext.symm (by rw [hmark]; rfl) fun hpos => ?_
        rw [hmarks, hmark, ← hlength]
        exact ⟨start, hstart, hopen.concat (by rw [← h.depth]; exact hpos)⟩

/-- Reading on from a part of the text. -/
lemma Reads.scanFrom_append {text : JavaText} {state : BracketScanState} (h : Reads text state) (rest : JavaText) :
    Reads (text ++ rest) (state.scanFrom text.length rest) := by
  induction rest generalizing text state with
  | nil =>
    rw [List.append_nil]
    exact h
  | cons c rest ih =>
    have hread := ih (h.consume c)
    rw [List.append_assoc, List.singleton_append, List.length_append, List.length_singleton] at hread
    exact hread

theorem reads_scanFrom (text : JavaText) : Reads text (BracketScanState.scanFrom {} 0 text) :=
  reads_nil.scanFrom_append text

end BracketScanState

/-- White space has no bracket in it. -/
lemma not_isPair_of_isBlank {text : JavaText} (h : isBlank text = true) (start stop : ℕ) :
    ¬IsPair (marks jsonSigns text) start stop := by
  intro hpair
  have hmem := opening_mem_of_opens jsonSigns hpair.opens
  have hwhite := List.all_eq_true.mp h openBracket hmem
  exact absurd hwhite (by decide)

/-- The scan returns the text from the opening to the closing bracket of the last pair of outermost brackets,
and nothing exactly where no pair closes; what it returns is balanced. -/
theorem findLastBalancedJsonArray_spec (text : JavaText) :
    (findLastBalancedJsonArray text = none ↔ ∀ start stop, ¬IsPair (marks jsonSigns text) start stop) ∧
    ∀ found, (findLastBalancedJsonArray text = some found ↔ ∃ start stop,
        IsLastPair (marks jsonSigns text) start stop ∧ stop < text.length ∧
          found = (text.take (stop + 1)).drop start) ∧
      (findLastBalancedJsonArray text = some found → IsBalanced (marks jsonSigns found)) := by
  have hread := BracketScanState.reads_scanFrom text
  have hnopair : (∀ start stop, ¬IsPair (marks jsonSigns text) start stop) → ∀ found : JavaText,
      (none = some found ↔ ∃ start stop, IsLastPair (marks jsonSigns text) start stop ∧ stop < text.length ∧
          found = (text.take (stop + 1)).drop start) ∧
        (none = some found → IsBalanced (marks jsonSigns found)) := by
    intro hnone found
    refine ⟨iff_of_false (Option.some_ne_none _).symm ?_, fun h => absurd h.symm (Option.some_ne_none _)⟩
    rintro ⟨start, stop, hpair, -⟩
    exact hnone start stop hpair.toIsPair
  rw [findLastBalancedJsonArray]
  by_cases hblank : isBlank text = true
  · have hnone := not_isPair_of_isBlank hblank
    rw [if_pos hblank]
    exact ⟨iff_of_true rfl hnone, hnopair hnone⟩
  rw [if_neg hblank]
  cases hlast : (BracketScanState.scanFrom {} 0 text).lastClosed with
  | none =>
    have hnone := hread.noneClosed hlast
    exact ⟨iff_of_true rfl hnone, hnopair hnone⟩
  | some range =>
    have hpair := hread.lastClosed range hlast
    have hstop := hpair.stop_lt
    rw [length_marks] at hstop
    rw [Option.map_some]
    refine ⟨iff_of_false (Option.some_ne_none _) fun hnone => hnone _ _ hpair.toIsPair,
      fun found => ⟨?_, fun hfound => ?_⟩⟩
    · rw [Option.some.injEq]
      constructor
      · intro hfound
        exact ⟨range.start, range.stop, hpair, hstop, hfound.symm⟩
      · rintro ⟨start, stop, hpair', -, rfl⟩
        obtain ⟨rfl, rfl⟩ := hpair.eq_of_isLastPair hpair'
        rfl
    · rw [Option.some.injEq] at hfound
      rw [← hfound]
      exact hpair.isBalanced jsonSigns

end AscendAI.SemanticMemory
