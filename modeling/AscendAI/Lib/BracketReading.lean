import Mathlib.Data.List.Basic
import Mathlib.Order.Basic
import Mathlib.Order.Nat

/-!
# Brackets in a text with strings and escapes

A left-to-right reading of a text: the escape character makes the next one inert, a quote that is not inert
begins or ends a string, and brackets count outside strings only. The depth is the number of brackets that
are open; a closing bracket where none is open changes nothing.
-/

namespace BracketReading

/-- What a position of a text does to the depth. -/
inductive Mark where
  | opens
  | closes
  | inert
  deriving DecidableEq

/-- The characters with a meaning. -/
structure Signs (α : Type*) where
  escape : α
  quote : α
  opening : α
  closing : α

/-- What is known of the text in front of a position. -/
structure Mode where
  inString : Bool := false
  escaped : Bool := false

section Reading

variable {α : Type*} [DecidableEq α] (signs : Signs α)

def Mode.next (mode : Mode) (c : α) : Mode :=
  if mode.escaped then { mode with escaped := false }
  else if c = signs.escape then { mode with escaped := true }
  else if c = signs.quote then { mode with inString := !mode.inString }
  else mode

def Mode.mark (mode : Mode) (c : α) : Mark :=
  if mode.escaped ∨ c = signs.escape ∨ c = signs.quote ∨ mode.inString then .inert
  else if c = signs.opening then .opens
  else if c = signs.closing then .closes
  else .inert

def Mode.after (mode : Mode) (text : List α) : Mode := text.foldl (Mode.next signs) mode

def marksFrom : Mode → List α → List Mark
  | _, [] => []
  | mode, c :: text => mode.mark signs c :: marksFrom (mode.next signs c) text

/-- The marks of a text that is read from its start. -/
def marks (text : List α) : List Mark := marksFrom signs {} text

lemma length_marksFrom (mode : Mode) (text : List α) : (marksFrom signs mode text).length = text.length := by
  induction text generalizing mode with
  | nil => rfl
  | cons c text ih => rw [marksFrom, List.length_cons, List.length_cons, ih]

@[simp] lemma length_marks (text : List α) : (marks signs text).length = text.length :=
  length_marksFrom signs {} text

lemma marksFrom_append (mode : Mode) (a b : List α) :
    marksFrom signs mode (a ++ b) = marksFrom signs mode a ++ marksFrom signs (mode.after signs a) b := by
  induction a generalizing mode with
  | nil => rfl
  | cons c a ih =>
    rw [List.cons_append, marksFrom, marksFrom, ih]
    rfl

lemma marks_concat (text : List α) (c : α) :
    marks signs (text ++ [c]) = marks signs text ++ [(Mode.after signs {} text).mark signs c] :=
  marksFrom_append signs {} text [c]

lemma after_concat (mode : Mode) (text : List α) (c : α) :
    mode.after signs (text ++ [c]) = (mode.after signs text).next signs c := by
  rw [Mode.after, List.foldl_append]
  rfl

lemma mark_eq_inert_iff {mode : Mode} {c : α} :
    mode.mark signs c = .inert ↔ mode.escaped = true ∨ c = signs.escape ∨ c = signs.quote ∨
      mode.inString = true ∨ (c ≠ signs.opening ∧ c ≠ signs.closing) := by
  unfold Mode.mark
  split_ifs with hinert hopening hclosing
  · exact iff_of_true rfl (by tauto)
  · exact iff_of_false (by decide) (by tauto)
  · exact iff_of_false (by decide) (by tauto)
  · exact iff_of_true rfl (by tauto)

lemma eq_opening_of_mark {mode : Mode} {c : α} (h : mode.mark signs c = .opens) : c = signs.opening := by
  unfold Mode.mark at h
  split_ifs at h
  assumption

lemma eq_closing_of_mark {mode : Mode} {c : α} (h : mode.mark signs c = .closes) : c = signs.closing := by
  unfold Mode.mark at h
  split_ifs at h
  assumption

lemma opening_mem_of_marksFrom {mode : Mode} {text : List α} {i : ℕ}
    (h : (marksFrom signs mode text)[i]? = some .opens) : signs.opening ∈ text := by
  induction text generalizing mode i with
  | nil => cases h
  | cons c text ih =>
    cases i with
    | zero =>
      rw [marksFrom, List.getElem?_cons_zero, Option.some.injEq] at h
      rw [eq_opening_of_mark signs h]
      exact List.mem_cons_self
    | succ i =>
      rw [marksFrom, List.getElem?_cons_succ] at h
      exact List.mem_cons_of_mem c (ih h)

/-- Where the depth is raised, the text has an opening bracket. -/
lemma opening_mem_of_opens {text : List α} {i : ℕ} (h : (marks signs text)[i]? = some .opens) :
    signs.opening ∈ text :=
  opening_mem_of_marksFrom signs h

/-- A bracket that counts stands outside strings and escapes. -/
lemma eq_of_mark_ne_inert {mode : Mode} {c : α} (h : mode.mark signs c ≠ .inert) : mode = {} := by
  obtain ⟨inString, escaped⟩ := mode
  unfold Mode.mark at h
  cases inString <;> cases escaped <;> simp at h ⊢

end Reading

/-! ### Depth -/

def Mark.apply (depth : ℕ) : Mark → ℕ
  | .opens => depth + 1
  | .closes => depth - 1
  | .inert => depth

def depth (ms : List Mark) : ℕ := ms.foldl Mark.apply 0

lemma depth_concat (ms : List Mark) (m : Mark) : depth (ms ++ [m]) = m.apply (depth ms) := by
  rw [depth, List.foldl_append]
  rfl

/-- The depth before the position. -/
def depthAt (ms : List Mark) (i : ℕ) : ℕ := depth (ms.take i)

lemma depthAt_length (ms : List Mark) : depthAt ms ms.length = depth ms := by
  rw [depthAt, List.take_length]

lemma depthAt_append {ms : List Mark} {i : ℕ} (h : i ≤ ms.length) (ms' : List Mark) :
    depthAt (ms ++ ms') i = depthAt ms i := by
  rw [depthAt, List.take_append_of_le_length h, depthAt]

/-! ### Pairs of brackets -/

/-- The opening bracket at `start` raises the depth from 0 to 1, and up to `stop` the depth stays above 0. -/
structure OpenSince (ms : List Mark) (start stop : ℕ) : Prop where
  opens : ms[start]? = some .opens
  outermost : depthAt ms start = 0
  inside : ∀ i, start < i → i ≤ stop → 0 < depthAt ms i

/-- The closing bracket at `stop` is the one that returns the depth to 0 after the outermost opening bracket
at `start`. -/
structure IsPair (ms : List Mark) (start stop : ℕ) : Prop extends OpenSince ms start stop where
  lt : start < stop
  closes : ms[stop]? = some .closes
  returns : depthAt ms (stop + 1) = 0

/-- The pair that closes last. -/
structure IsLastPair (ms : List Mark) (start stop : ℕ) : Prop extends IsPair ms start stop where
  last : ∀ start' stop', IsPair ms start' stop' → stop' ≤ stop

/-- The depth is positive in between, and 0 at the end. -/
structure IsBalanced (ms : List Mark) : Prop where
  inside : ∀ i, 0 < i → i < ms.length → 0 < depthAt ms i
  closed : depth ms = 0
  nonempty : ms ≠ []

lemma IsPair.stop_lt {ms : List Mark} {start stop : ℕ} (h : IsPair ms start stop) : stop < ms.length :=
  (List.getElem?_eq_some_iff.mp h.closes).1

section Append

variable {ms : List Mark} {start stop : ℕ}

lemma OpenSince.append (h : OpenSince ms start stop) (hstop : stop ≤ ms.length) (ms' : List Mark) :
    OpenSince (ms ++ ms') start stop := by
  have hstart : start < ms.length := (List.getElem?_eq_some_iff.mp h.opens).1
  refine ⟨?_, ?_, fun i hlt hle => ?_⟩
  · rw [List.getElem?_append_left hstart]
    exact h.opens
  · rw [depthAt_append hstart.le]
    exact h.outermost
  · rw [depthAt_append (hle.trans hstop)]
    exact h.inside i hlt hle

/-- Whether the brackets are a pair shows at the closing one. -/
lemma isPair_append_iff (hstop : stop < ms.length) (ms' : List Mark) :
    IsPair (ms ++ ms') start stop ↔ IsPair ms start stop := by
  constructor
  · intro h
    have hstart : start < ms.length := h.lt.trans hstop
    refine ⟨⟨?_, ?_, fun i hlt hle => ?_⟩, h.lt, ?_, ?_⟩
    · rw [← List.getElem?_append_left hstart]
      exact h.opens
    · rw [← depthAt_append hstart.le ms']
      exact h.outermost
    · rw [← depthAt_append (hle.trans hstop.le) ms']
      exact h.inside i hlt hle
    · rw [← List.getElem?_append_left hstop]
      exact h.closes
    · rw [← depthAt_append hstop ms']
      exact h.returns
  · intro h
    refine ⟨h.toOpenSince.append hstop.le ms', h.lt, ?_, ?_⟩
    · rw [List.getElem?_append_left hstop]
      exact h.closes
    · rw [depthAt_append hstop]
      exact h.returns

/-- The brackets that are open have one outermost one. -/
lemma OpenSince.eq_of_openSince (h : OpenSince ms start stop) (hlt : start < stop) {start' : ℕ}
    (h' : OpenSince ms start' stop) (hlt' : start' < stop) : start' = start := by
  have houter := h.outermost
  have houter' := h'.outermost
  by_contra hne
  rcases Nat.lt_or_gt_of_ne hne with hbefore | hafter
  · have hpos := h'.inside start hbefore hlt.le
    omega
  · have hpos := h.inside start' hafter hlt'.le
    omega

/-- There is one last pair. -/
lemma IsLastPair.eq_of_isLastPair (h : IsLastPair ms start stop) {start' stop' : ℕ}
    (h' : IsLastPair ms start' stop') : start' = start ∧ stop' = stop := by
  obtain rfl : stop' = stop := le_antisymm (h.last _ _ h'.toIsPair) (h'.last _ _ h.toIsPair)
  exact ⟨h.eq_of_openSince h.lt h'.toOpenSince h'.lt, rfl⟩

lemma OpenSince.lt_length (h : OpenSince ms start stop) : start < ms.length :=
  (List.getElem?_eq_some_iff.mp h.opens).1

/-! ### One more mark -/

lemma depthAt_concat_length (ms : List Mark) (m : Mark) : depthAt (ms ++ [m]) (ms.length + 1) = m.apply (depth ms) := by
  rw [depthAt, List.take_of_length_le (by simp), depth_concat]

/-- An opening bracket at depth 0 opens outermost brackets. -/
lemma openSince_concat_opens (hdepth : depth ms = 0) :
    OpenSince (ms ++ [.opens]) ms.length (ms.length + 1) := by
  refine ⟨?_, ?_, fun i hlt hle => ?_⟩
  · rw [List.getElem?_append_right le_rfl, Nat.sub_self]
    rfl
  · rw [depthAt_append le_rfl, depthAt_length, hdepth]
  · obtain rfl : i = ms.length + 1 := by omega
    rw [depthAt_concat_length, hdepth]
    exact Nat.zero_lt_one

lemma OpenSince.concat (h : OpenSince ms start ms.length) {m : Mark} (hpos : 0 < m.apply (depth ms)) :
    OpenSince (ms ++ [m]) start (ms.length + 1) := by
  have happend := h.append le_rfl [m]
  refine ⟨happend.opens, happend.outermost, fun i hlt hle => ?_⟩
  by_cases hend : i = ms.length + 1
  · rw [hend, depthAt_concat_length]
    exact hpos
  · exact happend.inside i hlt (by omega)

/-- A mark that closes the outermost brackets adds them as a pair, and another one adds no pair. -/
theorem isPair_concat_iff {m : Mark} : IsPair (ms ++ [m]) start stop ↔
    IsPair ms start stop ∨ stop = ms.length ∧ m = .closes ∧ depth ms = 1 ∧ OpenSince ms start stop := by
  by_cases hstop : stop < ms.length
  · rw [isPair_append_iff hstop]
    constructor
    · exact .inl
    · rintro (h | ⟨rfl, -⟩)
      · exact h
      · exact absurd hstop (lt_irrefl _)
  · constructor
    · intro h
      have hlength := h.stop_lt
      rw [List.length_append, List.length_singleton] at hlength
      obtain rfl : stop = ms.length := by omega
      have hcloses := h.closes
      rw [List.getElem?_append_right le_rfl, Nat.sub_self] at hcloses
      obtain rfl : m = .closes := Option.some.inj hcloses
      have hreturns := h.returns
      rw [depthAt_concat_length] at hreturns
      have hinside := h.inside ms.length h.lt le_rfl
      rw [depthAt_append le_rfl, depthAt_length] at hinside
      have hdepth : depth ms = 1 := by
        simp only [Mark.apply] at hreturns
        omega
      refine .inr ⟨rfl, rfl, hdepth, ?_, ?_, fun i hlt hle => ?_⟩
      · rw [← List.getElem?_append_left h.lt]
        exact h.opens
      · rw [← depthAt_append h.lt.le]
        exact h.outermost
      · rw [← depthAt_append hle]
        exact h.inside i hlt hle
    · rintro (h | ⟨rfl, rfl, hdepth, h⟩)
      · exact absurd h.stop_lt hstop
      · refine ⟨h.append le_rfl _, h.lt_length, ?_, ?_⟩
        · rw [List.getElem?_append_right le_rfl, Nat.sub_self]
          rfl
        · rw [depthAt_concat_length, hdepth]
          rfl

end Append

/-! ### The text between the brackets -/

section Between

variable {α : Type*} [DecidableEq α] (signs : Signs α) {text : List α} {start stop : ℕ}

/-- Read from its own start, the text from an outermost bracket on has the marks that it has in the whole. -/
lemma marks_drop (hopens : (marks signs text)[start]? = some .opens) :
    marks signs (text.drop start) = (marks signs text).drop start := by
  have hstart := (List.getElem?_eq_some_iff.mp hopens).1
  rw [length_marks] at hstart
  have hsplit : marks signs text =
      marks signs (text.take start) ++ marksFrom signs (Mode.after signs {} (text.take start)) (text.drop start) := by
    rw [marks, marks, ← marksFrom_append, List.take_append_drop]
  have hlength : (marks signs (text.take start)).length = start := by
    rw [length_marks, List.length_take, min_eq_left hstart.le]
  have hmode : Mode.after signs {} (text.take start) = {} := by
    rw [hsplit, List.getElem?_append_right hlength.le, hlength, Nat.sub_self,
      List.drop_eq_getElem_cons hstart, marksFrom] at hopens
    apply eq_of_mark_ne_inert signs (c := text[start])
    rw [Option.some.inj hopens]
    decide
  rw [hsplit, List.drop_left' hlength, hmode]
  rfl

lemma marks_take (n : ℕ) : marks signs (text.take n) = (marks signs text).take n := by
  by_cases hn : n ≤ text.length
  · conv_rhs => rw [← List.take_append_drop n text, marks, marksFrom_append]
    rw [List.take_left']
    · rfl
    · rw [length_marksFrom, List.length_take, min_eq_left hn]
  · have hlength : text.length ≤ n := le_of_not_ge hn
    rw [List.take_of_length_le hlength, List.take_of_length_le (by rwa [length_marks])]

/-- From depth 0 on, the depth counts as if the text started there. -/
lemma depthAt_drop {ms : List Mark} {n : ℕ} (hdepth : depthAt ms n = 0) (i : ℕ) :
    depthAt (ms.drop n) i = depthAt ms (n + i) := by
  rw [depthAt, depthAt, List.take_add, depth, depth, List.foldl_append]
  rw [depthAt, depth] at hdepth
  rw [hdepth]

/-- Between the brackets of a pair, both included, the text is balanced when it is read on its own. -/
theorem IsPair.isBalanced (h : IsPair (marks signs text) start stop) :
    IsBalanced (marks signs ((text.take (stop + 1)).drop start)) := by
  have hlength : ((marks signs text).take (stop + 1)).length = stop + 1 := by
    rw [List.length_take, min_eq_left h.stop_lt]
  have htaken : IsPair ((marks signs text).take (stop + 1)) start stop := by
    rw [← List.take_append_drop (stop + 1) (marks signs text), isPair_append_iff (by omega)] at h
    exact h
  have hmarks : marks signs ((text.take (stop + 1)).drop start) =
      ((marks signs text).take (stop + 1)).drop start := by
    rw [marks_drop, marks_take]
    rw [marks_take]
    exact htaken.opens
  have hlt := h.lt
  rw [hmarks]
  refine ⟨fun i hpos hi => ?_, ?_, ?_⟩
  · rw [List.length_drop, hlength] at hi
    rw [depthAt_drop htaken.outermost]
    exact htaken.inside (start + i) (by omega) (by omega)
  · rw [← depthAt_length, depthAt_drop htaken.outermost, List.length_drop, hlength]
    have hend : start + (stop + 1 - start) = stop + 1 := by omega
    rw [hend]
    exact htaken.returns
  · rw [ne_eq, List.drop_eq_nil_iff, hlength]
    omega

end Between

end BracketReading
