import AscendAI.Lib.JavaText

/-!
# Texts of JSON arrays of strings

The grammar of the standard for an array of strings, as a relation between the strings and a text: any
white space between the tokens, and for each unit of a string itself or one of its escapes. A reader
inverts it, whatever follows the array.
-/

namespace JsonText

abbrev quote : UInt16 := 0x22
abbrev backslash : UInt16 := 0x5C
abbrev openBracket : UInt16 := 0x5B
abbrev closeBracket : UInt16 := 0x5D
abbrev comma : UInt16 := 0x2C

/-! ### The grammar -/

def isSpace (c : UInt16) : Bool := c == 0x20 || c == 0x09 || c == 0x0A || c == 0x0D

def Spaces (w : JavaText) : Prop := ∀ c ∈ w, isSpace c = true

/-- The escapes of one letter, each with the unit that it stands for. -/
def shortEscapes : List (UInt16 × UInt16) :=
  [(0x22, 0x22), (0x5C, 0x5C), (0x2F, 0x2F), (0x62, 0x08), (0x66, 0x0C), (0x6E, 0x0A), (0x72, 0x0D), (0x74, 0x09)]

def hexValue (c : UInt16) : Option UInt16 :=
  if 0x30 ≤ c ∧ c ≤ 0x39 then some (c - 0x30)
  else if 0x41 ≤ c ∧ c ≤ 0x46 then some (c - 0x37)
  else if 0x61 ≤ c ∧ c ≤ 0x66 then some (c - 0x57)
  else none

/-- A text of one unit of a string. -/
inductive CharText (c : UInt16) : JavaText → Prop
  | raw : 0x20 ≤ c → c ≠ quote → c ≠ backslash → CharText c [c]
  | short (e : UInt16) : (e, c) ∈ shortEscapes → CharText c [backslash, e]
  | unicode (h₁ h₂ h₃ h₄ v₁ v₂ v₃ v₄ : UInt16) : hexValue h₁ = some v₁ → hexValue h₂ = some v₂ →
      hexValue h₃ = some v₃ → hexValue h₄ = some v₄ → c = ((v₁ * 16 + v₂) * 16 + v₃) * 16 + v₄ →
      CharText c [backslash, 0x75, h₁, h₂, h₃, h₄]

/-- A text of a string between its quotes. -/
inductive StringBody : JavaText → JavaText → Prop
  | nil : StringBody [] []
  | cons {c : UInt16} {s t body : JavaText} : CharText c t → StringBody s body → StringBody (c :: s) (t ++ body)

/-- A text of the strings between the brackets. -/
inductive Elements : List JavaText → JavaText → Prop
  | last {s body w w' : JavaText} : Spaces w → StringBody s body → Spaces w' →
      Elements [s] (w ++ quote :: (body ++ quote :: w'))
  | more {s body w w' : JavaText} {items : List JavaText} {t : JavaText} : Spaces w → StringBody s body →
      Spaces w' → Elements items t → Elements (s :: items) (w ++ quote :: (body ++ quote :: (w' ++ comma :: t)))

/-- What stands between the brackets of an array of the strings. -/
inductive ArrayBody : List JavaText → JavaText → Prop
  | empty {w : JavaText} : Spaces w → ArrayBody [] w
  | elements {items : List JavaText} {t : JavaText} : Elements items t → ArrayBody items t

def arrayText (inner : JavaText) : JavaText := openBracket :: (inner ++ [closeBracket])

/-- A standard encoding of the strings as an array. -/
def ArrayText (items : List JavaText) (text : JavaText) : Prop :=
  ∃ inner, ArrayBody items inner ∧ text = arrayText inner

/-- A unit that is its own text. -/
def isRaw (c : UInt16) : Bool := 0x20 ≤ c && c != quote && c != backslash

lemma stringBody_raw {s : JavaText} (h : s.all isRaw = true) : StringBody s s := by
  induction s with
  | nil => exact .nil
  | cons c s ih =>
    rw [List.all_cons, Bool.and_eq_true] at h
    have hc := h.1
    simp only [isRaw, Bool.and_eq_true, decide_eq_true_eq, bne_iff_ne] at hc
    exact .cons (.raw hc.1.1 hc.1.2 hc.2) (ih h.2)

/-- A string of such units between brackets. -/
lemma arrayText_raw {s : JavaText} (h : s.all isRaw = true) :
    ArrayText [s] (arrayText (quote :: (s ++ [quote]))) := by
  have hnone : Spaces [] := nofun
  exact ⟨_, .elements (.last hnone (stringBody_raw h) hnone), rfl⟩

/-! ### Characters of a text -/

lemma hexValue_ne {c v : UInt16} (h : hexValue c = some v) : c ≠ quote ∧ c ≠ backslash ∧ c ≠ 0x60 := by
  refine ⟨?_, ?_, ?_⟩ <;>
  · rintro rfl
    cases h

/-- A text of a unit is the unit, or an escape: no quote follows its first letter, and no grave accent is
in it. -/
lemma CharText.cases {c : UInt16} {t : JavaText} (h : CharText c t) :
    (t = [c] ∧ 0x20 ≤ c ∧ c ≠ quote ∧ c ≠ backslash) ∨
      ∃ e rest, t = backslash :: e :: rest ∧ (∀ d ∈ rest, d ≠ quote ∧ d ≠ backslash) ∧ 0x60 ∉ t := by
  cases h with
  | raw hle hquote hback => exact .inl ⟨rfl, hle, hquote, hback⟩
  | short e he =>
    refine .inr ⟨e, [], rfl, nofun, ?_⟩
    have hletters : (shortEscapes.all fun pair => pair.1 != 0x60) = true := by decide
    have hne := bne_iff_ne.mp (List.all_eq_true.mp hletters _ he)
    simp [backslash, hne.symm]
  | unicode h₁ h₂ h₃ h₄ v₁ v₂ v₃ v₄ e₁ e₂ e₃ e₄ hc =>
    refine .inr ⟨0x75, [h₁, h₂, h₃, h₄], rfl, ?_, ?_⟩
    · intro d hd
      simp only [List.mem_cons, List.not_mem_nil, or_false] at hd
      rcases hd with rfl | rfl | rfl | rfl
      · exact ⟨(hexValue_ne e₁).1, (hexValue_ne e₁).2.1⟩
      · exact ⟨(hexValue_ne e₂).1, (hexValue_ne e₂).2.1⟩
      · exact ⟨(hexValue_ne e₃).1, (hexValue_ne e₃).2.1⟩
      · exact ⟨(hexValue_ne e₄).1, (hexValue_ne e₄).2.1⟩
    · have hne₁ := (hexValue_ne e₁).2.2
      have hne₂ := (hexValue_ne e₂).2.2
      have hne₃ := (hexValue_ne e₃).2.2
      have hne₄ := (hexValue_ne e₄).2.2
      simp [backslash, hne₁.symm, hne₂.symm, hne₃.symm, hne₄.symm]

/-! ### The reader -/

/-- Where the reader stands, with the strings that it has read. -/
inductive ReaderState where
  | start
  | value (first : Bool) (items : List JavaText)
  | chars (items : List JavaText) (s : JavaText)
  | escape (items : List JavaText) (s : JavaText)
  | hex (items : List JavaText) (s : JavaText) (left : ℕ) (unit : UInt16)
  | after (items : List JavaText)
  | done (items : List JavaText)
  | failed
  deriving DecidableEq

def ReaderState.step : ReaderState → UInt16 → ReaderState
  | .start, c => if c = openBracket then .value true [] else if isSpace c then .start else .failed
  | .value first items, c =>
    if c = quote then .chars items []
    else if c = closeBracket then if first then .done items else .failed
    else if isSpace c then .value first items else .failed
  | .chars items s, c =>
    if c = quote then .after (items ++ [s])
    else if c = backslash then .escape items s
    else if c < 0x20 then .failed else .chars items (s ++ [c])
  | .escape items s, c =>
    if c = 0x75 then .hex items s 4 0
    else match shortEscapes.lookup c with
      | some unit => .chars items (s ++ [unit])
      | none => .failed
  | .hex items s left unit, c =>
    match hexValue c with
    | none => .failed
    | some v =>
      if left = 1 then .chars items (s ++ [unit * 16 + v]) else .hex items s (left - 1) (unit * 16 + v)
  | .after items, c =>
    if c = comma then .value false items
    else if c = closeBracket then .done items
    else if isSpace c then .after items else .failed
  | .done items, _ => .done items
  | .failed, _ => .failed

def read (text : JavaText) : Option (List JavaText) :=
  match text.foldl ReaderState.step .start with
  | .done items => some items
  | _ => none

open ReaderState

lemma foldl_done (items : List JavaText) (rest : JavaText) : rest.foldl step (.done items) = .done items := by
  induction rest with
  | nil => rfl
  | cons c rest ih => exact ih

lemma foldl_failed (rest : JavaText) : rest.foldl step .failed = .failed := by
  induction rest with
  | nil => rfl
  | cons c rest ih => exact ih

lemma isSpace_ne {c : UInt16} (h : isSpace c = true) :
    c ≠ quote ∧ c ≠ backslash ∧ c ≠ openBracket ∧ c ≠ closeBracket ∧ c ≠ comma ∧ c ≠ 0x60 := by
  refine ⟨?_, ?_, ?_, ?_, ?_, ?_⟩ <;>
  · rintro rfl
    cases h

lemma foldl_spaces {w : JavaText} (hw : Spaces w) {state : ReaderState}
    (hstay : ∀ c, isSpace c = true → state.step c = state) : w.foldl step state = state := by
  induction w with
  | nil => rfl
  | cons c w ih =>
    rw [List.foldl_cons, hstay c (hw c List.mem_cons_self)]
    exact ih fun d hd => hw d (List.mem_cons_of_mem c hd)

lemma value_space (first : Bool) (items : List JavaText) {c : UInt16} (h : isSpace c = true) :
    (ReaderState.value first items).step c = .value first items := by
  obtain ⟨hquote, -, -, hclose, -, -⟩ := isSpace_ne h
  simp [step, hquote, hclose, h]

lemma after_space (items : List JavaText) {c : UInt16} (h : isSpace c = true) :
    (ReaderState.after items).step c = .after items := by
  obtain ⟨-, -, -, hclose, hcomma, -⟩ := isSpace_ne h
  simp [step, hclose, hcomma, h]

lemma chars_backslash (items : List JavaText) (s : JavaText) :
    (ReaderState.chars items s).step backslash = .escape items s := by
  have hne : backslash ≠ quote := by decide
  rw [step, if_neg hne, if_pos rfl]

lemma hex_more (items : List JavaText) (s : JavaText) (left : ℕ) (unit : UInt16) {c v : UInt16}
    (h : hexValue c = some v) :
    (ReaderState.hex items s (left + 2) unit).step c = .hex items s (left + 1) (unit * 16 + v) := by
  have hne : left + 2 ≠ 1 := by omega
  simp only [step, h, if_neg hne, Nat.add_one_sub_one]

lemma hex_last (items : List JavaText) (s : JavaText) (unit : UInt16) {c v : UInt16}
    (h : hexValue c = some v) :
    (ReaderState.hex items s 1 unit).step c = .chars items (s ++ [unit * 16 + v]) := by
  simp only [step, h, if_true]

lemma foldl_charText (items : List JavaText) (s : JavaText) {c : UInt16} {t : JavaText} (h : CharText c t) :
    t.foldl step (.chars items s) = .chars items (s ++ [c]) := by
  cases h with
  | raw hle hquote hback =>
    have hlt : ¬c < 0x20 := UInt16.not_lt.mpr hle
    simp [step, hquote, hback, hlt]
  | short e he =>
    have hlookup : (shortEscapes.all fun pair =>
        pair.1 != 0x75 && shortEscapes.lookup pair.1 == some pair.2) = true := by decide
    have hletter := List.all_eq_true.mp hlookup _ he
    rw [Bool.and_eq_true, bne_iff_ne, beq_iff_eq] at hletter
    obtain ⟨hne, hunit⟩ := hletter
    rw [List.foldl_cons, chars_backslash, List.foldl_cons, step, if_neg hne, hunit]
    rfl
  | unicode h₁ h₂ h₃ h₄ v₁ v₂ v₃ v₄ e₁ e₂ e₃ e₄ hc =>
    have hu : (ReaderState.escape items s).step 0x75 = .hex items s 4 0 := by
      rw [step, if_pos rfl]
    rw [List.foldl_cons, chars_backslash, List.foldl_cons, hu, List.foldl_cons, hex_more _ _ _ _ e₁,
      List.foldl_cons, hex_more _ _ _ _ e₂, List.foldl_cons, hex_more _ _ _ _ e₃, List.foldl_cons,
      hex_last _ _ _ e₄, hc, UInt16.zero_mul, UInt16.zero_add]
    rfl

lemma foldl_stringBody (items : List JavaText) {s body : JavaText} (h : StringBody s body) (before : JavaText) :
    body.foldl step (.chars items before) = .chars items (before ++ s) := by
  induction h generalizing before with
  | nil => rw [List.foldl_nil, List.append_nil]
  | cons hc _ ih =>
    rw [List.foldl_append, foldl_charText items before hc, ih, List.append_assoc, List.singleton_append]

lemma foldl_string (first : Bool) (items : List JavaText) {w s body w' : JavaText} (hw : Spaces w)
    (h : StringBody s body) (hw' : Spaces w') (rest : JavaText) :
    (w ++ quote :: (body ++ quote :: (w' ++ rest))).foldl step (.value first items) =
      rest.foldl step (.after (items ++ [s])) := by
  have hopen : (ReaderState.value first items).step quote = .chars items [] := by simp [step]
  have hclose : (ReaderState.chars items s).step quote = .after (items ++ [s]) := by simp [step]
  rw [List.foldl_append, foldl_spaces hw fun c => value_space first items, List.foldl_cons, hopen,
    List.foldl_append, foldl_stringBody items h, List.nil_append, List.foldl_cons, hclose, List.foldl_append,
    foldl_spaces hw' fun c => after_space _]

lemma foldl_elements {items : List JavaText} {t : JavaText} (h : Elements items t) (first : Bool)
    (before : List JavaText) : t.foldl step (.value first before) = .after (before ++ items) := by
  induction h generalizing first before with
  | last hw hbody hw' =>
    have hstring := foldl_string first before hw hbody hw' []
    rw [List.append_nil] at hstring
    exact hstring
  | more hw hbody hw' _ ih =>
    have hcomma : ∀ items, (ReaderState.after items).step comma = .value false items := by simp [step]
    rw [foldl_string first before hw hbody hw', List.foldl_cons, hcomma, ih, List.append_assoc,
      List.singleton_append]

/-- The reader gives the strings back, and does not look at what follows the array. -/
theorem read_arrayText {items : List JavaText} {text : JavaText} (h : ArrayText items text) (rest : JavaText) :
    read (text ++ rest) = some items := by
  obtain ⟨inner, hinner, rfl⟩ := h
  have hopen : ReaderState.start.step openBracket = .value true [] := by simp [step]
  have hquote : closeBracket ≠ quote := by decide
  have hcomma : closeBracket ≠ comma := by decide
  have hdone : (inner ++ [closeBracket]).foldl step (.value true []) = .done items := by
    rw [List.foldl_append]
    cases hinner with
    | empty hw =>
      rw [foldl_spaces hw fun c => value_space true []]
      simp [step, hquote]
    | elements helements =>
      rw [foldl_elements helements, List.nil_append]
      simp [step, hcomma]
  unfold read arrayText
  rw [List.cons_append, List.foldl_cons, hopen, List.foldl_append, hdone, foldl_done]

lemma read_cons_of_ne {c : UInt16} (hopen : c ≠ openBracket) (hspace : isSpace c = false) (text : JavaText) :
    read (c :: text) = none := by
  have hstep : ReaderState.start.step c = .failed := by simp [step, hopen, hspace]
  unfold read
  rw [List.foldl_cons, hstep, foldl_failed]

end JsonText
