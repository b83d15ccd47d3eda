import AscendAI.Lib.JsonTree

/-!
# JSON texts

The grammar of the standard as a relation between trees and texts, with any white space between the tokens and any
escape that stands for a character, and a pushdown reader that inverts it. So no text is a text of two trees.
How a number is written is left to whoever reads it.
-/

namespace JsonGrammar

/-! ### The grammar -/

def isSpace (c : Char) : Bool := c == ' ' || c == '\t' || c == '\n' || c == '\r'

def Spaces (w : List Char) : Prop := ∀ c ∈ w, isSpace c = true

/-- The letters of numbers. -/
def isNumeric (c : Char) : Bool := c.isDigit || c == '-' || c == '+' || c == '.' || c == 'e' || c == 'E'

/-- The escapes of one letter, each with the character that it stands for. -/
def shortEscapes : List (Char × Char) :=
  [('"', '"'), ('\\', '\\'), ('/', '/'), ('b', '\x08'), ('f', '\x0c'), ('n', '\n'), ('r', '\r'), ('t', '\t')]

def hexValue (c : Char) : Option ℕ :=
  if '0' ≤ c ∧ c ≤ '9' then some (c.toNat - 48)
  else if 'a' ≤ c ∧ c ≤ 'f' then some (c.toNat - 87)
  else if 'A' ≤ c ∧ c ≤ 'F' then some (c.toNat - 55)
  else none

/-- Four hexadecimal digits and their value. -/
inductive HexText (n : ℕ) : List Char → Prop
  | digits (h₁ h₂ h₃ h₄ : Char) (v₁ v₂ v₃ v₄ : ℕ) : hexValue h₁ = some v₁ → hexValue h₂ = some v₂ →
      hexValue h₃ = some v₃ → hexValue h₄ = some v₄ → n = ((v₁ * 16 + v₂) * 16 + v₃) * 16 + v₄ →
      HexText n [h₁, h₂, h₃, h₄]

def isHigh (n : ℕ) : Bool := 0xD800 ≤ n && n < 0xDC00

def isLow (n : ℕ) : Bool := 0xDC00 ≤ n && n < 0xE000

/-- What a pair of surrogates stands for. -/
def pairValue (high low : ℕ) : ℕ := 0x10000 + (high - 0xD800) * 0x400 + (low - 0xDC00)

/-- A text of one character of a string. -/
inductive CharText (c : Char) : List Char → Prop
  | raw : 0x20 ≤ c.toNat → c ≠ '"' → c ≠ '\\' → CharText c [c]
  | short (e : Char) : (e, c) ∈ shortEscapes → CharText c ['\\', e]
  | unicode (hex : List Char) : HexText c.toNat hex → CharText c ('\\' :: 'u' :: hex)
  | pair (high low : ℕ) (hex hex' : List Char) : isHigh high = true → isLow low = true → HexText high hex →
      HexText low hex' → c.toNat = pairValue high low →
      CharText c ('\\' :: 'u' :: (hex ++ '\\' :: 'u' :: hex'))

/-- A text of a string between its quotes. -/
inductive StringBody : List Char → List Char → Prop
  | nil : StringBody [] []
  | cons {c : Char} {s t body : List Char} : CharText c t → StringBody s body → StringBody (c :: s) (t ++ body)

/-- What a text can be of: a value, the elements between two brackets or the members between two braces. -/
inductive Item where
  | value (t : JsonTree)
  | elements (ts : List JsonTree)
  | members (fields : List (String × JsonTree))

/-- The text of a number is one for the reader of numbers. -/
def NumberText (readNumber : List Char → Option ℚ) (q : ℚ) (s : List Char) : Prop :=
  s ≠ [] ∧ s.all isNumeric = true ∧ readNumber s = some q

inductive Text (readNumber : List Char → Option ℚ) : Item → List Char → Prop
  | null : Text readNumber (.value .null) ['n', 'u', 'l', 'l']
  | true : Text readNumber (.value (.bool Bool.true)) ['t', 'r', 'u', 'e']
  | false : Text readNumber (.value (.bool Bool.false)) ['f', 'a', 'l', 's', 'e']
  | num {q : ℚ} {s : List Char} : NumberText readNumber q s → Text readNumber (.value (.num q)) s
  | str {s : String} {body : List Char} : StringBody s.toList body →
      Text readNumber (.value (.str s)) ('"' :: (body ++ ['"']))
  | emptyArr {w : List Char} : Spaces w → Text readNumber (.value (.arr [])) ('[' :: (w ++ [']']))
  | arr {ts : List JsonTree} {s : List Char} : Text readNumber (.elements ts) s →
      Text readNumber (.value (.arr ts)) ('[' :: (s ++ [']']))
  | emptyObj {w : List Char} : Spaces w → Text readNumber (.value (.obj [])) ('{' :: (w ++ ['}']))
  | obj {fields : List (String × JsonTree)} {s : List Char} : Text readNumber (.members fields) s →
      Text readNumber (.value (.obj fields)) ('{' :: (s ++ ['}']))
  | lastElement {t : JsonTree} {w s w' : List Char} : Spaces w → Text readNumber (.value t) s → Spaces w' →
      Text readNumber (.elements [t]) (w ++ (s ++ w'))
  | moreElements {t : JsonTree} {ts : List JsonTree} {w s w' rest : List Char} : Spaces w →
      Text readNumber (.value t) s → Spaces w' → Text readNumber (.elements ts) rest →
      Text readNumber (.elements (t :: ts)) (w ++ (s ++ (w' ++ ',' :: rest)))
  | lastMember {key : String} {t : JsonTree} {w body w' u s u' : List Char} : Spaces w →
      StringBody key.toList body → Spaces w' → Spaces u → Text readNumber (.value t) s → Spaces u' →
      Text readNumber (.members [(key, t)]) (w ++ '"' :: (body ++ '"' :: (w' ++ ':' :: (u ++ (s ++ u')))))
  | moreMembers {key : String} {t : JsonTree} {fields : List (String × JsonTree)}
      {w body w' u s u' rest : List Char} : Spaces w →
      StringBody key.toList body → Spaces w' → Spaces u → Text readNumber (.value t) s → Spaces u' →
      Text readNumber (.members fields) rest →
      Text readNumber (.members ((key, t) :: fields))
        (w ++ '"' :: (body ++ '"' :: (w' ++ ':' :: (u ++ (s ++ (u' ++ ',' :: rest))))))

/-- A text of a tree, with white space around it. -/
def Document (readNumber : List Char → Option ℚ) (t : JsonTree) (text : List Char) : Prop :=
  ∃ w s w', Spaces w ∧ Text readNumber (.value t) s ∧ Spaces w' ∧ text = w ++ (s ++ w')

/-! ### The reader -/

/-- What is open around the place of the reader: an array, an object in front of a key or one behind a key. -/
inductive Frame where
  | elements (done : List JsonTree)
  | fields (done : List (String × JsonTree))
  | member (done : List (String × JsonTree)) (key : String)

/-- What the reader is in the middle of. -/
inductive Mode where
  | value
  | firstValue
  | key (first : Bool)
  | colon
  | after (t : JsonTree)
  | number (text : List Char)
  | word (left : List Char) (t : JsonTree)
  | chars (s : List Char)
  | escape (s : List Char)
  | hex (s : List Char) (high : Option ℕ) (left value : ℕ)
  | lowBackslash (s : List Char) (high : ℕ)
  | lowLetter (s : List Char) (high : ℕ)
  | failed

structure ReaderState where
  mode : Mode
  stack : List Frame

section Reader

variable (readNumber : List Char → Option ℚ)

/-- The first letter of a value. -/
def startValue (mode : Mode) (stack : List Frame) (c : Char) : ReaderState :=
  if isSpace c then ⟨mode, stack⟩
  else if c = '"' then ⟨.chars [], stack⟩
  else if c = '[' then ⟨.firstValue, .elements [] :: stack⟩
  else if c = '{' then ⟨.key true, .fields [] :: stack⟩
  else if c = 'n' then ⟨.word ['u', 'l', 'l'] .null, stack⟩
  else if c = 't' then ⟨.word ['r', 'u', 'e'] (.bool true), stack⟩
  else if c = 'f' then ⟨.word ['a', 'l', 's', 'e'] (.bool false), stack⟩
  else if isNumeric c then ⟨.number [c], stack⟩
  else ⟨.failed, stack⟩

/-- A letter behind a value. -/
def afterValue (t : JsonTree) (stack : List Frame) (c : Char) : ReaderState :=
  if isSpace c then ⟨.after t, stack⟩
  else
    match stack with
    | .elements done :: stack =>
      if c = ',' then ⟨.value, .elements (done ++ [t]) :: stack⟩
      else if c = ']' then ⟨.after (.arr (done ++ [t])), stack⟩
      else ⟨.failed, stack⟩
    | .member done key :: stack =>
      if c = ',' then ⟨.key false, .fields (done ++ [(key, t)]) :: stack⟩
      else if c = '}' then ⟨.after (.obj (done ++ [(key, t)])), stack⟩
      else ⟨.failed, stack⟩
    | stack => ⟨.failed, stack⟩

/-- A string is complete: it is a key or a value. -/
def endString (s : List Char) : List Frame → ReaderState
  | .fields done :: stack => ⟨.colon, .member done (String.ofList s) :: stack⟩
  | stack => ⟨.after (.str (String.ofList s)), stack⟩

/-- Four hexadecimal digits are complete. -/
def endHex (s : List Char) (high : Option ℕ) (value : ℕ) : Mode :=
  match high with
  | some high => if isLow value then .chars (s ++ [Char.ofNat (pairValue high value)]) else .failed
  | none =>
    if isHigh value then .lowBackslash s value
    else if isLow value then .failed
    else .chars (s ++ [Char.ofNat value])

def endNumber (text : List Char) (stack : List Frame) : ReaderState :=
  match readNumber text with
  | some q => ⟨.after (.num q), stack⟩
  | none => ⟨.failed, stack⟩

/-- The end of a number shows only behind it. -/
def ReaderState.settle (state : ReaderState) : ReaderState :=
  match state.mode with
  | .number text => endNumber readNumber text state.stack
  | _ => state

def ReaderState.next (state : ReaderState) (c : Char) : ReaderState :=
  match state.mode with
  | .value => startValue .value state.stack c
  | .firstValue =>
    match c, state.stack with
    | ']', .elements [] :: stack => ⟨.after (.arr []), stack⟩
    | c, stack => startValue .firstValue stack c
  | .key first =>
    if isSpace c then state
    else if c = '"' then ⟨.chars [], state.stack⟩
    else
      match c, first, state.stack with
      | '}', true, .fields [] :: stack => ⟨.after (.obj []), stack⟩
      | _, _, stack => ⟨.failed, stack⟩
  | .colon => if isSpace c then state else if c = ':' then ⟨.value, state.stack⟩ else ⟨.failed, state.stack⟩
  | .after t => afterValue t state.stack c
  | .number _ => ⟨.failed, state.stack⟩
  | .word left t =>
    match left with
    | [] => ⟨.failed, state.stack⟩
    | [d] => if c = d then ⟨.after t, state.stack⟩ else ⟨.failed, state.stack⟩
    | d :: left => if c = d then ⟨.word left t, state.stack⟩ else ⟨.failed, state.stack⟩
  | .chars s =>
    if c = '"' then endString s state.stack
    else if c = '\\' then ⟨.escape s, state.stack⟩
    else if c.toNat < 0x20 then ⟨.failed, state.stack⟩
    else ⟨.chars (s ++ [c]), state.stack⟩
  | .escape s =>
    if c = 'u' then ⟨.hex s none 4 0, state.stack⟩
    else
      match shortEscapes.lookup c with
      | some d => ⟨.chars (s ++ [d]), state.stack⟩
      | none => ⟨.failed, state.stack⟩
  | .hex s high left value =>
    match hexValue c with
    | none => ⟨.failed, state.stack⟩
    | some v =>
      if left = 1 then ⟨endHex s high (value * 16 + v), state.stack⟩
      else ⟨.hex s high (left - 1) (value * 16 + v), state.stack⟩
  | .lowBackslash s high => if c = '\\' then ⟨.lowLetter s high, state.stack⟩ else ⟨.failed, state.stack⟩
  | .lowLetter s high => if c = 'u' then ⟨.hex s (some high) 4 0, state.stack⟩ else ⟨.failed, state.stack⟩
  | .failed => state

/-- A letter of a number goes on with it; any other letter ends it first. -/
def ReaderState.step (state : ReaderState) (c : Char) : ReaderState :=
  match state.mode with
  | .number text =>
    if isNumeric c then ⟨.number (text ++ [c]), state.stack⟩ else (state.settle readNumber).next c
  | _ => state.next c

def scan (state : ReaderState) (text : List Char) : ReaderState := text.foldl (ReaderState.step readNumber) state

def read (text : List Char) : Option JsonTree :=
  match (scan readNumber ⟨.value, []⟩ text).settle readNumber with
  | ⟨.after t, []⟩ => some t
  | _ => none

end Reader

/-! ### The reader inverts the grammar -/

section Inversion

variable {readNumber : List Char → Option ℚ} {stack : List Frame}

lemma scan_append (state : ReaderState) (s t : List Char) :
    scan readNumber state (s ++ t) = scan readNumber (scan readNumber state s) t := List.foldl_append

lemma scan_cons (state : ReaderState) (c : Char) (s : List Char) :
    scan readNumber state (c :: s) = scan readNumber (state.step readNumber c) s := rfl

lemma scan_nil (state : ReaderState) : scan readNumber state [] = state := rfl

lemma isNumeric_of_isSpace {c : Char} (h : isSpace c = true) : isNumeric c = false := by
  simp only [isSpace, Bool.or_eq_true, beq_iff_eq] at h
  obtain ((rfl | rfl) | rfl) | rfl := h <;> decide

/-- A reader that stays where it is at white space. -/
lemma scan_spaces {state : ReaderState} (hstay : ∀ c, isSpace c = true → state.step readNumber c = state)
    {w : List Char} (hw : Spaces w) : scan readNumber state w = state := by
  induction w with
  | nil => rfl
  | cons c w ih =>
    rw [scan_cons, hstay c (hw c List.mem_cons_self)]
    exact ih fun d hd => hw d (List.mem_cons_of_mem c hd)

/-! #### Strings -/

lemma step_hex_more (s : List Char) (high : Option ℕ) (left value : ℕ) {c : Char} {v : ℕ} (h : hexValue c = some v) :
    (⟨.hex s high (left + 2) value, stack⟩ : ReaderState).step readNumber c =
      ⟨.hex s high (left + 1) (value * 16 + v), stack⟩ := by
  have hne : left + 2 ≠ 1 := by omega
  simp only [ReaderState.step, ReaderState.next, h, if_neg hne, Nat.add_one_sub_one]

lemma step_hex_last (s : List Char) (high : Option ℕ) (value : ℕ) {c : Char} {v : ℕ} (h : hexValue c = some v) :
    (⟨.hex s high 1 value, stack⟩ : ReaderState).step readNumber c = ⟨endHex s high (value * 16 + v), stack⟩ := by
  simp only [ReaderState.step, ReaderState.next, h, if_true]

lemma scan_hexText (s : List Char) (high : Option ℕ) {n : ℕ} {hex : List Char} (h : HexText n hex) :
    scan readNumber ⟨.hex s high 4 0, stack⟩ hex = ⟨endHex s high n, stack⟩ := by
  obtain ⟨h₁, h₂, h₃, h₄, v₁, v₂, v₃, v₄, e₁, e₂, e₃, e₄, hn⟩ := h
  rw [scan_cons, step_hex_more s high 2 0 e₁, scan_cons, step_hex_more s high 1 _ e₂, scan_cons,
    step_hex_more s high 0 _ e₃, scan_cons, step_hex_last s high _ e₄, scan_nil, hn, Nat.zero_mul, Nat.zero_add]

lemma step_backslash (s : List Char) :
    (⟨.chars s, stack⟩ : ReaderState).step readNumber '\\' = ⟨.escape s, stack⟩ := rfl

lemma step_letter (s : List Char) :
    (⟨.escape s, stack⟩ : ReaderState).step readNumber 'u' = ⟨.hex s none 4 0, stack⟩ := rfl

lemma not_isHigh_toNat (c : Char) : isHigh c.toNat = false := by
  have hvalid : c.toNat < 0xD800 ∨ 0xDFFF < c.toNat ∧ c.toNat < 0x110000 := c.valid
  simp only [isHigh, Bool.and_eq_false_iff, decide_eq_false_iff_not]
  omega

lemma not_isLow_toNat (c : Char) : isLow c.toNat = false := by
  have hvalid : c.toNat < 0xD800 ∨ 0xDFFF < c.toNat ∧ c.toNat < 0x110000 := c.valid
  simp only [isLow, Bool.and_eq_false_iff, decide_eq_false_iff_not]
  omega

lemma endHex_toNat (s : List Char) (c : Char) : endHex s none c.toNat = .chars (s ++ [c]) := by
  simp only [endHex, not_isHigh_toNat, not_isLow_toNat, Bool.false_eq_true, if_false, Char.ofNat_toNat]

lemma scan_charText (s : List Char) {c : Char} {t : List Char} (h : CharText c t) :
    scan readNumber ⟨.chars s, stack⟩ t = ⟨.chars (s ++ [c]), stack⟩ := by
  cases h with
  | raw hle hquote hback =>
    have hlt : ¬c.toNat < 0x20 := Nat.not_lt.mpr hle
    simp only [scan_cons, scan_nil, ReaderState.step, ReaderState.next, if_neg hquote, if_neg hback, if_neg hlt]
  | short e he =>
    have hlookup : (shortEscapes.all fun pair =>
        pair.1 != 'u' && shortEscapes.lookup pair.1 == some pair.2) = true := by decide
    have hletter := List.all_eq_true.mp hlookup _ he
    rw [Bool.and_eq_true, bne_iff_ne, beq_iff_eq] at hletter
    rw [scan_cons, step_backslash, scan_cons, scan_nil]
    simp only [ReaderState.step, ReaderState.next, if_neg hletter.1, hletter.2]
  | unicode hex hhex =>
    rw [scan_cons, step_backslash, scan_cons, step_letter, scan_hexText s none hhex, endHex_toNat]
  | pair high low hex hex' hhigh hlow hhex hhex' hc =>
    have hfirst : endHex s none high = .lowBackslash s high := by simp only [endHex, hhigh, if_true]
    have hsecond : endHex s (some high) low = .chars (s ++ [c]) := by
      simp only [endHex, hlow, if_true, ← hc, Char.ofNat_toNat]
    have hback : (⟨.lowBackslash s high, stack⟩ : ReaderState).step readNumber '\\' = ⟨.lowLetter s high, stack⟩ := rfl
    have hletter : (⟨.lowLetter s high, stack⟩ : ReaderState).step readNumber 'u' = ⟨.hex s (some high) 4 0, stack⟩ :=
      rfl
    rw [scan_cons, step_backslash, scan_cons, step_letter, scan_append, scan_hexText s none hhex, hfirst, scan_cons,
      hback, scan_cons, hletter, scan_hexText s (some high) hhex', hsecond]

lemma scan_stringBody {s body : List Char} (h : StringBody s body) (before : List Char) :
    scan readNumber ⟨.chars before, stack⟩ body = ⟨.chars (before ++ s), stack⟩ := by
  induction h generalizing before with
  | nil => rw [scan_nil, List.append_nil]
  | cons hc hbody ih => rw [scan_append, scan_charText before hc, ih, List.append_assoc, List.singleton_append]

/-- A string behind its first quote. -/
lemma scan_string {s : String} {body : List Char} (h : StringBody s.toList body) (rest : List Char) :
    scan readNumber ⟨.chars [], stack⟩ (body ++ '"' :: rest) = scan readNumber (endString s.toList stack) rest := by
  rw [scan_append, scan_stringBody h, List.nil_append]
  rfl

/-! #### Values -/

/-- The reader waits for a value, and not for a key. -/
def Awaits (mode : Mode) (stack : List Frame) : Prop :=
  (mode = .value ∨ mode = .firstValue) ∧ ∀ done stack', stack ≠ .fields done :: stack'

lemma next_of_awaits {mode : Mode} (hmode : Awaits mode stack) {c : Char} (hc : c ≠ ']') :
    (⟨mode, stack⟩ : ReaderState).step readNumber c = startValue mode stack c := by
  obtain rfl | rfl := hmode.1
  · rfl
  · simp only [ReaderState.step, ReaderState.next]
    split
    · exact absurd rfl hc
    · rfl

lemma scan_spaces_of_awaits {mode : Mode} (hmode : Awaits mode stack) {w : List Char} (hw : Spaces w) :
    scan readNumber ⟨mode, stack⟩ w = ⟨mode, stack⟩ := by
  apply scan_spaces _ hw
  intro c hc
  have hne : c ≠ ']' := by
    rintro rfl
    cases hc
  rw [next_of_awaits hmode hne, startValue, if_pos hc]

lemma step_of_after {state : ReaderState} {t : JsonTree} (h : state = ⟨.after t, stack⟩) (c : Char) :
    state.step readNumber c = afterValue t stack c := by
  rw [h]
  rfl

/-- Behind a value a letter that is not one of a number ends it, if it is a number. -/
lemma step_of_settle {state : ReaderState} {t : JsonTree} (h : state.settle readNumber = ⟨.after t, stack⟩) {c : Char}
    (hc : isNumeric c = false) : state.step readNumber c = afterValue t stack c := by
  obtain ⟨mode, frames⟩ := state
  cases mode with
  | number text =>
    simp only [ReaderState.step, hc, Bool.false_eq_true, if_false, h]
    rfl
  | _ => exact step_of_after h c

lemma afterValue_space (t : JsonTree) {c : Char} (hc : isSpace c = true) : afterValue t stack c = ⟨.after t, stack⟩ :=
  if_pos hc

lemma step_after_space {t : JsonTree} (c : Char) (hc : isSpace c = true) :
    (⟨.after t, stack⟩ : ReaderState).step readNumber c = ⟨.after t, stack⟩ := if_pos hc

/-- White space behind a value, up to what follows it. -/
lemma scan_behind {state : ReaderState} {t : JsonTree} (h : state.settle readNumber = ⟨.after t, stack⟩)
    {w : List Char} (hw : Spaces w) {c : Char} (hc : isNumeric c = false) (rest : List Char) :
    scan readNumber state (w ++ c :: rest) = scan readNumber (afterValue t stack c) rest := by
  cases w with
  | nil => rw [List.nil_append, scan_cons, step_of_settle h hc]
  | cons d w =>
    have hd : isSpace d = true := hw d List.mem_cons_self
    have hw' : Spaces w := fun e he => hw e (List.mem_cons_of_mem d he)
    rw [List.cons_append, scan_cons, step_of_settle h (isNumeric_of_isSpace hd), afterValue_space t hd, scan_append,
      scan_spaces step_after_space hw', scan_cons]
    rfl

/-- What it is for the reader to read an item. -/
def Reads (readNumber : List Char → Option ℚ) : Item → List Char → Prop
  | .value t, s => ∀ mode stack, Awaits mode stack →
      (scan readNumber ⟨mode, stack⟩ s).settle readNumber = ⟨.after t, stack⟩
  | .elements ts, s => ∀ mode done stack, mode = .value ∨ mode = .firstValue →
      scan readNumber ⟨mode, .elements done :: stack⟩ (s ++ [']']) = ⟨.after (.arr (done ++ ts)), stack⟩
  | .members fields, s => ∀ first done stack,
      scan readNumber ⟨.key first, .fields done :: stack⟩ (s ++ ['}']) = ⟨.after (.obj (done ++ fields)), stack⟩

/-- The letters of a number go on with it. -/
lemma scan_number {s : List Char} (h : s.all isNumeric = true) (text : List Char) :
    scan readNumber ⟨.number text, stack⟩ s = ⟨.number (text ++ s), stack⟩ := by
  induction s generalizing text with
  | nil => rw [scan_nil, List.append_nil]
  | cons c s ih =>
    rw [List.all_cons, Bool.and_eq_true] at h
    have hstep : (⟨.number text, stack⟩ : ReaderState).step readNumber c = ⟨.number (text ++ [c]), stack⟩ := by
      simp only [ReaderState.step, h.1, if_true]
    rw [scan_cons, hstep, ih h.2, List.append_assoc, List.singleton_append]

lemma startValue_of_isNumeric {mode : Mode} {c : Char} (h : isNumeric c = true) :
    startValue mode stack c = ⟨.number [c], stack⟩ := by
  have hne : isSpace c = false ∧ c ≠ '"' ∧ c ≠ '[' ∧ c ≠ '{' ∧ c ≠ 'n' ∧ c ≠ 't' ∧ c ≠ 'f' := by
    refine ⟨?_, ?_, ?_, ?_, ?_, ?_, ?_⟩
    · by_contra hspace
      rw [Bool.not_eq_false] at hspace
      rw [isNumeric_of_isSpace hspace] at h
      cases h
    all_goals
      rintro rfl
      cases h
  obtain ⟨hspace, hquote, hbracket, hbrace, hn, ht, hf⟩ := hne
  rw [startValue, hspace, if_neg Bool.false_ne_true, if_neg hquote, if_neg hbracket, if_neg hbrace, if_neg hn,
    if_neg ht, if_neg hf, if_pos h]

lemma reads_num {q : ℚ} {s : List Char} (h : NumberText readNumber q s) : Reads readNumber (.value (.num q)) s := by
  intro mode stack hmode
  obtain ⟨hne, hall, hread⟩ := h
  cases s with
  | nil => exact absurd rfl hne
  | cons c s =>
    have hparts := hall
    rw [List.all_cons, Bool.and_eq_true] at hparts
    have hc : c ≠ ']' := by
      rintro rfl
      cases hparts.1
    rw [scan_cons, next_of_awaits hmode hc, startValue_of_isNumeric hparts.1, scan_number hparts.2,
      List.singleton_append]
    simp only [ReaderState.settle, endNumber, hread]

/-- A string is read as a value, unless it stands where a key does. -/
lemma endString_eq {s : List Char} (h : ∀ done stack', stack ≠ .fields done :: stack') :
    endString s stack = ⟨.after (.str (String.ofList s)), stack⟩ := by
  unfold endString
  split
  · exact absurd rfl (h _ _)
  · rfl

lemma reads_str {s : String} {body : List Char} (h : StringBody s.toList body) :
    Reads readNumber (.value (.str s)) ('"' :: (body ++ ['"'])) := by
  intro mode stack hmode
  have hstart : startValue mode stack '"' = ⟨.chars [], stack⟩ := rfl
  rw [scan_cons, next_of_awaits hmode (by decide), hstart, scan_string h, scan_nil, endString_eq hmode.2,
    String.ofList_toList]
  rfl

/-- An array whose elements the reader reads. -/
lemma reads_arr {ts : List JsonTree} {s : List Char} (h : Reads readNumber (.elements ts) s) :
    Reads readNumber (.value (.arr ts)) ('[' :: (s ++ [']'])) := by
  intro mode stack hmode
  have hstart : startValue mode stack '[' = ⟨.firstValue, .elements [] :: stack⟩ := rfl
  rw [scan_cons, next_of_awaits hmode (by decide), hstart, h .firstValue [] stack (.inr rfl), List.nil_append]
  rfl

lemma reads_obj {fields : List (String × JsonTree)} {s : List Char} (h : Reads readNumber (.members fields) s) :
    Reads readNumber (.value (.obj fields)) ('{' :: (s ++ ['}'])) := by
  intro mode stack hmode
  have hstart : startValue mode stack '{' = ⟨.key true, .fields [] :: stack⟩ := rfl
  rw [scan_cons, next_of_awaits hmode (by decide), hstart, h true [] stack, List.nil_append]
  rfl

lemma awaits_elements {mode : Mode} (hmode : mode = .value ∨ mode = .firstValue) (done : List JsonTree) :
    Awaits mode (.elements done :: stack) := by
  refine ⟨hmode, ?_⟩
  intro done' stack' heq
  cases heq

lemma awaits_member (done : List (String × JsonTree)) (key : String) : Awaits .value (.member done key :: stack) := by
  refine ⟨.inl rfl, ?_⟩
  intro done' stack' heq
  cases heq

lemma reads_emptyArr {w : List Char} (hw : Spaces w) : Reads readNumber (.value (.arr [])) ('[' :: (w ++ [']'])) := by
  intro mode stack hmode
  have hstart : startValue mode stack '[' = ⟨.firstValue, .elements [] :: stack⟩ := rfl
  have hfirst : Awaits .firstValue (.elements [] :: stack) := awaits_elements (.inr rfl) []
  rw [scan_cons, next_of_awaits hmode (by decide), hstart, scan_append, scan_spaces_of_awaits hfirst hw]
  rfl

lemma step_key_space (first : Bool) (c : Char) (hc : isSpace c = true) :
    (⟨.key first, stack⟩ : ReaderState).step readNumber c = ⟨.key first, stack⟩ := if_pos hc

lemma step_colon_space (c : Char) (hc : isSpace c = true) :
    (⟨.colon, stack⟩ : ReaderState).step readNumber c = ⟨.colon, stack⟩ := if_pos hc

lemma reads_emptyObj {w : List Char} (hw : Spaces w) : Reads readNumber (.value (.obj [])) ('{' :: (w ++ ['}'])) := by
  intro mode stack hmode
  have hstart : startValue mode stack '{' = ⟨.key true, .fields [] :: stack⟩ := rfl
  rw [scan_cons, next_of_awaits hmode (by decide), hstart, scan_append, scan_spaces (step_key_space true) hw]
  rfl

/-- An element, up to what follows it. -/
lemma scan_element {t : JsonTree} {s : List Char} (h : Reads readNumber (.value t) s) {mode : Mode}
    (hmode : mode = .value ∨ mode = .firstValue) (done : List JsonTree) {w₁ w₂ : List Char} (h₁ : Spaces w₁)
    (h₂ : Spaces w₂) {c : Char} (hc : isNumeric c = false) (rest : List Char) :
    scan readNumber ⟨mode, .elements done :: stack⟩ (w₁ ++ (s ++ (w₂ ++ c :: rest))) =
      scan readNumber (afterValue t (.elements done :: stack) c) rest := by
  have hawaits : Awaits mode (.elements done :: stack) := awaits_elements hmode done
  rw [scan_append, scan_spaces_of_awaits hawaits h₁, scan_append, scan_behind (h _ _ hawaits) h₂ hc]

/-- A member, up to what follows it. -/
lemma scan_member {key : String} {t : JsonTree} {s body : List Char} (hbody : StringBody key.toList body)
    (h : Reads readNumber (.value t) s) (first : Bool) (done : List (String × JsonTree))
    {w₁ w₂ w₃ w₄ : List Char} (h₁ : Spaces w₁) (h₂ : Spaces w₂) (h₃ : Spaces w₃) (h₄ : Spaces w₄) {c : Char}
    (hc : isNumeric c = false) (rest : List Char) :
    scan readNumber ⟨.key first, .fields done :: stack⟩
        (w₁ ++ '"' :: (body ++ '"' :: (w₂ ++ ':' :: (w₃ ++ (s ++ (w₄ ++ c :: rest)))))) =
      scan readNumber (afterValue t (.member done key :: stack) c) rest := by
  have hawaits : Awaits .value (.member done key :: stack) := awaits_member done key
  have hquote : (⟨.key first, .fields done :: stack⟩ : ReaderState).step readNumber '"' =
    ⟨.chars [], .fields done :: stack⟩ := rfl
  have hkey : endString key.toList (.fields done :: stack) = ⟨.colon, .member done key :: stack⟩ := by
    rw [endString, String.ofList_toList]
  have hcolon : (⟨.colon, .member done key :: stack⟩ : ReaderState).step readNumber ':' =
    ⟨.value, .member done key :: stack⟩ := rfl
  rw [scan_append, scan_spaces (step_key_space first) h₁, scan_cons, hquote, scan_string hbody, hkey, scan_append,
    scan_spaces step_colon_space h₂, scan_cons, hcolon, scan_append, scan_spaces_of_awaits hawaits h₃, scan_append,
    scan_behind (h _ _ hawaits) h₄ hc]

/-- The reader reads every item of the grammar. -/
theorem reads_of_text {item : Item} {s : List Char} (h : Text readNumber item s) : Reads readNumber item s := by
  induction h with
  | null =>
    intro mode stack hmode
    rw [scan_cons, next_of_awaits hmode (by decide)]
    rfl
  | true =>
    intro mode stack hmode
    rw [scan_cons, next_of_awaits hmode (by decide)]
    rfl
  | false =>
    intro mode stack hmode
    rw [scan_cons, next_of_awaits hmode (by decide)]
    rfl
  | num hnumber => exact reads_num hnumber
  | str hbody => exact reads_str hbody
  | emptyArr hw => exact reads_emptyArr hw
  | arr _ ih => exact reads_arr ih
  | emptyObj hw => exact reads_emptyObj hw
  | obj _ ih => exact reads_obj ih
  | lastElement h₁ _ h₂ ih =>
    intro mode done stack hmode
    rw [List.append_assoc, List.append_assoc, scan_element ih hmode done h₁ h₂ (by decide)]
    rfl
  | @moreElements t ts w₁ s w₂ rest h₁ _ h₂ _ ih ihrest =>
    intro mode done stack hmode
    simp only [List.append_assoc, List.cons_append]
    rw [scan_element ih hmode done h₁ h₂ (by decide)]
    have hnext := ihrest .value (done ++ [t]) stack (.inl rfl)
    rw [List.append_assoc, List.singleton_append] at hnext
    exact hnext
  | lastMember h₁ hbody h₂ h₃ _ h₄ ih =>
    intro first done stack
    simp only [List.append_assoc, List.cons_append]
    rw [scan_member hbody ih first done h₁ h₂ h₃ h₄ (by decide)]
    rfl
  | @moreMembers key t fields w₁ body w₂ w₃ s w₄ rest h₁ hbody h₂ h₃ _ h₄ _ ih ihrest =>
    intro first done stack
    simp only [List.append_assoc, List.cons_append]
    rw [scan_member hbody ih first done h₁ h₂ h₃ h₄ (by decide)]
    have hnext := ihrest Bool.false (done ++ [(key, t)]) stack
    rw [List.append_assoc, List.singleton_append] at hnext
    exact hnext

/-- White space at the end of a text. -/
lemma settle_scan_spaces {state : ReaderState} {t : JsonTree} (h : state.settle readNumber = ⟨.after t, stack⟩)
    {w : List Char} (hw : Spaces w) : (scan readNumber state w).settle readNumber = ⟨.after t, stack⟩ := by
  cases w with
  | nil => exact h
  | cons c w =>
    have hc : isSpace c = true := hw c List.mem_cons_self
    have hw' : Spaces w := fun e he => hw e (List.mem_cons_of_mem c he)
    rw [scan_cons, step_of_settle h (isNumeric_of_isSpace hc), afterValue_space t hc, scan_spaces step_after_space hw']
    rfl

/-- The reader gives back the tree of a text. -/
theorem read_document {t : JsonTree} {text : List Char} (h : Document readNumber t text) :
    read readNumber text = some t := by
  obtain ⟨w, s, w', hw, htext, hw', rfl⟩ := h
  have hawaits : Awaits .value [] := ⟨.inl rfl, nofun⟩
  have hvalue := reads_of_text htext .value [] hawaits
  rw [read, scan_append, scan_spaces_of_awaits hawaits hw, scan_append, settle_scan_spaces hvalue hw']

/-- No text is a text of two trees. -/
theorem document_unambiguous {t t' : JsonTree} {text : List Char} (h : Document readNumber t text)
    (h' : Document readNumber t' text) : t = t' :=
  Option.some.inj ((read_document h).symm.trans (read_document h'))

end Inversion

end JsonGrammar
