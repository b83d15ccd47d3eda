import AscendAI.Lib.JsonGrammar

/-!
# Python's `json.dumps`

The writer with its default separators, and with or without `ensure_ascii`. What it writes is a text of its tree, when
the numbers of the tree are written as texts of numbers.
-/

namespace JsonGrammar

/-! ### Strings -/

/-- The letters of the short escapes that the writer uses. -/
def writtenEscape : Char → Option Char
  | '"' => some '"'
  | '\\' => some '\\'
  | '\n' => some 'n'
  | '\r' => some 'r'
  | '\t' => some 't'
  | '\x0c' => some 'f'
  | '\x08' => some 'b'
  | _ => none

/-- The digits of `'{0:04x}'.format(n)`. -/
def hexDigits (n : ℕ) : List Char :=
  [(n / 4096 % 16).digitChar, (n / 256 % 16).digitChar, (n / 16 % 16).digitChar, (n % 16).digitChar]

/-- `py_encode_basestring`, for one character. -/
def escapeChar (c : Char) : List Char :=
  match writtenEscape c with
  | some e => ['\\', e]
  | none => if c.toNat < 0x20 then '\\' :: 'u' :: hexDigits c.toNat else [c]

/-- `py_encode_basestring_ascii`, for one character. -/
def escapeAscii (c : Char) : List Char :=
  match writtenEscape c with
  | some e => ['\\', e]
  | none =>
    if 0x20 ≤ c.toNat ∧ c.toNat ≤ 0x7E then [c]
    else if c.toNat < 0x10000 then '\\' :: 'u' :: hexDigits c.toNat
    else
      '\\' :: 'u' :: (hexDigits (0xD800 + (c.toNat - 0x10000) / 0x400) ++
        '\\' :: 'u' :: hexDigits (0xDC00 + (c.toNat - 0x10000) % 0x400))

lemma hexValue_digitChar : ∀ d < 16, hexValue d.digitChar = some d := by decide

lemma hexText_hexDigits {n : ℕ} (h : n < 0x10000) : HexText n (hexDigits n) := by
  have hdigit : ∀ m, hexValue (m % 16).digitChar = some (m % 16) := fun m =>
    hexValue_digitChar _ (Nat.mod_lt m (by decide))
  refine .digits _ _ _ _ _ _ _ _ (hdigit _) (hdigit _) (hdigit _) (hdigit n) ?_
  omega

lemma mem_shortEscapes_of_writtenEscape {c e : Char} (h : writtenEscape c = some e) : (e, c) ∈ shortEscapes := by
  unfold writtenEscape at h
  split at h <;> cases h <;> decide

lemma raw_of_writtenEscape {c : Char} (h : writtenEscape c = none) : c ≠ '"' ∧ c ≠ '\\' := by
  constructor
  · rintro rfl
    cases h
  · rintro rfl
    cases h

lemma charText_escapeChar (c : Char) : CharText c (escapeChar c) := by
  unfold escapeChar
  split
  · rename_i e he
    exact .short e (mem_shortEscapes_of_writtenEscape he)
  · rename_i hnone
    obtain ⟨hquote, hback⟩ := raw_of_writtenEscape hnone
    split
    · rename_i hlt
      exact .unicode _ (hexText_hexDigits (by omega))
    · rename_i hle
      exact .raw (by omega) hquote hback

lemma charText_escapeAscii (c : Char) : CharText c (escapeAscii c) := by
  unfold escapeAscii
  split
  · rename_i e he
    exact .short e (mem_shortEscapes_of_writtenEscape he)
  · rename_i hnone
    obtain ⟨hquote, hback⟩ := raw_of_writtenEscape hnone
    split
    · rename_i hle
      exact .raw hle.1 hquote hback
    · split
      · rename_i hlt
        exact .unicode _ (hexText_hexDigits hlt)
      · have hvalid : c.toNat < 0xD800 ∨ 0xDFFF < c.toNat ∧ c.toNat < 0x110000 := c.valid
        refine .pair _ _ _ _ ?_ ?_ (hexText_hexDigits ?_) (hexText_hexDigits ?_) ?_
        · simp only [isHigh, Bool.and_eq_true, decide_eq_true_eq]
          omega
        · simp only [isLow, Bool.and_eq_true, decide_eq_true_eq]
          omega
        · omega
        · omega
        · unfold pairValue
          omega

/-! ### Trees -/

section Dumps

variable (escape : Char → List Char) (writeNumber : ℚ → List Char)

def dumpString (s : String) : List Char := '"' :: (s.toList.flatMap escape ++ ['"'])

mutual

def dump : JsonTree → List Char
  | .null => ['n', 'u', 'l', 'l']
  | .bool true => ['t', 'r', 'u', 'e']
  | .bool false => ['f', 'a', 'l', 's', 'e']
  | .num q => writeNumber q
  | .str s => dumpString escape s
  | .arr ts => '[' :: (dumpElements ts ++ [']'])
  | .obj fields => '{' :: (dumpMembers fields ++ ['}'])

def dumpElements : List JsonTree → List Char
  | [] => []
  | [t] => dump t
  | t :: t' :: ts => dump t ++ ',' :: ' ' :: dumpElements (t' :: ts)

def dumpMembers : List (String × JsonTree) → List Char
  | [] => []
  | [(key, t)] => dumpString escape key ++ ':' :: ' ' :: dump t
  | (key, t) :: field :: fields =>
    dumpString escape key ++ ':' :: ' ' :: (dump t ++ ',' :: ' ' :: dumpMembers (field :: fields))

end

end Dumps

mutual

/-- Every number of the tree has a text. -/
def Writable (readNumber : List Char → Option ℚ) (writeNumber : ℚ → List Char) : JsonTree → Prop
  | .num q => NumberText readNumber q (writeNumber q)
  | .arr ts => AllWritable readNumber writeNumber ts
  | .obj fields => FieldsWritable readNumber writeNumber fields
  | _ => True

def AllWritable (readNumber : List Char → Option ℚ) (writeNumber : ℚ → List Char) : List JsonTree → Prop
  | [] => True
  | t :: ts => Writable readNumber writeNumber t ∧ AllWritable readNumber writeNumber ts

def FieldsWritable (readNumber : List Char → Option ℚ) (writeNumber : ℚ → List Char) :
    List (String × JsonTree) → Prop
  | [] => True
  | (_, t) :: fields => Writable readNumber writeNumber t ∧ FieldsWritable readNumber writeNumber fields

end

/-! ### What is written is a text -/

/-- Induction on trees with the elements and the members of a tree below it. -/
theorem induct {P : JsonTree → Prop} (null : P .null) (bool : ∀ b, P (.bool b)) (num : ∀ q, P (.num q))
    (str : ∀ s, P (.str s)) (arr : ∀ ts, (∀ t ∈ ts, P t) → P (.arr ts))
    (obj : ∀ fields, (∀ field ∈ fields, P field.2) → P (.obj fields)) (t : JsonTree) : P t := by
  refine @JsonTree.rec P (fun ts => ∀ t ∈ ts, P t) (fun fields => ∀ field ∈ fields, P field.2)
    (fun field => P field.2) null bool num str arr obj ?_ ?_ ?_ ?_ ?_ t
  · exact nofun
  · exact fun t ts ht hts => List.forall_mem_cons.mpr ⟨ht, hts⟩
  · exact nofun
  · exact fun field fields hfield hfields => List.forall_mem_cons.mpr ⟨hfield, hfields⟩
  · exact fun _ _ h => h

section Texts

variable {escape : Char → List Char} {writeNumber : ℚ → List Char} {readNumber : List Char → Option ℚ}

lemma allWritable_iff (ts : List JsonTree) :
    AllWritable readNumber writeNumber ts ↔ ∀ t ∈ ts, Writable readNumber writeNumber t := by
  induction ts with
  | nil => exact iff_of_true trivial nofun
  | cons t ts ih => rw [AllWritable, ih, List.forall_mem_cons]

lemma fieldsWritable_iff (fields : List (String × JsonTree)) :
    FieldsWritable readNumber writeNumber fields ↔ ∀ field ∈ fields, Writable readNumber writeNumber field.2 := by
  induction fields with
  | nil => exact iff_of_true trivial nofun
  | cons field fields ih => rw [FieldsWritable, ih, List.forall_mem_cons]

lemma stringBody_flatMap (hescape : ∀ c, CharText c (escape c)) (s : List Char) : StringBody s (s.flatMap escape) := by
  induction s with
  | nil => exact .nil
  | cons c s ih => exact .cons (hescape c) ih

lemma spaces_nil : Spaces [] := nofun

lemma spaces_singleton : Spaces [' '] := by
  intro c hc
  rw [List.mem_singleton] at hc
  rw [hc]
  rfl

lemma text_dumpElements {t : JsonTree} {ts : List JsonTree}
    (h : ∀ t' ∈ t :: ts, Text readNumber (.value t') (dump escape writeNumber t')) {w : List Char} (hw : Spaces w) :
    Text readNumber (.elements (t :: ts)) (w ++ dumpElements escape writeNumber (t :: ts)) := by
  induction ts generalizing t w with
  | nil =>
    have hlast := Text.lastElement hw (h t List.mem_cons_self) spaces_nil
    rw [List.append_nil] at hlast
    exact hlast
  | cons t' ts ih =>
    have hrest := ih (fun u hu => h u (List.mem_cons_of_mem t hu)) spaces_singleton
    exact Text.moreElements hw (h t List.mem_cons_self) spaces_nil hrest

lemma text_dumpMembers (hescape : ∀ c, CharText c (escape c)) {key : String} {t : JsonTree}
    {fields : List (String × JsonTree)}
    (h : ∀ field ∈ (key, t) :: fields, Text readNumber (.value field.2) (dump escape writeNumber field.2))
    {w : List Char} (hw : Spaces w) :
    Text readNumber (.members ((key, t) :: fields)) (w ++ dumpMembers escape writeNumber ((key, t) :: fields)) := by
  induction fields generalizing key t w with
  | nil =>
    have hkey := stringBody_flatMap hescape key.toList
    have hlast := Text.lastMember hw hkey spaces_nil spaces_singleton (h _ List.mem_cons_self) spaces_nil
    simpa [dumpMembers, dumpString] using hlast
  | cons field fields ih =>
    have hkey := stringBody_flatMap hescape key.toList
    have hrest := ih (fun u hu => h u (List.mem_cons_of_mem _ hu)) spaces_singleton
    have hmore := Text.moreMembers hw hkey spaces_nil spaces_singleton (h _ List.mem_cons_self) spaces_nil hrest
    simpa [dumpMembers, dumpString] using hmore

theorem text_dump (hescape : ∀ c, CharText c (escape c)) {t : JsonTree} (h : Writable readNumber writeNumber t) :
    Text readNumber (.value t) (dump escape writeNumber t) := by
  induction t using induct with
  | null => exact .null
  | bool b =>
    cases b with
    | true => exact .true
    | false => exact .false
  | num q => exact .num h
  | str s => exact .str (stringBody_flatMap hescape s.toList)
  | arr ts ih =>
    rw [Writable, allWritable_iff] at h
    cases ts with
    | nil => exact .emptyArr spaces_nil
    | cons t ts => exact .arr (text_dumpElements (fun u hu => ih u hu (h u hu)) spaces_nil)
  | obj fields ih =>
    rw [Writable, fieldsWritable_iff] at h
    cases fields with
    | nil => exact .emptyObj spaces_nil
    | cons field fields => exact .obj (text_dumpMembers hescape (fun u hu => ih u hu (h u hu)) spaces_nil)

theorem document_dump (hescape : ∀ c, CharText c (escape c)) {t : JsonTree} (h : Writable readNumber writeNumber t) :
    Document readNumber t (dump escape writeNumber t) :=
  ⟨[], _, [], spaces_nil, text_dump hescape h, spaces_nil, by rw [List.nil_append, List.append_nil]⟩

end Texts

/-! ### The characters that are written -/

/-- The characters that are no part of a string or a number. -/
def marks : List Char := ['"', '[', ']', '{', '}', ',', ':', ' ', 'n', 'u', 'l', 't', 'r', 'e', 'f', 'a', 's']

section Chars

variable {escape : Char → List Char} {writeNumber : ℚ → List Char} {readNumber : List Char → Option ℚ} {P : Char → Prop}

lemma forall_mem_dumpString (hmarks : ∀ c ∈ marks, P c) (hescape : ∀ c, ∀ d ∈ escape c, P d) (s : String) :
    ∀ c ∈ dumpString escape s, P c := by
  have hquote : P '"' := hmarks _ List.mem_cons_self
  intro c hc
  simp only [dumpString, List.mem_cons, List.mem_append, List.mem_flatMap, List.not_mem_nil, or_false] at hc
  obtain rfl | ⟨d, -, hd⟩ | rfl := hc
  · exact hquote
  · exact hescape d c hd
  · exact hquote

lemma forall_mem_dumpElements (hmarks : ∀ c ∈ marks, P c) {ts : List JsonTree}
    (h : ∀ t ∈ ts, ∀ c ∈ dump escape writeNumber t, P c) : ∀ c ∈ dumpElements escape writeNumber ts, P c := by
  have hcomma : P ',' := hmarks _ (by decide)
  have hspace : P ' ' := hmarks _ (by decide)
  induction ts with
  | nil => exact nofun
  | cons t ts ih =>
    cases ts with
    | nil => exact h t List.mem_cons_self
    | cons t' ts =>
      intro c hc
      simp only [dumpElements, List.mem_append, List.mem_cons] at hc
      obtain hc | rfl | rfl | hc := hc
      · exact h t List.mem_cons_self c hc
      · exact hcomma
      · exact hspace
      · exact ih (fun u hu => h u (List.mem_cons_of_mem t hu)) c hc

lemma forall_mem_dumpMembers (hmarks : ∀ c ∈ marks, P c) (hescape : ∀ c, ∀ d ∈ escape c, P d)
    {fields : List (String × JsonTree)} (h : ∀ field ∈ fields, ∀ c ∈ dump escape writeNumber field.2, P c) :
    ∀ c ∈ dumpMembers escape writeNumber fields, P c := by
  have hcomma : P ',' := hmarks _ (by decide)
  have hspace : P ' ' := hmarks _ (by decide)
  have hcolon : P ':' := hmarks _ (by decide)
  induction fields with
  | nil => exact nofun
  | cons field fields ih =>
    obtain ⟨key, t⟩ := field
    have hkey := forall_mem_dumpString hmarks hescape key
    have ht := h (key, t) List.mem_cons_self
    cases fields with
    | nil =>
      intro c hc
      simp only [dumpMembers, List.mem_append, List.mem_cons] at hc
      obtain hc | rfl | rfl | hc := hc
      · exact hkey c hc
      · exact hcolon
      · exact hspace
      · exact ht c hc
    | cons field fields =>
      intro c hc
      simp only [dumpMembers, List.mem_append, List.mem_cons] at hc
      obtain hc | rfl | rfl | hc | rfl | rfl | hc := hc
      · exact hkey c hc
      · exact hcolon
      · exact hspace
      · exact ht c hc
      · exact hcomma
      · exact hspace
      · exact ih (fun u hu => h u (List.mem_cons_of_mem _ hu)) c hc

/-- What holds of the marks, of the letters of numbers and of every escape holds of all that is written. -/
theorem forall_mem_dump (hmarks : ∀ c ∈ marks, P c) (hescape : ∀ c, ∀ d ∈ escape c, P d)
    (hnumeric : ∀ c, isNumeric c = true → P c) {t : JsonTree} (h : Writable readNumber writeNumber t) :
    ∀ c ∈ dump escape writeNumber t, P c := by
  have hsub : ∀ s : List Char, s.all marks.contains = true → ∀ c ∈ s, P c := fun s hs c hc =>
    hmarks c (List.contains_iff_mem.mp (List.all_eq_true.mp hs c hc))
  induction t using induct with
  | null => exact hsub ['n', 'u', 'l', 'l'] (by decide)
  | bool b =>
    cases b with
    | true => exact hsub ['t', 'r', 'u', 'e'] (by decide)
    | false => exact hsub ['f', 'a', 'l', 's', 'e'] (by decide)
  | num q =>
    rw [Writable] at h
    exact fun c hc => hnumeric c (List.all_eq_true.mp h.2.1 c hc)
  | str s => exact forall_mem_dumpString hmarks hescape s
  | arr ts ih =>
    rw [Writable, allWritable_iff] at h
    intro c hc
    simp only [dump, List.mem_cons, List.mem_append, List.not_mem_nil, or_false] at hc
    obtain rfl | hc | rfl := hc
    · exact hmarks _ (by decide)
    · exact forall_mem_dumpElements hmarks (fun u hu => ih u hu (h u hu)) c hc
    · exact hmarks _ (by decide)
  | obj fields ih =>
    rw [Writable, fieldsWritable_iff] at h
    intro c hc
    simp only [dump, List.mem_cons, List.mem_append, List.not_mem_nil, or_false] at hc
    obtain rfl | hc | rfl := hc
    · exact hmarks _ (by decide)
    · exact forall_mem_dumpMembers hmarks hescape (fun u hu => ih u hu (h u hu)) c hc
    · exact hmarks _ (by decide)

lemma mem_hexDigits {n : ℕ} {c : Char} (hc : c ∈ hexDigits n) : ∃ d < 16, c = d.digitChar := by
  simp only [hexDigits, List.mem_cons, List.not_mem_nil, or_false] at hc
  obtain rfl | rfl | rfl | rfl := hc
  all_goals exact ⟨_, Nat.mod_lt _ (by decide), rfl⟩

lemma isNumeric_le {c : Char} (h : isNumeric c = true) : 0x20 ≤ c.toNat ∧ c.toNat ≤ 0x7E := by
  simp only [isNumeric, Bool.or_eq_true, beq_iff_eq] at h
  obtain ((((h | rfl) | rfl) | rfl) | rfl) | rfl := h
  · simp only [Char.isDigit, Bool.and_eq_true, decide_eq_true_eq, UInt32.le_iff_toNat_le] at h
    have hle : 48 ≤ c.toNat ∧ c.toNat ≤ 57 := h
    omega
  all_goals decide

/-- An escape is made of printable letters, unless it is the character itself. -/
lemma mem_escapeChar {c d : Char} (h : d ∈ escapeChar c) : 0x20 ≤ d.toNat := by
  have hletters : ∀ n < 16, 0x20 ≤ n.digitChar.toNat := by decide
  unfold escapeChar at h
  split at h
  · rename_i e he
    have hshort : ∀ pair ∈ shortEscapes, 0x20 ≤ pair.1.toNat := by decide
    rw [List.mem_cons, List.mem_singleton] at h
    obtain rfl | rfl := h
    · decide
    · exact hshort _ (mem_shortEscapes_of_writtenEscape he)
  · split at h
    · rw [List.mem_cons, List.mem_cons] at h
      obtain rfl | rfl | h := h
      · decide
      · decide
      · obtain ⟨n, hn, rfl⟩ := mem_hexDigits h
        exact hletters n hn
    · rw [List.mem_singleton] at h
      subst h
      omega

/-- Without `ensure_ascii` there is no control character in what is written, and so no line break. -/
theorem dump_escapeChar_printable {t : JsonTree} (h : Writable readNumber writeNumber t) :
    ∀ c ∈ dump escapeChar writeNumber t, 0x20 ≤ c.toNat := by
  have hall : (marks.all fun c => decide (0x20 ≤ c.toNat)) = true := by decide
  have hmarks : ∀ c ∈ marks, 0x20 ≤ c.toNat := fun c hc => of_decide_eq_true (List.all_eq_true.mp hall c hc)
  exact forall_mem_dump hmarks (fun _ _ hd => mem_escapeChar hd) (fun _ hc => (isNumeric_le hc).1) h

end Chars

/-! ### Whole numbers -/

/-- `int.__repr__` of a number that is not negative. -/
def writeWhole (q : ℚ) : List Char := Nat.toDigits 10 q.num.toNat

def readWhole (s : List Char) : Option ℚ :=
  if s.all Char.isDigit then some (Nat.ofDigitChars 10 s 0 : ℕ) else none

lemma numberText_whole (n : ℕ) : NumberText readWhole n (writeWhole n) := by
  have hwrite : writeWhole n = Nat.toDigits 10 n := rfl
  have hdigits : ∀ c ∈ Nat.toDigits 10 n, c.isDigit = true := fun c hc =>
    Nat.isDigit_of_mem_toDigits (by decide) (by decide) hc
  rw [hwrite]
  refine ⟨Nat.toDigits_ne_nil, ?_, ?_⟩
  · rw [List.all_eq_true]
    intro c hc
    simp only [isNumeric, hdigits c hc, Bool.true_or]
  · rw [readWhole, if_pos (List.all_eq_true.mpr hdigits), Nat.ofDigitChars_ten_toDigits]

end JsonGrammar
