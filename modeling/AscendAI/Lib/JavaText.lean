import AscendAI.Lib.JavaString

/-!
# Java strings as code units

A `String` of Java is a list of UTF-16 code units, well formed or not. Here are the methods that search
and cut, with their values on a text in which a separator that the pattern does not contain stands.
-/

abbrev JavaText := List UInt16

namespace JavaText

/-- A literal of the basic plane, where every character is one unit. -/
def ofLiteral (s : String) : JavaText := s.toList.map fun c => c.toNat.toUInt16

/-! ### Removing a pattern -/

section Remove

variable {α : Type*} [DecidableEq α]

/-- `skip` units of a found pattern are still to be passed over. -/
def removeFrom (p : List α) : ℕ → List α → List α
  | _, [] => []
  | skip + 1, _ :: l => removeFrom p skip l
  | 0, c :: l => if p.isPrefixOf (c :: l) then removeFrom p (p.length - 1) l else c :: removeFrom p 0 l

/-- `s.replace(p, "")` for a pattern that is not empty: the occurrences from left to right. -/
def remove (p l : List α) : List α := removeFrom p 0 l

variable {p : List α}

lemma removeFrom_eq (p : List α) (skip : ℕ) (l : List α) : removeFrom p skip l = remove p (l.drop skip) := by
  induction l generalizing skip with
  | nil => cases skip <;> rfl
  | cons c l ih =>
    cases skip with
    | zero => rfl
    | succ skip => exact ih skip

@[simp] lemma remove_nil (p : List α) : remove p [] = [] := rfl

lemma remove_append_self (hp : p ≠ []) (l : List α) : remove p (p ++ l) = remove p l := by
  cases p with
  | nil => exact absurd rfl hp
  | cons c q =>
    have hprefix : (c :: q).isPrefixOf (c :: (q ++ l)) = true :=
      List.isPrefixOf_iff_prefix.mpr (List.prefix_append (c :: q) l)
    rw [List.cons_append, remove, removeFrom, if_pos hprefix, removeFrom_eq, List.length_cons,
      Nat.add_sub_cancel, List.drop_left]

lemma remove_cons {c : α} {l : List α} (h : ¬p <+: c :: l) : remove p (c :: l) = c :: remove p l := by
  rw [remove, removeFrom, if_neg (fun hprefix => h (List.isPrefixOf_iff_prefix.mp hprefix))]
  rfl

/-- The cases of a text for `remove`: it ends, it starts with the pattern, or its head stays. -/
theorem remove_induction (hp : p ≠ []) {motive : List α → Prop} (nil : motive [])
    (found : ∀ l, motive l → motive (p ++ l)) (stays : ∀ c l, ¬p <+: c :: l → motive l → motive (c :: l)) :
    ∀ l, motive l := by
  intro l
  induction hn : l.length using Nat.strong_induction_on generalizing l with
  | h n ih =>
    cases l with
    | nil => exact nil
    | cons c l =>
      by_cases hprefix : p <+: c :: l
      · obtain ⟨rest, hrest⟩ := hprefix
        rw [← hrest] at hn ⊢
        have hpos := List.length_pos_of_ne_nil hp
        rw [List.length_append] at hn
        exact found rest (ih rest.length (by omega) rest rfl)
      · rw [List.length_cons] at hn
        exact stays c l hprefix (ih l.length (by omega) l rfl)

lemma mem_of_mem_remove (hp : p ≠ []) {c : α} {l : List α} (h : c ∈ remove p l) : c ∈ l := by
  induction l using remove_induction hp with
  | nil => exact h
  | found l ih =>
    rw [remove_append_self hp] at h
    exact List.mem_append_right p (ih h)
  | stays d l hne ih =>
    rw [remove_cons hne, List.mem_cons] at h
    rcases h with rfl | h
    · exact List.mem_cons_self
    · exact List.mem_cons_of_mem _ (ih h)

lemma length_remove_le (hp : p ≠ []) (l : List α) : (remove p l).length ≤ l.length := by
  induction l using remove_induction hp with
  | nil => exact Nat.le_refl 0
  | found l ih =>
    rw [remove_append_self hp, List.length_append]
    omega
  | stays c l hne ih =>
    rw [remove_cons hne, List.length_cons, List.length_cons]
    omega

lemma remove_eq_self (hp : p ≠ []) {l : List α} (h : ¬p <:+: l) : remove p l = l := by
  induction l using remove_induction hp with
  | nil => rfl
  | found l _ => exact absurd (List.prefix_append p l).isInfix h
  | stays c l hne ih => rw [remove_cons hne, ih fun hinfix => h (List.infix_cons_iff.mpr (.inr hinfix))]

lemma length_remove_lt (hp : p ≠ []) {l : List α} (h : p <:+: l) : (remove p l).length < l.length := by
  induction l using remove_induction hp with
  | nil => exact absurd (List.eq_nil_of_infix_nil h) hp
  | found l _ =>
    have hle := length_remove_le hp l
    have hpos := List.length_pos_of_ne_nil hp
    rw [remove_append_self hp, List.length_append]
    omega
  | stays c l hne ih =>
    have hlt := ih ((List.infix_cons_iff.mp h).resolve_left hne)
    rw [remove_cons hne, List.length_cons, List.length_cons]
    omega

/-- An occurrence does not reach over a unit that the pattern does not have. -/
lemma remove_append_cons (hp : p ≠ []) {c : α} (hc : c ∉ p) (a l : List α) :
    remove p (a ++ c :: l) = remove p a ++ c :: remove p l := by
  have hstays : ∀ l, ¬p <+: c :: l := fun l hprefix => hp (JavaString.eq_nil_of_prefix_cons hc hprefix)
  induction a using remove_induction hp with
  | nil => exact remove_cons (hstays l)
  | found a ih => rw [List.append_assoc, remove_append_self hp, remove_append_self hp, ih]
  | stays d a hne ih =>
    have hne' : ¬p <+: d :: (a ++ c :: l) := by
      rw [← List.cons_append, JavaString.prefix_append_cons_iff hc]
      exact hne
    rw [List.cons_append, remove_cons hne', remove_cons hne, List.cons_append, ih]

/-- The pattern starts nowhere in a text without its first unit. -/
lemma remove_append_of_notMem {h : α} {q a : List α} (ha : h ∉ a) (l : List α) :
    remove (h :: q) (a ++ l) = a ++ remove (h :: q) l := by
  induction a with
  | nil => rfl
  | cons c a ih =>
    have hne : ¬(h :: q) <+: c :: (a ++ l) := by
      intro hprefix
      have heq := (List.cons_prefix_cons.mp hprefix).1
      exact ha (heq ▸ List.mem_cons_self)
    rw [List.cons_append, remove_cons hne, ih fun hmem => ha (List.mem_cons_of_mem c hmem), List.cons_append]

end Remove

/-! ### The last occurrence -/

section LastIndexOf

variable {α : Type*} [DecidableEq α]

/-- `s.lastIndexOf(p)` for a pattern that is not empty. -/
def lastIndexOf (p : List α) : List α → Option ℕ
  | [] => none
  | c :: l =>
    match lastIndexOf p l with
    | some i => some (i + 1)
    | none => if p.isPrefixOf (c :: l) then some 0 else none

lemma lastIndexOf_of_length_lt {p l : List α} (h : l.length < p.length) : lastIndexOf p l = none := by
  induction l with
  | nil => rfl
  | cons c l ih =>
    have hne : ¬p.isPrefixOf (c :: l) = true := by
      intro hprefix
      have hle := (List.isPrefixOf_iff_prefix.mp hprefix).length_le
      omega
    rw [List.length_cons] at h
    rw [lastIndexOf, ih (by omega)]
    exact if_neg hne

/-- At the end of the text stands the last occurrence. -/
lemma lastIndexOf_append_self {p : List α} (hp : p ≠ []) (l : List α) :
    lastIndexOf p (l ++ p) = some l.length := by
  induction l with
  | nil =>
    cases p with
    | nil => exact absurd rfl hp
    | cons c q =>
      have hlt : q.length < (c :: q).length := Nat.lt_succ_self _
      have hself : (c :: q).isPrefixOf (c :: q) = true := List.isPrefixOf_iff_prefix.mpr (List.prefix_refl _)
      rw [List.nil_append, lastIndexOf, lastIndexOf_of_length_lt hlt]
      exact if_pos hself
  | cons c l ih => rw [List.cons_append, lastIndexOf, ih, List.length_cons]

end LastIndexOf

/-! ### White space -/

/-- `Character.isWhitespace` -/
def isWhitespace (c : UInt16) : Bool :=
  (0x9 ≤ c && c ≤ 0xD) || (0x1C ≤ c && c ≤ 0x20) || c == 0x1680 || (0x2000 ≤ c && c ≤ 0x2006) ||
    (0x2008 ≤ c && c ≤ 0x200A) || c == 0x2028 || c == 0x2029 || c == 0x205F || c == 0x3000

def isBlank (text : JavaText) : Bool := text.all isWhitespace

/-- `StringUtils.hasText` on a string. -/
def hasText (text : JavaText) : Bool := !isBlank text

/-- What `trim` cuts at both ends. -/
def isTrimmed (c : UInt16) : Bool := c ≤ 0x20

def stripLeading (text : JavaText) : JavaText := text.dropWhile isTrimmed

def stripTrailing (text : JavaText) : JavaText := text.rdropWhile isTrimmed

/-- `s.trim()` -/
def trim (text : JavaText) : JavaText := stripTrailing (stripLeading text)

lemma stripLeading_append_cons {c : UInt16} (hc : isTrimmed c = false) (a l : JavaText) :
    stripLeading (a ++ c :: l) = stripLeading a ++ c :: l := by
  induction a with
  | nil =>
    rw [stripLeading, List.nil_append, List.dropWhile_cons, if_neg (by simp [hc])]
    rfl
  | cons d a ih =>
    cases hd : isTrimmed d with
    | true =>
      rw [stripLeading, List.cons_append, List.dropWhile_cons, if_pos hd, stripLeading, List.dropWhile_cons,
        if_pos hd]
      exact ih
    | false =>
      rw [stripLeading, List.cons_append, List.dropWhile_cons, if_neg (by simp [hd]), stripLeading,
        List.dropWhile_cons, if_neg (by simp [hd]), List.cons_append]

lemma stripTrailing_append_cons {c : UInt16} (hc : isTrimmed c = false) (a l : JavaText) :
    stripTrailing (a ++ c :: l) = a ++ c :: stripTrailing l := by
  have hleading := stripLeading_append_cons hc l.reverse a.reverse
  unfold stripLeading at hleading
  unfold stripTrailing List.rdropWhile
  rw [List.reverse_append, List.reverse_cons, List.append_assoc, List.singleton_append, hleading,
    List.reverse_append, List.reverse_cons, List.reverse_reverse, List.append_assoc, List.singleton_append]

/-- Around two units that stay, `trim` cuts on the two sides. -/
lemma trim_append_cons {c d : UInt16} (hc : isTrimmed c = false) (hd : isTrimmed d = false)
    (a l b : JavaText) : trim (a ++ c :: (l ++ d :: b)) = stripLeading a ++ c :: (l ++ d :: stripTrailing b) := by
  rw [trim, stripLeading_append_cons hc, ← List.cons_append, ← List.append_assoc,
    stripTrailing_append_cons hd, List.append_assoc, List.cons_append]

lemma stripLeading_head {text : JavaText} {c : UInt16} {l : JavaText} (h : stripLeading text = c :: l) :
    isTrimmed c = false := by
  induction text with
  | nil => cases h
  | cons d text ih =>
    cases hd : isTrimmed d with
    | true =>
      rw [stripLeading, List.dropWhile_cons, if_pos hd] at h
      exact ih h
    | false =>
      rw [stripLeading, List.dropWhile_cons, if_neg (by simp [hd])] at h
      injection h with hhead _
      rw [← hhead, hd]

lemma mem_of_mem_stripLeading {text : JavaText} {c : UInt16} (h : c ∈ stripLeading text) : c ∈ text :=
  (List.dropWhile_sublist _).subset h

lemma mem_of_mem_stripTrailing {text : JavaText} {c : UInt16} (h : c ∈ stripTrailing text) : c ∈ text :=
  (List.rdropWhile_prefix isTrimmed text).subset h

end JavaText
