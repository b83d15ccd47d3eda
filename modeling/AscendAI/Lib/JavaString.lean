import Mathlib.Data.List.Destutter
import Mathlib.Data.List.DropRight
import Mathlib.Data.List.Infix
import Mathlib.Data.Nat.Notation

/-!
# Java strings

The methods of `java.lang.String` that depend on the representation of characters, on
strings of Unicode scalar values. A length counts UTF-16 code units.
-/

namespace JavaString

/-- `String.length()`: a character outside the basic plane takes two code units. -/
def length (s : String) : ℕ := s.toList.foldl (fun n c => n + if c.val < 0x10000 then 1 else 2) 0

def startsWith (s p : String) : Bool := p.toList.isPrefixOf s.toList

def endsWith (s p : String) : Bool := p.toList.isSuffixOf s.toList

def contains (s p : String) : Bool := decide (p.toList <:+: s.toList)

/-- `Character.isWhitespace`: the Unicode separators that break, and the ASCII ones. -/
def isWhitespace (c : Char) : Bool :=
  let n := c.toNat
  (0x9 ≤ n && n ≤ 0xD) || (0x1C ≤ n && n ≤ 0x20) || n == 0x1680 || (0x2000 ≤ n && n ≤ 0x2006) ||
    (0x2008 ≤ n && n ≤ 0x200A) || n == 0x2028 || n == 0x2029 || n == 0x205F || n == 0x3000

def isBlank (s : String) : Bool := s.toList.all isWhitespace

/-- `StringUtils.hasText`: present and not blank. -/
def hasText : Option String → Bool
  | none => false
  | some s => !isBlank s

/-- `String.trim()` removes the characters up to the space at both ends. -/
def trim (s : String) : String :=
  String.ofList ((s.toList.dropWhile (· ≤ ' ')).reverse.dropWhile (· ≤ ' ')).reverse

/-- The ASCII letter that `equalsIgnoreCase` identifies a character with. Outside ASCII only
the long s, the Kelvin sign and the two Turkish letters are identified with one. -/
def foldChar (c : Char) : Char :=
  if c = '\u017F' then 's'
  else if c = '\u212A' then 'k'
  else if c = '\u0130' ∨ c = '\u0131' then 'i'
  else c.toLower

/-- `ascii.equalsIgnoreCase(s)` for a constant of ASCII characters. -/
def equalsIgnoreCase (ascii s : String) : Bool := ascii.toList.map foldChar == s.toList.map foldChar

def isAscii (s : String) : Bool := s.toList.all fun c => c.toNat < 128

/-- A locale by the lower case that it gives. -/
structure JavaLocale where
  toLowerCase : String → String

/-- On ASCII the locale maps letter by letter, as every locale does but the Turkish, the Azeri and the
Lithuanian one. -/
def JavaLocale.MapsAscii (locale : JavaLocale) : Prop :=
  ∀ s, isAscii s = true → locale.toLowerCase s = String.ofList (s.toList.map Char.toLower)

def JavaLocale.ascii : JavaLocale where
  toLowerCase s := String.ofList (s.toList.map Char.toLower)

lemma mapsAscii_ascii : JavaLocale.ascii.MapsAscii := fun _ _ => rfl

/-- `s.substring(s.lastIndexOf(c) + 1)` -/
def afterLast (s : String) (c : Char) : String := String.ofList (s.toList.rtakeWhile (· != c))

/-- `s.lastIndexOf(c)` on a string of the basic plane, where an index counts characters. -/
def lastIndexOf (s : String) (c : Char) : Option ℕ :=
  (s.toList.reverse.findIdx? (· == c)).map fun i => s.toList.length - 1 - i

/-- `s.substring(i, j)` on a string of the basic plane. -/
def substring (s : String) (i j : ℕ) : String := String.ofList ((s.toList.take j).drop i)

/-- `s.replaceAll(p, "")` for a class of characters. -/
def removeAll (p : Char → Bool) (s : String) : String := String.ofList (s.toList.filter fun c => !p c)

/-- `s.replaceAll(p, c)` for a class of characters. -/
def replaceAll (p : Char → Bool) (c : Char) (s : String) : String :=
  String.ofList (s.toList.map fun d => if p d then c else d)

/-- `s.replaceAll("c+", "c")`: a run of `c` becomes one. -/
def squeeze (c : Char) (s : String) : String :=
  String.ofList (s.toList.destutter fun d e => ¬(d = c ∧ e = c))

def stripLeading (p : Char → Bool) (s : String) : String := String.ofList (s.toList.dropWhile p)

lemma startsWith_append (p s : String) : startsWith (p ++ s) p = true := by
  rw [startsWith, String.toList_append, List.isPrefixOf_iff_prefix]
  exact List.prefix_append _ _

section Separator

/-! ### A pattern across a separator -/

variable {α : Type*} {p q l : List α} {c : α}

lemma eq_nil_of_prefix_cons (hc : c ∉ p) (h : p <+: c :: l) : p = [] := by
  rcases List.prefix_cons_iff.mp h with rfl | ⟨t, rfl, -⟩
  · rfl
  · exact absurd List.mem_cons_self hc

lemma infix_append_cons_iff (hc : c ∉ p) : p <:+: q ++ c :: l ↔ p <:+: q ∨ p <:+: l := by
  rw [List.infix_append_iff, List.infix_cons_iff]
  constructor
  · rintro (h | (h | h) | ⟨p₁, p₂, rfl, h₁, h₂⟩)
    · exact Or.inl h
    · rw [eq_nil_of_prefix_cons hc h]
      exact Or.inl List.nil_infix
    · exact Or.inr h
    · have hc₂ : c ∉ p₂ := fun hmem => hc (List.mem_append_right p₁ hmem)
      rw [eq_nil_of_prefix_cons hc₂ h₂, List.append_nil]
      exact Or.inl h₁.isInfix
  · rintro (h | h)
    · exact Or.inl h
    · exact Or.inr (Or.inl (Or.inr h))

lemma prefix_append_cons_iff (hc : c ∉ p) : p <+: q ++ c :: l ↔ p <+: q := by
  constructor
  · intro h
    rcases List.prefix_or_prefix_of_prefix h (List.prefix_append q (c :: l)) with hp | ⟨t, rfl⟩
    · exact hp
    · have ht := (List.prefix_append_right_inj q).mp h
      rw [eq_nil_of_prefix_cons (fun hmem => hc (List.mem_append_right q hmem)) ht, List.append_nil]
  · intro h
    exact h.trans (List.prefix_append q _)

lemma suffix_append_cons_iff (hc : c ∉ p) : p <:+ q ++ c :: l ↔ p <:+ l := by
  constructor
  · intro h
    rcases List.suffix_or_suffix_of_suffix h (List.suffix_append q (c :: l)) with hp | hp
    · rcases List.suffix_cons_iff.mp hp with rfl | hp
      · exact absurd List.mem_cons_self hc
      · exact hp
    · exact absurd (hp.subset List.mem_cons_self) hc
  · intro h
    exact h.trans ((List.suffix_cons c l).trans (List.suffix_append q _))

end Separator

section Squeeze

/-! ### Runs of a character -/

variable {c d : Char} {l : List Char}

/-- No two neighbours are the character. -/
def NoPair (c : Char) (l : List Char) : Prop := l.IsChain fun d e => ¬(d = c ∧ e = c)

lemma noPair_iff : NoPair c l ↔ ¬[c, c] <:+: l := by
  rw [NoPair, List.isChain_iff_forall_rel_of_append_cons_cons]
  constructor
  · rintro h ⟨s, t, rfl⟩
    exact h (show s ++ [c, c] ++ t = s ++ c :: c :: t by simp) ⟨rfl, rfl⟩
  · rintro h a b s t rfl ⟨rfl, rfl⟩
    exact h ⟨s, t, by simp⟩

lemma contains_pair (s : String) : contains s (String.ofList [c, c]) = false ↔ NoPair c s.toList := by
  rw [contains, decide_eq_false_iff_not, String.toList_ofList, noPair_iff]

lemma noPair_squeeze (c : Char) (s : String) : NoPair c (squeeze c s).toList := by
  rw [squeeze, String.toList_ofList]
  exact List.isChain_destutter _ _

lemma squeeze_eq_self {s : String} (h : NoPair c s.toList) : squeeze c s = s := by
  rw [squeeze, List.destutter_of_isChain _ _ h, String.ofList_toList]

lemma exists_destutter'_eq_cons (R : Char → Char → Prop) [DecidableRel R] (l : List Char) (a : Char) :
    ∃ t, l.destutter' R a = a :: t := by
  induction l with
  | nil => exact ⟨[], rfl⟩
  | cons b l ih =>
    by_cases hrel : R a b
    · exact ⟨_, List.destutter'_cons_pos _ hrel⟩
    · rw [List.destutter'_cons_neg _ hrel]
      exact ih

/-- Shortening the runs of one character makes no pair of another. -/
lemma NoPair.destutter (h : NoPair d l) : NoPair d (l.destutter fun a b => ¬(a = c ∧ b = c)) := by
  cases l with
  | nil => exact List.isChain_nil
  | cons a l =>
    rw [List.destutter_cons']
    induction l generalizing a with
    | nil => exact List.isChain_singleton a
    | cons b l ih =>
      have htail : NoPair d (b :: l) := h.suffix (List.suffix_cons a _)
      by_cases hpair : a = c ∧ b = c
      · have heq : a = b := hpair.1.trans hpair.2.symm
        rw [List.destutter'_cons_neg _ (not_not.mpr hpair), heq]
        exact ih b htail
      · have hrest := ih b htail
        obtain ⟨t, ht⟩ := exists_destutter'_eq_cons (fun a b => ¬(a = c ∧ b = c)) l b
        rw [List.destutter'_cons_pos _ hpair]
        rw [ht] at hrest ⊢
        exact List.isChain_cons_cons.mpr ⟨(List.isChain_cons_cons.mp h).1, hrest⟩

lemma NoPair.squeeze {s : String} (h : NoPair d s.toList) (c : Char) :
    NoPair d (squeeze c s).toList := by
  rw [JavaString.squeeze, String.toList_ofList]
  exact h.destutter

/-- Writing one character for others makes no pair of another one. -/
lemma NoPair.replaceAll {s : String} (h : NoPair d s.toList) (p : Char → Bool) (hc : c ≠ d) :
    NoPair d (replaceAll p c s).toList := by
  have hfrom : ∀ a, (if p a then c else a) = d → a = d := by
    intro a ha
    split at ha
    · exact absurd ha hc
    · exact ha
  rw [JavaString.replaceAll, String.toList_ofList, NoPair, List.isChain_map]
  refine List.IsChain.imp (fun a b hab hpair => ?_) h
  exact hab ⟨hfrom a hpair.1, hfrom b hpair.2⟩

end Squeeze

/-! ### Lengths and indices on the basic plane -/

lemma length_eq_of_basic {s : String} (h : ∀ c ∈ s.toList, c.val < 0x10000) :
    length s = s.toList.length := by
  have hfold : ∀ (l : List Char) (n : ℕ), (∀ c ∈ l, c.val < 0x10000) →
      l.foldl (fun n c => n + if c.val < 0x10000 then 1 else 2) n = n + l.length := by
    intro l
    induction l with
    | nil => exact fun n _ => rfl
    | cons c l ih =>
      intro n hl
      rw [List.foldl_cons, if_pos (hl c List.mem_cons_self), ih _ fun d hd => hl d (List.mem_cons_of_mem c hd),
        List.length_cons]
      omega
  rw [length, hfold _ 0 h, Nat.zero_add]

lemma lastIndexOf_of_notMem {s : String} {c : Char} (h : c ∉ s.toList) : lastIndexOf s c = none := by
  have hnone : s.toList.reverse.findIdx? (· == c) = none := by
    rw [List.findIdx?_eq_none_iff]
    intro d hd
    rw [beq_eq_false_iff_ne]
    rintro rfl
    exact h (List.mem_reverse.mp hd)
  rw [lastIndexOf, hnone, Option.map_none]

lemma lastIndexOf_append {s : String} {c : Char} {l l' : List Char} (hs : s.toList = l ++ c :: l')
    (h : c ∉ l') : lastIndexOf s c = some l.length := by
  have hfound : s.toList.reverse.findIdx? (· == c) = some l'.length := by
    have hnone : l'.reverse.findIdx? (· == c) = none := by
      rw [List.findIdx?_eq_none_iff]
      intro d hd
      rw [beq_eq_false_iff_ne]
      rintro rfl
      exact h (List.mem_reverse.mp hd)
    rw [hs, List.reverse_append, List.reverse_cons, List.append_assoc, List.findIdx?_append, hnone]
    simp [List.findIdx?_cons]
  rw [lastIndexOf, hfound, hs, Option.map_some, List.length_append, List.length_cons]
  congr 1
  omega

/-- The last place of a character is where it is. -/
lemma append_cons_inj_of_notMem {c : Char} {l l' m m' : List Char} (h : l ++ c :: m = l' ++ c :: m')
    (hm : c ∉ m) (hm' : c ∉ m') : l = l' ∧ m = m' := by
  have hfirst := lastIndexOf_append (s := String.ofList (l ++ c :: m)) (String.toList_ofList ..) hm
  have hsecond := lastIndexOf_append (s := String.ofList (l' ++ c :: m')) (String.toList_ofList ..) hm'
  rw [h, hsecond] at hfirst
  have hlength : l.length = l'.length := (Option.some.inj hfirst).symm
  obtain ⟨hl, htail⟩ := List.append_inj h hlength
  exact ⟨hl, List.tail_eq_of_cons_eq htail⟩

/-- Every list with the character has a last place of it. -/
lemma exists_append_cons_of_mem {c : Char} {l : List Char} (h : c ∈ l) :
    ∃ l₁ l₂, l = l₁ ++ c :: l₂ ∧ c ∉ l₂ := by
  obtain ⟨r₁, r₂, hr, hnot⟩ := List.eq_append_cons_of_mem (List.mem_reverse.mpr h)
  refine ⟨r₂.reverse, r₁.reverse, ?_, fun hmem => hnot (List.mem_reverse.mp hmem)⟩
  rw [← List.reverse_reverse l, hr, List.reverse_append, List.reverse_cons, List.append_assoc]
  rfl

end JavaString
