import Mathlib.Data.List.Infix
import Mathlib.Data.List.TakeWhile
import Mathlib.Data.Nat.Notation

/-!
# Python strings

The methods of `str` on white space and substrings. The length of a `str` counts code points,
as `String.length` does.
-/

namespace PythonString

def isSpace (c : Char) : Bool :=
  let n := c.toNat
  (0x9 ≤ n && n ≤ 0xD) || (0x1C ≤ n && n ≤ 0x20) || n == 0x85 || n == 0xA0 || n == 0x1680 ||
    (0x2000 ≤ n && n ≤ 0x200A) || n == 0x2028 || n == 0x2029 || n == 0x202F || n == 0x205F || n == 0x3000

section FirstOccurrence

variable {c : Char} {a b : List Char}

/-- What is in front of the first `c`. -/
lemma takeWhile_append_cons (ha : c ∉ a) : (a ++ c :: b).takeWhile (· ≠ c) = a := by
  have hall : ∀ x ∈ a, decide (x ≠ c) = true := fun x hx => decide_eq_true fun heq => ha (heq ▸ hx)
  rw [List.takeWhile_append_of_pos hall]
  simp

lemma dropWhile_append_cons (ha : c ∉ a) : (a ++ c :: b).dropWhile (· ≠ c) = c :: b := by
  have hall : ∀ x ∈ a, decide (x ≠ c) = true := fun x hx => decide_eq_true fun heq => ha (heq ▸ hx)
  rw [List.dropWhile_append_of_pos hall]
  simp

end FirstOccurrence

/-- The pieces of a split are made of the text and have no separator. -/
lemma mem_of_mem_splitOn {l line : List Char} {a c : Char} (hline : line ∈ l.splitOn a) (hc : c ∈ line) :
    c ∈ l ∧ c ≠ a := by
  induction l generalizing line with
  | nil =>
    rw [List.splitOn_nil, List.mem_singleton] at hline
    rw [hline] at hc
    cases hc
  | cons d rest ih =>
    rw [List.splitOn_cons_eq_if_modifyHead] at hline
    split at hline
    · rcases List.mem_cons.mp hline with rfl | hline
      · cases hc
      · have hrest := ih hline hc
        exact ⟨List.mem_cons_of_mem d hrest.1, hrest.2⟩
    · rename_i hd
      cases hsplit : rest.splitOn a with
      | nil => exact absurd hsplit (List.splitOn_ne_nil a rest)
      | cons first others =>
        rw [hsplit, List.modifyHead_cons, List.mem_cons] at hline
        rcases hline with rfl | hline
        · rcases List.mem_cons.mp hc with rfl | hc
          · exact ⟨List.mem_cons_self, by simpa using hd⟩
          · have hrest := ih (hsplit ▸ List.mem_cons_self) hc
            exact ⟨List.mem_cons_of_mem d hrest.1, hrest.2⟩
        · have hrest := ih (hsplit ▸ List.mem_cons_of_mem first hline) hc
          exact ⟨List.mem_cons_of_mem d hrest.1, hrest.2⟩

def strip (s : String) : String :=
  String.ofList ((s.toList.dropWhile isSpace).reverse.dropWhile isSpace).reverse

lemma strip_sublist (s : String) : (strip s).toList.Sublist s.toList := by
  rw [strip, String.toList_ofList]
  have hright := List.reverse_sublist.mpr (List.dropWhile_sublist isSpace (l := (s.toList.dropWhile isSpace).reverse))
  rw [List.reverse_reverse] at hright
  exact hright.trans (List.dropWhile_sublist _)

lemma mem_of_mem_strip {s : String} {c : Char} (hc : c ∈ (strip s).toList) : c ∈ s.toList :=
  (strip_sublist s).subset hc

lemma head?_dropWhile_isSpace {l : List Char} {c : Char} (h : (l.dropWhile isSpace).head? = some c) :
    isSpace c = false := by
  have hnot := List.head?_dropWhile_not isSpace l
  rw [h] at hnot
  exact hnot

/-- A text that is stripped does not start with white space. -/
lemma head?_strip {s : String} {c : Char} (h : (strip s).toList.head? = some c) : isSpace c = false := by
  rw [strip, String.toList_ofList, List.head?_reverse] at h
  have hsuffix : (s.toList.dropWhile isSpace).reverse.dropWhile isSpace <:+ (s.toList.dropWhile isSpace).reverse :=
    List.dropWhile_suffix _
  have hlast : (s.toList.dropWhile isSpace).reverse.getLast? = some c := by
    obtain ⟨front, heq⟩ := hsuffix
    rw [← heq, List.getLast?_append, h]
    rfl
  rw [List.getLast?_reverse] at hlast
  exact head?_dropWhile_isSpace hlast

lemma dropWhile_isSpace_of_head? {l : List Char} (h : ∀ c, l.head? = some c → isSpace c = false) :
    l.dropWhile isSpace = l := by
  cases l with
  | nil => rfl
  | cons c l =>
    have hc := h c rfl
    rw [List.dropWhile_cons_of_neg (by rw [hc]; exact Bool.false_ne_true)]

lemma strip_eq_self {s : String} (hfirst : ∀ c, s.toList.head? = some c → isSpace c = false)
    (hlast : ∀ c, s.toList.getLast? = some c → isSpace c = false) : strip s = s := by
  have hreverse : ∀ c, s.toList.reverse.head? = some c → isSpace c = false := by
    intro c hc
    rw [List.head?_reverse] at hc
    exact hlast c hc
  rw [strip, dropWhile_isSpace_of_head? hfirst, dropWhile_isSpace_of_head? hreverse, List.reverse_reverse,
    String.ofList_toList]

/-- `str.lstrip(chars)` -/
def lstrip (chars : List Char) (s : String) : String := String.ofList (s.toList.dropWhile (chars.contains ·))

/-- `str.split()`: the words between runs of white space. -/
def split (s : String) : List String :=
  ((s.toList.splitOnP isSpace).filter fun word => !word.isEmpty).map String.ofList

/-- `p in s` -/
def contains (s p : String) : Bool := decide (p.toList <:+: s.toList)

/-- `sep.join(parts)` -/
def join (sep : String) (parts : List String) : String :=
  String.ofList (sep.toList.intercalate (parts.map String.toList))

/-- A joined text starts with its first part, and the separator follows if there are more. -/
lemma exists_join_cons (sep part : String) (parts : List String) :
    ∃ between, (between = [] ∨ between = sep.toList) ∧
      (join sep (part :: parts)).toList = part.toList ++ (between ++ (join sep parts).toList) := by
  cases parts with
  | nil =>
    refine ⟨[], .inl rfl, ?_⟩
    simp [join]
  | cons next parts =>
    refine ⟨sep.toList, .inr rfl, ?_⟩
    simp [join, List.intercalate]

/-- The lines of a text that is built with `"\n".join`: the empty text has none. -/
def lines (s : String) : List String :=
  if s = "" then [] else (s.toList.splitOn '\n').map String.ofList

/-- A line is given back by the text that it is joined into. -/
theorem lines_join {parts : List String} (hne : "" ∉ parts) (hbreak : ∀ part ∈ parts, '\n' ∉ part.toList) :
    lines (join "\n" parts) = parts := by
  cases parts with
  | nil => rfl
  | cons part parts =>
    have hsplit : ((['\n'] : List Char).intercalate ((part :: parts).map String.toList)).splitOn '\n' =
        (part :: parts).map String.toList := by
      apply List.splitOn_intercalate
      · simpa using hbreak
      · simp
    have hnonempty : join "\n" (part :: parts) ≠ "" := by
      intro hempty
      have hnil : (['\n'] : List Char).intercalate ((part :: parts).map String.toList) = [] := by
        simpa [join] using congrArg String.toList hempty
      rw [hnil] at hsplit
      have hpart : part = "" := by simpa using (congrArg List.head? hsplit).symm
      exact hne (by simp [hpart])
    rw [lines, if_neg hnonempty, join, String.toList_ofList]
    change (List.splitOn '\n' ((['\n'] : List Char).intercalate _)).map String.ofList = _
    rw [hsplit, List.map_map]
    simp

/-- `f"{n:02d}"` -/
def format02d (n : ℤ) : String :=
  match n with
  | .ofNat n => if n < 10 then "0" ++ n.repr else n.repr
  | .negSucc n => "-" ++ (n + 1).repr

/-- The number that decimal digits denote. -/
def readDigits (s : String) : ℕ := Nat.ofDigitChars 10 s.toList 0

@[simp] lemma readDigits_format02d (n : ℕ) : readDigits (format02d n) = n := by
  change readDigits (if n < 10 then "0" ++ n.repr else n.repr) = n
  by_cases hn : n < 10
  · simp [hn, readDigits, String.toList_append, Nat.ofDigitChars_cons]
  · simp [hn, readDigits]

lemma isDigit_of_mem_format02d {n : ℕ} {c : Char} (hc : c ∈ (format02d n).toList) : c.isDigit := by
  change c ∈ (if n < 10 then "0" ++ n.repr else n.repr).toList at hc
  have hrepr : c ∈ n.repr.toList → c.isDigit := by
    rw [Nat.toList_repr]
    exact Nat.isDigit_of_mem_toDigits (by omega) (by omega)
  by_cases hn : n < 10
  · rw [if_pos hn, String.toList_append, List.mem_append] at hc
    rcases hc with hzero | hc
    · obtain rfl : c = '0' := by simpa using hzero
      rfl
    · exact hrepr hc
  · rw [if_neg hn] at hc
    exact hrepr hc

end PythonString
