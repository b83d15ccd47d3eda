import Mathlib.Data.List.Basic

/-!
# Java regular expressions

A part of `java.util.regex.Pattern` without flags: plain, escaped and quoted characters, the dot,
the greedy star and the two anchors. A pattern with anything else does not compile here.
-/

namespace JavaRegex

/-! ### Quoted sections -/

/-- What `Pattern.quote` puts between its marks: an end mark of the string is written as an end
mark, an escaped backslash, an `E` and a start mark. -/
def quoteBody : List Char → List Char
  | '\\' :: 'E' :: s => '\\' :: 'E' :: '\\' :: '\\' :: 'E' :: '\\' :: 'Q' :: quoteBody s
  | c :: s => c :: quoteBody s
  | [] => []

def quote (s : String) : String := String.ofList ('\\' :: 'Q' :: (quoteBody s.toList ++ ['\\', 'E']))

inductive Token where
  | plain (c : Char)
  | escaped (c : Char)
  | quoted (c : Char)
  deriving DecidableEq

/-- `RemoveQEQuoting`. A quoted section that is not ended reaches to the end of the pattern. -/
def unquote : Bool → List Char → List Token
  | true, '\\' :: 'E' :: s => unquote false s
  | true, c :: s => .quoted c :: unquote true s
  | false, '\\' :: 'Q' :: s => unquote true s
  | false, '\\' :: c :: s => .escaped c :: unquote false s
  | false, c :: s => .plain c :: unquote false s
  | _, [] => []

/-- A backslash of a quoted section that no `E` follows stands for itself. -/
lemma unquote_quoted {c : Char} {s : List Char} (h : c = '\\' → s.head? ≠ some 'E') :
    unquote true (c :: s) = .quoted c :: unquote true s := by
  rw [unquote]
  rintro t rfl rfl
  exact h rfl rfl

lemma unquote_escaped {c : Char} (s : List Char) (h : c ≠ 'Q') :
    unquote false ('\\' :: c :: s) = .escaped c :: unquote false s := by
  rw [unquote]
  exact h

lemma unquote_plain {c : Char} (s : List Char) (h : c ≠ '\\') :
    unquote false (c :: s) = .plain c :: unquote false s := by
  rw [unquote]
  · rintro t rfl rfl
    exact h rfl
  · rintro d t rfl rfl
    exact h rfl

/-! ### Compilation -/

/-- The characters that one place of a pattern accepts. -/
inductive Atom where
  | char (c : Char)
  | dot
  deriving DecidableEq

inductive Symbol where
  | atom (a : Atom)
  | star
  | caret
  | dollar
  deriving DecidableEq

/-- An escaped letter or digit and the other metacharacters are outside this part of the syntax. -/
def Token.symbol : Token → Option Symbol
  | .quoted c => some (.atom (.char c))
  | .escaped c => if c.isAlphanum then none else some (.atom (.char c))
  | .plain c =>
    if c = '.' then some (.atom .dot)
    else if c = '*' then some .star
    else if c = '^' then some .caret
    else if c = '$' then some .dollar
    else if c ∈ ['\\', '[', ']', '(', ')', '\x7b', '\x7d', '|', '?', '+'] then none
    else some (.atom (.char c))

inductive Node where
  | one (a : Atom)
  | many (a : Atom)
  | begin
  | dollar
  deriving DecidableEq

/-- A star belongs to the atom before it. A star after anything else does not compile here. -/
def nodes : List Symbol → Option (List Node)
  | .atom a :: .star :: l => (nodes l).map (.many a :: ·)
  | .atom a :: l => (nodes l).map (.one a :: ·)
  | .caret :: l => (nodes l).map (.begin :: ·)
  | .dollar :: l => (nodes l).map (.dollar :: ·)
  | .star :: _ => none
  | [] => some []

def compile (regex : String) : Option (List Node) :=
  ((unquote false regex.toList).mapM Token.symbol).bind nodes

lemma nodes_atom {a : Atom} {l : List Symbol} (h : l.head? ≠ some .star) :
    nodes (.atom a :: l) = (nodes l).map (.one a :: ·) := by
  rw [nodes]
  rintro t rfl
  exact h rfl

/-! ### Matching -/

def isLineTerminator (c : Char) : Bool :=
  c == '\n' || c == '\r' || c == '\u0085' || c == '\u2028' || c == '\u2029'

def Atom.accepts : Atom → Char → Bool
  | .char d, c => c == d
  | .dot, c => !isLineTerminator c

/-- What is left of a text after each of its runs of accepted characters. -/
def suffixesWhile (p : Char → Bool) : List Char → List (List Char)
  | [] => [[]]
  | c :: s => (c :: s) :: if p c then suffixesWhile p s else []

/-- The dollar without `MULTILINE`: the end of the text, or a line terminator that ends it. There is
no place between the two characters of a line terminator. -/
def atDollar (text : List Char) : List Char → Bool
  | [] => true
  | [c] => isLineTerminator c && !(c == '\n' && ['\r', '\n'].isSuffixOf text)
  | [c, d] => c == '\r' && d == '\n'
  | _ => false

/-- Whether the nodes match all that is left of a text. -/
def matchFrom (text : List Char) : List Node → List Char → Bool
  | [], rest => rest.isEmpty
  | .one _ :: _, [] => false
  | .one a :: l, c :: rest => a.accepts c && matchFrom text l rest
  | .many a :: l, rest => (suffixesWhile a.accepts rest).any (matchFrom text l)
  | .begin :: l, rest => rest.length == text.length && matchFrom text l rest
  | .dollar :: l, rest => atDollar text rest && matchFrom text l rest

/-- `Pattern.matches`, on the patterns that compile here. -/
def matchesAll (regex input : String) : Option Bool :=
  (compile regex).map fun l => matchFrom input.toList l input.toList

lemma mem_suffixesWhile_iff {p : Char → Bool} {s t : List Char} :
    t ∈ suffixesWhile p s ↔ ∃ run, (∀ c ∈ run, p c = true) ∧ s = run ++ t := by
  induction s with
  | nil =>
    rw [suffixesWhile, List.mem_singleton]
    constructor
    · rintro rfl
      exact ⟨[], fun c hc => absurd hc List.not_mem_nil, rfl⟩
    · rintro ⟨run, -, heq⟩
      exact (List.append_eq_nil_iff.mp heq.symm).2
  | cons c s ih =>
    rw [suffixesWhile, List.mem_cons]
    constructor
    · rintro (rfl | htail)
      · exact ⟨[], fun d hd => absurd hd List.not_mem_nil, rfl⟩
      · by_cases hc : p c = true
        · rw [if_pos hc] at htail
          obtain ⟨run, hrun, rfl⟩ := ih.mp htail
          exact ⟨c :: run, List.forall_mem_cons.mpr ⟨hc, hrun⟩, rfl⟩
        · rw [if_neg hc] at htail
          exact absurd htail List.not_mem_nil
    · rintro ⟨run, hrun, heq⟩
      cases run with
      | nil => exact Or.inl heq.symm
      | cons d run =>
        rw [List.cons_append, List.cons.injEq] at heq
        obtain ⟨rfl, heq⟩ := heq
        obtain ⟨hc, hrest⟩ := List.forall_mem_cons.mp hrun
        rw [if_pos hc]
        exact Or.inr (ih.mpr ⟨run, hrest, heq⟩)

/-- A star takes some run of the characters of its atom. -/
lemma matchFrom_many_iff {text rest : List Char} {a : Atom} {l : List Node} :
    matchFrom text (.many a :: l) rest = true ↔
      ∃ run t, (∀ c ∈ run, a.accepts c = true) ∧ rest = run ++ t ∧ matchFrom text l t = true := by
  rw [matchFrom, List.any_eq_true]
  constructor
  · rintro ⟨t, ht, hmatch⟩
    obtain ⟨run, hrun, heq⟩ := mem_suffixesWhile_iff.mp ht
    exact ⟨run, t, hrun, heq, hmatch⟩
  · rintro ⟨run, t, hrun, heq, hmatch⟩
    exact ⟨t, mem_suffixesWhile_iff.mpr ⟨run, hrun, heq⟩, hmatch⟩

lemma matchFrom_one_iff {text rest : List Char} {a : Atom} {l : List Node} :
    matchFrom text (.one a :: l) rest = true ↔
      ∃ c t, a.accepts c = true ∧ rest = c :: t ∧ matchFrom text l t = true := by
  cases rest with
  | nil => simp [matchFrom]
  | cons c rest =>
    rw [matchFrom, Bool.and_eq_true]
    constructor
    · rintro ⟨hc, hmatch⟩
      exact ⟨c, rest, hc, rfl, hmatch⟩
    · rintro ⟨d, t, hd, heq, hmatch⟩
      rw [List.cons.injEq] at heq
      obtain ⟨rfl, rfl⟩ := heq
      exact ⟨hd, hmatch⟩

/-- At the end of a pattern the dollar accepts what the end of the pattern does. -/
lemma matchFrom_dollar_iff {text rest : List Char} :
    matchFrom text [.dollar] rest = true ↔ rest = [] := by
  rw [matchFrom, matchFrom, Bool.and_eq_true, List.isEmpty_iff]
  constructor
  · exact fun h => h.2
  · rintro rfl
    exact ⟨rfl, rfl⟩

/-- At the start of a pattern the caret accepts the start of the text. -/
lemma matchFrom_begin (text : List Char) (l : List Node) :
    matchFrom text (.begin :: l) text = matchFrom text l text := by
  rw [matchFrom, BEq.rfl, Bool.true_and]

end JavaRegex
