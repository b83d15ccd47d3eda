import Mathlib.Data.List.DropRight
import AscendAI.Lib.PythonString

/-!
# Paths of POSIX

What `os.path` and `pathlib` take from the text of a path. A path of the file system is the list of its
components, from the root down, without symbolic links.
-/

namespace PosixPath
open PythonString

abbrev Path := List String

/-- `os.path.basename`: what follows the last slash. -/
def basename (path : String) : String := String.ofList (path.toList.rtakeWhile (· != '/'))

/-- `os.path.splitext`: the extension starts at the last dot of the base name, unless only dots stand in
front of it. -/
def splitext (path : String) : String × String :=
  let base := path.toList.rtakeWhile (· != '/')
  let suffix := base.rtakeWhile (· != '.')
  let stem := base.take (base.length - suffix.length - 1)
  if base.contains '.' && stem.any (· != '.') then
    (String.ofList (path.toList.take (path.toList.length - suffix.length - 1)), String.ofList ('.' :: suffix))
  else (path, "")

/-- `os.path.join` of a directory and a name. -/
def joinPath (directory name : String) : String :=
  if name.toList.head? = some '/' then name
  else if directory = "" ∨ directory.toList.getLast? = some '/' then directory ++ name
  else directory ++ "/" ++ name

/-- The parts of a `pathlib` path, which leaves out empty ones and the dot. -/
def parts (path : String) : Path :=
  ((path.toList.splitOn '/').map String.ofList).filter fun part => part != "" && part != "."

/-- `Path.suffix` of a name. -/
def suffix (name : String) : String :=
  let rest := name.toList.rtakeWhile (· != '.')
  if name.toList.contains '.' && rest != [] && rest.length + 1 < name.toList.length then String.ofList ('.' :: rest)
  else ""

/-- Where the parts lead to from a path; two dots go up, and stay at the root. -/
def walk (path : Path) : List String → Path
  | [] => path
  | part :: rest => if part = ".." then walk path.dropLast rest else walk (path ++ [part]) rest

lemma walk_append_singleton {part : String} (hpart : part ≠ "..") (path : Path) (l : List String) :
    walk path (l ++ [part]) = walk path l ++ [part] := by
  induction l generalizing path with
  | nil => simp [walk, hpart]
  | cons first rest ih =>
    rw [List.cons_append, walk, walk]
    split
    · exact ih _
    · exact ih _

/-! ### Base names -/

lemma rtakeWhile_slash {a b : List Char} (hb : '/' ∉ b) : (a ++ '/' :: b).rtakeWhile (· != '/') = b := by
  have hreverse : a ++ '/' :: b = (b.reverse ++ '/' :: a.reverse).reverse := by simp
  have htake := takeWhile_append_cons (c := '/') (a := b.reverse) (b := a.reverse) (by simpa using hb)
  have hfun : (fun c : Char => c != '/') = fun c => decide (c ≠ '/') := by
    funext c
    simp [bne, Bool.beq_eq_decide_eq]
  rw [hreverse, List.rtakeWhile_reverse, hfun, htake, List.reverse_reverse]

lemma rtakeWhile_of_slash_notMem {l : List Char} (h : '/' ∉ l) : l.rtakeWhile (· != '/') = l := by
  rw [List.rtakeWhile_eq_self_iff]
  intro c hc
  have hne : c ≠ '/' := fun heq => h (heq ▸ hc)
  simpa using hne

/-- A text has no slash, or a last one. -/
lemma slash_cases (l : List Char) : '/' ∉ l ∨ ∃ a b, l = a ++ '/' :: b ∧ '/' ∉ b := by
  by_cases h : '/' ∈ l
  · obtain ⟨a, b, hsplit, ha⟩ := List.eq_append_cons_of_mem (List.mem_reverse.mpr h)
    refine .inr ⟨b.reverse, a.reverse, ?_, by simpa using ha⟩
    simpa using congrArg List.reverse hsplit
  · exact .inl h

/-- The base name is the last part, unless it is none. -/
theorem getLast?_parts {path : String} (hempty : basename path ≠ "") (hdot : basename path ≠ ".") :
    (parts path).getLast? = some (basename path) := by
  rcases slash_cases path.toList with hnone | ⟨a, b, hsplit, hb⟩
  · have hbase : basename path = path := by
      rw [basename, rtakeWhile_of_slash_notMem hnone, String.ofList_toList]
    rw [hbase] at hempty hdot ⊢
    rw [parts, List.splitOn_eq_singleton hnone]
    simp [hempty, hdot]
  · have hbase : basename path = String.ofList b := by rw [basename, hsplit, rtakeWhile_slash hb]
    rw [hbase] at hempty hdot ⊢
    rw [parts, hsplit, List.splitOn_append_cons_self, List.splitOn_eq_singleton hb]
    simp [hempty, hdot]

/-- What stripping slashes of both kinds takes from the base name are backslashes. -/
theorem basename_lstrip (path : String) : ∃ stripped : List Char, (∀ c ∈ stripped, c = '\\') ∧
    (basename path).toList = stripped ++ (basename (lstrip ['/', '\\'] path)).toList := by
  obtain ⟨pre, hpre, hpath⟩ : ∃ pre : List Char, (∀ c ∈ pre, c = '/' ∨ c = '\\') ∧
      path.toList = pre ++ (lstrip ['/', '\\'] path).toList := by
    refine ⟨path.toList.takeWhile (['/', '\\'].contains ·), fun c hc => ?_, ?_⟩
    · simpa using List.mem_takeWhile_imp hc
    · rw [lstrip, String.toList_ofList, List.takeWhile_append_dropWhile]
  rw [basename, basename, String.toList_ofList, String.toList_ofList, hpath]
  rcases slash_cases (lstrip ['/', '\\'] path).toList with hnone | ⟨a, b, hsplit, hb⟩
  · rw [rtakeWhile_of_slash_notMem hnone]
    rcases slash_cases pre with hpreNone | ⟨a, b, hsplit, hb⟩
    · refine ⟨pre, fun c hc => (hpre c hc).resolve_left fun heq => hpreNone (heq ▸ hc), ?_⟩
      rw [rtakeWhile_of_slash_notMem]
      simp [hpreNone, hnone]
    · refine ⟨b, fun c hc => ?_, ?_⟩
      · have hmem : c ∈ pre := by
          rw [hsplit]
          exact List.mem_append_right _ (List.mem_cons_of_mem _ hc)
        exact (hpre c hmem).resolve_left fun heq => hb (heq ▸ hc)
      · rw [hsplit, List.append_assoc, List.cons_append, rtakeWhile_slash]
        simp [hb, hnone]
  · refine ⟨[], fun c hc => absurd hc List.not_mem_nil, ?_⟩
    rw [hsplit, ← List.append_assoc, rtakeWhile_slash hb, rtakeWhile_slash hb, List.nil_append]

end PosixPath
