import AscendAI.Lib.PosixPath

/-!
# File trees with symbolic links

Where the operating system finds the file of a path whose components may be symbolic links, which paths
have none, and when a path is below another one by its components.
-/

open PosixPath

inductive FileNode where
  | file (bytes : List UInt8)
  | directory
  | link (target : String)

/-- What is at each path from the root, and where a relative path starts. A lookup of more than `limit`
steps is given up. -/
structure FileTree where
  node : Path → Option FileNode
  workingDirectory : Path := []
  limit : ℕ

namespace PosixPath

def isAbsolute (path : String) : Bool := path.toList.head? == some '/'

def commonPrefix : Path → Path → Path
  | a :: l, b :: m => if a = b then a :: commonPrefix l m else []
  | _, _ => []

/-- `os.path.commonpath` of two paths: the longest common path by components. An absolute path and a
relative one have none, and `ValueError` is raised. -/
def commonpath (path root : String) : Option String :=
  if isAbsolute path = isAbsolute root then
    some ((if isAbsolute path then "/" else "") ++ PythonString.join "/" (commonPrefix (parts path) (parts root)))
  else none

lemma commonPrefix_left (l m : Path) : commonPrefix l m <+: l := by
  fun_induction commonPrefix l m with
  | case1 a l m ih => exact List.cons_prefix_cons.mpr ⟨rfl, ih⟩
  | case2 => exact List.nil_prefix
  | case3 => exact List.nil_prefix

lemma mem_parts {path part : String} (h : part ∈ parts path) :
    part ≠ "" ∧ part ≠ "." ∧ '/' ∉ part.toList := by
  rw [parts, List.mem_filter] at h
  obtain ⟨hmem, hkept⟩ := h
  obtain ⟨segment, hsegment, rfl⟩ := List.mem_map.mp hmem
  have hslash : '/' ∉ segment := fun h => (PythonString.mem_of_mem_splitOn hsegment h).2 rfl
  simp only [Bool.and_eq_true, bne_iff_ne] at hkept
  exact ⟨hkept.1, hkept.2, by rwa [String.toList_ofList]⟩

/-- The parts that a path is joined from are its parts. -/
lemma parts_join {l : Path} (h : ∀ part ∈ l, part ≠ "" ∧ part ≠ "." ∧ '/' ∉ part.toList) :
    parts (PythonString.join "/" l) = l ∧ parts ("/" ++ PythonString.join "/" l) = l := by
  have hfilter : l.filter (fun part => part != "" && part != ".") = l := by
    rw [List.filter_eq_self]
    intro part hpart
    obtain ⟨hempty, hdot, -⟩ := h part hpart
    simp [hempty, hdot]
  cases l with
  | nil => exact ⟨by decide, by decide⟩
  | cons part l =>
    have hsplit : ((['/'] : List Char).intercalate ((part :: l).map String.toList)).splitOn '/' =
        (part :: l).map String.toList := by
      apply List.splitOn_intercalate
      · simpa using ⟨(h part List.mem_cons_self).2.2, fun p hp => (h p (List.mem_cons_of_mem _ hp)).2.2⟩
      · simp
    have hjoined : ((PythonString.join "/" (part :: l)).toList.splitOn '/').map String.ofList = part :: l := by
      rw [PythonString.join, String.toList_ofList]
      change (List.splitOn '/' ((['/'] : List Char).intercalate _)).map String.ofList = _
      rw [hsplit, List.map_map]
      simp
    constructor
    · rw [parts, hjoined, hfilter]
    · have hslash : ("/" ++ PythonString.join "/" (part :: l)).toList =
          [] ++ '/' :: (PythonString.join "/" (part :: l)).toList := by
        rw [String.toList_append]
        rfl
      rw [parts, hslash, List.splitOn_append_cons_self, List.map_append, hjoined, List.filter_append, hfilter]
      rfl

/-- A path whose common path with a root is the root lies below it by components. -/
theorem parts_prefix_of_commonpath {path root : String} (h : commonpath path root = some root) :
    parts root <+: parts path := by
  have hvalid : ∀ part ∈ commonPrefix (parts path) (parts root), part ≠ "" ∧ part ≠ "." ∧ '/' ∉ part.toList :=
    fun part hpart => mem_parts ((commonPrefix_left _ _).subset hpart)
  obtain ⟨hrelative, habsolute⟩ := parts_join hvalid
  rw [commonpath] at h
  split at h
  · have hroot := Option.some.inj h
    have hparts : parts root = commonPrefix (parts path) (parts root) := by
      conv_lhs => rw [← hroot]
      split
      · exact habsolute
      · rw [String.empty_append]
        exact hrelative
    rw [hparts]
    exact commonPrefix_left _ _
  · cases h

end PosixPath

namespace FileTree

variable (t : FileTree)

/-- The path without links that the components lead to from a directory. -/
def find : ℕ → Path → List String → Option Path
  | 0, _, _ => none
  | _ + 1, here, [] => some here
  | n + 1, here, part :: rest =>
    if part = ".." then find n here.dropLast rest
    else
      match t.node (here ++ [part]) with
      | none => none
      | some (.link target) => find n (if isAbsolute target then [] else here) (parts target ++ rest)
      | some .directory => find n (here ++ [part]) rest
      | some (.file _) => if rest = [] then some (here ++ [part]) else none

/-- The bytes of a path if `os.path.isfile` holds of it. -/
def regularFile (path : String) : Option (List UInt8) :=
  match t.find t.limit (if isAbsolute path then [] else t.workingDirectory) (parts path) with
  | none => none
  | some found =>
    match t.node found with
    | some (.file bytes) => some bytes
    | _ => none

/-- No component of the path is a symbolic link. -/
def LinkFree (path : Path) : Prop := ∀ p target, p <+: path → t.node p ≠ some (.link target)

/-- The path is absolute, does not go up and has no symbolic link, as `os.path.realpath` promises. -/
structure IsReal (path : String) : Prop where
  absolute : isAbsolute path = true
  noParent : ".." ∉ parts path
  linkFree : t.LinkFree (parts path)

variable {t}

/-- Without links the components lead to themselves. -/
lemma eq_of_find {n : ℕ} {here found : Path} {rest : List String} (hparent : ".." ∉ rest)
    (hlink : t.LinkFree (here ++ rest)) (h : t.find n here rest = some found) : found = here ++ rest := by
  induction n generalizing here rest with
  | zero => cases h
  | succ n ih =>
    cases rest with
    | nil =>
      rw [List.append_nil]
      exact (Option.some.inj h).symm
    | cons part rest =>
      obtain ⟨hpart, hrest⟩ := not_or.mp (List.mem_cons.not.mp hparent)
      have happend : here ++ part :: rest = here ++ [part] ++ rest := by
        rw [List.append_assoc, List.singleton_append]
      rw [find, if_neg (Ne.symm hpart)] at h
      cases hnode : t.node (here ++ [part]) with
      | none =>
        rw [hnode] at h
        cases h
      | some node =>
        rw [hnode] at h
        cases node with
        | link target =>
          refine absurd hnode (hlink _ target ?_)
          rw [happend]
          exact List.prefix_append _ _
        | directory =>
          rw [happend] at hlink ⊢
          exact ih hrest hlink h
        | file bytes =>
          simp only at h
          split at h
          · rename_i hempty
            rw [hempty]
            exact (Option.some.inj h).symm
          · cases h

/-- A real path is where its file is. -/
theorem node_of_regularFile {path : String} {bytes : List UInt8} (hreal : t.IsReal path)
    (h : t.regularFile path = some bytes) : t.node (parts path) = some (.file bytes) := by
  rw [regularFile, if_pos hreal.absolute] at h
  cases hfound : t.find t.limit [] (parts path) with
  | none =>
    rw [hfound] at h
    cases h
  | some found =>
    obtain rfl : found = parts path := eq_of_find hreal.noParent hreal.linkFree hfound
    simp only [hfound] at h
    split at h
    · rename_i hnode
      rw [hnode, Option.some.inj h]
    · cases h

end FileTree
