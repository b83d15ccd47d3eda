import AscendAI.Lib.ConcatScript
import AscendAI.AudioScribe.ZipExtraction

/-!
# The list of files to concatenate

What is written for ffmpeg to read the paths back from. Paths go into single quotes as they are, but for
backslashes, which become slashes.
-/

namespace AscendAI.AudioScribe
open ConcatScript

/-- `path.replace("\\", "/")` -/
def safePath (path : String) : String := String.ofList (path.toList.map fun c => if c = '\\' then '/' else c)

/-- `_write_concat_list` -/
def writeConcatList : List String → String
  | [] => ""
  | path :: filePaths => "file '" ++ safePath path ++ "'\n" ++ writeConcatList filePaths

/-- There is one directive for each path, which names it. -/
def EncodesPaths (filePaths : List String) : Prop :=
  readScript (writeConcatList filePaths) = filePaths.map (Directive.mk "file")

lemma safePath_eq_self {path : String} (h : '\\' ∉ path.toList) : safePath path = path := by
  have hmap : path.toList.map (fun c => if c = '\\' then '/' else c) = path.toList.map id := by
    apply List.map_congr_left
    intro c hc
    have hne : c ≠ '\\' := fun heq => h (heq ▸ hc)
    rw [if_neg hne, id]
  rw [safePath, hmap, List.map_id, String.ofList_toList]

lemma backslash_notMem_writeConcatList (filePaths : List String) : '\\' ∉ (writeConcatList filePaths).toList := by
  induction filePaths with
  | nil => simp [writeConcatList]
  | cons path filePaths ih =>
    have hsafe : '\\' ∉ (safePath path).toList := by
      rw [safePath, String.toList_ofList, List.mem_map]
      rintro ⟨c, -, hc⟩
      split at hc
      · exact absurd hc (by decide)
      · rename_i hne
        exact hne hc
    simp [writeConcatList, String.toList_append, hsafe, ih]

/-- The line of a path without quotes and line breaks is read back. -/
lemma readLine_file {path : String} (hquote : '\'' ∉ path.toList) :
    readLine ("file '".toList ++ path.toList ++ ['\'']) = some ⟨"file", path⟩ := by
  have hargument : readArgument false ('\'' :: (path.toList ++ ['\''])) = path.toList := by
    rw [readArgument_cons (by decide), if_neg (by decide), if_pos rfl, readArgument_quoted hquote]
  have hline : "file '".toList ++ path.toList ++ ['\''] =
      'f' :: 'i' :: 'l' :: 'e' :: ' ' :: '\'' :: (path.toList ++ ['\'']) := by
    simp
  rw [hline]
  simp [readLine, isSpace, hargument]

lemma readScript_cons {path : String} {filePaths : List String} (hslash : '\\' ∉ path.toList)
    (hquote : '\'' ∉ path.toList) (hbreak : '\n' ∉ path.toList) :
    readScript (writeConcatList (path :: filePaths)) = ⟨"file", path⟩ :: readScript (writeConcatList filePaths) := by
  have htext : (writeConcatList (path :: filePaths)).toList =
      ("file '".toList ++ path.toList ++ ['\'']) ++ '\n' :: (writeConcatList filePaths).toList := by
    simp [writeConcatList, safePath_eq_self hslash, String.toList_append]
  have hline : '\n' ∉ "file '".toList ++ path.toList ++ ['\''] := by simp [hbreak]
  rw [readScript, htext, List.splitOn_append_cons_self_of_not_mem hline,
    List.filterMap_cons_some (readLine_file hquote)]
  rfl

/-- The list can be read back exactly when no path has a quote, a backslash or a line break. -/
theorem encodesPaths_iff (filePaths : List String) :
    EncodesPaths filePaths ↔ ∀ path ∈ filePaths, ∀ c ∈ path.toList, c ≠ '\'' ∧ c ≠ '\\' ∧ c ≠ '\n' := by
  rw [EncodesPaths]
  constructor
  · intro h path hpath c hc
    have hdirective : (⟨"file", path⟩ : Directive) ∈ readScript (writeConcatList filePaths) := by
      rw [h]
      exact List.mem_map_of_mem hpath
    exact mem_argument (backslash_notMem_writeConcatList filePaths) hdirective hc
  · intro h
    induction filePaths with
    | nil => simp [writeConcatList, readScript, readLine]
    | cons path filePaths ih =>
      obtain ⟨hpath, hrest⟩ := List.forall_mem_cons.mp h
      rw [readScript_cons (fun hc => (hpath _ hc).2.1 rfl) (fun hc => (hpath _ hc).1 rfl)
        (fun hc => (hpath _ hc).2.2 rfl), ih hrest, List.map_cons]

/-- A member with a quote in its name keeps it on disk, and its path is then read as another one. -/
theorem quote_breaks_concatList :
    resolveZipMemberTarget ["x"] "00000000" "it's.au" = some ["x", "it's.au"] ∧
      ¬EncodesPaths ["/x/it's.au", "/x/b.au"] ∧ ¬EncodesPaths ["/x/a\\b.au"] ∧ ¬EncodesPaths ["/x/a\nb.au"] := by
  refine ⟨by decide +kernel, ?_, ?_, ?_⟩ <;> (rw [EncodesPaths]; decide +kernel)

end AscendAI.AudioScribe
