import AscendAI.Lib.JavaString

/-!
# Names of uploaded files

`IngestionSecurity` turns the name that a client gives to a file into one that is safe in a
key of the bucket. Spring's `StringUtils.cleanPath` is a parameter.
-/

namespace AscendAI.Ingestion

open JavaString

def maxLength : ℕ := 200

def fallbackName : String := "unknown_file"

/-- `\p{Cntrl}` -/
def isCntrl (c : Char) : Bool := c.toNat ≤ 0x1F || c.toNat == 0x7F

/-- `[A-Za-z0-9._-]` -/
def isNameChar (c : Char) : Bool :=
  ('A' ≤ c && c ≤ 'Z') || ('a' ≤ c && c ≤ 'z') || ('0' ≤ c && c ≤ '9') || c == '.' || c == '_' || c == '-'

def truncatePreservingExtension (name : String) : String :=
  match lastIndexOf name '.' with
  | none => substring name 0 maxLength
  | some dotIdx =>
    if dotIdx = 0 ∨ dotIdx ≥ length name - 1 then substring name 0 maxLength
    else
      let ext := substring name dotIdx (length name)
      if length ext ≥ maxLength then substring name 0 maxLength
      else substring name 0 (maxLength - length ext) ++ ext

def sanitizeFilename (cleanPath : String → String) : Option String → String
  | none => fallbackName
  | some original =>
    let tail := afterLast (cleanPath original) '/'
    let stripped := removeAll isCntrl tail
    let dotsCollapsed := squeeze '.' stripped
    -- from here on every character is of ASCII, one code unit each
    let safe := replaceAll (fun c => !isNameChar c) '_' dotsCollapsed
    let safe := squeeze '_' safe
    let safe := stripLeading (fun c => c == '.' || c == '_') safe
    if isBlank safe then fallbackName
    else if length safe > maxLength then truncatePreservingExtension safe
    else safe

/-! ### The characters of a sanitized name -/

lemma mem_of_mem_substring {s : String} {i j : ℕ} {c : Char} (h : c ∈ (substring s i j).toList) :
    c ∈ s.toList := by
  rw [substring, String.toList_ofList] at h
  exact List.mem_of_mem_take (List.mem_of_mem_drop h)

lemma mem_of_mem_truncate {name : String} {c : Char}
    (h : c ∈ (truncatePreservingExtension name).toList) : c ∈ name.toList := by
  unfold truncatePreservingExtension at h
  split at h
  · exact mem_of_mem_substring h
  · dsimp only at h
    split_ifs at h
    · exact mem_of_mem_substring h
    · exact mem_of_mem_substring h
    · rw [String.toList_append, List.mem_append] at h
      rcases h with h | h
      · exact mem_of_mem_substring h
      · exact mem_of_mem_substring h

lemma isNameChar_of_mem_replaceAll {s : String} {c : Char}
    (h : c ∈ (replaceAll (fun c => !isNameChar c) '_' s).toList) : isNameChar c = true := by
  rw [replaceAll, String.toList_ofList, List.mem_map] at h
  obtain ⟨d, -, rfl⟩ := h
  cases hd : isNameChar d with
  | false =>
    rw [Bool.not_false, if_pos rfl]
    decide
  | true => simpa using hd

lemma isNameChar_of_mem_sanitizeFilename (cleanPath : String → String) (original : Option String)
    {c : Char} (h : c ∈ (sanitizeFilename cleanPath original).toList) : isNameChar c = true := by
  have hall : fallbackName.toList.all isNameChar = true := by decide
  have hfallback := List.all_eq_true.mp hall
  cases original with
  | none => exact hfallback c h
  | some original =>
    unfold sanitizeFilename at h
    dsimp only at h
    have hsafe : ∀ s : String, ∀ d ∈ (stripLeading (fun c => c == '.' || c == '_')
        (squeeze '_' (replaceAll (fun c => !isNameChar c) '_' s))).toList, isNameChar d = true := by
      intro s d hd
      rw [stripLeading, String.toList_ofList] at hd
      have hd := (List.dropWhile_suffix _).subset hd
      rw [squeeze, String.toList_ofList] at hd
      exact isNameChar_of_mem_replaceAll ((List.destutter_sublist _ _).subset hd)
    split_ifs at h
    · exact hfallback c h
    · exact hsafe _ c (mem_of_mem_truncate h)
    · exact hsafe _ c h

lemma lt_of_isNameChar {c : Char} (h : isNameChar c = true) : c.toNat < 128 := by
  have hle : ∀ d : Char, d.toNat < 128 → c ≤ d → c.toNat < 128 := by
    intro d hd hcd
    exact (UInt32.le_iff_toNat_le.mp hcd).trans_lt hd
  simp only [isNameChar, Bool.or_eq_true, Bool.and_eq_true, decide_eq_true_eq, beq_iff_eq] at h
  rcases h with ((((⟨-, h⟩ | ⟨-, h⟩) | ⟨-, h⟩) | rfl) | rfl) | rfl
  · exact hle 'Z' (by decide) h
  · exact hle 'z' (by decide) h
  · exact hle '9' (by decide) h
  · decide
  · decide
  · decide

lemma isAscii_sanitizeFilename (cleanPath : String → String) (original : Option String) :
    isAscii (sanitizeFilename cleanPath original) = true := by
  unfold isAscii
  rw [List.all_eq_true]
  intro c hc
  exact decide_eq_true (lt_of_isNameChar (isNameChar_of_mem_sanitizeFilename cleanPath original hc))

end AscendAI.Ingestion
