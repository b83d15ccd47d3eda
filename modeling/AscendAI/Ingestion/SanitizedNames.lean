import AscendAI.Ingestion.IngestionSecurity

/-!
# What a sanitized name looks like

Every step of `sanitizeFilename` keeps what the earlier steps have reached, but for the last one: the
name in front of the extension can be cut right behind a dot, and the extension starts with a dot.
-/

namespace AscendAI.Ingestion

open JavaString

/-- The name before its length is looked at. -/
def cleanedName (cleanPath : String → String) (original : String) : String :=
  let tail := afterLast (cleanPath original) '/'
  let stripped := removeAll isCntrl tail
  let dotsCollapsed := squeeze '.' stripped
  let safe := replaceAll (fun c => !isNameChar c) '_' dotsCollapsed
  let safe := squeeze '_' safe
  stripLeading (fun c => c == '.' || c == '_') safe

lemma sanitizeFilename_some (cleanPath : String → String) (original : String) :
    sanitizeFilename cleanPath (some original) =
      if isBlank (cleanedName cleanPath original) then fallbackName
      else if length (cleanedName cleanPath original) > maxLength
        then truncatePreservingExtension (cleanedName cleanPath original)
      else cleanedName cleanPath original := rfl

structure SafeName (name : String) : Prop where
  nonempty : name ≠ ""
  length_le : length name ≤ maxLength
  chars : ∀ c ∈ name.toList, isNameChar c = true
  noLeadingDot : startsWith name "." = false
  noLeadingUnderscore : startsWith name "_" = false
  noDots : contains name ".." = false
  noUnderscores : contains name "__" = false

/-- The name is too long, and keeping its extension cuts it right behind a dot. -/
def CutBehindDot (name : String) : Prop :=
  ∃ base rest ext : List Char, name.toList = base ++ '.' :: rest ++ '.' :: ext ∧ '.' ∉ ext ∧ ext ≠ [] ∧
    rest ≠ [] ∧ base.length + ext.length + 2 = maxLength

/-! ### The characters of a name, as a list -/

/-- The list has the characters of a safe name, in a safe order. -/
structure SafeChars (l : List Char) : Prop where
  nonempty : l ≠ []
  chars : ∀ c ∈ l, isNameChar c = true
  head : ∀ c ∈ l.head?, c ≠ '.' ∧ c ≠ '_'
  noDots : NoPair '.' l
  noUnderscores : NoPair '_' l

lemma length_eq_of_isNameChar {name : String} (h : ∀ c ∈ name.toList, isNameChar c = true) :
    length name = name.toList.length := by
  refine length_eq_of_basic fun c hc => ?_
  have hlt := lt_of_isNameChar (h c hc)
  exact UInt32.lt_iff_toNat_lt.mpr (hlt.trans (by decide))

lemma startsWith_singleton (name : String) (c : Char) :
    startsWith name (String.ofList [c]) = false ↔ ∀ d ∈ name.toList.head?, d ≠ c := by
  rw [startsWith, String.toList_ofList]
  cases name.toList with
  | nil => simp
  | cons d l =>
    simp only [List.isPrefixOf, Bool.and_true, beq_eq_false_iff_ne, List.head?_cons, Option.mem_def,
      Option.some.injEq, forall_eq']
    exact ne_comm

lemma safeName_iff (name : String) :
    SafeName name ↔ SafeChars name.toList ∧ name.toList.length ≤ maxLength := by
  have hdot := startsWith_singleton name '.'
  have hunderscore := startsWith_singleton name '_'
  have hdots := @contains_pair '.' name
  have hunderscores := @contains_pair '_' name
  constructor
  · intro h
    have hlength := length_eq_of_isNameChar h.chars
    refine ⟨⟨?_, h.chars, fun c hc => ?_, ?_, ?_⟩, ?_⟩
    · exact fun hnil => h.nonempty (String.toList_eq_nil_iff.mp hnil)
    · exact ⟨hdot.mp h.noLeadingDot c hc, hunderscore.mp h.noLeadingUnderscore c hc⟩
    · exact hdots.mp h.noDots
    · exact hunderscores.mp h.noUnderscores
    · rw [← hlength]
      exact h.length_le
  · rintro ⟨h, hle⟩
    have hlength := length_eq_of_isNameChar h.chars
    refine ⟨?_, hlength.trans_le hle, h.chars, ?_, ?_, ?_, ?_⟩
    · exact fun hempty => h.nonempty (String.toList_eq_nil_iff.mpr hempty)
    · exact hdot.mpr fun c hc => (h.head c hc).1
    · exact hunderscore.mpr fun c hc => (h.head c hc).2
    · exact hdots.mpr h.noDots
    · exact hunderscores.mpr h.noUnderscores

/-- A part of the name from its start is as safe as the name. -/
lemma SafeChars.take {l : List Char} (h : SafeChars l) {n : ℕ} (hn : 0 < n) : SafeChars (l.take n) := by
  refine ⟨?_, fun c hc => h.chars c (List.mem_of_mem_take hc), fun c hc => ?_, ?_, ?_⟩
  · rw [ne_eq, List.take_eq_nil_iff]
    exact not_or.mpr ⟨hn.ne', h.nonempty⟩
  · rw [List.head?_take, if_neg hn.ne'] at hc
    exact h.head c hc
  · exact List.IsChain.prefix h.noDots (List.take_prefix n l)
  · exact List.IsChain.prefix h.noUnderscores (List.take_prefix n l)

lemma safeChars_fallbackName : SafeChars fallbackName.toList := by
  have hall : fallbackName.toList.all isNameChar = true := by decide
  have hhead : fallbackName.toList.head? = some 'u' := by decide
  refine ⟨by decide, List.all_eq_true.mp hall, fun c hc => ?_, ?_, ?_⟩
  · obtain rfl := Option.some.inj (hhead.symm.trans hc)
    decide
  · rw [noPair_iff]
    decide
  · rw [noPair_iff]
    decide

lemma safeChars_stripLeading {s : String} (hchars : ∀ c ∈ s.toList, isNameChar c = true)
    (hdots : NoPair '.' s.toList) (hunderscores : NoPair '_' s.toList)
    (h : (stripLeading (fun c => c == '.' || c == '_') s).toList ≠ []) :
    SafeChars (stripLeading (fun c => c == '.' || c == '_') s).toList := by
  rw [stripLeading, String.toList_ofList] at h ⊢
  have hsuffix := List.dropWhile_suffix (fun c => c == '.' || c == '_') (l := s.toList)
  refine ⟨h, fun c hc => hchars c (hsuffix.subset hc), fun c hc => ?_, ?_, ?_⟩
  · have hnot := List.head?_dropWhile_not (fun c => c == '.' || c == '_') s.toList
    rw [Option.mem_def.mp hc] at hnot
    simpa using hnot
  · exact List.IsChain.suffix hdots hsuffix
  · exact List.IsChain.suffix hunderscores hsuffix

/-- What is left before the truncation is blank or safe. -/
lemma safeChars_cleanedName (cleanPath : String → String) (original : String)
    (h : isBlank (cleanedName cleanPath original) = false) :
    SafeChars (cleanedName cleanPath original).toList := by
  simp only [cleanedName] at h ⊢
  generalize removeAll isCntrl (afterLast (cleanPath original) '/') = stripped at h ⊢
  have hdots := ((noPair_squeeze '.' stripped).replaceAll (fun c => !isNameChar c) (c := '_')
    (by decide)).squeeze '_'
  have hchars : ∀ c ∈ (squeeze '_' (replaceAll (fun c => !isNameChar c) '_'
      (squeeze '.' stripped))).toList, isNameChar c = true := by
    intro c hc
    rw [squeeze, String.toList_ofList] at hc
    exact isNameChar_of_mem_replaceAll ((List.destutter_sublist _ _).subset hc)
  refine safeChars_stripLeading hchars hdots (noPair_squeeze '_' _) fun hnil => ?_
  rw [isBlank, hnil, List.all_nil] at h
  exact Bool.noConfusion h

/-! ### The truncation -/

lemma toList_substring (name : String) (i j : ℕ) :
    (substring name i j).toList = (name.toList.take j).drop i := by
  rw [substring, String.toList_ofList]

section Truncate

variable {name : String} {pre ext : List Char}

lemma cutBehindDot_iff (hname : name.toList = pre ++ '.' :: ext) (hext : '.' ∉ ext) :
    CutBehindDot name ↔ ext ≠ [] ∧ ∃ base rest : List Char, pre = base ++ '.' :: rest ∧ rest ≠ [] ∧
      base.length + ext.length + 2 = maxLength := by
  constructor
  · rintro ⟨base, rest, ext', hsplit, hext', hne, hrest, hlength⟩
    rw [hname] at hsplit
    obtain ⟨hpre, rfl⟩ := append_cons_inj_of_notMem hsplit hext hext'
    exact ⟨hne, base, rest, hpre, hrest, hlength⟩
  · rintro ⟨hne, base, rest, hpre, hrest, hlength⟩
    exact ⟨base, rest, ext, by rw [hname, hpre], hext, hne, hrest, hlength⟩

/-- A name keeps its first characters, or as many of them as its extension leaves. -/
lemma toList_truncate (hchars : ∀ c ∈ name.toList, isNameChar c = true)
    (hname : name.toList = pre ++ '.' :: ext) (hext : '.' ∉ ext) :
    (truncatePreservingExtension name).toList =
      if pre = [] ∨ ext = [] ∨ maxLength ≤ ext.length + 1 then name.toList.take maxLength
      else name.toList.take (maxLength - (ext.length + 1)) ++ '.' :: ext := by
  have hlength : length name = pre.length + ext.length + 1 := by
    rw [length_eq_of_isNameChar hchars, hname, List.length_append, List.length_cons]
    omega
  have hsuffix : (substring name pre.length (length name)).toList = '.' :: ext := by
    have hall : name.toList.length ≤ length name := (length_eq_of_isNameChar hchars).ge
    rw [toList_substring, List.take_of_length_le hall, hname, List.drop_left]
  have hextLength : length (substring name pre.length (length name)) = ext.length + 1 := by
    have hextChars : ∀ c ∈ (substring name pre.length (length name)).toList, isNameChar c = true :=
      fun c hc => hchars c (mem_of_mem_substring hc)
    rw [length_eq_of_isNameChar hextChars, hsuffix, List.length_cons]
  have hedge : (pre.length = 0 ∨ pre.length ≥ length name - 1) ↔ pre = [] ∨ ext = [] := by
    rw [hlength, ← List.length_eq_zero_iff, ← List.length_eq_zero_iff]
    omega
  rw [truncatePreservingExtension, lastIndexOf_append hname hext]
  simp only [hedge, hextLength]
  by_cases hnone : pre = [] ∨ ext = []
  · have hor : pre = [] ∨ ext = [] ∨ maxLength ≤ ext.length + 1 := by tauto
    rw [if_pos hnone, if_pos hor, toList_substring, List.drop_zero]
  · rw [if_neg hnone]
    by_cases hlong : maxLength ≤ ext.length + 1
    · rw [if_pos hlong, if_pos (.inr (.inr hlong)), toList_substring, List.drop_zero]
    · have hor : ¬(pre = [] ∨ ext = [] ∨ maxLength ≤ ext.length + 1) := by tauto
      rw [if_neg hlong, if_neg hor, String.toList_append, toList_substring, hsuffix, List.drop_zero]

/-- Behind a safe beginning the extension is safe unless two dots meet. -/
lemma safeChars_append_ext_iff (h : SafeChars (pre ++ '.' :: ext)) {n : ℕ} (hn : 0 < n) (hpre : n ≤ pre.length) :
    SafeChars (pre.take n ++ '.' :: ext) ↔ (pre.take n).getLast? ≠ some '.' := by
  have htake : SafeChars (pre.take n) := by
    have hall := h.take hn
    rwa [List.take_append_of_le_length hpre] at hall
  have hdots : NoPair '.' ('.' :: ext) := List.IsChain.suffix h.noDots (List.suffix_append _ _)
  have hunderscores : NoPair '_' ('.' :: ext) := List.IsChain.suffix h.noUnderscores (List.suffix_append _ _)
  constructor
  · intro hsafe hlast
    have hmeet := (List.isChain_append.mp hsafe.noDots).2.2 '.' hlast '.' rfl
    exact hmeet ⟨rfl, rfl⟩
  · intro hlast
    refine ⟨List.append_ne_nil_of_left_ne_nil htake.nonempty _, fun c hc => ?_, fun c hc => ?_, ?_, ?_⟩
    · rcases List.mem_append.mp hc with hfirst | hsecond
      · exact htake.chars c hfirst
      · exact h.chars c (List.mem_append_right _ hsecond)
    · rw [List.head?_append_of_ne_nil _ htake.nonempty] at hc
      exact htake.head c hc
    · refine List.isChain_append.mpr ⟨htake.noDots, hdots, fun x hx y _ hpair => ?_⟩
      rw [hpair.1] at hx
      exact hlast hx
    · refine List.isChain_append.mpr ⟨htake.noUnderscores, hunderscores, fun x _ y hy hpair => ?_⟩
      have hdot : '.' = y := Option.some.inj hy
      rw [hpair.2] at hdot
      exact absurd hdot (by decide)

lemma getLast?_take_eq_dot_iff {n : ℕ} (hn : 0 < n) (hpre : n < pre.length) :
    (pre.take n).getLast? = some '.' ↔
      ∃ base rest : List Char, pre = base ++ '.' :: rest ∧ rest ≠ [] ∧ base.length + 1 = n := by
  constructor
  · intro hlast
    obtain ⟨base, hbase⟩ := List.getLast?_eq_some_iff.mp hlast
    refine ⟨base, pre.drop n, ?_, ?_, ?_⟩
    · conv_lhs => rw [← List.take_append_drop n pre, hbase]
      rw [List.append_assoc, List.singleton_append]
    · rw [ne_eq, List.drop_eq_nil_iff]
      omega
    · have hlength := congrArg List.length hbase
      rw [List.length_take, List.length_append, List.length_singleton] at hlength
      omega
  · rintro ⟨base, rest, rfl, -, rfl⟩
    have htake : (base ++ '.' :: rest).take (base.length + 1) = base ++ ['.'] := by
      rw [List.take_append, List.take_of_length_le (Nat.le_succ _)]
      simp
    rw [htake, List.getLast?_concat]

end Truncate

lemma safeName_truncate_iff {name : String} (h : SafeChars name.toList) (hlong : maxLength < name.toList.length) :
    SafeName (truncatePreservingExtension name) ↔ ¬CutBehindDot name := by
  have hcut : SafeChars (name.toList.take maxLength) ∧ (name.toList.take maxLength).length ≤ maxLength :=
    ⟨h.take (by decide), List.length_take_le _ _⟩
  rw [safeName_iff]
  by_cases hdot : '.' ∈ name.toList
  · obtain ⟨pre, ext, hname, hext⟩ := exists_append_cons_of_mem hdot
    have hlength : name.toList.length = pre.length + ext.length + 1 := by
      rw [hname, List.length_append, List.length_cons]
      omega
    rw [toList_truncate h.chars hname hext, cutBehindDot_iff hname hext]
    split
    · rename_i hwhole
      refine iff_of_true hcut ?_
      rintro ⟨hne, base, rest, rfl, -, hsum⟩
      rcases hwhole with hnil | hnil | hlarge
      · simp at hnil
      · exact hne hnil
      · omega
    · rename_i hkept
      simp only [not_or, not_le] at hkept
      obtain ⟨-, hne, hshort⟩ := hkept
      have hn : 0 < maxLength - (ext.length + 1) := by omega
      have hpre : maxLength - (ext.length + 1) < pre.length := by omega
      rw [hname, List.take_append_of_le_length hpre.le, safeChars_append_ext_iff (hname ▸ h) hn hpre.le,
        ne_eq, getLast?_take_eq_dot_iff hn hpre]
      have hfits : (pre.take (maxLength - (ext.length + 1)) ++ '.' :: ext).length ≤ maxLength := by
        rw [List.length_append, List.length_take, List.length_cons]
        omega
      rw [and_iff_left hfits, and_iff_right hne]
      refine not_congr (exists_congr fun base => exists_congr fun rest => ?_)
      refine and_congr_right fun _ => and_congr_right fun _ => ?_
      omega
  · have hcutNone : ¬CutBehindDot name := by
      rintro ⟨base, rest, ext, hsplit, -⟩
      rw [hsplit] at hdot
      simp at hdot
    rw [truncatePreservingExtension, lastIndexOf_of_notMem hdot, toList_substring, List.drop_zero]
    exact iff_of_true hcut hcutNone

/-! ### A safe name is sanitized already -/

/-- `StringUtils.cleanPath` leaves a plain file name alone. -/
def KeepsPlainNames (cleanPath : String → String) : Prop :=
  ∀ name, name ≠ "" → name ≠ "." → name ≠ ".." → (∀ c ∈ name.toList, c ≠ '/' ∧ c ≠ '\\' ∧ c ≠ ':') →
    cleanPath name = name

lemma bounds_of_isNameChar {c : Char} (h : isNameChar c = true) : 0x2D ≤ c.toNat ∧ c.toNat ≤ 0x7A := by
  have hle : ∀ d e : Char, d ≤ c → c ≤ e → 0x2D ≤ d.toNat → e.toNat ≤ 0x7A →
      0x2D ≤ c.toNat ∧ c.toNat ≤ 0x7A := by
    intro d e hd he hlow hhigh
    exact ⟨hlow.trans (UInt32.le_iff_toNat_le.mp hd), (UInt32.le_iff_toNat_le.mp he).trans hhigh⟩
  simp only [isNameChar, Bool.or_eq_true, Bool.and_eq_true, decide_eq_true_eq, beq_iff_eq] at h
  rcases h with ((((⟨h, h'⟩ | ⟨h, h'⟩) | ⟨h, h'⟩) | rfl) | rfl) | rfl
  · exact hle 'A' 'Z' h h' (by decide) (by decide)
  · exact hle 'a' 'z' h h' (by decide) (by decide)
  · exact hle '0' '9' h h' (by decide) (by decide)
  · decide
  · decide
  · decide

lemma isCntrl_of_isNameChar {c : Char} (h : isNameChar c = true) : isCntrl c = false := by
  have hbounds := bounds_of_isNameChar h
  simp only [isCntrl, Bool.or_eq_false_iff, decide_eq_false_iff_not, beq_eq_false_iff_ne]
  omega

lemma isWhitespace_of_isNameChar {c : Char} (h : isNameChar c = true) : isWhitespace c = false := by
  have hbounds := bounds_of_isNameChar h
  simp only [isWhitespace, Bool.or_eq_false_iff, Bool.and_eq_false_iff, decide_eq_false_iff_not,
    beq_eq_false_iff_ne]
  omega

lemma ne_of_isNameChar {c d : Char} (h : isNameChar c = true) (hd : isNameChar d = false) : c ≠ d := by
  rintro rfl
  rw [h] at hd
  exact Bool.noConfusion hd

lemma SafeChars.cleanedName {cleanPath : String → String} (hclean : KeepsPlainNames cleanPath)
    {name : String} (h : SafeChars name.toList) : cleanedName cleanPath name = name := by
  have hhead : ∀ s : String, s.toList.head? = some '.' → name ≠ s := by
    rintro s hs rfl
    exact (h.head '.' hs).1 rfl
  have hpath : cleanPath name = name := by
    refine hclean name ?_ (hhead "." rfl) (hhead ".." rfl) fun c hc => ?_
    · exact fun hempty => h.nonempty (String.toList_eq_nil_iff.mpr hempty)
    · have hname := h.chars c hc
      exact ⟨ne_of_isNameChar hname (by decide), ne_of_isNameChar hname (by decide),
        ne_of_isNameChar hname (by decide)⟩
  have htail : afterLast name '/' = name := by
    rw [afterLast, List.rtakeWhile_eq_self_iff.mpr, String.ofList_toList]
    intro c hc
    exact bne_iff_ne.mpr (ne_of_isNameChar (h.chars c hc) (by decide))
  have hstripped : removeAll isCntrl name = name := by
    rw [removeAll, List.filter_eq_self.mpr, String.ofList_toList]
    intro c hc
    rw [isCntrl_of_isNameChar (h.chars c hc), Bool.not_false]
  have hreplaced : replaceAll (fun c => !isNameChar c) '_' name = name := by
    have hmap : name.toList.map (fun d => if !isNameChar d then '_' else d) = name.toList := by
      refine (List.map_congr_left fun c hc => ?_).trans (List.map_id _)
      rw [h.chars c hc]
      rfl
    rw [replaceAll, hmap, String.ofList_toList]
  have hled : stripLeading (fun c => c == '.' || c == '_') name = name := by
    rw [stripLeading, List.dropWhile_eq_self_iff.mpr, String.ofList_toList]
    intro hlength
    have hmem := h.head _ (List.head?_eq_getElem? .. ▸ List.getElem?_eq_getElem hlength)
    simpa using hmem
  simp only [Ingestion.cleanedName, hpath, htail, hstripped, squeeze_eq_self h.noDots, hreplaced,
    squeeze_eq_self h.noUnderscores, hled]

lemma isBlank_of_safeChars {name : String} (h : SafeChars name.toList) : isBlank name = false := by
  obtain ⟨c, hc⟩ := List.exists_mem_of_ne_nil _ h.nonempty
  rw [isBlank, List.all_eq_false]
  exact ⟨c, hc, by rw [isWhitespace_of_isNameChar (h.chars c hc)]; exact Bool.false_ne_true⟩

lemma sanitizeFilename_of_safeName {cleanPath : String → String} (hclean : KeepsPlainNames cleanPath)
    {name : String} (h : SafeName name) : sanitizeFilename cleanPath (some name) = name := by
  have hchars := ((safeName_iff name).mp h).1
  rw [sanitizeFilename_some, hchars.cleanedName hclean, isBlank_of_safeChars hchars,
    if_neg Bool.false_ne_true, if_neg (not_lt.mpr h.length_le)]

lemma lt_of_cutBehindDot {name : String} (h : CutBehindDot name) : maxLength < name.toList.length := by
  obtain ⟨base, rest, ext, hname, -, -, hrest, hlength⟩ := h
  have hpos := List.length_pos_iff.mpr hrest
  rw [hname, List.length_append, List.length_append, List.length_cons, List.length_cons]
  omega

lemma safeName_sanitizeFilename_iff (cleanPath : String → String) (original : Option String) :
    SafeName (sanitizeFilename cleanPath original) ↔
      ∀ name, original = some name → ¬CutBehindDot (cleanedName cleanPath name) := by
  have hfallback : SafeName fallbackName := (safeName_iff _).mpr ⟨safeChars_fallbackName, by decide⟩
  cases original with
  | none => exact iff_of_true hfallback fun name hname => by cases hname
  | some original =>
    simp only [Option.some.injEq, forall_eq']
    rw [sanitizeFilename_some]
    cases hblank : isBlank (cleanedName cleanPath original) with
    | true =>
      rw [if_pos rfl]
      refine iff_of_true hfallback fun hcut => ?_
      obtain ⟨base, rest, ext, hname, -⟩ := hcut
      rw [isBlank, List.all_eq_true] at hblank
      have hdot := hblank '.' (by rw [hname]; simp)
      exact absurd hdot (by decide)
    | false =>
      have hsafe := safeChars_cleanedName cleanPath original hblank
      have hlength := length_eq_of_isNameChar hsafe.chars
      rw [if_neg Bool.false_ne_true]
      split
      · rename_i hlong
        exact safeName_truncate_iff hsafe (hlength ▸ hlong)
      · rename_i hshort
        rw [hlength, gt_iff_lt, not_lt] at hshort
        refine iff_of_true ((safeName_iff _).mpr ⟨hsafe, hshort⟩) fun hcut => ?_
        exact absurd (lt_of_cutBehindDot hcut) (not_lt.mpr hshort)

/-- A sanitized name is safe and stays as it is when it is sanitized again, exactly when the original is
not cut behind a dot. -/
theorem sanitizeFilename_safe_iff (cleanPath : String → String) (hclean : KeepsPlainNames cleanPath)
    (original : Option String) :
    (SafeName (sanitizeFilename cleanPath original) ∧
        sanitizeFilename cleanPath (some (sanitizeFilename cleanPath original)) =
          sanitizeFilename cleanPath original) ↔
      ∀ name, original = some name → ¬CutBehindDot (cleanedName cleanPath name) := by
  have hiff := safeName_sanitizeFilename_iff cleanPath original
  constructor
  · exact fun h => hiff.mp h.1
  · intro h
    have hsafe := hiff.mpr h
    exact ⟨hsafe, sanitizeFilename_of_safeName hclean hsafe⟩

/-- A report with a plain name. -/
theorem sanitized_report :
    SafeName (sanitizeFilename id (some "report.pdf")) ∧
      sanitizeFilename id (some (sanitizeFilename id (some "report.pdf"))) =
        sanitizeFilename id (some "report.pdf") := by
  refine (sanitizeFilename_safe_iff id (fun _ _ _ _ _ => rfl) (some "report.pdf")).mpr ?_
  rintro name hname hcut
  obtain rfl := Option.some.inj hname
  have hlong := lt_of_cutBehindDot hcut
  revert hlong
  decide +kernel

/-- Letters in front of a safe name. -/
lemma SafeChars.replicate_append {l : List Char} (h : SafeChars l) (n : ℕ) :
    SafeChars (List.replicate n 'a' ++ l) := by
  induction n with
  | zero => exact h
  | succ n ih =>
    rw [List.replicate_succ, List.cons_append]
    refine ⟨List.cons_ne_nil _ _, fun c hc => ?_, fun c hc => ?_, ?_, ?_⟩
    · rcases List.mem_cons.mp hc with rfl | hrest
      · decide
      · exact ih.chars c hrest
    · obtain rfl := Option.some.inj hc
      decide
    · exact List.isChain_cons.mpr ⟨fun _ _ hpair => absurd hpair.1 (by decide), ih.noDots⟩
    · exact List.isChain_cons.mpr ⟨fun _ _ hpair => absurd hpair.1 (by decide), ih.noUnderscores⟩

def versionedName (n : ℕ) : String := String.ofList (List.replicate n 'a' ++ ['a', '.', 'b'] ++ '.' :: ['t', 'x', 't'])

lemma toList_versionedName (n : ℕ) :
    (versionedName n).toList = List.replicate n 'a' ++ ['a', '.', 'b'] ++ '.' :: ['t', 'x', 't'] :=
  String.toList_ofList

lemma safeChars_versionedName (n : ℕ) : SafeChars (versionedName n).toList := by
  have hend : SafeChars ['a', '.', 'b', '.', 't', 'x', 't'] := by
    have hall : ['a', '.', 'b', '.', 't', 'x', 't'].all isNameChar = true := by decide
    refine ⟨by decide, List.all_eq_true.mp hall, fun c hc => ?_, ?_, ?_⟩
    · obtain rfl := Option.some.inj hc
      decide
    · rw [noPair_iff]
      decide
    · rw [noPair_iff]
      decide
  rw [toList_versionedName, List.append_assoc]
  exact hend.replicate_append n

/-- The base is cut behind its dot, and two dots meet. -/
theorem sanitized_name_not_safe :
    contains (sanitizeFilename id (some (versionedName 194))) ".." = true ∧
      ¬(SafeName (sanitizeFilename id (some (versionedName 194))) ∧
        sanitizeFilename id (some (sanitizeFilename id (some (versionedName 194)))) =
          sanitizeFilename id (some (versionedName 194))) := by
  have hkeeps : KeepsPlainNames id := fun _ _ _ _ _ => rfl
  have hsafe := safeChars_versionedName 194
  have hname := toList_versionedName 194
  have hlong : maxLength < length (versionedName 194) := by
    rw [length_eq_of_isNameChar hsafe.chars, hname]
    decide +kernel
  have hresult : (sanitizeFilename id (some (versionedName 194))).toList =
      List.replicate 195 'a' ++ ['.', '.', 't', 'x', 't'] := by
    rw [sanitizeFilename_some, hsafe.cleanedName hkeeps, isBlank_of_safeChars hsafe,
      if_neg Bool.false_ne_true, if_pos hlong, toList_truncate hsafe.chars hname (by decide), hname]
    decide +kernel
  have hdots : contains (sanitizeFilename id (some (versionedName 194))) ".." = true := by
    rw [contains, hresult]
    decide +kernel
  refine ⟨hdots, fun h => ?_⟩
  rw [h.1.noDots] at hdots
  cases hdots

end AscendAI.Ingestion
