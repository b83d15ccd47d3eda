import AscendAI.AudioScribe.ZipExtraction

/-!
# What is left of an archive

Extraction stays below its root whatever the names are. Whether every member is still there in the end, and
every audio file under the name that the project has for it, depends on the names: two of them may lead to
one path, and a base name that looks like a flag or starts with a backslash is changed on the way.
-/

namespace AscendAI.AudioScribe
open PosixPath PythonString FileSystem

def declaredSize : List ZipMember → ℕ
  | [] => 0
  | member :: rest => member.fileSize + declaredSize rest

def ZipMember.isAudio (member : ZipMember) : Bool :=
  !member.isDirectoryEntry && hasAudioExt (basename member.filename)

section Archive

variable (accepts : Path → Bool) (maxZipUncompressedBytes : ℕ) (root : Path) (tokens : ℕ → String)

/-- The file member at the index has the target. -/
def HasTarget (members : List ZipMember) (i : ℕ) (member : ZipMember) (target : Path) : Prop :=
  members[i]? = some member ∧ member.isDirectoryEntry = false ∧
    resolveZipMemberTarget root (tokens i) member.filename = some target

/-- The audio members have different base names and lie below the directory of the single project file. -/
structure AudioInPlace (members : List ZipMember) (files : List Path) (aupPath : Path) : Prop where
  single : findSingleAupPath files = some aupPath
  distinct : ((members.filter ZipMember.isAudio).map fun member => basename member.filename).Nodup
  below : ∀ i member target, HasTarget root tokens members i member target → member.isAudio = true →
    isBelow aupPath.dropLast target = true

/-- Nothing is written outside the root; and where the extraction ends, the size is kept, every file member is
at its path with its bytes and no name like a flag, and the audio members are found under their names. -/
structure ContainedAndLossless (members : List ZipMember) (fs : FileSystem) : Prop where
  contained : ∀ path, ¬root <+: path →
    (safeZipExtract accepts maxZipUncompressedBytes root tokens members fs).fs.files.get? path = fs.files.get? path
  capped : ∀ fs', safeZipExtract accepts maxZipUncompressedBytes root tokens members fs = .ended fs' →
    declaredSize members ≤ maxZipUncompressedBytes
  written : ∀ fs', safeZipExtract accepts maxZipUncompressedBytes root tokens members fs = .ended fs' →
    ∀ i member, members[i]? = some member → member.isDirectoryEntry = false →
      ∃ target, HasTarget root tokens members i member target ∧ root <+: target ∧
        startsWithDash (target.getLastD "") = false ∧ fs'.files.get? target = some member.bytes
  found : ∀ fs', safeZipExtract accepts maxZipUncompressedBytes root tokens members fs = .ended fs' →
    ∀ files aupPath, IsWalk root fs' files → AudioInPlace root tokens members files aupPath →
      ∀ i member, members[i]? = some member → member.isAudio = true →
        ∃ target, HasTarget root tokens members i member target ∧
          (buildAuFileMap (files.filter (isBelow aupPath.dropLast))).get? (basename member.filename) = some target

/-- The last part of a sanitised name is the name of a file. -/
def endsInName (parts : Path) : Bool := parts.getLastD ".." != ".."

/-- Where a name ends in two dots, what it comes back to does not look like a flag; and members with one
target have the same bytes. -/
structure TargetsKept (members : List ZipMember) : Prop where
  no_flag : ∀ (i : ℕ) (member : ZipMember), members[i]? = some member → member.isDirectoryEntry = false →
    endsInName (sanitisedParts member.filename) = false →
      startsWithDash ((walk root (sanitisedParts member.filename)).getLastD "") = false
  same_bytes : ∀ i j member other target, HasTarget root tokens members i member target →
    HasTarget root tokens members j other target → member.bytes = other.bytes

/-- An audio member loses no backslash and does not look like a flag, and no file that comes later in the walk
has its base name. -/
def AudioNamesKept (members : List ZipMember) (files : List Path) : Prop :=
  ∀ i member target, HasTarget root tokens members i member target → member.isAudio = true →
    basename (lstrip ['/', '\\'] member.filename) = basename member.filename ∧
    startsWithDash (basename member.filename) = false ∧
    ∀ path ∈ files, files.idxOf target < files.idxOf path → path.getLastD "" ≠ basename member.filename

end Archive

/-! ### Targets -/

section Targets

variable {root target : Path} {token name : String}

/-- A renamed name is no flag and no way up. -/
lemma renamed_not_dash (stem : String) :
    startsWithDash ("_dash_" ++ token ++ suffix stem) = false ∧ "_dash_" ++ token ++ suffix stem ≠ ".." := by
  constructor
  · simp [startsWithDash, String.toList_append]
  · intro h
    have hchars := congrArg String.toList h
    simp [String.toList_append] at hchars

lemma prefix_of_resolve (h : resolveZipMemberTarget root token name = some target) : root <+: target := by
  rw [resolveZipMemberTarget] at h
  split at h
  · rename_i hroot
    rw [← Option.some.inj h]
    exact hroot
  · cases h

lemma eq_of_resolve (h : resolveZipMemberTarget root token name = some target) :
    target = walk root (renamedParts token (sanitisedParts name)) := by
  rw [resolveZipMemberTarget] at h
  split at h
  · exact (Option.some.inj h).symm
  · cases h

/-- A name of a file is the last part of the target, or what stands for it. -/
lemma getLastD_target (h : resolveZipMemberTarget root token name = some target)
    (hname : endsInName (sanitisedParts name) = true) :
    target.getLastD "" =
      if startsWithDash ((sanitisedParts name).getLastD "") then
        "_dash_" ++ token ++ suffix ((sanitisedParts name).getLastD "")
      else (sanitisedParts name).getLastD "" := by
  rw [eq_of_resolve h, renamedParts]
  rcases List.eq_nil_or_concat (sanitisedParts name) with hnil | ⟨l, part, hparts⟩
  · rw [hnil] at hname
    cases hname
  · have hpart : part ≠ ".." := by
      rw [hparts, endsInName] at hname
      simpa using hname
    rw [hparts]
    simp only [List.concat_eq_append, List.getLastD_concat, List.dropLast_concat]
    split
    · rw [walk_append_singleton (renamed_not_dash part).2, List.getLastD_concat]
    · rw [walk_append_singleton hpart, List.getLastD_concat]

lemma target_not_dash (h : resolveZipMemberTarget root token name = some target)
    (hname : endsInName (sanitisedParts name) = true) : startsWithDash (target.getLastD "") = false := by
  rw [getLastD_target h hname]
  split
  · exact (renamed_not_dash _).1
  · rename_i hdash
    exact Bool.eq_false_iff.mpr hdash

/-- A name that ends in two dots, or is none, is not renamed. -/
lemma target_of_not_endsInName (h : resolveZipMemberTarget root token name = some target)
    (hname : endsInName (sanitisedParts name) = false) : target = walk root (sanitisedParts name) := by
  have hstem : startsWithDash ((sanitisedParts name).getLastD "") = false := by
    rcases List.eq_nil_or_concat (sanitisedParts name) with hnil | ⟨l, part, hparts⟩
    · rw [hnil]
      rfl
    · have hpart : part = ".." := by
        rw [hparts, endsInName] at hname
        simpa using hname
      rw [hparts, hpart]
      simp [startsWithDash]
  rw [eq_of_resolve h, renamedParts]
  simp only [hstem, Bool.false_eq_true, if_false]

end Targets

/-! ### Audio names -/

/-- The last character of an audio name is one of an extension. -/
lemma getLast?_of_hasAudioExt {name : String} (h : hasAudioExt name = true) :
    ∃ c, name.toList.getLast? = some c ∧ c ≠ '.' ∧ c ≠ '\\' := by
  obtain ⟨ext, hext, hlower⟩ := List.any_eq_true.mp h
  rw [beq_iff_eq, splitext] at hlower
  split at hlower
  · simp only [String.toList_ofList] at hlower
    -- an extension is a dot and something behind it
    have hlast : ext.toList.getLast?.any (fun c => c != '.' && c != '\\') = true ∧ ext.toList.length ≠ 1 := by
      have hall : validAudioExts.all (fun ext => ext.toList.getLast?.any (fun c => c != '.' && c != '\\') &&
          ext.toList.length != 1) = true := by decide
      simpa using List.all_eq_true.mp hall ext hext
    rcases List.eq_nil_or_concat ((name.toList.rtakeWhile (· != '/')).rtakeWhile (· != '.')) with hnil | ⟨l, c, hsuffix⟩
    · rw [hnil] at hlower
      rw [hlower] at hlast
      exact absurd rfl hlast.2
    · have hmem : (l ++ [c]) <:+ name.toList := by
        rw [← List.concat_eq_append, ← hsuffix]
        exact (List.rtakeWhile_suffix _ _).trans (List.rtakeWhile_suffix _ _)
      obtain ⟨front, hfront⟩ := hmem
      rw [hsuffix, List.concat_eq_append, ← List.cons_append, List.map_append, List.map_singleton] at hlower
      rw [hlower, List.getLast?_concat] at hlast
      refine ⟨c, by rw [← hfront, ← List.append_assoc, List.getLast?_concat], ?_, ?_⟩
      · rintro rfl
        simpa using hlast.1
      · rintro rfl
        simpa using hlast.1
  · have hnone : validAudioExts.all (fun ext => ext.toList != []) = true := by decide
    have hne := List.all_eq_true.mp hnone ext hext
    rw [hlower] at hne
    simp at hne

/-- The last part of a sanitised audio name is its base name without the backslashes in front. -/
lemma sanitisedParts_of_hasAudioExt {name : String} (h : hasAudioExt (basename name) = true) :
    (sanitisedParts name).getLast? = some (basename (lstrip ['/', '\\'] name)) ∧
      basename (lstrip ['/', '\\'] name) ≠ ".." := by
  obtain ⟨c, hc, hdot, hslash⟩ := getLast?_of_hasAudioExt h
  obtain ⟨stripped, hstripped, hbase⟩ := basename_lstrip name
  have hne : ∀ stem : String, stem.toList.getLast?.all (fun c => c == '.') = true →
      basename (lstrip ['/', '\\'] name) ≠ stem := by
    rintro stem hstem rfl
    rw [hbase, List.getLast?_append] at hc
    cases hlast : (basename (lstrip ['/', '\\'] name)).toList.getLast? with
    | none =>
      rw [hlast, Option.none_or] at hc
      exact hslash (hstripped c (List.mem_of_getLast? hc))
    | some d =>
      rw [hlast, Option.some_or] at hc
      rw [hlast, Option.all_some, beq_iff_eq] at hstem
      exact hdot ((Option.some.inj hc).symm.trans hstem)
  have hparts := getLast?_parts (hne "" (by decide)) (hne "." (by decide))
  exact ⟨hparts, hne ".." (by decide)⟩

/-- An audio member is stored under its own name exactly when it loses no backslash and is no flag. -/
lemma getLastD_target_eq_basename_iff {root target : Path} {token name : String}
    (h : resolveZipMemberTarget root token name = some target) (haudio : hasAudioExt (basename name) = true) :
    target.getLastD "" = basename name ↔
      basename (lstrip ['/', '\\'] name) = basename name ∧ startsWithDash (basename name) = false := by
  obtain ⟨hlast, hdots⟩ := sanitisedParts_of_hasAudioExt haudio
  have hgetLastD : ∀ d, (sanitisedParts name).getLastD d = basename (lstrip ['/', '\\'] name) := by
    intro d
    rw [List.getLastD_eq_getLast?, hlast, Option.getD_some]
  have hname : endsInName (sanitisedParts name) = true := by
    rw [endsInName, hgetLastD]
    simpa using hdots
  rw [getLastD_target h hname, hgetLastD]
  split
  · rename_i hdash
    constructor
    · intro heq
      -- the new name starts with an underscore, the old one with a backslash or with the dash
      have hhead : (basename name).toList.head? = some '_' := by
        rw [← heq]
        simp [String.toList_append]
      obtain ⟨stripped, hstripped, hbase⟩ := basename_lstrip name
      rw [startsWithDash, beq_iff_eq] at hdash
      rw [hbase] at hhead
      cases stripped with
      | nil =>
        rw [List.nil_append, hdash] at hhead
        exact absurd (Option.some.inj hhead) (by decide)
      | cons c rest =>
        have hc := hstripped c List.mem_cons_self
        rw [List.cons_append, List.head?_cons, hc] at hhead
        exact absurd (Option.some.inj hhead) (by decide)
    · rintro ⟨hbase, hnodash⟩
      rw [hbase, hnodash] at hdash
      cases hdash
  · rename_i hdash
    constructor
    · intro heq
      rw [heq] at hdash
      exact ⟨heq, Bool.eq_false_iff.mpr hdash⟩
    · exact fun hkept => hkept.1

/-! ### Runs -/

section Runs

variable {accepts : Path → Bool} {maxZipUncompressedBytes : ℕ} {root : Path} {tokens : ℕ → String}

/-- What is written for the member of the index. -/
def memberWrite (root : Path) (tokens : ℕ → String) (idx : ℕ) (member : ZipMember) : List (Path × List UInt8) :=
  if member.isDirectoryEntry then []
  else ((resolveZipMemberTarget root (tokens idx) member.filename).map fun target => (target, member.bytes)).toList

def writes (root : Path) (tokens : ℕ → String) (idx : ℕ) : List ZipMember → List (Path × List UInt8)
  | [] => []
  | member :: rest => memberWrite root tokens idx member ++ writes root tokens (idx + 1) rest

lemma mem_memberWrite {idx : ℕ} {member : ZipMember} {target : Path} {bytes : List UInt8} :
    (target, bytes) ∈ memberWrite root tokens idx member ↔ member.isDirectoryEntry = false ∧
      resolveZipMemberTarget root (tokens idx) member.filename = some target ∧ member.bytes = bytes := by
  rw [memberWrite]
  split
  · rename_i hdir
    simp [hdir]
  · rename_i hdir
    rw [Option.mem_toList, Option.map_eq_some_iff]
    constructor
    · rintro ⟨target', htarget, heq⟩
      obtain ⟨rfl, rfl⟩ := Prod.mk.inj heq
      exact ⟨Bool.eq_false_iff.mpr hdir, htarget, rfl⟩
    · rintro ⟨-, htarget, rfl⟩
      exact ⟨target, htarget, rfl⟩

lemma mem_writes_from {idx : ℕ} {members : List ZipMember} {target : Path} {bytes : List UInt8} :
    (target, bytes) ∈ writes root tokens idx members ↔
      ∃ (i : ℕ) (member : ZipMember), members[i]? = some member ∧ member.isDirectoryEntry = false ∧
        resolveZipMemberTarget root (tokens (idx + i)) member.filename = some target ∧ member.bytes = bytes := by
  induction members generalizing idx with
  | nil => simp [writes]
  | cons first rest ih =>
    rw [writes, List.mem_append, mem_memberWrite, ih]
    constructor
    · rintro (h | ⟨i, member, hi, hfile, htarget, hbytes⟩)
      · exact ⟨0, first, rfl, h⟩
      · have hindex : idx + (i + 1) = idx + 1 + i := by omega
        exact ⟨i + 1, member, hi, hfile, by rw [hindex]; exact htarget, hbytes⟩
    · rintro ⟨i, member, hi, hfile, htarget, hbytes⟩
      cases i with
      | zero =>
        obtain rfl := Option.some.inj hi
        exact .inl ⟨hfile, htarget, hbytes⟩
      | succ i =>
        have hindex : idx + (i + 1) = idx + 1 + i := by omega
        rw [hindex] at htarget
        exact .inr ⟨i, member, hi, hfile, htarget, hbytes⟩

/-- The writes are those of the members with a target. -/
lemma mem_writes {members : List ZipMember} {target : Path} {bytes : List UInt8} :
    (target, bytes) ∈ writes root tokens 0 members ↔
      ∃ i member, HasTarget root tokens members i member target ∧ member.bytes = bytes := by
  rw [mem_writes_from]
  simp only [Nat.zero_add, HasTarget, and_assoc]

lemma files_handleZipDirectoryEntry (name : String) (fs : FileSystem) :
    (handleZipDirectoryEntry accepts root name fs).fs.files = fs.files := by
  rw [handleZipDirectoryEntry]
  generalize walk (if name.toList.head? = some '/' then [] else root) (parts name) = targetDir
  split
  · exact files_makeDirs ..
  · rfl

/-- The files of one member stay below the root. -/
lemma extractMember_contained {idx : ℕ} {member : ZipMember} {path : Path} (hpath : ¬root <+: path) (fs : FileSystem) :
    (extractMember accepts root tokens idx member fs).fs.files.get? path = fs.files.get? path := by
  rw [extractMember]
  split
  · rw [files_handleZipDirectoryEntry]
  · split
    · rfl
    · rename_i target htarget
      have hne : path ≠ target := fun heq => hpath (heq ▸ prefix_of_resolve htarget)
      rw [streamMemberToDisk]
      apply fs_andThen (p := fun fs' => fs'.files.get? path = fs.files.get? path)
      · rw [files_makeDirs]
      · intro fs₁ hfs₁
        split
        · rcases @files_writeFile accepts target member.bytes member.complete fs₁ with h | h
          · rw [h, hfs₁]
          · rw [h, OrderedDict.get?_set, if_neg hne, hfs₁]
        · exact hfs₁

theorem extractMembers_contained {members : List ZipMember} {path : Path} (hpath : ¬root <+: path)
    (idx totalUncompressed : ℕ) (fs : FileSystem) :
    (extractMembers accepts maxZipUncompressedBytes root tokens idx totalUncompressed members fs).fs.files.get? path =
      fs.files.get? path := by
  induction members generalizing idx totalUncompressed fs with
  | nil => rfl
  | cons member rest ih =>
    rw [extractMembers]
    split
    · rfl
    · apply fs_andThen (p := fun fs' => fs'.files.get? path = fs.files.get? path)
      · exact extractMember_contained hpath fs
      · intro fs₁ hfs₁
        rw [ih, hfs₁]

/-- A member that is extracted has its bytes at its target. -/
lemma extractMember_ended {idx : ℕ} {member : ZipMember} {fs fs' : FileSystem}
    (h : extractMember accepts root tokens idx member fs = .ended fs') :
    fs'.files = fs.files.setAll (memberWrite root tokens idx member) ∧
      (member.isDirectoryEntry = false →
        ∃ target, resolveZipMemberTarget root (tokens idx) member.filename = some target) := by
  rw [extractMember] at h
  split at h
  · rename_i hdir
    have hfiles := @files_handleZipDirectoryEntry accepts root member.filename fs
    rw [h] at hfiles
    rw [memberWrite, if_pos hdir, hdir]
    refine ⟨hfiles, fun hfile => ?_⟩
    cases hfile
  · rename_i hdir
    split at h
    · cases h
    · rename_i target htarget
      refine ⟨?_, fun _ => ⟨target, htarget⟩⟩
      obtain ⟨fs₁, hdirs, hwrite⟩ := andThen_eq_ended.mp h
      have hfiles := @files_makeDirs accepts [] target.dropLast fs
      rw [hdirs] at hfiles
      split at hwrite
      · rw [files_of_writeFile_ended hwrite, memberWrite, if_neg hdir, htarget]
        exact congrArg (OrderedDict.set · target member.bytes) hfiles
      · cases hwrite

theorem extractMembers_ended {members : List ZipMember} {idx totalUncompressed : ℕ} {fs fs' : FileSystem}
    (h : extractMembers accepts maxZipUncompressedBytes root tokens idx totalUncompressed members fs = .ended fs')
    (htotal : totalUncompressed ≤ maxZipUncompressedBytes) :
    fs'.files = fs.files.setAll (writes root tokens idx members) ∧
      totalUncompressed + declaredSize members ≤ maxZipUncompressedBytes ∧
      ∀ (i : ℕ) (member : ZipMember), members[i]? = some member → member.isDirectoryEntry = false →
        ∃ target, resolveZipMemberTarget root (tokens (idx + i)) member.filename = some target := by
  induction members generalizing idx totalUncompressed fs with
  | nil =>
    cases h
    exact ⟨rfl, htotal, fun i member hi => by cases hi⟩
  | cons first rest ih =>
    rw [extractMembers] at h
    split at h
    · cases h
    · rename_i hsize
      obtain ⟨fs₁, hfirst, hrest⟩ := andThen_eq_ended.mp h
      obtain ⟨hfiles, htarget⟩ := extractMember_ended hfirst
      obtain ⟨hfiles', hcap, htargets⟩ := ih hrest (by omega)
      refine ⟨?_, ?_, ?_⟩
      · rw [hfiles', hfiles, writes, OrderedDict.setAll_append]
      · rw [declaredSize]
        omega
      · intro i member hi hfile
        cases i with
        | zero =>
          obtain rfl := Option.some.inj hi
          exact htarget hfile
        | succ i =>
          have hindex : idx + (i + 1) = idx + 1 + i := by omega
          rw [hindex]
          exact htargets i member hi hfile

end Runs

/-! ### The map of the audio files -/

lemma pairwise_idxOf {files : List Path} (hnodup : files.Nodup) :
    files.Pairwise fun a b => files.idxOf a < files.idxOf b := by
  rw [List.pairwise_iff_getElem]
  intro i j hi hj hlt
  rw [hnodup.idxOf_getElem, hnodup.idxOf_getElem]
  exact hlt

/-- A file is found under a name that is its own and that no later file has. -/
lemma get?_buildAuFileMap_iff {files : List Path} (hnodup : files.Nodup) {target : Path} (hmem : target ∈ files)
    {name : String} (haudio : hasAudioExt name = true) :
    (buildAuFileMap files).get? name = some target ↔ target.getLastD "" = name ∧
      ∀ path ∈ files, files.idxOf target < files.idxOf path → path.getLastD "" ≠ name := by
  have hpairwise : ((files.filter fun path => hasAudioExt (path.getLastD "")).map fun path =>
      (path.getLastD "", path)).Pairwise fun a b => files.idxOf a.2 < files.idxOf b.2 := by
    rw [List.pairwise_map]
    exact (pairwise_idxOf hnodup).filter _
  rw [OrderedDict.get?_eq_some_iff, buildAuFileMap, OrderedDict.mem_items_setAll files.idxOf hpairwise]
  simp only [List.mem_map, List.mem_filter, Prod.mk.injEq]
  constructor
  · rintro (⟨⟨path, -, hname, rfl⟩, hlater⟩ | ⟨-, hempty⟩)
    · refine ⟨hname, fun other hother hlt heq => ?_⟩
      exact hlater (other.getLastD "", other) ⟨other, ⟨hother, by rw [heq]; exact haudio⟩, rfl⟩ hlt heq
    · cases hempty
  · rintro ⟨rfl, hlater⟩
    refine .inl ⟨⟨target, ⟨hmem, haudio⟩, rfl, rfl⟩, ?_⟩
    rintro _ ⟨other, ⟨hother, -⟩, rfl⟩ hlt
    exact hlater other hother hlt

lemma isBelow_root_of_aup {root aupPath target : Path} {files : List Path} {fs : FileSystem}
    (hfiles : IsWalk root fs files) (hsingle : findSingleAupPath files = some aupPath)
    (hbelow : isBelow aupPath.dropLast target = true) : isBelow root target = true := by
  have hmem : aupPath ∈ files := by
    rw [findSingleAupPath] at hsingle
    split at hsingle
    · rename_i path hfilter
      rw [Option.some.inj hsingle] at hfilter
      have hsingleton : aupPath ∈ files.filter fun path => ".aup".toList.isSuffixOf (path.getLastD "").toList := by
        rw [hfilter]
        exact List.mem_singleton_self _
      exact (List.mem_filter.mp hsingleton).1
    · cases hsingle
  have haup := (List.mem_filter.mp (hfiles.perm.mem_iff.mp hmem)).2
  rw [isBelow, decide_eq_true_eq] at haup hbelow ⊢
  exact haup.trans hbelow

/-! ### What the two conditions are for -/

section Ended

variable {accepts : Path → Bool} {maxZipUncompressedBytes : ℕ} {root : Path} {tokens : ℕ → String}
  {members : List ZipMember} {fs fs' : FileSystem}

lemma writes_agree_iff :
    (∀ item ∈ writes root tokens 0 members, ∀ other ∈ writes root tokens 0 members,
        item.1 = other.1 → item.2 = other.2) ↔
      ∀ i j member other target, HasTarget root tokens members i member target →
        HasTarget root tokens members j other target → member.bytes = other.bytes := by
  constructor
  · intro h i j member other target htarget hother
    exact h (target, member.bytes) (mem_writes.mpr ⟨i, member, htarget, rfl⟩)
      (target, other.bytes) (mem_writes.mpr ⟨j, other, hother, rfl⟩) rfl
  · rintro h ⟨path, bytes⟩ hitem ⟨path', bytes'⟩ hother rfl
    obtain ⟨i, owner, howner, rfl⟩ := mem_writes.mp hitem
    obtain ⟨j, owner', howner', rfl⟩ := mem_writes.mp hother
    exact h i j owner owner' path howner howner'

variable (hended : safeZipExtract accepts maxZipUncompressedBytes root tokens members fs = .ended fs')
include hended

lemma files_of_ended : fs'.files = fs.files.setAll (writes root tokens 0 members) :=
  (extractMembers_ended hended (Nat.zero_le _)).1

lemma hasTarget_of_ended {i : ℕ} {member : ZipMember} (hi : members[i]? = some member)
    (hfile : member.isDirectoryEntry = false) : ∃ target, HasTarget root tokens members i member target := by
  obtain ⟨target, htarget⟩ := (extractMembers_ended hended (Nat.zero_le _)).2.2 i member hi hfile
  rw [Nat.zero_add] at htarget
  exact ⟨target, hi, hfile, htarget⟩

/-- Every file member is at its target with its bytes exactly when no two members fight for a target. -/
lemma bytes_at_targets_iff :
    (∀ i member target, HasTarget root tokens members i member target →
        fs'.files.get? target = some member.bytes) ↔
      ∀ i j member other target, HasTarget root tokens members i member target →
        HasTarget root tokens members j other target → member.bytes = other.bytes := by
  rw [← writes_agree_iff, files_of_ended hended, ← OrderedDict.get?_setAll_iff]
  constructor
  · rintro h ⟨path, bytes⟩ hitem
    obtain ⟨i, member, htarget, rfl⟩ := mem_writes.mp hitem
    exact h i member path htarget
  · intro h i member target htarget
    exact h (target, member.bytes) (mem_writes.mpr ⟨i, member, htarget, rfl⟩)

lemma written_iff :
    (∀ i member, members[i]? = some member → member.isDirectoryEntry = false →
      ∃ target, HasTarget root tokens members i member target ∧ root <+: target ∧
        startsWithDash (target.getLastD "") = false ∧ fs'.files.get? target = some member.bytes) ↔
      TargetsKept root tokens members := by
  constructor
  · intro h
    refine ⟨?_, (bytes_at_targets_iff hended).mp ?_⟩
    · intro i member hi hfile hname
      obtain ⟨target, htarget, -, hdash, -⟩ := h i member hi hfile
      rwa [target_of_not_endsInName htarget.2.2 hname] at hdash
    · intro i member target htarget
      obtain ⟨target', htarget', -, -, hget⟩ := h i member htarget.1 htarget.2.1
      obtain rfl := Option.some.inj (htarget.2.2.symm.trans htarget'.2.2)
      exact hget
  · intro h i member hi hfile
    obtain ⟨target, htarget⟩ := hasTarget_of_ended hended hi hfile
    have hget := (bytes_at_targets_iff hended).mpr h.same_bytes i member target htarget
    refine ⟨target, htarget, prefix_of_resolve htarget.2.2, ?_, hget⟩
    cases hname : endsInName (sanitisedParts member.filename) with
    | true => exact target_not_dash htarget.2.2 hname
    | false =>
      rw [target_of_not_endsInName htarget.2.2 hname]
      exact h.no_flag i member hi hfile hname

variable {files : List Path} {aupPath : Path} (hfiles : IsWalk root fs' files)
  (hplace : AudioInPlace root tokens members files aupPath)
include hfiles hplace

/-- One audio member is found under its name exactly when the name is kept and no later file has it. -/
lemma get?_audio_iff {i : ℕ} {member : ZipMember} {target : Path}
    (htarget : HasTarget root tokens members i member target) (haudio : member.isAudio = true) :
    (buildAuFileMap (files.filter (isBelow aupPath.dropLast))).get? (basename member.filename) = some target ↔
      basename (lstrip ['/', '\\'] member.filename) = basename member.filename ∧
      startsWithDash (basename member.filename) = false ∧
      ∀ path ∈ files.filter (isBelow aupPath.dropLast),
        (files.filter (isBelow aupPath.dropLast)).idxOf target <
          (files.filter (isBelow aupPath.dropLast)).idxOf path →
        path.getLastD "" ≠ basename member.filename := by
  have hbelow := hplace.below i member target htarget haudio
  have hmem : target ∈ files.filter (isBelow aupPath.dropLast) := by
    have hkey : target ∈ fs'.files.keys := by
      rw [files_of_ended hended, OrderedDict.mem_keys_setAll]
      exact .inl ⟨(target, member.bytes), mem_writes.mpr ⟨i, member, htarget, rfl⟩, rfl⟩
    have hroot := isBelow_root_of_aup hfiles hplace.single hbelow
    exact List.mem_filter.mpr ⟨hfiles.perm.mem_iff.mpr (List.mem_filter.mpr ⟨hkey, hroot⟩), hbelow⟩
  have hnodup : (files.filter (isBelow aupPath.dropLast)).Nodup :=
    (hfiles.perm.nodup_iff.mpr (fs'.files.nodup.filter _)).filter _
  have hext : hasAudioExt (basename member.filename) = true := (Bool.and_eq_true_iff.mp haudio).2
  rw [get?_buildAuFileMap_iff hnodup hmem hext, getLastD_target_eq_basename_iff htarget.2.2 hext, and_assoc]

lemma found_iff :
    (∀ i member, members[i]? = some member → member.isAudio = true →
      ∃ target, HasTarget root tokens members i member target ∧
        (buildAuFileMap (files.filter (isBelow aupPath.dropLast))).get? (basename member.filename) = some target) ↔
      AudioNamesKept root tokens members (files.filter (isBelow aupPath.dropLast)) := by
  constructor
  · intro h i member target htarget haudio
    obtain ⟨target', htarget', hget⟩ := h i member htarget.1 haudio
    obtain rfl := Option.some.inj (htarget.2.2.symm.trans htarget'.2.2)
    exact (get?_audio_iff hended hfiles hplace htarget haudio).mp hget
  · intro h i member hi haudio
    have hfile : member.isDirectoryEntry = false := by
      have hboth := (Bool.and_eq_true_iff.mp haudio).1
      simpa using hboth
    obtain ⟨target, htarget⟩ := hasTarget_of_ended hended hi hfile
    exact ⟨target, htarget,
      (get?_audio_iff hended hfiles hplace htarget haudio).mpr (h i member target htarget haudio)⟩

end Ended

/-- The extraction is contained and lossless exactly when, where it ends, its targets are kept and, for every
order of the walk, the audio names are. -/
theorem containedAndLossless_iff (accepts : Path → Bool) (maxZipUncompressedBytes : ℕ) (root : Path)
    (tokens : ℕ → String) (members : List ZipMember) (fs : FileSystem) :
    ContainedAndLossless accepts maxZipUncompressedBytes root tokens members fs ↔
      ∀ fs', safeZipExtract accepts maxZipUncompressedBytes root tokens members fs = .ended fs' →
        TargetsKept root tokens members ∧
        ∀ files aupPath, IsWalk root fs' files → AudioInPlace root tokens members files aupPath →
          AudioNamesKept root tokens members (files.filter (isBelow aupPath.dropLast)) := by
  constructor
  · intro h fs' hended
    refine ⟨(written_iff hended).mp (h.written fs' hended), ?_⟩
    intro files aupPath hfiles hplace
    exact (found_iff hended hfiles hplace).mp (h.found fs' hended files aupPath hfiles hplace)
  · intro h
    refine ⟨?_, ?_, ?_, ?_⟩
    · intro path hpath
      exact extractMembers_contained hpath 0 0 fs
    · intro fs' hended
      have hcap := (extractMembers_ended hended (Nat.zero_le _)).2.1
      omega
    · intro fs' hended
      exact (written_iff hended).mpr (h fs' hended).1
    · intro fs' hended files aupPath hfiles hplace
      exact (found_iff hended hfiles hplace).mpr ((h fs' hended).2 files aupPath hfiles hplace)

def emptyRoot : FileSystem := ⟨.empty, [["x"]]⟩

def wholeMember (filename : String) (byte : UInt8) : ZipMember := ⟨filename, 1, true, [byte], true⟩

def acceptsAll : Path → Bool := fun _ => true

def zeroTokens : ℕ → String := fun _ => "00000000"

/-- A project file and an audio file whose name looks like a flag. -/
def flagArchive : List ZipMember := [wholeMember "p.aup" 1, wholeMember "-a.wav" 2]

/-- Two names for one path. -/
def twiceArchive : List ZipMember := [wholeMember "a.txt" 1, wholeMember "/a.txt" 2]

/-- A name that comes back to a directory that looks like a flag. -/
def dotsArchive : List ZipMember := [wholeMember "-a/b/.." 1]

/-- The flag is not found under its name, one of the two files is lost, and a file looks like a flag. -/
theorem flag_twice_and_dots_break_extraction :
    ¬ContainedAndLossless acceptsAll 100 ["x"] zeroTokens flagArchive emptyRoot ∧
    ¬ContainedAndLossless acceptsAll 100 ["x"] zeroTokens twiceArchive emptyRoot ∧
    ¬ContainedAndLossless acceptsAll 100 ["x"] zeroTokens dotsArchive emptyRoot := by
  refine ⟨fun h => ?_, fun h => ?_, fun h => ?_⟩
  · have hended := Outcome.eq_ended (o := safeZipExtract acceptsAll 100 ["x"] zeroTokens flagArchive emptyRoot)
      (by decide +kernel)
    have hfiles : filesBelow ["x"] (safeZipExtract acceptsAll 100 ["x"] zeroTokens flagArchive emptyRoot).fs =
        [["x", "p.aup"], ["x", "_dash_00000000.wav"]] := by decide +kernel
    have hwalk : IsWalk ["x"] (safeZipExtract acceptsAll 100 ["x"] zeroTokens flagArchive emptyRoot).fs
        [["x", "p.aup"], ["x", "_dash_00000000.wav"]] := by
      refine ⟨by rw [hfiles], by decide, fun dir => ?_⟩
      by_cases hdir : dir <+: ["x"]
      · rw [List.filter_eq_self.mpr]
        simpa [isBelow] using hdir
      · rw [List.filter_eq_nil_iff.mpr]
        · exact List.nil_infix
        · simpa [isBelow] using hdir
    have hplace : AudioInPlace ["x"] zeroTokens flagArchive [["x", "p.aup"], ["x", "_dash_00000000.wav"]]
        ["x", "p.aup"] := by
      refine ⟨by decide +kernel, by decide +kernel, fun i member target htarget haudio => ?_⟩
      obtain ⟨hi, -, hresolve⟩ := htarget
      cases i with
      | zero =>
        obtain rfl := Option.some.inj hi
        exact absurd haudio (by decide +kernel)
      | succ i =>
        cases i with
        | zero =>
          obtain rfl := Option.some.inj hi
          have hvalue : resolveZipMemberTarget ["x"] (zeroTokens 1) "-a.wav" = some ["x", "_dash_00000000.wav"] := by
            decide +kernel
          obtain rfl := Option.some.inj (hvalue.symm.trans hresolve)
          decide
        | succ i => cases hi
    obtain ⟨target, -, hget⟩ := h.found _ hended _ _ hwalk hplace 1 (wholeMember "-a.wav" 2) rfl (by decide +kernel)
    have hnone : (buildAuFileMap ([["x", "p.aup"], ["x", "_dash_00000000.wav"]].filter
        (isBelow (["x", "p.aup"] : Path).dropLast))).get? (basename "-a.wav") = none := by decide +kernel
    rw [wholeMember, hnone] at hget
    cases hget
  · have hended := Outcome.eq_ended (o := safeZipExtract acceptsAll 100 ["x"] zeroTokens twiceArchive emptyRoot)
      (by decide +kernel)
    obtain ⟨target, htarget, -, -, hget⟩ := h.written _ hended 0 (wholeMember "a.txt" 1) rfl (by decide +kernel)
    have hvalue : resolveZipMemberTarget ["x"] (zeroTokens 0) "a.txt" = some ["x", "a.txt"] := by decide +kernel
    obtain rfl := Option.some.inj (hvalue.symm.trans htarget.2.2)
    have hlast : (safeZipExtract acceptsAll 100 ["x"] zeroTokens twiceArchive emptyRoot).fs.files.get? ["x", "a.txt"] =
        some [2] := by decide +kernel
    rw [hlast] at hget
    exact absurd hget (by decide)
  · have hended := Outcome.eq_ended (o := safeZipExtract acceptsAll 100 ["x"] zeroTokens dotsArchive emptyRoot)
      (by decide +kernel)
    obtain ⟨target, htarget, -, hdash, -⟩ := h.written _ hended 0 (wholeMember "-a/b/.." 1) rfl (by decide +kernel)
    have hvalue : resolveZipMemberTarget ["x"] (zeroTokens 0) "-a/b/.." = some ["x", "-a"] := by decide +kernel
    obtain rfl := Option.some.inj (hvalue.symm.trans htarget.2.2)
    exact absurd hdash (by decide +kernel)

end AscendAI.AudioScribe
