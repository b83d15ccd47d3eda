import AscendAI.AudioScribe.AudacityParser
import AscendAI.Lib.Reader

/-!
# What a clip holds

The audio of the waveclips of a track, as stretches of files, against what their waveblocks refer to. The
elements are looked for among all descendants, so a block in a waveclip that another one holds is found
for both, and an alias block gives the whole file whatever part of it the block names.
-/

namespace AscendAI.AudioScribe
open StableSort PosixPath

/-- The samples of a file from the first one up to the last one, which is left out. -/
structure Stretch where
  path : String
  first : ℤ
  stop : ℤ
  deriving DecidableEq

section Contents

variable (numerals : Numerals) (auFileMap : AuFileMap) (samples : String → ℤ)

def wholeFile (path : String) : Stretch := ⟨path, 0, samples path⟩

/-- The audio of a clip as it is put together. -/
def clipAudio (clip : Clip) : List Stretch :=
  ((assembleClipBlocks auFileMap clip.auFiles).getD []).map (wholeFile samples)

/-- The waveblocks of a waveclip that no waveclip in it holds, in the order of their starts. -/
def ownWaveblocks (clip : XmlElement) : List XmlElement :=
  sortBy (fun block => (startAttribute numerals block).getD 0)
    ((clip.iterOutside (hasTag "waveclip")).filter (hasTag "waveblock"))

def aliasedPath (element : XmlElement) : Option String :=
  (nonEmptyAttribute "aliasfile" element).bind fun aliasfile => auFileMap.get? (basename aliasfile)

/-- The part that an alias block names; without numbers it is the file from its start, or to its end. -/
def aliasStretch (element : XmlElement) (path : String) : Stretch :=
  let first := ((element.get? "aliasstart").bind numerals.int).getD 0
  match (element.get? "aliaslen").bind numerals.int with
  | none => ⟨path, first, samples path⟩
  | some length => ⟨path, first, first + length⟩

/-- What a waveblock refers to, without the waveblocks in it. -/
def blockAudio (block : XmlElement) : List Stretch :=
  let elements := block.iterOutside (hasTag "waveblock")
  ((simpleFiles elements).filterMap auFileMap.get?).map (wholeFile samples) ++
    (elements.filter (hasTag "pcmaliasblockfile")).filterMap fun element =>
      (aliasedPath auFileMap element).map (aliasStretch numerals samples element)

def ownAudio (clip : XmlElement) : List Stretch :=
  (ownWaveblocks numerals clip).flatMap (blockAudio numerals auFileMap samples)

/-- The audio of each waveclip is that of its own waveblocks. -/
def KeepsClipContents (track : XmlElement) (clips : List Clip) : Prop :=
  clips.map (clipAudio auFileMap samples) =
    (findElements track "waveclip").map (ownAudio numerals auFileMap samples)

/-- The paths of the files that the elements name, as far as they are there. -/
def availablePaths (elements : List XmlElement) : List String :=
  (simpleFiles elements ++ aliasFiles elements).filterMap auFileMap.get?

/-- Nothing that is there is held twice, and alias blocks name whole files. -/
structure HoldsOnce (clip : XmlElement) : Prop where
  nested_clips : ∀ block ∈ (clip.iterInside (hasTag "waveclip")).filter (hasTag "waveblock"),
    availablePaths auFileMap block.iter = []
  nested_blocks : ∀ block ∈ ownWaveblocks numerals clip,
    availablePaths auFileMap (block.iterInside (hasTag "waveblock")) = []
  alias_whole : ∀ block ∈ ownWaveblocks numerals clip,
    ∀ element ∈ (block.iterOutside (hasTag "waveblock")).filter (hasTag "pcmaliasblockfile"),
      ∀ path, aliasedPath auFileMap element = some path →
        aliasStretch numerals samples element path = wholeFile samples path

end Contents

section Files

variable {numerals : Numerals} {auFileMap : AuFileMap} {samples : String → ℤ}

lemma availablePaths_append_perm (l l' : List XmlElement) :
    (availablePaths auFileMap (l ++ l')).Perm (availablePaths auFileMap l ++ availablePaths auFileMap l') := by
  simp only [availablePaths, simpleFiles, aliasFiles, List.filter_append, List.filterMap_append, List.map_append,
    List.append_assoc]
  exact (List.perm_append_comm_assoc ..).append_left _

lemma availablePaths_perm {l l' : List XmlElement} (h : l.Perm l') :
    (availablePaths auFileMap l).Perm (availablePaths auFileMap l') := by
  have hsimple : (simpleFiles l).Perm (simpleFiles l') := (h.filter _).filterMap _
  have halias : (aliasFiles l).Perm (aliasFiles l') := ((h.filter _).filterMap _).map _
  exact (hsimple.append halias).filterMap _

lemma availablePaths_sublist {l l' : List XmlElement} (h : l.Sublist l') :
    (availablePaths auFileMap l).Sublist (availablePaths auFileMap l') := by
  have hsimple : (simpleFiles l).Sublist (simpleFiles l') := (h.filter _).filterMap _
  have halias : (aliasFiles l).Sublist (aliasFiles l') := ((h.filter _).filterMap _).map _
  exact (hsimple.append halias).filterMap _

/-- The files of a block are its own and those of the blocks in it. -/
lemma availablePaths_iter_perm (block : XmlElement) :
    (availablePaths auFileMap block.iter).Perm
      (availablePaths auFileMap (block.iterOutside (hasTag "waveblock")) ++
        availablePaths auFileMap (block.iterInside (hasTag "waveblock"))) := by
  have hiter := XmlElement.iter_perm (hasTag "waveblock") block
  exact (availablePaths_perm hiter).trans (availablePaths_append_perm ..)

lemma availablePaths_iter_eq {block : XmlElement}
    (hblock : availablePaths auFileMap (block.iterInside (hasTag "waveblock")) = []) :
    availablePaths auFileMap block.iter = availablePaths auFileMap (block.iterOutside (hasTag "waveblock")) := by
  have hperm := @availablePaths_iter_perm auFileMap block
  rw [hblock, List.append_nil] at hperm
  have hsub : (availablePaths auFileMap (block.iterOutside (hasTag "waveblock"))).Sublist
      (availablePaths auFileMap block.iter) :=
    availablePaths_sublist (block.iterOutside_sublist (hasTag "waveblock"))
  exact (hsub.eq_of_length hperm.length_eq.symm).symm

@[simp] lemma path_aliasStretch (element : XmlElement) (path : String) :
    (aliasStretch numerals samples element path).path = path := by
  rw [aliasStretch]
  split <;> rfl

/-- Block by block the paths are right; only the parts differ. -/
lemma map_path_blockAudio (block : XmlElement) :
    (blockAudio numerals auFileMap samples block).map Stretch.path =
      availablePaths auFileMap (block.iterOutside (hasTag "waveblock")) := by
  have hwhole : Stretch.path ∘ wholeFile samples = id := rfl
  rw [blockAudio, availablePaths, List.map_append, List.map_map, hwhole, List.map_id, List.filterMap_append]
  congr 1
  rw [aliasFiles, List.map_filterMap, List.filterMap_map, List.filterMap_filterMap]
  apply List.filterMap_congr
  intro element _
  simp only [aliasedPath, Option.map_map, Function.comp_def, path_aliasStretch, Option.map_id']

/-- The alias blocks name whole files exactly when the stretches are whole. -/
lemma blockAudio_whole_iff (block : XmlElement) :
    (∀ stretch ∈ blockAudio numerals auFileMap samples block, stretch = wholeFile samples stretch.path) ↔
      ∀ element ∈ (block.iterOutside (hasTag "waveblock")).filter (hasTag "pcmaliasblockfile"),
        ∀ path, aliasedPath auFileMap element = some path →
          aliasStretch numerals samples element path = wholeFile samples path := by
  constructor
  · intro h element helement path hpath
    have hmem : aliasStretch numerals samples element path ∈ blockAudio numerals auFileMap samples block := by
      apply List.mem_append_right
      exact List.mem_filterMap.mpr ⟨element, helement, by rw [hpath]; rfl⟩
    have hstretch := h _ hmem
    rwa [path_aliasStretch] at hstretch
  · intro h stretch hstretch
    rcases List.mem_append.mp hstretch with hsimple | hpart
    · obtain ⟨path, -, rfl⟩ := List.mem_map.mp hsimple
      rfl
    · obtain ⟨element, helement, hmap⟩ := List.mem_filterMap.mp hpart
      obtain ⟨path, hpath, rfl⟩ := Option.map_eq_some_iff.mp hmap
      rw [path_aliasStretch]
      exact h element helement path hpath

lemma clipAudio_eq (clip : Clip) :
    clipAudio auFileMap samples clip = (clip.auFiles.filterMap auFileMap.get?).map (wholeFile samples) := by
  simp only [clipAudio, assembleClipBlocks]
  split
  · rename_i h
    rw [h]
    rfl
  · rfl

/-- What is put together for a waveclip is what is there of all the waveblocks in it. -/
lemma clipAudio_parseClip {element : XmlElement} {clip : Clip} (h : parseClip numerals element = some clip) :
    clipAudio auFileMap samples clip =
      ((sortBy (fun block => (startAttribute numerals block).getD 0) (findElements element "waveblock")).flatMap
        fun block => availablePaths auFileMap block.iter).map (wholeFile samples) := by
  obtain ⟨offset, -, hclip⟩ := Option.bind_eq_some_iff.mp h
  simp only at hclip
  split at hclip
  · rw [← Option.some.inj hclip, clipAudio_eq, List.filterMap_flatMap]
    rfl
  · cases hclip

lemma map_path_ownAudio (element : XmlElement) :
    (ownAudio numerals auFileMap samples element).map Stretch.path =
      (ownWaveblocks numerals element).flatMap fun block =>
        availablePaths auFileMap (block.iterOutside (hasTag "waveblock")) := by
  simp only [ownAudio, List.map_flatMap, map_path_blockAudio]

/-- The paths of all waveblocks are those of the clip's own ones, and what is held twice. -/
lemma availablePaths_waveblocks_perm (element : XmlElement) :
    ((sortBy (fun block => (startAttribute numerals block).getD 0) (findElements element "waveblock")).flatMap
      fun block => availablePaths auFileMap block.iter).Perm
    (((ownWaveblocks numerals element).flatMap fun block =>
        availablePaths auFileMap (block.iterOutside (hasTag "waveblock"))) ++
      (((ownWaveblocks numerals element).flatMap fun block =>
          availablePaths auFileMap (block.iterInside (hasTag "waveblock"))) ++
        ((element.iterInside (hasTag "waveclip")).filter (hasTag "waveblock")).flatMap fun block =>
          availablePaths auFileMap block.iter)) := by
  have hall : (sortBy (fun block => (startAttribute numerals block).getD 0) (findElements element "waveblock")).Perm
      (ownWaveblocks numerals element ++ (element.iterInside (hasTag "waveclip")).filter (hasTag "waveblock")) := by
    have hiter := (XmlElement.iter_perm (hasTag "waveclip") element).filter (hasTag "waveblock")
    rw [List.filter_append] at hiter
    apply (sortBy_perm _ _).trans
    exact hiter.trans ((sortBy_perm _ _).symm.append_right _)
  have hown : ((ownWaveblocks numerals element).flatMap fun block => availablePaths auFileMap block.iter).Perm
      ((ownWaveblocks numerals element).flatMap fun block =>
        availablePaths auFileMap (block.iterOutside (hasTag "waveblock")) ++
          availablePaths auFileMap (block.iterInside (hasTag "waveblock"))) :=
    List.Perm.flatMap_left _ fun block _ => availablePaths_iter_perm block
  apply (hall.flatMap_right _).trans
  rw [List.flatMap_append, ← List.append_assoc]
  apply List.Perm.append_right
  exact hown.trans (List.flatMap_append_perm ..).symm

/-- Without anything twice, leaving the other waveblocks out changes neither the paths nor their order. -/
lemma waveblocks_eq {element : XmlElement}
    (hnested : ∀ block ∈ (element.iterInside (hasTag "waveclip")).filter (hasTag "waveblock"),
      availablePaths auFileMap block.iter = [])
    (hblocks : ∀ block ∈ ownWaveblocks numerals element,
      availablePaths auFileMap (block.iterInside (hasTag "waveblock")) = []) :
    ((sortBy (fun block => (startAttribute numerals block).getD 0) (findElements element "waveblock")).flatMap
      fun block => availablePaths auFileMap block.iter) =
    (ownWaveblocks numerals element).flatMap fun block =>
      availablePaths auFileMap (block.iterOutside (hasTag "waveblock")) := by
  have hiter := (XmlElement.iter_perm (hasTag "waveclip") element).filter (hasTag "waveblock")
  rw [List.filter_append] at hiter
  have hsub := (element.iterOutside_sublist (hasTag "waveclip")).filter (hasTag "waveblock")
  have hkept := flatMap_sortBy_of_perm (fun block => (startAttribute numerals block).getD 0) hsub hiter hnested
  rw [findElements, hkept, ← ownWaveblocks]
  exact List.flatMap_congr fun block hblock => availablePaths_iter_eq (hblocks block hblock)

/-- A clip's audio is its own exactly when it holds nothing twice and its alias blocks name whole files. -/
lemma clipAudio_eq_ownAudio_iff {element : XmlElement} {clip : Clip} (h : parseClip numerals element = some clip) :
    clipAudio auFileMap samples clip = ownAudio numerals auFileMap samples element ↔
      HoldsOnce numerals auFileMap samples element := by
  have hwhole : Stretch.path ∘ wholeFile samples = id := rfl
  rw [clipAudio_parseClip h]
  constructor
  · intro heq
    have hpaths := congrArg (List.map Stretch.path) heq
    rw [List.map_map, hwhole, List.map_id, map_path_ownAudio] at hpaths
    have hlength := (@availablePaths_waveblocks_perm numerals auFileMap element).length_eq
    rw [hpaths, List.length_append, left_eq_add, List.length_eq_zero_iff, List.append_eq_nil_iff,
      List.flatMap_eq_nil_iff, List.flatMap_eq_nil_iff] at hlength
    refine ⟨hlength.2, hlength.1, fun block hblock => (blockAudio_whole_iff block).mp fun stretch hstretch => ?_⟩
    have hmem : stretch ∈ ownAudio numerals auFileMap samples element :=
      List.mem_flatMap.mpr ⟨block, hblock, hstretch⟩
    rw [← heq] at hmem
    obtain ⟨path, -, rfl⟩ := List.mem_map.mp hmem
    rfl
  · intro hholds
    have hmap : (ownAudio numerals auFileMap samples element).map (wholeFile samples ∘ Stretch.path) =
        (ownAudio numerals auFileMap samples element).map id := by
      apply List.map_congr_left
      intro stretch hstretch
      obtain ⟨block, hblock, hmem⟩ := List.mem_flatMap.mp hstretch
      exact ((blockAudio_whole_iff block).mpr (hholds.alias_whole block hblock) stretch hmem).symm
    have hpaths := @map_path_ownAudio numerals auFileMap samples element
    rw [waveblocks_eq hholds.nested_clips hholds.nested_blocks, ← hpaths, List.map_map, hmap, List.map_id]

/-- The waveblocks of the clips of a track are waveblocks of the track, and no two clips have the same one. -/
theorem ownAudio_subperm (track : XmlElement) :
    ((findElements track "waveclip").flatMap (ownAudio numerals auFileMap samples)).Subperm
      ((findElements track "waveblock").flatMap (blockAudio numerals auFileMap samples)) := by
  obtain ⟨elements, hperm, hsub⟩ := XmlElement.flatMap_iterOutside_subperm (hasTag "waveclip") track
  have hown : ((findElements track "waveclip").flatMap (ownAudio numerals auFileMap samples)).Perm
      ((findElements track "waveclip").flatMap fun clip =>
        ((clip.iterOutside (hasTag "waveclip")).filter (hasTag "waveblock")).flatMap
          (blockAudio numerals auFileMap samples)) :=
    List.Perm.flatMap_left _ fun clip _ => (sortBy_perm _ _).flatMap_right _
  have hblocks : ((findElements track "waveclip").flatMap fun clip =>
        ((clip.iterOutside (hasTag "waveclip")).filter (hasTag "waveblock")).flatMap
          (blockAudio numerals auFileMap samples)) =
      (((findElements track "waveclip").flatMap fun clip => clip.iterOutside (hasTag "waveclip")).filter
        (hasTag "waveblock")).flatMap (blockAudio numerals auFileMap samples) := by
    rw [List.filter_flatMap, List.flatMap_assoc]
  rw [hblocks] at hown
  refine ⟨(elements.filter (hasTag "waveblock")).flatMap (blockAudio numerals auFileMap samples), ?_, ?_⟩
  · exact ((hperm.filter _).flatMap_right _).trans hown.symm
  · exact (hsub.filter _).flatMap _

end Files

/-- For every track that can be read, each clip has its own audio exactly when every waveclip holds once what
it holds and refers to whole files. -/
theorem keepsClipContents_iff {numerals : Numerals} {auFileMap : AuFileMap} {samples : String → ℤ}
    {track : XmlElement} {clips : List Clip} (hclips : parseClipsFromTrack numerals track = some clips) :
    KeepsClipContents numerals auFileMap samples track clips ↔
      ∀ clip ∈ findElements track "waveclip", HoldsOnce numerals auFileMap samples clip :=
  Reader.map_eq_iff_of_mapM (fun _ _ h => clipAudio_eq_ownAudio_iff h) hclips

/-- The numbers that the tracks below have. -/
def zeroAndThousand : Numerals where
  float text := if text = "0" then some 0 else if text = "1000" then some 1000 else none
  int text := if text = "0" then some 0 else if text = "1000" then some 1000 else none

def waveblock (files : List XmlElement) : XmlElement := .mk "waveblock" [] files

def simpleBlock (filename : String) : XmlElement := .mk "simpleblockfile" [("filename", filename)] []

def thousandFrom (aliasstart : String) : XmlElement :=
  .mk "pcmaliasblockfile" [("aliasfile", "/x/a.au"), ("aliasstart", aliasstart), ("aliaslen", "1000")] []

def onlyFirstFile : AuFileMap := OrderedDict.empty.set "a.au" "/x/a.au"

def twoThousand : String → ℤ := fun _ => 2000

def plainClip : XmlElement := .mk "waveclip" [] [waveblock [simpleBlock "a.au"]]

def plainTrack : XmlElement := .mk "wavetrack" [] [plainClip]

theorem holdsOnce_plainClip : HoldsOnce zeroAndThousand onlyFirstFile twoThousand plainClip := by
  have hclips : parseClipsFromTrack zeroAndThousand plainTrack = some [⟨0, ["a.au"]⟩] := by decide +kernel
  have hkeeps : KeepsClipContents zeroAndThousand onlyFirstFile twoThousand plainTrack [⟨0, ["a.au"]⟩] := by
    rw [KeepsClipContents]
    decide +kernel
  have hmem : plainClip ∈ findElements plainTrack "waveclip" :=
    List.mem_filter.mpr ⟨List.mem_cons_of_mem _ List.mem_cons_self, by decide +kernel⟩
  exact (keepsClipContents_iff hclips).mp hkeeps plainClip hmem

/-- A waveclip that holds another one with a block. -/
def nestedClips : XmlElement :=
  .mk "wavetrack" [] [.mk "waveclip" [] [.mk "waveclip" [] [waveblock [simpleBlock "a.au"]]]]

/-- Two blocks for the halves of one file. -/
def twoHalves : XmlElement :=
  .mk "wavetrack" [] [.mk "waveclip" [] [waveblock [thousandFrom "0"], waveblock [thousandFrom "1000"]]]

/-- The block in the nested clip is in both clips, and the two halves give the whole file twice. -/
theorem nestedClips_and_halves_break_contents :
    (∃ clips, parseClipsFromTrack zeroAndThousand nestedClips = some clips ∧
      ¬KeepsClipContents zeroAndThousand onlyFirstFile twoThousand nestedClips clips) ∧
    (∃ clips, parseClipsFromTrack zeroAndThousand twoHalves = some clips ∧
      ¬KeepsClipContents zeroAndThousand onlyFirstFile twoThousand twoHalves clips) := by
  constructor
  · refine ⟨[⟨0, ["a.au"]⟩, ⟨0, ["a.au"]⟩], by decide +kernel, ?_⟩
    rw [KeepsClipContents]
    decide +kernel
  · refine ⟨[⟨0, ["a.au", "a.au"]⟩], by decide +kernel, ?_⟩
    rw [KeepsClipContents]
    decide +kernel

end AscendAI.AudioScribe
