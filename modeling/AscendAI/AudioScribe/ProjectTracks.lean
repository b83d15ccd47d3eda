import AscendAI.AudioScribe.TrackTimeline

/-!
# The tracks of a project

The entries that come out for a project, against its elements with audio. Imports and wavetracks go
through the same steps: an element makes a file or not, and a file is put under the name of its element.
-/

namespace AscendAI.AudioScribe

/-- How one kind of element becomes an entry. -/
structure TrackKind where
  /-- The numbers that are read for an element are numbers. -/
  readable : XmlElement → Bool
  hasAudio : XmlElement → Bool
  makesFile : XmlElement → Bool
  name : ℕ → XmlElement → String
  /-- The audio of the file that an element makes. -/
  audio : XmlElement → Option TrackAudio

section Kinds

variable (numerals : Numerals) (auFileMap : AuFileMap) (fileDuration : String → ℚ)

def importHasAudio (imp : XmlElement) : Bool :=
  ((nonEmptyAttribute "filename" imp).bind (importedPath auFileMap)).isSome

def importAudio (imp : XmlElement) : Option TrackAudio := do
  let filename ← nonEmptyAttribute "filename" imp
  let foundPath ← importedPath auFileMap filename
  let offsetSec ← floatAttribute numerals imp "offset"
  return .imported foundPath (delayOf offsetSec)

def importKind : TrackKind where
  readable imp := (nonEmptyAttribute "filename" imp).isNone || (floatAttribute numerals imp "offset").isSome
  hasAudio := importHasAudio auFileMap
  makesFile := importHasAudio auFileMap
  name _ imp := (PosixPath.splitext ((imp.get? "filename").getD "")).1
  audio := importAudio numerals auFileMap

def clipsOf (track : XmlElement) : List Clip := (parseClipsFromTrack numerals track).getD []

def wavetrackKind : TrackKind where
  readable track := (parseClipsFromTrack numerals track).isSome
  hasAudio track := (clipsOf numerals track).any (Clip.resolvable auFileMap)
  makesFile track := (clipsOf numerals track).any fun clip => clip.resolvable auFileMap || 1 / 1000 < clip.offset
  name := trackName
  audio track := (buildTrackFromClips auFileMap fileDuration (clipsOf numerals track)).map .assembled

/-- The imports where there are any, and the wavetracks otherwise. -/
def trackElements (xmlRoot : XmlElement) : List XmlElement :=
  match findElements xmlRoot "import" with
  | [] => findElements xmlRoot "wavetrack"
  | imports => imports

def kindOf (xmlRoot : XmlElement) : TrackKind :=
  match findElements xmlRoot "import" with
  | [] => wavetrackKind numerals auFileMap fileDuration
  | _ => importKind numerals auFileMap

end Kinds

/-- The file of the element at the index. -/
def TrackKind.wav (kind : TrackKind) (trackIdx : ℕ) (element : XmlElement) : Option TrackWav :=
  (kind.audio element).map fun audio => ⟨trackIdx, audio⟩

/-- The files of the elements with audio. -/
def TrackKind.ownWavs (kind : TrackKind) (elements : List XmlElement) : List TrackWav :=
  elements.zipIdx.filterMap fun element =>
    if kind.hasAudio element.1 then kind.wav element.2 element.1 else none

/-- There is one entry for each element with audio, with the audio of this element. -/
def KeepsTracks (numerals : Numerals) (auFileMap : AuFileMap) (fileDuration : String → ℚ) (xmlRoot : XmlElement) :
    Prop :=
  ∃ tracks, extractTracksFromAup numerals auFileMap fileDuration xmlRoot = some tracks ∧
    (tracks.items.map Prod.snd).Perm
      ((kindOf numerals auFileMap fileDuration xmlRoot).ownWavs (trackElements xmlRoot))

/-- The name of an element with audio is not used again, and that of a file without audio is. -/
def TrackKind.NamesKept (kind : TrackKind) (elements : List XmlElement) : Prop :=
  ∀ (i : ℕ) (element : XmlElement), elements[i]? = some element → kind.makesFile element = true →
    (kind.hasAudio element = true ↔
      ∀ (j : ℕ) (other : XmlElement), i < j → elements[j]? = some other → kind.makesFile other = true →
        kind.name j other ≠ kind.name i element)

/-! ### Entries -/

section Entries

variable {kind : TrackKind} {elements : List XmlElement}

/-- What is set in the dictionary for the elements, which count from the index on. -/
def TrackKind.entries (kind : TrackKind) (trackIdx : ℕ) (elements : List XmlElement) : List (String × TrackWav) :=
  (elements.zipIdx trackIdx).filterMap fun element =>
    (kind.wav element.2 element.1).map fun wav => (kind.name element.2 element.1, wav)

lemma TrackKind.trackIdx_of_wav {trackIdx : ℕ} {element : XmlElement} {wav : TrackWav}
    (h : kind.wav trackIdx element = some wav) : wav.trackIdx = trackIdx := by
  obtain ⟨audio, -, rfl⟩ := Option.map_eq_some_iff.mp h
  rfl

lemma TrackKind.mem_entries {name : String} {wav : TrackWav} : (name, wav) ∈ kind.entries 0 elements ↔
    ∃ (i : ℕ) (element : XmlElement), elements[i]? = some element ∧ kind.wav i element = some wav ∧
      kind.name i element = name := by
  rw [entries, List.mem_filterMap]
  constructor
  · rintro ⟨⟨element, i⟩, hmem, hmap⟩
    obtain ⟨wav', hwav, heq⟩ := Option.map_eq_some_iff.mp hmap
    obtain ⟨rfl, rfl⟩ := Prod.mk.inj heq
    exact ⟨i, element, List.mk_mem_zipIdx_iff_getElem?.mp hmem, hwav, rfl⟩
  · rintro ⟨i, element, hi, hwav, rfl⟩
    exact ⟨(element, i), List.mk_mem_zipIdx_iff_getElem?.mpr hi, by rw [hwav]; rfl⟩

lemma TrackKind.mem_ownWavs {wav : TrackWav} : wav ∈ kind.ownWavs elements ↔
    ∃ (i : ℕ) (element : XmlElement), elements[i]? = some element ∧ kind.wav i element = some wav ∧
      kind.hasAudio element = true := by
  rw [ownWavs, List.mem_filterMap]
  constructor
  · rintro ⟨⟨element, i⟩, hmem, hown⟩
    split at hown
    · rename_i haudio
      exact ⟨i, element, List.mk_mem_zipIdx_iff_getElem?.mp hmem, hown, haudio⟩
    · cases hown
  · rintro ⟨i, element, hi, hwav, haudio⟩
    exact ⟨(element, i), List.mk_mem_zipIdx_iff_getElem?.mpr hi, by rw [if_pos haudio]; exact hwav⟩

lemma TrackKind.pairwise_entries (trackIdx : ℕ) :
    (kind.entries trackIdx elements).Pairwise fun a b => a.2.trackIdx < b.2.trackIdx := by
  apply (StableSort.pairwise_zipIdx elements trackIdx).filterMap
  rintro ⟨element, i⟩ ⟨element', j⟩ hlt item hitem item' hitem'
  obtain ⟨wav, hwav, rfl⟩ := Option.map_eq_some_iff.mp hitem
  obtain ⟨wav', hwav', rfl⟩ := Option.map_eq_some_iff.mp hitem'
  simp only [trackIdx_of_wav hwav, trackIdx_of_wav hwav']
  exact hlt

lemma TrackKind.nodup_ownWavs : (kind.ownWavs elements).Nodup := by
  have hpairwise : (kind.ownWavs elements).Pairwise fun a b => a.trackIdx < b.trackIdx := by
    apply (StableSort.pairwise_zipIdx elements 0).filterMap
    rintro ⟨element, i⟩ ⟨element', j⟩ hlt wav hwav wav' hwav'
    split at hwav
    · split at hwav'
      · rw [trackIdx_of_wav hwav, trackIdx_of_wav hwav']
        exact hlt
      · cases hwav'
    · cases hwav
  apply hpairwise.imp
  rintro a b hlt rfl
  omega

/-- An entry stays where no later file has its name. -/
lemma TrackKind.mem_setAll_entries {name : String} {wav : TrackWav} :
    (name, wav) ∈ (OrderedDict.empty.setAll (kind.entries 0 elements)).items ↔
      ∃ (i : ℕ) (element : XmlElement), elements[i]? = some element ∧ kind.wav i element = some wav ∧
        kind.name i element = name ∧
        ∀ (j : ℕ) (other : XmlElement), i < j → elements[j]? = some other → (kind.wav j other).isSome = true →
          kind.name j other ≠ name := by
  rw [OrderedDict.mem_items_setAll TrackWav.trackIdx (pairwise_entries 0), mem_entries]
  constructor
  · rintro (⟨⟨i, element, hi, hwav, rfl⟩, hlater⟩ | ⟨-, hempty⟩)
    · refine ⟨i, element, hi, hwav, rfl, fun j other hlt hj hmade => ?_⟩
      obtain ⟨wav', hwav'⟩ := Option.isSome_iff_exists.mp hmade
      have hitem := mem_entries.mpr ⟨j, other, hj, hwav', rfl⟩
      apply hlater _ hitem
      rw [trackIdx_of_wav hwav, trackIdx_of_wav hwav']
      exact hlt
    · cases hempty
  · rintro ⟨i, element, hi, hwav, rfl, hlater⟩
    refine .inl ⟨⟨i, element, hi, hwav, rfl⟩, ?_⟩
    rintro ⟨name', wav'⟩ hitem hlt
    obtain ⟨j, other, hj, hwav', rfl⟩ := mem_entries.mp hitem
    rw [trackIdx_of_wav hwav, trackIdx_of_wav hwav'] at hlt
    exact hlater j other hlt hj (by rw [hwav']; rfl)

/-- A file tells its element by its index. -/
lemma TrackKind.element_of_wav {i j : ℕ} {element other : XmlElement} {wav : TrackWav}
    (hi : elements[i]? = some element) (hwav : kind.wav i element = some wav) (hj : elements[j]? = some other)
    (hwav' : kind.wav j other = some wav) :
    i = j ∧ element = other := by
  obtain rfl : i = j := (trackIdx_of_wav hwav).symm.trans (trackIdx_of_wav hwav')
  exact ⟨rfl, Option.some.inj (hi.symm.trans hj)⟩

lemma TrackKind.nodup_values :
    ((OrderedDict.empty.setAll (kind.entries 0 elements)).items.map Prod.snd).Nodup := by
  apply List.Nodup.map_on
  · rintro ⟨name, wav⟩ hmem ⟨name', wav'⟩ hmem' rfl
    obtain ⟨i, element, hi, hwav, rfl, -⟩ := mem_setAll_entries.mp hmem
    obtain ⟨j, other, hj, hwav', rfl, -⟩ := mem_setAll_entries.mp hmem'
    obtain ⟨rfl, rfl⟩ := element_of_wav hi hwav hj hwav'
    rfl
  · exact List.Nodup.of_map Prod.fst (OrderedDict.nodup _)

section Made

variable (hmade : ∀ element ∈ elements, (kind.audio element).isSome = kind.makesFile element)
include hmade

lemma TrackKind.isSome_wav {i : ℕ} {element : XmlElement} (hi : elements[i]? = some element) (j : ℕ) :
    (kind.wav j element).isSome = kind.makesFile element := by
  rw [wav, Option.isSome_map, hmade element (List.mem_of_getElem? hi)]

/-- The values are the files with a name that no later file has. -/
lemma TrackKind.mem_values {wav : TrackWav} :
    wav ∈ (OrderedDict.empty.setAll (kind.entries 0 elements)).items.map Prod.snd ↔
      ∃ (i : ℕ) (element : XmlElement), elements[i]? = some element ∧ kind.wav i element = some wav ∧
        ∀ (j : ℕ) (other : XmlElement), i < j → elements[j]? = some other → kind.makesFile other = true →
          kind.name j other ≠ kind.name i element := by
  rw [List.mem_map]
  constructor
  · rintro ⟨⟨name, _⟩, hmem, rfl⟩
    obtain ⟨i, element, hi, hwav, rfl, hlater⟩ := mem_setAll_entries.mp hmem
    refine ⟨i, element, hi, hwav, fun j other hlt hj hfile => hlater j other hlt hj ?_⟩
    rw [isSome_wav hmade hj, hfile]
  · rintro ⟨i, element, hi, hwav, hlater⟩
    refine ⟨(kind.name i element, wav), mem_setAll_entries.mpr ⟨i, element, hi, hwav, rfl, ?_⟩, rfl⟩
    intro j other hlt hj hsome
    rw [isSome_wav hmade hj] at hsome
    exact hlater j other hlt hj hsome

/-- The values are the files of the elements with audio exactly when the names are kept. -/
theorem TrackKind.values_perm_iff (haudio : ∀ element, kind.hasAudio element = true → kind.makesFile element = true) :
    ((OrderedDict.empty.setAll (kind.entries 0 elements)).items.map Prod.snd).Perm (kind.ownWavs elements) ↔
      kind.NamesKept elements := by
  rw [List.perm_ext_iff_of_nodup nodup_values nodup_ownWavs]
  constructor
  · intro h i element hi hfile
    -- the file of the element has its index, so both sides of the equivalence are about this element
    rw [← isSome_wav hmade hi i] at hfile
    obtain ⟨wav, hwav⟩ := Option.isSome_iff_exists.mp hfile
    constructor
    · intro hhas
      have hvalue := (h wav).mpr (mem_ownWavs.mpr ⟨i, element, hi, hwav, hhas⟩)
      obtain ⟨j, other, hj, hwav', hlater⟩ := (mem_values hmade).mp hvalue
      obtain ⟨rfl, rfl⟩ := element_of_wav hi hwav hj hwav'
      exact hlater
    · intro hlater
      have hown := (h wav).mp ((mem_values hmade).mpr ⟨i, element, hi, hwav, hlater⟩)
      obtain ⟨j, other, hj, hwav', hhas⟩ := mem_ownWavs.mp hown
      obtain ⟨rfl, rfl⟩ := element_of_wav hi hwav hj hwav'
      exact hhas
  · intro h wav
    rw [mem_values hmade, mem_ownWavs]
    constructor
    · rintro ⟨i, element, hi, hwav, hlater⟩
      have hfile : kind.makesFile element = true := by rw [← isSome_wav hmade hi i, hwav]; rfl
      exact ⟨i, element, hi, hwav, (h i element hi hfile).mpr hlater⟩
    · rintro ⟨i, element, hi, hwav, hhas⟩
      exact ⟨i, element, hi, hwav, (h i element hi (haudio element hhas)).mp hhas⟩

end Made

end Entries

/-! ### Both kinds -/

section Extraction

variable {numerals : Numerals} {auFileMap : AuFileMap} {fileDuration : String → ℚ}

lemma TrackKind.entries_cons_none {kind : TrackKind} {trackIdx : ℕ} {element : XmlElement}
    (h : kind.audio element = none) (rest : List XmlElement) :
    kind.entries trackIdx (element :: rest) = kind.entries (trackIdx + 1) rest := by
  rw [entries, List.zipIdx_cons, List.filterMap_cons_none]
  · rfl
  · rw [wav, h]
    rfl

lemma TrackKind.entries_cons_some {kind : TrackKind} {trackIdx : ℕ} {element : XmlElement} {audio : TrackAudio}
    (h : kind.audio element = some audio) (rest : List XmlElement) :
    kind.entries trackIdx (element :: rest) =
      (kind.name trackIdx element, ⟨trackIdx, audio⟩) :: kind.entries (trackIdx + 1) rest := by
  rw [entries, List.zipIdx_cons, List.filterMap_cons_some]
  · rfl
  · rw [wav, h]
    rfl

/-- Imports set their entries, unless an offset is no number. -/
lemma processCraigImports_eq (trackIdx : ℕ) (imports : List XmlElement) (tracks : OrderedDict String TrackWav) :
    processCraigImports numerals auFileMap trackIdx imports tracks =
      if imports.all (importKind numerals auFileMap).readable then
        some (tracks.setAll ((importKind numerals auFileMap).entries trackIdx imports))
      else none := by
  induction imports generalizing trackIdx tracks with
  | nil => rfl
  | cons imp rest ih =>
    rw [processCraigImports, List.all_cons]
    cases hname : nonEmptyAttribute "filename" imp with
    | none =>
      have haudio : (importKind numerals auFileMap).audio imp = none := by
        simp only [importKind, importAudio, hname, Option.bind_eq_bind, Option.bind_none]
      have hreadable : (importKind numerals auFileMap).readable imp = true := by
        simp only [importKind, hname, Option.isNone_none, Bool.true_or]
      rw [TrackKind.entries_cons_none haudio, hreadable, Bool.true_and]
      exact ih (trackIdx + 1) tracks
    | some filename =>
      cases hoffset : floatAttribute numerals imp "offset" with
      | none =>
        have hreadable : (importKind numerals auFileMap).readable imp = false := by
          simp only [importKind, hname, hoffset, Option.isNone_some, Option.isSome_none, Bool.or_self]
        rw [hreadable, Bool.false_and]
        rfl
      | some offsetSec =>
        have hreadable : (importKind numerals auFileMap).readable imp = true := by
          simp only [importKind, hoffset, Option.isSome_some, Bool.or_true]
        simp only [hreadable, Bool.true_and, Option.bind_eq_bind, Option.bind_some]
        cases hpath : importedPath auFileMap filename with
        | none =>
          have haudio : (importKind numerals auFileMap).audio imp = none := by
            simp only [importKind, importAudio, hname, hpath, Option.bind_eq_bind, Option.bind_some, Option.bind_none]
          rw [TrackKind.entries_cons_none haudio]
          exact ih (trackIdx + 1) tracks
        | some foundPath =>
          have haudio : (importKind numerals auFileMap).audio imp =
              some (.imported foundPath (delayOf offsetSec)) := by
            simp only [importKind, importAudio, hname, hpath, hoffset, Option.bind_eq_bind, Option.bind_some]
            rfl
          have hfilename : imp.get? "filename" = some filename := (Option.filter_eq_some_iff.mp hname).1
          have hkey : (importKind numerals auFileMap).name trackIdx imp = (PosixPath.splitext filename).1 := by
            simp only [importKind, hfilename, Option.getD_some]
          rw [TrackKind.entries_cons_some haudio, hkey]
          exact ih (trackIdx + 1) _

/-- Wavetracks set their entries, unless a number in one is no number. -/
lemma processStandardWavetracks_eq (trackIdx : ℕ) (wavetracks : List XmlElement)
    (tracks : OrderedDict String TrackWav) :
    processStandardWavetracks numerals auFileMap fileDuration trackIdx wavetracks tracks =
      if wavetracks.all (wavetrackKind numerals auFileMap fileDuration).readable then
        some (tracks.setAll ((wavetrackKind numerals auFileMap fileDuration).entries trackIdx wavetracks))
      else none := by
  induction wavetracks generalizing trackIdx tracks with
  | nil => rfl
  | cons track rest ih =>
    rw [processStandardWavetracks, List.all_cons]
    cases hclips : parseClipsFromTrack numerals track with
    | none =>
      have hreadable : (wavetrackKind numerals auFileMap fileDuration).readable track = false := by
        simp only [wavetrackKind, hclips, Option.isSome_none]
      rw [hreadable, Bool.false_and]
      rfl
    | some clips =>
      have hreadable : (wavetrackKind numerals auFileMap fileDuration).readable track = true := by
        simp only [wavetrackKind, hclips, Option.isSome_some]
      simp only [hreadable, Bool.true_and, Option.bind_eq_bind, Option.bind_some]
      cases hparts : buildTrackFromClips auFileMap fileDuration clips with
      | none =>
        have haudio : (wavetrackKind numerals auFileMap fileDuration).audio track = none := by
          simp only [wavetrackKind, clipsOf, hclips, Option.getD_some, hparts, Option.map_none]
        rw [TrackKind.entries_cons_none haudio]
        exact ih (trackIdx + 1) tracks
      | some parts =>
        have haudio : (wavetrackKind numerals auFileMap fileDuration).audio track = some (.assembled parts) := by
          simp only [wavetrackKind, clipsOf, hclips, Option.getD_some, hparts, Option.map_some]
        rw [TrackKind.entries_cons_some haudio]
        exact ih (trackIdx + 1) _

/-- A project sets the entries of its elements, when every number that is read is one. -/
lemma extractTracks_eq (xmlRoot : XmlElement) :
    extractTracksFromAup numerals auFileMap fileDuration xmlRoot =
      if (xmlRoot.get? "rate").all (fun rate => (numerals.float rate).isSome) &&
          (trackElements xmlRoot).all (kindOf numerals auFileMap fileDuration xmlRoot).readable then
        some (OrderedDict.empty.setAll
          ((kindOf numerals auFileMap fileDuration xmlRoot).entries 0 (trackElements xmlRoot)))
      else none := by
  have hprocess : (match findElements xmlRoot "import" with
      | [] => processStandardWavetracks numerals auFileMap fileDuration 0 (findElements xmlRoot "wavetrack") .empty
      | imports => processCraigImports numerals auFileMap 0 imports .empty) =
      if (trackElements xmlRoot).all (kindOf numerals auFileMap fileDuration xmlRoot).readable then
        some (OrderedDict.empty.setAll
          ((kindOf numerals auFileMap fileDuration xmlRoot).entries 0 (trackElements xmlRoot)))
      else none := by
    rw [trackElements, kindOf]
    split
    · exact processStandardWavetracks_eq ..
    · exact processCraigImports_eq ..
  rw [extractTracksFromAup]
  cases hrate : xmlRoot.get? "rate" with
  | none =>
    rw [Option.all_none, Bool.true_and]
    exact hprocess
  | some text =>
    cases hfloat : numerals.float text with
    | none =>
      simp only [Option.all_some, hfloat, Option.isSome_none, Bool.false_and, Bool.false_eq_true, if_false,
        Option.bind_eq_bind, Option.bind_none]
    | some rate =>
      simp only [Option.all_some, hfloat, Option.isSome_some, Bool.true_and]
      exact hprocess

lemma buildTrack_isSome (clips : List Clip) :
    (buildTrackFromClips auFileMap fileDuration clips).isSome =
      clips.any fun clip => clip.resolvable auFileMap || 1 / 1000 < clip.offset := by
  rw [Bool.eq_iff_iff, List.any_eq_true, Option.isSome_iff_ne_none]
  by_cases hsome : ∃ clip ∈ clips, clip.resolvable auFileMap = true
  · obtain ⟨clip, hclip, hresolvable⟩ := hsome
    exact iff_of_true (buildTrack_ne_none fileDuration hclip hresolvable) ⟨clip, hclip, by rw [hresolvable]; rfl⟩
  · have hall : ∀ clip ∈ clips, clip.resolvable auFileMap = false := by
      intro clip hclip
      exact Bool.eq_false_iff.mpr fun h => hsome ⟨clip, hclip, h⟩
    rw [ne_eq, buildTrack_eq_none_iff fileDuration hall, not_forall₂]
    constructor
    · rintro ⟨clip, hclip, hoffset⟩
      exact ⟨clip, hclip, by rw [hall clip hclip, Bool.false_or]; exact decide_eq_true (not_le.mp hoffset)⟩
    · rintro ⟨clip, hclip, hgap⟩
      rw [hall clip hclip, Bool.false_or, decide_eq_true_eq] at hgap
      exact ⟨clip, hclip, not_le.mpr hgap⟩

/-- An import makes a file exactly when its audio is there. -/
lemma importAudio_isSome {imp : XmlElement} (h : (importKind numerals auFileMap).readable imp = true) :
    (importAudio numerals auFileMap imp).isSome = importHasAudio auFileMap imp := by
  rw [importAudio, importHasAudio]
  cases hname : nonEmptyAttribute "filename" imp with
  | none => rfl
  | some filename =>
    cases hpath : importedPath auFileMap filename with
    | none =>
      simp only [Option.bind_eq_bind, Option.bind_some, hpath, Option.bind_none]
      rfl
    | some foundPath =>
      simp only [importKind, hname, Option.isNone_some, Bool.false_or] at h
      obtain ⟨offsetSec, hoffset⟩ := Option.isSome_iff_exists.mp h
      simp only [Option.bind_eq_bind, Option.bind_some, hpath, hoffset]
      rfl

lemma kindOf_made {xmlRoot element : XmlElement}
    (h : (kindOf numerals auFileMap fileDuration xmlRoot).readable element = true) :
    ((kindOf numerals auFileMap fileDuration xmlRoot).audio element).isSome =
      (kindOf numerals auFileMap fileDuration xmlRoot).makesFile element := by
  revert h
  rw [kindOf]
  split
  · intro _
    simp only [wavetrackKind, Option.isSome_map, buildTrack_isSome]
  · exact importAudio_isSome

lemma kindOf_hasAudio {xmlRoot element : XmlElement}
    (h : (kindOf numerals auFileMap fileDuration xmlRoot).hasAudio element = true) :
    (kindOf numerals auFileMap fileDuration xmlRoot).makesFile element = true := by
  rw [kindOf] at h ⊢
  split at h
  · obtain ⟨clip, hclip, hresolvable⟩ := List.any_eq_true.mp h
    exact List.any_eq_true.mpr ⟨clip, hclip, by rw [hresolvable]; rfl⟩
  · exact h

end Extraction

/-- There is one entry for each element with audio exactly when all numbers that are read are numbers and the
names are kept. -/
theorem keepsTracks_iff (numerals : Numerals) (auFileMap : AuFileMap) (fileDuration : String → ℚ)
    (xmlRoot : XmlElement) :
    KeepsTracks numerals auFileMap fileDuration xmlRoot ↔
      (xmlRoot.get? "rate").all (fun rate => (numerals.float rate).isSome) = true ∧
      (trackElements xmlRoot).all (kindOf numerals auFileMap fileDuration xmlRoot).readable = true ∧
      (kindOf numerals auFileMap fileDuration xmlRoot).NamesKept (trackElements xmlRoot) := by
  rw [KeepsTracks, extractTracks_eq]
  split
  · rename_i hreadable
    rw [Bool.and_eq_true] at hreadable
    have hmade : ∀ element ∈ trackElements xmlRoot,
        ((kindOf numerals auFileMap fileDuration xmlRoot).audio element).isSome =
          (kindOf numerals auFileMap fileDuration xmlRoot).makesFile element :=
      fun element helement => kindOf_made (List.all_eq_true.mp hreadable.2 element helement)
    have hvalues := TrackKind.values_perm_iff hmade fun _ => kindOf_hasAudio
    constructor
    · rintro ⟨tracks, htracks, hperm⟩
      rw [← Option.some.inj htracks] at hperm
      exact ⟨hreadable.1, hreadable.2, hvalues.mp hperm⟩
    · rintro ⟨-, -, hnames⟩
      exact ⟨_, rfl, hvalues.mpr hnames⟩
  · rename_i hreadable
    rw [Bool.and_eq_true] at hreadable
    constructor
    · rintro ⟨tracks, htracks, -⟩
      cases htracks
    · rintro ⟨hrate, helements, -⟩
      exact absurd ⟨hrate, helements⟩ hreadable

/-- Two imports with the same stem. -/
def sameStemProject : XmlElement :=
  .mk "project" [] [.mk "import" [("filename", "a.flac"), ("offset", "0")] [],
    .mk "import" [("filename", "a.ogg"), ("offset", "0")] []]

def sameStemFiles : AuFileMap := (OrderedDict.empty.set "a.flac" "/x/a.flac").set "a.ogg" "/x/a.ogg"

/-- No number but zero. -/
def onlyZero : Numerals where
  float text := if text = "0" then some 0 else none
  int text := if text = "0" then some 0 else none

/-- The second import takes the entry of the first. -/
theorem sameStem_loses_track : ¬KeepsTracks onlyZero sameStemFiles oneSecond sameStemProject := by
  rintro ⟨tracks, htracks, hperm⟩
  have hsize : (extractTracksFromAup onlyZero sameStemFiles oneSecond sameStemProject).map
      (fun tracks => tracks.items.length) = some 1 := by decide +kernel
  have hown : ((kindOf onlyZero sameStemFiles oneSecond sameStemProject).ownWavs
      (trackElements sameStemProject)).length = 2 := by decide +kernel
  have hlength := hperm.length_eq
  rw [htracks, Option.map_some] at hsize
  rw [List.length_map, hown, Option.some.inj hsize] at hlength
  cases hlength

end AscendAI.AudioScribe
