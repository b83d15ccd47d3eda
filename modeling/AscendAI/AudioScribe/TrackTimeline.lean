import Mathlib.Tactic.Linarith
import AscendAI.AudioScribe.AudacityParser

/-!
# The timeline of a track

Where the clips of a built track start, against their offsets. Silence is appended before it is known
whether the clip behind it has audio: a clip without audio leaves its gap in the track, and the position
that the loop keeps does not count it.
-/

namespace AscendAI.AudioScribe
open StableSort

section Track

variable (auFileMap : AuFileMap) (fileDuration : String → ℚ)

/-- Where the clip of the index starts in the parts, which start at the position. -/
def clipStart (position : ℚ) (clipIdx : ℕ) : List TrackPart → Option ℚ
  | [] => none
  | .gap seconds :: parts => clipStart (position + seconds) clipIdx parts
  | .clip idx paths :: parts =>
    if idx = clipIdx then some position
    else clipStart (position + audioDuration fileDuration paths) clipIdx parts

def Clip.resolvable (clip : Clip) : Bool := (assembleClipBlocks auFileMap clip.auFiles).isSome

/-- The time at which the clip's audio ends when it starts at its offset; without audio nothing moves. -/
def Clip.endAfter (currentTimeSec : ℚ) (clip : Clip) : ℚ :=
  match assembleClipBlocks auFileMap clip.auFiles with
  | none => currentTimeSec
  | some paths => clip.offset + audioDuration fileDuration paths

/-- What a clip adds to the lag of the track: without audio the silence that is put in front of it, and
with audio minus the gap that is too small for silence. -/
def Clip.shift (currentTimeSec : ℚ) (clip : Clip) : ℚ :=
  let gapSec := clip.offset - currentTimeSec
  if clip.resolvable auFileMap then if 1 / 1000 < gapSec then 0 else -gapSec
  else if 1 / 1000 < gapSec then gapSec else 0

/-- The shifts of the clips up to the index, the one of the index included. -/
def lag (currentTimeSec : ℚ) : List Clip → ℕ → ℚ
  | [], _ => 0
  | clip :: _, 0 => clip.shift auFileMap currentTimeSec
  | clip :: rest, i + 1 =>
    clip.shift auFileMap currentTimeSec + lag (clip.endAfter auFileMap fileDuration currentTimeSec) rest i

/-- Every clip with audio starts at its offset, up to a millisecond for each clip before it, and there is
no track exactly when no clip has audio. -/
structure KeepsTimeline (clips : List Clip) : Prop where
  starts : ∀ (i : ℕ) (clip : Clip), (sortClips clips)[i]? = some clip → clip.resolvable auFileMap = true →
    ∃ start, (buildTrackFromClips auFileMap fileDuration clips).bind (clipStart fileDuration 0 i) = some start ∧
      start - clip.offset ≤ i / 1000 ∧ clip.offset - start ≤ i / 1000
  none_iff : buildTrackFromClips auFileMap fileDuration clips = none ↔
    ∀ clip ∈ clips, clip.resolvable auFileMap = false

end Track

section Steps

variable {auFileMap : AuFileMap} (fileDuration : String → ℚ)

lemma clipStart_gap (position gapSec : ℚ) (clipIdx : ℕ) (parts : List TrackPart) :
    clipStart fileDuration position clipIdx
      ((if 1 / 1000 < gapSec then [TrackPart.gap gapSec] else []) ++ parts) =
    clipStart fileDuration (position + if 1 / 1000 < gapSec then gapSec else 0) clipIdx parts := by
  split
  · rfl
  · rw [List.nil_append, add_zero]

/-- A clip starts at its offset, later by the lag of the track at this clip. -/
theorem clipStart_buildParts {clips : List Clip} {i : ℕ} {clip : Clip} (hi : clips[i]? = some clip)
    (hclip : clip.resolvable auFileMap = true) (clipIdx : ℕ) (currentTimeSec position : ℚ) :
    clipStart fileDuration position (clipIdx + i) (buildParts auFileMap fileDuration clipIdx currentTimeSec clips) =
      some (position - currentTimeSec + clip.offset + lag auFileMap fileDuration currentTimeSec clips i) := by
  induction clips generalizing i clipIdx currentTimeSec position with
  | nil => cases hi
  | cons first rest ih =>
    cases hfirst : assembleClipBlocks auFileMap first.auFiles with
    | none =>
      have hresolvable : first.resolvable auFileMap = false := by rw [Clip.resolvable, hfirst]; rfl
      simp only [buildParts, hfirst]
      rw [clipStart_gap]
      cases i with
      | zero =>
        obtain rfl := Option.some.inj hi
        rw [hresolvable] at hclip
        cases hclip
      | succ i =>
        have hnext := ih hi (clipIdx + 1) currentTimeSec
          (position + if 1 / 1000 < first.offset - currentTimeSec then first.offset - currentTimeSec else 0)
        have hindex : clipIdx + (i + 1) = clipIdx + 1 + i := by omega
        rw [hindex, hnext]
        simp only [lag, Clip.shift, Clip.endAfter, hfirst, hresolvable, Bool.false_eq_true, if_false]
        congr 1
        ring
    | some paths =>
      have hresolvable : first.resolvable auFileMap = true := by rw [Clip.resolvable, hfirst]; rfl
      have hshift : first.shift auFileMap currentTimeSec =
          (if 1 / 1000 < first.offset - currentTimeSec then first.offset - currentTimeSec else 0) -
            (first.offset - currentTimeSec) := by
        simp only [Clip.shift, hresolvable, if_true]
        split <;> ring
      simp only [buildParts, hfirst]
      rw [clipStart_gap]
      cases i with
      | zero =>
        obtain rfl := Option.some.inj hi
        rw [Nat.add_zero, clipStart, if_pos rfl, lag, hshift]
        congr 1
        ring
      | succ i =>
        have hne : clipIdx ≠ clipIdx + (i + 1) := by omega
        have hnext := ih hi (clipIdx + 1) (first.offset + audioDuration fileDuration paths)
          (position + (if 1 / 1000 < first.offset - currentTimeSec then first.offset - currentTimeSec else 0) +
            audioDuration fileDuration paths)
        have hindex : clipIdx + (i + 1) = clipIdx + 1 + i := by omega
        rw [clipStart, if_neg hne, hindex, hnext, lag, hshift]
        simp only [Clip.endAfter, hfirst]
        congr 1
        ring

lemma buildParts_ne_nil {clips : List Clip} {clip : Clip} (hmem : clip ∈ clips)
    (hclip : clip.resolvable auFileMap = true) (clipIdx : ℕ) (currentTimeSec : ℚ) :
    buildParts auFileMap fileDuration clipIdx currentTimeSec clips ≠ [] := by
  obtain ⟨i, hi⟩ := List.mem_iff_getElem?.mp hmem
  intro hnil
  have hstart := clipStart_buildParts fileDuration hi hclip clipIdx currentTimeSec 0
  rw [hnil] at hstart
  cases hstart

/-- Without audio only the gaps are left. -/
lemma buildParts_eq_nil_iff {clips : List Clip} (hclips : ∀ clip ∈ clips, clip.resolvable auFileMap = false)
    (clipIdx : ℕ) (currentTimeSec : ℚ) :
    buildParts auFileMap fileDuration clipIdx currentTimeSec clips = [] ↔
      ∀ clip ∈ clips, clip.offset - currentTimeSec ≤ 1 / 1000 := by
  induction clips generalizing clipIdx with
  | nil => simp [buildParts]
  | cons first rest ih =>
    have hfirst : assembleClipBlocks auFileMap first.auFiles = none := by
      have hresolvable := hclips first List.mem_cons_self
      rwa [Clip.resolvable, Option.isSome_eq_false_iff, Option.isNone_iff_eq_none] at hresolvable
    have hrest := ih (fun clip hclip => hclips clip (List.mem_cons_of_mem first hclip)) (clipIdx + 1)
    simp only [buildParts, hfirst, List.append_eq_nil_iff, hrest, List.forall_mem_cons]
    apply and_congr_left
    intro _
    split
    · rename_i hgap
      exact iff_of_false (List.cons_ne_nil _ _) (not_le.mpr hgap)
    · rename_i hgap
      exact iff_of_true rfl (not_lt.mp hgap)

lemma mem_sortClips {clips : List Clip} {clip : Clip} : clip ∈ sortClips clips ↔ clip ∈ clips :=
  (sortBy_perm _ _).mem_iff

/-- In the whole track a clip with audio starts later than its offset by the lag. -/
lemma clipStart_buildTrack {clips : List Clip} {i : ℕ} {clip : Clip} (hi : (sortClips clips)[i]? = some clip)
    (hclip : clip.resolvable auFileMap = true) :
    (buildTrackFromClips auFileMap fileDuration clips).bind (clipStart fileDuration 0 i) =
      some (clip.offset + lag auFileMap fileDuration 0 (sortClips clips) i) := by
  have hne := buildParts_ne_nil fileDuration (List.mem_of_getElem? hi) hclip 0 0
  have hparts := clipStart_buildParts fileDuration hi hclip 0 0 0
  rw [Nat.zero_add] at hparts
  simp only [buildTrackFromClips, if_neg hne, Option.bind_some]
  rw [hparts]
  congr 1
  ring

lemma buildTrack_ne_none {clips : List Clip} {clip : Clip} (hmem : clip ∈ clips)
    (hclip : clip.resolvable auFileMap = true) : buildTrackFromClips auFileMap fileDuration clips ≠ none := by
  have hne := buildParts_ne_nil fileDuration (mem_sortClips.mpr hmem) hclip 0 0
  rw [buildTrackFromClips, if_neg hne]
  exact Option.some_ne_none _

lemma buildTrack_eq_none_iff {clips : List Clip} (hclips : ∀ clip ∈ clips, clip.resolvable auFileMap = false) :
    buildTrackFromClips auFileMap fileDuration clips = none ↔ ∀ clip ∈ clips, clip.offset ≤ 1 / 1000 := by
  have hnil := buildParts_eq_nil_iff fileDuration (fun clip hclip => hclips clip (mem_sortClips.mp hclip)) 0 0
  simp only [mem_sortClips, sub_zero] at hnil
  rw [← hnil, buildTrackFromClips]
  split
  · rename_i h
    exact iff_of_true rfl h
  · rename_i h
    exact iff_of_false (Option.some_ne_none _) h

/-- Each clip starts after the audio in front of it has ended. -/
def NonOverlapping (auFileMap : AuFileMap) (fileDuration : String → ℚ) (currentTimeSec : ℚ) : List Clip → Prop
  | [] => True
  | clip :: rest => currentTimeSec ≤ clip.offset ∧
      NonOverlapping auFileMap fileDuration (clip.endAfter auFileMap fileDuration currentTimeSec) rest

/-- Where every clip has audio nothing starts late, and each clip loses a millisecond at most. -/
theorem lag_of_resolvable {clips : List Clip} (hclips : ∀ clip ∈ clips, clip.resolvable auFileMap = true)
    {currentTimeSec : ℚ} (hover : NonOverlapping auFileMap fileDuration currentTimeSec clips) (i : ℕ) :
    lag auFileMap fileDuration currentTimeSec clips i ≤ 0 ∧
      -lag auFileMap fileDuration currentTimeSec clips i ≤ (i + 1) / 1000 := by
  induction clips generalizing i currentTimeSec with
  | nil =>
    have hi : (0 : ℚ) ≤ i := Nat.cast_nonneg i
    rw [lag]
    constructor <;> linarith
  | cons first rest ih =>
    have hstart := hover.1
    have hshift : first.shift auFileMap currentTimeSec ≤ 0 ∧ -first.shift auFileMap currentTimeSec ≤ 1 / 1000 := by
      simp only [Clip.shift, hclips first List.mem_cons_self, if_true]
      split <;> constructor <;> linarith
    cases i with
    | zero =>
      rw [lag, Nat.cast_zero]
      constructor <;> linarith
    | succ i =>
      have hrest := ih (fun clip hclip => hclips clip (List.mem_cons_of_mem first hclip)) hover.2 i
      rw [lag, Nat.cast_succ]
      constructor <;> linarith

end Steps

/-- The timeline is kept exactly when the lag at each clip with audio is at most a millisecond for each
clip before it, and some clip has audio or every offset is too small for silence. -/
theorem keepsTimeline_iff (auFileMap : AuFileMap) (fileDuration : String → ℚ) (clips : List Clip) :
    KeepsTimeline auFileMap fileDuration clips ↔
      (∀ (i : ℕ) (clip : Clip), (sortClips clips)[i]? = some clip → clip.resolvable auFileMap = true →
        lag auFileMap fileDuration 0 (sortClips clips) i ≤ i / 1000 ∧
          -lag auFileMap fileDuration 0 (sortClips clips) i ≤ i / 1000) ∧
      ((∃ clip ∈ clips, clip.resolvable auFileMap = true) ∨ ∀ clip ∈ clips, clip.offset ≤ 1 / 1000) := by
  have hnone : (buildTrackFromClips auFileMap fileDuration clips = none ↔
      ∀ clip ∈ clips, clip.resolvable auFileMap = false) ↔
      ((∃ clip ∈ clips, clip.resolvable auFileMap = true) ∨ ∀ clip ∈ clips, clip.offset ≤ 1 / 1000) := by
    by_cases hsome : ∃ clip ∈ clips, clip.resolvable auFileMap = true
    · obtain ⟨clip, hclip, hresolvable⟩ := hsome
      have hne := buildTrack_ne_none fileDuration hclip hresolvable
      have hnot : ¬∀ clip ∈ clips, clip.resolvable auFileMap = false := by
        intro hall
        rw [hall clip hclip] at hresolvable
        cases hresolvable
      exact iff_of_true (iff_of_false hne hnot) (.inl ⟨clip, hclip, hresolvable⟩)
    · have hall : ∀ clip ∈ clips, clip.resolvable auFileMap = false := by
        intro clip hclip
        exact Bool.eq_false_iff.mpr fun h => hsome ⟨clip, hclip, h⟩
      rw [buildTrack_eq_none_iff fileDuration hall, or_iff_right hsome]
      exact ⟨fun h => h.mpr hall, fun h => iff_of_true h hall⟩
  constructor
  · intro h
    refine ⟨fun i clip hi hclip => ?_, hnone.mp h.none_iff⟩
    obtain ⟨start, hs, hle, hge⟩ := h.starts i clip hi hclip
    rw [clipStart_buildTrack fileDuration hi hclip] at hs
    have hvalue := Option.some.inj hs
    constructor <;> linarith
  · rintro ⟨hlag, haudio⟩
    refine ⟨fun i clip hi hclip => ?_, hnone.mpr haudio⟩
    obtain ⟨hle, hge⟩ := hlag i clip hi hclip
    refine ⟨_, clipStart_buildTrack fileDuration hi hclip, ?_, ?_⟩ <;> linarith

/-- One second of audio under the name `b.au`. -/
def onlySecondFile : AuFileMap := OrderedDict.empty.set "b.au" "/x/b.au"

def oneSecond : String → ℚ := fun _ => 1

/-- A clip without audio at one second, and one with audio at two. -/
def missingThenPresent : List Clip := [⟨1, ["a.au"]⟩, ⟨2, ["b.au"]⟩]

/-- The second clip starts at three seconds, and the first alone still makes a track. -/
theorem missingClip_breaks_timeline :
    ¬KeepsTimeline onlySecondFile oneSecond missingThenPresent ∧
      ¬KeepsTimeline onlySecondFile oneSecond [⟨1, ["a.au"]⟩] := by
  have hmissing : (⟨1, ["a.au"]⟩ : Clip).resolvable onlySecondFile = false := by decide
  constructor
  · intro h
    have hpresent : (⟨2, ["b.au"]⟩ : Clip).resolvable onlySecondFile = true := by decide
    have hsecond : (sortClips missingThenPresent)[1]? = some ⟨2, ["b.au"]⟩ := by decide
    have hsorted : sortClips missingThenPresent = missingThenPresent := by decide
    have hnone : assembleClipBlocks onlySecondFile ["a.au"] = none := by decide
    obtain ⟨start, hs, hle, -⟩ := h.starts 1 ⟨2, ["b.au"]⟩ hsecond hpresent
    rw [clipStart_buildTrack oneSecond hsecond hpresent, hsorted] at hs
    have hvalue := Option.some.inj hs
    simp only [missingThenPresent, lag, Clip.shift, Clip.endAfter, hmissing, hpresent, hnone] at hvalue
    norm_num at hvalue
    rw [← hvalue] at hle
    norm_num at hle
  · intro h
    have hall : ∀ clip ∈ [(⟨1, ["a.au"]⟩ : Clip)], clip.resolvable onlySecondFile = false := by
      simpa using hmissing
    have hsmall := (buildTrack_eq_none_iff oneSecond hall).mp (h.none_iff.mpr hall)
    have hone := hsmall _ (List.mem_singleton_self _)
    norm_num at hone

end AscendAI.AudioScribe
