import Mathlib.Data.Rat.Floor
import AscendAI.Lib.OrderedDict
import AscendAI.Lib.PosixPath
import AscendAI.Lib.StableSort
import AscendAI.Lib.XmlTree

/-!
# The Audacity parser

From the tree of a project and the audio files beside it to one file for each track: the elements that
are looked for, the clips of a track, and how a track is put together from silence and clips. A file is
modelled by what it holds.
-/

namespace AscendAI.AudioScribe
open StableSort PosixPath

/-- `float()` and `int()` on a text; none stands for `ValueError`. -/
structure Numerals where
  float : String → Option ℚ
  int : String → Option ℤ

/-- The names of the audio files, with their paths. -/
abbrev AuFileMap := OrderedDict String String

/-! ### Clips -/

structure Clip where
  offset : ℚ
  auFiles : List String
  deriving DecidableEq

/-- The tag, with or without a namespace. -/
def hasTag (tagName : String) (e : XmlElement) : Bool :=
  e.tag == tagName || (e.tag.toList.contains '}' && (e.tag.toList.dropWhile (· != '}')).drop 1 == tagName.toList)

def findElements (element : XmlElement) (tagName : String) : List XmlElement :=
  element.iter.filter (hasTag tagName)

section Parser

variable (numerals : Numerals)

/-- `float(element.attrib.get(name, 0.0))` -/
def floatAttribute (element : XmlElement) (name : String) : Option ℚ :=
  match element.get? name with
  | none => some 0
  | some text => numerals.float text

/-- `int(b.attrib.get("start", 0))` -/
def startAttribute (block : XmlElement) : Option ℤ :=
  match block.get? "start" with
  | none => some 0
  | some text => numerals.int text

/-- `if filename:` for an attribute. -/
def nonEmptyAttribute (name : String) (element : XmlElement) : Option String :=
  (element.get? name).filter (· ≠ "")

def simpleFiles (elements : List XmlElement) : List String :=
  (elements.filter (hasTag "simpleblockfile")).filterMap (nonEmptyAttribute "filename")

def aliasFiles (elements : List XmlElement) : List String :=
  ((elements.filter (hasTag "pcmaliasblockfile")).filterMap (nonEmptyAttribute "aliasfile")).map basename

/-- The body of the loop over the blocks of a clip. -/
def blockFiles (block : XmlElement) : List String := simpleFiles block.iter ++ aliasFiles block.iter

/-- A clip; the sort raises where a start is no number. -/
def parseClip (clip : XmlElement) : Option Clip := do
  let offset ← floatAttribute numerals clip "offset"
  let blocks := findElements clip "waveblock"
  if blocks.all fun block => (startAttribute numerals block).isSome then
    some ⟨offset, (sortBy (fun block => (startAttribute numerals block).getD 0) blocks).flatMap blockFiles⟩
  else none

def parseClipsFromTrack (track : XmlElement) : Option (List Clip) :=
  (findElements track "waveclip").mapM (parseClip numerals)

end Parser

/-! ### Tracks -/

/-- A part of a track: generated silence, or the clip of this index from its files. -/
inductive TrackPart where
  | gap (seconds : ℚ)
  | clip (clipIdx : ℕ) (paths : List String)
  deriving DecidableEq

section Track

variable (auFileMap : AuFileMap) (fileDuration : String → ℚ)

/-- `_assemble_clip_blocks`: the files that are there, one behind the other. -/
def assembleClipBlocks (auFiles : List String) : Option (List String) :=
  let validPaths := auFiles.filterMap auFileMap.get?
  if validPaths = [] then none else some validPaths

/-- The time that the files take one behind the other. -/
def audioDuration : List String → ℚ
  | [] => 0
  | path :: paths => fileDuration path + audioDuration paths

/-- The loop of `_build_track_from_clips` over the sorted clips, from `current_time_sec` on. -/
def buildParts (clipIdx : ℕ) (currentTimeSec : ℚ) : List Clip → List TrackPart
  | [] => []
  | clip :: rest =>
    let gapSec := clip.offset - currentTimeSec
    let gap := if 1 / 1000 < gapSec then [TrackPart.gap gapSec] else []
    match assembleClipBlocks auFileMap clip.auFiles with
    | none => gap ++ buildParts (clipIdx + 1) currentTimeSec rest
    | some paths => gap ++ .clip clipIdx paths ::
        buildParts (clipIdx + 1) (clip.offset + audioDuration fileDuration paths) rest

def sortClips (clips : List Clip) : List Clip := sortBy Clip.offset clips

def buildTrackFromClips (clips : List Clip) : Option (List TrackPart) :=
  let assembledParts := buildParts auFileMap fileDuration 0 0 (sortClips clips)
  if assembledParts = [] then none else some assembledParts

end Track

/-! ### Projects -/

/-- What a track's file holds: an imported file behind a delay in milliseconds, or parts. -/
inductive TrackAudio where
  | imported (path : String) (delayMs : ℤ)
  | assembled (parts : List TrackPart)
  deriving DecidableEq

/-- The file that is made for the element of this index. -/
structure TrackWav where
  trackIdx : ℕ
  audio : TrackAudio
  deriving DecidableEq

/-- `int(x)` -/
def truncate (x : ℚ) : ℤ := if 0 ≤ x then ⌊x⌋ else ⌈x⌉

/-- `_convert_and_normalize` adds a delay that is positive. -/
def delayOf (offsetSec : ℚ) : ℤ :=
  let offsetMs := truncate (offsetSec * 1000)
  if 0 < offsetMs then offsetMs else 0

section Project

variable (numerals : Numerals) (auFileMap : AuFileMap) (fileDuration : String → ℚ)

/-- `au_file_map.get(filename) or au_file_map.get(os.path.basename(filename))` -/
def importedPath (filename : String) : Option String :=
  ((auFileMap.get? filename).filter (· ≠ "")).orElse fun _ =>
    (auFileMap.get? (basename filename)).filter (· ≠ "")

def processCraigImports (trackIdx : ℕ) : List XmlElement → OrderedDict String TrackWav →
    Option (OrderedDict String TrackWav)
  | [], tracks => some tracks
  | imp :: rest, tracks =>
    match nonEmptyAttribute "filename" imp with
    | none => processCraigImports (trackIdx + 1) rest tracks
    | some filename => do
      let offsetSec ← floatAttribute numerals imp "offset"
      match importedPath auFileMap filename with
      | none => processCraigImports (trackIdx + 1) rest tracks
      | some foundPath =>
        processCraigImports (trackIdx + 1) rest
          (tracks.set (splitext filename).1 ⟨trackIdx, .imported foundPath (delayOf offsetSec)⟩)

def trackName (trackIdx : ℕ) (track : XmlElement) : String :=
  (track.get? "name").getD ("Track_" ++ toString (trackIdx + 1))

def processStandardWavetracks (trackIdx : ℕ) : List XmlElement → OrderedDict String TrackWav →
    Option (OrderedDict String TrackWav)
  | [], tracks => some tracks
  | track :: rest, tracks => do
    let clips ← parseClipsFromTrack numerals track
    match buildTrackFromClips auFileMap fileDuration clips with
    | none => processStandardWavetracks (trackIdx + 1) rest tracks
    | some parts =>
      processStandardWavetracks (trackIdx + 1) rest
        (tracks.set (trackName trackIdx track) ⟨trackIdx, .assembled parts⟩)

/-- `extract_tracks_from_aup` from the tree and the files on; the rate of the project is only parsed. -/
def extractTracksFromAup (xmlRoot : XmlElement) : Option (OrderedDict String TrackWav) := do
  let _rate ← match xmlRoot.get? "rate" with
    | none => some 44100
    | some text => numerals.float text
  match findElements xmlRoot "import" with
  | [] => processStandardWavetracks numerals auFileMap fileDuration 0 (findElements xmlRoot "wavetrack") .empty
  | imports => processCraigImports numerals auFileMap 0 imports .empty

end Project

end AscendAI.AudioScribe
