import AscendAI.Lib.FileSystem

/-!
# Extracting the archive of a project

The guarded extraction of an archive below a root, member by member, and what is then looked for below the
root: the one project file, and the audio files under the names that they have on disk.
-/

namespace AscendAI.AudioScribe
open PosixPath PythonString FileSystem

/-- A member as the archive declares it, and what reading it gives: the bytes up to the end or an error. -/
structure ZipMember where
  filename : String
  fileSize : ℕ
  opens : Bool
  bytes : List UInt8
  complete : Bool
  deriving DecidableEq

/-- `not name or name.endswith("/")` -/
def ZipMember.isDirectoryEntry (member : ZipMember) : Bool :=
  member.filename == "" || member.filename.toList.getLast? == some '/'

def startsWithDash (name : String) : Bool := name.toList.head? == some '-'

def validAudioExts : List String := [".au", ".flac", ".wav", ".ogg", ".mp3", ".m4a"]

def hasAudioExt (name : String) : Bool :=
  validAudioExts.any fun ext => ext.toList == (splitext name).2.toList.map Char.toLower

/-- The parts of a member's name without the slashes and backslashes in front. -/
def sanitisedParts (name : String) : Path := parts (lstrip ['/', '\\'] name)

/-- A base name that looks like a flag gives way to a token. -/
def renamedParts (token : String) (parts : Path) : Path :=
  let stem := parts.getLastD ""
  if startsWithDash stem then parts.dropLast ++ ["_dash_" ++ token ++ suffix stem] else parts

def resolveZipMemberTarget (root : Path) (token name : String) : Option Path :=
  let target := walk root (renamedParts token (sanitisedParts name))
  if root <+: target then some target else none

section Extraction

variable (accepts : Path → Bool) (maxZipUncompressedBytes : ℕ) (root : Path) (tokens : ℕ → String)

def handleZipDirectoryEntry (name : String) (fs : FileSystem) : Outcome :=
  let targetDir := walk (if name.toList.head? = some '/' then [] else root) (parts name)
  if root <+: targetDir then makeDirs accepts [] targetDir fs else .raised fs

def streamMemberToDisk (member : ZipMember) (target : Path) (fs : FileSystem) : Outcome :=
  (makeDirs accepts [] target.dropLast fs).andThen fun fs =>
    if member.opens then writeFile accepts target member.bytes member.complete fs else .raised fs

/-- What is done for the member of the index, once the size is counted. -/
def extractMember (idx : ℕ) (member : ZipMember) (fs : FileSystem) : Outcome :=
  if member.isDirectoryEntry then handleZipDirectoryEntry accepts root member.filename fs
  else
    match resolveZipMemberTarget root (tokens idx) member.filename with
    | none => .raised fs
    | some target => streamMemberToDisk accepts member target fs

def extractMembers (idx totalUncompressed : ℕ) : List ZipMember → FileSystem → Outcome
  | [], fs => .ended fs
  | member :: rest, fs =>
    let totalUncompressed := totalUncompressed + member.fileSize
    if maxZipUncompressedBytes < totalUncompressed then .raised fs
    else (extractMember accepts root tokens idx member fs).andThen (extractMembers (idx + 1) totalUncompressed rest)

/-- The random token for the member of each index is a parameter. -/
def safeZipExtract (members : List ZipMember) (fs : FileSystem) : Outcome :=
  extractMembers accepts maxZipUncompressedBytes root tokens 0 0 members fs

end Extraction

/-! ### What is found below a directory -/

/-- Whether a walk from the directory comes to the file. -/
def isBelow (dir path : Path) : Bool := decide (dir <+: path.dropLast)

def filesBelow (dir : Path) (fs : FileSystem) : List Path := fs.files.keys.filter (isBelow dir)

/-- The files in an order of `os.walk`: a directory's own ones come first, and what is below it in one stretch. -/
structure IsWalk (root : Path) (fs : FileSystem) (files : List Path) : Prop where
  perm : files.Perm (filesBelow root fs)
  top_down : files.Pairwise fun a b => b.dropLast <+: a.dropLast → b.dropLast = a.dropLast
  stretch : ∀ dir, files.filter (isBelow dir) <:+: files

def findSingleAupPath (files : List Path) : Option Path :=
  match files.filter fun path => ".aup".toList.isSuffixOf (path.getLastD "").toList with
  | [aupPath] => some aupPath
  | _ => none

/-- A name that comes twice in the walk has the later path. -/
def buildAuFileMap (files : List Path) : OrderedDict String Path :=
  OrderedDict.empty.setAll ((files.filter fun path => hasAudioExt (path.getLastD "")).map fun path =>
    (path.getLastD "", path))

end AscendAI.AudioScribe
