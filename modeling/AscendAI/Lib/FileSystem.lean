import AscendAI.Lib.OrderedDict
import AscendAI.Lib.PosixPath

/-!
# File systems

Files with their bytes and directories, both by path, without symbolic links. An operation ends or is
raised out of, and leaves a file system in both cases. What the operating system refuses for other
reasons (a name that is too long, no space) is a parameter.
-/

open PosixPath

structure FileSystem where
  files : OrderedDict Path (List UInt8)
  dirs : List Path

namespace FileSystem

inductive Outcome where
  | ended (fs : FileSystem)
  | raised (fs : FileSystem)

def Outcome.fs : Outcome → FileSystem
  | .ended fs => fs
  | .raised fs => fs

def Outcome.hasEnded : Outcome → Bool
  | .ended _ => true
  | .raised _ => false

lemma Outcome.eq_ended {o : Outcome} (h : o.hasEnded = true) : o = .ended o.fs := by
  cases o with
  | ended fs => rfl
  | raised fs => cases h

def Outcome.andThen : Outcome → (FileSystem → Outcome) → Outcome
  | .ended fs, next => next fs
  | .raised fs, _ => .raised fs

section Operations

variable (accepts : Path → Bool)

/-- `mkdir(parents=True, exist_ok=True)` for the parts below a path. -/
def makeDirs (path : Path) : List String → FileSystem → Outcome
  | [], fs => .ended fs
  | part :: rest, fs =>
    let next := path ++ [part]
    if next ∈ fs.dirs then makeDirs next rest fs
    else if next ∈ fs.files.keys || !accepts next then .raised fs
    else makeDirs next rest { fs with dirs := next :: fs.dirs }

/-- A file is opened for writing and gets its bytes, all of them or those up to an error. -/
def writeFile (path : Path) (bytes : List UInt8) (complete : Bool) (fs : FileSystem) : Outcome :=
  if path ∈ fs.dirs || !accepts path then .raised fs
  else
    let fs := { fs with files := fs.files.set path bytes }
    if complete then .ended fs else .raised fs

end Operations

variable {accepts : Path → Bool}

/-- Directories leave the files alone. -/
lemma files_makeDirs (path : Path) (l : List String) (fs : FileSystem) :
    (makeDirs accepts path l fs).fs.files = fs.files := by
  induction l generalizing path fs with
  | nil => rfl
  | cons part rest ih =>
    rw [makeDirs]
    split
    · exact ih _ _
    · split
      · rfl
      · exact ih _ _

lemma files_writeFile (path : Path) (bytes : List UInt8) (complete : Bool) (fs : FileSystem) :
    (writeFile accepts path bytes complete fs).fs.files = fs.files ∨
      (writeFile accepts path bytes complete fs).fs.files = fs.files.set path bytes := by
  rw [writeFile]
  split
  · exact .inl rfl
  · right
    split <;> rfl

lemma files_of_writeFile_ended {path : Path} {bytes : List UInt8} {complete : Bool} {fs fs' : FileSystem}
    (h : writeFile accepts path bytes complete fs = .ended fs') : fs'.files = fs.files.set path bytes := by
  rw [writeFile] at h
  split at h
  · cases h
  · split at h
    · cases h
      rfl
    · cases h

lemma andThen_eq_ended {o : Outcome} {next : FileSystem → Outcome} {fs' : FileSystem} :
    o.andThen next = .ended fs' ↔ ∃ fs, o = .ended fs ∧ next fs = .ended fs' := by
  cases o with
  | ended fs => simp [Outcome.andThen]
  | raised fs => simp [Outcome.andThen]

/-- What holds of the file system an operation leaves, and is kept by the next one, holds in the end. -/
lemma fs_andThen {p : FileSystem → Prop} {o : Outcome} {next : FileSystem → Outcome} (ho : p o.fs)
    (hnext : ∀ fs, p fs → p (next fs).fs) : p (o.andThen next).fs := by
  cases o with
  | ended fs => exact hnext fs ho
  | raised fs => exact ho

end FileSystem
