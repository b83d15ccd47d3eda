import Mathlib.Data.List.Basic
import AscendAI.Lib.PythonString

/-!
# Scripts of the concat demuxer

The list files that ffmpeg reads: one directive on a line, with a keyword and an argument. In single quotes
every character stands for itself up to the next single quote; outside of them white space ends the argument
and a backslash takes the next character as it is. A line ends at a line feed here; ffmpeg itself also ends one
at a carriage return.
-/

namespace ConcatScript

structure Directive where
  keyword : String
  argument : String
  deriving DecidableEq

def isSpace (c : Char) : Bool := c == ' ' || c == '\t' || c == '\r' || c == '\n'

/-- The argument that a text starts with, from inside or outside of quotes on. -/
def readArgument : Bool → List Char → List Char
  | _, [] => []
  | true, c :: rest => if c = '\'' then readArgument false rest else c :: readArgument true rest
  | false, '\\' :: c :: rest => c :: readArgument false rest
  | false, c :: rest =>
    if isSpace c then []
    else if c = '\'' then readArgument true rest
    else c :: readArgument false rest

/-- Blank lines and comments have no directive. -/
def readLine (line : List Char) : Option Directive :=
  let line := line.dropWhile isSpace
  let keyword := line.takeWhile (!isSpace ·)
  if keyword = [] ∨ keyword.head? = some '#' then none
  else
    let argument := readArgument false ((line.dropWhile (!isSpace ·)).dropWhile isSpace)
    some ⟨String.ofList keyword, String.ofList argument⟩

def readScript (script : String) : List Directive := (script.toList.splitOn '\n').filterMap readLine

lemma readArgument_cons {d : Char} (hd : d ≠ '\\') (rest : List Char) :
    readArgument false (d :: rest) =
      if isSpace d then [] else if d = '\'' then readArgument true rest else d :: readArgument false rest := by
  rw [readArgument]
  intro c rest' hd' _
  exact hd hd'

/-- What a text without backslashes stands for has none, and no quotes. -/
lemma mem_readArgument {quoted : Bool} {l : List Char} (hl : '\\' ∉ l) {c : Char}
    (hc : c ∈ readArgument quoted l) : c ∈ l ∧ c ≠ '\'' := by
  induction l generalizing quoted with
  | nil =>
    rw [readArgument] at hc
    cases hc
  | cons d rest ih =>
    obtain ⟨hd, hrest⟩ := not_or.mp (List.mem_cons.not.mp hl)
    have hlift : c ∈ rest ∧ c ≠ '\'' → c ∈ d :: rest ∧ c ≠ '\'' :=
      fun h => ⟨List.mem_cons_of_mem d h.1, h.2⟩
    cases quoted with
    | true =>
      rw [readArgument] at hc
      split at hc
      · exact hlift (ih hrest hc)
      · rename_i hquote
        rcases List.mem_cons.mp hc with rfl | hc
        · exact ⟨List.mem_cons_self, hquote⟩
        · exact hlift (ih hrest hc)
    | false =>
      rw [readArgument_cons (Ne.symm hd)] at hc
      split at hc
      · cases hc
      · split at hc
        · exact hlift (ih hrest hc)
        · rename_i hquote
          rcases List.mem_cons.mp hc with rfl | hc
          · exact ⟨List.mem_cons_self, hquote⟩
          · exact hlift (ih hrest hc)

/-- Text in quotes stands for itself. -/
lemma readArgument_quoted {l : List Char} (hl : '\'' ∉ l) :
    readArgument true (l ++ ['\'']) = l := by
  induction l with
  | nil => simp [readArgument]
  | cons d rest ih =>
    obtain ⟨hd, hrest⟩ := not_or.mp (List.mem_cons.not.mp hl)
    rw [List.cons_append, readArgument, if_neg (Ne.symm hd), ih hrest]

/-- The arguments of a script without backslashes have no backslash, no quote and no line break. -/
theorem mem_argument {script : String} (hscript : '\\' ∉ script.toList) {directive : Directive}
    (hdirective : directive ∈ readScript script) {c : Char} (hc : c ∈ directive.argument.toList) :
    c ≠ '\'' ∧ c ≠ '\\' ∧ c ≠ '\n' := by
  obtain ⟨line, hline, hread⟩ := List.mem_filterMap.mp hdirective
  rw [readLine] at hread
  split at hread
  · cases hread
  · rw [← Option.some.inj hread, String.toList_ofList] at hc
    have hargument : ((((line.dropWhile isSpace).dropWhile (!isSpace ·)).dropWhile isSpace)).Sublist line :=
      ((List.dropWhile_sublist _).trans (List.dropWhile_sublist _)).trans (List.dropWhile_sublist _)
    have hslash : '\\' ∉ line := fun h => hscript (PythonString.mem_of_mem_splitOn hline h).1
    obtain ⟨hmem, hquote⟩ := mem_readArgument (fun h => hslash (hargument.subset h)) hc
    have hcline := hargument.subset hmem
    exact ⟨hquote, fun heq => hslash (heq ▸ hcline), (PythonString.mem_of_mem_splitOn hline hcline).2⟩

end ConcatScript
