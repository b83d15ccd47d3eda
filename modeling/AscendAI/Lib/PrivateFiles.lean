import Mathlib.Data.List.Basic
import Mathlib.Data.List.Nodup
import Mathlib.Logic.Function.Basic

/-!
# Files that are held

A directory from its paths to what the files contain, and the files that its users hold: each under a path that was
free. What is not held is as it was before. The rules say what a user does to the files that it holds, whatever the
others hold beside them.
-/

namespace PrivateFiles

variable {κ β : Type*} {base disk : κ → Option β} {held held' rest : List (κ × β)} {path : κ} {content content' : β}

/-- The directory is the base with the held files. -/
structure Accounts (base disk : κ → Option β) (held : List (κ × β)) : Prop where
  nodup : (held.map Prod.fst).Nodup
  present : ∀ file ∈ held, disk file.1 = some file.2
  free : ∀ file ∈ held, base file.1 = none
  other : ∀ path, path ∉ held.map Prod.fst → disk path = base path

lemma Accounts.start (base : κ → Option β) : Accounts base base [] :=
  ⟨List.nodup_nil, nofun, nofun, fun _ _ => rfl⟩

lemma Accounts.perm (h : Accounts base disk held) (hperm : held.Perm held') : Accounts base disk held' where
  nodup := (hperm.map Prod.fst).nodup_iff.mp h.nodup
  present file hfile := h.present file (hperm.mem_iff.mpr hfile)
  free file hfile := h.free file (hperm.mem_iff.mpr hfile)
  other path hpath := h.other path fun hmem => hpath ((hperm.map Prod.fst).mem_iff.mp hmem)

/-- What is at a path: the file that is held there, or what was there before. -/
lemma Accounts.held_or_base (h : Accounts base disk held) (path : κ) :
    path ∈ held.map Prod.fst ∨ disk path = base path := by
  by_cases hpath : path ∈ held.map Prod.fst
  · exact .inl hpath
  · exact .inr (h.other path hpath)

lemma Accounts.free_of_none (h : Accounts base disk held) (hnone : disk path = none) :
    path ∉ held.map Prod.fst ∧ base path = none := by
  have hpath : path ∉ held.map Prod.fst := by
    intro hmem
    obtain ⟨file, hfile, hfst⟩ := List.mem_map.mp hmem
    have hsome := h.present file hfile
    rw [hfst, hnone] at hsome
    cases hsome
  exact ⟨hpath, h.other path hpath ▸ hnone⟩

lemma ne_of_notMem (hpath : path ∉ held.map Prod.fst) {file : κ × β} (hfile : file ∈ held) : file.1 ≠ path := by
  intro heq
  apply hpath
  rw [← heq]
  exact List.mem_map_of_mem hfile

section Rules

variable [DecidableEq κ]

/-- A file is made under a path that is free. -/
lemma Accounts.create (h : Accounts base disk held) (hnone : disk path = none) (content : β) :
    Accounts base (Function.update disk path (some content)) ((path, content) :: held) := by
  obtain ⟨hpath, hbase⟩ := h.free_of_none hnone
  constructor
  · exact List.nodup_cons.mpr ⟨hpath, h.nodup⟩
  · intro file hfile
    apply (List.mem_cons.mp hfile).elim
    · intro heq
      rw [heq, Function.update_self]
    · intro hold
      rw [Function.update_of_ne (ne_of_notMem hpath hold)]
      exact h.present file hold
  · intro file hfile
    apply (List.mem_cons.mp hfile).elim
    · exact fun heq => heq ▸ hbase
    · exact h.free file
  · intro path' hpath'
    have hboth := not_or.mp fun hor => hpath' (List.mem_cons.mpr hor)
    rw [Function.update_of_ne hboth.1]
    exact h.other path' hboth.2

/-- The holder of a file removes it. -/
lemma Accounts.remove (h : Accounts base disk ((path, content) :: rest)) :
    Accounts base (Function.update disk path none) rest := by
  obtain ⟨hpath, hnodup⟩ := List.nodup_cons.mp h.nodup
  constructor
  · exact hnodup
  · intro file hfile
    rw [Function.update_of_ne (ne_of_notMem hpath hfile)]
    exact h.present file (List.mem_cons_of_mem _ hfile)
  · exact fun file hfile => h.free file (List.mem_cons_of_mem _ hfile)
  · intro path' hpath'
    by_cases heq : path' = path
    · rw [heq, Function.update_self]
      exact (h.free _ List.mem_cons_self).symm
    · rw [Function.update_of_ne heq]
      exact h.other path' fun hmem => (List.mem_cons.mp hmem).elim heq hpath'

/-- The holder of a file writes it. -/
lemma Accounts.write (h : Accounts base disk ((path, content) :: rest)) (content' : β) :
    Accounts base (Function.update disk path (some content')) ((path, content') :: rest) := by
  have hremoved := h.remove
  have hcreated := hremoved.create (Function.update_self path none disk) content'
  rwa [Function.update_idem] at hcreated

end Rules

/-- The holder of a file finds it as it has left it. -/
lemma Accounts.read (h : Accounts base disk ((path, content) :: rest)) : disk path = some content :=
  h.present (path, content) List.mem_cons_self

end PrivateFiles
