import Mathlib.Data.List.Basic

/-!
# Reading all elements of a list

A reader that may fail is applied to every element, and one failure fails the whole list.
-/

namespace Reader

variable {α β γ : Type} {f : α → Option β}

lemma isSome_mapM_iff {l : List α} : (l.mapM f).isSome = true ↔ ∀ a ∈ l, (f a).isSome = true := by
  induction l with
  | nil => simp
  | cons a l ih =>
    rw [List.mapM_cons, List.forall_mem_cons, ← ih]
    cases f a with
    | none => simp
    | some b =>
      cases l.mapM f with
      | none => simp
      | some bs => simp

lemma map_eq_iff_of_mapM {g : β → γ} {h : α → γ} {p : α → Prop}
    (hp : ∀ a b, f a = some b → (g b = h a ↔ p a)) {l : List α} {l' : List β} (hl : l.mapM f = some l') :
    l'.map g = l.map h ↔ ∀ a ∈ l, p a := by
  induction l generalizing l' with
  | nil =>
    rw [List.mapM_nil] at hl
    obtain rfl := Option.some.inj hl
    simp
  | cons a l ih =>
    rw [List.mapM_cons] at hl
    obtain ⟨b, hb, hrest⟩ := Option.bind_eq_some_iff.mp hl
    obtain ⟨bs, hbs, hcons⟩ := Option.bind_eq_some_iff.mp hrest
    obtain rfl := Option.some.inj hcons
    rw [List.map_cons, List.map_cons, List.cons.injEq, List.forall_mem_cons, hp a b hb, ih hbs]

lemma map_eq_of_mapM {g : β → γ} {h : α → γ} (hread : ∀ a b, f a = some b → g b = h a) {l : List α}
    {l' : List β} (hl : l.mapM f = some l') : l'.map g = l.map h :=
  (map_eq_iff_of_mapM (p := fun _ => True) (fun a b hb => iff_of_true (hread a b hb) trivial) hl).mpr
    fun _ _ => trivial

end Reader
