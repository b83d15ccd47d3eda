import Mathlib.Data.List.Nodup
import AscendAI.Lib.PythonString

/-!
# HTML trees

The siblings of a parsed page with all that they hold, in the order of the text. An element is an object:
its number tells it from the others, and when a string is assigned to it, the string takes the place of
its children, which the element no longer holds.
-/

/-- Only the strings that are content are read; comments and the strings of templates are not. -/
inductive HtmlForest where
  | empty
  | text (isContent : Bool) (value : String) (rest : HtmlForest)
  | element (id : ℕ) (name : String) (attrs : List (String × String)) (children rest : HtmlForest)

structure HtmlElement where
  id : ℕ
  name : String
  attrs : List (String × String)
  children : HtmlForest

namespace HtmlForest

/-- The elements in document order, parents first. -/
def elements : HtmlForest → List HtmlElement
  | empty => []
  | text _ _ rest => rest.elements
  | element id name attrs children rest => ⟨id, name, attrs, children⟩ :: (children.elements ++ rest.elements)

def ids (f : HtmlForest) : List ℕ := f.elements.map HtmlElement.id

/-- `decompose()` of all elements with one of the names. -/
def decompose (names : List String) : HtmlForest → HtmlForest
  | empty => empty
  | text isContent value rest => text isContent value (rest.decompose names)
  | element id name attrs children rest =>
    if name ∈ names then rest.decompose names
    else element id name attrs (children.decompose names) (rest.decompose names)

/-- The strings that are content, where an element may have been assigned one. -/
def strings (assigned : ℕ → Option String) : HtmlForest → List String
  | empty => []
  | text isContent value rest => (if isContent then [value] else []) ++ rest.strings assigned
  | element id _ _ children rest =>
    (match assigned id with
      | some value => [value]
      | none => children.strings assigned) ++ rest.strings assigned

/-- `get_text(separator, strip=True)` of the strings: those that are not blank, stripped and joined. -/
def stripAndJoin (separator : String) (l : List String) : String :=
  PythonString.join separator ((l.map PythonString.strip).filter (· ≠ ""))

end HtmlForest

namespace HtmlElement

/-- The numbers of the element and of all that it holds. -/
def ids (e : HtmlElement) : List ℕ := e.id :: e.children.ids

def strings (assigned : ℕ → Option String) (e : HtmlElement) : List String :=
  match assigned e.id with
  | some value => [value]
  | none => e.children.strings assigned

end HtmlElement

namespace HtmlForest

open HtmlElement

variable {f : HtmlForest} {assigned assigned' : ℕ → Option String}

lemma ids_element (id : ℕ) (name : String) (attrs : List (String × String)) (children rest : HtmlForest) :
    (element id name attrs children rest).ids = id :: (children.ids ++ rest.ids) := by
  rw [ids, elements, List.map_cons, List.map_append]
  rfl

lemma ids_decompose (names : List String) (f : HtmlForest) : (f.decompose names).ids.Sublist f.ids := by
  induction f with
  | empty => exact List.Sublist.refl _
  | text isContent value rest ih => exact ih
  | element id name attrs children rest ihchildren ihrest =>
    rw [decompose, ids_element]
    split
    · exact (ihrest.trans (List.sublist_append_right ..)).cons _
    · rw [ids_element]
      exact (ihchildren.append ihrest).cons_cons _

lemma ids_subset_of_mem {e : HtmlElement} (he : e ∈ f.elements) : e.ids ⊆ f.ids := by
  induction f with
  | empty => cases he
  | text isContent value rest ih => exact ih he
  | element id name attrs children rest ihchildren ihrest =>
    rw [elements, List.mem_cons, List.mem_append] at he
    rw [ids_element]
    rcases he with rfl | he | he
    · exact List.cons_subset_cons _ (List.subset_append_left ..)
    · exact fun i hi => List.mem_cons_of_mem _ (List.mem_append_left _ (ihchildren he hi))
    · exact fun i hi => List.mem_cons_of_mem _ (List.mem_append_right _ (ihrest he hi))

/-- What an element of the page holds is of the page. -/
lemma mem_elements_of_mem_children {e b : HtmlElement} (he : e ∈ f.elements) (hb : b ∈ e.children.elements) :
    b ∈ f.elements := by
  induction f with
  | empty => cases he
  | text isContent value rest ih => exact ih he
  | element id name attrs children rest ihchildren ihrest =>
    rw [elements, List.mem_cons, List.mem_append] at he ⊢
    rcases he with rfl | he | he
    · exact .inr (.inl hb)
    · exact .inr (.inl (ihchildren he))
    · exact .inr (.inr (ihrest he))

/-- The strings of an element in which nothing is assigned are strings of the page. -/
lemma strings_subset_of_mem {e : HtmlElement} (he : e ∈ f.elements) :
    (e.strings fun _ => none) ⊆ f.strings fun _ => none := by
  induction f with
  | empty => cases he
  | text isContent value rest ih => exact fun s hs => List.mem_append_right _ (ih he hs)
  | element id name attrs children rest ihchildren ihrest =>
    rw [elements, List.mem_cons, List.mem_append] at he
    intro s hs
    rw [strings, List.mem_append]
    rcases he with rfl | he | he
    · exact .inl hs
    · exact .inl (ihchildren he hs)
    · exact .inr (ihrest he hs)

/-- An element is not held by a later one. -/
theorem pairwise_elements (h : f.ids.Nodup) : f.elements.Pairwise fun a b => a.id ∉ b.ids := by
  induction f with
  | empty => exact List.Pairwise.nil
  | text isContent value rest ih => exact ih h
  | element id name attrs children rest ihchildren ihrest =>
    rw [ids_element, List.nodup_cons, List.nodup_append] at h
    obtain ⟨hid, hchildren, hrest, hdisjoint⟩ := h
    rw [elements, List.pairwise_cons, List.pairwise_append]
    refine ⟨fun b hb hmem => hid ?_, ihchildren hchildren, ihrest hrest, fun a ha b hb hmem => ?_⟩
    · rcases List.mem_append.mp hb with hb | hb
      · exact List.mem_append_left _ (ids_subset_of_mem hb hmem)
      · exact List.mem_append_right _ (ids_subset_of_mem hb hmem)
    · exact hdisjoint a.id (List.mem_map_of_mem ha) a.id (ids_subset_of_mem hb hmem) rfl

/-- The strings depend on what is assigned to the elements only. -/
lemma strings_congr (h : ∀ id ∈ f.ids, assigned id = assigned' id) :
    f.strings assigned = f.strings assigned' := by
  induction f with
  | empty => rfl
  | text isContent value rest ih => rw [strings, strings, ih h]
  | element id name attrs children rest ihchildren ihrest =>
    rw [ids_element, List.forall_mem_cons, List.forall_mem_append] at h
    obtain ⟨hid, hchildren, hrest⟩ := h
    rw [strings, strings, hid, ihchildren hchildren, ihrest hrest]

/-- No element that has been assigned a string holds another one. -/
def AssignedApart (assigned : ℕ → Option String) (f : HtmlForest) : Prop :=
  ∀ e ∈ f.elements, assigned e.id ≠ none → ∀ b ∈ e.children.elements, assigned b.id = none

lemma assignedApart_element_iff {id : ℕ} {name : String} {attrs : List (String × String)}
    {children rest : HtmlForest} :
    (element id name attrs children rest).AssignedApart assigned ↔
      (assigned id ≠ none → ∀ b ∈ children.elements, assigned b.id = none) ∧
        children.AssignedApart assigned ∧ rest.AssignedApart assigned := by
  rw [AssignedApart, elements, List.forall_mem_cons, List.forall_mem_append]
  rfl

/-- The strings that are assigned to elements apart from each other all stand in the page, in order. -/
theorem sublist_strings (h : f.AssignedApart assigned) :
    (f.ids.filterMap assigned).Sublist (f.strings assigned) := by
  induction f with
  | empty => exact List.Sublist.refl _
  | text isContent value rest ih => exact (ih h).trans (List.sublist_append_right ..)
  | element id name attrs children rest ihchildren ihrest =>
    obtain ⟨hid, hchildren, hrest⟩ := assignedApart_element_iff.mp h
    rw [ids_element, strings]
    cases hassigned : assigned id with
    | none =>
      rw [List.filterMap_cons_none hassigned, List.filterMap_append]
      exact (ihchildren hchildren).append (ihrest hrest)
    | some value =>
      have hnone : children.ids.filterMap assigned = [] := by
        rw [List.filterMap_eq_nil_iff]
        intro i hi
        obtain ⟨b, hb, rfl⟩ := List.mem_map.mp hi
        exact hid (by rw [hassigned]; exact Option.some_ne_none value) b hb
      rw [List.filterMap_cons_some hassigned, List.filterMap_append, hnone, List.nil_append]
      exact (ihrest hrest).cons_cons _

section Weights

/-! ### Strings that only assigned ones bring in -/

variable (weight : String → ℕ)

def totalWeight : List String → ℕ
  | [] => 0
  | s :: l => weight s + totalWeight l

lemma totalWeight_append (l m : List String) :
    totalWeight weight (l ++ m) = totalWeight weight l + totalWeight weight m := by
  induction l with
  | nil => rw [List.nil_append, totalWeight, Nat.zero_add]
  | cons s l ih => rw [List.cons_append, totalWeight, totalWeight, ih, Nat.add_assoc]

lemma totalWeight_eq_zero {weight : String → ℕ} {l : List String} (h : ∀ s ∈ l, weight s = 0) :
    totalWeight weight l = 0 := by
  induction l with
  | nil => rfl
  | cons s l ih =>
    obtain ⟨hs, hl⟩ := List.forall_mem_cons.mp h
    rw [totalWeight, hs, ih hl]

/-- When the strings of the page weigh nothing and each assigned one weighs one, the page weighs at most as
much as there are assigned ones, and so much only if they are apart. -/
theorem totalWeight_strings_le (hplain : ∀ s ∈ f.strings fun _ => none, weight s = 0)
    (hone : ∀ id ∈ f.ids, ∀ s, assigned id = some s → weight s = 1) :
    totalWeight weight (f.strings assigned) ≤ (f.ids.filterMap assigned).length ∧
      ((f.ids.filterMap assigned).length ≤ totalWeight weight (f.strings assigned) → f.AssignedApart assigned) := by
  induction f with
  | empty => exact ⟨le_rfl, fun _ e he => by cases he⟩
  | text isContent value rest ih =>
    rw [strings, List.forall_mem_append] at hplain
    have hvalue : totalWeight weight (if isContent = true then [value] else []) = 0 := by
      cases isContent with
      | false => rfl
      | true =>
        have hzero := hplain.1 value (by simp)
        simp [totalWeight, hzero]
    rw [strings, totalWeight_append, hvalue, Nat.zero_add]
    exact ih hplain.2 hone
  | element id name attrs children rest ihchildren ihrest =>
    rw [strings, List.forall_mem_append] at hplain
    rw [ids_element, List.forall_mem_cons, List.forall_mem_append] at hone
    obtain ⟨hid, honechildren, honerest⟩ := hone
    obtain ⟨hchildren, hchildrenApart⟩ := ihchildren hplain.1 honechildren
    obtain ⟨hrest, hrestApart⟩ := ihrest hplain.2 honerest
    rw [strings, totalWeight_append, ids_element, assignedApart_element_iff]
    cases hassigned : assigned id with
    | none =>
      rw [List.filterMap_cons_none hassigned, List.filterMap_append, List.length_append]
      refine ⟨by simp only; omega, fun hle => ⟨fun h => absurd rfl h, ?_, ?_⟩⟩
      · simp only at hle
        exact hchildrenApart (by omega)
      · simp only at hle
        exact hrestApart (by omega)
    | some value =>
      have hweight : totalWeight weight [value] = 1 := by
        simp [totalWeight, hid value hassigned]
      rw [List.filterMap_cons_some hassigned, List.filterMap_append, List.length_cons, List.length_append]
      refine ⟨by simp only [hweight]; omega, fun hle => ?_⟩
      simp only [hweight] at hle
      have hnone : children.ids.filterMap assigned = [] := by
        apply List.length_eq_zero_iff.mp
        omega
      rw [List.filterMap_eq_nil_iff] at hnone
      have hinside : ∀ b ∈ children.elements, assigned b.id = none :=
        fun b hb => hnone b.id (List.mem_map_of_mem hb)
      refine ⟨fun _ => hinside, fun e he hne => ?_, hrestApart (by omega)⟩
      exact absurd (hinside e he) hne

end Weights

end HtmlForest
