import Mathlib.Data.List.Flatten
import Mathlib.Data.List.Perm.Basic

/-!
# XML trees

The elements of a parsed document with their attributes, in the order of the text. `iter` goes over an
element and all that is in it; `iterOutside` leaves out the elements that a predicate encloses, and
`iterInside` gives what is left out.
-/

inductive XmlElement where
  | mk (tag : String) (attrib : List (String × String)) (children : List XmlElement)

namespace XmlElement

def tag : XmlElement → String
  | mk tag _ _ => tag

def attrib : XmlElement → List (String × String)
  | mk _ attrib _ => attrib

/-- `element.attrib.get(name)` -/
def get? (e : XmlElement) (name : String) : Option String := e.attrib.lookup name

mutual

/-- `element.iter()`: the element and its descendants, parents first. -/
def iter : XmlElement → List XmlElement
  | mk tag attrib children => mk tag attrib children :: iterAll children

def iterAll : List XmlElement → List XmlElement
  | [] => []
  | e :: rest => iter e ++ iterAll rest

end

section Enclosed

variable (p : XmlElement → Bool)

mutual

/-- The element and its descendants that no element below it with `p` holds, or is. -/
def iterOutside : XmlElement → List XmlElement
  | mk tag attrib children => mk tag attrib children :: outsideAll children

def outsideAll : List XmlElement → List XmlElement
  | [] => []
  | e :: rest => if p e then outsideAll rest else iterOutside e ++ outsideAll rest

end

mutual

/-- The descendants that have `p`, with all that they hold. -/
def iterInside : XmlElement → List XmlElement
  | mk _ _ children => insideAll children

def insideAll : List XmlElement → List XmlElement
  | [] => []
  | e :: rest => (if p e then iter e else iterInside e) ++ insideAll rest

end

mutual

/-- Every element is on one side. -/
theorem iter_perm (e : XmlElement) : (iter e).Perm (iterOutside p e ++ iterInside p e) := by
  cases e with
  | mk tag attrib children =>
    rw [iter, iterOutside, iterInside]
    exact (iterAll_perm children).cons _

theorem iterAll_perm (l : List XmlElement) : (iterAll l).Perm (outsideAll p l ++ insideAll p l) := by
  cases l with
  | nil => exact List.Perm.refl _
  | cons e rest =>
    have hrest := iterAll_perm rest
    rw [iterAll, outsideAll, insideAll]
    by_cases hp : p e = true
    · rw [if_pos hp, if_pos hp]
      apply (hrest.append_left (iter e)).trans
      exact List.perm_append_comm_assoc ..
    · have he := iter_perm e
      rw [if_neg hp, if_neg hp]
      apply (he.append hrest).trans
      rw [List.append_assoc, List.append_assoc]
      exact (List.perm_append_comm_assoc ..).append_left _

end

mutual

/-- The elements outside keep their order. -/
theorem iterOutside_sublist (e : XmlElement) : (iterOutside p e).Sublist (iter e) := by
  cases e with
  | mk tag attrib children =>
    rw [iter, iterOutside]
    exact (outsideAll_sublist children).cons_cons _

theorem outsideAll_sublist (l : List XmlElement) : (outsideAll p l).Sublist (iterAll l) := by
  cases l with
  | nil => exact List.Sublist.refl _
  | cons e rest =>
    have hrest := outsideAll_sublist rest
    rw [iterAll, outsideAll]
    split
    · exact hrest.trans (List.sublist_append_right ..)
    · exact (iterOutside_sublist e).append hrest

end

mutual

/-- Each element that has `p`, with what it holds outside the ones in it: what they hold is put together once. -/
theorem flatMap_iterOutside_perm (e : XmlElement) :
    (((iter e).filter p).flatMap (iterOutside p)).Perm (if p e then iter e else iterInside p e) := by
  cases e with
  | mk tag attrib children =>
    have hchildren := flatMap_iterOutside_all_perm children
    have hiter := iter_perm p (mk tag attrib children)
    rw [iter]
    by_cases hp : p (mk tag attrib children) = true
    · rw [List.filter_cons_of_pos hp, List.flatMap_cons, if_pos hp, ← iter]
      exact (hchildren.append_left _).trans hiter.symm
    · rw [List.filter_cons_of_neg hp, if_neg hp]
      exact hchildren

theorem flatMap_iterOutside_all_perm (l : List XmlElement) :
    (((iterAll l).filter p).flatMap (iterOutside p)).Perm (insideAll p l) := by
  cases l with
  | nil => exact List.Perm.refl _
  | cons e rest =>
    rw [iterAll, insideAll, List.filter_append, List.flatMap_append]
    exact (flatMap_iterOutside_perm e).append (flatMap_iterOutside_all_perm rest)

end

/-- No element is held twice. -/
theorem flatMap_iterOutside_subperm (e : XmlElement) :
    (((iter e).filter p).flatMap (iterOutside p)).Subperm (iter e) := by
  have hperm := flatMap_iterOutside_perm p e
  split at hperm
  · exact hperm.subperm
  · apply hperm.subperm.trans
    exact (List.sublist_append_right ..).subperm.trans (iter_perm p e).symm.subperm

end Enclosed

end XmlElement
