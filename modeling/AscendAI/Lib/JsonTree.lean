import Mathlib.Data.Rat.Defs
import Mathlib.Data.List.Basic

/-!
# JSON trees

The tree of a JSON text, and how a reader looks fields and elements up in it.
-/

inductive JsonTree where
  | null
  | bool (value : Bool)
  | num (value : ℚ)
  | str (value : String)
  | arr (elements : List JsonTree)
  | obj (fields : List (String × JsonTree))

namespace JsonTree

/-- The field of an object; no other node has fields. -/
def field? (key : String) : JsonTree → Option JsonTree
  | .obj fields => fields.lookup key
  | _ => none

def elements? : JsonTree → Option (List JsonTree)
  | .arr elements => some elements
  | _ => none

/-- `JsonNode.asText` with the text that it gives a number: containers have none. -/
def asText (numberText : ℚ → String) : JsonTree → String
  | .null => "null"
  | .bool value => if value then "true" else "false"
  | .num value => numberText value
  | .str value => value
  | .arr _ => ""
  | .obj _ => ""

lemma field?_obj_self (key : String) (value : JsonTree) (fields : List (String × JsonTree)) :
    field? key (.obj ((key, value) :: fields)) = some value := List.lookup_cons_self

lemma field?_obj_of_ne {key key' : String} (h : (key == key') = false) (value : JsonTree)
    (fields : List (String × JsonTree)) :
    field? key (.obj ((key', value) :: fields)) = field? key (.obj fields) := by
  simp only [field?, List.lookup_cons, h]

end JsonTree
