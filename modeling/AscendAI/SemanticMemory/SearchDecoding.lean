import Mathlib.Algebra.Order.Ring.Rat
import AscendAI.Lib.JavaString
import AscendAI.Lib.JsonTree
import AscendAI.Lib.Reader
import AscendAI.SemanticMemory.SemanticMemoryClient

/-!
# Reading the answer of a search

The search endpoint answers with items whose metadata is any JSON object, and the client binds them to
`SemanticMemoryItem`, whose metadata maps strings to strings. The list is bound as a whole, and what
fails is answered by no memories at all.
-/

namespace AscendAI.SemanticMemory

open JavaString JsonTree

/-! ### What the endpoint answers -/

structure SearchResponseItem where
  id : String
  memory : String
  score : Option ℚ := none
  metadata : Option (List (String × JsonTree)) := none
  createdAt : Option String := none

/-- An item as `response_model` writes it. -/
def SearchResponseItem.toJson (item : SearchResponseItem) : JsonTree :=
  .obj [("id", .str item.id), ("memory", .str item.memory), ("score", item.score.elim .null .num),
    ("metadata", item.metadata.elim .null .obj), ("created_at", item.createdAt.elim .null .str)]

/-- The answer to a search: the items, or an error status. -/
inductive SearchAnswer where
  | ok (items : List SearchResponseItem)
  | failed (status : ℕ)

/-! ### Data binding -/

structure SemanticMemoryItem (Double Instant : Type) where
  id : Option String
  userId : Option String
  text : Option String
  score : Double
  createdAt : Option Instant
  metadata : Option (List (String × Option String))

/-- A value that is no container. -/
def IsScalar : JsonTree → Prop
  | .arr _ => False
  | .obj _ => False
  | _ => True

/-- How Jackson reads a value of each type of the record; nothing comes of a value that it rejects. -/
structure DataBinding (Double Instant : Type) where
  readString : JsonTree → Option (Option String)
  readDouble : JsonTree → Option Double
  readInstant : JsonTree → Option (Option Instant)

/-- The standard rules: a `String` takes every scalar, a `double` every number, and `null` is `null`, or zero
for the primitive. -/
structure DataBinding.Standard {Double Instant : Type} [Zero Double] (jackson : DataBinding Double Instant) : Prop where
  readString_null : jackson.readString .null = some none
  readString_str : ∀ text, jackson.readString (.str text) = some (some text)
  isSome_readString_iff : ∀ node, (jackson.readString node).isSome = true ↔ IsScalar node
  readDouble_null : jackson.readDouble .null = some 0
  isSome_readDouble_num : ∀ value, (jackson.readDouble (.num value)).isSome = true
  readInstant_null : jackson.readInstant .null = some none

section

variable {Double Instant : Type} (jackson : DataBinding Double Instant)

def readMap : JsonTree → Option (Option (List (String × Option String)))
  | .null => some none
  | .obj fields => (fields.mapM fun field => (jackson.readString field.2).map fun text => (field.1, text)).map some
  | _ => none

/-- A component of the record by its name or its alias; one that is not there is `null`. -/
def component (name other : String) (node : JsonTree) : JsonTree :=
  ((node.field? other).or (node.field? name)).getD .null

def readItem : JsonTree → Option (SemanticMemoryItem Double Instant)
  | .obj fields => do
    let node := JsonTree.obj fields
    let id ← jackson.readString (component "id" "id" node)
    let userId ← jackson.readString (component "userId" "user_id" node)
    let text ← jackson.readString (component "text" "memory" node)
    let score ← jackson.readDouble (component "score" "score" node)
    let createdAt ← jackson.readInstant (component "createdAt" "created_at" node)
    let metadata ← readMap jackson (component "metadata" "metadata" node)
    return ⟨id, userId, text, score, createdAt, metadata⟩
  | _ => none

/-- The body of the answer; `null` is no items. -/
def readBody : JsonTree → Option (List (SemanticMemoryItem Double Instant))
  | .null => some []
  | .arr elements => elements.mapM (readItem jackson)
  | _ => none

/-! ### The search -/

def performSearchCall : SearchAnswer → Option (List (SemanticMemoryItem Double Instant))
  | .ok items => readBody jackson (.arr (items.map SearchResponseItem.toJson))
  | .failed _ => none

/-- `handleSearchError` answers every exception by an empty list. -/
def executeSearch (answer : SearchAnswer) : List (SemanticMemoryItem Double Instant) :=
  (performSearchCall jackson answer).getD []

/-- `search`, with what the endpoint answers to its request. -/
def searchItems (properties : SemanticMemoryProperties) (userId : Option String)
    (answer : SearchAnswer) : List (SemanticMemoryItem Double Instant) :=
  if SemanticMemoryClient.isMissingUserId userId then []
  else if !properties.enabled then []
  else executeSearch jackson answer

/-! ### Items that can be read -/

/-- The metadata has only scalars, and the time is one that an `Instant` can be read from. -/
structure Bindable (item : SearchResponseItem) : Prop where
  metadata : ∀ fields, item.metadata = some fields → ∀ field ∈ fields, IsScalar field.2
  createdAt : ∀ text, item.createdAt = some text → (jackson.readInstant (.str text)).isSome = true

/-- The components of the record, for an item of the endpoint. -/
lemma component_toJson (item : SearchResponseItem) :
    component "id" "id" item.toJson = .str item.id ∧ component "userId" "user_id" item.toJson = .null ∧
      component "text" "memory" item.toJson = .str item.memory ∧
      component "score" "score" item.toJson = item.score.elim .null .num ∧
      component "createdAt" "created_at" item.toJson = item.createdAt.elim .null .str ∧
      component "metadata" "metadata" item.toJson = item.metadata.elim .null .obj := by
  simp [component, SearchResponseItem.toJson, field?, List.lookup_cons]

variable {jackson} [Zero Double] (hjackson : jackson.Standard)

include hjackson in
lemma isSome_readMap_iff (metadata : Option (List (String × JsonTree))) :
    (readMap jackson (metadata.elim .null .obj)).isSome = true ↔
      ∀ fields, metadata = some fields → ∀ field ∈ fields, IsScalar field.2 := by
  cases metadata with
  | none => simp [readMap]
  | some fields =>
    have hfield : ∀ field : String × JsonTree,
        ((jackson.readString field.2).map fun text => (field.1, text)).isSome = true ↔ IsScalar field.2 :=
      fun field => by rw [Option.isSome_map, hjackson.isSome_readString_iff]
    rw [Option.elim_some, readMap, Option.isSome_map, Reader.isSome_mapM_iff]
    simp only [hfield, Option.some.injEq, forall_eq']

include hjackson in
lemma isSome_readInstant_iff (createdAt : Option String) :
    (jackson.readInstant (createdAt.elim .null .str)).isSome = true ↔
      ∀ text, createdAt = some text → (jackson.readInstant (.str text)).isSome = true := by
  cases createdAt with
  | none => simp [hjackson.readInstant_null]
  | some text => simp

include hjackson in
lemma exists_readDouble (score : Option ℚ) : ∃ value, jackson.readDouble (score.elim .null .num) = some value := by
  cases score with
  | none => exact ⟨0, hjackson.readDouble_null⟩
  | some value => exact Option.isSome_iff_exists.mp (hjackson.isSome_readDouble_num value)

include hjackson in
/-- What is bound to an item of the endpoint: only its time and its metadata can fail. -/
lemma readItem_toJson (item : SearchResponseItem) :
    ∃ score, readItem jackson item.toJson =
      (jackson.readInstant (item.createdAt.elim .null .str)).bind fun createdAt =>
        (readMap jackson (item.metadata.elim .null .obj)).map fun metadata =>
          ⟨some item.id, none, some item.memory, score, createdAt, metadata⟩ := by
  obtain ⟨score, hscore⟩ := exists_readDouble hjackson item.score
  obtain ⟨hid, huser, htext, hnumber, hcreated, hmetadata⟩ := component_toJson item
  rw [SearchResponseItem.toJson] at hid huser htext hnumber hcreated hmetadata
  refine ⟨score, ?_⟩
  rw [SearchResponseItem.toJson, readItem, hid, huser, htext, hnumber, hcreated, hmetadata, hscore,
    hjackson.readString_str, hjackson.readString_null, hjackson.readString_str]
  cases jackson.readInstant (item.createdAt.elim .null .str) with
  | none => rfl
  | some createdAt =>
    cases readMap jackson (item.metadata.elim .null .obj) with
    | none => rfl
    | some metadata => rfl

include hjackson in
lemma isSome_readItem_iff (item : SearchResponseItem) :
    (readItem jackson item.toJson).isSome = true ↔ Bindable jackson item := by
  have hinstant := isSome_readInstant_iff hjackson item.createdAt
  have hmap := isSome_readMap_iff hjackson item.metadata
  obtain ⟨score, hread⟩ := readItem_toJson hjackson item
  rw [hread]
  cases hcreated : jackson.readInstant (item.createdAt.elim .null .str) with
  | none =>
    rw [hcreated] at hinstant
    exact iff_of_false Bool.false_ne_true fun h => Bool.false_ne_true (hinstant.mpr h.createdAt)
  | some createdAt =>
    rw [hcreated] at hinstant
    rw [Option.bind_some, Option.isSome_map, hmap]
    exact ⟨fun h => ⟨h, hinstant.mp rfl⟩, fun h => h.metadata⟩

include hjackson in
lemma text_of_readItem {item : SearchResponseItem} {bound : SemanticMemoryItem Double Instant}
    (h : readItem jackson item.toJson = some bound) : bound.text = some item.memory := by
  obtain ⟨score, hread⟩ := readItem_toJson hjackson item
  rw [hread] at h
  obtain ⟨createdAt, -, hrest⟩ := Option.bind_eq_some_iff.mp h
  obtain ⟨metadata, -, rfl⟩ := Option.map_eq_some_iff.mp hrest
  rfl

include hjackson in
/-- A search returns the texts of all items, in their order, exactly when every item can be bound. -/
theorem searchItems_texts_iff {p : SemanticMemoryProperties} (henabled : p.enabled = true)
    {userId : Option String} (huser : hasText userId = true) (items : List SearchResponseItem) :
    (searchItems jackson p userId (.ok items)).map SemanticMemoryItem.text =
        items.map (fun item => some item.memory) ↔
      ∀ item ∈ items, Bindable jackson item := by
  have hsearch : searchItems jackson p userId (.ok items) =
      (items.mapM fun item => readItem jackson item.toJson).getD [] := by
    rw [searchItems, SemanticMemoryClient.isMissingUserId, huser, henabled, executeSearch, performSearchCall,
      readBody, List.mapM_map]
    rfl
  have hbound : (items.mapM fun item => readItem jackson item.toJson).isSome = true ↔
      ∀ item ∈ items, Bindable jackson item := by
    rw [Reader.isSome_mapM_iff]
    simp only [isSome_readItem_iff hjackson]
  rw [hsearch, ← hbound]
  cases hread : items.mapM fun item => readItem jackson item.toJson with
  | none =>
    refine iff_of_false (fun heq => ?_) Bool.false_ne_true
    have hitems : items = [] := List.map_eq_nil_iff.mp heq.symm
    rw [hitems, List.mapM_nil] at hread
    cases hread
  | some bound =>
    refine iff_of_true ?_ rfl
    exact Reader.map_eq_of_mapM (fun _ _ => text_of_readItem hjackson) hread

end

/-! ### One item with a list in its metadata -/

/-- A binding that reads the times which end in the letter for no offset, and nothing else. -/
def zuluBinding : DataBinding ℚ String where
  readString
    | .null => some none
    | .arr _ => none
    | .obj _ => none
    | scalar => some (some (scalar.asText fun value => toString value.num))
  readDouble
    | .null => some 0
    | .num value => some value
    | _ => none
  readInstant
    | .null => some none
    | .str text => if text.isEmpty then some none else if endsWith text "Z" then some (some text) else none
    | _ => none

lemma standard_zuluBinding : zuluBinding.Standard where
  readString_null := rfl
  readString_str _ := rfl
  isSome_readString_iff node := by
    cases node <;> simp [zuluBinding, IsScalar]
  readDouble_null := rfl
  isSome_readDouble_num _ := rfl
  readInstant_null := rfl

def lukesName : SearchResponseItem where
  id := "abc"
  memory := "User's name is Luke"
  score := some (91 / 100)
  metadata := some [("source", .str "chat"), ("turn", .num 3)]
  createdAt := some "2026-05-08T09:15:41Z"

def greenTea : SearchResponseItem where
  id := "def"
  memory := "User likes green tea"
  metadata := some [("tag", .str "tea"), ("pinned", .bool true), ("expires", .null)]

theorem searchItems_lukesName :
    (searchItems zuluBinding {} (some "frosty") (.ok [lukesName, greenTea])).map SemanticMemoryItem.text =
      [some "User's name is Luke", some "User likes green tea"] := by
  refine (searchItems_texts_iff standard_zuluBinding (p := {}) rfl (by decide +kernel) [lukesName, greenTea]).mpr ?_
  intro item hitem
  rcases List.mem_pair.mp hitem with rfl | rfl
  · constructor
    · rintro fields ⟨⟩ field hfield
      rcases List.mem_pair.mp hfield with rfl | rfl
      · trivial
      · trivial
    · rintro text ⟨⟩
      decide +kernel
  · constructor
    · rintro fields ⟨⟩ field hfield
      simp only [List.mem_cons, List.not_mem_nil, or_false] at hfield
      rcases hfield with rfl | rfl | rfl
      · trivial
      · trivial
      · trivial
    · rintro text ⟨⟩

def taggedTea : SearchResponseItem := { greenTea with metadata := some [("tags", .arr [.str "tea"])] }

/-- A list in the metadata of one memory hides the other memory, too. -/
theorem searchItems_hides_all :
    (searchItems zuluBinding {} (some "frosty") (.ok [lukesName, taggedTea])).map SemanticMemoryItem.text ≠
      [lukesName, taggedTea].map fun item => some item.memory := by
  decide +kernel

end AscendAI.SemanticMemory
