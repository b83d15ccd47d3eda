import Mathlib.Data.List.Basic
import Mathlib.Data.List.Nodup

/-!
# Dictionaries in insertion order

The dictionaries of Python as their items in order, one for each key. A key that is set again keeps
its place, `moveToEnd?` gives it the last one, and `popFirst?` takes the oldest item; the two fail
where Python raises a `KeyError`.
-/

universe u v

structure OrderedDict (κ : Type u) (α : Type v) where
  items : List (κ × α)
  nodup : (items.map Prod.fst).Nodup

namespace OrderedDict

variable {κ : Type u} {α : Type v}

def empty : OrderedDict κ α := ⟨[], List.nodup_nil⟩

def keys (d : OrderedDict κ α) : List κ := d.items.map Prod.fst

def size (d : OrderedDict κ α) : ℕ := d.items.length

@[simp] lemma items_empty : (empty : OrderedDict κ α).items = [] := rfl

lemma length_keys (d : OrderedDict κ α) : d.keys.length = d.size := List.length_map ..

lemma mem_keys_of_mem {d : OrderedDict κ α} {k : κ} {v : α} (h : (k, v) ∈ d.items) : k ∈ d.keys :=
  List.mem_map_of_mem h

lemma mem_keys_iff {d : OrderedDict κ α} {k : κ} : k ∈ d.keys ↔ ∃ v, (k, v) ∈ d.items := by
  simp [keys]

/-- A key has one value. -/
lemma eq_of_mem {d : OrderedDict κ α} {k : κ} {v w : α} (hv : (k, v) ∈ d.items) (hw : (k, w) ∈ d.items) :
    v = w := by
  have h := List.inj_on_of_nodup_map d.nodup hv hw rfl
  exact congrArg Prod.snd h

/-! ### The oldest item -/

lemma nodup_tail {item : κ × α} {rest : List (κ × α)} (h : ((item :: rest).map Prod.fst).Nodup) :
    (rest.map Prod.fst).Nodup :=
  (List.nodup_cons.mp h).2

def popFirst? : OrderedDict κ α → Option ((κ × α) × OrderedDict κ α)
  | ⟨[], _⟩ => none
  | ⟨item :: rest, h⟩ => some (item, ⟨rest, nodup_tail h⟩)

lemma popFirst?_eq_none_iff {d : OrderedDict κ α} : d.popFirst? = none ↔ d.items = [] := by
  obtain ⟨items, h⟩ := d
  cases items <;> simp [popFirst?]

lemma items_of_popFirst? {d d' : OrderedDict κ α} {item : κ × α} (h : d.popFirst? = some (item, d')) :
    d.items = item :: d'.items := by
  obtain ⟨items, hnodup⟩ := d
  cases items with
  | nil => cases h
  | cons first rest =>
    obtain ⟨rfl, rfl⟩ := Prod.mk.inj (Option.some.inj h)
    rfl

/-! ### Looking a key up -/

variable [DecidableEq κ]

def get? (d : OrderedDict κ α) (k : κ) : Option α :=
  (d.items.find? fun item => item.1 = k).map Prod.snd

lemma get?_eq_some_iff {d : OrderedDict κ α} {k : κ} {v : α} : d.get? k = some v ↔ (k, v) ∈ d.items := by
  rw [get?, Option.map_eq_some_iff]
  constructor
  · rintro ⟨⟨k', v'⟩, hfind, rfl⟩
    have hkey : k' = k := by simpa using List.find?_some hfind
    rw [← hkey]
    exact List.mem_of_find?_eq_some hfind
  · intro hmem
    cases hfind : d.items.find? fun item => item.1 = k with
    | none => simpa using List.find?_eq_none.mp hfind (k, v) hmem
    | some item =>
      obtain ⟨k', v'⟩ := item
      have hkey : k' = k := by simpa using List.find?_some hfind
      subst hkey
      exact ⟨_, rfl, eq_of_mem (List.mem_of_find?_eq_some hfind) hmem⟩

lemma get?_eq_none_iff {d : OrderedDict κ α} {k : κ} : d.get? k = none ↔ k ∉ d.keys := by
  rw [Option.eq_none_iff_forall_ne_some, mem_keys_iff, not_exists]
  simp only [ne_eq, get?_eq_some_iff]

/-! ### Setting a key -/

lemma map_fst_replace (items : List (κ × α)) (k : κ) (v : α) :
    (items.map fun item => if item.1 = k then (k, v) else item).map Prod.fst = items.map Prod.fst := by
  rw [List.map_map]
  apply List.map_congr_left
  intro item _
  simp only [Function.comp]
  split
  · rename_i h
    exact h.symm
  · rfl

def set (d : OrderedDict κ α) (k : κ) (v : α) : OrderedDict κ α :=
  if h : k ∈ d.keys then
    ⟨d.items.map fun item => if item.1 = k then (k, v) else item, by rw [map_fst_replace]; exact d.nodup⟩
  else ⟨d.items ++ [(k, v)], by
    rw [List.map_append]
    exact d.nodup.append (List.nodup_singleton k) (List.disjoint_singleton.mpr h)⟩

lemma mem_items_set {d : OrderedDict κ α} {k k' : κ} {v v' : α} :
    (k', v') ∈ (d.set k v).items ↔ (k' = k ∧ v' = v) ∨ (k' ≠ k ∧ (k', v') ∈ d.items) := by
  unfold set
  split
  · rename_i hk
    rw [List.mem_map]
    constructor
    · rintro ⟨⟨k₀, v₀⟩, hmem, heq⟩
      split at heq
      · exact .inl ⟨congrArg Prod.fst heq.symm, congrArg Prod.snd heq.symm⟩
      · rename_i hne
        obtain ⟨rfl, rfl⟩ := Prod.mk.inj heq
        exact .inr ⟨hne, hmem⟩
    · rintro (⟨rfl, rfl⟩ | ⟨hne, hmem⟩)
      · obtain ⟨w, hw⟩ := mem_keys_iff.mp hk
        exact ⟨(k', w), hw, if_pos rfl⟩
      · exact ⟨(k', v'), hmem, if_neg hne⟩
  · rename_i hk
    rw [List.mem_append, List.mem_singleton, Prod.mk.injEq]
    constructor
    · rintro (hmem | h)
      · exact .inr ⟨fun h => hk (h ▸ mem_keys_of_mem hmem), hmem⟩
      · exact .inl h
    · rintro (h | ⟨-, hmem⟩)
      · exact .inr h
      · exact .inl hmem

lemma mem_keys_set {d : OrderedDict κ α} {k k' : κ} {v : α} :
    k' ∈ (d.set k v).keys ↔ k' = k ∨ k' ∈ d.keys := by
  rw [mem_keys_iff]
  simp only [mem_items_set]
  by_cases h : k' = k
  · simp [h]
  · simp [h, mem_keys_iff]

lemma items_set_of_notMem {d : OrderedDict κ α} {k : κ} (h : k ∉ d.keys) (v : α) :
    (d.set k v).items = d.items ++ [(k, v)] := by
  rw [set, dif_neg h]

lemma filterMap_find? {items : List (κ × α)} {ks : List κ} (h : (items.map Prod.fst).Sublist ks) (hks : ks.Nodup) :
    ks.filterMap (fun k => (items.find? fun item => item.1 = k).map Prod.snd) = items.map Prod.snd := by
  induction ks generalizing items with
  | nil =>
    rw [List.map_eq_nil_iff.mp (List.sublist_nil.mp h)]
    rfl
  | cons k ks ih =>
    obtain ⟨hk, hrest⟩ := List.nodup_cons.mp hks
    cases items with
    | nil => simp
    | cons item items =>
      rw [List.map_cons] at h
      cases h with
      | cons _ hsub =>
        have hnone : ((item :: items).find? fun item => item.1 = k) = none := by
          rw [List.find?_eq_none]
          intro item' hitem' heq
          rw [decide_eq_true_eq] at heq
          exact hk (heq ▸ hsub.subset (List.mem_map_of_mem hitem'))
        rw [List.filterMap_cons_none (by rw [hnone]; rfl)]
        exact ih hsub hrest
      | cons_cons _ hsub =>
        have htail : ks.filterMap (fun k => ((item :: items).find? fun item' => item'.1 = k).map Prod.snd) =
            ks.filterMap (fun k => (items.find? fun item' => item'.1 = k).map Prod.snd) := by
          apply List.filterMap_congr
          intro k' hk'
          have hne : ¬item.1 = k' := fun heq => hk (heq ▸ hk')
          rw [List.find?_cons_of_neg (by simpa using hne)]
        rw [List.filterMap_cons_some (by rw [List.find?_cons_of_pos (by simp)]; rfl), htail, ih hsub hrest,
          List.map_cons]

/-- The values of keys that come in the order of the items. -/
lemma filterMap_get? {d : OrderedDict κ α} {ks : List κ} (h : d.keys.Sublist ks) (hks : ks.Nodup) :
    ks.filterMap d.get? = d.items.map Prod.snd :=
  filterMap_find? h hks

/-- The items are set one after the other. -/
def setAll (d : OrderedDict κ α) : List (κ × α) → OrderedDict κ α
  | [] => d
  | item :: rest => (d.set item.1 item.2).setAll rest

lemma setAll_append (d : OrderedDict κ α) (l l' : List (κ × α)) : d.setAll (l ++ l') = (d.setAll l).setAll l' := by
  induction l generalizing d with
  | nil => rfl
  | cons item rest ih => exact ih _

lemma get?_set (d : OrderedDict κ α) (k k' : κ) (v : α) :
    (d.set k v).get? k' = if k' = k then some v else d.get? k' := by
  split
  · rename_i h
    exact get?_eq_some_iff.mpr (mem_items_set.mpr (.inl ⟨h, rfl⟩))
  · rename_i h
    apply Option.ext
    intro v'
    rw [get?_eq_some_iff, get?_eq_some_iff, mem_items_set]
    exact ⟨fun hmem => (hmem.resolve_left fun heq => h heq.1).2, fun hmem => .inr ⟨h, hmem⟩⟩

lemma get?_setAll_of_notMem {d : OrderedDict κ α} {l : List (κ × α)} {k : κ} (hk : ∀ item ∈ l, item.1 ≠ k) :
    (d.setAll l).get? k = d.get? k := by
  induction l generalizing d with
  | nil => rfl
  | cons first rest ih =>
    obtain ⟨hfirst, hrest⟩ := List.forall_mem_cons.mp hk
    rw [setAll, ih hrest, get?_set, if_neg (Ne.symm hfirst)]

/-- A key that is only set to one value has it. -/
lemma get?_setAll_of_agree {d : OrderedDict κ α} {l : List (κ × α)} {k : κ} {v : α} (hmem : (k, v) ∈ l)
    (hagree : ∀ item ∈ l, item.1 = k → item.2 = v) : (d.setAll l).get? k = some v := by
  induction l generalizing d with
  | nil => cases hmem
  | cons first rest ih =>
    obtain ⟨hfirst, hrest⟩ := List.forall_mem_cons.mp hagree
    by_cases hlater : (k, v) ∈ rest
    · exact ih hlater hrest
    · obtain rfl := (List.mem_cons.mp hmem).resolve_right hlater
      have hkeys : ∀ item ∈ rest, item.1 ≠ k := by
        rintro ⟨k', v'⟩ hitem rfl
        obtain rfl : v' = v := hrest _ hitem rfl
        exact hlater hitem
      rw [setAll, get?_setAll_of_notMem hkeys, get?_set, if_pos rfl]

/-- Every item can be read back exactly when items with one key have one value. -/
theorem get?_setAll_iff {d : OrderedDict κ α} {l : List (κ × α)} :
    (∀ item ∈ l, (d.setAll l).get? item.1 = some item.2) ↔
      ∀ item ∈ l, ∀ other ∈ l, item.1 = other.1 → item.2 = other.2 := by
  constructor
  · intro h item hitem other hother hkey
    have hvalue := h item hitem
    rw [hkey, h other hother] at hvalue
    exact (Option.some.inj hvalue).symm
  · rintro h ⟨k, v⟩ hitem
    exact get?_setAll_of_agree hitem fun other hother hkey => h other hother _ hitem hkey

lemma mem_keys_setAll {d : OrderedDict κ α} {l : List (κ × α)} {k : κ} :
    k ∈ (d.setAll l).keys ↔ (∃ item ∈ l, item.1 = k) ∨ k ∈ d.keys := by
  induction l generalizing d with
  | nil => simp [setAll]
  | cons first rest ih =>
    rw [setAll, ih, mem_keys_set]
    simp only [List.exists_mem_cons_iff]
    constructor
    · rintro (h | rfl | h)
      · exact .inl (.inr h)
      · exact .inl (.inl rfl)
      · exact .inr h
    · rintro ((h | h) | h)
      · exact .inr (.inl h.symm)
      · exact .inl h
      · exact .inr (.inr h)

/-- Where the values count up, a value stays that no later item of its key replaces. -/
lemma mem_items_setAll (stamp : α → ℕ) {l : List (κ × α)} (hl : l.Pairwise fun a b => stamp a.2 < stamp b.2)
    {d : OrderedDict κ α} {k : κ} {v : α} : (k, v) ∈ (d.setAll l).items ↔
      ((k, v) ∈ l ∧ ∀ item ∈ l, stamp v < stamp item.2 → item.1 ≠ k) ∨
        ((∀ item ∈ l, item.1 ≠ k) ∧ (k, v) ∈ d.items) := by
  induction l generalizing d with
  | nil => simp [setAll]
  | cons first rest ih =>
    obtain ⟨hfirst, hrest⟩ := List.pairwise_cons.mp hl
    rw [setAll, ih hrest, mem_items_set, List.forall_mem_cons, List.forall_mem_cons, List.mem_cons]
    constructor
    · rintro (⟨hmem, hlater⟩ | ⟨hnone, ⟨rfl, rfl⟩ | ⟨hne, hmem⟩⟩)
      · have hless : stamp first.2 < stamp v := hfirst _ hmem
        exact .inl ⟨.inr hmem, fun h => absurd h (by omega), hlater⟩
      · exact .inl ⟨.inl rfl, fun h => absurd h (by omega), fun item hitem _ => hnone item hitem⟩
      · exact .inr ⟨⟨fun h => hne h.symm, hnone⟩, hmem⟩
    · rintro (⟨rfl | hmem, -, hlater⟩ | ⟨⟨hne, hnone⟩, hmem⟩)
      · exact .inr ⟨fun item hitem => hlater item hitem (hfirst item hitem), .inl ⟨rfl, rfl⟩⟩
      · exact .inl ⟨hmem, hlater⟩
      · exact .inr ⟨hnone, .inr ⟨fun h => hne h.symm, hmem⟩⟩

/-! ### Order -/

def moveToEnd? (d : OrderedDict κ α) (k : κ) : Option (OrderedDict κ α) :=
  (d.get? k).map fun v => ⟨(d.items.filter fun item => item.1 ≠ k) ++ [(k, v)], by
    rw [List.map_append]
    refine (d.nodup.sublist (List.filter_sublist.map _)).append (List.nodup_singleton k) ?_
    rw [List.map_singleton, List.disjoint_singleton, List.mem_map]
    rintro ⟨item, hitem, hkey⟩
    exact absurd hkey (by simpa using (List.mem_filter.mp hitem).2)⟩

lemma moveToEnd?_eq_none_iff {d : OrderedDict κ α} {k : κ} : d.moveToEnd? k = none ↔ k ∉ d.keys := by
  rw [moveToEnd?, Option.map_eq_none_iff, get?_eq_none_iff]

lemma perm_of_moveToEnd? {d d' : OrderedDict κ α} {k : κ} (h : d.moveToEnd? k = some d') :
    d'.items.Perm d.items := by
  obtain ⟨v, hv, rfl⟩ := Option.map_eq_some_iff.mp h
  apply (List.perm_ext_iff_of_nodup (List.Nodup.of_map Prod.fst (OrderedDict.nodup _))
    (List.Nodup.of_map Prod.fst d.nodup)).mpr
  rintro ⟨k', v'⟩
  have hmem := get?_eq_some_iff.mp hv
  rw [List.mem_append, List.mem_singleton, List.mem_filter, Prod.mk.injEq]
  constructor
  · rintro (h | ⟨rfl, rfl⟩)
    · exact h.1
    · exact hmem
  · intro hk'
    by_cases hkey : k' = k
    · subst hkey
      exact .inr ⟨rfl, eq_of_mem hk' hmem⟩
    · exact .inl ⟨hk', by simpa using hkey⟩

end OrderedDict
