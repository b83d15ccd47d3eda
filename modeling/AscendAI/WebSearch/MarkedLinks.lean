import AscendAI.WebSearch.LinkAnnotator

/-!
# The markers of the links

Every number of the map has its marker in the text as long as no anchor that is numbered lies inside
another one: the string that is assigned to the outer anchor takes the place of the inner one, whose
number stays in the map.
-/

namespace AscendAI.WebSearch
open PythonUrl PythonString HtmlForest

/-! ### Parts of a text in order -/

lemma StandInOrder.append_left {parts : List (List Char)} {text : List Char} (h : StandInOrder parts text)
    (front : List Char) : StandInOrder parts (front ++ text) := by
  cases parts with
  | nil => trivial
  | cons part parts =>
    obtain ⟨before, after, rfl, hafter⟩ := h
    exact ⟨front ++ before, after, by simp only [List.append_assoc], hafter⟩

/-- Some of the parts that a text is joined from stand in it in order. -/
lemma standInOrder_join {l m : List String} (sep : String) (h : l.Sublist m) :
    StandInOrder (l.map String.toList) (join sep m).toList := by
  induction h with
  | slnil => trivial
  | @cons l m part h ih =>
    obtain ⟨between, -, hjoin⟩ := exists_join_cons sep part m
    rw [hjoin]
    exact (ih.append_left between).append_left part.toList
  | @cons_cons l m part h ih =>
    obtain ⟨between, -, hjoin⟩ := exists_join_cons sep part m
    rw [hjoin]
    exact ⟨[], between ++ (join sep m).toList, by rw [List.nil_append], ih.append_left between⟩

lemma length_le_count_of_standInOrder {c : Char} {parts : List (List Char)} {text : List Char}
    (h : StandInOrder parts text) (hparts : ∀ part ∈ parts, c ∈ part) : parts.length ≤ text.count c := by
  induction parts generalizing text with
  | nil => exact Nat.zero_le _
  | cons part parts ih =>
    obtain ⟨before, after, rfl, hafter⟩ := h
    obtain ⟨hpart, hrest⟩ := List.forall_mem_cons.mp hparts
    have hone : 0 < part.count c := List.count_pos_iff.mpr hpart
    have htail := ih hafter hrest
    rw [List.length_cons, List.count_append, List.count_append]
    omega

def countChar (c : Char) (s : String) : ℕ := s.toList.count c

/-- A text that is stripped and joined has a character as often as its strings at most. -/
lemma count_stripAndJoin_le {c : Char} (sep : String) (hsep : c ∉ sep.toList) (l : List String) :
    (stripAndJoin sep l).toList.count c ≤ totalWeight (countChar c) l := by
  have hjoin : ∀ m : List String, (join sep m).toList.count c ≤ totalWeight (countChar c) m := by
    intro m
    induction m with
    | nil => simp [join, totalWeight]
    | cons part m ih =>
      obtain ⟨between, hbetween, heq⟩ := exists_join_cons sep part m
      have hnone : between.count c = 0 := by
        rw [List.count_eq_zero]
        rcases hbetween with rfl | rfl
        · exact List.not_mem_nil
        · exact hsep
      rw [heq, List.count_append, List.count_append, hnone, Nat.zero_add, totalWeight]
      exact Nat.add_le_add_left ih _
  apply (hjoin _).trans
  induction l with
  | nil => exact le_rfl
  | cons s l ih =>
    have hstrip : countChar c (strip s) ≤ countChar c s := (strip_sublist s).count_le c
    rw [List.map_cons, totalWeight]
    by_cases hempty : strip s = ""
    · rw [List.filter_cons_of_neg (by simpa using hempty)]
      omega
    · rw [List.filter_cons_of_pos (by simpa using hempty), totalWeight]
      omega

/-! ### Markers -/

lemma not_isSpace_head_anchorText {e : HtmlElement} {c : Char} (h : (anchorText e).toList.head? = some c) :
    isSpace c = false := by
  rw [anchorText, stripAndJoin] at h
  cases hparts : ((e.strings fun _ => none).map strip).filter (· ≠ "") with
  | nil =>
    rw [hparts] at h
    cases h
  | cons part parts =>
    have hmem : part ∈ ((e.strings fun _ => none).map strip).filter (· ≠ "") := by
      rw [hparts]
      exact List.mem_cons_self
    obtain ⟨hmem, hne⟩ := List.mem_filter.mp hmem
    obtain ⟨s, -, rfl⟩ := List.mem_map.mp hmem
    obtain ⟨between, -, hjoin⟩ := exists_join_cons "" (strip s) parts
    rw [hparts, hjoin] at h
    cases hs : (strip s).toList with
    | nil =>
      have hempty : strip s = "" := String.toList_inj.mp hs
      simp [hempty] at hne
    | cons d l =>
      rw [hs, List.cons_append, List.head?_cons] at h
      apply head?_strip (s := s)
      rw [hs, List.head?_cons, h]

lemma toList_linkMarker (index : ℕ) : (linkMarker index).toList = '[' :: ((toString index).toList ++ [']']) := by
  simp [linkMarker, String.toList_append]

/-- What is assigned to an anchor, stripped, is its text with the marker. -/
lemma strip_assigned (e : HtmlElement) (index : ℕ) :
    strip (anchorText e ++ " " ++ linkMarker index) = markedText (anchorText e) index := by
  have hlast : ∀ (l : List Char) c, (l ++ (linkMarker index).toList).getLast? = some c → isSpace c = false := by
    intro l c hc
    have hsplit : l ++ (linkMarker index).toList = (l ++ '[' :: (toString index).toList) ++ [']'] := by
      rw [toList_linkMarker]
      simp
    rw [hsplit, List.getLast?_append, List.getLast?_singleton] at hc
    obtain rfl := Option.some.inj hc
    decide
  by_cases hempty : anchorText e = ""
  · have hstrip : strip (linkMarker index) = linkMarker index := by
      apply strip_eq_self
      · intro c hc
        rw [toList_linkMarker] at hc
        obtain rfl := Option.some.inj hc
        decide
      · intro c hc
        exact hlast [] c hc
    have hspace : strip (" " ++ linkMarker index) = strip (linkMarker index) := by
      rw [strip, strip, String.toList_append]
      rfl
    rw [markedText, if_pos hempty, hempty, String.empty_append, String.empty_append, hspace, hstrip]
  · rw [markedText, if_neg hempty]
    apply strip_eq_self
    · intro c hc
      rw [String.append_assoc, String.toList_append] at hc
      cases htext : (anchorText e).toList with
      | nil => exact absurd (String.toList_inj.mp htext) hempty
      | cons d l =>
        rw [htext, List.cons_append, List.head?_cons] at hc
        apply not_isSpace_head_anchorText (e := e)
        rw [htext, List.head?_cons, hc]
    · intro c hc
      rw [String.toList_append] at hc
      exact hlast _ c hc

/-! ### The loop over the anchors -/

section Loop

variable {u : UnicodeData} {baseUrl : String} {linkFilter : Option String}

/-- The anchors of a list that are to be numbered, with their URLs. -/
def numbered (u : UnicodeData) (baseUrl : String) (linkFilter : Option String)
    (anchors : List (HtmlElement × String)) : List (HtmlElement × String) :=
  anchors.filterMap fun entry => (targetUrl u baseUrl linkFilter entry.2).map fun url => (entry.1, url)

/-- The string that is assigned to an anchor under a number. -/
def assignedText (entry : (HtmlElement × String) × ℕ) : ℕ × String :=
  (entry.1.1.id, anchorText entry.1.1 ++ " " ++ linkMarker entry.2)

/-- While nothing in an anchor has been assigned, its text is that of the parsed page. -/
lemma strings_of_unassigned {assigned : ℕ → Option String} {e : HtmlElement}
    (h : ∀ id ∈ e.ids, assigned id = none) : stripAndJoin "" (e.strings assigned) = anchorText e := by
  obtain ⟨hid, hchildren⟩ := List.forall_mem_cons.mp h
  rw [anchorText, HtmlElement.strings, HtmlElement.strings, hid]
  exact congrArg (stripAndJoin "") (strings_congr hchildren)

/-- An anchor gets the next number. -/
def Annotation.record (s : Annotation) (anchor : HtmlElement) (url : String) : Annotation where
  assigned := s.assigned.set anchor.id (anchorText anchor ++ " " ++ linkMarker s.linkIndex)
  linkMap := s.linkMap.set s.linkIndex url
  linkIndex := s.linkIndex + 1

lemma annotateAnchor_eq {s : Annotation} {anchor : HtmlElement} {href url : String}
    (hurl : resolveAbsoluteUrl u baseUrl href = .ok url) (hfresh : ∀ id ∈ anchor.ids, id ∉ s.assigned.keys) :
    annotateAnchor u baseUrl linkFilter s anchor href =
      .ok ((targetUrl u baseUrl linkFilter href).elim s (s.record anchor)) := by
  have htext : stripAndJoin "" (anchor.strings s.assigned.get?) = anchorText anchor :=
    strings_of_unassigned fun id hid => OrderedDict.get?_eq_none_iff.mpr (hfresh id hid)
  simp only [annotateAnchor, targetUrl, hurl, htext]
  by_cases hempty : url = ""
  · simp [hempty]
  · by_cases hfilter : matchesFilter linkFilter url = true
    · simp [hempty, hfilter, Annotation.record]
    · simp [hempty, hfilter]

/-- Nothing in the anchors that are left has been assigned, and the numbers in the map are below the next. -/
structure Annotation.ReadyFor (s : Annotation) (anchors : List (HtmlElement × String)) : Prop where
  unassigned : ∀ entry ∈ anchors, ∀ id ∈ entry.1.ids, id ∉ s.assigned.keys
  numbers : ∀ k ∈ s.linkMap.keys, k < s.linkIndex

lemma Annotation.ReadyFor.tail {s : Annotation} {entry : HtmlElement × String}
    {anchors : List (HtmlElement × String)} (h : s.ReadyFor (entry :: anchors)) : s.ReadyFor anchors :=
  ⟨(List.forall_mem_cons.mp h.unassigned).2, h.numbers⟩

lemma Annotation.ReadyFor.record {s : Annotation} {anchor : HtmlElement} {anchors : List (HtmlElement × String)}
    (h : s.ReadyFor anchors) (hlater : ∀ entry ∈ anchors, anchor.id ∉ entry.1.ids) (url : String) :
    (s.record anchor url).ReadyFor anchors := by
  constructor
  · intro entry hentry id hid hkey
    rcases OrderedDict.mem_keys_set.mp hkey with rfl | hold
    · exact hlater entry hentry hid
    · exact h.unassigned entry hentry id hid hold
  · intro k hk
    rcases OrderedDict.mem_keys_set.mp hk with rfl | hold
    · exact Nat.lt_succ_self _
    · exact (h.numbers k hold).trans (Nat.lt_succ_self _)

variable (linkFilter) in
/-- The loop assigns a string to each anchor that is to be numbered and enters its URL, in their order. -/
lemma annotateAnchors_eq {anchors : List (HtmlElement × String)} {s : Annotation}
    (hresolve : ∀ entry ∈ anchors, ∃ url, resolveAbsoluteUrl u baseUrl entry.2 = .ok url)
    (hpair : anchors.Pairwise fun a b => a.1.id ∉ b.1.ids)
    (hready : s.ReadyFor anchors) :
    ∃ s', annotateAnchors u baseUrl linkFilter s anchors = .ok s' ∧
      s'.assigned.items = s.assigned.items ++
        ((numbered u baseUrl linkFilter anchors).zipIdx s.linkIndex).map assignedText ∧
      s'.linkMap.items = s.linkMap.items ++
        ((numbered u baseUrl linkFilter anchors).zipIdx s.linkIndex).map fun entry => (entry.2, entry.1.2) := by
  induction anchors generalizing s with
  | nil =>
    refine ⟨s, rfl, ?_, ?_⟩
    · rw [numbered, List.filterMap_nil, List.zipIdx_nil, List.map_nil, List.append_nil]
    · rw [numbered, List.filterMap_nil, List.zipIdx_nil, List.map_nil, List.append_nil]
  | cons entry anchors ih =>
    obtain ⟨anchor, href⟩ := entry
    obtain ⟨⟨url, hurl⟩, hresolve⟩ := List.forall_mem_cons.mp hresolve
    obtain ⟨hlater, hpair⟩ := List.pairwise_cons.mp hpair
    have hanchor := (List.forall_mem_cons.mp hready.unassigned).1
    rw [annotateAnchors, annotateAnchor_eq hurl hanchor]
    cases htarget : targetUrl u baseUrl linkFilter href with
    | none =>
      have hskip : numbered u baseUrl linkFilter ((anchor, href) :: anchors) =
          numbered u baseUrl linkFilter anchors := List.filterMap_cons_none (by simp only [htarget, Option.map_none])
      rw [hskip]
      exact ih hresolve hpair hready.tail
    | some target =>
      have hnew : numbered u baseUrl linkFilter ((anchor, href) :: anchors) =
          (anchor, target) :: numbered u baseUrl linkFilter anchors :=
        List.filterMap_cons_some (by simp only [htarget, Option.map_some])
      have hid : anchor.id ∉ s.assigned.keys := hanchor anchor.id List.mem_cons_self
      have hindex : s.linkIndex ∉ s.linkMap.keys := fun hmem => lt_irrefl _ (hready.numbers _ hmem)
      obtain ⟨s', hs', hassigned, hlinks⟩ := ih hresolve hpair (hready.tail.record hlater target)
      refine ⟨s', hs', ?_, ?_⟩
      · rw [hassigned, Annotation.record, OrderedDict.items_set_of_notMem hid, hnew, List.zipIdx_cons, List.map_cons,
          List.append_assoc, List.singleton_append]
        rfl
      · rw [hlinks, Annotation.record, OrderedDict.items_set_of_notMem hindex, hnew, List.zipIdx_cons, List.map_cons,
          List.append_assoc, List.singleton_append]

/-- A call that returns has resolved every target. -/
lemma resolve_of_annotateAnchors {anchors : List (HtmlElement × String)} {s s' : Annotation}
    (h : annotateAnchors u baseUrl linkFilter s anchors = .ok s') :
    ∀ entry ∈ anchors, ∃ url, resolveAbsoluteUrl u baseUrl entry.2 = .ok url := by
  induction anchors generalizing s with
  | nil => exact fun entry hentry => absurd hentry List.not_mem_nil
  | cons entry anchors ih =>
    obtain ⟨anchor, href⟩ := entry
    rw [annotateAnchors] at h
    cases hurl : resolveAbsoluteUrl u baseUrl href with
    | error e =>
      simp only [annotateAnchor, hurl] at h
      cases h
    | ok url =>
      split at h
      · cases h
      · exact List.forall_mem_cons.mpr ⟨⟨url, hurl⟩, ih h⟩

end Loop

/-! ### The annotated page -/

section Page

variable {u : UnicodeData} {baseUrl : String} {linkFilter : Option String} {page : HtmlPage}

lemma nodup_removeNoiseTags (page : HtmlPage) : (removeNoiseTags page).ids.Nodup :=
  page.nodup.sublist (ids_decompose noiseTags page.nodes)

/-- The anchors that the loop numbers are the ones that are to be numbered. -/
lemma numbered_findAnchors (page : HtmlPage) :
    numbered u baseUrl linkFilter (findAnchors (removeNoiseTags page)) =
      eligibleAnchors u baseUrl linkFilter page := by
  rw [numbered, findAnchors, List.filterMap_filterMap, eligibleAnchors]
  apply List.filterMap_congr
  intro e _
  rw [eligibleUrl]
  by_cases hname : e.name = "a"
  · rw [if_pos hname, if_pos hname]
    cases e.attrs.lookup "href" with
    | none => rfl
    | some href => rfl
  · rw [if_neg hname, if_neg hname]
    rfl

lemma mem_eligibleAnchors_iff {entry : HtmlElement × String} :
    entry ∈ eligibleAnchors u baseUrl linkFilter page ↔
      entry.1 ∈ (removeNoiseTags page).elements ∧ eligibleUrl u baseUrl linkFilter entry.1 = some entry.2 := by
  rw [eligibleAnchors, List.mem_filterMap]
  constructor
  · rintro ⟨e, he, hentry⟩
    obtain ⟨url, hurl, rfl⟩ := Option.map_eq_some_iff.mp hentry
    exact ⟨he, hurl⟩
  · rintro ⟨he, hurl⟩
    exact ⟨entry.1, he, by rw [hurl, Option.map_some]⟩

lemma ids_eligibleAnchors_sublist (page : HtmlPage) :
    ((eligibleAnchors u baseUrl linkFilter page).map fun entry => entry.1.id).Sublist (removeNoiseTags page).ids := by
  rw [eligibleAnchors, ids]
  induction (removeNoiseTags page).elements with
  | nil => exact List.Sublist.refl _
  | cons e l ih =>
    cases hurl : eligibleUrl u baseUrl linkFilter e with
    | none =>
      rw [List.filterMap_cons_none (by rw [hurl, Option.map_none]), List.map_cons]
      exact ih.cons _
    | some url =>
      rw [List.filterMap_cons_some (by rw [hurl, Option.map_some]), List.map_cons, List.map_cons]
      exact ih.cons_cons _

variable (linkFilter) in
/-- Without an exception the call returns the text under the strings that it has assigned. -/
lemma exists_assigned (hresolve : AllResolve u baseUrl page) :
    ∃ assigned : OrderedDict ℕ String,
      annotateLinks u baseUrl linkFilter page =
        .ok (stripAndJoin " " ((removeNoiseTags page).strings assigned.get?),
          ((eligibleAnchors u baseUrl linkFilter page).zipIdx 1).map fun entry => (entry.2, entry.1.2)) ∧
      assigned.items = ((eligibleAnchors u baseUrl linkFilter page).zipIdx 1).map assignedText := by
  have hpair : (findAnchors (removeNoiseTags page)).Pairwise fun a b => a.1.id ∉ b.1.ids := by
    refine (pairwise_elements (nodup_removeNoiseTags page)).filterMap _ ?_
    intro a a' hnot b hb b' hb'
    simp only [Option.ite_none_right_eq_some, Option.map_eq_some_iff] at hb hb'
    obtain ⟨-, href, -, rfl⟩ := hb
    obtain ⟨-, href', -, rfl⟩ := hb'
    exact hnot
  have hready : ({} : Annotation).ReadyFor (findAnchors (removeNoiseTags page)) :=
    ⟨fun _ _ _ _ => List.not_mem_nil, fun _ hk => absurd hk List.not_mem_nil⟩
  obtain ⟨s, hs, hassigned, hlinks⟩ := annotateAnchors_eq linkFilter hresolve hpair hready
  rw [numbered_findAnchors] at hassigned hlinks
  refine ⟨s.assigned, ?_, hassigned⟩
  rw [annotateLinks]
  simp only [hs, hlinks]
  rfl

section Assigned

variable {assigned : OrderedDict ℕ String}

lemma keys_assigned
    (h : assigned.items = ((eligibleAnchors u baseUrl linkFilter page).zipIdx 1).map assignedText) :
    assigned.keys = (eligibleAnchors u baseUrl linkFilter page).map fun entry => entry.1.id := by
  have hfst : ((eligibleAnchors u baseUrl linkFilter page).zipIdx 1).map Prod.fst =
      eligibleAnchors u baseUrl linkFilter page := List.zipIdx_map_fst ..
  conv_rhs => rw [← hfst]
  rw [OrderedDict.keys, h, List.map_map, List.map_map]
  rfl

/-- The strings that are assigned come in the order of the elements. -/
lemma filterMap_assigned
    (h : assigned.items = ((eligibleAnchors u baseUrl linkFilter page).zipIdx 1).map assignedText) :
    (removeNoiseTags page).ids.filterMap assigned.get? =
      ((eligibleAnchors u baseUrl linkFilter page).zipIdx 1).map fun entry => (assignedText entry).2 := by
  have hsub : assigned.keys.Sublist (removeNoiseTags page).ids := by
    rw [keys_assigned h]
    exact ids_eligibleAnchors_sublist page
  rw [OrderedDict.filterMap_get? hsub (nodup_removeNoiseTags page), h, List.map_map]
  rfl

lemma assigned_eq_none_iff
    (h : assigned.items = ((eligibleAnchors u baseUrl linkFilter page).zipIdx 1).map assignedText)
    {e : HtmlElement} (he : e ∈ (removeNoiseTags page).elements) :
    assigned.get? e.id = none ↔ eligibleUrl u baseUrl linkFilter e = none := by
  rw [OrderedDict.get?_eq_none_iff, keys_assigned h]
  constructor
  · intro hnot
    rw [Option.eq_none_iff_forall_ne_some]
    intro url hurl
    exact hnot (List.mem_map.mpr ⟨(e, url), mem_eligibleAnchors_iff.mpr ⟨he, hurl⟩, rfl⟩)
  · intro hnone hmem
    obtain ⟨entry, hentry, hid⟩ := List.mem_map.mp hmem
    obtain ⟨helement, hurl⟩ := mem_eligibleAnchors_iff.mp hentry
    have hsame := List.inj_on_of_nodup_map (nodup_removeNoiseTags page) helement he hid
    rw [hsame, hnone] at hurl
    cases hurl

lemma assignedApart_iff
    (h : assigned.items = ((eligibleAnchors u baseUrl linkFilter page).zipIdx 1).map assignedText) :
    (removeNoiseTags page).AssignedApart assigned.get? ↔ NoneInside u baseUrl linkFilter page := by
  constructor
  · intro hapart entry hentry e he
    obtain ⟨helement, hurl⟩ := mem_eligibleAnchors_iff.mp hentry
    have hassigned : assigned.get? entry.1.id ≠ none := by
      rw [ne_eq, assigned_eq_none_iff h helement, hurl]
      exact Option.some_ne_none _
    have hinside := hapart entry.1 helement hassigned e he
    exact (assigned_eq_none_iff h (mem_elements_of_mem_children helement he)).mp hinside
  · intro hnone e he hassigned b hb
    rw [ne_eq, assigned_eq_none_iff h he] at hassigned
    obtain ⟨url, hurl⟩ := Option.ne_none_iff_exists'.mp hassigned
    have hinside := hnone (e, url) (mem_eligibleAnchors_iff.mpr ⟨he, hurl⟩) b hb
    exact (assigned_eq_none_iff h (mem_elements_of_mem_children he hb)).mpr hinside

end Assigned

lemma bracket_mem_markedText (text : String) (index : ℕ) : '[' ∈ (markedText text index).toList := by
  rw [markedText, String.toList_append, toList_linkMarker]
  exact List.mem_append_right _ List.mem_cons_self

/-- The anchors apart from each other have their markers in the text. -/
lemma linksMarked_of_noneInside (hresolve : AllResolve u baseUrl page)
    (hnone : NoneInside u baseUrl linkFilter page) : LinksMarked u baseUrl linkFilter page := by
  obtain ⟨assigned, hcall, hassigned⟩ := exists_assigned linkFilter hresolve
  refine ⟨_, _, hcall, rfl, ?_⟩
  have hsub := sublist_strings ((assignedApart_iff hassigned).mpr hnone)
  rw [filterMap_assigned hassigned] at hsub
  have hstrip : (((eligibleAnchors u baseUrl linkFilter page).zipIdx 1).map fun entry => (assignedText entry).2).map
      strip = ((eligibleAnchors u baseUrl linkFilter page).zipIdx 1).map fun entry =>
        markedText (anchorText entry.1.1) entry.2 := by
    rw [List.map_map]
    exact List.map_congr_left fun entry _ => strip_assigned entry.1.1 entry.2
  have hparts := (hsub.map strip).filter fun part => decide (part ≠ "")
  rw [hstrip, List.filter_eq_self.mpr] at hparts
  · have horder := standInOrder_join " " hparts
    rw [List.map_map] at horder
    exact horder
  · intro part hpart
    obtain ⟨entry, -, rfl⟩ := List.mem_map.mp hpart
    rw [decide_eq_true_eq]
    intro hempty
    have hmem := bracket_mem_markedText (anchorText entry.1.1) entry.2
    rw [hempty] at hmem
    cases hmem

/-- Without a bracket in the page a string that is assigned has one. -/
lemma countChar_assigned {assigned : OrderedDict ℕ String}
    (hassigned : assigned.items = ((eligibleAnchors u baseUrl linkFilter page).zipIdx 1).map assignedText)
    (hplain : ∀ s ∈ (removeNoiseTags page).strings fun _ => none, '[' ∉ s.toList) {id : ℕ} {s : String}
    (h : assigned.get? id = some s) : countChar '[' s = 1 := by
  have hitem := OrderedDict.get?_eq_some_iff.mp h
  rw [hassigned, List.mem_map] at hitem
  obtain ⟨entry, hentry, heq⟩ := hitem
  obtain ⟨-, rfl⟩ := Prod.mk.inj heq
  have helement := (mem_eligibleAnchors_iff.mp (List.fst_mem_of_mem_zipIdx hentry)).1
  have htext : (anchorText entry.1.1).toList.count '[' = 0 := by
    rw [List.count_eq_zero]
    intro hmem
    have hcount := count_stripAndJoin_le (c := '[') "" (by decide) (entry.1.1.strings fun _ => none)
    have hzero : totalWeight (countChar '[') (entry.1.1.strings fun _ => none) = 0 :=
      totalWeight_eq_zero fun s hs => List.count_eq_zero.mpr (hplain s (strings_subset_of_mem helement hs))
    have hpos := List.count_pos_iff.mpr hmem
    rw [anchorText] at hpos
    omega
  have hmarker : (linkMarker entry.2).toList.count '[' = 1 := by
    have hdigits : (toString entry.2).toList.count '[' = 0 := by
      rw [List.count_eq_zero]
      intro hmem
      have hdigit : '['.isDigit = true :=
        Nat.isDigit_of_mem_toDigits (b := 10) (by decide) (by decide) (by simpa using hmem)
      exact absurd hdigit (by decide)
    rw [toList_linkMarker, List.count_cons_self, List.count_append, hdigits]
    rfl
  rw [countChar, String.toList_append, String.toList_append, List.count_append, List.count_append, htext, hmarker]
  rfl

/-- On a page without brackets a marker that is missed is not made up for. -/
lemma noneInside_of_linksMarked (hplain : ∀ s ∈ (removeNoiseTags page).strings fun _ => none, '[' ∉ s.toList)
    (h : LinksMarked u baseUrl linkFilter page) :
    AllResolve u baseUrl page ∧ NoneInside u baseUrl linkFilter page := by
  obtain ⟨text, linkMap, hcall, -, horder⟩ := h
  have hresolve : AllResolve u baseUrl page := by
    rw [annotateLinks] at hcall
    cases hloop : annotateAnchors u baseUrl linkFilter {} (findAnchors (removeNoiseTags page)) with
    | error e =>
      simp only [hloop] at hcall
      cases hcall
    | ok s => exact resolve_of_annotateAnchors hloop
  refine ⟨hresolve, ?_⟩
  obtain ⟨assigned, hcall', hassigned⟩ := exists_assigned linkFilter hresolve
  rw [hcall'] at hcall
  obtain ⟨rfl, -⟩ := Prod.mk.inj (Except.ok.inj hcall)
  have hone : ∀ id ∈ (removeNoiseTags page).ids, ∀ s, assigned.get? id = some s → countChar '[' s = 1 :=
    fun id _ s hs => countChar_assigned hassigned hplain hs
  have hweights := totalWeight_strings_le (countChar '[')
    (fun s hs => List.count_eq_zero.mpr (hplain s hs)) hone
  have hlength := length_le_count_of_standInOrder (c := '[') horder fun part hpart => by
    obtain ⟨entry, -, rfl⟩ := List.mem_map.mp hpart
    exact bracket_mem_markedText _ _
  have hcount := count_stripAndJoin_le (c := '[') " " (by decide)
    ((removeNoiseTags page).strings assigned.get?)
  rw [filterMap_assigned hassigned] at hweights
  rw [List.length_map] at hlength
  refine (assignedApart_iff hassigned).mp (hweights.2 ?_)
  rw [List.length_map]
  omega

/-- The links are marked whenever the targets resolve and no anchor that is numbered lies inside another one,
and on a page without brackets only then. -/
theorem linksMarked_iff (u : UnicodeData) (baseUrl : String) (linkFilter : Option String) (page : HtmlPage) :
    (AllResolve u baseUrl page ∧ NoneInside u baseUrl linkFilter page → LinksMarked u baseUrl linkFilter page) ∧
      ((∀ s ∈ (removeNoiseTags page).strings fun _ => none, '[' ∉ s.toList) →
        (LinksMarked u baseUrl linkFilter page ↔
          AllResolve u baseUrl page ∧ NoneInside u baseUrl linkFilter page)) :=
  ⟨fun h => linksMarked_of_noneInside h.1 h.2, fun hplain =>
    ⟨noneInside_of_linksMarked hplain, fun h => linksMarked_of_noneInside h.1 h.2⟩⟩

end Page

/-- An anchor inside another one, both with a target. -/
def nestedPage : HtmlPage where
  nodes := .element 0 "a" [("href", "https://example.com/1")]
    (.text true "x" (.element 1 "a" [("href", "https://example.com/2")] (.text true "y" .empty) .empty)) .empty
  nodup := by decide

theorem nestedPage_not_linksMarked : ¬LinksMarked asciiData "https://example.com" none nestedPage := by
  rintro ⟨text, linkMap, hcall, -, horder⟩
  have hvalue : annotateLinks asciiData "https://example.com" none nestedPage =
      .ok ("xy [1]", [(1, "https://example.com/1"), (2, "https://example.com/2")]) := by decide +kernel
  rw [hvalue] at hcall
  obtain ⟨rfl, -⟩ := Prod.mk.inj (Except.ok.inj hcall)
  have hlength := length_le_count_of_standInOrder (c := '[') horder fun part hpart => by
    obtain ⟨entry, -, rfl⟩ := List.mem_map.mp hpart
    exact bracket_mem_markedText _ _
  have hanchors : (eligibleAnchors asciiData "https://example.com" none nestedPage).length = 2 := by decide +kernel
  rw [List.length_map, List.length_zipIdx, hanchors] at hlength
  exact absurd hlength (by decide)

end AscendAI.WebSearch
