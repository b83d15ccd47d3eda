import AscendAI.Lib.JavaRegex
import AscendAI.Provider.ProviderResolution

/-!
# Globs of the models with vision

A provider lists globs of the models that accept images. A glob is quoted as a regular expression
and each star of the quoted text is replaced by an end mark, `.*` and a start mark.
-/

namespace AscendAI.Provider

open JavaString JavaRegex

/-- The two configurations, with the model of each provider and the globs of each provider.
Anything may be missing. -/
structure VisionCapabilityResolver where
  locale : JavaLocale
  visionProviders : List (String × Option (List String))
  defaultProvider : Option String
  providerModels : List (String × Option String)

/-- `s.replace("*", "\\E.*\\Q")` -/
def spliceStars (s : List Char) : List Char :=
  s.flatMap fun c => if c = '*' then ['\\', 'E', '.', '*', '\\', 'Q'] else [c]

/-- The answer is missing when the regular expression does not compile. -/
def matchesGlob (glob model : String) : Option Bool :=
  if model.isEmpty then some false
  else matchesAll (String.ofList ('^' :: (spliceStars (quote glob).toList ++ ['$']))) model

namespace VisionCapabilityResolver

variable (r : VisionCapabilityResolver)

def resolveProvider (provider : Option String) : Option String :=
  match provider with
  | none => r.defaultProvider
  | some p => if hasText (some p) then some (r.locale.toLowerCase (trim p)) else r.defaultProvider

def resolveModel (provider model : Option String) : String :=
  match model with
  | none => ((getOrNull r.providerModels provider).bind id).getD ""
  | some m =>
    if hasText (some m) then m else ((getOrNull r.providerModels provider).bind id).getD ""

/-- The loop over the globs. -/
def anyGlobMatches (modelLower : String) : List String → Option Bool
  | [] => some false
  | glob :: patterns =>
    match matchesGlob (r.locale.toLowerCase glob) modelLower with
    | none => none
    | some true => some true
    | some false => anyGlobMatches modelLower patterns

def supportsImages (provider model : Option String) : Option Bool :=
  let resolvedProvider := r.resolveProvider provider
  let resolvedModel := r.resolveModel resolvedProvider model
  if !hasText (some resolvedModel) then some false
  else
    match (getOrNull r.visionProviders resolvedProvider).bind id with
    | none => some false
    | some patterns => r.anyGlobMatches (r.locale.toLowerCase resolvedModel) patterns

/-- The globs that the answer depends on. -/
def globs (provider : Option String) : List String :=
  ((getOrNull r.visionProviders (r.resolveProvider provider)).bind id).getD []

end VisionCapabilityResolver

/-! ### Globs -/

/-- A star stands for a run of characters without line terminators, every other character for
itself. -/
inductive GlobMatches : List Char → List Char → Prop
  | nil : GlobMatches [] []
  | star {glob run text : List Char} (hrun : ∀ c ∈ run, isLineTerminator c = false)
      (h : GlobMatches glob text) : GlobMatches ('*' :: glob) (run ++ text)
  | char {c : Char} {glob text : List Char} (hc : c ≠ '*') (h : GlobMatches glob text) :
      GlobMatches (c :: glob) (c :: text)

def globNode (c : Char) : Node := if c = '*' then .many .dot else .one (.char c)

lemma globMatches_nil_iff {text : List Char} : GlobMatches [] text ↔ text = [] := by
  constructor
  · rintro ⟨⟩
    rfl
  · rintro rfl
    exact .nil

lemma globMatches_star_iff {glob text : List Char} :
    GlobMatches ('*' :: glob) text ↔
      ∃ run t, (∀ c ∈ run, isLineTerminator c = false) ∧ text = run ++ t ∧ GlobMatches glob t := by
  constructor
  · intro h
    cases h with
    | star hrun h => exact ⟨_, _, hrun, rfl, h⟩
    | char hc h => exact absurd rfl hc
  · rintro ⟨run, t, hrun, rfl, h⟩
    exact .star hrun h

lemma globMatches_char_iff {c : Char} {glob text : List Char} (hc : c ≠ '*') :
    GlobMatches (c :: glob) text ↔ ∃ t, text = c :: t ∧ GlobMatches glob t := by
  constructor
  · intro h
    cases h with
    | star hrun h => exact absurd rfl hc
    | char hc h => exact ⟨_, rfl, h⟩
  · rintro ⟨t, rfl, h⟩
    exact .char hc h

/-- The nodes of a glob match what the glob matches. -/
lemma matchFrom_globNodes {text glob rest : List Char} :
    matchFrom text (glob.map globNode ++ [.dollar]) rest = true ↔ GlobMatches glob rest := by
  induction glob generalizing rest with
  | nil =>
    rw [List.map_nil, List.nil_append, matchFrom_dollar_iff, globMatches_nil_iff]
  | cons c glob ih =>
    rw [List.map_cons, List.cons_append]
    by_cases hc : c = '*'
    · have hnode : globNode c = .many .dot := if_pos hc
      have haccepts : ∀ d, Atom.dot.accepts d = true ↔ isLineTerminator d = false := by
        intro d
        rw [Atom.accepts, Bool.not_eq_true']
      rw [hnode, hc, matchFrom_many_iff, globMatches_star_iff]
      simp only [haccepts, ih]
    · have hnode : globNode c = .one (.char c) := if_neg hc
      rw [hnode, matchFrom_one_iff, globMatches_char_iff hc]
      simp only [Atom.accepts, beq_iff_eq, ih]
      constructor
      · rintro ⟨d, t, rfl, heq, h⟩
        exact ⟨t, heq, h⟩
      · rintro ⟨t, heq, h⟩
        exact ⟨c, t, rfl, heq, h⟩

/-! ### The regular expression of a glob -/

/-- The symbols of a quoted glob after the splices. An end mark of the glob leaves its quoted
section and comes back as two plain symbols. -/
def globSymbols : List Char → List Symbol
  | [] => []
  | c :: s => (if c = '*' then [.atom .dot, .star] else [.atom (.char c)]) ++ globSymbols s

lemma nodes_globSymbols (glob : List Char) :
    nodes (globSymbols glob ++ [.dollar]) = some (glob.map globNode ++ [.dollar]) := by
  induction glob with
  | nil => rfl
  | cons c glob ih =>
    have hhead : (globSymbols glob ++ [Symbol.dollar]).head? ≠ some .star := by
      cases glob with
      | nil => simp [globSymbols]
      | cons d glob =>
        rw [globSymbols]
        split <;> simp
    by_cases hc : c = '*'
    · have hnode : globNode c = .many .dot := if_pos hc
      rw [globSymbols, if_pos hc, List.cons_append, List.cons_append, List.cons_append,
        List.cons_append, List.nil_append, nodes, ih, Option.map_some, List.map_cons, hnode,
        List.cons_append]
    · have hnode : globNode c = .one (.char c) := if_neg hc
      rw [globSymbols, if_neg hc, List.cons_append, List.nil_append, List.cons_append,
        nodes_atom hhead, ih, Option.map_some, List.map_cons, hnode, List.cons_append]

/-- No splice starts with the letter that ends a quoted section. -/
lemma head?_spliced_ne {s : List Char} (h : s.head? ≠ some 'E') :
    (spliceStars (quoteBody s) ++ ['\\', 'E', '$']).head? ≠ some 'E' := by
  fun_cases quoteBody s with
  | case1 s => simp [spliceStars]
  | case2 c s hnot =>
    rw [spliceStars, List.flatMap_cons]
    split
    · simp
    · simpa using h
  | case3 => simp [spliceStars]

/-- The symbols of the regular expression are those of the glob. -/
lemma symbols_spliced (s : List Char) :
    (unquote true (spliceStars (quoteBody s) ++ ['\\', 'E', '$'])).mapM Token.symbol =
      some (globSymbols s ++ [.dollar]) := by
  induction s using quoteBody.induct with
  | case1 s ih =>
    have hbody : spliceStars (quoteBody ('\\' :: 'E' :: s)) =
        '\\' :: 'E' :: '\\' :: '\\' :: 'E' :: '\\' :: 'Q' :: spliceStars (quoteBody s) := by
      rw [quoteBody]
      rfl
    rw [hbody]
    simp only [List.cons_append]
    rw [unquote, unquote_escaped _ (by decide), unquote_plain _ (by decide), unquote,
      List.mapM_cons, List.mapM_cons, ih]
    rfl
  | case2 c s hnot ih =>
    have hbody : quoteBody (c :: s) = c :: quoteBody s := by
      rw [quoteBody]
      exact hnot
    rw [hbody, spliceStars, List.flatMap_cons]
    by_cases hc : c = '*'
    · rw [if_pos hc]
      simp only [List.cons_append, List.nil_append]
      rw [unquote, unquote_plain _ (by decide), unquote_plain _ (by decide), unquote,
        List.mapM_cons, List.mapM_cons, ← spliceStars, ih, globSymbols, if_pos hc]
      rfl
    · have hnext : c = '\\' → (spliceStars (quoteBody s) ++ ['\\', 'E', '$']).head? ≠ some 'E' := by
        intro hbackslash
        refine head?_spliced_ne fun hE => ?_
        cases s with
        | nil => exact absurd hE (by simp)
        | cons d s =>
          rw [List.head?_cons, Option.some.injEq] at hE
          exact hnot s hbackslash (by rw [hE])
      rw [if_neg hc, List.cons_append, List.nil_append, List.cons_append, ← spliceStars,
        unquote_quoted hnext, List.mapM_cons, ih, globSymbols, if_neg hc]
      rfl
  | case3 => rfl

/-- The quoted and spliced glob compiles to the nodes of the glob. -/
lemma compile_glob (glob : String) :
    compile (String.ofList ('^' :: (spliceStars (quote glob).toList ++ ['$']))) =
      some (.begin :: (glob.toList.map globNode ++ [.dollar])) := by
  have hsplice : spliceStars (quote glob).toList ++ ['$'] =
      '\\' :: 'Q' :: (spliceStars (quoteBody glob.toList) ++ ['\\', 'E', '$']) := by
    simp [spliceStars, quote]
  have hnodes : nodes (.caret :: (globSymbols glob.toList ++ [.dollar])) =
      some (.begin :: (glob.toList.map globNode ++ [.dollar])) := by
    rw [nodes, nodes_globSymbols, Option.map_some]
  rw [compile, String.toList_ofList, hsplice, unquote_plain _ (by decide), unquote, List.mapM_cons,
    symbols_spliced]
  exact hnodes

lemma matchesGlob_spec (glob : String) {model : String} (h : model ≠ "") :
    ∃ answer, matchesGlob glob model = some answer ∧
      (answer = true ↔ GlobMatches glob.toList model.toList) := by
  have hne : model.isEmpty = false := by simpa using h
  refine ⟨matchFrom model.toList (glob.toList.map globNode ++ [.dollar]) model.toList, ?_,
    matchFrom_globNodes⟩
  rw [matchesGlob, hne, if_neg Bool.false_ne_true, matchesAll, compile_glob, Option.map_some,
    matchFrom_begin]

namespace VisionCapabilityResolver

lemma anyGlobMatches_spec (r : VisionCapabilityResolver) {modelLower : String} (h : modelLower ≠ "")
    (patterns : List String) :
    ∃ answer, r.anyGlobMatches modelLower patterns = some answer ∧
      (answer = true ↔ ∃ glob ∈ patterns,
        GlobMatches (r.locale.toLowerCase glob).toList modelLower.toList) := by
  induction patterns with
  | nil => exact ⟨false, rfl, by simp⟩
  | cons glob patterns ih =>
    obtain ⟨matched, hmatch, hiff⟩ := matchesGlob_spec (r.locale.toLowerCase glob) h
    rw [anyGlobMatches, hmatch]
    cases matched with
    | true => exact ⟨true, rfl, by simp [hiff.mp rfl]⟩
    | false =>
      have hnot : ¬GlobMatches (r.locale.toLowerCase glob).toList modelLower.toList := by
        intro hglob
        exact absurd (hiff.mpr hglob) Bool.false_ne_true
      obtain ⟨answer, heq, hrest⟩ := ih
      refine ⟨answer, heq, ?_⟩
      rw [hrest, List.exists_mem_cons_iff]
      simp [hnot]

/-- Images are supported exactly when the resolved model has text and one of the globs of the
resolved provider matches it, both in lower case. The answer is never missing. -/
theorem supportsImages_iff (r : VisionCapabilityResolver) (provider model : Option String)
    (hlocale : ∀ s, r.locale.toLowerCase s = "" → s = "") :
    ∃ answer, r.supportsImages provider model = some answer ∧
      (answer = true ↔
        hasText (some (r.resolveModel (r.resolveProvider provider) model)) = true ∧
        ∃ glob ∈ r.globs provider, GlobMatches (r.locale.toLowerCase glob).toList
          (r.locale.toLowerCase (r.resolveModel (r.resolveProvider provider) model)).toList) := by
  let resolvedModel := r.resolveModel (r.resolveProvider provider) model
  by_cases htext : hasText (some resolvedModel) = true
  · have hmodel : r.locale.toLowerCase resolvedModel ≠ "" := by
      intro hempty
      rw [hlocale resolvedModel hempty] at htext
      exact absurd htext (by decide)
    have hguard : ¬(!hasText (some resolvedModel)) = true := by simp [htext]
    rw [supportsImages, if_neg hguard]
    cases hglobs : (getOrNull r.visionProviders (r.resolveProvider provider)).bind id with
    | none =>
      have hempty : r.globs provider = [] := by rw [globs, hglobs, Option.getD_none]
      exact ⟨false, rfl, by simp [hempty]⟩
    | some patterns =>
      obtain ⟨answer, heq, hiff⟩ := r.anyGlobMatches_spec hmodel patterns
      refine ⟨answer, heq, ?_⟩
      rw [hiff, globs, hglobs, Option.getD_some]
      exact ⟨fun h => ⟨htext, h⟩, fun h => h.2⟩
  · have hguard : (!hasText (some resolvedModel)) = true := by simpa using htext
    rw [supportsImages, if_pos hguard]
    exact ⟨false, rfl, ⟨fun h => absurd h Bool.false_ne_true, fun h => absurd h.1 htext⟩⟩

/-- The globs of the local provider, and one that has the mark of the end of a quoted section. -/
def localVision : VisionCapabilityResolver where
  locale := .ascii
  visionProviders := [("lmstudio", some ["*-vl-*", "a\\E*+"])]
  defaultProvider := some "lmstudio"
  providerModels := [("lmstudio", some "Qwen2-VL-7b")]

theorem localVision_supportsImages :
    ∃ answer, localVision.supportsImages none none = some answer ∧
      (answer = true ↔
        hasText (some (localVision.resolveModel (localVision.resolveProvider none) none)) = true ∧
        ∃ glob ∈ localVision.globs none, GlobMatches (localVision.locale.toLowerCase glob).toList
          (localVision.locale.toLowerCase
            (localVision.resolveModel (localVision.resolveProvider none) none)).toList) :=
  supportsImages_iff localVision none none fun s h => by simpa [localVision, JavaLocale.ascii] using h

example : localVision.supportsImages none none = some true := by decide +kernel

example : localVision.supportsImages none (some "A\\E.+") = some true := by decide +kernel

example : localVision.supportsImages none (some "aa+") = some false := by decide +kernel

end VisionCapabilityResolver

end AscendAI.Provider
