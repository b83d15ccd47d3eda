import AscendAI.Lib.JsonText

/-!
# SemanticMemoryExtractor

How the extractor reads the facts out of a model's answer: it takes a Markdown fence off, lets Jackson
read the rest, and where Jackson refuses it looks for the last balanced pair of brackets. Jackson's
`readValue` is a parameter.
-/

namespace AscendAI.SemanticMemory
open JavaText JsonText

structure JsonProcessingException where
  message : String

/-- `objectMapper.readValue` at `List<String>`; the literal `null` is read as Java's null. -/
structure ObjectMapper where
  readValue : JavaText → Except JsonProcessingException (Option (List JavaText))

/-! ### The fence -/

/-- Three grave accents. -/
def fence : JavaText := [0x60, 0x60, 0x60]

/-- Three grave accents and `json`. -/
def fenceJson : JavaText := [0x60, 0x60, 0x60, 0x6A, 0x73, 0x6F, 0x6E]

def removeMarkdownCodeBlocks (json : JavaText) : JavaText :=
  let opened := if fenceJson.isPrefixOf json then remove fenceJson json else json
  let closed := if fence.isSuffixOf opened then opened.take ((lastIndexOf fence opened).getD 0) else opened
  trim closed

/-! ### The bracket scan -/

structure BracketRange where
  start : ℕ
  stop : ℕ

structure BracketScanState where
  depth : ℕ := 0
  currentStart : Option ℕ := none
  lastClosed : Option BracketRange := none
  inString : Bool := false
  escaped : Bool := false

def BracketScanState.consume (state : BracketScanState) (c : UInt16) (index : ℕ) : BracketScanState :=
  if state.escaped then { state with escaped := false }
  else if c = backslash then { state with escaped := true }
  else if c = quote then { state with inString := !state.inString }
  else if state.inString then state
  else if c = openBracket then
    { state with
      currentStart := if state.depth = 0 then some index else state.currentStart
      depth := state.depth + 1 }
  else if c = closeBracket ∧ 0 < state.depth then
    match state.currentStart with
    | some start =>
      if state.depth - 1 = 0 then
        { state with depth := state.depth - 1, lastClosed := some ⟨start, index⟩, currentStart := none }
      else { state with depth := state.depth - 1 }
    | none => { state with depth := state.depth - 1 }
  else state

/-- The loop over the text from the index on. -/
def BracketScanState.scanFrom (state : BracketScanState) (index : ℕ) : JavaText → BracketScanState
  | [] => state
  | c :: text => scanFrom (state.consume c index) (index + 1) text

def findLastBalancedJsonArray (text : JavaText) : Option JavaText :=
  if isBlank text then none
  else (BracketScanState.scanFrom {} 0 text).lastClosed.map fun range =>
    (text.take (range.stop + 1)).drop range.start

section Extraction

variable (mapper : ObjectMapper)

def extractEmbeddedJsonArray (text : JavaText) : Option (List JavaText) :=
  match findLastBalancedJsonArray text with
  | none => some []
  | some candidate =>
    match mapper.readValue candidate with
    | .ok facts => facts
    | .error _ => some []

def parseJsonArray (cleanedJson : JavaText) : Option (List JavaText) :=
  match mapper.readValue cleanedJson with
  | .ok facts => facts
  | .error _ => extractEmbeddedJsonArray mapper cleanedJson

def extractFactsFromJson (jsonString : Option JavaText) : List JavaText :=
  ((((jsonString.filter hasText).map trim).map removeMarkdownCodeBlocks).bind (parseJsonArray mapper)).getD []

end Extraction

/-! ### What is known of Jackson -/

/-- The text starts with the literal `null`: what follows is not a character that Jackson refuses right
after a literal. -/
def startsWithNull (continuesLiteral : UInt16 → Bool) (text : JavaText) : Bool :=
  [0x6E, 0x75, 0x6C, 0x6C].isPrefixOf text && !(text.drop 4).head?.any continuesLiteral

/-- `readValue` reads the first value of a text, and reads no further: an array of strings is its
strings, `null` is null, and what starts any other value, or none, is refused. -/
structure ObjectMapper.ReadsFirstValue (continuesLiteral : UInt16 → Bool) (mapper : ObjectMapper) :
    Prop where
  bracket : continuesLiteral openBracket = false
  array : ∀ facts json rest, ArrayText facts json → mapper.readValue (json ++ rest) = .ok (some facts)
  null : ∀ text, startsWithNull continuesLiteral text = true → mapper.readValue text = .ok none
  refuses : ∀ c text, isSpace c = false → c ≠ openBracket → c ≠ quote →
    startsWithNull continuesLiteral (c :: text) = false → ∃ e, mapper.readValue (c :: text) = .error e

/-- The ASCII characters that Jackson refuses right after a literal. -/
def asciiLiteralPart (c : UInt16) : Bool :=
  (0x30 ≤ c && c ≤ 0x39) || (0x41 ≤ c && c ≤ 0x5A) || (0x61 ≤ c && c ≤ 0x7A) || c == 0x5F

/-- A mapper that reads arrays of strings and `null`. -/
def stringArrayMapper : ObjectMapper where
  readValue text :=
    if startsWithNull asciiLiteralPart text then .ok none
    else match read text with
      | some facts => .ok (some facts)
      | none => .error ⟨"Cannot deserialize value of type java.util.ArrayList"⟩

/-- The contract is met by a reader that is written out. -/
theorem stringArrayMapper_readsFirstValue : stringArrayMapper.ReadsFirstValue asciiLiteralPart := by
  refine ⟨rfl, fun facts json rest h => ?_, fun text h => ?_, fun c text hspace hopen _ hnull => ?_⟩
  · have hread := read_arrayText h rest
    obtain ⟨inner, -, rfl⟩ := h
    have hnull : startsWithNull asciiLiteralPart (arrayText inner ++ rest) = false := rfl
    simp only [stringArrayMapper, hnull, Bool.false_eq_true, if_false, hread]
  · simp only [stringArrayMapper, h, if_true]
  · have hread := read_cons_of_ne hopen hspace text
    simp only [stringArrayMapper, hnull, Bool.false_eq_true, if_false, hread]
    exact ⟨_, rfl⟩

/-! ### The scan finds the array -/

/-- Prose as it stands around an array: no square bracket, no backslash and no double quote. -/
def Prose (text : JavaText) : Prop :=
  ∀ c ∈ text, c ≠ openBracket ∧ c ≠ closeBracket ∧ c ≠ backslash ∧ c ≠ quote

namespace BracketScanState

/-- Outside strings and escapes. -/
structure Plain (state : BracketScanState) : Prop where
  inString : state.inString = false
  escaped : state.escaped = false

lemma scanFrom_append (state : BracketScanState) (index : ℕ) (a b : JavaText) :
    state.scanFrom index (a ++ b) = (state.scanFrom index a).scanFrom (index + a.length) b := by
  induction a generalizing state index with
  | nil => rfl
  | cons c a ih =>
    rw [List.cons_append, scanFrom, ih, scanFrom, List.length_cons]
    congr 1
    omega

lemma scanFrom_prose {state : BracketScanState} (h : state.Plain) {text : JavaText} (htext : Prose text)
    (index : ℕ) : state.scanFrom index text = state := by
  induction text generalizing index with
  | nil => rfl
  | cons c text ih =>
    obtain ⟨hopen, hclose, hback, hquote⟩ := htext c List.mem_cons_self
    have hstep : state.consume c index = state := by
      simp [consume, h.inString, h.escaped, hopen, hclose, hback, hquote]
    rw [scanFrom, hstep]
    exact ih (fun d hd => htext d (List.mem_cons_of_mem c hd)) (index + 1)

/-- In a string only a quote and a backslash are looked at. -/
lemma scanFrom_inString {state : BracketScanState} (hin : state.inString = true)
    (hescaped : state.escaped = false) {text : JavaText} (htext : ∀ c ∈ text, c ≠ quote ∧ c ≠ backslash)
    (index : ℕ) : state.scanFrom index text = state := by
  induction text generalizing index with
  | nil => rfl
  | cons c text ih =>
    obtain ⟨hquote, hback⟩ := htext c List.mem_cons_self
    have hstep : state.consume c index = state := by
      simp [consume, hin, hescaped, hback, hquote]
    rw [scanFrom, hstep]
    exact ih (fun d hd => htext d (List.mem_cons_of_mem c hd)) (index + 1)

lemma scanFrom_charText {state : BracketScanState} (hin : state.inString = true)
    (hescaped : state.escaped = false) {c : UInt16} {t : JavaText} (h : CharText c t) (index : ℕ) :
    state.scanFrom index t = state := by
  rcases h.cases with ⟨rfl, -, hquote, hback⟩ | ⟨e, rest, rfl, hrest, -⟩
  · exact scanFrom_inString hin hescaped (by simp [hquote, hback]) index
  · have hback : state.consume backslash index = { state with escaped := true } := by
      simp [consume, hescaped]
    have hletter : ({ state with escaped := true } : BracketScanState).consume e (index + 1) = state := by
      simp [consume, ← hescaped]
    rw [scanFrom, hback, scanFrom, hletter]
    exact scanFrom_inString hin hescaped hrest _

lemma scanFrom_stringBody {state : BracketScanState} (hin : state.inString = true)
    (hescaped : state.escaped = false) {s body : JavaText} (h : StringBody s body) (index : ℕ) :
    state.scanFrom index body = state := by
  induction h generalizing index with
  | nil => rfl
  | cons hc _ ih => rw [scanFrom_append, scanFrom_charText hin hescaped hc, ih]

lemma prose_of_spaces {w : JavaText} (h : Spaces w) : Prose w := by
  intro c hc
  obtain ⟨hquote, hback, hopen, hclose, -, -⟩ := isSpace_ne (h c hc)
  exact ⟨hopen, hclose, hback, hquote⟩

lemma scanFrom_string {state : BracketScanState} (h : state.Plain) {w s body w' : JavaText} (hw : Spaces w)
    (hbody : StringBody s body) (hw' : Spaces w') (index : ℕ) :
    state.scanFrom index (w ++ quote :: (body ++ quote :: w')) = state := by
  have hne : quote ≠ backslash := by decide
  have hopen : ∀ index, state.consume quote index = { state with inString := true } := by
    simp [consume, h.escaped, h.inString, hne]
  have hclose : ∀ index, ({ state with inString := true } : BracketScanState).consume quote index = state := by
    obtain ⟨depth, currentStart, lastClosed, inString, escaped⟩ := state
    obtain ⟨rfl, rfl⟩ := h
    simp [consume, hne]
  have hinside : ∀ index, ({ state with inString := true } : BracketScanState).scanFrom index body =
      { state with inString := true } := by
    intro index
    apply scanFrom_stringBody
    · rfl
    · exact h.escaped
    · exact hbody
  rw [scanFrom_append, scanFrom_prose h (prose_of_spaces hw), scanFrom, hopen, scanFrom_append, hinside,
    scanFrom, hclose, scanFrom_prose h (prose_of_spaces hw')]

lemma scanFrom_elements {state : BracketScanState} (h : state.Plain) {items : List JavaText} {t : JavaText}
    (helements : Elements items t) (index : ℕ) : state.scanFrom index t = state := by
  induction helements generalizing index with
  | last hw hbody hw' => exact scanFrom_string h hw hbody hw' index
  | @more s body w w' items t hw hbody hw' _ ih =>
    have hcomma : Prose [comma] := by
      intro c hc
      rw [List.mem_singleton.mp hc]
      decide
    have hsplit : w ++ quote :: (body ++ quote :: (w' ++ comma :: t)) =
        (w ++ quote :: (body ++ quote :: w')) ++ ([comma] ++ t) := by simp
    rw [hsplit, scanFrom_append, scanFrom_string h hw hbody hw', scanFrom_append,
      scanFrom_prose h hcomma, ih]

lemma scanFrom_arrayBody {state : BracketScanState} (h : state.Plain) {items : List JavaText} {t : JavaText}
    (hbody : ArrayBody items t) (index : ℕ) : state.scanFrom index t = state := by
  cases hbody with
  | empty hw => exact scanFrom_prose h (prose_of_spaces hw) index
  | elements helements => exact scanFrom_elements h helements index

/-- The brackets of the array are the last range that is closed. -/
lemma scanFrom_array {pre inner post : JavaText} {items : List JavaText} (hpre : Prose pre)
    (hinner : ArrayBody items inner) (hpost : Prose post) :
    (scanFrom {} 0 (pre ++ (arrayText inner ++ post))).lastClosed =
      some ⟨pre.length, pre.length + inner.length + 1⟩ := by
  have hopen : ∀ index, consume {} openBracket index = { depth := 1, currentStart := some index } := fun _ => rfl
  have hclose : ∀ start index, consume { depth := 1, currentStart := some start } closeBracket index =
      { lastClosed := some ⟨start, index⟩ } := fun _ _ => rfl
  rw [scanFrom_append, scanFrom_prose ⟨rfl, rfl⟩ hpre, arrayText, List.cons_append, scanFrom, hopen,
    List.append_assoc, scanFrom_append, scanFrom_arrayBody ⟨rfl, rfl⟩ hinner, List.singleton_append, scanFrom,
    hclose, scanFrom_prose ⟨rfl, rfl⟩ hpost]
  simp
  omega

end BracketScanState

lemma take_drop_middle (pre l post : JavaText) :
    ((pre ++ (l ++ post)).take (pre.length + l.length)).drop pre.length = l := by
  rw [← List.append_assoc, ← List.length_append, List.take_left, List.drop_left]

lemma findLastBalancedJsonArray_eq {pre inner post : JavaText} {items : List JavaText} (hpre : Prose pre)
    (hinner : ArrayBody items inner) (hpost : Prose post) :
    findLastBalancedJsonArray (pre ++ (arrayText inner ++ post)) = some (arrayText inner) := by
  have hblank : isBlank (pre ++ (arrayText inner ++ post)) = false := by
    rw [isBlank, List.all_append, List.all_append, arrayText, List.all_cons]
    have hopen : isWhitespace openBracket = false := by decide
    simp [hopen]
  have hlength : pre.length + inner.length + 1 + 1 = pre.length + (arrayText inner).length := by
    simp [arrayText]
    omega
  rw [findLastBalancedJsonArray, hblank, if_neg Bool.false_ne_true,
    BracketScanState.scanFrom_array hpre hinner hpost, Option.map_some, hlength, take_drop_middle]

/-! ### What the parser returns -/

section Parser

variable {continuesLiteral : UInt16 → Bool} {mapper : ObjectMapper}

lemma startsWithNull_append (h : continuesLiteral openBracket = false) (pre text : JavaText) :
    startsWithNull continuesLiteral (pre ++ openBracket :: text) =
      startsWithNull continuesLiteral pre := by
  have hletters : openBracket ∉ ([0x6E, 0x75, 0x6C, 0x6C] : JavaText) := by decide
  by_cases hprefix : [0x6E, 0x75, 0x6C, 0x6C] <+: pre
  · obtain ⟨rest, rfl⟩ := hprefix
    cases rest with
    | nil => simp [startsWithNull, h]
    | cons c rest => simp [startsWithNull]
  · have hlong : ¬[0x6E, 0x75, 0x6C, 0x6C] <+: pre ++ openBracket :: text := by
      rw [JavaString.prefix_append_cons_iff hletters]
      exact hprefix
    have hfalse : ∀ l : JavaText, ¬[0x6E, 0x75, 0x6C, 0x6C] <+: l →
        startsWithNull continuesLiteral l = false := by
      intro l hl
      rw [startsWithNull, Bool.and_eq_false_iff]
      exact .inl (Bool.eq_false_iff.mpr fun h => hl (List.isPrefixOf_iff_prefix.mp h))
    rw [hfalse _ hlong, hfalse _ hprefix]

lemma isTrimmed_of_isSpace {c : UInt16} (h : isSpace c = true) : isTrimmed c = true := by
  simp only [isSpace, Bool.or_eq_true, beq_iff_eq] at h
  rcases h with ((rfl | rfl) | rfl) | rfl <;> decide

/-- What the text starts with is the prose in front of the array, or the array. -/
lemma parseJsonArray_eq (hmapper : mapper.ReadsFirstValue continuesLiteral) {pre inner post : JavaText}
    {items : List JavaText} (hpre : Prose pre) (hstart : ∀ c l, pre = c :: l → isTrimmed c = false)
    (hinner : ArrayBody items inner) (hpost : Prose post) :
    parseJsonArray mapper (pre ++ (arrayText inner ++ post)) =
      if startsWithNull continuesLiteral pre then none else some items := by
  have harray : ArrayText items (arrayText inner) := ⟨inner, hinner, rfl⟩
  cases pre with
  | nil =>
    rw [List.nil_append, parseJsonArray, hmapper.array items _ post harray]
    rfl
  | cons c pre =>
    have hnull := startsWithNull_append hmapper.bracket (c :: pre) (inner ++ [closeBracket] ++ post)
    rw [← List.cons_append, ← arrayText] at hnull
    cases hcase : startsWithNull continuesLiteral (c :: pre) with
    | true =>
      rw [hcase] at hnull
      rw [parseJsonArray, hmapper.null _ hnull, if_pos rfl]
    | false =>
      rw [hcase] at hnull
      obtain ⟨hopen, -, -, hquote⟩ := hpre c List.mem_cons_self
      have hspace : isSpace c = false := by
        apply Bool.eq_false_iff.mpr
        intro htrue
        have htrimmed := isTrimmed_of_isSpace htrue
        rw [hstart c pre rfl] at htrimmed
        cases htrimmed
      obtain ⟨e, he⟩ := hmapper.refuses c (pre ++ (arrayText inner ++ post)) hspace hopen hquote hnull
      have hread := hmapper.array items _ [] harray
      rw [List.append_nil] at hread
      rw [parseJsonArray, List.cons_append, he, ← List.cons_append]
      simp only [extractEmbeddedJsonArray, findLastBalancedJsonArray_eq hpre hinner hpost, hread]
      rfl

end Parser

/-! ### What is left of a fenced array -/

/-- The prose in front of the array, when the parser sees it. -/
def opening (pre : JavaText) : JavaText :=
  let front := stripLeading pre
  stripLeading (if fenceJson.isPrefixOf front then remove fenceJson front else front)

/-- The text opens with a fence that names its language, and loses every such fence. -/
def opensFence (pre : JavaText) : Bool := fenceJson.isPrefixOf (stripLeading pre)

lemma fenceJson_ne_nil : fenceJson ≠ [] := List.cons_ne_nil _ _

lemma mem_of_mem_opening {pre : JavaText} {c : UInt16} (h : c ∈ opening pre) : c ∈ pre := by
  have hc := mem_of_mem_stripLeading h
  split at hc
  · exact mem_of_mem_stripLeading (mem_of_mem_remove fenceJson_ne_nil hc)
  · exact mem_of_mem_stripLeading hc

lemma Prose.of_subset {a b : JavaText} (h : Prose a) (hsub : ∀ c ∈ b, c ∈ a) : Prose b :=
  fun c hc => h c (hsub c hc)

lemma prose_opening {pre : JavaText} (h : Prose pre) : Prose (opening pre) :=
  h.of_subset fun _ => mem_of_mem_opening

lemma arrayText_append (inner post : JavaText) :
    arrayText inner ++ post = openBracket :: (inner ++ closeBracket :: post) := by
  simp [arrayText]

lemma trim_array (pre inner post : JavaText) :
    trim (pre ++ (arrayText inner ++ post)) = stripLeading pre ++ (arrayText inner ++ stripTrailing post) := by
  have hopen : isTrimmed openBracket = false := by decide
  have hclose : isTrimmed closeBracket = false := by decide
  rw [arrayText_append, trim_append_cons hopen hclose, ← arrayText_append]

/-- No fence reaches over a bracket. -/
lemma remove_array (pre inner post : JavaText) :
    remove fenceJson (pre ++ (arrayText inner ++ post)) =
      remove fenceJson pre ++ (arrayText (remove fenceJson inner) ++ remove fenceJson post) := by
  have hopen : openBracket ∉ fenceJson := by decide
  have hclose : closeBracket ∉ fenceJson := by decide
  rw [arrayText_append, remove_append_cons fenceJson_ne_nil hopen, remove_append_cons fenceJson_ne_nil hclose,
    ← arrayText_append]

lemma isPrefixOf_array (pre inner post : JavaText) :
    fenceJson.isPrefixOf (pre ++ (arrayText inner ++ post)) = fenceJson.isPrefixOf pre := by
  have hopen : openBracket ∉ fenceJson := by decide
  rw [Bool.eq_iff_iff, List.isPrefixOf_iff_prefix, List.isPrefixOf_iff_prefix, arrayText_append,
    JavaString.prefix_append_cons_iff hopen]

/-- The closing fence is cut off the prose behind the array. -/
lemma closeFence_array (pre inner : JavaText) {post : JavaText} (hpost : Prose post) :
    ∃ post', Prose post' ∧
      trim (if fence.isSuffixOf (pre ++ (arrayText inner ++ post)) then
          (pre ++ (arrayText inner ++ post)).take
            ((lastIndexOf fence (pre ++ (arrayText inner ++ post))).getD 0)
        else pre ++ (arrayText inner ++ post)) =
      stripLeading pre ++ (arrayText inner ++ post') := by
  have hclose : closeBracket ∉ fence := by decide
  split
  · rename_i hsuffix
    rw [List.isSuffixOf_iff_suffix, arrayText_append, ← List.cons_append, ← List.append_assoc,
      JavaString.suffix_append_cons_iff hclose] at hsuffix
    obtain ⟨rest, rfl⟩ := hsuffix
    have hassoc : pre ++ (arrayText inner ++ (rest ++ fence)) = (pre ++ (arrayText inner ++ rest)) ++ fence := by
      simp
    refine ⟨stripTrailing rest, ?_, ?_⟩
    · apply hpost.of_subset
      intro c hc
      exact List.mem_append_left _ (mem_of_mem_stripTrailing hc)
    · rw [hassoc, lastIndexOf_append_self (by decide), Option.getD_some, List.take_left, trim_array]
  · exact ⟨stripTrailing post, hpost.of_subset fun c => mem_of_mem_stripTrailing, trim_array pre inner post⟩

/-- The fences are taken off around the array, and the first one out of it. -/
lemma removeMarkdownCodeBlocks_array (pre inner : JavaText) {post : JavaText} (hpost : Prose post) :
    ∃ post', Prose post' ∧ removeMarkdownCodeBlocks (trim (pre ++ (arrayText inner ++ post))) =
      opening pre ++ (arrayText (if opensFence pre then remove fenceJson inner else inner) ++ post') := by
  have hback : Prose (stripTrailing post) := hpost.of_subset fun c => mem_of_mem_stripTrailing
  rw [trim_array]
  unfold removeMarkdownCodeBlocks opening opensFence
  simp only [isPrefixOf_array, remove_array]
  cases fenceJson.isPrefixOf (stripLeading pre) with
  | true =>
    simp only [if_true]
    apply closeFence_array
    exact hback.of_subset fun c => mem_of_mem_remove fenceJson_ne_nil
  | false =>
    simp only [Bool.false_eq_true, if_false]
    exact closeFence_array _ _ hback

/-! ### A fence in a fact -/

def total (items : List JavaText) : ℕ := items.flatten.length

/-- A pattern without a backslash at the start of a text of a string is the start of the string. -/
lemma exists_of_prefix {p : JavaText} (hp : backslash ∉ p) {s l : JavaText} (h : StringBody s (p ++ l)) :
    ∃ s', s = p ++ s' ∧ StringBody s' l := by
  induction p generalizing s with
  | nil => exact ⟨s, rfl, h⟩
  | cons d p ih =>
    generalize hbody : d :: p ++ l = body at h
    cases h with
    | nil => cases hbody
    | @cons c s t body hc hrest =>
      rcases hc.cases with ⟨rfl, -⟩ | ⟨e, rest, rfl, -⟩
      · obtain ⟨rfl, rfl⟩ := List.cons.inj hbody
        obtain ⟨s', rfl, hs'⟩ := ih (fun hmem => hp (List.mem_cons_of_mem _ hmem)) hrest
        exact ⟨s', rfl, hs'⟩
      · obtain ⟨rfl, -⟩ := List.cons.inj hbody
        exact absurd List.mem_cons_self hp

/-- What is left of a text of a string is a text of a string, shorter by the same length. -/
lemma remove_stringBody {s body : JavaText} (h : StringBody s body) :
    ∃ s', StringBody s' (remove fenceJson body) ∧
      s'.length + body.length = s.length + (remove fenceJson body).length := by
  have hback : backslash ∉ fenceJson := by decide
  induction hn : body.length using Nat.strong_induction_on generalizing s body with
  | h n ih =>
    by_cases hprefix : fenceJson <+: body
    · obtain ⟨l, rfl⟩ := hprefix
      obtain ⟨s', rfl, hs'⟩ := exists_of_prefix hback h
      rw [List.length_append] at hn
      have hpos := List.length_pos_of_ne_nil fenceJson_ne_nil
      obtain ⟨s'', hs'', hlength⟩ := ih l.length (by omega) hs' rfl
      refine ⟨s'', ?_, ?_⟩
      · rw [remove_append_self fenceJson_ne_nil]
        exact hs''
      · rw [remove_append_self fenceJson_ne_nil, List.length_append]
        omega
    · cases h with
      | nil => exact ⟨[], .nil, by simp at hn; simp [← hn]⟩
      | @cons c s t body hc hrest =>
        have hkept : remove fenceJson (t ++ body) = t ++ remove fenceJson body := by
          rcases hc.cases with ⟨rfl, -⟩ | ⟨e, rest, rfl, -, hgrave⟩
          · exact remove_cons hprefix
          · exact remove_append_of_notMem hgrave body
        have hpos : 0 < t.length := by
          rcases hc.cases with ⟨rfl, -⟩ | ⟨e, rest, rfl, -⟩ <;> simp
        rw [List.length_append] at hn
        obtain ⟨s', hs', hlength⟩ := ih body.length (by omega) hrest rfl
        refine ⟨c :: s', ?_, ?_⟩
        · rw [hkept]
          exact .cons hc hs'
        · rw [hkept, List.length_append, List.length_cons, List.length_cons]
          omega

lemma remove_spaces {w : JavaText} (h : Spaces w) : remove fenceJson w = w := by
  have hgrave : 0x60 ∉ w := fun hmem => (isSpace_ne (h _ hmem)).2.2.2.2.2 rfl
  have hw := remove_append_of_notMem (q := [0x60, 0x60, 0x6A, 0x73, 0x6F, 0x6E]) hgrave []
  rwa [remove_nil, List.append_nil] at hw

lemma remove_elements {items : List JavaText} {t : JavaText} (h : Elements items t) :
    ∃ items', Elements items' (remove fenceJson t) ∧
      total items' + t.length = total items + (remove fenceJson t).length := by
  have hquote : quote ∉ fenceJson := by decide
  have hcomma : comma ∉ fenceJson := by decide
  have hcut := fun {c : UInt16} => remove_append_cons fenceJson_ne_nil (c := c)
  induction h with
  | @last s body w w' hw hbody hw' =>
    obtain ⟨s', hs', hlength⟩ := remove_stringBody hbody
    refine ⟨[s'], ?_, ?_⟩
    · rw [hcut hquote, hcut hquote, remove_spaces hw, remove_spaces hw']
      exact .last hw hs' hw'
    · rw [hcut hquote, hcut hquote, remove_spaces hw, remove_spaces hw']
      simp only [total, List.flatten_singleton, List.length_append, List.length_cons]
      omega
  | @more s body w w' items t hw hbody hw' _ ih =>
    obtain ⟨s', hs', hlength⟩ := remove_stringBody hbody
    obtain ⟨items', hitems', htotal⟩ := ih
    refine ⟨s' :: items', ?_, ?_⟩
    · rw [hcut hquote, hcut hquote, hcut hcomma, remove_spaces hw, remove_spaces hw']
      exact .more hw hs' hw' hitems'
    · rw [hcut hquote, hcut hquote, hcut hcomma, remove_spaces hw, remove_spaces hw']
      simp only [total, List.flatten_cons, List.length_append, List.length_cons] at htotal ⊢
      omega

lemma remove_arrayBody {items : List JavaText} {t : JavaText} (h : ArrayBody items t) :
    ∃ items', ArrayBody items' (remove fenceJson t) ∧
      total items' + t.length = total items + (remove fenceJson t).length := by
  cases h with
  | empty hw =>
    rw [remove_spaces hw]
    exact ⟨[], .empty hw, rfl⟩
  | elements helements =>
    obtain ⟨items', hitems', htotal⟩ := remove_elements helements
    exact ⟨items', .elements hitems', htotal⟩

/-! ### Extraction undoes the encoding -/

/-- What keeps the facts: there are none, or no fence that names its language is taken out of them and
the text does not start with `null`. -/
def KeepsFacts (continuesLiteral : UInt16 → Bool) (facts : List JavaText) (json pre : JavaText) : Prop :=
  facts = [] ∨ ((opensFence pre = true → ¬fenceJson <:+: json) ∧
    startsWithNull continuesLiteral (opening pre) = false)

section Extraction

variable {continuesLiteral : UInt16 → Bool} {mapper : ObjectMapper}

lemma hasText_array (pre inner post : JavaText) : hasText (pre ++ (arrayText inner ++ post)) = true := by
  have hopen : isWhitespace openBracket = false := by decide
  rw [hasText, isBlank, List.all_append, List.all_append, arrayText, List.all_cons, hopen]
  simp

/-- The facts that are extracted: none after `null`, else those of the array without its fences. -/
lemma extractFactsFromJson_array (hmapper : mapper.ReadsFirstValue continuesLiteral)
    {pre inner post : JavaText} (hpre : Prose pre) (hpost : Prose post) {items : List JavaText}
    (hinner : ArrayBody items (if opensFence pre then remove fenceJson inner else inner)) :
    extractFactsFromJson mapper (some (pre ++ (arrayText inner ++ post))) =
      if startsWithNull continuesLiteral (opening pre) then [] else items := by
  obtain ⟨post', hpost', hcleaned⟩ := removeMarkdownCodeBlocks_array pre inner hpost
  have hparsed := parseJsonArray_eq hmapper (prose_opening hpre) (fun c l => stripLeading_head) hinner hpost'
  unfold extractFactsFromJson
  rw [Option.filter_some, if_pos (hasText_array pre inner post), Option.map_some, Option.map_some,
    Option.bind_some, hcleaned, hparsed]
  split <;> rfl

lemma infix_arrayText_iff (inner : JavaText) : fenceJson <:+: arrayText inner ↔ fenceJson <:+: inner := by
  have hopen : openBracket ∉ fenceJson := by decide
  have hclose : closeBracket ∉ fenceJson := by decide
  have hnil : ¬fenceJson <:+: [] := by decide
  have hhead := JavaString.infix_append_cons_iff (q := []) (l := inner ++ [closeBracket]) hopen
  have htail := JavaString.infix_append_cons_iff (q := inner) (l := []) hclose
  rw [List.nil_append] at hhead
  rw [arrayText, hhead, htail]
  simp [hnil]

lemma not_infix_of_noFacts {inner : JavaText} (h : ArrayBody [] inner) : ¬fenceJson <:+: inner := by
  intro hinfix
  cases h with
  | empty hw =>
    have hgrave : 0x60 ∈ inner := hinfix.subset List.mem_cons_self
    exact (isSpace_ne (hw _ hgrave)).2.2.2.2.2 rfl
  | elements helements => cases helements

lemma extractFacts_eq_iff (hmapper : mapper.ReadsFirstValue continuesLiteral) {facts : List JavaText}
    {json pre post : JavaText} (hjson : ArrayText facts json) (hpre : Prose pre) (hpost : Prose post) :
    extractFactsFromJson mapper (some (pre ++ (json ++ post))) = facts ↔
      KeepsFacts continuesLiteral facts json pre := by
  obtain ⟨inner, hinner, rfl⟩ := hjson
  have hitems : ∃ items, ArrayBody items (if opensFence pre then remove fenceJson inner else inner) ∧
      (items = facts ↔ (opensFence pre = true → ¬fenceJson <:+: arrayText inner)) := by
    cases hopens : opensFence pre with
    | false =>
      simp only [Bool.false_eq_true, if_false]
      exact ⟨facts, hinner, by simp⟩
    | true =>
      simp only [if_true, forall_const, infix_arrayText_iff]
      by_cases hfence : fenceJson <:+: inner
      · obtain ⟨items, hitems, htotal⟩ := remove_arrayBody hinner
        refine ⟨items, hitems, ?_⟩
        have hlt := length_remove_lt fenceJson_ne_nil hfence
        simp only [hfence, not_true, iff_false]
        rintro rfl
        omega
      · rw [remove_eq_self fenceJson_ne_nil hfence]
        exact ⟨facts, hinner, by simp [hfence]⟩
  obtain ⟨items, hitems, hsame⟩ := hitems
  rw [extractFactsFromJson_array hmapper hpre hpost hitems, KeepsFacts, ← hsame]
  cases hnull : startsWithNull continuesLiteral (opening pre) with
  | true =>
    simp only [if_true, Bool.true_eq_false, and_false, or_false]
    exact eq_comm
  | false =>
    simp only [Bool.false_eq_true, if_false, and_true]
    refine ⟨.inr, ?_⟩
    rintro (rfl | h)
    · apply hsame.mpr
      rw [infix_arrayText_iff]
      exact fun _ => not_infix_of_noFacts hinner
    · exact h

/-! ### The shapes of an answer -/

/-- White space as `trim` or as `Character.isWhitespace` understands it. -/
def Whitespace (w : JavaText) : Prop := ∀ c ∈ w, isTrimmed c = true ∨ isWhitespace c = true

lemma Whitespace.notMem {w : JavaText} (h : Whitespace w) {c : UInt16} (htrimmed : isTrimmed c = false)
    (hspace : isWhitespace c = false) : c ∉ w := by
  intro hmem
  have hc := h c hmem
  rw [htrimmed, hspace] at hc
  simp at hc

lemma Whitespace.prose {w : JavaText} (h : Whitespace w) : Prose w := by
  intro c hc
  refine ⟨?_, ?_, ?_, ?_⟩ <;>
  · rintro rfl
    exact h.notMem (by decide) (by decide) hc

lemma prose_of_all {text : JavaText} (h : (text.all fun c => c != openBracket && c != closeBracket &&
    c != backslash && c != quote) = true) : Prose text := by
  intro c hc
  have hc := List.all_eq_true.mp h c hc
  simp only [Bool.and_eq_true, bne_iff_ne] at hc
  exact ⟨hc.1.1.1, hc.1.1.2, hc.1.2, hc.2⟩

lemma prose_fence : Prose fence := prose_of_all (by decide)

lemma prose_fenceJson : Prose fenceJson := prose_of_all (by decide)

lemma Prose.append {a b : JavaText} (ha : Prose a) (hb : Prose b) : Prose (a ++ b) := by
  intro c hc
  rcases List.mem_append.mp hc with hc | hc
  · exact ha c hc
  · exact hb c hc

lemma opensFence_of_notMem {pre : JavaText} (h : 0x6A ∉ pre) : opensFence pre = false := by
  apply Bool.eq_false_iff.mpr
  intro hopens
  have hsub := (List.isPrefixOf_iff_prefix.mp hopens).subset
  have hmem : (0x6A : UInt16) ∈ fenceJson := by decide
  exact h (mem_of_mem_stripLeading (hsub hmem))

lemma startsWithNull_of_notMem {text : JavaText} (h : 0x6E ∉ text) :
    startsWithNull continuesLiteral text = false := by
  apply Bool.eq_false_iff.mpr
  intro hnull
  have hletters := List.isPrefixOf_iff_prefix.mp (Bool.and_eq_true_iff.mp hnull).1
  exact h (hletters.subset List.mem_cons_self)

/-- Without an `n` and a `j` in front of the array there is no `null` and no language. -/
lemma keepsFacts_of_notMem {facts : List JavaText} {json pre : JavaText} (hj : 0x6A ∉ pre) (hn : 0x6E ∉ pre) :
    KeepsFacts continuesLiteral facts json pre := by
  refine .inr ⟨?_, ?_⟩
  · rw [opensFence_of_notMem hj]
    nofun
  · exact startsWithNull_of_notMem fun hmem => hn (mem_of_mem_opening hmem)

lemma keepsFacts_fenceJson_iff {facts : List JavaText} {json w b : JavaText} (hw : Whitespace w)
    (hb : Whitespace b) : KeepsFacts continuesLiteral facts json (w ++ (fenceJson ++ b)) ↔
      facts = [] ∨ (stripLeading w = [] → ¬fenceJson <:+: json) := by
  have hstrip : stripLeading (w ++ (fenceJson ++ b)) =
      if stripLeading w = [] then fenceJson ++ b else stripLeading w ++ (fenceJson ++ b) := by
    unfold stripLeading
    rw [List.dropWhile_append]
    simp only [List.isEmpty_iff]
    rfl
  unfold KeepsFacts opening opensFence
  rw [hstrip]
  cases hfront : stripLeading w with
  | nil =>
    have hopens : fenceJson.isPrefixOf (fenceJson ++ b) = true :=
      List.isPrefixOf_iff_prefix.mpr (List.prefix_append _ _)
    have hn : 0x6E ∉ stripLeading (remove fenceJson b) := fun hmem =>
      hb.notMem (by decide) (by decide) (mem_of_mem_remove fenceJson_ne_nil (mem_of_mem_stripLeading hmem))
    simp only [if_true, hopens, remove_append_self fenceJson_ne_nil, startsWithNull_of_notMem hn, and_true]
  | cons c front =>
    have hc : c ∈ w := mem_of_mem_stripLeading (hfront ▸ List.mem_cons_self)
    have htrimmed := stripLeading_head hfront
    have hgrave : c ≠ 0x60 := by
      rintro rfl
      exact hw.notMem (by decide) (by decide) hc
    have hletter : c ≠ 0x6E := by
      rintro rfl
      exact hw.notMem (by decide) (by decide) hc
    have hopens : fenceJson.isPrefixOf (c :: front ++ (fenceJson ++ b)) = false := by
      simp [fenceJson, List.isPrefixOf, hgrave.symm]
    have hstay : stripLeading (c :: front ++ (fenceJson ++ b)) = c :: front ++ (fenceJson ++ b) := by
      rw [stripLeading, List.cons_append, List.dropWhile_cons, if_neg (by simp [htrimmed])]
    have hnull : startsWithNull continuesLiteral (c :: front ++ (fenceJson ++ b)) = false := by
      simp [startsWithNull, List.isPrefixOf, hletter.symm]
    simp only [List.cons_ne_nil, if_false, hopens, Bool.false_eq_true, hstay, hnull, false_implies, and_self,
      or_true]

end Extraction

/-- The facts come back from their encoding, whatever prose stands around it, exactly when no fence is
taken out of them and no `null` is read in front of them. So they always do from the encoding alone and
from a bare fence, and from a fence with its language unless a fact has such a fence. -/
theorem extractFacts_undoes_encoding {continuesLiteral : UInt16 → Bool} {mapper : ObjectMapper}
    (hmapper : mapper.ReadsFirstValue continuesLiteral) {facts : List JavaText} {json : JavaText}
    (hjson : ArrayText facts json) :
    (∀ pre post, Prose pre → Prose post →
      (extractFactsFromJson mapper (some (pre ++ (json ++ post))) = facts ↔
        KeepsFacts continuesLiteral facts json pre)) ∧
    (∀ w w', Whitespace w → Whitespace w' → extractFactsFromJson mapper (some (w ++ (json ++ w'))) = facts) ∧
    (∀ w b b' w', Whitespace w → Whitespace b → Whitespace b' → Whitespace w' →
      extractFactsFromJson mapper (some (w ++ (fence ++ b) ++ (json ++ (b' ++ (fence ++ w'))))) = facts) ∧
    (∀ w b b' w', Whitespace w → Whitespace b → Whitespace b' → Whitespace w' →
      (extractFactsFromJson mapper (some (w ++ (fenceJson ++ b) ++ (json ++ (b' ++ (fence ++ w'))))) = facts ↔
        facts = [] ∨ (stripLeading w = [] → ¬fenceJson <:+: json))) := by
  have hprose : ∀ {pre post}, Prose pre → Prose post →
      (extractFactsFromJson mapper (some (pre ++ (json ++ post))) = facts ↔
        KeepsFacts continuesLiteral facts json pre) := extractFacts_eq_iff hmapper hjson
  refine ⟨fun pre post => hprose, fun w w' hw hw' => ?_, fun w b b' w' hw hb hb' hw' => ?_,
    fun w b b' w' hw hb hb' hw' => ?_⟩
  · apply (hprose hw.prose hw'.prose).mpr
    exact keepsFacts_of_notMem (hw.notMem (by decide) (by decide)) (hw.notMem (by decide) (by decide))
  · have hpost := hb'.prose.append (prose_fence.append hw'.prose)
    apply (hprose (hw.prose.append (prose_fence.append hb.prose)) hpost).mpr
    have hfree : ∀ c, isTrimmed c = false → isWhitespace c = false → c ∉ fence → c ∉ w ++ (fence ++ b) := by
      intro c htrimmed hspace hfence
      simp [hw.notMem htrimmed hspace, hb.notMem htrimmed hspace, hfence]
    exact keepsFacts_of_notMem (hfree _ (by decide) (by decide) (by decide))
      (hfree _ (by decide) (by decide) (by decide))
  · have hpost := hb'.prose.append (prose_fence.append hw'.prose)
    rw [hprose (hw.prose.append (prose_fenceJson.append hb.prose)) hpost, keepsFacts_fenceJson_iff hw hb]

/-- A fact without a fence comes back from a fenced answer. -/
theorem extractFacts_plainFact :
    extractFactsFromJson stringArrayMapper (some ([] ++ (fenceJson ++ [0x0A]) ++
      (arrayText (quote :: ([0x61] ++ [quote])) ++ ([0x0A] ++ (fence ++ []))))) = [[0x61]] := by
  have hnone : Whitespace [] := nofun
  have hline : Whitespace [0x0A] := by
    intro c hc
    rw [List.mem_singleton.mp hc]
    exact .inl (by decide)
  have hjson : ArrayText [[0x61]] (arrayText (quote :: ([0x61] ++ [quote]))) := arrayText_raw (by decide)
  have hfenced := (extractFacts_undoes_encoding stringArrayMapper_readsFirstValue hjson).2.2.2
  exact (hfenced [] [0x0A] [0x0A] [] hnone hline hline hnone).mpr (.inr fun _ => by decide)

/-- The answer with a fact that is itself an opening fence. -/
def fencedFence : JavaText :=
  fenceJson ++ [0x0A] ++ arrayText (quote :: (fenceJson ++ [quote])) ++ [0x0A] ++ fence

/-- The prose `null: ` in front of an array. -/
def nullProse : JavaText := [0x6E, 0x75, 0x6C, 0x6C, 0x3A, 0x20]

/-- The fence is taken out of the fact, and after `null` the array is not read. -/
theorem encodings_not_undone :
    ArrayText [fenceJson] (arrayText (quote :: (fenceJson ++ [quote]))) ∧
      extractFactsFromJson stringArrayMapper (some fencedFence) = [[]] ∧
      Prose nullProse ∧ ArrayText [[0x61]] (arrayText (quote :: ([0x61] ++ [quote]))) ∧
      extractFactsFromJson stringArrayMapper
        (some (nullProse ++ arrayText (quote :: ([0x61] ++ [quote])))) = [] :=
  ⟨arrayText_raw (by decide), by decide, prose_of_all (by decide), arrayText_raw (by decide), by decide⟩

end AscendAI.SemanticMemory
