import AscendAI.Lib.IpAddress
import AscendAI.Lib.PythonString

/-!
# urllib.parse

How Python's `urlparse` cuts a URL into its parts, and the host that its network location names.
-/

/-- What Python knows of Unicode: `str.lower`, and the texts whose NFKC form has one of `/?#@:`. -/
structure UnicodeData where
  lower : String → String
  unsafeUnderNfkc : String → Bool

namespace PythonUrl
open PythonString

structure ParseResult where
  scheme : String
  netloc : String
  path : String
  query : String
  deriving DecidableEq

/-- `s.partition(c)`: what is before and after the first `c`, and whether there is one. -/
def partition (c : Char) (s : List Char) : List Char × Bool × List Char :=
  match s.dropWhile (· ≠ c) with
  | [] => (s, false, [])
  | _ :: rest => (s.takeWhile (· ≠ c), true, rest)

/-- `s.rpartition(c)[2]`: what is after the last `c`, or everything. -/
def afterLast (c : Char) (s : List Char) : List Char := (s.reverse.takeWhile (· ≠ c)).reverse

def isSchemeChar (c : Char) : Bool := c.isAlphanum || c == '+' || c == '-' || c == '.'

/-- The scheme in front of the first colon, if it is one, and the rest. -/
def splitScheme (scheme url : List Char) : List Char × List Char :=
  match partition ':' url with
  | (start, true, rest) =>
    if start.head?.any Char.isAlpha && start.all isSchemeChar then (start.map Char.toLower, rest) else (scheme, url)
  | (_, false, _) => (scheme, url)

def isNetlocEnd (c : Char) : Bool := c == '/' || c == '?' || c == '#'

lemma isNetlocEnd_iff {c : Char} : isNetlocEnd c ↔ c = '/' ∨ c = '?' ∨ c = '#' := by
  simp [isNetlocEnd, or_assoc]

def splitNetloc (url : List Char) : List Char × List Char :=
  match url with
  | '/' :: '/' :: rest => (rest.takeWhile (!isNetlocEnd ·), rest.dropWhile (!isNetlocEnd ·))
  | _ => ([], url)

/-- A host in brackets is an address of version 6 or of a later version. -/
def checkBracketedHost (hostname : List Char) : Bool :=
  match hostname with
  | 'v' :: rest =>
    match partition '.' rest with
    | (version, true, address) =>
      version ≠ [] && (version.all fun c => (IpAddress.hexValue c).isSome) && address ≠ [] && !address.contains '\n'
    | (_, false, _) => false
  | _ =>
    match IpAddress.ipAddress (String.ofList hostname) with
    | some (.v6 _) => true
    | _ => false

def checkBracketedNetloc (netloc : List Char) : Bool :=
  match partition '[' (afterLast '@' netloc) with
  | (before, true, bracketed) =>
    let after := partition ']' bracketed
    before = [] && (after.2.2 = [] || after.2.2.head? == some ':') && checkBracketedHost after.1
  | (hostname, false, _) => checkBracketedHost (partition ':' hostname).1

def checkNetloc (u : UnicodeData) (netloc : List Char) : Bool :=
  netloc.all (fun c => decide (c.toNat < 128)) || !u.unsafeUnderNfkc (String.ofList
    (netloc.filter fun c => c ≠ '@' ∧ c ≠ ':' ∧ c ≠ '#' ∧ c ≠ '?'))

def usesParams : List String :=
  ["", "ftp", "hdl", "prospero", "http", "https", "shttp", "rtsp", "rtsps", "sip", "sips", "mms", "sftp", "tel"]

/-- The path without the parameters of its last segment. -/
def withoutParams (path : List Char) : List Char :=
  let last := afterLast '/' path
  path.take (path.length - last.length) ++ last.takeWhile (· ≠ ';')

def isTabOrNewline (c : Char) : Bool := c == '\t' || c == '\r' || c == '\n'

lemma isTabOrNewline_iff {c : Char} : isTabOrNewline c ↔ c = '\t' ∨ c = '\r' ∨ c = '\n' := by
  simp [isTabOrNewline, or_assoc]

/-- The URL without control characters in front and without tabs and line breaks. -/
def cleanUrl (url : String) : List Char :=
  (url.toList.dropWhile fun c => decide (c.toNat ≤ 0x20)).filter (!isTabOrNewline ·)

/-- `urlparse(url, scheme)`; the parameters and the fragment are left out. -/
def urlparse (u : UnicodeData) (url : String) (scheme : String) : Except String ParseResult :=
  let split := splitScheme scheme.toList (cleanUrl url)
  let located := splitNetloc split.2
  let netloc := located.1
  if netloc.contains '[' ≠ netloc.contains ']' then .error "Invalid IPv6 URL"
  else if netloc.contains '[' ∧ ¬checkBracketedNetloc netloc then .error "Invalid IPv6 URL"
  else if ¬checkNetloc u netloc then
    .error ("netloc '" ++ String.ofList netloc ++ "' contains invalid characters under NFKC normalization")
  else
    let queried := partition '?' (partition '#' located.2).1
    .ok {
      scheme := String.ofList split.1
      netloc := String.ofList netloc
      path := String.ofList
        (if String.ofList split.1 ∈ usesParams then withoutParams queried.1 else queried.1)
      query := String.ofList queried.2.2 }

/-- The property `hostname` of a parse result. -/
def hostname (u : UnicodeData) (netloc : String) : Option String :=
  let hostinfo := afterLast '@' netloc.toList
  let host :=
    match partition '[' hostinfo with
    | (_, true, bracketed) => (partition ']' bracketed).1
    | (_, false, _) => (partition ':' hostinfo).1
  if host = [] then none
  else
    match partition '%' host with
    | (name, true, zone) => some (u.lower (String.ofList name) ++ String.ofList ('%' :: zone))
    | (name, false, _) => some (u.lower (String.ofList name))

/-- What is in front of the last `@` of a network location. -/
def userinfo (netloc : String) : Option (List Char) :=
  if netloc.toList.contains '@' then
    some (netloc.toList.take (netloc.toList.length - (afterLast '@' netloc.toList).length - 1))
  else none

/-- The property `username` of a parse result. -/
def username (netloc : String) : Option String :=
  (userinfo netloc).map fun info => String.ofList (partition ':' info).1

/-- The property `password` of a parse result. -/
def password (netloc : String) : Option String :=
  (userinfo netloc).bind fun info =>
    match partition ':' info with
    | (_, true, password) => some (String.ofList password)
    | (_, false, _) => none

section Partition

variable {c : Char} {a b : List Char}

@[simp] lemma partition_append_cons (ha : c ∉ a) : partition c (a ++ c :: b) = (a, true, b) := by
  rw [partition, dropWhile_append_cons ha, takeWhile_append_cons ha]

lemma partition_of_notMem (ha : c ∉ a) : partition c a = (a, false, []) := by
  have hdrop : a.dropWhile (· ≠ c) = [] := by
    rw [List.dropWhile_eq_nil_iff]
    exact fun x hx => decide_eq_true fun heq => ha (heq ▸ hx)
  rw [partition, hdrop]

lemma afterLast_append_cons (hb : c ∉ b) : afterLast c (a ++ c :: b) = b := by
  have hreverse : (a ++ c :: b).reverse = b.reverse ++ c :: a.reverse := by simp
  rw [afterLast, hreverse, takeWhile_append_cons (by simpa using hb), List.reverse_reverse]

lemma afterLast_of_notMem (ha : c ∉ a) : afterLast c a = a := by
  have hall : ∀ x ∈ a.reverse, decide (x ≠ c) = true :=
    fun x hx => decide_eq_true fun heq => ha (heq ▸ List.mem_reverse.mp hx)
  rw [afterLast, List.takeWhile_eq_self_iff.mpr hall, List.reverse_reverse]

lemma mem_of_mem_partition {c' : Char} (h : c' ∈ (partition c a).2.2) : c' ∈ a := by
  unfold partition at h
  cases hdrop : a.dropWhile (· ≠ c) with
  | nil =>
    rw [hdrop] at h
    cases h
  | cons found rest =>
    rw [hdrop] at h
    have hmem : c' ∈ a.dropWhile (· ≠ c) := hdrop ▸ List.mem_cons_of_mem _ h
    exact (List.dropWhile_sublist _).subset hmem

lemma partition_fst : (partition c a).1 = a.takeWhile (· ≠ c) := by
  unfold partition
  cases hdrop : a.dropWhile (· ≠ c) with
  | nil =>
    have hall := List.takeWhile_append_dropWhile (p := (· ≠ c)) (l := a)
    rw [hdrop, List.append_nil] at hall
    exact hall.symm
  | cons found rest => rfl

lemma mem_of_mem_afterLast {c' : Char} (h : c' ∈ afterLast c a) : c' ∈ a :=
  List.mem_reverse.mp ((List.takeWhile_sublist _).subset (List.mem_reverse.mp h))

end Partition

section Netloc

variable {u : UnicodeData} {url scheme : String} {r : ParseResult} {c : Char}

lemma mem_of_mem_splitScheme {scheme url : List Char} (h : c ∈ (splitScheme scheme url).2) : c ∈ url := by
  unfold splitScheme at h
  cases hpartition : partition ':' url with
  | mk start found =>
    obtain ⟨found, rest⟩ := found
    rw [hpartition] at h
    cases found with
    | false => exact h
    | true =>
      simp only at h
      split at h
      · apply mem_of_mem_partition (c := ':')
        rw [hpartition]
        exact h
      · exact h

/-- What does not start with a letter has no scheme. -/
lemma splitScheme_of_not_isAlpha (hc : c.isAlpha = false) (scheme url : List Char) :
    splitScheme scheme (c :: url) = (scheme, c :: url) := by
  have hhead : (partition ':' (c :: url)).1.head?.any Char.isAlpha = false := by
    rw [partition_fst]
    by_cases hcolon : c = ':'
    · simp [hcolon]
    · simp [hcolon, hc]
  unfold splitScheme
  generalize partition ':' (c :: url) = parts at hhead
  obtain ⟨start, found, rest⟩ := parts
  cases found with
  | false => rfl
  | true => simp only [hhead, Bool.false_and, Bool.false_eq_true, if_false]

lemma splitNetloc_eq {url : List Char} (h : c ∈ (splitNetloc url).1) : isNetlocEnd c = false ∧ c ∈ url := by
  unfold splitNetloc at h
  split at h
  · rename_i rest
    have hmem := (List.takeWhile_sublist _).subset h
    exact ⟨by simpa using List.mem_takeWhile_imp h, List.mem_cons_of_mem _ (List.mem_cons_of_mem _ hmem)⟩
  · cases h

lemma netloc_of_urlparse (h : urlparse u url scheme = .ok r) :
    r.netloc.toList = (splitNetloc (splitScheme scheme.toList (cleanUrl url)).2).1 := by
  unfold urlparse at h
  simp only at h
  split at h
  · cases h
  · split at h
    · cases h
    · split at h
      · cases h
      · obtain rfl := Except.ok.inj h
        exact String.toList_ofList

/-- A network location has none of the characters that end it. -/
lemma isNetlocEnd_of_urlparse (h : urlparse u url scheme = .ok r) (hc : c ∈ r.netloc.toList) :
    isNetlocEnd c = false := by
  rw [netloc_of_urlparse h] at hc
  exact (splitNetloc_eq hc).1

lemma isTabOrNewline_of_urlparse (h : urlparse u url scheme = .ok r) (hc : c ∈ r.netloc.toList) :
    isTabOrNewline c = false := by
  rw [netloc_of_urlparse h] at hc
  have hmem := mem_of_mem_splitScheme (splitNetloc_eq hc).2
  simpa using (List.mem_filter.mp hmem).2

/-- The network location of a text behind `//`. -/
lemma netloc_of_slashes (h : urlparse u ("//" ++ url) scheme = .ok r) :
    r.netloc.toList = (url.toList.filter (!isTabOrNewline ·)).takeWhile (!isNetlocEnd ·) := by
  have hclean : cleanUrl ("//" ++ url) = '/' :: '/' :: url.toList.filter (!isTabOrNewline ·) := by
    simp [cleanUrl, String.toList_append, isTabOrNewline]
  rw [netloc_of_urlparse h, hclean, splitScheme_of_not_isAlpha (by decide)]
  rfl

end Netloc

end PythonUrl

/-- Facts of `str.lower`: the ASCII characters that are no letters stay and come from no other character,
and neither one of them in front, a port behind a host nor a user name in front of it changes how the rest
is lowered. -/
structure UnicodeData.Lawful (u : UnicodeData) : Prop where
  mem_lower_iff : ∀ s c, c.toNat < 128 → c.isAlpha = false → (c ∈ (u.lower s).toList ↔ c ∈ s.toList)
  lower_eq_empty_iff : ∀ s, u.lower s = "" ↔ s = ""
  lower_cons : ∀ c s, c.toNat < 128 → c.isAlpha = false →
    (u.lower (String.ofList (c :: s))).toList = c :: (u.lower (String.ofList s)).toList
  lower_port : ∀ a b, (∀ c ∈ b.toList, c.isDigit) → u.lower (a ++ ":" ++ b) = u.lower a ++ ":" ++ b
  lower_userinfo : ∀ a b, u.lower (a ++ "@" ++ b) = u.lower a ++ "@" ++ u.lower b

section Ascii

def asciiLower (c : Char) : Char := if 65 ≤ c.toNat ∧ c.toNat ≤ 90 then Char.ofNat (c.toNat + 32) else c

/-- Unicode restricted to ASCII. -/
def asciiData : UnicodeData where
  lower s := String.ofList (s.toList.map asciiLower)
  unsafeUnderNfkc _ := false

lemma isAlpha_asciiLower {c : Char} (h : asciiLower c ≠ c) : (asciiLower c).isAlpha := by
  have hrange : 65 ≤ c.toNat ∧ c.toNat ≤ 90 := by
    by_contra hnot
    exact h (if_neg hnot)
  have hall : ∀ n < 26, (Char.ofNat (65 + n + 32)).isAlpha := by decide
  have hletter := hall (c.toNat - 65) (by omega)
  rw [asciiLower, if_pos hrange]
  rwa [Nat.add_sub_cancel' hrange.1] at hletter

lemma isUpper_of_range {c : Char} (h : 65 ≤ c.toNat ∧ c.toNat ≤ 90) : c.isUpper := by
  apply decide_eq_true
  exact ⟨UInt32.le_iff_toNat_le.mpr h.1, UInt32.le_iff_toNat_le.mpr h.2⟩

lemma asciiLower_of_not_isAlpha {c : Char} (h : c.isAlpha = false) : asciiLower c = c := by
  refine if_neg fun hrange => ?_
  have halpha : c.isAlpha = true := by
    change (c.isUpper || c.isLower) = true
    rw [isUpper_of_range hrange, Bool.true_or]
  rw [h] at halpha
  cases halpha

lemma isAlpha_of_isDigit {c : Char} (h : c.isDigit) : c.isAlpha = false := by
  have hle : c.toNat ≤ 57 := (Char.isDigit_iff_toNat.mp h).2
  have hupper : c.isUpper = false := by
    refine decide_eq_false fun hrange => ?_
    exact absurd ((UInt32.le_iff_toNat_le.mp hrange.1).trans hle) (by decide)
  have hlower : c.isLower = false := by
    have hnot : ¬ 'a'.val ≤ c.val := fun h => absurd ((UInt32.le_iff_toNat_le.mp h).trans hle) (by decide)
    change (decide ('a'.val ≤ c.val) && decide (c.val ≤ 'z'.val)) = false
    rw [decide_eq_false hnot, Bool.false_and]
  change (c.isUpper || c.isLower) = false
  rw [hupper, hlower, Bool.or_false]

theorem asciiData_lawful : asciiData.Lawful where
  mem_lower_iff := by
    intro s c _ halpha
    simp only [asciiData, String.toList_ofList, List.mem_map]
    constructor
    · rintro ⟨c', hmem, rfl⟩
      by_cases hsame : asciiLower c' = c'
      · rwa [hsame]
      · rw [isAlpha_asciiLower hsame] at halpha
        cases halpha
    · intro hmem
      exact ⟨c, hmem, asciiLower_of_not_isAlpha halpha⟩
  lower_eq_empty_iff := by
    intro s
    rw [← String.toList_inj, ← String.toList_inj]
    simp [asciiData]
  lower_cons := by
    intro c s _ halpha
    simp only [asciiData, String.toList_ofList, List.map_cons, asciiLower_of_not_isAlpha halpha]
  lower_port := by
    intro a b hdigit
    have hport : b.toList.map asciiLower = b.toList := by
      rw [List.map_congr_left fun c hc => asciiLower_of_not_isAlpha (isAlpha_of_isDigit (hdigit c hc)), List.map_id']
    simp only [asciiData, ← String.toList_inj, String.toList_append, String.toList_ofList, List.map_append, hport]
    rfl
  lower_userinfo := by
    intro a b
    simp only [asciiData, ← String.toList_inj, String.toList_append, String.toList_ofList, List.map_append]
    rfl

end Ascii
