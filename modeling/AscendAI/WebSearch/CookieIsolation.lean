import AscendAI.Lib.LastWrite
import AscendAI.WebSearch.CookieManager

/-!
# Isolation of session cookies

For URLs whose network location has no password and no host in brackets, the key of the cookies tells the
site of the host, so what is saved for other sites never changes what a site is sent.
-/

namespace AscendAI.WebSearch
open PythonUrl Runs LastWrite

variable {u : UnicodeData} {tld : TldExtract}

/-- The host that a URL is fetched from. A URL without a scheme is fetched from the host behind `//`. -/
def hostOf (u : UnicodeData) (url : String) : Option String :=
  match authority u url with
  | .error _ => none
  | .ok netloc => hostname u netloc

/-- The registrable domain of the host, or the host when it has none. -/
def siteOf (u : UnicodeData) (tld : TldExtract) (url : String) : Option String := (hostOf u url).map tld.apex

/-- A network location `[user@]host[:port]` with a plain host and a numeric port. The user name has no
colon, so there is no password. -/
structure PlainNetloc where
  userinfo : Option String
  host : String
  port : Option String
  userinfo_colon : ∀ user ∈ userinfo, ':' ∉ user.toList
  host_ne_empty : host ≠ ""
  host_plain : ∀ c ∈ [':', '@', '[', '%'], c ∉ host.toList
  port_digits : ∀ digits ∈ port, ∀ c ∈ digits.toList, c.isDigit

/-- The network location with its port cut off. -/
def PlainNetloc.userHost (p : PlainNetloc) : String := (p.userinfo.map (· ++ "@")).getD "" ++ p.host

def PlainNetloc.text (p : PlainNetloc) : String := p.userHost ++ (p.port.map (":" ++ ·)).getD ""

/-- The URL is fetched from a host that its network location spells out. -/
def PlainUrl (u : UnicodeData) (url : String) : Prop := ∃ p : PlainNetloc, authority u url = .ok p.text

/-- The URL does not parse, or has no network location. -/
def Hostless (u : UnicodeData) (url : String) : Prop := ∀ netloc, authority u url = .ok netloc → netloc = ""

section Authority

lemma authority_cases {url netloc : String} (h : authority u url = .ok netloc) :
    ∃ text scheme parsed, urlparse u text scheme = .ok parsed ∧ parsed.netloc = netloc := by
  unfold authority at h
  cases hparsed : urlparse u url "" with
  | error e =>
    rw [hparsed] at h
    cases h
  | ok parsed =>
    simp only [hparsed] at h
    by_cases hnetloc : parsed.netloc ≠ ""
    · rw [if_pos hnetloc] at h
      exact ⟨_, _, parsed, hparsed, Except.ok.inj h⟩
    · rw [if_neg hnetloc] at h
      cases hagain : urlparse u ("//" ++ url) "http" with
      | error e =>
        rw [hagain] at h
        cases h
      | ok parsed =>
        rw [hagain] at h
        exact ⟨_, _, parsed, hagain, Except.ok.inj h⟩

lemma isNetlocEnd_of_authority {url netloc : String} (h : authority u url = .ok netloc) {c : Char}
    (hc : c ∈ netloc.toList) : isNetlocEnd c = false := by
  obtain ⟨text, scheme, parsed, hparsed, rfl⟩ := authority_cases h
  exact isNetlocEnd_of_urlparse hparsed hc

lemma isTabOrNewline_of_authority {url netloc : String} (h : authority u url = .ok netloc) {c : Char}
    (hc : c ∈ netloc.toList) : isTabOrNewline c = false := by
  obtain ⟨text, scheme, parsed, hparsed, rfl⟩ := authority_cases h
  exact isTabOrNewline_of_urlparse hparsed hc

/-- A URL without a network location starts, tabs and line breaks aside, where one would end. -/
lemma takeWhile_of_authority {url : String} (h : authority u url = .ok "") :
    (url.toList.filter (!isTabOrNewline ·)).takeWhile (!isNetlocEnd ·) = [] := by
  unfold authority at h
  cases hparsed : urlparse u url "" with
  | error e =>
    rw [hparsed] at h
    cases h
  | ok parsed =>
    simp only [hparsed] at h
    by_cases hnetloc : parsed.netloc ≠ ""
    · rw [if_pos hnetloc] at h
      exact absurd (Except.ok.inj h) hnetloc
    · rw [if_neg hnetloc] at h
      cases hagain : urlparse u ("//" ++ url) "http" with
      | error e =>
        rw [hagain] at h
        cases h
      | ok parsed =>
        rw [hagain] at h
        have hempty : parsed.netloc = "" := Except.ok.inj h
        rw [← netloc_of_slashes hagain, hempty, String.toList_empty]

variable (p : PlainNetloc)

lemma PlainNetloc.colon_notMem_userHost : ':' ∉ p.userHost.toList := by
  have hhost : ':' ∉ p.host.toList := p.host_plain ':' (by simp)
  unfold PlainNetloc.userHost
  cases huser : p.userinfo with
  | none => simpa using hhost
  | some user =>
    have hnot := p.userinfo_colon user (by simp [huser])
    simp [String.toList_append, hnot, hhost]

/-- Without its port, the lowered network location is the lowered user name and host. -/
lemma PlainNetloc.partition_lower (hu : u.Lawful) :
    String.ofList (partition ':' (u.lower p.text).toList).1 = u.lower p.userHost := by
  have hcolon : ':' ∉ (u.lower p.userHost).toList := fun hmem =>
    p.colon_notMem_userHost ((hu.mem_lower_iff _ ':' (by decide) (by decide)).mp hmem)
  cases hport : p.port with
  | none =>
    have htext : p.text = p.userHost := by simp [PlainNetloc.text, hport]
    rw [htext, partition_of_notMem hcolon, String.ofList_toList]
  | some digits =>
    have htext : p.text = p.userHost ++ ":" ++ digits := by simp [PlainNetloc.text, hport, String.append_assoc]
    have hlist : (u.lower p.userHost ++ ":" ++ digits).toList =
        (u.lower p.userHost).toList ++ ':' :: digits.toList := by
      simp [String.toList_append]
    rw [htext, hu.lower_port _ _ (p.port_digits digits (by simp [hport])), hlist, partition_append_cons hcolon,
      String.ofList_toList]

/-- What is behind the last `@`. -/
lemma PlainNetloc.afterLast_text :
    afterLast '@' p.text.toList = p.host.toList ++ ((p.port.map (":" ++ ·)).getD "").toList := by
  have hrest : '@' ∉ p.host.toList ++ ((p.port.map (":" ++ ·)).getD "").toList := by
    rw [List.mem_append, not_or]
    refine ⟨p.host_plain '@' (by simp), ?_⟩
    cases hport : p.port with
    | none => simp
    | some digits =>
      have hdigit := p.port_digits digits (by simp [hport])
      have hnot : '@' ∉ digits.toList := fun hmem => absurd (hdigit _ hmem) (by decide)
      simp [String.toList_append, hnot]
  unfold PlainNetloc.text PlainNetloc.userHost
  cases huser : p.userinfo with
  | none => simpa [String.toList_append] using afterLast_of_notMem hrest
  | some user =>
    simp only [Option.map_some, Option.getD_some, String.toList_append, List.append_assoc]
    exact afterLast_append_cons hrest

lemma PlainNetloc.hostname_text : hostname u p.text = some (u.lower p.host) := by
  have hport : (partition ':' (p.host.toList ++ ((p.port.map (":" ++ ·)).getD "").toList)).1 = p.host.toList := by
    have hcolon : ':' ∉ p.host.toList := p.host_plain ':' (by simp)
    cases hport : p.port with
    | none => simp [partition_of_notMem hcolon]
    | some digits => simp [String.toList_append, partition_append_cons hcolon]
  have hbracket : '[' ∉ p.host.toList ++ ((p.port.map (":" ++ ·)).getD "").toList := by
    have hhost : '[' ∉ p.host.toList := p.host_plain '[' (by simp)
    cases hport : p.port with
    | none => simpa using hhost
    | some digits =>
      have hdigit := p.port_digits digits (by simp [hport])
      have hnot : '[' ∉ digits.toList := fun hmem => absurd (hdigit _ hmem) (by decide)
      simp [String.toList_append, hhost, hnot]
  have hpercent : '%' ∉ p.host.toList := p.host_plain '%' (by simp)
  have hne : p.host.toList ≠ [] := by simpa using p.host_ne_empty
  simp only [hostname, p.afterLast_text, partition_of_notMem hbracket, hport, if_neg hne,
    partition_of_notMem hpercent, String.ofList_toList]

end Authority

section Key

lemma TldExtract.Lawful.mem_host_of_apex (htld : tld.Lawful) {host : String} {c : Char} (hdot : c ≠ '.')
    (hc : c ∈ (tld.apex host).toList) : c ∈ host.toList := by
  unfold TldExtract.apex at hc
  by_cases hextracted : (tld.extract host).domain ≠ "" ∧ (tld.extract host).suffix ≠ ""
  · simp only [if_pos hextracted, String.toList_append, List.mem_append] at hc
    rcases hc with (hc | hc) | hc
    · exact htld.mem_host host c hdot (Or.inl hc)
    · exact absurd (by simpa using hc) hdot
    · exact htld.mem_host host c hdot (Or.inr hc)
  · simpa only [if_neg hextracted] using hc

lemma TldExtract.Lawful.at_notMem_apex (htld : tld.Lawful) {host : String} (hat : '@' ∉ host.toList) :
    '@' ∉ (tld.apex host).toList := fun hmem => hat (htld.mem_host_of_apex (by decide) hmem)

section Text

variable {url : String} {p : PlainNetloc}

lemma PlainNetloc.userHost_ne_empty (p : PlainNetloc) : p.userHost ≠ "" := by
  have hhost := p.host_ne_empty
  simp [PlainNetloc.userHost, hhost]

/-- What is read of the lowered network location is read of the URL. -/
lemma mem_text_of_mem_lower (hu : u.Lawful) {c : Char} (hascii : c.toNat < 128) (halpha : c.isAlpha = false)
    (hc : c ∈ (u.lower p.userHost).toList) : c ∈ p.text.toList := by
  have hmem := (hu.mem_lower_iff _ c hascii halpha).mp hc
  simp [PlainNetloc.text, String.toList_append, hmem]

lemma isNetlocEnd_of_mem_lower (hu : u.Lawful) (h : authority u url = .ok p.text) {c : Char}
    (hc : c ∈ (u.lower p.userHost).toList) : isNetlocEnd c = false := by
  by_contra hnot
  have hc' := isNetlocEnd_iff.mp (Bool.eq_true_of_not_eq_false hnot)
  have hmem : c ∈ p.text.toList := by
    rcases hc' with rfl | rfl | rfl
    all_goals exact mem_text_of_mem_lower hu (by decide) (by decide) hc
  exact hnot (isNetlocEnd_of_authority h hmem)

lemma isTabOrNewline_of_mem_lower (hu : u.Lawful) (h : authority u url = .ok p.text) {c : Char}
    (hc : c ∈ (u.lower p.userHost).toList) : isTabOrNewline c = false := by
  by_contra hnot
  have hc' := isTabOrNewline_iff.mp (Bool.eq_true_of_not_eq_false hnot)
  have hmem : c ∈ p.text.toList := by
    rcases hc' with rfl | rfl | rfl
    all_goals exact mem_text_of_mem_lower hu (by decide) (by decide) hc
  exact hnot (isTabOrNewline_of_authority h hmem)

lemma getDomain_of_text (hu : u.Lawful) (h : authority u url = .ok p.text) :
    getDomain u tld url = .ok (tld.apex (u.lower p.userHost)) := by
  have htext : p.text ≠ "" := by simp [PlainNetloc.text, p.userHost_ne_empty]
  have hlower : ¬(u.lower p.userHost = "" ∨ '/' ∈ (u.lower p.userHost).toList) := by
    rintro (hempty | hslash)
    · exact p.userHost_ne_empty ((hu.lower_eq_empty_iff _).mp hempty)
    · exact absurd (isNetlocEnd_of_mem_lower hu h hslash) (by decide)
  unfold getDomain
  rw [h]
  simp only [if_pos htext, p.partition_lower hu, if_neg hlower]

/-- The key of a plain URL has no character that ends a network location, and not only tabs and line
breaks. -/
lemma key_of_text (hu : u.Lawful) (htld : tld.Lawful) (h : authority u url = .ok p.text) :
    (∀ c ∈ (tld.apex (u.lower p.userHost)).toList, isNetlocEnd c = false) ∧
      ∃ c ∈ (tld.apex (u.lower p.userHost)).toList, isTabOrNewline c = false := by
  constructor
  · intro c hc
    by_cases hdot : c = '.'
    · rw [hdot]
      decide
    · exact isNetlocEnd_of_mem_lower hu h (htld.mem_host_of_apex hdot hc)
  · unfold TldExtract.apex
    by_cases hextracted : (tld.extract (u.lower p.userHost)).domain ≠ "" ∧
        (tld.extract (u.lower p.userHost)).suffix ≠ ""
    · refine ⟨'.', ?_, by decide⟩
      simp [if_pos hextracted, String.toList_append]
    · have hne : (u.lower p.userHost).toList ≠ [] := by
        simpa using fun hempty => p.userHost_ne_empty ((hu.lower_eq_empty_iff _).mp hempty)
      obtain ⟨c, hc⟩ := List.exists_mem_of_ne_nil _ hne
      refine ⟨c, ?_, isTabOrNewline_of_mem_lower hu h hc⟩
      simpa only [if_neg hextracted] using hc

/-- The key of a plain URL ends in the site of its host. -/
lemma afterLast_apex (hu : u.Lawful) (htld : tld.Lawful) (h : authority u url = .ok p.text) :
    afterLast '@' (tld.apex (u.lower p.userHost)).toList = (tld.apex (u.lower p.host)).toList := by
  have hat : '@' ∉ (u.lower p.host).toList := fun hmem =>
    p.host_plain '@' (by simp) ((hu.mem_lower_iff _ '@' (by decide) (by decide)).mp hmem)
  have hapex := afterLast_of_notMem (htld.at_notMem_apex hat)
  cases huser : p.userinfo with
  | none =>
    have hhost : p.userHost = p.host := by simp [PlainNetloc.userHost, huser]
    rw [hhost, hapex]
  | some user =>
    have hlower : u.lower p.userHost = u.lower user ++ "@" ++ u.lower p.host := by
      rw [← hu.lower_userinfo]
      simp [PlainNetloc.userHost, huser]
    have hlist : (u.lower user ++ "@" ++ u.lower p.host).toList =
        (u.lower user).toList ++ '@' :: (u.lower p.host).toList := by simp [String.toList_append]
    have hextract : tld.extract (u.lower user ++ "@" ++ u.lower p.host) = tld.extract (u.lower p.host) := by
      apply htld.extract_userinfo _ _ _ hat
      intro c hc
      apply isNetlocEnd_of_mem_lower hu h
      rw [hlower, hlist]
      rcases List.mem_append.mp hc with hc | hc
      · exact List.mem_append_left _ hc
      · exact List.mem_append_right _ (List.mem_cons_of_mem _ hc)
    rw [hlower]
    by_cases hextracted : (tld.extract (u.lower p.host)).domain ≠ "" ∧ (tld.extract (u.lower p.host)).suffix ≠ ""
    · have hsame : tld.apex (u.lower user ++ "@" ++ u.lower p.host) = tld.apex (u.lower p.host) := by
        simp only [TldExtract.apex, hextract, if_pos hextracted]
      rw [hsame, hapex]
    · have hwhole : tld.apex (u.lower user ++ "@" ++ u.lower p.host) = u.lower user ++ "@" ++ u.lower p.host := by
        simp only [TldExtract.apex, hextract, if_neg hextracted]
      have hhost : tld.apex (u.lower p.host) = u.lower p.host := by
        simp only [TldExtract.apex, if_neg hextracted]
      rw [hwhole, hhost, hlist, afterLast_append_cons hat]

end Text

/-- A plain URL has a key, and the key ends in its site. -/
lemma PlainUrl.getDomain (hu : u.Lawful) (htld : tld.Lawful) {url : String} (h : PlainUrl u url) :
    ∃ domain, getDomain u tld url = .ok domain ∧
      siteOf u tld url = some (String.ofList (afterLast '@' domain.toList)) := by
  obtain ⟨p, hauthority⟩ := h
  refine ⟨_, getDomain_of_text hu hauthority, ?_⟩
  unfold siteOf hostOf
  rw [hauthority]
  simp only [p.hostname_text, Option.map_some, afterLast_apex hu htld hauthority, String.ofList_toList]

/-- What a URL without a network location is read as is blank up to where a network location would end. -/
lemma isTabOrNewline_of_hostless (hu : u.Lawful) (l : List Char)
    (h : (l.filter (!isTabOrNewline ·)).takeWhile (!isNetlocEnd ·) = []) :
    ∀ c ∈ ((u.lower (String.ofList (l.takeWhile (· ≠ '/')))).toList.takeWhile (· ≠ ':')).takeWhile (!isNetlocEnd ·),
      isTabOrNewline c = true := by
  induction l with
  | nil =>
    have hempty : u.lower (String.ofList []) = "" := (hu.lower_eq_empty_iff _).mpr rfl
    rw [List.takeWhile_nil, hempty]
    intro c hc
    cases hc
  | cons c l ih =>
    by_cases htab : isTabOrNewline c
    · have hfacts : c.toNat < 128 ∧ c.isAlpha = false ∧ c ≠ '/' ∧ c ≠ ':' ∧ isNetlocEnd c = false := by
        rcases isTabOrNewline_iff.mp htab with rfl | rfl | rfl <;> decide
      obtain ⟨hascii, halpha, hslash, hcolon, hend⟩ := hfacts
      rw [List.filter_cons_of_neg (by simp [htab])] at h
      rw [List.takeWhile_cons_of_pos (by simpa using hslash), hu.lower_cons c _ hascii halpha,
        List.takeWhile_cons_of_pos (by simpa using hcolon), List.takeWhile_cons_of_pos (by simp [hend])]
      intro c' hc'
      rcases List.mem_cons.mp hc' with rfl | hc'
      · exact htab
      · exact ih h c' hc'
    · rw [List.filter_cons_of_pos (by simpa using htab)] at h
      have hend : isNetlocEnd c = true := by
        by_contra hnot
        rw [List.takeWhile_cons_of_pos (by simpa using hnot)] at h
        cases h
      rcases isNetlocEnd_iff.mp hend with rfl | hc
      · have hempty : u.lower (String.ofList []) = "" := (hu.lower_eq_empty_iff _).mpr rfl
        rw [List.takeWhile_cons_of_neg (by simp), hempty]
        intro c hc
        cases hc
      · have hfacts : c.toNat < 128 ∧ c.isAlpha = false ∧ c ≠ '/' ∧ c ≠ ':' := by
          rcases hc with rfl | rfl <;> decide
        obtain ⟨hascii, halpha, hslash, hcolon⟩ := hfacts
        rw [List.takeWhile_cons_of_pos (by simpa using hslash), hu.lower_cons c _ hascii halpha,
          List.takeWhile_cons_of_pos (by simpa using hcolon), List.takeWhile_cons_of_neg (by simp [hend])]
        intro c' hc'
        cases hc'

lemma isSpace_of_isTabOrNewline {c : Char} (h : isTabOrNewline c = true) : PythonString.isSpace c := by
  rcases isTabOrNewline_iff.mp h with rfl | rfl | rfl <;> decide

/-- The text in front of the path that the key is taken from has no slash, lower-cased or not. -/
lemma slash_notMem_host (hu : u.Lawful) (url : String) :
    '/' ∉ (u.lower (String.ofList (url.toList.takeWhile (· ≠ '/')))).toList.takeWhile (· ≠ ':') := by
  intro hmem
  have hlower := (List.takeWhile_sublist _).subset hmem
  rw [hu.mem_lower_iff _ _ (by decide) (by decide), String.toList_ofList] at hlower
  simpa using List.mem_takeWhile_imp hlower

/-- A URL without a host shares its key with no plain URL. -/
lemma Hostless.getDomain_ne (hu : u.Lawful) (htld : tld.Lawful) {url : String} (h : Hostless u url)
    {domain : String} (hend : ∀ c ∈ domain.toList, isNetlocEnd c = false)
    (hplain : ∃ c ∈ domain.toList, isTabOrNewline c = false) : WebSearch.getDomain u tld url ≠ .ok domain := by
  intro hdomain
  obtain ⟨c, hc, htab⟩ := hplain
  unfold WebSearch.getDomain at hdomain
  cases hauthority : authority u url with
  | error e =>
    rw [hauthority] at hdomain
    cases hdomain
  | ok netloc =>
    obtain rfl := h netloc hauthority
    rw [hauthority] at hdomain
    simp only [ne_eq, not_true, if_false, partition_fst] at hdomain
    have hblank := isTabOrNewline_of_hostless hu _ (takeWhile_of_authority hauthority)
    have hslash := slash_notMem_host hu url
    generalize (u.lower (String.ofList (url.toList.takeWhile (· ≠ '/')))).toList.takeWhile (· ≠ ':') = host at *
    split at hdomain
    · obtain rfl := Except.ok.inj hdomain
      cases hc
    · have hparts : tld.extract (String.ofList host) = ⟨"", ""⟩ := by
        apply htld.extract_blank
        · rwa [String.toList_ofList]
        rw [String.toList_ofList]
        exact fun c hc => isSpace_of_isTabOrNewline (hblank c hc)
      have hhost : domain = String.ofList host := by
        rw [← Except.ok.inj hdomain, TldExtract.apex, hparts]
        rfl
      rw [hhost, String.toList_ofList] at hc hend
      have hall : host.takeWhile (!isNetlocEnd ·) = host :=
        List.takeWhile_eq_self_iff.mpr fun c hc => by simp [hend c hc]
      rw [hall] at hblank
      rw [hblank c hc] at htab
      cases htab

/-- Plain URLs that share a key share their site. -/
theorem PlainUrl.siteOf_eq (hu : u.Lawful) (htld : tld.Lawful) {url url' : String} (h : PlainUrl u url)
    (h' : PlainUrl u url') (hkey : WebSearch.getDomain u tld url = WebSearch.getDomain u tld url') :
    siteOf u tld url = siteOf u tld url' := by
  obtain ⟨domain, hdomain, hsite⟩ := h.getDomain hu htld
  obtain ⟨domain', hdomain', hsite'⟩ := h'.getDomain hu htld
  rw [hdomain, hdomain'] at hkey
  rw [hsite, hsite', Except.ok.inj hkey]

end Key

section Runs

/-- The stores give the same answers for a key. -/
structure Agree (domain : String) (s s' : CookieStore) : Prop where
  connected : s.connected = s'.connected
  now : s.now = s'.now
  redis : s.redis.lookup (redisKey domain) = s'.redis.lookup (redisKey domain)
  memory : s.memory.lookup domain = s'.memory.lookup domain

lemma redisKey_ne {domain domain' : String} (h : domain ≠ domain') : redisKey domain ≠ redisKey domain' := by
  intro heq
  unfold redisKey at heq
  have hlist := congrArg String.toList heq
  rw [String.toList_append, String.toList_append] at hlist
  exact h (String.toList_inj.mp (List.append_cancel_left hlist))

variable {s s' : CookieStore} {domain : String}

/-- The save reaches Redis. -/
def writesRedis (connected : Bool) (ttlSeconds : ℚ) (reply : SetexReply) : Bool :=
  connected && !decide (ttlSeconds ≤ 0 ∨ reply = .failed)

/-- The save falls back to memory, also when only the reply of Redis was lost. -/
def writesMemory (connected : Bool) (ttlSeconds : ℚ) (reply : SetexReply) : Bool :=
  !(writesRedis connected ttlSeconds reply && decide (reply = .stored))

lemma saveSessionData_eq {url : String} (hdomain : getDomain u tld url = .ok domain) (data : SessionData)
    (ttlSeconds : ℚ) (reply : SetexReply) :
    saveSessionData u tld s url data ttlSeconds reply =
      { s with
        redis := if writesRedis s.connected ttlSeconds reply then
          s.redis.insert (redisKey domain) ⟨data, s.now + ttlSeconds⟩ else s.redis
        memory := if writesMemory s.connected ttlSeconds reply then s.memory.insert domain data
          else s.memory } := by
  unfold saveSessionData
  rw [hdomain]
  cases hconnected : s.connected with
  | false => simp [writesRedis, writesMemory, hconnected]
  | true =>
    by_cases hfailed : ttlSeconds ≤ 0 ∨ reply = .failed
    · simp [CookieStore.setex, writesRedis, writesMemory, hconnected, hfailed]
    · have hsetex : s.setex (redisKey domain) ttlSeconds data reply =
          ({ s with redis := s.redis.insert (redisKey domain) ⟨data, s.now + ttlSeconds⟩ },
            decide (reply = .stored)) := if_neg hfailed
      have hwrites : writesRedis true ttlSeconds reply = true := by simp [writesRedis, hfailed]
      simp only [if_true, hsetex, writesMemory, hwrites]
      by_cases hstored : reply = .stored <;> simp [hstored, hconnected]

/-- What is saved under another key does not show. -/
lemma Agree.save_other (h : Agree domain s s') {url : String} (hkey : getDomain u tld url ≠ .ok domain)
    (data : SessionData) (ttlSeconds : ℚ) (reply : SetexReply) :
    Agree domain (saveSessionData u tld s url data ttlSeconds reply) s' := by
  cases hdomain : getDomain u tld url with
  | error e =>
    unfold saveSessionData
    rw [hdomain]
    exact h
  | ok domain' =>
    have hne : domain ≠ domain' := fun heq => hkey (heq ▸ hdomain)
    rw [saveSessionData_eq hdomain]
    refine ⟨h.connected, h.now, ?_, ?_⟩
    · dsimp only
      rw [lookup_ite_insert, if_neg fun h => redisKey_ne hne h.2, h.redis]
    · dsimp only
      rw [lookup_ite_insert, if_neg fun h => hne h.2, h.memory]

lemma Agree.symm (h : Agree domain s s') : Agree domain s' s :=
  ⟨h.connected.symm, h.now.symm, h.redis.symm, h.memory.symm⟩

lemma Agree.step (h : Agree domain s s') (e : CookieEvent) :
    Agree domain (cookieStep u tld s e) (cookieStep u tld s' e) := by
  cases e with
  | save url data ttlSeconds reply =>
    by_cases hkey : getDomain u tld url = .ok domain
    · simp only [cookieStep]
      rw [saveSessionData_eq hkey, saveSessionData_eq hkey, ← h.connected, ← h.now]
      refine ⟨rfl, rfl, ?_, ?_⟩
      · dsimp only
        rw [lookup_ite_insert, lookup_ite_insert, h.redis]
      · dsimp only
        rw [lookup_ite_insert, lookup_ite_insert, h.memory]
    · exact ((h.save_other hkey data ttlSeconds reply).symm.save_other hkey data ttlSeconds reply).symm
  | clock t => exact ⟨h.connected, by simp only [cookieStep, h.now], h.redis, h.memory⟩
  | evict key =>
    refine ⟨h.connected, h.now, ?_, h.memory⟩
    simp only [cookieStep]
    by_cases hkey : redisKey domain = key
    · rw [← hkey, AList.lookup_erase, AList.lookup_erase]
    · rw [AList.lookup_erase_ne hkey, AList.lookup_erase_ne hkey, h.redis]

lemma Agree.getSessionData (h : Agree domain s s') {url : String} (hkey : getDomain u tld url = .ok domain)
    (answers : Bool) : getSessionData u tld s url answers = getSessionData u tld s' url answers := by
  unfold WebSearch.getSessionData CookieStore.redisGet
  rw [hkey]
  simp only [h.connected, h.now, h.redis, h.memory]

/-- The event is no save for another site than that of the URL. -/
def ForSite (u : UnicodeData) (tld : TldExtract) (url : String) : CookieEvent → Bool
  | .save saved _ _ _ => siteOf u tld saved = siteOf u tld url
  | _ => true

/-- The URLs that are saved are plain or have no host. -/
def PlainSaves (u : UnicodeData) (events : List CookieEvent) : Prop :=
  ∀ saved data ttlSeconds reply, .save saved data ttlSeconds reply ∈ events → PlainUrl u saved ∨ Hostless u saved

/-- Without the saves for other sites, the answers for the URL are the same. -/
lemma agree_filter (hu : u.Lawful) (htld : tld.Lawful) {url : String} (hurl : PlainUrl u url)
    (hkey : getDomain u tld url = .ok domain) {events : List CookieEvent} (hplain : PlainSaves u events)
    (h : Agree domain s s') :
    Agree domain (run (cookieStep u tld) s events)
      (run (cookieStep u tld) s' (events.filter (ForSite u tld url))) := by
  induction events generalizing s s' with
  | nil => exact h
  | cons e events ih =>
    have hrest : PlainSaves u events := fun saved data ttlSeconds reply hmem =>
      hplain saved data ttlSeconds reply (List.mem_cons_of_mem _ hmem)
    by_cases hsite : ForSite u tld url e
    · rw [List.filter_cons_of_pos hsite]
      exact ih hrest (h.step e)
    · rw [List.filter_cons_of_neg hsite]
      apply ih hrest
      cases e with
      | save saved data ttlSeconds reply =>
        apply h.save_other
        intro hsame
        rcases hplain saved data ttlSeconds reply List.mem_cons_self with hsaved | hsaved
        · exact hsite (decide_eq_true (hsaved.siteOf_eq hu htld hurl (hsame.trans hkey.symm)))
        · obtain ⟨p, hauthority⟩ := hurl
          obtain ⟨hend, htab⟩ := key_of_text hu htld hauthority
          have hown : getDomain u tld url = .ok (tld.apex (u.lower p.userHost)) := getDomain_of_text hu hauthority
          exact hsaved.getDomain_ne hu htld hend htab (hsame.trans (hkey.symm.trans hown))
      | clock t => exact absurd rfl hsite
      | evict key => exact absurd rfl hsite

/-- All that the store holds was saved. -/
structure FromSaves (events : List CookieEvent) (s : CookieStore) : Prop where
  redis : ∀ key entry, s.redis.lookup key = some entry →
    ∃ url ttlSeconds reply, .save url entry.data ttlSeconds reply ∈ events
  memory : ∀ domain data, s.memory.lookup domain = some data →
    ∃ url ttlSeconds reply, .save url data ttlSeconds reply ∈ events

lemma FromSaves.step {events : List CookieEvent} (h : FromSaves events s) {e : CookieEvent} (he : e ∈ events) :
    FromSaves events (cookieStep u tld s e) := by
  cases e with
  | save url data ttlSeconds reply =>
    cases hdomain : getDomain u tld url with
    | error e =>
      simp only [cookieStep]
      unfold saveSessionData
      rw [hdomain]
      exact h
    | ok domain =>
      simp only [cookieStep]
      rw [saveSessionData_eq hdomain]
      refine ⟨fun key entry hlookup => ?_, fun domain' data' hlookup => ?_⟩
      · rw [lookup_ite_insert] at hlookup
        split at hlookup
        · obtain rfl := Option.some.inj hlookup
          exact ⟨url, ttlSeconds, reply, he⟩
        · exact h.redis key entry hlookup
      · rw [lookup_ite_insert] at hlookup
        split at hlookup
        · obtain rfl := Option.some.inj hlookup
          exact ⟨url, ttlSeconds, reply, he⟩
        · exact h.memory domain' data' hlookup
  | clock t => exact ⟨h.redis, h.memory⟩
  | evict key =>
    refine ⟨fun key' entry hlookup => ?_, h.memory⟩
    by_cases hkey : key' = key
    · subst hkey
      simp only [cookieStep, AList.lookup_erase] at hlookup
      cases hlookup
    · simp only [cookieStep, AList.lookup_erase_ne hkey] at hlookup
      exact h.redis key' entry hlookup

lemma fromSaves_run (connected : Bool) (now : ℚ) (events : List CookieEvent) :
    FromSaves events (run (cookieStep u tld) (startManager connected now) events) := by
  have hstart : FromSaves events (startManager connected now) := by
    refine ⟨fun key entry h => ?_, fun domain data h => ?_⟩
    · rw [startManager, AList.lookup_empty] at h
      cases h
    · rw [startManager, AList.lookup_empty] at h
      cases h
  exact run_invariant (fun _ _ h he => h.step he) hstart
    (along_of_forall (P := fun _ e => e ∈ events) (fun e he _ => he) _)

lemma FromSaves.getSessionData {events : List CookieEvent} (h : FromSaves events s) {url : String}
    {answers : Bool} {data : SessionData} (hget : getSessionData u tld s url answers = .ok (some data)) :
    ∃ saved ttlSeconds reply, .save saved data ttlSeconds reply ∈ events := by
  unfold WebSearch.getSessionData at hget
  cases hdomain : getDomain u tld url with
  | error e =>
    rw [hdomain] at hget
    cases hget
  | ok domain =>
    rw [hdomain] at hget
    simp only at hget
    split at hget
    · next found hfound =>
      obtain rfl : found = data := Option.some.inj (Except.ok.inj hget)
      split at hfound
      · obtain ⟨entry, hlookup, hlive⟩ := Option.bind_eq_some_iff.mp hfound
        split at hlive
        · obtain rfl := Option.some.inj hlive
          exact h.redis _ entry hlookup
        · cases hlive
      · cases hfound
    · exact h.memory _ data (Except.ok.inj hget)

end Runs

/-- When the saved URLs that have a host and the URL of the request are plain, the request gets only data
that was saved for its own site, and the saves for other sites never change what it gets. -/
theorem cookies_isolated (hu : u.Lawful) (htld : tld.Lawful) {events : List CookieEvent}
    (hplain : PlainSaves u events) {url : String} (hurl : PlainUrl u url) (connected : Bool) (now : ℚ)
    (answers : Bool) :
    (∀ data, getSessionData u tld (run (cookieStep u tld) (startManager connected now) events) url answers =
        .ok (some data) →
      ∃ saved ttlSeconds reply, .save saved data ttlSeconds reply ∈ events ∧
        siteOf u tld saved = siteOf u tld url) ∧
      getSessionData u tld (run (cookieStep u tld) (startManager connected now) events) url answers =
        getSessionData u tld (run (cookieStep u tld) (startManager connected now)
          (events.filter (ForSite u tld url))) url answers := by
  obtain ⟨domain, hkey, -⟩ := hurl.getDomain hu htld
  have hstart : Agree domain (startManager connected now) (startManager connected now) := ⟨rfl, rfl, rfl, rfl⟩
  have hsame := (agree_filter hu htld hurl hkey hplain hstart).getSessionData hkey answers
  refine ⟨fun data hget => ?_, hsame⟩
  rw [hsame] at hget
  obtain ⟨saved, ttlSeconds, reply, hmem⟩ := (fromSaves_run connected now _).getSessionData hget
  obtain ⟨hmem, hsite⟩ := List.mem_filter.mp hmem
  exact ⟨saved, ttlSeconds, reply, hmem, of_decide_eq_true hsite⟩

/-- Takes the last label of a host for its suffix. -/
def lastLabels : TldExtract where
  extract host :=
    let netloc := afterLast '@' (host.toList.takeWhile (!isNetlocEnd ·))
    if netloc.all PythonString.isSpace then ⟨"", ""⟩
    else if '.' ∈ netloc.reverse then
      ⟨String.ofList (((netloc.reverse.dropWhile (· ≠ '.')).drop 1).takeWhile (· ≠ '.')).reverse,
        String.ofList (netloc.reverse.takeWhile (· ≠ '.')).reverse⟩
    else ⟨String.ofList netloc, ""⟩

lemma lastLabels_lawful : lastLabels.Lawful where
  extract_userinfo := by
    intro user host hend hat
    have hlist : (user ++ "@" ++ host).toList = user.toList ++ '@' :: host.toList := by simp [String.toList_append]
    have hwhole : (user.toList ++ '@' :: host.toList).takeWhile (!isNetlocEnd ·) =
        user.toList ++ '@' :: host.toList := by
      refine List.takeWhile_eq_self_iff.mpr fun c hc => ?_
      rcases List.mem_append.mp hc with hc | hc
      · simp [hend c (List.mem_append_left _ hc)]
      · rcases List.mem_cons.mp hc with rfl | hc
        · decide
        · simp [hend c (List.mem_append_right _ hc)]
    have hhost : host.toList.takeWhile (!isNetlocEnd ·) = host.toList :=
      List.takeWhile_eq_self_iff.mpr fun c hc => by simp [hend c (List.mem_append_right _ hc)]
    simp only [lastLabels, hlist, hwhole, hhost, afterLast_append_cons hat, afterLast_of_notMem hat]
  mem_host := by
    intro host c _ hc
    have hnetloc : ∀ c, c ∈ afterLast '@' (host.toList.takeWhile (!isNetlocEnd ·)) → c ∈ host.toList :=
      fun c hc => (List.takeWhile_sublist _).subset (mem_of_mem_afterLast hc)
    simp only [lastLabels] at hc
    split at hc
    · rcases hc with hc | hc <;> cases hc
    · split at hc
      · simp only [String.toList_ofList, List.mem_reverse] at hc
        rcases hc with hc | hc
        · have hdrop := List.mem_of_mem_drop ((List.takeWhile_sublist _).subset hc)
          exact hnetloc c (List.mem_reverse.mp ((List.dropWhile_sublist _).subset hdrop))
        · exact hnetloc c (List.mem_reverse.mp ((List.takeWhile_sublist _).subset hc))
      · rcases hc with hc | hc
        · exact hnetloc c (by simpa using hc)
        · cases hc
  extract_blank := by
    intro host _ hblank
    have hall : (afterLast '@' (host.toList.takeWhile (!isNetlocEnd ·))).all PythonString.isSpace = true :=
      List.all_eq_true.mpr fun c hc => hblank c (mem_of_mem_afterLast hc)
    simp only [lastLabels, if_pos hall]

def clearance : SessionData := ⟨[("cf_clearance", "token")], "UA"⟩

def shopSaves : List CookieEvent :=
  [.save "https://shop.example.com/a" clearance 7200 .stored, .save "https://other.org:8443/" ⟨[], "UA"⟩ 7200 .failed]

lemma plain_shopSaves : PlainSaves asciiData shopSaves := by
  intro saved data ttlSeconds reply hmem
  simp only [shopSaves, List.mem_cons, List.not_mem_nil, or_false, CookieEvent.save.injEq] at hmem
  rcases hmem with ⟨rfl, -, -, -⟩ | ⟨rfl, -, -, -⟩
  · refine Or.inl ?_
    exact ⟨⟨none, "shop.example.com", none, by simp, by decide, by simp, by simp⟩, by decide +kernel⟩
  · refine Or.inl ?_
    exact ⟨⟨none, "other.org", some "8443", by simp, by decide, by simp, by simp⟩, by decide +kernel⟩

lemma plain_shop : PlainUrl asciiData "https://user@www.example.com/b" :=
  ⟨⟨some "user", "www.example.com", none, by simp, by decide, by simp, by simp⟩, by decide +kernel⟩

theorem shop_isolated :
    (∀ data, getSessionData asciiData lastLabels (run (cookieStep asciiData lastLabels) (startManager true 0) shopSaves)
        "https://user@www.example.com/b" true = .ok (some data) →
      ∃ saved ttlSeconds reply, .save saved data ttlSeconds reply ∈ shopSaves ∧
        siteOf asciiData lastLabels saved = siteOf asciiData lastLabels "https://user@www.example.com/b") ∧
      getSessionData asciiData lastLabels (run (cookieStep asciiData lastLabels) (startManager true 0) shopSaves)
          "https://user@www.example.com/b" true =
        getSessionData asciiData lastLabels (run (cookieStep asciiData lastLabels) (startManager true 0)
          (shopSaves.filter (ForSite asciiData lastLabels "https://user@www.example.com/b")))
          "https://user@www.example.com/b" true :=
  cookies_isolated asciiData_lawful lastLabels_lawful plain_shopSaves plain_shop true 0 true

/-- The cookies of a site are sent to the host behind a password, and all hosts in brackets share theirs. -/
theorem password_host_gets_cookies :
    getSessionData asciiData lastLabels (run (cookieStep asciiData lastLabels) (startManager false 0)
        [.save "https://victim.com/" clearance 7200 .stored]) "https://victim.com:x@evil.org/" true =
      .ok (some clearance) ∧
    siteOf asciiData lastLabels "https://victim.com/" = some "victim.com" ∧
    siteOf asciiData lastLabels "https://victim.com:x@evil.org/" = some "evil.org" ∧
    getSessionData asciiData lastLabels (run (cookieStep asciiData lastLabels) (startManager false 0)
        [.save "http://[2001:db8::1]/" clearance 7200 .stored]) "http://[2001:db8::2]/" true =
      .ok (some clearance) ∧
    siteOf asciiData lastLabels "http://[2001:db8::1]/" = some "2001:db8::1" ∧
    siteOf asciiData lastLabels "http://[2001:db8::2]/" = some "2001:db8::2" := by
  decide +kernel

end AscendAI.WebSearch
