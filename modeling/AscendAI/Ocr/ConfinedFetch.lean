import AscendAI.Ocr.McpFetch

/-!
# What the OCR tool fetches

A fetch that returns bytes has passed every guard of its scheme, so the file is below the root, and the
bytes are all there and not too many. The guard of HTTP looks at the host that Python reads in the URI, so
the host that is contacted is allowed exactly when the client reads the same one, or another allowed one.
-/

namespace AscendAI.Ocr
open HttpNetwork PythonUrl PosixPath

/-- The host is allowed by name, or all of its addresses can be read and none is blocked. -/
def AllowedHost (s : McpServer) (host : String) : Prop :=
  host ∈ s.settings.mcpAllowedHosts ∨
    ∀ ipStr ∈ s.getaddrinfo.addresses host, ∃ ip, IpAddress.ipAddress ipStr = some ip ∧ isBlocked ip = false

/-- The bytes are those of a regular file whose path is real, without symbolic links, and lies below the
real path of the root, and no host is contacted. -/
def FromJail (s : McpServer) (uri : String) (bytes : List UInt8) : Prop :=
  fetchHosts s uri = [] ∧
  ∃ root realRoot path, s.settings.mcpFileUriRoot = some root ∧ root ≠ "" ∧ s.realpath root = .ok realRoot ∧
    s.tree.node path = some (.file bytes) ∧ ".." ∉ path ∧ s.tree.LinkFree path ∧ parts realRoot <+: path

/-- The bytes are the whole body of the one answer, and the one host that is contacted is allowed. -/
def FromHost (s : McpServer) (uri netloc : String) (bytes : List UInt8) : Prop :=
  (username netloc).getD "" = "" ∧ (password netloc).getD "" = "" ∧
  ∃ host session response, fetchHosts s uri = [host] ∧ AllowedHost s host ∧ s.session = some session ∧
    (fetchFile s uri).requested = [uri] ∧ session.get uri = .ok response ∧ response.failure = none ∧
    bytes = response.chunks.flatten

/-- What the fetch returns is a file below the root, or the whole answer of the one host that it has
contacted and that is allowed, and it is not longer than the settings allow. -/
def Confined (s : McpServer) (uri : String) : Prop :=
  ∀ bytes name, (fetchFile s uri).result = .ok (bytes, name) →
    ∃ parsed, urlparse s.unicode uri "" = .ok parsed ∧
      (s.unicode.lower parsed.scheme = "file" ∧ FromJail s uri bytes ∨
        s.unicode.lower parsed.scheme ∈ ["http", "https"] ∧ FromHost s uri parsed.netloc bytes) ∧
      bytes.length ≤ 1024 * 1024 * s.settings.maxFileSizeMb

/-- The URI passes the guards of HTTP with a host of its own, and the session answers it in full. -/
structure Served (s : McpServer) (uri : String) (parsed : ParseResult) (host : String) (session : HttpSession)
    (response : RemoteResponse) (bytes : List UInt8) : Prop where
  parses : urlparse s.unicode uri "" = .ok parsed
  scheme : s.unicode.lower parsed.scheme ∈ ["http", "https"]
  noUsername : (username parsed.netloc).getD "" = ""
  noPassword : (password parsed.netloc).getD "" = ""
  named : hostname s.unicode parsed.netloc = some host
  valid : validateHost s host = .ok ()
  opened : s.session = some session
  answered : session.get uri = .ok response
  body : readResponse s host response = .ok bytes

/-- Where the client is served by another host than the guard has checked, that one is allowed too. -/
def ServedByAllowed (s : McpServer) (uri : String) : Prop :=
  ∀ parsed host session response bytes, Served s uri parsed host session response bytes →
    ∀ other ∈ session.host uri, other ≠ host → AllowedHost s other

section Guards

variable {s : McpServer}

lemma length_le_of_enforceSize {n : ℕ} (h : enforceSize s n = .ok ()) : n ≤ maxBytes s := by
  rw [enforceSize] at h
  split at h
  · cases h
  · omega

lemma root_of_isWithin {path root : String} (h : isWithin path root = true) : parts root <+: parts path := by
  rw [isWithin] at h
  split at h
  · cases h
  · rename_i common hcommon
    rw [beq_iff_eq] at h
    rw [h] at hcommon
    exact parts_prefix_of_commonpath hcommon

lemma readable_of_validateAddresses {host : String} {infos : List String}
    (h : validateAddresses host infos = .ok ()) :
    ∀ ipStr ∈ infos, ∃ ip, IpAddress.ipAddress ipStr = some ip ∧ isBlocked ip = false := by
  induction infos with
  | nil => exact fun ipStr hmem => absurd hmem List.not_mem_nil
  | cons first infos ih =>
    rw [validateAddresses] at h
    cases hip : IpAddress.ipAddress first with
    | none =>
      rw [hip] at h
      cases h
    | some ip =>
      simp only [hip] at h
      by_cases hblocked : isBlocked ip = true
      · rw [if_pos hblocked] at h
        cases h
      · rw [if_neg hblocked] at h
        rw [List.forall_mem_cons]
        exact ⟨⟨ip, hip, Bool.eq_false_iff.mpr hblocked⟩, ih h⟩

lemma allowedHost_of_validateHost {host : String} (h : validateHost s host = .ok ()) : AllowedHost s host := by
  rw [validateHost] at h
  split at h
  · rename_i hallowed
    exact .inl hallowed
  · right
    rw [GetAddrInfo.addresses]
    cases hresolved : s.getaddrinfo host with
    | error e => exact fun ipStr hmem => absurd hmem List.not_mem_nil
    | ok infos =>
      rw [hresolved] at h
      exact readable_of_validateAddresses h

/-- The loop ends at the end of the body, and no prefix that it has read was too long. -/
lemma readChunks_eq_ok {failure : Option ClientFailure} {buffer bytes : List UInt8} {chunks : List (List UInt8)}
    (h : readChunks s failure buffer chunks = .ok bytes) :
    failure = none ∧ bytes = buffer ++ chunks.flatten ∧ (buffer.length ≤ maxBytes s → bytes.length ≤ maxBytes s) := by
  induction chunks generalizing buffer with
  | nil =>
    cases failure with
    | some f => cases h
    | none =>
      obtain rfl := Except.ok.inj h
      exact ⟨rfl, by rw [List.flatten_nil, List.append_nil], id⟩
  | cons chunk chunks ih =>
    rw [readChunks] at h
    split at h
    · cases h
    · rename_i hsize
      obtain ⟨hfailure, hbytes, hlength⟩ := ih h
      refine ⟨hfailure, ?_, fun _ => hlength (length_le_of_enforceSize hsize)⟩
      rw [hbytes, List.flatten_cons, List.append_assoc]

lemma readResponse_eq_ok {host : String} {response : RemoteResponse} {bytes : List UInt8}
    (h : readResponse s host response = .ok bytes) :
    response.failure = none ∧ bytes = response.chunks.flatten ∧ bytes.length ≤ maxBytes s := by
  have hread : readChunks s response.failure [] response.chunks = .ok bytes := by
    rw [readResponse] at h
    split at h
    · cases h
    · split at h
      · exact h
      · split at h
        · cases h
        · split at h
          · cases h
          · exact h
  obtain ⟨hfailure, hbytes, hlength⟩ := readChunks_eq_ok hread
  exact ⟨hfailure, hbytes, hlength (Nat.zero_le _)⟩

/-- A file that is read has passed the jail, and its real path is where it is. -/
lemma readJailedFile_eq_ok (hreal : ∀ path resolved, s.realpath path = .ok resolved → s.tree.IsReal resolved)
    {urlPath : String} {bytes : List UInt8} {name : String} (h : readJailedFile s urlPath = .ok (bytes, name)) :
    (∃ root realRoot path, s.settings.mcpFileUriRoot = some root ∧ root ≠ "" ∧ s.realpath root = .ok realRoot ∧
      s.tree.node path = some (.file bytes) ∧ ".." ∉ path ∧ s.tree.LinkFree path ∧ parts realRoot <+: path) ∧
    bytes.length ≤ maxBytes s := by
  rw [readJailedFile] at h
  cases hsetting : s.settings.mcpFileUriRoot with
  | none =>
    simp only [hsetting, Option.getD_none, if_true] at h
    cases h
  | some root =>
    simp only [hsetting, Option.getD_some] at h
    by_cases hroot : root = ""
    · rw [if_pos hroot] at h
      cases h
    · rw [if_neg hroot] at h
      cases hresolved : s.realpath (s.unquote urlPath) with
      | error e =>
        rw [hresolved] at h
        cases h
      | ok resolved =>
        simp only [hresolved] at h
        cases hrealRoot : s.realpath root with
        | error e =>
          rw [hrealRoot] at h
          cases h
        | ok realRoot =>
          simp only [hrealRoot] at h
          split at h
          · cases h
          · rename_i hwithin
            cases hfile : s.tree.regularFile resolved with
            | none =>
              rw [hfile] at h
              cases h
            | some content =>
              simp only [hfile] at h
              split at h
              · cases h
              · split at h
                · cases h
                · rename_i hsize
                  obtain ⟨rfl, -⟩ := Prod.mk.inj (Except.ok.inj h)
                  have hnode := FileTree.node_of_regularFile (hreal _ _ hresolved) hfile
                  have hbelow := root_of_isWithin (not_not.mp hwithin)
                  exact ⟨⟨root, realRoot, parts resolved, rfl, hroot, hrealRoot, hnode,
                    (hreal _ _ hresolved).noParent, (hreal _ _ hresolved).linkFree, hbelow⟩,
                    length_le_of_enforceSize hsize⟩

/-- A download that returns has been served, and has requested its URI only. -/
lemma downloadHttp_eq_ok {uri : String} {parsed : ParseResult} {bytes : List UInt8} {name : String}
    (hparsed : urlparse s.unicode uri "" = .ok parsed) (hscheme : s.unicode.lower parsed.scheme ∈ ["http", "https"])
    (h : (downloadHttp s uri parsed).result = .ok (bytes, name)) :
    ∃ host session response, Served s uri parsed host session response bytes := by
  rw [downloadHttp] at h
  split at h
  · cases h
  · rename_i hcredentials
    rw [not_or, not_not, not_not] at hcredentials
    cases hhost : hostname s.unicode parsed.netloc with
    | none =>
      rw [hhost] at h
      cases h
    | some host =>
      simp only [hhost] at h
      cases hvalid : validateHost s host with
      | error e =>
        rw [hvalid] at h
        cases h
      | ok _ =>
        simp only [hvalid] at h
        cases hsession : s.session with
        | none =>
          rw [hsession] at h
          cases h
        | some session =>
          simp only [hsession] at h
          cases hget : session.get uri with
          | error f =>
            rw [hget] at h
            cases h
          | ok response =>
            simp only [hget] at h
            cases hread : readResponse s host response with
            | error e =>
              rw [hread] at h
              cases h
            | ok buffer =>
              simp only [hread] at h
              obtain ⟨rfl, -⟩ := Prod.mk.inj (Except.ok.inj h)
              exact ⟨host, session, response, hparsed, hscheme, hcredentials.1, hcredentials.2, hhost, hvalid,
                hsession, hget, hread⟩

lemma fetchFile_of_http {uri : String} {parsed : ParseResult} (hparsed : urlparse s.unicode uri "" = .ok parsed)
    (hscheme : s.unicode.lower parsed.scheme ∈ ["http", "https"]) : fetchFile s uri = downloadHttp s uri parsed := by
  have hfile : s.unicode.lower parsed.scheme ≠ "file" := by
    intro heq
    rw [heq] at hscheme
    exact absurd hscheme (by decide)
  simp only [fetchFile, hparsed, if_neg hfile, if_pos hscheme]

section Served

variable {uri : String} {parsed : ParseResult} {host : String} {session : HttpSession} {response : RemoteResponse}
  {bytes : List UInt8}

/-- What is served is returned, and the client has contacted the host that it reads in the URI. -/
lemma Served.fetchFile (h : Served s uri parsed host session response bytes) :
    fetchFile s uri = ⟨[uri], .ok (bytes, remoteFilename s parsed.path)⟩ := by
  have hcredentials : ¬((username parsed.netloc).getD "" ≠ "" ∨ (password parsed.netloc).getD "" ≠ "") := by
    rw [h.noUsername, h.noPassword, ne_self_iff_false, or_self]
    exact not_false
  rw [fetchFile_of_http h.parses h.scheme, downloadHttp, if_neg hcredentials, h.named]
  simp only [h.valid, h.opened, h.answered, h.body]

lemma Served.fetchHosts (h : Served s uri parsed host session response bytes) {other : String}
    (hother : session.host uri = some other) : fetchHosts s uri = [other] := by
  rw [Ocr.fetchHosts, h.opened, h.fetchFile]
  simp only [List.filterMap_cons, hother, List.filterMap_nil]

/-- The host that serves is allowed: the guard has checked it, or it is another one. -/
lemma Served.fromHost (h : Served s uri parsed host session response bytes)
    (hallowed : ∀ other ∈ session.host uri, other ≠ host → AllowedHost s other) :
    FromHost s uri parsed.netloc bytes ∧ bytes.length ≤ maxBytes s := by
  obtain ⟨hfailure, hbytes, hlength⟩ := readResponse_eq_ok h.body
  obtain ⟨other, hother⟩ := session.host_of_get uri response h.answered
  have hcontacted : AllowedHost s other := by
    by_cases hsame : other = host
    · rw [hsame]
      exact allowedHost_of_validateHost h.valid
    · exact hallowed other hother hsame
  refine ⟨⟨h.noUsername, h.noPassword, other, session, response, h.fetchHosts hother, hcontacted, h.opened, ?_,
    h.answered, hfailure, hbytes⟩, hlength⟩
  rw [h.fetchFile]

end Served

end Guards

/-- A fetch is confined exactly when it is not served by a host that the guard has not checked and that is
not allowed. -/
theorem fetchFile_confined_iff (s : McpServer)
    (hreal : ∀ path resolved, s.realpath path = .ok resolved → s.tree.IsReal resolved) (uri : String) :
    Confined s uri ↔ ServedByAllowed s uri := by
  constructor
  · intro hconfined parsed host session response bytes hserved other hother _
    have hresult : (fetchFile s uri).result = .ok (bytes, remoteFilename s parsed.path) := by rw [hserved.fetchFile]
    obtain ⟨parsed', hparsed, hfrom, -⟩ := hconfined bytes _ hresult
    obtain rfl := Except.ok.inj (hparsed.symm.trans hserved.parses)
    obtain ⟨hfile, -⟩ | ⟨-, -, -, contacted, -, -, hhosts, hallowed, -⟩ := hfrom
    · have hscheme := hserved.scheme
      rw [hfile] at hscheme
      exact absurd hscheme (by decide)
    · rw [hserved.fetchHosts hother] at hhosts
      rw [(List.cons.inj hhosts).1]
      exact hallowed
  · intro hallowed bytes name h
    cases hparsed : urlparse s.unicode uri "" with
    | error message =>
      rw [fetchFile, hparsed] at h
      cases h
    | ok parsed =>
      refine ⟨parsed, rfl, ?_⟩
      by_cases hfile : s.unicode.lower parsed.scheme = "file"
      · have hfetch : fetchFile s uri = ⟨[], readJailedFile s parsed.path⟩ := by
          simp only [fetchFile, hparsed, if_pos hfile]
        rw [hfetch] at h
        obtain ⟨hjail, hlength⟩ := readJailedFile_eq_ok hreal h
        refine ⟨.inl ⟨hfile, ?_, hjail⟩, hlength⟩
        rw [fetchHosts, hfetch]
        cases s.session with
        | none => rfl
        | some session => rfl
      · by_cases hscheme : s.unicode.lower parsed.scheme ∈ ["http", "https"]
        · rw [fetchFile_of_http hparsed hscheme] at h
          obtain ⟨host, session, response, hserved⟩ := downloadHttp_eq_ok hparsed hscheme h
          obtain ⟨hhost, hlength⟩ := hserved.fromHost (hallowed parsed host session response bytes hserved)
          exact ⟨.inr ⟨hscheme, hhost⟩, hlength⟩
        · rw [fetchFile, hparsed] at h
          simp only [if_neg hfile, if_neg hscheme] at h
          cases h

/-- A root with a document and with a link that leads out of it. -/
def jailTree : FileTree where
  node path :=
    if path = ["jail"] then some .directory
    else if path = ["jail", "scan.png"] then some (.file [0x89, 0x50])
    else if path = ["jail", "out"] then some (.link "/etc/passwd")
    else none
  limit := 40

def jailServer : McpServer where
  settings := { mcpFileUriRoot := some "/jail" }
  unicode := asciiData
  unquote := id
  parseInt := String.toInt?
  tree := jailTree
  realpath path := if path = "/jail/out" then .ok "/etc/passwd"
    else if path = "/jail" ∨ path = "/jail/scan.png" then .ok path
    else .error (.other "OSError")
  getaddrinfo _ := .error .gaierror
  session := none

lemma jailTree_linkFree {path : Path} (h : ["jail", "out"] ∉ path.inits) : jailTree.LinkFree path := by
  intro p target hp hnode
  by_cases hout : p = ["jail", "out"]
  · rw [hout] at hp
    exact h ((List.mem_inits _ _).mpr hp)
  · simp only [jailTree, if_neg hout] at hnode
    split_ifs at hnode
    · cases hnode
    · cases hnode

lemma jailServer_realpath (path resolved : String) (h : jailServer.realpath path = .ok resolved) :
    jailServer.tree.IsReal resolved := by
  simp only [jailServer] at h
  split_ifs at h with hout hknown
  · obtain rfl := Except.ok.inj h
    exact ⟨by decide, by decide, jailTree_linkFree (by decide)⟩
  · obtain rfl := Except.ok.inj h
    rcases hknown with rfl | rfl
    · exact ⟨by decide, by decide, jailTree_linkFree (by decide)⟩
    · exact ⟨by decide, by decide, jailTree_linkFree (by decide)⟩

/-- The document is returned, and without a session nothing is served over HTTP. -/
theorem jailServer_confined :
    (fetchFile jailServer "file:///jail/scan.png").result = .ok ([0x89, 0x50], "scan.png") ∧
      Confined jailServer "file:///jail/scan.png" :=
  ⟨by decide +kernel, (fetchFile_confined_iff jailServer jailServer_realpath "file:///jail/scan.png").mpr
    fun _ _ _ _ _ hserved => absurd hserved.opened (by simp [jailServer])⟩

example : (fetchFile jailServer "file:///jail/out").result.toOption = none := by decide +kernel

/-- The client maps the sharp s of a host name as it stands, and the resolver of Python to two letters, so
that the guard has looked at another host. -/
def idnServer : McpServer where
  unicode := asciiData
  unquote := id
  parseInt := String.toInt?
  tree := jailTree
  realpath _ := .error (.other "OSError")
  getaddrinfo host := if host = "faß.evil.com" then .ok ["93.184.216.34"]
    else if host = "xn--fa-hia.evil.com" then .ok ["127.0.0.1"]
    else .error .gaierror
  session := some {
    host := fun url => if url = "http://faß.evil.com/" then some "xn--fa-hia.evil.com" else none
    get := fun url => if url = "http://faß.evil.com/" then .ok ⟨200, none, [[0x89, 0x50]], none⟩
      else .error (.clientError "InvalidUrlClientError")
    host_of_get := by
      intro url response h
      split_ifs at h with hurl
      · exact ⟨_, if_pos hurl⟩ }

/-- The fetch returns the answer of a loopback address. -/
theorem loopback_fetched :
    (fetchFile idnServer "http://faß.evil.com/").result = .ok ([0x89, 0x50], "remote-file") ∧
      fetchHosts idnServer "http://faß.evil.com/" = ["xn--fa-hia.evil.com"] ∧
      ¬Confined idnServer "http://faß.evil.com/" := by
  have hresult : (fetchFile idnServer "http://faß.evil.com/").result = .ok ([0x89, 0x50], "remote-file") := by
    decide +kernel
  have hhosts : fetchHosts idnServer "http://faß.evil.com/" = ["xn--fa-hia.evil.com"] := by decide +kernel
  refine ⟨hresult, hhosts, fun h => ?_⟩
  obtain ⟨parsed, hparsed, hfrom, -⟩ := h _ _ hresult
  obtain ⟨-, hjail, -⟩ | ⟨-, -, -, host, -, -, hcontacted, hallowed, -⟩ := hfrom
  · rw [hhosts] at hjail
    cases hjail
  · rw [hhosts] at hcontacted
    obtain rfl := (List.cons.inj hcontacted).1
    obtain hname | haddresses := hallowed
    · cases hname
    · obtain ⟨ip, hip, hblocked⟩ := haddresses "127.0.0.1" (by decide)
      have hloopback : (IpAddress.ipAddress "127.0.0.1").map isBlocked = some true := by decide +kernel
      rw [hip, Option.map_some, hblocked] at hloopback
      cases hloopback

end AscendAI.Ocr
