import AscendAI.AudioScribe.DownloadService

/-!
# The hosts of a download

The guard looks at the host that Python reads in the URI only, so what a download contacts is permitted
exactly when the client reads the same host in a URI that the guard lets pass, or another permitted one, and
the redirects of the URI lead to permitted hosts.
-/

namespace AscendAI.AudioScribe
open HttpNetwork PythonUrl

/-- The host is allowed by name, or resolves to safe addresses only. -/
def PermittedHost (s : DownloadService) (host : String) : Prop :=
  host ∈ s.settings.mcpAllowedHosts ∨ ∀ ip ∈ s.net.getaddrinfo.addresses host, isSafeIp ip

instance (s : DownloadService) (host : String) : Decidable (PermittedHost s host) :=
  inferInstanceAs (Decidable (_ ∨ _))

def PermittedUrl (s : DownloadService) (url : String) : Prop :=
  ∀ host ∈ s.net.host url, PermittedHost s host

/-- The URI is one of HTTP and its host passes the guard. -/
def Guarded (s : DownloadService) (uri : String) : Prop :=
  ∃ parsed, urlparse s.unicode uri "" = .ok parsed ∧ s.unicode.lower parsed.scheme ∈ ["http", "https"] ∧
    validateHttpTarget s (hostname s.unicode parsed.netloc) = .ok ()

/-- The host that the guard looks at. -/
def checkedHost (s : DownloadService) (uri : String) : Option String :=
  match urlparse s.unicode uri "" with
  | .ok parsed => hostname s.unicode parsed.netloc
  | .error _ => none

/-- Where the client goes from a URL when it may follow one more redirect. -/
def redirectedTo (s : DownloadService) (url : String) : Option String :=
  match s.net.respond url with
  | .ok response => response.redirectTarget.filter s.client.follows
  | .error _ => none

section Contacted

variable {s : DownloadService}

lemma permittedHost_of_validate {host : String} (h : validateHttpTarget s (some host) = .ok ()) :
    PermittedHost s host := by
  unfold validateHttpTarget at h
  simp only [Option.getD_some] at h
  by_cases hempty : host = ""
  · rw [if_pos hempty] at h
    cases h
  rw [if_neg hempty] at h
  by_cases hallowed : host ∈ s.settings.mcpAllowedHosts
  · exact Or.inl hallowed
  rw [if_neg hallowed] at h
  refine Or.inr fun ip hip => ?_
  unfold GetAddrInfo.addresses at hip
  unfold resolveToIps at h
  cases hresolved : s.net.getaddrinfo host with
  | error e =>
    rw [hresolved] at hip
    cases hip
  | ok ips =>
    simp only [hresolved] at h hip
    by_cases hsafe : ips.dedup.all isSafeIp
    · exact List.all_eq_true.mp hsafe ip (List.mem_dedup.mpr hip)
    · by_cases hnone : ips.dedup = []
      · rw [if_pos hnone] at h
        cases h
      · rw [if_neg hnone, if_pos hsafe] at h
        cases h

/-- `session.get` requests what the redirects lead to. -/
lemma requested_sessionGet (n : ℕ) (url : String) : (sessionGet s n url).1 = follow (redirectedTo s) n url := by
  induction n generalizing url with
  | zero =>
    unfold sessionGet follow
    cases s.net.respond url with
    | error e => rfl
    | ok response => cases htarget : response.redirectTarget <;> simp only [htarget]
  | succ n ih =>
    cases hrespond : s.net.respond url with
    | error e =>
      have hnext : redirectedTo s url = none := by simp only [redirectedTo, hrespond]
      rw [sessionGet, follow]
      simp only [hrespond, hnext]
    | ok response =>
      cases htarget : response.redirectTarget with
      | none =>
        have hnext : redirectedTo s url = none := by
          simp only [redirectedTo, hrespond, htarget, Option.filter_none]
        rw [sessionGet, follow]
        simp only [hrespond, htarget, hnext]
      | some target =>
        by_cases hfollows : s.client.follows target
        · have hnext : redirectedTo s url = some target := by
            simp only [redirectedTo, hrespond, htarget, Option.filter_some, if_pos hfollows]
          rw [sessionGet, follow]
          simp only [hrespond, htarget, hnext, if_pos hfollows, ih]
        · have hnext : redirectedTo s url = none := by
            simp only [redirectedTo, hrespond, htarget, Option.filter_some, if_neg hfollows]
          rw [sessionGet, follow]
          simp only [hrespond, htarget, hnext, if_neg hfollows]

lemma requested_of_guarded {uri : String} (h : Guarded s uri) :
    (downloadToTempAsync s uri).requested = follow (redirectedTo s) s.client.maxRedirects uri := by
  obtain ⟨parsed, hparsed, hscheme, hvalid⟩ := h
  have hfile : s.unicode.lower parsed.scheme ≠ "file" := by
    rintro heq
    rw [heq] at hscheme
    exact absurd hscheme (by decide)
  simp only [downloadToTempAsync, hparsed, if_neg hfile, if_pos hscheme, hvalid, fetchHttpStreaming,
    requested_sessionGet]

/-- A URI that the guard does not let pass is not requested, and a file is not either. -/
lemma requested_of_not_guarded {uri : String} (h : ¬Guarded s uri) : (downloadToTempAsync s uri).requested = [] := by
  unfold downloadToTempAsync
  cases hparsed : urlparse s.unicode uri "" with
  | error message => rfl
  | ok parsed =>
    by_cases hfile : s.unicode.lower parsed.scheme = "file"
    · simp only [if_pos hfile]
      cases resolveFileUri s parsed.path <;> rfl
    · simp only [if_neg hfile]
      by_cases hscheme : s.unicode.lower parsed.scheme ∈ ["http", "https"]
      · simp only [if_pos hscheme]
        cases hvalid : validateHttpTarget s (hostname s.unicode parsed.netloc) with
        | error e => rfl
        | ok _ => exact absurd ⟨parsed, hparsed, hscheme, hvalid⟩ h
      · simp only [if_neg hscheme]

/-- The guard has seen to the host of the URI, unless the client contacts another one. -/
lemma permittedUrl_iff_of_guarded {uri : String} (h : Guarded s uri) :
    PermittedUrl s uri ↔ ∀ host ∈ s.net.host uri, checkedHost s uri ≠ some host → PermittedHost s host := by
  obtain ⟨parsed, hparsed, -, hvalid⟩ := h
  constructor
  · exact fun hpermitted host hhost _ => hpermitted host hhost
  · intro hothers host hhost
    by_cases hchecked : checkedHost s uri = some host
    · have hname : hostname s.unicode parsed.netloc = some host := by
        simpa only [checkedHost, hparsed] using hchecked
      rw [hname] at hvalid
      exact permittedHost_of_validate hvalid
    · exact hothers host hhost hchecked

/-- Every host that is contacted is permitted exactly when the URI does not pass the guard, or the client
contacts for it the host that the guard has checked or another permitted one, and every redirect that it
follows from there leads to a permitted host. -/
theorem contactedHosts_permitted_iff (s : DownloadService) (uri : String) :
    (∀ host ∈ contactedHosts s uri, PermittedHost s host) ↔
      (Guarded s uri →
        (∀ host ∈ s.net.host uri, checkedHost s uri ≠ some host → PermittedHost s host) ∧
          ∀ k < s.client.maxRedirects, ∀ target,
            hop (redirectedTo s) (k + 1) uri = some target → PermittedUrl s target) := by
  have hurls : (∀ host ∈ contactedHosts s uri, PermittedHost s host) ↔
      ∀ url ∈ (downloadToTempAsync s uri).requested, PermittedUrl s url := by
    simp only [contactedHosts, List.mem_filterMap, PermittedUrl, Option.mem_def]
    constructor
    · intro h url hurl host hhost
      exact h host ⟨url, hurl, hhost⟩
    · rintro h host ⟨url, hurl, hhost⟩
      exact h url hurl host hhost
  rw [hurls]
  by_cases hguarded : Guarded s uri
  · rw [requested_of_guarded hguarded, forall_follow_iff, permittedUrl_iff_of_guarded hguarded]
    exact ⟨fun h _ => h, fun h => h hguarded⟩
  · rw [requested_of_not_guarded hguarded]
    constructor
    · intro _ h
      exact absurd h hguarded
    · intro _ url hurl
      cases hurl

end Contacted

/-- A public host that redirects to the metadata service of its network. -/
def redirectingService : DownloadService where
  unicode := asciiData
  files := ⟨id, id, fun _ _ => true, fun _ => false, fun _ => ⟨[], none⟩⟩
  client := ⟨fun _ => true, 9⟩
  net := {
    getaddrinfo := fun host => if host = "cdn.example.com" then .ok ["93.184.216.34"] else .ok [host]
    host := fun url =>
      if url = "https://cdn.example.com/a.mp3" then some "cdn.example.com"
      else if url = "http://169.254.169.254/latest/meta-data/" then some "169.254.169.254"
      else none
    respond := fun url =>
      if url = "https://cdn.example.com/a.mp3" then
        .ok ⟨302, some "http://169.254.169.254/latest/meta-data/", none, ⟨[], none⟩⟩
      else .ok ⟨200, none, none, ⟨[[97]], none⟩⟩ }

/-- The download ends well after it has contacted the metadata service. -/
theorem metadata_service_contacted :
    contactedHosts redirectingService "https://cdn.example.com/a.mp3" = ["cdn.example.com", "169.254.169.254"] ∧
      ¬PermittedHost redirectingService "169.254.169.254" ∧
      (downloadToTempAsync redirectingService "https://cdn.example.com/a.mp3").result = .ok [97] := by
  decide +kernel

end AscendAI.AudioScribe
