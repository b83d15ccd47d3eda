import Mathlib.Data.List.Dedup
import AscendAI.Lib.HttpNetwork
import AscendAI.Lib.PythonUrl

/-!
# The download service

AudioScribe fetches the audio that a URI names, from a file below a root or from an HTTP host that its
guard lets pass. The network, the file system, the hosts that aiohttp reads in URLs and the redirects that
it follows come from outside.
-/

namespace AscendAI.AudioScribe
open HttpNetwork PythonUrl

/-- What a download raises. A `UnicodeError` of the resolver is a `ValueError`. -/
inductive DownloadError where
  | valueError (message : String)
  | fileSizeExceeded (message : String)
  | clientError (message : String)
  | osError (message : String)
  deriving DecidableEq

structure DownloadSettings where
  maxDownloadBytes : ℕ := 5 * 1024 * 1024 * 1024
  mcpFileUriRoot : Option String := none
  mcpAllowedHosts : List String := []

/-- What can be read: the chunks, and the error that breaks the reading off, if any. -/
structure ChunkSource where
  chunks : List (List UInt8)
  error : Option DownloadError := none

/-- The file system as `pathlib` and `url2pathname` show it. -/
structure LocalFiles where
  url2pathname : String → String
  resolve : String → String
  isRelativeTo : String → String → Bool
  pathExists : String → Bool
  read : String → ChunkSource

/-- The answer to a request. The location is resolved against the URL of the request. -/
structure HttpResponse where
  status : ℕ
  location : Option String := none
  contentLength : Option ℕ := none
  content : ChunkSource := ⟨[], none⟩

/-- The network as the client uses it; `host` is the host that it contacts for a URL. -/
structure HttpNet where
  getaddrinfo : GetAddrInfo
  host : String → Option String
  respond : String → Except DownloadError HttpResponse

structure DownloadService where
  settings : DownloadSettings := {}
  unicode : UnicodeData
  files : LocalFiles
  net : HttpNet
  client : RedirectPolicy

/-- A call: the URLs that it requests over HTTP, and the bytes of the temporary file that it returns. -/
structure Download where
  requested : List String
  result : Except DownloadError (List UInt8)

section Service

variable (s : DownloadService)

def resolveToIps (hostname : String) : Except DownloadError (List String) :=
  match s.net.getaddrinfo hostname with
  | .ok ips => .ok ips.dedup
  | .error .gaierror => .ok []
  | .error (.unicodeError message) => .error (.valueError message)

def isSafeIp (addr : String) : Bool :=
  match IpAddress.ipAddress addr with
  | some ip => ip.isPublic
  | none => false

def validateHttpTarget (hostname : Option String) : Except DownloadError Unit :=
  let hostname := hostname.getD ""
  if hostname = "" then .error (.valueError "URI has no hostname")
  else if hostname ∈ s.settings.mcpAllowedHosts then .ok ()
  else
    match resolveToIps s hostname with
    | .error e => .error e
    | .ok ips =>
      if ips = [] then .error (.valueError ("Could not resolve host '" ++ hostname ++ "'"))
      else if ¬ips.all isSafeIp then
        .error (.valueError ("Host '" ++ hostname ++ "' resolves to a non-public address (SSRF blocked)"))
      else .ok ()

def resolveFileUri (uriPath : String) : Except DownloadError String :=
  let root := s.settings.mcpFileUriRoot.getD ""
  if root = "" then .error (.valueError "file:// scheme is disabled (MCP_FILE_URI_ROOT not set)")
  else
    let root := s.files.resolve root
    let relative := (s.files.url2pathname uriPath).toList.dropWhile fun c => c == '/' || c == '\\'
    let candidate := s.files.resolve (root ++ "/" ++ String.ofList relative)
    if ¬s.files.isRelativeTo candidate root then
      .error (.valueError "file:// path escapes MCP_FILE_URI_ROOT jail")
    else if ¬s.files.pathExists candidate then .error (.valueError ("File not found: " ++ candidate))
    else .ok candidate

/-- The loop that writes what it reads up to the cap. -/
def writeChunks (cap : ℕ) (exceeded : String) (error : Option DownloadError) :
    List UInt8 → List (List UInt8) → Except DownloadError (List UInt8)
  | written, [] =>
    match error with
    | some e => .error e
    | none => .ok written
  | written, chunk :: chunks =>
    if cap < (written ++ chunk).length then .error (.fileSizeExceeded exceeded)
    else writeChunks cap exceeded error (written ++ chunk) chunks

def copyFileStreaming (source : String) (cap : ℕ) : Except DownloadError (List UInt8) :=
  let content := s.files.read source
  writeChunks cap ("file:// source exceeds " ++ toString cap ++ " bytes") content.error [] content.chunks

/-- Where a response redirects to. -/
def HttpResponse.redirectTarget (response : HttpResponse) : Option String :=
  if response.status ∈ [301, 302, 303, 307, 308] then response.location else none

/-- `session.get`: the requests, with at most `n` redirects, and the last response. -/
def sessionGet : ℕ → String → List String × Except DownloadError HttpResponse
  | n, url =>
    match s.net.respond url with
    | .error e => ([url], .error e)
    | .ok response =>
      match response.redirectTarget with
      | none => ([url], .ok response)
      | some target =>
        match n with
        | 0 => ([url], .error (.clientError "TooManyRedirects"))
        | n + 1 =>
          if s.client.follows target then
            let rest := sessionGet n target
            (url :: rest.1, rest.2)
          else ([url], .error (.clientError "NonHttpUrlRedirectClientError"))

def fetchHttpStreaming (uri : String) (cap : ℕ) : Download :=
  let exchange := sessionGet s s.client.maxRedirects uri
  { requested := exchange.1
    result :=
      match exchange.2 with
      | .error e => .error e
      | .ok response =>
        if response.status ≠ 200 then
          .error (.valueError ("Failed to download from " ++ uri ++ ": HTTP " ++ toString response.status))
        else if cap < response.contentLength.getD 0 then
          .error (.fileSizeExceeded ("Content-Length " ++ toString (response.contentLength.getD 0) ++
            " exceeds cap of " ++ toString cap ++ " bytes"))
        else
          writeChunks cap ("Streamed body exceeds cap of " ++ toString cap ++ " bytes") response.content.error []
            response.content.chunks }

def downloadToTempAsync (uri : String) : Download :=
  match urlparse s.unicode uri "" with
  | .error message => ⟨[], .error (.valueError message)⟩
  | .ok parsed =>
    let scheme := s.unicode.lower parsed.scheme
    if scheme = "file" then
      match resolveFileUri s parsed.path with
      | .error e => ⟨[], .error e⟩
      | .ok source => ⟨[], copyFileStreaming s source s.settings.maxDownloadBytes⟩
    else if scheme ∈ ["http", "https"] then
      match validateHttpTarget s (hostname s.unicode parsed.netloc) with
      | .error e => ⟨[], .error e⟩
      | .ok () => fetchHttpStreaming s uri s.settings.maxDownloadBytes
    else ⟨[], .error (.valueError ("Unsupported URI scheme: '" ++ scheme ++ "'"))⟩

/-- The hosts that are contacted during the call. -/
def contactedHosts (uri : String) : List String :=
  (downloadToTempAsync s uri).requested.filterMap s.net.host

end Service

end AscendAI.AudioScribe
