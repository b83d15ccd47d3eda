import AscendAI.Lib.HttpNetwork
import AscendAI.Lib.LinkedFiles
import AscendAI.Lib.PythonUrl

/-!
# The fetch of the OCR tool

The MCP tool of PaddleOCR reads the document that a URI names: a file below a root, or the answer of an
HTTP host that is allowed by name or has public addresses only. The file tree, the resolver, the client and
the hosts come from outside.
-/

namespace AscendAI.Ocr
open HttpNetwork PythonUrl PosixPath

/-- What a fetch raises. The last two are raised by the libraries that it calls. -/
inductive FetchError where
  | unsafeUri (message : String)
  | downloadFailed (message : String)
  | fileSizeExceeded (message : String)
  | runtimeError (message : String)
  | valueError (message : String)
  | other (message : String)
  deriving DecidableEq

structure McpSettings where
  maxFileSizeMb : ℕ := 50
  mcpFileUriRoot : Option String := none
  mcpAllowedHosts : List String := []

/-- How an exchange breaks off: with an `aiohttp.ClientError`, or with another exception. -/
inductive ClientFailure where
  | clientError (message : String)
  | other (message : String)
  deriving DecidableEq

/-- An answer: the chunks that `iter_chunked` gives, and how the body breaks off, if it does. -/
structure RemoteResponse where
  status : ℕ
  contentLength : Option String := none
  chunks : List (List UInt8)
  failure : Option ClientFailure := none

/-- An open session of the client: the host that it contacts for a URL, as it reads the URL itself, and the
answer. Only a host answers. -/
structure HttpSession where
  host : String → Option String
  get : String → Except ClientFailure RemoteResponse
  host_of_get : ∀ url response, get url = .ok response → ∃ name, host url = some name

/-- The server with its settings and what it finds outside. `session` is missing before the lifespan has
opened it, and `readFailure` is how the reading of a file fails. -/
structure McpServer where
  settings : McpSettings := {}
  unicode : UnicodeData
  unquote : String → String
  parseInt : String → Option ℤ
  tree : FileTree
  realpath : String → Except FetchError String
  readFailure : String → Option FetchError := fun _ => none
  getaddrinfo : GetAddrInfo
  session : Option HttpSession

/-- A call: the URLs that it requests over HTTP, and the bytes with their file name. -/
structure Fetched where
  requested : List String
  result : Except FetchError (List UInt8 × String)

def ClientFailure.raised : ClientFailure → FetchError
  | .clientError message => .downloadFailed ("HTTP fetch failed: " ++ message)
  | .other message => .other message

def isBlocked (ip : IpAddress) : Bool :=
  ip.isPrivate || ip.isLoopback || ip.isLinkLocal || ip.isMulticast || ip.isReserved || ip.isUnspecified

def isWithin (path root : String) : Bool :=
  match commonpath path root with
  | none => false
  | some common => common == root

section Server

variable (s : McpServer)

def maxBytes : ℕ := 1024 * 1024 * s.settings.maxFileSizeMb

def enforceSize (byteCount : ℤ) : Except FetchError Unit :=
  if (maxBytes s : ℤ) < byteCount then
    .error (.fileSizeExceeded ("Source size " ++ toString byteCount ++ " bytes exceeds maximum " ++
      toString s.settings.maxFileSizeMb ++ " MB"))
  else .ok ()

def readJailedFile (urlPath : String) : Except FetchError (List UInt8 × String) :=
  let root := s.settings.mcpFileUriRoot.getD ""
  if root = "" then .error (.unsafeUri "file:// access is disabled (MCP_FILE_URI_ROOT is unset)")
  else
    match s.realpath (s.unquote urlPath) with
    | .error e => .error e
    | .ok resolved =>
      match s.realpath root with
      | .error e => .error e
      | .ok resolvedRoot =>
        if ¬isWithin resolved resolvedRoot then
          .error (.unsafeUri ("Path escapes MCP_FILE_URI_ROOT: " ++ urlPath))
        else
          match s.tree.regularFile resolved with
          | none => .error (.downloadFailed ("File not found: " ++ urlPath))
          | some fileBytes =>
            match s.readFailure resolved with
            | some e => .error e
            | none =>
              match enforceSize s fileBytes.length with
              | .error e => .error e
              | .ok () => .ok (fileBytes, basename resolved)

/-- The loop over the addresses of a host. -/
def validateAddresses (host : String) : List String → Except FetchError Unit
  | [] => .ok ()
  | ipStr :: infos =>
    match IpAddress.ipAddress ipStr with
    | none => .error (.valueError ("'" ++ ipStr ++ "' does not appear to be an IPv4 or IPv6 address"))
    | some ip =>
      if isBlocked ip then
        .error (.unsafeUri ("Refusing to fetch from non-public address: " ++ host ++ " -> " ++ ipStr))
      else validateAddresses host infos

def validateHost (host : String) : Except FetchError Unit :=
  if host ∈ s.settings.mcpAllowedHosts then .ok ()
  else
    match s.getaddrinfo host with
    | .error .gaierror => .error (.unsafeUri ("Cannot resolve host: " ++ host))
    | .error (.unicodeError message) => .error (.valueError message)
    | .ok infos => validateAddresses host infos

/-- The loop over the chunks of a body. -/
def readChunks (failure : Option ClientFailure) :
    List UInt8 → List (List UInt8) → Except FetchError (List UInt8)
  | buffer, [] =>
    match failure with
    | some f => .error f.raised
    | none => .ok buffer
  | buffer, chunk :: chunks =>
    match enforceSize s (buffer ++ chunk).length with
    | .error e => .error e
    | .ok () => readChunks failure (buffer ++ chunk) chunks

def readResponse (host : String) (response : RemoteResponse) : Except FetchError (List UInt8) :=
  if response.status ≠ 200 then
    .error (.downloadFailed ("Upstream returned HTTP " ++ toString response.status ++ " for " ++ host))
  else
    match response.contentLength with
    | none => readChunks s response.failure [] response.chunks
    | some contentLength =>
      match s.parseInt contentLength with
      | none => .error (.valueError ("invalid literal for int() with base 10: '" ++ contentLength ++ "'"))
      | some byteCount =>
        match enforceSize s byteCount with
        | .error e => .error e
        | .ok () => readChunks s response.failure [] response.chunks

def remoteFilename (path : String) : String :=
  let filename := s.unquote (basename path)
  if filename = "" then "remote-file" else filename

/-- `session.get(uri, allow_redirects=False)` makes one request, and its answer is taken as it is. -/
def downloadHttp (uri : String) (parsed : ParseResult) : Fetched :=
  if (username parsed.netloc).getD "" ≠ "" ∨ (password parsed.netloc).getD "" ≠ "" then
    ⟨[], .error (.unsafeUri "Credentials in URI are not permitted")⟩
  else
    match hostname s.unicode parsed.netloc with
    | none => ⟨[], .error (.unsafeUri "URI has no hostname")⟩
    | some host =>
      match validateHost s host with
      | .error e => ⟨[], .error e⟩
      | .ok () =>
        match s.session with
        | none => ⟨[], .error (.runtimeError "MCP HTTP session is not initialised")⟩
        | some session =>
          { requested := [uri]
            result :=
              match session.get uri with
              | .error f => .error f.raised
              | .ok response =>
                match readResponse s host response with
                | .error e => .error e
                | .ok buffer => .ok (buffer, remoteFilename s parsed.path) }

def fetchFile (fileUri : String) : Fetched :=
  match urlparse s.unicode fileUri "" with
  | .error message => ⟨[], .error (.valueError message)⟩
  | .ok parsed =>
    let scheme := s.unicode.lower parsed.scheme
    if scheme = "file" then ⟨[], readJailedFile s parsed.path⟩
    else if scheme ∈ ["http", "https"] then downloadHttp s fileUri parsed
    else ⟨[], .error (.unsafeUri ("Unsupported URI scheme: '" ++ scheme ++ "'"))⟩

/-- The hosts that are contacted during the call. -/
def fetchHosts (fileUri : String) : List String :=
  match s.session with
  | none => []
  | some session => (fetchFile s fileUri).requested.filterMap session.host

end Server

end AscendAI.Ocr
