import AscendAI.Lib.PythonUrl

/-!
# urljoin

How Python's `urljoin` resolves a reference against a base URL.
-/

namespace PythonUrl

/-- A parse result with the parameters of the last segment and the fragment. -/
structure UrlParts extends ParseResult where
  params : String
  fragment : String

def urlparseParts (u : UnicodeData) (url scheme : String) : Except String UrlParts :=
  (urlparse u url scheme).map fun parsed =>
    let fragmented := partition '#' (splitNetloc (splitScheme scheme.toList (cleanUrl url)).2).2
    let path := (partition '?' fragmented.1).1
    { toParseResult := parsed
      params := if parsed.scheme ∈ usesParams then String.ofList (partition ';' (afterLast '/' path)).2.2 else ""
      fragment := String.ofList fragmented.2.2 }

def usesRelative : List String :=
  ["", "ftp", "http", "gopher", "nntp", "imap", "wais", "file", "https", "shttp", "mms", "prospero", "rtsp",
    "rtsps", "rtspu", "sftp", "svn", "svn+ssh", "ws", "wss"]

def usesNetloc : List String :=
  ["", "ftp", "http", "gopher", "nntp", "telnet", "imap", "wais", "file", "mms", "https", "shttp", "snews",
    "prospero", "rtsp", "rtsps", "rtspu", "rsync", "svn", "svn+ssh", "sftp", "nfs", "git", "git+ssh", "ws", "wss"]

def urlunparse (p : UrlParts) : String :=
  let path := if p.params = "" then p.path else p.path ++ ";" ++ p.params
  let located :=
    if p.netloc ≠ "" ∨ (p.scheme ≠ "" ∧ p.scheme ∈ usesNetloc ∧ ¬['/', '/'].isPrefixOf path.toList) then
      "//" ++ p.netloc ++ (if path ≠ "" ∧ path.toList.head? ≠ some '/' then "/" ++ path else path)
    else path
  let schemed := if p.scheme = "" then located else p.scheme ++ ":" ++ located
  let queried := if p.query = "" then schemed else schemed ++ "?" ++ p.query
  if p.fragment = "" then queried else queried ++ "#" ++ p.fragment

def splitSlash (path : String) : List String := (path.toList.splitOn '/').map String.ofList

/-- `segments[1:-1] = filter(None, segments[1:-1])` -/
def filterMiddle : List String → List String
  | [] => []
  | first :: rest =>
    match rest.getLast? with
    | none => [first]
    | some last => first :: (rest.dropLast.filter (· ≠ "") ++ [last])

/-- Two dots take back a segment if there is one, and a dot is left out. -/
def resolveSegments : List String → List String → List String
  | resolved, [] => resolved
  | resolved, segment :: rest =>
    if segment = ".." then resolveSegments resolved.dropLast rest
    else if segment = "." then resolveSegments resolved rest
    else resolveSegments (resolved ++ [segment]) rest

def joinPaths (base path : String) : String :=
  let baseParts := splitSlash base
  let segments :=
    if path.toList.head? = some '/' then splitSlash path
    else filterMiddle ((if baseParts.getLast? = some "" then baseParts else baseParts.dropLast) ++ splitSlash path)
  let resolved := resolveSegments [] segments
  let ended := if segments.getLast? = some "." ∨ segments.getLast? = some ".." then resolved ++ [""] else resolved
  let joined := PythonString.join "/" ended
  if joined = "" then "/" else joined

/-- `urljoin(base, url)`; a `ValueError` of the parser is raised. -/
def urljoin (u : UnicodeData) (base url : String) : Except String String :=
  if base = "" then .ok url
  else if url = "" then .ok base
  else
    match urlparseParts u base "" with
    | .error e => .error e
    | .ok b =>
      match urlparseParts u url b.scheme with
      | .error e => .error e
      | .ok r =>
        if r.scheme ≠ b.scheme ∨ r.scheme ∉ usesRelative then .ok url
        else if r.scheme ∈ usesNetloc ∧ r.netloc ≠ "" then .ok (urlunparse r)
        else
          let netloc := if r.scheme ∈ usesNetloc then b.netloc else r.netloc
          if r.path = "" ∧ r.params = "" then
            .ok (urlunparse { r with
              netloc := netloc
              path := b.path
              params := b.params
              query := if r.query = "" then b.query else r.query })
          else .ok (urlunparse { r with netloc := netloc, path := joinPaths b.path r.path })

example : urljoin asciiData "https://a.de/b/c?x" "../d;p#f" = .ok "https://a.de/d;p#f" := by decide +kernel

end PythonUrl
