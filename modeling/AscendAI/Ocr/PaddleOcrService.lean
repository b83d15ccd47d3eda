import AscendAI.Lib.JsonTree

/-!
# The PaddleOCR service

The endpoint `/v1/ocr` over the engine: how its parameters are bound, the checks of the file, the
pages that are built from what the engine recognises, and the answer. An upload is bound only to a
multipart part of its name, and a plain string only to the query string.
-/

namespace AscendAI.Ocr

/-! ### Requests -/

inductive Method where
  | get
  | post
  deriving DecidableEq, Repr

inductive PartBody where
  | file (filename : String) (content : List UInt8)
  | text (value : String)
  deriving DecidableEq

structure Part where
  name : String
  body : PartBody
  deriving DecidableEq

/-- A request with its query parameters and the parts of its multipart body. -/
structure Request where
  method : Method
  path : String
  query : List (String × String) := []
  parts : List Part

structure Response where
  status : ℕ
  body : JsonTree

def bindUploadFile (name : String) (r : Request) : Option (String × List UInt8) :=
  match ((r.parts.filter fun part => part.name = name).getLast?).map Part.body with
  | some (.file filename content) => some (filename, content)
  | _ => none

def bindQuery (name : String) (r : Request) : Option String :=
  ((r.query.filter fun param => param.1 = name).getLast?).map Prod.snd

/-! ### Settings and the checks of a file -/

structure Settings where
  defaultLanguage : String := "en"
  maxFileSizeMb : ℕ := 50
  supportedLanguages : List String := ["en", "pl", "de", "fr", "es", "it", "pt", "nl", "ru", "ch", "ja", "ko"]

def bytesPerMb : ℕ := 1024 * 1024

def prefixSignatures : List (List UInt8 × String) :=
  [([0x89, 0x50, 0x4E, 0x47, 0x0D, 0x0A, 0x1A, 0x0A], "image/png"), ([0xFF, 0xD8, 0xFF], "image/jpeg"),
    ([0x47, 0x49, 0x46, 0x38, 0x37, 0x61], "image/gif"), ([0x47, 0x49, 0x46, 0x38, 0x39, 0x61], "image/gif"),
    ([0x42, 0x4D], "image/bmp"), ([0x49, 0x49, 0x2A, 0x00], "image/tiff"),
    ([0x4D, 0x4D, 0x00, 0x2A], "image/tiff"), ([0x25, 0x50, 0x44, 0x46, 0x2D], "application/pdf")]

def webpRiffPrefix : List UInt8 := [0x52, 0x49, 0x46, 0x46]

def webpTag : List UInt8 := [0x57, 0x45, 0x42, 0x50]

def sniffMime (data : List UInt8) : Option String :=
  match prefixSignatures.find? fun signature => signature.1.isPrefixOf data with
  | some signature => some signature.2
  | none =>
    if 12 ≤ data.length && webpRiffPrefix.isPrefixOf data && (data.take 12).drop 8 == webpTag then
      some "image/webp"
    else none

/-! ### The engine and its pages -/

/-- A polygon as the engine gives it: absent, or points of numbers. -/
abbrev Polygon := Option (List (List ℚ))

/-- A page of the engine: a dictionary with its three lists, or another value. -/
inductive EnginePage where
  | dict (recTexts : List String) (recScores : List ℚ) (dtPolys : List Polygon)
  | other

inductive EngineFailure where
  | raised
  | timedOut

/-- The engine on a language, the suffix of the temporary file and its content, and the time that it
takes. -/
structure Engine where
  predict : String → String → List UInt8 → Except EngineFailure (Option (List EnginePage))
  elapsed : ℚ

structure OcrService where
  settings : Settings := {}
  engine : Engine

/-- A run of the engine: the language and the bytes of the file. -/
structure EngineRun where
  language : String
  content : List UInt8
  deriving DecidableEq

/-- `_convert_polygon`: a point without two coordinates empties the box. -/
def convertPolygon : Polygon → List (List ℚ)
  | none => []
  | some points =>
    if points.all fun point => 2 ≤ point.length then points.map fun point => point.take 2 else []

/-! The fields of the models with what pydantic checks of them. -/

structure OcrTextLine where
  text : String
  confidence : ℚ
  boundingBox : List (List ℚ)
  text_length : text.length ≤ 10000
  confidence_nonneg : 0 ≤ confidence
  confidence_le_one : confidence ≤ 1
  boundingBox_length : boundingBox.length ≤ 32

structure OcrPageResult where
  pageNumber : ℕ
  lines : List OcrTextLine
  pageNumber_pos : 1 ≤ pageNumber

def matchesLanguagePattern (language : String) : Bool :=
  language.toList.all (fun c => 'a' ≤ c && c ≤ 'z') && 2 ≤ language.length && language.length ≤ 5

structure OcrJsonResponse where
  filename : String
  language : String
  pages : List OcrPageResult
  processingTimeSeconds : ℚ
  filename_length : filename.length ≤ 512
  language_pattern : matchesLanguagePattern language = true
  processingTime_nonneg : 0 ≤ processingTimeSeconds

def ocrTextLine (text : String) (score : ℚ) (box : Polygon) : Option OcrTextLine :=
  if h : text.length ≤ 10000 ∧ 0 ≤ score ∧ score ≤ 1 ∧ (convertPolygon box).length ≤ 32 then
    some ⟨text, score, convertPolygon box, h.1, h.2.1, h.2.2.1, h.2.2.2⟩
  else none

def extractTextLines (recTexts : List String) (recScores : List ℚ) (dtPolys : List Polygon) :
    Option (List OcrTextLine) :=
  (recTexts.zip (recScores.zip dtPolys)).mapM fun line => ocrTextLine line.1 line.2.1 line.2.2

/-- The pages from the one with this index on; a page that is no dictionary is left out. -/
def buildPagesFrom (index : ℕ) : List EnginePage → Option (List OcrPageResult)
  | [] => some []
  | .other :: pages => buildPagesFrom (index + 1) pages
  | .dict recTexts recScores dtPolys :: pages => do
    let lines ← extractTextLines recTexts recScores dtPolys
    let rest ← buildPagesFrom (index + 1) pages
    some (⟨index + 1, lines, Nat.le_add_left 1 index⟩ :: rest)

def buildPages (ocrResult : Option (List EnginePage)) : Option (List OcrPageResult) :=
  buildPagesFrom 0 (ocrResult.getD [])

/-! ### The endpoint -/

/-- `os.path.splitext(filename)[1]` -/
def extensionOf (filename : String) : List Char :=
  let base := (filename.toList.reverse.takeWhile (· ≠ '/')).reverse
  let suffix := (base.reverse.takeWhile (· ≠ '.')).reverse
  let stem := base.take (base.length - suffix.length - 1)
  if base.contains '.' && stem.any (· ≠ '.') then '.' :: suffix else []

def isAlphanumeric (c : Char) : Bool :=
  ('A' ≤ c && c ≤ 'Z') || ('a' ≤ c && c ≤ 'z') || ('0' ≤ c && c ≤ '9')

/-- `_safe_suffix`; the `$` of the pattern also stands before a final line feed. -/
def safeSuffix (filename : String) : String :=
  let candidate := extensionOf filename
  let name := candidate.drop 1
  let name := if name.getLast? = some '\n' then name.dropLast else name
  if candidate.head? = some '.' && name.all isAlphanumeric && 1 ≤ name.length && name.length ≤ 8 then
    String.ofList candidate
  else ""

inductive ServiceFault where
  | valueError (message : String)
  | validationError
  | engineError
  | timedOut

inductive OcrError where
  | ocrProcessing
  | fileSizeExceeded
  | unsupportedFileType
  | unhandled
  deriving DecidableEq

def errorBody (code detail : String) : JsonTree := .obj [("code", .str code), ("detail", .str detail)]

/-- The answers of the exception handlers. -/
def OcrError.response : OcrError → Response
  | .ocrProcessing => ⟨422, errorBody "OCR_FAILED" "OCR processing failed"⟩
  | .fileSizeExceeded => ⟨400, errorBody "FILE_TOO_LARGE" "File too large"⟩
  | .unsupportedFileType => ⟨400, errorBody "UNSUPPORTED_FILE_TYPE" "Unsupported file type"⟩
  | .unhandled => ⟨500, errorBody "INTERNAL_ERROR" "Internal server error"⟩

def lineJson (line : OcrTextLine) : JsonTree :=
  .obj [("text", .str line.text), ("confidence", .num line.confidence),
    ("bounding_box", .arr (line.boundingBox.map fun point => .arr (point.map .num)))]

def pageJson (page : OcrPageResult) : JsonTree :=
  .obj [("page_number", .num page.pageNumber), ("lines", .arr (page.lines.map lineJson))]

def responseJson (response : OcrJsonResponse) : JsonTree :=
  .obj [("schema_version", .str "1"), ("filename", .str response.filename),
    ("language", .str response.language), ("pages", .arr (response.pages.map pageJson)),
    ("processing_time_seconds", .num response.processingTimeSeconds)]

/-- FastAPI's answer when the upload is not in the body. -/
def missingUpload (name : String) : Response :=
  ⟨422, .obj [("detail", .arr [.obj [("type", .str "missing"), ("loc", .arr [.str "body", .str name]),
    ("msg", .str "Field required"), ("input", .null)]])]⟩

section Service

variable (svc : OcrService)

/-- `process_file`, with the runs of the engine that it makes. -/
def processFile (content : List UInt8) (filename language : String) :
    List EngineRun × Except ServiceFault OcrJsonResponse :=
  if !svc.settings.supportedLanguages.contains language then
    ([], .error (.valueError ("Unsupported language: '" ++ language ++ "'")))
  else
    ([⟨language, content⟩], match svc.engine.predict language (safeSuffix filename) content with
      | .error .raised => .error .engineError
      | .error .timedOut => .error .timedOut
      | .ok ocrResult =>
        match buildPages ocrResult with
        | none => .error .validationError
        | some pages =>
          if h : filename.length ≤ 512 ∧ matchesLanguagePattern language = true ∧ 0 ≤ svc.engine.elapsed then
            .ok ⟨filename, language, pages, svc.engine.elapsed, h.1, h.2.1, h.2.2⟩
          else .error .validationError)

/-- `_execute_ocr` under the timeout of the endpoint. -/
def executeOcr (content : List UInt8) (filename language : String) :
    List EngineRun × Except OcrError OcrJsonResponse :=
  match processFile svc content filename language with
  | (runs, .ok response) => (runs, .ok response)
  | (runs, .error .timedOut) => (runs, .error .unhandled)
  | (runs, .error _) => (runs, .error .ocrProcessing)

/-- `lang or settings.DEFAULT_LANGUAGE` -/
def languageOf : Option String → String
  | none => svc.settings.defaultLanguage
  | some lang => if lang = "" then svc.settings.defaultLanguage else lang

/-- `process_ocr` on its bound parameters. -/
def processOcr (filename : String) (content : List UInt8) (lang : Option String) :
    List EngineRun × Except OcrError OcrJsonResponse :=
  if svc.settings.maxFileSizeMb * bytesPerMb < content.length then ([], .error .fileSizeExceeded)
  else if (sniffMime content).isNone then ([], .error .unsupportedFileType)
  else executeOcr svc content (if filename = "" then "upload" else filename) (languageOf svc lang)

/-- The router: what the engine runs on, and the answer. -/
def restRouter (r : Request) : List EngineRun × Response :=
  if r.path = "/v1/ocr" then
    if r.method = .post then
      match bindUploadFile "file" r with
      | none => ([], missingUpload "file")
      | some (filename, content) =>
        match processOcr svc filename content (bindQuery "lang" r) with
        | (runs, .ok response) => (runs, ⟨200, responseJson response⟩)
        | (runs, .error e) => (runs, e.response)
    else ([], ⟨405, .obj [("detail", .str "Method Not Allowed")]⟩)
  else ([], ⟨404, .obj [("detail", .str "Not Found")]⟩)

end Service

end AscendAI.Ocr
