import AscendAI.Lib.JavaString
import AscendAI.Ocr.PaddleOcrService

/-!
# PaddleOcrClient

The client of the agent over the service. It names the file part `files`, and the service reads
`file`: every request is refused before the engine runs. The way back agrees: the client reads out
of an accepted answer the text that the engine recognised.
-/

namespace AscendAI.Ocr
open JavaString JsonTree

structure IngestionException where
  message : String
  deriving DecidableEq, Repr

structure Document where
  text : String
  source : String
  type : String
  deriving DecidableEq, Repr

/-- The client: its path, and the text that Jackson gives a number. -/
structure PaddleOcrClient where
  paddleApiPath : String := "/v1/ocr"
  numberText : ℚ → String

section Client

variable (client : PaddleOcrClient)

def extractLinesText (pageNode : JsonTree) : String :=
  match (pageNode.field? "lines").bind elements? with
  | none => ""
  | some lines => String.join (lines.map fun lineNode =>
      ((lineNode.field? "text").map fun text => text.asText client.numberText ++ "\n").getD "")

def extractPagesText (rootNode : JsonTree) : String :=
  match (rootNode.field? "pages").bind elements? with
  | none => ""
  | some pages => String.join (pages.map (extractLinesText client))

def documentsOf (fullText filename : String) : List Document :=
  if fullText = "" then [] else [⟨fullText, filename, "paddleocr"⟩]

def parseResponse (rootNode : JsonTree) (filename : String) : List Document :=
  documentsOf (extractPagesText client rootNode) filename

def requestFor (content : List UInt8) (filename : String) (lang : Option String) : Request where
  method := .post
  path := client.paddleApiPath
  parts := ⟨"files", .file filename content⟩ ::
    ((lang.filter fun l => hasText (some l)).map fun l => ⟨"lang", .text l⟩).toList

/-- `process` over the service: the runs of the engine, and what the call returns or throws. -/
def process (svc : OcrService) (content : List UInt8) (filename : String) (lang : Option String) :
    List EngineRun × Except IngestionException (List Document) :=
  let answer := restRouter svc (requestFor client content filename lang)
  (answer.1, if answer.2.status < 400 then .ok (parseResponse client answer.2.body filename)
    else .error ⟨"Failed to process document with PaddleOCR: " ++ filename⟩)

end Client

/-! ### The way back -/

def EnginePage.texts : EnginePage → List String
  | .dict recTexts _ _ => recTexts
  | .other => []

/-- The three lists of every page have one length. -/
def EnginePage.EqualLengths : EnginePage → Prop
  | .dict recTexts recScores dtPolys => recTexts.length = recScores.length ∧ recScores.length = dtPolys.length
  | .other => True

def recognisedTexts (ocrResult : Option (List EnginePage)) : List String :=
  (ocrResult.getD []).flatMap EnginePage.texts

/-- What the client is to return for the recognised texts. -/
def documentsFor (texts : List String) (filename : String) : List Document :=
  documentsOf (String.join (texts.map (· ++ "\n"))) filename

section Answer

variable (client : PaddleOcrClient)

lemma text_of_ocrTextLine {text : String} {score : ℚ} {box : Polygon} {line : OcrTextLine}
    (h : ocrTextLine text score box = some line) : line.text = text := by
  unfold ocrTextLine at h
  split at h
  · rw [← Option.some.inj h]
  · cases h

lemma texts_of_extractTextLines {recTexts : List String} {recScores : List ℚ} {dtPolys : List Polygon}
    (hscores : recTexts.length = recScores.length) (hpolys : recScores.length = dtPolys.length)
    {lines : List OcrTextLine} (h : extractTextLines recTexts recScores dtPolys = some lines) :
    lines.map OcrTextLine.text = recTexts := by
  induction recTexts generalizing recScores dtPolys lines with
  | nil =>
    obtain rfl := Option.some.inj h
    rfl
  | cons text recTexts ih =>
    obtain ⟨score, recScores, rfl⟩ := List.exists_cons_of_length_eq_add_one hscores.symm
    obtain ⟨box, dtPolys, rfl⟩ := List.exists_cons_of_length_eq_add_one hpolys.symm
    simp only [List.length_cons, Nat.add_right_cancel_iff] at hscores hpolys
    simp only [extractTextLines, List.zip_cons_cons, List.mapM_cons, Option.bind_eq_bind,
      Option.bind_eq_some_iff] at h
    obtain ⟨line, hline, rest, hrest, hlines⟩ := h
    obtain rfl := Option.some.inj hlines
    rw [List.map_cons, text_of_ocrTextLine hline, ih hscores hpolys hrest]

lemma texts_of_buildPagesFrom {index : ℕ} {ocrResult : List EnginePage}
    (hlengths : ∀ page ∈ ocrResult, page.EqualLengths) {pages : List OcrPageResult}
    (h : buildPagesFrom index ocrResult = some pages) :
    (pages.flatMap OcrPageResult.lines).map OcrTextLine.text = ocrResult.flatMap EnginePage.texts := by
  induction ocrResult generalizing index pages with
  | nil =>
    obtain rfl := Option.some.inj h
    rfl
  | cons page ocrResult ih =>
    have hrest := fun page hpage => hlengths page (List.mem_cons_of_mem _ hpage)
    cases page with
    | other => exact ih hrest h
    | dict recTexts recScores dtPolys =>
      have hpage := hlengths _ List.mem_cons_self
      simp only [buildPagesFrom, Option.bind_eq_bind, Option.bind_eq_some_iff] at h
      obtain ⟨lines, hlines, rest, hpages, hcons⟩ := h
      obtain rfl := Option.some.inj hcons
      rw [List.flatMap_cons, List.map_append, texts_of_extractTextLines hpage.1 hpage.2 hlines,
        ih hrest hpages, List.flatMap_cons]
      rfl

lemma extractLinesText_pageJson (page : OcrPageResult) :
    extractLinesText client (pageJson page) =
      String.join ((page.lines.map OcrTextLine.text).map (· ++ "\n")) := by
  have hlines : ((pageJson page).field? "lines").bind elements? = some (page.lines.map lineJson) := by
    rw [pageJson, field?_obj_of_ne (by decide), field?_obj_self]
    rfl
  rw [extractLinesText, hlines]
  simp only [List.map_map]
  rfl

lemma extractPagesText_responseJson (response : OcrJsonResponse) :
    extractPagesText client (responseJson response) =
      String.join (((response.pages.flatMap OcrPageResult.lines).map OcrTextLine.text).map (· ++ "\n")) := by
  have hpages : ((responseJson response).field? "pages").bind elements? =
      some (response.pages.map pageJson) := by
    rw [responseJson, field?_obj_of_ne (by decide), field?_obj_of_ne (by decide),
      field?_obj_of_ne (by decide), field?_obj_self]
    rfl
  rw [extractPagesText, hpages]
  simp only
  generalize response.pages = pages
  induction pages with
  | nil => rfl
  | cons page pages ih =>
    rw [List.map_cons, List.map_cons, String.join_cons, ih, extractLinesText_pageJson, List.flatMap_cons,
      List.map_append, List.map_append, String.join_append]

end Answer

/-! ### The way there -/

section Requests

variable (client : PaddleOcrClient) (svc : OcrService) (content : List UInt8) (filename : String)
  (lang : Option String)

lemma processFile_ok {language : String} {response : OcrJsonResponse} {runs : List EngineRun}
    (h : processFile svc content filename language = (runs, .ok response)) :
    runs = [⟨language, content⟩] ∧ ∃ ocrResult,
      svc.engine.predict language (safeSuffix filename) content = .ok ocrResult ∧
        buildPages ocrResult = some response.pages := by
  unfold processFile at h
  split at h
  · cases (Prod.mk.inj h).2
  obtain ⟨hruns, hresponse⟩ := Prod.mk.inj h
  refine ⟨hruns.symm, ?_⟩
  split at hresponse
  · cases hresponse
  · cases hresponse
  · rename_i ocrResult hpredict
    refine ⟨ocrResult, hpredict, ?_⟩
    split at hresponse
    · cases hresponse
    · rename_i pages hpages
      split at hresponse
      · rw [hpages, ← Except.ok.inj hresponse]
      · cases hresponse

lemma executeOcr_ok {language : String} {response : OcrJsonResponse} {runs : List EngineRun}
    (h : executeOcr svc content filename language = (runs, .ok response)) :
    processFile svc content filename language = (runs, .ok response) := by
  unfold executeOcr at h
  split at h
  · rename_i hfile
    obtain ⟨rfl, hresponse⟩ := Prod.mk.inj h
    obtain rfl := Except.ok.inj hresponse
    exact hfile
  · cases (Prod.mk.inj h).2
  · cases (Prod.mk.inj h).2

/-- A file that is bound and accepted is read once, in the language of the query or the default, and
its answer holds the recognised texts in the order of pages and lines. -/
theorem documents_of_processOcr {response : OcrJsonResponse} {runs : List EngineRun}
    (h : processOcr svc filename content lang = (runs, .ok response)) :
    runs = [⟨languageOf svc lang, content⟩] ∧ ∃ suffix ocrResult,
      svc.engine.predict (languageOf svc lang) suffix content = .ok ocrResult ∧
        ((∀ page ∈ ocrResult.getD [], page.EqualLengths) →
          parseResponse client (responseJson response) filename =
            documentsFor (recognisedTexts ocrResult) filename) := by
  unfold processOcr at h
  split at h
  · cases (Prod.mk.inj h).2
  split at h
  · cases (Prod.mk.inj h).2
  obtain ⟨hruns, ocrResult, hpredict, hpages⟩ := processFile_ok _ _ _ (executeOcr_ok _ _ _ h)
  refine ⟨hruns, _, ocrResult, hpredict, fun hlengths => ?_⟩
  unfold parseResponse documentsFor recognisedTexts
  rw [extractPagesText_responseJson, texts_of_buildPagesFrom hlengths hpages]

/-- The client asks for a part that the service does not read. -/
lemma process_eq : process client svc content filename lang =
    ([], .error ⟨"Failed to process document with PaddleOCR: " ++ filename⟩) := by
  have hbind : bindUploadFile "file" (requestFor client content filename lang) = none := by
    unfold bindUploadFile requestFor
    cases lang.filter fun l => hasText (some l) with
    | none => rfl
    | some l => rfl
  have hanswer : (restRouter svc (requestFor client content filename lang)).1 = [] ∧
      ¬(restRouter svc (requestFor client content filename lang)).2.status < 400 := by
    unfold restRouter
    split
    · simp only [hbind]
      split
      · exact ⟨rfl, by decide⟩
      · exact ⟨rfl, by decide⟩
    · exact ⟨rfl, by decide⟩
  simp only [process, hanswer.1, if_neg hanswer.2]

end Requests

/-- The client and the service speak one protocol on a file: the engine runs once, on the bytes of
the file and in its language or the default, and the texts that it recognises come back. -/
def SpeaksProtocol (client : PaddleOcrClient) (svc : OcrService) (content : List UInt8) (filename : String)
    (lang : Option String) : Prop :=
  ∃ suffix ocrResult,
    svc.engine.predict (lang.getD svc.settings.defaultLanguage) suffix content = .ok ocrResult ∧
      process client svc content filename lang =
        ([⟨lang.getD svc.settings.defaultLanguage, content⟩],
          .ok (documentsFor (recognisedTexts ocrResult) filename))

/-- On no file does it, whatever the engine, the file and the language. -/
theorem not_speaksProtocol (client : PaddleOcrClient) (svc : OcrService) (content : List UInt8)
    (filename : String) (lang : Option String) : ¬SpeaksProtocol client svc content filename lang := by
  rintro ⟨suffix, ocrResult, -, hprocess⟩
  rw [process_eq] at hprocess
  cases (Prod.mk.inj hprocess).1

/-- An engine that finds one line on the page of every file. -/
def oneLineEngine : Engine where
  predict _ _ _ := .ok (some [.dict ["Total: $100"] [1] [none]])
  elapsed := 1

def pngBytes : List UInt8 := [0x89, 0x50, 0x4E, 0x47, 0x0D, 0x0A, 0x1A, 0x0A]

/-- The engine never sees the file, and the call throws. -/
theorem invoice_is_refused :
    process ⟨"/v1/ocr", fun _ => ""⟩ { engine := oneLineEngine } pngBytes "invoice.png" (some "en") ≠
      ([⟨"en", pngBytes⟩], .ok [⟨"Total: $100\n", "invoice.png", "paddleocr"⟩]) := by
  rw [process_eq]
  intro h
  cases (Prod.mk.inj h).1

end AscendAI.Ocr
