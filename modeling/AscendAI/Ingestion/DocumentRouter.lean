import AscendAI.Chat.ChatExecutor
import AscendAI.Lib.StableSort
import AscendAI.Lib.WorkerPool

/-!
# DocumentRouter

A document goes to a processor by the extension of its name. The pages of a PDF are cut apart one after the other
and then go to a pool of workers, each to OCR or to Docling by the length of its text. The documents of all pages come
back in the order of the pages. What the processors answer comes from outside.
-/

namespace AscendAI.Ingestion
open Chat JavaString WorkerPool

/-- A page of a loaded PDF: its text, and the page as a file of its own or the exception on the way. -/
structure PdfPage where
  text : Option String
  singlePage : Except Thrown (List UInt8)

/-- The processors, and the loader of PDFs. -/
structure Processors (Doc : Type) where
  processMarkdown : List UInt8 → String → Except Thrown (List Doc)
  docling : List UInt8 → String → Except Thrown (List Doc)
  paddleOcr : List UInt8 → String → Except Thrown (List Doc)
  processUnstructured : List UInt8 → String → Except Thrown (List Doc)
  loadPdf : List UInt8 → Except Thrown (List PdfPage)

structure RouterProperties where
  locale : JavaLocale
  pdfMinTextThresholdPerPage : ℤ := 50
  pdfParallelPages : ℤ := 8

structure PageWork where
  pageNumber : ℕ
  pageFilename : String
  pdfBytes : List UInt8
  textLength : ℕ

structure PageResult (Doc : Type) where
  pageNumber : ℕ
  documents : List Doc

section Router

variable {Doc : Type} (cfg : RouterProperties) (processors : Processors Doc)

def documentExtension (filename : Option String) : String :=
  match filename with
  | none => ""
  | some name => if '.' ∉ name.toList then "" else cfg.locale.toLowerCase (afterLast name '.')

/-- An `IOException` becomes a failure of the routing; a `RuntimeException` goes through. -/
def wrapChecked {α : Type} (message : String) (result : Except Thrown α) : Except Thrown α :=
  result.mapError fun e => if e.kind = .checked then ⟨.documentRouting, some message⟩ else e

def buildPageWork (filename : String) (pageIndex : ℕ) (page : PdfPage) : Except Thrown PageWork :=
  page.singlePage.map fun pdfBytes => {
    pageNumber := pageIndex + 1
    pageFilename := filename ++ "_page" ++ toString (pageIndex + 1) ++ ".pdf"
    pdfBytes := pdfBytes
    textLength := length (trim (page.text.getD "")) }

/-- The loop over the pages from an index on. -/
def sliceIntoPageWork (filename : String) : ℕ → List PdfPage → Except Thrown (List PageWork)
  | _, [] => .ok []
  | pageIndex, page :: pages =>
    match buildPageWork filename pageIndex page with
    | .error e => .error e
    | .ok work => (sliceIntoPageWork filename (pageIndex + 1) pages).map (work :: ·)

def routeSinglePdfPage (work : PageWork) : Except Thrown (List Doc) :=
  if (work.textLength : ℤ) < cfg.pdfMinTextThresholdPerPage then processors.paddleOcr work.pdfBytes work.pageFilename
  else processors.docling work.pdfBytes work.pageFilename

/-- `Math.clamp(pdfParallelPages, 1, pages)` -/
def parallelism (pages : ℕ) : ℕ := (min (max cfg.pdfParallelPages 1) pages).toNat

def failedPage (filename : String) : Thrown := ⟨.documentRouting, some ("Failed to route PDF page: " ++ filename)⟩

/-- A job of the pool. There is none with a number beyond the pages. -/
def pageJob (works : List PageWork) (k : ℕ) : Except Thrown (PageResult Doc) :=
  match works[k]? with
  | none => .ok ⟨k + 1, []⟩
  | some work => (routeSinglePdfPage cfg processors work).map fun documents => ⟨work.pageNumber, documents⟩

def pagePool (works : List PageWork) : Program (Except Thrown (PageResult Doc)) where
  count := works.length
  workers := parallelism cfg works.length
  result := pageJob cfg processors works

/-- `collectInPageOrder` -/
def collectInPageOrder (results : List (PageResult Doc)) : List Doc :=
  (StableSort.sortBy PageResult.pageNumber results).flatMap PageResult.documents

/-- What the caller makes of the futures once all of them are completed, in the order of submission. -/
def answerOf (filename : String) (futures : List (Except Thrown (PageResult Doc))) : Except Thrown (List Doc) :=
  if futures.any fun future => !future.isOk then .error (failedPage filename)
  else .ok (collectInPageOrder (futures.filterMap Except.toOption))

/-- The futures of a state of the pool. -/
def futuresOf (works : List PageWork) (s : State (Except Thrown (PageResult Doc))) :
    List (Except Thrown (PageResult Doc)) :=
  (List.range works.length).filterMap s.result?

/-- What is to be done with a document: an answer, or the work for a pool. -/
inductive Routed (Doc : Type) where
  | answered (answer : Except Thrown (List Doc))
  | dispatched (works : List PageWork)

def routePdfPerPage (fileBytes : List UInt8) (filename : String) : Routed Doc :=
  match wrapChecked ("Failed to analyze PDF: " ++ filename)
      ((processors.loadPdf fileBytes).bind (sliceIntoPageWork filename 0)) with
  | .error e => .answered (.error e)
  | .ok [] => .answered (.ok [])
  | .ok works => .dispatched works

def doclingExtensions : List String := ["docx", "xlsx", "pptx", "html"]

def imageExtensions : List String := ["png", "jpg", "jpeg", "tiff", "bmp", "webp"]

def unstructuredExtensions : List String := ["eml", "msg", "epub", "rtf", "xml", "odt"]

/-- `routeAndProcess`; the texts of the names come out as `null` where there is none. -/
def routeAndProcess (fileBytes : List UInt8) (filename : Option String) : Routed Doc :=
  let extension := documentExtension cfg filename
  let name := Provider.formatNullable filename
  if extension = "md" then
    .answered (wrapChecked ("Failed to process markdown: " ++ name) (processors.processMarkdown fileBytes name))
  else if doclingExtensions.contains extension then .answered (processors.docling fileBytes name)
  else if imageExtensions.contains extension then .answered (processors.paddleOcr fileBytes name)
  else if unstructuredExtensions.contains extension then
    .answered (wrapChecked ("Failed to process unstructured: " ++ name) (processors.processUnstructured fileBytes name))
  else if extension = "pdf" then routePdfPerPage processors fileBytes name
  else .answered (.error ⟨.unsupportedFileType, some ("Filetype is not supported: " ++ extension)⟩)

/-- The pages one after the other, without a pool. -/
def routeSequentially (filename : String) (works : List PageWork) : Except Thrown (List Doc) :=
  ((works.mapM (routeSinglePdfPage cfg processors)).map List.flatten).mapError fun _ => failedPage filename

end Router

/-! ### The pages in order -/

section Pages

variable {Doc : Type} {cfg : RouterProperties} {processors : Processors Doc}

/-- The pages are numbered from one on. -/
lemma pageNumbers_sliceIntoPageWork {filename : String} {pages : List PdfPage} {pageIndex : ℕ} {works : List PageWork}
    (h : sliceIntoPageWork filename pageIndex pages = .ok works) :
    works.map PageWork.pageNumber = List.range' (pageIndex + 1) pages.length := by
  induction pages generalizing pageIndex works with
  | nil =>
    obtain rfl := Except.ok.inj h
    rfl
  | cons page pages ih =>
    rw [sliceIntoPageWork] at h
    cases hwork : buildPageWork filename pageIndex page with
    | error e =>
      simp only [hwork] at h
      cases h
    | ok work =>
      simp only [hwork] at h
      cases hrest : sliceIntoPageWork filename (pageIndex + 1) pages with
      | error e =>
        rw [hrest] at h
        cases h
      | ok rest =>
        rw [hrest] at h
        obtain rfl := Except.ok.inj h
        have hnumber : work.pageNumber = pageIndex + 1 := by
          rw [buildPageWork] at hwork
          cases hpage : page.singlePage with
          | error e =>
            rw [hpage] at hwork
            cases hwork
          | ok bytes =>
            rw [hpage] at hwork
            rw [← Except.ok.inj hwork]
        rw [List.map_cons, hnumber, ih hrest, List.length_cons, List.range'_succ]

/-- What is to be dispatched comes in the order of the page numbers. -/
def Numbered (works : List PageWork) : Prop := works.map PageWork.pageNumber = List.range' 1 works.length

lemma numbered_of_dispatched {fileBytes : List UInt8} {filename : Option String} {works : List PageWork}
    (h : routeAndProcess cfg processors fileBytes filename = .dispatched works) : works ≠ [] ∧ Numbered works := by
  have hpdf : ∀ name, routePdfPerPage processors fileBytes name = .dispatched works → works ≠ [] ∧ Numbered works := by
    intro name hrouted
    rw [routePdfPerPage] at hrouted
    cases hload : processors.loadPdf fileBytes with
    | error e =>
      rw [hload] at hrouted
      cases hrouted
    | ok pages =>
      rw [hload] at hrouted
      cases hslice : sliceIntoPageWork name 0 pages with
      | error e =>
        simp only [Except.bind, hslice, wrapChecked, Except.mapError] at hrouted
        cases hrouted
      | ok sliced =>
        simp only [Except.bind, hslice, wrapChecked, Except.mapError] at hrouted
        have hnumbers := pageNumbers_sliceIntoPageWork hslice
        cases sliced with
        | nil => cases hrouted
        | cons work rest =>
          obtain rfl := Routed.dispatched.inj hrouted
          refine ⟨List.cons_ne_nil _ _, ?_⟩
          have hlength := congrArg List.length hnumbers
          rw [List.length_map, List.length_range'] at hlength
          rw [Numbered, hnumbers, hlength]
  simp only [routeAndProcess] at h
  split at h
  · cases h
  split at h
  · cases h
  split at h
  · cases h
  split at h
  · cases h
  split at h
  · exact hpdf _ h
  · cases h

lemma parallelism_bounds {pages : ℕ} (hpages : pages ≠ 0) :
    0 < parallelism cfg pages ∧ parallelism cfg pages ≤ pages := by
  rw [parallelism]
  omega

/-- Results in the order of the page numbers are in order already. -/
lemma collectInPageOrder_of_sorted {results : List (PageResult Doc)}
    (h : (results.map PageResult.pageNumber).Pairwise (· ≤ ·)) :
    collectInPageOrder results = results.flatMap PageResult.documents := by
  have hsorted : StableSort.sortBy PageResult.pageNumber results = results :=
    List.Pairwise.insertionSort_eq (List.pairwise_map.mp h)
  rw [collectInPageOrder, hsorted]

/-- The loop over the pages ends with the first failure, or with the documents of all pages. -/
lemma routeSequentially_eq (filename : String) (works : List PageWork) :
    routeSequentially cfg processors filename works =
      if works.any fun work => !(routeSinglePdfPage cfg processors work).isOk then .error (failedPage filename)
      else .ok (works.flatMap fun work => ((routeSinglePdfPage cfg processors work).toOption).getD []) := by
  rw [routeSequentially]
  induction works with
  | nil => rfl
  | cons work works ih =>
    rw [List.mapM_cons, List.any_cons, List.flatMap_cons]
    cases hwork : routeSinglePdfPage cfg processors work with
    | error e => rfl
    | ok documents =>
      cases hrest : works.mapM (routeSinglePdfPage cfg processors) with
      | error e =>
        rw [hrest] at ih
        simp only [Except.map, Except.mapError] at ih
        split at ih
        · rename_i hany
          rw [hany]
          rfl
        · cases ih
      | ok rest =>
        rw [hrest] at ih
        simp only [Except.map, Except.mapError] at ih
        split at ih
        · cases ih
        · rename_i hany
          rw [Bool.not_eq_true] at hany
          rw [hany, ← Except.ok.inj ih]
          rfl

/-- What the pool brings back is what the loop over the pages brings. -/
lemma answerOf_pages {works : List PageWork} (hnumbered : Numbered works) (filename : String) :
    answerOf filename (works.map fun work =>
        (routeSinglePdfPage cfg processors work).map fun documents => (⟨work.pageNumber, documents⟩ : PageResult Doc)) =
      routeSequentially cfg processors filename works := by
  rw [routeSequentially_eq, answerOf]
  have hany : (works.map fun work => (routeSinglePdfPage cfg processors work).map fun documents =>
      (⟨work.pageNumber, documents⟩ : PageResult Doc)).any (fun future => !future.isOk) =
        works.any fun work => !(routeSinglePdfPage cfg processors work).isOk := by
    rw [List.any_map]
    congr 1
    funext work
    rw [Function.comp_apply]
    cases routeSinglePdfPage cfg processors work <;> rfl
  rw [hany]
  split
  · rfl
  rename_i hfine
  rw [Bool.not_eq_true, List.any_eq_false] at hfine
  have hresults : (works.map fun work => (routeSinglePdfPage cfg processors work).map fun documents =>
      (⟨work.pageNumber, documents⟩ : PageResult Doc)).filterMap Except.toOption =
        works.map fun work => ⟨work.pageNumber, ((routeSinglePdfPage cfg processors work).toOption).getD []⟩ := by
    rw [List.filterMap_map, ← List.filterMap_eq_map]
    apply List.filterMap_congr
    intro work hwork
    have hok := hfine work hwork
    rw [Function.comp_apply, Function.comp_apply]
    cases hroute : routeSinglePdfPage cfg processors work with
    | error e =>
      rw [hroute] at hok
      exact absurd rfl hok
    | ok documents => rfl
  rw [hresults, collectInPageOrder_of_sorted, List.flatMap_map]
  rw [List.map_map]
  have hnumbers : works.map (PageResult.pageNumber ∘ fun work =>
      (⟨work.pageNumber, ((routeSinglePdfPage cfg processors work).toOption).getD []⟩ : PageResult Doc)) =
        List.range' 1 works.length := hnumbered
  rw [hnumbers]
  exact List.pairwise_le_range'

/-- The futures of a pool that has let its caller go on. -/
lemma futuresOf_resumed {works : List PageWork} {s : State (Except Thrown (PageResult Doc))}
    (h : ∀ k < works.length, s.result? k = some (pageJob cfg processors works k)) :
    futuresOf works s = works.map fun work =>
      (routeSinglePdfPage cfg processors work).map fun documents => ⟨work.pageNumber, documents⟩ := by
  have hresults : futuresOf works s = (List.range works.length).map (pageJob cfg processors works) := by
    rw [futuresOf, ← List.filterMap_eq_map]
    apply List.filterMap_congr
    intro k hk
    exact h k (List.mem_range.mp hk)
  rw [hresults]
  apply List.ext_getElem
  · rw [List.length_map, List.length_range, List.length_map]
  · intro k hk hk'
    rw [List.length_map] at hk'
    rw [List.getElem_map, List.getElem_range, List.getElem_map, pageJob, List.getElem?_eq_getElem hk']

end Pages

/-- Whatever the order in which the workers take and end the pages of a PDF, at most as many run at once as the
settings allow, no page is taken twice, the pool never stands still and comes to its end, and its answer is that of
the pages one after the other: the documents in the order of the pages, or the failure of one of them. -/
theorem pages_in_order {Doc : Type} (cfg : RouterProperties) (processors : Processors Doc) {fileBytes : List UInt8}
    {filename : Option String} {works : List PageWork}
    (hrouted : routeAndProcess cfg processors fileBytes filename = .dispatched works) (events : List Event)
    {s : State (Except Thrown (PageResult Doc))}
    (hrun : (pagePool cfg processors works).run? State.init events = some s) (name : String) :
    ((s.running.length : ℤ) ≤ max cfg.pdfParallelPages 1 ∧ (s.queue ++ (s.running ++ s.doneJobs)).Nodup ∧
      events.length ≤ 3 * works.length + 2) ∧
    (s.caller = .resumed ∨ ∃ event s', (pagePool cfg processors works).step? s event = some s') ∧
    (s.caller = .resumed → s.queue = [] ∧ s.running = [] ∧
      answerOf name (futuresOf works s) = routeSequentially cfg processors name works) := by
  obtain ⟨hne, hnumbered⟩ := numbered_of_dispatched hrouted
  have hinv := ((Program.Inv.init (pagePool cfg processors works)).run hrun).1
  have hbounds : 0 < parallelism cfg works.length ∧ parallelism cfg works.length ≤ works.length :=
    parallelism_bounds fun h => hne (List.length_eq_zero_iff.mp h)
  have hworkers : s.running.length ≤ parallelism cfg works.length := hinv.workers
  refine ⟨⟨?_, hinv.nodup, Program.length_le hrun⟩, hinv.moves hbounds.1, fun hresumed => ?_⟩
  · rw [parallelism] at hworkers
    omega
  · obtain ⟨hqueue, hrunning, hresults⟩ := hinv.of_resumed hresumed
    refine ⟨hqueue, hrunning, ?_⟩
    rw [futuresOf_resumed hresults, answerOf_pages hnumbered]

/-- Two scanned pages. -/
def scannedPdf : Processors String where
  processMarkdown _ _ := .ok []
  docling _ filename := .ok ["docling: " ++ filename]
  paddleOcr _ filename := .ok ["ocr: " ++ filename]
  processUnstructured _ _ := .ok []
  loadPdf _ := .ok [⟨none, .ok []⟩, ⟨some "a", .ok []⟩]

def scannedWorks : List PageWork := [⟨1, "a.pdf_page1.pdf", [], 0⟩, ⟨2, "a.pdf_page2.pdf", [], 1⟩]

/-- The second page is done first. -/
def secondPageFirst : List Event := [.caller, .take, .caller, .take, .finish 1, .caller, .finish 0, .caller]

theorem pages_in_order_second_first :
    ∃ s, (pagePool { locale := .ascii } scannedPdf scannedWorks).run? State.init secondPageFirst = some s ∧
      answerOf "a.pdf" (futuresOf scannedWorks s) =
        routeSequentially { locale := .ascii } scannedPdf "a.pdf" scannedWorks := by
  have hrouted : routeAndProcess { locale := .ascii } scannedPdf [] (some "a.pdf") = .dispatched scannedWorks := rfl
  have hrun : (pagePool { locale := .ascii } scannedPdf scannedWorks).run? State.init secondPageFirst =
      some ⟨2, [], [], [(0, .ok ⟨1, ["ocr: a.pdf_page1.pdf"]⟩), (1, .ok ⟨2, ["ocr: a.pdf_page2.pdf"]⟩)],
        .resumed⟩ := rfl
  exact ⟨_, hrun, ((pages_in_order _ _ hrouted _ hrun "a.pdf").2.2 rfl).2.2⟩

end AscendAI.Ingestion
