import AscendAI.Ingestion.Routing

/-!
# Text of an object and its chunks

`IngestionService` turns the bytes of an object into documents whose source is the key, and
`DocumentService` splits them into chunks. The Markdown library, the Unstructured API and the token
splitter are parameters.
-/

namespace AscendAI.Ingestion

open JavaString

/-- A document or a chunk, with its metadata. -/
structure Document where
  text : String
  source : String
  title : String
  type : String
  deriving DecidableEq

/-- A node of the array that the Unstructured API answers. -/
structure Element where
  type : Option String
  text : Option String

/-- The splitter keeps the metadata of the documents. -/
structure TextSplitter where
  apply : List Document → List Document
  source_mem : ∀ documents, ∀ chunk ∈ apply documents, ∃ document ∈ documents, chunk.source = document.source

/-- What turns bytes into text: the Markdown renderer and the titles it finds, the answer of the
Unstructured API to a file, unless that is not an array, and the splitter. -/
structure Extraction where
  renderTextFromMarkdown : List UInt8 → String
  extractTitleFromMarkdown : List UInt8 → Option String
  unstructured : String → List UInt8 → Option (List Element)
  splitter : TextSplitter

section

variable (x : Extraction)

def basename (key : String) : String := afterLast key '/'

def processMarkdown (content : List UInt8) (filename : String) : List Document :=
  let title := x.extractTitleFromMarkdown content
  let title := if hasText title then title.getD "" else basename filename
  [⟨x.renderTextFromMarkdown content, filename, title, "markdown"⟩]

def readElement (acc : String × Option String) (node : Element) : String × Option String :=
  let extractedTitle :=
    if acc.2.isNone && node.type == some "Title" && hasText node.text then node.text else acc.2
  match node.text with
  | some text => (acc.1 ++ text ++ "\n", extractedTitle)
  | none => (acc.1, extractedTitle)

def parseUnstructuredResponse (response : Option (List Element)) (filename : String) : List Document :=
  match response with
  | none => []
  | some nodes =>
    let read := nodes.foldl readElement ("", none)
    if read.1.isEmpty then []
    else [⟨read.1, filename, read.2.getD (basename filename), "unstructured"⟩]

def processUnstructured (content : List UInt8) (filename : String) : List Document :=
  parseUnstructuredResponse (x.unstructured filename content) filename

def documents (cfg : IngestionSettings) (key : String) (content : List UInt8) : List Document :=
  match processorFor cfg key with
  | .processMarkdown => processMarkdown x content key
  | .processUnstructured => processUnstructured x content key

/-- `removeOldDocuments` of a store: the source of the first document tells what to delete. -/
def removeOldDocuments (chunks store : List Document) : List Document :=
  match chunks with
  | [] => store
  | first :: _ => store.filter fun chunk => chunk.source ≠ first.source

def chunksOf (cfg : IngestionSettings) (key : String) (content : List UInt8) : List Document :=
  if (documents x cfg key content).isEmpty then [] else x.splitter.apply (documents x cfg key content)

lemma source_of_mem_documents {x : Extraction} {cfg : IngestionSettings} {key : String}
    {content : List UInt8} {document : Document} (h : document ∈ documents x cfg key content) :
    document.source = key := by
  unfold documents at h
  split at h
  · rw [processMarkdown, List.mem_singleton] at h
    rw [h]
  · unfold processUnstructured parseUnstructuredResponse at h
    split at h
    · cases h
    · dsimp only at h
      split_ifs at h
      · cases h
      · rw [List.mem_singleton] at h
        rw [h]

lemma source_of_mem_chunksOf {x : Extraction} {cfg : IngestionSettings} {key : String}
    {content : List UInt8} {chunk : Document} (h : chunk ∈ chunksOf x cfg key content) :
    chunk.source = key := by
  unfold chunksOf at h
  split_ifs at h
  · cases h
  · obtain ⟨document, hdocument, hsource⟩ := x.splitter.source_mem _ chunk h
    rw [hsource, source_of_mem_documents hdocument]

end

end AscendAI.Ingestion
