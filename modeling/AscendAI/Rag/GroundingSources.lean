import Mathlib.Algebra.Order.Ring.Rat
import AscendAI.Rag.RagRetrievalService

/-!
# The documents behind a context

The context block is the texts at or above the threshold, cut to the budget. The sources are those of
every document at or above the threshold, also of one that has no text or comes after the budget is used
up, and they are told apart by bucket and key joined into one text.
-/

namespace AscendAI.Rag

open JavaText FirstOccurrences TextBudget

variable {Score : Type}

def usableTexts (documents : List (Document Score)) : List JavaText := documents.filterMap usableText

/-- The documents with the first `n` texts. -/
def textDocuments (n : ℕ) (documents : List (Document Score)) : List (Document Score) :=
  (documents.filter fun doc => (usableText doc).isSome).take n

/-- The result says in its context what the documents say, up to `budget` units, and its sources are the
documents of that. -/
def DescribesDocuments (budget : ℕ) (defaultBucket : JavaText) (documents : List (Document Score))
    (result : RagRetrievalResult) : Prop :=
  ∃ snippets, CutTo budget (usableTexts documents) snippets ∧
    result.context =
      (if documents.isEmpty then [] else header ++ snippets.flatMap (· ++ separator) ++ footer) ∧
    result.sources.map (fun ref => (ref.bucket, ref.key)) =
      firsts id (identities defaultBucket (textDocuments snippets.length documents))

/-- The documents with a text, as long as the texts before use less than the budget. -/
def reached : ℕ → List (Document Score) → List (Document Score)
  | _, [] => []
  | budget, doc :: documents =>
    match usableText doc with
    | none => reached budget documents
    | some text => if budget = 0 then [] else doc :: reached (budget - text.length) documents

/-- Among all documents and among those that are reached, the same buckets and keys are the first ones
under their joined name, and in the same order. -/
structure ListedAsReached (budget : ℕ) (defaultBucket : JavaText) (documents : List (Document Score)) :
    Prop where
  first : ∀ identity, identity ∈ firsts joinedName (identities defaultBucket documents) ↔
    identity ∈ identities defaultBucket (reached budget documents)
  order : SameOrder (identities defaultBucket documents) (identities defaultBucket (reached budget documents))

lemma usableTexts_ne_nil (documents : List (Document Score)) : [] ∉ usableTexts documents := by
  intro hmem
  obtain ⟨doc, -, husable⟩ := List.mem_filterMap.mp hmem
  have htext := (Option.filter_eq_some_iff.mp husable).2
  cases htext

lemma textDocuments_injected (budget : ℕ) (documents : List (Document Score)) :
    textDocuments (injected budget (usableTexts documents)).length documents = reached budget documents := by
  induction documents generalizing budget with
  | nil => rfl
  | cons doc documents ih =>
    rw [usableTexts, reached, textDocuments, List.filter_cons]
    cases husable : usableText doc with
    | none =>
      rw [List.filterMap_cons_none husable]
      exact ih budget
    | some text =>
      rw [List.filterMap_cons_some husable, if_pos Option.isSome_some]
      obtain rfl | hbudget := Nat.eq_zero_or_pos budget
      · rw [injected_zero]
        rfl
      · have hrest := ih (budget - text.length)
        rw [textDocuments, usableTexts] at hrest
        rw [injected_cons_of_pos hbudget, List.length_cons, List.take_succ_cons, hrest]
        exact (if_neg (Nat.pos_iff_ne_zero.mp hbudget)).symm

/-- That is so where every key is one of a document that is reached, and no two joined names are the same. -/
lemma listedAsReached_of_reached {budget : ℕ} {defaultBucket : JavaText} {documents : List (Document Score)}
    (hreached : identities defaultBucket (reached budget documents) = identities defaultBucket documents)
    (hjoined : ∀ a ∈ identities defaultBucket documents, ∀ b ∈ identities defaultBucket documents,
      joinedName a = joinedName b → a = b) : ListedAsReached budget defaultBucket documents := by
  constructor
  · rw [hreached]
    exact fun identity => mem_firsts_of_injOn joinedName hjoined
  · rw [hreached]
    exact fun a _ b _ hlt => hlt

section

variable [LE Score] [DecidableLE Score] [Zero Score]

/-- What is retrieved when retrieval is on, in terms of the kept documents. -/
lemma retrieve_eq {p : RagProperties Score} (henabled : p.enabled = true)
    (defaultBucket : JavaText) (candidates : List (Document Score)) (query : JavaText) :
    retrieve p defaultBucket (fun _ => .ok candidates) query =
      if (keptDocuments p.similarityThreshold candidates).isEmpty then .empty
      else ⟨buildContextBlock p.maxContextChars
          (keptDocuments p.similarityThreshold candidates),
        buildSourceRefs defaultBucket (keptDocuments p.similarityThreshold candidates), true⟩ := by
  rw [retrieve, henabled]
  rfl

/-- The context always describes the kept documents; the sources decide. -/
lemma describesDocuments_iff {p : RagProperties Score} (henabled : p.enabled = true)
    (defaultBucket : JavaText) (candidates : List (Document Score)) (query : JavaText) :
    DescribesDocuments p.maxContextChars.toNat defaultBucket
        (keptDocuments p.similarityThreshold candidates)
        (retrieve p defaultBucket (fun _ => .ok candidates) query) ↔
      firsts joinedName (identities defaultBucket (keptDocuments p.similarityThreshold candidates)) =
        firsts id (identities defaultBucket (reached p.maxContextChars.toNat
          (keptDocuments p.similarityThreshold candidates))) := by
  rw [retrieve_eq henabled]
  generalize keptDocuments p.similarityThreshold candidates = kept
  have hsources : (if kept.isEmpty then RagRetrievalResult.empty
      else ⟨buildContextBlock p.maxContextChars kept, buildSourceRefs defaultBucket kept,
        true⟩).sources.map (fun ref => (ref.bucket, ref.key)) =
      firsts joinedName (identities defaultBucket kept) := by
    cases kept with
    | nil => rfl
    | cons doc documents => exact identities_buildSourceRefs ..
  constructor
  · rintro ⟨snippets, hcut, -, hdescribed⟩
    rw [hsources, (cutTo_iff (usableTexts_ne_nil kept)).mp hcut, textDocuments_injected] at hdescribed
    exact hdescribed
  · intro hsame
    refine ⟨_, cutTo_injected (usableTexts_ne_nil kept), ?_, ?_⟩
    · cases kept with
      | nil => rfl
      | cons doc documents =>
        rw [List.isEmpty_cons, if_neg Bool.false_ne_true, if_neg Bool.false_ne_true, buildContextBlock,
          appendTexts_eq]
        rfl
    · rw [hsources, hsame, textDocuments_injected]

/-- The context and the sources describe the same documents exactly when the same buckets and keys come
first among the kept documents and among those that the budget reaches. -/
theorem retrieve_describes_iff {p : RagProperties Score} (henabled : p.enabled = true)
    (defaultBucket : JavaText) (candidates : List (Document Score)) (query : JavaText) :
    DescribesDocuments p.maxContextChars.toNat defaultBucket
        (keptDocuments p.similarityThreshold candidates)
        (retrieve p defaultBucket (fun _ => .ok candidates) query) ↔
      ListedAsReached p.maxContextChars.toNat defaultBucket
        (keptDocuments p.similarityThreshold candidates) := by
  rw [describesDocuments_iff henabled, firsts_eq_firsts_id_iff]
  exact ⟨fun ⟨first, order⟩ => ⟨first, order⟩, fun ⟨first, order⟩ => ⟨first, order⟩⟩

end

/-! ### A chunk without text -/

/-- The chunk of an object, as the ingestion stores it. -/
def chunkOf (source text : String) (score : Rat) : Document Rat :=
  ⟨some (ofLiteral text), some score, some fun name => if name = "source" then some (ofLiteral source) else none⟩

def defaultProperties : RagProperties Rat := ⟨true, 5, 2 / 5, 4000⟩

def knowledgeBase : JavaText := ofLiteral "knowledge-base"

theorem retrieve_describes_two_reports :
    DescribesDocuments 4000 knowledgeBase
      (keptDocuments (2 / 5) [chunkOf "a.pdf" "One." (9 / 10), chunkOf "b.md" "Two." (4 / 5)])
      (retrieve defaultProperties knowledgeBase
        (fun _ => .ok [chunkOf "a.pdf" "One." (9 / 10), chunkOf "b.md" "Two." (4 / 5)]) []) :=
  (retrieve_describes_iff (p := defaultProperties) rfl ..).mpr
    (listedAsReached_of_reached (by decide +kernel) (by decide +kernel))

/-- A document whose text is blank is a source of the context. -/
theorem blank_document_is_a_source :
    ¬DescribesDocuments 4000 knowledgeBase
      (keptDocuments (2 / 5) [chunkOf "blank.txt" "   " (9 / 10), chunkOf "real.txt" "Actual content." (17 / 20)])
      (retrieve defaultProperties knowledgeBase
        (fun _ => .ok [chunkOf "blank.txt" "   " (9 / 10), chunkOf "real.txt" "Actual content." (17 / 20)])
        []) := by
  intro h
  have hsame := (describesDocuments_iff (p := defaultProperties) rfl ..).mp h
  revert hsame
  decide +kernel

end AscendAI.Rag
