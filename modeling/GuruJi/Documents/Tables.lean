import GuruJi.Lib.Latest
import Mathlib.Data.Prod.Lex
import Mathlib.Data.String.Basic

/-!
# Documents, their chunks and the generated reports

The tables of the institution store that hold readable texts, and the queries over them. Documents
and reports are listed newest first, with a limit; chunks are read with the rows of their documents.

* `listDocuments_filter_iff`: when a listing can be cut down to some classifications afterwards.
* `documentChunks_eq`: the chunks of some classifications depend on these documents alone.
-/

namespace GuruJi.Documents

open GuruJi.Lib

/-- A row of `documents`. -/
structure Document where
  documentId : String
  institutionId : String
  title : String
  fileName : String
  classification : String
  category : String
  uploadedAt : String
  pageCount : Int
  chunkCount : Int
  deriving DecidableEq

/-- A row of `document_chunks`, with its embedding decoded. -/
structure Chunk (K : Type) where
  institutionId : String
  documentId : String
  chunkIndex : Int
  pageNumber : Option Int
  text : String
  embedding : List K
  deriving DecidableEq

/-- A row of `generated_reports`; `none` are requirements that were never recorded. -/
structure Report where
  reportId : String
  institutionId : String
  title : String
  format : String
  rowCount : Int
  sizeBytes : Int
  createdBy : String
  createdAt : String
  toolName : String
  requiredCapabilities : Option (List String)
  deriving DecidableEq

structure Store (K : Type) where
  documents : List Document
  chunks : List (Chunk K)
  reports : List Report
  deriving DecidableEq

/-- A chunk as the query yields it, with columns of its document. -/
structure ChunkRow (K : Type) where
  documentId : String
  chunkIndex : Int
  pageNumber : Option Int
  text : String
  embedding : List K
  title : String
  classification : String
  category : String
  deriving DecidableEq

/-- `_clamp_limit`. -/
def clampLimit (limit : Int) (maximum : Nat) : Nat :=
  if limit ≤ 0 then 1 else min limit.toNat maximum

/-- A category that is given: not `None` and not empty. -/
def given (category : Option String) : Option String := category.filter (· ≠ "")

/-- The condition `category = ?`, which is there for a category that is given. -/
def inCategory (category : Option String) (column : String) : Bool :=
  (given category).all (column = ·)

namespace Store
variable {K : Type} (store : Store K) (institutionId : String)

/-- `list_documents`. -/
def listDocuments (limit : Int) (category : Option String) : List Document :=
  newest (·.uploadedAt) (clampLimit limit 1000) (store.documents.filter fun d =>
    d.institutionId = institutionId && inCategory category d.category)

/-- `list_reports`. -/
def listReports (limit : Int) : List Report :=
  newest (·.createdAt) (clampLimit limit 500)
    (store.reports.filter fun r => r.institutionId = institutionId)

/-- `d.document_id = c.document_id AND d.institution_id = c.institution_id`. -/
def joins (c : Chunk K) (d : Document) : Bool :=
  d.documentId = c.documentId && d.institutionId = c.institutionId

/-- The selected columns of a chunk and its document. -/
def chunkRow (c : Chunk K) (d : Document) : ChunkRow K :=
  ⟨c.documentId, c.chunkIndex, c.pageNumber, c.text, c.embedding, d.title, d.classification,
    d.category⟩

/-- The condition `column IN (...)`, which is there for values that are given. -/
def isAmong (values : List String) (column : String) : Bool :=
  values.isEmpty || values.contains column

/-- `document_chunks`. -/
def documentChunks (classifications documentIds : List String) : List (ChunkRow K) :=
  (sortBy (fun r => toLex (r.documentId, r.chunkIndex))
    ((store.chunks.filter fun c =>
        c.institutionId = institutionId && isAmong documentIds c.documentId).flatMap fun c =>
      (store.documents.filter fun d =>
        joins c d && isAmong classifications d.classification).map (chunkRow c))).take
    (clampLimit 20000 100000)

end Store

/-! ## The rows of some classifications -/

/-- A document of an institution that has one of the classifications. -/
def isOf (institutionId : String) (classifications : List String) (d : Document) : Bool :=
  d.institutionId = institutionId && classifications.contains d.classification

def isPartOf {K : Type} (documents : List Document) (c : Chunk K) : Bool :=
  documents.any (Store.joins c)

namespace Store
variable {K : Type} (store : Store K) (institutionId : String) (classifications : List String)

def documentsOf : List Document := store.documents.filter (isOf institutionId classifications)

/-- The chunks of the documents of some classifications. -/
def chunksOf : List (Chunk K) :=
  store.chunks.filter (isPartOf (store.documentsOf institutionId classifications))

/-- A listing cut down to some classifications holds the newest of these documents, exactly when no
other one buries them. -/
theorem listDocuments_filter_iff {β : Type*} (f : Document → β) (limit : Int)
    (category : Option String) :
    ((store.listDocuments institutionId limit category).filter
        fun d => classifications.contains d.classification).map f =
      (newest (·.uploadedAt) (clampLimit limit 1000)
        ((store.documentsOf institutionId classifications).filter
          fun d => inCategory category d.category)).map f ↔
      Unburied (fun d => classifications.contains d.classification) (·.uploadedAt)
        (clampLimit limit 1000) (store.documents.filter fun d =>
          d.institutionId = institutionId && inCategory category d.category) := by
  have hrows : (store.documentsOf institutionId classifications).filter
        (fun d => inCategory category d.category) =
      (store.documents.filter fun d =>
        d.institutionId = institutionId && inCategory category d.category).filter
          fun d => classifications.contains d.classification := by
    rw [documentsOf, List.filter_filter, List.filter_filter]
    refine List.filter_congr fun d _ => ?_
    rw [isOf]
    ac_rfl
  rw [hrows, listDocuments]
  exact newest_filter_iff f _ _ _ _

variable {store institutionId classifications}

/-- The documents that a chunk of an institution is joined with are documents of the institution. -/
theorem filter_joins (hsome : classifications ≠ []) {c : Chunk K}
    (hc : c.institutionId = institutionId) :
    (store.documents.filter fun d => joins c d && isAmong classifications d.classification) =
      (store.documentsOf institutionId classifications).filter (joins c) := by
  rw [documentsOf, List.filter_filter]
  refine List.filter_congr fun d _ => ?_
  rw [isOf, joins, isAmong, List.isEmpty_eq_false_iff.mpr hsome, ← hc]
  by_cases hd : d.institutionId = c.institutionId <;> simp [hd]

/-- **What the chunks are read from**: the documents of the classifications, and their chunks. -/
theorem documentChunks_eq (hsome : classifications ≠ []) (documentIds : List String) :
    store.documentChunks institutionId classifications documentIds =
      (sortBy (fun r => toLex (r.documentId, r.chunkIndex))
        (((store.chunksOf institutionId classifications).filter fun c =>
            c.institutionId = institutionId && isAmong documentIds c.documentId).flatMap
          fun c => ((store.documentsOf institutionId classifications).filter (joins c)).map
            (chunkRow c))).take (clampLimit 20000 100000) := by
  have hrows : ∀ l : List (Chunk K), (∀ c ∈ l, c.institutionId = institutionId) →
      (l.flatMap fun c => (store.documents.filter fun d =>
          joins c d && isAmong classifications d.classification).map (chunkRow c)) =
        (l.filter (isPartOf (store.documentsOf institutionId classifications))).flatMap
          fun c => ((store.documentsOf institutionId classifications).filter (joins c)).map
            (chunkRow c) := by
    intro l hl
    induction l with
    | nil => rfl
    | cons c l ih =>
      rw [List.flatMap_cons, ih fun c' hc' => hl c' (List.mem_cons_of_mem _ hc'),
        filter_joins hsome (hl c List.mem_cons_self)]
      cases hpart : isPartOf (store.documentsOf institutionId classifications) c with
      | true => rw [List.filter_cons_of_pos hpart, List.flatMap_cons]
      | false =>
        -- a chunk of another document is joined with none of these
        have hnone : (store.documentsOf institutionId classifications).filter (joins c) = [] := by
          rw [List.filter_eq_nil_iff]
          intro d hd hjoins
          rw [isPartOf, List.any_eq_false] at hpart
          exact hpart d hd hjoins
        rw [List.filter_cons_of_neg (by simp [hpart]), hnone]
        rfl
  rw [documentChunks, hrows _ fun c hc => ?_, chunksOf, List.filter_filter, List.filter_filter]
  · simp only [Bool.and_comm]
  · have hpair := (List.mem_filter.mp hc).2
    rw [Bool.and_eq_true] at hpair
    exact of_decide_eq_true hpair.1

/-- Chunks of some classifications are equal in stores that agree on the documents of these. -/
theorem documentChunks_congr {t : Store K} (hsome : classifications ≠ [])
    (hdocuments : store.documentsOf institutionId classifications =
      t.documentsOf institutionId classifications)
    (hchunks : store.chunksOf institutionId classifications =
      t.chunksOf institutionId classifications) (documentIds : List String) :
    store.documentChunks institutionId classifications documentIds =
      t.documentChunks institutionId classifications documentIds := by
  rw [documentChunks_eq hsome, documentChunks_eq hsome, hdocuments, hchunks]

end Store

end GuruJi.Documents
