import GuruJi.Actions.Reports
import Mathlib.Algebra.Ring.Int.Defs

/-!
# What hidden documents and reports leave behind

Two stores that agree on what a principal may read, compared through every operation that reads
documents or lists reports. Visibility is part of the query for chunks, and comes after the limit of
the two listings.

* `untraced_iff`: nothing of what is hidden shows exactly when it buries nothing in the listings.
* `not_untraced`: a newer hidden document, or report, takes the place of a visible one.
-/

namespace GuruJi.Documents

open GuruJi.Lib GuruJi.Auth GuruJi.Actions

section
variable {K : Type} {service : DocumentRagService K}

/-- Two stores agree on the documents of visible classification, with their chunks, and on the
reports that a principal may read. -/
structure Agree {u : Language} (principal : Principal u) (institutionId : String) (s t : Store K) :
    Prop where
  documents : visibleDocuments s principal institutionId =
    visibleDocuments t principal institutionId
  chunks : s.chunksOf institutionId (visibleClassifications principal) =
    t.chunksOf institutionId (visibleClassifications principal)
  reports : reportsOf s principal institutionId = reportsOf t principal institutionId

/-- Neither listing of a store has a hidden row over a visible one. -/
def ListingsUnburied {u : Language} (principal : Principal u) (institutionId : String) (limit : Int)
    (category : Option String) (reportLimit : Int) (store : Store K) : Prop :=
  DocumentsUnburied store principal institutionId limit category ∧
    ReportsUnburied store principal institutionId reportLimit

variable {principal : Principal service.language} {institutionId : String} {limit : Int}
  {category : Option String} {reportLimit : Int} {s t : Store K}

theorem Agree.sameChunks (h : Agree principal institutionId s t) :
    SameChunks principal institutionId s t := fun documentIds =>
  Store.documentChunks_congr (visibleClassifications_ne_nil principal) h.documents h.chunks
    documentIds

theorem Agree.newestVisible_eq (h : Agree principal institutionId s t) :
    newestVisible s principal institutionId limit category =
      newestVisible t principal institutionId limit category := by
  rw [newestVisible, newestVisible, h.documents]

theorem Agree.newestReadable_eq (h : Agree principal institutionId s t) :
    newestReadable s principal institutionId reportLimit =
      newestReadable t principal institutionId reportLimit := by
  rw [newestReadable, newestReadable, h.reports]

variable [LinearOrder K] [Zero K] [Add K] [Mul K] [Div K]

/-- **No trace**: every operation gives a principal equal results in two stores, and the listings
are the newest items that it may read. -/
structure Untraced (service : DocumentRagService K) (principal : Principal service.language)
    (institutionId : String) (limit : Int) (category : Option String) (reportLimit : Int)
    (s t : Store K) : Prop where
  list : service.list s principal institutionId limit category =
    service.list t principal institutionId limit category
  retrieve : ∀ question topK retrieveK category,
    service.retrieve s principal institutionId question topK retrieveK category =
      service.retrieve t principal institutionId question topK retrieveK category
  answer : ∀ searchedAt question topK retrieveK category includeTrace,
    service.answer s principal institutionId searchedAt question topK retrieveK category
        includeTrace =
      service.answer t principal institutionId searchedAt question topK retrieveK category
        includeTrace
  readSection : ∀ documentId pageNumber chunkIndex,
    service.readSection s principal institutionId documentId pageNumber chunkIndex =
      service.readSection t principal institutionId documentId pageNumber chunkIndex
  listReports : listReports s principal institutionId reportLimit =
    listReports t principal institutionId reportLimit
  newestVisible : ∀ store ∈ [s, t], service.list store principal institutionId limit category =
    newestVisible store principal institutionId limit category
  newestReadable : ∀ store ∈ [s, t], Actions.listReports store principal institutionId reportLimit =
    newestReadable store principal institutionId reportLimit

/-- **What is hidden leaves no trace** exactly when it buries nothing: retrieval, answers and
sections never show it, and the listings do where a hidden row is among the newest and a visible one
is not. -/
theorem untraced_iff (hagree : Agree principal institutionId s t) :
    Untraced service principal institutionId limit category reportLimit s t ↔
      ListingsUnburied principal institutionId limit category reportLimit s ∧
        ListingsUnburied principal institutionId limit category reportLimit t := by
  constructor
  · intro h
    refine ⟨⟨list_eq_iff.mp ?_, listReports_eq_iff.mp ?_⟩,
      ⟨list_eq_iff.mp ?_, listReports_eq_iff.mp ?_⟩⟩
    · exact h.newestVisible s (by simp)
    · exact h.newestReadable s (by simp)
    · exact h.newestVisible t (by simp)
    · exact h.newestReadable t (by simp)
  · rintro ⟨⟨hs, hsr⟩, ht, htr⟩
    have hlist : ∀ store ∈ [s, t], service.list store principal institutionId limit category =
        newestVisible store principal institutionId limit category := by
      intro store hmem
      rcases List.mem_pair.mp hmem with rfl | rfl
      · exact list_eq_iff.mpr hs
      · exact list_eq_iff.mpr ht
    have hreports : ∀ store ∈ [s, t], listReports store principal institutionId reportLimit =
        newestReadable store principal institutionId reportLimit := by
      intro store hmem
      rcases List.mem_pair.mp hmem with rfl | rfl
      · exact listReports_eq_iff.mpr hsr
      · exact listReports_eq_iff.mpr htr
    refine ⟨?_, retrieve_congr hagree.sameChunks, answer_congr hagree.sameChunks,
      section_congr hagree.sameChunks, ?_, hlist, hreports⟩
    · calc service.list s principal institutionId limit category
          = newestVisible s principal institutionId limit category := hlist s (by simp)
        _ = newestVisible t principal institutionId limit category := hagree.newestVisible_eq
        _ = service.list t principal institutionId limit category := (hlist t (by simp)).symm
    · calc listReports s principal institutionId reportLimit
          = newestReadable s principal institutionId reportLimit := hreports s (by simp)
        _ = newestReadable t principal institutionId reportLimit := hagree.newestReadable_eq
        _ = listReports t principal institutionId reportLimit := (hreports t (by simp)).symm

end

/-! ## A college -/

def plainLanguage : Language := ⟨fun c => c = ' ', id, fun _ => false, fun _ => false⟩

/-- A service over whole numbers, with no model and no reranker. -/
def plainService : DocumentRagService Int where
  language := plainLanguage
  floats := ⟨Int.ofNat, fun l => l.foldl Int.add 0, fun a => Int.ofNat a.toNat.sqrt, id⟩
  embeddings := ⟨"lengths", fun text => .ok [Int.ofNat text.length]⟩
  model := none
  modelMaxTokens := 600
  semanticWeight := 7
  lexicalWeight := 3
  storeName := "institution-db"
  reranker := none
  retrieveK := 20
  minRerankScore := none

def student : Principal plainService.language where
  principalId := "student-1"
  principalType := .student
  capabilities := studentCapabilities
  scopes := [⟨"college", none, none, by decide, by simp, by simp⟩]
  authenticated := true
  consentVerified := false
  revoked := false
  named := by decide
  anonymous := by simp

/-- A document everybody at the college may read. -/
def handbook : Document :=
  ⟨"doc-1", "college", "Handbook", "handbook.pdf", "internal", "general", "2026-01-01", 12, 1⟩

/-- A restricted document, with the time of its upload. -/
def minutes (uploadedAt : String) : Document :=
  ⟨"doc-2", "college", "Minutes", "minutes.pdf", "restricted", "general", uploadedAt, 4, 0⟩

def ownReport : Report :=
  ⟨"rpt-1", "college", "Attendance", "csv", 30, 900, "student-1", "2026-01-01", "create_report",
    some []⟩

/-- A report of another person, with the time it was made. -/
def otherReport (createdAt : String) : Report :=
  ⟨"rpt-2", "college", "Fees", "csv", 30, 900, "hod-1", createdAt, "create_report", none⟩

/-- The handbook with its text, and the student's report. -/
def openStore : Store Int :=
  ⟨[handbook], [⟨"college", "doc-1", 0, some 1, "the library opens at nine", [25]⟩], [ownReport]⟩

/-- The same with minutes and a report that are hidden from the student. -/
def withHidden (time : String) : Store Int :=
  { openStore with
    documents := [handbook, minutes time], reports := [ownReport, otherReport time] }

/-- Hidden rows that are older than the visible ones leave no trace. -/
theorem untraced_older :
    Untraced plainService student "college" 1 none 1 openStore (withHidden "2025-06-01") :=
  (untraced_iff ⟨by decide, by decide, by decide⟩).mpr
    ⟨⟨fun _ => .inl (by decide), fun _ => .inl (by decide)⟩,
      ⟨fun _ => .inl (by decide), fun _ => .inl (by decide)⟩⟩

/-- **Newer hidden rows show**: the student's listings of one item become empty. -/
theorem not_untraced :
    Agree student "college" openStore (withHidden "2026-06-01") ∧
      plainService.list openStore student "college" 1 none = .ok [handbook.item] ∧
      plainService.list (withHidden "2026-06-01") student "college" 1 none = .ok [] ∧
      listReports openStore student "college" 1 = .ok [reportItem ownReport] ∧
      listReports (withHidden "2026-06-01") student "college" 1 = .ok [] ∧
      ¬ Untraced plainService student "college" 1 none 1 openStore (withHidden "2026-06-01") := by
  refine ⟨⟨by decide, by decide, by decide⟩, ?_, ?_, ?_, ?_, fun h => ?_⟩
  · decide
  · decide
  · decide
  · decide
  · exact absurd h.list (by decide)

end GuruJi.Documents
