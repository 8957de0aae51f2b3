import GuruJi.Documents.Citations
import GuruJi.Documents.Traces
import GuruJi.Lib.Checks
import GuruJi.Lib.Fold

/-!
# Cited answers

Where the markers of an answer point. A model's reply is taken by the documents of its markers alone,
and is cut afterwards; otherwise the passages are quoted with whatever markers they and the question
hold.

* `citations_cut`: the markers of a reply that is cut are those that end before the cut;
* `retrieve_isPassage`: what is retrieved are passages of ingested documents;
* **`answer_cites_iff`**: the markers of an answer name retrieved passages, and a reply that is taken
  keeps one, iff the answer is grounded;
* `wrong_page_cited`: a reply that cites a page which has not been retrieved.
-/

namespace GuruJi.Documents

open GuruJi.Lib GuruJi.Auth

/-! ## Answers -/

/-- Every document was given its identifier when it was ingested. -/
def Store.Ingested {K : Type} (store : Store K) : Prop := ∀ c ∈ store.chunks, IsDocumentId c.documentId

section
variable {K : Type} (service : DocumentRagService K)

def takenReply (question : String) (passages : List (Ranked K)) : Option String :=
  match service.model with
  | none => none
  | some model =>
    match model.complete (answerPrompt question (quotedPassages question passages))
        service.modelMaxTokens with
    | .raised => none
    | .other => none
    | .text candidate =>
      if strip service.language.isSpace candidate ≠ "" ∧ cited service.language candidate ≠ [] ∧
        ∀ i ∈ cited service.language candidate, i ∈ passages.map (·.documentId) then some candidate
      else none

/-- The markers of an answer name passages, one of a reply that is taken is left, and where none is
taken the passages are quoted. -/
structure CitesPassages (question : String) (passages : List (Ranked K)) (result : Answer K) : Prop where
  named : ∀ c ∈ citations service.language result.answer.toList, Names service.language passages c
  cited : ∀ candidate ∈ takenReply service question passages,
    citations service.language result.answer.toList ≠ []
  quoted : takenReply service question passages = none → passages ≠ [] →
    result.answer = quotedPassages question passages

def markers {u : Language} (hmarks : PlainMarks u) (text : String) : List (Citation × Nat) :=
  ((citationPattern hmarks).marks text.toList).map fun m => (citationOf u m.1, m.2)

/-- Of a reply that is taken, a marker ends within the length limit, and those that do name passages;
where none is taken, the question and what is quoted of the passages are clean. -/
structure Grounded (hmarks : PlainMarks service.language) (question : String)
    (passages : List (Ranked K)) : Prop where
  kept : ∀ candidate ∈ takenReply service question passages,
    ∃ m ∈ markers hmarks (strip service.language.isSpace candidate), m.2 ≤ 12000
  named : ∀ candidate ∈ takenReply service question passages,
    ∀ m ∈ markers hmarks (strip service.language.isSpace candidate), m.2 ≤ 12000 →
      Names service.language passages m.1
  clean : takenReply service question passages = none → passages ≠ [] →
    Clean service.language passages question.toList ∧
      ∀ item ∈ passages, Clean service.language passages (item.text.toList.take 700)

variable {service} {question : String} {passages : List (Ranked K)}

theorem takenReply_nil : takenReply service question [] = none := by
  unfold takenReply
  split
  · rfl
  · split
    · rfl
    · rfl
    · refine if_neg fun h => ?_
      obtain ⟨i, hi⟩ := List.exists_mem_of_ne_nil _ h.2.1
      exact absurd (h.2.2 i hi) List.not_mem_nil

theorem wording_text : (service.wording question (quotedPassages question passages)
    (passages.map (·.documentId))).1 =
      match takenReply service question passages with
      | some candidate => upTo 12000 (strip service.language.isSpace candidate)
      | none => quotedPassages question passages := by
  unfold DocumentRagService.wording takenReply
  cases service.model with
  | none => rfl
  | some model =>
    dsimp only
    cases model.complete (answerPrompt question (quotedPassages question passages))
        service.modelMaxTokens with
    | raised => rfl
    | other => rfl
    | text candidate =>
      dsimp only
      by_cases hblank : strip service.language.isSpace candidate = ""
      · rw [if_pos hblank, if_neg fun h => h.1 hblank]
      · by_cases htaken : cited service.language candidate ≠ [] ∧
          ∀ i ∈ cited service.language candidate, i ∈ passages.map (·.documentId)
        · rw [if_neg hblank, if_pos htaken, if_pos ⟨hblank, htaken⟩]
        · rw [if_neg hblank, if_neg htaken, if_neg fun h => htaken h.2]

theorem answer_compose (searchedAt : String) (retrieval : Retrieval K) (includeTrace : Bool) :
    (service.compose question searchedAt retrieval includeTrace).answer =
      if retrieval.passages = [] then
        "No indexed document contains a passage relevant to this question."
      else match takenReply service question retrieval.passages with
        | some candidate => upTo 12000 (strip service.language.isSpace candidate)
        | none => quotedPassages question retrieval.passages := by
  rw [← wording_text]
  unfold DocumentRagService.compose
  by_cases hpassages : retrieval.passages = []
  · rw [if_pos hpassages]
    simp [hpassages]
  · rw [if_neg hpassages]
    simp only [List.isEmpty_iff, hpassages, if_false]
    rfl

/-- The markers of a text that is cut. -/
theorem citations_cut (hmarks : PlainMarks service.language) (n : Nat) (text : String) :
    citations service.language (upTo n text).toList =
      ((markers hmarks text).filter (·.2 ≤ n)).map Prod.fst := by
  rw [citations_eq hmarks, upTo, String.toList_ofList, Pattern.found, Pattern.marks_take, markers,
    List.filter_map, List.map_map, List.map_map]
  rfl

theorem citations_noPassage (hmarks : PlainMarks service.language) : citations service.language
    "No indexed document contains a passage relevant to this question.".toList = [] := by
  have hplain : '[' ∉ "No indexed document contains a passage relevant to this question.".toList := by
    decide
  have hnone := citations_plain hmarks hplain []
  rw [List.append_nil] at hnone
  rw [hnone, citations_eq hmarks]
  rfl

theorem compose_cites_iff (hmarks : PlainMarks service.language) {retrieval : Retrieval K}
    (hpassages : ∀ item ∈ retrieval.passages, IsPassage item) (searchedAt : String)
    (includeTrace : Bool) :
    CitesPassages service question retrieval.passages
        (service.compose question searchedAt retrieval includeTrace) ↔
      Grounded service hmarks question retrieval.passages := by
  have hanswer : (service.compose question searchedAt retrieval includeTrace).answer = _ :=
    answer_compose searchedAt retrieval includeTrace
  by_cases hne : retrieval.passages = []
  · rw [if_pos hne] at hanswer
    have htaken : takenReply service question retrieval.passages = none := by rw [hne, takenReply_nil]
    refine iff_of_true ⟨?_, ?_, fun _ h => absurd hne h⟩ ⟨?_, ?_, fun _ h => absurd hne h⟩
    · rw [hanswer, citations_noPassage hmarks]
      simp
    · simp [htaken]
    · simp [htaken]
    · simp [htaken]
  · rw [if_neg hne] at hanswer
    cases htaken : takenReply service question retrieval.passages with
    | some candidate =>
      rw [htaken] at hanswer
      have hcited := congrArg (fun text => citations service.language text.toList) hanswer
      simp only [citations_cut hmarks] at hcited
      constructor
      · rintro ⟨hnamed, hkept, -⟩
        rw [hcited] at hnamed
        have hkept' := hkept candidate htaken
        rw [hcited] at hkept'
        refine ⟨fun candidate' h => ?_, fun candidate' h m hm hend => ?_, fun h => ?_⟩
        · obtain rfl := Option.some.inj (htaken.symm.trans h)
          obtain ⟨m, hm⟩ := List.exists_mem_of_ne_nil _ (mt List.map_eq_nil_iff.mpr hkept')
          obtain ⟨hmem, hend⟩ := List.mem_filter.mp hm
          exact ⟨m, hmem, of_decide_eq_true hend⟩
        · obtain rfl := Option.some.inj (htaken.symm.trans h)
          exact hnamed _ (List.mem_map_of_mem (List.mem_filter.mpr ⟨hm, decide_eq_true hend⟩))
        · rw [htaken] at h
          cases h
      · rintro ⟨hkept, hnamed, -⟩
        refine ⟨?_, fun candidate' _ => ?_, fun h => ?_⟩
        · rw [hcited]
          rintro c hc
          obtain ⟨m, hm, rfl⟩ := List.mem_map.mp hc
          obtain ⟨hmem, hend⟩ := List.mem_filter.mp hm
          exact hnamed candidate htaken m hmem (of_decide_eq_true hend)
        · obtain ⟨m, hm, hend⟩ := hkept candidate htaken
          rw [hcited]
          refine List.ne_nil_of_mem (List.mem_map_of_mem (a := m) (List.mem_filter.mpr ⟨hm, ?_⟩))
          exact decide_eq_true hend
        · rw [htaken] at h
          cases h
    | none =>
      rw [htaken] at hanswer
      have hquoted : (service.compose question searchedAt retrieval includeTrace).answer =
        quotedPassages question retrieval.passages := hanswer
      have hnamed := named_quoted hmarks hpassages hne question
      constructor
      · rintro ⟨hall, -, -⟩
        rw [hquoted] at hall
        refine ⟨by simp [htaken], by simp [htaken], fun _ _ => hnamed.mp hall⟩
      · rintro ⟨-, -, hclean⟩
        refine ⟨?_, by simp [htaken], fun _ _ => hquoted⟩
        rw [hquoted]
        exact hnamed.mpr (hclean htaken hne)

variable [LinearOrder K] [Zero K] [Add K] [Mul K] [Div K] {store : Store K}
  {principal : Principal service.language} {institutionId : String}

omit [LinearOrder K] [Zero K] [Add K] [Mul K] [Div K] in
theorem documentId_of_chunk (hstore : store.Ingested) {classifications documentIds : List String}
    {chunk : ChunkRow K} (h : chunk ∈ store.documentChunks institutionId classifications documentIds) :
    IsDocumentId chunk.documentId := by
  have hsorted := mem_sortBy.mp (List.mem_of_mem_take h)
  obtain ⟨c, hc, hrow⟩ := List.mem_flatMap.mp hsorted
  obtain ⟨d, -, rfl⟩ := List.mem_map.mp hrow
  exact hstore c (List.mem_filter.mp hc).1

/-- What is retrieved are passages of ingested documents. -/
theorem retrieve_isPassage (hstore : store.Ingested) {topK : Int} {retrieveK : Option Int}
    {category : Option String} {retrieval : Retrieval K}
    (h : service.retrieve store principal institutionId question topK retrieveK category =
      .ok retrieval) : ∀ item ∈ retrieval.passages, IsPassage item := by
  unfold DocumentRagService.retrieve at h
  obtain ⟨-, -, h⟩ := bind_eq_ok.mp h
  dsimp only at h
  split_ifs at h with hquery
  · cases h
  · obtain ⟨queryVector, -, h⟩ := bind_eq_ok.mp h
    obtain ⟨passages, hpassages, hretrieval⟩ := bind_eq_ok.mp h
    obtain rfl := Except.ok.inj hretrieval
    intro item hitem
    obtain ⟨entry, -, hentry⟩ := mem_of_mapM_ok hpassages hitem
    unfold DocumentRagService.rankedPassage at hentry
    split at hentry
    · cases hentry
    · rename_i candidate hcandidate
      obtain rfl := Except.ok.inj hentry
      obtain ⟨i, hi, hcandidate'⟩ := List.mem_mapIdx.mp (List.mem_of_getElem? hcandidate)
      obtain rfl := hcandidate'
      have hhit := List.mem_of_mem_take (List.getElem_mem hi)
      obtain ⟨chunk, hchunk, heq⟩ := List.mem_map.mp (List.mem_filter.mp (mem_sortBy.mp hhit)).1
      have hrow := documentId_of_chunk hstore (List.mem_filter.mp hchunk).1
      have hsame : chunk.documentId = _ := congrArg (fun h : VectorHit K => h.chunk.documentId) heq
      rw [hsame] at hrow
      exact ⟨hrow, _, _, rfl⟩

/-- **A citation points at a retrieved passage**, and a reply that is taken keeps one, iff the answer is
grounded. -/
theorem answer_cites_iff (hmarks : PlainMarks service.language) (hstore : store.Ingested) {topK : Int}
    {retrieveK : Option Int} {category : Option String} {retrieval : Retrieval K}
    (hretrieve : service.retrieve store principal institutionId question topK retrieveK category =
      .ok retrieval) (searchedAt : String) (includeTrace : Bool) :
    (∃ result, service.answer store principal institutionId searchedAt question topK retrieveK category
        includeTrace = .ok result ∧ CitesPassages service question retrieval.passages result) ↔
      Grounded service hmarks question retrieval.passages := by
  have hanswer : service.answer store principal institutionId searchedAt question topK retrieveK
      category includeTrace = .ok (service.compose question searchedAt retrieval includeTrace) := by
    unfold DocumentRagService.answer
    rw [hretrieve]
    rfl
  rw [hanswer, ← compose_cites_iff hmarks (retrieve_isPassage hstore hretrieve) searchedAt includeTrace]
  constructor
  · rintro ⟨result, hresult, hcites⟩
    rwa [Except.ok.inj hresult]
  · exact fun hcites => ⟨_, rfl, hcites⟩

end
/-! ## A page that was not retrieved -/

theorem retrieve_withModel {K : Type} [LinearOrder K] [Zero K] [Add K] [Mul K] [Div K]
    (service : DocumentRagService K) (store : Store K) (principal : Principal service.language)
    (model : Option TextModel) (institutionId question : String) (topK : Int) (retrieveK : Option Int)
    (category : Option String) :
    ({ service with model } : DocumentRagService K).retrieve store principal institutionId question topK
        retrieveK category =
      service.retrieve store principal institutionId question topK retrieveK category := rfl

/-- The plain service with a model that always replies the same. -/
def replying (reply : String) : DocumentRagService Int :=
  { plainService with model := some ⟨"model", fun _ _ => .text reply⟩ }

theorem plainMarks_plain : PlainMarks plainLanguage := by
  intro c hc
  simp only [List.mem_cons, List.not_mem_nil, or_false] at hc
  rcases hc with rfl | rfl | rfl <;> rfl

theorem openStore_ingested : openStore.Ingested := by
  intro c hc
  obtain rfl := List.mem_singleton.mp hc
  refine ⟨['1'], by simp, fun d hd => ?_, rfl⟩
  rw [List.mem_singleton.mp hd]
  rfl

theorem retrieve_handbook (reply : String) :
    ∃ retrieval, (replying reply).retrieve openStore student "college" "library" 5 none none =
      .ok retrieval ∧ retrieval.passages.map (fun item => (item.documentId, item.locator)) =
        [("doc-1", "page 1")] := by
  have hretrieved : (plainService.retrieve openStore student "college" "library" 5 none none).toOption.map
      (fun r => r.passages.map fun item => (item.documentId, item.locator)) =
        some [("doc-1", "page 1")] := by decide +kernel
  cases h : plainService.retrieve openStore student "college" "library" 5 none none with
  | error e =>
    rw [h] at hretrieved
    cases hretrieved
  | ok retrieval =>
    rw [h] at hretrieved
    exact ⟨retrieval, (retrieve_withModel plainService openStore student _ _ _ _ _ _).trans h,
      Option.some.inj hretrieved⟩

/-- The theorem above, of a reply that cites the page. -/
theorem answer_cites_iff_handbook :
    ∃ retrieval : Retrieval Int, ((∃ result, (replying "At nine [doc-1:page 1].").answer openStore student "college"
      "2026-01-02" "library" 5 none none false = .ok result ∧
        CitesPassages (replying "At nine [doc-1:page 1].") "library" retrieval.passages result) ↔
      Grounded (replying "At nine [doc-1:page 1].") plainMarks_plain "library" retrieval.passages) := by
  obtain ⟨retrieval, hretrieve, -⟩ := retrieve_handbook "At nine [doc-1:page 1]."
  exact ⟨retrieval, answer_cites_iff plainMarks_plain openStore_ingested hretrieve "2026-01-02" false⟩

/-- The reply is taken, and cites a page that has not been retrieved. -/
theorem wrong_page_cited :
    ∃ retrieval, (replying "At nine [doc-1:page 9].").retrieve openStore student "college" "library" 5
      none none = .ok retrieval ∧
        ¬∃ result, (replying "At nine [doc-1:page 9].").answer openStore student "college" "2026-01-02"
          "library" 5 none none false = .ok result ∧
            CitesPassages (replying "At nine [doc-1:page 9].") "library" retrieval.passages result := by
  obtain ⟨retrieval, hretrieve, hpassages⟩ := retrieve_handbook "At nine [doc-1:page 9]."
  refine ⟨retrieval, hretrieve, ?_⟩
  rintro ⟨result, hresult, hcites⟩
  have htext : ((replying "At nine [doc-1:page 9].").answer openStore student "college" "2026-01-02"
      "library" 5 none none false).toOption.map (·.answer) = some "At nine [doc-1:page 9]." := by
    decide +kernel
  rw [hresult] at htext
  have hnamed := hcites.named
  have hanswer : result.answer = _ := Option.some.inj htext
  rw [hanswer] at hnamed
  have hread : (⟨"doc-1", ['9']⟩ : Citation) ∈
      citations plainLanguage "At nine [doc-1:page 9].".toList := by decide
  obtain ⟨item, hitem, heq⟩ := hnamed _ hread
  have hmem := List.mem_map_of_mem (f := fun item : Ranked Int => (item.documentId, item.locator)) hitem
  rw [hpassages] at hmem
  have hlocator : item.locator = "page 1" := (Prod.mk.inj (List.mem_singleton.mp hmem)).2
  have hplace : ['9'] = readPlace plainLanguage item.locator.toList := (Citation.mk.inj heq).2
  rw [hlocator] at hplace
  exact absurd hplace (by decide)

end GuruJi.Documents
