import GuruJi.Store.Rollups

/-!
# One institution's view of the store

* `tenant_isolation`: an institution's operations answer, and leave its rows, as its rows say; and
  they leave the rows of every other institution.
-/

namespace GuruJi.Store

open GuruJi.Lib GuruJi.Lib.Database GuruJi.Records

/-! ## Operations -/

/-- The operations of an institution, each with the ids and the time that it draws. -/
inductive Operation (N D : Type) [Python N] where
  | upsertRecords (entity : CanonicalEntity) (mode : ImportMode) (rowId : String → String)
      (records : List (CanonicalRecord N entity))
  | replaceRecords (entity : CanonicalEntity) (mode : ImportMode) (rowId : String → String)
      (records : List (CanonicalRecord N entity × List String))
  | existingKeys (entity : CanonicalEntity) (keys : List String)
  | lookupPersonMatches (entity : CanonicalEntity) (names phones emails : List (Value N))
      (limit : Nat)
  | queryRecords (entity : CanonicalEntity) (filters : Table String (Filter N)) (limit offset : Nat)
      (order : Option String)
  | countRecords (entity : CanonicalEntity) (filters : Table String (Filter N))
  | getRecord (entity : CanonicalEntity) (recordKey : String)
  | updateRecordFields (entity : CanonicalEntity) (recordKey : String)
      (changes : Table String (Value N)) (locator stamp : String)
  | distinctValues (entity : CanonicalEntity) (column : String) (limit : Nat)
  | entityCounts (entities : List CanonicalEntity)
  | deleteByJob (entity : CanonicalEntity) (ingestionJobId : String)
  | attendanceRollup (program : Option String) (semester : Option Int)
      (department period courseCode : Option String)
  | feeRollup (program : Option String) (semester : Option Int)
      (academicYear feeType : Option String)
  | feeBreakdown (program academicYear : Option String)
  | examRollup (program : Option String) (semester : Option Int)
      (courseCode examName : Option String)
  | addDocument (documentId : String) (document : Document) (chunks : List (NewChunk N))
  | getDocument (documentId : String)
  | listDocuments (limit : Nat) (category : Option String)
  | deleteDocument (documentId : String)
  | documentChunks (classifications documentIds : Option (List String)) (limit : Nat)
  | addReviewItems (jobId stamp : String) (items : List NewReview)
  | listReviewItems (jobId status : Option String) (limit offset : Nat)
  | getReviewItem (reviewId : String)
  | resolveReviewItem (reviewId status resolvedBy resolution stamp : String)

/-- What an operation answers. -/
inductive Answer (N : Type) where
  | summary (summary : ImportSummary)
  | records (records : List (RecordView N))
  | record (record : Option (RecordView N))
  | edited (before after : RecordView N)
  | count (count : Nat)
  | counts (counts : List (String × Nat))
  | texts (texts : List String)
  | rows (rows : List (ResultRow N))
  | document (document : Option DocumentOf)
  | documents (documents : List DocumentOf)
  | deleted (deleted : Bool)
  | chunks (chunks : List (ChunkOf N × DocumentOf))
  | review (review : Option ReviewOf)
  | reviews (reviews : List ReviewOf)

variable {N D : Type} [Python N] [DecidableEq D]

def Operation.run (sql : Sql N) (digest : List (String × Value N) → List (String × Value N) → D)
    (institutionId : String) : Operation N D → Method N D (Answer N)
  | .upsertRecords _ mode rowId records =>
    .summary <$> Store.upsertRecords digest institutionId mode rowId records
  | .replaceRecords _ mode rowId records =>
    .summary <$> Store.replaceRecords digest institutionId mode rowId records
  | .existingKeys entity keys => .records <$> Store.existingKeys institutionId entity keys
  | .lookupPersonMatches entity names phones emails limit =>
    .records <$> Store.lookupPersonMatches sql institutionId entity names phones emails limit
  | .queryRecords entity filters limit offset order =>
    .records <$> Store.queryRecords sql institutionId entity filters limit offset order
  | .countRecords entity filters => .count <$> Store.countRecords sql institutionId entity filters
  | .getRecord entity recordKey => .record <$> Store.getRecord institutionId entity recordKey
  | .updateRecordFields entity recordKey changes locator stamp =>
    (fun r => .edited r.1 r.2) <$>
      Store.updateRecordFields institutionId entity recordKey changes locator stamp
  | .distinctValues entity column limit =>
    .texts <$> Store.distinctValues sql institutionId entity column limit
  | .entityCounts entities => .counts <$> Store.entityCounts institutionId entities
  | .deleteByJob entity ingestionJobId =>
    .count <$> Store.deleteByJob institutionId entity ingestionJobId
  | .attendanceRollup program semester department period courseCode =>
    .rows <$> Store.attendanceRollup sql institutionId program semester department period courseCode
  | .feeRollup program semester academicYear feeType =>
    .rows <$> Store.feeRollup sql institutionId program semester academicYear feeType
  | .feeBreakdown program academicYear =>
    .rows <$> Store.feeBreakdown sql institutionId program academicYear
  | .examRollup program semester courseCode examName =>
    .rows <$> Store.examRollup sql institutionId program semester courseCode examName
  | .addDocument documentId document chunks =>
    .document <$> Store.addDocument institutionId documentId document chunks
  | .getDocument documentId => .document <$> Store.getDocument institutionId documentId
  | .listDocuments limit category => .documents <$> Store.listDocuments institutionId limit category
  | .deleteDocument documentId => .deleted <$> Store.deleteDocument institutionId documentId
  | .documentChunks classifications documentIds limit =>
    .chunks <$> Store.documentChunks institutionId classifications documentIds limit
  | .addReviewItems jobId stamp items =>
    .texts <$> Store.addReviewItems institutionId jobId stamp items
  | .listReviewItems jobId status limit offset =>
    .reviews <$> Store.listReviewItems institutionId jobId status limit offset
  | .getReviewItem reviewId => .review <$> Store.getReviewItem institutionId reviewId
  | .resolveReviewItem reviewId status resolvedBy resolution stamp =>
    .review <$> Store.resolveReviewItem institutionId reviewId status resolvedBy resolution stamp

/-- The primary keys that an operation brings, each with its table. -/
def Operation.newIds : Operation N D → List (TableName × String)
  | .upsertRecords entity _ rowId records =>
    records.map fun record => (.records entity.name, rowId record.recordKey)
  | .replaceRecords entity _ rowId records =>
    records.map fun record => (.records entity.name, rowId record.1.recordKey)
  | .addDocument documentId _ chunks =>
    (.documents, documentId) :: chunks.map fun c => (.documentChunks, c.chunkId)
  | .addReviewItems _ _ items => items.map fun item => (.reviewItems, item.reviewId)
  | _ => []

/-- No row of a database has the primary keys that an operation brings. -/
def Free (op : Operation N D) (d : StoreDatabase N D) : Prop :=
  ∀ e ∈ op.newIds, ∀ r ∈ d e.1, r.id ≠ e.2

/-! ## The methods are isolated -/

section
variable {N D : Type} {a : String} {ok : StoreDatabase N D → Prop} {entity : CanonicalEntity}

theorem within_and {ρ : Type} (p : Owned String String ρ → Bool) :
    Within a fun r => r.tenant == a && p r := by
  intro r hr
  simp only [Bool.and_eq_true, beq_iff_eq] at hr
  exact hr.1

theorem isolated_raiseStoreError {α : Type} (result : Except StoreError α) :
    Isolated a ok (raiseStoreError result : Method N D α) := by
  cases result with
  | ok x => exact isolated_pure x
  | error e => exact isolated_throw e

theorem isolated_raiseValueError {α : Type} (result : Except String α) :
    Isolated a ok (raiseValueError result : Method N D α) := by
  cases result with
  | ok x => exact isolated_pure x
  | error e => exact isolated_throw _

theorem isolated_selectRecords {p : RecordOf N D → Bool} (h : Within a p) :
    Isolated a ok (selectRecords entity p) :=
  isolated_select (t := TableName.records entity.name) h

theorem isolated_lookup (keys : List String) : Isolated a ok (lookup a entity keys : Method N D _) :=
  isolated_selectRecords (within_and _)

theorem isolated_withStudents {sql : Sql N} (name : String) (clauses : List (WithStudent N D → Bool)) :
    Isolated a ok (withStudents sql a name clauses) := by
  unfold withStudents
  refine isolated_leftJoin (fun r hr => ?_) fun r s hs => ?_
  · simp only [Bool.and_eq_true, beq_iff_eq] at hr
    exact hr.1
  · simp only [ofStudent, Bool.and_eq_true, beq_iff_eq] at hs
    exact hs.1

variable [Python N] {sql : Sql N}

theorem isolated_inTenant {α : Type} {body : Method N D α} (h : Isolated a ok body) :
    Isolated a ok (inTenant a body) :=
  isolated_ite (isolated_throw _) h

theorem isolated_writeRecords {stamp : String} {rowId : String → String}
    {update : Pending N D → Row N D → Row N D} {pending : List (Pending N D)}
    (hfree : ∀ d, ok d → ∀ p ∈ pending, ∀ r ∈ d (.records entity.name), r.id ≠ rowId p.key) :
    Isolated a ok (writeRecords a entity stamp rowId update pending) := by
  unfold writeRecords
  refine isolated_inTenant (isolated_forM fun p hp => ?_)
  have hmem : p ∈ pending := (byStatement_perm pending).mem_iff.mp hp
  unfold writeRecord
  exact isolated_upsert rfl (within_and _) fun d hd => hfree d hd p hmem

section
variable [DecidableEq D] {digest : List (String × Value N) → List (String × Value N) → D}
  {mode : ImportMode} {rowId : String → String}

theorem isolated_upsertRecords {records : List (CanonicalRecord N entity)}
    (hfree : ∀ d, ok d → ∀ record ∈ records, ∀ r ∈ d (.records entity.name),
      r.id ≠ rowId record.recordKey) :
    Isolated a ok (upsertRecords digest a mode rowId records) := by
  unfold upsertRecords
  refine isolated_bind (isolated_inTenant (isolated_lookup _)) fun found => ?_
  refine isolated_bind (isolated_raiseValueError _) fun summary => ?_
  refine isolated_bind (isolated_writeRecords fun d hd p hp => ?_) fun _ => isolated_pure _
  obtain ⟨decision, hdecision, hpending⟩ := List.mem_filterMap.mp hp
  obtain ⟨record, hrecord, hconsider⟩ := exists_of_write (mem_pending.mp hpending ▸ hdecision)
  rw [(consider_write hconsider).1]
  exact hfree d hd record hrecord

theorem exists_of_replacement {rows : Rows N D} {seen : List String} {p : Pending N D}
    {records : List (CanonicalRecord N entity × List String)}
    (h : .write p ∈ replacements digest mode rows seen records) :
    ∃ record ∈ records, p.key = record.1.recordKey := by
  induction records generalizing seen with
  | nil => cases h
  | cons record records ih =>
    rw [replacements] at h
    cases hskip : skipReason mode seen record.1 with
    | some reason =>
      rw [hskip] at h
      rcases List.mem_cons.mp h with h | h
      · cases h
      · obtain ⟨other, hother, hkey⟩ := ih h
        exact ⟨other, List.mem_cons_of_mem _ hother, hkey⟩
    | none =>
      rw [hskip] at h
      rcases List.mem_cons.mp h with h | h
      · split_ifs at h
        injection h with h
        exact ⟨record, List.mem_cons_self, h ▸ rfl⟩
      · obtain ⟨other, hother, hkey⟩ := ih h
        exact ⟨other, List.mem_cons_of_mem _ hother, hkey⟩

theorem isolated_replaceRecords {records : List (CanonicalRecord N entity × List String)}
    (hfree : ∀ d, ok d → ∀ record ∈ records, ∀ r ∈ d (.records entity.name),
      r.id ≠ rowId record.1.recordKey) :
    Isolated a ok (replaceRecords digest a mode rowId records) := by
  unfold replaceRecords
  refine isolated_ite (isolated_throw _) ?_
  refine isolated_bind (isolated_inTenant (isolated_lookup _)) fun found => ?_
  refine isolated_bind (isolated_writeRecords fun d hd p hp => ?_) fun _ => isolated_pure _
  obtain ⟨decision, hdecision, hpending⟩ := List.mem_filterMap.mp hp
  obtain ⟨record, hrecord, hkey⟩ := exists_of_replacement (mem_pending.mp hpending ▸ hdecision)
  rw [hkey]
  exact hfree d hd record hrecord

end

theorem isolated_existingKeys (keys : List String) :
    Isolated a ok (existingKeys a entity keys : Method N D _) := by
  unfold existingKeys
  refine isolated_ite (isolated_pure _) (isolated_inTenant ?_)
  exact isolated_bind (isolated_lookup keys) fun _ => isolated_pure _

theorem isolated_lookupPersonMatches (names phones emails : List (Value N)) (limit : Nat) :
    Isolated a ok (lookupPersonMatches sql a entity names phones emails limit : Method N D _) := by
  unfold lookupPersonMatches
  refine isolated_ite (isolated_pure _) (isolated_inTenant ?_)
  exact isolated_bind (isolated_selectRecords (within_and _)) fun _ => isolated_pure _

theorem isolated_bind_filters (filters : Table String (Filter N)) :
    Isolated a ok (bind filters : Method N D _) :=
  isolated_ite (isolated_throw _) (isolated_pure _)

theorem isolated_queryRecords (filters : Table String (Filter N)) (limit offset : Nat)
    (order : Option String) :
    Isolated a ok (queryRecords sql a entity filters limit offset order : Method N D _) := by
  unfold queryRecords
  refine isolated_bind (isolated_raiseStoreError _) fun clauses => ?_
  refine isolated_bind (isolated_raiseStoreError _) fun before => isolated_inTenant ?_
  refine isolated_bind (isolated_bind_filters _) fun _ => ?_
  exact isolated_bind (isolated_selectRecords (within_and _)) fun _ => isolated_pure _

theorem isolated_countRecords (filters : Table String (Filter N)) :
    Isolated a ok (countRecords sql a entity filters : Method N D _) := by
  unfold countRecords
  refine isolated_bind (isolated_raiseStoreError _) fun clauses => isolated_inTenant ?_
  refine isolated_bind (isolated_bind_filters _) fun _ => ?_
  exact isolated_bind (isolated_selectRecords (within_and _)) fun _ => isolated_pure _

theorem isolated_getRecord (recordKey : String) :
    Isolated a ok (getRecord a entity recordKey : Method N D _) :=
  isolated_inTenant
    (isolated_bind (isolated_selectRecords (within_and _)) fun _ => isolated_pure _)

theorem isolated_updateRecordFields (recordKey : String) (changes : Table String (Value N))
    (locator stamp : String) :
    Isolated a ok (updateRecordFields a entity recordKey changes locator stamp : Method N D _) := by
  unfold updateRecordFields
  refine isolated_ite (isolated_throw _) (isolated_bind (isolated_getRecord recordKey) fun found => ?_)
  cases found with
  | none => exact isolated_throw _
  | some before =>
    refine isolated_bind (isolated_raiseStoreError _) fun assignments => isolated_inTenant ?_
    refine isolated_bind (isolated_update (within_and _) _) fun _ => ?_
    exact isolated_bind (isolated_selectRecords (within_and _)) fun _ => isolated_pure _

theorem isolated_distinctValues (column : String) (limit : Nat) :
    Isolated a ok (distinctValues sql a entity column limit : Method N D _) := by
  unfold distinctValues
  refine isolated_bind (isolated_raiseStoreError _) fun _ => isolated_inTenant ?_
  refine isolated_bind (isolated_selectRecords fun r hr => ?_) fun _ => isolated_pure _
  simp only [Bool.and_eq_true, beq_iff_eq] at hr
  exact hr.1.1

theorem isolated_entityCounts (entities : List CanonicalEntity) :
    Isolated a ok (entityCounts a entities : Method N D _) := by
  unfold entityCounts
  refine isolated_inTenant (isolated_mapM fun e _ => ?_)
  refine isolated_bind (isolated_selectRecords fun r hr => ?_) fun _ => isolated_pure _
  exact beq_iff_eq.mp hr

theorem isolated_deleteByJob (ingestionJobId : String) :
    Isolated a ok (deleteByJob a entity ingestionJobId : Method N D _) :=
  isolated_inTenant (isolated_delete (within_and _))

theorem isolated_rollup {α : Type} {name : String} {clauses : List (WithStudent N D → Bool)}
    (f : List (WithStudent N D) → α) :
    Isolated a ok (inTenant a (withStudents sql a name clauses >>= fun rows => pure (f rows))) :=
  isolated_inTenant (isolated_bind (isolated_withStudents _ _) fun _ => isolated_pure _)

theorem isolated_getDocument (documentId : String) :
    Isolated a ok (getDocument a documentId : Method N D _) :=
  isolated_inTenant (isolated_bind (isolated_select (within_and _)) fun _ => isolated_pure _)

theorem isolated_addDocument {documentId : String} {document : Document} {chunks : List (NewChunk N)}
    (hdocument : ∀ d, ok d → ∀ r ∈ d .documents, r.id ≠ documentId)
    (hchunks : ∀ d, ok d → ∀ c ∈ chunks, ∀ r ∈ d .documentChunks, r.id ≠ c.chunkId) :
    Isolated a ok (addDocument a documentId document chunks : Method N D _) := by
  unfold addDocument
  refine isolated_bind (isolated_inTenant ?_) fun _ => isolated_getDocument documentId
  refine isolated_bind (isolated_insert rfl hdocument) fun _ => isolated_forM fun c hc => ?_
  exact isolated_insert rfl fun d hd => hchunks d hd c hc

theorem isolated_listDocuments (limit : Nat) (category : Option String) :
    Isolated a ok (listDocuments a limit category : Method N D _) :=
  isolated_inTenant (isolated_bind (isolated_select (within_and _)) fun _ => isolated_pure _)

theorem isolated_deleteDocument (documentId : String) :
    Isolated a ok (deleteDocument a documentId : Method N D _) := by
  unfold deleteDocument
  refine isolated_inTenant (isolated_bind (isolated_delete (within_and _)) fun _ => ?_)
  exact isolated_bind (isolated_delete (within_and _)) fun _ => isolated_pure _

theorem isolated_documentChunks (classifications documentIds : Option (List String)) (limit : Nat) :
    Isolated a ok (documentChunks a classifications documentIds limit : Method N D _) := by
  unfold documentChunks
  refine isolated_inTenant (isolated_bind (isolated_join (fun r hr => ?_) fun c d hd => ?_)
    fun _ => isolated_pure _)
  · simp only [Bool.and_eq_true, beq_iff_eq] at hr
    exact hr.1.1
  · simp only [Bool.and_eq_true, beq_iff_eq] at hd
    exact hd.2

theorem isolated_addReviewItems {jobId stamp : String} {items : List NewReview}
    (hitems : ∀ d, ok d → ∀ item ∈ items, ∀ r ∈ d .reviewItems, r.id ≠ item.reviewId) :
    Isolated a ok (addReviewItems a jobId stamp items : Method N D _) := by
  unfold addReviewItems
  refine isolated_ite (isolated_pure _) (isolated_bind (isolated_inTenant ?_) fun _ => isolated_pure _)
  exact isolated_forM fun item hitem => isolated_insert rfl fun d hd => hitems d hd item hitem

theorem isolated_listReviewItems (jobId status : Option String) (limit offset : Nat) :
    Isolated a ok (listReviewItems a jobId status limit offset : Method N D _) := by
  unfold listReviewItems
  refine isolated_inTenant (isolated_bind (isolated_select fun r hr => ?_) fun _ => isolated_pure _)
  simp only [Bool.and_eq_true, beq_iff_eq] at hr
  exact hr.1.1

theorem isolated_getReviewItem (reviewId : String) :
    Isolated a ok (getReviewItem a reviewId : Method N D _) :=
  isolated_inTenant (isolated_bind (isolated_select (within_and _)) fun _ => isolated_pure _)

theorem isolated_resolveReviewItem (reviewId status resolvedBy resolution stamp : String) : Isolated a ok
      (resolveReviewItem a reviewId status resolvedBy resolution stamp : Method N D _) := by
  unfold resolveReviewItem
  refine isolated_ite (isolated_throw _) (isolated_inTenant ?_)
  refine isolated_bind (isolated_update (fun r hr => ?_) _) fun _ =>
    isolated_bind (isolated_select (within_and _)) fun _ => isolated_pure _
  simp only [theReview, Bool.and_eq_true, beq_iff_eq] at hr
  exact hr.1.1

variable [DecidableEq D] {digest : List (String × Value N) → List (String × Value N) → D}

/-- Every operation is isolated from institutions that have none of the ids it brings. -/
theorem isolated_run (op : Operation N D) (hfree : ∀ d, ok d → Free op d) :
    Isolated a ok (op.run sql digest a) := by
  cases op with
  | upsertRecords entity mode rowId records =>
    exact isolated_map (isolated_upsertRecords fun d hd record hrecord =>
      hfree d hd _ (List.mem_map.mpr ⟨record, hrecord, rfl⟩))
  | replaceRecords entity mode rowId records =>
    exact isolated_map (isolated_replaceRecords fun d hd record hrecord =>
      hfree d hd _ (List.mem_map.mpr ⟨record, hrecord, rfl⟩))
  | addDocument documentId document chunks =>
    refine isolated_map (isolated_addDocument (fun d hd => ?_) fun d hd c hc => ?_)
    · exact hfree d hd _ List.mem_cons_self
    · exact hfree d hd _ (List.mem_cons_of_mem _ (List.mem_map.mpr ⟨c, hc, rfl⟩))
  | addReviewItems jobId stamp items =>
    exact isolated_map (isolated_addReviewItems fun d hd item hitem =>
      hfree d hd _ (List.mem_map.mpr ⟨item, hitem, rfl⟩))
  | existingKeys _ keys => exact isolated_map (isolated_existingKeys keys)
  | lookupPersonMatches => exact isolated_map (isolated_lookupPersonMatches _ _ _ _)
  | queryRecords => exact isolated_map (isolated_queryRecords _ _ _ _)
  | countRecords => exact isolated_map (isolated_countRecords _)
  | getRecord => exact isolated_map (isolated_getRecord _)
  | updateRecordFields => exact isolated_map (isolated_updateRecordFields _ _ _ _)
  | distinctValues => exact isolated_map (isolated_distinctValues _ _)
  | entityCounts => exact isolated_map (isolated_entityCounts _)
  | deleteByJob => exact isolated_map (isolated_deleteByJob _)
  | attendanceRollup => exact isolated_map (isolated_rollup _)
  | feeRollup => exact isolated_map (isolated_rollup _)
  | feeBreakdown => exact isolated_map (isolated_rollup _)
  | examRollup => exact isolated_map (isolated_rollup _)
  | getDocument => exact isolated_map (isolated_getDocument _)
  | listDocuments => exact isolated_map (isolated_listDocuments _ _)
  | deleteDocument => exact isolated_map (isolated_deleteDocument _)
  | documentChunks => exact isolated_map (isolated_documentChunks _ _ _)
  | listReviewItems => exact isolated_map (isolated_listReviewItems _ _ _ _)
  | getReviewItem => exact isolated_map (isolated_getReviewItem _)
  | resolveReviewItem => exact isolated_map (isolated_resolveReviewItem _ _ _ _ _)

end

variable {N D : Type} [Python N]

/-! ## Sequences of operations -/

/-- **An institution's operations see its own rows only**, one after the other: from any two databases
that agree on them, where the others have none of the primary keys that the operations bring, they
answer the same and leave the same rows. They leave the rows of the others in any case. -/
theorem tenant_isolation [DecidableEq D] (sql : Sql N)
    (digest : List (String × Value N) → List (String × Value N) → D) (institutionId : String)
    (ops : List (Operation N D)) :
    (∀ d, rest institutionId (runAll (ops.map (·.run sql digest institutionId)) d).2 =
      rest institutionId d) ∧
    ∀ d d' : StoreDatabase N D, own institutionId d = own institutionId d' →
      (∀ op ∈ ops, Free op (rest institutionId d)) → (∀ op ∈ ops, Free op (rest institutionId d')) →
      (runAll (ops.map (·.run sql digest institutionId)) d).1 =
          (runAll (ops.map (·.run sql digest institutionId)) d').1 ∧
        own institutionId (runAll (ops.map (·.run sql digest institutionId)) d).2 =
          own institutionId (runAll (ops.map (·.run sql digest institutionId)) d').2 := by
  refine ⟨fun d => ?_, fun d d' hown hfree hfree' => ?_⟩
  · have hrest : ∀ p ∈ ops.map (·.run sql digest institutionId),
        Isolated institutionId (fun _ => False) p := by
      intro p hp
      obtain ⟨op, -, rfl⟩ := List.mem_map.mp hp
      exact isolated_run op fun _ h => h.elim
    exact runAll_rest hrest d
  · have hops : ∀ p ∈ ops.map (·.run sql digest institutionId),
        Isolated institutionId (fun e => ∀ op ∈ ops, Free op e) p := by
      intro p hp
      obtain ⟨op, hop, rfl⟩ := List.mem_map.mp hp
      exact isolated_run op fun _ h => h op hop
    exact runAll_isolated hops hown hfree hfree'

def plainSql : Sql ℚ where
  text := Value.str
  lower := String.toLower
  upper := String.toUpper
  like _ _ := false
  equals v w := v.same w
  less _ _ := false
  before v w := decide (v.str ≤ w.str)
  grouped v w := v.same w
  sum values := .number ((values.map Value.toFloat).sum)
  avg values := .number ((values.map Value.toFloat).sum / values.length)
  max values := values.headD .null
  min values := values.headD .null
  minus v w := .number (v.toFloat - w.toFloat)
  percent v w := .number (v.toFloat * 100 / w.toFloat)
  truncate x := x.floor
  listText _ := ""

def circular : Document where
  title := "Exam circular"
  fileName := "circular.pdf"
  objectKey := "documents/circular.pdf"
  contentType := "application/pdf"
  sizeBytes := 1024
  sha256 := "0"
  classification := "internal"
  category := "general"
  uploadedBy := "clerk"
  uploadedAt := "2026-01-01"
  pageCount := 1
  chunkCount := 0
  status := "indexed"

/-- A store in which another college has a document. -/
def otherCollege : StoreDatabase ℚ (Content ℚ)
  | .documents => [(⟨"college_b", "doc-1", circular⟩ : DocumentOf)]
  | _ => []

/-- A document is added under an id, listed and read. -/
def documentOps (documentId : String) : List (Operation ℚ (Content ℚ)) :=
  [.addDocument documentId circular [], .listDocuments 100 none, .getDocument "doc-1",
    .deleteDocument "doc-1"]

theorem own_otherCollege : own "college_a" otherCollege = own "college_a" fun _ => [] := by
  funext t
  cases t <;> rfl

theorem tenant_isolation_documents :
    (runAll ((documentOps "doc-2").map (·.run plainSql content "college_a")) otherCollege).1 =
        (runAll ((documentOps "doc-2").map (·.run plainSql content "college_a")) fun _ => []).1 ∧
      rest "college_a"
          (runAll ((documentOps "doc-2").map (·.run plainSql content "college_a")) otherCollege).2 =
        rest "college_a" otherCollege := by
  obtain ⟨hrest, hview⟩ := tenant_isolation plainSql content "college_a" (documentOps "doc-2")
  have hfree : ∀ d : StoreDatabase ℚ (Content ℚ), (∀ r ∈ d .documents, r.id ≠ "doc-2") →
      ∀ op ∈ documentOps "doc-2", Free op d := by
    intro d hd op hop e he r hr
    simp only [documentOps, List.mem_cons, List.not_mem_nil, or_false] at hop
    rcases hop with rfl | rfl | rfl | rfl
    · simp only [Operation.newIds, List.map_nil, List.mem_singleton] at he
      subst he
      exact hd r hr
    all_goals cases he
  refine ⟨(hview _ _ own_otherCollege (hfree _ fun r hr => ?_) (hfree _ nofun)).1, hrest _⟩
  obtain rfl := List.mem_singleton.mp (List.mem_filter.mp hr).1
  decide

/-- A primary key is taken once in the store: an id that another college has is refused. -/
theorem tenant_isolation_needs_free : ¬ ∀ (institutionId : String)
    (ops : List (Operation ℚ (Content ℚ))) (d d' : StoreDatabase ℚ (Content ℚ)),
    own institutionId d = own institutionId d' →
    (runAll (ops.map (·.run plainSql content institutionId)) d).1 =
      (runAll (ops.map (·.run plainSql content institutionId)) d').1 := by
  intro h
  have hresults := congrArg (List.map Except.toBool)
    (h "college_a" (documentOps "doc-1") otherCollege (fun _ => []) own_otherCollege)
  exact absurd hresults (by decide)

end GuruJi.Store
