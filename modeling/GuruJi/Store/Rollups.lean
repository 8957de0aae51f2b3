import GuruJi.Store.Statements

/-!
# Rollups, documents and reviews

The other methods of `InstitutionDataStore` on one institution's rows: the rollups, which join the
students, the documents with their chunks, and the review items.
-/

namespace GuruJi.Store

open GuruJi.Lib GuruJi.Lib.Database GuruJi.Records

variable {N D : Type} [Python N]

/-! ## Rollups -/

abbrev ResultRow (N : Type) := List (String × Value N)

/-- A row of a rollup's table with the student it belongs to, if there is one. -/
abbrev WithStudent (N D : Type) := RecordOf N D × Option (RecordOf N D)

def WithStudent.column (r : WithStudent N D) (name : String) : Value N := r.1.row.content.columns name

def WithStudent.student (r : WithStudent N D) (name : String) : Value N :=
  r.2.elim .null fun s => s.row.content.columns name

/-- `LEFT JOIN students s ON s.institution_id = a.institution_id AND ...`. -/
def ofStudent (sql : Sql N) (r s : RecordOf N D) : Bool :=
  s.tenant == r.tenant &&
    sql.sameLower (s.row.content.columns "student_id") (r.row.content.columns "student_id")

/-- The rows of a rollup's table that meet the clauses, with their students. -/
def withStudents (sql : Sql N) (institutionId entity : String)
    (clauses : List (WithStudent N D → Bool)) : Method N D (List (WithStudent N D)) :=
  Database.leftJoin (TableName.records entity) (TableName.records "student") (ofStudent sql)
    fun r : WithStudent N D => r.1.tenant == institutionId && clauses.all fun c => c r

/-- `value`, where it is asked for. -/
def asked (text : Option String) : Option String := text.filter (· ≠ "")

/-- `LOWER(a.column) = ?`. -/
def textClause (sql : Sql N) (column : String) (text : Option String) :
    List (WithStudent N D → Bool) :=
  (asked text).toList.map fun text r => sql.lowerIs (Python.lower N text) (r.column column)

/-- `(LOWER(a.column) = ? OR (a.column IS NULL AND LOWER(s.column) = ?))`. -/
def textOrStudent (sql : Sql N) (column : String) (text : Option String) :
    List (WithStudent N D → Bool) :=
  (asked text).toList.map fun text r => sql.lowerIs (Python.lower N text) (r.column column) ||
    ((r.column column).isNull && sql.lowerIs (Python.lower N text) (r.student column))

/-- `(a.semester = ? OR (a.semester IS NULL AND s.semester = ?))`. -/
def semesterClause (sql : Sql N) (semester : Option Int) : List (WithStudent N D → Bool) :=
  semester.toList.map fun semester r => sql.is (r.column "semester") (.int semester) ||
    ((r.column "semester").isNull && sql.is (r.student "semester") (.int semester))

def sameGroup (sql : Sql N) (values values' : List (Value N)) : Bool :=
  values.length == values'.length && (values.zip values').all fun e => sql.grouped e.1 e.2

/-- `SUM(COALESCE(a.column, 0))`. -/
def total (sql : Sql N) (rows : List (WithStudent N D)) (column : String) : Value N :=
  sql.sum (rows.map fun r => coalesce (r.column column) (.int 0))

/-- The columns of a group's student, which the group agrees on. -/
def groupStudent (rows : List (WithStudent N D)) (name : String) : Value N :=
  (rows.head?.map fun r => r.student name).getD .null

/-- `float(value or 0)`. -/
def floatOr0 (v : Value N) : N := if v.truthy then v.toFloat else Python.ofInt 0

/-- `round(float(value or 0), 2)`. -/
def rounded (v : Value N) : Value N := .number (Python.round2 (floatOr0 v))

/-- `round(float(value), 2)`, of a value that is there. -/
def roundedOrNull (v : Value N) : Value N := if v.isNull then .null else rounded v

/-- `attendance_rollup`. -/
def attendanceRollup (sql : Sql N) (institutionId : String) (program : Option String)
    (semester : Option Int) (department period courseCode : Option String) :
    Method N D (List (ResultRow N)) :=
  inTenant institutionId do
    let rows ← withStudents (D := D) sql institutionId "attendance"
      (textOrStudent sql "program" program ++ semesterClause sql semester ++
        textOrStudent sql "department" department ++ textClause sql "period" period ++
        textClause sql "course_code" courseCode)
    let groups := groupBy (sameGroup sql) (rows.map fun r =>
      ([r.column "student_id", r.student "name", r.student "program", r.student "semester",
        r.student "department"], r))
    let selected := groups.map fun g =>
      let studentId := g.1.headD .null
      let column := fun name => sql.max (g.2.map fun r => r.column name)
      let held := floatOr0 (total sql g.2 "classes_held")
      let attended := floatOr0 (total sql g.2 "classes_attended")
      let percent := if Python.lt (Python.ofInt 0) held then
          .number (Python.round2 (Python.mul (Python.div attended held) (Python.ofInt 100)))
        else roundedOrNull (sql.avg (g.2.map fun r => r.column "attendance_percent"))
      (studentId, [("student_id", studentId),
        ("name", coalesce (groupStudent g.2 "name") (column "student_name")),
        ("program", coalesce (column "program") (groupStudent g.2 "program")),
        ("semester", coalesce (column "semester") (groupStudent g.2 "semester")),
        ("department", coalesce (column "department") (groupStudent g.2 "department")),
        ("classes_held", .int (sql.truncate held)), ("classes_attended", .int (sql.truncate attended)),
        ("attendance_percent", percent), ("rows_used", .int g.2.length)])
    return ((orderBy (fun r r' => sql.before r.1 r'.1) selected).take (5000 * 4)).map Prod.snd

/-- `fee_rollup`. -/
def feeRollup (sql : Sql N) (institutionId : String) (program : Option String)
    (semester : Option Int) (academicYear feeType : Option String) :
    Method N D (List (ResultRow N)) :=
  inTenant institutionId do
    let rows ← withStudents (D := D) sql institutionId "fee"
      (textOrStudent sql "program" program ++ semesterClause sql semester ++
        textClause sql "academic_year" academicYear ++ textClause sql "fee_type" feeType)
    let groups := groupBy (sameGroup sql) (rows.map fun r =>
      ([r.column "student_id", r.student "name", r.student "program", r.student "semester"], r))
    let selected := groups.map fun g =>
      let studentId := g.1.headD .null
      let column := fun name => sql.max (g.2.map fun r => r.column name)
      let balance := sql.sum (g.2.map fun r => coalesce (r.column "balance")
        (sql.minus (coalesce (r.column "amount_due") (.int 0))
          (coalesce (r.column "amount_paid") (.int 0))))
      ((balance, studentId), [("student_id", studentId),
        ("name", coalesce (groupStudent g.2 "name") (column "student_name")),
        ("program", coalesce (column "program") (groupStudent g.2 "program")),
        ("semester", coalesce (column "semester") (groupStudent g.2 "semester")),
        ("amount_due", rounded (total sql g.2 "amount_due")),
        ("amount_paid", rounded (total sql g.2 "amount_paid")), ("balance", rounded balance),
        ("earliest_due_date", sql.min (g.2.map fun r => r.column "due_date")),
        ("rows_used", .int g.2.length)])
    -- the balance descending, then the student
    let before := fun (r r' : (Value N × Value N) × ResultRow N) => sql.before r'.1.1 r.1.1 &&
      (!sql.before r.1.1 r'.1.1 || sql.before r.1.2 r'.1.2)
    return ((orderBy before selected).take (5000 * 4)).map Prod.snd

/-- `fee_breakdown`. -/
def feeBreakdown (sql : Sql N) (institutionId : String) (program academicYear : Option String) :
    Method N D (List (ResultRow N)) :=
  inTenant institutionId do
    let rows ← withStudents (D := D) sql institutionId "fee"
      (textOrStudent sql "program" program ++ textClause sql "academic_year" academicYear)
    let groups := groupBy (sameGroup sql) (rows.map fun r =>
      ([sql.upperOf (coalesce (r.column "program") (r.student "program")),
        r.column "academic_year"], r))
    let selected := groups.map fun g =>
      let program := g.1.headD .null
      let year := (g.1.tail).headD .null
      let students := groupBy sql.grouped ((g.2.filter fun r => !(r.column "student_id").isNull).map
        fun r => (r.column "student_id", ()))
      ((year, program), [("program", program), ("academic_year", year),
        ("students", .int students.length), ("payments", .int g.2.length),
        ("amount_due", rounded (total sql g.2 "amount_due")),
        ("amount_paid", rounded (total sql g.2 "amount_paid"))])
    let before := fun (r r' : (Value N × Value N) × ResultRow N) => sql.before r.1.1 r'.1.1 &&
      (!sql.before r'.1.1 r.1.1 || sql.before r.1.2 r'.1.2)
    return (orderBy before selected).map Prod.snd

/-- `SUM(CASE WHEN LOWER(COALESCE(e.result_status, '')) IN (...) THEN 1 ELSE 0 END)`. -/
def countStatus (sql : Sql N) (statuses : List String) (rows : List (WithStudent N D)) : Nat :=
  rows.countP fun r => statuses.any fun status =>
    sql.lowerIs status (coalesce (r.column "result_status") (.text ""))

/-- `exam_rollup`. -/
def examRollup (sql : Sql N) (institutionId : String) (program : Option String)
    (semester : Option Int) (courseCode examName : Option String) :
    Method N D (List (ResultRow N)) :=
  inTenant institutionId do
    let rows ← withStudents (D := D) sql institutionId "exam"
      (textOrStudent sql "program" program ++ semesterClause sql semester ++
        textClause sql "course_code" courseCode ++ textClause sql "exam_name" examName)
    let groups := groupBy (sameGroup sql) (rows.map fun r =>
      ([r.column "course_code", r.column "exam_name"], r))
    let selected := groups.map fun g =>
      let course := g.1.headD .null
      let exam := (g.1.tail).headD .null
      let marked := g.2.filter fun r => !(r.column "max_marks").isNull &&
        sql.less (.int 0) (r.column "max_marks") && !(r.column "marks_obtained").isNull
      let avg := sql.avg (marked.map fun r => sql.percent (r.column "marks_obtained")
        (r.column "max_marks"))
      ((course, exam), [("course_code", course),
        ("course_name", sql.max (g.2.map fun r => r.column "course_name")), ("exam_name", exam),
        ("students", .int g.2.length), ("avg_percent", roundedOrNull avg),
        ("passed", .int (countStatus sql ["pass", "passed", "p"] g.2)),
        ("failed", .int (countStatus sql ["fail", "failed", "f", "reappear", "absent"] g.2))])
    let before := fun (r r' : (Value N × Value N) × ResultRow N) => sql.before r.1.1 r'.1.1 &&
      (!sql.before r'.1.1 r.1.1 || sql.before r.1.2 r'.1.2)
    return ((orderBy before selected).take 5000).map Prod.snd

/-! ## Documents -/

abbrev DocumentOf := Owned String String Document

abbrev ChunkOf (N : Type) := Owned String String (DocumentChunk N)

/-- A chunk to add, with the id that is drawn for it. -/
structure NewChunk (N : Type) where
  chunkId : String
  chunkIndex : Int
  pageNumber : Option Int
  text : String
  embedding : List N
  tokenCount : Int

def theDocument (institutionId documentId : String) (r : DocumentOf) : Bool :=
  r.tenant == institutionId && r.id == documentId

/-- `get_document`. -/
def getDocument (institutionId documentId : String) : Method N D (Option DocumentOf) :=
  inTenant institutionId do
    let rows ← Database.select TableName.documents (theDocument institutionId documentId)
    return List.head? rows

/-- `add_document`: the document and its chunks, in one transaction. -/
def addDocument (institutionId documentId : String) (document : Document)
    (chunks : List (NewChunk N)) : Method N D (Option DocumentOf) := do
  inTenant institutionId do
    Database.insert .integrityError TableName.documents (⟨institutionId, documentId,
      { document with chunkCount := chunks.length, status := "indexed" }⟩ : DocumentOf)
    chunks.forM fun c => Database.insert .integrityError TableName.documentChunks
      (⟨institutionId, c.chunkId,
        ⟨documentId, c.chunkIndex, c.pageNumber, c.text, c.embedding, c.tokenCount⟩⟩ : ChunkOf N)
  getDocument institutionId documentId

/-- `list_documents`. -/
def listDocuments (institutionId : String) (limit : Nat) (category : Option String) :
    Method N D (List DocumentOf) :=
  inTenant institutionId do
    let rows ← Database.select TableName.documents fun r : DocumentOf =>
      r.tenant == institutionId && (asked category).all (r.row.category == ·)
    return (orderBy (fun r r' : DocumentOf => decide (r'.row.uploadedAt ≤ r.row.uploadedAt)) rows).take
      (Ingestion.clampLimit limit 1000)

/-- `delete_document`. -/
def deleteDocument (institutionId documentId : String) : Method N D Bool :=
  inTenant institutionId do
    let _ ← Database.delete TableName.documentChunks fun r : ChunkOf N =>
      r.tenant == institutionId && r.row.documentId == documentId
    let deleted ← Database.delete TableName.documents (theDocument institutionId documentId)
    return decide (0 < deleted)

/-- `document_chunks`: each chunk with its document. -/
def documentChunks (institutionId : String) (classifications documentIds : Option (List String))
    (limit : Nat) : Method N D (List (ChunkOf N × DocumentOf)) :=
  inTenant institutionId do
    let rows ← Database.join TableName.documentChunks TableName.documents
      (fun (c : ChunkOf N) (d : DocumentOf) => d.id == c.row.documentId && d.tenant == c.tenant)
      fun r : ChunkOf N × DocumentOf => r.1.tenant == institutionId &&
        (classifications.filter (!·.isEmpty)).all (·.contains r.2.row.classification) &&
        (documentIds.filter (!·.isEmpty)).all (·.contains r.1.row.documentId)
    return (orderBy (fun r r' : ChunkOf N × DocumentOf =>
        decide (r.1.row.documentId < r'.1.row.documentId) ||
          (r.1.row.documentId == r'.1.row.documentId && decide
              (r.1.row.chunkIndex ≤ r'.1.row.chunkIndex)))
      rows).take (Ingestion.clampLimit limit 100000)

/-! ## Reviews -/

abbrev ReviewOf := Owned String String ReviewRow

/-- An item to add, with the id that is drawn for it. -/
structure NewReview where
  reviewId : String
  kind : String
  payload : String
  deriving DecidableEq

/-- `add_review_items`. -/
def addReviewItems (institutionId jobId stamp : String) (items : List NewReview) :
    Method N D (List String) :=
  if items.isEmpty then pure []
  else do
    inTenant institutionId (items.forM fun item => Database.insert .integrityError
      TableName.reviewItems (⟨institutionId, item.reviewId,
        ⟨jobId, item.kind, "pending", item.payload, stamp, none, none, "\x7b\x7d"⟩⟩ : ReviewOf))
    return items.map (·.reviewId)

/-- `list_review_items`. -/
def listReviewItems (institutionId : String) (jobId status : Option String) (limit offset : Nat) :
    Method N D (List ReviewOf) :=
  inTenant institutionId do
    let rows ← Database.select TableName.reviewItems fun r : ReviewOf =>
      r.tenant == institutionId && (asked jobId).all (r.row.jobId == ·) &&
        (asked status).all (r.row.status == ·)
    return ((orderBy (fun r r' : ReviewOf => decide (r.row.createdAt < r'.row.createdAt) ||
        (r.row.createdAt == r'.row.createdAt && decide (r.id ≤ r'.id))) rows).drop offset).take
      (Ingestion.clampLimit limit 2000)

def theReview (institutionId reviewId : String) (r : ReviewOf) : Bool :=
  r.tenant == institutionId && r.id == reviewId

/-- `get_review_item`. -/
def getReviewItem (institutionId reviewId : String) : Method N D (Option ReviewOf) :=
  inTenant institutionId do
    let rows ← Database.select TableName.reviewItems (theReview institutionId reviewId)
    return List.head? rows

/-- `resolve_review_item`. -/
def resolveReviewItem (institutionId reviewId status resolvedBy resolution stamp : String) :
    Method N D (Option ReviewOf) :=
  if status ≠ "approved" ∧ status ≠ "rejected" then
    throw (.valueError "review status must be approved or rejected")
  else inTenant institutionId do
    Database.update TableName.reviewItems
      (fun r : ReviewOf => theReview institutionId reviewId r && r.row.status == "pending")
      fun r : ReviewRow => { r with
        status := status, resolvedAt := some stamp, resolvedBy := some resolvedBy
        resolution := resolution }
    let rows ← Database.select TableName.reviewItems (theReview institutionId reviewId)
    return List.head? rows

end GuruJi.Store
