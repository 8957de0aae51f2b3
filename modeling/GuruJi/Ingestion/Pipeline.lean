import GuruJi.Ingestion.Reviews
import GuruJi.Ingestion.Staging
import GuruJi.Lib.Fallible

/-!
# The pipeline of a job

The calls that move a job from its file to its import, each a program over the job, its review items
and its staged rows. A `try` of the source around the steps of a call is an `attempt`: within it any
call of the store can fail, and so can what answers the call: the parser, the mapping engine, the
rules that judge the rows, the import. What they answer is part of the call (`Answers`).

Left out of the rows is what normalising writes besides their status; left out of the job is what no
call reads. A remembered mapping reaches a job as the profile that its mapping is proposed from.
-/

namespace GuruJi.Ingestion.Pipeline

open GuruJi.Lib GuruJi.Records

variable {N ν : Type}

/-! ## The job, its items and its rows -/

/-- A row as parsing staged it. -/
structure SourceRow (N : Type) where
  rowNumber : Nat
  locator : String
  raw : Table String (Value N)
  ocr : Bool
  ocrConfidence : Option N

/-- A row of `ingestion_records`: its status and what else normalising made of it, once it did. -/
structure JobRecord (N ν : Type) where
  source : SourceRow N
  judged : Option (RowStatus × ν)

def JobRecord.status (row : JobRecord N ν) : RowStatus := row.judged.elim .parsed Prod.fst

/-- A row of `review_items`; a question about duplicates names the normalisation run that asked. -/
structure Question extends ReviewItem where
  normalizationRun : Option String
  deriving DecidableEq

/-- The `mapping` of a job. -/
structure MappingState where
  headerSignature : Option String
  approvedMapping : Table String String
  remember : Bool
  approvalUnscheduled : Bool
  deriving DecidableEq

def MappingState.empty : MappingState := ⟨none, [], true, false⟩

/-- The `report` of a job: the headers of its table, whether they are those of a reshaped sheet of
marks, and the last run that normalised its rows. -/
structure JobReport where
  headers : List String
  reshapedMarks : Bool
  normalizationRun : Option String
  deriving DecidableEq

/-- A row of `ingestion_jobs`. -/
structure PipelineJob extends Job where
  fileId : Option String
  requestedBy : String
  entity : Option String
  mapping : MappingState
  report : JobReport
  deriving DecidableEq

/-- A job with its review items, in the order they were asked, and its staged rows. -/
structure PipelineState (N ν : Type) where
  job : PipelineJob
  items : List Question
  rows : List (JobRecord N ν)

/-! ## Exceptions -/

/-- What the code around a call raises: never one of the service's own exceptions. -/
structure Failure where
  name : String
  message : String
  isValueError : Bool
  deriving DecidableEq

/-- An exception: one that the service raises, or one that it meets. -/
inductive Exn where
  | raised (error : Error)
  | processingError (message : String)
  | met (failure : Failure)
  deriving DecidableEq

instance : Coe Failure Exn := ⟨.met⟩

/-- `type(exc).__name__`. -/
def Exn.name : Exn → String
  | .raised (.keyError _) => "KeyError"
  | .raised (.valueError _) => "ValueError"
  | .raised (.ingestionError _) => "IngestionError"
  | .raised (.commitError _) => "CommitError"
  | .processingError _ => "ProcessingError"
  | .met e => e.name

/-- `str(exc)`. -/
def Exn.message : Exn → String
  | .raised (.keyError message) | .raised (.valueError message) | .raised (.ingestionError message)
  | .raised (.commitError message) | .processingError message => message
  | .met e => e.message

/-- `isinstance(exc, (IngestionError, ParserError, ValueError))`. -/
def Exn.isValueError : Exn → Bool
  | .raised (.keyError _) => false
  | .raised _ | .processingError _ => true
  | .met e => e.isValueError

/-- `isinstance(exc, CommitError)`. -/
def Exn.isCommitError : Exn → Bool
  | .raised (.commitError _) => true
  | _ => false

/-- `isinstance(exc, ProcessingError)`. -/
def Exn.isProcessingError : Exn → Bool
  | .raised (.commitError _) | .processingError _ => true
  | _ => false

abbrev Program (N ν α : Type) := Fallible (PipelineState N ν) Failure Exn α

open Fallible

/-! ## The service and what answers it -/

/-- The fields of a canonical entity. -/
structure EntityFields where
  fieldNames : List String
  requiredFields : List String
  deriving DecidableEq

structure IngestionService (N ν : Type) where
  maxRows : Nat
  entities : Table String EntityFields
  headerSignature : List String → String
  nothingImportable : List (JobRecord N ν) → String
  repr : String → String

/-- The rows that parsing stages, with what the report says of their table. -/
structure Parsed (N : Type) where
  rows : List (SourceRow N)
  headers : List String
  reshapedMarks : Bool

structure Proposal where
  entity : String
  mapped : Table String String
  reviewRequired : List String
  profileApplied : Bool
  /-- Whether the confidence in the entity reaches the threshold. -/
  confident : Bool

/-- A remembered mapping. -/
structure Profile where
  entity : String
  mapping : Table String String

/-- What normalising makes of each row, and how many questions it asks. -/
structure Verdicts (ν : Type) where
  verdict : Nat → RowStatus × ν
  questions : Nat

/-- What answers a call: the failures of the store, the parsed file, the remembered mapping, what
is proposed for headers, samples, a hint and a saved mapping, what the rows are judged to be under an
entity and a mapping, and whether the import's own steps fail. -/
structure Answers (N ν : Type) where
  faults : List (Fault Failure)
  parsed : Except Failure (Parsed N)
  profile : Option Profile
  propose : List String → List (JobRecord N ν) → Option String → Option (Table String String) →
    Except Failure Proposal
  runId : String
  judge : String → Table String String → List (JobRecord N ν) → Except Failure (Verdicts ν)
  imported : Except Failure Unit

def answer {α : Type} : Except Failure α → Program N ν α
  | .ok a => pure a
  | .error e => raise (.met e)

def check {α : Type} : Except Error α → Program N ν α
  | .ok a => pure a
  | .error e => raise (.raised e)

/-! ## The store -/

/-- `update_job`, which reads the row back. -/
def updateJob (change : PipelineJob → PipelineJob) : Program N ν PipelineJob :=
  call (fun s => { s with job := change s.job }) (·.job)

/-- `_job`. -/
def getJob : Program N ν PipelineJob := call id (·.job)

/-- The rows that `job_records` reads of a job. -/
def readRows (maxRows : Nat) (rows : List (JobRecord N ν)) : List (JobRecord N ν) :=
  (sortBy (fun row => toLex (row.source.rowNumber, row.source.locator)) rows).take
    (recordsLimit maxRows)

def jobRecords (service : IngestionService N ν) : Program N ν (List (JobRecord N ν)) :=
  call id fun s => readRows service.maxRows s.rows

/-- `replace_job_records`, in one transaction. -/
def replaceJobRecords (rows : List (JobRecord N ν)) : Program N ν Unit :=
  call (fun s => { s with rows }) fun _ => ()

/-- `add_review_items`, of so many questions of a kind. -/
def addReviewItems (kind : ReviewKind) (normalizationRun : Option String) (questions : Nat) :
    Program N ν Unit :=
  call (fun s => { s with
      items := s.items ++
        List.replicate questions ⟨⟨kind, .pending, none, none⟩, normalizationRun⟩ })
    fun _ => ()

/-- The questions of a job that are pending, each with its id. -/
def pendingItems (items : List Question) : List (Question × Nat) :=
  items.zipIdx.filter (·.1.status == .pending)

/-- `list_review_items`, of the pending ones, with its default limit. -/
def listPending : Program N ν (List (Question × Nat)) :=
  call id fun s => (pendingItems s.items).take 200

/-- `_review_items`. -/
def reviewItems : Program N ν (List Question) := call id (·.items)

/-- `resolve_review_item`, once its status is accepted. -/
def resolveReviewItem (reviewId : Nat) (status : ReviewStatus) (resolvedBy : String)
    (note : Option String) : Program N ν (Option Question) :=
  call (fun s => { s with
      items := s.items.modify reviewId fun item =>
        if item.status = .pending then
          { item with status := status, resolvedBy := some resolvedBy, note := note }
        else item })
    fun s => s.items[reviewId]?

def resolveAll (items : List (Question × Nat)) (status : ReviewStatus) (resolvedBy : String)
    (note : Option String) : Program N ν Unit :=
  items.forM fun e => do
    let _ ← resolveReviewItem e.2 status resolvedBy note

def closePendingReviews (note : String) : Program N ν Unit := do
  let items ← reviewItems
  resolveAll (pendingItems items) .rejected "system" (some note)

/-- `CANONICAL_ENTITIES[name]`. -/
def canonicalEntity (service : IngestionService N ν) (entity : Option String) :
    Program N ν EntityFields :=
  match entity.bind service.entities.get with
  | some definition => pure definition
  | none => raise (.raised (.keyError (entity.getD "None")))

/-! ## Importing -/

/-- `request_commit`. -/
def requestCommit (committedBy : String) : Program N ν PipelineJob := do
  let job ← getJob
  check (jobCheck job.toJob)
  let pending ← listPending
  check (pendingCheck (pending.map fun e => e.1.toReviewItem))
  updateJob fun row => { row with
    status := .processing, stage := .importing, report := job.report
    committedBy := some committedBy, error := none }

/-- `_locators_to_skip` and `_import`, as far as the job goes. -/
def importJob (service : IngestionService N ν) (a : Answers N ν) (job : PipelineJob) :
    Program N ν PipelineJob := do
  let _ ← canonicalEntity service job.entity
  let _ ← reviewItems
  let _ ← jobRecords service
  answer a.imported
  updateJob fun row => { row with
    status := .imported, stage := .done, report := job.report, committedBy := job.committedBy }

/-- `run_commit`. -/
def runCommit (service : IngestionService N ν) (a : Answers N ν) : Program N ν PipelineJob := do
  let job ← getJob
  match ← attempt (importJob service a job) with
  | .ok row => pure row
  | .error e => do
    let _ ← updateJob fun row => { row with
      status := .ready, stage := .ready, error := some (importFailed e.name) }
    raise (.raised (.commitError (importFailed e.name)))

/-- `commit`. -/
def commit (service : IngestionService N ν) (a : Answers N ν) (committedBy : String) :
    Program N ν PipelineJob := do
  let _ ← requestCommit committedBy
  runCommit service a

/-! ## Normalising -/

/-- `updated_rows`. -/
def judgedRows (result : Verdicts ν) (staged : List (JobRecord N ν)) : List (JobRecord N ν) :=
  staged.mapIdx fun i row => { row with judged := some (result.verdict i) }

/-- Whether a row can be imported, as it is or once it is decided on. -/
def JobRecord.importable (row : JobRecord N ν) : Bool :=
  row.status == .ready || row.status == .review

/-- `_normalize`. -/
def normalizeJob (service : IngestionService N ν) (a : Answers N ν) (job : PipelineJob)
    (mapping : Table String String) (beforeCommit : Program N ν Unit) : Program N ν PipelineJob := do
  let _ ← canonicalEntity service job.entity
  let staged ← jobRecords service
  let result ← answer (a.judge (job.entity.getD "None") mapping staged)
  let rows := judgedRows result staged
  replaceJobRecords rows
  let report := { job.report with normalizationRun := some a.runId }
  if !rows.any JobRecord.importable then
    updateJob fun row => { row with
      status := .failed, stage := .normalizing, report
      committedBy := job.committedBy, error := some (service.nothingImportable rows) }
  else if result.questions ≠ 0 then do
    addReviewItems .duplicate (some a.runId) result.questions
    updateJob fun row => { row with
      status := .needsReview, stage := .duplicateReview, report, committedBy := job.committedBy }
  else do
    let job ← updateJob fun row => { row with
      status := .ready, stage := .ready, report, committedBy := job.committedBy }
    beforeCommit
    if job.autoCommit then commit service a job.requestedBy else pure job

/-! ## Mapping -/

/-- The required fields that no header is mapped to; first and last name stand in for a name. -/
def missingRequired (definition : EntityFields) (mapped : List String) : List String :=
  let named := definition.fieldNames.contains "name" &&
    (mapped.contains "first_name" || mapped.contains "last_name")
  definition.requiredFields.filter fun name => !(mapped.contains name || (named && name == "name"))

/-- `value or None`. -/
def orNone (text : Option String) : Option String := text.filter (· ≠ "")

def approveTarget (service : IngestionService N ν) (entityName : String) (definition : EntityFields)
    (headers : List String) (approved : Table String String) :
    String × Option String → Except Error (Table String String)
  | (header, target) =>
    match orNone target with
    | none => .ok approved
    | some target =>
      if !definition.fieldNames.contains target then
        .error (.ingestionError (target ++ " is not a field of " ++ entityName))
      else if !headers.isEmpty && !headers.contains header then
        .error (.ingestionError ("unknown header: " ++ header))
      else
        match approved.find? (·.2 == target) with
        | some (holder, _) => .error (.ingestionError ("two headers were mapped to " ++ target ++
            " (" ++ service.repr holder ++ " and " ++ service.repr header ++ "); keep " ++ target ++
            " on one of them and leave the other unmapped"))
        | none => .ok (approved.assign header target)

/-- The checks of `approve_mapping`: the entity and the targets it records. -/
def approvalCheck (service : IngestionService N ν) (job : PipelineJob)
    (mapping : Table String (Option String)) (entity : Option String) :
    Except Error (String × Table String String) :=
  if (job.status ≠ .needsReview ∧ job.status ≠ .failed) ∨
      (job.stage ≠ .mappingReview ∧ job.stage ≠ .mapping ∧ job.stage ≠ .normalizing) then
    .error (.ingestionError "the job is not waiting for a mapping decision")
  else
    let entityName := ((orNone entity) <|> orNone job.entity).getD ""
    match service.entities.get entityName with
    | none => .error (.ingestionError "a valid canonical entity is required")
    | some definition => do
      let approved ← mapping.foldlM
        (approveTarget service entityName definition job.report.headers) []
      let missing := missingRequired definition (approved.map Prod.snd)
      if missing.isEmpty then return (entityName, approved)
      else throw (.ingestionError
        ("required fields are not mapped: " ++ String.intercalate ", " missing))

/-- `approve_mapping`. -/
def approveMapping (service : IngestionService N ν) (mapping : Table String (Option String))
    (entity : Option String) (approvedBy : String) (remember : Bool) : Program N ν PipelineJob := do
  let job ← getJob
  let (entityName, approved) ← check (approvalCheck service job mapping entity)
  let signature := (orNone job.mapping.headerSignature).getD
    (service.headerSignature job.report.headers)
  let pending ← listPending
  resolveAll (pending.filter (·.1.kind == .mapping)) .approved approvedBy none
  updateJob fun row => { row with
    status := .processing, stage := .normalizing, entity := some entityName
    mapping := ⟨some signature, approved, remember, false⟩, error := none }

def normalizationFailed (exception : String) : String :=
  "normalization failed unexpectedly (" ++ exception ++
    "); retry the job or submit the mapping again once the cause is fixed"

/-- `remember_once`: it reads the report; that the mapping cannot be saved is not an error. -/
def rememberOnce (remember : Bool) : Program N ν Unit :=
  if remember then do
    let _ ← getJob
  else pure ()

/-- The questions of an earlier run are asked again if they still apply. -/
def normalizeApproved (service : IngestionService N ν) (a : Answers N ν) (job : PipelineJob)
    (remember : Program N ν Unit) : Program N ν PipelineJob := do
  closePendingReviews "superseded: the rows were normalised again"
  normalizeJob service a job job.mapping.approvedMapping remember

/-- `run_approved_mapping`. -/
def runApprovedMapping (service : IngestionService N ν) (a : Answers N ν) :
    Program N ν PipelineJob := do
  let job ← getJob
  let remember := rememberOnce job.mapping.remember
  match ← attempt (normalizeApproved service a job remember) with
  | .ok row => do
    remember
    pure row
  | .error e =>
    if e.isCommitError then do
      remember
      raise e
    else do
      let _ ← updateJob fun row => { row with
        status := .failed, stage := .normalizing, error := some (normalizationFailed e.name) }
      raise (.processingError (normalizationFailed e.name))

/-- `EXAM_HEADERS`. -/
def examHeaders : List String :=
  ["student_id", "student_name", "course_code", "course_name", "exam_name", "marks_obtained",
    "result_status"]

/-- `reshaped_entity`. -/
def reshapedEntity (headers : List String) : Option String :=
  if examHeaders.all headers.contains then some "exam" else none

/-- The profile that a mapping is proposed from, unless a person is to look at it anyway. -/
def savedProfile (a : Answers N ν) (review : Bool) : Program N ν (Option Profile) :=
  if review then pure none else call id fun _ => a.profile

/-- `proposal.missing_required()`. -/
def proposalMissing (service : IngestionService N ν) (proposal : Proposal) :
    Program N ν (List String) := do
  let definition ← canonicalEntity service (some proposal.entity)
  pure (missingRequired definition (proposal.mapped.map Prod.snd))

/-- The mapping proposed and the fields it misses; a profile that misses one is passed over. -/
def propose (service : IngestionService N ν) (a : Answers N ν) (headers : List String)
    (records : List (JobRecord N ν)) (hint : Option String) (profile : Option Profile) :
    Program N ν (Proposal × List String) := do
  let proposal ← answer (a.propose headers records (hint <|> profile.map (·.entity))
    (profile.map (·.mapping)))
  let missing ← proposalMissing service proposal
  if profile.isSome && !missing.isEmpty then do
    let proposal ← answer (a.propose headers records hint none)
    let missing ← proposalMissing service proposal
    pure (proposal, missing)
  else pure (proposal, missing)

/-- The headers of the table: those that the report names, or those of the first row. -/
def tableHeaders (job : PipelineJob) (records : List (JobRecord N ν)) : List String :=
  if job.report.headers.isEmpty then records.head?.elim [] fun row => row.source.raw.map Prod.fst
  else job.report.headers

/-- `_map`. -/
def mapJob (service : IngestionService N ν) (a : Answers N ν) (job : PipelineJob)
    (records : List (JobRecord N ν)) (forceReview : Bool) : Program N ν PipelineJob := do
  let headers := tableHeaders job records
  let hint := orNone job.entity <|> reshapedEntity headers
  let review := forceReview || job.report.reshapedMarks
  let profile ← savedProfile a review
  let (proposal, missing) ← propose service a headers records hint profile
  let uncertain := hint.isNone && !proposal.profileApplied && !proposal.confident
  let mapping := { MappingState.empty with headerSignature := some (service.headerSignature headers) }
  if review || !proposal.reviewRequired.isEmpty || !missing.isEmpty || uncertain then do
    addReviewItems .mapping none 1
    updateJob fun row => { row with
      status := .needsReview, stage := .mappingReview, entity := some proposal.entity, mapping }
  else do
    let job ← updateJob fun row => { row with
      entity := some proposal.entity, mapping, stage := .normalizing }
    normalizeJob service a job proposal.mapped (pure ())

/-! ## Processing -/

def recordedStep (service : IngestionService N ν) (a : Answers N ν) (job : PipelineJob) :
    Program N ν (Option PipelineJob) :=
  if job.stage = .importing then some <$> runCommit service a
  else if job.stage = .normalizing ∧ job.mapping.approvedMapping ≠ [] then
    some <$> runApprovedMapping service a
  else pure none

/-- `_resume`. -/
def resume (service : IngestionService N ν) (a : Answers N ν) (job : PipelineJob) :
    Program N ν (Option PipelineJob) := do
  match ← caught (recordedStep service a job) with
  | .ok resumed => pure resumed
  | .error e => if e.isProcessingError then some <$> getJob else raise e

/-- The staged rows are made anew from the file, when there is one. -/
def discardRows (job : PipelineJob) : Program N ν Unit :=
  if job.fileId.isSome then replaceJobRecords [] else pure ()

/-- `_reset_interrupted`. -/
def resetInterrupted (job : PipelineJob) : Program N ν PipelineJob := do
  closePendingReviews "superseded: the job was restarted after an interruption"
  discardRows job
  updateJob fun row => { row with
    report := { job.report with normalizationRun := none }, committedBy := job.committedBy
    mapping := .empty }

/-- `_parse_file` and `_stage_parsed_rows`; the jobs split off for other sheets are made in between. -/
def stageParsedRows (a : Answers N ν) (job : PipelineJob) : Program N ν PipelineJob := do
  let parsed ← answer a.parsed
  replaceJobRecords (parsed.rows.map fun row => ⟨row, none⟩)
  call id fun _ => ()
  updateJob fun row => { row with
    report := { job.report with headers := parsed.headers, reshapedMarks := parsed.reshapedMarks }
    committedBy := job.committedBy, stage := .mapping }

/-- The steps of `process` up to the staged rows. -/
def parseStep (a : Answers N ν) (job : PipelineJob) : Program N ν PipelineJob := do
  let _ ← updateJob fun row => { row with status := .processing, stage := .parsing, error := none }
  if job.fileId.isSome then stageParsedRows a job else pure job

def noRows : String :=
  "no tabular rows were found; upload the file through the documents API if it is a policy or circular"

/-- The steps of `process` from the staged rows on. -/
def mapStep (service : IngestionService N ν) (a : Answers N ν) (job : PipelineJob) (remap : Bool) :
    Program N ν PipelineJob := do
  let records ← jobRecords service
  if records.isEmpty then raise (.raised (.ingestionError noRows))
  else mapJob service a job records remap

/-- The `except` clauses of `process`, which read the stage off the job as it knows it. -/
def stepFailed (job : PipelineJob) (e : Exn) : Program N ν PipelineJob :=
  if e.isCommitError then getJob
  else
    updateJob fun row => { row with
      status := .failed, stage := job.stage
      error := some (if e.isValueError then upTo 500 e.message
        else "the job failed unexpectedly (" ++ e.name ++
          "); the error has been logged for the operators") }

/-- The `try` of `process`; the job it knows is the staged one once the rows are staged. -/
def runSteps (service : IngestionService N ν) (a : Answers N ν) (job : PipelineJob) (remap : Bool) :
    Program N ν PipelineJob := do
  match ← attempt (parseStep a job) with
  | .error e => stepFailed job e
  | .ok job =>
    match ← attempt (mapStep service a job remap) with
    | .error e => stepFailed job e
    | .ok row => pure row

/-- `process` from the interrupted job on. -/
def restart (service : IngestionService N ν) (a : Answers N ν) (job : PipelineJob)
    (remap force stale : Bool) : Program N ν PipelineJob :=
  if job.status = .processing then
    if !force && !stale then pure job
    else do
      match ← resume service a job with
      | some resumed => pure resumed
      | none => do
        let job ← resetInterrupted job
        runSteps service a job remap
  else runSteps service a job remap

/-- `process`; `stale` says that the heartbeat of the job is. -/
def process (service : IngestionService N ν) (a : Answers N ν) (force stale : Bool) :
    Program N ν PipelineJob := do
  let job ← getJob
  if job.status ≠ .queued ∧ job.status ≠ .failed ∧ job.status ≠ .processing then pure job
  else
    let remap := job.status == .failed && job.stage == .normalizing
    if remap && !job.mapping.approvedMapping.isEmpty && job.mapping.approvalUnscheduled then do
      let job ← updateJob fun row => { row with
        status := .processing, mapping := { job.mapping with approvalUnscheduled := false }
        error := none }
      match ← resume service a job with
      | some resumed => pure resumed
      | none => restart service a job remap force stale
    else restart service a job remap force stale

/-- `record_unscheduled`. -/
def recordUnscheduled (error : String) : Program N ν PipelineJob := do
  let job ← getJob
  if job.status ≠ .queued ∧ job.status ≠ .processing then pure job
  else if job.stage = .importing then
    updateJob fun row => { row with
      status := .ready, stage := .ready, error := some (upTo 500 error) }
  else if job.stage = .normalizing ∧ job.mapping.approvedMapping ≠ [] then
    updateJob fun row => { row with
      status := .failed, mapping := { job.mapping with approvalUnscheduled := true }
      error := some (upTo 500 error) }
  else updateJob fun row => { row with status := .failed, error := some (upTo 500 error) }

/-! ## Reviews -/

/-- `resolve_review` once the item is resolved. -/
def afterDecision (service : IngestionService N ν) (a : Answers N ν) (resolvedBy : String)
    (deferCommit : Bool) : Program N ν PipelineJob := do
  let job ← getJob
  let pending ← listPending
  if job.stage = .duplicateReview ∧ (pending.all (·.1.kind != .duplicate)) then do
    let job ← updateJob fun row => { row with status := .ready, stage := .ready }
    if job.autoCommit then
      if deferCommit then requestCommit resolvedBy else commit service a resolvedBy
    else pure job
  else pure job

/-- `resolve_review`. -/
def resolveReview (service : IngestionService N ν) (a : Answers N ν) (reviewId : Nat)
    (decision resolvedBy note : String) (deferCommit : Bool) : Program N ν PipelineJob := do
  let item ← call id fun s => s.items[reviewId]?
  check (itemCheck (toString reviewId) (item.map (·.toReviewItem)))
  match reviewDecision decision with
  | none => raise (.raised (.valueError "review status must be approved or rejected"))
  | some status =>
    match ← resolveReviewItem reviewId status resolvedBy (some note) with
    | none => raise (.raised (.keyError ("review item not found: " ++ toString reviewId)))
    | some _ => afterDecision service a resolvedBy deferCommit

/-! ## Runs -/

/-- The calls on a job. -/
inductive Call (N ν : Type) where
  | process (a : Answers N ν) (force stale : Bool)
  | approveMapping (mapping : Table String (Option String)) (entity : Option String)
      (approvedBy : String) (remember : Bool)
  | runApprovedMapping (a : Answers N ν)
  | resolveReview (a : Answers N ν) (reviewId : Nat) (decision resolvedBy note : String)
      (deferCommit : Bool)
  | requestCommit (committedBy : String)
  | runCommit (a : Answers N ν)
  | recordUnscheduled (error : String)

/-- The failures of the store within the steps of a call. -/
def Call.faults : Call N ν → List (Fault Failure)
  | .process a .. | .runApprovedMapping a | .resolveReview a .. | .runCommit a => a.faults
  | _ => []

def Call.program (service : IngestionService N ν) : Call N ν → Program N ν PipelineJob
  | .process a force stale => Pipeline.process service a force stale
  | .approveMapping mapping entity approvedBy remember =>
    Pipeline.approveMapping service mapping entity approvedBy remember
  | .runApprovedMapping a => Pipeline.runApprovedMapping service a
  | .resolveReview a reviewId decision resolvedBy note deferCommit =>
    Pipeline.resolveReview service a reviewId decision resolvedBy note deferCommit
  | .requestCommit committedBy => Pipeline.requestCommit committedBy
  | .runCommit a => Pipeline.runCommit service a
  | .recordUnscheduled error => Pipeline.recordUnscheduled error

/-- What a call returns or raises, and the job it leaves. -/
def perform (service : IngestionService N ν) (s : PipelineState N ν) (c : Call N ν) :
    Except Exn PipelineJob × PipelineState N ν :=
  (c.program service).outcome s c.faults

/-- The runs of a job as `create_job` and `create_job_from_parse_result` leave it. -/
def pipeline (service : IngestionService N ν) : Machine (PipelineState N ν) (Call N ν) where
  init s := s.job.status = .queued ∧ s.job.error = none ∧ s.items = [] ∧
    ((s.job.stage = .queued ∧ s.job.fileId.isSome ∧ s.rows = []) ∨
      (s.job.stage = .mapping ∧ s.job.fileId = none ∧ ∀ row ∈ s.rows, row.judged = none))
  step s c := some (perform service s c).2

end GuruJi.Ingestion.Pipeline
