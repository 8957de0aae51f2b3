import GuruJi.Lib.Machine
import GuruJi.Lib.Table

/-!
# Resolving the duplicate reviews of an import

The review items of one ingestion job, the job's row, and `resolve_review` split at its store
calls: read the item, update it if it is still pending, read the job, list the pending items, mark
the job ready, check and record the request to commit, and import the rows (`run_commit`), in the
call itself or, when the commit is deferred, on the job queue.

`recorded` and the two counters are what an observer notes: which call's decision an update wrote,
how often an import started and how often its rows were committed.
-/

namespace GuruJi.Ingestion

open GuruJi.Lib

inductive ReviewKind where
  | mapping | duplicate
  deriving DecidableEq

inductive ReviewStatus where
  | pending | approved | rejected
  deriving DecidableEq

inductive JobStatus where
  | queued | processing | needsReview | ready | imported | failed
  deriving DecidableEq

inductive Stage where
  | queued | parsing | mapping | mappingReview | normalizing | duplicateReview | ready | importing | done
  deriving DecidableEq

def JobStatus.text : JobStatus → String
  | .queued => "queued"
  | .processing => "processing"
  | .needsReview => "needs_review"
  | .ready => "ready"
  | .imported => "imported"
  | .failed => "failed"

def Stage.text : Stage → String
  | .queued => "queued"
  | .parsing => "parsing"
  | .mapping => "mapping"
  | .mappingReview => "mapping_review"
  | .normalizing => "normalizing"
  | .duplicateReview => "duplicate_review"
  | .ready => "ready"
  | .importing => "importing"
  | .done => "done"

/-- A row of `review_items`, less its payload. -/
structure ReviewItem where
  kind : ReviewKind
  status : ReviewStatus
  resolvedBy : Option String
  note : Option String
  deriving DecidableEq

/-- A row of `ingestion_jobs`: of its report, who asked for the commit. -/
structure Job where
  status : JobStatus
  stage : Stage
  autoCommit : Bool
  committedBy : Option String
  error : Option String
  deriving DecidableEq

structure Request where
  reviewId : String
  decision : String
  resolvedBy : String
  note : String
  deferCommit : Bool
  deriving DecidableEq

inductive Error where
  | keyError (message : String)
  | valueError (message : String)
  | ingestionError (message : String)
  | commitError (message : String)
  deriving DecidableEq

inductive Outcome where
  | returned
  | raised (error : Error)
  deriving DecidableEq

/-! ## The store -/

/-- The statuses `resolve_review_item` accepts. -/
def reviewDecision (decision : String) : Option ReviewStatus :=
  if decision = "approved" then some .approved
  else if decision = "rejected" then some .rejected
  else none

/-- `UPDATE review_items SET ... WHERE review_id = ? AND status = 'pending'`. -/
def resolveReviewItem (items : Table String ReviewItem) (r : Request) (status : ReviewStatus) :
    Table String ReviewItem :=
  items.updateWhere r.reviewId (·.status == .pending) fun item =>
    { item with status := status, resolvedBy := some r.resolvedBy, note := some r.note }

/-- `list_review_items` with its default limit. -/
def listPending (items : Table String ReviewItem) : List ReviewItem :=
  ((items.map (·.2)).filter (·.status == .pending)).take 200

/-! ## The checks -/

/-- The checks of `resolve_review` on the item it read. -/
def itemCheck (reviewId : String) : Option ReviewItem → Except Error Unit
  | none => .error (.keyError s!"pending review item not found: {reviewId}")
  | some item =>
    if item.status ≠ .pending then .error (.keyError s!"pending review item not found: {reviewId}")
    else if item.kind ≠ .duplicate then
      .error (.ingestionError
        "a mapping review is resolved by submitting the mapping decision, not by approving the item")
    else .ok ()

/-- The checks of `request_commit` on the job it read. -/
def jobCheck (job : Job) : Except Error Unit :=
  if job.status ≠ .ready ∧ job.status ≠ .needsReview then
    .error (.ingestionError ("job cannot be committed from status " ++ job.status.text))
  else if job.stage ≠ .ready ∧ job.stage ≠ .duplicateReview then
    .error (.ingestionError ("job cannot be committed from stage " ++ job.stage.text))
  else .ok ()

/-- The checks of `request_commit` on the pending items. -/
def pendingCheck (pending : List ReviewItem) : Except Error Unit :=
  let duplicates := pending.countP (·.kind == .duplicate)
  if pending.any (·.kind == .mapping) then
    .error (.ingestionError "the mapping still needs review before the job can be committed")
  else if duplicates ≠ 0 then
    .error (.ingestionError (toString duplicates ++
      " duplicate review item(s) are still pending; resolve them before committing"))
  else .ok ()

def importFailed (exception : String) : String :=
  "the import failed (" ++ exception ++ "); the job can be committed again once the cause is fixed"

/-- The job an import leaves: done, or ready to be committed again with the error. -/
def Job.afterImport (job : Job) : Option String → Job
  | none => { job with status := .imported, stage := .done }
  | some exception =>
    { job with status := .ready, stage := .ready, error := some (importFailed exception) }

def importOutcome : Option String → Outcome
  | none => .returned
  | some exception => .raised (.commitError (importFailed exception))

/-! ## The calls -/

/-- What a call does next. In `queueImporting` the import of a call that returned runs on the job
queue. -/
inductive Phase where
  | started
  | resolving
  | readingJob
  | listing (stage : Stage)
  | markingReady
  | requesting
  | checking
  | recording
  | importing
  | handedOver
  | queueImporting
  | finished (outcome : Outcome)
  deriving DecidableEq

structure State (ι : Type) where
  items : Table String ReviewItem
  job : Job
  phase : ι → Phase
  recorded : List (ι × String)
  started : Nat
  committed : Nat

/-- A call's next store call, or the end of an import: whether its rows were committed, and the
exception it failed with. -/
inductive Action (ι : Type) where
  | call (i : ι)
  | runCommit (i : ι) (rows : Bool) (failure : Option String)
  deriving DecidableEq

variable {ι : Type}

namespace State

variable [DecidableEq ι]

def at_ (s : State ι) (i : ι) (p : Phase) : State ι :=
  { s with phase := Function.update s.phase i p }

theorem at_phase (s : State ι) (i j : ι) (p : Phase) :
    (s.at_ i p).phase j = if j = i then p else s.phase j := by
  simp [at_, Function.update_apply]

theorem at_phase_self (s : State ι) (i : ι) (p : Phase) : (s.at_ i p).phase i = p := by
  rw [at_phase, if_pos rfl]

@[simp] theorem at_items (s : State ι) (i : ι) (p : Phase) : (s.at_ i p).items = s.items := rfl

@[simp] theorem at_job (s : State ι) (i : ι) (p : Phase) : (s.at_ i p).job = s.job := rfl

@[simp] theorem at_recorded (s : State ι) (i : ι) (p : Phase) : (s.at_ i p).recorded = s.recorded := rfl

@[simp] theorem at_started (s : State ι) (i : ι) (p : Phase) : (s.at_ i p).started = s.started := rfl

@[simp] theorem at_committed (s : State ι) (i : ι) (p : Phase) :
    (s.at_ i p).committed = s.committed := rfl

/-- `raise`, or go on. -/
def check (s : State ι) (i : ι) (result : Except Error Unit) (next : Phase) : State ι :=
  s.at_ i (match result with
    | .ok () => next
    | .error e => .finished (.raised e))

/-- The update of the item; the decision is recorded if it hit. -/
def resolve (s : State ι) (i : ι) (r : Request) (status : ReviewStatus) : State ι :=
  { s with
    items := resolveReviewItem s.items r status
    recorded := if s.items.hits r.reviewId (·.status == .pending) then (i, r.reviewId) :: s.recorded
      else s.recorded }

def setJob (s : State ι) (job : Job) : State ι := { s with job := job }

end State

variable [DecidableEq ι]

def step (req : ι → Request) (s : State ι) : Action ι → Option (State ι)
  | .call i =>
    let r := req i
    match s.phase i with
    | .started => some (s.check i (itemCheck r.reviewId (s.items.get r.reviewId)) .resolving)
    | .resolving =>
      match reviewDecision r.decision with
      | none => some (s.at_ i (.finished (.raised
          (.valueError "review status must be approved or rejected"))))
      | some status =>
        -- the row is read again, but not whether this update was the one that changed it
        match s.items.get r.reviewId with
        | none => some (s.at_ i (.finished (.raised
            (.keyError s!"review item not found: {r.reviewId}"))))
        | some _ => some ((s.resolve i r status).at_ i .readingJob)
    | .readingJob => some (s.at_ i (.listing s.job.stage))
    | .listing stage =>
      if stage = .duplicateReview ∧ (listPending s.items).all (·.kind != .duplicate) then
        some (s.at_ i .markingReady)
      else some (s.at_ i (.finished .returned))
    | .markingReady =>
      some ((s.setJob { s.job with status := .ready, stage := .ready }).at_ i
        (if s.job.autoCommit then .requesting else .finished .returned))
    | .requesting => some (s.check i (jobCheck s.job) .checking)
    | .checking => some (s.check i (pendingCheck (listPending s.items)) .recording)
    | .recording =>
      let t := s.setJob { s.job with
        status := .processing, stage := .importing, committedBy := some r.resolvedBy, error := none }
      if r.deferCommit then some (t.at_ i .handedOver)
      else some { t.at_ i .importing with started := s.started + 1 }
    | .handedOver =>
      -- `process` on the job queue: an import that is no longer recorded is not run
      if s.job.status = .processing ∧ s.job.stage = .importing then
        some { s.at_ i .queueImporting with started := s.started + 1 }
      else some (s.at_ i (.finished .returned))
    | _ => none
  | .runCommit i rows failure =>
    let t := { s.setJob (s.job.afterImport failure) with
      committed := s.committed + (if rows then 1 else 0) }
    match s.phase i with
    | .importing => some (t.at_ i (.finished (importOutcome failure)))
    | .queueImporting => some (t.at_ i (.finished .returned))
    | _ => none

/-- The calls on the items `items` of a job that waits for its duplicate reviews. -/
def reviews (items : Table String ReviewItem) (req : ι → Request) : Machine (State ι) (Action ι) where
  init s := s.items = items ∧ s.job.status = .needsReview ∧ s.job.stage = .duplicateReview ∧
    (∀ i, s.phase i = .started) ∧ s.recorded = [] ∧ s.started = 0 ∧ s.committed = 0
  step := step req

end GuruJi.Ingestion
