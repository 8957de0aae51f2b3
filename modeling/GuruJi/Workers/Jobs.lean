import GuruJi.Lib.Table
import Mathlib.Data.List.Range

/-!
# The background job table

The rows of `background_jobs` and the store's conditional updates on them. Each update names the
statuses it may start from, so a job that succeeded or failed is never touched again
(`KeepsDone`); only a claim changes the number of attempts (`KeepsAttempts`).
-/

namespace GuruJi.Workers

open GuruJi.Lib

inductive JobStatus where
  | queued | running | succeeded | failed
  deriving DecidableEq

def JobStatus.Done (s : JobStatus) : Prop := s = .succeeded ∨ s = .failed

instance (s : JobStatus) : Decidable s.Done := by unfold JobStatus.Done; infer_instance

/-- A row of `background_jobs`, less its payload and result; times are in seconds. -/
structure Job where
  jobType : String
  status : JobStatus
  attempts : Nat
  createdAt : Nat
  startedAt : Option Nat
  heartbeatAt : Option Nat
  finishedAt : Option Nat
  error : Option String
  deriving DecidableEq

/-- `COALESCE(heartbeat_at, started_at, created_at)`: when the job last gave a sign of life. -/
def Job.stamp (j : Job) : Nat := (j.heartbeatAt.or j.startedAt).getD j.createdAt

/-- What `run_job` takes for its attempt: `int(job.get("attempts") or 1)`. -/
def Job.attempt (j : Job) : Nat := if j.attempts = 0 then 1 else j.attempts

variable {κ : Type} [DecidableEq κ]

def enqueueBackgroundJob (jobs : Table κ Job) (now : Nat) (jobId : κ) (jobType : String) :
    Table κ Job :=
  jobs.insert jobId ⟨jobType, .queued, 0, now, none, none, none, none⟩

/-- The update of both claims: a queued job becomes running under one more attempt. -/
def claimBackgroundJob (jobs : Table κ Job) (now : Nat) (jobId : κ) : Table κ Job :=
  jobs.updateWhere jobId (·.status == .queued) fun j =>
    { j with status := .running, startedAt := some now, heartbeatAt := some now,
             attempts := j.attempts + 1 }

def heartbeatBackgroundJob (jobs : Table κ Job) (now : Nat) (jobId : κ) : Table κ Job :=
  jobs.updateWhere jobId (·.status == .running) fun j => { j with heartbeatAt := some now }

def Job.requeued (j : Job) : Job :=
  { j with status := .queued, startedAt := none, heartbeatAt := none }

def requeueBackgroundJob (jobs : Table κ Job) (jobId : κ) : Table κ Job :=
  jobs.updateWhere jobId (·.status == .running) Job.requeued

/-- The rows the stale sweep selects: running, and silent for longer than the window. -/
def Job.stale (now window : Nat) (j : Job) : Bool :=
  j.status == .running && decide (j.stamp + window < now)

/-- One row of the stale sweep: back to the queue, or failed once its attempts are used up. -/
def requeueStaleBackgroundJob (now maxAttempts : Nat) (jobs : Table κ Job) (jobId : κ) :
    Table κ Job :=
  jobs.updateWhere jobId (·.status == .running) fun j =>
    if maxAttempts ≤ j.attempts then
      { j with status := .failed, finishedAt := some now,
               error := some "worker did not finish the job after repeated attempts" }
    else j.requeued

/-- The stale sweep over the rows it selected, in one transaction. -/
def requeueStaleBackgroundJobs (jobs : Table κ Job) (now maxAttempts : Nat) (jobIds : List κ) :
    Table κ Job :=
  jobIds.foldl (requeueStaleBackgroundJob now maxAttempts) jobs

/-- `finish_background_job`: the outcome counts while the job is queued or running and, when an
attempt is named, only that attempt's outcome. -/
def finishBackgroundJob (jobs : Table κ Job) (now : Nat) (jobId : κ) (status : JobStatus)
    (error : Option String) (attempt : Option Nat) : Table κ Job :=
  jobs.updateWhere jobId
    (fun j => (j.status == .queued || j.status == .running) && attempt.all (j.attempts == ·))
    fun j => { j with status := status, finishedAt := some now, error := error }

/-! ## What every update keeps -/

def KeepsDone (jobs jobs' : Table κ Job) : Prop :=
  ∀ jobId j, jobs.get jobId = some j → j.status.Done → jobs'.get jobId = some j

def KeepsAttempts (jobs jobs' : Table κ Job) : Prop :=
  ∀ jobId, (jobs'.get jobId).map (·.attempts) = (jobs.get jobId).map (·.attempts)

theorem KeepsDone.refl (jobs : Table κ Job) : KeepsDone jobs jobs := fun _ _ h _ => h

theorem KeepsAttempts.refl (jobs : Table κ Job) : KeepsAttempts jobs jobs := fun _ => rfl

theorem KeepsDone.trans {a b c : Table κ Job} (h : KeepsDone a b) (h' : KeepsDone b c) : KeepsDone a c :=
  fun jobId j hj hd => h' jobId j (h jobId j hj hd) hd

theorem KeepsAttempts.trans {a b c : Table κ Job} (h : KeepsAttempts a b) (h' : KeepsAttempts b c) :
    KeepsAttempts a c :=
  fun jobId => (h' jobId).trans (h jobId)

theorem keepsDone_updateWhere (jobs : Table κ Job) (jobId : κ) {cond : Job → Bool} (f : Job → Job)
    (h : ∀ j, cond j = true → ¬ j.status.Done) : KeepsDone jobs (jobs.updateWhere jobId cond f) := by
  intro k j hj hd
  rw [Table.get_updateWhere, hj]
  split_ifs
  · have hc : cond j = false := by
      by_contra hc
      exact h j (by simpa using hc) hd
    simp [hc]
  · rfl

theorem keepsAttempts_updateWhere (jobs : Table κ Job) (jobId : κ) (cond : Job → Bool)
    {f : Job → Job} (h : ∀ j, (f j).attempts = j.attempts) :
    KeepsAttempts jobs (jobs.updateWhere jobId cond f) := by
  intro k
  rw [Table.get_updateWhere]
  split_ifs
  · cases jobs.get k with
    | none => rfl
    | some j => simp only [Option.map_some]; split_ifs <;> simp [h]
  · rfl

theorem not_done_of_queued {j : Job} (h : (j.status == .queued) = true) : ¬ j.status.Done := by
  simp only [beq_iff_eq] at h
  simp [JobStatus.Done, h]

theorem not_done_of_running {j : Job} (h : (j.status == .running) = true) : ¬ j.status.Done := by
  simp only [beq_iff_eq] at h
  simp [JobStatus.Done, h]

theorem claim_keepsDone (jobs : Table κ Job) (now : Nat) (jobId : κ) :
    KeepsDone jobs (claimBackgroundJob jobs now jobId) :=
  keepsDone_updateWhere _ _ _ fun _ => not_done_of_queued

theorem heartbeat_keepsDone (jobs : Table κ Job) (now : Nat) (jobId : κ) :
    KeepsDone jobs (heartbeatBackgroundJob jobs now jobId) :=
  keepsDone_updateWhere _ _ _ fun _ => not_done_of_running

theorem requeue_keepsDone (jobs : Table κ Job) (jobId : κ) :
    KeepsDone jobs (requeueBackgroundJob jobs jobId) :=
  keepsDone_updateWhere _ _ _ fun _ => not_done_of_running

theorem finish_keepsDone (jobs : Table κ Job) (now : Nat) (jobId : κ) (status : JobStatus)
    (error : Option String) (attempt : Option Nat) :
    KeepsDone jobs (finishBackgroundJob jobs now jobId status error attempt) := by
  refine keepsDone_updateWhere _ _ _ fun j h => ?_
  simp only [Bool.and_eq_true, Bool.or_eq_true] at h
  exact h.1.elim not_done_of_queued not_done_of_running

theorem requeueStale_keepsDone (jobs : Table κ Job) (now maxAttempts : Nat) (jobIds : List κ) :
    KeepsDone jobs (requeueStaleBackgroundJobs jobs now maxAttempts jobIds) := by
  induction jobIds generalizing jobs with
  | nil => exact .refl jobs
  | cons jobId jobIds ih =>
    have hone : KeepsDone jobs (requeueStaleBackgroundJob now maxAttempts jobs jobId) :=
      keepsDone_updateWhere _ _ _ fun _ => not_done_of_running
    exact hone.trans (ih _)

theorem enqueue_keepsDone (jobs : Table κ Job) (now : Nat) {jobId : κ} (jobType : String)
    (h : jobs.get jobId = none) : KeepsDone jobs (enqueueBackgroundJob jobs now jobId jobType) := by
  intro k j hj _
  rw [enqueueBackgroundJob, Table.get_insert _ _ h, if_neg, hj]
  rintro rfl
  simp [h] at hj

theorem heartbeat_keepsAttempts (jobs : Table κ Job) (now : Nat) (jobId : κ) :
    KeepsAttempts jobs (heartbeatBackgroundJob jobs now jobId) :=
  keepsAttempts_updateWhere _ _ _ fun _ => rfl

theorem requeue_keepsAttempts (jobs : Table κ Job) (jobId : κ) :
    KeepsAttempts jobs (requeueBackgroundJob jobs jobId) :=
  keepsAttempts_updateWhere _ _ _ fun _ => rfl

theorem finish_keepsAttempts (jobs : Table κ Job) (now : Nat) (jobId : κ) (status : JobStatus)
    (error : Option String) (attempt : Option Nat) :
    KeepsAttempts jobs (finishBackgroundJob jobs now jobId status error attempt) :=
  keepsAttempts_updateWhere _ _ _ fun _ => rfl

theorem requeueStale_keepsAttempts (jobs : Table κ Job) (now maxAttempts : Nat) (jobIds : List κ) :
    KeepsAttempts jobs (requeueStaleBackgroundJobs jobs now maxAttempts jobIds) := by
  induction jobIds generalizing jobs with
  | nil => exact .refl jobs
  | cons jobId jobIds ih =>
    have hone : KeepsAttempts jobs (requeueStaleBackgroundJob now maxAttempts jobs jobId) := by
      refine keepsAttempts_updateWhere _ _ _ fun j => ?_
      split_ifs <;> rfl
    exact hone.trans (ih _)

end GuruJi.Workers
