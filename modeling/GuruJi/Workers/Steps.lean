import GuruJi.Lib.Machine
import GuruJi.Workers.Jobs

/-!
# Workers on the job table

Any number of workers (`JobQueue` objects, each run by its own thread or process) share the table.
An `Action` is one store call of one worker, or time passing:

* `run_pending` claims a batch in one transaction and runs its jobs one after another; a consumer
  of single jobs claims one by name and reads its row back in a second statement;
* `run_job` fails a job it has no handler for, or starts the heartbeat thread and the handler, and
  records the outcome under the attempt it read;
* a heartbeat thread may outlive its run (`stop` joins it for five seconds only) and beat late;
* `recover_stale` sweeps the table and dispatches what it returned to the queue;
* `ThreadJobQueue.stop` looks up the job in flight and gives it back to the queue.

`claims` records who won which attempt of which job. A `Claimed` job carries the attempt `run_job`
names in its updates and `won`, the number its claim brought the attempts to.
-/

namespace GuruJi.Workers

open GuruJi.Lib

/-- A claimed job as `run_job` sees it. -/
structure Claimed (κ : Type) where
  jobId : κ
  jobType : String
  attempt : Nat
  won : Nat
  deriving DecidableEq

/-- The handler of the job in flight: running, its heartbeat thread on (`last` is when it started
or last beat, `beaten` whether it has beaten yet), or returned. -/
inductive Pulse where
  | beating (last : Nat) (beaten : Bool)
  | stopped (succeeded : Bool)
  deriving DecidableEq

structure Current (κ : Type) where
  job : Claimed κ
  pulse : Pulse
  deriving DecidableEq

structure Worker (κ : Type) where
  reading : Option (κ × Nat)
  batch : List (Claimed κ)
  current : Option (Current κ)
  stopping : Option (Claimed κ)
  dispatching : List κ
  deriving DecidableEq

def Worker.idle {κ : Type} : Worker κ := ⟨none, [], none, none, []⟩

/-- The jobs a worker has claimed and not yet finished. -/
def Worker.claimed {κ : Type} (w : Worker κ) : List (Claimed κ) :=
  (w.current.map (·.job)).toList ++ w.batch

/-- Free to claim: `run_pending` finishes its batch before it claims again. -/
def Worker.Free {κ : Type} (w : Worker κ) : Prop := w.reading = none ∧ w.batch = [] ∧ w.current = none

instance {κ : Type} [DecidableEq κ] (w : Worker κ) : Decidable w.Free := by
  unfold Worker.Free; infer_instance

structure State (ω κ : Type) where
  now : Nat
  jobs : Table κ Job
  worker : ω → Worker κ
  claims : List (ω × κ × Nat)

inductive Action (ω κ : Type) where
  | tick (seconds : Nat)
  | enqueue (w : ω) (jobId : κ) (jobType : String)
  | claimBatch (w : ω) (limit : Nat) (jobIds : List κ)
  | claimOne (w : ω) (jobId : κ)
  | readClaimed (w : ω)
  | start (w : ω)
  | beat (w : ω)
  | lateBeat (jobId : κ)
  | handlerDone (w : ω) (succeeded : Bool)
  | finish (w : ω)
  | stopRead (w : ω)
  | stopRequeue (w : ω)
  | recover (w : ω) (window maxAttempts : Nat) (jobIds : List κ)
  | dispatched (w : ω) (ok : Bool)
  deriving DecidableEq

variable {ω κ : Type}

namespace State

def setJobs (s : State ω κ) (jobs : Table κ Job) : State ω κ := { s with jobs := jobs }

@[simp] theorem setJobs_jobs (s : State ω κ) (jobs : Table κ Job) : (s.setJobs jobs).jobs = jobs :=
  rfl

@[simp] theorem setJobs_claims (s : State ω κ) (jobs : Table κ Job) :
    (s.setJobs jobs).claims = s.claims := rfl

variable [DecidableEq ω]

def set (s : State ω κ) (w : ω) (x : Worker κ) : State ω κ :=
  { s with worker := Function.update s.worker w x }

@[simp] theorem set_jobs (s : State ω κ) (w : ω) (x : Worker κ) : (s.set w x).jobs = s.jobs := rfl

@[simp] theorem set_now (s : State ω κ) (w : ω) (x : Worker κ) : (s.set w x).now = s.now := rfl

theorem set_worker (s : State ω κ) (w v : ω) (x : Worker κ) :
    (s.set w x).worker v = if v = w then x else s.worker v := by
  simp [set, Function.update_apply]

variable [DecidableEq κ]

/-- The claim of one job: if its update hit, the claim is recorded and the row read. -/
def claim (s : State ω κ) (w : ω) (jobId : κ) : State ω κ × Option (Claimed κ) :=
  match s.jobs.get jobId with
  | none => (s, none)
  | some j =>
    if j.status = .queued then
      ({ s with jobs := claimBackgroundJob s.jobs s.now jobId,
                claims := (w, jobId, j.attempts + 1) :: s.claims },
        some ⟨jobId, j.jobType, { j with attempts := j.attempts + 1 }.attempt, j.attempts + 1⟩)
    else (s, none)

/-- The loop of `claim_background_jobs` over the rows it selected. -/
def claimAll (s : State ω κ) (w : ω) : List κ → State ω κ × List (Claimed κ)
  | [] => (s, [])
  | jobId :: jobIds =>
    let one := s.claim w jobId
    let rest := one.1.claimAll w jobIds
    (rest.1, one.2.toList ++ rest.2)

end State

variable [DecidableEq κ]

theorem claim_cases (s : State ω κ) (w : ω) (jobId : κ) :
    (∃ j, s.jobs.get jobId = some j ∧ j.status = .queued ∧
      s.claim w jobId = ({ s with jobs := claimBackgroundJob s.jobs s.now jobId,
                                  claims := (w, jobId, j.attempts + 1) :: s.claims },
        some ⟨jobId, j.jobType, j.attempts + 1, j.attempts + 1⟩)) ∨
    s.claim w jobId = (s, none) := by
  simp only [State.claim]
  cases hj : s.jobs.get jobId with
  | none => exact .inr rfl
  | some j =>
    by_cases hq : j.status = .queued
    · exact .inl ⟨j, rfl, hq, by simp [hq, Job.attempt]⟩
    · exact .inr (by simp [hq])

theorem claim_worker (s : State ω κ) (w : ω) (jobId : κ) : (s.claim w jobId).1.worker = s.worker := by
  rcases claim_cases s w jobId with ⟨j, -, -, h⟩ | h <;> rw [h]

theorem claimAll_worker (s : State ω κ) (w : ω) (jobIds : List κ) :
    (s.claimAll w jobIds).1.worker = s.worker := by
  induction jobIds generalizing s with
  | nil => rfl
  | cons jobId jobIds ih => exact (ih _).trans (claim_worker s w jobId)

theorem claimAll_keeps {P : State ω κ → Prop} (w : ω)
    (h : ∀ s jobId, P s → P (s.claim w jobId).1) (jobIds : List κ) {s : State ω κ} (hs : P s) :
    P (s.claimAll w jobIds).1 := by
  induction jobIds generalizing s with
  | nil => exact hs
  | cons jobId jobIds ih => exact ih (h s jobId hs)

theorem claim_jobs_keepsDone (s : State ω κ) (w : ω) (jobId : κ) :
    KeepsDone s.jobs (s.claim w jobId).1.jobs := by
  rcases claim_cases s w jobId with ⟨j, -, -, h⟩ | h
  · rw [h]
    exact claim_keepsDone _ _ _
  · rw [h]
    exact .refl _

theorem claimAll_jobs_keepsDone (s : State ω κ) (w : ω) (jobIds : List κ) :
    KeepsDone s.jobs (s.claimAll w jobIds).1.jobs :=
  claimAll_keeps (P := fun t => KeepsDone s.jobs t.jobs) w
    (fun t jobId ht => ht.trans (claim_jobs_keepsDone t w jobId)) jobIds (.refl _)

/-- A batch is read in the transaction that claims it, so each job shows the attempt won. -/
theorem claimAll_attempt (s : State ω κ) (w : ω) (jobIds : List κ) :
    ∀ c ∈ (s.claimAll w jobIds).2, c.attempt = c.won := by
  induction jobIds generalizing s with
  | nil => simp [State.claimAll]
  | cons jobId jobIds ih =>
    intro c hc
    rcases List.mem_append.mp hc with hc | hc
    · rcases claim_cases s w jobId with ⟨j, -, -, h⟩ | h
      · rw [h] at hc
        rw [Option.mem_toList.mp hc |> Option.some.inj |>.symm]
      · simp [h] at hc
    · exact ih _ c hc

variable [DecidableEq ω]

/-- `_clamp_limit`. -/
def clampLimit (limit maximum : Nat) : Nat := if limit = 0 then 1 else min limit maximum

/-- The jobs of a sweep that went back to the queue, to be dispatched again. -/
def requeuedBy (jobs : Table κ Job) (maxAttempts : Nat) (jobIds : List κ) : List κ :=
  jobIds.filter fun jobId => (jobs.get jobId).any (·.attempts < maxAttempts)

/-- One step of the interleaving; `handles w` are the job types worker `w` has a handler for. -/
def step (handles : ω → String → Bool) (s : State ω κ) : Action ω κ → Option (State ω κ)
  | .tick seconds => some { s with now := s.now + seconds }
  | .enqueue w jobId jobType =>
    let x := s.worker w
    if s.jobs.get jobId = none ∧ handles w jobType then
      some ((s.setJobs (enqueueBackgroundJob s.jobs s.now jobId jobType)).set w
        { x with dispatching := x.dispatching ++ [jobId] })
    else none
  | .claimBatch w limit jobIds =>
    let x := s.worker w
    if x.Free ∧ s.jobs.Selects (·.status == .queued) (·.createdAt) (clampLimit limit 100) jobIds then
      let claimed := s.claimAll w jobIds
      some (claimed.1.set w { x with batch := claimed.2 })
    else none
  | .claimOne w jobId =>
    let x := s.worker w
    if x.Free then
      let claimed := s.claim w jobId
      some (claimed.1.set w { x with reading := claimed.2.map fun c => (c.jobId, c.won) })
    else none
  | .readClaimed w =>
    let x := s.worker w
    match x.reading with
    | none => none
    | some (jobId, won) =>
      (s.jobs.get jobId).map fun j =>
        s.set w { x with reading := none, batch := [⟨jobId, j.jobType, j.attempt, won⟩] }
  | .start w =>
    let x := s.worker w
    match x.current, x.batch with
    | none, c :: rest =>
      if handles w c.jobType then
        some (s.set w { x with batch := rest, current := some ⟨c, .beating s.now false⟩ })
      else
        some ((s.setJobs (finishBackgroundJob s.jobs s.now c.jobId .failed
          (some "no handler registered") none)).set w { x with batch := rest })
    | _, _ => none
  | .beat w =>
    let x := s.worker w
    match x.current with
    | some ⟨c, .beating _ _⟩ =>
      some ((s.setJobs (heartbeatBackgroundJob s.jobs s.now c.jobId)).set w
        { x with current := some ⟨c, .beating s.now true⟩ })
    | _ => none
  | .lateBeat jobId => some (s.setJobs (heartbeatBackgroundJob s.jobs s.now jobId))
  | .handlerDone w succeeded =>
    let x := s.worker w
    match x.current with
    | some ⟨c, .beating _ _⟩ => some (s.set w { x with current := some ⟨c, .stopped succeeded⟩ })
    | _ => none
  | .finish w =>
    let x := s.worker w
    match x.current with
    | some ⟨c, .stopped succeeded⟩ =>
      some ((s.setJobs (finishBackgroundJob s.jobs s.now c.jobId
          (if succeeded then .succeeded else .failed)
          (if succeeded then none else some "the handler raised") (some c.attempt))).set w
        { x with current := none })
    | _ => none
  | .stopRead w =>
    let x := s.worker w
    match x.current with
    | some ⟨c, .beating _ _⟩ => some (s.set w { x with stopping := some c })
    | _ => none
  | .stopRequeue w =>
    let x := s.worker w
    match x.stopping with
    | some c =>
      some ((s.setJobs (requeueBackgroundJob s.jobs c.jobId)).set w { x with stopping := none })
    | none => none
  | .recover w window maxAttempts jobIds =>
    let x := s.worker w
    if s.jobs.Selects (Job.stale s.now window) (·.createdAt) 500 jobIds then
      some ((s.setJobs (requeueStaleBackgroundJobs s.jobs s.now maxAttempts jobIds)).set w
        { x with dispatching := x.dispatching ++ requeuedBy s.jobs maxAttempts jobIds })
    else none
  | .dispatched w ok =>
    let x := s.worker w
    match x.dispatching with
    | [] => none
    | jobId :: rest =>
      if ok then some (s.set w { x with dispatching := rest })
      else
        some ((s.setJobs (finishBackgroundJob s.jobs s.now jobId .failed
          (some "could not re-dispatch after restart") none)).set w
          { x with dispatching := rest })

/-- The job queue: an empty table and idle workers. -/
def jobQueue (handles : ω → String → Bool) : Machine (State ω κ) (Action ω κ) where
  init s := s.jobs = [] ∧ s.claims = [] ∧ ∀ w, s.worker w = .idle
  step := step handles

/-! ## What a step can do -/

/-- The steps of the interleaving, one case for each branch. -/
inductive Step (handles : ω → String → Bool) (s : State ω κ) : Action ω κ → State ω κ → Prop
  | tick (seconds : Nat) : Step handles s (.tick seconds) { s with now := s.now + seconds }
  | enqueue (w : ω) (jobId : κ) (jobType : String) (hnew : s.jobs.get jobId = none) :
      Step handles s (.enqueue w jobId jobType)
        ((s.setJobs (enqueueBackgroundJob s.jobs s.now jobId jobType)).set w
          { s.worker w with dispatching := (s.worker w).dispatching ++ [jobId] })
  | claimBatch (w : ω) (limit : Nat) (jobIds : List κ) (hfree : (s.worker w).Free)
      (hsel : s.jobs.Selects (·.status == .queued) (·.createdAt) (clampLimit limit 100) jobIds) :
      Step handles s (.claimBatch w limit jobIds)
        ((s.claimAll w jobIds).1.set w { s.worker w with batch := (s.claimAll w jobIds).2 })
  | claimOne (w : ω) (jobId : κ) (hfree : (s.worker w).Free) :
      Step handles s (.claimOne w jobId)
        ((s.claim w jobId).1.set w
          { s.worker w with reading := (s.claim w jobId).2.map fun c => (c.jobId, c.won) })
  | readClaimed (w : ω) (jobId : κ) (won : Nat) (j : Job)
      (hreading : (s.worker w).reading = some (jobId, won)) (hget : s.jobs.get jobId = some j) :
      Step handles s (.readClaimed w) (s.set w
        { s.worker w with reading := none, batch := [⟨jobId, j.jobType, j.attempt, won⟩] })
  | start (w : ω) (c : Claimed κ) (rest : List (Claimed κ)) (hcurrent : (s.worker w).current = none)
      (hbatch : (s.worker w).batch = c :: rest) (hhandler : handles w c.jobType = true) :
      Step handles s (.start w)
        (s.set w { s.worker w with batch := rest, current := some ⟨c, .beating s.now false⟩ })
  | startUnhandled (w : ω) (c : Claimed κ) (rest : List (Claimed κ))
      (hcurrent : (s.worker w).current = none) (hbatch : (s.worker w).batch = c :: rest)
      (hhandler : handles w c.jobType = false) :
      Step handles s (.start w) ((s.setJobs (finishBackgroundJob s.jobs s.now c.jobId .failed
        (some "no handler registered") none)).set w { s.worker w with batch := rest })
  | beat (w : ω) (c : Claimed κ) (last : Nat) (beaten : Bool)
      (hcurrent : (s.worker w).current = some ⟨c, .beating last beaten⟩) :
      Step handles s (.beat w) ((s.setJobs (heartbeatBackgroundJob s.jobs s.now c.jobId)).set w
        { s.worker w with current := some ⟨c, .beating s.now true⟩ })
  | lateBeat (jobId : κ) : Step handles s (.lateBeat jobId)
      (s.setJobs (heartbeatBackgroundJob s.jobs s.now jobId))
  | handlerDone (w : ω) (succeeded : Bool) (c : Claimed κ) (last : Nat) (beaten : Bool)
      (hcurrent : (s.worker w).current = some ⟨c, .beating last beaten⟩) :
      Step handles s (.handlerDone w succeeded)
        (s.set w { s.worker w with current := some ⟨c, .stopped succeeded⟩ })
  | finish (w : ω) (c : Claimed κ) (succeeded : Bool)
      (hcurrent : (s.worker w).current = some ⟨c, .stopped succeeded⟩) :
      Step handles s (.finish w) ((s.setJobs (finishBackgroundJob s.jobs s.now c.jobId
        (if succeeded then .succeeded else .failed)
        (if succeeded then none else some "the handler raised") (some c.attempt))).set w
        { s.worker w with current := none })
  | stopRead (w : ω) (c : Claimed κ) (last : Nat) (beaten : Bool)
      (hcurrent : (s.worker w).current = some ⟨c, .beating last beaten⟩) :
      Step handles s (.stopRead w) (s.set w { s.worker w with stopping := some c })
  | stopRequeue (w : ω) (c : Claimed κ) (hstopping : (s.worker w).stopping = some c) :
      Step handles s (.stopRequeue w) ((s.setJobs (requeueBackgroundJob s.jobs c.jobId)).set w
        { s.worker w with stopping := none })
  | recover (w : ω) (window maxAttempts : Nat) (jobIds : List κ)
      (hsel : s.jobs.Selects (Job.stale s.now window) (·.createdAt) 500 jobIds) :
      Step handles s (.recover w window maxAttempts jobIds)
        ((s.setJobs (requeueStaleBackgroundJobs s.jobs s.now maxAttempts jobIds)).set w
          { s.worker w with
            dispatching := (s.worker w).dispatching ++ requeuedBy s.jobs maxAttempts jobIds })
  | dispatched (w : ω) (jobId : κ) (rest : List κ)
      (hdispatching : (s.worker w).dispatching = jobId :: rest) :
      Step handles s (.dispatched w true) (s.set w { s.worker w with dispatching := rest })
  | dispatchFailed (w : ω) (jobId : κ) (rest : List κ)
      (hdispatching : (s.worker w).dispatching = jobId :: rest) :
      Step handles s (.dispatched w false)
        ((s.setJobs (finishBackgroundJob s.jobs s.now jobId .failed
          (some "could not re-dispatch after restart") none)).set w
          { s.worker w with dispatching := rest })

theorem step_cases {handles : ω → String → Bool} {s t : State ω κ} {a : Action ω κ}
    (h : step handles s a = some t) : Step handles s a t := by
  cases a with
  | tick seconds =>
    cases h
    exact .tick seconds
  | enqueue w jobId jobType =>
    simp only [step] at h
    split_ifs at h with hok
    cases h
    exact .enqueue w jobId jobType hok.1
  | claimBatch w limit jobIds =>
    simp only [step] at h
    split_ifs at h with hok
    cases h
    exact .claimBatch w limit jobIds hok.1 hok.2
  | claimOne w jobId =>
    simp only [step] at h
    split_ifs at h with hok
    cases h
    exact .claimOne w jobId hok
  | readClaimed w =>
    simp only [step] at h
    split at h
    · cases h
    · rename_i jobId won hreading
      obtain ⟨j, hj, rfl⟩ := Option.map_eq_some_iff.mp h
      exact .readClaimed w jobId won j hreading hj
  | start w =>
    simp only [step] at h
    split at h
    · rename_i c rest hcurrent hbatch
      split_ifs at h with hhandler
      · cases h
        exact .start w c rest hcurrent hbatch hhandler
      · cases h
        exact .startUnhandled w c rest hcurrent hbatch (by simpa using hhandler)
    · cases h
  | beat w =>
    simp only [step] at h
    split at h
    · rename_i c last beaten hcurrent
      cases h
      exact .beat w c last beaten hcurrent
    · cases h
  | lateBeat jobId =>
    cases h
    exact .lateBeat jobId
  | handlerDone w succeeded =>
    simp only [step] at h
    split at h
    · rename_i c last beaten hcurrent
      cases h
      exact .handlerDone w succeeded c last beaten hcurrent
    · cases h
  | finish w =>
    simp only [step] at h
    split at h
    · rename_i c succeeded hcurrent
      cases h
      exact .finish w c succeeded hcurrent
    · cases h
  | stopRead w =>
    simp only [step] at h
    split at h
    · rename_i c last beaten hcurrent
      cases h
      exact .stopRead w c last beaten hcurrent
    · cases h
  | stopRequeue w =>
    simp only [step] at h
    split at h
    · rename_i c hstopping
      cases h
      exact .stopRequeue w c hstopping
    · cases h
  | recover w window maxAttempts jobIds =>
    simp only [step] at h
    split_ifs at h with hok
    cases h
    exact .recover w window maxAttempts jobIds hok
  | dispatched w ok =>
    simp only [step] at h
    split at h
    · cases h
    · rename_i jobId rest hdispatching
      cases ok with
      | true =>
        cases h
        exact .dispatched w jobId rest hdispatching
      | false =>
        cases h
        exact .dispatchFailed w jobId rest hdispatching

end GuruJi.Workers
