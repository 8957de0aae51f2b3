import GuruJi.Workers.Steps
import Mathlib.Data.Fintype.Basic

/-!
# No job in two hands

`claim_background_jobs` claims a batch and `run_pending` runs it one job after another, but only the
job being run has a heartbeat thread. A job that waits behind a slow one goes silent, and the sweep
takes its live worker for dead (`not_soleHolder`). What the heartbeat does protect is the job being
run, once it has beaten: when the sweeps leave alone the claimed jobs nobody beats for, no job is
ever held by two workers (`soleHolder_of_sparesWaiting`).
-/

namespace GuruJi.Workers

open GuruJi.Lib GuruJi.Lib.Machine

variable {ω κ : Type} [DecidableEq κ]

def defaultStaleSeconds : Nat := 180
def defaultHeartbeatSeconds : Nat := 30

/-- When the heartbeat thread of the job in flight last beat, or was started. -/
def Worker.lastBeat (x : Worker κ) : Option Nat :=
  match x.current with
  | some ⟨_, .beating last _⟩ => some last
  | _ => none

/-- Workers that only run `run_pending` and `recover_stale`, stay alive and beat on schedule: time
does not pass a beat that is due. The window of a sweep is at least `window`. -/
def OnSchedule (interval window : Nat) (s : State ω κ) : Action ω κ → Prop
  | .tick seconds => ∀ w, ∀ last ∈ (s.worker w).lastBeat, s.now + seconds ≤ last + interval
  | .recover _ olderThan _ _ => window ≤ olderThan
  | .claimOne .. | .readClaimed .. | .stopRead .. | .stopRequeue .. => False
  | _ => True

instance [Fintype ω] (interval window : Nat) (s : State ω κ) :
    ∀ a, Decidable (OnSchedule interval window s a)
  | .tick seconds => inferInstanceAs
      (Decidable (∀ w, ∀ last ∈ (s.worker w).lastBeat, s.now + seconds ≤ last + interval))
  | .recover _ olderThan _ _ => inferInstanceAs (Decidable (window ≤ olderThan))
  | .claimOne .. | .readClaimed .. | .stopRead .. | .stopRequeue .. => .isFalse id
  | .enqueue .. | .claimBatch .. | .start .. | .beat .. | .lateBeat .. | .handlerDone .. |
    .finish .. | .dispatched .. => .isTrue trivial

/-- A sweep selects a claimed job only if its worker beats for it, or its attempts are used up. -/
def SparesWaiting (s : State ω κ) : Action ω κ → Prop
  | .recover _ _ maxAttempts jobIds => ∀ w, ∀ c ∈ (s.worker w).claimed, c.jobId ∈ jobIds →
      (∃ last, (s.worker w).current = some ⟨c, .beating last true⟩) ∨
        ∀ j ∈ s.jobs.get c.jobId, maxAttempts ≤ j.attempts
  | _ => True

/-- No job claimed by one worker and not yet finished by it is claimed by another. -/
def SoleHolder [DecidableEq ω] (handles : ω → String → Bool) (ok : State ω κ → Action ω κ → Prop) :
    Prop :=
  ∀ s, (jobQueue handles).Reaches ok s → ∀ v w, ∀ c ∈ (s.worker v).claimed,
    ∀ d ∈ (s.worker w).claimed, c.jobId = d.jobId → v = w

/-! ## What the updates leave running and queued -/

/-- A job is running afterwards only as it was, or with a sign of life just given. -/
def KeepsFresh (now : Nat) (jobs jobs' : Table κ Job) : Prop :=
  ∀ jobId j', jobs'.get jobId = some j' → j'.status = .running →
    now ≤ j'.stamp ∨ jobs.get jobId = some j'

def KeepsOut (jobs jobs' : Table κ Job) : Prop :=
  ∀ jobId j, jobs.get jobId = some j → j.status ≠ .queued →
    ∃ j', jobs'.get jobId = some j' ∧ j'.status ≠ .queued

theorem KeepsFresh.refl (now : Nat) (jobs : Table κ Job) : KeepsFresh now jobs jobs :=
  fun _ _ h _ => .inr h

theorem KeepsOut.refl (jobs : Table κ Job) : KeepsOut jobs jobs := fun _ j h hq => ⟨j, h, hq⟩

theorem KeepsFresh.trans {now : Nat} {a b c : Table κ Job} (h : KeepsFresh now a b)
    (h' : KeepsFresh now b c) : KeepsFresh now a c := by
  intro jobId j' hj' hrunning
  rcases h' jobId j' hj' hrunning with hnow | hj
  · exact .inl hnow
  · exact h jobId j' hj hrunning

theorem KeepsOut.trans {a b c : Table κ Job} (h : KeepsOut a b) (h' : KeepsOut b c) : KeepsOut a c := by
  intro jobId j hj hq
  obtain ⟨j', hj', hq'⟩ := h jobId j hj hq
  exact h' jobId j' hj' hq'

theorem keepsFresh_updateWhere {now : Nat} (jobs : Table κ Job) (jobId : κ) (cond : Job → Bool)
    {f : Job → Job} (h : ∀ j, (f j).status = .running → now ≤ (f j).stamp) :
    KeepsFresh now jobs (jobs.updateWhere jobId cond f) := by
  intro k j' hj' hrunning
  rw [Table.get_updateWhere] at hj'
  split_ifs at hj' with hk
  · obtain ⟨j, hj, rfl⟩ := Option.map_eq_some_iff.mp hj'
    split_ifs at hrunning ⊢ with hc
    · exact .inl (h j hrunning)
    · exact .inr hj
  · exact .inr hj'

theorem keepsOut_updateWhere (jobs : Table κ Job) (jobId : κ) (cond : Job → Bool) {f : Job → Job}
    (h : ∀ j, j.status ≠ .queued → (f j).status ≠ .queued) :
    KeepsOut jobs (jobs.updateWhere jobId cond f) := by
  intro k j hj hq
  rw [Table.get_updateWhere, hj]
  split_ifs
  · by_cases hc : cond j
    · exact ⟨f j, by simp [hc], h j hq⟩
    · exact ⟨j, by simp [hc], hq⟩
  · exact ⟨j, rfl, hq⟩

theorem heartbeat_keepsFresh (jobs : Table κ Job) (now : Nat) (jobId : κ) :
    KeepsFresh now jobs (heartbeatBackgroundJob jobs now jobId) :=
  keepsFresh_updateWhere _ _ _ fun _ _ => le_refl now

theorem heartbeat_keepsOut (jobs : Table κ Job) (now : Nat) (jobId : κ) :
    KeepsOut jobs (heartbeatBackgroundJob jobs now jobId) :=
  keepsOut_updateWhere _ _ _ fun _ h => h

theorem finish_keepsFresh (jobs : Table κ Job) (now : Nat) (jobId : κ) {status : JobStatus}
    (error : Option String) (attempt : Option Nat) (h : status.Done) :
    KeepsFresh now jobs (finishBackgroundJob jobs now jobId status error attempt) := by
  refine keepsFresh_updateWhere _ _ _ fun j (hr : status = .running) => ?_
  rcases h with h | h <;> simp [h] at hr

theorem finish_keepsOut (jobs : Table κ Job) (now : Nat) (jobId : κ) {status : JobStatus}
    (error : Option String) (attempt : Option Nat) (h : status.Done) :
    KeepsOut jobs (finishBackgroundJob jobs now jobId status error attempt) := by
  refine keepsOut_updateWhere _ _ _ fun j _ (hq : status = .queued) => ?_
  rcases h with h | h <;> simp [h] at hq

variable {jobId : κ} {s : State ω κ}

theorem enqueue_keepsFresh (jobs : Table κ Job) (now : Nat) (jobType : String)
    (h : jobs.get jobId = none) :
    KeepsFresh now jobs (enqueueBackgroundJob jobs now jobId jobType) := by
  intro k j' hj' hrunning
  rw [enqueueBackgroundJob, Table.get_insert _ _ h] at hj'
  split_ifs at hj'
  · cases hj'
    cases hrunning
  · exact .inr hj'

theorem enqueue_keepsOut (jobs : Table κ Job) (now : Nat) (jobType : String)
    (h : jobs.get jobId = none) : KeepsOut jobs (enqueueBackgroundJob jobs now jobId jobType) := by
  intro k j hj hq
  refine ⟨j, ?_, hq⟩
  rw [enqueueBackgroundJob, Table.get_insert _ _ h, if_neg, hj]
  rintro rfl
  simp [h] at hj

theorem claim_keepsFresh (s : State ω κ) (w : ω) (jobId : κ) :
    KeepsFresh s.now s.jobs (s.claim w jobId).1.jobs := by
  rcases claim_cases s w jobId with ⟨j, -, -, h⟩ | h
  · rw [h]
    have hone : KeepsFresh s.now s.jobs (claimBackgroundJob s.jobs s.now jobId) :=
      keepsFresh_updateWhere _ _ _ fun _ _ => le_refl s.now
    exact hone
  · rw [h]
    exact .refl _ _

theorem claim_keepsOut (s : State ω κ) (w : ω) (jobId : κ) :
    KeepsOut s.jobs (s.claim w jobId).1.jobs := by
  rcases claim_cases s w jobId with ⟨j, -, -, h⟩ | h
  · rw [h]
    have hone : KeepsOut s.jobs (claimBackgroundJob s.jobs s.now jobId) :=
      keepsOut_updateWhere _ _ _ fun _ _ => by simp
    exact hone
  · rw [h]
    exact .refl _

theorem claim_now (s : State ω κ) (w : ω) (jobId : κ) : (s.claim w jobId).1.now = s.now := by
  rcases claim_cases s w jobId with ⟨j, -, -, h⟩ | h <;> rw [h]

theorem claimAll_now (s : State ω κ) (w : ω) (jobIds : List κ) : (s.claimAll w jobIds).1.now = s.now :=
  claimAll_keeps (P := fun t => t.now = s.now) w (fun t jobId ht => (claim_now t w jobId).trans ht)
    jobIds rfl

theorem claimAll_keepsFresh (s : State ω κ) (w : ω) (jobIds : List κ) :
    KeepsFresh s.now s.jobs (s.claimAll w jobIds).1.jobs :=
  (claimAll_keeps (P := fun t => t.now = s.now ∧ KeepsFresh s.now s.jobs t.jobs) w
    (fun t jobId ht => ⟨(claim_now t w jobId).trans ht.1,
      ht.2.trans (ht.1 ▸ claim_keepsFresh t w jobId)⟩) jobIds ⟨rfl, .refl _ _⟩).2

theorem claimAll_keepsOut (s : State ω κ) (w : ω) (jobIds : List κ) :
    KeepsOut s.jobs (s.claimAll w jobIds).1.jobs :=
  claimAll_keeps (P := fun t => KeepsOut s.jobs t.jobs) w
    (fun t jobId ht => ht.trans (claim_keepsOut t w jobId)) jobIds (.refl _)

theorem claimAll_claimed (s : State ω κ) (w : ω) (jobIds : List κ) :
    ∀ c ∈ (s.claimAll w jobIds).2, c.jobId ∈ jobIds ∧
      ∃ j, (s.claimAll w jobIds).1.jobs.get c.jobId = some j ∧ j.status ≠ .queued := by
  induction jobIds generalizing s with
  | nil => simp [State.claimAll]
  | cons jobId jobIds ih =>
    intro c hc
    rcases List.mem_append.mp hc with hc | hc
    · rcases claim_cases s w jobId with ⟨j, hj, hq, h⟩ | h
      · obtain rfl : c = ⟨jobId, j.jobType, j.attempts + 1, j.attempts + 1⟩ := by
          simpa [h] using hc
        have hrow : (s.claim w jobId).1.jobs.get jobId = some
            { j with status := .running, startedAt := some s.now, heartbeatAt := some s.now,
                     attempts := j.attempts + 1 } := by
          simp [h, claimBackgroundJob, Table.get_updateWhere_self, hj, hq]
        exact ⟨List.mem_cons_self, claimAll_keepsOut _ w jobIds _ _ hrow (by simp)⟩
      · simp [h] at hc
    · obtain ⟨hmem, hrow⟩ := ih _ c hc
      exact ⟨List.mem_cons_of_mem _ hmem, hrow⟩

/-! ## The sweep -/

theorem requeueStale_keepsFresh (jobs : Table κ Job) (now maxAttempts : Nat) (jobIds : List κ) :
    KeepsFresh now jobs (requeueStaleBackgroundJobs jobs now maxAttempts jobIds) := by
  induction jobIds generalizing jobs with
  | nil => exact .refl now jobs
  | cons jobId jobIds ih =>
    have hone : KeepsFresh now jobs (requeueStaleBackgroundJob now maxAttempts jobs jobId) := by
      refine keepsFresh_updateWhere _ _ _ fun j hr => ?_
      split_ifs at hr
      cases hr
    exact hone.trans (ih _)

theorem get_requeueStale_of_not_mem (jobs : Table κ Job) (now maxAttempts : Nat) {jobIds : List κ}
    (h : jobId ∉ jobIds) :
    (requeueStaleBackgroundJobs jobs now maxAttempts jobIds).get jobId = jobs.get jobId := by
  induction jobIds generalizing jobs with
  | nil => rfl
  | cons k jobIds ih =>
    obtain ⟨hk, h⟩ := not_or.mp (List.mem_cons.not.mp h)
    have hone : (requeueStaleBackgroundJob now maxAttempts jobs k).get jobId = jobs.get jobId :=
      Table.get_updateWhere_ne _ _ _ hk
    exact (ih _ h).trans hone

theorem get_requeueStale_exhausted {jobs : Table κ Job} (now : Nat) {maxAttempts : Nat}
    (jobIds : List κ) {j : Job} (hj : jobs.get jobId = some j)
    (hq : j.status ≠ .queued) (hatt : maxAttempts ≤ j.attempts) :
    ∃ j', (requeueStaleBackgroundJobs jobs now maxAttempts jobIds).get jobId = some j' ∧
      j'.status ≠ .queued := by
  induction jobIds generalizing jobs j with
  | nil => exact ⟨j, hj, hq⟩
  | cons k jobIds ih =>
    have hone : (requeueStaleBackgroundJob now maxAttempts jobs k).get jobId = some j ∨
        (requeueStaleBackgroundJob now maxAttempts jobs k).get jobId = some
          { j with status := .failed, finishedAt := some now,
                   error := some "worker did not finish the job after repeated attempts" } := by
      rw [requeueStaleBackgroundJob, Table.get_updateWhere, hj]
      split_ifs <;> simp only [Option.map_some, Option.some.injEq]
      · split_ifs
        · exact .inr rfl
        · exact .inl rfl
      · exact .inl trivial
    rcases hone with hone | hone
    · exact ih hone hq hatt
    · exact ih hone (by simp) hatt

/-! ## The invariant -/

/-- No claimed job is in the queue of the table `jobs`. -/
def ClaimedOut (s : State ω κ) (jobs : Table κ Job) : Prop :=
  ∀ w, ∀ c ∈ (s.worker w).claimed, ∃ j, jobs.get c.jobId = some j ∧ j.status ≠ .queued

theorem ClaimedOut.keep {jobs jobs' : Table κ Job} (h : ClaimedOut s jobs)
    (hout : KeepsOut jobs jobs') : ClaimedOut s jobs' := by
  intro w c hc
  obtain ⟨j, hj, hq⟩ := h w c hc
  exact hout _ j hj hq

structure Live (interval : Nat) (s : State ω κ) : Prop where
  out : ClaimedOut s s.jobs
  sole : ∀ v w, ∀ c ∈ (s.worker v).claimed, ∀ d ∈ (s.worker w).claimed, c.jobId = d.jobId → v = w
  due : ∀ w, ∀ last ∈ (s.worker w).lastBeat, last ≤ s.now ∧ s.now ≤ last + interval
  fresh : ∀ w c last, (s.worker w).current = some ⟨c, .beating last true⟩ →
    ∀ j, s.jobs.get c.jobId = some j → j.status = .running → last ≤ j.stamp

variable {interval window : Nat}

theorem Live.recover (h : Live interval s) (hi : interval ≤ window) {w : ω}
    {olderThan maxAttempts : Nat} {jobIds : List κ} (hw : window ≤ olderThan)
    (hspare : SparesWaiting s (.recover w olderThan maxAttempts jobIds))
    (hsel : s.jobs.Selects (Job.stale s.now olderThan) (·.createdAt) 500 jobIds) :
    ClaimedOut s (requeueStaleBackgroundJobs s.jobs s.now maxAttempts jobIds) := by
  intro v c hc
  obtain ⟨j, hj, hq⟩ := h.out v c hc
  by_cases hmem : c.jobId ∈ jobIds
  · rcases hspare v c hc hmem with ⟨last, hcur⟩ | hatt
    · -- a job that is beaten for gave its last sign of life within the window
      obtain ⟨j', hj', hstale⟩ := hsel.sat hmem
      obtain rfl : j' = j := by simpa [hj] using hj'.symm
      simp only [Job.stale, Bool.and_eq_true, beq_iff_eq, decide_eq_true_eq] at hstale
      have hstamp := h.fresh v c last hcur j' hj hstale.1
      have hdue := h.due v last (by simp [Worker.lastBeat, hcur])
      omega
    · exact get_requeueStale_exhausted _ _ hj hq (hatt j hj)
  · exact ⟨j, by rw [get_requeueStale_of_not_mem _ _ _ hmem, hj], hq⟩

variable [DecidableEq ω] {handles : ω → String → Bool}

theorem Live.set {s u : State ω κ} {w : ω} {x : Worker κ} (h : Live interval s)
    (hu : u.worker = s.worker) (hnow : u.now = s.now) (hout : ClaimedOut s u.jobs)
    (hfresh : KeepsFresh s.now s.jobs u.jobs)
    (hclaimed : ∀ c ∈ x.claimed, c ∈ (s.worker w).claimed ∨
      (∃ j, s.jobs.get c.jobId = some j ∧ j.status = .queued) ∧
        ∃ j, u.jobs.get c.jobId = some j ∧ j.status ≠ .queued)
    (hdue : ∀ last ∈ x.lastBeat, last ∈ (s.worker w).lastBeat ∨ last = s.now)
    (hbeaten : ∀ c last, x.current = some ⟨c, .beating last true⟩ →
      (s.worker w).current = some ⟨c, .beating last true⟩ ∨
        ∀ j, u.jobs.get c.jobId = some j → j.status = .running → last ≤ j.stamp) :
    Live interval (u.set w x) := by
  -- a job that just left the queue was in nobody's hands
  have hnew : ∀ v, ∀ c ∈ (s.worker v).claimed, ∀ d : Claimed κ, c.jobId = d.jobId →
      ¬ ∃ j, s.jobs.get d.jobId = some j ∧ j.status = .queued := by
    rintro v c hc d hcd ⟨j, hj, hq⟩
    obtain ⟨j', hj', hq'⟩ := h.out v c hc
    rw [hcd, hj] at hj'
    exact hq' (Option.some.inj hj' ▸ hq)
  refine ⟨fun v c hc => ?_, fun v v' c hc d hd hcd => ?_, fun v last hlast => ?_,
    fun v c last hcur j hj hr => ?_⟩
  · rw [State.set_worker] at hc
    split_ifs at hc with hv
    · rcases hclaimed c hc with hc | ⟨-, hc⟩
      · exact hout w c hc
      · exact hc
    · exact hout v c (hu ▸ hc)
  · rw [State.set_worker, hu] at hc hd
    split_ifs at hc hd with hv hv' hv'
    · exact hv.trans hv'.symm
    · rcases hclaimed c hc with hc | ⟨hc, -⟩
      · exact hv ▸ h.sole w v' c hc d hd hcd
      · exact absurd hc (hnew v' d hd c hcd.symm)
    · rcases hclaimed d hd with hd | ⟨hd, -⟩
      · exact hv' ▸ h.sole v w c hc d hd hcd
      · exact absurd hd (hnew v c hc d hcd)
    · exact h.sole v v' c hc d hd hcd
  · rw [State.set_worker, hu] at hlast
    rw [State.set_now, hnow]
    split_ifs at hlast with hv
    · rcases hdue last hlast with hlast | rfl
      · exact h.due w last hlast
      · omega
    · exact h.due v last hlast
  · rw [State.set_worker, hu] at hcur
    rw [State.set_jobs] at hj
    have hkept : ∀ v, (s.worker v).current = some ⟨c, .beating last true⟩ → last ≤ j.stamp := by
      intro v hcur
      rcases hfresh _ j hj hr with hnow' | hj
      · have hlast := h.due v last (by simp [Worker.lastBeat, hcur])
        omega
      · exact h.fresh v c last hcur j hj hr
    split_ifs at hcur with hv
    · rcases hbeaten c last hcur with hcur | hstamp
      · exact hkept w hcur
      · exact hstamp j hj hr
    · exact hkept v hcur

/-- A worker that took no job in hand, over a table that keeps its claimed jobs out of the queue. -/
theorem Live.sub {s u : State ω κ} {w : ω} {x : Worker κ} (h : Live interval s)
    (hu : u.worker = s.worker) (hnow : u.now = s.now) (hout : ClaimedOut s u.jobs)
    (hfresh : KeepsFresh s.now s.jobs u.jobs)
    (hclaimed : ∀ c ∈ x.claimed, c ∈ (s.worker w).claimed)
    (hcurrent : x.current = (s.worker w).current ∨
      ∀ c last beaten, x.current ≠ some ⟨c, .beating last beaten⟩) :
    Live interval (u.set w x) := by
  refine h.set hu hnow hout hfresh (fun c hc => .inl (hclaimed c hc)) (fun last hlast => .inl ?_)
    fun c last hcur => .inl ?_
  · rcases hcurrent with hcurrent | hcurrent
    · simpa only [Worker.lastBeat, hcurrent] using hlast
    · simp [Worker.lastBeat] at hlast
  · rcases hcurrent with hcurrent | hcurrent
    · rw [← hcurrent, hcur]
    · exact absurd hcur (hcurrent c last true)

theorem Live.step (hi : interval ≤ window) {s t : State ω κ} {a : Action ω κ}
    (h : Live interval s) (hok : OnSchedule interval window s a) (hspare : SparesWaiting s a)
    (hst : Step handles s a t) : Live interval t := by
  cases hst with
  | tick seconds =>
    refine ⟨h.out, h.sole, fun w last hlast => ⟨?_, hok w last hlast⟩, h.fresh⟩
    exact (h.due w last hlast).1.trans (Nat.le_add_right _ _)
  | enqueue w jobId jobType hnew =>
    exact h.sub rfl rfl (h.out.keep (enqueue_keepsOut _ _ _ hnew)) (enqueue_keepsFresh _ _ _ hnew)
      (fun _ hc => hc) (.inl rfl)
  | claimBatch w limit jobIds hfree hsel =>
    refine h.set (claimAll_worker s w jobIds) (claimAll_now s w jobIds)
      (h.out.keep (claimAll_keepsOut s w jobIds)) (claimAll_keepsFresh s w jobIds)
      (fun c hc => .inr ?_) (fun last hlast => .inl hlast) fun c last hcur => .inl hcur
    have hmem : c ∈ (s.claimAll w jobIds).2 := by simpa [Worker.claimed, hfree.2.2] using hc
    obtain ⟨hid, hrow⟩ := claimAll_claimed s w jobIds c hmem
    obtain ⟨j, hj, hq⟩ := hsel.sat hid
    exact ⟨⟨j, hj, by simpa using hq⟩, hrow⟩
  | claimOne => exact hok.elim
  | readClaimed => exact hok.elim
  | start w c rest hcurrent hbatch =>
    refine h.set rfl rfl h.out (.refl _ _) (fun d hd => .inl ?_) (fun last hlast => .inr ?_) ?_
    · simpa [Worker.claimed, hcurrent, hbatch] using hd
    · simpa [Worker.lastBeat] using hlast.symm
    · simp
  | startUnhandled w c rest hcurrent hbatch =>
    refine h.sub rfl rfl (h.out.keep (finish_keepsOut _ _ _ _ _ (.inr rfl)))
      (finish_keepsFresh _ _ _ _ _ (.inr rfl)) (fun d hd => ?_) (.inl rfl)
    simp only [Worker.claimed, hcurrent, hbatch] at hd ⊢
    simpa using Or.inr (by simpa using hd)
  | beat w c last beaten hcurrent =>
    refine h.set rfl rfl (h.out.keep (heartbeat_keepsOut _ _ _)) (heartbeat_keepsFresh _ _ _)
      (fun d hd => .inl ?_) (fun last hlast => .inr ?_)
      fun d last hcur => .inr fun j hj hr => ?_
    · simpa [Worker.claimed, hcurrent] using hd
    · simpa [Worker.lastBeat] using hlast.symm
    · -- the row of the job in flight has just been stamped, if it is running
      simp only [Option.some.injEq, Current.mk.injEq, Pulse.beating.injEq, and_true] at hcur
      obtain ⟨rfl, rfl⟩ := hcur
      simp only [State.setJobs_jobs, heartbeatBackgroundJob, Table.get_updateWhere_self] at hj
      obtain ⟨j₀, -, rfl⟩ := Option.map_eq_some_iff.mp hj
      split_ifs at hr ⊢ with hc
      · exact le_refl s.now
      · simp [hr] at hc
  | lateBeat jobId =>
    refine ⟨fun w c hc => ?_, h.sole, h.due, fun w c last hcur j hj hr => ?_⟩
    · exact h.out.keep (heartbeat_keepsOut _ _ _) w c hc
    · rcases heartbeat_keepsFresh _ _ _ _ j hj hr with hnow | hj
      · have hlast := h.due w last (by simp [Worker.lastBeat, show (s.worker w).current = _ from hcur])
        omega
      · exact h.fresh w c last hcur j hj hr
  | handlerDone w succeeded c last beaten hcurrent =>
    exact h.sub rfl rfl h.out (.refl _ _)
      (fun d hd => by simpa [Worker.claimed, hcurrent] using hd) (.inr (by simp))
  | finish w c succeeded hcurrent =>
    have hdone : JobStatus.Done (if succeeded then .succeeded else .failed) := by
      cases succeeded <;> decide
    exact h.sub rfl rfl (h.out.keep (finish_keepsOut _ _ _ _ _ hdone))
      (finish_keepsFresh _ _ _ _ _ hdone)
      (fun d hd => List.mem_append_right _ (by simpa [Worker.claimed] using hd)) (.inr (by simp))
  | stopRead => exact hok.elim
  | stopRequeue => exact hok.elim
  | recover w olderThan maxAttempts jobIds hsel =>
    exact h.sub rfl rfl (h.recover hi hok hspare hsel) (requeueStale_keepsFresh _ _ _ _)
      (fun _ hc => hc) (.inl rfl)
  | dispatched => exact h.sub rfl rfl h.out (.refl _ _) (fun _ hc => hc) (.inl rfl)
  | dispatchFailed =>
    exact h.sub rfl rfl (h.out.keep (finish_keepsOut _ _ _ _ _ (.inr rfl)))
      (finish_keepsFresh _ _ _ _ _ (.inr rfl))
      (fun _ hc => hc) (.inl rfl)

theorem Live.of_init (h : (jobQueue handles).init s) : Live interval s := by
  obtain ⟨-, -, hworker⟩ := h
  constructor <;> simp [ClaimedOut, hworker, Worker.idle, Worker.claimed, Worker.lastBeat]

/-- **A job is held by one worker at a time, in every run on schedule whose sweeps leave alone the
claimed jobs nobody beats for.** -/
theorem soleHolder_of_sparesWaiting (ω κ : Type) [DecidableEq ω] [DecidableEq κ]
    (handles : ω → String → Bool) {interval window : Nat} (h : interval ≤ window) :
    SoleHolder (κ := κ) handles fun s a => OnSchedule interval window s a ∧ SparesWaiting s a := by
  intro s hs
  have hkeeps : (jobQueue handles).Keeps
      (fun s a => OnSchedule interval window s a ∧ SparesWaiting s a) (Live (κ := κ) interval) :=
    fun _ _ _ hlive hok hstep => hlive.step h hok.1 hok.2 (step_cases hstep)
  exact (hs.invariant hkeeps fun _ => Live.of_init).sole

/-- Two workers on the default schedule. -/
theorem soleHolder_default :
    SoleHolder (ω := Bool) (κ := String) (fun _ _ => true) fun s a =>
      OnSchedule defaultHeartbeatSeconds defaultStaleSeconds s a ∧ SparesWaiting s a :=
  soleHolder_of_sparesWaiting Bool String _ (by decide)

/-! ## A job that waits too long -/

/-- A batch of two whose first job takes seven beats: the second goes silent, is swept, and another
worker claims it. -/
def slowBatch : List (Action Bool String) :=
  [.enqueue false "bg-1" "import", .enqueue false "bg-2" "import",
    .claimBatch false 10 ["bg-1", "bg-2"], .start false] ++
  (List.replicate 7 [.tick 30, .beat false]).flatten ++
  [.recover true 180 3 ["bg-2"], .claimBatch true 10 ["bg-2"]]

/-- On the default schedule a waiting job is claimed by two live workers. -/
theorem not_soleHolder :
    ¬ ∀ handles : Bool → String → Bool,
      SoleHolder (κ := String) handles (OnSchedule defaultHeartbeatSeconds defaultStaleSeconds) := by
  intro h
  obtain ⟨s, hs, hp⟩ := reaches_of_exec (jobQueue fun (_ : Bool) _ => true)
    (OnSchedule defaultHeartbeatSeconds defaultStaleSeconds)
    (s := ⟨0, [], fun _ => .idle, []⟩) slowBatch
    (fun s => (s.worker false).claimed.any (·.jobId == "bg-2") &&
      (s.worker true).claimed.any (·.jobId == "bg-2")) ⟨rfl, rfl, fun _ => rfl⟩ (by decide)
  simp only [Bool.and_eq_true, List.any_eq_true, beq_iff_eq] at hp
  obtain ⟨⟨c, hc, hcid⟩, d, hd, hdid⟩ := hp
  simpa using h _ s hs false true c hc d hd (hcid.trans hdid.symm)

end GuruJi.Workers
