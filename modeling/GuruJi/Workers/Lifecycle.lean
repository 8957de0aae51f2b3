import GuruJi.Workers.Steps
import Mathlib.Data.List.Nodup

/-!
# The life of a background job

Every transition is a conditional update with its own guard on the status. Succeeded and failed are
absorbing and the attempts number the claims in every interleaving (`Numbered`). The outcome of
`run_job` also names its attempt, so a worker that lost its job to another cannot record one. Three
places lack that check: `ThreadJobQueue.stop` gives the job back by its id alone, a job without a
handler is failed by its id alone, and a single claim reads its attempt back from the row in a
second statement. `not_lifecycle` is the first of them; `lifecycle_of_ownAttempt` is the claim for
the runs in which these three find the attempt they won.
-/

namespace GuruJi.Workers

open GuruJi.Lib GuruJi.Lib.Machine

variable {ω κ : Type} [DecidableEq κ]

def State.attempts (s : State ω κ) (jobId : κ) : Nat := ((s.jobs.get jobId).map (·.attempts)).getD 0

def State.claimsOf (s : State ω κ) (jobId : κ) : List (ω × κ × Nat) :=
  s.claims.filter (·.2.1 = jobId)

/-- The job was requeued and claimed again since `c` won it. -/
def State.Superseded (s : State ω κ) (c : Claimed κ) : Prop := c.won < s.attempts c.jobId

/-! ## The table and the log of claims -/

/-- The claims of every job are numbered from one up to its attempts. -/
def Numbered (s : State ω κ) : Prop :=
  ∀ jobId, (s.claimsOf jobId).map (·.2.2) = (List.range' 1 (s.attempts jobId)).reverse

variable {s t : State ω κ} {a : Action ω κ}

theorem Numbered.congr (h : Numbered s) (hjobs : KeepsAttempts s.jobs t.jobs)
    (hclaims : t.claims = s.claims) : Numbered t := by
  intro jobId
  have hattempts : t.attempts jobId = s.attempts jobId := by
    rw [State.attempts, State.attempts, hjobs jobId]
  rw [hattempts, State.claimsOf, hclaims]
  exact h jobId

theorem Numbered.claim {s : State ω κ} (h : Numbered s) (w : ω) (jobId : κ) :
    Numbered (s.claim w jobId).1 := by
  rcases claim_cases s w jobId with ⟨j, hj, hq, hc⟩ | hc
  · rw [hc]
    intro k
    have hk := h k
    have hget := Table.get_updateWhere s.jobs jobId k (fun r => r.status == .queued) fun r =>
      { r with status := .running, startedAt := some s.now, heartbeatAt := some s.now,
               attempts := r.attempts + 1 }
    by_cases hkj : k = jobId
    · subst hkj
      simp only [State.attempts, State.claimsOf, claimBackgroundJob, hget, hj] at hk ⊢
      simp [hq, hk, List.range'_1_concat, Nat.add_comm]
    · simp only [State.attempts, State.claimsOf, claimBackgroundJob, hget, if_neg hkj] at hk ⊢
      simpa [Ne.symm hkj] using hk
  · rw [hc]
    exact h

theorem Numbered.enqueue {s : State ω κ} (h : Numbered s) {jobId : κ} (jobType : String)
    (hnew : s.jobs.get jobId = none) :
    Numbered (s.setJobs (enqueueBackgroundJob s.jobs s.now jobId jobType)) := by
  intro k
  have hk := h k
  simp only [State.attempts, State.claimsOf, State.setJobs_jobs, State.setJobs_claims,
    enqueueBackgroundJob, Table.get_insert _ _ hnew] at hk ⊢
  split_ifs with hkj
  · subst hkj
    simpa [hnew] using hk
  · exact hk

theorem Numbered.length {s : State ω κ} (h : Numbered s) (jobId : κ) :
    (s.claimsOf jobId).length = s.attempts jobId := by
  simpa using congrArg List.length (h jobId)

theorem Numbered.unique {s : State ω κ} (h : Numbered s) {jobId : κ} {n : Nat} {v w : ω}
    (hv : (v, jobId, n) ∈ s.claims) (hw : (w, jobId, n) ∈ s.claims) : v = w := by
  have hinj : ((s.claimsOf jobId).map (·.2.2)).Nodup := by
    rw [h jobId]
    exact (List.reverse_perm _).nodup_iff.mpr List.nodup_range'
  have hv' : (v, jobId, n) ∈ s.claimsOf jobId := by simp [State.claimsOf, hv]
  have hw' : (w, jobId, n) ∈ s.claimsOf jobId := by simp [State.claimsOf, hw]
  exact congrArg Prod.fst (List.inj_on_of_nodup_map hinj hv' hw' rfl)

theorem Numbered.exists {s : State ω κ} (h : Numbered s) {jobId : κ} {n : Nat} (h1 : 1 ≤ n)
    (hn : n ≤ s.attempts jobId) : ∃ w, (w, jobId, n) ∈ s.claims := by
  have hmem : n ∈ (s.claimsOf jobId).map (·.2.2) := by
    rw [h jobId]
    simp only [List.mem_reverse, List.mem_range'_1]
    omega
  obtain ⟨⟨w, k, m⟩, hc, rfl⟩ := List.mem_map.mp hmem
  obtain ⟨hc, hk⟩ := List.mem_filter.mp hc
  simp only [decide_eq_true_eq] at hk
  exact ⟨w, hk ▸ hc⟩

variable [DecidableEq ω] {handles : ω → String → Bool}

theorem Step.keepsDone (h : Step handles s a t) : KeepsDone s.jobs t.jobs := by
  cases h with
  | enqueue w jobId jobType hnew => exact enqueue_keepsDone _ _ _ hnew
  | claimBatch w limit jobIds => exact claimAll_jobs_keepsDone s w jobIds
  | claimOne w jobId => exact claim_jobs_keepsDone s w jobId
  | startUnhandled | finish | dispatchFailed => exact finish_keepsDone _ _ _ _ _ _
  | beat | lateBeat => exact heartbeat_keepsDone _ _ _
  | stopRequeue => exact requeue_keepsDone _ _
  | recover => exact requeueStale_keepsDone _ _ _ _
  | tick | readClaimed | start | handlerDone | stopRead | dispatched => exact .refl _

theorem Numbered.step (h : Numbered s) (hst : Step handles s a t) : Numbered t := by
  cases hst with
  | enqueue w jobId jobType hnew => exact (h.enqueue jobType hnew).congr (.refl _) rfl
  | claimBatch w limit jobIds =>
    exact (claimAll_keeps w (fun _ jobId ht => ht.claim w jobId) jobIds h).congr (.refl _) rfl
  | claimOne w jobId => exact (h.claim w jobId).congr (.refl _) rfl
  | startUnhandled | finish | dispatchFailed =>
    exact h.congr (finish_keepsAttempts _ _ _ _ _ _) rfl
  | beat | lateBeat => exact h.congr (heartbeat_keepsAttempts _ _ _) rfl
  | stopRequeue => exact h.congr (requeue_keepsAttempts _ _) rfl
  | recover => exact h.congr (requeueStale_keepsAttempts _ _ _ _) rfl
  | tick | readClaimed | start | handlerDone | stopRead | dispatched => exact h.congr (.refl _) rfl

/-! ## The property -/

def actsFor (s : State ω κ) : Action ω κ → Option (Claimed κ)
  | .start w => if (s.worker w).current = none then (s.worker w).batch.head? else none
  | .beat w | .handlerDone w _ | .finish w | .stopRead w => (s.worker w).current.map (·.job)
  | .stopRequeue w => (s.worker w).stopping
  | _ => none

structure Lifecycle (handles : ω → String → Bool) (ok : State ω κ → Action ω κ → Prop) : Prop where
  absorbing : ∀ s as t, (jobQueue handles).Reaches ok s → (jobQueue handles).Run ok s as t →
    ∀ jobId j, s.jobs.get jobId = some j → j.status.Done →
      ∃ j', t.jobs.get jobId = some j' ∧ j'.status = j.status
  counted : ∀ s, (jobQueue handles).Reaches ok s → ∀ jobId j, s.jobs.get jobId = some j →
    j.attempts = (s.claimsOf jobId).length
  wonOnce : ∀ s, (jobQueue handles).Reaches ok s → ∀ jobId j, s.jobs.get jobId = some j →
    ∀ n, 1 ≤ n → n ≤ j.attempts → ∃! w, (w, jobId, n) ∈ s.claims
  inert : ∀ s a t c, (jobQueue handles).Reaches ok s → ok s a →
    (jobQueue handles).step s a = some t → actsFor s a = some c → s.Superseded c →
    (t.jobs.get c.jobId).map (·.status) = (s.jobs.get c.jobId).map (·.status)

/-- A stopping worker, a worker that fails a job for want of a handler and a single claim reading
its row back still have the job's latest attempt, or the job is past the update. -/
def OwnAttempt (handles : ω → String → Bool) (s : State ω κ) : Action ω κ → Prop
  | .stopRequeue w => ∀ c j, (s.worker w).stopping = some c → s.jobs.get c.jobId = some j →
      j.attempts = c.won ∨ j.status ≠ .running
  | .start w => ∀ c j, (s.worker w).current = none → (s.worker w).batch.head? = some c →
      handles w c.jobType = false → s.jobs.get c.jobId = some j → j.attempts = c.won ∨ j.status.Done
  | .readClaimed w => ∀ jobId won j, (s.worker w).reading = some (jobId, won) →
      s.jobs.get jobId = some j → j.attempts = won ∨ j.status.Done
  | _ => True

/-! ## Claims in hand -/

/-- The claims a worker has in hand: the job it runs, the rest of its batch and the job it is about
to give back. -/
def Worker.InHand (x : Worker κ) (c : Claimed κ) : Prop := c ∈ x.claimed ∨ x.stopping = some c

/-- A worker names the attempt it won, or its job is done; a claim to be read back has a number. -/
structure Worker.Own (jobs : Table κ Job) (x : Worker κ) : Prop where
  inHand : ∀ c, x.InHand c → c.attempt = c.won ∨ ∃ j, jobs.get c.jobId = some j ∧ j.status.Done
  reading : ∀ jobId won, x.reading = some (jobId, won) → 1 ≤ won

theorem Worker.Own.mono {jobs jobs' : Table κ Job} {x : Worker κ} (h : x.Own jobs)
    (hjobs : KeepsDone jobs jobs') : x.Own jobs' where
  inHand c hc := by
    rcases h.inHand c hc with hwon | ⟨j, hj, hd⟩
    · exact .inl hwon
    · exact .inr ⟨j, hjobs _ _ hj hd, hd⟩
  reading := h.reading

theorem Worker.Own.sub {jobs : Table κ Job} {x y : Worker κ} (h : x.Own jobs)
    (hsub : ∀ c, y.InHand c → x.InHand c) (hreading : y.reading = x.reading) : y.Own jobs where
  inHand c hc := h.inHand c (hsub c hc)
  reading := hreading ▸ h.reading

def OwnAll (s : State ω κ) : Prop := ∀ w, (s.worker w).Own s.jobs

theorem OwnAll.set {s u : State ω κ} {w : ω} {x : Worker κ} (h : OwnAll s)
    (hjobs : KeepsDone s.jobs (u.set w x).jobs) (hu : u.worker = s.worker)
    (hx : (s.worker w).Own u.jobs → x.Own u.jobs) : OwnAll (u.set w x) := by
  intro v
  rw [State.set_worker]
  split_ifs with hv
  · exact hx ((h w).mono hjobs)
  · rw [hu]
    exact (h v).mono hjobs

theorem OwnAll.step (h : OwnAll s) (hok : OwnAttempt handles s a)
    (hst : Step handles s a t) : OwnAll t := by
  have hjobs := hst.keepsDone
  cases hst with
  | tick | lateBeat => exact fun v => (h v).mono hjobs
  | enqueue w | dispatched w | dispatchFailed w | recover w =>
    exact h.set hjobs rfl fun hx => hx.sub (fun c hc => hc) rfl
  | claimBatch w limit jobIds hfree =>
    refine h.set hjobs (claimAll_worker s w jobIds) fun hx => ⟨fun c hc => ?_, hx.reading⟩
    rcases hc with hc | hc
    · have hmem : c ∈ (s.claimAll w jobIds).2 := by simpa [Worker.claimed, hfree.2.2] using hc
      exact .inl (claimAll_attempt s w jobIds c hmem)
    · exact hx.inHand c (.inr hc)
  | claimOne w jobId =>
    refine h.set hjobs (claim_worker s w jobId) fun hx => ⟨hx.inHand, fun k won hk => ?_⟩
    rcases claim_cases s w jobId with ⟨j, -, -, hc⟩ | hc
    · simp only [hc, Option.map_some, Option.some.injEq, Prod.mk.injEq] at hk
      omega
    · simp [hc] at hk
  | readClaimed w jobId won j hreading hget =>
    -- the row read back shows the attempt that was won, or the job is done
    refine h.set hjobs rfl fun hx => ⟨fun c hc => ?_, by simp⟩
    have hwon : 1 ≤ won := (h w).reading jobId won hreading
    rcases hc with hc | hc
    · rcases List.mem_append.mp hc with hc | hc
      · exact hx.inHand c (.inl (List.mem_append_left _ hc))
      · rw [List.mem_singleton.mp hc]
        rcases hok jobId won j hreading hget with hatt | hdone
        · left
          simp only [Job.attempt]
          rw [if_neg (by omega), hatt]
        · exact .inr ⟨j, hget, hdone⟩
    · exact hx.inHand c (.inr hc)
  | start w c rest hcurrent hbatch =>
    exact h.set hjobs rfl fun hx =>
      hx.sub (fun d hd => by simpa [Worker.InHand, Worker.claimed, hcurrent, hbatch] using hd) rfl
  | startUnhandled w c rest hcurrent hbatch =>
    refine h.set hjobs rfl fun hx => hx.sub (fun d hd => hd.imp (fun hd => ?_) id) rfl
    simp only [Worker.claimed, hcurrent, hbatch] at hd ⊢
    simpa using Or.inr (by simpa using hd)
  | beat w c last beaten hcurrent | handlerDone w succeeded c last beaten hcurrent =>
    exact h.set hjobs rfl fun hx =>
      hx.sub (fun d hd => by simpa [Worker.InHand, Worker.claimed, hcurrent] using hd) rfl
  | finish w c succeeded hcurrent =>
    refine h.set hjobs rfl fun hx => hx.sub (fun d hd => hd.imp (fun hd => ?_) id) rfl
    simp only [Worker.claimed] at hd ⊢
    exact List.mem_append_right _ (by simpa using hd)
  | stopRead w c last beaten hcurrent =>
    refine h.set hjobs rfl fun hx => hx.sub (fun d hd => .inl ?_) rfl
    rcases hd with hd | hd
    · exact hd
    · cases hd
      simp [Worker.claimed, hcurrent]
  | stopRequeue w c =>
    refine h.set hjobs rfl fun hx => hx.sub (fun d hd => hd.imp id fun hd => ?_) rfl
    simp at hd

/-! ## The runs that keep to their own attempt -/

def Inv (s : State ω κ) : Prop := Numbered s ∧ OwnAll s

theorem inv_keeps : (jobQueue (ω := ω) (κ := κ) handles).Keeps (OwnAttempt handles) Inv :=
  fun _ _ _ h hok hstep => ⟨h.1.step (step_cases hstep), h.2.step hok (step_cases hstep)⟩

theorem Inv.of_init {s : State ω κ} (h : (jobQueue handles).init s) : Inv s := by
  obtain ⟨hjobs, hclaims, hworker⟩ := h
  refine ⟨fun jobId => ?_, fun w => ?_⟩
  · simp [State.claimsOf, State.attempts, hjobs, hclaims, Table.get]
  · rw [hworker w]
    exact ⟨fun c hc => by simp [Worker.InHand, Worker.claimed, Worker.idle] at hc,
      fun _ _ hr => by simp [Worker.idle] at hr⟩

theorem Inv.inert {c : Claimed κ} (h : Inv s)
    (hok : OwnAttempt handles s a) (hst : Step handles s a t) (hacts : actsFor s a = some c)
    (hsup : s.Superseded c) :
    (t.jobs.get c.jobId).map (·.status) = (s.jobs.get c.jobId).map (·.status) := by
  obtain ⟨j, hj, hwon⟩ : ∃ j, s.jobs.get c.jobId = some j ∧ c.won < j.attempts := by
    cases hj : s.jobs.get c.jobId with
    | none => simp [State.Superseded, State.attempts, hj] at hsup
    | some j => exact ⟨j, rfl, by simpa [State.Superseded, State.attempts, hj] using hsup⟩
  have hdone : j.status.Done → (t.jobs.get c.jobId).map (·.status) = some j.status := fun hd => by
    rw [hst.keepsDone _ _ hj hd, Option.map_some]
  rw [hj, Option.map_some]
  cases hst <;> simp only [actsFor, Option.map_eq_some_iff, reduceCtorEq] at hacts
  case start => simp [hj]
  case startUnhandled w d rest hcurrent hbatch hhandler =>
    obtain rfl : d = c := by simpa [hcurrent, hbatch] using hacts
    rcases hok d j hcurrent (by simp [hbatch]) hhandler hj with hatt | hd
    · omega
    · exact hdone hd
  case beat w d last beaten hcurrent =>
    obtain rfl : d = c := by simpa [hcurrent] using hacts
    simp [heartbeatBackgroundJob, Table.get_updateWhere_self, hj]
    split_ifs <;> rfl
  case handlerDone => simp [hj]
  case finish w d succeeded hcurrent =>
    obtain rfl : d = c := by simpa [hcurrent] using hacts
    rcases (h.2 w).inHand d (.inl (by simp [Worker.claimed, hcurrent])) with hatt | ⟨j', hj', hd⟩
    · -- the outcome names the attempt that was won, which is no longer the job's
      have hne : ¬ j.attempts = d.attempt := by omega
      simp [finishBackgroundJob, Table.get_updateWhere_self, hj, hne]
    · obtain rfl : j' = j := by simpa [hj] using hj'.symm
      exact hdone hd
  case stopRead => simp [hj]
  case stopRequeue w d hstopping =>
    obtain rfl : d = c := by simpa [hstopping] using hacts
    rcases hok d j hstopping hj with hatt | hrunning
    · omega
    · simp [requeueBackgroundJob, Table.get_updateWhere_self, hj, hrunning]

theorem absorbing_of_run {ok : State ω κ → Action ω κ → Prop}
    {as : List (Action ω κ)} (h : (jobQueue handles).Run ok s as t) : KeepsDone s.jobs t.jobs := by
  induction h with
  | nil => exact .refl _
  | cons hok hstep _ ih => exact (step_cases hstep).keepsDone.trans ih

/-- **The life of a job, in every run whose stopping, handler-less and single-claim steps find the
attempt they won.** -/
theorem lifecycle_of_ownAttempt (ω κ : Type) [DecidableEq ω] [DecidableEq κ]
    (handles : ω → String → Bool) : Lifecycle (κ := κ) handles (OwnAttempt handles) where
  absorbing s as t _ hrun jobId j hj hd := ⟨j, absorbing_of_run hrun jobId j hj hd, rfl⟩
  counted s hs jobId j hj := by
    have hinv : Inv s := hs.invariant inv_keeps fun _ => Inv.of_init
    rw [hinv.1.length jobId, State.attempts, hj, Option.map_some, Option.getD_some]
  wonOnce s hs jobId j hj n h1 hn := by
    have hinv : Inv s := hs.invariant inv_keeps fun _ => Inv.of_init
    have hattempts : s.attempts jobId = j.attempts := by simp [State.attempts, hj]
    obtain ⟨w, hw⟩ := hinv.1.exists h1 (hattempts ▸ hn)
    exact ⟨w, hw, fun v hv => hinv.1.unique hv hw⟩
  inert s a t c hs hok hstep hacts hsup :=
    (hs.invariant inv_keeps fun _ => Inv.of_init).inert hok (step_cases hstep) hacts hsup

/-! ## A worker that stops late -/

/-- A worker is slow to stop: its job goes silent, another worker recovers and claims it, and the
stopping worker gives it back to the queue. -/
def slowStop : List (Action Bool String) :=
  [.enqueue false "bg-1" "import", .claimBatch false 10 ["bg-1"], .start false, .tick 181,
    .recover true 180 3 ["bg-1"], .claimBatch true 10 ["bg-1"], .stopRead false]

/-- Without the guard a superseded worker puts the job back in the queue under its new owner. -/
theorem not_lifecycle :
    ¬ ∀ (ω κ : Type) [DecidableEq ω] [DecidableEq κ] (handles : ω → String → Bool),
      Lifecycle (κ := κ) handles Always := by
  intro h
  obtain ⟨s, hs, hp⟩ := reaches_of_exec (jobQueue fun (_ : Bool) _ => true) Always
    (s := ⟨0, [], fun _ => .idle, []⟩) slowStop
    (fun s => (s.worker false).stopping == some ⟨"bg-1", "import", 1, 1⟩ &&
      ((s.jobs.get "bg-1").map fun j => (j.status, j.attempts)) == some (.running, 2))
    ⟨rfl, rfl, fun _ => rfl⟩ (by decide)
  simp only [Bool.and_eq_true, beq_iff_eq] at hp
  obtain ⟨hstopping, hrow⟩ := hp
  obtain ⟨j, hj, hrow⟩ := Option.map_eq_some_iff.mp hrow
  obtain ⟨hstatus, hattempts⟩ := Prod.mk.inj hrow
  have hinert := (h Bool String fun _ _ => true).inert s (.stopRequeue false) _
    ⟨"bg-1", "import", 1, 1⟩ hs trivial (by simp [jobQueue, step, hstopping]; rfl)
    (by simp [actsFor, hstopping]) (by simp [State.Superseded, State.attempts, hj, hattempts])
  simp [requeueBackgroundJob, Table.get_updateWhere_self, hj, hstatus, Job.requeued] at hinert

end GuruJi.Workers
