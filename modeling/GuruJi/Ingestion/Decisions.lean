import GuruJi.Ingestion.Reviews

/-!
# A review decision is final and its import starts once

`resolve_review_item` updates an item only while it is pending, but `resolve_review` does not ask
whether its update was the one that did; and each call decides for itself, from reads that may be
old, whether it was the last. Two calls on one item may both report success, and two calls on the
last two items may both import the rows (`not_finalDecisions`). When every call finds the item
still pending at its update, and the job still waiting when it marks it ready (`FindsAsRead`),
decisions are final and the import starts at most once (`finalDecisions_of_findsAsRead`).

The invariant: while the job waits for its reviews nobody is engaged in its commit, and whoever is
engaged is alone.
-/

namespace GuruJi.Ingestion

open GuruJi.Lib GuruJi.Lib.Machine

variable {ι : Type} [DecidableEq ι] {items : Table String ReviewItem} {req : ι → Request}

def Phase.Reported (p : Phase) : Prop :=
  p = .finished .returned ∨ p = .handedOver ∨ p = .queueImporting

structure FinalDecisions (ok : State ι → Action ι → Prop) (items : Table String ReviewItem)
    (req : ι → Request) : Prop where
  startsOnce : ∀ s, (reviews items req).Reaches ok s → s.started ≤ 1
  commitsOnce : ∀ s, (reviews items req).Reaches ok s → s.committed ≤ 1
  recordedOnce : ∀ s, (reviews items req).Reaches ok s → ∀ reviewId before after,
    items.get reviewId = some before → before.status = .pending →
    s.items.get reviewId = some after → after.status ≠ .pending →
    ∃! i, (i, reviewId) ∈ s.recorded ∧ reviewDecision (req i).decision = some after.status ∧
      after.resolvedBy = some (req i).resolvedBy
  othersRaise : ∀ s, (reviews items req).Reaches ok s → ∀ i j reviewId,
    (i, reviewId) ∈ s.recorded → (req j).reviewId = reviewId → j ≠ i → ¬ (s.phase j).Reported

/-- A call that updates its item finds it pending, and a call that marks the job ready finds it
still waiting for its duplicate reviews. -/
def FindsAsRead (req : ι → Request) (s : State ι) (a : Action ι) : Prop :=
  ∀ i, a = .call i →
    (s.phase i = .resolving → (reviewDecision (req i).decision).isSome →
      ∀ item, s.items.get (req i).reviewId = some item → item.status = .pending) ∧
    (s.phase i = .markingReady → s.job.stage = .duplicateReview)

/-! ## What a step can do -/

/-- The steps of a call that only read. -/
inductive Moves : Phase → Phase → Prop
  | item : Moves .started .resolving
  | itemRaised (e : Error) : Moves .started (.finished (.raised e))
  | resolveRaised (e : Error) : Moves .resolving (.finished (.raised e))
  | job (stage : Stage) : Moves .readingJob (.listing stage)
  | last (stage : Stage) : Moves (.listing stage) .markingReady
  | notLast (stage : Stage) : Moves (.listing stage) (.finished .returned)
  | requested : Moves .requesting .checking
  | requestRaised (e : Error) : Moves .requesting (.finished (.raised e))
  | checked : Moves .checking .recording
  | checkRaised (e : Error) : Moves .checking (.finished (.raised e))
  | leftAlone : Moves .handedOver (.finished .returned)

inductive Step (req : ι → Request) (s : State ι) : Action ι → State ι → Prop
  | move (i : ι) (q : Phase) (hmove : Moves (s.phase i) q) : Step req s (.call i) (s.at_ i q)
  | resolve (i : ι) (status : ReviewStatus) (item : ReviewItem) (hphase : s.phase i = .resolving)
      (hdecision : reviewDecision (req i).decision = some status)
      (hitem : s.items.get (req i).reviewId = some item) :
      Step req s (.call i) ((s.resolve i (req i) status).at_ i .readingJob)
  | markReady (i : ι) (hphase : s.phase i = .markingReady) :
      Step req s (.call i) ((s.setJob { s.job with status := .ready, stage := .ready }).at_ i
        (if s.job.autoCommit then .requesting else .finished .returned))
  | record (i : ι) (job : Job) (hphase : s.phase i = .recording)
      (hstage : job.stage = .importing) :
      Step req s (.call i) ((s.setJob job).at_ i .handedOver)
  | recordImport (i : ι) (job : Job) (hphase : s.phase i = .recording)
      (hstage : job.stage = .importing) :
      Step req s (.call i) { (s.setJob job).at_ i .importing with started := s.started + 1 }
  | queueImport (i : ι) (hphase : s.phase i = .handedOver) :
      Step req s (.call i) { s.at_ i .queueImporting with started := s.started + 1 }
  | runCommit (i : ι) (rows : Bool) (failure : Option String) (job : Job) (outcome : Outcome)
      (hphase : s.phase i = .importing ∨ s.phase i = .queueImporting)
      (hstage : job.stage ≠ .duplicateReview)
      (hreturned : s.phase i = .importing ∨ outcome = .returned) :
      Step req s (.runCommit i rows failure)
        (({ s.setJob job with committed := s.committed + (if rows then 1 else 0) } : State ι).at_ i
          (.finished outcome))

variable {a : Action ι} {s t : State ι} {p q : Phase} {i : ι}

theorem step_cases (h : step req s a = some t) : Step req s a t := by
  cases a with
  | call i =>
    simp only [step] at h
    split at h
    · rename_i hp
      cases h
      cases hc : itemCheck (req i).reviewId (s.items.get (req i).reviewId) with
      | ok => exact .move i _ (hp ▸ .item)
      | error e => exact .move i _ (hp ▸ .itemRaised e)
    · rename_i hp
      split at h
      · cases h
        exact .move i _ (hp ▸ .resolveRaised _)
      · rename_i status hdecision
        split at h
        · cases h
          exact .move i _ (hp ▸ .resolveRaised _)
        · rename_i item hitem
          cases h
          exact .resolve i status item hp hdecision hitem
    · rename_i hp
      cases h
      exact .move i _ (hp ▸ .job _)
    · rename_i stage hp
      split_ifs at h
      · cases h
        exact .move i _ (hp ▸ .last stage)
      · cases h
        exact .move i _ (hp ▸ .notLast stage)
    · rename_i hp
      cases h
      exact .markReady i hp
    · rename_i hp
      cases h
      cases hc : jobCheck s.job with
      | ok => exact .move i _ (hp ▸ .requested)
      | error e => exact .move i _ (hp ▸ .requestRaised e)
    · rename_i hp
      cases h
      cases hc : pendingCheck (listPending s.items) with
      | ok => exact .move i _ (hp ▸ .checked)
      | error e => exact .move i _ (hp ▸ .checkRaised e)
    · rename_i hp
      split_ifs at h
      · cases h
        exact .record i _ hp rfl
      · cases h
        exact .recordImport i _ hp rfl
    · rename_i hp
      split_ifs at h
      · cases h
        exact .queueImport i hp
      · cases h
        exact .move i _ (hp ▸ .leftAlone)
    · cases h
  | runCommit i rows failure =>
    have hstage : (s.job.afterImport failure).stage ≠ .duplicateReview := by
      cases failure <;> simp [Job.afterImport]
    simp only [step] at h
    split at h
    · rename_i hp
      cases h
      exact .runCommit i rows failure _ _ (.inl hp) hstage (.inl hp)
    · rename_i hp
      cases h
      exact .runCommit i rows failure _ _ (.inr hp) hstage (.inr rfl)
    · cases h

/-! ## The invariant -/

def Phase.Applying (p : Phase) : Prop :=
  p = .requesting ∨ p = .checking ∨ p = .recording ∨ p = .handedOver

def Phase.Importing (p : Phase) : Prop := p = .importing ∨ p = .queueImporting

def Phase.Engaged (p : Phase) : Prop := p.Applying ∨ p.Importing

def Phase.Written (p : Phase) : Prop :=
  p = .readingJob ∨ (∃ stage, p = .listing stage) ∨ p = .markingReady ∨ p.Engaged ∨
    p = .finished .returned

theorem Moves.applying (h : Moves p q) (hq : q.Applying) : p.Applying := by
  cases h <;> simp_all [Phase.Applying]

theorem Moves.not_importing (h : Moves p q) : ¬ q.Importing := by
  cases h <;> simp [Phase.Importing]

theorem Moves.engaged (h : Moves p q) (hq : q.Engaged) : p.Engaged :=
  .inl (h.applying (hq.resolve_right h.not_importing))

theorem Moves.written (h : Moves p q) (hq : q.Written) : p.Written := by
  cases h <;> simp_all [Phase.Written, Phase.Engaged, Phase.Applying, Phase.Importing]

theorem Phase.Reported.written {p : Phase} (h : p.Reported) : p.Written := by
  rcases h with rfl | rfl | rfl <;> simp [Phase.Written, Phase.Engaged, Phase.Applying, Phase.Importing]

/-- Who commits the job. -/
structure CommitInv (s : State ι) : Prop where
  alone : ∀ i j, (s.phase i).Engaged → (s.phase j).Engaged → i = j
  applying : ∀ i, (s.phase i).Applying → s.started = 0
  importing : ∀ i, (s.phase i).Importing → s.committed = 0 ∧ s.started = 1
  bounds : s.committed ≤ s.started ∧ s.started ≤ 1
  waiting : s.job.stage = .duplicateReview → s.started = 0 ∧ ∀ i, ¬ (s.phase i).Engaged

/-- Whose decisions are recorded. -/
structure DecisionInv (items : Table String ReviewItem) (req : ι → Request) (s : State ι) : Prop where
  written : ∀ i, (s.phase i).Written → (i, (req i).reviewId) ∈ s.recorded
  once : ∀ i j reviewId, (i, reviewId) ∈ s.recorded → (j, reviewId) ∈ s.recorded → i = j
  decided : ∀ i reviewId, (i, reviewId) ∈ s.recorded → ∃ item, s.items.get reviewId = some item ∧
    item.status ≠ .pending ∧ reviewDecision (req i).decision = some item.status ∧
    item.resolvedBy = some (req i).resolvedBy
  kept : ∀ reviewId before after, items.get reviewId = some before → before.status = .pending →
    s.items.get reviewId = some after → after.status ≠ .pending → ∃ i, (i, reviewId) ∈ s.recorded

/-- A call that takes no part in the commit from here on, over counters as they were. -/
theorem CommitInv.leave (h : CommitInv s) {q : Phase} (hphase : t.phase = Function.update s.phase i q)
    (hq : q.Engaged → (s.phase i).Engaged) (hq' : q.Applying → (s.phase i).Applying)
    (hq'' : ¬ q.Importing) (hstarted : t.started = s.started) (hcommitted : t.committed = s.committed)
    (hstage : t.job.stage = .duplicateReview → s.job.stage = .duplicateReview) : CommitInv t := by
  have hengaged : ∀ j, (t.phase j).Engaged → (s.phase j).Engaged := by
    intro j hj
    rw [hphase, Function.update_apply] at hj
    split_ifs at hj with hij
    · exact hij ▸ hq hj
    · exact hj
  refine ⟨fun j k hj hk => h.alone j k (hengaged j hj) (hengaged k hk), fun j hj => ?_,
    fun j hj => ?_, hstarted ▸ hcommitted ▸ h.bounds, fun hs => ?_⟩
  · rw [hphase, Function.update_apply] at hj
    rw [hstarted]
    split_ifs at hj with hij
    · exact h.applying i (hq' hj)
    · exact h.applying j hj
  · rw [hphase, Function.update_apply] at hj
    rw [hcommitted, hstarted]
    split_ifs at hj with hij
    · exact absurd hj hq''
    · exact h.importing j hj
  · obtain ⟨hzero, hnone⟩ := h.waiting (hstage hs)
    exact ⟨hstarted ▸ hzero, fun j hj => hnone j (hengaged j hj)⟩

theorem CommitInv.only {t : State ι} (hother : ∀ j, j ≠ i → ¬ (t.phase j).Engaged)
    (happlying : (t.phase i).Applying → t.started = 0)
    (himporting : (t.phase i).Importing → t.committed = 0 ∧ t.started = 1)
    (hbounds : t.committed ≤ t.started ∧ t.started ≤ 1)
    (hstage : t.job.stage ≠ .duplicateReview) : CommitInv t := by
  have honly : ∀ j, (t.phase j).Engaged → j = i := by
    intro j hj
    by_contra hij
    exact hother j hij hj
  refine ⟨fun j k hj hk => (honly j hj).trans (honly k hk).symm, fun j hj => ?_, fun j hj => ?_,
    hbounds, fun hs => absurd hs hstage⟩
  · obtain rfl := honly j (.inl hj)
    exact happlying hj
  · obtain rfl := honly j (.inr hj)
    exact himporting hj

theorem CommitInv.others {s : State ι} (h : CommitInv s) (hi : (s.phase i).Engaged) (q : Phase)
    (j : ι) (hij : j ≠ i) : ¬ (Function.update s.phase i q j).Engaged := by
  rw [Function.update_apply, if_neg hij]
  exact fun hj => hij (h.alone j i hj hi)

theorem CommitInv.step (h : CommitInv s) (hok : FindsAsRead req s a)
    (hst : Step req s a t) : CommitInv t := by
  cases hst with
  | move i q hmove =>
    exact h.leave rfl hmove.engaged hmove.applying hmove.not_importing rfl rfl id
  | resolve i status item hphase =>
    refine h.leave rfl ?_ ?_ ?_ rfl rfl id <;>
      simp [Phase.Engaged, Phase.Applying, Phase.Importing]
  | markReady i hphase =>
    -- the job was still waiting, so nobody is engaged in its commit
    obtain ⟨hzero, hnone⟩ := h.waiting ((hok i rfl).2 hphase)
    refine .only (i := i) (fun j hij => ?_) (fun _ => hzero) (fun himp => ?_) h.bounds (by
      simp [State.setJob])
    · rw [State.at_phase, if_neg hij]
      exact hnone j
    · rw [State.at_phase_self] at himp
      cases hauto : s.job.autoCommit <;> simp [hauto, Phase.Importing] at himp
  | record i job hphase hstage =>
    have hi : (s.phase i).Applying := by simp [Phase.Applying, hphase]
    have hb := h.bounds
    refine .only (i := i) (h.others (.inl hi) _) (fun _ => h.applying i hi) (fun himp => ?_) hb ?_
    · simp [State.at_phase, Phase.Importing] at himp
    · simp [State.setJob, hstage]
  | recordImport i job hphase hstage =>
    have hi : (s.phase i).Applying := by simp [Phase.Applying, hphase]
    have hzero := h.applying i hi
    have hb := h.bounds
    refine .only (i := i) (h.others (.inl hi) _) (fun happ => ?_) (fun _ => ?_) ?_ ?_
    · simp [State.at_, Phase.Applying] at happ
    · simp only [State.at_, State.setJob]
      omega
    · simp only [State.at_, State.setJob]
      omega
    · simp [State.at_, State.setJob, hstage]
  | queueImport i hphase =>
    have hi : (s.phase i).Applying := by simp [Phase.Applying, hphase]
    have hzero := h.applying i hi
    have hb := h.bounds
    by_cases hstage : s.job.stage = .duplicateReview
    · exact absurd (.inl hi) ((h.waiting hstage).2 i)
    · refine .only (i := i) (h.others (.inl hi) _) (fun happ => ?_) (fun _ => ?_) ?_ hstage
      · simp [State.at_, Phase.Applying] at happ
      · simp only [State.at_]
        omega
      · simp only [State.at_]
        omega
  | runCommit i rows failure job outcome hphase hstage =>
    have hi : (s.phase i).Importing := hphase
    obtain ⟨hzero, hone⟩ := h.importing i hi
    refine .only (i := i) (h.others (.inr hi) _) (fun happ => ?_) (fun himp => ?_) ?_ hstage
    · simp [State.at_, Phase.Applying] at happ
    · simp [State.at_, Phase.Importing] at himp
    · cases rows <;> simp [State.setJob, hzero, hone]

omit [DecidableEq ι] in
theorem DecisionInv.congr (h : DecisionInv items req s)
    (hwritten : ∀ i, (t.phase i).Written → (s.phase i).Written) (hitems : t.items = s.items)
    (hrecorded : t.recorded = s.recorded) : DecisionInv items req t where
  written i hi := hrecorded ▸ h.written i (hwritten i hi)
  once := hrecorded ▸ h.once
  decided := hrecorded ▸ hitems ▸ h.decided
  kept := hrecorded ▸ hitems ▸ h.kept

theorem written_of_update {q : Phase}
    (hphase : t.phase = Function.update s.phase i q) (hq : q.Written → (s.phase i).Written) (j : ι)
    (hj : (t.phase j).Written) : (s.phase j).Written := by
  rw [hphase, Function.update_apply] at hj
  split_ifs at hj with hij
  · exact hij ▸ hq hj
  · exact hj

theorem reviewDecision_ne_pending {decision : String} {status : ReviewStatus}
    (h : reviewDecision decision = some status) : status ≠ .pending := by
  rw [reviewDecision] at h
  split_ifs at h <;> cases h <;> simp

/-- The update of a pending item: the first decision recorded for it, and the row says so. -/
theorem DecisionInv.resolve {s : State ι} (h : DecisionInv items req s) {status : ReviewStatus}
    {item : ReviewItem} (hdecision : reviewDecision (req i).decision = some status)
    (hitem : s.items.get (req i).reviewId = some item) (hpending : item.status = .pending) :
    DecisionInv items req ((s.resolve i (req i) status).at_ i .readingJob) := by
  have hne := reviewDecision_ne_pending hdecision
  have hrecorded : (s.resolve i (req i) status).recorded = (i, (req i).reviewId) :: s.recorded := by
    simp [State.resolve, Table.hits, hitem, hpending]
  have hitems : (s.resolve i (req i) status).items = resolveReviewItem s.items (req i) status := rfl
  have hrow : (resolveReviewItem s.items (req i) status).get (req i).reviewId = some
      { item with status := status, resolvedBy := some (req i).resolvedBy,
                  note := some (req i).note } := by
    simp [resolveReviewItem, Table.get_updateWhere_self, hitem, hpending]
  have hothers : ∀ k, k ≠ (req i).reviewId →
      (resolveReviewItem s.items (req i) status).get k = s.items.get k :=
    fun k hk => Table.get_updateWhere_ne _ _ _ hk
  -- nobody decided a pending item before
  have hfresh : ∀ j, (j, (req i).reviewId) ∉ s.recorded := by
    intro j hj
    obtain ⟨item', hitem', hnot, -⟩ := h.decided j _ hj
    rw [hitem] at hitem'
    exact hnot (Option.some.inj hitem' ▸ hpending)
  refine ⟨fun j hj => ?_, fun j k reviewId hj hk => ?_, fun j reviewId hj => ?_,
    fun reviewId before after hbefore hpend hafter hdone => ?_⟩
  · rw [State.at_recorded, hrecorded]
    rw [State.at_phase] at hj
    split_ifs at hj with hij
    · rw [hij]
      exact List.mem_cons_self
    · exact List.mem_cons_of_mem _ (h.written j hj)
  · rw [State.at_recorded, hrecorded] at hj hk
    rcases List.mem_cons.mp hj with hj | hj <;> rcases List.mem_cons.mp hk with hk | hk
    · exact (Prod.mk.inj hj).1.trans (Prod.mk.inj hk).1.symm
    · exact absurd ((Prod.mk.inj hj).2 ▸ hk) (hfresh k)
    · exact absurd ((Prod.mk.inj hk).2 ▸ hj) (hfresh j)
    · exact h.once j k reviewId hj hk
  · rw [State.at_recorded, hrecorded] at hj
    rw [State.at_items, hitems]
    rcases List.mem_cons.mp hj with hj | hj
    · obtain ⟨rfl, rfl⟩ := Prod.mk.inj hj
      exact ⟨_, hrow, hne, hdecision, rfl⟩
    · have hk : reviewId ≠ (req i).reviewId := by
        rintro rfl
        exact hfresh j hj
      rw [hothers reviewId hk]
      exact h.decided j reviewId hj
  · rw [State.at_recorded, hrecorded]
    rw [State.at_items, hitems] at hafter
    by_cases hk : reviewId = (req i).reviewId
    · exact ⟨i, hk ▸ List.mem_cons_self⟩
    · rw [hothers reviewId hk] at hafter
      obtain ⟨j, hj⟩ := h.kept reviewId before after hbefore hpend hafter hdone
      exact ⟨j, List.mem_cons_of_mem _ hj⟩

theorem DecisionInv.step (h : DecisionInv items req s)
    (hok : FindsAsRead req s a) (hst : Step req s a t) : DecisionInv items req t := by
  cases hst with
  | move i q hmove => exact h.congr (written_of_update rfl hmove.written) rfl rfl
  | resolve i status item hphase hdecision hitem =>
    refine h.resolve hdecision hitem ?_
    exact (hok i rfl).1 hphase (by simp [hdecision]) item hitem
  | markReady i hphase | record i job hphase | recordImport i job hphase | queueImport i hphase =>
    refine h.congr (written_of_update (i := i) rfl fun _ => ?_) rfl rfl
    simp [Phase.Written, Phase.Engaged, Phase.Applying, hphase]
  | runCommit i rows failure job outcome hphase =>
    refine h.congr (written_of_update (i := i) rfl fun _ => ?_) rfl rfl
    exact .inr (.inr (.inr (.inl (.inr hphase))))

/-! ## The runs in which every call finds what it read -/

def Inv (items : Table String ReviewItem) (req : ι → Request) (s : State ι) : Prop :=
  CommitInv s ∧ DecisionInv items req s

theorem inv_keeps : (reviews items req).Keeps (FindsAsRead req) (Inv items req) :=
  fun _ _ _ h hok hstep => ⟨h.1.step hok (step_cases hstep), h.2.step hok (step_cases hstep)⟩

theorem Inv.of_init {s : State ι} (h : (reviews items req).init s) : Inv items req s := by
  obtain ⟨hitems, -, -, hphase, hrecorded, hstarted, hcommitted⟩ := h
  refine ⟨?_, ?_⟩
  · constructor <;> simp [hphase, hstarted, hcommitted, Phase.Engaged, Phase.Applying, Phase.Importing]
  · refine ⟨fun i hi => ?_, by simp [hrecorded], by simp [hrecorded], ?_⟩
    · simp [hphase, Phase.Written, Phase.Engaged, Phase.Applying, Phase.Importing] at hi
    · intro reviewId before after hbefore hpending hafter hdone
      rw [hitems, hbefore] at hafter
      exact absurd (Option.some.inj hafter ▸ hpending) hdone

/-- **Decisions are final and the import starts at most once, in every run whose calls find what
they read.** -/
theorem finalDecisions_of_findsAsRead (ι : Type) [DecidableEq ι] (items : Table String ReviewItem)
    (req : ι → Request) : FinalDecisions (FindsAsRead req) items req := by
  have hinv : ∀ s, (reviews items req).Reaches (FindsAsRead req) s → Inv items req s :=
    fun s hs => hs.invariant inv_keeps fun _ => Inv.of_init
  refine ⟨fun s hs => (hinv s hs).1.bounds.2, fun s hs => ?_, fun s hs reviewId before after hbefore
    hpending hafter hdone => ?_, fun s hs i j reviewId hi hj hne hreported => ?_⟩
  · have hb := (hinv s hs).1.bounds
    omega
  · obtain ⟨i, hi⟩ := (hinv s hs).2.kept reviewId before after hbefore hpending hafter hdone
    obtain ⟨item, hitem, -, hdecision, hby⟩ := (hinv s hs).2.decided i reviewId hi
    obtain rfl : item = after := Option.some.inj (hitem.symm.trans hafter)
    exact ⟨i, ⟨hi, hdecision, hby⟩, fun j hj => (hinv s hs).2.once j i reviewId hj.1 hi⟩
  · have hwritten := (hinv s hs).2.written j hreported.written
    exact hne ((hinv s hs).2.once j i reviewId (hj ▸ hwritten) hi)

/-! ## Two reviewers at once -/

/-- Two reviewers decide the last two items of a job that commits by itself. -/
def lastTwo : Bool → Request
  | false => ⟨"review-1", "approved", "r1", "", true⟩
  | true => ⟨"review-2", "rejected", "r2", "", true⟩

def twoPending : Table String ReviewItem :=
  [("review-1", ⟨.duplicate, .pending, none, none⟩), ("review-2", ⟨.duplicate, .pending, none, none⟩)]

/-- Both have written and read the job before either looks at the pending items, so each takes
itself for the last; the first import is done before the second call marks the job ready again. -/
def bothLast : List (Action Bool) :=
  [.call false, .call false, .call true, .call true, .call false, .call true, .call false, .call true] ++
    List.replicate 5 (.call false) ++ [.runCommit false true none] ++
    List.replicate 5 (.call true) ++ [.runCommit true true none]

/-- Without the guard the rows of one job are committed twice. -/
theorem not_finalDecisions :
    ¬ ∀ (ι : Type) [DecidableEq ι] (items : Table String ReviewItem) (req : ι → Request),
      FinalDecisions Always items req := by
  intro h
  obtain ⟨s, hs, htwo⟩ := reaches_of_exec (reviews twoPending lastTwo) Always
    (s := ⟨twoPending, ⟨.needsReview, .duplicateReview, true, none, none⟩, fun _ => .started, [], 0, 0⟩)
    bothLast (fun s => s.committed == 2)
    ⟨rfl, rfl, rfl, fun _ => rfl, rfl, rfl, rfl⟩ (by decide)
  have hone := (h Bool twoPending lastTwo).commitsOnce s hs
  simp only [beq_iff_eq] at htwo
  omega

end GuruJi.Ingestion
