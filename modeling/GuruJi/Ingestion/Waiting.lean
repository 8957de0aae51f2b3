import GuruJi.Ingestion.Pipeline

/-!
# Nothing is imported past an open question

* `Sound`: what holds of a job between its calls; in particular no question is open once its rows
  are imported, or their import is recorded.
-/

namespace GuruJi.Ingestion.Pipeline

open GuruJi.Lib GuruJi.Records Fallible

variable {N ν : Type} {service : IngestionService N ν} {a : Answers N ν} {s t : PipelineState N ν}
  {stepping : Bool}

def NoPending (s : PipelineState N ν) : Prop := ∀ item ∈ s.items, item.status ≠ .pending

/-- A job that waits for somebody, or for its next call. -/
def Settled (s : PipelineState N ν) : Prop :=
  s.job.status = .failed ∨ s.job.status = .needsReview ∨ s.job.status = .ready

def Imported (s : PipelineState N ν) : Prop :=
  s.job.status = .imported ∧ NoPending s ∧ s.job.error = none

/-- The rows `after` are those of before, or normalising wrote all of them that it read, each with the
values it was parsed from. -/
def Normalised (service : IngestionService N ν) (before after : List (JobRecord N ν)) : Prop :=
  after = before ∨ ∃ result, after = judgedRows result (readRows service.maxRows before)

/-- What holds of a job between its calls. -/
structure Sound (s : PipelineState N ν) : Prop where
  imported : s.job.status = .imported → NoPending s ∧ s.job.error = none
  importing : s.job.status = .processing → s.job.stage = .importing → NoPending s
  quiet : s.job.status = .queued ∨ s.job.status = .processing → s.job.error = none

theorem Settled.sound (h : Settled s) : Sound s where
  imported := by rcases h with h | h | h <;> simp [h]
  importing := by rcases h with h | h | h <;> simp [h]
  quiet := by rcases h with h | h | h <;> simp [h]

theorem Imported.sound (h : Imported s) : Sound s where
  imported := fun _ => h.2
  importing := fun hs => by simp [h.1] at hs
  quiet := fun hs => by simp [h.1] at hs

/-! ## The checks -/

variable {R : Exn → PipelineState N ν → Prop} {before : List (JobRecord N ν)} {job : PipelineJob}

theorem yields_answer {α : Type} {result : Except Failure α} {Q : α → PipelineState N ν → Prop}
    (hok : ∀ x, result = .ok x → Q x s)
    (herror : ∀ e, R (.met e) s) : Yields stepping s (answer result) Q R := by
  cases result with
  | ok x => exact yields_pure (hok x rfl)
  | error e => exact yields_raise (herror e)

theorem yields_check {α : Type} {result : Except Error α} {Q : α → PipelineState N ν → Prop}
    (hok : ∀ x, result = .ok x → Q x s)
    (herror : ∀ e, result = .error e → R (.raised e) s) : Yields stepping s (check result) Q R := by
  cases result with
  | ok x => exact yields_pure (hok x rfl)
  | error e => exact yields_raise (herror e rfl)

theorem yields_canonicalEntity {entity : Option String} {Q : EntityFields → PipelineState N ν → Prop}
    (hok : ∀ definition, Q definition s)
    (herror : ∀ message, R (.raised (.keyError message)) s) :
    Yields stepping s (canonicalEntity service entity) Q R := by
  unfold canonicalEntity
  cases entity.bind service.entities.get with
  | some definition => exact yields_pure (hok definition)
  | none => exact yields_raise (herror _)

theorem jobCheck_error {job : Job} {e : Error} (h : jobCheck job = .error e) :
    Exn.isCommitError (.raised e) = false := by
  unfold jobCheck at h
  split_ifs at h <;> cases h <;> rfl

theorem pendingCheck_error {pending : List ReviewItem} {e : Error}
    (h : pendingCheck pending = .error e) : Exn.isCommitError (.raised e) = false := by
  unfold pendingCheck at h
  dsimp only at h
  split_ifs at h <;> cases h <;> rfl

theorem pendingCheck_ok {pending : List ReviewItem} (h : pendingCheck pending = .ok ()) :
    pending = [] := by
  unfold pendingCheck at h
  dsimp only at h
  split_ifs at h with hmapping hduplicates
  refine List.eq_nil_iff_forall_not_mem.mpr fun item hitem => ?_
  have hkind : item.kind ≠ .mapping := fun hk => hmapping
    (List.any_eq_true.mpr ⟨item, hitem, by simp [hk]⟩)
  have hcount := List.countP_eq_zero.mp (not_not.mp hduplicates) item hitem
  cases hk : item.kind <;> simp_all

theorem noPending_of_pendingItems (h : (pendingItems s.items).take 200 = []) : NoPending s := by
  intro item hitem hpending
  have hnil : pendingItems s.items = [] := by
    cases hitems : pendingItems s.items with
    | nil => rfl
    | cons e l => simp [hitems] at h
  obtain ⟨i, hi, rfl⟩ := List.mem_iff_getElem.mp hitem
  have hmem : (s.items[i], i) ∈ pendingItems s.items :=
    List.mem_filter.mpr ⟨List.mem_zipIdx_iff_getElem?.mpr (List.getElem?_eq_getElem hi),
      by simp [hpending]⟩
  rw [hnil] at hmem
  exact List.not_mem_nil hmem

/-! ## Importing -/

theorem requestCommit_yields (s : PipelineState N ν) (committedBy : String) :
    Yields stepping s (requestCommit committedBy)
      (fun job t => job = t.job ∧ t.job.status = .processing ∧ t.job.stage = .importing ∧
        t.job.error = none ∧ NoPending t ∧ t.rows = s.rows)
      (fun e t => e.isCommitError = false ∧ t.rows = s.rows ∧ (stepping = false → t = s)) := by
  unfold requestCommit
  refine yields_bind (yields_read ?_ fun h _ => ⟨rfl, rfl, by simp [h]⟩)
  refine yields_bind (yields_check (fun _ _ => ?_) fun e he => ⟨jobCheck_error he, rfl, fun _ => rfl⟩)
  refine yields_bind (yields_read ?_ fun h _ => ⟨rfl, rfl, by simp [h]⟩)
  refine yields_bind (yields_check (fun _ hpending => ?_) fun e he =>
    ⟨pendingCheck_error he, rfl, fun _ => rfl⟩)
  refine yields_call ?_ fun h _ => ⟨⟨rfl, rfl, by simp [h]⟩, rfl, rfl, by simp [h]⟩
  exact ⟨rfl, rfl, rfl, rfl,
    noPending_of_pendingItems (s := s) (List.map_eq_nil_iff.mp (pendingCheck_ok hpending)), rfl⟩

theorem importJob_yields (s : PipelineState N ν) (job : PipelineJob) :
    Yields true s (importJob service a job)
      (fun row t => row = t.job ∧ t.job.status = .imported ∧ t.job.error = s.job.error ∧
        t.items = s.items ∧ t.rows = s.rows)
      (fun e t => e.isCommitError = false ∧ t.items = s.items ∧ t.rows = s.rows) := by
  unfold importJob
  refine yields_bind (yields_canonicalEntity (fun _ => ?_) fun _ => ⟨rfl, rfl, rfl⟩)
  refine yields_bind (yields_read ?_ fun _ _ => ⟨rfl, rfl, rfl⟩)
  refine yields_bind (yields_read ?_ fun _ _ => ⟨rfl, rfl, rfl⟩)
  refine yields_bind (yields_answer (fun _ _ => ?_) fun _ => ⟨rfl, rfl, rfl⟩)
  exact yields_call ⟨rfl, rfl, rfl, rfl, rfl⟩ fun _ _ => ⟨⟨rfl, rfl, rfl⟩, rfl, rfl, rfl⟩

/-- An import that fails leaves the job ready; what else is raised was met while it recorded that. -/
theorem runCommit_yields (s : PipelineState N ν) : Yields stepping s (runCommit service a)
      (fun row t => row = t.job ∧ t.job.status = .imported ∧ t.job.error = s.job.error ∧
        t.items = s.items ∧ t.rows = s.rows)
      (fun e t => (e.isCommitError = true → t.job.status = .ready) ∧
        (stepping = false → e.isProcessingError = true ∧ t.job.status = .ready) ∧
        t.rows = s.rows) := by
  unfold runCommit
  refine yields_bind (yields_read ?_ fun h _ => ⟨by simp [Exn.isCommitError], by simp [h], rfl⟩)
  refine yields_bind (yields_attempt (yields_mono (importJob_yields s s.job) ?_ ?_))
  · exact fun row t h => yields_pure h
  · rintro e t ⟨-, -, hrows⟩
    refine yields_bind (yields_call (yields_raise ⟨fun _ => rfl, fun _ => ⟨rfl, rfl⟩, hrows⟩) ?_)
    exact fun h _ => ⟨⟨by simp [Exn.isCommitError], by simp [h], hrows⟩,
      by simp [Exn.isCommitError], by simp [h], hrows⟩

theorem commit_yields (s : PipelineState N ν) (committedBy : String) :
    Yields stepping s (commit service a committedBy)
      (fun row t => row = t.job ∧ Imported t ∧ t.rows = s.rows)
      (fun e t => (e.isCommitError = true → t.job.status = .ready) ∧
        (stepping = false → t = s ∨ t.job.status = .ready) ∧ t.rows = s.rows) := by
  unfold commit
  refine yields_bind (yields_mono (requestCommit_yields s committedBy) ?_ ?_)
  · rintro job t ⟨-, -, -, herror, hpending, hrows⟩
    refine yields_mono (runCommit_yields t) ?_ ?_
    · rintro row u ⟨hrow, hstatus, herror', hitems, hrows'⟩
      refine ⟨hrow, ⟨hstatus, ?_, herror'.trans herror⟩, hrows'.trans hrows⟩
      unfold NoPending
      rwa [hitems]
    · exact fun e u h => ⟨h.1, fun hstepping => .inr (h.2.1 hstepping).2, h.2.2.trans hrows⟩
  · exact fun e t h => ⟨by simp [h.1], fun hstepping => .inl (h.2.2 hstepping), h.2.1⟩

/-! ## Normalising -/

/-- What a step leaves that returns the job: where it stopped, and the rows. -/
structure Left (service : IngestionService N ν) (before : List (JobRecord N ν)) (job : PipelineJob)
    (t : PipelineState N ν) : Prop where
  returned : job = t.job
  stopped : Settled t ∨ Imported t
  rows : Normalised service before t.rows

/-- What a step leaves that raises. -/
structure Broken (service : IngestionService N ν) (before : List (JobRecord N ν)) (e : Exn)
    (t : PipelineState N ν) : Prop where
  commit : e.isCommitError = true → t.job.status = .ready
  rows : Normalised service before t.rows

theorem Broken.same {e : Exn} (he : e.isCommitError = false)
    (hrows : t.rows = before) : Broken service before e t :=
  ⟨by simp [he], .inl hrows⟩

theorem Left.trans (hrows : s.rows = before)
    (h : Left service s.rows job t) : Left service before job t := hrows ▸ h

theorem Broken.trans {e : Exn} (hrows : s.rows = before)
    (h : Broken service s.rows e t) : Broken service before e t := hrows ▸ h

/-- Normalising writes every row it read, or none, before it says where the job stands. -/
theorem normalizeJob_yields (s : PipelineState N ν) (job : PipelineJob)
    (mapping : Table String String) {beforeCommit : Program N ν Unit}
    (hbefore : ∀ t, Yields true t beforeCommit (fun _ u => u = t)
      (fun e u => e.isCommitError = false ∧ u = t)) :
    Yields true s (normalizeJob service a job mapping beforeCommit)
      (Left service s.rows) (Broken service s.rows) := by
  unfold normalizeJob
  refine yields_bind (yields_canonicalEntity (fun _ => ?_) fun _ => .same rfl rfl)
  refine yields_bind (yields_read ?_ fun _ _ => .same rfl rfl)
  refine yields_bind (yields_answer (fun result _ => ?_) fun _ => .same rfl rfl)
  -- from here on the rows are written
  have hrows : Normalised service s.rows (judgedRows result (readRows service.maxRows s.rows)) :=
    .inr ⟨result, rfl⟩
  have hmet : ∀ (f : Failure) (t : PipelineState N ν),
      t.rows = judgedRows result (readRows service.maxRows s.rows) →
      Broken service s.rows (.met f) t :=
    fun f t ht => ⟨by simp [Exn.isCommitError], ht ▸ hrows⟩
  refine yields_bind (yields_call ?_ fun _ f => ⟨.same rfl rfl, hmet f _ rfl⟩)
  dsimp only
  split_ifs
  · exact yields_call ⟨rfl, .inl (.inl rfl), hrows⟩ fun _ f => ⟨hmet f _ rfl, hmet f _ rfl⟩
  · refine yields_bind (yields_call ?_ fun _ f => ⟨hmet f _ rfl, hmet f _ rfl⟩)
    exact yields_call ⟨rfl, .inl (.inr (.inl rfl)), hrows⟩ fun _ f => ⟨hmet f _ rfl, hmet f _ rfl⟩
  · refine yields_bind (yields_call ?_ fun _ f => ⟨hmet f _ rfl, hmet f _ rfl⟩)
    refine yields_bind (yields_mono (hbefore _) ?_ ?_)
    · rintro _ t rfl
      split_ifs
      · refine yields_mono (commit_yields _ _) ?_ ?_
        · exact fun row u h => ⟨h.1, .inr h.2.1, h.2.2 ▸ hrows⟩
        · exact fun e u h => ⟨h.1, h.2.2 ▸ hrows⟩
      · exact yields_pure ⟨rfl, .inl (.inr (.inr rfl)), hrows⟩
    · rintro e t ⟨he, rfl⟩
      exact ⟨by simp [he], hrows⟩

theorem resolveAll_yields (s : PipelineState N ν) (items : List (Question × Nat))
    (status : ReviewStatus) (resolvedBy : String) (note : Option String) :
    Yields stepping s (resolveAll items status resolvedBy note)
      (fun _ t => t.job = s.job ∧ t.rows = s.rows)
      (fun e t => e.isCommitError = false ∧ t.rows = s.rows ∧ stepping = true) := by
  unfold resolveAll
  refine yields_forM (I := fun t : PipelineState N ν => t.job = s.job ∧ t.rows = s.rows) ⟨rfl, rfl⟩ ?_
  intro e _ t ht
  exact yields_bind (yields_call (yields_pure ht) fun h _ =>
    ⟨⟨rfl, ht.2, h⟩, rfl, ht.2, h⟩)

theorem closePendingReviews_yields (s : PipelineState N ν) (note : String) :
    Yields stepping s (closePendingReviews note)
      (fun _ t => t.job = s.job ∧ t.rows = s.rows)
      (fun e t => e.isCommitError = false ∧ t.rows = s.rows ∧ stepping = true) := by
  unfold closePendingReviews
  exact yields_bind (yields_read (resolveAll_yields s _ _ _ _) fun h _ => ⟨rfl, rfl, h⟩)

theorem rememberOnce_yields (s : PipelineState N ν) (remember : Bool) :
    Yields stepping s (rememberOnce remember) (fun _ t => t = s)
      (fun e t => e.isCommitError = false ∧ t = s ∧ stepping = true) := by
  unfold rememberOnce
  split_ifs
  · exact yields_bind (yields_read (yields_pure rfl) fun h _ => ⟨rfl, rfl, h⟩)
  · exact yields_pure rfl

theorem normalizeApproved_yields (s : PipelineState N ν) (job : PipelineJob) (remember : Bool) :
    Yields true s (normalizeApproved service a job (rememberOnce remember))
      (Left service s.rows) (Broken service s.rows) := by
  unfold normalizeApproved
  refine yields_bind (yields_mono (closePendingReviews_yields s _) ?_ ?_)
  · rintro _ t ⟨-, hrows⟩
    refine yields_mono (normalizeJob_yields t job _ fun u => ?_)
      (fun _ _ h => h.trans hrows) fun _ _ h => h.trans hrows
    exact yields_mono (rememberOnce_yields u _) (fun _ _ h => h) fun _ _ h => ⟨h.1, h.2.1⟩
  · exact fun e t h => .same h.1 h.2.1

theorem isProcessingError_of_isCommitError {e : Exn} (h : e.isCommitError = true) :
    e.isProcessingError = true := by
  cases e with
  | raised e => cases e <;> first | rfl | cases h
  | processingError _ => rfl
  | met _ => cases h

theorem runApprovedMapping_yields (s : PipelineState N ν) :
    Yields false s (runApprovedMapping service a) (Left service s.rows)
      (fun e t => e.isProcessingError = true ∧ Settled t ∧ Normalised service s.rows t.rows) := by
  unfold runApprovedMapping
  refine yields_bind (yields_read ?_ nofun)
  refine yields_bind (yields_attempt (yields_mono (normalizeApproved_yields s s.job _) ?_ ?_))
  · intro row t h
    refine yields_bind (yields_mono (rememberOnce_yields t _) ?_ fun _ _ h => nomatch h.2.2)
    rintro _ u rfl
    exact yields_pure h
  · intro e t h
    dsimp only
    split_ifs with hcommit
    · refine yields_bind (yields_mono (rememberOnce_yields t _) ?_ fun _ _ h => nomatch h.2.2)
      rintro _ u rfl
      exact yields_raise ⟨isProcessingError_of_isCommitError hcommit,
        .inr (.inr (h.commit hcommit)), h.rows⟩
    · exact yields_bind (yields_call (yields_raise ⟨rfl, .inl rfl, h.rows⟩) nofun)

/-! ## Mapping -/

theorem savedProfile_yields (s : PipelineState N ν) (review : Bool) :
    Yields stepping s (savedProfile a review) (fun _ t => t = s)
      (fun e t => e.isCommitError = false ∧ t = s) := by
  unfold savedProfile
  split_ifs
  · exact yields_pure rfl
  · exact yields_read rfl fun _ _ => ⟨rfl, rfl⟩

theorem proposalMissing_yields (s : PipelineState N ν) (proposal : Proposal) :
    Yields stepping s (proposalMissing service proposal) (fun _ t => t = s)
      (fun e t => e.isCommitError = false ∧ t = s) := by
  unfold proposalMissing
  exact yields_bind (yields_canonicalEntity (fun _ => yields_pure rfl) fun _ => ⟨rfl, rfl⟩)

theorem propose_yields (s : PipelineState N ν) (headers : List String)
    (records : List (JobRecord N ν)) (hint : Option String) (profile : Option Profile) :
    Yields stepping s (propose service a headers records hint profile) (fun _ t => t = s)
      (fun e t => e.isCommitError = false ∧ t = s) := by
  unfold propose
  refine yields_bind (yields_answer (fun proposal _ => ?_) fun _ => ⟨rfl, rfl⟩)
  refine yields_bind (yields_mono (proposalMissing_yields s proposal) ?_ fun _ _ h => h)
  rintro missing _ rfl
  split_ifs
  · refine yields_bind (yields_answer (fun afresh _ => ?_) fun _ => ⟨rfl, rfl⟩)
    refine yields_bind (yields_mono (proposalMissing_yields _ afresh) ?_ fun _ _ h => h)
    rintro _ _ rfl
    exact yields_pure rfl
  · exact yields_pure rfl

theorem mapJob_yields (s : PipelineState N ν) (job : PipelineJob) (records : List (JobRecord N ν))
    (forceReview : Bool) :
    Yields true s (mapJob service a job records forceReview)
      (Left service s.rows) (Broken service s.rows) := by
  unfold mapJob
  dsimp only
  refine yields_bind (yields_mono (savedProfile_yields s _) ?_ fun e _ h => .same h.1 (h.2 ▸ rfl))
  rintro profile _ rfl
  refine yields_bind (yields_mono (propose_yields _ _ _ _ _) ?_ fun e _ h => .same h.1 (h.2 ▸ rfl))
  rintro ⟨proposal, missing⟩ _ rfl
  dsimp only
  split_ifs
  · refine yields_bind (yields_call ?_ fun _ _ => ⟨.same rfl rfl, .same rfl rfl⟩)
    exact yields_call ⟨rfl, .inl (.inr (.inl rfl)), .inl rfl⟩ fun _ _ => ⟨.same rfl rfl, .same rfl rfl⟩
  · refine yields_bind (yields_call ?_ fun _ _ => ⟨.same rfl rfl, .same rfl rfl⟩)
    exact normalizeJob_yields _ _ _ fun _ => yields_pure rfl

/-! ## Processing -/

/-- A recorded step runs again, and what it could not do is on the job; otherwise nothing happened. -/
theorem resume_yields (s : PipelineState N ν)
    (himporting : s.job.stage = .importing → NoPending s ∧ s.job.error = none) :
    Yields false s (resume service a s.job)
      (fun resumed t => match resumed with
        | some job => Left service s.rows job t
        | none => t = s ∧ s.job.stage ≠ .importing ∧
          ¬(s.job.stage = .normalizing ∧ s.job.mapping.approvedMapping ≠ []))
      (fun _ _ => False) := by
  unfold resume
  refine yields_bind (yields_caught (yields_mono (Q := fun resumed t => match resumed with
        | some job => Left service s.rows job t
        | none => t = s ∧ s.job.stage ≠ .importing ∧
          ¬(s.job.stage = .normalizing ∧ s.job.mapping.approvedMapping ≠ []))
      (R := fun e t => e.isProcessingError = true ∧ Settled t ∧ Normalised service s.rows t.rows)
      ?_ (fun _ _ h => yields_pure h) ?_))
  · unfold recordedStep
    split_ifs with hstage happroved
    · obtain ⟨hpending, herror⟩ := himporting hstage
      refine yields_map (yields_mono (runCommit_yields s) ?_ ?_)
      · rintro job t ⟨hjob, hstatus, herror', hitems, hrows⟩
        refine ⟨hjob, .inr ⟨hstatus, ?_, herror'.trans herror⟩, .inl hrows⟩
        unfold NoPending
        rwa [hitems]
      · exact fun e t h => ⟨(h.2.1 rfl).1, .inr (.inr (h.2.1 rfl).2), .inl h.2.2⟩
    · exact yields_map (runApprovedMapping_yields s)
    · exact yields_pure ⟨rfl, hstage, happroved⟩
  · rintro e t ⟨he, hsettled, hrows⟩
    dsimp only
    rw [if_pos he]
    exact yields_map (yields_read ⟨rfl, .inl hsettled, hrows⟩ nofun)

/-- The staged rows that the steps of `process` start from: those it found, none once they are
discarded, or those of the parsed file. -/
def Base (a : Answers N ν) (fileId : Option String) (before base : List (JobRecord N ν)) : Prop :=
  base = before ∨ fileId.isSome = true ∧
    (base = [] ∨ ∃ parsed, a.parsed = .ok parsed ∧ base = parsed.rows.map fun row => ⟨row, none⟩)

theorem Base.trans {fileId : Option String} {before base base' : List (JobRecord N ν)}
    (h : Base a fileId before base) (h' : Base a fileId base base') : Base a fileId before base' := by
  rcases h' with rfl | h'
  · exact h
  · exact .inr h'

theorem resetInterrupted_yields (s : PipelineState N ν) : Yields false s (resetInterrupted s.job)
      (fun job t => job.fileId = s.job.fileId ∧ Base a s.job.fileId s.rows t.rows)
      (fun _ _ => False) := by
  unfold resetInterrupted
  refine yields_bind (yields_mono (closePendingReviews_yields s _) ?_ fun _ _ h => nomatch h.2.2)
  rintro _ t ⟨hjob, hrows⟩
  have hfileId : t.job.fileId = s.job.fileId := by rw [hjob]
  unfold discardRows
  split_ifs with hfile
  · refine yields_bind (yields_call ?_ nofun)
    exact yields_call ⟨hfileId, .inr ⟨hfile, .inl rfl⟩⟩ nofun
  · exact yields_bind (yields_pure (yields_call ⟨hfileId, .inl hrows⟩ nofun))

theorem parseStep_yields (s : PipelineState N ν) (job : PipelineJob) :
    Yields true s (parseStep a job) (fun _ t => Base a job.fileId s.rows t.rows)
      (fun e t => e.isCommitError = false ∧ Base a job.fileId s.rows t.rows) := by
  unfold parseStep
  refine yields_bind (yields_call ?_ fun _ _ => ⟨⟨rfl, .inl rfl⟩, rfl, .inl rfl⟩)
  split_ifs with hfile
  · unfold stageParsedRows
    refine yields_bind (yields_answer (fun parsed hparsed => ?_) fun _ => ⟨rfl, .inl rfl⟩)
    have hbase : Base a job.fileId s.rows (parsed.rows.map fun row => ⟨row, none⟩) :=
      .inr ⟨hfile, .inr ⟨parsed, hparsed, rfl⟩⟩
    refine yields_bind (yields_call ?_ fun _ _ => ⟨⟨rfl, .inl rfl⟩, rfl, hbase⟩)
    refine yields_bind (yields_read ?_ fun _ _ => ⟨rfl, hbase⟩)
    exact yields_call hbase fun _ _ => ⟨⟨rfl, hbase⟩, rfl, hbase⟩
  · exact yields_pure (.inl rfl)

theorem mapStep_yields (s : PipelineState N ν) (job : PipelineJob) (remap : Bool) :
    Yields true s (mapStep service a job remap) (Left service s.rows) (Broken service s.rows) := by
  unfold mapStep
  refine yields_bind (yields_read ?_ fun _ _ => .same rfl rfl)
  split_ifs
  · exact yields_raise (.same rfl rfl)
  · exact mapJob_yields s job _ remap

theorem stepFailed_yields (s : PipelineState N ν) (job : PipelineJob) {e : Exn}
    (he : e.isCommitError = true → s.job.status = .ready) :
    Yields false s (stepFailed job e)
      (fun row t => row = t.job ∧ Settled t ∧ t.rows = s.rows) (fun _ _ => False) := by
  unfold stepFailed
  by_cases hcommit : e.isCommitError = true
  · rw [if_pos hcommit]
    exact yields_read ⟨rfl, .inr (.inr (he hcommit)), rfl⟩ nofun
  · rw [if_neg hcommit]
    exact yields_call ⟨rfl, .inl rfl, rfl⟩ nofun

/-- What `process` leaves: the job as it was, or where its steps left it. -/
structure Processed (service : IngestionService N ν) (a : Answers N ν) (s : PipelineState N ν)
    (job : PipelineJob) (t : PipelineState N ν) : Prop where
  returned : job = t.job
  stopped : t = s ∨ Settled t ∨ Imported t
  rows : ∃ base, Base a s.job.fileId s.rows base ∧ Normalised service base t.rows

theorem Left.processed {base : List (JobRecord N ν)}
    (hbase : Base a s.job.fileId s.rows base) (h : Left service base job t) :
    Processed service a s job t :=
  ⟨h.returned, .inr h.stopped, base, hbase, h.rows⟩

theorem runSteps_yields (s : PipelineState N ν) {t : PipelineState N ν}
    (remap : Bool) (hfileId : job.fileId = s.job.fileId) (hbase : Base a s.job.fileId s.rows t.rows) :
    Yields false t (runSteps service a job remap) (Processed service a s) (fun _ _ => False) := by
  unfold runSteps
  refine yields_bind (yields_attempt (yields_mono (parseStep_yields t job) ?_ ?_))
  · intro row u hrows
    rw [hfileId] at hrows
    refine yields_bind (yields_attempt (yields_mono (mapStep_yields u row remap) ?_ ?_))
    · exact fun row v h => yields_pure (h.processed (hbase.trans hrows))
    · intro e v h
      refine yields_mono (stepFailed_yields v row h.commit) ?_ fun _ _ h => h
      rintro row w ⟨hrow, hsettled, hsame⟩
      exact ⟨hrow, .inr (.inl hsettled), u.rows, hbase.trans hrows, hsame ▸ h.rows⟩
  · rintro e u ⟨he, hrows⟩
    rw [hfileId] at hrows
    refine yields_mono (stepFailed_yields u job (by simp [he])) ?_ fun _ _ h => h
    rintro row w ⟨hrow, hsettled, hsame⟩
    exact ⟨hrow, .inr (.inl hsettled), u.rows, hbase.trans hrows, .inl hsame⟩

theorem restart_yields (s : PipelineState N ν) (remap force stale : Bool)
    (himporting : s.job.status = .processing → s.job.stage = .importing →
      NoPending s ∧ s.job.error = none) :
    Yields false s (restart service a s.job remap force stale) (Processed service a s)
      (fun _ _ => False) := by
  unfold restart
  split_ifs with hstatus hfresh
  · exact yields_pure ⟨rfl, .inl rfl, s.rows, .inl rfl, .inl rfl⟩
  · refine yields_bind (yields_mono (resume_yields s (himporting hstatus)) ?_ fun _ _ h => h)
    rintro (_ | job) t h
    · obtain ⟨rfl, -⟩ := h
      refine yields_bind (yields_mono (resetInterrupted_yields (a := a) t) ?_ fun _ _ h => h)
      exact fun job u h => runSteps_yields t remap h.1 h.2
    · exact yields_pure (h.processed (.inl rfl))
  · exact runSteps_yields s remap rfl (.inl rfl)

/-- **`process` always returns**, and leaves the job as it found it or stopped somewhere. -/
theorem process_yields (s : PipelineState N ν) (force stale : Bool) (hs : Sound s) :
    Yields false s (process service a force stale) (Processed service a s) (fun _ _ => False) := by
  unfold process
  refine yields_bind (yields_read ?_ nofun)
  have himporting : s.job.status = .processing → s.job.stage = .importing →
      NoPending s ∧ s.job.error = none :=
    fun hstatus hstage => ⟨hs.importing hstatus hstage, hs.quiet (.inr hstatus)⟩
  dsimp only
  split_ifs with hstatus hremap
  · exact yields_pure ⟨rfl, .inl rfl, s.rows, .inl rfl, .inl rfl⟩
  · simp only [Bool.and_eq_true, beq_iff_eq, Bool.not_eq_true', List.isEmpty_eq_false_iff] at hremap
    obtain ⟨⟨⟨-, hstage⟩, happroved⟩, -⟩ := hremap
    refine yields_bind (yields_call ?_ nofun)
    refine yields_bind (yields_mono (resume_yields _ ?_) ?_ fun _ _ h => h)
    · exact fun h => by simp [hstage] at h
    · rintro (_ | job) t h
      · exact absurd ⟨hstage, happroved⟩ h.2.2
      · exact yields_pure (h.processed (.inl rfl))
  · exact restart_yields s _ force stale himporting

/-! ## Reviewing -/

/-- A mapping that is refused changes nothing; one that is approved waits to be run. -/
theorem approveMapping_yields (s : PipelineState N ν) (mapping : Table String (Option String))
    (entity : Option String) (approvedBy : String) (remember : Bool) :
    Yields false s (approveMapping service mapping entity approvedBy remember)
      (fun job t => job = t.job ∧ Sound t ∧ t.rows = s.rows) (fun _ t => t = s) := by
  unfold approveMapping
  refine yields_bind (yields_read ?_ nofun)
  refine yields_bind (yields_check (fun approved _ => ?_) fun _ _ => rfl)
  refine yields_bind (yields_read ?_ nofun)
  refine yields_bind (yields_mono (resolveAll_yields s _ _ _ _) ?_ fun _ _ h => nomatch h.2.2)
  rintro _ t ⟨-, hrows⟩
  exact yields_call ⟨rfl, ⟨nofun, nofun, fun _ => rfl⟩, hrows⟩ nofun

theorem itemCheck_ok {reviewId : String} {item : Option ReviewItem}
    (h : itemCheck reviewId item = .ok ()) : ∃ found, item = some found ∧ found.status = .pending := by
  cases item with
  | none => cases h
  | some found =>
    unfold itemCheck at h
    dsimp only at h
    split_ifs at h with hstatus
    exact ⟨found, rfl, not_not.mp hstatus⟩

theorem Sound.of_pending (hs : Sound s) (hpending : ¬NoPending s) (hjob : t.job = s.job) : Sound t where
  imported := fun h => absurd (hs.imported (hjob ▸ h)).1 hpending
  importing := fun h h' => absurd (hs.importing (hjob ▸ h) (hjob ▸ h')) hpending
  quiet := fun h => hjob ▸ hs.quiet (hjob ▸ h)

theorem afterDecision_yields (s : PipelineState N ν) (resolvedBy : String) (deferCommit : Bool)
    (hs : Sound s) :
    Yields false s (afterDecision service a resolvedBy deferCommit)
      (fun job t => job = t.job ∧ Sound t ∧ t.rows = s.rows)
      (fun _ t => Settled t ∧ t.rows = s.rows) := by
  unfold afterDecision
  refine yields_bind (yields_read ?_ nofun)
  refine yields_bind (yields_read ?_ nofun)
  split_ifs with hlast hdefer
  · refine yields_bind (yields_call ?_ nofun)
    split_ifs
    · refine yields_mono (requestCommit_yields _ resolvedBy) ?_ ?_
      · rintro job t ⟨hjob, hstatus, -, herror, hnone, hrows⟩
        exact ⟨hjob, ⟨by simp [hstatus], fun _ _ => hnone, fun _ => herror⟩, hrows⟩
      · exact fun e t h => ⟨.inr (.inr (h.2.2 rfl ▸ rfl)), h.2.1⟩
    · exact yields_pure ⟨rfl, Settled.sound (.inr (.inr rfl)), rfl⟩
  · refine yields_bind (yields_call ?_ nofun)
    split_ifs
    · refine yields_mono (commit_yields _ resolvedBy) ?_ ?_
      · exact fun job t h => ⟨h.1, h.2.1.sound, h.2.2⟩
      · rintro e t ⟨-, hready, hrows⟩
        exact ⟨.inr (.inr ((hready rfl).elim (fun h => h ▸ rfl) id)), hrows⟩
    · exact yields_pure ⟨rfl, Settled.sound (.inr (.inr rfl)), rfl⟩
  · exact yields_pure ⟨rfl, hs, rfl⟩

theorem resolveReview_yields (s : PipelineState N ν) (reviewId : Nat)
    (decision resolvedBy note : String) (deferCommit : Bool) (hs : Sound s) :
    Yields false s (resolveReview service a reviewId decision resolvedBy note deferCommit)
      (fun job t => job = t.job ∧ Sound t ∧ t.rows = s.rows)
      (fun _ t => (t = s ∨ Settled t) ∧ t.rows = s.rows) := by
  unfold resolveReview
  refine yields_bind (yields_read ?_ nofun)
  refine yields_bind (yields_check (fun _ hitem => ?_) fun _ _ => ⟨.inl rfl, rfl⟩)
  obtain ⟨found, hfound, hstatus⟩ := itemCheck_ok hitem
  obtain ⟨item, hget, rfl⟩ := Option.map_eq_some_iff.mp hfound
  have hpending : ¬NoPending s := fun h => h item (List.mem_of_getElem? hget) hstatus
  cases reviewDecision decision with
  | none => exact yields_raise ⟨.inl rfl, rfl⟩
  | some status =>
    refine yields_bind (yields_call ?_ nofun)
    -- the item that was read is still there
    dsimp only
    rw [List.getElem?_modify, hget]
    exact yields_mono (afterDecision_yields _ resolvedBy deferCommit (hs.of_pending hpending rfl))
      (fun _ _ h => h) fun _ _ h => ⟨.inr h.1, h.2⟩

/-- The next step could not be scheduled: the import can be asked for again, anything else retried. -/
theorem recordUnscheduled_yields (s : PipelineState N ν) (error : String) (hs : Sound s) :
    Yields false s (recordUnscheduled error)
      (fun job t => job = t.job ∧ Sound t ∧ t.rows = s.rows) (fun _ _ => False) := by
  unfold recordUnscheduled
  refine yields_bind (yields_read ?_ nofun)
  split_ifs
  · exact yields_pure ⟨rfl, hs, rfl⟩
  · exact yields_call ⟨rfl, Settled.sound (.inr (.inr rfl)), rfl⟩ nofun
  · exact yields_call ⟨rfl, Settled.sound (.inl rfl), rfl⟩ nofun
  · exact yields_call ⟨rfl, Settled.sound (.inl rfl), rfl⟩ nofun

/-! ## Runs -/

/-- `run_commit` runs an import that `request_commit` recorded. -/
def Recorded (s : PipelineState N ν) : Call N ν → Prop
  | .runCommit _ => s.job.status = .processing ∧ s.job.stage = .importing
  | _ => True

instance (s : PipelineState N ν) : DecidablePred (Recorded s)
  | .runCommit _ => inferInstanceAs (Decidable (_ ∧ _))
  | .process .. | .approveMapping .. | .runApprovedMapping _ | .resolveReview .. | .requestCommit _
  | .recordUnscheduled _ => .isTrue trivial

/-- The rows that a call may leave: those it found, or those that one of its steps wrote, all of
them. -/
def Written (service : IngestionService N ν) (s : PipelineState N ν) :
    Call N ν → List (JobRecord N ν) → Prop
  | .process a _ _, rows => ∃ base, Base a s.job.fileId s.rows base ∧ Normalised service base rows
  | .runApprovedMapping _, rows => Normalised service s.rows rows
  | _, rows => rows = s.rows

/-- A call raised, or returned a job that has failed or says what failed. -/
def Fails : Except Exn PipelineJob → Prop
  | .error _ => True
  | .ok job => job.status = .failed ∨ job.error.isSome = true

instance : DecidablePred Fails
  | .error _ => .isTrue trivial
  | .ok _ => inferInstanceAs (Decidable (_ ∨ _))

/-- What a call comes to. -/
structure Performed (service : IngestionService N ν) (s : PipelineState N ν) (c : Call N ν)
    (outcome : Except Exn PipelineJob) (t : PipelineState N ν) : Prop where
  sound : Sound t
  rows : Written service s c t.rows
  returned : ∀ job, outcome = .ok job → job = t.job
  raised : ∀ e, outcome = .error e → t = s ∨ Settled t

theorem performed_of_yields {c : Call N ν} {Q : PipelineJob → PipelineState N ν → Prop}
    (h : Yields false s (c.program service) Q R)
    (hQ : ∀ job t, Q job t → job = t.job ∧ Sound t ∧ Written service s c t.rows)
    (hR : ∀ e t, R e t → (t = s ∨ Settled t) ∧ Written service s c t.rows) (hs : Sound s) :
    Performed service s c (perform service s c).1 (perform service s c).2 := by
  have hout := h.outcome c.faults
  unfold perform
  cases hrun : (c.program service).outcome s c.faults with
  | mk outcome t =>
    rw [hrun] at hout
    cases outcome with
    | ok job =>
      obtain ⟨hjob, hsound, hrows⟩ := hQ job t hout
      exact ⟨hsound, hrows, fun _ h => Except.ok.inj h ▸ hjob, fun _ h => nomatch h⟩
    | error e =>
      obtain ⟨hstopped, hrows⟩ := hR e t hout
      exact ⟨hstopped.elim (fun h => h ▸ hs) Settled.sound, hrows, (fun _ h => nomatch h),
        fun _ _ => hstopped⟩

theorem perform_performed (c : Call N ν) (hs : Sound s) (hc : Recorded s c) :
    Performed service s c (perform service s c).1 (perform service s c).2 := by
  have hstopped : ∀ {u : PipelineState N ν}, Settled u ∨ Imported u → Sound u :=
    fun h => h.elim Settled.sound Imported.sound
  cases c with
  | process a force stale =>
    refine performed_of_yields (process_yields s force stale hs) ?_ (fun _ _ h => h.elim) hs
    exact fun job t h => ⟨h.returned, h.stopped.elim (fun h => h ▸ hs) hstopped, h.rows⟩
  | approveMapping mapping entity approvedBy remember =>
    exact performed_of_yields (approveMapping_yields s mapping entity approvedBy remember)
      (fun _ _ h => h) (fun _ _ h => ⟨.inl h, congrArg _ h⟩) hs
  | runApprovedMapping a =>
    exact performed_of_yields (runApprovedMapping_yields s)
      (fun _ _ h => ⟨h.returned, hstopped h.stopped, h.rows⟩)
      (fun _ _ h => ⟨.inr h.2.1, h.2.2⟩) hs
  | resolveReview a reviewId decision resolvedBy note deferCommit =>
    exact performed_of_yields
      (resolveReview_yields s reviewId decision resolvedBy note deferCommit hs)
      (fun _ _ h => h) (fun _ _ h => h) hs
  | requestCommit committedBy =>
    refine performed_of_yields (requestCommit_yields s committedBy) ?_
      (fun _ _ h => ⟨.inl (h.2.2 rfl), h.2.1⟩) hs
    rintro job t ⟨hjob, hstatus, -, herror, hpending, hrows⟩
    exact ⟨hjob, ⟨by simp [hstatus], fun _ _ => hpending, fun _ => herror⟩, hrows⟩
  | runCommit a =>
    refine performed_of_yields (runCommit_yields s) ?_
      (fun _ _ h => ⟨.inr (.inr (.inr (h.2.1 rfl).2)), h.2.2⟩) hs
    rintro job t ⟨hjob, hstatus, herror, hitems, hrows⟩
    have himported : Imported t := by
      refine ⟨hstatus, ?_, herror.trans (hs.quiet (.inr hc.1))⟩
      unfold NoPending
      rw [hitems]
      exact hs.importing hc.1 hc.2
    exact ⟨hjob, himported.sound, hrows⟩
  | recordUnscheduled error =>
    exact performed_of_yields (recordUnscheduled_yields s error hs) (fun _ _ h => h)
      (fun _ _ h => h.elim) hs

theorem keeps_sound : (pipeline service).Keeps Recorded Sound := by
  rintro s c t hs hc hstep
  obtain rfl := Option.some.inj hstep
  exact (perform_performed c hs hc).sound

theorem reaches_sound (h : (pipeline service).Reaches Recorded s) : Sound s := by
  refine h.invariant keeps_sound fun s hs => ?_
  obtain ⟨hstatus, herror, -⟩ := hs
  exact ⟨by simp [hstatus], by simp [hstatus], fun _ => herror⟩

/-- **No import past an open question, and no job left processing by a failure**, in every run that
imports only what was asked for: an imported job has no item pending, and a call that fails leaves
the job as it was, or stopped where somebody can go on, with the rows of before or of a whole step. -/
theorem no_import_past_question (service : IngestionService N ν) {s : PipelineState N ν}
    (h : (pipeline service).Reaches Recorded s) :
    (s.job.status = .imported → NoPending s) ∧
      ∀ c, Recorded s c → Fails (perform service s c).1 →
        (perform service s c).2 = s ∨
          Settled (perform service s c).2 ∧ Written service s c (perform service s c).2.rows := by
  have hs := reaches_sound h
  refine ⟨fun himported => (hs.imported himported).1, fun c hc hfails => ?_⟩
  have hperformed : Performed service s c _ _ := perform_performed c hs hc
  cases houtcome : (perform service s c).1 with
  | error e => exact (hperformed.raised e houtcome).imp_right fun h => ⟨h, hperformed.rows⟩
  | ok job =>
    refine .inr ⟨?_, hperformed.rows⟩
    rw [houtcome] at hfails
    obtain rfl := hperformed.returned job houtcome
    have hsound := hperformed.sound
    -- a job that is queued, processing or imported has no error
    cases hstatus : (perform service s c).2.job.status with
    | failed => exact .inl hstatus
    | needsReview => exact .inr (.inl hstatus)
    | ready => exact .inr (.inr hstatus)
    | queued => simp [Fails, hstatus, hsound.quiet (.inl hstatus)] at hfails
    | processing => simp [Fails, hstatus, hsound.quiet (.inr hstatus)] at hfails
    | imported => simp [Fails, hstatus, (hsound.imported hstatus).2] at hfails

/-- A service that knows of students, whose rows have a number. -/
def studentService : IngestionService Unit Unit where
  maxRows := 50000
  entities := [("student", ⟨["student_id", "name"], ["student_id"]⟩)]
  headerSignature := String.intercalate "|"
  nothingImportable rows := "none of the " ++ toString rows.length ++ " rows can be imported"
  repr text := "'" ++ text ++ "'"

def studentSource : SourceRow Unit := ⟨2, "csv;row=2", [("USN", .text "S1")], false, none⟩

/-- A sheet with one student, whose row is judged so, and asked so many questions about. -/
def studentAnswers (status : RowStatus) (questions : Nat) (imported : Except Failure Unit) :
    Answers Unit Unit where
  faults := []
  parsed := .ok ⟨[studentSource], ["USN"], false⟩
  profile := none
  propose _ _ _ _ := .ok ⟨"student", [("USN", "student_id")], [], false, true⟩
  runId := "run-1"
  judge _ _ _ := .ok ⟨fun _ => (status, ()), questions⟩
  imported := imported

def uploadedJob : PipelineState Unit Unit where
  job := ⟨⟨.queued, .queued, false, none, none⟩, some "file-1", "clerk", none, .empty, ⟨[], false, none⟩⟩
  items := []
  rows := []

/-- The job of a sheet that was pulled, with its staged row. -/
def pulledJob : PipelineState Unit Unit where
  job := ⟨⟨.queued, .mapping, false, none, none⟩, none, "clerk", none, .empty, ⟨["USN"], false, none⟩⟩
  items := []
  rows := [⟨studentSource, none⟩]

def databaseDown : Failure := ⟨"OperationalError", "the database is down", false⟩

/-- The sheet is processed, its question answered and its import asked for. -/
def studentCalls : List (Call Unit Unit) :=
  [.process (studentAnswers .review 1 (.ok ())) false false,
    .resolveReview (studentAnswers .review 1 (.ok ())) 0 "approved" "clerk" "" false,
    .requestCommit "clerk"]

theorem no_import_past_question_students :
    (∃ s, (pipeline studentService).Reaches Recorded s ∧ s.job.status = .imported ∧ NoPending s) ∧
      ∃ s c, (pipeline studentService).Reaches Recorded s ∧ Fails (perform studentService s c).1 ∧
        ((perform studentService s c).2 = s ∨ Settled (perform studentService s c).2 ∧
          Written studentService s c (perform studentService s c).2.rows) := by
  have hinit : (pipeline studentService).init uploadedJob := by
    exact ⟨rfl, rfl, rfl, .inl ⟨rfl, rfl, rfl⟩⟩
  refine ⟨?_, ?_⟩
  · obtain ⟨s, hs, himported⟩ := Machine.reaches_of_exec (pipeline studentService) Recorded
      (studentCalls ++ [.runCommit (studentAnswers .review 1 (.ok ()))])
      (fun s => s.job.status == .imported) hinit (by decide)
    rw [beq_iff_eq] at himported
    exact ⟨s, hs, himported, (no_import_past_question studentService hs).1 himported⟩
  · let c : Call Unit Unit := .runCommit (studentAnswers .review 1 (.error databaseDown))
    obtain ⟨s, hs, hc⟩ := Machine.reaches_of_exec (pipeline studentService) Recorded studentCalls
      (fun s => Recorded s c && Fails (perform studentService s c).1) hinit (by decide)
    simp only [Bool.and_eq_true, decide_eq_true_eq] at hc
    exact ⟨s, c, hs, hc.2, (no_import_past_question studentService hs).2 c hc.1 hc.2⟩

/-- An import that nobody asked for is run all the same; a call that is refused leaves the job where
it was, imported; and a job with nothing to import fails with its rows judged. -/
theorem import_past_question :
    (∃ s, (pipeline studentService).Reaches Machine.Always s ∧ s.job.status = .imported ∧
      ∃ item ∈ s.items, item.kind = .duplicate ∧ item.status = .pending ∧
        item.normalizationRun = s.job.report.normalizationRun) ∧
    (∃ s c, (pipeline studentService).Reaches Machine.Always s ∧
      Fails (perform studentService s c).1 ∧ ¬Settled (perform studentService s c).2) ∧
    ∃ s c, (pipeline studentService).Reaches Machine.Always s ∧
      Fails (perform studentService s c).1 ∧ (perform studentService s c).2.rows ≠ s.rows := by
  have hinit : (pipeline studentService).init uploadedJob := by
    exact ⟨rfl, rfl, rfl, .inl ⟨rfl, rfl, rfl⟩⟩
  let importCall : Call Unit Unit := .runCommit (studentAnswers .review 1 (.ok ()))
  let approveCall : Call Unit Unit := .approveMapping [("USN", some "student_id")] none "clerk" true
  refine ⟨?_, ?_, ?_⟩
  · obtain ⟨s, hs, himported⟩ := Machine.reaches_of_exec (pipeline studentService) Machine.Always
      (studentCalls.take 1 ++ [importCall])
      (fun s => s.job.status == .imported && s.items.any fun item => item.kind == .duplicate &&
        item.status == .pending && item.normalizationRun == s.job.report.normalizationRun)
      hinit (by decide)
    simp only [Bool.and_eq_true, beq_iff_eq, List.any_eq_true] at himported
    obtain ⟨hstatus, item, hitem, ⟨hkind, hpending⟩, hrun⟩ := himported
    exact ⟨s, hs, hstatus, item, hitem, hkind, hpending, hrun⟩
  · obtain ⟨s, hs, hrefused⟩ := Machine.reaches_of_exec (pipeline studentService) Machine.Always
      (studentCalls ++ [importCall])
      (fun s => Fails (perform studentService s approveCall).1 &&
        (perform studentService s approveCall).2.job.status == .imported) hinit (by decide)
    simp only [Bool.and_eq_true, decide_eq_true_eq, beq_iff_eq] at hrefused
    refine ⟨s, approveCall, hs, hrefused.1, fun h => ?_⟩
    rcases h with h | h | h <;> rw [hrefused.2] at h <;> cases h
  · refine ⟨pulledJob, .process (studentAnswers .rejected 0 (.ok ())) false false,
      ⟨pulledJob, [], ⟨rfl, rfl, rfl, .inr ⟨rfl, rfl, by decide⟩⟩, .nil _⟩, by decide,
      fun h => ?_⟩
    have hstatus := congrArg (List.map JobRecord.status) h
    exact absurd hstatus (by decide)

end GuruJi.Ingestion.Pipeline
