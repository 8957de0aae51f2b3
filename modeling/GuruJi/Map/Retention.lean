import GuruJi.Map.Judgement

/-!
# Retention and the grade

`superseded_observations` keeps everything the rule reads but one thing: a success between two
failed lookups. Once it is deleted the two runs of failures are one, which counts as a lapse when
it spans a day (`not_gradeKept`). `gradeKept_iff` says when the grade is kept: a pair of lookup
failures that only deleted successes separate must be a lapse already, or the asset must count as
dead or taken over anyway.
-/

namespace GuruJi.Map

open GuruJi.Lib

variable (parse : String → Option Int)

def SameJudgement (r r' : GradeResult) : Prop :=
  r.grade = r'.grade ∧ r.status = r'.status ∧ r.verifiedAt = r'.verifiedAt ∧
    r.verifiedVia = r'.verifiedVia

def Condemned (rows : List Evidence) : Prop :=
  standing parse "hijacked" rows = true ∨ standing parse "parked" rows = true ∨
    Lapsed parse rows ∨ EndsDead parse rows

/-- A success before the cut-off that is the newest check of neither its channel nor the way it was
observed; a success whose text reads like a failed lookup is never one. -/
def Spent (before : Int) (rows : List Evidence) (s : Evidence) : Prop :=
  when parse s < before ∧ s.unresolved = false ∧
    (∃ y ∈ rows, y.kind = .liveness ∧ y.channel = s.channel ∧ order parse s < order parse y) ∧
    ∃ y ∈ rows, y.succeeded ∧ y.observedVia = s.observedVia ∧ order parse s < order parse y

/-- The newest of the successes observed the same way. -/
def NewestSuccess (rows : List Evidence) (x : Evidence) : Prop :=
  x.supports ∧ ∀ y ∈ rows, y.supports → y.kind = x.kind → y.observedVia = x.observedVia →
    order parse y ≤ order parse x

/-- The oldest or the newest of the not-found failures at the end. -/
def OutermostFailure (rows : List Evidence) (x : Evidence) : Prop :=
  EndFailure parse rows x ∧
    ((∀ y ∈ rows, EndFailure parse rows y → order parse x ≤ order parse y) ∨
      ∀ y ∈ rows, EndFailure parse rows y → order parse y ≤ order parse x)

def Read (rows : List Evidence) (x : Evidence) : Prop :=
  NewestOnChannel parse rows x ∨ NewestSuccess parse rows x ∨
    (x.verdict "hijacked" ∨ x.verdict "parked") ∨ x.unresolved ∨ OutermostFailure parse rows x

/-- A part of a log with everything the rule may still read. -/
structure Retains (l : List Evidence) (kept : Evidence → Bool) : Prop where
  evidence : ∀ x ∈ l, x.isObservation = false → kept x = true
  read : ∀ x ∈ l, x.isObservation = true → Read parse l x → kept x = true

variable {parse} {l : List Evidence} {kept : Evidence → Bool}

/-! ## What a part of the log says -/

theorem any_filter_of_imp {p : Evidence → Bool} (h : ∀ x ∈ l, p x = true → kept x = true) :
    (l.filter kept).any p = l.any p := by
  rw [Bool.eq_iff_iff, List.any_eq_true, List.any_eq_true]
  constructor
  · rintro ⟨x, hx, hp⟩
    exact ⟨x, List.mem_of_mem_filter hx, hp⟩
  · rintro ⟨x, hx, hp⟩
    exact ⟨x, List.mem_filter.mpr ⟨hx, h x hx hp⟩, hp⟩

theorem filter_filter_of_imp {p : Evidence → Bool} (h : ∀ x ∈ l, p x = true → kept x = true) :
    (l.filter kept).filter p = l.filter p := by
  rw [List.filter_filter]
  refine List.filter_congr fun x hx => ?_
  cases hp : p x with
  | true => simp [h x hx hp]
  | false => simp

variable {x : Evidence}

theorem Evidence.isObservation_of_liveness (h : x.kind = .liveness) :
    x.isObservation = true := by simp [Evidence.isObservation, Kind.isObservation, h]

theorem Evidence.isObservation_of_integrity (h : x.kind = .integrity) :
    x.isObservation = true := by simp [Evidence.isObservation, Kind.isObservation, h]

theorem Retains.kind (hk : Retains parse l kept) {k : Kind} (hkind : k.isObservation = false) :
    ∀ x ∈ l, x.kind = k → kept x = true := fun x hx h =>
  hk.evidence x hx (by rw [Evidence.isObservation, h, hkind])

theorem Retains.confirmedAfter_eq (hk : Retains parse l kept) (moment : Int) :
    confirmedAfter parse (l.filter kept) moment = confirmedAfter parse l moment := by
  refine any_filter_of_imp fun x hx hp => ?_
  simp only [Bool.and_eq_true, decide_eq_true_eq] at hp
  exact hk.kind rfl x hx hp.1.1.2

theorem Retains.standing_eq (hk : Retains parse l kept) {text : String}
    (htext : text = "hijacked" ∨ text = "parked") :
    standing parse text (l.filter kept) = standing parse text l := by
  simp only [standing, hk.confirmedAfter_eq]
  refine any_filter_of_imp fun x hx hp => ?_
  simp only [Bool.and_eq_true] at hp
  have hobs : x.isObservation = true := by
    simp only [Evidence.verdict, Bool.and_eq_true, decide_eq_true_eq] at hp
    exact Evidence.isObservation_of_integrity hp.1.1.1
  refine hk.read x hx hobs (.inr (.inr (.inl ?_)))
  rcases htext with rfl | rfl
  · exact .inl hp.1.1
  · exact .inr hp.1.1

theorem Retains.latestIntegrity_eq (hk : Retains parse l kept) (h : Chronological (order parse) l) :
    latestIntegrity (l.filter kept) = latestIntegrity l := by
  refine latest_filter h fun x hx hkind hmax => ?_
  simp only [decide_eq_true_eq] at hkind hmax
  exact hk.read x hx (Evidence.isObservation_of_integrity hkind)
    (.inl fun y hy hyk _ => hmax y hy (hyk.trans hkind))

theorem Retains.latestLiveness_eq (hk : Retains parse l kept) (h : Chronological (order parse) l) :
    latest (fun item => item.kind = .liveness) (l.filter kept) =
      latest (fun item => item.kind = .liveness) l := by
  refine latest_filter h fun x hx hkind hmax => ?_
  simp only [decide_eq_true_eq] at hkind hmax
  exact hk.read x hx (Evidence.isObservation_of_liveness hkind)
    (.inl fun y hy hyk _ => hmax y hy (hyk.trans hkind))

theorem Retains.latestVerdict_eq (hk : Retains parse l kept) (h : Chronological (order parse) l)
    (text : String) : latestVerdict text (l.filter kept) = latestVerdict text l := by
  have hmem : ∀ x, x ∈ latestIntegrityByChannel (l.filter kept) ↔ x ∈ latestIntegrityByChannel l := by
    intro x
    simp only [latestIntegrityByChannel, mem_latestBy]
    rw [List.filter_comm, latest_filter (h.filter _)]
    intro y hy hchannel hmax
    obtain ⟨hy, hkind⟩ := List.mem_filter.mp hy
    simp only [decide_eq_true_eq] at hkind hchannel hmax
    refine hk.read y hy (Evidence.isObservation_of_integrity hkind) (.inl fun z hz hzk hzc => ?_)
    exact hmax z (List.mem_filter.mpr ⟨hz, by simpa using hzk.trans hkind⟩) (hzc.trans hchannel)
  rw [Bool.eq_iff_iff]
  simp only [latestVerdict, List.any_eq_true, hmem]

theorem Retains.succeeded (hk : Retains parse l kept) (h : Chronological (order parse) l)
    {s : Evidence} (hs : s ∈ l) (hss : s.succeeded = true) :
    ∃ m ∈ l, kept m = true ∧ m.succeeded = true ∧ order parse s ≤ order parse m := by
  cases hlast : latest (·.succeeded) l with
  | none => simp [latest_eq_none.mp hlast s hs] at hss
  | some m =>
    obtain ⟨hm, hms, hmax⟩ := (latest_eq_some h).mp hlast
    refine ⟨m, hm, ?_, hms, hmax s hs hss⟩
    rw [Evidence.succeeded_iff] at hms
    refine hk.read m hm (Evidence.isObservation_of_liveness hms.1) (.inr (.inl ⟨hms.2, ?_⟩))
    exact fun y hy hys hyk _ => hmax y hy (Evidence.succeeded_iff.mpr ⟨hyk.trans hms.1, hys⟩)

theorem Retains.endFailure (hk : Retains parse l kept) (h : Chronological (order parse) l)
    : EndFailure parse (l.filter kept) x ↔ EndFailure parse l x := by
  refine and_congr_right fun _ => and_congr_right fun _ => ⟨fun hall s hs hss => ?_, ?_⟩
  · obtain ⟨m, hm, hkept, hms, hle⟩ := hk.succeeded h hs hss
    exact hle.trans_lt (hall m (List.mem_filter.mpr ⟨hm, hkept⟩) hms)
  · exact fun hall s hs => hall s (List.mem_of_mem_filter hs)

theorem Retains.apart (hk : Retains parse l kept) (h : Chronological (order parse) l) :
    (∃ f ∈ l.filter kept, ∃ g ∈ l.filter kept, EndFailure parse (l.filter kept) f ∧
        EndFailure parse (l.filter kept) g ∧ deadConfirmation ≤ when parse g - when parse f) ↔
      ∃ f ∈ l, ∃ g ∈ l, EndFailure parse l f ∧ EndFailure parse l g ∧
        deadConfirmation ≤ when parse g - when parse f := by
  simp only [hk.endFailure h]
  constructor
  · rintro ⟨f, hf, g, hg, hrest⟩
    exact ⟨f, List.mem_of_mem_filter hf, g, List.mem_of_mem_filter hg, hrest⟩
  · rintro ⟨f, hf, g, hg, hfe, hge, hday⟩
    obtain ⟨oldest, ho, hoe, hmin⟩ := h.exists_first ⟨f, hf, hfe⟩
    obtain ⟨newest, hn, hne, hmax⟩ := h.exists_last ⟨g, hg, hge⟩
    have hkeeps : ∀ x ∈ l, OutermostFailure parse l x → x ∈ l.filter kept := fun x hx hout =>
      List.mem_filter.mpr ⟨hx, hk.read x hx (Evidence.isObservation_of_liveness hout.1.1)
        (.inr (.inr (.inr (.inr hout))))⟩
    refine ⟨oldest, hkeeps oldest ho ⟨hoe, .inl hmin⟩, newest, hkeeps newest hn ⟨hne, .inr hmax⟩,
      hoe, hne, ?_⟩
    have hof := when_mono (hmin f hf hfe)
    have hgn := when_mono (hmax g hg hge)
    omega

theorem Retains.status_eq (hk : Retains parse l kept) (h : Chronological (order parse) l) (now : Int)
    (htake : takeover parse (l.filter kept) = takeover parse l) :
    status parse (l.filter kept) now = status parse l now := by
  rw [status, status, htake, hk.latestVerdict_eq h, hk.latestVerdict_eq h, hk.latestLiveness_eq h,
    hk.latestIntegrity_eq h]
  cases takeover parse l with
  | some s => rfl
  | none =>
    simp only
    split_ifs
    · rfl
    · rfl
    · cases latest (fun item => decide (item.kind = .liveness)) l with
      | none => rfl
      | some last =>
        refine livenessStatus_congr ?_
        rw [livenessStatus_dead_iff (h.filter _), livenessStatus_dead_iff h, hk.apart h]

theorem Retains.lapsed (hk : Retains parse l kept) : Lapsed parse (l.filter kept) ↔
    LapseBut parse (fun s => kept s = false) l := by
  have hlookup : ∀ f ∈ l, f.failedLookup = true → f ∈ l.filter kept := by
    intro f hf hfail
    simp only [Evidence.failedLookup, Bool.and_eq_true] at hfail
    have hobs : f.isObservation = true := by
      have hu := hfail.1
      simp only [Evidence.unresolved, Bool.and_eq_true, decide_eq_true_eq] at hu
      exact Evidence.isObservation_of_liveness hu.1
    exact List.mem_filter.mpr ⟨hf, hk.read f hf hobs (.inr (.inr (.inr (.inl hfail.1))))⟩
  simp only [Lapsed, LapseBut, hk.confirmedAfter_eq]
  constructor
  · rintro ⟨f, hf, g, hg, hff, hgf, hday, hall, hconfirmed⟩
    refine ⟨f, List.mem_of_mem_filter hf, g, List.mem_of_mem_filter hg, hff, hgf, hday, ?_, hconfirmed⟩
    intro s hs hss hfs hsg
    exact Bool.eq_false_iff.mpr fun hkept => hall s (List.mem_filter.mpr ⟨hs, hkept⟩) hss hfs hsg
  · rintro ⟨f, hf, g, hg, hff, hgf, hday, hall, hconfirmed⟩
    refine ⟨f, hlookup f hf hff, g, hlookup g hg hgf, hff, hgf, hday, ?_, hconfirmed⟩
    intro s hs hss hfs hsg
    have hgone := hall s (List.mem_of_mem_filter hs) hss hfs hsg
    simp [(List.mem_filter.mp hs).2] at hgone

/-! ## What counts and what it weighs -/

theorem Retains.counts_eq (hk : Retains parse l kept) (item : Evidence) :
    counts parse (l.filter kept) item = counts parse l item := by
  have hsources : refutedSources (l.filter kept) = refutedSources l := by
    rw [refutedSources, filter_filter_of_imp, refutedSources]
    intro x hx hp
    simp only [Bool.and_eq_true, decide_eq_true_eq] at hp
    exact hk.kind rfl x hx hp.1.2
  have hunconfigured : unconfigured (l.filter kept) = unconfigured l := by
    rw [unconfigured, latest, filter_filter_of_imp, unconfigured, latest]
    intro x hx hp
    exact hk.kind rfl x hx (by simpa using hp)
  have hreassigned : reassignedAt parse (l.filter kept) = reassignedAt parse l := by
    rw [reassignedAt, filter_filter_of_imp, reassignedAt]
    intro x hx hp
    simp only [Bool.and_eq_true, decide_eq_true_eq] at hp
    exact hk.kind rfl x hx hp.2
  rw [counts, counts, hsources, hunconfigured, hreassigned]

theorem counts_of_newer {x y : Evidence} (hobs : x.isObservation = true) (hx : counts parse l x = true)
    (hys : y.supports = true) (hkind : y.kind = x.kind) (hle : order parse x ≤ order parse y) :
    counts parse l y = true := by
  have hwhen := when_mono hle
  have hcases : y.kind = .liveness ∨ y.kind = .integrity := by
    simpa [Evidence.isObservation, Kind.isObservation, hkind] using hobs
  simp only [counts, Bool.and_eq_true] at hx
  have hreassigned : (reassignedAt parse l).all (fun moment => decide (moment < when parse y)) =
      true := by
    cases hr : reassignedAt parse l with
    | none => rfl
    | some moment =>
      have hlt := hx.2
      rw [hr] at hlt
      simp only [Option.all_some, decide_eq_true_eq] at hlt ⊢
      omega
  rcases hcases with hc | hc <;> simp [counts, hys, hc, hreassigned]

theorem Retains.verified_eq (hk : Retains parse l kept) (h : Chronological (order parse) l) :
    verified parse (l.filter kept) = verified parse l := by
  simp only [verified, hk.counts_eq]
  refine latest_filter h fun x hx hp hmax => ?_
  cases hobs : x.isObservation with
  | false => exact hk.evidence x hx hobs
  | true =>
    simp only [Bool.and_eq_true] at hp hmax
    have hsupports : x.supports = true := by
      have hc := hp.1
      simp only [counts, Bool.and_eq_true] at hc
      exact hc.1.1.1
    refine hk.read x hx hobs (.inr (.inl ⟨hsupports, fun y hy hys hyk hyv => ?_⟩))
    by_contra hlt
    have hle := (not_le.mp hlt).le
    exact hlt (hmax y hy ⟨counts_of_newer hobs hp.1 hys hyk hle, hyv ▸ hp.2⟩)

theorem Retains.rejection_eq (hk : Retains parse l kept) :
    rejection parse (l.filter kept) = rejection parse l := by
  simp only [rejection, hk.confirmedAfter_eq, latest]
  rw [filter_filter_of_imp]
  intro x hx hp
  simp only [Bool.and_eq_true, List.elem_eq_mem, List.mem_cons, List.not_mem_nil, or_false,
    decide_eq_true_eq] at hp
  rcases hp.1.2 with hkind | hkind | hkind <;> exact hk.kind rfl x hx hkind

theorem Retains.losses_eq (hk : Retains parse l kept) (h : Chronological (order parse) l) :
    losses parse (l.filter kept) = losses parse l := by
  rw [losses, losses, hk.latestIntegrity_eq h, filter_filter_of_imp, filter_filter_of_imp,
    filter_filter_of_imp]
  · intro x hx hp
    simp only [Bool.and_eq_true, decide_eq_true_eq] at hp
    exact hk.kind rfl x hx hp.2
  · intro x hx hp
    simp only [Bool.and_eq_true, decide_eq_true_eq] at hp
    exact hk.kind rfl x hx hp.1.2
  · intro x hx hp
    simp only [Bool.and_eq_true, decide_eq_true_eq] at hp
    exact hk.kind rfl x hx hp.2

theorem weighItem_of_isObservation (asset : Asset) (losses : Losses) (t : Tally)
    (hobs : x.isObservation = true) : weighItem parse asset losses t x = t := by
  have hcases : x.kind = .liveness ∨ x.kind = .integrity := by
    simpa [Evidence.isObservation, Kind.isObservation] using hobs
  rcases hcases with hc | hc <;>
    simp [weighItem, isWithdrawn, candidate, countChannel, Kind.corroborates, hc]

theorem foldl_weighItem (asset : Asset) (losses : Losses) (items : List Evidence) (t : Tally) :
    (items.filter (!·.isObservation)).foldl (weighItem parse asset losses) t =
      items.foldl (weighItem parse asset losses) t := by
  induction items generalizing t with
  | nil => rfl
  | cons x items ih =>
    cases hobs : x.isObservation with
    | true =>
      rw [List.filter_cons_of_neg (by simp [hobs]), List.foldl_cons,
        weighItem_of_isObservation asset losses t hobs, ih]
    | false => rw [List.filter_cons_of_pos (by simp [hobs]), List.foldl_cons, List.foldl_cons, ih]

theorem Retains.weigh_eq (hk : Retains parse l kept) (h : Chronological (order parse) l) (asset : Asset)
    (foundBy : Option (Table String (List String))) :
    weigh parse asset (l.filter kept) foundBy = weigh parse asset l foundBy := by
  have hcounts : counts parse (l.filter kept) = counts parse l := funext hk.counts_eq
  have hfold : ((l.filter kept).filter (counts parse l)).foldl
        (weighItem parse asset (losses parse l)) ⟨[], [], []⟩ =
      (l.filter (counts parse l)).foldl (weighItem parse asset (losses parse l)) ⟨[], [], []⟩ := by
    rw [List.filter_comm, ← foldl_weighItem asset _ ((l.filter _).filter kept),
      ← foldl_weighItem asset _ (l.filter _), filter_filter_of_imp]
    intro x hx hp
    exact hk.evidence x (List.mem_of_mem_filter hx) (by simpa using hp)
  rw [weigh, weigh, hcounts, hk.losses_eq h, hk.latestIntegrity_eq h, hfold]

/-! ## The judgement of a part of the log -/

theorem Retains.sameJudgement_iff (hk : Retains parse l kept) (h : Chronological (order parse) l)
    (asset : Asset) (now : Int) (foundBy : Option (Table String (List String))) :
    (judge parse asset (l.filter kept) (status parse (l.filter kept) now) foundBy).1 =
        (judge parse asset l (status parse l now) foundBy).1 ∧
      status parse (l.filter kept) now = status parse l now ↔
    (LapseBut parse (fun s => kept s = false) l → Condemned parse l) := by
  classical
  have htakeover := takeover_eq h
  have htakeover' := takeover_eq (h.filter kept)
  rw [hk.standing_eq (.inl rfl), hk.standing_eq (.inr rfl)] at htakeover'
  -- nothing changes unless a lapse appears
  have hsame : takeover parse (l.filter kept) = takeover parse l →
      (judge parse asset (l.filter kept) (status parse (l.filter kept) now) foundBy).1 =
          (judge parse asset l (status parse l now) foundBy).1 ∧
        status parse (l.filter kept) now = status parse l now := by
    intro htake
    have hstatus := hk.status_eq h now htake
    refine ⟨?_, hstatus⟩
    rw [hstatus, judge, judge, hk.rejection_eq, htake, hk.weigh_eq h]
  have hlapsed : Lapsed parse l → Lapsed parse (l.filter kept) := by
    intro hl
    obtain ⟨f, hf, g, hg, hff, hgf, hday, hall, hconfirmed⟩ := hl
    refine hk.lapsed.mpr ⟨f, hf, g, hg, hff, hgf, hday, ?_, hconfirmed⟩
    exact fun s hs hss hfs hsg => (hall s hs hss hfs hsg).elim
  rw [← hk.lapsed]
  cases hh : standing parse "hijacked" l with
  | true =>
    have htake : takeover parse (l.filter kept) = takeover parse l := by
      rw [htakeover, htakeover', hh, if_pos rfl, if_pos rfl]
    exact iff_of_true (hsame htake) fun _ => .inl hh
  | false =>
    cases hp : standing parse "parked" l with
    | true =>
      have htake : takeover parse (l.filter kept) = takeover parse l := by
        simp [htakeover, htakeover', hh, hp]
      exact iff_of_true (hsame htake) fun _ => .inr (.inl hp)
    | false =>
      simp only [hh, hp, Bool.false_eq_true, if_false] at htakeover htakeover'
      by_cases hl : Lapsed parse l
      · have htake : takeover parse (l.filter kept) = takeover parse l := by
          rw [htakeover, htakeover', if_pos hl, if_pos (hlapsed hl)]
        exact iff_of_true (hsame htake) fun _ => .inr (.inr (.inl hl))
      · rw [if_neg hl] at htakeover
        by_cases hl' : Lapsed parse (l.filter kept)
        · -- the lapse is new: it is the judgement exactly when the checks end dead anyway
          rw [if_pos hl'] at htakeover'
          have hstatus : status parse (l.filter kept) now = some .dead := by
            rw [status, htakeover']
          have hdead : status parse l now = some .dead ↔ EndsDead parse l := endsDead_iff h htakeover
          have hcondemned : Condemned parse l ↔ EndsDead parse l := by
            simp [Condemned, hh, hp, hl]
          rw [hcondemned, imp_iff_right hl', ← hdead, hstatus]
          constructor
          · exact fun heq => heq.2.symm
          · intro heq
            refine ⟨?_, heq.symm⟩
            rw [heq, judge, judge, hk.rejection_eq, htakeover, htakeover']
            cases rejection parse l <;> simp
        · have htake : takeover parse (l.filter kept) = takeover parse l := by
            rw [htakeover, htakeover', if_neg hl']
          exact iff_of_true (hsame htake) fun hl'' => absurd hl'' hl'

/-! ## What retention keeps -/

/-- **The rows retention keeps** are those the rule may still read. -/
theorem mem_keep (h : Chronological (order parse) l) : x ∈ keep l ↔ x ∈ l ∧ Read parse l x := by
  have hchannel : x ∈ latestBy (fun item => (item.kind, item.channel)) l ↔
      x ∈ l ∧ NewestOnChannel parse l x := by
    rw [mem_latestBy, latest_eq_some h]
    simp only [decide_eq_true_eq, true_and, NewestOnChannel, Prod.mk.injEq, and_imp]
  have hvia : x ∈ latestBy (fun item => (item.kind, item.observedVia)) (l.filter (·.supports)) ↔
      x ∈ l ∧ NewestSuccess parse l x := by
    rw [mem_latestBy, latest_eq_some (h.filter _)]
    simp only [List.mem_filter, decide_eq_true_eq, true_and, NewestSuccess, Prod.mk.injEq, and_imp,
      and_assoc]
  have hfailures : x ∈ (endFailures (l.filter fun item => item.kind = .liveness)).reverse.take 1 ++
      (endFailures (l.filter fun item => item.kind = .liveness)).reverse.getLast?.toList ↔
      x ∈ l ∧ OutermostFailure parse l x := by
    have hchron := chronological_endFailures h
    have hmem : ∀ y, y ∈ (endFailures (l.filter fun item => item.kind = .liveness)).reverse ↔
        y ∈ l ∧ EndFailure parse l y := fun y => by rw [List.mem_reverse, mem_endFailures h]
    generalize (endFailures (l.filter fun item => item.kind = .liveness)).reverse = failures at *
    have htake : x ∈ failures.take 1 ↔ failures.head? = some x := by
      cases failures <;> simp [eq_comm]
    rw [List.mem_append, htake, Option.mem_toList, hchron.head?_eq_some, hchron.getLast?_eq_some]
    simp only [hmem, OutermostFailure, and_imp, ← and_or_left, and_assoc]
  simp only [keep, List.mem_append, hchannel, hvia, hfailures, List.mem_filter, Bool.or_eq_true, Read]
  constructor
  · rintro ((((hx | hx) | hx) | hx) | hx)
    · exact ⟨hx.1, .inl hx.2⟩
    · exact ⟨hx.1, .inr (.inl hx.2)⟩
    · exact ⟨hx.1, .inr (.inr (.inl hx.2))⟩
    · exact ⟨hx.1, .inr (.inr (.inr (.inl hx.2)))⟩
    · exact ⟨hx.1, .inr (.inr (.inr (.inr hx.2)))⟩
  · rintro ⟨hx, hr | hr | hr | hr | hr⟩
    · exact .inl (.inl (.inl (.inl ⟨hx, hr⟩)))
    · exact .inl (.inl (.inl (.inr ⟨hx, hr⟩)))
    · exact .inl (.inl (.inr ⟨hx, hr⟩))
    · exact .inl (.inr ⟨hx, hr⟩)
    · exact .inr ⟨hx, hr⟩

/-- The rule reads an observation among the observations as it does in the whole log. -/
theorem read_observations (hobs : x.isObservation = true) :
    Read parse (l.filter (·.isObservation)) x ↔ Read parse l x := by
  have hkind : ∀ y : Evidence, y.kind = x.kind → y.isObservation = true := fun y hy => by
    rwa [Evidence.isObservation, hy]
  have hchannel : NewestOnChannel parse (l.filter (·.isObservation)) x ↔
      NewestOnChannel parse l x :=
    ⟨fun hall y hy hyk => hall y (List.mem_filter.mpr ⟨hy, hkind y hyk⟩) hyk,
      fun hall y hy => hall y (List.mem_of_mem_filter hy)⟩
  have hvia : NewestSuccess parse (l.filter (·.isObservation)) x ↔ NewestSuccess parse l x :=
    and_congr_right fun _ =>
      ⟨fun hall y hy hys hyk => hall y (List.mem_filter.mpr ⟨hy, hkind y hyk⟩) hys hyk,
        fun hall y hy => hall y (List.mem_of_mem_filter hy)⟩
  have hend : ∀ y, EndFailure parse (l.filter (·.isObservation)) y ↔ EndFailure parse l y := by
    refine fun y => and_congr_right fun _ => and_congr_right fun _ => ⟨fun hall s hs hss => ?_,
      fun hall s hs => hall s (List.mem_of_mem_filter hs)⟩
    have hss' := hss
    rw [Evidence.succeeded_iff] at hss'
    exact hall s (List.mem_filter.mpr ⟨hs, Evidence.isObservation_of_liveness hss'.1⟩) hss
  have hout : OutermostFailure parse (l.filter (·.isObservation)) x ↔ OutermostFailure parse l x := by
    have hmem : ∀ y, EndFailure parse l y → (y ∈ l.filter (·.isObservation) ↔ y ∈ l) := fun y hy => by
      simp [List.mem_filter, Evidence.isObservation_of_liveness hy.1]
    simp only [OutermostFailure, hend]
    refine and_congr_right fun _ => or_congr ?_ ?_ <;>
      exact ⟨fun hall y hy hye => hall y ((hmem y hye).mpr hy) hye,
        fun hall y hy hye => hall y ((hmem y hye).mp hy) hye⟩
  rw [Read, Read, hchannel, hvia, hout]

variable {assetId : String} (log : EvidenceLog assetId) (before : Int)

theorem mem_supersededObservations {evidenceId : String} :
    evidenceId ∈ supersededObservations parse log.rows before ↔
      evidenceId ∈ doomed parse before (log.rows.filter (·.isObservation)) := by
  have hgroup : (log.rows.filter (·.isObservation)).filter (·.assetId = assetId) =
      log.rows.filter (·.isObservation) := by
    refine List.filter_eq_self.mpr fun x hx => ?_
    simpa using log.ofAsset x (List.mem_of_mem_filter hx)
  simp only [supersededObservations, byAsset, List.mem_flatMap, List.mem_map, List.mem_eraseDups]
  constructor
  · rintro ⟨-, ⟨a, ⟨x, hx, rfl⟩, rfl⟩, hmem⟩
    rwa [log.ofAsset x (List.mem_of_mem_filter hx), hgroup] at hmem
  · intro hmem
    cases hrows : log.rows.filter (·.isObservation) with
    | nil => simp [hrows, doomed, ordered, sortBy] at hmem
    | cons x xs =>
      have hx : x ∈ log.rows.filter (·.isObservation) := hrows ▸ List.mem_cons_self
      refine ⟨_, ⟨assetId, ⟨x, hrows ▸ hx, log.ofAsset x (List.mem_of_mem_filter hx)⟩, rfl⟩, ?_⟩
      rwa [← hrows, hgroup]

theorem superseded_iff (hx : x ∈ log.rows) :
    x.evidenceId ∈ supersededObservations parse log.rows before ↔
      x.isObservation = true ∧ ¬ Read parse (ordered parse log.rows) x ∧ when parse x < before := by
  have hinj : ∀ {y}, y ∈ log.rows → y.evidenceId = x.evidenceId → y = x := fun hy heq =>
    List.inj_on_of_nodup_map log.unique hy hx heq
  have hitems : ordered parse (log.rows.filter (·.isObservation)) =
      (ordered parse log.rows).filter (·.isObservation) := ordered_filter _ _
  have hmem : ∀ {y}, y ∈ (ordered parse log.rows).filter (·.isObservation) ↔
      y ∈ log.rows ∧ y.isObservation = true := by
    intro y
    rw [List.mem_filter, mem_ordered]
  have hkeep : ∀ {y}, y ∈ keep ((ordered parse log.rows).filter (·.isObservation)) ↔
      (y ∈ log.rows ∧ y.isObservation = true) ∧ Read parse (ordered parse log.rows) y := by
    intro y
    rw [mem_keep ((chronological_ordered log.unique).filter _), hmem]
    exact and_congr_right fun hy => read_observations hy.2
  rw [mem_supersededObservations, doomed, hitems]
  simp only [List.mem_map, List.mem_filter, Bool.and_eq_true, Bool.not_eq_true', decide_eq_true_eq,
    List.contains_eq_mem, decide_eq_false_iff_not]
  constructor
  · rintro ⟨y, ⟨hy, hnot, hwhen⟩, heq⟩
    obtain ⟨hyrows, hyobs⟩ := hmem.mp (List.mem_filter.mpr hy)
    obtain rfl := hinj hyrows heq
    exact ⟨hyobs, fun hread => hnot ⟨y, hkeep.mpr ⟨⟨hyrows, hyobs⟩, hread⟩, rfl⟩, hwhen⟩
  · rintro ⟨hobs, hnot, hwhen⟩
    refine ⟨x, ⟨⟨mem_ordered.mpr hx, hobs⟩, ?_, hwhen⟩, rfl⟩
    rintro ⟨y, hy, heq⟩
    obtain ⟨⟨hyrows, -⟩, hread⟩ := hkeep.mp hy
    exact hnot (hinj hyrows heq ▸ hread)

def EvidenceLog.keeps (parse : String → Option Int) {assetId : String} (log : EvidenceLog assetId)
    (before : Int) (item : Evidence) : Bool :=
  !(supersededObservations parse log.rows before).contains item.evidenceId

theorem keeps_eq_false_iff (hx : x ∈ log.rows) : log.keeps parse before x = false ↔
      x.isObservation = true ∧ ¬ Read parse (ordered parse log.rows) x ∧ when parse x < before := by
  rw [← superseded_iff log before hx]
  simp [EvidenceLog.keeps]

theorem retains_keeps : Retains parse (ordered parse log.rows) (log.keeps parse before) := by
  refine ⟨fun x hx hobs => ?_, fun x hx _ hread => ?_⟩
  · by_contra hgone
    have hgone := (keeps_eq_false_iff log before (mem_ordered.mp hx)).mp (Bool.eq_false_iff.mpr hgone)
    rw [hobs] at hgone
    cases hgone.1
  · by_contra hgone
    have hgone := (keeps_eq_false_iff log before (mem_ordered.mp hx)).mp (Bool.eq_false_iff.mpr hgone)
    exact hgone.2.1 hread

theorem keeps_eq_false_iff_spent {s : Evidence} (hs : s ∈ log.rows) (hss : s.succeeded = true) :
    log.keeps parse before s = false ↔ Spent parse before log.rows s := by
  have hkinds := hss
  rw [Evidence.succeeded_iff] at hkinds
  have hchannel : ¬ NewestOnChannel parse (ordered parse log.rows) s ↔
      ∃ y ∈ log.rows, y.kind = .liveness ∧ y.channel = s.channel ∧ order parse s < order parse y := by
    simp only [NewestOnChannel, mem_ordered, hkinds.1]
    push Not
    rfl
  have hvia : ¬ NewestSuccess parse (ordered parse log.rows) s ↔
      ∃ y ∈ log.rows, y.succeeded ∧ y.observedVia = s.observedVia ∧
        order parse s < order parse y := by
    simp only [NewestSuccess, mem_ordered, hkinds.1, hkinds.2, true_and, Evidence.succeeded,
      Bool.and_eq_true, decide_eq_true_eq]
    push Not
    constructor
    · rintro ⟨y, hy, hys, hyk, hyv, hlt⟩
      exact ⟨y, hy, ⟨hyk, hys⟩, hyv, hlt⟩
    · rintro ⟨y, hy, ⟨hyk, hys⟩, hyv, hlt⟩
      exact ⟨y, hy, hys, hyk, hyv, hlt⟩
  have hverdict : ∀ text, s.verdict text = false := fun text => by
    simp [Evidence.verdict, hkinds.1]
  have hout : ¬ OutermostFailure parse (ordered parse log.rows) s := fun hout =>
    lt_irrefl _ (hout.1.2.2 s (mem_ordered.mpr hs) hss)
  rw [keeps_eq_false_iff log before hs, Read]
  simp only [not_or, hchannel, hvia]
  constructor
  · rintro ⟨-, ⟨hc, hv, -, hu, -⟩, hwhen⟩
    exact ⟨hwhen, Bool.eq_false_iff.mpr hu, hc, hv⟩
  · rintro ⟨hwhen, hu, hc, hv⟩
    exact ⟨Evidence.isObservation_of_liveness hkinds.1,
      ⟨hc, hv, by simp [hverdict], Bool.eq_false_iff.mp hu, hout⟩, hwhen⟩

/-! ## When the grade is kept -/

theorem lapseBut_ordered {rows : List Evidence} {ignored ignored' : Evidence → Prop}
    (hsame : ∀ s ∈ rows, s.succeeded = true → (ignored s ↔ ignored' s)) :
    LapseBut parse ignored (ordered parse rows) ↔ LapseBut parse ignored' rows := by
  simp only [LapseBut, mem_ordered, confirmedAfter_congr fun x => mem_ordered]
  refine exists_congr fun f => and_congr_right fun _ => exists_congr fun g => and_congr_right fun _ =>
    and_congr_right fun _ => and_congr_right fun _ => and_congr_right fun _ => and_congr_left fun _ => ?_
  exact forall_congr' fun s => forall_congr' fun hs => forall_congr' fun hss =>
    imp_congr_right fun _ => imp_congr_right fun _ => hsame s hs hss

theorem condemned_ordered {rows : List Evidence} :
    Condemned parse (ordered parse rows) ↔ Condemned parse rows := by
  have hstanding : ∀ text, standing parse text (ordered parse rows) = standing parse text rows :=
    fun text => standing_congr fun x => mem_ordered
  have hlapsed : Lapsed parse (ordered parse rows) ↔ Lapsed parse rows :=
    lapseBut_ordered fun _ _ _ => Iff.rfl
  simp only [Condemned, hstanding, hlapsed, EndsDead, SaysLast, NewestOnChannel, EndFailure, mem_ordered]

/-- **Retention keeps the judgement** exactly when the lookup failures that only deleted successes
separate are no new lapse, or the asset counts as dead or taken over anyway. -/
theorem gradeKept_iff (parse : String → Option Int) (asset : Asset) (log : EvidenceLog asset.assetId)
    (before now : Int) (foundBy : Option (Table String (List String))) :
    SameJudgement (grade parse asset (log.prune parse before).rows now foundBy)
        (grade parse asset log.rows now foundBy) ↔
      (LapseBut parse (Spent parse before log.rows) log.rows → Condemned parse log.rows) := by
  have hretains : Retains parse (ordered parse log.rows) (log.keeps parse before) :=
    retains_keeps log before
  have hchron : Chronological (order parse) (ordered parse log.rows) :=
    chronological_ordered log.unique
  have hpruned : ordered parse (log.prune parse before).rows =
      (ordered parse log.rows).filter (log.keeps parse before) := ordered_filter _ _
  rw [← condemned_ordered, ← lapseBut_ordered fun s hs hss =>
      keeps_eq_false_iff_spent log before hs hss,
    ← hretains.sameJudgement_iff hchron asset now foundBy]
  simp only [SameJudgement, grade, hpruned, hretains.verified_eq hchron, and_true]

/-! ## A run of failures joined -/

/-- Days of January 2026, in microseconds from the first. -/
def january (text : String) : Option Int :=
  if text = "2026-01-01T00:00:00+00:00" then some 1767225600000000
  else if text = "2026-01-02T00:00:00+00:00" then some 1767312000000000
  else if text = "2026-01-03T00:00:00+00:00" then some 1767398400000000
  else if text = "2026-01-04T00:00:00+00:00" then some 1767484800000000
  else none

/-- A name that failed to resolve twice, with a clean check after each failure. -/
def flickering : EvidenceLog "dom-1" where
  rows := [
    ⟨"ievd-1", "dom-1", .liveness, .refutes, "https://x.in/", none, "unresolved:0", "fetch", .live,
      "2026-01-01T00:00:00+00:00"⟩,
    ⟨"ievd-2", "dom-1", .liveness, .supports, "https://x.in/", none, "ok:200", "fetch", .live,
      "2026-01-02T00:00:00+00:00"⟩,
    ⟨"ievd-3", "dom-1", .liveness, .refutes, "https://x.in/", none, "unresolved:0", "fetch", .live,
      "2026-01-03T00:00:00+00:00"⟩,
    ⟨"ievd-4", "dom-1", .liveness, .supports, "https://x.in/", none, "ok:200", "fetch", .live,
      "2026-01-04T00:00:00+00:00"⟩]
  unique := by decide
  ofAsset := by decide

/-- Once the check between them is deleted, the two failures count as a lapse: the status of a live
asset becomes dead. -/
theorem not_gradeKept :
    ¬ ∀ (parse : String → Option Int) (asset : Asset) (log : EvidenceLog asset.assetId)
      (before now : Int) (foundBy : Option (Table String (List String))), before ≤ now →
      SameJudgement (grade parse asset (log.prune parse before).rows now foundBy)
        (grade parse asset log.rows now foundBy) := by
  intro h
  have hsame := h january ⟨"dom-1", true⟩ flickering 1768003200000000 1783555200000000 none (by decide)
  have hstatus : (grade january ⟨"dom-1", true⟩ (flickering.prune january 1768003200000000).rows
      1783555200000000 none).status = some .dead := by decide
  have hlive : (grade january ⟨"dom-1", true⟩ flickering.rows 1783555200000000 none).status =
      some .live := by decide
  have heq := hsame.2.1
  rw [hstatus, hlive] at heq
  cases heq

end GuruJi.Map
