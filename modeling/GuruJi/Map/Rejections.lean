import GuruJi.Map.Refutation

/-!
# The readings of a rejection

Whether a rejection of an asset still stands is decided three times from its log: by the grading rule
(`rejection`), by `reviewer_refuted` before a domain is watched, and by `_rejected` for the precision of
the map. The rule lets only a reviewer's own, later confirmation lift a rejection. The other two count
an owner's claim and every confirmation as well, the one from the time of the rejection on, the other
where it comes after the rejection in the log.

* **`readings_agree_iff`**: they agree unless such a row comes after the last rejection and no reviewer
  confirms the asset after it;
* `readings_differ`: an owner's claim after a rejection.
-/

namespace GuruJi.Map

open GuruJi.Lib

def Evidence.lifts (item : Evidence) : Bool :=
  item.supports && (item.kind = .ownerClaim || item.kind = .reviewerConfirm)

/-- `ORDER BY observed_at, evidence_id`. -/
def listed (item : Evidence) : String ×ₗ String := toLex (item.observedAt, item.evidenceId)

/-- The rows of one asset as `evidence_for` returns them. -/
def evidenceFor (rows : List Evidence) : List Evidence := sortBy listed rows

/-- `_last`: the greatest time of the rows with a property, or the empty text. -/
def lastTime (p : Evidence → Bool) (rows : List Evidence) : String :=
  ((rows.filter p).map (·.observedAt)).foldl max ""

/-- `pipeline.reviewer_refuted`. -/
def reviewerRefuted (rows : List Evidence) : Bool :=
  lastTime Evidence.rejects (evidenceFor rows) ≠ "" &&
    decide (lastTime Evidence.lifts (evidenceFor rows) ≤ lastTime Evidence.rejects (evidenceFor rows))

/-- One row of the loop of `_rejected`. -/
def rejectedStep (rejected : Bool) (item : Evidence) : Bool :=
  if item.rejects then true else if item.lifts then false else rejected

/-- `metrics._rejected`. -/
def rejected (rows : List Evidence) : Bool := (evidenceFor rows).foldl rejectedStep false

/-- The grading rule finds a rejection that stands. -/
def gradeRejects (parse : String → Option Int) (rows : List Evidence) : Bool :=
  (rejection parse (ordered parse rows)).isSome

/-- A log whose times are those of `now_iso`: texts that are in the order of the times. -/
structure StampedLog (parse : String → Option Int) (assetId : String) extends EvidenceLog assetId where
  stamped : ∀ x ∈ rows, ∀ y ∈ rows, x.observedAt < y.observedAt → when parse x < when parse y
  written : ∀ x ∈ rows, x.observedAt ≠ ""

/-! ## What each of them reads -/

section
variable {κ : Type} [LinearOrder κ] {rows : List Evidence} {p q : Evidence → Bool} {key : Evidence → κ}

/-- Some row of one kind is as new as all of the other, unless one of the other is newer than all. -/
theorem exists_newest_iff : (∃ r ∈ rows, p r = true ∧ ∀ l ∈ rows, q l = true → key l ≤ key r) ↔
    (∃ r ∈ rows, p r = true) ∧
      ¬∃ l ∈ rows, q l = true ∧ ∀ r ∈ rows, p r = true → key r < key l := by
  constructor
  · rintro ⟨r, hr, hp, hmax⟩
    refine ⟨⟨r, hr, hp⟩, ?_⟩
    rintro ⟨l, hl, hq, hlast⟩
    exact absurd (hlast r hr hp) (hmax l hl hq).not_gt
  · rintro ⟨hsome, hnone⟩
    obtain ⟨r, hr, hp, hmax⟩ := exists_newest key hsome
    refine ⟨r, hr, hp, fun l hl hq => not_lt.mp fun hlt => hnone ⟨l, hl, hq, fun r' hr' hp' => ?_⟩⟩
    exact (hmax r' hr' hp').trans_lt hlt

end

theorem foldl_max_spec {κ : Type} [LinearOrder κ] (l : List κ) (first : κ) :
    first ≤ l.foldl max first ∧ (∀ x ∈ l, x ≤ l.foldl max first) ∧
      (l.foldl max first = first ∨ l.foldl max first ∈ l) := by
  induction l generalizing first with
  | nil => exact ⟨le_rfl, fun x hx => absurd hx List.not_mem_nil, .inl rfl⟩
  | cons a l ih =>
    obtain ⟨hfirst, hall, hfound⟩ := ih (max first a)
    rw [List.foldl_cons]
    refine ⟨(le_max_left _ _).trans hfirst, List.forall_mem_cons.mpr ⟨(le_max_right _ _).trans hfirst,
      hall⟩, ?_⟩
    rcases hfound with heq | hmem
    · rw [heq]
      rcases max_choice first a with hmax | hmax
      · exact .inl hmax
      · rw [hmax]
        exact .inr List.mem_cons_self
    · exact .inr (List.mem_cons_of_mem a hmem)

section
variable {rows : List Evidence} {p : Evidence → Bool}

theorem le_lastTime {x : Evidence} (hx : x ∈ rows) (hp : p x = true) : x.observedAt ≤ lastTime p rows :=
  (foldl_max_spec _ "").2.1 _ (List.mem_map.mpr ⟨x, List.mem_filter.mpr ⟨hx, hp⟩, rfl⟩)

theorem lastTime_found (h : lastTime p rows ≠ "") :
    ∃ x ∈ rows, p x = true ∧ x.observedAt = lastTime p rows := by
  have hmem : lastTime p rows ∈ (rows.filter p).map (·.observedAt) :=
    (foldl_max_spec _ "").2.2.resolve_left h
  obtain ⟨x, hx, heq⟩ := List.mem_map.mp hmem
  exact ⟨x, (List.mem_filter.mp hx).1, (List.mem_filter.mp hx).2, heq⟩

theorem mem_evidenceFor {x : Evidence} : x ∈ evidenceFor rows ↔ x ∈ rows := mem_sortBy

theorem empty_le (text : String) : "" ≤ text := by
  refine not_lt.mp fun h => ?_
  rw [String.lt_iff_toList_lt] at h
  exact absurd h (List.not_lt_nil _)

theorem reviewerRefuted_iff (hwritten : ∀ x ∈ rows, x.observedAt ≠ "") :
    reviewerRefuted rows = true ↔ ∃ r ∈ rows, r.rejects = true ∧
      ∀ l ∈ rows, l.lifts = true → l.observedAt ≤ r.observedAt := by
  rw [reviewerRefuted, Bool.and_eq_true, decide_eq_true_eq, decide_eq_true_eq]
  constructor
  · rintro ⟨hne, hle⟩
    obtain ⟨r, hr, hrejects, heq⟩ := lastTime_found hne
    refine ⟨r, mem_evidenceFor.mp hr, hrejects, fun l hl hlifts => ?_⟩
    rw [heq]
    exact (le_lastTime (mem_evidenceFor.mpr hl) hlifts).trans hle
  · rintro ⟨r, hr, hrejects, hmax⟩
    have hlast := le_lastTime (mem_evidenceFor.mpr hr) hrejects
    refine ⟨fun hnone => hwritten r hr ?_, ?_⟩
    · rw [hnone] at hlast
      exact le_antisymm hlast (empty_le _)
    · by_cases hlifts : lastTime Evidence.lifts (evidenceFor rows) = ""
      · rw [hlifts]
        exact empty_le _
      · obtain ⟨l, hl, hlifts, heq⟩ := lastTime_found hlifts
        rw [← heq]
        exact (hmax l (mem_evidenceFor.mp hl) hlifts).trans hlast

end

theorem not_lifts_of_rejects {item : Evidence} (h : item.rejects = true) : item.lifts = false := by
  simp only [Evidence.rejects, Evidence.refutes, Bool.and_eq_true, decide_eq_true_eq] at h
  simp [Evidence.lifts, Evidence.supports, h.1]

theorem foldl_rejectedStep {l : List Evidence} (h : Chronological listed l) :
    l.foldl rejectedStep false = true ↔
      ∃ r ∈ l, r.rejects = true ∧ ∀ x ∈ l, x.lifts = true → listed x < listed r := by
  induction l using List.reverseRecOn with
  | nil => simp
  | append_singleton l a ih =>
    obtain ⟨hl, hlast⟩ := h.snoc
    rw [List.foldl_concat, rejectedStep]
    split_ifs with hrejects hlifts
    · refine iff_of_true rfl ⟨a, by simp, hrejects, fun x hx hlifts => ?_⟩
      rcases List.mem_append.mp hx with hx | hx
      · exact hlast x hx
      · rw [List.mem_singleton.mp hx, not_lifts_of_rejects hrejects] at hlifts
        cases hlifts
    · refine iff_of_false id ?_
      rintro ⟨r, hr, hr', hmax⟩
      have hlater := hmax a (by simp) hlifts
      rcases List.mem_append.mp hr with hr | hr
      · exact absurd (hlast r hr) hlater.not_gt
      · rw [List.mem_singleton.mp hr] at hlater
        exact absurd hlater (lt_irrefl _)
    · rw [ih hl]
      constructor
      · rintro ⟨r, hr, hr', hmax⟩
        refine ⟨r, List.mem_append_left _ hr, hr', fun x hx hx' => ?_⟩
        rcases List.mem_append.mp hx with hx | hx
        · exact hmax x hx hx'
        · exact absurd (List.mem_singleton.mp hx ▸ hx') hlifts
      · rintro ⟨r, hr, hr', hmax⟩
        rcases List.mem_append.mp hr with hr | hr
        · exact ⟨r, hr, hr', fun x hx => hmax x (List.mem_append_left _ hx)⟩
        · exact absurd (List.mem_singleton.mp hr ▸ hr') hrejects

/-! ## Where they differ -/

/-- Some row that the two later readings count comes after every rejection. -/
def LiftedLater (rows : List Evidence) : Prop :=
  ∃ l ∈ rows, l.lifts = true ∧ ∀ r ∈ rows, r.rejects = true → listed r < listed l

/-- A reviewer's own confirmation is later than every rejection. -/
def ConfirmedLater (parse : String → Option Int) (rows : List Evidence) : Prop :=
  ∃ c ∈ rows, c.confirms = true ∧ ∀ r ∈ rows, r.rejects = true → when parse r < when parse c

section
variable {parse : String → Option Int} {assetId : String} (log : StampedLog parse assetId)

theorem gradeRejects_iff {rows : List Evidence} : gradeRejects parse rows = true ↔
    (∃ r ∈ rows, r.rejects = true) ∧ ¬ConfirmedLater parse rows := by
  have hconfirmed : ∀ moment, confirmedAfter parse (ordered parse rows) moment = false ↔
      ∀ c ∈ rows, c.confirms = true → when parse c ≤ moment := by
    intro moment
    simp only [confirmedAfter, List.any_eq_false, mem_ordered, Evidence.confirms, Bool.and_eq_true,
      decide_eq_true_eq, not_and, not_lt]
  rw [gradeRejects, rejection_isSome]
  simp only [mem_ordered, hconfirmed]
  exact exists_newest_iff

theorem rejected_iff : rejected log.rows = true ↔
    (∃ r ∈ log.rows, r.rejects = true) ∧ ¬LiftedLater log.rows := by
  have hchronological : Chronological listed (evidenceFor log.rows) := by
    refine chronological_sortBy (List.Nodup.of_map (fun k => (ofLex k).2) ?_)
    rw [List.map_map]
    exact log.unique
  have hle : ∀ r ∈ log.rows, r.rejects = true → ∀ l ∈ log.rows, l.lifts = true →
      (listed l < listed r ↔ listed l ≤ listed r) := by
    intro r hr hrejects l hl hlifts
    refine ⟨le_of_lt, fun hle => lt_of_le_of_ne hle fun heq => ?_⟩
    obtain rfl := hchronological.eq_of_key_eq (mem_evidenceFor.mpr hl) (mem_evidenceFor.mpr hr) heq
    rw [not_lifts_of_rejects hrejects] at hlifts
    cases hlifts
  have hread : (∃ r ∈ log.rows, r.rejects = true ∧
      ∀ l ∈ log.rows, l.lifts = true → listed l < listed r) ↔
        ∃ r ∈ log.rows, r.rejects = true ∧ ∀ l ∈ log.rows, l.lifts = true → listed l ≤ listed r := by
    refine exists_congr fun r => and_congr_right fun hr => and_congr_right fun hrejects => ?_
    exact forall₂_congr fun l hl => forall_congr' fun hlifts => hle r hr hrejects l hl hlifts
  rw [rejected, foldl_rejectedStep hchronological]
  simp only [mem_evidenceFor]
  rw [hread]
  exact exists_newest_iff

theorem StampedLog.le_of_text_le {x y : Evidence} (hx : x ∈ log.rows) (hy : y ∈ log.rows)
    (h : x.observedAt ≤ y.observedAt) : when parse x ≤ when parse y := by
  rcases h.lt_or_eq with hlt | heq
  · exact (log.stamped x hx y hy hlt).le
  · exact le_of_eq (congrArg (fun text => (parse text).getD minTime) heq)

theorem lifts_of_confirms {item : Evidence} (h : item.confirms = true) : item.lifts = true := by
  simp only [Evidence.confirms, Bool.and_eq_true, decide_eq_true_eq] at h
  simp [Evidence.lifts, h.1]

theorem reviewerRefuted_of_rejected (h : rejected log.rows = true) : reviewerRefuted log.rows =
    true := by
  obtain ⟨hsome, hnone⟩ := (rejected_iff log).mp h
  rw [reviewerRefuted_iff log.written]
  refine exists_newest_iff.mpr ⟨hsome, ?_⟩
  rintro ⟨l, hl, hlifts, hlater⟩
  exact hnone ⟨l, hl, hlifts, fun r hr hrejects =>
    Prod.Lex.toLex_lt_toLex.mpr (.inl (hlater r hr hrejects))⟩

theorem gradeRejects_of_reviewerRefuted (h : reviewerRefuted log.rows = true) :
    gradeRejects parse log.rows = true := by
  obtain ⟨r, hr, hrejects, hmax⟩ := (reviewerRefuted_iff log.written).mp h
  refine gradeRejects_iff.mpr ⟨⟨r, hr, hrejects⟩, ?_⟩
  rintro ⟨c, hc, hconfirms, hlater⟩
  have hle := log.le_of_text_le hc hr (hmax c hc (lifts_of_confirms hconfirms))
  exact absurd (hlater r hr hrejects) hle.not_gt

/-- **The three readings agree** unless an owner's claim or a confirmation comes after the last rejection
and no reviewer's own confirmation is later than it. -/
theorem readings_agree_iff :
    (gradeRejects parse log.rows = reviewerRefuted log.rows ∧
        reviewerRefuted log.rows = rejected log.rows) ↔
      ((∃ r ∈ log.rows, r.rejects = true) → LiftedLater log.rows → ConfirmedLater parse log.rows) := by
  have hagree : (gradeRejects parse log.rows = reviewerRefuted log.rows ∧
      reviewerRefuted log.rows = rejected log.rows) ↔
        (gradeRejects parse log.rows = true → rejected log.rows = true) := by
    have hwatch := reviewerRefuted_of_rejected log
    have hrule := gradeRejects_of_reviewerRefuted log
    cases hg : gradeRejects parse log.rows <;> cases hp : reviewerRefuted log.rows <;>
      cases hm : rejected log.rows <;> simp_all
  rw [hagree, gradeRejects_iff, rejected_iff]
  constructor
  · intro h hsome hlifted
    by_contra hconfirmed
    exact (h ⟨hsome, hconfirmed⟩).2 hlifted
  · rintro h ⟨hsome, hconfirmed⟩
    exact ⟨hsome, fun hlifted => hconfirmed (h hsome hlifted)⟩

end

/-- An account that a reviewer rejected and whose owner claimed it the day after. -/
def claimedAfterRejection : StampedLog january "acc-1" where
  rows := [
    ⟨"ievd-1", "acc-1", .reviewerReject, .refutes, "", none, "not ours", "reviewer", .reviewer,
      "2026-01-01T00:00:00+00:00"⟩,
    ⟨"ievd-2", "acc-1", .ownerClaim, .supports, "https://x.in/", none, "accounts file", "owner", .owner,
      "2026-01-02T00:00:00+00:00"⟩]
  unique := by decide
  ofAsset := by decide
  stamped := by decide
  written := by decide

/-- An owner's claim leaves the rejection standing for the rule alone. -/
theorem readings_differ :
    gradeRejects january claimedAfterRejection.rows = true ∧
      (grade january ⟨"acc-1", false⟩ claimedAfterRejection.rows 0 none).grade = .D ∧
      reviewerRefuted claimedAfterRejection.rows = false ∧ rejected claimedAfterRejection.rows =
      false := by
  decide

end GuruJi.Map
