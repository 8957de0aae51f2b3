import GuruJi.Map.Retention

/-!
# Refutations that stand

What sends an asset to D before its evidence is weighed: a rejection, a hijacked or parked verdict,
or a name that lapsed (`Refuted`). `grade_refuted`: it does so whatever else the log says.
`refutation_sticky`: rows observed later do not lift it, unless a reviewer confirms the asset.
-/

namespace GuruJi.Map

open GuruJi.Lib

/-- A reviewer rejected the asset, or it was marked a look-alike or an impersonation. -/
def Evidence.rejects (item : Evidence) : Bool :=
  item.refutes && [Kind.reviewerReject, .lookalike, .impersonation].contains item.kind

def Evidence.confirms (item : Evidence) : Bool :=
  item.supports && item.kind = .reviewerConfirm && item.observedVia = .reviewer

variable (parse : String → Option Int)

/-- A rejection, a hijacked or parked verdict or a lapse that no reviewer has answered. -/
def Refuted (rows : List Evidence) : Prop :=
  (∃ r ∈ rows, r.rejects = true ∧ confirmedAfter parse rows (when parse r) = false) ∨
    (standing parse "hijacked" rows = true ∨ standing parse "parked" rows = true) ∨
      Lapsed parse rows

variable {parse} {l : List Evidence}

theorem refuted_congr {rows rows' : List Evidence} (h : ∀ x, x ∈ rows ↔ x ∈ rows') :
    Refuted parse rows ↔ Refuted parse rows' := by
  simp only [Refuted, Lapsed, LapseBut, standing_congr h, confirmedAfter_congr h, h]

theorem rejection_isSome : (rejection parse l).isSome = true ↔
    ∃ r ∈ l, r.rejects = true ∧ confirmedAfter parse l (when parse r) = false := by
  rw [← Option.ne_none_iff_isSome, rejection, Ne, latest_eq_none]
  simp only [not_forall, exists_prop, Bool.not_eq_false, Bool.and_eq_true, Bool.not_eq_true',
    Evidence.rejects]

theorem takeover_isSome (h : Chronological (order parse) l) : (takeover parse l).isSome = true ↔
    (standing parse "hijacked" l = true ∨ standing parse "parked" l = true) ∨ Lapsed parse l := by
  classical
  rw [takeover_eq h]
  split_ifs with hhijacked hparked hlapsed
  · simp [hhijacked]
  · simp [hparked]
  · simp [hlapsed]
  · simp [hhijacked, hparked, hlapsed]

theorem refuted_iff (h : Chronological (order parse) l) : Refuted parse l ↔
    (rejection parse l).isSome = true ∨ (takeover parse l).isSome = true := by
  rw [Refuted, rejection_isSome, takeover_isSome h]

theorem judge_refuted (h : Chronological (order parse) l) (hrefuted : Refuted parse l)
    (asset : Asset) (status : Option Status) (foundBy : Option (Table String (List String))) :
    (judge parse asset l status foundBy).1 = .D := by
  unfold judge
  cases hr : rejection parse l with
  | some item => rfl
  | none =>
    cases ht : takeover parse l with
    | some taken => rfl
    | none =>
      rcases (refuted_iff h).mp hrefuted with hs | hs
      · simp [hr] at hs
      · simp [ht] at hs

theorem grade_refuted {asset : Asset} (log : EvidenceLog asset.assetId)
    (hrefuted : Refuted parse log.rows) (now : Int)
    (foundBy : Option (Table String (List String))) :
    (grade parse asset log.rows now foundBy).grade = .D :=
  judge_refuted (chronological_ordered log.unique)
    ((refuted_congr fun _ => mem_ordered).mpr hrefuted) asset _ foundBy

/-! ## Later rows -/

section
variable {rows later : List Evidence}

theorem confirmedAfter_append (hquiet : ∀ x ∈ later, x.confirms = false) (moment : Int) :
    confirmedAfter parse (rows ++ later) moment = confirmedAfter parse rows moment := by
  have hnone : (later.any fun item => item.supports && item.kind = .reviewerConfirm &&
      item.observedVia = .reviewer && moment < when parse item) = false := by
    refine List.any_eq_false.mpr fun x hx => ?_
    have hx := hquiet x hx
    rw [Evidence.confirms] at hx
    simp [hx]
  rw [confirmedAfter, List.any_append, hnone, Bool.or_false, ← confirmedAfter]

theorem standing_append (hquiet : ∀ x ∈ later, x.confirms = false) {text : String}
    (h : standing parse text rows = true) : standing parse text (rows ++ later) = true := by
  obtain ⟨x, hx, hp⟩ := List.any_eq_true.mp h
  refine List.any_eq_true.mpr ⟨x, List.mem_append_left _ hx, ?_⟩
  rwa [confirmedAfter_append hquiet]

theorem lapsed_append (hquiet : ∀ x ∈ later, x.confirms = false)
    (hlater : ∀ x ∈ later, ∀ y ∈ rows, when parse y < when parse x) (h : Lapsed parse rows) :
    Lapsed parse (rows ++ later) := by
  obtain ⟨f, hf, g, hg, hff, hgf, hday, hbetween, hconfirmed⟩ := h
  refine ⟨f, List.mem_append_left _ hf, g, List.mem_append_left _ hg, hff, hgf, hday, ?_, ?_⟩
  · intro s hs hss hfs hsg
    rcases List.mem_append.mp hs with hs | hs
    · exact hbetween s hs hss hfs hsg
    · exact absurd hsg (order_lt_of_when (hlater s hs g hg)).not_gt
  · rwa [confirmedAfter_append hquiet]

theorem Refuted.append (h : Refuted parse rows) (hquiet : ∀ x ∈ later, x.confirms = false)
    (hlater : ∀ x ∈ later, ∀ y ∈ rows, when parse y < when parse x) :
    Refuted parse (rows ++ later) := by
  rcases h with ⟨r, hr, hrejects, hconfirmed⟩ | (hhijacked | hparked) | hlapsed
  · refine .inl ⟨r, List.mem_append_left _ hr, hrejects, ?_⟩
    rwa [confirmedAfter_append hquiet]
  · exact .inr (.inl (.inl (standing_append hquiet hhijacked)))
  · exact .inr (.inl (.inr (standing_append hquiet hparked)))
  · exact .inr (.inr (lapsed_append hquiet hlater hlapsed))

end

/-- **A refutation is sticky**: the grade of a refuted asset is D, and stays D whatever is observed
later, until a reviewer confirms the asset. -/
theorem refutation_sticky (parse : String → Option Int) (asset : Asset)
    (log extended : EvidenceLog asset.assetId) (later : List Evidence)
    (hrows : extended.rows = log.rows ++ later)
    (hlater : ∀ x ∈ later, ∀ y ∈ log.rows, when parse y < when parse x)
    (hquiet : ∀ x ∈ later, x.confirms = false) (hrefuted : Refuted parse log.rows)
    (now now' : Int) (foundBy foundBy' : Option (Table String (List String))) :
    (grade parse asset log.rows now foundBy).grade = .D ∧
      (grade parse asset extended.rows now' foundBy').grade = .D := by
  refine ⟨grade_refuted log hrefuted now foundBy, grade_refuted extended ?_ now' foundBy'⟩
  rw [hrows]
  exact hrefuted.append hquiet hlater

def markedLookalike : EvidenceLog "dom-1" where
  rows := [
    ⟨"ievd-1", "dom-1", .lookalike, .refutes, "", none, "another college's name", "reviewer",
      .reviewer, "2026-01-01T00:00:00+00:00"⟩]
  unique := by decide
  ofAsset := by decide

/-- The same site after its owner's token, the profile, a regulator and a clean check spoke for it. -/
def vouchedLater : EvidenceLog "dom-1" where
  rows := markedLookalike.rows ++ [
    ⟨"ievd-2", "dom-1", .ownerClaim, .supports, "https://x.in/", none, "meta tag", "owner", .owner,
      "2026-01-02T00:00:00+00:00"⟩,
    ⟨"ievd-3", "dom-1", .configuredDomain, .supports, "", none, "profile of X", "profile", .reviewer,
      "2026-01-03T00:00:00+00:00"⟩,
    ⟨"ievd-4", "dom-1", .directoryRecord, .supports, "", none, "authority:aicte", "aicte", .index,
      "2026-01-03T00:00:00+00:00"⟩,
    ⟨"ievd-5", "dom-1", .integrity, .supports, "https://x.in/", none, "clean:", "site:x.in", .live,
      "2026-01-04T00:00:00+00:00"⟩]
  unique := by decide
  ofAsset := by decide

theorem refutation_sticky_vouchedLater :
    (grade january ⟨"dom-1", true⟩ markedLookalike.rows 0 none).grade = .D ∧
      (grade january ⟨"dom-1", true⟩ vouchedLater.rows 0 none).grade = .D :=
  refutation_sticky january ⟨"dom-1", true⟩ markedLookalike vouchedLater _ rfl
    (by decide) (by decide)
    (.inl ⟨_, List.mem_cons_self, by decide, by decide⟩) 0 0 none none

end GuruJi.Map
