import GuruJi.Map.Retention
import Mathlib.Data.List.Forall2

/-!
# Expired free text

Retention replaces the detail of old evidence by `[expired]`, for the kinds whose detail the grading rule
only quotes, and rewords the quotes of it in the stored reasons.

* **`grade_blanked`**: whichever of these rows are blanked, grade, status and verification stay.
-/

namespace GuruJi.Map

open GuruJi.Lib

/-! ## Blanked rows -/

/-- `FREE_TEXT_KINDS`. -/
def freeTextKinds : List String := [
  "search_snippet", "imported_claim", "reviewer_confirm", "reviewer_reject", "impersonation",
      "lookalike",
  "spam_indexed", "backlink", "api_identity", "community_record"]

def Kind.isFreeText (k : Kind) : Bool := freeTextKinds.contains k.text

/-- `EXPIRED_DETAIL`. -/
def expiredDetail : String := "[expired]"

/-- A row, blanked if it is one of the chosen ones and its detail is free text. -/
def blank (chosen : Evidence → Bool) (item : Evidence) : Evidence :=
  if chosen item && item.kind.isFreeText then { item with detail := expiredDetail } else item

variable {parse : String → Option Int} {chosen : Evidence → Bool} {l : List Evidence}

section
variable (chosen) (x : Evidence)

theorem blank_eq : ∃ text, blank chosen x = { x with detail := text } := by
  unfold blank
  split_ifs
  · exact ⟨expiredDetail, rfl⟩
  · exact ⟨x.detail, rfl⟩

theorem blank_of_parsed {x : Evidence} (h : x.kind.isFreeText = false) : blank chosen x = x := by
  rw [blank, h, Bool.and_false]
  rfl

@[simp] theorem kind_blank : (blank chosen x).kind = x.kind := by
  obtain ⟨text, h⟩ := blank_eq chosen x
  rw [h]

@[simp] theorem supports_blank : (blank chosen x).supports = x.supports := by
  obtain ⟨text, h⟩ := blank_eq chosen x
  rw [h]
  rfl

@[simp] theorem refutes_blank : (blank chosen x).refutes = x.refutes := by
  obtain ⟨text, h⟩ := blank_eq chosen x
  rw [h]
  rfl

@[simp] theorem channel_blank : (blank chosen x).channel = x.channel := by
  obtain ⟨text, h⟩ := blank_eq chosen x
  rw [h]

@[simp] theorem source_blank : (blank chosen x).source = x.source := by
  obtain ⟨text, h⟩ := blank_eq chosen x
  rw [h]
  rfl

@[simp] theorem hasSource_blank : (blank chosen x).hasSource = x.hasSource := by
  obtain ⟨text, h⟩ := blank_eq chosen x
  rw [h]
  rfl

@[simp] theorem sourceUrl_blank : (blank chosen x).sourceUrl = x.sourceUrl := by
  obtain ⟨text, h⟩ := blank_eq chosen x
  rw [h]

@[simp] theorem observedVia_blank : (blank chosen x).observedVia = x.observedVia := by
  obtain ⟨text, h⟩ := blank_eq chosen x
  rw [h]

@[simp] theorem observedAt_blank : (blank chosen x).observedAt = x.observedAt := by
  obtain ⟨text, h⟩ := blank_eq chosen x
  rw [h]

@[simp] theorem when_blank : when parse (blank chosen x) = when parse x := by
  rw [when, observedAt_blank, when]

@[simp] theorem order_blank : order parse (blank chosen x) = order parse x := by
  obtain ⟨text, h⟩ := blank_eq chosen x
  rw [h]
  rfl

end

theorem ordered_map_blank (rows : List Evidence) :
    ordered parse (rows.map (blank chosen)) = (ordered parse rows).map (blank chosen) := by
  refine (List.map_insertionSort _ _ (blank chosen) rows fun a _ b _ => ?_).symm
  rw [order_blank, order_blank]

variable {p : Evidence → Bool} {x : Evidence}

theorem filter_map_blank (hp : ∀ x, p x = true → x.kind.isFreeText = false) :
    (l.map (blank chosen)).filter p = l.filter p := by
  have hsame : ∀ x, p (blank chosen x) = p x := by
    intro x
    rw [Bool.eq_iff_iff]
    constructor
    · intro h
      rwa [blank_of_parsed chosen (by rw [← kind_blank chosen x]; exact hp _ h)] at h
    · intro h
      rwa [blank_of_parsed chosen (hp x h)]
  rw [List.filter_map]
  have hcomp : p ∘ blank chosen = p := funext hsame
  rw [hcomp]
  conv_rhs => rw [← List.map_id (l.filter p)]
  refine List.map_congr_left fun x hx => ?_
  exact blank_of_parsed chosen (hp x (List.mem_filter.mp hx).2)

theorem latest_map_blank (hp : ∀ x, p (blank chosen x) = p x) :
    latest p (l.map (blank chosen)) = (latest p l).map (blank chosen) := by
  have hcomp : p ∘ blank chosen = p := funext hp
  rw [latest, latest, List.filter_map, hcomp, List.getLast?_map]

theorem latest_map_parsed (hp : ∀ x, p x = true → x.kind.isFreeText = false) :
    latest p (l.map (blank chosen)) = latest p l := by
  rw [latest, latest, filter_map_blank hp]

theorem isFreeText_of_kind {k : Kind} (h : x.kind = k) (hk : k.isFreeText = false) :
    x.kind.isFreeText = false := by rw [h, hk]

/-! ## What the rule reads of them -/

theorem confirmedAfter_blank (moment : Int) :
    confirmedAfter parse (l.map (blank chosen)) moment = confirmedAfter parse l moment := by
  rw [confirmedAfter, List.any_map, confirmedAfter]
  congr 1
  funext x
  simp

theorem verdict_blank (text : String) (x : Evidence) : (blank chosen x).verdict text =
    x.verdict text := by
  by_cases h : x.kind = .integrity
  · rw [blank_of_parsed chosen (isFreeText_of_kind h rfl)]
  · simp [Evidence.verdict, h]

theorem standing_blank (text : String) :
    standing parse text (l.map (blank chosen)) = standing parse text l := by
  rw [standing, List.any_map, standing]
  congr 1
  funext x
  simp [verdict_blank, confirmedAfter_blank]

theorem lapsedAt_blank : lapsedAt parse (l.map (blank chosen)) = lapsedAt parse l := by
  have hstep : (fun s x => lapseStep parse s (blank chosen x)) = lapseStep parse := by
    funext s x
    by_cases h : x.kind = .liveness
    · rw [blank_of_parsed chosen (isFreeText_of_kind h rfl)]
    · rw [lapseStep, lapseStep, kind_blank, if_pos h, if_pos h]
  rw [lapsedAt, List.foldl_map, hstep, lapsedAt]

theorem takeover_blank : takeover parse (l.map (blank chosen)) = takeover parse l := by
  rw [takeover, takeover, standing_blank, standing_blank, lapsedAt_blank]
  simp only [confirmedAfter_blank]

theorem parsed_of_kind {k : Kind} (hk : k.isFreeText = false)
    (h : decide (x.kind = k) = true) : x.kind.isFreeText = false :=
  isFreeText_of_kind (of_decide_eq_true h) hk

theorem latestIntegrity_blank : latestIntegrity (l.map (blank chosen)) = latestIntegrity l :=
  latest_map_parsed fun _ => parsed_of_kind rfl

theorem status_blank (now : Int) : status parse (l.map (blank chosen)) now = status parse l now := by
  have hintegrity : (l.map (blank chosen)).filter (fun item => item.kind = .integrity) =
      l.filter fun item => item.kind = .integrity :=
    filter_map_blank fun _ => parsed_of_kind rfl
  have hliveness : (l.map (blank chosen)).filter (fun item => item.kind = .liveness) =
      l.filter fun item => item.kind = .liveness :=
    filter_map_blank fun _ => parsed_of_kind rfl
  have hverdict : ∀ text, latestVerdict text (l.map (blank chosen)) = latestVerdict text l := by
    intro text
    rw [latestVerdict, latestIntegrityByChannel, hintegrity, latestVerdict, latestIntegrityByChannel]
  rw [status, status, takeover_blank, hverdict, hverdict, latestIntegrity_blank, latest, latest,
    hliveness]

theorem counts_blank (x : Evidence) :
    counts parse (l.map (blank chosen)) (blank chosen x) = counts parse l x := by
  have hrefuted : refutedSources (l.map (blank chosen)) = refutedSources l := by
    rw [refutedSources, filter_map_blank, refutedSources]
    intro x hx
    simp only [Bool.and_eq_true, decide_eq_true_eq] at hx
    exact isFreeText_of_kind hx.1.2 rfl
  have hconfigured : unconfigured (l.map (blank chosen)) = unconfigured l := by
    rw [unconfigured, latest_map_parsed fun _ => parsed_of_kind rfl, unconfigured]
  have hreassigned : reassignedAt parse (l.map (blank chosen)) = reassignedAt parse l := by
    rw [reassignedAt, filter_map_blank, reassignedAt]
    intro x hx
    simp only [Bool.and_eq_true, decide_eq_true_eq] at hx
    exact isFreeText_of_kind hx.2 rfl
  rw [counts, counts, hrefuted, hconfigured, hreassigned]
  simp

theorem verified_blank :
    verified parse (l.map (blank chosen)) = (verified parse l).map (blank chosen) := by
  have hcounts : (fun item => counts parse (l.map (blank chosen)) item &&
      [Via.live, .owner, .reviewer].contains item.observedVia) ∘ blank chosen =
      fun item => counts parse l item && [Via.live, .owner, .reviewer].contains item.observedVia := by
    funext x
    simp [counts_blank]
  rw [verified, latest, List.filter_map, hcounts, List.getLast?_map, verified, latest]

theorem rejection_blank :
    rejection parse (l.map (blank chosen)) = (rejection parse l).map (blank chosen) := by
  simp only [rejection, confirmedAfter_blank]
  exact latest_map_blank fun x => by simp

theorem losses_blank : losses parse (l.map (blank chosen)) = losses parse l := by
  rw [losses, losses, latestIntegrity_blank, filter_map_blank, filter_map_blank, filter_map_blank]
  · intro x hx
    simp only [Bool.and_eq_true, decide_eq_true_eq] at hx
    exact isFreeText_of_kind hx.2 rfl
  · intro x hx
    simp only [Bool.and_eq_true, decide_eq_true_eq] at hx
    exact isFreeText_of_kind hx.1.2 rfl
  · intro x hx
    simp only [Bool.and_eq_true, decide_eq_true_eq] at hx
    exact isFreeText_of_kind hx.2 rfl

/-! ## What it is worth -/

/-- The wording of a reason that quotes a detail. -/
def quoting (label detail : String) : String := label ++ " (" ++ upTo 80 detail ++ ")"

/-- The labels of the reasons that quote free text. -/
def quoteLabels : List String := [
  "search snippet", "backlink", "community record", "platform API identity", "confirmed by a reviewer"]

/-- A reason and its wording on the blanked log: the same, or one that quotes a blanked row. -/
def Reworded (chosen : Evidence → Bool) (l : List Evidence) (reason reason' : String) : Prop :=
  reason = reason' ∨ ∃ x ∈ l, chosen x = true ∧ x.kind.isFreeText = true ∧ ∃ label ∈ quoteLabels,
    reason = quoting label x.detail ∧ reason' = quoting label expiredDetail

/-- Blanking a row changes the wording of what it is worth at most. -/
def SameWorth (chosen : Evidence → Bool) (l : List Evidence) (worth worth' : Grade × String) : Prop :=
  worth.1 = worth'.1 ∧ Reworded chosen l worth.2 worth'.2

theorem candidate_blank (asset : Asset) (losses : Losses) (hx : x ∈ l) :
    List.Forall₂ (SameWorth chosen l) (candidate parse asset losses x).toList
      (candidate parse asset losses (blank chosen x)).toList := by
  have hsame : ∀ worths : List (Grade × String), List.Forall₂ (SameWorth chosen l) worths worths :=
    fun worths => List.forall₂_same.mpr fun _ _ => ⟨rfl, Or.inl rfl⟩
  by_cases hblanked : (chosen x && x.kind.isFreeText) = true
  · have hblank : blank chosen x = { x with detail := expiredDetail } := if_pos hblanked
    obtain ⟨hchosen, hfree⟩ := Bool.and_eq_true_iff.mp hblanked
    have hquoting : ∀ (g : Grade) (label : String), label ∈ quoteLabels →
        List.Forall₂ (SameWorth chosen l) [(g, quoting label x.detail)]
        [(g, quoting label expiredDetail)] :=
      fun g label hlabel => .cons ⟨rfl, Or.inr ⟨x, hx, hchosen, hfree, label, hlabel, rfl, rfl⟩⟩ .nil
    rw [hblank]
    cases hkind : x.kind with
    | searchSnippet =>
      simp only [candidate, hkind]
      exact hquoting .C "search snippet" (by decide)
    | reviewerConfirm =>
      simp only [candidate, hkind]
      exact hquoting .B "confirmed by a reviewer" (by decide)
    | backlink =>
      simp only [candidate, hkind]
      exact hquoting .C "backlink" (by decide)
    | apiIdentity =>
      simp only [candidate, hkind]
      exact hquoting .C "platform API identity" (by decide)
    | communityRecord =>
      simp only [candidate, hkind]
      exact hquoting .C "community record" (by decide)
    | importedClaim | reviewerReject | lookalike | impersonation | other name =>
      simp only [candidate, hkind]
      exact hsame _
    | officialLink | hubLink | subdomain | configuredDomain | directoryRecord | ownerClaim |
        identityChanged
    | sourceRefuted | anchorLost | liveness | integrity =>
      rw [hkind] at hfree
      exact absurd hfree (by decide)
  · rw [blank, if_neg hblanked]
    exact hsame _

def SameTally (chosen : Evidence → Bool) (l : List Evidence) (t t' : Tally) : Prop :=
  List.Forall₂ (SameWorth chosen l) t.candidates t'.candidates ∧ t'.channels = t.channels ∧
    t'.cameThrough = t.cameThrough

theorem sameTally_countChannel {t t' : Tally} (h : SameTally chosen l t t') (x : Evidence) :
    SameTally chosen l (countChannel t x) (countChannel t' (blank chosen x)) := by
  obtain ⟨hcandidates, hchannels, hcame⟩ := h
  unfold countChannel
  simp only [kind_blank, channel_blank, source_blank, hasSource_blank, hchannels, hcame]
  by_cases hcounts : x.kind.corroborates ∧ x.channel ≠ ""
  · rw [if_pos hcounts, if_pos hcounts]
    exact ⟨hcandidates, rfl, rfl⟩
  · rw [if_neg hcounts, if_neg hcounts]
    exact ⟨hcandidates, hchannels, hcame⟩

theorem sameTally_weighItem {t t' : Tally} (h : SameTally chosen l t t') (asset : Asset)
    (losses : Losses)
    (hx : x ∈ l) :
    SameTally chosen l (weighItem parse asset losses t x)
    (weighItem parse asset losses t' (blank chosen x)) := by
  have hwithdrawn : isWithdrawn parse losses (blank chosen x) = isWithdrawn parse losses x := by
    simp [isWithdrawn]
  have hstale : isStale parse losses (blank chosen x) = isStale parse losses x := by
    simp [isStale]
  obtain ⟨hcandidates, hchannels, hcame⟩ := h
  unfold weighItem
  rw [hwithdrawn, hstale, kind_blank]
  split_ifs with hgone hlost
  · exact ⟨hcandidates, hchannels, hcame⟩
  · -- a hub's link and a subdomain are no free text
    have hparsed : x.kind.isFreeText = false := by
      rcases hlost.2 with hkind | hkind <;> exact isFreeText_of_kind hkind rfl
    rw [blank_of_parsed chosen hparsed]
    exact ⟨List.rel_append hcandidates (.cons ⟨rfl, Or.inl rfl⟩ .nil), hchannels, hcame⟩
  · have htally : SameTally chosen l
        { t with candidates := t.candidates ++ (candidate parse asset losses x).toList }
        { t' with candidates := t'.candidates ++ (candidate parse asset losses (blank chosen x)).toList }
            :=
      ⟨List.rel_append hcandidates (candidate_blank asset losses hx), hchannels, hcame⟩
    exact sameTally_countChannel htally x

theorem sameTally_foldl (asset : Asset) (losses : Losses) {items : List Evidence}
    (hitems : ∀ x ∈ items, x ∈ l)
    {t t' : Tally} (h : SameTally chosen l t t') :
    SameTally chosen l (items.foldl (weighItem parse asset losses) t)
      ((items.map (blank chosen)).foldl (weighItem parse asset losses) t') := by
  induction items generalizing t t' with
  | nil => exact h
  | cons x items ih =>
    exact ih (fun y hy => hitems y (List.mem_cons_of_mem x hy))
      (sameTally_weighItem h asset losses (hitems x List.mem_cons_self))

/-- What the evidence is worth, with the agreement of its channels. -/
def worths (parse : String → Option Int) (asset : Asset) (ordered : List Evidence)
    (foundBy : Option (Table String (List String))) : List (Grade × String) :=
  let tally := (ordered.filter (counts parse ordered)).foldl
    (weighItem parse asset (losses parse ordered)) ⟨[], [], []⟩
  let channels := tally.cameThrough.foldl (dropDependent foundBy) tally.channels
  tally.candidates ++
    if channels.length ≥ 2 then [(.B, Nat.repr channels.length ++ " independent channels agree (" ++
      upTo 120 (channelNames channels) ++ ")")]
    else []

def bestGrade (worths : List (Grade × String)) : Option Grade :=
  (worths.find? (·.1.rank = (worths.map (·.1.rank)).foldl max 0)).map (·.1)

/-- What is said of the best grade: why, and that the site cannot vouch. -/
def wordings (worths : List (Grade × String)) (compromised : Bool) (best : Grade) :
    List String × List String :=
  ((worths.filter (·.1 = best)).map (·.2), if compromised ∧ (best = .A ∨ best = .O) then
    ["the official site is compromised; it cannot vouch for new accounts until cleaned"] else [])

theorem weigh_eq (asset : Asset) (ordered : List Evidence)
    (foundBy : Option (Table String (List String))) : weigh parse asset ordered foundBy =
      (bestGrade (worths parse asset ordered foundBy)).elim
        (.unrated, ["no supporting evidence yet"]) fun best =>
          let said := wordings (worths parse asset ordered foundBy)
            ((latestIntegrity ordered).any fun item => startsWith "compromised" item.detail) best
          (best, (said.1.eraseDups ++ said.2).take 6) := by
  unfold weigh
  dsimp only
  show _ = Option.elim (((worths parse asset ordered foundBy).find? (·.1.rank =
    ((worths parse asset ordered foundBy).map (·.1.rank)).foldl max 0)).map (·.1)) _ _
  split
  · rename_i hnone
    rw [show (worths parse asset ordered foundBy).find? (·.1.rank =
      ((worths parse asset ordered foundBy).map (·.1.rank)).foldl max 0) = none from hnone]
    rfl
  · rename_i best _ hsome
    rw [show (worths parse asset ordered foundBy).find? (·.1.rank =
      ((worths parse asset ordered foundBy).map (·.1.rank)).foldl max 0) = some (best, _) from hsome]
    rfl

theorem bestGrade_eq (worths : List (Grade × String)) : bestGrade worths =
    (worths.map Prod.fst).find? (·.rank = ((worths.map Prod.fst).map Grade.rank).foldl max 0) := by
  rw [bestGrade, List.find?_map, List.map_map]
  rfl

theorem worths_blank (asset : Asset) (foundBy : Option (Table String (List String))) :
    List.Forall₂ (SameWorth chosen l) (worths parse asset l foundBy)
      (worths parse asset (l.map (blank chosen)) foundBy) := by
  have hcounted : (l.map (blank chosen)).filter (counts parse (l.map (blank chosen))) =
      (l.filter (counts parse l)).map (blank chosen) := by
    have hcomp : counts parse (l.map (blank chosen)) ∘ blank chosen = counts parse l :=
      funext fun x => counts_blank x
    rw [List.filter_map, hcomp]
  have hstart : SameTally chosen l ⟨[], [], []⟩ ⟨[], [], []⟩ := ⟨.nil, rfl, rfl⟩
  obtain ⟨hcandidates, hchannels, hcame⟩ := sameTally_foldl asset (losses parse l)
    (fun x hx => List.mem_of_mem_filter hx) hstart
  rw [worths, worths, hcounted, losses_blank, hchannels, hcame]
  exact List.rel_append hcandidates (List.forall₂_same.mpr fun _ _ => ⟨rfl, Or.inl rfl⟩)

theorem map_fst_of_sameWorth {worths worths' : List (Grade × String)}
    (h : List.Forall₂ (SameWorth chosen l) worths worths') : worths.map Prod.fst =
        worths'.map Prod.fst := by
  induction h with
  | nil => rfl
  | cons hworth _ ih => rw [List.map_cons, List.map_cons, hworth.1, ih]

theorem bestGrade_worths_blank (asset : Asset) (foundBy : Option (Table String (List String))) :
    bestGrade (worths parse asset (l.map (blank chosen)) foundBy) =
    bestGrade (worths parse asset l foundBy) := by
  rw [bestGrade_eq, ← map_fst_of_sameWorth (worths_blank asset foundBy), bestGrade_eq]

theorem fst_judge_blank (asset : Asset) (status : Option Status)
    (foundBy : Option (Table String (List String))) :
    (judge parse asset (l.map (blank chosen)) status foundBy).1 =
    (judge parse asset l status foundBy).1 := by
  have hweigh : (weigh parse asset (l.map (blank chosen)) foundBy).1 =
    (weigh parse asset l foundBy).1 := by
    rw [weigh_eq, weigh_eq, bestGrade_worths_blank]
    cases bestGrade (worths parse asset l foundBy) with
    | none => exact Eq.refl Grade.unrated
    | some best => exact Eq.refl best
  rw [judge, judge, rejection_blank, takeover_blank]
  cases rejection parse l with
  | some item => rfl
  | none =>
    cases takeover parse l with
    | some taken => rfl
    | none =>
      by_cases hdead : status = some .dead
      · simp [hdead]
      · simpa [hdead] using hweigh

/-- **Blanking free text moves no grade**, and neither the status nor when and how the asset was
verified. -/
theorem grade_blanked (parse : String → Option Int) (asset : Asset) (rows : List Evidence) (now : Int)
    (foundBy : Option (Table String (List String))) (chosen : Evidence → Bool) :
    SameJudgement (grade parse asset (rows.map (blank chosen)) now foundBy)
      (grade parse asset rows now foundBy) := by
  have hverified : ∀ {γ : Type} (field : Evidence → γ), (∀ x, field (blank chosen x) = field x) →
      ((verified parse (ordered parse rows)).map (blank chosen)).map field =
        (verified parse (ordered parse rows)).map field := by
    intro γ field hfield
    rw [Option.map_map]
    exact congrFun (congrArg Option.map (funext hfield)) _
  simp only [SameJudgement, grade, ordered_map_blank, status_blank, verified_blank]
  exact ⟨fst_judge_blank asset _ foundBy, trivial, hverified _ (observedAt_blank chosen),
    hverified _ (observedVia_blank chosen)⟩

end GuruJi.Map
