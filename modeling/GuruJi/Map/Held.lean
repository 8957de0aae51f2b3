import GuruJi.Map.Gate

/-!
# Held passes

What the run gate leaves of the map: of its canaries, and of the grades of a pass that it holds.

* `mem_gatePass`: each row of the store, as a held pass leaves it.
* `groundTruth_iff`: no canary is left at B or better exactly when the pass is not held, or no canary
  is put back to what the snapshot says.
* `heldPass`: nothing of a held pass is published, and all of it waits as its proposal.
-/

namespace GuruJi.Map

open GuruJi.Lib

section
variable {env : MapEnv} {store : MapStore} {before : Metrics} {snapshot : List AssetRow}
  {runId label : String}

theorem gateReasons_eq_nil : gateReasons env before (guardCanaries env store).1
    (guardCanaries env store).2 = [] ↔
      (guardCanaries env store).2 = [] ∧ compare env before (store.metrics env) = [] := by
  rw [gateReasons]
  by_cases hnil : (guardCanaries env store).2 = []
  · rw [if_pos hnil, (guarded_guardCanaries env store).clean hnil]
    exact ⟨fun h => ⟨hnil, h⟩, fun h => h.2⟩
  · rw [if_neg hnil]
    exact ⟨(nomatch ·), fun h => absurd h.1 hnil⟩

theorem gatePass_passed (h : gateReasons env before (guardCanaries env store).1
    (guardCanaries env store).2 = []) :
    (gatePass env store before snapshot runId label).1 = store := by
  rw [gatePass]
  refine (congrArg Prod.fst (if_pos h)).trans ?_
  exact (guarded_guardCanaries env store).clean (gateReasons_eq_nil.mp h).1

theorem assets_gatePass (h : gateReasons env before (guardCanaries env store).1
    (guardCanaries env store).2 ≠ []) :
    (gatePass env store before snapshot runId label).1.assets =
      (guardCanaries env store).1.assets.map fun a =>
        if a.isHeld (publishedOf snapshot a.assetId) ((guardCanaries env store).2.map (·.target)) then
          a.holdChange (publishedOf snapshot a.assetId) runId a else a := by
  rw [gatePass]
  refine (congrArg (fun p : MapStore × GateResult => p.1.assets) (if_neg h)).trans ?_
  exact assets_holdChanges _ _ _ _

theorem gatePass_result : (gatePass env store before snapshot runId label).2.reasons =
      gateReasons env before (guardCanaries env store).1 (guardCanaries env store).2 ∧
    (gatePass env store before snapshot runId label).2.leaks = (guardCanaries env store).2 := by
  rw [gatePass]
  dsimp only
  split_ifs with h
  · exact ⟨rfl, rfl⟩
  · exact ⟨rfl, rfl⟩

theorem isHeld_iff {published : Published} {canaries : List String} {a : AssetRow} :
    a.isHeld published canaries = true ↔ a.grade ≠ published.grade ∧ a.assetKey ∉ canaries ∧
      ¬(a.grade.rank < published.grade.rank ∧ a.status.isSecurity = true) := by
  simp only [AssetRow.isHeld, Bool.and_eq_true, Bool.not_eq_true', Bool.or_eq_false_iff,
    decide_eq_false_iff_not, List.contains_eq_mem, Bool.and_eq_false_iff, not_and_or, and_assoc,
    Bool.not_eq_true, Ne]

/-- The row after the gate, by the row `c` that the correction of the canaries has left. -/
def heldOr (snapshot : List AssetRow) (canaries : List String) (runId : String) (c : AssetRow) :
    AssetRow :=
  if c.isHeld (publishedOf snapshot c.assetId) canaries then
    c.holdChange (publishedOf snapshot c.assetId) runId c else c

theorem heldOr_keys (canaries : List String) (c : AssetRow) :
    (heldOr snapshot canaries runId c).assetId = c.assetId ∧
      (heldOr snapshot canaries runId c).assetKey = c.assetKey := by
  rw [heldOr]
  split_ifs <;> exact ⟨rfl, rfl⟩

/-- Each row of the store, as a held pass leaves it. -/
theorem mem_gatePass (h : gateReasons env before (guardCanaries env store).1
    (guardCanaries env store).2 ≠ []) {b : AssetRow}
    (hb : b ∈ (gatePass env store before snapshot runId label).1.assets) :
    ∃ a ∈ store.assets, ∃ c ∈ (guardCanaries env store).1.assets, c.assetId = a.assetId ∧
      Corrected env store ((guardCanaries env store).2.map (·.target)) a c ∧
      b = heldOr snapshot ((guardCanaries env store).2.map (·.target)) runId c := by
  rw [assets_gatePass h] at hb
  obtain ⟨c, hc, rfl⟩ := List.mem_map.mp hb
  have hguard := guarded_guardCanaries env store
  obtain ⟨a, ha, hid⟩ := exists_of_ids hguard.ids hc
  exact ⟨a, ha, c, hc, hid, hguard.rows a ha c hc hid, rfl⟩

theorem ids_gatePass : (gatePass env store before snapshot runId label).1.assets.map (·.assetId) =
    store.assets.map (·.assetId) := by
  by_cases h : gateReasons env before (guardCanaries env store).1 (guardCanaries env store).2 = []
  · rw [gatePass_passed h]
  · rw [assets_gatePass h, List.map_map, ← (guarded_guardCanaries env store).ids]
    exact List.map_congr_left fun c _ => (heldOr_keys _ c).1

/-! ### Ground truth -/

theorem canary_heldOr (hdated : Dated env store) {a c : AssetRow} (ha : a ∈ store.assets)
    (hcanary : a.assetKey ∈ store.canaryKeys) (hid : c.assetId = a.assetId)
    (hrow : Corrected env store ((guardCanaries env store).2.map (·.target)) a c) :
    (heldOr snapshot ((guardCanaries env store).2.map (·.target)) runId c).grade.atLeast .B = false ↔
      (a.grade.atLeast .B = false → (publishedOf snapshot a.assetId).grade.atLeast .B = false ∨
        a.status.isSecurity = true) := by
  rw [heldOr, hid]
  cases hgrade : a.grade.atLeast .B with
  | true =>
    -- corrected, and not put back
    have hleak := (@leaked_iff env _ _ ha).mpr ⟨hcanary, hgrade⟩
    have hout : ¬c.isHeld (publishedOf snapshot a.assetId)
        ((guardCanaries env store).2.map (·.target)) = true := fun hheld =>
      (isHeld_iff.mp hheld).2.1 (hrow.key ▸ hleak)
    rw [if_neg hout, (hrow.leaked hleak).2.1 hdated]
    exact ⟨fun _ => (nomatch ·), fun _ => rfl⟩
  | false =>
    have hout : a.assetKey ∉ (guardCanaries env store).2.map (·.target) := fun hleak => by
      rw [leaked_grade ha hleak] at hgrade
      cases hgrade
    obtain ⟨hc, hsecurity⟩ := hrow.other hout
    have hsame : c.grade = a.grade := by rw [hc]
    rw [← hsecurity hgrade]
    by_cases hheld : c.isHeld (publishedOf snapshot a.assetId)
        ((guardCanaries env store).2.map (·.target)) = true
    · rw [if_pos hheld]
      obtain ⟨-, -, hspared⟩ := isHeld_iff.mp hheld
      refine ⟨fun hlow _ => .inl hlow, fun h => ?_⟩
      cases hwas : (publishedOf snapshot a.assetId).grade.atLeast .B with
      | false => exact hwas
      | true =>
        have hlower : c.grade.rank < (publishedOf snapshot a.assetId).grade.rank := by
          rw [hsame]
          have hlow : a.grade.rank < Grade.B.rank := not_le.mp (of_decide_eq_false hgrade)
          exact hlow.trans_le (of_decide_eq_true hwas)
        rcases h rfl with hno | hyes
        · exact absurd (hwas.symm.trans hno) (by simp)
        · exact absurd ⟨hlower, hyes⟩ hspared
    · rw [if_neg hheld, hsame, hgrade]
      refine ⟨fun _ _ => ?_, fun _ => rfl⟩
      rw [isHeld_iff, hrow.key] at hheld
      by_cases hchanged : c.grade = (publishedOf snapshot a.assetId).grade
      · exact .inl (by rw [← hchanged, hsame, hgrade])
      · refine .inr ?_
        by_contra hno
        exact hheld ⟨hchanged, hout, fun h => hno h.2⟩

/-- **Ground truth after a pass**: no canary is left at B or better exactly when none was and the
metrics have not regressed, or when every canary that is below B by now was below it in the
snapshot too, or its site is out of the institution's hands. -/
theorem groundTruth_iff (env : MapEnv) (store : MapStore) (before : Metrics)
    (snapshot : List AssetRow) (runId label : String) (hdated : Dated env store) :
    (∀ b ∈ (gatePass env store before snapshot runId label).1.assets,
      b.assetKey ∈ store.canaryKeys → b.grade.atLeast .B = false) ↔
    ((∀ a ∈ store.assets, a.assetKey ∈ store.canaryKeys → a.grade.atLeast .B = false) ∧
        compare env before (store.metrics env) = []) ∨
      ∀ a ∈ store.assets, a.assetKey ∈ store.canaryKeys → a.grade.atLeast .B = false →
        (publishedOf snapshot a.assetId).grade.atLeast .B = false ∨ a.status.isSecurity = true := by
  rw [← @leaks_eq_nil env, ← gateReasons_eq_nil]
  by_cases h : gateReasons env before (guardCanaries env store).1 (guardCanaries env store).2 = []
  · rw [gatePass_passed h]
    exact ⟨fun _ => .inl h, fun _ => leaks_eq_nil.mp (gateReasons_eq_nil.mp h).1⟩
  · refine Iff.trans ?_ (or_iff_right h).symm
    constructor
    · intro hlow a ha hcanary
      have hmem : a.assetId ∈ (gatePass env store before snapshot runId label).1.assets.map
          (·.assetId) := by
        rw [ids_gatePass]
        exact List.mem_map_of_mem ha
      obtain ⟨b, hb, hid⟩ := List.mem_map.mp hmem
      obtain ⟨a', ha', c, -, hid', hrow, rfl⟩ := mem_gatePass h hb
      rw [(heldOr_keys _ c).1, hid'] at hid
      obtain rfl := MapStore.eq_of_assetId ha' ha hid
      refine (canary_heldOr hdated ha hcanary hid' hrow).mp (hlow _ hb ?_)
      rwa [(heldOr_keys _ c).2, hrow.key]
    · intro hlow b hb hcanary
      obtain ⟨a, ha, c, -, hid, hrow, rfl⟩ := mem_gatePass h hb
      rw [(heldOr_keys _ c).2, hrow.key] at hcanary
      exact (canary_heldOr hdated ha hcanary hid hrow).mpr (hlow a ha hcanary)

/-- The clock of a test: no names of persons, nothing to round. -/
def stillClock : MapEnv where
  parse := january
  now := 0
  stamp _ := "2026-01-02T00:00:00+00:00"
  newId rows := "ievd-" ++ Nat.repr rows.length
  withoutNames text := text
  round4 q := q
  percent _ := ""

/-- A channel that a manager has just marked as a look-alike: it is a canary, and has fallen to D. -/
def markedChannel : AssetRow :=
  { channelAtB with grade := .D, status := .unknown }

/-- The store at the gate: the seed of the profile is lost, so the pass is held. -/
def markedStore : MapStore where
  assets := [markedChannel]
  evidence := [⟨"ievd-0", markedChannel.assetId, .lookalike, .refutes, "", none, "ground truth", "gold",
    .reviewer, "2026-01-01T00:00:00+00:00"⟩]
  gold := [⟨markedChannel.assetKey, "Another college", .canary, .B⟩, ⟨"domain:x.in", "X", .seed, .B⟩]
  lookalikes := []
  ids := by decide
  keys := by decide

def seedsReached : Metrics := ⟨[], some 1, none, some 1⟩

/-- The held pass puts the canary back to B. -/
theorem not_groundTruth :
    ¬ ∀ b ∈ (gatePass stillClock markedStore seedsReached [channelAtB] "imrn-1"
        "scheduled pass").1.assets,
      b.assetKey ∈ markedStore.canaryKeys → b.grade.atLeast .B = false := by
  decide +kernel

theorem groundTruth_iff_marked :
    (∀ b ∈ (gatePass stillClock markedStore seedsReached [channelAtB] "imrn-1"
        "scheduled pass").1.assets,
      b.assetKey ∈ markedStore.canaryKeys → b.grade.atLeast .B = false) ↔
    ((∀ a ∈ markedStore.assets, a.assetKey ∈ markedStore.canaryKeys → a.grade.atLeast .B = false) ∧
        compare stillClock seedsReached (markedStore.metrics stillClock) = []) ∨
      ∀ a ∈ markedStore.assets, a.assetKey ∈ markedStore.canaryKeys → a.grade.atLeast .B = false →
        (publishedOf [channelAtB] a.assetId).grade.atLeast .B = false ∨
          a.status.isSecurity = true :=
  groundTruth_iff stillClock markedStore seedsReached [channelAtB] "imrn-1" "scheduled pass"
    fun row hrow hconfirms => by
      obtain rfl := List.mem_singleton.mp hrow
      cases hconfirms

/-! ### A held pass -/

/-- What a held pass leaves of a row `a`: the row `b`. -/
structure Withheld (canaries : List String) (published : Published) (runId : String)
    (a b : AssetRow) : Prop where
  grade : b.grade = published.grade ∨ a.assetKey ∈ canaries ∨
    (b.grade.rank < published.grade.rank ∧ b.status.isSecurity = true)
  parked : a.assetKey ∉ canaries → b.grade ≠ a.grade →
    (b.grade = published.grade ∧ b.gradeReasons = published.reasons ∧
      b.scorerVersion = published.scorer) ∧
    b.proposedGrade = some a.grade ∧ b.proposedReasons = some a.gradeReasons ∧
      b.proposedScorer = a.scorerVersion ∧ b.proposedRunId = some runId
  rest : (a.assetKey ∈ canaries ∨ b.grade = a.grade) → b.proposedRunId ≠ some runId

theorem withheld_heldOr {a c : AssetRow} {canaries : List String} (hfresh : a.proposedRunId ≠ some runId)
    (hid : c.assetId = a.assetId) (hrow : Corrected env store canaries a c) :
    Withheld canaries (publishedOf snapshot a.assetId) runId a
      (heldOr snapshot canaries runId c) := by
  have htag : c.proposedRunId ≠ some runId := by
    by_cases hleak : a.assetKey ∈ canaries
    · rcases (hrow.leaked hleak).2.2 with hnone | hsame
      · rw [hnone]
        exact nofun
      · rwa [hsame]
    · rw [(hrow.other hleak).1]
      exact hfresh
  rw [heldOr, hid]
  by_cases hheld : c.isHeld (publishedOf snapshot a.assetId) canaries = true
  · rw [if_pos hheld]
    obtain ⟨hchanged, hout, -⟩ := isHeld_iff.mp hheld
    rw [hrow.key] at hout
    obtain ⟨hc, -⟩ := hrow.other hout
    have hgrade : c.grade = a.grade := by rw [hc]
    refine ⟨.inl rfl, fun _ _ => ⟨⟨rfl, rfl, rfl⟩, ?_, ?_, ?_, rfl⟩, fun hrest => ?_⟩
    · exact congrArg some hgrade
    · rw [AssetRow.holdChange, hc]
    · rw [AssetRow.holdChange, hc]
    · rcases hrest with hleak | hsame
      · exact absurd hleak hout
      · exact absurd (hgrade.trans hsame.symm) hchanged
  · rw [if_neg hheld]
    refine ⟨?_, fun hout hne => ?_, fun _ => htag⟩
    · rw [isHeld_iff, hrow.key] at hheld
      by_cases hsame : c.grade = (publishedOf snapshot a.assetId).grade
      · exact .inl hsame
      by_cases hleak : a.assetKey ∈ canaries
      · exact .inr (.inl hleak)
      · refine .inr (.inr ?_)
        by_contra hno
        exact hheld ⟨hsame, hleak, hno⟩
    · refine absurd ?_ hne
      rw [(hrow.other hout).1]

theorem addressed_run {b : AssetRow} (hrun : runId ≠ "") :
    b.addressed (some runId) = true ↔ b.waiting = true ∧ b.proposedRunId = some runId := by
  have hnamed : named (some runId) = true := by simpa [named] using hrun
  rw [AssetRow.addressed, hnamed]
  simp

/-- The row `c` after the approval of the run: what was put back is published again, and nothing
else changes. -/
structure Approved (canaries : List String) (a b c : AssetRow) : Prop where
  parked : a.assetKey ∉ canaries → b.grade ≠ a.grade →
    c.grade = a.grade ∧ c.gradeReasons = a.gradeReasons ∧
      c.scorerVersion = a.scorerVersion.or b.scorerVersion
  rest : (a.assetKey ∈ canaries ∨ b.grade = a.grade) → c = b

theorem Withheld.approved {canaries : List String} {published : Published} {a b : AssetRow}
    (h : Withheld canaries published runId a b) (hrun : runId ≠ "") :
    Approved canaries a b (b.applyProposed (some runId)) := by
  refine ⟨fun hout hne => ?_, fun hrest => ?_⟩
  · obtain ⟨-, hgrade, hreasons, hscorer, htag⟩ := h.parked hout hne
    have haddressed : b.addressed (some runId) = true :=
      (addressed_run hrun).mpr ⟨waiting_eq_true.mpr ⟨_, hgrade⟩, htag⟩
    rw [AssetRow.applyProposed, if_pos haddressed, hgrade, hreasons, hscorer]
    exact ⟨rfl, rfl, rfl⟩
  · have hother : ¬b.addressed (some runId) = true := fun haddressed =>
      h.rest hrest ((addressed_run hrun).mp haddressed).2
    rw [AssetRow.applyProposed, if_neg hother]

/-- **A held pass publishes none of its grades and loses none**: readers see the snapshot's grades
again, but for the canaries and for sites out of the institution's hands; the grades of the pass
wait as its proposal, which an approval publishes and a discard drops. -/
theorem heldPass (env : MapEnv) (store : MapStore) (before : Metrics) (snapshot : List AssetRow)
    (runId label : String) (hrun : runId ≠ "")
    (hfresh : ∀ a ∈ store.assets, a.proposedRunId ≠ some runId)
    (hheld : (gatePass env store before snapshot runId label).2.reasons ≠ []) :
    (gatePass env store before snapshot runId label).1.assets.map (·.assetId) =
        store.assets.map (·.assetId) ∧
      ∀ a ∈ store.assets, ∀ b ∈ (gatePass env store before snapshot runId label).1.assets,
        b.assetId = a.assetId →
          Withheld ((gatePass env store before snapshot runId label).2.leaks.map (·.target))
            (publishedOf snapshot a.assetId) runId a b ∧
          (∀ c ∈ ((gatePass env store before snapshot runId label).1.applyProposed
            (some runId)).assets, c.assetId = a.assetId →
              Approved ((gatePass env store before snapshot runId label).2.leaks.map (·.target))
                a b c) ∧
          ∀ c ∈ ((gatePass env store before snapshot runId label).1.discardProposed
            (some runId)).assets, c.assetId = a.assetId →
              c.grade = b.grade ∧ c.gradeReasons = b.gradeReasons := by
  rw [gatePass_result.1] at hheld
  rw [gatePass_result.2]
  refine ⟨ids_gatePass, fun a ha b hb hid => ?_⟩
  have hwithheld : Withheld ((guardCanaries env store).2.map (·.target))
      (publishedOf snapshot a.assetId) runId a b := by
    obtain ⟨a', ha', c, -, hid', hrow, rfl⟩ := mem_gatePass hheld hb
    rw [(heldOr_keys _ c).1, hid'] at hid
    obtain rfl := MapStore.eq_of_assetId ha' ha hid
    exact withheld_heldOr (hfresh a' ha) hid' hrow
  refine ⟨hwithheld, fun c hc hcid => ?_, fun c hc hcid => ?_⟩
  · obtain ⟨b', hb', rfl⟩ := List.mem_map.mp hc
    have hkeep : (b'.applyProposed (some runId)).assetId = b'.assetId := by
      rw [AssetRow.applyProposed]
      split_ifs <;> rfl
    obtain rfl := MapStore.eq_of_assetId hb' hb ((hkeep.symm.trans hcid).trans hid.symm)
    exact hwithheld.approved hrun
  · obtain ⟨b', hb', rfl⟩ := List.mem_map.mp hc
    have hkeep : (b'.discardProposed (some runId)).assetId = b'.assetId := by
      rw [AssetRow.discardProposed]
      split_ifs <;> rfl
    obtain rfl := MapStore.eq_of_assetId hb' hb ((hkeep.symm.trans hcid).trans hid.symm)
    rw [AssetRow.discardProposed]
    split_ifs <;> exact ⟨rfl, rfl⟩

/-- The same store, when the pass has raised the channel from C to B. -/
def raisedStore : MapStore where
  assets := [channelAtB]
  evidence := []
  gold := [⟨"domain:x.in", "X", .seed, .B⟩]
  lookalikes := []
  ids := by decide
  keys := by decide

def channelAtC : AssetRow := { channelAtB with grade := .C, gradeReasons := ["search snippet (x)"] }

theorem heldPass_raised :
    (gatePass stillClock raisedStore seedsReached [channelAtC] "imrn-1" "scheduled pass").1.assets.map
        (·.assetId) = raisedStore.assets.map (·.assetId) ∧
      ∀ a ∈ raisedStore.assets, ∀ b ∈ (gatePass stillClock raisedStore seedsReached [channelAtC]
          "imrn-1" "scheduled pass").1.assets, b.assetId = a.assetId →
        Withheld ((gatePass stillClock raisedStore seedsReached [channelAtC] "imrn-1"
            "scheduled pass").2.leaks.map (·.target)) (publishedOf [channelAtC] a.assetId) "imrn-1"
          a b ∧
        (∀ c ∈ ((gatePass stillClock raisedStore seedsReached [channelAtC] "imrn-1"
            "scheduled pass").1.applyProposed (some "imrn-1")).assets, c.assetId = a.assetId →
          Approved ((gatePass stillClock raisedStore seedsReached [channelAtC] "imrn-1"
            "scheduled pass").2.leaks.map (·.target)) a b c) ∧
        ∀ c ∈ ((gatePass stillClock raisedStore seedsReached [channelAtC] "imrn-1"
            "scheduled pass").1.discardProposed (some "imrn-1")).assets, c.assetId = a.assetId →
          c.grade = b.grade ∧ c.gradeReasons = b.gradeReasons :=
  heldPass stillClock raisedStore seedsReached [channelAtC] "imrn-1" "scheduled pass"
    (by decide) (by decide) (by decide +kernel)

end

end GuruJi.Map
