import GuruJi.Map.Refutation
import GuruJi.Map.Store

/-!
# The run gate

`gatePass` corrects the canaries that leaked, compares the metrics of the map with those before the
pass, and puts back what a pass that regressed has changed.

* `assets_holdChanges`: what putting the grades back does to each row.
* `Guarded`, `guarded_guardCanaries`: the correction of the canaries sends the ones at B or better to
  D, and touches no other grade.
* `leaked_iff`: exactly the canaries at B or better are corrected.
-/

namespace GuruJi.Map

open GuruJi.Lib

/-! ## Metrics -/

/-- `grade_at_least`. -/
def Grade.atLeast (grade minimum : Grade) : Bool := decide (minimum.rank ≤ grade.rank)

/-- What the gate compares of `map_metrics`. -/
structure Metrics where
  canaryLeaks : List String
  seedVerificationRate : Option ℚ
  holdoutRecall : Option ℚ
  precision : Option ℚ
  deriving DecidableEq

/-- `_rejected`: refuted, with no owner or reviewer confirmation since. -/
def isRejected (rows : List Evidence) : Bool :=
  (sortBy (fun row => toLex (row.observedAt, row.evidenceId)) rows).foldl (fun rejected row =>
    if row.rejects then true
    else if row.supports && (row.kind = .ownerClaim || row.kind = .reviewerConfirm) then false
    else rejected) false

namespace MapStore

def canaryKeys (store : MapStore) : List String :=
  (store.gold.filter (·.split = .canary)).map (·.assetKey)

/-- `_ratio`. -/
def ratio (env : MapEnv) (numerator denominator : Nat) : Option ℚ :=
  if denominator = 0 then none else some (env.round4 (numerator / denominator))

def reached (store : MapStore) (item : GoldItem) : Bool :=
  (store.findAsset item.assetKey).any fun a => a.grade.atLeast item.expectedMinGrade

/-- Something other than the import itself supports the seed. -/
def isObserved (store : MapStore) (item : GoldItem) : Bool :=
  (store.findAsset item.assetKey).any fun a => (store.evidenceFor a.assetId).any fun row =>
    row.supports && row.observedVia ≠ .import

/-- What readers are shown that is known to be wrong. -/
def isWrong (store : MapStore) (a : AssetRow) : Bool :=
  store.canaryKeys.contains a.assetKey || a.entityId.any (store.lookalikes.contains ·) ||
    isRejected (store.evidenceFor a.assetId)

/-- `map_metrics`. -/
def metrics (store : MapStore) (env : MapEnv) : Metrics :=
  let verified := store.assets.filter (·.grade.atLeast .B)
  let holdout := store.gold.filter (·.split = .holdout)
  let seeds := store.gold.filter (·.split = .seed)
  { canaryLeaks := store.canaryKeys.filter fun key =>
      (store.findAsset key).any (·.grade.atLeast .B)
    seedVerificationRate := ratio env
      (seeds.filter fun item => store.reached item && store.isObserved item).length seeds.length
    holdoutRecall := ratio env (holdout.filter (store.reached ·)).length holdout.length
    precision := ratio env (verified.filter fun a => !store.isWrong a).length verified.length }

end MapStore

/-- `REGRESSION_TOLERANCE`. -/
def regressionTolerance : ℚ := 1 / 50

/-- `", ".join(sorted(keys))[:200]`. -/
def keyNames (keys : List String) : String :=
  upTo 200 (String.intercalate ", " (sortBy (fun key : String => key) keys))

def fell (env : MapEnv) (label : String) (was now : Option ℚ) : List String :=
  match was, now with
  | some was, some now =>
    if now < was - regressionTolerance then
      [label ++ " would fall from " ++ env.percent was ++ " to " ++ env.percent now]
    else []
  | _, _ => []

/-- `compare`. -/
def compare (env : MapEnv) (before after : Metrics) : List String :=
  let newLeaks := after.canaryLeaks.eraseDups.filter fun key => !before.canaryLeaks.contains key
  (if newLeaks = [] then [] else
    [Nat.repr newLeaks.length ++ " known look-alike(s) would be graded B or better: " ++
      keyNames newLeaks]) ++
    fell env "seed verification" before.seedVerificationRate after.seedVerificationRate ++
    fell env "holdout recall" before.holdoutRecall after.holdoutRecall ++
    fell env "precision" before.precision after.precision

/-! ## The gate -/

/-- The incident of a canary that was graded B or better. -/
structure Leak where
  target : String
  signals : List String
  deriving DecidableEq

def lookalikeRow (env : MapEnv) (store : MapStore) (item : GoldItem) (asset : AssetRow) :
    Evidence where
  evidenceId := env.newId store.evidence
  assetId := asset.assetId
  kind := .lookalike
  polarity := .refutes
  sourceUrl := ""
  sourceAssetId := none
  detail := upTo 500 (env.withoutNames
    ("ground truth: a known look-alike (" ++ upTo 80 item.entityName ++ ")"))
  channel := "gold"
  observedVia := .import
  observedAt := env.stamp store.evidence

def ordinary : RegradeOptions := ⟨false, none, false⟩

/-- The body of the loop of `guard_canaries`. -/
def guardCanary (env : MapEnv) (s : MapStore × List Leak) (item : GoldItem) :
    MapStore × List Leak :=
  match s.1.findAsset item.assetKey with
  | none => s
  | some asset =>
    if asset.grade.atLeast .B then
      ((s.1.addEvidence (lookalikeRow env s.1 item asset)).regrade env ordinary
          (some [asset.assetId]),
        s.2 ++ [⟨asset.assetKey, ["graded " ++ asset.grade.text]⟩])
    else s

/-- `guard_canaries`. -/
def guardCanaries (env : MapEnv) (store : MapStore) : MapStore × List Leak :=
  (sortBy (·.assetKey) (store.gold.filter (·.split = .canary))).foldl (guardCanary env) (store, [])

def publishedOf (snapshot : List AssetRow) (assetId : String) : Published :=
  match snapshot.find? (·.assetId = assetId) with
  | some previous => ⟨previous.grade, previous.gradeReasons, previous.scorerVersion⟩
  | none => ⟨.unrated, [], none⟩

namespace MapStore

/-- The rows that `hold_changes` puts back. -/
def heldRows (store : MapStore) (snapshot : List AssetRow) (canaries : List String) :
    List AssetRow :=
  store.assets.filter fun a => a.isHeld (publishedOf snapshot a.assetId) canaries

/-- `hold_changes`. -/
def holdChanges (store : MapStore) (snapshot : List AssetRow) (runId : String)
    (canaries : List String) : MapStore :=
  (store.heldRows snapshot canaries).foldl (fun s held =>
    s.update held.assetId (AssetRow.holdChange (publishedOf snapshot held.assetId) runId held)
      (keepsKeys_holdChange _ _ _)) store

def updateAll (store : MapStore) (f : AssetRow → AssetRow) (hf : KeepsKeys f) : MapStore :=
  { store with
    assets := store.assets.map f
    ids := by
      have hmap : (store.assets.map f).map (·.assetId) = store.assets.map (·.assetId) := by
        rw [List.map_map]
        exact List.map_congr_left fun r _ => (hf r).1
      rw [hmap]
      exact store.ids
    keys := by
      have hmap : (store.assets.map f).map (·.assetKey) = store.assets.map (·.assetKey) := by
        rw [List.map_map]
        exact List.map_congr_left fun r _ => (hf r).2
      rw [hmap]
      exact store.keys }

/-- `apply_proposed`. -/
def applyProposed (store : MapStore) (runId : Option String) : MapStore :=
  store.updateAll (AssetRow.applyProposed runId) fun r => by
    rw [AssetRow.applyProposed]
    split_ifs <;> exact ⟨rfl, rfl⟩

/-- `discard_proposed`. -/
def discardProposed (store : MapStore) (runId : Option String) : MapStore :=
  store.updateAll (AssetRow.discardProposed runId) fun r => by
    rw [AssetRow.discardProposed]
    split_ifs <;> exact ⟨rfl, rfl⟩

end MapStore

/-- The review item that a held pass queues. -/
structure RunGateReview where
  title : String
  fingerprint : String
  detail : String
  deriving DecidableEq

/-- What `gate_pass` returns. -/
structure GateResult where
  leaks : List Leak
  reasons : List String
  held : Nat
  review : Option RunGateReview
  deriving DecidableEq

def gateReasons (env : MapEnv) (before : Metrics) (store : MapStore) (leaks : List Leak) :
    List String :=
  let reasons := compare env before (store.metrics env)
  if leaks = [] then reasons else
    (Nat.repr leaks.length ++ " known look-alike(s) reached B or better and were set back: " ++
      keyNames (leaks.map (·.target))) :: reasons

def runGateReview (label runId : String) (reasons : List String) (held : Nat) : RunGateReview where
  title := "A " ++ label ++ " is held: its results wait for approval"
  fingerprint := "run_gate:" ++ runId
  detail := upTo 1500 (String.intercalate "; " reasons ++ ". " ++ Nat.repr held ++
    " grade change(s) are waiting; publish them or discard them.")

/-- `gate_pass`. -/
def gatePass (env : MapEnv) (store : MapStore) (before : Metrics) (snapshot : List AssetRow)
    (runId label : String) : MapStore × GateResult :=
  let guarded := guardCanaries env store
  let reasons := gateReasons env before guarded.1 guarded.2
  let canaries := guarded.2.map (·.target)
  if reasons = [] then (guarded.1, ⟨guarded.2, reasons, 0, none⟩)
  else
    let held := (guarded.1.heldRows snapshot canaries).length
    (guarded.1.holdChanges snapshot runId canaries,
      ⟨guarded.2, reasons, held, some (runGateReview label runId reasons held)⟩)

/-! ## What the gate leaves of each row -/

theorem assets_holdChanges (store : MapStore) (snapshot : List AssetRow) (runId : String)
    (canaries : List String) : (store.holdChanges snapshot runId canaries).assets =
      store.assets.map fun a =>
        if a.isHeld (publishedOf snapshot a.assetId) canaries then
          a.holdChange (publishedOf snapshot a.assetId) runId a else a := by
  have hfold : ∀ (held : List AssetRow) (s : MapStore), (held.foldl (fun s held =>
      s.update held.assetId (AssetRow.holdChange (publishedOf snapshot held.assetId) runId held)
        (keepsKeys_holdChange _ _ _)) s).assets =
      (held.map fun h => (h.assetId, h)).foldl (fun rows w => updateAt (·.assetId) w.1
        (AssetRow.holdChange (publishedOf snapshot w.2.assetId) runId w.2) rows) s.assets := by
    intro held
    induction held with
    | nil => exact fun _ => rfl
    | cons h held ih => exact fun s => ih _
  rw [MapStore.holdChanges, hfold, foldl_updateAt _
    (fun held => AssetRow.holdChange (publishedOf snapshot held.assetId) runId held)
    fun w r => (keepsKeys_holdChange _ _ _ r).1]
  refine List.map_congr_left fun a ha => ?_
  have hown : ownUpdates a.assetId ((store.heldRows snapshot canaries).map fun h => (h.assetId, h)) =
      (store.heldRows snapshot canaries).flatMap fun h => if h.assetId = a.assetId then [h] else [] := by
    rw [← List.flatMap_pure_eq_map, ownUpdates_flatMap]
    refine List.flatMap_congr fun h _ => ?_
    exact ownUpdates_pairs a.assetId h.assetId [h]
  have hids : ((store.heldRows snapshot canaries).map (·.assetId)).Nodup :=
    store.ids.sublist (List.filter_sublist.map _)
  rw [hown]
  split_ifs with hheld
  · have hmem : a ∈ store.heldRows snapshot canaries := List.mem_filter.mpr ⟨ha, hheld⟩
    have hself : ((store.heldRows snapshot canaries).flatMap fun h =>
        if h.assetId = a.assetId then [h] else []) = [a] := flatMap_of_key hids hmem fun h => [h]
    rw [hself]
    rfl
  · rw [List.flatMap_eq_nil_iff.mpr]
    · rfl
    · intro h hh
      refine if_neg fun heq => hheld ?_
      obtain ⟨hstore, hholds⟩ := List.mem_filter.mp hh
      rwa [← MapStore.eq_of_assetId hstore ha heq]

/-! ## What the correction of the canaries leaves of each row -/

section
variable {env : MapEnv} {store : MapStore}

/-- The clock is not behind the reviewers' confirmations. -/
def Dated (env : MapEnv) (store : MapStore) : Prop :=
  ∀ row ∈ store.evidence, row.confirms = true →
    ∀ log, when env.parse row ≤ (env.parse (env.stamp log)).getD minTime

/-- A row `a` of the store, and the row `b` it has become: either it was corrected, or it has lost
or got no more than the status of a dispute. -/
structure Corrected (env : MapEnv) (store : MapStore) (canaries : List String) (a b : AssetRow) :
    Prop where
  key : b.assetKey = a.assetKey
  leaked : a.assetKey ∈ canaries → a.grade.atLeast .B = true ∧ (Dated env store → b.grade = .D) ∧
    (b.proposedRunId = none ∨ b.proposedRunId = a.proposedRunId)
  other : a.assetKey ∉ canaries → b = { a with status := b.status } ∧
    (a.grade.atLeast .B = false → b.status.isSecurity = a.status.isSecurity)

/-- What holds of the store and the leaks when the canaries `seen` have been looked at. -/
structure Guarded (env : MapEnv) (store : MapStore) (seen : List GoldItem)
    (s : MapStore × List Leak) : Prop where
  ids : s.1.assets.map (·.assetId) = store.assets.map (·.assetId)
  rows : ∀ a ∈ store.assets, ∀ b ∈ s.1.assets, b.assetId = a.assetId →
    Corrected env store (s.2.map (·.target)) a b
  evidence : ∀ a ∈ store.assets, a.assetKey ∉ s.2.map (·.target) →
    s.1.evidenceFor a.assetId = store.evidenceFor a.assetId
  leaks : ∀ key ∈ s.2.map (·.target), ∃ a ∈ store.assets, a.assetKey = key ∧ ∃ item ∈ seen,
    item.assetKey = key
  found : ∀ a ∈ store.assets, a.grade.atLeast .B = true →
    (∃ item ∈ seen, item.assetKey = a.assetKey) → a.assetKey ∈ s.2.map (·.target)
  clean : s.2 = [] → s.1 = store

theorem exists_of_ids {s : MapStore} (h : s.assets.map (·.assetId) = store.assets.map (·.assetId))
    {b : AssetRow} (hb : b ∈ s.assets) : ∃ a ∈ store.assets, b.assetId = a.assetId := by
  have hmem : b.assetId ∈ store.assets.map (·.assetId) := h ▸ List.mem_map_of_mem hb
  obtain ⟨a, ha, heq⟩ := List.mem_map.mp hmem
  exact ⟨a, ha, heq.symm⟩

variable {a : AssetRow} {key : String} {s : MapStore × List Leak} {seen : List GoldItem}
  {item : GoldItem}

theorem findAsset_eq_some (h : store.findAsset key = some a) : a ∈ store.assets ∧ a.assetKey = key :=
  ⟨List.mem_of_find?_eq_some h, by simpa using List.find?_some h⟩

theorem findAsset_of_mem (ha : a ∈ store.assets) : store.findAsset a.assetKey = some a := by
  cases hfind : store.findAsset a.assetKey with
  | none => simpa using List.find?_eq_none.mp hfind a ha
  | some b =>
    obtain ⟨hb, hkey⟩ := findAsset_eq_some hfind
    rw [MapStore.eq_of_assetKey hb ha hkey]

theorem guarded_nil (env : MapEnv) (store : MapStore) : Guarded env store [] (store, []) where
  ids := rfl
  rows a ha b hb hid := by
    obtain rfl := MapStore.eq_of_assetId hb ha hid
    exact ⟨rfl, (nomatch ·), fun _ => ⟨rfl, fun _ => rfl⟩⟩
  evidence _ _ _ := rfl
  leaks _ h := nomatch h
  found _ _ _ h := by
    obtain ⟨_, h, -⟩ := h
    cases h
  clean _ := rfl

/-! ### The correction of one canary -/

theorem judge_rejected {parse : String → Option Int} {l : List Evidence}
    (h : (rejection parse l).isSome = true) (asset : Asset) (status : Option Status)
    (foundBy : Option (Table String (List String))) :
    (judge parse asset l status foundBy).1 = .D := by
  obtain ⟨item, hitem⟩ := Option.isSome_iff_exists.mp h
  rw [judge, hitem]

/-- A row that rejects an asset sends it to D, when no reviewer has confirmed it since. -/
theorem grade_rejected {parse : String → Option Int} {rows : List Evidence} {row : Evidence}
    (hrow : row ∈ rows) (hrejects : row.rejects = true)
    (hconfirmed : confirmedAfter parse rows (when parse row) = false) (asset : Asset) (now : Int)
    (foundBy : Option (Table String (List String))) :
    (grade parse asset rows now foundBy).grade = .D := by
  refine judge_rejected (rejection_isSome.mpr ⟨row, mem_ordered.mpr hrow, hrejects, ?_⟩) asset _
    foundBy
  rwa [confirmedAfter_congr fun _ => mem_ordered]

theorem grade_lookalike (hdated : Dated env store) (s : MapStore) (item : GoldItem) {asset : AssetRow}
    (hrows : s.evidenceFor asset.assetId = store.evidenceFor asset.assetId)
    (graded : List AssetRow) :
    ((s.addEvidence (lookalikeRow env s item asset)).result env graded asset).grade = .D := by
  have hown : (s.addEvidence (lookalikeRow env s item asset)).evidenceFor asset.assetId =
      store.evidenceFor asset.assetId ++ [lookalikeRow env s item asset] := by
    rw [← hrows, MapStore.evidenceFor, MapStore.addEvidence, List.filter_append,
      ← MapStore.evidenceFor]
    congr 1
    exact List.filter_cons_of_pos (by simp [lookalikeRow])
  rw [MapStore.result, hown]
  refine grade_rejected (List.mem_append_right _ List.mem_cons_self) rfl ?_ _ _ _
  have hrow : ∀ x ∈ [lookalikeRow env s item asset], x.confirms = false := by
    intro x hx
    obtain rfl := List.mem_singleton.mp hx
    rfl
  rw [confirmedAfter_append hrow]
  refine List.any_eq_false.mpr fun x hx => ?_
  -- a confirmation is not later than the clock the look-alike row was stamped with
  cases hconfirms : x.confirms with
  | false => rw [Evidence.confirms] at hconfirms; simp [hconfirms]
  | true =>
    have hle := hdated x (List.mem_of_mem_filter hx) hconfirms s.evidence
    have hwhen : when env.parse (lookalikeRow env s item asset) =
        (env.parse (env.stamp s.evidence)).getD minTime := rfl
    rw [hwhen]
    simp [hle.not_gt]

theorem mem_regrade_one {s : MapStore} {asset b : AssetRow} (hasset : asset ∈ s.assets)
    (hb : b ∈ (s.regrade env ordinary (some [asset.assetId])).assets) :
    (∃ disputed, b = asset.regrade (env.stamp s.evidence) ordinary
        (s.result env (s.wanted (some [asset.assetId])) asset) disputed) ∨
      ∃ c ∈ s.assets, c ≠ asset ∧ b = { c with status := b.status } ∧
        (c.grade.atLeast .B = false → b.status.isSecurity = c.status.isSecurity) := by
  rw [MapStore.assets_regrade] at hb
  obtain ⟨c, hc, rfl⟩ := List.mem_map.mp hb
  have hwanted : ∀ c ∈ s.assets, c ∈ s.wanted (some [asset.assetId]) ↔ c = asset := by
    intro c hc
    rw [MapStore.wanted, List.mem_filter, List.contains_iff_mem, List.mem_singleton]
    constructor
    · rintro ⟨-, hid⟩
      exact MapStore.eq_of_assetId hc hasset hid
    · rintro rfl
      exact ⟨hc, rfl⟩
  by_cases hself : c = asset
  · subst hself
    exact .inl ⟨_, MapStore.perform_graded ((hwanted c hc).mpr rfl) _⟩
  refine .inr ⟨c, hc, hself, ?_⟩
  rcases @MapStore.perform_ungraded _ env ordinary _ _ hc (mt (hwanted c hc).mp hself)
    (env.stamp s.evidence) with hsame | ⟨hdisputed, hends⟩ | ⟨hdisputed, hbegins⟩
  · rw [hsame]
    exact ⟨rfl, fun _ => rfl⟩
  · rw [hends]
    refine ⟨rfl, fun _ => ?_⟩
    rw [hdisputed]
    rfl
  · rw [hbegins]
    refine ⟨rfl, fun hlow => ?_⟩
    -- only accounts at B or better are disputed
    rw [MapStore.disputed, isDisputed, Bool.and_eq_true] at hdisputed
    have hout : ((s.wanted (some [asset.assetId])).map (·.assetId)).contains c.assetId = false := by
      rw [← Bool.not_eq_true]
      exact mt (MapStore.contains_wanted hc).mp (mt (hwanted c hc).mp hself)
    have hgrade : s.gradeAt env (s.wanted (some [asset.assetId])) c = c.grade := by
      rw [MapStore.gradeAt, hout]
      rfl
    rw [hgrade] at hdisputed
    exact absurd (hdisputed.2.symm.trans hlow) (by simp)

theorem regrade_ordinary_tag (stamp : String) (asset : AssetRow) (result : GradeResult)
    (disputed : Bool) :
    (asset.regrade stamp ordinary result disputed).proposedRunId = none ∨
      (asset.regrade stamp ordinary result disputed).proposedRunId = asset.proposedRunId := by
  by_cases hsame : result.grade = asset.grade
  · exact .inr (regrade_same stamp ordinary disputed hsame).2.2
  cases hpark : isParked ordinary asset result with
  | false => exact .inl (regrade_published stamp ordinary disputed hsame hpark).2.2
  | true =>
    rw [(regrade_parked stamp ordinary disputed hsame hpark).2.2, parkedRun]
    split_ifs
    · exact .inr rfl
    · exact .inl rfl

theorem regrade_ordinary_D (stamp : String) {asset : AssetRow} {result : GradeResult}
    (disputed : Bool) (hD : result.grade = .D) (hgrade : asset.grade.atLeast .B = true) :
    (asset.regrade stamp ordinary result disputed).grade = .D := by
  have hlow : result.grade.rank < asset.grade.rank := by
    rw [hD]
    exact lt_of_lt_of_le (by decide) (of_decide_eq_true hgrade)
  have hpark : isParked ordinary asset result = false := by
    have hfall : isFall asset result = true := by
      rw [isFall, decide_eq_true hlow, hD]
      rfl
    rw [isParked, hfall]
    simp [ordinary]
  have hne : result.grade ≠ asset.grade := fun heq => hlow.ne (congrArg _ heq)
  rw [(regrade_published stamp ordinary disputed hne hpark).1, hD]

theorem regrade_keys (s : MapStore) (o : RegradeOptions) (assetIds : Option (List String)) :
    (s.regrade env o assetIds).assets.map (·.assetId) = s.assets.map (·.assetId) := by
  have hperform : ∀ (stamp : String) (ws : List (String × Write)) (t : MapStore),
      (t.perform stamp ws).assets.map (·.assetId) = t.assets.map (·.assetId) := by
    intro stamp ws
    induction ws with
    | nil => exact fun _ => rfl
    | cons w ws ih => exact fun t => (ih _).trans ((keepsKeys_act stamp w.2).updateAt w.1 t.assets).1
  exact hperform _ _ s

theorem Corrected.other_step {canaries : List String} {a c b : AssetRow}
    (h : Corrected env store canaries a c) (hkey : a.assetKey ≠ key)
    (hb : b = { c with status := b.status })
    (hsecurity : c.grade.atLeast .B = false → b.status.isSecurity = c.status.isSecurity) :
    Corrected env store (canaries ++ [key]) a b := by
  have hmem : a.assetKey ∈ canaries ++ [key] → a.assetKey ∈ canaries := fun hmem =>
    (List.mem_append.mp hmem).resolve_right fun hlast => hkey (List.mem_singleton.mp hlast)
  refine ⟨?_, fun hleak => ?_, fun hout => ?_⟩
  · rw [hb]
    exact h.key
  · rw [hb]
    exact h.leaked (hmem hleak)
  · obtain ⟨hc, hstatus⟩ := h.other fun hleak => hout (List.mem_append_left _ hleak)
    refine ⟨?_, fun hlow => ?_⟩
    · rw [hb, hc]
    · rw [hsecurity (by rw [hc]; exact hlow), hstatus hlow]

theorem perform_keys (stamp : String) (ws : List Write) (asset : AssetRow) :
    (asset.perform stamp ws).assetId = asset.assetId ∧
      (asset.perform stamp ws).assetKey = asset.assetKey := by
  induction ws generalizing asset with
  | nil => exact ⟨rfl, rfl⟩
  | cons w ws ih =>
    obtain ⟨hid, hkey⟩ := keepsKeys_act stamp w asset
    exact ⟨(ih _).1.trans hid, (ih _).2.trans hkey⟩

theorem Corrected.self_step
    (h : Guarded env store seen s) {a c : AssetRow} (ha : a ∈ store.assets) (hc : c ∈ s.1.assets)
    (hid : c.assetId = a.assetId) (hgrade : c.grade.atLeast .B = true) (item : GoldItem)
    (graded : List AssetRow) (disputed : Bool) (stamp : String) :
    Corrected env store (s.2.map (·.target) ++ [c.assetKey]) a (c.regrade stamp ordinary
      ((s.1.addEvidence (lookalikeRow env s.1 item c)).result env graded c) disputed) := by
  have hrow := h.rows a ha c hc hid
  have hleak : a.assetKey ∈ s.2.map (·.target) ++ [c.assetKey] := by
    rw [hrow.key]
    exact List.mem_append_right _ List.mem_cons_self
  refine ⟨(perform_keys stamp _ c).2.trans hrow.key, fun _ => ?_, fun hout => absurd hleak hout⟩
  have htag := regrade_ordinary_tag stamp c
    ((s.1.addEvidence (lookalikeRow env s.1 item c)).result env graded c) disputed
  by_cases hbefore : a.assetKey ∈ s.2.map (·.target)
  · obtain ⟨hhigh, hD, hfirst⟩ := hrow.leaked hbefore
    refine ⟨hhigh, fun hdated => ?_, ?_⟩
    · rw [hD hdated] at hgrade
      cases hgrade
    · rcases htag with hnone | hsame
      · exact .inl hnone
      · exact hfirst.imp hsame.trans hsame.trans
  · obtain ⟨hc', -⟩ := hrow.other hbefore
    refine ⟨?_, fun hdated => ?_, ?_⟩
    · rw [hc'] at hgrade
      exact hgrade
    · refine regrade_ordinary_D stamp disputed (grade_lookalike hdated s.1 item ?_ graded) hgrade
      rw [hid]
      exact h.evidence a ha hbefore
    · refine htag.imp id fun hsame => hsame.trans ?_
      rw [hc']

theorem guardCanary_skip
    (hlow : ∀ c, s.1.findAsset item.assetKey = some c → c.grade.atLeast .B = false) :
    guardCanary env s item = s := by
  rw [guardCanary]
  cases hasset : s.1.findAsset item.assetKey with
  | none => rfl
  | some c => exact if_neg (by simp [hlow c hasset])

theorem guardCanary_correct {c : AssetRow}
    (hasset : s.1.findAsset item.assetKey = some c) (hgrade : c.grade.atLeast .B = true) :
    guardCanary env s item = ((s.1.addEvidence (lookalikeRow env s.1 item c)).regrade env ordinary
      (some [c.assetId]), s.2 ++ [⟨c.assetKey, ["graded " ++ c.grade.text]⟩]) := by
  rw [guardCanary, hasset]
  exact if_pos hgrade

theorem seen_snoc (h : ∃ i ∈ seen ++ [item], i.assetKey = key) :
    (∃ i ∈ seen, i.assetKey = key) ∨ item.assetKey = key := by
  obtain ⟨i, hi, hkey⟩ := h
  rcases List.mem_append.mp hi with hi | hi
  · exact .inl ⟨i, hi, hkey⟩
  · exact .inr (List.mem_singleton.mp hi ▸ hkey)

theorem Guarded.leaks_snoc (h : Guarded env store seen s) (item : GoldItem) :
    ∀ key ∈ s.2.map (·.target), ∃ a ∈ store.assets, a.assetKey = key ∧
      ∃ i ∈ seen ++ [item], i.assetKey = key := by
  intro key hkey
  obtain ⟨a, ha, hakey, i, hi, hikey⟩ := h.leaks key hkey
  exact ⟨a, ha, hakey, i, List.mem_append_left _ hi, hikey⟩

/-- A row of the store at B or better is still there, unless it has been corrected. -/
theorem Guarded.find (h : Guarded env store seen s) (ha : a ∈ store.assets)
    (hgrade : a.grade.atLeast .B = true) (hout : a.assetKey ∉ s.2.map (·.target)) :
    ∃ c, s.1.findAsset a.assetKey = some c ∧ c.grade.atLeast .B = true := by
  have hmem : a.assetId ∈ s.1.assets.map (·.assetId) := h.ids ▸ List.mem_map_of_mem ha
  obtain ⟨c, hc, hid⟩ := List.mem_map.mp hmem
  have hrow := h.rows a ha c hc hid
  refine ⟨c, ?_, ?_⟩
  · rw [← hrow.key]
    exact findAsset_of_mem hc
  · rw [(hrow.other hout).1]
    exact hgrade

theorem Guarded.skip (h : Guarded env store seen s)
    (hlow : ∀ c, s.1.findAsset item.assetKey = some c → c.grade.atLeast .B = false) :
    Guarded env store (seen ++ [item]) s := by
  refine { h with leaks := h.leaks_snoc item, found := fun a ha hgrade hitem => ?_ }
  by_contra hout
  rcases seen_snoc hitem with hitem | hkey
  · exact hout (h.found a ha hgrade hitem)
  · obtain ⟨c, hc, hhigh⟩ := h.find ha hgrade hout
    exact absurd (hhigh.symm.trans (hlow c (hkey ▸ hc))) (by simp)

theorem Guarded.correct (h : Guarded env store seen s) {c : AssetRow}
    (hasset : s.1.findAsset item.assetKey = some c) (hgrade : c.grade.atLeast .B = true) :
    Guarded env store (seen ++ [item]) ((s.1.addEvidence (lookalikeRow env s.1 item c)).regrade env
      ordinary (some [c.assetId]), s.2 ++ [⟨c.assetKey, ["graded " ++ c.grade.text]⟩]) := by
  obtain ⟨hc, hkey⟩ := findAsset_eq_some hasset
  have htargets : (s.2 ++ [(⟨c.assetKey, ["graded " ++ c.grade.text]⟩ : Leak)]).map (·.target) =
      s.2.map (·.target) ++ [c.assetKey] := List.map_append
  have hrowKey : ∀ a ∈ store.assets, ∀ b ∈ s.1.assets, b.assetId = a.assetId →
      b.assetKey = a.assetKey := fun a ha b hb hid => (h.rows a ha b hb hid).key
  refine ⟨(regrade_keys _ _ _).trans h.ids, ?_, ?_, ?_, ?_, fun hnil => ?_⟩
  · intro a ha b hb hid
    rw [htargets]
    rcases mem_regrade_one (s := s.1.addEvidence (lookalikeRow env s.1 item c)) hc hb with
      ⟨disputed, rfl⟩ | ⟨c', hc', hne, hb', hsecurity⟩
    · rw [AssetRow.regrade, (perform_keys _ _ _).1] at hid
      exact Corrected.self_step h ha hc hid hgrade item _ disputed _
    · have hid' : c'.assetId = a.assetId := by
        rw [← hid, hb']
      refine Corrected.other_step (h.rows a ha c' hc' hid') (fun heq => hne ?_) hb' hsecurity
      exact MapStore.eq_of_assetKey hc' hc ((hrowKey a ha c' hc' hid').trans heq)
  · intro a ha hout
    rw [htargets, List.mem_append, not_or] at hout
    have hne : c.assetId ≠ a.assetId := fun hid =>
      hout.2 (List.mem_singleton.mpr (hrowKey a ha c hc hid).symm)
    rw [← h.evidence a ha hout.1, MapStore.evidenceFor, (@MapStore.regrade_fields _ env _ _).1,
      MapStore.addEvidence, List.filter_append, ← MapStore.evidenceFor]
    have hrow : [lookalikeRow env s.1 item c].filter (·.assetId = a.assetId) = [] :=
      List.filter_cons_of_neg (by simp [lookalikeRow, hne])
    rw [hrow, List.append_nil]
  · intro key hleak
    rw [htargets, List.mem_append, List.mem_singleton] at hleak
    rcases hleak with hleak | rfl
    · exact h.leaks_snoc item key hleak
    · obtain ⟨a, ha, hid⟩ := exists_of_ids h.ids hc
      exact ⟨a, ha, (hrowKey a ha c hc hid).symm, item, List.mem_append_right _ List.mem_cons_self,
        hkey.symm⟩
  · intro a ha hhigh hitem
    rw [htargets, List.mem_append, List.mem_singleton]
    by_cases hout : a.assetKey ∈ s.2.map (·.target)
    · exact .inl hout
    rcases seen_snoc hitem with hitem | hitem
    · exact .inl (h.found a ha hhigh hitem)
    · exact .inr (hitem.symm.trans hkey.symm)
  · exact absurd (congrArg List.length hnil) (by simp)

theorem Guarded.step (h : Guarded env store seen s) (item : GoldItem) :
    Guarded env store (seen ++ [item]) (guardCanary env s item) := by
  by_cases hlow : ∀ c, s.1.findAsset item.assetKey = some c → c.grade.atLeast .B = false
  · rw [guardCanary_skip hlow]
    exact h.skip hlow
  · push Not at hlow
    obtain ⟨c, hasset, hgrade⟩ := hlow
    have hgrade : c.grade.atLeast .B = true := by simpa using hgrade
    rw [guardCanary_correct hasset hgrade]
    exact h.correct hasset hgrade

theorem Guarded.run (items : List GoldItem) (h : Guarded env store seen s) :
    Guarded env store (seen ++ items) (items.foldl (guardCanary env) s) := by
  induction items generalizing s seen with
  | nil => simpa using h
  | cons item items ih =>
    rw [List.append_cons]
    exact ih (h.step item)

/-- The correction of the canaries, over all of them. -/
theorem guarded_guardCanaries (env : MapEnv) (store : MapStore) : Guarded env store
    (sortBy (·.assetKey) (store.gold.filter (·.split = .canary))) (guardCanaries env store) :=
  (guarded_nil env store).run _

theorem leaked_grade (ha : a ∈ store.assets)
    (hleak : a.assetKey ∈ (guardCanaries env store).2.map (·.target)) :
    a.grade.atLeast .B = true := by
  have hguard := guarded_guardCanaries env store
  have hmem : a.assetId ∈ (guardCanaries env store).1.assets.map (·.assetId) :=
    hguard.ids ▸ List.mem_map_of_mem ha
  obtain ⟨c, hc, hid⟩ := List.mem_map.mp hmem
  exact ((hguard.rows a ha c hc hid).leaked hleak).1

theorem mem_canaryKeys : key ∈ store.canaryKeys ↔
    ∃ item ∈ sortBy (·.assetKey) (store.gold.filter (·.split = .canary)), item.assetKey = key := by
  rw [MapStore.canaryKeys, List.mem_map]
  exact exists_congr fun item => and_congr_left fun _ => mem_sortBy.symm

theorem leaked_iff (ha : a ∈ store.assets) : a.assetKey ∈ (guardCanaries env store).2.map (·.target) ↔
      a.assetKey ∈ store.canaryKeys ∧ a.grade.atLeast .B = true := by
  have hguard := guarded_guardCanaries env store
  constructor
  · intro hleak
    obtain ⟨a', ha', hkey, hitem⟩ := hguard.leaks _ hleak
    exact ⟨mem_canaryKeys.mpr hitem, leaked_grade ha hleak⟩
  · rintro ⟨hcanary, hgrade⟩
    exact hguard.found a ha hgrade (mem_canaryKeys.mp hcanary)

theorem leaks_eq_nil : (guardCanaries env store).2 = [] ↔
    ∀ a ∈ store.assets, a.assetKey ∈ store.canaryKeys → a.grade.atLeast .B = false := by
  constructor
  · intro hnil a ha hcanary
    by_contra hgrade
    have hleak := (@leaked_iff env _ _ ha).mpr ⟨hcanary, by simpa using hgrade⟩
    rw [hnil] at hleak
    cases hleak
  · intro hlow
    rw [← List.map_eq_nil_iff (f := Leak.target), List.eq_nil_iff_forall_not_mem]
    intro key hleak
    obtain ⟨a, ha, rfl, -⟩ := (guarded_guardCanaries env store).leaks key hleak
    obtain ⟨hcanary, hgrade⟩ := (leaked_iff ha).mp hleak
    rw [hlow a ha hcanary] at hgrade
    cases hgrade

end

end GuruJi.Map
