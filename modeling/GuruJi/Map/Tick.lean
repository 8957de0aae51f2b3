import GuruJi.Lib.Machine
import GuruJi.Map.Held

/-!
# A tick among reviewers

One pass of the engine (snapshot, regrades, run gate) with the decisions of reviewers between its
steps. A regrade reads the map first and writes the rows one by one afterwards; a decision is one
transaction.

* `mem_regradeWrites`: which grades an ordinary regrade publishes.
* `Inv.step`: what each action keeps.
* `verdicts_survive`: the grades that reviewers published stay published, in every run in which the
  tick does not write over a verdict and its gate does not put one back.
* `not_verdicts_survive`: a held pass puts back what a reviewer has just confirmed.
-/

namespace GuruJi.Map

open GuruJi.Lib

/-! ## The decisions of a reviewer -/

/-- `LINK_KINDS`: evidence one asset gives another by linking to it. -/
def linkKinds : List Kind := [.officialLink, .hubLink, .subdomain, .backlink]

/-- `publish=True`. -/
def publishing : RegradeOptions := ⟨false, none, true⟩

/-- The decisions that refute an asset. -/
inductive Refutation where
  | reject | lookalike | impersonation
  deriving DecidableEq

def Refutation.kind : Refutation → Kind
  | .reject => .reviewerReject
  | .lookalike => .lookalike
  | .impersonation => .impersonation

/-- `REVIEWER`: who decides, and the note. -/
structure Review where
  reviewer : String
  detail : String
  deriving DecidableEq

def reviewRow (env : MapEnv) (store : MapStore) (review : Review) (kind : Kind) (polarity : Polarity)
    (sourceAssetId : Option String) (detail assetId : String) : Evidence where
  evidenceId := env.newId store.evidence
  assetId := assetId
  kind := kind
  polarity := polarity
  sourceUrl := ""
  sourceAssetId := sourceAssetId
  detail := upTo 500 detail
  channel := upTo 100 ("reviewer:" ++ review.reviewer)
  observedVia := .reviewer
  observedAt := env.stamp store.evidence

namespace MapStore

/-- `links_from`. -/
def linksFrom (store : MapStore) (source : String) (kind : Kind) : List Evidence :=
  sortBy (fun row => toLex (row.observedAt, row.evidenceId))
    (store.evidence.filter fun row => row.sourceAssetId = some source && row.kind = kind)

/-- The assets that a source linked and that have not been told yet, sorted. -/
def linkedBy (store : MapStore) (source : String) : List String :=
  let linked := ((linkKinds.flatMap (store.linksFrom source)).filter (·.supports)).map (·.assetId)
  let told := (store.linksFrom source .sourceRefuted).map (·.assetId)
  sortBy (fun assetId => assetId)
    (linked.eraseDups.filter fun assetId => !(told.contains assetId || assetId = source))

/-- `refute_source`. -/
def refuteSource (store : MapStore) (env : MapEnv) (review : Review) (source reason : String) :
    MapStore :=
  let linked := store.linkedBy source
  let told := linked.foldl (fun s assetId => s.addEvidence
    (reviewRow env s review .sourceRefuted .refutes (some source) (upTo 120 reason) assetId)) store
  if linked = [] then told else told.regrade env publishing (some linked)

/-- `set_relation`. -/
def setRelation (store : MapStore) (assetId relation : String) : MapStore :=
  store.update assetId (fun r => { r with relation := relation }) fun _ => ⟨rfl, rfl⟩

end MapStore

/-- What a reviewer decides about an asset, or about what a run has proposed. -/
inductive Decision where
  | confirm (assetId : String) (relation : Option String)
  | refute (r : Refutation) (assetId : String)
  | publish (runId : Option String)
  | discard (runId : Option String)
  deriving DecidableEq

/-- The effects of `decide`, in one transaction. -/
def MapStore.decide (store : MapStore) (env : MapEnv) (review : Review) : Decision → MapStore
  | .confirm assetId relation =>
    let told := store.addEvidence
      (reviewRow env store review .reviewerConfirm .supports none review.detail assetId)
    let related := if named relation then told.setRelation assetId (relation.getD "") else told
    related.regrade env publishing (some [assetId])
  | .refute r assetId =>
    let told := store.addEvidence
      (reviewRow env store review r.kind .refutes none review.detail assetId)
    (told.refuteSource env review assetId (r.kind.text ++ ": " ++ review.detail)).regrade env
      publishing (some [assetId])
  | .publish runId => (guardCanaries env (store.applyProposed runId)).1
  | .discard runId => store.discardProposed runId

def MapStore.gradeOf (store : MapStore) (assetId : String) : Option Grade :=
  (store.assets.find? (·.assetId = assetId)).map (·.grade)

/-- The assets whose grade a decision published: the ones with another grade than before, and the
ones whose proposal it approved. -/
def publishedBy (before after : MapStore) (decision : Decision) : List String :=
  ((after.assets.filter fun b => !before.assets.any fun a => a.assetId = b.assetId &&
      a.grade = b.grade).map (·.assetId)) ++
    match decision with
    | .publish runId => (before.assets.filter (·.addressed runId)).map (·.assetId)
    | _ => []

/-! ## The tick -/

inductive Phase where
  | idle
  | running (before : Metrics) (snapshot : List AssetRow)
  | ended
  deriving DecidableEq

/-- The map, the tick and the verdicts of reviewers since its snapshot. `pending` are the updates
that the regrade under way has still to write, `falls` the assets it found fallen, and `late` the
ones that reviewers published since it read the map. -/
structure TickState where
  store : MapStore
  phase : Phase
  pending : List (String × Write)
  falls : List String
  late : List String
  verdicts : String → Option Grade

inductive TickAction where
  /-- `snapshot`, with the metrics before the pass. -/
  | begin
  /-- A connector records evidence. -/
  | observe (row : Evidence)
  /-- A connector finds an asset. -/
  | discover (asset : AssetRow)
  /-- A regrade of the tick reads the map. -/
  | read (assetIds : Option (List String))
  /-- It writes its next update. -/
  | write
  /-- `gate_pass`. -/
  | gate (runId label : String)
  /-- A reviewer decides. -/
  | decide (review : Review) (decision : Decision)

def Write.publishes : Write → Option Grade
  | .grade g _ false _ => some g
  | _ => none

def MapStore.discover (store : MapStore) (asset : AssetRow) : Option MapStore :=
  if h : asset.assetId ∉ store.assets.map (·.assetId) ∧ asset.assetKey ∉ store.assets.map (·.assetKey)
  then some { store with
    assets := asset :: store.assets
    ids := List.nodup_cons.mpr ⟨h.1, store.ids⟩
    keys := List.nodup_cons.mpr ⟨h.2, store.keys⟩ }
  else none

/-- The graded assets that fall to D or to a security status. -/
def MapStore.fallen (store : MapStore) (env : MapEnv) (assetIds : Option (List String)) :
    List String :=
  let graded := store.wanted assetIds
  (graded.filter fun a => isFall a (store.result env graded a)).map (·.assetId)

namespace TickState

/-- The update lowers the grade of an asset that has fallen. -/
def lowers (s : TickState) (w : String × Write) : Bool :=
  s.falls.contains w.1 && w.2.publishes.any fun g =>
    (s.store.gradeOf w.1).any fun was => decide (g.rank < was.rank)

def caught (s : TickState) (after : MapStore × GateResult) : List String :=
  ((s.store.assets.filter fun a => (after.2.leaks.map (·.target)).contains a.assetKey).map
    (·.assetId)).filter fun assetId => after.1.gradeOf assetId = some .D

/-- A verdict ends when the tick lowers the asset for a fall. -/
def clear (assetIds : List String) (verdicts : String → Option Grade) : String → Option Grade :=
  fun assetId => if assetIds.contains assetId then none else verdicts assetId

def step (env : MapEnv) (s : TickState) : TickAction → Option TickState
  | .begin =>
    match s.phase with
    | .idle => some { s with phase := .running (s.store.metrics env) s.store.assets }
    | _ => none
  | .observe row => some { s with store := s.store.addEvidence row }
  | .discover asset => (s.store.discover asset).map fun store =>
      { s with store := store, verdicts := clear [asset.assetId] s.verdicts }
  | .read assetIds =>
    match s.phase, s.pending with
    | .running _ _, [] => some { s with
        pending := s.store.regradeWrites env ordinary assetIds
        falls := s.store.fallen env assetIds
        late := [] }
    | _, _ => none
  | .write =>
    match s.pending with
    | w :: rest => some { s with
        store := s.store.update w.1 (w.2.act (env.stamp s.store.evidence)) (keepsKeys_act _ w.2)
        pending := rest
        verdicts := if s.lowers w then clear [w.1] s.verdicts else s.verdicts }
    | [] => none
  | .gate runId label =>
    match s.phase, s.pending with
    | .running before snapshot, [] =>
      let after := gatePass env s.store before snapshot runId label
      some { s with
        store := after.1
        phase := .ended
        verdicts := clear (s.caught after) s.verdicts }
    | _, _ => none
  | .decide review decision =>
    match s.phase with
    | .running _ _ =>
      let after := s.store.decide env review decision
      let set := publishedBy s.store after decision
      some { s with
        store := after
        late := set ++ s.late
        verdicts := fun assetId =>
          if set.contains assetId then after.gradeOf assetId else s.verdicts assetId }
    | _ => none

end TickState

/-- A tick over any map, with the decisions of reviewers in any order between its steps. -/
def tick (env : MapEnv) : Machine TickState TickAction where
  init s := s.phase = .idle ∧ s.pending = [] ∧ ∀ assetId, s.verdicts assetId = none
  step := TickState.step env

/-- The published grade of every asset is the verdict of the last reviewer, where there is one. -/
def TickState.Kept (s : TickState) : Prop :=
  ∀ a ∈ s.store.assets, ∀ v, s.verdicts a.assetId = some v → a.grade = v

/-- A canary that the gate will find at B or better. -/
def MapStore.leaking (store : MapStore) (a : AssetRow) : Bool :=
  store.canaryKeys.contains a.assetKey && a.grade.atLeast .B

/-- The step of the tick spares the verdicts: what a regrade reads of an asset with a verdict gives
the same grade, or parks another one, or is a fall; what it writes of an asset that a reviewer has
published meanwhile is the verdict, or is a fall; and the gate does not hold the pass, or holds it
and the snapshot has the grade of each verdict, but for falls and canaries. -/
def TickState.Spares (env : MapEnv) (s : TickState) : TickAction → Prop
  | .read assetIds => ∀ a ∈ s.store.wanted assetIds, s.verdicts a.assetId ≠ none →
      let result := s.store.result env (s.store.wanted assetIds) a
      result.grade = a.grade ∨ isParked ordinary a result = true ∨ isFall a result = true
  | .write => ∀ w ∈ s.pending.head?, w.1 ∈ s.late → ∀ g ∈ w.2.publishes, ∀ v ∈ s.verdicts w.1,
      g = v ∨ (w.1 ∈ s.falls ∧ g.rank < v.rank)
  | .gate _ _ => Dated env s.store ∧ ∀ before snapshot, s.phase = .running before snapshot →
      ((∀ a ∈ s.store.assets, s.store.leaking a = false) ∧
          compare env before (s.store.metrics env) = []) ∨
        ∀ a ∈ s.store.assets, ∀ v ∈ s.verdicts a.assetId,
          s.store.leaking a = true ∨ v = (publishedOf snapshot a.assetId).grade ∨
            (v.rank < (publishedOf snapshot a.assetId).grade.rank ∧ a.status.isSecurity = true ∧
              (v.atLeast .B = false ∨ ∀ a ∈ s.store.assets, s.store.leaking a = false))
  | _ => True

/-! ## What each action keeps -/

section
variable {env : MapEnv}

variable {store : MapStore} {s : TickState}

theorem gradeOf_of_mem {a : AssetRow} (ha : a ∈ store.assets) :
    store.gradeOf a.assetId = some a.grade := by
  rw [MapStore.gradeOf]
  cases hfind : store.assets.find? (·.assetId = a.assetId) with
  | none => simpa using List.find?_eq_none.mp hfind a ha
  | some b =>
    have hid : b.assetId = a.assetId := by simpa using List.find?_some hfind
    rw [MapStore.eq_of_assetId (List.mem_of_find?_eq_some hfind) ha hid]
    rfl

theorem grade_act (stamp : String) (w : Write) (a : AssetRow) :
    (w.act stamp a).grade = w.publishes.getD a.grade := by
  cases w with
  | status s via seenAt => cases via <;> rfl
  | restamp reasons => rfl
  | grade g reasons proposed runId => cases proposed <;> rfl

theorem publishes_statusWrites {asset : AssetRow} {result : GradeResult} {disputed : Bool} {w : Write}
    (hw : w ∈ statusWrites asset result disputed) : w.publishes = none := by
  have hone : ∀ (s : AssetStatus) (via : Option Via) (seenAt : Option String),
      w ∈ [Write.status s via seenAt] → w.publishes = none := by
    intro s via seenAt hmem
    obtain rfl := List.mem_singleton.mp hmem
    rfl
  rw [statusWrites] at hw
  split at hw
  · split_ifs at hw
    · exact hone _ _ _ hw
    · exact hone _ _ _ hw
    · cases hw
  · split_ifs at hw
    · exact hone _ _ _ hw
    · cases hw

/-- The grades that a regrade publishes: the ones that changed and are not parked. -/
theorem mem_regradeWrites {o : RegradeOptions} {assetIds : Option (List String)}
    {w : String × Write} {g : Grade} (hw : w ∈ store.regradeWrites env o assetIds)
    (hg : w.2.publishes = some g) :
    ∃ a ∈ store.wanted assetIds, w.1 = a.assetId ∧
      (store.result env (store.wanted assetIds) a).grade = g ∧ g ≠ a.grade ∧
      isParked o a (store.result env (store.wanted assetIds) a) = false := by
  rw [MapStore.regradeWrites] at hw
  rcases List.mem_append.mp hw with hw | hw
  · -- the peers get a status at most
    obtain ⟨b, -, hw⟩ := List.mem_flatMap.mp hw
    obtain ⟨w', hw', rfl⟩ := List.mem_map.mp hw
    rw [peerWrites] at hw'
    split_ifs at hw'
    · obtain rfl := List.mem_singleton.mp hw'
      cases hg
    · obtain rfl := List.mem_singleton.mp hw'
      cases hg
    · cases hw'
  · obtain ⟨a, ha, hw⟩ := List.mem_flatMap.mp hw
    obtain ⟨w', hw', rfl⟩ := List.mem_map.mp hw
    refine ⟨a, ha, rfl, ?_⟩
    rcases List.mem_append.mp hw' with hw' | hw'
    · rw [publishes_statusWrites hw'] at hg
      cases hg
    · rw [gradeWrites] at hw'
      by_cases hsame : (store.result env (store.wanted assetIds) a).grade = a.grade
      · rw [if_pos hsame] at hw'
        split_ifs at hw'
        · obtain rfl := List.mem_singleton.mp hw'
          cases hg
        · cases hw'
      · rw [if_neg hsame] at hw'
        obtain rfl := List.mem_singleton.mp hw'
        cases hpark : isParked o a (store.result env (store.wanted assetIds) a) with
        | true =>
          rw [hpark] at hg
          cases hg
        | false =>
          rw [hpark] at hg
          obtain rfl := Option.some.inj hg
          exact ⟨rfl, hsame, rfl⟩

/-- The verdicts are published, and what is still to be written of an asset with a verdict that the
regrade has seen is a fall. -/
structure TickState.Inv (s : TickState) : Prop where
  kept : s.Kept
  planned : ∀ w ∈ s.pending, ∀ g ∈ w.2.publishes, w.1 ∉ s.late → ∀ v ∈ s.verdicts w.1,
    w.1 ∈ s.falls ∧ g.rank < v.rank

theorem clear_eq_some {assetIds : List String} {verdicts : String → Option Grade} {assetId : String}
    {v : Grade} (h : TickState.clear assetIds verdicts assetId = some v) :
    assetId ∉ assetIds ∧ verdicts assetId = some v := by
  rw [TickState.clear] at h
  split_ifs at h with hmem
  exact ⟨fun hin => hmem (List.contains_iff_mem.mpr hin), h⟩

/-- A regrade that spares the verdicts plans nothing but falls of the assets that have one. -/
theorem TickState.Inv.read (h : s.Inv) {assetIds : Option (List String)}
    (hok : s.Spares env (.read assetIds)) :
    TickState.Inv { s with
      pending := s.store.regradeWrites env ordinary assetIds
      falls := s.store.fallen env assetIds
      late := [] } := by
  refine ⟨h.kept, fun w hw g hg _ v hv => ?_⟩
  obtain ⟨a, ha, hid, hresult, hne, hpark⟩ := mem_regradeWrites hw hg
  rw [hid] at hv
  have hgrade : a.grade = v := h.kept a (MapStore.wanted_sublist.subset ha) v hv
  have hhas : s.verdicts a.assetId ≠ none := by
    rw [hv]
    exact nofun
  rcases hok a ha hhas with hsame | hparked | hfall
  · exact absurd (hresult.symm.trans hsame) hne
  · exact absurd (hpark.symm.trans hparked) (by simp)
  · refine ⟨?_, ?_⟩
    · rw [hid]
      exact List.mem_map_of_mem (List.mem_filter.mpr ⟨ha, hfall⟩)
    · rw [isFall, Bool.and_eq_true] at hfall
      have hlow := of_decide_eq_true hfall.1
      rwa [hresult, hgrade] at hlow

/-- An update that spares the verdicts publishes the verdict, or ends it with a fall. -/
theorem TickState.Inv.write (h : s.Inv) {w : String × Write}
    {rest : List (String × Write)} (hpending : s.pending = w :: rest) (hok : s.Spares env .write)
    (stamp : String) :
    TickState.Inv { s with
      store := s.store.update w.1 (w.2.act stamp) (keepsKeys_act _ w.2)
      pending := rest
      verdicts := if s.lowers w then TickState.clear [w.1] s.verdicts else s.verdicts } := by
  have hverdict : ∀ assetId v, (if s.lowers w then TickState.clear [w.1] s.verdicts
      else s.verdicts) assetId = some v →
      s.verdicts assetId = some v ∧ (assetId = w.1 → s.lowers w = false) := by
    intro assetId v hv
    split_ifs at hv with hlowers
    · obtain ⟨hout, hv⟩ := clear_eq_some hv
      exact ⟨hv, fun heq => absurd (List.mem_singleton.mpr heq) hout⟩
    · exact ⟨hv, fun _ => by simpa using hlowers⟩
  refine ⟨?_, fun w' hw' g hg hlate v hv => ?_⟩
  · intro b hb v hv
    obtain ⟨a, ha, rfl⟩ := List.mem_map.mp hb
    by_cases hid : a.assetId = w.1
    · rw [if_pos hid] at hv ⊢
      rw [(keepsKeys_act stamp w.2 a).1] at hv
      obtain ⟨hv, hstays⟩ := hverdict _ _ hv
      have hgrade : a.grade = v := h.kept a ha v hv
      rw [grade_act]
      cases hg : w.2.publishes with
      | none => exact hgrade
      | some g =>
        rw [hid] at hv
        -- a verdict that is written over by a fall has ended
        have hfalls : w.1 ∈ s.falls ∧ g.rank < v.rank → g = v := by
          rintro ⟨hfall, hlow⟩
          refine absurd (hstays hid) ?_
          have hof : s.store.gradeOf w.1 = some v := by
            rw [← hid, gradeOf_of_mem ha, hgrade]
          rw [TickState.lowers, List.contains_iff_mem.mpr hfall, hg, hof]
          simp [hlow]
        by_cases hlate : w.1 ∈ s.late
        · exact (hok w (by rw [hpending]; rfl) hlate g hg v hv).elim id hfalls
        · exact hfalls (h.planned w (by rw [hpending]; exact List.mem_cons_self) g hg hlate v hv)
    · rw [if_neg hid] at hv ⊢
      exact h.kept a ha v (hverdict _ _ hv).1
  · refine h.planned w' ?_ g hg hlate v (hverdict _ _ hv).1
    rw [hpending]
    exact List.mem_cons_of_mem _ hw'

theorem TickState.Inv.decide (h : s.Inv) (after : MapStore) (decision : Decision) :
    TickState.Inv { s with
      store := after
      late := publishedBy s.store after decision ++ s.late
      verdicts := fun assetId => if (publishedBy s.store after decision).contains assetId then
        after.gradeOf assetId else s.verdicts assetId } := by
  refine ⟨fun b hb v hv => ?_, fun w hw g hg hlate v hv => ?_⟩
  · dsimp only at hv
    split_ifs at hv with hset
    · rw [gradeOf_of_mem hb] at hv
      exact Option.some.inj hv
    · -- it is in no way published, so its grade is the one it had
      have hsame : s.store.assets.any (fun a => a.assetId = b.assetId && a.grade = b.grade) = true := by
        by_contra hno
        refine hset (List.contains_iff_mem.mpr (List.mem_append_left _ ?_))
        exact List.mem_map_of_mem (List.mem_filter.mpr ⟨hb, by simpa using hno⟩)
      obtain ⟨a, ha, heq⟩ := List.any_eq_true.mp hsame
      simp only [Bool.and_eq_true, decide_eq_true_eq] at heq
      rw [← heq.2]
      exact h.kept a ha v (heq.1 ▸ hv)
  · dsimp only at hv hlate
    rw [List.mem_append, not_or] at hlate
    rw [if_neg (mt List.contains_iff_mem.mp hlate.1)] at hv
    exact h.planned w hw g hg hlate.2 v hv

theorem leaking_iff {a : AssetRow} (ha : a ∈ store.assets) :
    store.leaking a = true ↔ a.assetKey ∈ (guardCanaries env store).2.map (·.target) := by
  rw [leaked_iff ha, MapStore.leaking, Bool.and_eq_true, List.contains_iff_mem]

theorem leaks_eq_nil_of_leaking
    (hlow : ∀ a ∈ store.assets, store.leaking a = false) : (guardCanaries env store).2 = [] := by
  refine leaks_eq_nil.mpr fun a ha hcanary => ?_
  have hleaking := hlow a ha
  rw [MapStore.leaking, List.contains_iff_mem.mpr hcanary] at hleaking
  exact hleaking

theorem TickState.Inv.gate (h : s.Inv) {before : Metrics} {snapshot : List AssetRow}
    {runId label : String} (hphase : s.phase = .running before snapshot) (hpending : s.pending = [])
    (hok : s.Spares env (.gate runId label)) :
    TickState.Inv { s with
      store := (gatePass env s.store before snapshot runId label).1
      phase := .ended
      verdicts := TickState.clear (s.caught (gatePass env s.store before snapshot runId label))
        s.verdicts } := by
  obtain ⟨hdated, hspared⟩ := hok
  have hspared := hspared before snapshot hphase
  refine ⟨fun b hb v hv => ?_, fun w hw => ?_⟩
  · obtain ⟨hcaught, hv⟩ := clear_eq_some hv
    by_cases hpassed : gateReasons env before (guardCanaries env s.store).1
        (guardCanaries env s.store).2 = []
    · dsimp only at hb
      rw [gatePass_passed hpassed] at hb
      exact h.kept b hb v hv
    have hgrade := gradeOf_of_mem hb
    obtain ⟨a, ha, c, hc, hid, hrow, rfl⟩ := mem_gatePass hpassed hb
    rw [(heldOr_keys _ c).1, hid] at hv hcaught hgrade
    have hpublished : a.grade = v := h.kept a ha v hv
    by_cases hleak : a.assetKey ∈ (guardCanaries env s.store).2.map (·.target)
    · -- a canary is sent to D, and its verdict has ended
      refine absurd ?_ hcaught
      have hspare : ¬c.isHeld (publishedOf snapshot c.assetId)
          ((guardCanaries env s.store).2.map (·.target)) = true := fun hheld =>
        (isHeld_iff.mp hheld).2.1 (hrow.key ▸ hleak)
      rw [heldOr, if_neg hspare, (hrow.leaked hleak).2.1 hdated] at hgrade
      rw [TickState.caught, gatePass_result.2]
      refine List.mem_filter.mpr ⟨List.mem_map_of_mem (List.mem_filter.mpr ⟨ha, ?_⟩), ?_⟩
      · exact List.contains_iff_mem.mpr hleak
      · exact decide_eq_true hgrade
    · obtain ⟨hrest, hsecurity⟩ := hrow.other hleak
      have hsame : c.grade = v := by rw [hrest, ← hpublished]
      have hspare : ¬c.isHeld (publishedOf snapshot c.assetId)
          ((guardCanaries env s.store).2.map (·.target)) = true := by
        intro hheld
        obtain ⟨hchanged, -, hfall⟩ := isHeld_iff.mp hheld
        rw [hid, hsame] at hchanged hfall
        rcases hspared with ⟨hlow, hcompare⟩ | hspared
        · exact hpassed (gateReasons_eq_nil.mpr ⟨leaks_eq_nil_of_leaking hlow, hcompare⟩)
        · rcases hspared a ha v hv with hleaking | hwas | ⟨hlower, hstatus, hwhen⟩
          · exact hleak ((leaking_iff ha).mp hleaking)
          · exact hchanged hwas
          · refine hfall ⟨hlower, ?_⟩
            rcases hwhen with hlow | hnone
            · rw [hsecurity (hpublished ▸ hlow), hstatus]
            · have hclean := (guarded_guardCanaries env s.store).clean (leaks_eq_nil_of_leaking hnone)
              rw [hclean] at hc
              rw [MapStore.eq_of_assetId hc ha hid, hstatus]
      rw [heldOr, if_neg hspare, hsame]
  · rw [hpending] at hw
    cases hw

theorem keeps_inv : (tick env).Keeps (TickState.Spares env) TickState.Inv := by
  intro s action t h hok hstep
  cases action with
  | begin =>
    simp only [tick, TickState.step] at hstep
    split at hstep
    · obtain rfl := Option.some.inj hstep
      exact ⟨h.kept, h.planned⟩
    · cases hstep
  | observe row =>
    obtain rfl := Option.some.inj hstep
    exact ⟨h.kept, h.planned⟩
  | discover asset =>
    obtain ⟨store, hstore, rfl⟩ := Option.map_eq_some_iff.mp hstep
    rw [MapStore.discover] at hstore
    split_ifs at hstore
    obtain rfl := Option.some.inj hstore
    refine ⟨fun a ha v hv => ?_, fun w hw g hg hlate v hv => ?_⟩
    · obtain ⟨hnew, hv⟩ := clear_eq_some hv
      rcases List.mem_cons.mp ha with rfl | ha
      · exact absurd List.mem_cons_self hnew
      · exact h.kept a ha v hv
    · exact h.planned w hw g hg hlate v (clear_eq_some hv).2
  | read assetIds =>
    simp only [tick, TickState.step] at hstep
    split at hstep
    · obtain rfl := Option.some.inj hstep
      exact h.read hok
    · cases hstep
  | write =>
    simp only [tick, TickState.step] at hstep
    split at hstep
    case h_1 w rest hpending =>
      obtain rfl := Option.some.inj hstep
      exact h.write hpending hok _
    case h_2 => cases hstep
  | gate runId label =>
    simp only [tick, TickState.step] at hstep
    split at hstep
    case h_1 before snapshot hphase hpending =>
      obtain rfl := Option.some.inj hstep
      exact h.gate hphase hpending hok
    case h_2 => cases hstep
  | decide review decision =>
    simp only [tick, TickState.step] at hstep
    split at hstep
    · obtain rfl := Option.some.inj hstep
      exact h.decide _ decision
    · cases hstep

/-- **The verdicts of reviewers survive the tick**: in every run whose steps spare them, the grade
that a reviewer published stays published until the tick lowers it for a fall. -/
theorem verdicts_survive (env : MapEnv) {t : TickState}
    (h : (tick env).Reaches (TickState.Spares env) t) : t.Kept := by
  refine (h.invariant keeps_inv fun s hs => ⟨fun a _ v hv => ?_, fun w hw => ?_⟩).kept
  · rw [hs.2.2] at hv
    cases hv
  · rw [hs.2.1] at hw
    cases hw

/-- A look-alike that was imported as a canary since it was graded B. -/
def copyAtB : AssetRow :=
  { channelAtB with assetId := "ast-2", assetKey := "youtube:copy", entityId := some "ent-2" }

def channelTick (gold : List GoldItem) : TickState where
  store :=
    { assets := [channelAtC, copyAtB]
      evidence := []
      gold := gold
      lookalikes := []
      ids := by decide
      keys := by decide }
  phase := .idle
  pending := []
  falls := []
  late := []
  verdicts _ := none

/-- During the tick a reviewer confirms the channel. -/
def confirmedMeanwhile : List TickAction :=
  [.begin, .decide ⟨"prin-1", "seen"⟩ (.confirm "ast-1" none), .gate "imrn-1" "scheduled pass"]

/-- The pass is not held, and the verdict stays. -/
theorem verdicts_survive_confirmed : ∃ t, (tick stillClock).Reaches (TickState.Spares stillClock) t ∧
    t.phase = .ended ∧ t.verdicts "ast-1" = some .B ∧ t.Kept := by
  have hreach : (tick stillClock).Reaches (TickState.Spares stillClock) _ :=
    ⟨channelTick [], confirmedMeanwhile, ⟨rfl, rfl, fun _ => rfl⟩,
      .cons trivial rfl (.cons trivial rfl (.cons ⟨?_, ?_⟩ rfl (.nil _)))⟩
  · exact ⟨_, hreach, rfl, by decide +kernel, verdicts_survive stillClock hreach⟩
  · -- what the reviewer said is dated by the clock
    have hnow : ∀ row ∈ ((channelTick []).store.decide stillClock ⟨"prin-1", "seen"⟩
        (.confirm "ast-1" none)).evidence, row.observedAt = "2026-01-02T00:00:00+00:00" := by
      decide
    intro row hrow _ log
    rw [when, hnow row hrow]
    rfl
  · intro before snapshot hphase
    obtain ⟨rfl, rfl⟩ := Phase.running.inj hphase
    exact .inl (by decide +kernel)

/-- A known look-alike is caught in the same tick, so the pass is held: the channel is back at C. -/
theorem not_verdicts_survive : ¬ ∀ (env : MapEnv) (t : TickState),
    (tick env).Reaches Machine.Always t → t.phase = .ended → t.Kept := by
  intro h
  obtain ⟨t, hreach, hlost⟩ := Machine.reaches_of_exec (tick stillClock) Machine.Always
    confirmedMeanwhile (fun t => t.phase = .ended &&
      t.store.assets.any fun a => (t.verdicts a.assetId).any (· ≠ a.grade))
    (s := channelTick [⟨"youtube:copy", "Copy", .canary, .D⟩]) ⟨rfl, rfl, fun _ => rfl⟩
        (by decide)
  rw [Bool.and_eq_true] at hlost
  obtain ⟨a, ha, hv⟩ := List.any_eq_true.mp hlost.2
  obtain ⟨v, hv, hne⟩ := (Option.any_eq_true _ _).mp hv
  exact absurd (h stillClock t hreach (of_decide_eq_true hlost.1) a ha v hv).symm
    (of_decide_eq_true hne)

end

end GuruJi.Map
