import GuruJi.Lib.Machine
import GuruJi.Map.Grading

/-!
# Published grades and waiting proposals

A row of `intel_assets` carries the grade readers see and, while a run waits for a manager, the grade
that run computed (`proposed_*`). This module has the updates of such a row and what a regrade
decides for it (`regradeAsset`).

* `Operation.spec`: what each operation does to a waiting proposal.
* `ownership_iff`: a waiting proposal keeps the run that parked it, and nothing but a reviewer or an
  urgent fall publishes over it, in exactly the runs in which every operation spares it.
* `not_ownership`: a held pass takes over the proposal of another run.
-/

namespace GuruJi.Map

open GuruJi.Lib

/-- `intel_assets.status`: what the checks say, or that nothing is known or that it is disputed. -/
inductive AssetStatus where
  | unknown | disputed | seen (s : Status)
  deriving DecidableEq

/-- `SECURITY_STATUSES`: the site is out of the institution's hands. -/
def AssetStatus.isSecurity : AssetStatus → Bool
  | .seen .compromised | .seen .hijacked | .seen .parked | .seen .redirected | .seen .dead => true
  | _ => false

structure AssetRow where
  assetId : String
  assetKey : String
  entityId : Option String
  platform : String
  kind : String
  relation : String
  status : AssetStatus
  lastVerifiedAt : Option String
  lastVerifiedVia : Option Via
  grade : Grade
  gradeReasons : List String
  scorerVersion : Option String
  proposedGrade : Option Grade
  proposedReasons : Option (List String)
  proposedScorer : Option String
  proposedRunId : Option String
  deriving DecidableEq

/-- `SCORER_VERSION`. -/
def scorerVersion : String := "grader-2"

/-- Whether a text column holds something: `NULL` and the empty text do not. -/
def named (column : Option String) : Bool := column.any (· ≠ "")

/-- What readers saw of an asset before a pass: an asset that is new was unrated. -/
structure Published where
  grade : Grade
  reasons : List String
  scorer : Option String
  deriving DecidableEq

namespace AssetRow

def toAsset (asset : AssetRow) : Asset := ⟨asset.assetId, asset.kind = "domain"⟩

def waiting (asset : AssetRow) : Bool := asset.proposedGrade.isSome

def clearProposal (asset : AssetRow) : AssetRow :=
  { asset with proposedGrade := none, proposedReasons := none, proposedScorer := none,
               proposedRunId := none }

/-- `set_grade`. -/
def setGrade (grade : Grade) (reasons : List String) (scorer : String) (proposed : Bool)
    (runId : Option String) (asset : AssetRow) : AssetRow :=
  if proposed then
    { asset with proposedGrade := some grade, proposedReasons := some reasons,
                 proposedScorer := some scorer, proposedRunId := runId }
  else
    { asset.clearProposal with grade := grade, gradeReasons := reasons,
                               scorerVersion := some scorer }

/-- `restamp_grade`. -/
def restampGrade (reasons : List String) (scorer : String) (asset : AssetRow) : AssetRow :=
  { asset with gradeReasons := reasons, scorerVersion := some scorer }

/-- `set_status`; `stamp` is the clock. -/
def setStatus (stamp : String) (status : AssetStatus) (verifiedVia : Option Via)
    (verifiedAt : Option String) (asset : AssetRow) : AssetRow :=
  match verifiedVia with
  | some via => { asset with
      status := status
      lastVerifiedAt := some (if named verifiedAt then verifiedAt.getD "" else stamp)
      lastVerifiedVia := some via }
  | none => { asset with status := status }

/-- Whether an order to publish or discard the proposals of a run, or all of them, is about this
one. -/
def addressed (runId : Option String) (asset : AssetRow) : Bool :=
  asset.waiting && (!named runId || asset.proposedRunId == runId)

/-- `apply_proposed`. -/
def applyProposed (runId : Option String) (asset : AssetRow) : AssetRow :=
  if asset.addressed runId then
    { asset.clearProposal with
      grade := asset.proposedGrade.getD asset.grade
      gradeReasons := asset.proposedReasons.getD asset.gradeReasons
      scorerVersion := asset.proposedScorer.or asset.scorerVersion }
  else asset

/-- `discard_proposed`. -/
def discardProposed (runId : Option String) (asset : AssetRow) : AssetRow :=
  if asset.addressed runId then
    { asset.clearProposal with scorerVersion := asset.proposedScorer.or asset.scorerVersion }
  else asset

/-- `store.hold_changes` on one asset. -/
def holdChange (before : Published) (runId : String) (held asset : AssetRow) : AssetRow :=
  { asset with
    grade := before.grade
    gradeReasons := before.reasons
    scorerVersion := before.scorer
    proposedGrade := some held.grade
    proposedReasons := some held.gradeReasons
    proposedScorer := held.scorerVersion
    proposedRunId := some runId }

/-- Whether `hold_changes` of a held pass puts the grade of the asset back. -/
def isHeld (before : Published) (canaries : List String) (asset : AssetRow) : Bool :=
  !(asset.grade = before.grade || canaries.contains asset.assetKey) &&
    !(decide (asset.grade.rank < before.grade.rank) && asset.status.isSecurity)

end AssetRow

/-! ## What a regrade decides for one asset -/

/-- The options of `regrade`. -/
structure RegradeOptions where
  proposed : Bool
  runId : Option String
  publish : Bool
  deriving DecidableEq

/-- One `UPDATE` of a regrade. -/
inductive Write where
  | status (status : AssetStatus) (verifiedVia : Option Via) (verifiedAt : Option String)
  | restamp (reasons : List String)
  | grade (grade : Grade) (reasons : List String) (proposed : Bool) (runId : Option String)
  deriving DecidableEq

def Write.act (stamp : String) : Write → AssetRow → AssetRow
  | .status s via at' => AssetRow.setStatus stamp s via at'
  | .restamp reasons => AssetRow.restampGrade reasons scorerVersion
  | .grade g reasons proposed runId => AssetRow.setGrade g reasons scorerVersion proposed runId

def newStatus (asset : AssetRow) (result : GradeResult) (disputed : Bool) : Option AssetStatus :=
  if disputed then some .disputed
  else match result.status with
    | some s => some (.seen s)
    | none => if asset.status = .disputed then some .unknown else none

def statusWrites (asset : AssetRow) (result : GradeResult) (disputed : Bool) : List Write :=
  let confirmed := if named result.verifiedAt ∧ result.verifiedAt ≠ asset.lastVerifiedAt then
    [Write.status asset.status result.verifiedVia result.verifiedAt] else []
  match newStatus asset result disputed with
  | some s => if s ≠ asset.status then [.status s result.verifiedVia result.verifiedAt] else confirmed
  | none => confirmed

def isStaleScore (asset : AssetRow) : Bool :=
  named asset.scorerVersion && asset.scorerVersion != some scorerVersion

/-- A fall to D, or of a site out of the institution's hands. -/
def isFall (asset : AssetRow) (result : GradeResult) : Bool :=
  decide (result.grade.rank < asset.grade.rank) &&
    (result.grade = .D || ((result.status.map AssetStatus.seen).getD asset.status).isSecurity)

def isParked (o : RegradeOptions) (asset : AssetRow) (result : GradeResult) : Bool :=
  o.proposed || (isStaleScore asset || asset.waiting) && !(o.publish || isFall asset result)

/-- The run a parked grade is tagged with: never another run than the one that waits. -/
def parkedRun (o : RegradeOptions) (asset : AssetRow) : Option String :=
  if named asset.proposedRunId then asset.proposedRunId else o.runId

def gradeWrites (o : RegradeOptions) (asset : AssetRow) (result : GradeResult) : List Write :=
  if result.grade = asset.grade then
    if isStaleScore asset ∨ result.reasons ≠ asset.gradeReasons then [.restamp result.reasons] else []
  else
    [.grade result.grade result.reasons (isParked o asset result)
      (if isParked o asset result then parkedRun o asset else none)]

/-- The body of the last loop of `regrade`: what it writes of an asset it graded. -/
def regradeAsset (o : RegradeOptions) (asset : AssetRow) (result : GradeResult) (disputed : Bool) :
    List Write :=
  statusWrites asset result disputed ++ gradeWrites o asset result

def AssetRow.perform (stamp : String) (ws : List Write) (asset : AssetRow) : AssetRow :=
  ws.foldl (fun r w => w.act stamp r) asset

def AssetRow.regrade (stamp : String) (o : RegradeOptions) (result : GradeResult) (disputed : Bool)
    (asset : AssetRow) : AssetRow :=
  asset.perform stamp (regradeAsset o asset result disputed)

/-! ## What a regrade leaves -/

section
variable (stamp : String) (o : RegradeOptions) (disputed : Bool) {asset : AssetRow}
  {result : GradeResult}

theorem perform_statusWrites (stamp : String) (asset : AssetRow) (result : GradeResult)
    (disputed : Bool) : ∃ status seenAt via,
      asset.perform stamp (statusWrites asset result disputed) =
        { asset with status := status, lastVerifiedAt := seenAt, lastVerifiedVia := via } := by
  have hone : ∀ w : List Write, (w = [] ∨ ∃ s via seenAt, w = [.status s via seenAt]) →
      ∃ status seenAt via, asset.perform stamp w =
        { asset with status := status, lastVerifiedAt := seenAt, lastVerifiedVia := via } := by
    rintro w (rfl | ⟨s, via, seenAt, rfl⟩)
    · exact ⟨_, _, _, rfl⟩
    · cases via with
      | none => exact ⟨_, _, _, rfl⟩
      | some via => exact ⟨_, _, _, rfl⟩
  refine hone _ ?_
  rw [statusWrites]
  cases newStatus asset result disputed with
  | none =>
    dsimp only
    split_ifs
    · exact .inr ⟨_, _, _, rfl⟩
    · exact .inl rfl
  | some s =>
    dsimp only
    split_ifs
    · exact .inr ⟨_, _, _, rfl⟩
    · exact .inr ⟨_, _, _, rfl⟩
    · exact .inl rfl

theorem regrade_eq (stamp : String) (o : RegradeOptions) (asset : AssetRow) (result : GradeResult)
    (disputed : Bool) : ∃ status seenAt via, asset.regrade stamp o result disputed =
      { asset with status := status, lastVerifiedAt := seenAt,
                   lastVerifiedVia := via }.perform stamp (gradeWrites o asset result) := by
  obtain ⟨status, seenAt, via, hstatus⟩ := perform_statusWrites stamp asset result disputed
  refine ⟨status, seenAt, via, ?_⟩
  rw [← hstatus, AssetRow.regrade, regradeAsset]
  exact List.foldl_append

theorem regrade_same (h : result.grade = asset.grade) :
    (asset.regrade stamp o result disputed).grade = asset.grade ∧
      (asset.regrade stamp o result disputed).proposedGrade = asset.proposedGrade ∧
      (asset.regrade stamp o result disputed).proposedRunId = asset.proposedRunId := by
  obtain ⟨status, seenAt, via, heq⟩ := regrade_eq stamp o asset result disputed
  rw [heq, gradeWrites, if_pos h]
  split_ifs <;> exact ⟨rfl, rfl, rfl⟩

/-- A parked grade leaves the published one, and is tagged with the run that waits already. -/
theorem regrade_parked (h : result.grade ≠ asset.grade) (hpark : isParked o asset result = true) :
    (asset.regrade stamp o result disputed).grade = asset.grade ∧
      (asset.regrade stamp o result disputed).proposedGrade = some result.grade ∧
      (asset.regrade stamp o result disputed).proposedRunId = parkedRun o asset := by
  obtain ⟨status, seenAt, via, heq⟩ := regrade_eq stamp o asset result disputed
  rw [heq, gradeWrites, if_neg h, hpark]
  exact ⟨rfl, rfl, rfl⟩

theorem regrade_published (h : result.grade ≠ asset.grade) (hpark : isParked o asset result = false) :
    (asset.regrade stamp o result disputed).grade = result.grade ∧
      (asset.regrade stamp o result disputed).proposedGrade = none ∧
      (asset.regrade stamp o result disputed).proposedRunId = none := by
  obtain ⟨status, seenAt, via, heq⟩ := regrade_eq stamp o asset result disputed
  rw [heq, gradeWrites, if_neg h, hpark]
  exact ⟨rfl, rfl, rfl⟩

end

/-! ## Operations on one asset -/

/-- The operations that write the grade or the proposal of an asset. -/
inductive Operation where
  | regrade (o : RegradeOptions) (result : GradeResult) (disputed : Bool)
  | restamp (reasons : List String) (scorer : String)
  | hold (before : Published) (canaries : List String) (runId : String)
  | apply (runId : Option String)
  | discard (runId : Option String)

namespace Operation

def act (stamp : String) : Operation → AssetRow → AssetRow
  | .regrade o result disputed, asset => asset.regrade stamp o result disputed
  | .restamp reasons scorer, asset => asset.restampGrade reasons scorer
  | .hold before canaries runId, asset =>
    if asset.isHeld before canaries then asset.holdChange before runId asset else asset
  | .apply runId, asset => asset.applyProposed runId
  | .discard runId, asset => asset.discardProposed runId

/-- The run that a proposal this operation parks belongs to. -/
def run : Operation → Option String
  | .regrade o _ _ => o.runId
  | .hold _ _ runId => some runId
  | _ => none

/-- The operation publishes or discards the proposal, by its run or with all others. -/
def Settles (asset : AssetRow) : Operation → Prop
  | .apply runId | .discard runId => asset.addressed runId = true
  | _ => False

/-- A regrade may publish over a proposal: a reviewer's verdict or an urgent fall. -/
def Overrides (asset : AssetRow) : Operation → Prop
  | .regrade o result _ => o.publish = true ∨ isFall asset result = true
  | _ => False

/-- A held pass does not put back the grade of an asset with a proposal, and no run parks another
grade of one whose proposal names no run. -/
def SparesWaiting (asset : AssetRow) : Operation → Prop
  | .hold before canaries _ => asset.isHeld before canaries = true → asset.waiting = false
  | .regrade o result _ =>
    asset.waiting = true → result.grade ≠ asset.grade → isParked o asset result = true →
      parkedRun o asset = asset.proposedRunId
  | _ => True

end Operation

/-- An asset with the run that first parked the proposal that waits. -/
structure Tracked where
  row : AssetRow
  owner : Option String

/-- The owner is the run of the operation that parked the proposal, for as long as one waits. -/
def Tracked.step (stamp : String) (s : Tracked) (op : Operation) : Tracked where
  row := op.act stamp s.row
  owner := if (op.act stamp s.row).waiting then if s.row.waiting then s.owner else op.run else none

/-- The operations on one asset that starts without a proposal. -/
def proposals (stamp : String) : Machine Tracked Operation where
  init s := s.row.waiting = false ∧ s.row.proposedRunId = none
  step s op := some (s.step stamp op)

/-- **Ownership**: the proposal is tagged with the run that parked it; it ends when it is settled or
published over; and the published grade changes under it only then. -/
structure Owned (stamp : String) (s : Tracked) (op : Operation) : Prop where
  tag : (s.step stamp op).row.waiting = true →
    (s.step stamp op).row.proposedRunId = (s.step stamp op).owner
  ended : s.row.waiting = true → (s.step stamp op).row.waiting = false →
    op.Settles s.row ∨ op.Overrides s.row
  published : s.row.waiting = true → (s.step stamp op).row.grade ≠ s.row.grade →
    op.Settles s.row ∨ op.Overrides s.row

variable {stamp : String}

/-- The columns of a proposal are filled and emptied together. -/
def AssetRow.Whole (asset : AssetRow) : Prop := asset.waiting = false → asset.proposedRunId = none

/-- What an operation does to a waiting proposal, and which run it parks a new one under. -/
structure Operation.Spec (stamp : String) (asset : AssetRow) (op : Operation) : Prop where
  whole : asset.Whole → (op.act stamp asset).Whole
  waits : asset.waiting = true →
    ((op.act stamp asset).waiting = true ∧ (op.act stamp asset).grade = asset.grade ∧
      (op.act stamp asset).proposedRunId = asset.proposedRunId) ∨
    (op.act stamp asset).waiting = false ∧ (op.Settles asset ∨ op.Overrides asset)
  parks : asset.Whole → asset.waiting = false → (op.act stamp asset).waiting = true →
    (op.act stamp asset).proposedRunId = op.run

variable {asset : AssetRow} {op : Operation}

theorem waiting_eq_true : asset.waiting = true ↔ ∃ g, asset.proposedGrade = some g :=
  Option.isSome_iff_exists

theorem regrade_spec {o : RegradeOptions} {result : GradeResult} {disputed : Bool}
    (hok : (Operation.regrade o result disputed).SparesWaiting asset) :
    (Operation.regrade o result disputed).Spec stamp asset := by
  by_cases hsame : result.grade = asset.grade
  · obtain ⟨hgrade, hproposed, hrun⟩ :=
      regrade_same stamp o disputed hsame
    have hwaiting : (asset.regrade stamp o result disputed).waiting = asset.waiting := by
      rw [AssetRow.waiting, hproposed, AssetRow.waiting]
    refine ⟨fun h hw => ?_, fun hw => .inl ⟨hwaiting.trans hw, hgrade, hrun⟩, ?_⟩
    · exact hrun.trans (h (hwaiting.symm.trans hw))
    · intro _ hw hw'
      exact absurd (hwaiting.symm.trans hw') (by simp [hw])
  · cases hpark : isParked o asset result with
    | true =>
      obtain ⟨hgrade, hproposed, hrun⟩ :=
        regrade_parked stamp o disputed hsame hpark
      have hwaiting : (asset.regrade stamp o result disputed).waiting = true := by
        rw [AssetRow.waiting, hproposed, Option.isSome_some]
      refine ⟨fun _ hw => ?_, fun hw => .inl ⟨hwaiting, hgrade, ?_⟩, fun hwhole hw _ => ?_⟩
      · exact absurd (hwaiting.symm.trans hw) (by simp)
      · exact hrun.trans (hok hw hsame hpark)
      · refine hrun.trans ?_
        rw [parkedRun, hwhole hw]
        rfl
    | false =>
      obtain ⟨hgrade, hproposed, hrun⟩ :=
        regrade_published stamp o disputed hsame hpark
      have hwaiting : (asset.regrade stamp o result disputed).waiting = false := by
        rw [AssetRow.waiting, hproposed, Option.isSome_none]
      refine ⟨fun _ _ => hrun, fun hw => .inr ⟨hwaiting, .inr ?_⟩, ?_⟩
      · -- a waiting grade is parked unless it is urgent
        rw [isParked, hw] at hpark
        simp only [Bool.or_true, Bool.true_and, Bool.or_eq_false_iff, Bool.not_eq_false',
          Bool.or_eq_true] at hpark
        exact hpark.2
      · intro _ _ hw'
        exact absurd (hwaiting.symm.trans hw') (by simp)

theorem settle_spec {asset asset' : AssetRow} {runId : Option String}
    (hact : op.act stamp asset = if asset.addressed runId then asset' else asset)
    (hsettles : asset.addressed runId = true → op.Settles asset)
    (hgone : asset'.waiting = false ∧ asset'.proposedRunId = none) :
    op.Spec stamp asset := by
  cases haddressed : asset.addressed runId with
  | true =>
    rw [haddressed, if_pos rfl] at hact
    refine ⟨fun _ _ => ?_, fun _ => .inr ⟨?_, .inl (hsettles haddressed)⟩, fun _ _ hw => ?_⟩
    · rw [hact, hgone.2]
    · rw [hact, hgone.1]
    · rw [hact, hgone.1] at hw
      cases hw
  | false =>
    rw [haddressed, if_neg Bool.false_ne_true] at hact
    refine ⟨fun h => ?_, fun hw => .inl ?_, fun _ hw hw' => ?_⟩
    · rwa [hact]
    · rw [hact]
      exact ⟨hw, rfl, rfl⟩
    · rw [hact, hw] at hw'
      cases hw'

theorem hold_spec {before : Published} {canaries : List String} {runId : String}
    (hok : (Operation.hold before canaries runId).SparesWaiting asset) :
    (Operation.hold before canaries runId).Spec stamp asset := by
  have hact : (Operation.hold before canaries runId).act stamp asset =
      if asset.isHeld before canaries then asset.holdChange before runId asset else asset := rfl
  cases hheld : asset.isHeld before canaries with
  | true =>
    have hfree := hok hheld
    rw [hheld, if_pos rfl] at hact
    refine ⟨fun _ hw => ?_, fun hw => ?_, fun _ _ _ => ?_⟩
    · rw [hact] at hw
      cases hw
    · rw [hfree] at hw
      cases hw
    · rw [hact]
      rfl
  | false =>
    rw [hheld, if_neg Bool.false_ne_true] at hact
    refine ⟨fun h => ?_, fun hw => .inl ?_, fun _ hw hw' => ?_⟩
    · rwa [hact]
    · rw [hact]
      exact ⟨hw, rfl, rfl⟩
    · rw [hact, hw] at hw'
      cases hw'

theorem Operation.spec (hok : op.SparesWaiting asset) : op.Spec stamp asset := by
  cases op with
  | regrade o result disputed => exact regrade_spec hok
  | restamp reasons scorer =>
    exact ⟨fun h => h, fun hw => .inl ⟨hw, rfl, rfl⟩, fun _ hw hw' =>
      absurd (hw.symm.trans hw') (by simp)⟩
  | hold before canaries runId => exact hold_spec hok
  | apply runId => exact settle_spec rfl (fun h => h) ⟨rfl, rfl⟩
  | discard runId => exact settle_spec rfl (fun h => h) ⟨rfl, rfl⟩

/-- The waiting proposal is tagged with the run that parked it first. -/
structure Tracked.Inv (s : Tracked) : Prop where
  whole : s.row.Whole
  tag : s.row.waiting = true → s.row.proposedRunId = s.owner

theorem Tracked.Inv.step {s : Tracked} (h : s.Inv) (hok : op.SparesWaiting s.row) :
    (s.step stamp op).Inv := by
  have hspec : op.Spec stamp s.row := Operation.spec hok
  refine ⟨hspec.whole h.whole, fun hw => ?_⟩
  have hw : (op.act stamp s.row).waiting = true := hw
  simp only [Tracked.step, hw, if_true]
  cases hwaits : s.row.waiting with
  | true =>
    rcases hspec.waits hwaits with ⟨-, -, hrun⟩ | ⟨hended, -⟩
    · exact hrun.trans (h.tag hwaits)
    · rw [hended] at hw
      cases hw
  | false => exact hspec.parks h.whole hwaits hw

theorem Tracked.Inv.owned {s : Tracked} (h : s.Inv)
    (hok : op.SparesWaiting s.row) : Owned stamp s op := by
  have hspec : op.Spec stamp s.row := Operation.spec hok
  refine ⟨(h.step hok).tag, fun hw hended => ?_, fun hw hgrade => ?_⟩
  · rcases hspec.waits hw with ⟨hstill, -, -⟩ | ⟨-, hwhy⟩
    · exact absurd (hstill.symm.trans hended) (by simp)
    · exact hwhy
  · rcases hspec.waits hw with ⟨-, hsame, -⟩ | ⟨-, hwhy⟩
    · exact absurd hsame hgrade
    · exact hwhy

theorem Tracked.Inv.spares {s : Tracked} (h : s.Inv) (howned : Owned stamp s op) :
    op.SparesWaiting s.row := by
  cases op with
  | regrade o result disputed =>
    intro hw hsame hpark
    obtain ⟨-, hproposed, hrun⟩ := regrade_parked stamp o disputed hsame hpark
    have hwaiting : (s.row.regrade stamp o result disputed).waiting = true := by
      rw [AssetRow.waiting, hproposed, Option.isSome_some]
    have htag := howned.tag hwaiting
    have howner : (s.step stamp (.regrade o result disputed)).owner = s.owner := by
      simp only [Tracked.step, Operation.act, hwaiting, hw, if_true]
    rw [← hrun, h.tag hw, ← howner]
    exact htag
  | hold before canaries runId =>
    intro hheld
    by_contra hw
    have hact : (s.step stamp (.hold before canaries runId)).row.grade = before.grade := by
      simp only [Tracked.step, Operation.act, hheld, if_true]
      rfl
    have hne : s.row.grade ≠ before.grade := by
      simp only [AssetRow.isHeld, Bool.and_eq_true, Bool.not_eq_true', Bool.or_eq_false_iff,
        decide_eq_false_iff_not] at hheld
      exact hheld.1.1
    rcases howned.published (by simpa using hw) (hact.trans_ne hne.symm) with hsettles | hover
    · exact hsettles
    · exact hover
  | restamp reasons scorer => exact trivial
  | apply runId => exact trivial
  | discard runId => exact trivial

theorem run_owned_iff {s t : Tracked} {ops : List Operation} (h : s.Inv) :
    (proposals stamp).Run (Owned stamp) s ops t ↔
      (proposals stamp).Run (fun s op => op.SparesWaiting s.row) s ops t := by
  have hnext : ∀ {s u : Tracked} {op : Operation}, s.Inv → op.SparesWaiting s.row →
      (proposals stamp).step s op = some u → u.Inv := by
    intro s u op hinv hok hstep
    obtain rfl := Option.some.inj hstep
    exact hinv.step hok
  constructor
  · intro hrun
    induction hrun with
    | nil s => exact .nil s
    | cons howned hstep _ ih =>
      have hok := h.spares howned
      exact .cons hok hstep (ih (hnext h hok hstep))
  · intro hrun
    induction hrun with
    | nil s => exact .nil s
    | cons hok hstep _ ih => exact .cons (h.owned hok) hstep (ih (hnext h hok hstep))

/-- **A waiting proposal belongs to the run that raised it** throughout a run of operations exactly
when no held pass puts back a grade over it, and no run adopts one that was parked under no run. -/
theorem ownership_iff (stamp : String) {s t : Tracked} {ops : List Operation}
    (hinit : (proposals stamp).init s) :
    (proposals stamp).Run (Owned stamp) s ops t ↔
      (proposals stamp).Run (fun s op => op.SparesWaiting s.row) s ops t :=
  run_owned_iff ⟨fun _ => hinit.2, fun hw => absurd (hinit.1.symm.trans hw) (by simp)⟩

def channelAtB : AssetRow where
  assetId := "ast-1"
  assetKey := "youtube:x"
  entityId := some "ent-1"
  platform := "youtube"
  kind := "account"
  relation := "official"
  status := .unknown
  lastVerifiedAt := none
  lastVerifiedVia := none
  grade := .B
  gradeReasons := ["confirmed by a reviewer (ok)"]
  scorerVersion := some "grader-2"
  proposedGrade := none
  proposedReasons := none
  proposedScorer := none
  proposedRunId := none

/-- A reviewer lowers the channel to C, a re-scoring then proposes A, and the pass whose snapshot
still has B is held. -/
def heldOverProposal : List Operation :=
  [.regrade ⟨false, none, true⟩ ⟨.C, ["search snippet (x)"], none, none, none⟩ false,
    .regrade ⟨true, some "rescore:grader-2", false⟩ ⟨.A, ["official link"], none, none, none⟩ false,
    .hold ⟨.B, ["confirmed by a reviewer (ok)"], some "grader-2"⟩ [] "imrn-2"]

theorem ownership_iff_heldOverProposal :
    (proposals "").Run (Owned "") ⟨channelAtB, none⟩ heldOverProposal
        (heldOverProposal.foldl (Tracked.step "") ⟨channelAtB, none⟩) ↔
      (proposals "").Run (fun s op => op.SparesWaiting s.row) ⟨channelAtB, none⟩ heldOverProposal
        (heldOverProposal.foldl (Tracked.step "") ⟨channelAtB, none⟩) :=
  ownership_iff "" ⟨rfl, rfl⟩

/-- The held pass puts B back under the waiting A, and tags what it parks with its own run. -/
theorem not_ownership :
    ¬ ∀ (stamp : String) (s t : Tracked) (ops : List Operation), (proposals stamp).init s →
      (proposals stamp).Run Machine.Always s ops t → (proposals stamp).Run (Owned stamp) s ops t := by
  intro h
  have hexec : (proposals "").Run Machine.Always ⟨channelAtB, none⟩ heldOverProposal
      (heldOverProposal.foldl (Tracked.step "") ⟨channelAtB, none⟩) := Machine.run_of_exec rfl
  cases h "" _ _ _ ⟨rfl, rfl⟩ hexec with
  | cons howned₁ hstep₁ hrun =>
    obtain rfl := Option.some.inj hstep₁
    cases hrun with
    | cons howned₂ hstep₂ hrun =>
      obtain rfl := Option.some.inj hstep₂
      cases hrun with
      | cons howned₃ hstep₃ hrun =>
        rcases howned₃.published (by decide) (by decide) with hsettles | hover
        · exact hsettles
        · exact hover

end GuruJi.Map
