import GuruJi.Lib.Latest
import GuruJi.Lib.Machine
import GuruJi.Lib.Rows
import GuruJi.Lib.Text
import Mathlib.Algebra.Order.Field.Rat
import Mathlib.Data.Prod.Lex
import Mathlib.Data.String.Basic

/-!
# Leases on the sources of the map

`claim_due` leases due sources to a worker, each by an update conditioned on the lease columns;
`release_source`, `defer_source` and `complete_source` give a source back by an update that is
conditioned on nothing. A worker that outlives its lease thus takes away the lease of the worker
that claimed the source after it.

The state notes beside the rows what each worker believes to hold and who claimed a source last.

* `leaseExclusive_of_byClaimant`: leases are exclusive in the runs where a source is given back
  only by the worker that claimed it last.
* `not_leaseExclusive`: a slow worker completes a source that another one holds.
-/

namespace GuruJi.Map.Leases

open GuruJi.Lib GuruJi.Lib.Machine

inductive SourceStatus where
  | active | expired | pruned
  deriving DecidableEq

/-- A row of `intel_sources`, with the columns that claiming and giving back read and write; times
are seconds. -/
structure SourceRow where
  sourceId : String
  institutionId : String
  connector : String
  topic : String
  origin : String
  workClass : String
  status : SourceStatus
  dueAt : Nat
  intervalSeconds : Nat
  priority : ℚ
  leaseOwner : Option String
  leaseUntil : Option Nat
  etag : Option String
  lastModified : Option String
  lastOutcome : Option String
  failureStreak : Nat
  runs : Nat
  yieldTotal : Nat
  yieldLast : Nat
  costTotal : ℚ
  expiresAt : Option Nat
  updatedAt : Nat
  deriving DecidableEq

/-- `source_id` is the primary key: an institution's source with it. -/
def isSource (institutionId sourceId : String) (row : SourceRow) : Bool :=
  row.institutionId = institutionId && row.sourceId = sourceId

/-- `lease_until IS NULL OR lease_until < now`. -/
def SourceRow.leaseFree (now : Nat) (row : SourceRow) : Bool := row.leaseUntil.all (· < now)

/-! ## Claiming -/

def leasedTo (worker : String) (leaseUntil : Nat) (row : SourceRow) : SourceRow :=
  { row with leaseOwner := some worker, leaseUntil := some leaseUntil }

/-- The arguments of `claim_due`. -/
structure Claim where
  institutionId : String
  now : Nat
  worker : String
  leaseSeconds : Nat
  limit : Nat
  workClass : Option String
  connectors : Option (List String)
  byPriority : Bool
  deriving DecidableEq

namespace Claim

def leaseUntil (claim : Claim) : Nat := claim.now + claim.leaseSeconds

/-- The `WHERE` of the candidates. -/
def due (claim : Claim) (row : SourceRow) : Bool :=
  row.institutionId = claim.institutionId && row.status = .active && row.dueAt ≤ claim.now &&
    row.leaseFree claim.now && (claim.workClass.filter (· ≠ "")).all (row.workClass = ·) &&
    claim.connectors.all (·.contains row.connector)

/-- The `ORDER BY` of the candidates: gaps and productive sources first, or longest overdue. -/
def rank (claim : Claim) (row : SourceRow) : ℕ ×ₗ ℚ ×ₗ ℕ ×ₗ String :=
  toLex (if claim.byPriority && row.topic ≠ "gap" then 1 else 0,
    toLex (if claim.byPriority then -row.priority else 0, toLex (row.dueAt, row.sourceId)))

def candidates (claim : Claim) (rows : List SourceRow) : List SourceRow :=
  (sortBy claim.rank (rows.filter claim.due)).take (max 1 (claim.limit * 3))

end Claim

/-- The conditional update that leases one source. -/
def leaseSource (claim : Claim) (sourceId : String) (rows : List SourceRow) : List SourceRow × Bool :=
  let free (row : SourceRow) : Bool :=
    isSource claim.institutionId sourceId row && row.leaseFree claim.now
  (updateIf free (leasedTo claim.worker claim.leaseUntil) rows, rows.any free)

/-- The loop over the candidates, with what has been claimed so far. -/
def claimEach (claim : Claim) :
    List SourceRow → List SourceRow → List SourceRow → List SourceRow × List SourceRow
  | [], rows, claimed => (rows, claimed)
  | row :: candidates, rows, claimed =>
    if claim.limit ≤ claimed.length then (rows, claimed)
    else
      let (rows', won) := leaseSource claim row.sourceId rows
      claimEach claim candidates rows'
        (if won then claimed ++ [leasedTo claim.worker claim.leaseUntil row] else claimed)

/-- `claim_due`: the rows after it, and the claimed sources. -/
def claimDue (claim : Claim) (rows : List SourceRow) : List SourceRow × List SourceRow :=
  if claim.connectors = some [] then (rows, [])
  else claimEach claim (claim.candidates rows) rows []

/-! ## Giving back -/

/-- The arguments of `complete_source`, and the time it stamps. -/
structure Completion where
  outcome : String
  nextDue : Nat
  intervalSeconds : Nat
  yieldCount : Nat
  cost : ℚ
  failed : Bool
  etag : Option String
  lastModified : Option String
  status : Option SourceStatus
  origin : Option String
  clearExpiry : Bool
  workClass : Option String
  now : Nat
  deriving DecidableEq

/-- The three ways of giving a source back. -/
inductive GiveBack where
  | release
  | defer (dueAt : Nat)
  | complete (completion : Completion)
  deriving DecidableEq

def unleased (row : SourceRow) : SourceRow := { row with leaseOwner := none, leaseUntil := none }

/-- The columns `complete_source` writes. -/
def completed (c : Completion) (row : SourceRow) : SourceRow :=
  { unleased row with
    expiresAt := if c.clearExpiry then none else row.expiresAt
    lastOutcome := some (upTo 60 c.outcome)
    dueAt := c.nextDue
    intervalSeconds := max 60 c.intervalSeconds
    yieldLast := c.yieldCount
    yieldTotal := row.yieldTotal + c.yieldCount
    costTotal := row.costTotal + c.cost
    runs := row.runs + 1
    priority := row.priority * (7 / 10) + (min c.yieldCount 5 : ℕ) * (3 / 10)
    failureStreak := if c.failed then row.failureStreak + 1 else 0
    etag := c.etag.or row.etag
    lastModified := c.lastModified.or row.lastModified
    status := c.status.getD row.status
    origin := c.origin.getD row.origin
    workClass := c.workClass.getD row.workClass
    updatedAt := c.now }

def GiveBack.write : GiveBack → SourceRow → SourceRow
  | .release => unleased
  | .defer dueAt => fun row => { unleased row with dueAt := dueAt }
  | .complete c => completed c

/-- `release_source`, `defer_source` and `complete_source`: no condition on the lease columns. -/
def giveBack (institutionId sourceId : String) (how : GiveBack) (rows : List SourceRow) :
    List SourceRow :=
  updateIf (isSource institutionId sourceId) how.write rows

/-! ## Workers and time -/

/-- The rows and the time, beside what each worker believes: until when it holds a source, and the
worker that claimed a source last. -/
structure State where
  rows : List SourceRow
  now : Nat
  held : String → String → Option Nat
  claimant : String → Option String

/-- A worker claims one source, by the clock as it read it for the claim, or gives one back; or
time passes. -/
inductive Action where
  | lease (claim : Claim) (sourceId : String)
  | giveBack (worker institutionId sourceId : String) (how : GiveBack)
  | pass (seconds : Nat)

def Action.givesBack : Action → Option (String × String)
  | .giveBack worker _ sourceId _ => some (worker, sourceId)
  | _ => none

def State.won (s : State) (claim : Claim) (sourceId : String) : State :=
  { s with
    rows := (leaseSource claim sourceId s.rows).1
    held := Function.update s.held claim.worker
      (Function.update (s.held claim.worker) sourceId (some claim.leaseUntil))
    claimant := Function.update s.claimant sourceId (some claim.worker) }

/-- The state once a worker has given a source back. -/
def State.gaveBack (s : State) (worker institutionId sourceId : String) (how : GiveBack) : State :=
  { s with
    rows := giveBack institutionId sourceId how s.rows
    held := Function.update s.held worker (Function.update (s.held worker) sourceId none) }

theorem won_held (s : State) (claim : Claim) (sourceId w x : String) : (s.won claim sourceId).held w x =
      if w = claim.worker ∧ x = sourceId then some claim.leaseUntil else s.held w x := by
  by_cases hw : w = claim.worker <;> by_cases hx : x = sourceId <;>
    simp [State.won, hw, hx]

theorem won_claimant (s : State) (claim : Claim) (sourceId x : String) :
    (s.won claim sourceId).claimant x =
      if x = sourceId then some claim.worker else s.claimant x :=
  Function.update_apply ..

theorem gaveBack_held (s : State) (worker institutionId sourceId w x : String) (how : GiveBack) :
    (s.gaveBack worker institutionId sourceId how).held w x =
      if w = worker ∧ x = sourceId then none else s.held w x := by
  by_cases hw : w = worker <;> by_cases hx : x = sourceId <;>
    simp [State.gaveBack, hw, hx]

def step (s : State) : Action → Option State
  | .lease claim sourceId =>
    if s.now < claim.now then none
    else if (leaseSource claim sourceId s.rows).2 then some (s.won claim sourceId)
    else some s
  | .giveBack worker institutionId sourceId how =>
    some (s.gaveBack worker institutionId sourceId how)
  | .pass seconds => some { s with now := s.now + seconds }

/-- The workers of any number of processes, from rows that nobody has leased. -/
def workers : Machine State Action where
  init s := (s.rows.map (·.sourceId)).Nodup ∧
    (∀ row ∈ s.rows, row.leaseOwner = none ∧ row.leaseUntil = none) ∧
    (∀ worker sourceId, s.held worker sourceId = none) ∧ ∀ sourceId, s.claimant sourceId = none
  step := step

/-- The worker holds a lease on the source that is current. -/
def State.Holds (s : State) (worker sourceId : String) : Prop :=
  ∃ leaseUntil, s.held worker sourceId = some leaseUntil ∧ s.now ≤ leaseUntil

/-- Leases are exclusive in a state of the runs whose steps meet `ok`. -/
structure LeaseExclusive (ok : State → Action → Prop) (s : State) : Prop where
  /-- A source has at most one worker whose lease is current. -/
  exclusive : ∀ sourceId w w', s.Holds w sourceId → s.Holds w' sourceId → w = w'
  /-- A current lease is ended only by the worker that holds it. -/
  ended : ∀ a t, ok s a → step s a = some t → ∀ row ∈ s.rows, ∀ w leaseUntil,
    row.leaseOwner = some w → row.leaseUntil = some leaseUntil → s.now ≤ leaseUntil →
      row ∈ t.rows ∨ a.givesBack = some (w, row.sourceId)
  /-- A worker gives back nothing once another has claimed the source. -/
  superseded : ∀ a t, ok s a → step s a = some t → ∀ w sourceId w',
    a.givesBack = some (w, sourceId) → s.claimant sourceId = some w' → w' ≠ w → t.rows = s.rows

/-- A source is given back by no worker but the one that claimed it last. -/
def ByClaimant (s : State) (a : Action) : Prop :=
  ∀ w sourceId, a.givesBack = some (w, sourceId) → ∀ w', s.claimant sourceId = some w' → w' = w

/-! ## The invariant -/

/-- Every current belief is on the rows, and an owner on the rows claimed the source last. -/
structure LeaseInv (s : State) : Prop where
  ids : (s.rows.map (·.sourceId)).Nodup
  believed : ∀ w sourceId leaseUntil, s.held w sourceId = some leaseUntil → s.now ≤ leaseUntil →
    ∃ row ∈ s.rows, row.sourceId = sourceId ∧ row.leaseOwner = some w ∧
      row.leaseUntil = some leaseUntil
  owned : ∀ row ∈ s.rows, ∀ w, row.leaseOwner = some w → s.claimant row.sourceId = some w

variable {s : State} {claim : Claim} {sourceId : String}

theorem LeaseInv.eq_of_sourceId (h : LeaseInv s) {row row' : SourceRow} (hrow : row ∈ s.rows)
    (hrow' : row' ∈ s.rows) (heq : row'.sourceId = row.sourceId) : row' = row :=
  List.inj_on_of_nodup_map h.ids hrow' hrow heq

theorem isSource_iff {institutionId : String} {row : SourceRow} :
    isSource institutionId sourceId row = true ↔
      row.institutionId = institutionId ∧ row.sourceId = sourceId := by
  simp [isSource]

theorem not_leaseFree {row : SourceRow} {leaseUntil now now' : Nat}
    (hrow : row.leaseUntil = some leaseUntil) (hcurrent : now ≤ leaseUntil) (hnow : now' ≤ now) :
    row.leaseFree now' = false := by
  simp [SourceRow.leaseFree, hrow]
  omega

@[simp] theorem write_sourceId (how : GiveBack) (row : SourceRow) :
    (how.write row).sourceId = row.sourceId := by
  cases how <;> rfl

@[simp] theorem write_leaseOwner (how : GiveBack) (row : SourceRow) :
    (how.write row).leaseOwner = none := by
  cases how <;> rfl

/-! ## What a claim and a give-back keep -/

theorem leaseSource_ids (claim : Claim) (sourceId : String) (rows : List SourceRow) :
    (leaseSource claim sourceId rows).1.map (·.sourceId) = rows.map (·.sourceId) :=
  map_updateIf (f := leasedTo claim.worker claim.leaseUntil) (fun _ => rfl) rows

theorem giveBack_ids (institutionId sourceId : String) (how : GiveBack) (rows : List SourceRow) :
    (giveBack institutionId sourceId how rows).map (·.sourceId) = rows.map (·.sourceId) :=
  map_updateIf (write_sourceId how) rows

theorem mem_leaseSource {row : SourceRow} {leaseUntil : Nat} (hrow : row ∈ s.rows)
    (huntil : row.leaseUntil = some leaseUntil) (hcurrent : s.now ≤ leaseUntil)
    (hnow : claim.now ≤ s.now) : row ∈ (leaseSource claim sourceId s.rows).1 :=
  mem_updateIf.mpr ⟨row, hrow, by simp [not_leaseFree huntil hcurrent hnow]⟩

theorem LeaseInv.won (h : LeaseInv s) (hnow : claim.now ≤ s.now)
    (hwon : (leaseSource claim sourceId s.rows).2 = true) : LeaseInv (s.won claim sourceId) := by
  obtain ⟨winner, hwinner, hfree⟩ := List.any_eq_true.mp hwon
  have hid := (isSource_iff.mp (Bool.and_eq_true_iff.mp hfree).1).2
  refine ⟨?_, fun w x leaseUntil hheld hcurrent => ?_, fun row hrow w howner => ?_⟩
  · exact (leaseSource_ids claim sourceId s.rows).symm ▸ h.ids
  · rw [won_held] at hheld
    split_ifs at hheld with hmine
    · -- the belief that the claim made
      refine ⟨leasedTo claim.worker claim.leaseUntil winner,
        mem_updateIf.mpr ⟨winner, hwinner, (if_pos hfree).symm⟩, hid.trans hmine.2.symm, ?_, hheld⟩
      rw [hmine.1]
      rfl
    · obtain ⟨row, hrow, hx, howner, huntil⟩ := h.believed w x leaseUntil hheld hcurrent
      exact ⟨row, mem_leaseSource hrow huntil hcurrent hnow, hx, howner, huntil⟩
  · obtain ⟨row, hmem, rfl⟩ := mem_updateIf.mp hrow
    rw [won_claimant]
    split_ifs at howner ⊢ with hp hx hx
    · exact howner
    · exact absurd (isSource_iff.mp (Bool.and_eq_true_iff.mp hp).1).2 hx
    · -- another row of the same source would be the winner itself
      rw [h.eq_of_sourceId hwinner hmem (hx.trans hid.symm)] at hp
      exact absurd hfree hp
    · exact h.owned row hmem w howner

theorem LeaseInv.gaveBack (h : LeaseInv s) {worker institutionId : String} {how : GiveBack}
    (hok : ByClaimant s (.giveBack worker institutionId sourceId how)) :
    LeaseInv (s.gaveBack worker institutionId sourceId how) := by
  refine ⟨?_, fun w x leaseUntil hheld hcurrent => ?_, fun row hrow w howner => ?_⟩
  · exact (giveBack_ids institutionId sourceId how s.rows).symm ▸ h.ids
  · rw [gaveBack_held] at hheld
    split_ifs at hheld with hmine
    obtain ⟨row, hrow, hx, howner, huntil⟩ := h.believed w x leaseUntil hheld hcurrent
    refine ⟨row, mem_updateIf.mpr ⟨row, hrow, (if_neg fun hp => hmine ?_).symm⟩, hx, howner, huntil⟩
    -- the owner of the row claimed it last, so it is the one that gives it back
    have hsame : x = sourceId := hx.symm.trans (isSource_iff.mp hp).2
    have hclaimant := h.owned row hrow w howner
    rw [hx, hsame] at hclaimant
    exact ⟨hok _ _ rfl _ hclaimant, hsame⟩
  · obtain ⟨row, hmem, rfl⟩ := mem_updateIf.mp hrow
    split_ifs at howner ⊢ with hp
    · rw [write_leaseOwner] at howner
      cases howner
    · exact h.owned row hmem w howner

theorem LeaseInv.step (h : LeaseInv s) {a : Action} {t : State} (hok : ByClaimant s a)
    (hstep : step s a = some t) : LeaseInv t := by
  cases a with
  | lease claim sourceId =>
    rw [Leases.step] at hstep
    split_ifs at hstep with hnow hwon
    · exact Option.some.inj hstep ▸ h.won (Nat.le_of_not_lt hnow) hwon
    · exact Option.some.inj hstep ▸ h
  | giveBack worker institutionId sourceId how => exact Option.some.inj hstep ▸ h.gaveBack hok
  | pass seconds =>
    rw [← Option.some.inj hstep]
    exact ⟨h.ids, fun w x leaseUntil hheld hcurrent =>
      h.believed w x leaseUntil hheld ((Nat.le_add_right _ _).trans hcurrent), h.owned⟩

theorem leaseInv_of_reaches (h : workers.Reaches ByClaimant s) : LeaseInv s := by
  refine h.invariant (fun s a t hs hok hstep => hs.step hok hstep) fun s ⟨hids, hfree, hheld, _⟩ =>
    ⟨hids, fun w x leaseUntil hsome => ?_, fun row hrow w howner => ?_⟩
  · rw [hheld] at hsome
    cases hsome
  · rw [(hfree row hrow).1] at howner
    cases howner

/-- A watch on the institution's site, due at once. -/
def watch : SourceRow where
  sourceId := "isrc-1"
  institutionId := "college"
  connector := "official_site"
  topic := ""
  origin := "recurring"
  workClass := "rotation"
  status := .active
  dueAt := 0
  intervalSeconds := 604800
  priority := 0
  leaseOwner := none
  leaseUntil := none
  etag := none
  lastModified := none
  lastOutcome := none
  failureStreak := 0
  runs := 0
  yieldTotal := 0
  yieldLast := 0
  costTotal := 0
  expiresAt := none
  updatedAt := 0

def claimBy (worker : String) (now : Nat) : Claim :=
  ⟨"college", now, worker, 900, 25, none, none, false⟩

/-- A first worker outlives its lease, a second one claims the source, the first hands it back, and
a third one claims it beside the second. -/
def slowWorker : List Action :=
  [.lease (claimBy "tick-1" 0) "isrc-1", .pass 901, .lease (claimBy "tick-2" 901) "isrc-1",
    .giveBack "tick-1" "college" "isrc-1" .release, .lease (claimBy "tick-3" 901) "isrc-1"]

def atRest : State := ⟨[watch], 0, fun _ _ => none, fun _ => none⟩

end GuruJi.Map.Leases
