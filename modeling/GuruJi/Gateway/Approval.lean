import GuruJi.Lib.Machine
import Mathlib.Logic.Function.Basic

/-!
# Approvals of high-risk tools

The row of one approval, the store's statements on it (`getApproval`, `claimApproval`,
`decideApproval`) and the two gateway methods that use them, split at their store calls:

* deciding reads the row, checks it, and writes the new status in a second, unconditional
  statement;
* invoking reads the row (`approvalState`), claims it with a conditional update, runs the handler,
  and then consumes the approval or, after a failure, releases it.

A `Request` is one such call; any number of them run at once, each at its own `Phase`, and an
action lets one of them take its next store call. What `invoke` does before the approval is read
(registry, argument validation, authorization) touches no approval and is not part of a request.
-/

namespace GuruJi.Gateway

open GuruJi.Lib

inductive ApprovalStatus where
  | pending | approved | rejected | executing | consumed | expired
  deriving DecidableEq

def ApprovalStatus.text : ApprovalStatus → String
  | .pending => "pending"
  | .approved => "approved"
  | .rejected => "rejected"
  | .executing => "executing"
  | .consumed => "consumed"
  | .expired => "expired"

/-- Rejected, consumed or expired: the approval has been used up. -/
def ApprovalStatus.Closed (s : ApprovalStatus) : Prop := s = .rejected ∨ s = .consumed ∨ s = .expired

/-- Approved or executing: the handler may run, or runs. -/
def ApprovalStatus.Usable (s : ApprovalStatus) : Prop := s = .approved ∨ s = .executing

instance (s : ApprovalStatus) : Decidable s.Closed := by unfold ApprovalStatus.Closed; infer_instance
instance (s : ApprovalStatus) : Decidable s.Usable := by unfold ApprovalStatus.Usable; infer_instance

/-- A row of the approvals table; times are instants of one clock. -/
structure Approval where
  approvalId : String
  principalId : String
  toolName : String
  argumentsSha256 : String
  status : ApprovalStatus
  expiresAt : Nat
  decidedBy : Option String
  deriving DecidableEq

/-- What one gateway call is asked to do. -/
inductive Request where
  | decide (principalId : String) (approve : Bool)
  | invoke (principalId toolName argumentsSha256 : String)
  deriving DecidableEq

def Request.principalId : Request → String
  | .decide p _ => p
  | .invoke p _ _ => p

/-- How a gateway call ends: with an error, or with the status of its invocation. -/
inductive Outcome where
  | keyError (message : String)
  | permissionError (message : String)
  | valueError (message : String)
  | decided (status : ApprovalStatus)
  | approvalRequired (note : Option String)
  | success
  | failed
  deriving DecidableEq

/-- Where a call stands between two of its store calls. -/
inductive Phase where
  | started
  | deciding (status : ApprovalStatus)
  | claiming
  | running
  | ran (succeeded : Bool)
  | finished (outcome : Outcome)
  deriving DecidableEq

/-- Why an approval that is not approved cannot be used (`_UNUSABLE_APPROVAL`). -/
def unusableApproval : ApprovalStatus → String
  | .pending => "the earlier request was not confirmed"
  | .rejected => "the earlier request was cancelled"
  | .executing => "the earlier confirmation is already running"
  | .consumed => "the earlier confirmation was already used"
  | .expired => "the earlier confirmation expired"
  | .approved => "the earlier confirmation is approved"

/-- `_approval_state`: whether the record a call named can be used, or the note saying why not. -/
def approvalState (record : Option Approval) (now : Nat) (principalId toolName sha256 : String) :
    Except String Approval :=
  match record with
  | none => .error "the earlier confirmation was not found"
  | some r =>
    if r.principalId ≠ principalId then .error "the earlier confirmation was not found"
    else if r.toolName ≠ toolName ∨ r.argumentsSha256 ≠ sha256 then
      .error "the earlier confirmation was for a different change"
    else if r.status ≠ .approved then .error (unusableApproval r.status)
    else if r.expiresAt < now then .error (unusableApproval .expired)
    else .ok r

/-- The checks `decide_approval` makes on the record it read: the status it will write, or the
error it raises. An expired confirmation is written as such before the error is raised. -/
def decisionFor (record : Option Approval) (now : Nat) (approvalId principalId : String)
    (approve : Bool) : Except Outcome ApprovalStatus :=
  match record with
  | none => .error (.keyError s!"approval not found: {approvalId}")
  | some r =>
    if r.principalId ≠ principalId then
      .error (.permissionError "only the requesting user can decide this approval")
    else if r.status ≠ .pending then .error (.valueError s!"approval is already {r.status.text}")
    else if approve ∧ r.expiresAt < now then .ok .expired
    else .ok (if approve then .approved else .rejected)

/-- How deciding ends once its status is written. -/
def decisionOutcome : ApprovalStatus → Outcome
  | .expired => .valueError "this confirmation has expired; send the command again to get a new one"
  | status => .decided status

/-! ## The store's statements -/

/-- `decide_approval` of the store: the status is written whatever it was. -/
def decideApproval (record : Option Approval) (status : ApprovalStatus) (by_ : String) :
    Option Approval :=
  record.map fun r => { r with status := status, decidedBy := some by_ }

/-- `claim_approval` of the store: approved and unexpired becomes executing; the caller learns
whether its update changed the row. -/
def claimApproval (record : Option Approval) (now : Nat) (principalId : String) :
    Option Approval × Bool :=
  match record with
  | none => (none, false)
  | some r =>
    if r.principalId = principalId ∧ r.status = .approved ∧ now < r.expiresAt then
      (some { r with status := .executing, decidedBy := some principalId }, true)
    else (some r, false)

/-! ## Calls side by side -/

/-- The table's row, the clock, where each call stands, and how often the handler returned
successfully. -/
structure State (ι : Type) where
  now : Nat
  approval : Option Approval
  phase : ι → Phase
  completed : Nat

namespace State
variable {ι : Type}

/-- The row's status; a missing row counts as expired, it can never be used. -/
def status (s : State ι) : ApprovalStatus := (s.approval.map (·.status)).getD .expired

def write (s : State ι) (status : ApprovalStatus) (by_ : String) : State ι :=
  { s with approval := decideApproval s.approval status by_ }

@[simp] theorem write_completed (s : State ι) (st : ApprovalStatus) (w : String) :
    (s.write st w).completed = s.completed := rfl

theorem write_status (s : State ι) (st : ApprovalStatus) (w : String) :
    (s.write st w).status = st ∨ (s.write st w).status = s.status := by
  cases h : s.approval with
  | none => exact .inr (by simp [write, status, decideApproval, h])
  | some r => exact .inl (by simp [write, status, decideApproval, h])

variable [DecidableEq ι]

def at_ (s : State ι) (i : ι) (p : Phase) : State ι := { s with phase := Function.update s.phase i p }

@[simp] theorem at_phase_self (s : State ι) (i : ι) (p : Phase) : (s.at_ i p).phase i = p := by
  simp [at_]

theorem at_phase (s : State ι) (i j : ι) (p : Phase) :
    (s.at_ i p).phase j = if j = i then p else s.phase j := by
  simp [at_, Function.update_apply]

@[simp] theorem at_status (s : State ι) (i : ι) (p : Phase) : (s.at_ i p).status = s.status := rfl

@[simp] theorem at_completed (s : State ι) (i : ι) (p : Phase) :
    (s.at_ i p).completed = s.completed := rfl

end State

/-- `tick` lets time pass, `call i` is the next store call of call `i`, and `handler i ok` is its
tool handler returning (`ok`) or raising. -/
inductive Action (ι : Type) where
  | tick
  | call (i : ι)
  | handler (i : ι) (ok : Bool)
  deriving DecidableEq

/-- The first store call of a request: the row is read and checked. -/
def readPhase (approvalId : String) (record : Option Approval) (now : Nat) : Request → Phase
  | .decide p approve =>
    match decisionFor record now approvalId p approve with
    | .ok status => .deciding status
    | .error outcome => .finished outcome
  | .invoke p tool sha256 =>
    match approvalState record now p tool sha256 with
    | .ok _ => .claiming
    | .error note => .finished (.approvalRequired (some note))

/-- The claim of an invocation: it runs the handler only if its update changed the row. -/
def claimPhase : Bool → Phase
  | true => .running
  | false => .finished (.approvalRequired (some (unusableApproval .executing)))

variable {ι : Type} [DecidableEq ι]

/-- One step of the interleaving. After the handler returned, its approval is consumed; after it
raised, `_release_approval` writes it back to approved. -/
def step (approvalId : String) (req : ι → Request) (s : State ι) : Action ι → Option (State ι)
  | .tick => some { s with now := s.now + 1 }
  | .call i =>
    match s.phase i with
    | .started => some (s.at_ i (readPhase approvalId s.approval s.now (req i)))
    | .deciding status =>
      some ((s.write status (req i).principalId).at_ i (.finished (decisionOutcome status)))
    | .claiming =>
      let claim := claimApproval s.approval s.now (req i).principalId
      some (({ s with approval := claim.1 } : State ι).at_ i (claimPhase claim.2))
    | .ran true => some ((s.write .consumed (req i).principalId).at_ i (.finished .success))
    | .ran false => some ((s.write .approved (req i).principalId).at_ i (.finished .failed))
    | .running => none
    | .finished _ => none
  | .handler i ok =>
    match s.phase i with
    | .running => some { s.at_ i (.ran ok) with completed := s.completed + (if ok then 1 else 0) }
    | _ => none

/-- The gateway serving the calls `req`, all carrying the approval `approvalId`, which has just
been asked for. -/
def gateway (approvalId : String) (req : ι → Request) : Machine (State ι) (Action ι) where
  init s := s.status = .pending ∧ s.completed = 0 ∧ ∀ i, s.phase i = .started
  step := step approvalId req

end GuruJi.Gateway
