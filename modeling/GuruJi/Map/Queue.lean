import GuruJi.Lib.Machine
import GuruJi.Lib.Rows
import GuruJi.Lib.Text
import Mathlib.Tactic.Linarith

/-!
# The review queue of the map

`add_review_item` queues an item once per fingerprint, reopens one that expired, and refuses an
ordinary item when the queue is full; `decide_review_item` and `expire_review_items` close items.
The room is checked against the severity and kind the caller passes, while a reopened item keeps
the ones it was stored with: an ordinary item reopened by a pressing call goes past the bound.

* `asksOnceBounded_of_reopensInBounds`: in the runs where a pressing call that reopens an ordinary
  item finds room for it, the queue asks once and stays bounded.
* `not_asksOnceBounded`: without that, one item more than the bound is open.
-/

namespace GuruJi.Map.Queue

open GuruJi.Lib GuruJi.Lib.Machine

/-- `REVIEW_KINDS`. -/
inductive ReviewKind where
  | impersonationCandidate | courtRecord | dispute | canaryLeak | runGate | candidateAccount
  | newsMention | lookalikeDomain | authorityNomination | handleReassigned
  deriving DecidableEq

def ReviewKind.text : ReviewKind → String
  | .impersonationCandidate => "impersonation_candidate"
  | .courtRecord => "court_record"
  | .dispute => "dispute"
  | .canaryLeak => "canary_leak"
  | .runGate => "run_gate"
  | .candidateAccount => "candidate_account"
  | .newsMention => "news_mention"
  | .lookalikeDomain => "lookalike_domain"
  | .authorityNomination => "authority_nomination"
  | .handleReassigned => "handle_reassigned"

/-- `URGENT_REVIEW_KINDS`. -/
def ReviewKind.urgent (kind : ReviewKind) : Bool :=
  [.runGate, .canaryLeak, .impersonationCandidate, .courtRecord].contains kind

/-- `REVIEW_STATUSES`. -/
inductive ReviewStatus where
  | opened | decided | expired
  deriving DecidableEq

inductive Severity where
  | low | normal | high
  deriving DecidableEq

def maxOpenReview : Nat := 500
def reviewTtlDays : Nat := 90

/-- A row of `intel_review_items`; times are seconds. -/
structure ReviewItem where
  reviewId : String
  institutionId : String
  kind : ReviewKind
  fingerprint : String
  status : ReviewStatus
  severity : Severity
  assetId : Option String
  entityId : Option String
  title : String
  detail : String
  url : String
  connector : String
  sourceId : Option String
  runId : Option String
  createdAt : Nat
  updatedAt : Nat
  expiresAt : Option Nat
  decision : Option String
  decisionNote : Option String
  decidedBy : Option String
  decidedAt : Option Nat
  deriving DecidableEq

/-- The arguments of `add_review_item`. -/
structure Request where
  kind : ReviewKind
  title : String
  fingerprint : Option String
  detail : String
  url : String
  assetId : Option String
  entityId : Option String
  severity : Severity
  connector : String
  sourceId : Option String
  runId : Option String
  now : Nat
  deriving DecidableEq

/-- What the queue takes from outside: `asset_ref(url).url` (`none` where it raises), the digest,
white space, and how names of persons are taken out of an institution's texts. -/
structure QueueEnv where
  assetUrl : String → Option String
  sha256 : String → String
  isSpace : Char → Bool
  withoutNames : String → String → String

/-- `text or None`, of an argument that may be empty. -/
def filled (text : Option String) : Option String := text.filter (· ≠ "")

namespace Request
variable (env : QueueEnv) (request : Request)

/-- High severity or an urgent kind: never refused for a full queue. -/
def pressing : Bool := request.severity = .high || request.kind.urgent

def spelled : String :=
  if strip env.isSpace request.url = "" then ""
  else (env.assetUrl request.url).getD (strip env.isSpace request.url)

def key : String :=
  (filled request.fingerprint).getD <| env.sha256 <|
    match filled request.assetId with
    | some assetId => request.kind.text ++ "|" ++ assetId
    | none => request.kind.text ++ "||" ++ request.spelled env ++ "|" ++
        (if request.url = "" then request.title else "")

/-- The fingerprint of items queued before it named the asset. -/
def legacy : String :=
  (filled request.fingerprint).getD <| env.sha256 <|
    request.kind.text ++ "|" ++ (filled request.assetId).getD "" ++ "|" ++ request.url ++ "|" ++
      (if (filled request.assetId).isSome || request.url ≠ "" then "" else request.title)

def expires : Nat := request.now + reviewTtlDays * 86400

end Request

namespace ReviewItem

/-- High severity or an urgent kind, as the row has them. -/
def pressing (item : ReviewItem) : Bool := item.severity = .high || item.kind.urgent

def isOpen (institutionId : String) (item : ReviewItem) : Bool :=
  item.institutionId = institutionId && item.status = .opened

/-- Open, and neither high severity nor of an urgent kind. -/
def ordinaryOpen (institutionId : String) (item : ReviewItem) : Bool :=
  item.isOpen institutionId && !item.pressing

theorem isOpen_iff {institutionId : String} {item : ReviewItem} : item.isOpen institutionId = true ↔
      item.institutionId = institutionId ∧ item.status = .opened := by
  simp [isOpen]

theorem ordinaryOpen_iff {institutionId : String} {item : ReviewItem} :
    item.ordinaryOpen institutionId = true ↔
      item.institutionId = institutionId ∧ item.status = .opened ∧ item.pressing = false := by
  simp [ordinaryOpen, isOpen_iff, and_assoc]

end ReviewItem

/-! ## The operations -/

inductive AddOutcome where
  | added | already | reopened | full
  | raised
  deriving DecidableEq

def AddOutcome.text : AddOutcome → String
  | .added => "added"
  | .already => "exists"
  | .reopened => "reopened"
  | .full => "full"
  | .raised => "raised"

def underFingerprint (institutionId fingerprint : String) (item : ReviewItem) : Bool :=
  item.institutionId = institutionId && item.fingerprint = fingerprint

/-- The item of either fingerprint, the present one first. -/
def existing (env : QueueEnv) (rows : List ReviewItem) (institutionId : String) (request : Request) :
    Option ReviewItem :=
  (rows.find? (underFingerprint institutionId (request.key env))).or
    (rows.find? (underFingerprint institutionId (request.legacy env)))

def openItems (institutionId : String) (rows : List ReviewItem) : Nat :=
  rows.countP (·.isOpen institutionId)

/-- The row `add_review_item` inserts. -/
def queuedItem (env : QueueEnv) (institutionId : String) (request : Request) (reviewId : String) :
    ReviewItem where
  reviewId := reviewId
  institutionId := institutionId
  kind := request.kind
  fingerprint := request.key env
  status := .opened
  severity := request.severity
  assetId := request.assetId
  entityId := request.entityId
  title := upTo 300 (env.withoutNames institutionId request.title)
  detail := upTo 2000 (env.withoutNames institutionId request.detail)
  url := upTo 1000 request.url
  connector := upTo 40 request.connector
  sourceId := request.sourceId
  runId := request.runId
  createdAt := request.now
  updatedAt := request.now
  expiresAt := some request.expires
  decision := none
  decisionNote := none
  decidedBy := none
  decidedAt := none

/-- What reopening writes; kind, fingerprint and severity stay. -/
def reopenedItem (env : QueueEnv) (institutionId : String) (request : Request) (item : ReviewItem) :
    ReviewItem :=
  { item with
    status := .opened
    title := upTo 300 (env.withoutNames institutionId request.title)
    detail := upTo 2000 (env.withoutNames institutionId request.detail)
    runId := request.runId.or item.runId
    expiresAt := some request.expires
    updatedAt := request.now }

/-- The row of an institution with a review id and a status. -/
def addressed (institutionId reviewId : String) (status : ReviewStatus) (item : ReviewItem) : Bool :=
  item.institutionId = institutionId && item.reviewId = reviewId && item.status = status

variable {item : ReviewItem} {f : ReviewItem → ReviewItem}

theorem addressed_iff {institutionId reviewId : String} {status : ReviewStatus} :
    addressed institutionId reviewId status item = true ↔
      item.institutionId = institutionId ∧ item.reviewId = reviewId ∧ item.status = status := by
  simp [addressed, and_assoc]

/-- `add_review_item`; `reviewId` is the id it draws. A drawn id that is taken fails the insert. -/
def addReviewItem (env : QueueEnv) (rows : List ReviewItem) (institutionId : String)
    (request : Request) (reviewId : String) : List ReviewItem × Option String × AddOutcome :=
  match existing env rows institutionId request with
  | some item =>
    if item.status ≠ .expired then (rows, some item.reviewId, .already)
    else if !request.pressing && maxOpenReview ≤ openItems institutionId rows then
      (rows, none, .full)
    else
      (updateIf (addressed institutionId item.reviewId .expired)
        (reopenedItem env institutionId request) rows, some item.reviewId, .reopened)
  | none =>
    if !request.pressing && maxOpenReview ≤ openItems institutionId rows then (rows, none, .full)
    else if reviewId ∈ rows.map (·.reviewId) then (rows, none, .raised)
    else (rows ++ [queuedItem env institutionId request reviewId], some reviewId, .added)

/-- The arguments of `decide_review_item`, and the time of the call. -/
structure Ruling where
  reviewId : String
  decision : String
  decidedBy : String
  note : String
  redact : Bool
  now : Nat
  deriving DecidableEq

/-- What a decision writes; a redacted item keeps no trace of who it was about. -/
def decidedItem (ruling : Ruling) (item : ReviewItem) : ReviewItem :=
  let decided : ReviewItem :=
    { item with
      status := .decided
      decision := some ruling.decision
      decisionNote := some (upTo 500 ruling.note)
      decidedBy := some ruling.decidedBy
      decidedAt := some ruling.now
      updatedAt := ruling.now }
  if ruling.redact then
    { decided with
      title := "a personal account (removed from the map)"
      detail := ""
      url := ""
      assetId := none }
  else decided

/-- `decide_review_item`. -/
def decideReviewItem (rows : List ReviewItem) (institutionId : String) (ruling : Ruling) :
    List ReviewItem × Bool :=
  (updateIf (addressed institutionId ruling.reviewId .opened) (decidedItem ruling) rows,
    rows.any (addressed institutionId ruling.reviewId .opened))

def lapsed (institutionId : String) (now : Nat) (item : ReviewItem) : Bool :=
  item.isOpen institutionId && item.expiresAt.any (· < now)

def expiredItem (now : Nat) (item : ReviewItem) : ReviewItem :=
  { item with status := .expired, updatedAt := now }

/-- `expire_review_items`. -/
def expireReviewItems (rows : List ReviewItem) (institutionId : String) (now : Nat) :
    List ReviewItem × Nat :=
  (updateIf (lapsed institutionId now) (expiredItem now) rows,
    rows.countP (lapsed institutionId now))

/-! ## The queue as a machine -/

inductive Call where
  | add (institutionId : String) (request : Request) (reviewId : String)
  | decide (institutionId : String) (ruling : Ruling)
  | expire (institutionId : String) (now : Nat)
  deriving DecidableEq

def after (env : QueueEnv) (rows : List ReviewItem) : Call → List ReviewItem
  | .add institutionId request reviewId => (addReviewItem env rows institutionId request reviewId).1
  | .decide institutionId ruling => (decideReviewItem rows institutionId ruling).1
  | .expire institutionId now => (expireReviewItems rows institutionId now).1

/-- The queue, empty at first, under any sequence of calls. -/
def queue (env : QueueEnv) : Machine (List ReviewItem) Call where
  init rows := rows = []
  step rows call := some (after env rows call)

/-- The queue asks once and stays bounded, in the runs whose calls meet `ok`. -/
structure AsksOnceBounded (env : QueueEnv) (ok : List ReviewItem → Call → Prop) : Prop where
  /-- There is at most one item per fingerprint. -/
  once : ∀ s, (queue env).Reaches ok s → ∀ institutionId fingerprint,
    (s.filter (underFingerprint institutionId fingerprint)).length ≤ 1
  /-- An item that was decided is never open again. -/
  closed : ∀ s, (queue env).Reaches ok s → ∀ calls t, (queue env).Run ok s calls t →
    ∀ item ∈ s, item.status = .decided → ∀ item' ∈ t, item'.reviewId = item.reviewId →
      item'.status ≠ .opened
  /-- Only an expired undecided item is reopened. -/
  undecided : ∀ s, (queue env).Reaches ok s → ∀ call, ok s call →
    ∀ item ∈ s, item.status ≠ .opened → ∀ item' ∈ after env s call, item'.reviewId = item.reviewId →
      item'.status = .opened → item.status = .expired ∧ item.decision = none
  /-- The open ordinary items of an institution never exceed the bound. -/
  bounded : ∀ s, (queue env).Reaches ok s → ∀ institutionId,
    s.countP (·.ordinaryOpen institutionId) ≤ maxOpenReview

/-- A pressing call that reopens an item finds a pressing one, or room for an ordinary one. -/
def ReopensInBounds (env : QueueEnv) (rows : List ReviewItem) (call : Call) : Prop :=
  ∀ institutionId request reviewId, call = .add institutionId request reviewId →
    request.pressing = true → ∀ item, existing env rows institutionId request = some item →
      item.status = .expired → item.pressing = true ∨ openItems institutionId rows < maxOpenReview

/-! ## What a call can do -/

variable {env : QueueEnv} {rows : List ReviewItem} {institutionId : String} {request : Request}

theorem existing_none (h : existing env rows institutionId request = none) :
    ∀ item ∈ rows, underFingerprint institutionId (request.key env) item = false := by
  intro item hitem
  have hfind := (Option.or_eq_none_iff.mp h).1
  simpa using List.find?_eq_none.mp hfind item hitem

theorem existing_some (h : existing env rows institutionId request = some item) :
    item ∈ rows ∧ item.institutionId = institutionId := by
  rcases Option.or_eq_some_iff.mp h with hfind | ⟨-, hfind⟩ <;>
  · have hunder := List.find?_some hfind
    simp only [underFingerprint, Bool.and_eq_true, decide_eq_true_eq] at hunder
    exact ⟨List.mem_of_find?_eq_some hfind, hunder.1⟩

theorem after_cases (env : QueueEnv) (rows : List ReviewItem) (call : Call) :
    after env rows call = rows ∨
    (∃ institutionId request reviewId, call = .add institutionId request reviewId ∧
      existing env rows institutionId request = none ∧ reviewId ∉ rows.map (·.reviewId) ∧
      (request.pressing = true ∨ openItems institutionId rows < maxOpenReview) ∧
      after env rows call = rows ++ [queuedItem env institutionId request reviewId]) ∨
    (∃ institutionId request reviewId item, call = .add institutionId request reviewId ∧
      existing env rows institutionId request = some item ∧ item.status = .expired ∧
      (request.pressing = true ∨ openItems institutionId rows < maxOpenReview) ∧
      after env rows call = updateIf (addressed institutionId item.reviewId .expired)
        (reopenedItem env institutionId request) rows) ∨
    (∃ institutionId ruling, call = .decide institutionId ruling ∧
      after env rows call = updateIf (addressed institutionId ruling.reviewId .opened)
        (decidedItem ruling) rows) ∨
    (∃ institutionId now, call = .expire institutionId now ∧
      after env rows call = updateIf (lapsed institutionId now) (expiredItem now) rows) := by
  cases call with
  | decide institutionId ruling => exact .inr (.inr (.inr (.inl ⟨_, _, rfl, rfl⟩)))
  | expire institutionId now => exact .inr (.inr (.inr (.inr ⟨_, _, rfl, rfl⟩)))
  | add institutionId request reviewId =>
    have hroom : ¬ (!request.pressing && decide (maxOpenReview ≤ openItems institutionId rows)) = true →
        request.pressing = true ∨ openItems institutionId rows < maxOpenReview := by
      intro h
      rcases Bool.eq_false_or_eq_true request.pressing with hp | hp
      · exact .inl hp
      · exact .inr (by simpa [hp] using h)
    simp only [after, addReviewItem]
    cases hfound : existing env rows institutionId request with
    | some item =>
      simp only
      split_ifs with hstatus hfull
      · exact .inl rfl
      · exact .inl rfl
      · exact .inr (.inr (.inl ⟨_, _, _, _, rfl, hfound, by simpa using hstatus, hroom hfull, rfl⟩))
    | none =>
      simp only
      split_ifs with hfull hid
      · exact .inl rfl
      · exact .inl rfl
      · exact .inr (.inl ⟨_, _, _, rfl, hfound, hid, hroom hfull, rfl⟩)

/-- An update that leaves what identifies an item, its kind and its severity as they are. -/
def KeepsIdentity (f : ReviewItem → ReviewItem) : Prop :=
  ∀ item, (f item).reviewId = item.reviewId ∧ (f item).institutionId = item.institutionId ∧
    (f item).fingerprint = item.fingerprint ∧ (f item).kind = item.kind ∧
    (f item).severity = item.severity

theorem keepsIdentity_reopenedItem :
    KeepsIdentity (reopenedItem env institutionId request) := fun _ => ⟨rfl, rfl, rfl, rfl, rfl⟩

theorem keepsIdentity_decidedItem (ruling : Ruling) : KeepsIdentity (decidedItem ruling) := by
  intro item
  rw [decidedItem]
  split_ifs <;> exact ⟨rfl, rfl, rfl, rfl, rfl⟩

theorem keepsIdentity_expiredItem (now : Nat) : KeepsIdentity (expiredItem now) :=
  fun _ => ⟨rfl, rfl, rfl, rfl, rfl⟩

@[simp] theorem decidedItem_status (ruling : Ruling) (item : ReviewItem) :
    (decidedItem ruling item).status = .decided := by
  rw [decidedItem]
  split_ifs <;> rfl

theorem KeepsIdentity.pressing (h : KeepsIdentity f)
    (item : ReviewItem) : (f item).pressing = item.pressing := by
  obtain ⟨-, -, -, hkind, hseverity⟩ := h item
  rw [ReviewItem.pressing, ReviewItem.pressing, hkind, hseverity]

/-! ## The invariant -/

/-- What holds of the rows in every run: review ids are distinct, an institution has one item per
fingerprint, and only a decided item carries a decision. -/
structure QueueInv (rows : List ReviewItem) : Prop where
  ids : (rows.map (·.reviewId)).Nodup
  fingerprints : (rows.map fun item => (item.institutionId, item.fingerprint)).Nodup
  undecided : ∀ item ∈ rows, item.status ≠ .decided → item.decision = none

theorem QueueInv.nil : QueueInv [] := ⟨.nil, .nil, by simp⟩

theorem QueueInv.append (h : QueueInv rows) (hid : item.reviewId ∉ rows.map (·.reviewId))
    (hfingerprint : ∀ r ∈ rows, underFingerprint item.institutionId item.fingerprint r = false)
    (hdecision : item.decision = none) : QueueInv (rows ++ [item]) := by
  refine ⟨?_, ?_, ?_⟩
  · rw [List.map_append]
    exact h.ids.append (List.nodup_singleton _) (by simpa using hid)
  · rw [List.map_append]
    refine h.fingerprints.append (List.nodup_singleton _) ?_
    simp only [List.map_cons, List.map_nil, List.disjoint_singleton, List.mem_map, not_exists,
      not_and, Prod.mk.injEq]
    intro r hr hinstitution hkey
    simpa [underFingerprint, hinstitution, hkey] using hfingerprint r hr
  · intro r hr
    rcases List.mem_append.mp hr with hr | hr
    · exact h.undecided r hr
    · rw [List.mem_singleton.mp hr]
      exact fun _ => hdecision

theorem QueueInv.updateIf (h : QueueInv rows) {p : ReviewItem → Bool} (hf : KeepsIdentity f)
    (hdecision : ∀ item ∈ rows, p item = true → (f item).status ≠ .decided →
      (f item).decision = none) : QueueInv (updateIf p f rows) := by
  refine ⟨?_, ?_, ?_⟩
  · rw [map_updateIf fun item => (hf item).1]
    exact h.ids
  · rw [map_updateIf fun item => Prod.ext (hf item).2.1 (hf item).2.2.1]
    exact h.fingerprints
  · intro r hr
    obtain ⟨item, hitem, rfl⟩ := mem_updateIf.mp hr
    split_ifs with hp
    · exact hdecision item hitem hp
    · exact h.undecided item hitem

theorem QueueInv.after (h : QueueInv rows) (call : Call) : QueueInv (after env rows call) := by
  rcases after_cases env rows call with heq | ⟨_, _, _, -, hnone, hid, -, heq⟩ |
    ⟨_, _, _, found, -, -, -, -, heq⟩ | ⟨_, ruling, -, heq⟩ | ⟨_, now, -, heq⟩
  all_goals rw [heq]
  · exact h
  · exact h.append hid (existing_none hnone) rfl
  · refine h.updateIf keepsIdentity_reopenedItem fun item hitem hp _ => ?_
    exact h.undecided item hitem (by simp [(addressed_iff.mp hp).2.2])
  · refine h.updateIf (keepsIdentity_decidedItem ruling) fun item _ _ hstatus => ?_
    exact absurd (decidedItem_status ruling item) hstatus
  · refine h.updateIf (keepsIdentity_expiredItem now) fun item hitem hp _ => ?_
    simp only [lapsed, Bool.and_eq_true, ReviewItem.isOpen_iff] at hp
    exact h.undecided item hitem (by simp [hp.1.2])

theorem queueInv_of_reaches {ok : List ReviewItem → Call → Prop} {s : List ReviewItem}
    (h : (queue env).Reaches ok s) : QueueInv s := by
  refine h.invariant (fun s call t hs _ hstep => ?_) fun s hs => by rw [show s = [] from hs]; exact .nil
  rw [← Option.some.inj hstep]
  exact hs.after call

theorem QueueInv.eq_of_reviewId (h : QueueInv rows) {item item' : ReviewItem} (hitem : item ∈ rows)
    (hitem' : item' ∈ rows) (heq : item'.reviewId = item.reviewId) : item' = item :=
  List.inj_on_of_nodup_map h.ids hitem' hitem heq

/-! ## The life of an item -/

/-- What one call may make of an item: leave its status, reopen it when it expired, or close it when
it is open. -/
def Moves (item item' : ReviewItem) : Prop :=
  item' = item ∨ (item.status = .expired ∧ item'.status = .opened) ∨
    (item.status = .opened ∧ item'.status ≠ .opened)

theorem exists_after (call : Call) (hitem : item ∈ rows) :
    ∃ item' ∈ after env rows call, item'.reviewId = item.reviewId ∧ Moves item item' := by
  have updated {p : ReviewItem → Bool} {f : ReviewItem → ReviewItem} (hf : KeepsIdentity f)
      (hmove : p item = true → Moves item (f item)) :
      ∃ item' ∈ updateIf p f rows, item'.reviewId = item.reviewId ∧ Moves item item' := by
    refine ⟨_, mem_updateIf.mpr ⟨item, hitem, rfl⟩, ?_⟩
    split_ifs with hp
    · exact ⟨(hf item).1, hmove hp⟩
    · exact ⟨rfl, .inl rfl⟩
  rcases after_cases env rows call with heq | ⟨_, _, _, -, -, -, -, heq⟩ |
    ⟨_, _, _, found, -, -, -, -, heq⟩ | ⟨_, ruling, -, heq⟩ | ⟨_, now, -, heq⟩
  all_goals rw [heq]
  · exact ⟨item, hitem, rfl, .inl rfl⟩
  · exact ⟨item, List.mem_append_left _ hitem, rfl, .inl rfl⟩
  · exact updated keepsIdentity_reopenedItem fun hp =>
      .inr (.inl ⟨(addressed_iff.mp hp).2.2, rfl⟩)
  · exact updated (keepsIdentity_decidedItem ruling) fun hp =>
      .inr (.inr ⟨(addressed_iff.mp hp).2.2, by simp⟩)
  · refine updated (keepsIdentity_expiredItem now) fun hp => .inr (.inr ⟨?_, by simp [expiredItem]⟩)
    simp only [lapsed, Bool.and_eq_true, ReviewItem.isOpen_iff] at hp
    exact hp.1.2

theorem QueueInv.moves (h : QueueInv rows) (call : Call) {item item' : ReviewItem}
    (hitem : item ∈ rows) (hitem' : item' ∈ Queue.after env rows call)
    (heq : item'.reviewId = item.reviewId) : Moves item item' := by
  obtain ⟨next, hnext, hid, hmoves⟩ := exists_after call hitem
  rwa [(h.after call).eq_of_reviewId hnext hitem' (heq.trans hid.symm)]

theorem decided_of_run {ok : List ReviewItem → Call → Prop} {s t : List ReviewItem}
    {calls : List Call} (hr : (queue env).Run ok s calls t) (hitem : item ∈ s)
    (hstatus : item.status = .decided) :
    ∃ item' ∈ t, item'.reviewId = item.reviewId ∧ item'.status = .decided := by
  induction hr generalizing item with
  | nil s => exact ⟨item, hitem, rfl, hstatus⟩
  | cons _ hstep _ ih =>
    obtain ⟨next, hnext, hid, hmoves⟩ := exists_after _ hitem
    have hdecided : next.status = .decided := by
      rcases hmoves with rfl | ⟨hs, -⟩ | ⟨hs, -⟩
      · exact hstatus
      · simp [hstatus] at hs
      · simp [hstatus] at hs
    rw [← Option.some.inj hstep] at ih
    obtain ⟨item', hitem', hid', hstatus'⟩ := ih hnext hdecided
    exact ⟨item', hitem', hid'.trans hid, hstatus'⟩

/-! ## The bound -/

theorem ordinaryOpen_le_openItems (institutionId : String) (rows : List ReviewItem) :
    rows.countP (·.ordinaryOpen institutionId) ≤ openItems institutionId rows :=
  List.countP_mono_left fun _ _ h =>
    let ⟨hother, hopen, _⟩ := ReviewItem.ordinaryOpen_iff.mp h
    ReviewItem.isOpen_iff.mpr ⟨hother, hopen⟩

theorem countP_ordinaryOpen_close {p : ReviewItem → Bool}
    (hf : ∀ item, (f item).status ≠ .opened) (institutionId : String) :
    (updateIf p f rows).countP (·.ordinaryOpen institutionId) ≤
      rows.countP (·.ordinaryOpen institutionId) :=
  countP_updateIf_le_of_imp fun item _ _ h => by
    exact absurd (ReviewItem.ordinaryOpen_iff.mp h).2.1 (hf item)

theorem bounded_add {reviewId : String}
    (hroom : request.pressing = true ∨ openItems institutionId rows < maxOpenReview) (other : String)
    (h : rows.countP (·.ordinaryOpen other) ≤ maxOpenReview) :
    (rows ++ [queuedItem env institutionId request reviewId]).countP (·.ordinaryOpen other) ≤
      maxOpenReview := by
  rw [List.countP_append, List.countP_singleton]
  split_ifs with hordinary
  · obtain ⟨hother, -, hpressing⟩ := ReviewItem.ordinaryOpen_iff.mp hordinary
    obtain rfl : institutionId = other := hother
    have hpressing : request.pressing = false := hpressing
    have hroom := hroom.resolve_left (by simp [hpressing])
    have := ordinaryOpen_le_openItems institutionId rows
    omega
  · exact h

theorem bounded_reopen (hinv : QueueInv rows)
    (hfound : existing env rows institutionId request = some item)
    (hroom : item.pressing = true ∨ openItems institutionId rows < maxOpenReview) (other : String)
    (h : rows.countP (·.ordinaryOpen other) ≤ maxOpenReview) :
    (updateIf (addressed institutionId item.reviewId .expired)
      (reopenedItem env institutionId request) rows).countP (·.ordinaryOpen other) ≤
      maxOpenReview := by
  obtain ⟨hitem, rfl⟩ := existing_some hfound
  by_cases hcase : item.pressing = true ∨ other ≠ item.institutionId
  · -- the reopened item does not count for `other`
    refine (countP_updateIf_le_of_imp fun r hr hp hordinary => ?_).trans h
    rw [hinv.eq_of_reviewId hitem hr (addressed_iff.mp hp).2.1] at hordinary
    rw [ReviewItem.ordinaryOpen_iff, keepsIdentity_reopenedItem.pressing] at hordinary
    rcases hcase with hpressing | hother
    · simp [hpressing] at hordinary
    · exact absurd hordinary.1.symm hother
  · obtain ⟨hpressing, hother⟩ := not_or.mp hcase
    have hroom := hroom.resolve_left hpressing
    have hone : rows.countP (addressed item.institutionId item.reviewId .expired) ≤ 1 :=
      countP_le_one_of_key hinv.ids fun r hr => (addressed_iff.mp hr).2.1
    have hle := countP_updateIf_le (addressed item.institutionId item.reviewId .expired)
      (·.ordinaryOpen other) (reopenedItem env item.institutionId request) rows
    have hopen := ordinaryOpen_le_openItems other rows
    rw [not_not.mp hother] at *
    omega

theorem bounded_after (hinv : QueueInv rows) {call : Call} (hok : ReopensInBounds env rows call)
    (other : String) (h : rows.countP (·.ordinaryOpen other) ≤ maxOpenReview) :
    (after env rows call).countP (·.ordinaryOpen other) ≤ maxOpenReview := by
  rcases after_cases env rows call with heq | ⟨_, _, _, -, -, -, hroom, heq⟩ |
    ⟨_, _, _, found, rfl, hfound, hstatus, hroom, heq⟩ | ⟨_, ruling, -, heq⟩ | ⟨_, now, -, heq⟩
  all_goals rw [heq]
  · exact h
  · exact bounded_add hroom other h
  · refine bounded_reopen hinv hfound ?_ other h
    rcases hroom with hpressing | hroom
    · exact hok _ _ _ rfl hpressing _ hfound hstatus
    · exact .inr hroom
  · exact (countP_ordinaryOpen_close (by simp) other).trans h
  · exact (countP_ordinaryOpen_close (by simp [expiredItem]) other).trans h

/-- **The queue asks once and stays bounded** in the runs where a pressing call that reopens an
ordinary item finds room for it. -/
theorem asksOnceBounded_of_reopensInBounds (env : QueueEnv) :
    AsksOnceBounded env (ReopensInBounds env) where
  once s hs institutionId fingerprint := by
    rw [← List.countP_eq_length_filter]
    refine countP_le_one_of_key (queueInv_of_reaches hs).fingerprints
      fun item h => (?_ : _ = (institutionId, fingerprint))
    simpa [underFingerprint] using h
  closed s hs calls t hr item hitem hstatus item' hitem' heq := by
    obtain ⟨next, hnext, hid, hdecided⟩ := decided_of_run hr hitem hstatus
    have ht := queueInv_of_reaches (hs.run hr)
    rw [ht.eq_of_reviewId hnext hitem' (heq.trans hid.symm), hdecided]
    decide
  undecided s hs call _ item hitem hstatus item' hitem' heq hopened := by
    have hinv := queueInv_of_reaches hs
    rcases hinv.moves call hitem hitem' heq with rfl | ⟨hexpired, -⟩ | ⟨hopen, -⟩
    · exact absurd hopened hstatus
    · exact ⟨hexpired, hinv.undecided item hitem (by simp [hexpired])⟩
    · exact absurd hopen hstatus
  bounded s hs := by
    refine (hs.invariant (P := fun s => QueueInv s ∧ ∀ institutionId,
        s.countP (·.ordinaryOpen institutionId) ≤ maxOpenReview)
      (fun s call t hs hok hstep => ?_) fun s hs => ?_).2
    · rw [← Option.some.inj hstep]
      exact ⟨hs.1.after call, fun other => bounded_after hs.1 hok other (hs.2 other)⟩
    · rw [show s = [] from hs]
      exact ⟨.nil, by simp⟩

/-! ## One item more than the bound -/

def plainQueue : QueueEnv := ⟨some, id, fun c => c = ' ', fun _ text => text⟩

def tag (n : Nat) : String := String.ofList (List.replicate (n + 1) 'x')

theorem tag_inj {m n : Nat} (h : tag m = tag n) : m = n := by
  have := congrArg (fun text => text.toList.length) h
  simpa [tag] using this

/-- A mention in the news, queued on day `day`. -/
def mention (n : Nat) (severity : Severity) (day : Nat) : Request :=
  ⟨.newsMention, "A mention", some (tag n), "", "", none, none, severity, "news", none, none,
    day * 86400⟩

/-- The first mention, which nobody decided on in time. -/
def unanswered : ReviewItem :=
  expiredItem (91 * 86400) (queuedItem plainQueue "college" (mention 0 .normal 0) (tag 0))

/-- The queue when the first mention has expired and `n` others have come in. -/
def waiting (n : Nat) : List ReviewItem :=
  unanswered :: (List.range n).map fun i =>
    queuedItem plainQueue "college" (mention (i + 1) .normal 91) (tag (i + 1))

theorem filled_tag (n : Nat) : filled (some (tag n)) = some (tag n) := by
  have h : tag n ≠ "" := fun h => by
    have := congrArg String.toList h
    simp [tag, List.replicate_succ] at this
  simp [filled, Option.filter, h]

theorem key_mention (n : Nat) (severity : Severity) (day : Nat) :
    (mention n severity day).key plainQueue = tag n := by
  rw [Request.key, show (mention n severity day).fingerprint = some (tag n) from rfl, filled_tag,
    Option.getD_some]

theorem legacy_mention (n : Nat) (severity : Severity) (day : Nat) :
    (mention n severity day).legacy plainQueue = tag n := by
  rw [Request.legacy, show (mention n severity day).fingerprint = some (tag n) from rfl, filled_tag,
    Option.getD_some]

theorem mem_waiting {n : Nat} (h : item ∈ waiting n) :
    ∃ m ≤ n, item.fingerprint = tag m ∧ item.reviewId = tag m := by
  rcases List.mem_cons.mp h with rfl | h
  · exact ⟨0, Nat.zero_le n, key_mention 0 .normal 0, rfl⟩
  · obtain ⟨i, hi, rfl⟩ := List.mem_map.mp h
    exact ⟨i + 1, List.mem_range.mp hi, key_mention _ _ _, rfl⟩

theorem openItems_waiting (n : Nat) : openItems "college" (waiting n) = n := by
  rw [openItems, waiting, List.countP_cons_of_neg (by decide), List.countP_eq_length.mpr]
  · simp
  · intro item hitem
    obtain ⟨i, -, rfl⟩ := List.mem_map.mp hitem
    rfl

theorem after_mention {n : Nat} (h : n < maxOpenReview) :
    after plainQueue (waiting n) (.add "college" (mention (n + 1) .normal 91) (tag (n + 1))) =
      waiting (n + 1) := by
  have hfresh : ∀ item ∈ waiting n, item.fingerprint ≠ tag (n + 1) ∧ item.reviewId ≠ tag (n + 1) := by
    intro item hitem
    obtain ⟨m, hm, hfingerprint, hid⟩ := mem_waiting hitem
    rw [hfingerprint, hid]
    exact ⟨fun heq => by have := tag_inj heq; omega, fun heq => by have := tag_inj heq; omega⟩
  have hnone : existing plainQueue (waiting n) "college" (mention (n + 1) .normal 91) = none := by
    rw [existing, key_mention, legacy_mention, Option.or_self, List.find?_eq_none]
    intro item hitem
    simp [underFingerprint, (hfresh item hitem).1]
  have hroom := openItems_waiting n
  have hid : tag (n + 1) ∉ (waiting n).map (·.reviewId) := by
    intro hmem
    obtain ⟨item, hitem, heq⟩ := List.mem_map.mp hmem
    exact (hfresh item hitem).2 heq
  rw [after, addReviewItem, hnone]
  simp only
  rw [if_neg (by simp; omega), if_neg hid, waiting, waiting, List.range_succ, List.map_append]
  rfl

theorem run_mentions (n : Nat) (h : n ≤ maxOpenReview) :
    ∃ calls, (queue plainQueue).Run Always (waiting 0) calls (waiting n) := by
  induction n with
  | zero => exact ⟨[], .nil _⟩
  | succ n ih =>
    obtain ⟨calls, hrun⟩ := ih (Nat.le_of_succ_le h)
    exact ⟨_, hrun.snoc trivial (congrArg some (after_mention h))⟩

theorem reaches_waiting : (queue plainQueue).Reaches Always (waiting maxOpenReview) := by
  obtain ⟨calls, hrun⟩ := run_mentions maxOpenReview le_rfl
  have hfirst : (queue plainQueue).exec Always [] [.add "college" (mention 0 .normal 0) (tag 0),
      .expire "college" (91 * 86400)] = some (waiting 0) := by decide
  exact Reaches.run ⟨[], _, rfl, run_of_exec hfirst⟩ hrun

/-- The first mention, found again as a pressing one. -/
def foundAgain : Call := .add "college" (mention 0 .high 91) (tag 0)

theorem after_foundAgain (n : Nat) : after plainQueue (waiting n) foundAgain =
      updateIf (addressed "college" (tag 0) .expired)
        (reopenedItem plainQueue "college" (mention 0 .high 91)) (waiting n) := by
  have hsome : existing plainQueue (waiting n) "college" (mention 0 .high 91) = some unanswered := by
    have hunder : underFingerprint "college" (tag 0) unanswered = true := by decide
    rw [existing, key_mention, legacy_mention, Option.or_self, waiting, List.find?_cons_of_pos hunder]
  rw [foundAgain, after, addReviewItem, hsome]
  rfl

/-- **A pressing call reopens an ordinary item past the bound**: with the queue full, the mention
that expired is open again, and stays an ordinary item. -/
theorem not_asksOnceBounded :
    openItems "college" (waiting maxOpenReview) = maxOpenReview ∧
      (after plainQueue (waiting maxOpenReview) foundAgain).countP (·.ordinaryOpen "college") =
        maxOpenReview + 1 ∧
      ¬ AsksOnceBounded plainQueue Always := by
  have hcount : (after plainQueue (waiting maxOpenReview) foundAgain).countP
      (·.ordinaryOpen "college") = maxOpenReview + 1 := by
    rw [after_foundAgain, List.countP_eq_length.mpr]
    · simp [updateIf, waiting]
    · intro item hitem
      obtain ⟨r, hr, rfl⟩ := mem_updateIf.mp hitem
      rcases List.mem_cons.mp hr with rfl | hr
      · decide
      · obtain ⟨i, -, rfl⟩ := List.mem_map.mp hr
        rw [if_neg (by simp [addressed, queuedItem])]
        exact ReviewItem.ordinaryOpen_iff.mpr ⟨rfl, rfl, rfl⟩
  refine ⟨openItems_waiting maxOpenReview, hcount, fun h => ?_⟩
  have hreach : (queue plainQueue).Reaches Always
      (after plainQueue (waiting maxOpenReview) foundAgain) := reaches_waiting.step trivial rfl
  have := h.bounded _ hreach "college"
  omega

end GuruJi.Map.Queue
