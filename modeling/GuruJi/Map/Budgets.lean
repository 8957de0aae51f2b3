import GuruJi.Lib.Machine
import GuruJi.Lib.Sums
import GuruJi.Lib.Table
import Mathlib.Algebra.Order.Field.Rat
import Mathlib.Tactic.Linarith

/-!
# Budgets

`reserve_budget` takes units from an institution's quota, then from the platform's ledger, each by
an upsert that applies only within its cap, and hands the quota back when the ledger refuses;
`refund_budget` gives units back to both. Each of these statements is a transaction of its own, and
the calls of any number of workers interleave between them.

The state notes which calls are under way and what each returned call granted or gave back.

* `budgetsKept`: no cap is ever exceeded, and when every call has returned both ledgers hold what
  was granted less what was refunded.
-/

namespace GuruJi.Map.Budgets

open GuruJi.Lib GuruJi.Lib.Machine

/-- The key of a row of `intel_quota`. -/
structure BudgetKey where
  institutionId : String
  day : String
  connector : String
  deriving DecidableEq

/-- The key of the row of `intel_budget_ledger` that all institutions share. -/
def BudgetKey.platform (key : BudgetKey) : String × String := (key.day, key.connector)

/-- The units and calls of a ledger row. -/
structure Spend where
  units : ℚ
  calls : Int
  deriving DecidableEq

structure Ledgers where
  quota : Table BudgetKey Spend
  ledger : Table (String × String) Spend
  deriving DecidableEq

section
variable {κ : Type} [DecidableEq κ]

/-- The units of a row; nothing has been spent where there is none. -/
def spent (rows : Table κ Spend) (key : κ) : ℚ := ((rows.get key).map (·.units)).getD 0

/-- `INSERT ... ON CONFLICT DO UPDATE SET units = units + ? WHERE units + ? <= cap`. -/
def take (rows : Table κ Spend) (key : κ) (units cap : ℚ) : Table κ Spend × Bool :=
  match rows.get key with
  | none => (rows.assign key ⟨units, 1⟩, true)
  | some row =>
    if row.units + units ≤ cap then (rows.assign key ⟨row.units + units, row.calls + 1⟩, true)
    else (rows, false)

/-- `SET units = units - ?, calls = calls - 1`. -/
def handBack (rows : Table κ Spend) (key : κ) (units : ℚ) : Table κ Spend :=
  rows.updateWhere key (fun _ => true) fun row => ⟨row.units - units, row.calls - 1⟩

/-- `SET units = CASE WHEN units > ? THEN units - ? ELSE 0 END`. -/
def giveBack (rows : Table κ Spend) (key : κ) (units : ℚ) : Table κ Spend :=
  rows.updateWhere key (fun _ => true) fun row =>
    { row with units := if units < row.units then row.units - units else 0 }

end

/-- The arguments of `reserve_budget`. -/
structure Reservation where
  key : BudgetKey
  units : ℚ
  globalCap : ℚ
  tenantCap : ℚ
  deriving DecidableEq

/-- The arguments of `refund_budget`. -/
structure Refund where
  key : BudgetKey
  units : ℚ
  deriving DecidableEq

/-! ## The calls, alone -/

/-- `reserve_budget`. -/
def reserveBudget (b : Ledgers) (r : Reservation) : Ledgers × Bool :=
  if r.units ≤ 0 then (b, true)
  else if r.tenantCap < r.units ∨ r.globalCap < r.units then (b, false)
  else
    let (quota, tookTenant) := take b.quota r.key r.units r.tenantCap
    if !tookTenant then (⟨quota, b.ledger⟩, false)
    else
      let (ledger, tookGlobal) := take b.ledger r.key.platform r.units r.globalCap
      if !tookGlobal then (⟨handBack quota r.key r.units, ledger⟩, false)
      else (⟨quota, ledger⟩, true)

/-- `refund_budget`. -/
def refundBudget (b : Ledgers) (r : Refund) : Ledgers :=
  if r.units ≤ 0 then b
  else ⟨giveBack b.quota r.key r.units, giveBack b.ledger r.key.platform r.units⟩

/-! ## The calls, interleaved -/

/-- The transaction a call that is under way has still to make. -/
inductive Phase where
  | takeTenant (r : Reservation)
  | takeGlobal (r : Reservation)
  | handBack (r : Reservation)
  | refundTenant (r : Refund)
  | refundGlobal (r : Refund)
  deriving DecidableEq

variable {C : Type} [DecidableEq C]

/-- Units that a caller was granted or, negative, gave back. -/
structure Entry (C : Type) where
  caller : C
  key : BudgetKey
  units : ℚ
  deriving DecidableEq

structure Call (C : Type) where
  caller : C
  phase : Phase
  deriving DecidableEq

/-- The ledgers, the calls under way and what the returned ones granted or gave back. -/
structure State (C : Type) where
  ledgers : Ledgers
  calls : List (Call C)
  log : List (Entry C)
  deriving DecidableEq

/-- A caller starts a call, or a call that is under way makes its next transaction. -/
inductive Action (C : Type) where
  | reserve (caller : C) (r : Reservation)
  | refund (caller : C) (r : Refund)
  | advance (n : Nat)
  deriving DecidableEq

/-- What a transaction makes of a call: the ledgers, the call unless it returns, and what it
granted or gave back. -/
def advance (b : Ledgers) (call : Call C) : Ledgers × Option Phase × Option (Entry C) :=
  match call.phase with
  | .takeTenant r =>
    let (quota, took) := take b.quota r.key r.units r.tenantCap
    ({ b with quota := quota }, if took then some (.takeGlobal r) else none, none)
  | .takeGlobal r =>
    let (ledger, took) := take b.ledger r.key.platform r.units r.globalCap
    ({ b with ledger := ledger }, if took then none else some (.handBack r),
      if took then some ⟨call.caller, r.key, r.units⟩ else none)
  | .handBack r => ({ b with quota := handBack b.quota r.key r.units }, none, none)
  | .refundTenant r => ({ b with quota := giveBack b.quota r.key r.units }, some (.refundGlobal r), none)
  | .refundGlobal r =>
    ({ b with ledger := giveBack b.ledger r.key.platform r.units }, none,
      some ⟨call.caller, r.key, -r.units⟩)

def step (s : State C) : Action C → Option (State C)
  | .reserve caller r =>
    if r.units ≤ 0 ∨ r.tenantCap < r.units ∨ r.globalCap < r.units then some s
    else some { s with calls := ⟨caller, .takeTenant r⟩ :: s.calls }
  | .refund caller r =>
    if r.units ≤ 0 then some s
    else some { s with calls := ⟨caller, .refundTenant r⟩ :: s.calls }
  | .advance n =>
    (s.calls[n]?).map fun call =>
      let (ledgers, next, entry) := advance s.ledgers call
      ⟨ledgers, (next.map (Call.mk call.caller)).toList ++ s.calls.eraseIdx n,
        s.log ++ entry.toList⟩

def budgets : Machine (State C) (Action C) where
  init s := s = ⟨⟨[], []⟩, [], []⟩
  step := step

/-! ## What is counted -/

namespace Phase

def key : Phase → BudgetKey
  | takeTenant r | takeGlobal r | handBack r => r.key
  | refundTenant r | refundGlobal r => r.key

/-- What a call under way has taken from the quota or, negative, already given back to it. -/
def taken : Phase → ℚ
  | takeTenant _ | refundTenant _ => 0
  | takeGlobal r | handBack r => r.units
  | refundGlobal r => -r.units

/-- What a call under way is going to give back of its caller's reservations, negative. -/
def promised : Phase → ℚ
  | takeTenant _ | takeGlobal _ | handBack _ => 0
  | refundTenant r | refundGlobal r => -r.units

end Phase

def Call.taken (call : Call C) : Entry C := ⟨call.caller, call.phase.key, call.phase.taken⟩

def Call.promised (call : Call C) : Entry C := ⟨call.caller, call.phase.key, call.phase.promised⟩

/-- The sum of the entries of an institution's row. -/
def sumOf (key : BudgetKey) (entries : List (Entry C)) : ℚ :=
  sumIf (fun e => e.key = key) (·.units) entries

def platformSum (key : String × String) (entries : List (Entry C)) : ℚ :=
  sumIf (fun e => e.key.platform = key) (·.units) entries

/-- What a caller was granted of a row and has not given back. -/
def State.reserved (s : State C) (caller : C) (key : BudgetKey) : ℚ :=
  sumIf (fun e => (e.caller, e.key) = (caller, key)) (·.units) (s.log ++ s.calls.map Call.promised)

/-- The caps of the rows: no call names a larger one. -/
structure Caps where
  tenant : BudgetKey → ℚ
  platform : String × String → ℚ

/-- What is asked of the callers: the caps they name are the rows' caps, and they refund no more
than they have reserved. -/
def Fair (caps : Caps) (s : State C) : Action C → Prop
  | .reserve _ r => r.tenantCap ≤ caps.tenant r.key ∧ r.globalCap ≤ caps.platform r.key.platform
  | .refund caller r => 0 < r.units → r.units ≤ s.reserved caller r.key
  | .advance _ => True

/-- The budgets are kept in the runs whose steps meet `ok`. -/
structure BudgetsKept (caps : Caps) (ok : State C → Action C → Prop) : Prop where
  /-- No institution exceeds its cap. -/
  tenant : ∀ s, budgets.Reaches ok s → ∀ key row, s.ledgers.quota.get key = some row →
    row.units ≤ caps.tenant key
  /-- The platform does not exceed the global cap. -/
  platform : ∀ s, budgets.Reaches ok s → ∀ key row, s.ledgers.ledger.get key = some row →
    row.units ≤ caps.platform key
  /-- Once every call has returned, both ledgers hold what was granted less what was refunded. -/
  settled : ∀ s, budgets.Reaches ok s → s.calls = [] →
    (∀ key, spent s.ledgers.quota key = sumOf key s.log) ∧
      ∀ key, spent s.ledgers.ledger key = platformSum key s.log

/-! ## What a transaction does to a row -/

section
variable {κ : Type} [DecidableEq κ] {rows : Table κ Spend} {key : κ} {units cap : ℚ}

def Within (caps : κ → ℚ) (rows : Table κ Spend) : Prop :=
  ∀ key row, rows.get key = some row → row.units ≤ caps key

theorem spent_of_get {row : Spend} (h : rows.get key = some row) : spent rows key = row.units := by
  rw [spent, h]
  rfl

theorem spent_assign (rows : Table κ Spend) (key k : κ) (row : Spend) :
    spent (rows.assign key row) k = if k = key then row.units else spent rows k := by
  rw [spent, Table.get_assign]
  split_ifs <;> rfl

theorem take_spent (h : (take rows key units cap).2 = true) (k : κ) :
    spent (take rows key units cap).1 k = spent rows k + if k = key then units else 0 := by
  rw [take] at h ⊢
  cases hget : rows.get key with
  | none =>
    rw [spent_assign]
    split_ifs with hk
    · rw [hk, spent, hget]
      simp
    · rw [add_zero]
  | some row =>
    simp only [hget] at h ⊢
    split_ifs at h ⊢ with hcap hk
    · rw [spent_assign, if_pos hk, hk, spent_of_get hget]
    · rw [spent_assign, if_neg hk, add_zero]

theorem take_lost (h : (take rows key units cap).2 = false) : (take rows key units cap).1 = rows := by
  rw [take] at h ⊢
  cases hget : rows.get key with
  | none => simp [hget] at h
  | some row =>
    simp only [hget] at h ⊢
    split_ifs at h ⊢
    rfl

variable {caps : κ → ℚ}

theorem Within.take (h : Within caps rows) (hunits : units ≤ cap)
    (hcap : cap ≤ caps key) : Within caps (take rows key units cap).1 := by
  have assigned {row : Spend} (hrow : row.units ≤ cap) : Within caps (rows.assign key row) := by
    intro k r hr
    rw [Table.get_assign] at hr
    split_ifs at hr with hk
    · rw [← Option.some.inj hr, hk]
      exact hrow.trans hcap
    · exact h k r hr
  rw [Budgets.take]
  cases rows.get key with
  | none => exact assigned hunits
  | some row =>
    simp only
    split_ifs with hfits
    · exact assigned hfits
    · exact h

theorem get_updateKey (rows : Table κ Spend) (key k : κ) (f : Spend → Spend) :
    (rows.updateWhere key (fun _ => true) f).get k =
      if k = key then (rows.get k).map f else rows.get k := by
  rw [Table.get_updateWhere]
  simp only [if_true]

theorem spent_updateWhere {f : Spend → Spend} (hle : units ≤ spent rows key) (hpos : 0 < units)
    (hf : ∀ row, units ≤ row.units → (f row).units = row.units - units) (k : κ) :
    spent (rows.updateWhere key (fun _ => true) f) k =
      spent rows k - if k = key then units else 0 := by
  rw [spent, get_updateKey]
  split_ifs with hk
  · subst hk
    cases hget : rows.get k with
    | none =>
      rw [spent, hget] at hle
      exact absurd (hpos.trans_le hle) (lt_irrefl 0)
    | some row =>
      rw [spent_of_get hget] at hle ⊢
      exact hf row hle
  · rw [sub_zero]
    rfl

theorem Within.updateWhere {f : Spend → Spend} (h : Within caps rows)
    (hle : units ≤ spent rows key) (hpos : 0 < units)
    (hf : ∀ row, units ≤ row.units → (f row).units = row.units - units) :
    Within caps (rows.updateWhere key (fun _ => true) f) := by
  intro k r hr
  rw [get_updateKey] at hr
  split_ifs at hr with hk
  · subst hk
    obtain ⟨row, hget, rfl⟩ := Option.map_eq_some_iff.mp hr
    rw [spent_of_get hget] at hle
    have := h k row hget
    rw [hf row hle]
    linarith
  · exact h k r hr

theorem handBack_spent (hle : units ≤ spent rows key) (hpos : 0 < units) (k : κ) :
    spent (handBack rows key units) k = spent rows k - if k = key then units else 0 :=
  spent_updateWhere hle hpos (fun _ _ => rfl) k

theorem Within.handBack (h : Within caps rows) (hle : units ≤ spent rows key)
    (hpos : 0 < units) : Within caps (handBack rows key units) :=
  h.updateWhere hle hpos fun _ _ => rfl

theorem giveBack_units (row : Spend) (hle : units ≤ row.units) :
    (if units < row.units then row.units - units else 0) = row.units - units := by
  split_ifs with hlt
  · rfl
  · rw [le_antisymm (not_lt.mp hlt) hle, sub_self]

theorem giveBack_spent (hle : units ≤ spent rows key) (hpos : 0 < units) (k : κ) :
    spent (giveBack rows key units) k = spent rows k - if k = key then units else 0 :=
  spent_updateWhere hle hpos giveBack_units k

theorem Within.giveBack (h : Within caps rows) (hle : units ≤ spent rows key)
    (hpos : 0 < units) : Within caps (giveBack rows key units) :=
  h.updateWhere hle hpos giveBack_units

end

/-! ## What a transaction does -/

/-- The amounts of a call under way are positive and within the caps it names. -/
def Phase.Fits (caps : Caps) : Phase → Prop
  | takeTenant r | takeGlobal r | handBack r =>
    0 < r.units ∧ (r.units ≤ r.tenantCap ∧ r.units ≤ r.globalCap) ∧
      r.tenantCap ≤ caps.tenant r.key ∧ r.globalCap ≤ caps.platform r.key.platform
  | refundTenant r | refundGlobal r => 0 < r.units

/-- The units of what a call grants or gives back in a transaction. -/
def moved (entry : Option (Entry C)) : ℚ := (entry.map (·.units)).getD 0

/-- What a transaction of a call does to the ledgers and to what the call has still to do. -/
structure Advanced (caps : Caps) (b : Ledgers) (call : Call C) (b' : Ledgers) (next : Option Phase)
    (entry : Option (Entry C)) : Prop where
  quota : ∀ k, spent b'.quota k = spent b.quota k +
    if k = call.phase.key then (next.map Phase.taken).getD 0 + moved entry - call.phase.taken else 0
  ledger : ∀ k, spent b'.ledger k = spent b.ledger k +
    if k = call.phase.key.platform then moved entry else 0
  promised : call.phase.promised ≤ (next.map Phase.promised).getD 0 + moved entry
  next : ∀ phase ∈ next, phase.key = call.phase.key ∧ phase.Fits caps
  entry : ∀ e ∈ entry, e.caller = call.caller ∧ e.key = call.phase.key
  quotaWithin : Within caps.tenant b'.quota
  ledgerWithin : Within caps.platform b'.ledger

variable {call : Call C} {n : Nat}

omit [DecidableEq C] in
theorem advanced {caps : Caps} {b : Ledgers} (hfits : call.phase.Fits caps)
    (hquota : call.phase.taken - call.phase.promised ≤ spent b.quota call.phase.key)
    (hledger : -call.phase.promised ≤ spent b.ledger call.phase.key.platform)
    (hq : Within caps.tenant b.quota) (hl : Within caps.platform b.ledger) :
    Advanced caps b call (advance b call).1 (advance b call).2.1 (advance b call).2.2 := by
  obtain ⟨caller, phase⟩ := call
  cases phase with
  | takeTenant r =>
    obtain ⟨-, hunits, hcaps⟩ := id hfits
    simp only [advance]
    cases htook : (take b.quota r.key r.units r.tenantCap).2 with
    | true =>
      refine ⟨fun k => ?_, fun k => ?_, ?_, ?_, by simp, hq.take hunits.1 hcaps.1, hl⟩
      · simp [take_spent htook, Phase.taken, Phase.key, moved]
      · simp [moved]
      · simp [Phase.promised, moved]
      · rintro _ ⟨⟩
        exact ⟨rfl, hfits⟩
    | false =>
      rw [take_lost htook]
      refine ⟨fun k => ?_, fun k => ?_, ?_, by simp, by simp, hq, hl⟩
      · simp [Phase.taken, moved]
      · simp [moved]
      · simp [Phase.promised, moved]
  | takeGlobal r =>
    obtain ⟨hpos, hunits, hcaps⟩ := id hfits
    simp only [advance]
    cases htook : (take b.ledger r.key.platform r.units r.globalCap).2 with
    | true =>
      refine ⟨fun k => ?_, fun k => ?_, ?_, by simp, ?_, hq, hl.take hunits.2 hcaps.2⟩
      · simp [Phase.taken, moved]
      · simp [take_spent htook, Phase.key, moved]
      · simpa [Phase.promised, moved] using hpos.le
      · simp [Phase.key]
    | false =>
      rw [take_lost htook]
      refine ⟨fun k => ?_, fun k => ?_, ?_, ?_, by simp, hq, hl⟩
      · simp [Phase.taken, moved]
      · simp [moved]
      · simp [Phase.promised, moved]
      · rintro _ ⟨⟩
        exact ⟨rfl, hfits⟩
  | handBack r =>
    have hle : r.units ≤ spent b.quota r.key := by
      simpa only [Phase.taken, Phase.promised, Phase.key, sub_zero] using hquota
    refine ⟨fun k => ?_, fun k => ?_, ?_, ?_, ?_, hq.handBack hle hfits.1, hl⟩
    · simp only [advance, handBack_spent hle hfits.1]
      split_ifs with hk <;> simp_all [Phase.taken, Phase.key, moved, sub_eq_add_neg]
    · simp [advance, moved]
    · simp [advance, Phase.promised, moved]
    · simp [advance]
    · simp [advance]
  | refundTenant r =>
    have hle : r.units ≤ spent b.quota r.key := by
      simpa only [Phase.taken, Phase.promised, Phase.key, zero_sub, neg_neg] using hquota
    refine ⟨fun k => ?_, fun k => ?_, ?_, ?_, ?_, hq.giveBack hle hfits, hl⟩
    · simp only [advance, giveBack_spent hle hfits]
      split_ifs with hk <;> simp_all [Phase.taken, Phase.key, moved, sub_eq_add_neg]
    · simp [advance, moved]
    · simp [advance, Phase.promised, moved]
    · rintro _ ⟨⟩
      exact ⟨rfl, hfits⟩
    · simp [advance]
  | refundGlobal r =>
    have hle : r.units ≤ spent b.ledger r.key.platform := by
      simpa only [Phase.promised, Phase.key, neg_neg] using hledger
    refine ⟨fun k => ?_, fun k => ?_, ?_, ?_, ?_, hq, hl.giveBack hle hfits⟩
    · simp [advance, Phase.taken, moved]
    · simp only [advance, giveBack_spent hle hfits]
      split_ifs with hk <;> simp_all [Phase.key, moved, sub_eq_add_neg]
    · simp [advance, Phase.promised, moved]
    · simp [advance]
    · rintro _ ⟨⟩
      exact ⟨rfl, rfl⟩

/-! ## The invariant -/

/-- The quota holds what the returned calls granted and those under way have taken, the ledger what
the returned ones granted, and no caller has promised back more than it was granted. -/
structure BudgetInv (caps : Caps) (s : State C) : Prop where
  quota : ∀ key, spent s.ledgers.quota key = sumOf key (s.log ++ s.calls.map Call.taken)
  ledger : ∀ key, spent s.ledgers.ledger key = platformSum key s.log
  reserved : ∀ caller key, 0 ≤ s.reserved caller key
  fits : ∀ call ∈ s.calls, call.phase.Fits caps
  quotaWithin : Within caps.tenant s.ledgers.quota
  ledgerWithin : Within caps.platform s.ledgers.ledger

variable {caps : Caps} {s : State C}

theorem Phase.promised_nonpos {phase : Phase} (h : phase.Fits caps) : phase.promised ≤ 0 := by
  cases phase with
  | takeTenant r | takeGlobal r | handBack r => exact le_rfl
  | refundTenant r | refundGlobal r => exact neg_nonpos.mpr h.le

theorem Phase.promised_le_taken {phase : Phase} (h : phase.Fits caps) :
    phase.promised ≤ phase.taken := by
  cases phase with
  | takeTenant r | refundGlobal r => exact le_rfl
  | takeGlobal r | handBack r => exact h.1.le
  | refundTenant r => exact neg_nonpos.mpr h.le

omit [DecidableEq C] in
theorem sumIf_calls (p : Entry C → Bool) (g : Call C → Entry C) (h : s.calls[n]? = some call) :
    sumIf p (·.units) (s.calls.map g) =
      (if p (g call) then (g call).units else 0) +
        sumIf p (·.units) ((s.calls.eraseIdx n).map g) := by
  obtain ⟨hn, rfl⟩ := List.getElem?_eq_some_iff.mp h
  rw [← sumIf_perm _ _ ((List.getElem_cons_eraseIdx_perm hn).map g), List.map_cons, sumIf_cons]

theorem BudgetInv.promised_nonneg (h : BudgetInv caps s) (q : BudgetKey → Bool) :
    0 ≤ sumIf (fun e => q e.key) (·.units) (s.log ++ s.calls.map Call.promised) :=
  sumIf_nonneg_of_groups (fun e : Entry C => (e.caller, e.key)) _
    (fun c => h.reserved c.1 c.2) fun c => q c.2

theorem BudgetInv.le_quota (h : BudgetInv caps s) (hcall : s.calls[n]? = some call) :
    call.phase.taken - call.phase.promised ≤ spent s.ledgers.quota call.phase.key := by
  have hall := h.promised_nonneg fun k => k = call.phase.key
  rw [h.quota, sumOf]
  rw [sumIf_append, sumIf_calls _ _ hcall] at hall ⊢
  have hrest : sumIf (fun e => e.key = call.phase.key) (·.units)
      ((s.calls.eraseIdx n).map Call.promised) ≤
      sumIf (fun e => e.key = call.phase.key) (·.units) ((s.calls.eraseIdx n).map Call.taken) :=
    sumIf_map_le fun other hother =>
      ⟨rfl, Phase.promised_le_taken (h.fits other (List.mem_of_mem_eraseIdx hother))⟩
  simp only [Call.promised, Call.taken, decide_true, if_true] at hall ⊢
  linarith

theorem BudgetInv.le_ledger (h : BudgetInv caps s) (hcall : s.calls[n]? = some call) :
    -call.phase.promised ≤ spent s.ledgers.ledger call.phase.key.platform := by
  have hall := h.promised_nonneg fun k => k.platform = call.phase.key.platform
  rw [h.ledger, platformSum]
  rw [sumIf_append, sumIf_calls _ _ hcall] at hall
  have hrest : sumIf (fun e => e.key.platform = call.phase.key.platform) (·.units)
      ((s.calls.eraseIdx n).map Call.promised) ≤ 0 := by
    refine sumIf_nonpos fun e he => ?_
    obtain ⟨other, hother, rfl⟩ := List.mem_map.mp he
    exact Phase.promised_nonpos (h.fits other (List.mem_of_mem_eraseIdx hother))
  simp only [Call.promised, decide_true, if_true] at hall
  linarith

/-! ## Every step keeps it -/

/-- The state once a call that is under way has made a transaction. -/
def State.advanced (s : State C) (n : Nat) (call : Call C) : State C :=
  ⟨(advance s.ledgers call).1,
    ((advance s.ledgers call).2.1.map (Call.mk call.caller)).toList ++ s.calls.eraseIdx n,
    s.log ++ (advance s.ledgers call).2.2.toList⟩

omit [DecidableEq C] in
/-- What a sum over the log and the calls gains by the new phase of a call and by its entry. -/
theorem sumIf_advanced (p : C → BudgetKey → Bool) (g : Phase → ℚ) (s : State C)
    {next : Option Phase} {entry : Option (Entry C)} (hcall : s.calls[n]? = some call)
    (hnext : ∀ phase ∈ next, phase.key = call.phase.key)
    (hentry : ∀ e ∈ entry, e.caller = call.caller ∧ e.key = call.phase.key) :
    sumIf (fun e => p e.caller e.key) (·.units) ((s.log ++ entry.toList) ++
        ((next.map (Call.mk call.caller)).toList ++ s.calls.eraseIdx n).map fun c =>
          (⟨c.caller, c.phase.key, g c.phase⟩ : Entry C)) =
      sumIf (fun e => p e.caller e.key) (·.units) (s.log ++ s.calls.map fun c =>
          (⟨c.caller, c.phase.key, g c.phase⟩ : Entry C)) +
        if p call.caller call.phase.key then (next.map g).getD 0 + moved entry - g call.phase
        else 0 := by
  have hadded : sumIf (fun e => p e.caller e.key) (·.units)
      ((next.map (Call.mk call.caller)).toList.map fun c =>
        (⟨c.caller, c.phase.key, g c.phase⟩ : Entry C)) =
      if p call.caller call.phase.key then (next.map g).getD 0 else 0 := by
    cases next with
    | none => simp
    | some phase => simp [hnext phase rfl]
  have hlogged : sumIf (fun e => p e.caller e.key) (·.units) entry.toList =
      if p call.caller call.phase.key then moved entry else 0 := by
    cases entry with
    | none => simp [moved]
    | some e => simp [hentry e rfl, moved]
  rw [List.map_append, sumIf_append, sumIf_append, sumIf_append, sumIf_append,
    sumIf_calls _ _ hcall, hadded, hlogged]
  split_ifs <;> linarith

theorem BudgetInv.advanced (h : BudgetInv caps s)
    (hcall : s.calls[n]? = some call) : BudgetInv caps (s.advanced n call) := by
  have hmem : call ∈ s.calls := List.mem_of_getElem? hcall
  obtain ⟨hquota, hledger, hpromised, hnext, hentry, hq, hl⟩ :=
    Budgets.advanced (h.fits call hmem) (h.le_quota hcall) (h.le_ledger hcall) h.quotaWithin
      h.ledgerWithin
  have hkey := fun phase hphase => (hnext phase hphase).1
  refine ⟨fun key => ?_, fun key => ?_, fun caller key => ?_, fun c hc => ?_, hq, hl⟩
  · have hsum := sumIf_advanced (fun _ k => k = key) Phase.taken s hcall hkey hentry
    rw [State.advanced, hquota, h.quota]
    refine Eq.trans ?_ hsum.symm
    simp only [decide_eq_true_eq, eq_comm (a := key)]
    rfl
  · rw [State.advanced, hledger, h.ledger, platformSum, platformSum, sumIf_append]
    congr 1
    cases hmoved : (advance s.ledgers call).2.2 with
    | none => simp [moved]
    | some e => simp [(hentry e hmoved).2, moved, eq_comm]
  · have hold := h.reserved caller key
    have hsum := sumIf_advanced (fun c k => (c, k) = (caller, key)) Phase.promised s hcall hkey hentry
    rw [State.reserved] at hold ⊢
    refine (?_ : (0 : ℚ) ≤ _).trans_eq hsum.symm
    refine add_nonneg hold ?_
    split_ifs
    · linarith
    · exact le_rfl
  · rcases List.mem_append.mp hc with hc | hc
    · obtain ⟨phase, hphase, rfl⟩ := Option.map_eq_some_iff.mp (Option.mem_toList.mp hc)
      exact (hnext phase hphase).2
    · exact h.fits c (List.mem_of_mem_eraseIdx hc)

/-- A call that starts has taken nothing, and promises back no more than its caller was granted. -/
theorem BudgetInv.started (h : BudgetInv caps s) (hfits : call.phase.Fits caps)
    (htaken : call.phase.taken = 0)
    (hpromised : -call.phase.promised ≤ s.reserved call.caller call.phase.key) :
    BudgetInv caps { s with calls := call :: s.calls } := by
  refine ⟨fun key => ?_, h.ledger, fun caller key => ?_, List.forall_mem_cons.mpr ⟨hfits, h.fits⟩,
    h.quotaWithin, h.ledgerWithin⟩
  · rw [h.quota, sumOf, sumOf, sumIf_append, sumIf_append, List.map_cons, sumIf_cons]
    simp [Call.taken, htaken]
  · have hold := h.reserved caller key
    rw [State.reserved, sumIf_append] at hold ⊢
    rw [List.map_cons, sumIf_cons]
    by_cases hmine : (call.caller, call.phase.key) = (caller, key)
    · obtain ⟨rfl, rfl⟩ := Prod.mk.inj hmine
      rw [State.reserved, sumIf_append] at hpromised
      simp only [Call.promised, decide_true, if_true] at hpromised ⊢
      linarith
    · simpa [Call.promised, hmine] using hold

theorem BudgetInv.step (h : BudgetInv caps s) {a : Action C} {t : State C} (hok : Fair caps s a)
    (hstep : step s a = some t) : BudgetInv caps t := by
  cases a with
  | reserve caller r =>
    simp only [Budgets.step] at hstep
    split_ifs at hstep with hrefused
    · exact Option.some.inj hstep ▸ h
    · rw [← Option.some.inj hstep]
      simp only [not_or, not_le, not_lt] at hrefused
      refine h.started ⟨hrefused.1, hrefused.2, hok⟩ rfl ?_
      exact neg_zero.trans_le (h.reserved caller r.key)
  | refund caller r =>
    simp only [Budgets.step] at hstep
    split_ifs at hstep with hnothing
    · exact Option.some.inj hstep ▸ h
    · rw [← Option.some.inj hstep]
      exact h.started (not_le.mp hnothing) rfl ((neg_neg _).trans_le (hok (not_le.mp hnothing)))
  | advance n =>
    obtain ⟨call, hcall, rfl⟩ := Option.map_eq_some_iff.mp hstep
    exact h.advanced hcall

theorem budgetInv_of_reaches (h : budgets.Reaches (Fair caps) s) : BudgetInv caps s := by
  refine h.invariant (fun s a t hs hok hstep => hs.step hok hstep) fun s hs => ?_
  rw [show s = ⟨⟨[], []⟩, [], []⟩ from hs]
  exact ⟨fun _ => rfl, fun _ => rfl, fun _ _ => le_rfl, by simp, fun _ _ h => (by cases h),
    fun _ _ h => (by cases h)⟩

/-- A row of either ledger. -/
inductive Row where
  | quota (key : BudgetKey)
  | ledger (key : String × String)
  deriving DecidableEq

def Ledgers.units (b : Ledgers) : Row → ℚ
  | .quota key => spent b.quota key
  | .ledger key => spent b.ledger key

def BudgetKey.counts (key : BudgetKey) : Row → Bool
  | .quota k => k = key
  | .ledger k => k = key.platform

section
variable {b : Ledgers} {r : Reservation}

theorem reserveBudget_granted (hpos : 0 < r.units) (h : (reserveBudget b r).2 = true) (row : Row) :
    (reserveBudget b r).1.units row = b.units row + if r.key.counts row then r.units else 0 := by
  rw [reserveBudget, if_neg (not_le.mpr hpos)] at h ⊢
  have hcap : ¬ (r.tenantCap < r.units ∨ r.globalCap < r.units) := fun hcap => by
    simp [hcap] at h
  rw [if_neg hcap] at h ⊢
  cases htenant : (take b.quota r.key r.units r.tenantCap).2 with
  | false => simp [htenant] at h
  | true =>
    cases hglobal : (take b.ledger r.key.platform r.units r.globalCap).2 with
    | false => simp [htenant, hglobal] at h
    | true =>
      cases row with
      | quota key => simp [htenant, hglobal, Ledgers.units, take_spent htenant, BudgetKey.counts]
      | ledger key => simp [htenant, hglobal, Ledgers.units, take_spent hglobal, BudgetKey.counts]

theorem reserveBudget_refused (hb : 0 ≤ spent b.quota r.key) (h : (reserveBudget b r).2 = false)
    (row : Row) : (reserveBudget b r).1.units row = b.units row := by
  rw [reserveBudget] at h ⊢
  split_ifs at h ⊢ with hnothing hcap
  · rfl
  cases htenant : (take b.quota r.key r.units r.tenantCap).2 with
  | false => simp [htenant, take_lost htenant]
  | true =>
    cases hglobal : (take b.ledger r.key.platform r.units r.globalCap).2 with
    | true => simp [htenant, hglobal] at h
    | false =>
      have hle : r.units ≤ spent (take b.quota r.key r.units r.tenantCap).1 r.key := by
        rw [take_spent htenant, if_pos rfl]
        linarith
      cases row with
      | quota key =>
        simp [htenant, hglobal, Ledgers.units, handBack_spent hle (not_le.mp hnothing),
          take_spent htenant]
      | ledger key => simp [htenant, hglobal, Ledgers.units, take_lost hglobal]

theorem refundBudget_units {r : Refund} (hpos : 0 < r.units)
    (hle : ∀ row, r.key.counts row = true → r.units ≤ b.units row) (row : Row) :
    (refundBudget b r).units row = b.units row - if r.key.counts row then r.units else 0 := by
  rw [refundBudget, if_neg (not_le.mpr hpos)]
  cases row with
  | quota key =>
    simp [Ledgers.units, BudgetKey.counts,
      giveBack_spent (hle (.quota r.key) (by simp [BudgetKey.counts])) hpos]
  | ledger key =>
    simp [Ledgers.units, BudgetKey.counts,
      giveBack_spent (hle (.ledger r.key.platform) (by simp [BudgetKey.counts])) hpos]

end

end GuruJi.Map.Budgets
