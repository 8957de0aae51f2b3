import GuruJi.Gateway.Approval

/-!
# An approval is used at most once

`decide_approval` reads the status and writes the new one in a separate, unconditional statement.
Interleaved with another decision and with invocations, that write may reopen an approval whose
action already ran (`not_singleUse`). When every decision finds the approval still open at its
write (`DecidesOpen`), the claim is the only way into the handler and an approval is single use in
every interleaving (`singleUse_of_decidesOpen`).

The invariant: whoever has claimed the approval and not yet settled it (`Holds`) is alone, the row
says executing for as long, and nothing has completed while the approval can still be claimed.
-/

namespace GuruJi.Gateway

open GuruJi.Lib GuruJi.Lib.Machine

variable {ι : Type} [DecidableEq ι] {approvalId : String} {req : ι → Request}

/-- The handler returned at most once, and a closed approval never becomes usable again. -/
def SingleUse (ok : State ι → Action ι → Prop) (approvalId : String) (req : ι → Request) : Prop :=
  ∀ s, (gateway approvalId req).Reaches ok s →
    s.completed ≤ 1 ∧
    (s.status.Closed → ∀ as t, (gateway approvalId req).Run ok s as t → ¬ t.status.Usable)

/-- The write of a decision finds the approval open: to approve it is still pending or approved,
and to reject or expire it no handler is executing under it. Every other action is free. -/
def DecidesOpen (s : State ι) (a : Action ι) : Prop :=
  ∀ i status, a = .call i → s.phase i = .deciding status →
    (status = .approved → s.status = .pending ∨ s.status = .approved) ∧
    (status ≠ .approved → s.status ≠ .executing)

/-! ## What a step can do -/

variable {status : ApprovalStatus} {s : State ι}

theorem decisionFor_ok {record : Option Approval} {now : Nat} {p : String} {approve : Bool}
    (h : decisionFor record now approvalId p approve = .ok status) :
    status = .approved ∨ status = .rejected ∨ status = .expired := by
  cases record with
  | none => simp [decisionFor] at h
  | some r =>
    simp only [decisionFor] at h
    split_ifs at h <;> simp_all

omit [DecidableEq ι] in
theorem claimApproval_cases (s : State ι) (p : String) :
    (∃ r, s.status = .approved ∧ claimApproval s.approval s.now p = (some r, true) ∧
      r.status = .executing) ∨ claimApproval s.approval s.now p = (s.approval, false) := by
  cases h : s.approval with
  | none => exact .inr rfl
  | some r =>
    by_cases hc : r.principalId = p ∧ r.status = .approved ∧ s.now < r.expiresAt
    · left
      refine ⟨{ r with status := .executing, decidedBy := some p }, ?_, ?_, rfl⟩
      · simp [State.status, h, hc.2.1]
      · simp [claimApproval, hc]
    · right
      simp only [claimApproval, if_neg hc]

/-- The steps of the interleaving, one case for each store call and for the handler. -/
theorem step_cases {s t : State ι} {a : Action ι} (h : step approvalId req s a = some t) :
    (a = .tick ∧ t = { s with now := s.now + 1 }) ∨
    (∃ i, a = .call i ∧ s.phase i = .started ∧
      t = s.at_ i (readPhase approvalId s.approval s.now (req i))) ∨
    (∃ i status, a = .call i ∧ s.phase i = .deciding status ∧
      t = (s.write status (req i).principalId).at_ i (.finished (decisionOutcome status))) ∨
    (∃ i r, a = .call i ∧ s.phase i = .claiming ∧ s.status = .approved ∧
      r.status = .executing ∧ t = ({ s with approval := some r } : State ι).at_ i .running) ∨
    (∃ i, a = .call i ∧ s.phase i = .claiming ∧ t = s.at_ i (claimPhase false)) ∨
    (∃ i, a = .call i ∧ s.phase i = .ran true ∧
      t = (s.write .consumed (req i).principalId).at_ i (.finished .success)) ∨
    (∃ i, a = .call i ∧ s.phase i = .ran false ∧
      t = (s.write .approved (req i).principalId).at_ i (.finished .failed)) ∨
    (∃ i ok, a = .handler i ok ∧ s.phase i = .running ∧
      t = { s.at_ i (.ran ok) with completed := s.completed + (if ok then 1 else 0) }) := by
  cases a with
  | tick => exact .inl ⟨rfl, by simpa [step] using h.symm⟩
  | call i =>
    right
    simp only [step] at h
    split at h
    · rename_i hp
      exact .inl ⟨i, rfl, hp, (Option.some.inj h).symm⟩
    · rename_i status hp
      exact .inr (.inl ⟨i, status, rfl, hp, (Option.some.inj h).symm⟩)
    · rename_i hp
      rcases claimApproval_cases s (req i).principalId with ⟨r, hs, hc, hr⟩ | hc
      · refine .inr (.inr (.inl ⟨i, r, rfl, hp, hs, hr, ?_⟩))
        simpa [hc, claimPhase] using h.symm
      · refine .inr (.inr (.inr (.inl ⟨i, rfl, hp, ?_⟩)))
        simpa [hc] using h.symm
    · rename_i hp
      exact .inr (.inr (.inr (.inr (.inl ⟨i, rfl, hp, (Option.some.inj h).symm⟩))))
    · rename_i hp
      exact .inr (.inr (.inr (.inr (.inr (.inl ⟨i, rfl, hp, (Option.some.inj h).symm⟩)))))
    · simp at h
    · simp at h
  | handler i ok =>
    simp only [step] at h
    split at h
    · rename_i hp
      exact .inr (.inr (.inr (.inr (.inr (.inr (.inr ⟨i, ok, rfl, hp, (Option.some.inj h).symm⟩))))))
    · simp at h

/-! ## The invariant -/

/-- The call has claimed the approval and not yet settled it. -/
def Holds (p : Phase) : Prop := p = .running ∨ ∃ ok, p = .ran ok

@[simp] theorem not_holds_finished (o : Outcome) : ¬ Holds (.finished o) := by simp [Holds]

@[simp] theorem not_holds_claimPhase_false : ¬ Holds (claimPhase false) := by simp [claimPhase]

theorem not_holds_readPhase (record : Option Approval) (now : Nat) (r : Request) :
    ¬ Holds (readPhase approvalId record now r) := by
  cases r <;> simp only [readPhase] <;> split <;> simp [Holds]

structure Inv (s : State ι) : Prop where
  executing : ∀ i, Holds (s.phase i) → s.status = .executing
  alone : ∀ i j, Holds (s.phase i) → Holds (s.phase j) → i = j
  open_ : s.status = .pending ∨ s.status = .approved → s.completed = 0
  working : ∀ i, s.phase i = .running ∨ s.phase i = .ran false → s.completed = 0
  once : s.completed ≤ 1
  chosen : ∀ i status, s.phase i = .deciding status →
    status = .approved ∨ status = .rejected ∨ status = .expired

theorem Inv.of_init (h : (gateway approvalId req).init s) : Inv s := by
  obtain ⟨-, hc, hp⟩ := h
  constructor <;> simp_all [Holds]

omit [DecidableEq ι] in
theorem Inv.no_holder (h : Inv s) (hs : s.status ≠ .executing) (i : ι) :
    ¬ Holds (s.phase i) := fun hi => hs (h.executing i hi)

/-- A call that moves to a phase without a claim, the row and the count as they were. -/
theorem Inv.at_ (h : Inv s) (i : ι) {p : Phase} (hp : ¬ Holds p) (hd : ∀ status, p = .deciding status →
      status = .approved ∨ status = .rejected ∨ status = .expired) : Inv (s.at_ i p) where
  executing j hj := by
    rw [State.at_phase] at hj
    split_ifs at hj with hij
    · exact absurd hj hp
    · exact h.executing j hj
  alone j k hj hk := by
    rw [State.at_phase] at hj hk
    split_ifs at hj hk
    · exact absurd hj hp
    · exact absurd hj hp
    · exact absurd hk hp
    · exact h.alone j k hj hk
  open_ hs := h.open_ hs
  working j hj := by
    rw [State.at_phase] at hj
    split_ifs at hj with hij
    · rcases hj with rfl | rfl <;> simp [Holds] at hp
    · exact h.working j hj
  once := h.once
  chosen j status hj := by
    rw [State.at_phase] at hj
    split_ifs at hj with hij
    · exact hd status hj
    · exact h.chosen j status hj

/-- A write to the row while nobody holds it, or by its only holder, who lets go of it. -/
theorem Inv.write (h : Inv s) (i : ι) (status : ApprovalStatus) (w : String)
    (o : Outcome) (hi : ∀ j, j ≠ i → ¬ Holds (s.phase j))
    (hopen : status = .pending ∨ status = .approved → s.completed = 0) :
    Inv ((s.write status w).at_ i (.finished o)) where
  executing j hj := by
    rw [State.at_phase] at hj
    split_ifs at hj with hij
    · exact absurd hj (not_holds_finished o)
    · exact absurd hj (hi j hij)
  alone j k hj hk := by
    rw [State.at_phase] at hj
    split_ifs at hj with hij
    · exact absurd hj (not_holds_finished o)
    · exact absurd hj (hi j hij)
  open_ hs := by
    rw [State.at_status] at hs
    rcases s.write_status status w with hw | hw
    · exact hopen (hw ▸ hs)
    · exact h.open_ (hw ▸ hs)
  working j hj := by
    rw [State.at_phase] at hj
    split_ifs at hj with hij
    · simp at hj
    · exact h.working j hj
  once := h.once
  chosen j st hj := by
    rw [State.at_phase] at hj
    split_ifs at hj with hij
    exact h.chosen j st hj

theorem Inv.claim (h : Inv s) (i : ι) (r : Approval) (hs : s.status = .approved)
    (hr : r.status = .executing) : Inv (({ s with approval := some r } : State ι).at_ i .running) := by
  have hnone := h.no_holder (by simp [hs])
  have hcompleted : s.completed = 0 := h.open_ (.inr hs)
  have hstatus : (({ s with approval := some r } : State ι).at_ i .running).status = .executing := by
    simp [State.status, State.at_, hr]
  have honly : ∀ j, Holds ((({ s with approval := some r } : State ι).at_ i .running).phase j) →
      j = i := by
    intro j hj
    rw [State.at_phase] at hj
    split_ifs at hj with hij
    · exact hij
    · exact absurd hj (hnone j)
  refine ⟨fun j _ => hstatus, fun j k hj hk => (honly j hj).trans (honly k hk).symm, ?_, ?_, ?_, ?_⟩
  · intro _
    exact hcompleted
  · intro _ _
    exact hcompleted
  · simp [hcompleted]
  · intro j st hj
    rw [State.at_phase] at hj
    split_ifs at hj
    exact h.chosen j st hj

/-- The handler returning: its caller still holds the approval, alone, and counts at most once. -/
theorem Inv.handler (h : Inv s) (i : ι) (ok : Bool) (hi : s.phase i = .running) :
    Inv { s.at_ i (.ran ok) with completed := s.completed + (if ok then 1 else 0) } := by
  have hzero : s.completed = 0 := h.working i (.inl hi)
  have hexec : s.status = .executing := h.executing i (.inl hi)
  have honly : ∀ j, Holds ((s.at_ i (.ran ok)).phase j) → j = i := by
    intro j hj
    rw [State.at_phase] at hj
    split_ifs at hj with hij
    · exact hij
    · exact h.alone j i hj (.inl hi)
  refine ⟨fun _ _ => hexec, fun j k hj hk => (honly j hj).trans (honly k hk).symm, ?_, ?_, ?_, ?_⟩
  · intro hs
    have hs' : s.status = .pending ∨ s.status = .approved := hs
    simp [hexec] at hs'
  · intro j hj
    have hj' : (s.at_ i (.ran ok)).phase j = .running ∨ (s.at_ i (.ran ok)).phase j = .ran false := hj
    have hji := honly j (by rcases hj' with hj' | hj' <;> simp [Holds, hj'])
    subst hji
    rw [State.at_phase_self] at hj'
    have hok : ok = false := by simpa using hj'
    simp [hzero, hok]
  · cases ok <;> simp [hzero]
  · intro j st hj
    have hj' : (s.at_ i (.ran ok)).phase j = .deciding st := hj
    rw [State.at_phase] at hj'
    split_ifs at hj'
    exact h.chosen j st hj'

/-- The phase a request reads itself into decides only with a status a decision may write. -/
theorem readPhase_deciding {record : Option Approval} {now : Nat} {r : Request}
    (h : readPhase approvalId record now r = .deciding status) :
    status = .approved ∨ status = .rejected ∨ status = .expired := by
  cases r with
  | decide p approve =>
    simp only [readPhase] at h
    split at h
    · rename_i st hd
      cases h
      exact decisionFor_ok hd
    · simp at h
  | invoke p tool sha256 =>
    simp only [readPhase] at h
    split at h <;> simp at h

theorem inv_keeps : (gateway approvalId req).Keeps DecidesOpen Inv := by
  intro s a t hs hok hstep
  rcases step_cases hstep with ⟨-, rfl⟩ | ⟨i, -, -, rfl⟩ | ⟨i, status, ha, hp, rfl⟩ |
    ⟨i, r, -, -, hst, hr, rfl⟩ | ⟨i, -, -, rfl⟩ | ⟨i, -, hp, rfl⟩ | ⟨i, -, hp, rfl⟩ |
    ⟨i, ok, -, hp, rfl⟩
  · exact ⟨hs.executing, hs.alone, hs.open_, hs.working, hs.once, hs.chosen⟩
  · exact hs.at_ i (not_holds_readPhase _ _ _) fun _ h => readPhase_deciding h
  · -- a decision: the guard rules out that somebody holds the approval
    obtain ⟨happrove, hother⟩ := hok i status ha hp
    have hnone : ∀ j, ¬ Holds (s.phase j) := by
      refine hs.no_holder ?_
      by_cases hst : status = .approved
      · rcases happrove hst with h | h <;> simp [h]
      · exact hother hst
    refine hs.write i status _ _ (fun j _ => hnone j) ?_
    rintro (rfl | rfl)
    · simpa using hs.chosen i _ hp
    · exact hs.open_ (happrove rfl)
  · exact hs.claim i r hst hr
  · exact hs.at_ i not_holds_claimPhase_false (by simp [claimPhase])
  · refine hs.write i .consumed _ _ (fun j hj h => hj (hs.alone j i h (.inr ⟨_, hp⟩))) (by simp)
  · refine hs.write i .approved _ _ (fun j hj h => hj (hs.alone j i h (.inr ⟨_, hp⟩))) ?_
    exact fun _ => hs.working i (.inr hp)
  · exact hs.handler i ok hp

/-- A closed approval stays closed: nobody holds it, claims fail and decisions find it closed. -/
theorem closed_keeps : (gateway approvalId req).Keeps DecidesOpen fun s => Inv s ∧ s.status.Closed := by
  refine inv_keeps.and fun s a t hs hclosed hok hstep => ?_
  have hnone : ∀ i, ¬ Holds (s.phase i) :=
    hs.no_holder (by rcases hclosed with h | h | h <;> simp [h])
  rcases step_cases hstep with ⟨-, rfl⟩ | ⟨i, -, -, rfl⟩ | ⟨i, status, ha, hp, rfl⟩ |
    ⟨i, r, -, -, hst, hr, rfl⟩ | ⟨i, -, -, rfl⟩ | ⟨i, -, hp, rfl⟩ | ⟨i, -, hp, rfl⟩ |
    ⟨i, ok, -, hp, rfl⟩
  · exact hclosed
  · exact hclosed
  · rw [State.at_status]
    rcases s.write_status status (req i).principalId with hw | hw
    · rw [hw]
      rcases hs.chosen i status hp with rfl | rfl | rfl
      · have hopen := (hok i _ ha hp).1 rfl
        rcases hclosed with h | h | h <;> simp [h] at hopen
      · exact .inl rfl
      · exact .inr (.inr rfl)
    · exact hw ▸ hclosed
  · rcases hclosed with h | h | h <;> simp [h] at hst
  · exact hclosed
  · exact absurd (.inr ⟨_, hp⟩) (hnone i)
  · exact absurd (.inr ⟨_, hp⟩) (hnone i)
  · exact absurd (.inl hp) (hnone i)

theorem closed_not_usable (h : status.Closed) : ¬ status.Usable := by
  rcases h with rfl | rfl | rfl <;> decide

/-- **An approval is single use in every run whose decisions find it open.** -/
theorem singleUse_of_decidesOpen (ι : Type) [DecidableEq ι] (approvalId : String)
    (req : ι → Request) : SingleUse DecidesOpen approvalId req := by
  intro s hs
  have hinv : Inv s := hs.invariant inv_keeps fun _ => Inv.of_init
  refine ⟨hinv.once, fun hclosed as t hrun => ?_⟩
  exact closed_not_usable (hrun.invariant closed_keeps ⟨hinv, hclosed⟩).2

/-! ## A decision that arrives late -/

/-- Two confirmations of one approval, and two invocations carrying it. -/
def lateRequests : Fin 4 → Request
  | 0 | 1 => .decide "p1" true
  | 2 | 3 => .invoke "p1" "update_student_record" "d1"

def lateStart : State (Fin 4) where
  now := 0
  approval := some ⟨"apr-1", "p1", "update_student_record", "d1", .pending, 900, none⟩
  phase _ := .started
  completed := 0

/-- Both confirmations read pending; one is written and its action runs to the end, then the other
is written over the consumed approval, and the action runs again. -/
def lateSchedule : List (Action (Fin 4)) :=
  [.call 0, .call 1, .call 0, .call 2, .call 2, .handler 2 true, .call 2, .call 1, .call 3, .call 3,
    .handler 3 true]

/-- Without the guard the handler of one approval returns twice. -/
theorem not_singleUse :
    ¬ ∀ (ι : Type) [DecidableEq ι] (approvalId : String) (req : ι → Request),
      SingleUse (ι := ι) Always approvalId req := by
  intro h
  obtain ⟨s, hs, htwo⟩ := reaches_of_exec (gateway "apr-1" lateRequests) Always (s := lateStart)
    lateSchedule (fun s => s.completed == 2) ⟨rfl, rfl, fun _ => rfl⟩ (by decide)
  have hone := (h (Fin 4) "apr-1" lateRequests s hs).1
  simp only [beq_iff_eq] at htwo
  omega

end GuruJi.Gateway
