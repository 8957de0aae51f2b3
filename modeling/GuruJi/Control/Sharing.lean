import GuruJi.Control.Stores
import GuruJi.Lib.Calls

/-!
# Shared control stores

Calls of any number of API tasks and threads that share a control store. In memory each method holds
the lock; a method of an SQL store is its statements, each with its commit, and SQLite's claim is two of
them. What a statement does to the rows is what the operation does in memory (`Advances`), so that what
follows is said once for all stores.

* `claims_won`: no more claims of a session succeed than sessions of its id are there or created;
* `claims_exactly_one`: of the claims of a ticket of an open session one succeeds, if one of them comes
  in time, and none otherwise;
* `grants_within`: the uses that are granted stay within the cap;
* **`control_stores`**: all of these for all stores, and that the stores agree.
-/

namespace GuruJi.Control

open GuruJi.Lib Machine

variable {τ : Type} [LinearOrder τ]

/-- How far a call is. -/
inductive Phase (τ : Type) where
  | ready
  /-- A claim in SQLite that has hit its row, and is about to read it. -/
  | selecting
  | returned (result : Result τ)
  deriving DecidableEq

/-- The next statement of a call of an SQL store. -/
def SqlControlStore.advance (store : SqlControlStore) (order : RowOrder τ) (op : Operation τ) :
    Phase τ → ControlDb τ → Option (Phase τ × ControlDb τ)
  | .ready, db =>
    match store, op with
    | .sqlite, .claimVoiceSession sessionId ticketSha256 now =>
      let out := db.claimSession sessionId ticketSha256 now
      if out.1.length ≠ 1 then some (.returned (.session none), out.2) else some (.selecting, out.2)
    | _, _ =>
      let out := store.perform order db op
      some (.returned out.1, out.2)
  | .selecting, db =>
    match op with
    | .claimVoiceSession sessionId _ _ => some (.returned (.session (db.selectSession sessionId)), db)
    | _ => none
  | .returned _, _ => none

/-- A call of the store in memory, which holds the lock. -/
def InMemoryControlStore.advance (_ : RowOrder τ) (op : Operation τ) :
    Phase τ → InMemoryControlStore τ → Option (Phase τ × InMemoryControlStore τ)
  | .ready, memory =>
    let out := memory.perform op
    some (.returned out.1, out.2)
  | _, _ => none

def SqlControlStore.tasks (store : SqlControlStore) :
    Machine (Pool (ControlDb τ) (Operation τ) (Phase τ)) (Turn (Operation τ) (RowOrder τ)) :=
  interleaved .ready store.advance

def InMemoryControlStore.threads :
    Machine (Pool (InMemoryControlStore τ) (Operation τ) (Phase τ)) (Turn (Operation τ) (RowOrder τ)) :=
  interleaved .ready InMemoryControlStore.advance

/-! ## What a statement does -/

/-- What a statement of a call does to the rows. -/
inductive Advances (op : Operation τ) :
    Phase τ → InMemoryControlStore τ → Phase τ → InMemoryControlStore τ → Prop
  | performs {memory : InMemoryControlStore τ} {result : Result τ}
    (hsame : (memory.perform op).1.Same result) :
    Advances op .ready memory (.returned result) (memory.perform op).2
  | hits {memory : InMemoryControlStore τ} {sessionId ticketSha256 : String} {now : τ}
      {row : VoiceSession τ}
      (hop : op = .claimVoiceSession sessionId ticketSha256 now)
      (hrow : (memory.perform op).1 = .session (some row)) :
    Advances op .ready memory .selecting (memory.perform op).2
  | reads {memory : InMemoryControlStore τ} {sessionId ticketSha256 : String} {now : τ}
      (hop : op = .claimVoiceSession sessionId ticketSha256 now) :
    Advances op .selecting memory (.returned (.session (memory.voiceSessions.get sessionId))) memory

variable {memory memory' : InMemoryControlStore τ} {op : Operation τ} {phase phase' : Phase τ}
  {key : UsageKey}

theorem InMemoryControlStore.advances {order : RowOrder τ}
    (h : InMemoryControlStore.advance order op phase memory = some (phase', memory')) :
    Advances op phase memory phase' memory' := by
  cases phase with
  | ready =>
    obtain ⟨rfl, rfl⟩ := Prod.mk.inj (Option.some.inj h)
    exact .performs (.refl _)
  | selecting => cases h
  | returned result => cases h

theorem claimSession_hits {db : ControlDb τ} {sessionId ticketSha256 : String} {now : τ}
    (h : (db.claimSession sessionId ticketSha256 now).1.length = 1) :
    ∃ row, (db.claimSession sessionId ticketSha256 now).2.selectSession sessionId = some row := by
  unfold ControlDb.claimSession at h ⊢
  cases hrow : db.selectSession sessionId with
  | none =>
    rw [update_absent hrow] at h
    cases h
  | some row =>
    obtain ⟨hhit, himage⟩ := update_present hrow (ControlDb.claimable ticketSha256 now)
      (fun row => { row with claimedAt := some now }) fun _ => rfl
    rw [hhit] at h
    split_ifs at h himage with hclaim
    refine ⟨{ row with claimedAt := some now }, ?_⟩
    rw [← get_image, himage]
    exact (Table.get_assign _ _ _ _).trans (if_pos rfl)

theorem SqlControlStore.advances {store : SqlControlStore} {order : RowOrder τ} {db db' : ControlDb τ}
        (h : store.advance order op phase db = some (phase', db')) :
    Advances op phase db.image phase' db'.image := by
  obtain ⟨hsame, hleft⟩ := perform_agrees db store order op
  cases phase with
  | ready =>
    simp only [advance] at h
    split at h
    · rename_i sessionId ticketSha256 now
      split_ifs at h with hmiss
      · obtain ⟨rfl, rfl⟩ := Prod.mk.inj (Option.some.inj h)
        simp only [perform, claimVoiceSession, if_pos hmiss] at hsame hleft
        rw [← hleft]
        exact .performs hsame
      · obtain ⟨rfl, rfl⟩ := Prod.mk.inj (Option.some.inj h)
        obtain ⟨row, hrow⟩ := claimSession_hits (not_not.mp hmiss)
        simp only [perform, claimVoiceSession, if_neg hmiss, hrow] at hsame hleft
        rw [← hleft]
        have hclaimed : (db.image.perform (.claimVoiceSession sessionId ticketSha256 now)).1 =
            .session (some row) := by
          generalize (db.image.perform (.claimVoiceSession sessionId ticketSha256 now)).1 =
              result at hsame
          cases hsame with
          | refl => rfl
        exact .hits rfl hclaimed
    · obtain ⟨rfl, rfl⟩ := Prod.mk.inj (Option.some.inj h)
      rw [← hleft]
      exact .performs hsame
  | selecting =>
    simp only [advance] at h
    split at h
    · obtain ⟨rfl, rfl⟩ := Prod.mk.inj (Option.some.inj h)
      rw [← get_image]
      exact .reads rfl
    · cases h
  | returned result => cases h

/-! ## Claims -/

def claimsSession (sessionId : String) : Operation τ → Bool
  | .claimVoiceSession id _ _ => id = sessionId
  | _ => false

def createsSession (sessionId : String) : Operation τ → Bool
  | .createVoiceSession record => record.sessionId = sessionId
  | _ => false

def claimWon (sessionId : String) : Operation τ × Phase τ → Bool
  | (.claimVoiceSession id _ _, .returned (.session (some _))) => id = sessionId
  | _ => false

/-- The session is there and has not been claimed. -/
def unclaimed (sessionId : String) (memory : InMemoryControlStore τ) : Nat :=
  if (memory.voiceSessions.get sessionId).any (·.claimedAt.isNone) then 1 else 0

/-- What a call holds of the claim of a session: it brings the session in, has hit it or has won it. -/
def claimHeld (sessionId : String) (op : Operation τ) : Phase τ → Nat
  | .ready => if createsSession sessionId op then 1 else 0
  | .selecting => if claimsSession sessionId op then 1 else 0
  | .returned result => if claimWon sessionId (op, .returned result) then 1 else 0

def Keyed (memory : InMemoryControlStore τ) : Prop := (memory.voiceSessions.map Prod.fst).Nodup

theorem keyed_image (db : ControlDb τ) : Keyed db.image := by
  unfold Keyed ControlDb.image
  rw [keys_entries]
  exact db.sessionsKeyed

/-- What becomes of the rows of the sessions. -/
inductive Rows (op : Operation τ) (memory : InMemoryControlStore τ) :
    Result τ × InMemoryControlStore τ → Prop
  /-- A new session. -/
  | created {record : VoiceSession τ} {usage : Table UsageKey Nat}
      (hop : op = .createVoiceSession record)
      (hnew : memory.voiceSessions.get record.sessionId = none) :
    Rows op memory (.created, ⟨memory.voiceSessions.assign record.sessionId record, usage⟩)
  /-- A claim that succeeds. -/
  | claimed {sessionId ticketSha256 : String} {now : τ} {row : VoiceSession τ}
      {usage : Table UsageKey Nat}
      (hop : op = .claimVoiceSession sessionId ticketSha256 now)
      (hrow : memory.voiceSessions.get sessionId = some row)
      (hclaim : ControlDb.claimable ticketSha256 now row = true) :
    Rows op memory (.session (some { row with claimedAt := some now }),
      ⟨memory.voiceSessions.assign sessionId { row with claimedAt := some now }, usage⟩)
  /-- A close that finds the session open. -/
  | closed {sessionId : String} {principalId : Option String} {now : τ} {row : VoiceSession τ}
      {usage : Table UsageKey Nat} (hop : op = .closeVoiceSession sessionId principalId now)
      (hrow : memory.voiceSessions.get sessionId = some row) (hclose : closable principalId row = true) :
    Rows op memory (.flag true,
      ⟨memory.voiceSessions.assign sessionId { row with closedAt := some now }, usage⟩)
  | pruned {cutoff : τ} {oldestDay : String} {n : Nat} {usage : Table UsageKey Nat}
      (hop : op = .pruneEphemeral cutoff oldestDay) :
    Rows op memory (.count n, ⟨memory.voiceSessions.filter fun entry =>
      !decide (entry.2.closedAt.getD entry.2.expiresAt < cutoff), usage⟩)
  /-- A claim that fails, and why. -/
  | missed {sessionId ticketSha256 : String} {now : τ} {usage : Table UsageKey Nat}
      (hop : op = .claimVoiceSession sessionId ticketSha256 now)
      (hmiss : ∀ row, memory.voiceSessions.get sessionId = some row →
        ControlDb.claimable ticketSha256 now row = false) :
    Rows op memory (.session none, ⟨memory.voiceSessions, usage⟩)
  /-- Anything else. -/
  | kept {result : Result τ} {usage : Table UsageKey Nat} (hop : ∀ id, claimsSession id op = false) :
    Rows op memory (result, ⟨memory.voiceSessions, usage⟩)

theorem perform_rows (memory : InMemoryControlStore τ) (op : Operation τ) :
    Rows op memory (memory.perform op) := by
  cases op with
  | createVoiceSession record =>
    simp only [InMemoryControlStore.perform, InMemoryControlStore.createVoiceSession]
    split_ifs with hknown
    · exact .kept fun _ => rfl
    · exact .created rfl (Option.not_isSome_iff_eq_none.mp hknown)
  | getVoiceSession sessionId => exact .kept fun _ => rfl
  | claimVoiceSession sessionId ticketSha256 now =>
    simp only [InMemoryControlStore.perform, InMemoryControlStore.claimVoiceSession]
    cases hrow : memory.voiceSessions.get sessionId with
    | none => exact .missed rfl fun row h => by rw [hrow] at h; cases h
    | some row =>
      simp only [not_claimable_spec]
      by_cases hclaim : ControlDb.claimable ticketSha256 now row = true
      · rw [if_neg (not_not.mpr hclaim)]
        exact .claimed rfl hrow hclaim
      · rw [if_pos hclaim]
        refine .missed rfl fun other hother => ?_
        obtain rfl := Option.some.inj (hrow.symm.trans hother)
        exact Bool.eq_false_iff.mpr hclaim
  | closeVoiceSession sessionId principalId now =>
    simp only [InMemoryControlStore.perform, InMemoryControlStore.closeVoiceSession]
    cases hrow : memory.voiceSessions.get sessionId with
    | none => exact .kept fun _ => rfl
    | some row =>
      simp only [not_closable_iff]
      by_cases hclose : closable principalId row = true
      · rw [if_neg (not_not.mpr hclose)]
        exact .closed rfl hrow hclose
      · rw [if_pos hclose]
        exact .kept fun _ => rfl
  | activeVoiceSessions now principalId => exact .kept fun _ => rfl
  | takeUsage key cap =>
    simp only [InMemoryControlStore.perform, InMemoryControlStore.takeUsage]
    split_ifs
    · exact .kept fun _ => rfl
    · exact .kept fun _ => rfl
  | pruneEphemeral cutoff oldestDay => exact .pruned rfl

theorem keyed_perform {memory : InMemoryControlStore τ} (hkeyed : Keyed memory) (op : Operation τ) :
    Keyed (memory.perform op).2 := by
  have hrows := perform_rows memory op
  generalize memory.perform op = out at hrows
  unfold Keyed at hkeyed ⊢
  cases hrows with
  | created | claimed | closed => exact Table.nodup_keys_assign hkeyed _ _
  | pruned => exact hkeyed.sublist (List.filter_sublist.map _)
  | missed | kept => exact hkeyed

theorem claimWon_same {sessionId : String} {result result' : Result τ} (h : result.Same result') :
    claimWon sessionId (op, .returned result) = claimWon sessionId (op, .returned result') := by
  cases h with
  | refl => rfl
  | refused => cases op <;> rfl
  | sessions => cases op <;> rfl

theorem perform_claims {memory : InMemoryControlStore τ} (hkeyed : Keyed memory) (sessionId : String)
    (op : Operation τ) :
    unclaimed sessionId (memory.perform op).2 +
        (if claimWon sessionId (op, .returned (memory.perform op).1) then 1 else 0) ≤
      unclaimed sessionId memory + if createsSession sessionId op then 1 else 0 := by
  have hrows := perform_rows memory op
  generalize memory.perform op = out at hrows ⊢
  unfold unclaimed
  cases hrows with
  | @created record usage hop hnew =>
    subst hop
    rw [Table.get_assign]
    by_cases hsame : sessionId = record.sessionId
    · subst hsame
      simp only [claimWon, createsSession, decide_true, if_true, Bool.false_eq_true, if_false]
      split_ifs <;> omega
    · rw [if_neg hsame]
      simp [claimWon]
  | @claimed other ticketSha256 now row usage hop hrow hclaim =>
    subst hop
    rw [Table.get_assign]
    by_cases hsame : sessionId = other
    · subst hsame
      have hopen : row.claimedAt = none := (claimable_spec.mp hclaim).2.1
      simp [hrow, hopen, claimWon]
    · rw [if_neg hsame]
      simp [claimWon, Ne.symm hsame]
  | @closed other principalId now row usage hop hrow hclose =>
    subst hop
    rw [Table.get_assign]
    by_cases hsame : sessionId = other
    · subst hsame
      simp [hrow, claimWon]
    · rw [if_neg hsame]
      simp [claimWon]
  | @pruned cutoff oldestDay n usage hop =>
    subst hop
    simp only [claimWon, createsSession, Bool.false_eq_true, if_false, Nat.add_zero]
    generalize hget : Table.get (memory.voiceSessions.filter _) sessionId = found
    cases found with
    | none => simp
    | some row => rw [Table.get_of_get_filter hkeyed hget]
  | @missed other ticketSha256 now usage hop hmiss =>
    subst hop
    simp [claimWon]
  | @kept result usage hop =>
    have hlost : claimWon sessionId (op, .returned result) = false := by
      cases op with
      | claimVoiceSession other ticketSha256 now => simpa [claimsSession] using hop other
      | _ => rfl
    rw [hlost]
    simp

theorem Advances.keyed
    (h : Advances op phase memory phase' memory') (hkeyed : Keyed memory) : Keyed memory' := by
  cases h with
  | performs | hits => exact keyed_perform hkeyed op
  | reads => exact hkeyed

theorem Advances.claims
    (h : Advances op phase memory phase' memory') (hkeyed : Keyed memory) (sessionId : String) :
    unclaimed sessionId memory' + claimHeld sessionId op phase' ≤
      unclaimed sessionId memory + claimHeld sessionId op phase := by
  cases h with
  | performs hsame =>
    have hclaims := perform_claims hkeyed sessionId op
    rw [claimWon_same hsame] at hclaims
    exact hclaims
  | hits hop hrow =>
    have hclaims := perform_claims hkeyed sessionId op
    rw [hrow] at hclaims
    subst hop
    exact hclaims
  | reads hop =>
    subst hop
    refine Nat.add_le_add_left ?_ _
    generalize memory.voiceSessions.get _ = found
    cases found with
    | none => exact Nat.zero_le _
    | some row => exact Nat.le_refl _

/-! ### The claims of one ticket -/

def ClaimsTicket (row : VoiceSession τ) (op : Operation τ) : Prop :=
  ∃ now, op = .claimVoiceSession row.sessionId row.ticketSha256 now

/-- The claim comes before the ticket and the session expire. -/
def InTime (row : VoiceSession τ) : Operation τ → Prop
  | .claimVoiceSession _ _ now => now < row.ticketExpiresAt ∧ now < row.expiresAt
  | _ => False

def Stands (row : VoiceSession τ) (memory : InMemoryControlStore τ) : Prop :=
  ∃ claimedAt, memory.voiceSessions.get row.sessionId = some { row with claimedAt }

/-- A claim of the ticket of an open session succeeds if it comes in time and is the first that does. -/
theorem perform_ticket {row : VoiceSession τ} {memory : InMemoryControlStore τ}
    (hopen : row.closedAt = none) (hop : ClaimsTicket row op) (hstands : Stands row memory) :
    (InTime row op ∧ unclaimed row.sessionId memory = 1 ∧
        (∃ claimed, (memory.perform op).1 = .session (some claimed)) ∧
        unclaimed row.sessionId (memory.perform op).2 = 0 ∧ Stands row (memory.perform op).2) ∨
      ((InTime row op → unclaimed row.sessionId memory = 0) ∧
        (memory.perform op).1 = .session none ∧
        (memory.perform op).2.voiceSessions = memory.voiceSessions) := by
  obtain ⟨now, rfl⟩ := hop
  obtain ⟨claimedAt, hrow⟩ := hstands
  have hrows := perform_rows memory (.claimVoiceSession row.sessionId row.ticketSha256 now)
  generalize memory.perform (.claimVoiceSession row.sessionId row.ticketSha256 now) = out at hrows ⊢
  unfold unclaimed
  rw [hrow]
  cases hrows with
  | @claimed sessionId ticketSha256 now' found usage hop hfound hclaim =>
    obtain ⟨rfl, rfl, rfl⟩ := Operation.claimVoiceSession.inj hop
    obtain rfl := Option.some.inj (hrow.symm.trans hfound)
    obtain ⟨-, hnone, -, htime⟩ := claimable_spec.mp hclaim
    refine .inl ⟨htime, ?_, ⟨_, rfl⟩, ?_, some now, ?_⟩
    · simp [show claimedAt = none from hnone]
    · simp [Table.get_assign]
    · simp [Table.get_assign]
  | @missed sessionId ticketSha256 now' usage hop hmiss =>
    obtain ⟨rfl, rfl, rfl⟩ := Operation.claimVoiceSession.inj hop
    refine .inr ⟨fun htime => ?_, rfl, rfl⟩
    cases claimedAt with
    | none =>
      have hclaim : ControlDb.claimable row.ticketSha256 now { row with claimedAt := none } = true :=
        claimable_spec.mpr ⟨rfl, rfl, hopen, htime⟩
      rw [hmiss _ hrow] at hclaim
      cases hclaim
    | some t => rfl
  | kept hop =>
    have hclaims := hop row.sessionId
    simp [claimsSession] at hclaims
  | created hop | closed hop | pruned hop => cases hop

/-- What a statement of such a claim leaves: the session stands, the claim is not lost, and if the claim
came in time then the session has been claimed. -/
structure Claiming (row : VoiceSession τ) (op : Operation τ) (phase : Phase τ)
    (memory : InMemoryControlStore τ) (phase' : Phase τ) (memory' : InMemoryControlStore τ) : Prop where
  stands : Stands row memory'
  saved : unclaimed row.sessionId memory + claimHeld row.sessionId op phase ≤
    unclaimed row.sessionId memory' + claimHeld row.sessionId op phase'
  claimed : unclaimed row.sessionId memory' ≤ unclaimed row.sessionId memory
  inTime : InTime row op → phase = .ready → unclaimed row.sessionId memory' = 0
  late : ¬InTime row op → claimHeld row.sessionId op phase' ≤ claimHeld row.sessionId op phase

theorem Advances.ticket {row : VoiceSession τ} (h : Advances op phase memory phase' memory')
    (hopen : row.closedAt = none) (hop : ClaimsTicket row op) (hstands : Stands row memory) :
    Claiming row op phase memory phase' memory' := by
  have hready : claimHeld row.sessionId op .ready = 0 := by
    obtain ⟨now, rfl⟩ := hop
    rfl
  have hsame : ∀ store : InMemoryControlStore τ, store.voiceSessions = memory.voiceSessions →
      unclaimed row.sessionId store = unclaimed row.sessionId memory := fun store heq => by
    unfold unclaimed
    rw [heq]
  cases h with
  | @performs _ result hresult =>
    rcases perform_ticket hopen hop hstands with
      ⟨htime, hbefore, ⟨claimed, hclaimed⟩, hafter, hstands'⟩ | ⟨hlate, hmissed, hsessions⟩
    · have hwon : claimHeld row.sessionId op (.returned result) = 1 := by
        show (if claimWon row.sessionId (op, .returned result) then 1 else 0) = 1
        rw [← claimWon_same hresult, hclaimed]
        obtain ⟨now, rfl⟩ := hop
        simp [claimWon]
      exact ⟨hstands', by omega, by omega, fun _ _ => hafter, fun hnot => absurd htime hnot⟩
    · have hlost : claimHeld row.sessionId op (.returned result) = 0 := by
        show (if claimWon row.sessionId (op, .returned result) then 1 else 0) = 0
        rw [← claimWon_same hresult, hmissed]
        obtain ⟨now, rfl⟩ := hop
        rfl
      have hkept := hsame _ hsessions
      refine ⟨?_, by omega, by omega, fun htime _ => by rw [hkept, hlate htime], fun _ => by omega⟩
      unfold Stands
      rw [hsessions]
      exact hstands
  | hits hclaim hrow =>
    rcases perform_ticket hopen hop hstands with
      ⟨htime, hbefore, -, hafter, hstands'⟩ | ⟨-, hmissed, -⟩
    · have hheld : claimHeld row.sessionId op .selecting = 1 := by
        obtain ⟨now, rfl⟩ := hop
        simp [claimHeld, claimsSession]
      exact ⟨hstands', by omega, by omega, fun _ _ => hafter, fun hnot => absurd htime hnot⟩
    · rw [hmissed] at hrow
      cases hrow
  | reads hclaim =>
    obtain ⟨now, rfl⟩ := hop
    obtain ⟨rfl, rfl, rfl⟩ := Operation.claimVoiceSession.inj hclaim
    obtain ⟨claimedAt, hrow⟩ := hstands
    rw [hrow]
    exact ⟨⟨claimedAt, hrow⟩, Nat.le_refl _, Nat.le_refl _, nofun, fun _ => Nat.le_refl _⟩

/-! ## Uses -/

def granted (key : UsageKey) : Operation τ × Phase τ → Bool
  | (.takeUsage other _, .returned (.flag true)) => other = key
  | _ => false

def room (key : UsageKey) (cap : Int) (memory : InMemoryControlStore τ) : Nat :=
  (cap - ((memory.usage.get key).getD 0 : Nat)).toNat

def usageHeld (key : UsageKey) (op : Operation τ) (phase : Phase τ) : Nat :=
  if granted key (op, phase) then 1 else 0

/-- The counter is used under the cap, or a smaller one, and is not pruned. -/
def Capped (key : UsageKey) (cap : Int) : Operation τ → Prop
  | .takeUsage other otherCap => other = key → otherCap ≤ cap
  | .pruneEphemeral _ oldestDay => ¬key.day < oldestDay
  | _ => True

theorem granted_same {result result' : Result τ} (h : result.Same result') :
    granted key (op, .returned result) = granted key (op, .returned result') := by
  cases h with
  | refl => rfl
  | refused => cases op <;> rfl
  | sessions => cases op <;> rfl

theorem perform_usage (memory : InMemoryControlStore τ) {cap : Int} (hcapped : Capped key cap op) :
    room key cap (memory.perform op).2 + usageHeld key op (.returned (memory.perform op).1) ≤
      room key cap memory := by
  cases op with
  | takeUsage other otherCap =>
    simp only [InMemoryControlStore.perform, InMemoryControlStore.takeUsage]
    split_ifs with hfull
    · exact Nat.le_refl _
    · unfold room usageHeld
      rw [Table.get_assign]
      by_cases hsame : key = other
      · subst hsame
        have hcap : otherCap ≤ cap := hcapped rfl
        simp only [granted, decide_true, if_true, Option.getD_some]
        omega
      · rw [if_neg hsame]
        simp [granted, Ne.symm hsame]
  | pruneEphemeral cutoff oldestDay =>
    refine Nat.le_of_eq (congrArg (fun used : Option Nat => (cap - (used.getD 0 : Nat)).toNat) ?_)
    refine Table.get_filter fun used => ?_
    rw [decide_eq_false hcapped]
    rfl
  | createVoiceSession record =>
    simp only [InMemoryControlStore.perform, InMemoryControlStore.createVoiceSession]
    split_ifs <;> exact Nat.le_refl _
  | claimVoiceSession sessionId ticketSha256 now =>
    simp only [InMemoryControlStore.perform, InMemoryControlStore.claimVoiceSession]
    split
    · exact Nat.le_refl _
    · split_ifs <;> exact Nat.le_refl _
  | closeVoiceSession sessionId principalId now =>
    simp only [InMemoryControlStore.perform, InMemoryControlStore.closeVoiceSession]
    split
    · exact Nat.le_refl _
    · split_ifs <;> exact Nat.le_refl _
  | getVoiceSession sessionId => exact Nat.le_refl _
  | activeVoiceSessions now principalId => exact Nat.le_refl _

theorem Advances.usage {cap : Int} (h : Advances op phase memory phase' memory')
        (hcapped : Capped key cap op) :
    room key cap memory' + usageHeld key op phase' ≤ room key cap memory + usageHeld key op phase := by
  have husage := perform_usage memory hcapped
  cases h with
  | performs hsame =>
    unfold usageHeld at husage ⊢
    rw [granted_same hsame] at husage
    omega
  | hits hop hrow =>
    subst hop
    exact husage
  | reads hop =>
    subst hop
    exact Nat.le_refl _

/-! ## Runs -/

section
variable {D : Type} {view : D → InMemoryControlStore τ}
  {advance : RowOrder τ → Operation τ → Phase τ → D → Option (Phase τ × D)}
  {ok : Pool D (Operation τ) (Phase τ) → Turn (Operation τ) (RowOrder τ) → Prop}
  {d : D} {turns : List (Turn (Operation τ) (RowOrder τ))} {pool : Pool D (Operation τ) (Phase τ)}

/-- **No more claims of a session succeed** than sessions of its id are unclaimed or created. -/
theorem claims_won (hadvances : ∀ order op phase d phase' d', advance order op phase d =
      some (phase', d') → Advances op phase (view d) phase' (view d'))
    (hkeyed : Keyed (view d)) (hrun : (interleaved .ready advance).Run ok ⟨d, []⟩ turns pool)
    (sessionId : String) :
    pool.calls.countP (claimWon sessionId) ≤
      unclaimed sessionId (view d) + (startedBy turns).countP (createsSession sessionId) := by
  have hspent := Pool.spends (fun _ => True) (fun d => Keyed (view d))
    (fun d => unclaimed sessionId (view d)) (claimHeld sessionId)
    (fun op => if createsSession sessionId op then 1 else 0) (fun _ _ => Nat.le_refl _)
    (fun order op phase d phase' d' _ hkeyed h => (hadvances order op phase d phase' d' h).keyed hkeyed)
    (fun order op phase d phase' d' _ hkeyed h =>
      (hadvances order op phase d phase' d' h).claims hkeyed sessionId)
    hrun (fun _ _ => trivial) (fun _ _ => trivial) hkeyed
  have hwon : pool.calls.countP (claimWon sessionId) ≤ pool.held (claimHeld sessionId) := by
    refine Pool.countP_le_sum fun call _ hcall => ?_
    obtain ⟨op, phase⟩ := call
    cases phase with
    | returned result => simp [claimHeld, hcall]
    | _ => cases op <;> cases hcall
  have hbrought := Pool.sum_le_countP (p := createsSession sessionId) (l := startedBy turns)
    fun op _ => Nat.le_refl _
  have hnone : Pool.held (claimHeld sessionId) (⟨d, []⟩ : Pool D (Operation τ) (Phase τ)) = 0 := rfl
  rw [hnone] at hspent
  simp only at hspent
  omega

/-- **Of the claims of an open session's ticket** one succeeds if one of them comes in time, and none
otherwise. -/
theorem claims_exactly_one (hadvances : ∀ order op phase d phase' d',
      advance order op phase d = some (phase', d') → Advances op phase (view d) phase' (view d'))
    (hrun : (interleaved .ready advance).Run ok ⟨d, []⟩ turns pool) {row : VoiceSession τ}
    (hrow : (view d).voiceSessions.get row.sessionId = some row) (hkeyed : Keyed (view d))
    (hunclaimed : row.claimedAt = none) (hopen : row.closedAt = none)
    (hclaims : ∀ op ∈ startedBy turns, ClaimsTicket row op)
    (hreturned : ∀ call ∈ pool.calls, ∃ result, call.2 = .returned result) :
    ((∃ call ∈ pool.calls, InTime row call.1) → pool.calls.countP (claimWon row.sessionId) = 1) ∧
      ((∀ call ∈ pool.calls, ¬InTime row call.1) → pool.calls.countP (claimWon row.sessionId) = 0) := by
  have hstands : Stands row (view d) := ⟨row.claimedAt, hrow⟩
  have hstep : ∀ order op phase d phase' d', ClaimsTicket row op → Stands row (view d) →
      advance order op phase d = some (phase', d') → Claiming row op phase (view d) phase' (view d') :=
    fun order op phase d phase' d' hop hstands h =>
      (hadvances order op phase d phase' d' h).ticket hopen hop hstands
  have hkeeps : ∀ order op phase d phase' d', ClaimsTicket row op → Stands row (view d) →
      advance order op phase d = some (phase', d') → Stands row (view d') :=
    fun order op phase d phase' d' hop hstands h =>
        (hstep order op phase d phase' d' hop hstands h).stands
  have hnocalls : ∀ call ∈ ([] : List (Operation τ × Phase τ)), ClaimsTicket row call.1 :=
    fun _ h => absurd h List.not_mem_nil
  have hready : ∀ op, ClaimsTicket row op → claimHeld row.sessionId op .ready = 0 := by
    rintro op ⟨now, rfl⟩
    rfl
  have hwon : pool.held (claimHeld row.sessionId) = pool.calls.countP (claimWon row.sessionId) := by
    refine le_antisymm (Pool.sum_le_countP fun call hcall => ?_)
      (Pool.countP_le_sum fun call hcall hwon => ?_)
    · obtain ⟨result, hresult⟩ := hreturned call hcall
      obtain ⟨op, phase⟩ := call
      obtain rfl : phase = .returned result := hresult
      exact Nat.le_refl _
    · obtain ⟨result, hresult⟩ := hreturned call hcall
      obtain ⟨op, phase⟩ := call
      obtain rfl : phase = .returned result := hresult
      simp [claimHeld, hwon]
  constructor
  · rintro ⟨call, hcall, htime⟩
    have hbefore : unclaimed row.sessionId (view d) = 1 := by
      simp [unclaimed, hrow, hunclaimed]
    have hspent := claims_won hadvances hkeyed hrun row.sessionId
    have hcreated : (startedBy turns).countP (createsSession row.sessionId) = 0 := by
      refine List.countP_eq_zero.mpr fun op hop => ?_
      obtain ⟨now, rfl⟩ := hclaims op hop
      exact Bool.false_ne_true
    have hsaved := Pool.saves (ClaimsTicket row) (fun d => Stands row (view d))
      (fun d => unclaimed row.sessionId (view d)) (claimHeld row.sessionId) hkeeps
      (fun order op phase d phase' d' hop hstands h =>
          (hstep order op phase d phase' d' hop hstands h).saved)
      hrun hnocalls hclaims hstands
    have hclaimed := Pool.each
      (P := fun d op phase => InTime row op → phase ≠ .ready → unclaimed row.sessionId (view d) = 0)
      (fun _ _ _ _ h => absurd rfl h) hkeeps ?_ ?_ hrun hnocalls hclaims hstands
      (fun _ h => absurd h List.not_mem_nil)
    · obtain ⟨result, hresult⟩ := hreturned call hcall
      have hafter := hclaimed call hcall htime (by rw [hresult]; exact fun h => by cases h)
      have hnone : Pool.held (claimHeld row.sessionId) (⟨d, []⟩ : Pool D (Operation τ) (Phase τ)) = 0 :=
        rfl
      rw [hwon, hnone] at hsaved
      simp only at hsaved
      omega
    · intro order op phase d phase' d' hop hstands h hP htime _
      have hclaiming := hstep order op phase d phase' d' hop hstands h
      by_cases hfirst : phase = .ready
      · exact hclaiming.inTime htime hfirst
      · exact Nat.le_zero.mp (hP htime hfirst ▸ hclaiming.claimed)
    · intro order op phase d phase' d' hop hstands h other otherPhase hP htime hbegun
      exact Nat.le_zero.mp (hP htime hbegun ▸ (hstep order op phase d phase' d' hop hstands h).claimed)
  · intro hlate
    have hnothing := Pool.each
      (P := fun (_ : D) op phase => ¬InTime row op → claimHeld row.sessionId op phase = 0)
      (fun _ op hop _ => hready op hop) hkeeps ?_ (fun _ _ _ _ _ _ _ _ _ _ _ hP => hP) hrun hnocalls
      hclaims hstands (fun _ h => absurd h List.not_mem_nil)
    · rw [← hwon]
      refine List.sum_eq_zero fun n hn => ?_
      obtain ⟨call, hcall, rfl⟩ := List.mem_map.mp hn
      exact hnothing call hcall (hlate call hcall)
    · intro order op phase d phase' d' hop hstands h hP hnot
      exact Nat.le_zero.mp (hP hnot ▸ (hstep order op phase d phase' d' hop hstands h).late hnot)

/-- **Granted uses stay within the cap**, and what was used of it before. -/
theorem grants_within (hadvances : ∀ order op phase d phase' d', advance order op phase d =
      some (phase', d') → Advances op phase (view d) phase' (view d'))
    (hrun : (interleaved .ready advance).Run ok ⟨d, []⟩ turns pool) {key : UsageKey} {cap : Int}
    (hcapped : ∀ op ∈ startedBy turns, Capped key cap op) :
    pool.calls.countP (granted key) ≤ room key cap (view d) := by
  have hspent := Pool.spends (Capped key cap) (fun _ => True) (fun d => room key cap (view d))
    (usageHeld key) (fun _ => 0)
    (fun op _ => by cases op <;> exact Nat.le_refl _) (fun _ _ _ _ _ _ _ _ _ => trivial)
    (fun order op phase d phase' d' hop _ h => (hadvances order op phase d phase' d' h).usage hop)
    hrun (fun _ h => absurd h List.not_mem_nil) hcapped trivial
  have hgranted : pool.calls.countP (granted key) ≤ pool.held (usageHeld key) := by
    refine Pool.countP_le_sum fun call _ hcall => ?_
    simp [usageHeld, hcall]
  have hnone : Pool.held (usageHeld key) (⟨d, []⟩ : Pool D (Operation τ) (Phase τ)) = 0 := rfl
  have hfree : ((startedBy turns).map fun _ => 0).sum = 0 := by simp
  rw [hnone, hfree] at hspent
  simp only at hspent
  omega

end

/-! ## All stores -/

/-- Shared stores that keep to one claim of a session and to the caps, from any contents of theirs. -/
structure Safe {D : Type}
    (tasks : Machine (Pool D (Operation τ) (Phase τ)) (Turn (Operation τ) (RowOrder τ)))
    (load : ControlDb τ → D) : Prop where
  /-- At most one claim of each session succeeds. -/
  claims : ∀ db turns pool sessionId, tasks.Run Always ⟨load db, []⟩ turns pool →
    pool.calls.countP (claimWon sessionId) ≤
      unclaimed sessionId db.image + (startedBy turns).countP (createsSession sessionId)
  /-- Of the claims of an open session's ticket exactly one succeeds, if one of them comes in time. -/
  ticket : ∀ db turns pool row, tasks.Run Always ⟨load db, []⟩ turns pool →
    db.selectSession row.sessionId = some row → row.claimedAt = none → row.closedAt = none →
    (∀ op ∈ startedBy turns, ClaimsTicket row op) →
    (∀ call ∈ pool.calls, ∃ result, call.2 = .returned result) →
      ((∃ call ∈ pool.calls, InTime row call.1) → pool.calls.countP (claimWon row.sessionId) = 1) ∧
        ((∀ call ∈ pool.calls, ¬InTime row call.1) → pool.calls.countP (claimWon row.sessionId) = 0)
  /-- The uses of a counter that are granted stay within its cap. -/
  uses : ∀ db turns pool key cap, tasks.Run Always ⟨load db, []⟩ turns pool →
    (∀ op ∈ startedBy turns, Capped key cap op) →
      pool.calls.countP (granted key) ≤ room key cap db.image

theorem safe_of_advances {D : Type} (view : D → InMemoryControlStore τ)
    {advance : RowOrder τ → Operation τ → Phase τ → D → Option (Phase τ × D)} {load : ControlDb τ → D}
    (hadvances : ∀ order op phase d phase' d', advance order op phase d = some (phase', d') →
      Advances op phase (view d) phase' (view d'))
    (hload : ∀ db, view (load db) = db.image) : Safe (interleaved .ready advance) load where
  claims db turns pool sessionId hrun := by
    rw [← hload]
    exact claims_won hadvances (by rw [hload]; exact keyed_image db) hrun sessionId
  ticket db turns pool row hrun hrow hunclaimed hopen hclaims hreturned := by
    refine claims_exactly_one hadvances hrun ?_ ?_ hunclaimed hopen hclaims hreturned
    · rw [hload, get_image, hrow]
    · rw [hload]
      exact keyed_image db
  uses db turns pool key cap hrun hcapped := by
    rw [← hload]
    exact grants_within hadvances hrun hcapped

/-- **The control stores**: they agree in every sequence of operations, and each is safe when it is
shared. -/
theorem control_stores (τ : Type) [LinearOrder τ] :
    (∀ (store : SqlControlStore) (db : ControlDb τ) (ops : List (Operation τ × RowOrder τ)),
      List.Forall₂ Result.Same
          (performAll InMemoryControlStore.perform db.image (ops.map Prod.fst)).1
          (performAll (fun db op => store.perform op.2 db op.1) db ops).1 ∧
        (performAll InMemoryControlStore.perform db.image (ops.map Prod.fst)).2 =
          (performAll (fun db op => store.perform op.2 db op.1) db ops).2.image) ∧
      (∀ store : SqlControlStore, Safe store.tasks (fun db : ControlDb τ => db)) ∧
      Safe InMemoryControlStore.threads (fun db : ControlDb τ => db.image) :=
  ⟨fun store db ops => both_agree store db ops,
    fun _ => safe_of_advances ControlDb.image (fun _ _ _ _ _ _ h => SqlControlStore.advances h) fun _ =>
    rfl, safe_of_advances id (fun _ _ _ _ _ _ h => InMemoryControlStore.advances h) fun _ => rfl⟩

/-- A session of an hour, whose ticket is good for a minute. -/
def hourSession (sessionId : String) (createdAt : Nat) : VoiceSession Nat :=
  ⟨sessionId, "stu-1", "college_a", "{}", "digest", createdAt, createdAt + 60, createdAt + 3600, none,
      none⟩

/-- Sessions of the same time, the last one that was stored first. -/
def lastStoredFirst : RowOrder Nat where
  order rows := sortBy (·.createdAt) rows.reverse
  perm rows := (List.perm_insertionSort _ _).trans rows.reverse_perm
  sorted rows := sortBy_pairwise _ _

/-- A second session of an id is refused by two errors, sessions of the same time may be listed in two
orders, and no claim of a ticket that has expired succeeds. -/
theorem stores_differ :
    let memory : List (Operation Nat) → List (Result Nat) := fun ops =>
      (performAll InMemoryControlStore.perform ⟨[], []⟩ ops).1
    let sqlite : List (Operation Nat) → List (Result Nat) := fun ops =>
      (performAll (SqlControlStore.perform .sqlite lastStoredFirst) ⟨[], [], by simp, by simp⟩ ops).1
    let a := Operation.createVoiceSession (hourSession "a" 0)
    let b := Operation.createVoiceSession (hourSession "b" 0)
    memory [a, a] = [.created, .refused (.valueError "voice session already exists")] ∧
      sqlite [a, a] = [.created, .refused .integrityError] ∧
      memory [a, b, .activeVoiceSessions 1 none] =
        [.created, .created, .sessions [hourSession "a" 0, hourSession "b" 0]] ∧
      sqlite [a, b, .activeVoiceSessions 1 none] =
        [.created, .created, .sessions [hourSession "b" 0, hourSession "a" 0]] ∧
      memory [a, .claimVoiceSession "a" "digest" 60] = [.created, .session none] ∧
      sqlite [a, .claimVoiceSession "a" "digest" 60] = [.created, .session none] := by
  decide

end GuruJi.Control
