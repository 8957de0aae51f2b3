import GuruJi.Persistence.Blocks

/-!
# Programs on the PostgreSQL backend

A program with nested blocks is a sequence of calls: whatever it catches and wherever it goes on, its
next call is any call. A block that is left by a raise is a call too (`Call.abandon`).

* `reaches_inv`: what every program keeps, whatever the line does.
-/

namespace GuruJi.Persistence

open Lib Lib.Machine

variable {S T R ε : Type}

/-- A call of a program. -/
inductive Call (S T : Type) where
  | execute (statement : S)
  | executemany (rows : List S)
  | fetchall (statement : S)
  | enter (tenantId : Option T)
  /-- The innermost block ends normally. -/
  | leave
  /-- The innermost block raises. -/
  | abandon
  deriving DecidableEq

def Call.statements : Call S T → List S
  | .execute statement | .fetchall statement => [statement]
  | .executemany rows => rows
  | _ => []

def Call.isStatement : Call S T → Bool
  | .execute _ | .executemany _ | .fetchall _ => true
  | _ => false

def Call.ends : Call S T → Bool
  | .leave | .abandon => true
  | _ => false

namespace PostgresBackend

def call (engine : Engine S T (Answer R) ε) (line : Line) (b : PostgresBackend S T) :
    Call S T → Except (DriverError ε) Unit × PostgresBackend S T
  | .execute statement =>
      ((b.execute engine statement line).1.map fun _ => (), (b.execute engine statement line).2)
  | .executemany rows =>
      ((b.executemany engine rows line).1.map fun _ => (), (b.executemany engine rows line).2)
  | .fetchall statement =>
      ((b.fetchall engine statement line).1.map fun _ => (), (b.fetchall engine statement line).2)
  | .enter tenantId => b.enter (methods engine) tenantId line
  | .leave => b.leave (methods engine) line
  | .abandon => (.ok (), b.abandon (methods engine) line)

end PostgresBackend

/-- A backend, and what is known of the blocks that are open on it. -/
structure Client (S T : Type) where
  backend : PostgresBackend S T := { store := {} }
  /-- The tenants that the open blocks name, the innermost first. -/
  blocks : List (Option T) := []
  /-- The statements of the outermost block that have returned. -/
  returned : List S := []
  /-- The log when the outermost block was entered. -/
  before : List (List (Ran S T)) := []
  /-- A call has raised or found the connection broken, after a statement had returned. -/
  lost : Bool := false
  /-- The tenant that was named last in the outermost block. -/
  named : Option T := none
  /-- The transaction may have been started again since the tenant was named. -/
  restarted : Bool := false

namespace Client

/-- The tenant of the innermost block that names one. -/
def lexicalTenant (s : Client S T) : Option T :=
  s.blocks.findSome? id

/-- What is known of the blocks after a statement call. -/
def afterStatement [DecidableEq T] (s : Client S T) (statements : List S) (line : Line) (raised : Bool) :
    Client S T :=
  if statements = [] then s
  else
    { s with
      returned := if raised then s.returned else s.returned ++ statements
      lost := s.lost || (!s.returned.isEmpty && (raised || line.found))
      restarted := s.restarted || raised || line.found ||
        (line.dropped && decide (s.backend.transactionTenant ≠ s.named)) }

/-- What is known of the blocks after one is entered. -/
def afterEnter (s : Client S T) (tenantId : Option T) (line : Line) (raised : Bool) : Client S T :=
  if s.blocks = [] then
    { s with
      blocks := if raised then [] else [tenantId]
      returned := []
      before := s.backend.store.server.log
      lost := false
      named := tenantId
      restarted := false }
  else
    { s with
      blocks := if raised then s.blocks else tenantId :: s.blocks
      lost := s.lost || (!s.returned.isEmpty && (raised || (tenantId.isSome && line.found)))
      named := if raised then s.named else tenantId.or s.named
      restarted := if tenantId.isSome then raised else s.restarted }

def after [DecidableEq T] (s : Client S T) (line : Line) (raised : Bool) : Call S T → Client S T
  | .enter tenantId => s.afterEnter tenantId line raised
  | .leave | .abandon => { s with blocks := s.blocks.tail }
  | c => s.afterStatement c.statements line raised

def perform [DecidableEq T] (engine : Engine S T (Answer R) ε) (s : Client S T) (line : Line)
    (c : Call S T) : Except (DriverError ε) Unit × Client S T :=
  let out := s.backend.call engine line c
  (out.1, { s.after line (!out.1.isOk) c with backend := out.2 })

end Client

/-- The programs on one backend, under whatever the line does. -/
def programs [DecidableEq T] (engine : Engine S T (Answer R) ε) :
    Machine (Client S T) (Call S T × Line) where
  init s := s = {}
  step s a := if a.1.ends && s.blocks.isEmpty then none else some (s.perform engine a.2 a.1).2

/-! ## What every program keeps -/

variable {engine : Engine S T (Answer R) ε} {s : Client S T} {line : Line}

/-- What holds between the calls: outside a block no transaction is open, and in one the transaction
holds the statements that have returned since the connection was lost. -/
structure Inv (s : Client S T) : Prop where
  depth : s.backend.transactionDepth = s.blocks.length
  closed : s.backend.store.closed = false
  rest : s.blocks = [] → s.backend.AtRest
  log : s.blocks ≠ [] → s.backend.store.server.log = s.before
  kept : s.blocks ≠ [] → ∃ k ≤ s.returned.length,
    s.backend.applied.map (·.statement) = s.returned.drop k ∧ (s.lost = true ↔ 0 < k)
  work : s.blocks ≠ [] → s.backend.transactionStatements = 0 → s.returned = []
  setting : s.blocks ≠ [] → s.restarted = false → s.backend.setting = s.named

theorem inv_init : Inv ({} : Client S T) where
  depth := rfl
  closed := rfl
  rest _ := .inl rfl
  log h := absurd rfl h
  kept h := absurd rfl h
  work h := absurd rfl h
  setting h := absurd rfl h

theorem Inv.inTransaction (h : Inv s) : s.backend.inTransaction = !s.blocks.isEmpty := by
  unfold SqlBackend.inTransaction
  rw [h.depth]
  cases s.blocks <;> simp

namespace PostgresBackend

theorem current_applied (b : PostgresBackend S T) (found : Bool) :
    (b.current found).session.applied = if found then [] else b.applied := by
  cases found with
  | true => rw [current_found]; rfl
  | false => rfl

theorem current_setting (b : PostgresBackend S T) (found : Bool) :
    (b.current found).session.setting = if found then none else b.setting := by
  cases found with
  | true => rw [current_found]; rfl
  | false => rfl

theorem call_statement (engine : Engine S T (Answer R) ε) (line : Line) (b : PostgresBackend S T)
    {c : Call S T} (hc : c.isStatement = true) :
    b.call engine line c = if c.statements = [] then (.ok (), b) else
      ((b.statementCall engine c.statements line).1.map fun _ => (),
        (b.statementCall engine c.statements line).2) := by
  have hmap : ∀ {α β : Type} (f : α → β) (x : Except (DriverError ε) α),
      (x.map f).map (fun _ => ()) = x.map fun _ => () := by
    intro α β f x
    cases x <;> rfl
  cases c with
  | execute statement => simp [call, execute, Call.statements, hmap]
  | executemany rows =>
    unfold call executemany
    by_cases hrows : rows = []
    · simp [hrows, Call.statements, Except.map]
    · simp [hrows, Call.statements, hmap]
  | fetchall statement => simp [call, fetchall, Call.statements, hmap]
  | _ => exact absurd hc fun h => by cases h

end PostgresBackend

theorem map_ran (statements : List S) (setting : Option T) :
    (statements.map fun statement => (⟨statement, setting⟩ : Ran S T)).map (·.statement) =
    statements := by
  rw [List.map_map]
  exact List.map_id statements

/-- The statements that have returned since the connection was lost, after a call that returns. -/
theorem kept_returned {applied : List (Ran S T)} {returned : List S} {lost : Bool} (statements : List S)
    (found : Bool) {k : ℕ} (hk : k ≤ returned.length)
    (happlied : applied.map (·.statement) = returned.drop k) (hlost : lost = true ↔ 0 < k) :
    ∃ k' ≤ (returned ++ statements).length,
      (if found then [] else applied).map (·.statement) ++
        statements = (returned ++ statements).drop k' ∧
        ((lost || (!returned.isEmpty && found)) = true ↔ 0 < k') := by
  cases found with
  | false =>
    refine ⟨k, by simp only [List.length_append]; omega, ?_, by simpa using hlost⟩
    rw [List.drop_append_of_le_length hk]
    exact congrArg (· ++ statements) happlied
  | true =>
    refine ⟨returned.length, by simp, by simp, ?_⟩
    cases returned with
    | nil =>
      have hk : k = 0 := by simpa using hk
      simp [hlost, hk]
    | cons r rs => simp

theorem kept_raised {returned : List S} {lost : Bool} {k : ℕ} (hk : k ≤ returned.length)
    (hlost : lost = true ↔ 0 < k) :
    ∃ k' ≤ returned.length, [] = returned.drop k' ∧
      ((lost || !returned.isEmpty) = true ↔ 0 < k') := by
  refine ⟨returned.length, Nat.le_refl _, by simp, ?_⟩
  cases returned with
  | nil =>
    have hk : k = 0 := by simpa using hk
    simp [hlost, hk]
  | cons r rs => simp

section
variable [DecidableEq T]

theorem inv_statement (h : Inv s) {c : Call S T} (hc : c.isStatement = true) :
    Inv (s.perform engine line c).2 := by
  have hafter : s.after line (!(s.backend.call engine line c).1.isOk) c =
      s.afterStatement c.statements line (!(s.backend.call engine line c).1.isOk) := by
    cases c with
    | enter | leave | abandon => exact absurd hc fun h => by cases h
    | _ => rfl
  unfold Client.perform
  simp only [hafter]
  rw [PostgresBackend.call_statement engine line s.backend hc]
  by_cases hnil : c.statements = []
  · rw [if_pos hnil]
    unfold Client.afterStatement
    rw [if_pos hnil]
    exact h
  rw [if_neg hnil]
  unfold Client.afterStatement
  rw [if_neg hnil]
  by_cases hblocks : s.blocks = []
  · have hcall := PostgresBackend.statementCall_outside engine c.statements line s.backend
      (by rw [h.inTransaction, hblocks]; rfl) h.closed (h.rest hblocks)
    generalize s.backend.statementCall engine c.statements line = out at hcall
    refine ⟨?_, hcall.closed.trans h.closed, fun _ => hcall.rest, fun hne => absurd hblocks hne,
      fun hne => absurd hblocks hne, fun hne => absurd hblocks hne, fun hne => absurd hblocks hne⟩
    exact (congrArg SqlBackend.transactionDepth hcall.base).trans h.depth
  · have hcall := PostgresBackend.statementCall_inBlock engine c.statements line s.backend
      (by rw [h.inTransaction]; simpa using hblocks) h.closed
    generalize s.backend.statementCall engine c.statements line = out at hcall
    obtain ⟨result, b⟩ := out
    obtain ⟨k, hk, happlied, hlost⟩ := h.kept hblocks
    refine ⟨hcall.depth.trans h.depth, hcall.closed.trans h.closed, fun hnil => absurd hnil hblocks,
      fun _ => hcall.log.trans (h.log hblocks), fun _ => ?_, fun _ hstatements => ?_,
      fun _ hrestarted => ?_⟩
    · cases result with
      | error e =>
        have hraised := (hcall.raised e rfl).2
        simp only at hraised
        simpa [hraised, Except.isOk, Except.toBool, Except.map] using kept_raised hk hlost
      | ok answers =>
        simp only [Except.isOk, Except.toBool, Except.map, Bool.not_true, Bool.false_or]
        rcases (hcall.returned answers rfl).2 with ⟨hb, -⟩ | ⟨-, hzero, hb, -⟩
        · simp only at hb
          rw [hb, List.map_append, map_ran, PostgresBackend.current_applied]
          exact kept_returned _ line.found hk happlied hlost
        · simp only at hb
          have hnone := h.work hblocks hzero
          rw [hb, map_ran, hnone]
          have hzero' : k = 0 := by simpa [hnone] using hk
          exact ⟨0, Nat.zero_le _, rfl, by simp [hlost, hzero']⟩
    · cases result with
      | error e =>
        have hsame := (hcall.raised e rfl).1
        simp only at hsame hstatements
        simpa [Except.isOk, Except.toBool, Except.map] using h.work hblocks
          (hsame.symm.trans hstatements)
      | ok answers =>
        have hone := (hcall.returned answers rfl).1
        simp only at hone hstatements
        omega
    · cases result with
      | error e => simp [Except.isOk, Except.toBool, Except.map] at hrestarted
      | ok answers =>
        simp only [Except.isOk, Except.toBool, Except.map, Bool.not_true, Bool.or_false,
          Bool.or_eq_false_iff, Bool.and_eq_false_iff, decide_eq_false_iff_not, not_not] at hrestarted
        obtain ⟨⟨hrestarted, hfound⟩, hpinned⟩ := hrestarted
        have hsetting := h.setting hblocks hrestarted
        rcases (hcall.returned answers rfl).2 with ⟨-, hb⟩ | ⟨hdropped, -, -, hb⟩
        · simp only at hb ⊢
          rw [hb, PostgresBackend.current_setting, hfound]
          exact hsetting
        · simp only at hb ⊢
          rw [hb]
          exact hpinned.resolve_left fun hnot => hnot hdropped

end

namespace PostgresBackend

theorem rollback_cases (line : Line) (b : PostgresBackend S T) :
    { b.rollback line with store := b.store } = b ∧ (b.rollback line).store.closed = b.store.closed ∧
      (b.rollback line).store.server = b.store.server ∧ (b.rollback line).session = .idle := by
  obtain ⟨depth, statements, tenant, closed, connection, server⟩ := b
  unfold rollback
  cases connection with
  | none => exact ⟨rfl, rfl, rfl, rfl⟩
  | some c =>
    dsimp only
    split_ifs
    · exact ⟨rfl, rfl, rfl, rfl⟩
    · refine ⟨rfl, rfl, rfl, ?_⟩
      rw [session_put]
      exact ite_self _

theorem abandon_outermost (engine : Engine S T (Answer R) ε) (line : Line) {b : PostgresBackend S T}
    (h : b.transactionDepth = 1) :
    let b' : PostgresBackend S T := b.abandon (methods engine) line
    b'.transactionDepth = 0 ∧ b'.store.closed = b.store.closed ∧ b'.store.server = b.store.server ∧
      b'.session = .idle := by
  obtain ⟨hbase, hclosed, hserver, hsession⟩ := rollback_cases line b
  unfold SqlBackend.abandon
  rw [if_pos h]
  have hdepth : (b.rollback line).transactionDepth = 1 :=
    (congrArg SqlBackend.transactionDepth hbase).trans h
  exact ⟨by simp [methods, hdepth], hclosed, hserver, hsession⟩

theorem abandon_inner (engine : Engine S T (Answer R) ε) (line : Line) {b : PostgresBackend S T}
    (h : b.transactionDepth ≠ 1) :
    b.abandon (methods engine) line = { b with transactionDepth := b.transactionDepth - 1 } := by
  unfold SqlBackend.abandon
  rw [if_neg h]

end PostgresBackend

theorem Inv.inner (h : Inv s) (hdepth : s.backend.transactionDepth ≠ 1) (hblocks : s.blocks ≠ []) :
    Inv { s with
      blocks := s.blocks.tail
      backend := { s.backend with transactionDepth := s.backend.transactionDepth - 1 } } := by
  have htail : s.blocks.tail ≠ [] := by
    intro hnil
    have hlength := congrArg List.length hnil
    rw [List.length_tail, ← h.depth] at hlength
    have hpos : 0 < s.blocks.length := List.length_pos_iff.mpr hblocks
    rw [← h.depth] at hpos
    simp only [List.length_nil] at hlength
    omega
  exact ⟨by simp [h.depth], h.closed, fun hnil => absurd hnil htail, fun _ => h.log hblocks,
    fun _ => h.kept hblocks, fun _ => h.work hblocks, fun _ => h.setting hblocks⟩

theorem Inv.outermost {b : PostgresBackend S T} (hdepth : b.transactionDepth = 0)
    (hclosed : b.store.closed = false) (hsession : b.session = .idle) :
    Inv { s with blocks := [], backend := b } where
  depth := hdepth
  closed := hclosed
  rest _ := .inl hsession
  log h := absurd rfl h
  kept h := absurd rfl h
  work h := absurd rfl h
  setting h := absurd rfl h

theorem Inv.tail_nil (h : Inv s) (hdepth : s.backend.transactionDepth = 1) : s.blocks.tail = [] := by
  apply List.eq_nil_of_length_eq_zero
  rw [List.length_tail, ← h.depth, hdepth]

theorem enter_of_setTenant {t : T} {result : Except (DriverError ε) Unit} {b b' : PostgresBackend S T}
    (h : PostgresBackend.setTenant engine t line (b.begun (some t)) = (result, b')) :
    b.call engine line (.enter (some t)) =
      (result, if result.isOk then b' else b'.abandon (PostgresBackend.methods engine) line) := by
  unfold PostgresBackend.call SqlBackend.enter
  simp only [PostgresBackend.methods, h]
  cases result <;> rfl

variable [DecidableEq T]

theorem inv_abandon (h : Inv s) (hblocks : s.blocks ≠ []) : Inv (s.perform engine line .abandon).2 := by
  unfold Client.perform PostgresBackend.call Client.after
  by_cases hdepth : s.backend.transactionDepth = 1
  · obtain ⟨hdepth', hclosed, -, hsession⟩ := PostgresBackend.abandon_outermost engine line hdepth
    rw [h.tail_nil hdepth]
    exact .outermost hdepth' (hclosed.trans h.closed) hsession
  · rw [PostgresBackend.abandon_inner engine line hdepth]
    exact h.inner hdepth hblocks

theorem inv_leave (h : Inv s) (hblocks : s.blocks ≠ []) : Inv (s.perform engine line .leave).2 := by
  unfold Client.perform PostgresBackend.call Client.after SqlBackend.leave
  by_cases hdepth : s.backend.transactionDepth = 1
  · have hcommit := PostgresBackend.commit_inBlock engine line s.backend
      (by rw [h.inTransaction]; simpa using hblocks) h.closed
    rw [if_pos hdepth, h.tail_nil hdepth]
    simp only [PostgresBackend.methods]
    generalize s.backend.commit engine line = out at hcommit
    obtain ⟨result, b⟩ := out
    cases result with
    | ok u =>
      refine .outermost ?_ (hcommit.closed.trans h.closed) (hcommit.ended rfl)
      have hb := hcommit.depth
      simp only at hb ⊢
      omega
    | error e =>
      obtain ⟨hdepth', hclosed, -, hsession⟩ :=
        PostgresBackend.abandon_outermost engine line (hcommit.depth.trans hdepth)
      exact .outermost hdepth' (hclosed.trans (hcommit.closed.trans h.closed)) hsession
  · rw [if_neg hdepth]
    exact h.inner hdepth hblocks

theorem perform_of_call {c : Call S T} {result : Except (DriverError ε) Unit} {b : PostgresBackend S T}
    (h : s.backend.call engine line c = (result, b)) :
    s.perform engine line c = (result, { s.after line (!result.isOk) c with backend := b }) := by
  unfold Client.perform
  rw [h]

theorem inv_enter_outermost (h : Inv s) (tenantId : Option T) (hblocks : s.blocks = []) :
    Inv (s.perform engine line (.enter tenantId)).2 := by
  have hbegun : s.backend.begun tenantId =
      { s.backend with
        transactionDepth := 1, transactionStatements := 0, transactionTenant := tenantId } := by
    simp [SqlBackend.begun, h.depth, hblocks]
  have happlied := (h.rest hblocks).applied
  cases tenantId with
  | none =>
    have hcall : s.backend.call engine line (.enter none) = (.ok (), s.backend.begun none) := rfl
    rw [perform_of_call hcall, hbegun]
    simp only [Client.after, Client.afterEnter, if_pos hblocks]
    refine ⟨rfl, h.closed, fun hnil => absurd hnil (List.cons_ne_nil _ _), fun _ => rfl,
      fun _ => ⟨0, Nat.le_refl _, ?_, by simp⟩, fun _ _ => rfl, fun _ _ => ?_⟩
    · exact congrArg (List.map _) happlied
    · exact ((h.rest hblocks).setting_current false).1
  | some t =>
    have hset := PostgresBackend.setTenant_inBlock engine t line (s.backend.begun (some t))
      (by rw [hbegun]; rfl) (by rw [hbegun]; exact h.closed)
    rw [hbegun] at hset
    rcases hout : PostgresBackend.setTenant engine t line (s.backend.begun (some t)) with ⟨result, b⟩
    rw [← hbegun, hout, hbegun] at hset
    have hdepth : b.transactionDepth = 1 := congrArg SqlBackend.transactionDepth hset.base
    rw [perform_of_call (enter_of_setTenant hout)]
    simp only [Client.after, Client.afterEnter, if_pos hblocks]
    cases result with
    | error e =>
      obtain ⟨habandoned, hclosed, -, hsession⟩ := PostgresBackend.abandon_outermost engine line hdepth
      exact ⟨habandoned, hclosed.trans (hset.closed.trans h.closed), fun _ => .inl hsession,
        fun hne => absurd rfl hne, fun hne => absurd rfl hne, fun hne => absurd rfl hne,
        fun hne => absurd rfl hne⟩
    | ok u =>
      obtain ⟨hsetting, hb⟩ := hset.returned rfl
      have hnil : b.applied = [] := by
        rcases hb with hb | ⟨-, hb⟩
        · refine hb.trans ?_
          rw [PostgresBackend.current_applied]
          split_ifs
          · rfl
          · exact happlied
        · exact hb
      refine ⟨hdepth, hset.closed.trans h.closed, fun hnil => absurd hnil (List.cons_ne_nil _ _),
        fun _ => congrArg Server.log hset.server, fun _ => ⟨0, Nat.le_refl _, ?_, by simp⟩,
        fun _ _ => rfl, fun _ _ => hsetting⟩
      exact congrArg (List.map _) hnil

theorem inv_enter_inner (h : Inv s) (tenantId : Option T) (hblocks : s.blocks ≠ []) :
    Inv (s.perform engine line (.enter tenantId)).2 := by
  have hpos : 0 < s.backend.transactionDepth := by
    rw [h.depth]
    exact List.length_pos_iff.mpr hblocks
  have hbegun : s.backend.begun tenantId =
      { s.backend with transactionDepth := s.backend.transactionDepth + 1 } := by
    unfold SqlBackend.begun
    exact if_neg (by dsimp only; omega)
  obtain ⟨k, hk, happlied, hlost⟩ := h.kept hblocks
  cases tenantId with
  | none =>
    have hcall : s.backend.call engine line (.enter none) = (.ok (), s.backend.begun none) := rfl
    rw [perform_of_call hcall, hbegun]
    simp only [Client.after, Client.afterEnter, if_neg hblocks]
    refine ⟨congrArg (· + 1) h.depth, h.closed, fun hnil => absurd hnil (List.cons_ne_nil _ _),
      fun _ => h.log hblocks, fun _ => ⟨k, hk, happlied, ?_⟩, fun _ => h.work hblocks,
      fun _ => h.setting hblocks⟩
    simpa [Except.isOk, Except.toBool] using hlost
  | some t =>
    have hset := PostgresBackend.setTenant_inBlock engine t line (s.backend.begun (some t))
      (by rw [hbegun]; simp [SqlBackend.inTransaction]) (by rw [hbegun]; exact h.closed)
    rcases hout : PostgresBackend.setTenant engine t line (s.backend.begun (some t)) with ⟨result, b⟩
    rw [hout, hbegun] at hset
    have hdepth : b.transactionDepth = s.backend.transactionDepth + 1 :=
      congrArg SqlBackend.transactionDepth hset.base
    have hstatements : b.transactionStatements = s.backend.transactionStatements := by
      have hbase := congrArg SqlBackend.transactionStatements hset.base
      exact hbase
    have hlog : b.store.server.log = s.before := (congrArg Server.log hset.server).trans (h.log hblocks)
    have hwork : b.transactionStatements = 0 → s.returned = [] :=
      fun hzero => h.work hblocks (hstatements.symm.trans hzero)
    rw [perform_of_call (enter_of_setTenant hout)]
    simp only [Client.after, Client.afterEnter, if_neg hblocks]
    cases result with
    | error e =>
      have hb : b.applied = [] := hset.raised e rfl
      simp only [Except.isOk, Except.toBool, Bool.false_eq_true, if_false]
      rw [PostgresBackend.abandon_inner engine line (by omega : b.transactionDepth ≠ 1)]
      refine ⟨by simp [hdepth, h.depth], hset.closed.trans h.closed, fun hnil => absurd hnil hblocks,
        fun _ => hlog, fun _ => ?_, fun _ => hwork, fun _ hno => absurd hno (fun h => by cases h)⟩
      obtain ⟨k', hk', hdrop, hiff⟩ := kept_raised hk hlost
      exact ⟨k', hk', (congrArg (List.map _) hb).trans hdrop, by simpa using hiff⟩
    | ok u =>
      obtain ⟨hsetting, hb⟩ := hset.returned rfl
      refine ⟨hdepth.trans (congrArg (· + 1) h.depth), hset.closed.trans h.closed,
        fun hnil => absurd hnil (List.cons_ne_nil _ _), fun _ => hlog, fun _ => ?_, fun _ => hwork,
        fun _ _ => hsetting⟩
      rcases hb with hb | ⟨hzero, hb⟩
      · obtain ⟨k', hk', hdrop, hiff⟩ := kept_returned [] line.found hk happlied hlost
        rw [List.append_nil, List.append_nil] at hdrop
        rw [List.append_nil] at hk'
        refine ⟨k', hk', ?_, by simpa [Except.isOk, Except.toBool] using hiff⟩
        rw [← hdrop]
        refine congrArg (List.map _) (hb.trans ?_)
        rw [PostgresBackend.current_applied]
        rfl
      · have hnone : s.returned = [] := h.work hblocks hzero
        have hzero' : k = 0 := by simpa [hnone] using hk
        exact ⟨0, Nat.zero_le _, (congrArg (List.map _) hb).trans (by simp [hnone]),
          by simp [hlost, hzero', hnone]⟩

theorem inv_keeps (engine : Engine S T (Answer R) ε) : (programs engine).Keeps Always Inv := by
  intro s a t h _ hstep
  obtain ⟨c, line⟩ := a
  have hstep : (if c.ends && s.blocks.isEmpty then none else
    some (s.perform engine line c).2) = some t := hstep
  split_ifs at hstep with hends
  obtain rfl := Option.some.inj hstep
  cases c with
  | execute statement => exact inv_statement h rfl
  | executemany rows => exact inv_statement h rfl
  | fetchall statement => exact inv_statement h rfl
  | enter tenantId =>
    by_cases hblocks : s.blocks = []
    · exact inv_enter_outermost h tenantId hblocks
    · exact inv_enter_inner h tenantId hblocks
  | leave => exact inv_leave h (by simpa [Call.ends] using hends)
  | abandon => exact inv_abandon h (by simpa [Call.ends] using hends)

/-- **What every program keeps**, whatever the line does. -/
theorem reaches_inv (h : (programs engine).Reaches Always s) : Inv s :=
  h.invariant (inv_keeps engine) fun _ hs => hs ▸ inv_init

end GuruJi.Persistence
