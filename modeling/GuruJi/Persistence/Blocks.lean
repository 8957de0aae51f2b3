import GuruJi.Persistence.Backend

/-!
# Statements in a block and outside

What one call does to the open transaction of a `PostgresBackend`, in a block and outside, whatever the
line does.

* `statementCall_inBlock`: a statement in a block is applied to the transaction on its connection, is
  replayed as the first of a fresh one, or leaves none.
* `setTenant_inBlock`: the same of a tenant that is set.
* `commit_inBlock`: the commit at the end of a block commits its transaction, or nothing.
* `statementCall_outside`: a statement outside a block is committed by itself.
-/

namespace GuruJi.Persistence

open Lib

variable {S T R ε α : Type}

def Line.dropped (line : Line) : Prop :=
  line.attempt.statement = .lost ∨ line.attempt.statement = .unanswered

instance (line : Line) : Decidable line.dropped := by unfold Line.dropped; infer_instance

namespace Connection

/-- What a statement leaves: its transaction with the statement, a failed one, or no session. -/
structure Executes (statements : List S) (fault : Fault) (c : Connection S T) (server : Server S T)
    (out : Outcome S T ε (List (Answer R))) : Prop where
  log : out.2.2.log = server.log
  trace : ∃ new, out.2.2.trace = server.trace ++ new ∧
    ∀ e ∈ new, c.session ≠ .failed ∧ e.setting = c.session.setting
  ok : ∀ answers, out.1 = .ok answers → fault = .none ∧ out.2.1.broken = c.broken ∧
    out.2.1.session.applied = c.session.applied ++ statements.map (⟨·, c.session.setting⟩) ∧
    out.2.1.session.setting = c.session.setting
  error : ∀ e, out.1 = .error e →
    (out.2.1 = .lost ∧ e = .dropped ∧ (fault = .lost ∨ fault = .unanswered)) ∨
    (out.2.1 = { c with session := .failed } ∧ e ≠ .dropped)

theorem execute_executes (engine : Engine S T (Answer R) ε) (statements : List S) (fault : Fault)
    (c : Connection S T) (server : Server S T) :
    Executes statements fault c server (c.execute engine statements fault server) := by
  have hruns := Session.runAll_runs engine statements c.session server
  unfold execute
  generalize c.session.runAll engine statements server = out at hruns
  obtain ⟨result, session, after⟩ := out
  cases fault with
  | none =>
    refine ⟨hruns.log, hruns.trace, fun answers h => ?_, fun e h => ?_⟩
    · cases result with
      | error e => exact absurd h nofun
      | ok answers' =>
        obtain ⟨-, happlied, hsetting⟩ := hruns.applied answers' rfl
        exact ⟨rfl, rfl, happlied, hsetting⟩
    · cases result with
      | ok answers => exact absurd h nofun
      | error e' =>
        obtain rfl : session = .failed := hruns.undone e' rfl
        obtain rfl : DriverError.failed e' = e := Except.error.inj h
        exact .inr ⟨rfl, nofun⟩
  | lost => exact ⟨rfl, ⟨[], by simp⟩, nofun, fun e h => .inl ⟨rfl, (Except.error.inj h).symm, .inl rfl⟩⟩
  | unanswered =>
    exact ⟨hruns.log, hruns.trace, nofun, fun e h => .inl ⟨rfl, (Except.error.inj h).symm, .inr rfl⟩⟩
  | cancelled =>
    refine ⟨hruns.log, hruns.trace, nofun, fun e h => .inr ⟨rfl, ?_⟩⟩
    obtain rfl := Except.error.inj h
    exact nofun

theorem Executes.undone {statements : List S} {fault : Fault} {c : Connection S T}
    {server : Server S T} {e : DriverError ε} {c' : Connection S T} {server' : Server S T}
    (h : Executes statements fault c server
        ((.error e, c', server') : Outcome S T ε (List (Answer R)))) :
    c'.session.applied = [] := by
  rcases h.error e rfl with ⟨rfl, -⟩ | ⟨rfl, -⟩ <;> rfl

/-- What setting the tenant leaves: the tenant's transaction, a failed one, or no session. -/
structure Sets (tenantId : T) (c : Connection S T) (server : Server S T)
    (out : Outcome S T ε Unit) : Prop where
  server : out.2.2 = server
  ok : out.1 = .ok () → out.2.1.broken = c.broken ∧ out.2.1.session.applied = c.session.applied ∧
    out.2.1.session.setting = some tenantId
  error : ∀ e, out.1 = .error e →
    (out.2.1 = .lost ∧ e = .dropped) ∨ (out.2.1 = { c with session := .failed } ∧ e ≠ .dropped)

theorem Sets.undone {tenantId : T} {c c' : Connection S T} {server server' : Server S T}
    {e : DriverError ε} (h : Sets tenantId c server (.error e, c', server')) :
    c'.session.applied = [] := by
  rcases h.error e rfl with ⟨rfl, -⟩ | ⟨rfl, -⟩ <;> rfl

theorem applyTenant_sets (engine : Engine S T (Answer R) ε) (tenantId : T) (fault : Fault)
    (c : Connection S T) (server : Server S T) :
    Sets tenantId c server (c.applyTenant engine tenantId fault server) := by
  obtain ⟨broken, session⟩ := c
  unfold applyTenant
  cases fault with
  | none =>
    cases session with
    | active applied setting => exact ⟨rfl, fun _ => ⟨rfl, rfl, rfl⟩, nofun⟩
    | failed =>
      refine ⟨rfl, nofun, fun e h => .inr ⟨rfl, ?_⟩⟩
      obtain rfl := Except.error.inj h
      exact nofun
  | lost => exact ⟨rfl, nofun, fun e h => .inl ⟨rfl, (Except.error.inj h).symm⟩⟩
  | unanswered => exact ⟨rfl, nofun, fun e h => .inl ⟨rfl, (Except.error.inj h).symm⟩⟩
  | cancelled =>
    refine ⟨rfl, nofun, fun e h => .inr ⟨rfl, ?_⟩⟩
    obtain rfl := Except.error.inj h
    exact nofun

/-- What a commit leaves: an idle session, or none. -/
structure Ends (fault : Fault) (c : Connection S T) (server : Server S T)
    (out : Outcome S T ε Unit) : Prop where
  trace : out.2.2.trace = server.trace
  idle : out.2.1.session = .idle
  nothing : c.session.applied = [] → out.2.2 = server
  ok : out.1 = .ok () → fault = .none ∧ out.2.2 = c.session.commit server
  error : ∀ e, out.1 = .error e → fault ≠ .none ∧ (fault ≠ .unanswered → out.2.2 = server)

theorem commit_ends (fault : Fault) (c : Connection S T) (server : Server S T) :
    Ends (ε := ε) fault c server (c.commit fault server) := by
  unfold commit
  have hnothing : c.session.applied = [] → c.session.commit server = server := fun h => if_pos h
  cases fault with
  | none => exact ⟨Session.commit_trace _ _, rfl, hnothing, fun _ => ⟨rfl, rfl⟩, nofun⟩
  | lost => exact ⟨rfl, rfl, fun _ => rfl, nofun, fun _ _ => ⟨nofun, fun _ => rfl⟩⟩
  | unanswered =>
    exact ⟨Session.commit_trace _ _, rfl, hnothing, nofun, fun _ _ => ⟨nofun, fun h => absurd rfl h⟩⟩
  | cancelled => exact ⟨rfl, rfl, fun _ => rfl, nofun, fun _ _ => ⟨nofun, fun _ => rfl⟩⟩

end Connection

namespace PostgresBackend

def session (b : PostgresBackend S T) : Session S T := (b.current false).session

def applied (b : PostgresBackend S T) : List (Ran S T) := b.session.applied

def setting (b : PostgresBackend S T) : Option T := b.session.setting

section
variable (b : PostgresBackend S T) (c : Connection S T) (server : Server S T) (counts : Bool)

theorem current_put (found : Bool) :
    (b.put c server).current found = if found || c.broken then {} else c := rfl

@[simp] theorem session_discard : b.discardConnection.session = .idle := rfl

theorem session_put : (b.put c server).session = if c.broken then .idle else c.session := by
  unfold session
  rw [current_put]
  cases c.broken <;> rfl

theorem applied_put : (b.put c server).applied = if c.broken then [] else c.session.applied := by
  unfold applied
  rw [session_put]
  cases c.broken <;> rfl

theorem setting_put : (b.put c server).setting = if c.broken then none else c.session.setting := by
  unfold setting
  rw [session_put]
  cases c.broken <;> rfl

@[simp] theorem counted_store : (b.counted counts).store = b.store := by
  unfold counted
  split_ifs <;> rfl

@[simp] theorem counted_depth : (b.counted counts).transactionDepth = b.transactionDepth := by
  unfold counted
  split_ifs <;> rfl

@[simp] theorem counted_tenant : (b.counted counts).transactionTenant = b.transactionTenant := by
  unfold counted
  split_ifs <;> rfl

@[simp] theorem counted_session : (b.counted counts).session = b.session := by
  unfold session current
  rw [counted_store]

@[simp] theorem counted_applied : (b.counted counts).applied = b.applied :=
  congrArg Session.applied (counted_session b counts)

@[simp] theorem counted_setting : (b.counted counts).setting = b.setting :=
  congrArg Session.setting (counted_session b counts)

theorem counted_statements (h : b.inTransaction = true) :
    (b.counted counts).transactionStatements = b.transactionStatements + if counts then 1 else 0 := by
  unfold counted
  cases counts <;> simp [h]

theorem rollback_inBlock {undo : Bool} (h : b.inTransaction = true) :
    b.rollbackOutsideTransaction undo c = b := by
  simp [rollbackOutsideTransaction, h]

theorem interrupted_eq (reopens : Bool) :
    ((b.put c server).discardConnection.openConnection (ε := ε) reopens).2 =
      if reopens then b.put {} server else (b.put c server).discardConnection := by
  unfold openConnection
  cases reopens <;> rfl

end

variable {b : PostgresBackend S T} {line : Line}

theorem current_found (b : PostgresBackend S T) : b.current true = {} := by
  unfold current
  cases b.store.connection <;> rfl

theorem current_live (b : PostgresBackend S T) (found : Bool) : (b.current found).broken = false := by
  unfold current
  cases b.store.connection with
  | none => rfl
  | some c => cases found <;> cases hbroken : c.broken <;> simp [hbroken]

/-- What a statement in a block does to the transaction, whatever the line does. -/
structure InBlock (statements : List S) (line : Line) (b : PostgresBackend S T)
    (out : Except (DriverError ε) (List (Answer R)) × PostgresBackend S T) : Prop where
  depth : out.2.transactionDepth = b.transactionDepth
  tenant : out.2.transactionTenant = b.transactionTenant
  closed : out.2.store.closed = b.store.closed
  log : out.2.store.server.log = b.store.server.log
  trace : ∃ new, out.2.store.server.trace = b.store.server.trace ++ new ∧ ∀ e ∈ new,
    ((b.current line.found).session ≠ .failed ∧ e.setting = (b.current line.found).session.setting) ∨
      (line.dropped ∧ e.setting = b.transactionTenant)
  returned : ∀ answers, out.1 = .ok answers →
    out.2.transactionStatements = b.transactionStatements + 1 ∧
      ((out.2.applied = (b.current line.found).session.applied ++
          statements.map (⟨·, (b.current line.found).session.setting⟩) ∧
        out.2.setting = (b.current line.found).session.setting) ∨
      (line.dropped ∧ b.transactionStatements = 0 ∧
        out.2.applied = statements.map (⟨·, b.transactionTenant⟩) ∧
        out.2.setting = b.transactionTenant))
  raised : ∀ e, out.1 = .error e →
    out.2.transactionStatements = b.transactionStatements ∧ out.2.applied = []

theorem operation_inBlock (engine : Engine S T (Answer R) ε) (statements : List S) (attempt : Attempt)
    (c : Connection S T) (server : Server S T) :
    operation engine statements true attempt c server =
      c.execute engine statements attempt.statement server := by
  unfold operation
  rcases c.execute engine statements attempt.statement server with ⟨_ | _, _, _⟩ <;> rfl

variable {c : Connection S T} {fault : Fault} {server : Server S T} {attempt : Attempt}
  {engine : Engine S T (Answer R) ε} {statements : List S}

/-- On a fresh connection the tenant of the outermost block is pinned, if it names one. -/
theorem pin_fresh (engine : Engine S T (Answer R) ε) {after : Server S T} (h : b.inTransaction = true)
    (hpin : (b.put {} server).pin engine true fault {} = (.ok (), c, after)) :
    after = server ∧ c.broken = false ∧ c.session.applied = [] ∧
      c.session.setting = b.transactionTenant := by
  unfold pin at hpin
  have hin : (b.put {} server).inTransaction = true := h
  have htenant : (b.put {} server).transactionTenant = b.transactionTenant := rfl
  rw [htenant] at hpin
  cases ht : b.transactionTenant with
  | none =>
    rw [ht] at hpin
    obtain ⟨-, rfl, rfl⟩ := hpin
    exact ⟨rfl, rfl, rfl, rfl⟩
  | some t =>
    rw [ht] at hpin
    simp only [hin, Bool.and_self, if_true, put_server] at hpin
    have hsets := Connection.applyTenant_sets engine t fault ({} : Connection S T) server
    rw [hpin] at hsets
    obtain ⟨hbroken, happlied, hsetting⟩ := hsets.ok rfl
    exact ⟨hsets.server, hbroken, happlied, hsetting⟩

theorem pin_raised (engine : Engine S T (Answer R) ε)
    {after : Server S T} {counts : Bool} {e : DriverError ε}
    (hpin : (b.put {} server).pin engine counts fault {} = (.error e, c, after)) :
    after = server ∧ c.session.applied = [] := by
  unfold pin at hpin
  split at hpin
  · rename_i t _
    split_ifs at hpin
    · have hsets := Connection.applyTenant_sets engine t fault ({} : Connection S T) server
      rw [put_server] at hpin
      rw [hpin] at hsets
      rcases hsets.error e rfl with ⟨rfl, -⟩ | ⟨rfl, -⟩
      · exact ⟨hsets.server, rfl⟩
      · exact ⟨hsets.server, rfl⟩
    · exact absurd (congrArg Prod.fst hpin) nofun
  · exact absurd (congrArg Prod.fst hpin) nofun

theorem applied_put_nil (h : c.session.applied = []) : (b.put c server).applied = [] := by
  rw [applied_put, h, ite_self]

theorem first_executes {c c' : Connection S T} {server server' : Server S T}
        {result : Except (DriverError ε) (List (Answer R))}
    (h : operation engine statements true attempt c server = (result, c', server')) :
    Connection.Executes statements attempt.statement c server (result, c', server') := by
  rw [operation_inBlock] at h
  exact h ▸ Connection.execute_executes engine statements attempt.statement c server

/-- A call that raises after its first attempt, and leaves nothing of the transaction. -/
theorem InBlock.of_raised {e e' : DriverError ε} {b' : PostgresBackend S T}
    (h : Connection.Executes statements line.attempt.statement (b.current line.found) b.store.server
      ((.error e, c, server) : Outcome S T ε (List (Answer R))))
    (hbase : { b' with store := b.store } = b) (hclosed : b'.store.closed = b.store.closed)
    (hserver : b'.store.server = server) (happlied : b'.applied = []) :
    InBlock statements line b ((.error e', b') : Except (DriverError ε) (List (Answer R)) × _) := by
  obtain ⟨new, htrace, hnew⟩ := h.trace
  refine ⟨?_, ?_, hclosed, hserver ▸ h.log, ⟨new, hserver ▸ htrace, fun e he => .inl (hnew e he)⟩, nofun,
    fun _ _ => ⟨?_, happlied⟩⟩
  all_goals rw [← hbase]

/-- **A statement in a block** is applied to its transaction, or replayed as the first of a fresh
one; a raise leaves nothing of the transaction. -/
theorem statementCall_inBlock (engine : Engine S T (Answer R) ε) (statements : List S) (line : Line)
    (b : PostgresBackend S T) (h : b.inTransaction = true) (hclosed : b.store.closed = false) :
    InBlock statements line b (b.statementCall engine statements line) := by
  unfold statementCall
  rw [h]
  have hcalled := run_called engine (operation engine statements true) true line b
  generalize b.run engine (operation engine statements true) true line = out at hcalled
  cases hcalled with
  | unavailable _ hb' =>
    rcases hb' with ⟨-, hb'⟩ | rfl
    · simp [hclosed] at hb'
    · exact ⟨rfl, rfl, rfl, rfl, ⟨[], by simp [discardConnection]⟩, (fun _ h => by cases h), fun _ _ =>
        ⟨rfl, rfl⟩⟩
  | @answered answers c server _ hfirst =>
    have hexec := first_executes hfirst
    obtain ⟨-, hbroken, happlied, hsetting⟩ := hexec.ok _ rfl
    obtain ⟨new, htrace, hnew⟩ := hexec.trace
    have hlive : c.broken = false := hbroken.trans (current_live b line.found)
    refine ⟨counted_depth _ _, counted_tenant _ _, by rw [counted_store]; rfl, ?_, ⟨new, ?_, fun e he =>
      .inl (hnew e he)⟩, fun _ _ => ⟨counted_statements _ true h, .inl ⟨?_, ?_⟩⟩,
          (fun _ h => by cases h)⟩
    · rw [counted_store]
      exact hexec.log
    · rw [counted_store]
      exact htrace
    · rw [counted_applied, applied_put, hlive]
      exact happlied
    · rw [counted_setting, setting_put, hlive]
      exact hsetting
  | failed _ hfirst _ =>
    rw [rollback_inBlock (b.put _ _) _ h]
    exact .of_raised (first_executes hfirst) rfl rfl rfl (applied_put_nil (first_executes hfirst).undone)
  | interrupted _ hfirst _ _ =>
    rw [interrupted_eq]
    cases line.reopens
    · exact .of_raised (first_executes hfirst) rfl rfl rfl rfl
    · exact .of_raised (first_executes hfirst) rfl rfl rfl rfl
  | down _ hfirst _ _ _ => exact .of_raised (first_executes hfirst) rfl rfl rfl rfl
  | unpinned _ hfirst _ _ _ hpin =>
    obtain ⟨rfl, happlied⟩ := pin_raised engine hpin
    exact .of_raised (first_executes hfirst) rfl rfl rfl (applied_put_nil happlied)
  | @replayed _ c c' c'' server server' server'' result _ hfirst hbroken hwork hreopens hpin hsecond =>
    have hexec := first_executes hfirst
    have hexec' := first_executes hsecond
    obtain ⟨rfl, hlive, hnil, hpinned⟩ := pin_fresh engine h hpin
    obtain ⟨new, htrace, hnew⟩ := hexec.trace
    obtain ⟨new', htrace', hnew'⟩ := hexec'.trace
    have hdropped : line.dropped := by
      rcases hexec.error _ rfl with ⟨-, -, hfault⟩ | ⟨hc, -⟩
      · exact hfault
      · have hc : c = _ := hc
        rw [hc, current_live] at hbroken
        exact absurd hbroken fun h => by cases h
    have hstatements : b.transactionStatements = 0 := by simpa [hasWork, h] using hwork
    refine ⟨counted_depth _ _, counted_tenant _ _, by rw [counted_store]; rfl, ?_, ⟨new ++ new', ?_,
      fun e he => ?_⟩, fun answers hanswers => ?_, fun e he => ?_⟩
    · rw [counted_store]
      exact hexec'.log.trans hexec.log
    · rw [counted_store, ← List.append_assoc, ← htrace]
      exact htrace'
    · rcases List.mem_append.mp he with he | he
      · exact .inl (hnew e he)
      · exact .inr ⟨hdropped, (hnew' e he).2.trans hpinned⟩
    · obtain rfl : result = .ok answers := hanswers
      obtain ⟨-, hbroken', happlied, hsetting⟩ := hexec'.ok _ rfl
      have hlive' : c''.broken = false := hbroken'.trans hlive
      refine ⟨counted_statements _ _ h, .inr ⟨hdropped, hstatements, ?_, ?_⟩⟩
      · rw [counted_applied, applied_put, hlive', if_neg fun h => by cases h]
        simpa [hnil, hpinned] using happlied
      · rw [counted_setting, setting_put, hlive', if_neg fun h => by cases h]
        exact hsetting.trans hpinned
    · obtain rfl : result = .error e := he
      refine ⟨counted_statements _ _ h, ?_⟩
      rw [counted_applied]
      exact applied_put_nil hexec'.undone

/-- What setting the tenant in a block does to the transaction. -/
structure SetsTenant (tenantId : T) (line : Line) (b : PostgresBackend S T)
    (out : Except (DriverError ε) Unit × PostgresBackend S T) : Prop where
  base : { out.2 with store := b.store } = b
  closed : out.2.store.closed = b.store.closed
  server : out.2.store.server = b.store.server
  returned : out.1 = .ok () → out.2.setting = some tenantId ∧
    (out.2.applied = (b.current line.found).session.applied ∨
      (b.transactionStatements = 0 ∧ out.2.applied = []))
  raised : ∀ e, out.1 = .error e → out.2.applied = []

theorem pin_uncounted (engine : Engine S T (Answer R) ε) (fault : Fault) (c : Connection S T) :
    b.pin engine false fault c = (.ok (), c, b.store.server) := by
  unfold pin
  cases b.transactionTenant <;> rfl

theorem counted_false : b.counted false = b := rfl

/-- **Setting the tenant in a block** keeps the transaction, or starts a fresh one. -/
theorem setTenant_inBlock (engine : Engine S T (Answer R) ε) (tenantId : T) (line : Line)
    (b : PostgresBackend S T) (h : b.inTransaction = true) (hclosed : b.store.closed = false) :
    SetsTenant tenantId line b (b.setTenant engine tenantId line) := by
  unfold setTenant
  have hcalled := run_called engine
    (fun attempt c server => c.applyTenant engine tenantId attempt.statement server) false line b
  generalize b.run engine _ false line = out at hcalled
  have hsets := fun fault c server => Connection.applyTenant_sets engine tenantId fault
    (c : Connection S T) server
  cases hcalled with
  | unavailable _ hb' =>
    rcases hb' with ⟨-, hb'⟩ | rfl
    · simp [hclosed] at hb'
    · exact ⟨rfl, rfl, rfl, nofun, fun _ _ => rfl⟩
  | @answered _ c server _ hfirst =>
    have hset := hfirst ▸ hsets line.attempt.statement (b.current line.found) b.store.server
    obtain ⟨hbroken, happlied, hsetting⟩ := hset.ok rfl
    have hlive : c.broken = false := hbroken.trans (current_live b line.found)
    rw [counted_false]
    refine ⟨rfl, rfl, hset.server, fun _ => ⟨?_, .inl ?_⟩, nofun⟩
    · rw [setting_put, hlive]
      exact hsetting
    · rw [applied_put, hlive]
      exact happlied
  | failed _ hfirst _ =>
    have hset := hfirst ▸ hsets line.attempt.statement (b.current line.found) b.store.server
    rw [rollback_inBlock (b.put _ _) _ h]
    refine ⟨rfl, rfl, hset.server, nofun, fun _ _ => applied_put_nil hset.undone⟩
  | interrupted _ hfirst _ _ =>
    have hset := hfirst ▸ hsets line.attempt.statement (b.current line.found) b.store.server
    rw [interrupted_eq]
    cases line.reopens
    · exact ⟨rfl, rfl, hset.server, nofun, fun _ _ => rfl⟩
    · exact ⟨rfl, rfl, hset.server, nofun, fun _ _ => rfl⟩
  | down _ hfirst _ _ _ =>
    have hset := hfirst ▸ hsets line.attempt.statement (b.current line.found) b.store.server
    exact ⟨rfl, rfl, hset.server, nofun, fun _ _ => rfl⟩
  | unpinned _ _ _ _ _ hpin =>
    rw [pin_uncounted] at hpin
    exact absurd (congrArg Prod.fst hpin) nofun
  | @replayed _ c c' c'' server server' server'' result _ hfirst _ hwork _ hpin hsecond =>
    have hset := hfirst ▸ hsets line.attempt.statement (b.current line.found) b.store.server
    rw [pin_uncounted] at hpin
    obtain ⟨-, rfl, rfl⟩ := hpin
    have hset' := hsecond ▸ hsets line.replay.statement {} server
    have hstatements : b.transactionStatements = 0 := by simpa [hasWork, h] using hwork
    refine ⟨rfl, rfl, hset'.server.trans hset.server, fun hok => ?_, fun e he => ?_⟩
    · obtain rfl : result = .ok () := hok
      obtain ⟨hbroken, happlied, hsetting⟩ := hset'.ok rfl
      have hlive : c''.broken = false := hbroken
      refine ⟨?_, .inr ⟨hstatements, ?_⟩⟩
      · rw [Bool.false_and, counted_false, setting_put, hlive]
        exact hsetting
      · exact applied_put_nil happlied
    · obtain rfl : result = .error e := he
      exact applied_put_nil hset'.undone

/-- What the commit at the end of a block does. -/
structure Commits (line : Line) (b : PostgresBackend S T)
    (out : Except (DriverError ε) Unit × PostgresBackend S T) : Prop where
  depth : out.2.transactionDepth = b.transactionDepth
  closed : out.2.store.closed = b.store.closed
  trace : out.2.store.server.trace = b.store.server.trace
  ended : out.1 = .ok () → out.2.session = .idle
  returned : out.1 = .ok () → line.attempt.commit ≠ .unanswered →
    out.2.store.server.log = ((b.current line.found).session.commit b.store.server).log ∨
      (b.transactionStatements = 0 ∧ out.2.store.server.log = b.store.server.log)
  raised : ∀ e, out.1 = .error e → line.attempt.commit ≠ .unanswered →
    out.2.store.server.log = b.store.server.log
  ok_iff : 0 < b.transactionStatements →
    (out.1 = .ok () ↔ b.Available line ∧ line.attempt.commit = .none)

/-- **The commit of a block** commits its transaction, or nothing. -/
theorem commit_inBlock (engine : Engine S T (Answer R) ε) (line : Line) (b : PostgresBackend S T)
    (h : b.inTransaction = true) (hclosed : b.store.closed = false) :
    Commits line b (b.commit engine line) := by
  unfold commit
  have hcalled := run_called engine (fun attempt c server => c.commit attempt.commit server) true line b
  generalize b.run engine _ true line = out at hcalled
  have hends := fun fault c server => Connection.commit_ends (ε := ε) fault (c : Connection S T) server
  have hidle : b.hasWork = false → ¬ 0 < b.transactionStatements := by simp [hasWork, h]
  cases hcalled with
  | unavailable havailable hb' =>
    rcases hb' with ⟨-, hb'⟩ | rfl
    · simp [hclosed] at hb'
    · exact ⟨rfl, rfl, rfl, nofun, nofun, fun _ _ _ => rfl, fun _ =>
        ⟨nofun, fun h => absurd h.1 havailable⟩⟩
  | @answered _ c server havailable hfirst =>
    have hend := hfirst ▸ hends line.attempt.commit (b.current line.found) b.store.server
    obtain ⟨hfault, hserver⟩ := hend.ok rfl
    refine ⟨counted_depth _ _, by rw [counted_store]; rfl, by rw [counted_store]; exact hend.trace,
      fun _ => ?_, fun _ _ => .inl ?_, nofun, fun _ => ⟨fun _ => ⟨havailable, hfault⟩, fun _ => rfl⟩⟩
    · rw [counted_session, session_put, hend.idle, ite_self]
    · rw [counted_store]
      exact congrArg Server.log hserver
  | failed _ hfirst _ =>
    have hend := hfirst ▸ hends line.attempt.commit (b.current line.found) b.store.server
    rw [rollback_inBlock (b.put _ _) _ h]
    refine ⟨rfl, rfl, hend.trace, nofun, nofun, fun e _ hack => ?_, fun _ => ⟨nofun, fun h => ?_⟩⟩
    · exact congrArg Server.log ((hend.error _ rfl).2 hack)
    · exact absurd h.2 (hend.error _ rfl).1
  | interrupted _ hfirst _ _ =>
    have hend := hfirst ▸ hends line.attempt.commit (b.current line.found) b.store.server
    rw [interrupted_eq]
    cases line.reopens
    all_goals
      refine ⟨rfl, rfl, hend.trace, nofun, nofun, fun e _ hack => ?_, fun _ => ⟨nofun, fun h => ?_⟩⟩
      · exact congrArg Server.log ((hend.error _ rfl).2 hack)
      · exact absurd h.2 (hend.error _ rfl).1
  | down _ hfirst _ hwork _ =>
    have hend := hfirst ▸ hends line.attempt.commit (b.current line.found) b.store.server
    exact ⟨rfl, rfl, hend.trace, nofun, nofun,
      fun e _ hack => congrArg Server.log ((hend.error _ rfl).2 hack), fun h => absurd h (hidle hwork)⟩
  | unpinned _ hfirst _ hwork _ hpin =>
    have hend := hfirst ▸ hends line.attempt.commit (b.current line.found) b.store.server
    obtain ⟨rfl, -⟩ := pin_raised engine hpin
    exact ⟨rfl, rfl, hend.trace, nofun, nofun,
      fun e _ hack => congrArg Server.log ((hend.error _ rfl).2 hack), fun h => absurd h (hidle hwork)⟩
  | @replayed _ c c' c'' server server' server'' result _ hfirst _ hwork _ hpin hsecond =>
    have hend := hfirst ▸ hends line.attempt.commit (b.current line.found) b.store.server
    obtain ⟨rfl, -, hnil, -⟩ := pin_fresh engine h hpin
    have hend' := hsecond ▸ hends line.replay.commit c' server'
    obtain rfl : server'' = server' := hend'.nothing hnil
    refine ⟨counted_depth _ _, by rw [counted_store]; rfl, by rw [counted_store]; exact hend.trace,
      fun _ => ?_, fun _ hack => .inr ⟨by have := hidle hwork; omega, ?_⟩, fun e _ hack => ?_,
      fun h => absurd h (hidle hwork)⟩
    · rw [counted_session, session_put, hend'.idle, ite_self]
    · rw [counted_store]
      exact congrArg Server.log ((hend.error _ rfl).2 hack)
    · rw [counted_store]
      exact congrArg Server.log ((hend.error _ rfl).2 hack)

/-! ## Statements outside a block -/

/-- No transaction is open: the session is idle, or its transaction has failed. -/
def AtRest (b : PostgresBackend S T) : Prop := b.session = .idle ∨ b.session = .failed

theorem AtRest.applied (h : b.AtRest) : b.applied = [] := by
  unfold PostgresBackend.applied
  rcases h with h | h <;> rw [h] <;> rfl

/-- An attempt whose commit gets to the server, after its statements were answered. -/
def CommitsAttempt (engine : Engine S T (Answer R) ε) (statements : List S) (attempt : Attempt)
    (c : Connection S T) (server : Server S T) : Prop :=
  attempt.statement = .none ∧ (c.session.runAll engine statements server).1.isOk = true ∧
    (attempt.commit = .none ∨ attempt.commit = .unanswered)

/-- What a statement outside a block leaves, when no transaction was open. -/
structure Alone (engine : Engine S T (Answer R) ε) (statements : List S) (attempt : Attempt)
    (c : Connection S T) (server : Server S T) (out : Outcome S T ε (List (Answer R))) : Prop where
  committed : CommitsAttempt engine statements attempt c server → out.2.2.log =
    ((Session.active (statements.map (⟨·, c.session.setting⟩)) c.session.setting).commit server).log
  uncommitted : ¬ CommitsAttempt engine statements attempt c server → out.2.2.log = server.log
  ok_iff : (∃ answers, out.1 = .ok answers) ↔
    CommitsAttempt engine statements attempt c server ∧ attempt.commit = .none
  rest : out.2.1.session = .idle ∨ out.2.1.session = .failed
  error : ∀ e, out.1 = .error e → out.2.1.broken = true → e = .dropped
  unanswered : ∀ e, out.1 = .error e → CommitsAttempt engine statements attempt c server →
    attempt.commit = .unanswered ∧ out.2.1.broken = true

theorem Alone.of_error {c c' : Connection S T} {server server' : Server S T} {e : DriverError ε}
    (hnot : ¬ CommitsAttempt engine statements attempt c server) (hlog : server'.log = server.log)
    (hrest : c' = .lost ∧ e = .dropped ∨
      c'.broken = false ∧ (c'.session = .idle ∨ c'.session = .failed)) :
    Alone engine statements attempt c server
      ((.error e, c', server') : Outcome S T ε (List (Answer R))) where
  committed h := absurd h hnot
  uncommitted _ := hlog
  ok_iff := ⟨fun ⟨_, h⟩ => absurd h nofun, fun h => absurd h.1 hnot⟩
  rest := by
    rcases hrest with ⟨rfl, -⟩ | ⟨-, h⟩
    · exact .inl rfl
    · exact h
  error e' he hbroken := by
    obtain rfl := Except.error.inj he
    rcases hrest with ⟨-, h⟩ | ⟨hlive, -⟩
    · exact h
    · exact absurd (hlive ▸ hbroken) nofun
  unanswered _ _ h := absurd h hnot

theorem operation_alone (engine : Engine S T (Answer R) ε) (statements : List S) (attempt : Attempt)
    (c : Connection S T) (server : Server S T) (hlive : c.broken = false) (h : c.session.applied = []) :
    Alone engine statements attempt c server
      (operation engine statements false attempt c server) := by
  obtain ⟨statement, commit⟩ := attempt
  have hruns := Session.runAll_runs engine statements c.session server
  have hiff : CommitsAttempt engine statements ⟨statement, commit⟩ c server ↔ statement = .none ∧
      (c.session.runAll engine statements server).1.isOk = true ∧
        (commit = .none ∨ commit = .unanswered) := Iff.rfl
  unfold operation Connection.execute
  generalize c.session.runAll engine statements server = out at hruns hiff
  obtain ⟨result, session, after⟩ := out
  cases statement with
  | lost => exact .of_error (by simp [hiff]) rfl (.inl ⟨rfl, rfl⟩)
  | unanswered => exact .of_error (by simp [hiff]) hruns.log (.inl ⟨rfl, rfl⟩)
  | cancelled => exact .of_error (by simp [hiff]) hruns.log (.inr ⟨hlive, .inr rfl⟩)
  | none =>
    cases result with
    | error e =>
      have hfailed : session = .failed := hruns.undone e rfl
      refine .of_error (by simp [hiff, Except.isOk, Except.toBool]) hruns.log
        (.inr ⟨hlive, .inr hfailed⟩)
    | ok answers =>
      obtain ⟨-, happlied, -⟩ := hruns.applied answers rfl
      rw [h, List.nil_append] at happlied
      have hcommit : (session.commit after).log =
          ((Session.active (statements.map (⟨·, c.session.setting⟩)) c.session.setting).commit
          server).log := by
        unfold Session.commit
        rw [show session.applied = _ from happlied, Session.applied_active]
        split_ifs
        · exact hruns.log
        · exact congrArg (· ++ _) hruns.log
      have hok : (Except.ok answers : Except ε (List (Answer R))).isOk = true := rfl
      cases commit with
      | none =>
        have hyes := hiff.mpr ⟨rfl, hok, .inl rfl⟩
        exact ⟨fun _ => hcommit, fun hno => absurd hyes hno, ⟨fun _ => ⟨hyes, rfl⟩, fun _ => ⟨_, rfl⟩⟩,
          .inl rfl, (fun _ h => by cases h), (fun _ h => by cases h)⟩
      | lost => exact .of_error (by simp [hiff]) hruns.log (.inl ⟨rfl, rfl⟩)
      | unanswered =>
        have hyes := hiff.mpr ⟨rfl, hok, .inr rfl⟩
        exact ⟨fun _ => hcommit, fun hno => absurd hyes hno,
          ⟨(fun h => by obtain ⟨_, h⟩ := h; cases h), (fun h => by cases h.2)⟩, .inl rfl,
          fun e he _ => (Except.error.inj he).symm, fun _ _ _ => ⟨rfl, rfl⟩⟩
      | cancelled => exact .of_error (by simp [hiff]) hruns.log (.inr ⟨hlive, .inl rfl⟩)

def bare (T : Type) (statements : List S) : List (Ran S T) := statements.map (⟨·, none⟩)

/-- The first attempt of a statement is committed without an acknowledgement, and so is the replay. -/
def Doubled (engine : Engine S T (Answer R) ε) (statements : List S) (line : Line)
    (b : PostgresBackend S T) : Prop :=
  b.Available line ∧
    CommitsAttempt engine statements line.attempt (b.current line.found) b.store.server ∧
    line.attempt.commit = .unanswered ∧ line.reopens = true ∧
    CommitsAttempt engine statements line.replay {}
      (operation engine statements false line.attempt (b.current line.found) b.store.server).2.2

/-- What a statement outside a block leaves, when no transaction was open. -/
structure Outside (engine : Engine S T (Answer R) ε) (statements : List S) (line : Line)
    (b : PostgresBackend S T)
    (out : Except (DriverError ε) (List (Answer R)) × PostgresBackend S T) : Prop where
  base : { out.2 with store := b.store } = b
  closed : out.2.store.closed = b.store.closed
  rest : out.2.AtRest
  doubled : Doubled engine statements line b → out.2.store.server.log.flatten =
    b.store.server.log.flatten ++ bare T statements ++ bare T statements
  once : ¬ Doubled engine statements line b →
    out.2.store.server.log.flatten = b.store.server.log.flatten ++ bare T statements ∨
      out.2.store.server.log.flatten = b.store.server.log.flatten ∧ ∃ e, out.1 = .error e

theorem flatten_commit (ran : List (Ran S T)) (setting : Option T) (server : Server S T) :
    ((Session.active ran setting).commit server).log.flatten = server.log.flatten ++ ran := by
  unfold Session.commit
  split_ifs with h
  · simp [show ran = [] from h]
  · simp

theorem AtRest.setting_current (h : b.AtRest) (found : Bool) :
    (b.current found).session.setting = none ∧ (b.current found).session.applied = [] := by
  cases found with
  | true => rw [current_found]; exact ⟨rfl, rfl⟩
  | false =>
    rcases h with h | h
    · rw [show (b.current false).session = _ from h]; exact ⟨rfl, rfl⟩
    · rw [show (b.current false).session = _ from h]; exact ⟨rfl, rfl⟩

theorem atRest_put (h : c.session = .idle ∨ c.session = .failed) : (b.put c server).AtRest := by
  unfold AtRest
  rw [session_put]
  split_ifs
  · exact .inl rfl
  · exact h

theorem atRest_rollback {undo : Bool} (h : c.session = .idle ∨ c.session = .failed) :
    ((b.put c server).rollbackOutsideTransaction undo c).AtRest := by
  unfold rollbackOutsideTransaction
  split_ifs
  · exact atRest_put h
  · exact atRest_put (.inl rfl)
  · exact .inl rfl

theorem pin_outside (engine : Engine S T (Answer R) ε) (h : b.inTransaction = false) {counts : Bool} :
    (b.put {} server).pin engine counts fault {} = (.ok (), {}, server) := by
  unfold pin
  have hin : (b.put {} server).inTransaction = false := h
  simp only [hin, Bool.and_false, Bool.false_eq_true, if_false, put_server]
  split <;> rfl

theorem Alone.flatten {c c' : Connection S T} {server server' : Server S T}
        {result : Except (DriverError ε) (List (Answer R))}
    (h : Alone engine statements attempt c server (result, c', server'))
    (hsetting : c.session.setting = none) :
    (CommitsAttempt engine statements attempt c server →
      server'.log.flatten = server.log.flatten ++ bare T statements) ∧
    (¬ CommitsAttempt engine statements attempt c server →
      server'.log.flatten = server.log.flatten ∧ ∃ e, result = .error e) := by
  refine ⟨fun hyes => ?_, fun hno => ⟨congrArg List.flatten (h.uncommitted hno), ?_⟩⟩
  · have hlog := congrArg List.flatten (h.committed hyes)
    rw [flatten_commit, hsetting] at hlog
    exact hlog
  · cases result with
    | error e => exact ⟨e, rfl⟩
    | ok answers => exact absurd (h.ok_iff.mp ⟨answers, rfl⟩).1 hno

/-- **A statement outside a block** is committed by itself: once or not at all, unless the first
commit is not acknowledged and the replay is committed as well. -/
theorem statementCall_outside (engine : Engine S T (Answer R) ε) (statements : List S) (line : Line)
    (b : PostgresBackend S T) (h : b.inTransaction = false) (hclosed : b.store.closed = false)
    (hrest : b.AtRest) :
    Outside engine statements line b (b.statementCall engine statements line) := by
  unfold statementCall
  rw [h]
  have hcalled := run_called engine (operation engine statements false) true line b
  generalize b.run engine (operation engine statements false) true line = out at hcalled
  obtain ⟨hsetting, happlied⟩ := hrest.setting_current line.found
  have hfirst' := operation_alone engine statements line.attempt (b.current line.found) b.store.server
    (current_live b line.found) happlied
  have hcounted : ∀ b' : PostgresBackend S T, b'.transactionDepth = b.transactionDepth →
      ∀ counts, b'.counted counts = b' := by
    intro b' hdepth counts
    unfold SqlBackend.inTransaction at h
    simp [counted, SqlBackend.inTransaction, hdepth, h]
  cases hcalled with
  | unavailable havailable hb' =>
    rcases hb' with ⟨-, hb'⟩ | rfl
    · simp [hclosed] at hb'
    · exact ⟨rfl, rfl, .inl rfl, fun hdoubled => absurd hdoubled.1 havailable,
        fun _ => .inr ⟨rfl, _, rfl⟩⟩
  | answered havailable hfirst =>
    have halone := hfirst ▸ hfirst'
    obtain ⟨hyes, hcommit⟩ := halone.ok_iff.mp ⟨_, rfl⟩
    rw [hcounted (b.put _ _) rfl]
    refine ⟨rfl, rfl, atRest_put halone.rest, fun hdoubled => ?_, fun _ => .inl ?_⟩
    · exact absurd (hcommit.symm.trans hdoubled.2.2.1) fun h => by cases h
    · exact (halone.flatten hsetting).1 hyes
  | @failed e c server havailable hfirst hlive =>
    have halone := hfirst ▸ hfirst'
    have hno : ¬ CommitsAttempt engine statements line.attempt
      (b.current line.found) b.store.server := by
      intro hyes
      obtain ⟨-, hbroken⟩ := halone.unanswered _ rfl hyes
      obtain rfl := halone.error _ rfl hbroken
      rcases hlive with hlive | hlive
      · exact absurd hlive fun h => by cases h
      · exact absurd (hlive.symm.trans hbroken) fun h => by cases h
    have hserver : ((b.put c server).rollbackOutsideTransaction line.undo c).store.server = server := by
      unfold rollbackOutsideTransaction
      split_ifs <;> rfl
    refine ⟨?_, ?_, atRest_rollback halone.rest, fun hdoubled => absurd hdoubled.2.1 hno,
      fun _ => .inr ⟨?_, _, rfl⟩⟩
    · unfold rollbackOutsideTransaction
      split_ifs <;> rfl
    · unfold rollbackOutsideTransaction
      split_ifs <;> rfl
    · rw [hserver]
      exact ((halone.flatten hsetting).2 hno).1
  | interrupted _ _ _ hwork => simp [hasWork, h] at hwork
  | down _ hfirst _ _ hreopens =>
    have halone := hfirst ▸ hfirst'
    refine ⟨rfl, rfl, .inl rfl, fun hdoubled => absurd (hreopens.symm.trans hdoubled.2.2.2.1)
      (fun h => by cases h), fun _ => ?_⟩
    by_cases hyes : CommitsAttempt engine statements line.attempt (b.current line.found) b.store.server
    · exact .inl ((halone.flatten hsetting).1 hyes)
    · exact .inr ⟨((halone.flatten hsetting).2 hyes).1, _, rfl⟩
  | unpinned _ _ _ _ _ hpin =>
    rw [pin_outside engine h] at hpin
    exact absurd (congrArg Prod.fst hpin) fun h => by cases h
  | @replayed _ c c' c'' server server' server'' result havailable hfirst _ _ hreopens hpin hsecond =>
    have halone := hfirst ▸ hfirst'
    rw [pin_outside engine h] at hpin
    obtain ⟨-, rfl, rfl⟩ := hpin
    have halone' := hsecond ▸ operation_alone engine statements line.replay {} server rfl rfl
    rw [hcounted (b.put _ _) rfl]
    have hserver : (operation engine statements false line.attempt (b.current line.found)
        b.store.server).2.2 = server := by rw [hfirst]
    have hflatten := halone.flatten hsetting
    have hflatten' := halone'.flatten rfl
    refine ⟨rfl, rfl, atRest_put halone'.rest, fun hdoubled => ?_, fun hdoubled => ?_⟩
    · rw [← hflatten.1 hdoubled.2.1]
      exact hflatten'.1 (hserver ▸ hdoubled.2.2.2.2)
    · by_cases hyes : CommitsAttempt engine statements line.attempt (b.current line.found) b.store.server
      · have hno : ¬ CommitsAttempt engine statements line.replay {} server := fun hyes' =>
          hdoubled ⟨havailable, hyes, (halone.unanswered _ rfl hyes).1, hreopens, hserver ▸ hyes'⟩
        obtain ⟨hlog, -⟩ := hflatten'.2 hno
        exact .inl (hlog.trans (hflatten.1 hyes))
      · obtain ⟨hlog, -⟩ := hflatten.2 hyes
        by_cases hyes' : CommitsAttempt engine statements line.replay {} server
        · exact .inl ((hflatten'.1 hyes').trans (congrArg (· ++ _) hlog))
        · obtain ⟨hlog', herror⟩ := hflatten'.2 hyes'
          exact .inr ⟨hlog'.trans hlog, herror⟩

end PostgresBackend

end GuruJi.Persistence
