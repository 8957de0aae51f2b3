import GuruJi.Lib.Machine
import GuruJi.Lib.Sessions
import Mathlib.Algebra.GroupWithZero.Nat

/-!
# The SQL backends

`PostgresBackend` keeps one connection to a server, which it reopens when the line drops, and
`SqlBackend.transaction` runs a block of statements on it. What the line does to a call is an
argument (`Line`): a call may find the connection broken, and each exchange with the server may be
lost before the server gets it, be left unanswered after the server did it, or fail on a connection
that lives.

* `run_cases`: what one call leaves of the connection, for every operation and every line.
* `backends`: the machine whose actions are the calls of a program with nested blocks.
-/

namespace GuruJi.Persistence

open Lib

variable {S T R ε α : Type}

/-- What becomes of one exchange with the server. -/
inductive Fault where
  | none
  | lost
  | unanswered
  | cancelled
  deriving DecidableEq

/-- What becomes of a statement, and of the commit that follows it outside a block. -/
structure Attempt where
  statement : Fault := .none
  commit : Fault := .none
  deriving DecidableEq

/-- What the line does while one call runs. -/
structure Line where
  /-- The connection is found broken before the first attempt. -/
  found : Bool := false
  /-- A connection can be opened before the first attempt. -/
  opens : Bool := true
  attempt : Attempt := {}
  /-- A connection can be opened after the first attempt. -/
  reopens : Bool := true
  /-- The tenant pinned again before the replay. -/
  pin : Fault := .none
  replay : Attempt := {}
  /-- A rollback reaches the server. -/
  undo : Bool := true
  deriving DecidableEq

/-- What a call raises. -/
inductive DriverError (ε : Type) where
  /-- `OperationalError`, and the connection is broken. -/
  | dropped
  /-- `OperationalError` on a live connection: a cancel, a timeout. -/
  | cancelled
  /-- `OperationalError`: no connection could be opened. -/
  | refused
  /-- `InterfaceError`: the backend has been closed. -/
  | closed
  /-- The statement itself failed. -/
  | failed (error : ε)
  deriving DecidableEq

/-- `(OperationalError, InterfaceError)`. -/
def DriverError.operational : DriverError ε → Bool
  | .failed _ => false
  | _ => true

/-- What a statement is answered. -/
structure Answer (R : Type) where
  rowcount : Nat
  rows : List R
  deriving DecidableEq

/-! ## The driver's connection -/

/-- A driver connection: whether the driver knows that it is broken, and the server's session. -/
structure Connection (S T : Type) where
  broken : Bool := false
  session : Session S T := .idle
  deriving DecidableEq

/-- The connection after it broke: the server has dropped the session with its transaction. -/
def Connection.lost : Connection S T := { broken := true }

/-- What an operation on the connection raises or returns, and what it leaves. -/
abbrev Outcome (S T ε α : Type) := Except (DriverError ε) α × Connection S T × Server S T

/-- `cursor.execute`, once for each statement. -/
def Connection.execute (engine : Engine S T (Answer R) ε) (statements : List S) (fault : Fault)
    (c : Connection S T) (server : Server S T) : Outcome S T ε (List (Answer R)) :=
  let out := c.session.runAll engine statements server
  match fault with
  | .none => (out.1.mapError .failed, { c with session := out.2.1 }, out.2.2)
  | .lost => (.error .dropped, .lost, server)
  | .unanswered => (.error .dropped, .lost, out.2.2)
  | .cancelled => (.error .cancelled, { c with session := .failed }, out.2.2)

/-- `connection.commit()`. -/
def Connection.commit (fault : Fault) (c : Connection S T) (server : Server S T) : Outcome S T ε Unit :=
  match fault with
  | .none => (.ok (), { c with session := .idle }, c.session.commit server)
  | .lost => (.error .dropped, .lost, server)
  | .unanswered => (.error .dropped, .lost, c.session.commit server)
  | .cancelled => (.error .cancelled, { c with session := .idle }, server)

/-- `_apply_tenant`. -/
def Connection.applyTenant (engine : Engine S T (Answer R) ε) (tenantId : T) (fault : Fault)
    (c : Connection S T) (server : Server S T) : Outcome S T ε Unit :=
  let out := c.session.set engine tenantId
  match fault with
  | .none => (out.1.mapError .failed, { c with session := out.2 }, server)
  | .lost | .unanswered => (.error .dropped, .lost, server)
  | .cancelled => (.error .cancelled, { c with session := .failed }, server)

/-! ## `SqlBackend` -/

/-- The attributes of `SqlBackend`, and what a backend keeps besides. -/
structure SqlBackend (T β : Type) where
  transactionDepth : Nat := 0
  transactionStatements : Nat := 0
  transactionTenant : Option T := none
  store : β
  deriving DecidableEq

variable {β : Type}

def SqlBackend.inTransaction (b : SqlBackend T β) : Bool :=
  0 < b.transactionDepth

/-- The methods that `transaction` calls, `ι` being what the world does meanwhile. -/
structure Methods (T β ι ε : Type) where
  setTenant : T → ι → SqlBackend T β → Except ε Unit × SqlBackend T β
  commit : ι → SqlBackend T β → Except ε Unit × SqlBackend T β
  rollback : ι → SqlBackend T β → SqlBackend T β

namespace SqlBackend
variable {ι : Type}

/-- The end of a block that raises: `except Exception` and `finally`. -/
def abandon (m : Methods T β ι ε) (line : ι) (b : SqlBackend T β) : SqlBackend T β :=
  let b := if b.transactionDepth = 1 then m.rollback line b else b
  { b with transactionDepth := b.transactionDepth - 1 }

def begun (tenantId : Option T) (b : SqlBackend T β) : SqlBackend T β :=
  let b := { b with transactionDepth := b.transactionDepth + 1 }
  if b.transactionDepth = 1 then
    { b with transactionStatements := 0, transactionTenant := tenantId } else b

/-- `transaction`, up to its `yield`. -/
def enter (m : Methods T β ι ε) (tenantId : Option T) (line : ι) (b : SqlBackend T β) :
    Except ε Unit × SqlBackend T β :=
  match tenantId with
  | none => (.ok (), b.begun tenantId)
  | some t =>
    match m.setTenant t line (b.begun tenantId) with
    | (.ok (), b) => (.ok (), b)
    | (.error e, b) => (.error e, b.abandon m line)

/-- `transaction`, from its `yield` on, when the block ends normally. -/
def leave (m : Methods T β ι ε) (line : ι) (b : SqlBackend T β) : Except ε Unit × SqlBackend T β :=
  if b.transactionDepth = 1 then
    match m.commit line b with
    | (.ok (), b) => (.ok (), { b with transactionDepth := b.transactionDepth - 1 })
    | (.error e, b) => (.error e, b.abandon m line)
  else (.ok (), { b with transactionDepth := b.transactionDepth - 1 })

end SqlBackend

/-! ## `PostgresBackend` -/

/-- What `PostgresBackend` keeps, and the server that it talks to. -/
structure PostgresStore (S T : Type) where
  closed : Bool := false
  connection : Option (Connection S T) := some {}
  server : Server S T := {}
  deriving DecidableEq

abbrev PostgresBackend (S T : Type) := SqlBackend T (PostgresStore S T)

namespace PostgresBackend

/-- The connection, and what the server holds, after an operation on it. -/
def put (b : PostgresBackend S T) (c : Connection S T) (server : Server S T) : PostgresBackend S T :=
  { b with store := { b.store with connection := some c, server := server } }

def discardConnection (b : PostgresBackend S T) : PostgresBackend S T :=
  { b with store := { b.store with connection := none } }

/-- `_open_connection`, assigned to `_connection`. -/
def openConnection (opens : Bool) (b : PostgresBackend S T) :
    Except (DriverError ε) (Connection S T) × PostgresBackend S T :=
  if opens then (.ok {}, b.put {} b.store.server) else (.error .refused, b)

def ensureConnection (found opens : Bool) (b : PostgresBackend S T) :
    Except (DriverError ε) (Connection S T) × PostgresBackend S T :=
  if b.store.closed then (.error .closed, b)
  else
    match b.store.connection with
    | none => b.openConnection opens
    | some c => if found || c.broken then b.discardConnection.openConnection opens else (.ok c, b)

/-- `_rollback_outside_transaction`, on the connection that the statement failed on. -/
def rollbackOutsideTransaction (undo : Bool) (c : Connection S T) (b : PostgresBackend S T) :
    PostgresBackend S T :=
  if b.inTransaction || c.broken then b
  else if undo then b.put { c with session := .idle } b.store.server
  else b.discardConnection

/-- `_transaction_statements += 1`, for what counts inside a block. -/
def counted (counts : Bool) (b : PostgresBackend S T) : PostgresBackend S T :=
  if counts && b.inTransaction then
    { b with transactionStatements := b.transactionStatements + 1 } else b

def hasWork (b : PostgresBackend S T) : Bool :=
  b.inTransaction && 0 < b.transactionStatements

/-- The tenant pinned again on a fresh connection. -/
def pin (engine : Engine S T (Answer R) ε) (counts : Bool) (fault : Fault) (c : Connection S T)
    (b : PostgresBackend S T) : Outcome S T ε Unit :=
  match b.transactionTenant with
  | some tenantId =>
    if counts && b.inTransaction then c.applyTenant engine tenantId fault b.store.server
    else (.ok (), c, b.store.server)
  | none => (.ok (), c, b.store.server)

/-- `_run`: run an operation, and once more on a fresh connection where that is safe. -/
def run (engine : Engine S T (Answer R) ε)
    (operation : Attempt → Connection S T → Server S T → Outcome S T ε α) (counts : Bool) (line : Line)
    (b : PostgresBackend S T) : Except (DriverError ε) α × PostgresBackend S T :=
  match b.ensureConnection line.found line.opens with
  | (.error e, b) => (.error e, b)
  | (.ok c, b) =>
    match operation line.attempt c b.store.server with
    | (.ok x, c, server) => (.ok x, (b.put c server).counted counts)
    | (.error e, c, server) =>
      let b := b.put c server
      if !e.operational || !c.broken then (.error e, b.rollbackOutsideTransaction line.undo c)
      else if b.hasWork then
        (.error e, (b.discardConnection.openConnection (ε := ε) line.reopens).2)
      else
        match b.discardConnection.ensureConnection false line.reopens with
        | (.error e, b) => (.error e, b)
        | (.ok c, b) =>
          match b.pin engine counts line.pin c with
          | (.error e, c, server) => (.error e, b.put c server)
          | (.ok (), c, server) =>
            match operation line.replay c server with
            | (.ok x, c, server) => (.ok x, (b.put c server).counted counts)
            | (.error e, c, server) => (.error e, b.put c server)

/-- The operation of a statement: run it, and commit it outside a block. -/
def operation (engine : Engine S T (Answer R) ε) (statements : List S) (inTransaction : Bool)
    (attempt : Attempt) (c : Connection S T) (server : Server S T) :
    Outcome S T ε (List (Answer R)) :=
  match c.execute engine statements attempt.statement server with
  | (.error e, c, server) => (.error e, c, server)
  | (.ok answers, c, server) =>
    if inTransaction then (.ok answers, c, server)
    else
      match c.commit attempt.commit server with
      | (.error e, c, server) => (.error e, c, server)
      | (.ok (), c, server) => (.ok answers, c, server)

/-- What a statement call runs: its statements, in order. -/
def statementCall (engine : Engine S T (Answer R) ε) (statements : List S) (line : Line)
    (b : PostgresBackend S T) : Except (DriverError ε) (List (Answer R)) × PostgresBackend S T :=
  b.run engine (operation engine statements b.inTransaction) true line

def execute (engine : Engine S T (Answer R) ε) (statement : S) (line : Line)
    (b : PostgresBackend S T) : Except (DriverError ε) Nat × PostgresBackend S T :=
  let out := b.statementCall engine [statement] line
  (out.1.map fun answers => (answers.map (·.rowcount)).sum, out.2)

def executemany (engine : Engine S T (Answer R) ε) (rows : List S) (line : Line)
    (b : PostgresBackend S T) : Except (DriverError ε) Nat × PostgresBackend S T :=
  if rows = [] then (.ok 0, b)
  else
    let out := b.statementCall engine rows line
    (out.1.map fun _ => rows.length, out.2)

def fetchall (engine : Engine S T (Answer R) ε) (statement : S) (line : Line)
    (b : PostgresBackend S T) : Except (DriverError ε) (List R) × PostgresBackend S T :=
  let out := b.statementCall engine [statement] line
  (out.1.map fun answers => (answers.map (·.rows)).flatten, out.2)

def setTenant (engine : Engine S T (Answer R) ε) (tenantId : T) (line : Line)
    (b : PostgresBackend S T) : Except (DriverError ε) Unit × PostgresBackend S T :=
  b.run engine (fun attempt c server => c.applyTenant engine tenantId attempt.statement server) false
      line

def commit (engine : Engine S T (Answer R) ε) (line : Line) (b : PostgresBackend S T) :
    Except (DriverError ε) Unit × PostgresBackend S T :=
  b.run engine (fun attempt c server => c.commit attempt.commit server) true line

def rollback (line : Line) (b : PostgresBackend S T) : PostgresBackend S T :=
  match b.store.connection with
  | none => b
  | some c =>
    if c.broken || !line.undo then b.discardConnection
    else b.put { c with session := .idle } b.store.server

/-- The methods of `PostgresBackend` that `transaction` calls. -/
def methods (engine : Engine S T (Answer R) ε) : Methods T (PostgresStore S T) Line (DriverError ε) where
  setTenant := setTenant engine
  commit := commit engine
  rollback := rollback

/-! ## What one call leaves of the connection -/

/-- The connection that a call makes its first attempt on: the present one, or a fresh one where the
present one is broken. -/
def current (found : Bool) (b : PostgresBackend S T) : Connection S T :=
  match b.store.connection with
  | none => {}
  | some c => if found || c.broken then {} else c

/-- A call gets a connection for its first attempt. -/
def Available (line : Line) (b : PostgresBackend S T) : Prop :=
  b.store.closed = false ∧
    (line.opens = true ∨ ∃ c, b.store.connection = some c ∧ line.found = false ∧ c.broken = false)

/-- The ways a call can go, and what it leaves. -/
inductive Called (engine : Engine S T (Answer R) ε)
    (operation : Attempt → Connection S T → Server S T → Outcome S T ε α) (counts : Bool) (line : Line)
    (b : PostgresBackend S T) : Except (DriverError ε) α × PostgresBackend S T → Prop
  | unavailable {e : DriverError ε} {b' : PostgresBackend S T} (h : ¬ b.Available line)
    (hb' : b' = b ∧ b.store.closed = true ∨ b' = b.discardConnection) :
    Called engine operation counts line b (.error e, b')
  | answered {x : α} {c : Connection S T} {server : Server S T} (h : b.Available line)
    (hfirst : operation line.attempt (b.current line.found) b.store.server = (.ok x, c, server)) :
    Called engine operation counts line b (.ok x, (b.put c server).counted counts)
  | failed {e : DriverError ε} {c : Connection S T} {server : Server S T} (h : b.Available line)
    (hfirst : operation line.attempt (b.current line.found) b.store.server = (.error e, c, server))
    (hlive : e.operational = false ∨ c.broken = false) :
    Called engine operation counts line b
      (.error e, (b.put c server).rollbackOutsideTransaction line.undo c)
  | interrupted {e : DriverError ε} {c : Connection S T} {server : Server S T} (h : b.Available line)
    (hfirst : operation line.attempt (b.current line.found) b.store.server = (.error e, c, server))
    (hbroken : c.broken = true) (hwork : b.hasWork = true) :
    Called engine operation counts line b
      (.error e, ((b.put c server).discardConnection.openConnection (ε := ε) line.reopens).2)
  | down {e e' : DriverError ε} {c : Connection S T} {server : Server S T} (h : b.Available line)
    (hfirst : operation line.attempt (b.current line.found) b.store.server = (.error e, c, server))
    (hbroken : c.broken = true) (hwork : b.hasWork = false)
    (hreopens : line.reopens = false) :
    Called engine operation counts line b (.error e', (b.put c server).discardConnection)
  | unpinned {e e' : DriverError ε} {c c' : Connection S T} {server server' : Server S T}
    (h : b.Available line)
    (hfirst : operation line.attempt (b.current line.found) b.store.server = (.error e, c, server))
    (hbroken : c.broken = true) (hwork : b.hasWork = false)
    (hreopens : line.reopens = true)
    (hpin : (b.put {} server).pin engine counts line.pin {} = (.error e', c', server')) :
    Called engine operation counts line b (.error e', b.put c' server')
  | replayed {e : DriverError ε} {c c' c'' : Connection S T} {server server' server'' : Server S T}
    {result : Except (DriverError ε) α} (h : b.Available line)
    (hfirst : operation line.attempt (b.current line.found) b.store.server = (.error e, c, server))
    (hbroken : c.broken = true) (hwork : b.hasWork = false)
    (hreopens : line.reopens = true)
    (hpin : (b.put {} server).pin engine counts line.pin {} = (.ok (), c', server'))
    (hsecond : operation line.replay c' server' = (result, c'', server'')) :
    Called engine operation counts line b
      (result, (b.put c'' server'').counted (counts && result.isOk))

@[simp] theorem put_hasWork (b : PostgresBackend S T) (c : Connection S T) (server : Server S T) :
    (b.put c server).hasWork = b.hasWork := rfl

@[simp] theorem put_server (b : PostgresBackend S T) (c : Connection S T) (server : Server S T) :
    (b.put c server).store.server = server := rfl

@[simp] theorem put_put (b : PostgresBackend S T) (c c' : Connection S T) (server server' : Server S T) :
    (b.put c server).put c' server' = b.put c' server' := rfl

theorem ensureConnection_cases (line : Line) (b : PostgresBackend S T) :
    (b.Available line ∧ ∃ b' : PostgresBackend S T,
      b.ensureConnection (ε := ε) line.found line.opens = (.ok (b.current line.found), b') ∧
      (∀ c server, b'.put c server = b.put c server) ∧ b'.store.server = b.store.server ∧
      b'.transactionDepth = b.transactionDepth ∧ b'.transactionStatements = b.transactionStatements) ∨
    (¬ b.Available line ∧ ∃ (e : DriverError ε) (b' : PostgresBackend S T),
      b.ensureConnection line.found line.opens = (.error e, b') ∧
      (b' = b ∧ b.store.closed = true ∨ b' = b.discardConnection)) := by
  obtain ⟨depth, statements, tenant, closed, connection, server⟩ := b
  unfold ensureConnection Available current openConnection
  cases closed with
  | true => exact .inr ⟨by simp, _, _, rfl, .inl ⟨rfl, rfl⟩⟩
  | false =>
    cases hopens : line.opens <;> cases connection with
    | none => simp [discardConnection, put]
    | some c => cases hfound : line.found <;> cases hbroken : c.broken <;>
        simp [hfound, hbroken, discardConnection, put]

theorem reopen_eq (reopens : Bool) (b : PostgresBackend S T) (h : b.store.closed = false) :
    b.discardConnection.ensureConnection (ε := ε) false reopens =
      if reopens then (.ok {}, b.put {} b.store.server) else (.error .refused, b.discardConnection) := by
  unfold ensureConnection openConnection
  simp [discardConnection, put, h]

theorem run_called (engine : Engine S T (Answer R) ε)
    (operation : Attempt → Connection S T → Server S T → Outcome S T ε α) (counts : Bool) (line : Line)
    (b : PostgresBackend S T) :
    Called engine operation counts line b (b.run engine operation counts line) := by
  unfold run
  rcases ensureConnection_cases (ε := ε) line b with
    ⟨h, b', hensure, hput, hserver, hdepth, hstatements⟩ | ⟨h, e, b', hensure, hb'⟩
  · rw [hensure]
    simp only [hserver, hput]
    rcases hfirst : operation line.attempt (b.current line.found) b.store.server with
      ⟨e | x, c, server⟩
    · dsimp only
      by_cases hlive : (!e.operational || !c.broken) = true
      · rw [if_pos hlive]
        exact .failed h hfirst (by simpa using hlive)
      · have hbroken : c.broken = true := by simp_all
        rw [if_neg hlive]
        cases hwork : b.hasWork with
        | true =>
          rw [if_pos (by simpa using hwork)]
          exact .interrupted h hfirst hbroken hwork
        | false =>
          rw [if_neg (by simpa using hwork), reopen_eq line.reopens (b.put c server) h.1]
          cases hreopens : line.reopens with
          | false => exact .down h hfirst hbroken hwork hreopens
          | true =>
            rcases hpin : (b.put {} server).pin engine counts line.pin {} with ⟨e' | u, c', server'⟩
            · simpa [hpin] using Called.unpinned h hfirst hbroken hwork hreopens hpin
            · rcases hsecond : operation line.replay c' server' with ⟨e' | x, c'', server''⟩
              · simpa [hpin, hsecond, counted, Except.isOk, Except.toBool] using
                  Called.replayed h hfirst hbroken hwork hreopens hpin hsecond
              · simpa [hpin, hsecond, Except.isOk, Except.toBool] using
                  Called.replayed h hfirst hbroken hwork hreopens hpin hsecond
    · exact .answered h hfirst
  · rw [hensure]
    exact .unavailable h hb'

end PostgresBackend

end GuruJi.Persistence
