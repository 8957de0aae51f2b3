import GuruJi.Persistence.Programs
import Mathlib.Data.List.Infix

/-!
# The two SQL backends

`SqliteBackend` never commits by itself: the driver opens a transaction before a statement that
changes rows, and it stays open until a block commits or rolls back. Both backends are given one
database (`Database`), which answers a statement from the statements applied before it, and no
connection fails.

* `backends_agree`: the backends hold the same durable statements outside the blocks, in every run in
  which rows are changed in blocks only, a failed statement ends its block, and a block that raises has
  not changed the schema before it changed a row.
-/

namespace GuruJi.Persistence

open Lib Lib.Machine

variable {S T R ε : Type}

/-- What a statement does: it reads, it changes rows, or it changes the schema. -/
inductive Kind where
  | query
  | change
  | schema
  deriving DecidableEq

/-- What both engines do with a statement. -/
structure Database (S R ε : Type) where
  kind : S → Kind
  answer : List S → S → Except ε (Answer R)
  /-- PostgreSQL: the transaction has failed. -/
  inFailedTransaction : ε
  /-- SQLite: `executemany` is for statements that change rows. -/
  notChange : ε

namespace Database

/-- The statement leaves a trace in the database. -/
def writes (db : Database S R ε) (statement : S) : Bool := db.kind statement ≠ .query

def engine (db : Database S R ε) : Engine S T (Answer R) ε where
  answer history ran := db.answer ((history.map (·.statement)).filter db.writes) ran.statement
  inFailedTransaction := db.inFailedTransaction

end Database

/-! ## `SqliteBackend` -/

/-- The committed transactions of a SQLite database, and the one that the driver has open. -/
structure SqliteStore (S : Type) where
  log : List (List S) := []
  transaction : Option (List S) := none
  deriving DecidableEq

namespace SqliteStore

/-- The driver opens a transaction before a statement that changes rows. -/
def opened (db : Database S R ε) (statement : S) (store : SqliteStore S) : SqliteStore S :=
  if db.kind statement = .change then { store with transaction := some (store.transaction.getD []) }
  else store

/-- A statement that was answered: in the open transaction, or durable at once. -/
def wrote (statement : S) (store : SqliteStore S) : SqliteStore S :=
  match store.transaction with
  | some statements => { store with transaction := some (statements ++ [statement]) }
  | none => { store with log := store.log ++ [[statement]] }

/-- `cursor.execute`: a statement that fails leaves the transaction as it was. -/
def run (db : Database S R ε) (statement : S) (store : SqliteStore S) :
    Except ε (Answer R) × SqliteStore S :=
  let store := store.opened db statement
  match db.answer (store.log.flatten ++ store.transaction.getD []) statement with
  | .ok answer => (.ok answer, if db.writes statement then store.wrote statement else store)
  | .error e => (.error e, store)

def runAll (db : Database S R ε) : List S → SqliteStore S → Except ε (List (Answer R)) × SqliteStore S
  | [], store => (.ok [], store)
  | statement :: rest, store =>
    match store.run db statement with
    | (.error e, store) => (.error e, store)
    | (.ok answer, store) => ((store.runAll db rest).1.map (answer :: ·), (store.runAll db rest).2)

end SqliteStore

abbrev SqliteBackend (S T : Type) := SqlBackend T (SqliteStore S)

namespace SqliteBackend

def statementCall (db : Database S R ε) (statements : List S) (b : SqliteBackend S T) :
    Except ε (List (Answer R)) × SqliteBackend S T :=
  ((b.store.runAll db statements).1, { b with store := (b.store.runAll db statements).2 })

def execute (db : Database S R ε) (statement : S) (b : SqliteBackend S T) :
    Except ε Nat × SqliteBackend S T :=
  let out := b.statementCall db [statement]
  (out.1.map fun answers => (answers.map (·.rowcount)).sum, out.2)

def executemany (db : Database S R ε) (rows : List S) (b : SqliteBackend S T) :
    Except ε Nat × SqliteBackend S T :=
  if rows.all (db.kind · = .change) then
    let out := b.statementCall db rows
    (out.1.map fun answers => (answers.map (·.rowcount)).sum, out.2)
  else (.error db.notChange, b)

def fetchall (db : Database S R ε) (statement : S) (b : SqliteBackend S T) :
    Except ε (List R) × SqliteBackend S T :=
  let out := b.statementCall db [statement]
  (out.1.map fun answers => (answers.map (·.rows)).flatten, out.2)

def commit (b : SqliteBackend S T) : SqliteBackend S T :=
  match b.store.transaction with
  | none => b
  | some statements =>
    { b with store := { log := b.store.log ++ if statements = [] then [] else [statements] } }

def rollback (b : SqliteBackend S T) : SqliteBackend S T :=
  { b with store := { b.store with transaction := none } }

/-- The methods of `SqliteBackend` that `transaction` calls. -/
def methods : Methods T (SqliteStore S) Unit ε where
  setTenant _ _ b := (.ok (), b)
  commit _ b := (.ok (), SqliteBackend.commit b)
  rollback _ b := SqliteBackend.rollback b

def call (db : Database S R ε) (b : SqliteBackend S T) :
    Call S T → Except ε Unit × SqliteBackend S T
  | .execute statement => ((b.execute db statement).1.map fun _ => (), (b.execute db statement).2)
  | .executemany rows => ((b.executemany db rows).1.map fun _ => (), (b.executemany db rows).2)
  | .fetchall statement => ((b.fetchall db statement).1.map fun _ => (), (b.fetchall db statement).2)
  | .enter tenantId => b.enter methods tenantId ()
  | .leave => b.leave methods ()
  | .abandon => (.ok (), b.abandon (ε := ε) methods ())

end SqliteBackend

/-! ## One program on both backends -/

/-- Both backends, and what is known of the outermost block. -/
structure Both (S T : Type) where
  postgres : PostgresBackend S T := { store := {} }
  sqlite : SqliteBackend S T := { store := {} }
  /-- A statement of the block has failed. -/
  failed : Bool := false
  /-- The schema was changed in the block before any row. -/
  early : Bool := false

namespace Both

def Outside (s : Both S T) : Prop := s.sqlite.transactionDepth = 0

/-- The durable statements that left a trace, as PostgreSQL and as SQLite hold them. -/
def postgresDurable (db : Database S R ε) (s : Both S T) : List S :=
  (s.postgres.store.server.log.flatten.map (·.statement)).filter db.writes

def sqliteDurable (s : Both S T) : List S := s.sqlite.store.log.flatten

/-- The call changes the schema before any row is changed in the block. -/
def changesEarly (db : Database S R ε) (s : Both S T) (c : Call S T) : Bool :=
  s.sqlite.store.transaction.isNone && c.statements.any (db.kind · = .schema)

def perform (db : Database S R ε) (s : Both S T) (c : Call S T) : Both S T :=
  let postgres := s.postgres.call db.engine {} c
  let sqlite := s.sqlite.call db c
  { postgres := postgres.2
    sqlite := sqlite.2
    failed := if sqlite.2.transactionDepth = 0 then false else
        s.failed || !sqlite.1.isOk || !postgres.1.isOk
    early := if sqlite.2.transactionDepth = 0 then false else s.early || s.changesEarly db c }

/-- The calls on which the backends agree: outside a block no row is changed, a failed statement ends
its block, and a block that raises has not changed the schema first. -/
def Covered (db : Database S R ε) (s : Both S T) : Call S T → Prop
  | .execute statement | .fetchall statement =>
    if s.sqlite.transactionDepth = 0 then db.kind statement ≠ .change else s.failed = false
  | .executemany rows => (∀ row ∈ rows, db.kind row = .change) ∧
      if s.sqlite.transactionDepth = 0 then rows = [] else s.failed = false
  | .enter _ | .leave => s.failed = false
  | .abandon => s.sqlite.transactionDepth = 1 → s.early = false

instance (db : Database S R ε) (s : Both S T) : ∀ c, Decidable (s.Covered db c)
  | .execute statement | .fetchall statement => inferInstanceAs (Decidable
      (if s.sqlite.transactionDepth = 0 then db.kind statement ≠ .change else s.failed = false))
  | .executemany rows => inferInstanceAs (Decidable ((∀ row ∈ rows, db.kind row = .change) ∧
      if s.sqlite.transactionDepth = 0 then rows = [] else s.failed = false))
  | .enter _ | .leave => inferInstanceAs (Decidable (s.failed = false))
  | .abandon => inferInstanceAs (Decidable (s.sqlite.transactionDepth = 1 → s.early = false))

end Both

/-- One program on both backends, with no connection failure. -/
def bothBackends (db : Database S R ε) : Machine (Both S T) (Call S T) where
  init s := s = {}
  step s c := if c.ends && s.sqlite.transactionDepth = 0 then none else some (s.perform db c)

/-! ## One statement on both engines -/

/-- The statements that a session and its server hold, of those that left a trace. -/
def held (db : Database S R ε) (server : Server S T) (ran : List (Ran S T)) : List S :=
  ((server.log.flatten ++ ran).map (·.statement)).filter db.writes

theorem held_append (db : Database S R ε) (server : Server S T) (ran : List (Ran S T)) (statement : S)
    (setting : Option T) : held db server (ran ++ [⟨statement, setting⟩]) =
      held db server ran ++ if db.writes statement then [statement] else [] := by
  unfold held
  rw [← List.append_assoc, List.map_append, List.filter_append]
  congr 1
  cases hwrites : db.writes statement <;> simp [hwrites]

namespace SqliteStore

/-- The statements that the database and its open transaction hold. -/
def held (store : SqliteStore S) : List S := store.log.flatten ++ store.transaction.getD []

theorem opened_held (db : Database S R ε) (statement : S) (store : SqliteStore S) :
    (store.opened db statement).held = store.held := by
  unfold opened held
  split_ifs <;> rfl

theorem wrote_held (statement : S) (store : SqliteStore S) :
    (store.wrote statement).held = store.held ++ [statement] := by
  unfold wrote held
  cases store.transaction with
  | none => simp
  | some statements => simp

theorem run_cases (db : Database S R ε) (statement : S) (store : SqliteStore S) :
    (∃ e, db.answer store.held statement = .error e ∧
      store.run db statement = (.error e, store.opened db statement)) ∨
    ∃ answer, db.answer store.held statement = .ok answer ∧ store.run db statement = (.ok answer,
      if db.writes statement then (store.opened db statement).wrote statement
      else store.opened db statement) := by
  have hrun : store.run db statement = match db.answer store.held statement with
      | .ok answer =>
          (.ok answer, if db.writes statement then (store.opened db statement).wrote statement
          else store.opened db statement)
      | .error e => (.error e, store.opened db statement) := by
    rw [← opened_held db statement store]
    rfl
  rw [hrun]
  cases db.answer store.held statement with
  | error e => exact .inl ⟨e, rfl, rfl⟩
  | ok answer => exact .inr ⟨answer, rfl, rfl⟩

theorem opened_log (db : Database S R ε) (statement : S) (store : SqliteStore S) :
    (store.opened db statement).log = store.log ∧
      (store.transaction ≠ none ∨ db.kind statement = .change →
        (store.opened db statement).transaction ≠ none) ∧
      (db.kind statement ≠ .change → store.opened db statement = store) := by
  unfold opened
  split_ifs with h
  · exact ⟨rfl, fun _ => by simp, fun hno => absurd h hno⟩
  · exact ⟨rfl, fun hor => hor.resolve_right h, fun _ => rfl⟩

theorem wrote_log (statement : S) {store : SqliteStore S} (h : store.transaction ≠ none) :
    (store.wrote statement).log = store.log ∧ (store.wrote statement).transaction ≠ none := by
  unfold wrote
  cases htx : store.transaction with
  | none => exact absurd htx h
  | some statements => exact ⟨rfl, by simp⟩

/-- The log stays where a transaction is open, and where the schema is not changed. -/
theorem run_log (db : Database S R ε) (statement : S) (store : SqliteStore S)
    (h : store.transaction ≠ none ∨ db.kind statement ≠ .schema) :
    (store.run db statement).2.log = store.log ∧
      (store.transaction ≠ none → (store.run db statement).2.transaction ≠ none) := by
  obtain ⟨hlog, hopen, -⟩ := opened_log db statement store
  rcases run_cases db statement store with ⟨e, -, hrun⟩ | ⟨answer, -, hrun⟩
  · rw [hrun]
    exact ⟨hlog, fun h => hopen (.inl h)⟩
  · rw [hrun]
    dsimp only
    split_ifs with hwrites
    · have hopened : (store.opened db statement).transaction ≠ none := by
        refine hopen (h.imp_right fun hschema => ?_)
        unfold Database.writes at hwrites
        cases hkind : db.kind statement <;> simp_all
      obtain ⟨hwrote, htx⟩ := wrote_log statement hopened
      exact ⟨hwrote.trans hlog, fun _ => htx⟩
    · exact ⟨hlog, fun h => hopen (.inl h)⟩

theorem runAll_singleton (db : Database S R ε) (statement : S) (store : SqliteStore S) :
    store.runAll db [statement] =
      ((store.run db statement).1.map fun answer => [answer], (store.run db statement).2) := by
  unfold runAll
  rcases store.run db statement with ⟨e | answer, store'⟩ <;> rfl

theorem run_durable (db : Database S R ε) {statement : S} {store : SqliteStore S}
    (h : store.transaction = none) (hkind : db.kind statement ≠ .change) :
    (store.run db statement).2.transaction = none ∧
      ((store.run db statement).1.isOk = false → (store.run db statement).2 = store) := by
  obtain ⟨-, -, hopened⟩ := opened_log db statement store
  rcases run_cases db statement store with ⟨e, -, hrun⟩ | ⟨answer, -, hrun⟩
  · rw [hrun, hopened hkind]
    exact ⟨h, fun _ => rfl⟩
  · rw [hrun, hopened hkind]
    refine ⟨?_, (fun h => by cases h)⟩
    dsimp only
    split_ifs
    · unfold wrote
      rw [h]
    · exact h

end SqliteStore

/-- **Both engines answer a statement the same**, where they hold the same, and go on holding it. -/
theorem run_agrees (db : Database S R ε) (statement : S) {ran : List (Ran S T)} {setting : Option T}
    {server : Server S T} {store : SqliteStore S} (h : held db server ran = store.held) :
    (∃ e, (Session.active ran setting).run db.engine statement server =
        (.error e, .failed, { server with trace := server.trace ++ [⟨statement, setting⟩] }) ∧
      (store.run db statement).1 = .error e) ∨
    ∃ answer, (Session.active ran setting).run db.engine statement server =
        (.ok answer, .active (ran ++ [⟨statement, setting⟩]) setting,
          { server with trace := server.trace ++ [⟨statement, setting⟩] }) ∧
      (store.run db statement).1 = .ok answer ∧
      held db server (ran ++ [⟨statement, setting⟩]) = (store.run db statement).2.held := by
  have hanswer : (db.engine (T := T)).answer (server.log.flatten ++ ran) ⟨statement, setting⟩ =
      db.answer store.held statement := by rw [← h]; rfl
  rcases store.run_cases db statement with ⟨e, he, hrun⟩ | ⟨answer, ha, hrun⟩
  · refine .inl ⟨e, ?_, by rw [hrun]⟩
    simp only [Session.run, hanswer, he]
  · refine .inr ⟨answer, ?_, by rw [hrun], ?_⟩
    · simp only [Session.run, hanswer, ha]
    · rw [hrun, held_append, h]
      dsimp only
      split_ifs
      · rw [SqliteStore.wrote_held, SqliteStore.opened_held]
      · rw [SqliteStore.opened_held, List.append_nil]

theorem isOk_map {α β : Type} (x : Except ε α) (f : α → β) : (x.map f).isOk = x.isOk := by
  cases x <;> rfl

/-- What both engines do with a list of statements: they answer the same, and hold the same where all
are answered. -/
theorem runAll_agrees (db : Database S R ε) (statements : List S) (setting : Option T)
    {ran : List (Ran S T)} {server : Server S T} {store : SqliteStore S}
    (h : held db server ran = store.held) :
    ((Session.active ran setting).runAll db.engine statements server).1 =
        (store.runAll db statements).1 ∧
      ((store.runAll db statements).1.isOk = true →
        held db server (ran ++ statements.map (⟨·, setting⟩)) =
        (store.runAll db statements).2.held) := by
  induction statements generalizing ran server store with
  | nil => exact ⟨rfl, fun _ => by simpa [SqliteStore.runAll] using h⟩
  | cons statement rest ih =>
    unfold Session.runAll SqliteStore.runAll
    rcases run_agrees db statement h with ⟨e, hpg, hsq⟩ | ⟨answer, hpg, hsq, hheld⟩
    · rw [hpg]
      rcases hout : store.run db statement with ⟨result, store'⟩
      rw [hout] at hsq
      obtain rfl : result = .error e := hsq
      exact ⟨rfl, (fun h => by cases h)⟩
    · rw [hpg]
      rcases hout : store.run db statement with ⟨result, store'⟩
      rw [hout] at hsq hheld
      obtain rfl : result = .ok answer := hsq
      have hnext : held db { server with trace := server.trace ++ [(⟨statement, setting⟩ : Ran S T)] }
          (ran ++ [⟨statement, setting⟩]) = store'.held := hheld
      obtain ⟨hsame, hrest⟩ := ih hnext
      refine ⟨congrArg (Except.map (answer :: ·)) hsame, fun hok => ?_⟩
      have hok : ((store'.runAll db rest).1.map (answer :: ·)).isOk = true := hok
      rw [isOk_map] at hok
      have hheld' := hrest hok
      rw [List.append_assoc] at hheld'
      exact hheld'

/-- The log stays where a transaction is open, and where the schema is not changed. -/
theorem runAll_log (db : Database S R ε) {statements : List S} {store : SqliteStore S}
    (h : store.transaction ≠ none ∨ ∀ statement ∈ statements, db.kind statement ≠ .schema) :
    (store.runAll db statements).2.log = store.log := by
  induction statements generalizing store with
  | nil => rfl
  | cons statement rest ih =>
    obtain ⟨hlog, hopen⟩ := SqliteStore.run_log db statement store
      (h.imp_right fun hkind => hkind statement List.mem_cons_self)
    unfold SqliteStore.runAll
    rcases hout : store.run db statement with ⟨e | answer, store'⟩
    · rw [hout] at hlog
      exact hlog
    · rw [hout] at hlog hopen
      refine (ih ?_).trans hlog
      exact h.imp hopen fun hkind s hs => hkind s (List.mem_cons_of_mem _ hs)

/-! ## `PostgresBackend` while the line is clear -/

namespace PostgresBackend

/-- The backend with a live connection in a session, and the server's log. -/
structure Live (b : PostgresBackend S T) (session : Session S T) : Prop where
  closed : b.store.closed = false
  connection : b.store.connection = some { session := session }

theorem Live.put {b : PostgresBackend S T} {session session' : Session S T} {server : Server S T}
    (h : b.Live session) : (b.put { session := session' } server).Live session' :=
  ⟨h.closed, rfl⟩

theorem Live.counted {b : PostgresBackend S T} {session : Session S T} {counts : Bool}
    (h : b.Live session) : (b.counted counts).Live session :=
  ⟨by rw [counted_store]; exact h.closed, by rw [counted_store]; exact h.connection⟩

theorem Live.run_ok {engine : Engine S T (Answer R) ε} {α : Type}
    {operation : Attempt → Connection S T → Server S T → Outcome S T ε α} {counts : Bool} {x : α}
    {b : PostgresBackend S T} {session session' : Session S T} {server : Server S T} (h : b.Live session)
    (hout : operation {} { session := session } b.store.server =
        (.ok x, { session := session' }, server)) :
    b.run engine operation counts {} =
      (.ok x, (b.put { session := session' } server).counted counts) := by
  have hensure : b.ensureConnection (ε := ε) false true = (.ok { session := session }, b) := by
    simp [ensureConnection, h.closed, h.connection]
  unfold run
  rw [hensure]
  simp only [hout]

theorem Live.run_failed {engine : Engine S T (Answer R) ε} {α : Type}
    {operation : Attempt → Connection S T → Server S T → Outcome S T ε α} {counts : Bool} {e : ε}
    {b : PostgresBackend S T} {session session' : Session S T} {server : Server S T} (h : b.Live session)
    (hout : operation {} { session := session } b.store.server =
      (.error (.failed e), { session := session' }, server)) :
    b.run engine operation counts {} = (.error (.failed e),
      if b.inTransaction then b.put { session := session' } server
      else b.put { session := .idle } server) := by
  have hensure : b.ensureConnection (ε := ε) false true = (.ok { session := session }, b) := by
    simp [ensureConnection, h.closed, h.connection]
  unfold run
  rw [hensure]
  simp only [hout]
  have hsame : (b.put { session := session' } server).inTransaction = b.inTransaction := rfl
  cases hin : b.inTransaction <;> simp [DriverError.operational, rollbackOutsideTransaction, hsame, hin]

variable {engine : Engine S T (Answer R) ε} {statements : List S} {b : PostgresBackend S T}
  {session session' : Session S T} {server : Server S T}

theorem Live.statement_ok (h : b.Live session) {answers : List (Answer R)}
    (hout : session.runAll engine statements b.store.server = (.ok answers, session', server)) :
    b.statementCall engine statements {} = (.ok answers,
      (if b.inTransaction then b.put { session := session' } server
        else b.put { session := .idle } (session'.commit server)).counted true) := by
  unfold statementCall
  cases hin : b.inTransaction with
  | true =>
    refine h.run_ok ?_
    simp [operation, Connection.execute, hout, Except.mapError]
  | false =>
    refine h.run_ok ?_
    simp [operation, Connection.execute, Connection.commit, hout, Except.mapError]

theorem Live.statement_failed (h : b.Live session) {e : ε}
    (hout : session.runAll engine statements b.store.server = (.error e, session', server)) :
    b.statementCall engine statements {} = (.error (.failed e),
      if b.inTransaction then b.put { session := session' } server
      else b.put { session := .idle } server) := by
  unfold statementCall
  refine h.run_failed ?_
  simp [operation, Connection.execute, hout, Except.mapError]

end PostgresBackend

/-! ## What both backends keep -/

variable {db : Database S R ε} {s : Both S T} {c : Call S T}

/-- Outside the blocks both backends hold the same and nothing is open. In a block they hold the same
while no statement has failed, and what is durable is the same while the schema was not changed
early. -/
structure Agree (db : Database S R ε) (s : Both S T) : Prop where
  depth : s.postgres.transactionDepth = s.sqlite.transactionDepth
  outside : s.Outside → s.postgres.Live .idle ∧ s.sqlite.store.transaction = none ∧
    s.failed = false ∧ s.early = false
  inside : ∃ session, s.postgres.Live session ∧ (s.failed = false → ∃ ran setting,
    session = .active ran setting ∧ held db s.postgres.store.server ran = s.sqlite.store.held)
  durable : s.early = false → s.postgresDurable db = s.sqliteDurable

theorem held_nil (db : Database S R ε) (s : Both S T) :
    held db s.postgres.store.server [] = s.postgresDurable db := by
  unfold held Both.postgresDurable
  rw [List.append_nil]

theorem agree_init : Agree db ({} : Both S T) where
  depth := rfl
  outside _ := ⟨⟨rfl, rfl⟩, rfl, rfl, rfl⟩
  inside := ⟨.idle, ⟨rfl, rfl⟩, fun _ => ⟨[], none, rfl, rfl⟩⟩
  durable _ := rfl

theorem sqlite_call_statement (hc : c.isStatement = true) (hcovered : s.Covered db c) :
    s.sqlite.call db c = (((SqliteBackend.statementCall db c.statements s.sqlite).1.map fun _ => ()),
      (SqliteBackend.statementCall db c.statements s.sqlite).2) := by
  have hmap : ∀ {α β : Type} (f : α → β) (x : Except ε α),
      (x.map f).map (fun _ => ()) = x.map fun _ => () := by
    intro α β f x
    cases x <;> rfl
  cases c with
  | execute statement => simp [SqliteBackend.call, SqliteBackend.execute, Call.statements, hmap]
  | executemany rows =>
    have hall : rows.all (db.kind · = .change) = true := by simpa using hcovered.1
    simp [SqliteBackend.call, SqliteBackend.executemany, Call.statements, hmap, hall]
  | fetchall statement => simp [SqliteBackend.call, SqliteBackend.fetchall, Call.statements, hmap]
  | _ => exact absurd hc fun h => by cases h

/-- A call that ends outside the blocks, where both hold the same and nothing is open. -/
theorem Agree.rest {result : Except (DriverError ε) Unit} {result' : Except ε Unit}
    {postgres : PostgresBackend S T} {sqlite : SqliteBackend S T}
    (hpostgres : s.postgres.call db.engine {} c = (result, postgres))
    (hsqlite : s.sqlite.call db c = (result', sqlite)) (hdepth : postgres.transactionDepth = 0)
    (hdepth' : sqlite.transactionDepth = 0) (hlive : postgres.Live .idle)
    (htx : sqlite.store.transaction = none)
    (hheld : held db postgres.store.server [] = sqlite.store.log.flatten) :
    Agree db (s.perform db c) := by
  unfold Both.perform
  rw [hpostgres, hsqlite]
  simp only [if_pos hdepth']
  refine ⟨hdepth.trans hdepth'.symm, fun _ => ⟨hlive, htx, rfl, rfl⟩,
    ⟨.idle, hlive, fun _ => ⟨[], none, rfl, ?_⟩⟩, fun _ => ?_⟩
  · rw [hheld]
    simp [SqliteStore.held, htx]
  · rw [← held_nil]
    exact hheld

theorem Agree.open {result : Except (DriverError ε) Unit} {result' : Except ε Unit}
    {postgres : PostgresBackend S T} {sqlite : SqliteBackend S T} {session : Session S T}
    (hpostgres : s.postgres.call db.engine {} c = (result, postgres))
    (hsqlite : s.sqlite.call db c = (result', sqlite))
    (hdepth : postgres.transactionDepth = sqlite.transactionDepth) (hopen : sqlite.transactionDepth ≠ 0)
    (hlive : postgres.Live session)
    (hsession : s.failed = false → result.isOk = true → ∃ ran setting, session = .active ran setting ∧
      held db postgres.store.server ran = sqlite.store.held)
    (hdurable : s.early = false → s.changesEarly db c = false →
      held db postgres.store.server [] = sqlite.store.log.flatten) :
    Agree db (s.perform db c) := by
  unfold Both.perform
  rw [hpostgres, hsqlite]
  simp only [if_neg hopen]
  refine ⟨hdepth, fun hno => absurd hno hopen, ⟨session, hlive, fun hfailed => ?_⟩, fun hearly => ?_⟩
  · simp only [Bool.or_eq_false_iff, Bool.not_eq_false'] at hfailed
    exact hsession hfailed.1.1 hfailed.2
  · simp only [Bool.or_eq_false_iff] at hearly
    rw [← held_nil]
    exact hdurable hearly.1 hearly.2

theorem held_congr (db : Database S R ε) {server server' : Server S T} (ran : List (Ran S T))
    (h : server'.log = server.log) : held db server' ran = held db server ran := by
  unfold held
  rw [h]

theorem held_commit (db : Database S R ε) (server : Server S T) (ran : List (Ran S T))
    (setting : Option T) : held db ((Session.active ran setting).commit server) [] =
        held db server ran := by
  unfold held
  rw [PostgresBackend.flatten_commit, List.append_nil]

theorem Agree.outside_statement (h : Agree db s) (hdepth : s.sqlite.transactionDepth = 0) {statement : S}
    (hkind : db.kind statement ≠ .change) (hc : c.isStatement = true) (hcovered : s.Covered db c)
    (hstatements : c.statements = [statement]) : Agree db (s.perform db c) := by
  obtain ⟨hlive, htx, hfailed, hearly⟩ := h.outside hdepth
  have hin : s.postgres.inTransaction = false := by
    simp [SqlBackend.inTransaction, h.depth, hdepth]
  have hlog : held db s.postgres.store.server [] = s.sqlite.store.log.flatten := by
    rw [held_nil]
    exact h.durable hearly
  have hheld : held db s.postgres.store.server [] = s.sqlite.store.held := by
    rw [hlog]
    simp [SqliteStore.held, htx]
  have hsqlite := sqlite_call_statement hc hcovered
  have hpostgres := PostgresBackend.call_statement db.engine {} s.postgres hc
  rw [hstatements] at hsqlite hpostgres
  rw [if_neg (List.cons_ne_nil _ _)] at hpostgres
  obtain ⟨hnone, hsame⟩ := SqliteStore.run_durable db htx hkind
  obtain ⟨hresults, hafter⟩ := runAll_agrees db [statement] none hheld
  unfold SqliteBackend.statementCall at hsqlite
  rw [SqliteStore.runAll_singleton] at hsqlite hafter hresults
  rw [isOk_map] at hafter
  rcases hout : (Session.active [] none).runAll db.engine [statement] s.postgres.store.server with
    ⟨e | answers, session, server⟩
  · -- the statement fails on both
    have hserver : server.log = s.postgres.store.server.log := by
      have hruns := Session.runAll_runs db.engine [statement] (.active [] none) s.postgres.store.server
      rw [hout] at hruns
      exact hruns.log
    have herror : (s.sqlite.store.run db statement).1.isOk = false := by
      have hisOk := congrArg Except.isOk hresults
      rw [hout, isOk_map] at hisOk
      exact hisOk.symm
    rw [hlive.statement_failed hout, hin, if_neg Bool.false_ne_true] at hpostgres
    rw [hsame herror] at hsqlite
    exact .rest hpostgres hsqlite (h.depth.trans hdepth) hdepth hlive.put htx
      ((held_congr db [] hserver).trans hlog)
  · -- it is durable on both
    obtain ⟨rfl, hserver⟩ := Session.runAll_active hout
    have hok : (s.sqlite.store.run db statement).1.isOk = true := by
      have hisOk := congrArg Except.isOk hresults
      rw [hout, isOk_map] at hisOk
      exact hisOk.symm
    have hheld' := hafter hok
    rw [hlive.statement_ok hout, hin, if_neg Bool.false_ne_true] at hpostgres
    refine .rest hpostgres hsqlite ((PostgresBackend.counted_depth _ _).trans (h.depth.trans hdepth))
      hdepth
      (PostgresBackend.Live.counted hlive.put) hnone ?_
    rw [PostgresBackend.counted_store, PostgresBackend.put_server, held_commit, held_congr db _ hserver]
    exact hheld'.trans (by simp [SqliteStore.held, hnone])

theorem Agree.inside_statement (h : Agree db s) (hopen : s.sqlite.transactionDepth ≠ 0)
    (hfailed : s.failed = false) (hc : c.isStatement = true) (hcovered : s.Covered db c)
    (hne : c.statements ≠ []) : Agree db (s.perform db c) := by
  obtain ⟨session, hlive, hsession⟩ := h.inside
  obtain ⟨ran, setting, rfl, hheld⟩ := hsession hfailed
  have hin : s.postgres.inTransaction = true := by
    simpa [SqlBackend.inTransaction, h.depth] using Nat.pos_of_ne_zero hopen
  have hsqlite := sqlite_call_statement hc hcovered
  have hpostgres := PostgresBackend.call_statement db.engine {} s.postgres hc
  rw [if_neg hne] at hpostgres
  unfold SqliteBackend.statementCall at hsqlite
  obtain ⟨hresults, hafter⟩ := runAll_agrees db c.statements setting hheld
  have hlog : s.changesEarly db c = false →
      (s.sqlite.store.runAll db c.statements).2.log = s.sqlite.store.log := by
    intro hearly
    refine runAll_log db ?_
    unfold Both.changesEarly at hearly
    rcases Bool.and_eq_false_iff.mp hearly with hsome | hany
    · refine .inl fun hnone => ?_
      rw [hnone] at hsome
      exact absurd hsome fun h => by cases h
    · refine .inr fun statement hmem hkind => ?_
      rw [List.any_eq_false] at hany
      exact hany statement hmem (by simpa using hkind)
  have hdurable : ∀ {server : Server S T}, server.log = s.postgres.store.server.log →
      s.early = false → s.changesEarly db c = false →
      held db server [] = (s.sqlite.store.runAll db c.statements).2.log.flatten := by
    intro server hserver hearly hchanges
    rw [held_congr db [] hserver, held_nil, hlog hchanges]
    exact h.durable hearly
  rcases hout : (Session.active ran setting).runAll db.engine c.statements s.postgres.store.server with
    ⟨e | answers, session', server⟩
  · have hserver : server.log = s.postgres.store.server.log := by
      have hruns := Session.runAll_runs db.engine c.statements
        (.active ran setting) s.postgres.store.server
      rw [hout] at hruns
      exact hruns.log
    rw [hlive.statement_failed hout, hin, if_pos rfl] at hpostgres
    exact .open hpostgres hsqlite h.depth hopen hlive.put (fun _ hok => absurd hok (fun h => by cases h))
      (hdurable hserver)
  · obtain ⟨rfl, hserver⟩ := Session.runAll_active hout
    have hok : (s.sqlite.store.runAll db c.statements).1.isOk = true := by
      rw [← hresults, hout]
      rfl
    rw [hlive.statement_ok hout, hin, if_pos rfl] at hpostgres
    refine .open hpostgres hsqlite ((PostgresBackend.counted_depth _ _).trans h.depth) hopen
      (PostgresBackend.Live.counted hlive.put) (fun _ _ => ⟨_, _, rfl, ?_⟩) ?_
    · rw [PostgresBackend.counted_store, PostgresBackend.put_server, held_congr db _ hserver]
      exact hafter hok
    · rw [PostgresBackend.counted_store, PostgresBackend.put_server]
      exact hdurable hserver

theorem Agree.no_statement (h : Agree db s) (hc : c.isStatement = true) (hcovered : s.Covered db c)
    (hnil : c.statements = []) : Agree db (s.perform db c) := by
  have hsqlite := sqlite_call_statement hc hcovered
  have hpostgres := PostgresBackend.call_statement db.engine {} s.postgres hc
  rw [if_pos hnil] at hpostgres
  rw [hnil] at hsqlite
  by_cases hdepth : s.sqlite.transactionDepth = 0
  · obtain ⟨hlive, htx, -, hearly⟩ := h.outside hdepth
    refine .rest hpostgres hsqlite (h.depth.trans hdepth) hdepth hlive htx ?_
    rw [held_nil]
    exact h.durable hearly
  · obtain ⟨session, hlive, hsession⟩ := h.inside
    refine .open hpostgres hsqlite h.depth hdepth hlive (fun hfailed _ => hsession hfailed)
      fun hearly _ => ?_
    rw [held_nil]
    exact h.durable hearly

theorem Agree.statement (h : Agree db s) (hc : c.isStatement = true) (hcovered : s.Covered db c) :
    Agree db (s.perform db c) := by
  by_cases hnil : c.statements = []
  · exact h.no_statement hc hcovered hnil
  · by_cases hdepth : s.sqlite.transactionDepth = 0
    · cases c with
      | execute statement =>
          exact h.outside_statement hdepth (by simpa [Both.Covered, hdepth] using hcovered) hc hcovered
            rfl
      | fetchall statement =>
          exact h.outside_statement hdepth (by simpa [Both.Covered, hdepth] using hcovered) hc hcovered
            rfl
      | executemany rows =>
        have hrows : rows = [] := by simpa [hdepth] using hcovered.2
        exact absurd hrows hnil
      | _ => exact absurd hc fun h => by cases h
    · have hfailed : s.failed = false := by
        cases c with
        | execute statement => simpa [Both.Covered, hdepth] using hcovered
        | fetchall statement => simpa [Both.Covered, hdepth] using hcovered
        | executemany rows => simpa [hdepth] using hcovered.2
        | _ => exact absurd hc fun h => by cases h
      exact h.inside_statement hdepth hfailed hc hcovered hnil

theorem begun_frame {β : Type} (tenantId : Option T) (b : SqlBackend T β) :
    (b.begun tenantId).store = b.store ∧ (b.begun tenantId).transactionDepth =
    b.transactionDepth + 1 := by
  unfold SqlBackend.begun
  dsimp only
  split_ifs with h <;> exact ⟨rfl, rfl⟩

theorem enter_clear (db : Database S R ε) (tenantId : Option T) {b : PostgresBackend S T}
    {ran : List (Ran S T)}
    {setting : Option T} (h : b.Live (.active ran setting)) :
    ∃ (b' : PostgresBackend S T) (setting' : Option T),
      b.call db.engine {} (.enter tenantId) = (.ok (), b') ∧ b'.Live (.active ran setting') ∧
      b'.transactionDepth = b.transactionDepth + 1 ∧ b'.store.server = b.store.server := by
  obtain ⟨hstore, hdepth⟩ := begun_frame tenantId b
  have hlive : PostgresBackend.Live (b.begun tenantId) (.active ran setting) :=
    ⟨by rw [hstore]; exact h.closed, by rw [hstore]; exact h.connection⟩
  cases tenantId with
  | none => exact ⟨b.begun none, setting, rfl, hlive, hdepth, by rw [hstore]⟩
  | some t =>
    have hset : PostgresBackend.setTenant db.engine t {} (b.begun (some t)) = (.ok (),
        PostgresBackend.put (b.begun (some t)) { session := .active ran (some t) }
          (b.begun (some t)).store.server) := hlive.run_ok rfl
    refine ⟨_, some t, enter_of_setTenant hset, hlive.put, hdepth, ?_⟩
    show (b.begun (some t)).store.server = b.store.server
    rw [hstore]

theorem sqlite_enter (tenantId : Option T) (b : SqliteBackend S T) :
    b.call db (.enter tenantId) = (.ok (), b.begun tenantId) := by
  cases tenantId <;> rfl

theorem Agree.enter (h : Agree db s) (tenantId : Option T) (hfailed : s.failed = false) :
    Agree db (s.perform db (.enter tenantId)) := by
  obtain ⟨session, hlive, hsession⟩ := h.inside
  obtain ⟨ran, setting, rfl, hheld⟩ := hsession hfailed
  obtain ⟨b, setting', hpostgres, hlive', hdepth, hserver⟩ := enter_clear db tenantId hlive
  obtain ⟨hstore, hdepth'⟩ := begun_frame tenantId s.sqlite
  refine .open hpostgres (sqlite_enter tenantId s.sqlite) ?_ ?_ hlive'
    (fun _ _ => ⟨ran, setting', rfl, ?_⟩)
    fun hearly _ => ?_
  · rw [hdepth, hdepth', h.depth]
  · rw [hdepth']
    exact Nat.succ_ne_zero _
  · rw [hserver, hstore]
    exact hheld
  · rw [hserver, hstore, held_nil]
    exact h.durable hearly

theorem Agree.inner (h : Agree db s) (hopen : s.sqlite.transactionDepth ≠ 0)
    (hinner : s.sqlite.transactionDepth ≠ 1)
    (hpostgres : s.postgres.call db.engine {} c =
      (.ok (), { s.postgres with transactionDepth := s.postgres.transactionDepth - 1 }))
    (hsqlite : s.sqlite.call db c =
      (.ok (), { s.sqlite with transactionDepth := s.sqlite.transactionDepth - 1 })) :
    Agree db (s.perform db c) := by
  obtain ⟨session, hlive, hsession⟩ := h.inside
  have hlive' : PostgresBackend.Live
      { s.postgres with transactionDepth := s.postgres.transactionDepth - 1 } session :=
    ⟨hlive.closed, hlive.connection⟩
  refine .open hpostgres hsqlite (congrArg (· - 1) h.depth) ?_ hlive'
    (fun hfailed _ => hsession hfailed) fun hearly _ => (held_nil db s).trans (h.durable hearly)
  show s.sqlite.transactionDepth - 1 ≠ 0
  omega

theorem sqlite_commit_held {b : SqliteBackend S T} :
    (SqliteBackend.commit b).store.log.flatten = b.store.held ∧
      (SqliteBackend.commit b).store.transaction = none ∧
      (SqliteBackend.commit b).transactionDepth = b.transactionDepth := by
  unfold SqliteBackend.commit SqliteStore.held
  cases htx : b.store.transaction with
  | none => simp [htx]
  | some statements =>
    dsimp only
    split_ifs with hnil <;> simp [hnil]

theorem Agree.leave (h : Agree db s) (hopen : s.sqlite.transactionDepth ≠ 0)
    (hfailed : s.failed = false) : Agree db (s.perform db .leave) := by
  by_cases hdepth : s.sqlite.transactionDepth = 1
  · obtain ⟨session, hlive, hsession⟩ := h.inside
    obtain ⟨ran, setting, rfl, hheld⟩ := hsession hfailed
    have hcommit : PostgresBackend.commit db.engine {} s.postgres = (.ok (),
        (s.postgres.put { session := .idle }
          ((Session.active ran setting).commit s.postgres.store.server)).counted true) :=
              hlive.run_ok rfl
    have hpostgres : s.postgres.call db.engine {} .leave = (.ok (),
        { (s.postgres.put { session := .idle }
            ((Session.active ran setting).commit s.postgres.store.server)).counted true with
          transactionDepth := s.postgres.transactionDepth - 1 }) := by
      unfold PostgresBackend.call SqlBackend.leave
      rw [if_pos (h.depth.trans hdepth)]
      simp only [PostgresBackend.methods, hcommit, PostgresBackend.counted_depth, PostgresBackend.put]
    have hsqlite : s.sqlite.call db .leave = (.ok (),
        { SqliteBackend.commit s.sqlite with
          transactionDepth := (SqliteBackend.commit s.sqlite).transactionDepth - 1 }) := by
      unfold SqliteBackend.call SqlBackend.leave
      rw [if_pos hdepth]
      rfl
    obtain ⟨hlog, htx, hdepth'⟩ := sqlite_commit_held (b := s.sqlite)
    have hlive' : ((s.postgres.put { session := Session.idle }
        ((Session.active ran setting).commit s.postgres.store.server)).counted true).Live .idle :=
      PostgresBackend.Live.counted hlive.put
    refine .rest hpostgres hsqlite ?_ ?_ ⟨hlive'.closed, hlive'.connection⟩ htx ?_
    · simp [h.depth, hdepth]
    · simp [hdepth', hdepth]
    · refine Eq.trans ?_ (hheld.trans hlog.symm)
      simp only [PostgresBackend.counted_store, PostgresBackend.put_server]
      exact held_commit db _ ran setting
  · refine h.inner hopen hdepth ?_ ?_
    · unfold PostgresBackend.call SqlBackend.leave
      rw [if_neg (by rw [h.depth]; exact hdepth)]
    · unfold SqliteBackend.call SqlBackend.leave
      rw [if_neg hdepth]

theorem Agree.abandon (h : Agree db s) (hopen : s.sqlite.transactionDepth ≠ 0)
    (hearly : s.sqlite.transactionDepth = 1 → s.early = false) : Agree db (s.perform db .abandon) := by
  by_cases hdepth : s.sqlite.transactionDepth = 1
  · obtain ⟨session, hlive, -⟩ := h.inside
    have hrollback : s.postgres.rollback {} = s.postgres.put
      { session := .idle } s.postgres.store.server := by
      unfold PostgresBackend.rollback
      rw [hlive.connection]
      rfl
    have hpostgres : s.postgres.call db.engine {} .abandon = (.ok (),
        { s.postgres.put { session := .idle } s.postgres.store.server with
          transactionDepth := s.postgres.transactionDepth - 1 }) := by
      unfold PostgresBackend.call SqlBackend.abandon
      rw [if_pos (h.depth.trans hdepth)]
      simp only [PostgresBackend.methods, hrollback, PostgresBackend.put]
    have hsqlite : s.sqlite.call db .abandon = (.ok (),
        { SqliteBackend.rollback s.sqlite with
          transactionDepth := s.sqlite.transactionDepth - 1 }) := by
      unfold SqliteBackend.call SqlBackend.abandon
      rw [if_pos hdepth]
      rfl
    refine .rest hpostgres hsqlite ?_ ?_ ⟨hlive.closed, rfl⟩ rfl ?_
    · simp [h.depth, hdepth]
    · simp [hdepth]
    · exact (held_nil db s).trans (h.durable (hearly hdepth))
  · refine h.inner hopen hdepth ?_ ?_
    · unfold PostgresBackend.call SqlBackend.abandon
      rw [if_neg (by rw [h.depth]; exact hdepth)]
    · unfold SqliteBackend.call SqlBackend.abandon
      rw [if_neg hdepth]

theorem agree_keeps (db : Database S R ε) : (bothBackends (T := T) db).Keeps (Both.Covered db)
    (Agree db) := by
  intro s c t h hcovered hstep
  have hstep : (if (c.ends && s.sqlite.transactionDepth = 0 : Bool) then none else
    some (s.perform db c)) = some t := hstep
  split_ifs at hstep with hends
  obtain rfl := Option.some.inj hstep
  cases c with
  | execute statement => exact h.statement rfl hcovered
  | executemany rows => exact h.statement rfl hcovered
  | fetchall statement => exact h.statement rfl hcovered
  | enter tenantId => exact h.enter tenantId hcovered
  | leave => exact h.leave (by simpa [Call.ends] using hends) hcovered
  | abandon => exact h.abandon (by simpa [Call.ends] using hends) hcovered

/-! ## What is durable stays -/

theorem run_log_grows (db : Database S R ε) (statement : S) (store : SqliteStore S) :
    store.log <+: (store.run db statement).2.log := by
  have hlog := (SqliteStore.opened_log db statement store).1
  have hwrote : ∀ store' : SqliteStore S, store'.log <+: (store'.wrote statement).log := by
    intro store'
    unfold SqliteStore.wrote
    cases store'.transaction with
    | none => exact List.prefix_append _ _
    | some statements => exact List.prefix_rfl
  rcases store.run_cases db statement with ⟨e, -, hrun⟩ | ⟨answer, -, hrun⟩
  · rw [hrun, ← hlog]
  · rw [hrun, ← hlog]
    dsimp only
    split_ifs
    · exact hwrote _
    · exact List.prefix_rfl

theorem runAll_log_grows (db : Database S R ε) (statements : List S) (store : SqliteStore S) :
    store.log <+: (store.runAll db statements).2.log := by
  induction statements generalizing store with
  | nil => exact List.prefix_rfl
  | cons statement rest ih =>
    have hfirst := run_log_grows db statement store
    unfold SqliteStore.runAll
    rcases hout : store.run db statement with ⟨e | answer, store'⟩
    · rw [hout] at hfirst
      exact hfirst
    · rw [hout] at hfirst
      exact hfirst.trans (ih store')

theorem call_log_grows (db : Database S R ε) (b : SqliteBackend S T) (c : Call S T) :
    b.store.log <+: (b.call db c).2.store.log := by
  have hcommit : b.store.log <+: (SqliteBackend.commit b).store.log := by
    unfold SqliteBackend.commit
    cases b.store.transaction with
    | none => exact List.prefix_rfl
    | some statements => exact List.prefix_append _ _
  cases c with
  | execute statement => exact runAll_log_grows db _ _
  | fetchall statement => exact runAll_log_grows db _ _
  | executemany rows =>
    simp only [SqliteBackend.call, SqliteBackend.executemany]
    split_ifs
    · exact runAll_log_grows db _ _
    · exact List.prefix_rfl
  | enter tenantId =>
    rw [sqlite_enter, show (b.begun tenantId).store = _ from (begun_frame tenantId b).1]
  | leave =>
    simp only [SqliteBackend.call, SqlBackend.leave]
    split_ifs
    · exact hcommit
    · exact List.prefix_rfl
  | abandon =>
    simp only [SqliteBackend.call, SqlBackend.abandon]
    split_ifs
    · exact List.prefix_rfl
    · exact List.prefix_rfl

theorem durable_grows {t : Both S T} {cs : List (Call S T)}
    (h : (bothBackends db).Run (Both.Covered db) s cs t) :
        s.sqlite.store.log <+: t.sqlite.store.log := by
  induction h with
  | nil s => exact List.prefix_rfl
  | @cons s u t c cs _ hstep _ ih =>
    have hstep : (if (c.ends && s.sqlite.transactionDepth = 0 : Bool) then none else
      some (s.perform db c)) = some u := hstep
    split_ifs at hstep
    obtain rfl := Option.some.inj hstep
    exact (call_log_grows db s.sqlite c).trans ih

theorem run_held (db : Database S R ε) {statement : S} {store : SqliteStore S}
    (h : (store.run db statement).1.isOk = true) :
    (store.run db statement).2.held = store.held ++ if db.writes statement then [statement] else [] := by
  rcases store.run_cases db statement with ⟨e, -, hrun⟩ | ⟨answer, -, hrun⟩
  · rw [hrun] at h
    exact absurd h fun h => by cases h
  · rw [hrun]
    dsimp only
    split_ifs
    · rw [SqliteStore.wrote_held, SqliteStore.opened_held]
    · rw [SqliteStore.opened_held, List.append_nil]

theorem bare_durable (h : Agree db s) (houtside : s.Outside) {statement : S}
    (hcovered : s.Covered db (.execute statement))
    (hok : (s.sqlite.call db (.execute statement)).1.isOk = true) :
    (s.perform db (.execute statement)).sqliteDurable =
      s.sqliteDurable ++ if db.writes statement then [statement] else [] := by
  have hdepth : s.sqlite.transactionDepth = 0 := houtside
  have hkind : db.kind statement ≠ .change := by simpa [Both.Covered, hdepth] using hcovered
  have hcall := sqlite_call_statement (c := .execute statement) rfl hcovered
  have htx := (h.outside houtside).2.1
  obtain ⟨hnone, -⟩ := SqliteStore.run_durable db htx hkind
  unfold SqliteBackend.statementCall at hcall
  rw [show Call.statements (.execute statement : Call S T) = [statement] from rfl,
    SqliteStore.runAll_singleton] at hcall
  rw [hcall] at hok
  have hrun : (s.sqlite.store.run db statement).1.isOk = true := by simpa [isOk_map] using hok
  have hheld := run_held db hrun
  simp only [SqliteStore.held, hnone, htx, Option.getD_none, List.append_nil] at hheld
  unfold Both.perform Both.sqliteDurable
  rw [hcall]
  exact hheld

/-- A database whose statement `n` reads where `n` is 0, changes the schema where it is 1, and changes
rows otherwise. -/
def plainDatabase : Database ℕ ℕ String where
  kind
    | 0 => .query
    | 1 => .schema
    | _ => .change
  answer _ _ := .ok ⟨1, []⟩
  inFailedTransaction := "current transaction is aborted"
  notChange := "executemany() can only execute DML statements"

def bothAfter (calls : List (Call ℕ String)) : Both ℕ String :=
  calls.foldl (fun s c => s.perform plainDatabase c) {}

end GuruJi.Persistence
