import Mathlib.Tactic.Common

/-!
# Sessions of a transactional server

A `Server` is the list of its committed transactions, each with the statements that it applied, and
a `Session` is the transaction of one connection: a statement is answered from everything applied
before it (`Engine`), and nothing of a transaction is in the log before its commit. What a statement
does to the database is a function of what was applied before it, so the log says what the database
holds.

* `Session.runAll_runs`: a list of statements is applied as a whole, under the setting of its
  transaction, or the transaction has failed.
-/

namespace GuruJi.Lib

/-- A statement that a server ran, and the setting that its transaction had. -/
structure Ran (S T : Type) where
  statement : S
  setting : Option T
  deriving DecidableEq

/-- What a server answers a statement, from all that was applied before it. -/
structure Engine (S T V ε : Type) where
  answer : List (Ran S T) → Ran S T → Except ε V
  /-- What every statement of a failed transaction is answered. -/
  inFailedTransaction : ε

/-- The committed transactions, and every statement that was run, whatever became of it. -/
structure Server (S T : Type) where
  log : List (List (Ran S T)) := []
  trace : List (Ran S T) := []
  deriving DecidableEq

/-- The transaction of a connection; one in which a statement failed keeps nothing. -/
inductive Session (S T : Type) where
  | active (applied : List (Ran S T)) (setting : Option T)
  | failed
  deriving DecidableEq

namespace Session
variable {S T V ε : Type}

/-- A session that has done nothing since its last transaction ended. -/
def idle : Session S T := .active [] none

def applied : Session S T → List (Ran S T)
  | .active applied _ => applied
  | .failed => []

def setting : Session S T → Option T
  | .active _ setting => setting
  | .failed => none

@[simp] theorem applied_active (applied : List (Ran S T)) (setting : Option T) :
    (active applied setting).applied = applied := rfl
@[simp] theorem setting_active (applied : List (Ran S T)) (setting : Option T) :
    (active applied setting).setting = setting := rfl

/-- A setting that holds until the transaction ends. -/
def set (engine : Engine S T V ε) (setting : T) : Session S T → Except ε Unit × Session S T
  | .active applied _ => (.ok (), .active applied (some setting))
  | .failed => (.error engine.inFailedTransaction, .failed)

/-- Run a statement in the transaction, which fails with it. -/
def run (engine : Engine S T V ε) (statement : S) :
    Session S T → Server S T → Except ε V × Session S T × Server S T
  | .active applied setting, server =>
    match engine.answer (server.log.flatten ++ applied) ⟨statement, setting⟩ with
    | .ok v => (.ok v, .active (applied ++ [⟨statement, setting⟩]) setting,
        { server with trace := server.trace ++ [⟨statement, setting⟩] })
    | .error e => (.error e, .failed,
        { server with trace := server.trace ++ [⟨statement, setting⟩] })
  | .failed, server => (.error engine.inFailedTransaction, .failed, server)

/-- Run statements one after the other, up to the first that fails. -/
def runAll (engine : Engine S T V ε) : List S → Session S T → Server S T →
    Except ε (List V) × Session S T × Server S T
  | [], s, server => (.ok [], s, server)
  | statement :: rest, s, server =>
    match s.run engine statement server with
    | (.error e, s, server) => (.error e, s, server)
    | (.ok v, s, server) =>
        ((s.runAll engine rest server).1.map (v :: ·), (s.runAll engine rest server).2)

/-- Commit the transaction, if it applied anything. -/
def commit (s : Session S T) (server : Server S T) : Server S T :=
  if s.applied = [] then server else { server with log := server.log ++ [s.applied] }

@[simp] theorem commit_trace (s : Session S T) (server : Server S T) :
    (s.commit server).trace = server.trace := by
  unfold commit
  split_ifs <;> rfl

/-! ## What a list of statements does -/

/-- What becomes of a session that runs statements: the log stays, each statement runs under the
setting of the transaction, and they are all applied or the transaction has failed. -/
structure Runs (statements : List S) (s : Session S T) (server : Server S T)
    (out : Except ε (List V) × Session S T × Server S T) : Prop where
  log : out.2.2.log = server.log
  trace : ∃ new, out.2.2.trace = server.trace ++ new ∧ ∀ e ∈ new, s ≠ .failed ∧ e.setting = s.setting
  applied : ∀ vs, out.1 = .ok vs → vs.length = statements.length ∧
    out.2.1.applied = s.applied ++ statements.map (⟨·, s.setting⟩) ∧ out.2.1.setting = s.setting
  undone : ∀ e, out.1 = .error e → out.2.1 = .failed
  stays : ∀ vs, out.1 = .ok vs → s ≠ .failed → out.2.1 ≠ .failed

theorem Runs.cons {statement : S} {rest : List S} {applied : List (Ran S T)} {setting : Option T}
    {server : Server S T} {v : V} {result : Except ε (List V)} {after : Session S T × Server S T}
    (h : Runs rest (active (applied ++ [⟨statement, setting⟩]) setting)
      { server with trace := server.trace ++ [⟨statement, setting⟩] } (result, after)) :
    Runs (statement :: rest) (active applied setting) server (result.map (v :: ·), after) := by
  obtain ⟨new, htrace, hnew⟩ := h.trace
  refine ⟨h.log, ⟨⟨statement, setting⟩ :: new, by simpa using htrace, ?_⟩, fun vs hvs => ?_, fun e he =>
    ?_, fun vs hvs _ => ?_⟩
  · intro e he
    rcases List.mem_cons.mp he with rfl | he
    · exact ⟨nofun, rfl⟩
    · exact ⟨nofun, (hnew e he).2⟩
  · cases result with
    | error e => exact absurd hvs nofun
    | ok ws =>
      obtain rfl : v :: ws = vs := Except.ok.inj hvs
      obtain ⟨hlength, happlied, hsetting⟩ := h.applied ws rfl
      exact ⟨by simp [hlength], by simp [happlied], hsetting⟩
  · cases result with
    | error e' => exact h.undone e' rfl
    | ok ws => exact absurd he nofun
  · cases result with
    | error e => exact absurd hvs nofun
    | ok ws => exact h.stays ws rfl nofun

theorem runAll_runs (engine : Engine S T V ε) (statements : List S) (s : Session S T)
    (server : Server S T) : Runs statements s server (s.runAll engine statements server) := by
  induction statements generalizing s server with
  | nil =>
    refine ⟨rfl, ⟨[], by simp [runAll]⟩, fun vs hvs => ?_, nofun, fun _ _ h => h⟩
    obtain rfl := Except.ok.inj hvs
    simp [runAll]
  | cons statement rest ih =>
    cases s with
    | failed => exact ⟨rfl, ⟨[], by simp [runAll, run]⟩, nofun, fun _ _ => rfl, nofun⟩
    | active applied setting =>
      cases hanswer : engine.answer (server.log.flatten ++ applied) ⟨statement, setting⟩ with
      | error e =>
        have hout : (active applied setting).runAll engine (statement :: rest) server =
            (.error e, .failed, { server with trace := server.trace ++ [⟨statement, setting⟩] }) := by
          simp [runAll, run, hanswer]
        rw [hout]
        exact ⟨rfl, ⟨_, rfl, by simp⟩, nofun, fun _ _ => rfl, nofun⟩
      | ok v =>
        simp only [runAll, run, hanswer]
        exact (ih _ _).cons

theorem runAll_active {engine : Engine S T V ε} {statements : List S} {applied : List (Ran S T)}
    {setting : Option T} {server server' : Server S T} {s' : Session S T} {vs : List V}
    (h : (active applied setting).runAll engine statements server = (.ok vs, s', server')) :
    s' = .active (applied ++ statements.map (⟨·, setting⟩)) setting ∧ server'.log = server.log := by
  have hruns := runAll_runs engine statements (.active applied setting) server
  rw [h] at hruns
  obtain ⟨-, happlied, hsetting⟩ := hruns.applied vs rfl
  refine ⟨?_, hruns.log⟩
  cases s' with
  | failed => exact absurd rfl (hruns.stays vs rfl nofun)
  | active applied' setting' =>
    obtain rfl : applied' = _ := happlied
    obtain rfl : setting' = setting := hsetting
    rfl

end Session

end GuruJi.Lib
