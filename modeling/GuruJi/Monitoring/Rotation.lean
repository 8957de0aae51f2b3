import GuruJi.Lib.Machine
import GuruJi.Monitoring.Queries
import Mathlib.Data.Nat.Find

/-!
# Turns of monitoring queries

A monitoring run is numbered by the runs that are stored: it asks what takes turns by the count it read
before it started. Runs of an institution exclude each other; the count is read before that. Retention
deletes old runs, and what is counted.

* `numbered_step`: what keeps the numbers of runs consecutive;
* **`queries_in_turn`**: over every history in which no pass deletes a run and no run starts on an
  outdated count, as many runs as there are topics, or names and keywords, ask each of these;
* `no_turns`: a history in which every run is numbered zero.
-/

namespace GuruJi.Monitoring

open GuruJi.Lib

inductive RunStatus where
  | running | abandoned | succeeded | failed
  deriving DecidableEq

/-- A row of `monitoring_runs`, of one institution; times are microseconds. -/
structure RunRow where
  runId : Nat
  startedAt : Int
  status : RunStatus
  deriving DecidableEq

/-- A run that has started: its rotation, and the year of its queries. -/
structure Started where
  rotation : Nat
  year : Nat
  deriving DecidableEq

/-- The runs that are stored, the counts that callers have read and not used, and the runs started so
far. -/
structure RunWorld where
  runs : List RunRow
  counted : Nat → Option Nat
  log : List Started

inductive RunAction where
  /-- `run_for` reads `run_count`. -/
  | count (caller : Nat)
  /-- `run_for` asks for a run by `try_start_run`, and collects by its count where it gets one. -/
  | start (caller runId : Nat) (now lockSeconds : Int) (year : Nat)
  | finish (runId : Nat) (status : RunStatus)
  /-- `prune_retention`. -/
  | prune (days : Nat) (now : Int)

def seconds (n : Int) : Int := n * 1000000

/-- Runs that lost their process are closed before another one starts. -/
def abandonStale (runs : List RunRow) (now lockSeconds : Int) : List RunRow :=
  runs.map fun run =>
    if run.status = .running ∧ run.startedAt < now - seconds lockSeconds then
      { run with status := .abandoned }
    else run

def inProgress (runs : List RunRow) : Bool := runs.any (·.status = .running)

def retained (days : Nat) (now : Int) (run : RunRow) : Bool :=
  now - seconds (days * 86400) ≤ run.startedAt

def RunWorld.step (w : RunWorld) : RunAction → Option RunWorld
  | .count caller => some { w with counted := Function.update w.counted caller (some w.runs.length) }
  | .start caller runId now lockSeconds year =>
    (w.counted caller).map fun rotation =>
      let runs := abandonStale w.runs now lockSeconds
      let counted := Function.update w.counted caller none
      if inProgress runs then { w with runs, counted }
      else
        { runs := runs ++ [⟨runId, now, .running⟩]
          counted
          log := w.log ++ [⟨rotation, year⟩] }
  | .finish runId status =>
    some { w with runs := w.runs.map fun run => if run.runId = runId then { run with status } else run }
  | .prune days now =>
    if days < 1 then none else some { w with runs := w.runs.filter (retained days now) }

/-- The monitoring of an institution, with any runs stored. -/
def monitoring : Machine RunWorld RunAction where
  init w := w.log = []
  step := RunWorld.step

/-- No pass deletes a run, and no run starts on a count that is outdated. -/
def Counting (w : RunWorld) : RunAction → Prop
  | .start caller _ now lockSeconds _ =>
    inProgress (abandonStale w.runs now lockSeconds) = false → w.counted caller = some w.runs.length
  | .prune days now => ∀ run ∈ w.runs, retained days now run = true
  | _ => True

/-! ## Numbers of runs -/

/-- The runs started so far are numbered from `first` on, and the next number is the count. -/
def Numbered (first : Nat) (w : RunWorld) : Prop :=
  w.log.map (·.rotation) = List.range' first w.log.length ∧ w.runs.length = first + w.log.length

theorem numbered_step {first : Nat} {w w' : RunWorld} {a : RunAction} (h : Numbered first w)
    (hok : Counting w a) (hstep : w.step a = some w') : Numbered first w' := by
  obtain ⟨hlog, hcount⟩ := h
  cases a with
  | count caller =>
    obtain rfl := Option.some.inj hstep
    exact ⟨hlog, hcount⟩
  | start caller runId now lockSeconds year =>
    obtain ⟨rotation, hrotation, rfl⟩ := Option.map_eq_some_iff.mp hstep
    have hlength : (abandonStale w.runs now lockSeconds).length = w.runs.length := List.length_map _
    dsimp only
    cases hprogress : inProgress (abandonStale w.runs now lockSeconds) with
    | true => exact ⟨hlog, hlength.trans hcount⟩
    | false =>
      have hfresh : rotation = w.runs.length :=
        Option.some.inj (hrotation.symm.trans (hok hprogress))
      rw [if_neg Bool.false_ne_true]
      refine ⟨?_, ?_⟩
      · rw [List.map_append, hlog, List.length_append, List.length_singleton, List.range'_concat,
          Nat.one_mul, ← hcount, ← hfresh]
        rfl
      · rw [List.length_append, List.length_append, hlength, hcount, Nat.add_assoc]
        rfl
  | finish runId status =>
    obtain rfl := Option.some.inj hstep
    exact ⟨hlog, (List.length_map _).trans hcount⟩
  | prune days now =>
    rw [RunWorld.step] at hstep
    split_ifs at hstep
    obtain rfl := Option.some.inj hstep
    refine ⟨hlog, ?_⟩
    rw [List.filter_eq_self.mpr hok]
    exact hcount

theorem exists_started {first : Nat} {w : RunWorld} (h : Numbered first w)
    {before block after : List Started}
    (hblock : w.log = before ++ block ++ after) {k : Nat} (hk : k < block.length) :
    ∃ run ∈ block, run.rotation = first + before.length + k := by
  refine ⟨block[k], List.getElem_mem hk, ?_⟩
  have hplace : before.length + k < (w.log.map (·.rotation)).length := by
    rw [hblock, List.length_map, List.length_append, List.length_append]
    omega
  have hget : (w.log.map (·.rotation))[before.length + k]? = some block[k].rotation := by
    rw [hblock, List.getElem?_map, List.append_assoc, List.getElem?_append_right (Nat.le_add_right _ _),
      Nat.add_sub_cancel_left, List.getElem?_append_left hk, List.getElem?_eq_getElem hk]
    rfl
  rw [List.length_map] at hplace
  rw [h.1, List.getElem?_range' hplace] at hget
  have hvalue := Option.some.inj hget
  omega

/-! ## Every query in its turn -/

def turnBound (env : QueryEnv) (profile : InstitutionProfile) : Nat :=
  max defaultTopics.length (identityQueries env profile).length

def Started.queries (env : QueryEnv) (profile : InstitutionProfile) (maxQueries : Nat) (run : Started) :
    List String :=
  generateQueries env profile none (some defaultTopics) maxQueries run.rotation run.year

/-- **Every topic, name and keyword has its turn**: over every history in which no pass deletes a run and
no run starts on an outdated count, `turnBound` successive runs ask each of them. -/
theorem queries_in_turn (env : QueryEnv) (profile : InstitutionProfile) {maxQueries : Nat}
    (hqueries : 2 ≤ maxQueries) {w : RunWorld} (hreach : monitoring.Reaches Counting w)
    {before block after : List Started} (hlog : w.log = before ++ block ++ after)
    (hlength : turnBound env profile ≤ block.length) :
    (∀ topic ∈ defaultTopics, ∃ run ∈ block,
        Occurs env (run.queries env profile maxQueries) (topicQuery profile run.year topic)) ∧
      (∀ name ∈ turnAliases profile, ∃ run ∈ block,
        Occurs env (run.queries env profile maxQueries) (aliasQuery profile name)) ∧
      ∀ keyword ∈ turnKeywords profile, ∃ run ∈ block,
        Occurs env (run.queries env profile maxQueries) (keywordQuery profile keyword) := by
  obtain ⟨s, as, hinit, hrun⟩ := hreach
  have hnumbered : Numbered s.runs.length w := by
    refine hrun.invariant (fun s a t hs hok hstep => numbered_step hs hok hstep) ?_
    rw [Numbered, show s.log = [] from hinit]
    exact ⟨rfl, rfl⟩
  have hidentity : ∀ query ∈ identityQueries env profile, ∃ run ∈ block,
      Occurs env (run.queries env profile maxQueries) query := by
    intro query hquery
    obtain ⟨k, hk, hturn⟩ := identity_in_turn hqueries hquery (s.runs.length + before.length)
    have hk' : k < block.length := hk.trans_le ((le_max_right _ _).trans hlength)
    obtain ⟨run, hrun, hrotation⟩ := exists_started hnumbered hlog hk'
    refine ⟨run, hrun, ?_⟩
    rw [Started.queries, hrotation]
    exact hturn run.year
  refine ⟨fun topic htopic => ?_, fun name hname => hidentity _ ?_, fun keyword hkeyword =>
    hidentity _ ?_⟩
  · obtain ⟨k, hk, hturn⟩ := topic_in_turn hqueries htopic (s.runs.length + before.length)
    have hk' : k < block.length := hk.trans_le ((le_max_left _ _).trans hlength)
    obtain ⟨run, hrun, hrotation⟩ := exists_started hnumbered hlog hk'
    refine ⟨run, hrun, ?_⟩
    rw [Started.queries, hrotation]
    exact hturn run.year
  · exact List.mem_append_left _ (List.mem_cons_of_mem _ (List.mem_map_of_mem hname))
  · exact List.mem_append_right _ (List.mem_map_of_mem hkeyword)

/-! ## Runs that are deleted -/

instance (w : RunWorld) : ∀ a, Decidable (Counting w a)
  | .count _ => inferInstanceAs (Decidable True)
  | .finish _ _ => inferInstanceAs (Decidable True)
  | .start caller _ now lockSeconds _ => inferInstanceAs (Decidable
      (inProgress (abandonStale w.runs now lockSeconds) = false → w.counted caller = some w.runs.length))
  | .prune days now => inferInstanceAs (Decidable (∀ run ∈ w.runs, retained days now run = true))

instance (env : QueryEnv) (queries : List String) (query : String) :
    Decidable (Occurs env queries query) :=
  inferInstanceAs (Decidable (∃ asked ∈ queries, env.lower asked = env.lower (env.cleaned query)))

def asciiQueries : QueryEnv where
  lower := String.toLower
  isSpace := Char.isWhitespace
  terms _ := []
  lower_topic := by decide +kernel
  quote_not_space := by decide

def plainProfile : InstitutionProfile where
  name := "BGSCET"
  location := ""
  aliases := []
  programs := []
  keywords := []
  named := by decide

/-- Nine runs one after the other, with nothing deleted. -/
def nineRuns : List RunAction :=
  (List.range 9).flatMap fun i => [.count 0, .start 0 i 0 1800 2026, .finish i .succeeded]

/-- They ask for every topic. -/
theorem queries_in_turn_plain : ∃ w, monitoring.Reaches Counting w ∧
    ∀ topic ∈ defaultTopics, ∃ run ∈ w.log,
      Occurs asciiQueries (run.queries asciiQueries plainProfile 2)
        (topicQuery plainProfile run.year topic) := by
  obtain ⟨w, hreach, hlength⟩ := Machine.reaches_of_exec monitoring Counting nineRuns
    (fun w : RunWorld => decide (w.log.length = 9)) (s := ⟨[], fun _ => none, []⟩) rfl
        (by decide)
  have hbound : turnBound asciiQueries plainProfile ≤ w.log.length := by
    rw [of_decide_eq_true hlength]
    decide
  have hlog : w.log = [] ++ w.log ++ [] := (List.append_nil _).symm
  exact ⟨w, hreach, (queries_in_turn asciiQueries plainProfile le_rfl hreach hlog hbound).1⟩

def forgotten (n : Nat) : RunWorld := ⟨[], fun _ => none, List.replicate n ⟨0, 2026⟩⟩

/-- A run, and two days later a pass that keeps one day. -/
def runAndPrune : List RunAction :=
  [.count 0, .start 0 1 0 1800 2026, .finish 1 .succeeded, .prune 1 (seconds 172800)]

theorem forgotten_succ (n : Nat) : monitoring.Run Machine.Always (forgotten n) runAndPrune
    (forgotten (n + 1)) := by
  have hcounted : Function.update (Function.update (fun _ : Nat => (none : Option Nat)) 0 (some 0)) 0
      none = fun _ => none := by
    rw [Function.update_idem]
    exact Function.update_eq_self 0 _
  have hpruned : [(⟨1, 0, .succeeded⟩ : RunRow)].filter (retained 1 (seconds 172800)) = [] := by decide
  have hstep : some (⟨[(⟨1, 0, .succeeded⟩ : RunRow)].filter (retained 1 (seconds 172800)),
      Function.update (Function.update (fun _ : Nat => (none : Option Nat)) 0 (some 0)) 0 none,
      List.replicate n ⟨0, 2026⟩ ++ [⟨0, 2026⟩]⟩ : RunWorld) = some (forgotten (n + 1)) := by
    rw [hpruned, hcounted, forgotten, List.replicate_succ']
  exact .cons trivial rfl (.cons trivial rfl (.cons trivial rfl (.cons trivial hstep (.nil _))))

theorem reaches_forgotten (n : Nat) : monitoring.Reaches Machine.Always (forgotten n) := by
  induction n with
  | zero => exact ⟨forgotten 0, [], rfl, .nil _⟩
  | succ n ih => exact ih.run (forgotten_succ n)

/-- With one of two queries for a topic, runs that are all numbered zero ask for news only. -/
theorem no_turns : ¬ ∃ bound, ∀ w, monitoring.Reaches Machine.Always w →
    ∀ before block after, w.log = before ++ block ++ after → bound ≤ block.length →
      ∀ topic ∈ defaultTopics, ∃ run ∈ block,
        Occurs asciiQueries (run.queries asciiQueries plainProfile 2)
          (topicQuery plainProfile run.year topic) := by
  rintro ⟨bound, h⟩
  have hfaculty : "faculty" ∈ defaultTopics := by decide
  obtain ⟨run, hrun, hoccurs⟩ := h _ (reaches_forgotten bound) [] (List.replicate bound ⟨0, 2026⟩) []
    (List.append_nil _).symm (List.length_replicate.ge) "faculty" hfaculty
  obtain rfl := List.eq_of_mem_replicate hrun
  exact absurd hoccurs (by decide +kernel)

end GuruJi.Monitoring
