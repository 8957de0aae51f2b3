import GuruJi.Agents.Master
import Mathlib.Data.List.Basic

/-!
# The steps of a run

What one step of `execute` does, the calls of a run in the order of the plan (`callsFrom`), and
what a run knows of its results before it stops to ask for a confirmation (`Recorded`).
-/

namespace GuruJi.Agents

open GuruJi.Lib

variable {env : Environment}

/-! ## One step -/

def Blocked (step : PlanStep) (s : RunState) : Prop := ∃ d ∈ step.dependsOn, d ∈ s.failed

variable {s : RunState} {step : PlanStep} {confirmed : Option Approval}

theorem blocked_iff : step.dependsOn.any (s.failed.contains ·) = true ↔ Blocked step s := by
  simp [Blocked]

theorem executeStep_of_blocked
    (h : Blocked step s) : executeStep env confirmed step s = (s.skip step.stepId, false) := by
  rw [executeStep, if_pos (blocked_iff.mpr h)]

theorem executeStep_of_not_blocked (h : ¬ Blocked step s) : executeStep env confirmed step s =
      match resolveArguments env.digit step.arguments step.bindings s.completed with
      | .error reason => (s.unresolved step reason, false)
      | .ok arguments => (s.ran step (env.agentRun confirmed step arguments),
          (env.agentRun confirmed step arguments).1.status == .approvalRequired) := by
  refine (if_neg (mt blocked_iff.mp h)).trans ?_
  cases resolveArguments env.digit step.arguments step.bindings s.completed <;> rfl

def outcomeResult (step : PlanStep) : Outcome → StepResult
  | .output data summary => ⟨step.stepId, step.tool, .success, summary, data, none, none⟩
  | .raised refusal =>
    ⟨step.stepId, step.tool, refusal.status, refusal.reason, .null, some refusal.reason, none⟩

theorem outcomeResult_status (step : PlanStep) (outcome : Outcome) :
    (outcomeResult step outcome).status ≠ .approvalRequired := by
  cases outcome with
  | output data summary => simp [outcomeResult]
  | raised refusal => exact refusal.refused.2

theorem agentRun_cases (env : Environment) (confirmed : Option Approval) (step : PlanStep)
    (arguments : Dict) :
    (∃ refusal, env.check step.tool arguments = .error refusal ∧
      env.agentRun confirmed step arguments =
        (outcomeResult step (.raised refusal), none)) ∨
    ∃ validated, env.check step.tool arguments = .ok validated ∧
      ((env.highRisk step.tool = true ∧ env.usable confirmed step.tool validated = false ∧
        ∃ result, env.agentRun confirmed step arguments = (result, none) ∧
          result.stepId = step.stepId ∧ result.status = .approvalRequired ∧
          result.approval = some (env.requestApproval step.tool validated)) ∨
      ((env.highRisk step.tool = false ∨ env.usable confirmed step.tool validated = true) ∧
        env.agentRun confirmed step arguments =
          (outcomeResult step (env.handler step.stepId step.tool validated),
            some ⟨step.stepId, step.tool, validated⟩))) := by
  simp only [Environment.agentRun]
  cases hc : env.check step.tool arguments with
  | error refusal => exact .inl ⟨refusal, rfl, rfl⟩
  | ok validated =>
    refine .inr ⟨validated, rfl, ?_⟩
    by_cases hrisk : env.highRisk step.tool && !env.usable confirmed step.tool validated
    · simp only [hrisk, if_true]
      simp only [Bool.and_eq_true, Bool.not_eq_true'] at hrisk
      exact .inl ⟨hrisk.1, hrisk.2, _, rfl, rfl, rfl, rfl⟩
    · right
      refine ⟨?_, ?_⟩
      · cases hh : env.highRisk step.tool <;> simp_all
      · simp only [hrisk]
        cases env.handler step.stepId step.tool validated <;> rfl

theorem agentRun_stepId (confirmed : Option Approval) (step : PlanStep) (arguments : Dict) :
    (env.agentRun confirmed step arguments).1.stepId = step.stepId := by
  rcases agentRun_cases env confirmed step arguments with ⟨r, -, h⟩ |
    ⟨v, -, ⟨-, -, result, h, hid, -⟩ | ⟨-, h⟩⟩
  · rw [h]
    rfl
  · rw [h]
    exact hid
  · rw [h]
    cases env.handler step.stepId step.tool v <;> rfl

/-- A step that is not high-risk does not look at the confirmation, and never asks for one. -/
theorem agentRun_lowRisk (hlow : env.highRisk step.tool = false)
    (confirmed confirmed' : Option Approval) (arguments : Dict) :
    env.agentRun confirmed step arguments = env.agentRun confirmed' step arguments ∧
      (env.agentRun confirmed step arguments).1.status ≠ .approvalRequired := by
  refine ⟨by simp [Environment.agentRun, hlow], ?_⟩
  rcases agentRun_cases env confirmed step arguments with ⟨r, -, h⟩ |
    ⟨v, -, ⟨hrisk, -⟩ | ⟨-, h⟩⟩
  · rw [h]
    exact outcomeResult_status _ _
  · simp [hlow] at hrisk
  · rw [h]
    exact outcomeResult_status _ _

theorem executeStep_lowRisk (hlow : env.highRisk step.tool = false)
    (confirmed confirmed' : Option Approval) (s : RunState) :
    executeStep env confirmed step s = executeStep env confirmed' step s ∧
      (executeStep env confirmed step s).2 = false := by
  by_cases hb : Blocked step s
  · rw [executeStep_of_blocked hb, executeStep_of_blocked hb]
    exact ⟨rfl, rfl⟩
  · rw [executeStep_of_not_blocked hb, executeStep_of_not_blocked hb]
    cases resolveArguments env.digit step.arguments step.bindings s.completed with
    | error reason => exact ⟨rfl, rfl⟩
    | ok arguments =>
      obtain ⟨heq, hne⟩ := agentRun_lowRisk hlow confirmed confirmed' arguments
      exact ⟨by simp only [heq], by simpa using hne⟩

/-! ## The calls of a run -/

def stepCalls (env : Environment) (confirmed : Option Approval) (step : PlanStep) (s : RunState) :
    List Call :=
  if step.dependsOn.any (s.failed.contains ·) then []
  else
    match resolveArguments env.digit step.arguments step.bindings s.completed with
    | .error _ => []
    | .ok arguments => (env.agentRun confirmed step arguments).2.toList

def callsFrom (env : Environment) (confirmed : Option Approval) : List PlanStep → RunState → List Call
  | [], _ => []
  | step :: steps, s =>
    let next := executeStep env confirmed step s
    stepCalls env confirmed step s ++ if next.2 then [] else callsFrom env confirmed steps next.1

theorem executed_executeStep (confirmed : Option Approval) (step : PlanStep) (s : RunState) :
    (executeStep env confirmed step s).1.executed = s.executed ++ stepCalls env confirmed step s := by
  rw [executeStep, stepCalls]
  split_ifs
  · simp [RunState.skip]
  · cases resolveArguments env.digit step.arguments step.bindings s.completed with
    | error reason => simp [RunState.unresolved]
    | ok arguments => rfl

theorem executed_executeFrom (confirmed : Option Approval) (steps : List PlanStep) (s : RunState) :
    (executeFrom env confirmed steps s).executed = s.executed ++ callsFrom env confirmed steps s := by
  induction steps generalizing s with
  | nil => simp [executeFrom, callsFrom]
  | cons step steps ih =>
    simp only [executeFrom, callsFrom]
    split_ifs
    · rw [executed_executeStep, List.append_nil]
    · rw [ih, executed_executeStep, List.append_assoc]

theorem stepCalls_ids (env : Environment) (confirmed : Option Approval) (step : PlanStep)
    (s : RunState) :
    ((stepCalls env confirmed step s).map (·.stepId)).Sublist [step.stepId] := by
  rw [stepCalls]
  split_ifs
  · simp
  · cases resolveArguments env.digit step.arguments step.bindings s.completed with
    | error reason => simp
    | ok arguments =>
      rcases agentRun_cases env confirmed step arguments with ⟨r, -, h⟩ |
        ⟨v, -, ⟨-, -, result, h, -⟩ | ⟨-, h⟩⟩ <;> simp [h]

theorem callsFrom_ids (env : Environment) (confirmed : Option Approval) (steps : List PlanStep)
    (s : RunState) :
    ((callsFrom env confirmed steps s).map (·.stepId)).Sublist (steps.map (·.stepId)) := by
  induction steps generalizing s with
  | nil => exact List.Sublist.refl _
  | cons step steps ih =>
    have hrest : ((if (executeStep env confirmed step s).2 then []
        else callsFrom env confirmed steps (executeStep env confirmed step s).1).map
          (·.stepId)).Sublist (steps.map (·.stepId)) := by
      split_ifs
      · exact List.nil_sublist _
      · exact ih _
    simpa only [callsFrom, List.map_append, List.map_cons, List.singleton_append] using
      (stepCalls_ids env confirmed step s).append hrest

theorem mem_ids_of_callsFrom {env : Environment}
    {steps : List PlanStep} {call : Call} {calls : List Call}
    (h : callsFrom env confirmed steps s = call :: calls) :
    call.stepId ∈ steps.map (·.stepId) := by
  refine (callsFrom_ids env confirmed steps s).subset ?_
  rw [h]
  exact List.mem_cons_self

theorem executeStep_congr (confirmed : Option Approval) (step : PlanStep) {s t : RunState}
    (hc : s.completed = t.completed) (hf : s.failed = t.failed) :
    (executeStep env confirmed step s).2 = (executeStep env confirmed step t).2 ∧
      (executeStep env confirmed step s).1.completed = (executeStep env confirmed step t).1.completed ∧
      (executeStep env confirmed step s).1.failed = (executeStep env confirmed step t).1.failed := by
  simp only [executeStep, hc, hf]
  split_ifs
  · exact ⟨rfl, hc, by simp only [RunState.skip, hf]⟩
  · cases resolveArguments env.digit step.arguments step.bindings t.completed with
    | error reason => exact ⟨rfl, hc, by simp only [RunState.unresolved, hf]⟩
    | ok arguments => exact ⟨rfl, by simp only [RunState.ran, hc], by simp only [RunState.ran, hf]⟩

theorem stepCalls_of_blocked (h : Blocked step s) : stepCalls env confirmed step s = [] := by
  rw [stepCalls, if_pos (blocked_iff.mpr h)]

theorem stepCalls_of_not_blocked (h : ¬ Blocked step s) : stepCalls env confirmed step s =
      match resolveArguments env.digit step.arguments step.bindings s.completed with
      | .error _ => []
      | .ok arguments => (env.agentRun confirmed step arguments).2.toList := by
  rw [stepCalls, if_neg (mt blocked_iff.mp h)]

theorem callsFrom_cons {steps : List PlanStep} (h : (executeStep env confirmed step s).2 = false) :
    callsFrom env confirmed (step :: steps) s =
      stepCalls env confirmed step s ++ callsFrom env confirmed steps
        (executeStep env confirmed step s).1 := by
  simp only [callsFrom, h, Bool.false_eq_true, if_false]

/-! ## The run up to the pause -/

/-- Steps that are not high-risk, one after another. -/
def runLowRisk (env : Environment) : List PlanStep → RunState → RunState
  | [], s => s
  | step :: steps, s => runLowRisk env steps (executeStep env none step s).1

theorem executeFrom_append {earlier : List PlanStep}
    (hlow : ∀ step ∈ earlier, env.highRisk step.tool = false) (confirmed : Option Approval)
    (rest : List PlanStep) (s : RunState) : executeFrom env confirmed (earlier ++ rest) s =
      executeFrom env confirmed rest (runLowRisk env earlier s) := by
  induction earlier generalizing s with
  | nil => rfl
  | cons step earlier ih =>
    obtain ⟨heq, hflag⟩ := executeStep_lowRisk (hlow step List.mem_cons_self) confirmed none s
    simp only [List.cons_append, executeFrom, hflag, runLowRisk, ← heq]
    exact ih (fun x hx => hlow x (List.mem_cons_of_mem _ hx)) _

theorem failed_runLowRisk (earlier : List PlanStep) (s : RunState) :
    ∀ d ∈ (runLowRisk env earlier s).failed, d ∈ s.failed ∨ d ∈ earlier.map (·.stepId) := by
  induction earlier generalizing s with
  | nil => exact fun d hd => .inl hd
  | cons step earlier ih =>
    intro d hd
    have hone : d ∈ (executeStep env none step s).1.failed → d ∈ s.failed ∨ d = step.stepId := by
      intro hd
      simp only [executeStep] at hd
      split_ifs at hd
      · simpa [RunState.skip] using hd
      · cases hr : resolveArguments env.digit step.arguments step.bindings s.completed with
        | error reason => simpa [hr, RunState.unresolved] using hd
        | ok arguments =>
          simp only [hr, RunState.ran] at hd
          split_ifs at hd
          · exact .inl hd
          · simpa using hd
    rcases ih _ d hd with hd | hd
    · rcases hone hd with hd | rfl
      · exact .inl hd
      · exact .inr List.mem_cons_self
    · exact .inr (List.mem_cons_of_mem _ hd)

def collect (outputs : Dict) (results : List StepResult) : Dict :=
  results.foldl (fun outputs r => if r.ok then outputs.assign r.stepId r.output else outputs) outputs

/-- What a run from the start knows of its results: nobody was asked for a confirmation yet, and
the completed outputs are those of the successful steps. -/
structure Recorded (s : RunState) : Prop where
  unasked : ∀ r ∈ s.results, r.status ≠ .approvalRequired
  completed : s.completed = collect [] s.results

theorem Recorded.start : Recorded (.start []) := ⟨by simp [RunState.start], rfl⟩

theorem Recorded.executeStep (h : Recorded s) (hflag : (executeStep env confirmed step s).2 = false) :
    Recorded (executeStep env confirmed step s).1 := by
  by_cases hb : Blocked step s
  · rw [executeStep_of_blocked hb]
    exact ⟨h.unasked, h.completed⟩
  · rw [executeStep_of_not_blocked hb] at hflag ⊢
    cases hr : resolveArguments env.digit step.arguments step.bindings s.completed with
    | error reason =>
      refine ⟨fun r hr => ?_, by simp [RunState.unresolved, collect, StepResult.ok, h.completed]⟩
      rcases List.mem_append.mp hr with hr | hr
      · exact h.unasked r hr
      · obtain rfl := List.mem_singleton.mp hr
        simp
    | ok arguments =>
      simp only [hr] at hflag ⊢
      refine ⟨fun r hr => ?_, ?_⟩
      · rcases List.mem_append.mp hr with hr | hr
        · exact h.unasked r hr
        · obtain rfl := List.mem_singleton.mp hr
          simpa using hflag
      · have hcompleted := h.completed
        simp only [collect] at hcompleted
        simp only [RunState.ran, collect, List.foldl_append, List.foldl_cons, List.foldl_nil,
          ← hcompleted, agentRun_stepId]

theorem Recorded.runLowRisk {earlier : List PlanStep}
    (hlow : ∀ step ∈ earlier, env.highRisk step.tool = false) (h : Recorded s) :
    Recorded (runLowRisk env earlier s) := by
  induction earlier generalizing s with
  | nil => exact h
  | cons step earlier ih =>
    have hflag := (executeStep_lowRisk (hlow step List.mem_cons_self) none none s).2
    exact ih (fun x hx => hlow x (List.mem_cons_of_mem _ hx)) (h.executeStep hflag)

/-- The outputs kept for later steps are the completed ones, as far as they are needed. -/
theorem get_keptOutputs {needed : List String} {stepId : String} (h : stepId ∈ needed)
    (results : List StepResult) :
    (keptOutputs needed results).get stepId = (collect [] results).get stepId := by
  have hfold : ∀ outputs outputs' : Dict, outputs.get stepId = outputs'.get stepId →
      Table.get (results.foldl (fun outputs r =>
        if r.ok && needed.contains r.stepId then Table.assign outputs r.stepId r.output else outputs)
          outputs) stepId = (collect outputs' results).get stepId := by
    induction results with
    | nil => exact fun _ _ heq => heq
    | cons r results ih =>
      intro outputs outputs' heq
      simp only [collect, List.foldl_cons]
      refine ih _ _ ?_
      by_cases hid : r.stepId = stepId
      · subst hid
        cases hok : r.ok <;> simp [h, heq, Table.get_assign]
      · cases hok : r.ok <;> cases hneeded : needed.contains r.stepId <;>
          simp only [Bool.false_and, Bool.true_and, if_true, Bool.false_eq_true, if_false,
            Table.get_assign, if_neg (Ne.symm hid), heq]
  exact hfold [] [] rfl

end GuruJi.Agents
