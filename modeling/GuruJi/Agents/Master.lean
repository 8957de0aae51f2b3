import GuruJi.Agents.Bindings

/-!
# Executing and resuming a plan

`MasterAgent.execute`, the part of the gateway it runs each step through, and what a confirmation
keeps and resumes (`_keep_for_resume`, `_resume`). `executed` lists the handler calls of a run with
the arguments each handler was given.

The tools are an `Environment`: the gateway's checks of a call (registration, schema, permission,
policy and the tool's own validator), which tools are high-risk, and what each handler does when a
step calls it. A run either carries no confirmation or a confirmed one.
-/

namespace GuruJi.Agents

open GuruJi.Lib

inductive Status where
  | success | denied | invalidArguments | approvalRequired | failed | unknownTool
  deriving DecidableEq

structure PlanStep where
  stepId : String
  tool : String
  arguments : Dict
  purpose : String
  dependsOn : List String
  bindings : List (String × String)
  agent : String

/-- A plan as its constructor accepts it. -/
structure AgentPlan where
  intent : String
  steps : List PlanStep
  summary : String
  planner : String
  entities : Dict
  short : steps.length ≤ 8
  unique : (steps.map (·.stepId)).Nodup
  known : ∀ step ∈ steps, ∀ dependency ∈ step.dependsOn, dependency ∈ steps.map (·.stepId)

/-- What the confirmation of a call keeps: the plan, where it stopped, and the outputs its later
steps use. -/
structure Kept where
  plan : AgentPlan
  stoppedAt : String
  completed : Dict

structure Approval where
  toolName : String
  arguments : Dict
  argumentsSha256 : String
  resume : Option Kept

structure StepResult where
  stepId : String
  tool : String
  status : Status
  summary : String
  data : Json
  denialReason : Option String
  approval : Option Approval

def StepResult.ok (r : StepResult) : Bool := r.status == .success

/-- A call a handler was given. -/
structure Call where
  stepId : String
  tool : String
  arguments : Dict

/-- A call that is refused or whose handler raises has one of these statuses. -/
def Status.Refused (s : Status) : Prop := s ≠ .success ∧ s ≠ .approvalRequired

instance (s : Status) : Decidable s.Refused := by unfold Status.Refused; infer_instance

/-- Why a call did not succeed. -/
structure Refusal where
  status : Status
  reason : String
  refused : status.Refused

inductive Outcome where
  | output (data : Json) (summary : String)
  | raised (refusal : Refusal)

structure Environment where
  digit : Char → Option Nat
  check : String → Dict → Except Refusal Dict
  highRisk : String → Bool
  handler : String → String → Dict → Outcome
  digest : Dict → String
  toolAgent : String → String

/-! ## One step -/

namespace Environment
variable (env : Environment)

/-- Whether the confirmation the run carries is for this call. -/
def usable (confirmed : Option Approval) (tool : String) (arguments : Dict) : Bool :=
  confirmed.any fun a => a.toolName == tool && a.argumentsSha256 == env.digest arguments

def requestApproval (tool : String) (arguments : Dict) : Approval :=
  ⟨tool, arguments, env.digest arguments, none⟩

/-- `SpecializedAgent.run` on top of `ToolGateway.invoke`: the result of the step, and the call its
handler was given, if it ran. -/
def agentRun (confirmed : Option Approval) (step : PlanStep) (arguments : Dict) :
    StepResult × Option Call :=
  match env.check step.tool arguments with
  | .error refusal =>
    (⟨step.stepId, step.tool, refusal.status, refusal.reason, .null, some refusal.reason, none⟩, none)
  | .ok validated =>
    if env.highRisk step.tool && !env.usable confirmed step.tool validated then
      (⟨step.stepId, step.tool, .approvalRequired,
        step.tool ++ " changes institutional records and needs your confirmation", .null, none,
        some (env.requestApproval step.tool validated)⟩, none)
    else
      let call := some ⟨step.stepId, step.tool, validated⟩
      match env.handler step.stepId step.tool validated with
      | .output data summary =>
        (⟨step.stepId, step.tool, .success, summary, data, none, none⟩, call)
      | .raised refusal => (⟨step.stepId, step.tool, refusal.status, refusal.reason, .null,
          some refusal.reason, none⟩, call)

end Environment

/-! ## The run of a plan -/

structure RunState where
  completed : Dict
  failed : List String
  results : List StepResult
  executed : List Call

def RunState.start (completed : Dict) : RunState := ⟨completed, [], [], []⟩

def StepResult.output (r : StepResult) : Json :=
  .object [("data", r.data), ("summary", .string r.summary)]

namespace RunState

def skip (s : RunState) (stepId : String) : RunState := { s with failed := s.failed ++ [stepId] }

def unresolved (s : RunState) (step : PlanStep) (reason : String) : RunState :=
  { s with
    failed := s.failed ++ [step.stepId]
    results := s.results ++
      [⟨step.stepId, step.tool, .failed, reason, .null, some reason, none⟩] }

def ran (s : RunState) (step : PlanStep) (result : StepResult × Option Call) : RunState where
  completed := if result.1.ok then s.completed.assign step.stepId result.1.output else s.completed
  failed := if result.1.ok ∨ result.1.status = .approvalRequired then s.failed
    else s.failed ++ [step.stepId]
  results := s.results ++ [result.1]
  executed := s.executed ++ result.2.toList

end RunState

variable (env : Environment)

/-- The body of the loop; the flag says that the run stops to ask for a confirmation. -/
def executeStep (confirmed : Option Approval) (step : PlanStep) (s : RunState) : RunState × Bool :=
  if step.dependsOn.any (s.failed.contains ·) then (s.skip step.stepId, false)
  else
    match resolveArguments env.digit step.arguments step.bindings s.completed with
    | .error reason => (s.unresolved step reason, false)
    | .ok arguments =>
      let result := env.agentRun confirmed step arguments
      (s.ran step result, result.1.status == .approvalRequired)

def executeFrom (confirmed : Option Approval) : List PlanStep → RunState → RunState
  | [], s => s
  | step :: steps, s =>
    let next := executeStep env confirmed step s
    if next.2 then next.1 else executeFrom confirmed steps next.1

def execute (confirmed : Option Approval) (plan : AgentPlan) (completed : Dict) : RunState :=
  executeFrom env confirmed plan.steps (.start completed)

/-! ## Keeping and resuming -/

/-- The steps a plan step waits for or reads from. -/
def referencedSteps (step : PlanStep) : List String :=
  step.dependsOn ++ step.bindings.filterMap (referencedStep env.digit ·.2) ++
    step.arguments.filterMap fun argument => match argument.2 with
      | .string text => referencedStep env.digit text
      | _ => none

/-- The first step with the property, and the steps after it. -/
def stepsFrom (p : PlanStep → Bool) : List PlanStep → Option (PlanStep × List PlanStep)
  | [] => none
  | step :: steps => if p step then some (step, steps) else stepsFrom p steps

/-- The outputs of the successful steps that later ones refer to. -/
def keptOutputs (needed : List String) (results : List StepResult) : Dict :=
  results.foldl (fun outputs r =>
    if r.ok && needed.contains r.stepId then outputs.assign r.stepId r.output else outputs) []

/-- `_keep_for_resume`: the confirmation a run asks for, with what it keeps. -/
def keepForResume (plan : AgentPlan) (results : List StepResult) : Option Approval :=
  match results.find? fun r => r.status == .approvalRequired && r.approval.isSome with
  | none => none
  | some stopped =>
    match stopped.approval, stepsFrom (·.stepId == stopped.stepId) plan.steps with
    | some approval, some (_, later) =>
      let needed := later.flatMap (referencedSteps env)
      some { approval with resume := some ⟨plan, stopped.stepId, keptOutputs needed results⟩ }
    | _, _ => none

def confirmedAlone (approved : Approval) : AgentPlan where
  intent := approved.toolName
  steps := [⟨"s1", approved.toolName, approved.arguments, "run the confirmed " ++ approved.toolName,
    [], [], env.toolAgent approved.toolName⟩]
  summary := "run the confirmed " ++ approved.toolName
  planner := "approval"
  entities := []
  short := by simp
  unique := by simp
  known := by simp

/-- Dependencies on steps that already ran are dropped. -/
def dropDependencies (present : List String) (step : PlanStep) : PlanStep :=
  { step with dependsOn := step.dependsOn.filter (present.contains ·) }

/-- The confirmed call in place of the step that stopped. -/
def confirmedStep (approved : Approval) (stopped : PlanStep) : PlanStep :=
  { stopped with tool := approved.toolName, arguments := approved.arguments,
                 dependsOn := [], bindings := [] }

def remainingSteps (approved : Approval) (stopped : PlanStep) (later : List PlanStep) :
    List PlanStep :=
  let remaining := confirmedStep approved stopped :: later
  remaining.map (dropDependencies (remaining.map (·.stepId)))

theorem stepsFrom_eq_some {p : PlanStep → Bool} {steps later : List PlanStep} {step : PlanStep}
    (h : stepsFrom p steps = some (step, later)) :
    ∃ earlier, steps = earlier ++ step :: later ∧ p step = true := by
  induction steps with
  | nil => simp [stepsFrom] at h
  | cons x xs ih =>
    rw [stepsFrom] at h
    split_ifs at h with hx
    · obtain ⟨rfl, rfl⟩ := Prod.mk.inj (Option.some.inj h)
      exact ⟨[], rfl, hx⟩
    · obtain ⟨earlier, hsteps, hp⟩ := ih h
      exact ⟨x :: earlier, by rw [hsteps, List.cons_append], hp⟩

@[simp] theorem remainingSteps_ids (approved : Approval) (stopped : PlanStep)
    (later : List PlanStep) : (remainingSteps approved stopped later).map (·.stepId) =
      stopped.stepId :: later.map (·.stepId) := by
  simp [remainingSteps, dropDependencies, confirmedStep]

/-- `" then ".join(...)`. -/
def joinPurposes (steps : List PlanStep) : String :=
  String.intercalate " then " (steps.map (·.purpose))

/-- The plan a confirmed call resumes; it is as valid as the plan it was cut from. -/
def resumedPlan (approved : Approval) (plan : AgentPlan) (stopped : PlanStep)
    (later : List PlanStep) (h : ∃ earlier, plan.steps = earlier ++ stopped :: later) :
    AgentPlan where
  intent := if plan.intent = "" then approved.toolName else plan.intent
  steps := remainingSteps approved stopped later
  summary := joinPurposes (remainingSteps approved stopped later)
  planner := "approval"
  entities := plan.entities
  short := by
    obtain ⟨earlier, hsteps⟩ := h
    have hlength := plan.short
    rw [hsteps] at hlength
    simp only [List.length_append, List.length_cons] at hlength
    simp only [remainingSteps, List.length_map, List.length_cons]
    omega
  unique := by
    obtain ⟨earlier, hsteps⟩ := h
    have hunique := plan.unique
    rw [hsteps, List.map_append] at hunique
    rw [remainingSteps_ids]
    exact (List.nodup_append.mp hunique).2.1
  known := by
    intro step hstep dependency hdependency
    obtain ⟨original, -, rfl⟩ := List.mem_map.mp hstep
    have hpresent := (List.mem_filter.mp hdependency).2
    simpa [remainingSteps_ids, confirmedStep] using hpresent

/-- `_resume`: the plan a confirmed re-send runs, and the outputs of the steps that already ran. -/
def resume (approved : Approval) : AgentPlan × Dict :=
  match approved.resume with
  | none => (confirmedAlone env approved, [])
  | some kept =>
    match h : stepsFrom (fun step => step.stepId == kept.stoppedAt && step.tool == approved.toolName)
        kept.plan.steps with
    | none => (confirmedAlone env approved, [])
    | some (stopped, later) => (resumedPlan approved kept.plan stopped later
        ((stepsFrom_eq_some h).imp fun _ => And.left), kept.completed)

end GuruJi.Agents
