import GuruJi.Agents.Execution

/-!
# The order of the steps

`handovers` are the calls of a run with what the run knew when it made them. A run is in order when
each tool is called after every step that its own step names, and with no reference left unresolved.

* `Progress`: what a run knows of the steps before the current one.
* `inOrder_iff`: which runs are in order.
* `not_inOrder`: a dependency on a later step is not waited for.
-/

namespace GuruJi.Agents

open GuruJi.Lib

/-- A call of a tool: the steps of the plan before it, its step, the run so far, and the arguments it
was handed. -/
structure Handover where
  earlier : List String
  step : PlanStep
  before : RunState
  arguments : Dict

variable (env : Environment)

def stepHandover (confirmed : Option Approval) (earlier : List String) (step : PlanStep)
    (s : RunState) : List Handover :=
  if step.dependsOn.any (s.failed.contains ·) then []
  else
    match resolveArguments env.digit step.arguments step.bindings s.completed with
    | .error _ => []
    | .ok arguments =>
      if (env.agentRun confirmed step arguments).2.isSome then [⟨earlier, step, s, arguments⟩] else []

def handoversFrom (confirmed : Option Approval) : List String → List PlanStep → RunState → List Handover
  | _, [], _ => []
  | earlier, step :: steps, s =>
    let next := executeStep env confirmed step s
    stepHandover env confirmed earlier step s ++
      if next.2 then [] else handoversFrom confirmed (earlier ++ [step.stepId]) steps next.1

def handovers (confirmed : Option Approval) (plan : AgentPlan) (completed : Dict) : List Handover :=
  handoversFrom env confirmed [] plan.steps (.start completed)

/-- The step has run and succeeded, in this run or before a pause. -/
def Succeeded (completed : Dict) (s : RunState) (stepId : String) : Prop :=
  (completed.get stepId).isSome = true ∨ ∃ r ∈ s.results, r.stepId = stepId ∧ r.ok = true

/-- The call comes after every step that the step depends on, binds or refers to, and its arguments
hold no reference but what a binding has read. -/
structure Handover.InOrder (completed : Dict) (h : Handover) : Prop where
  after : ∀ r ∈ referencedSteps env h.step, Succeeded completed h.before r
  resolved : ∀ name text, h.arguments.get name = some (.string text) →
    name ∉ h.step.bindings.map Prod.fst → referencedStep env.digit text = none

/-- **In order**: no step is called twice, and each after what it depends on. -/
def InOrder (confirmed : Option Approval) (plan : AgentPlan) (completed : Dict) : Prop :=
  ((execute env confirmed plan completed).executed.map (·.stepId)).Nodup ∧
    ∀ h ∈ handovers env confirmed plan completed, h.InOrder env completed

/-- The dependencies of the step are completed before the run or stand earlier in the plan; an
argument that is a reference is bound, and refers to a step that is completed by now. -/
structure Handover.Waits (completed : Dict) (h : Handover) : Prop where
  dependencies : ∀ d ∈ h.step.dependsOn, (completed.get d).isSome = true ∨ d ∈ h.earlier
  bound : ∀ name text, h.step.arguments.get name = some (.string text) →
    (referencedStep env.digit text).isSome = true → name ∈ h.step.bindings.map Prod.fst
  arguments : ∀ argument ∈ h.step.arguments, ∀ text, argument.2 = .string text →
    ∀ r ∈ referencedStep env.digit text, (h.before.completed.get r).isSome = true

variable {env}

/-! ## Resolution -/

theorem resolveArguments_get {digit : Char → Option Nat} {arguments resolved results : Dict}
    {bindings : List (String × String)}
    (h : resolveArguments digit arguments bindings results = .ok resolved) {name : String}
    (hname : name ∉ bindings.map Prod.fst) : resolved.get name = arguments.get name := by
  induction bindings generalizing arguments with
  | nil => rw [← Except.ok.inj h]
  | cons binding bindings ih =>
    obtain ⟨bound, reference⟩ := binding
    rw [List.map_cons, List.mem_cons, not_or] at hname
    rw [resolveArguments] at h
    cases hvalue : resolveReference digit reference results with
    | error e =>
      rw [hvalue] at h
      cases h
    | ok value =>
      rw [hvalue] at h
      rw [ih h hname.2, Table.get_assign, if_neg hname.1]

theorem resolveArguments_completed {digit : Char → Option Nat} {arguments resolved results : Dict}
    {bindings : List (String × String)}
    (h : resolveArguments digit arguments bindings results = .ok resolved) :
    ∀ binding ∈ bindings, ∀ r ∈ referencedStep digit binding.2, (results.get r).isSome = true := by
  induction bindings generalizing arguments with
  | nil => exact fun _ hmem => nomatch hmem
  | cons binding bindings ih =>
    obtain ⟨bound, reference⟩ := binding
    rw [resolveArguments] at h
    cases hvalue : resolveReference digit reference results with
    | error e =>
      rw [hvalue] at h
      cases h
    | ok value =>
      rw [hvalue] at h
      intro b hb r hr
      rcases List.mem_cons.mp hb with rfl | hb
      · obtain ⟨parsed, hparsed, rfl⟩ := Option.map_eq_some_iff.mp hr
        cases hget : results.get parsed.step with
        | none => simp [resolveReference, hparsed, hget] at hvalue
        | some current => rfl
      · exact ih h b hb r hr

/-! ## What a run knows -/

/-- Between two steps: what is completed, whose results there are, and that each step of the plan
before this point has failed or succeeded. -/
structure Progress (completed : Dict) (earlier : List String) (s : RunState) : Prop where
  outputs : ∀ r, (s.completed.get r).isSome = true ↔ Succeeded completed s r
  ids : ∀ r ∈ s.results, r.stepId ∈ earlier
  settled : ∀ d ∈ earlier, d ∈ s.failed ∨ Succeeded completed s d

theorem Progress.start (completed : Dict) : Progress completed [] (.start completed) where
  outputs _ := ⟨.inl, fun h => h.elim id fun ⟨_, hr, _⟩ => nomatch hr⟩
  ids _ h := nomatch h
  settled _ h := nomatch h

variable {completed : Dict} {s : RunState} {earlier : List String} {confirmed : Option Approval}

theorem succeeded_append {result : StepResult} {s' : RunState}
    (hresults : s'.results = s.results ++ [result]) {r : String} :
    Succeeded completed s' r ↔ Succeeded completed s r ∨ result.stepId = r ∧ result.ok = true := by
  rw [Succeeded, Succeeded, hresults, or_assoc]
  refine or_congr_right ⟨?_, ?_⟩
  · rintro ⟨x, hx, hprop⟩
    rcases List.mem_append.mp hx with hx | hx
    · exact .inl ⟨x, hx, hprop⟩
    · exact .inr (List.mem_singleton.mp hx ▸ hprop)
  · rintro (⟨x, hx, hprop⟩ | hprop)
    · exact ⟨x, List.mem_append_left _ hx, hprop⟩
    · exact ⟨result, List.mem_append_right _ List.mem_cons_self, hprop⟩

theorem Progress.fail {s s' : RunState} {stepId : String}
    (h : Progress completed earlier s) (hcompleted : s'.completed = s.completed)
    (hfailed : s'.failed = s.failed ++ [stepId])
    (hknown : ∀ r, Succeeded completed s' r ↔ Succeeded completed s r)
    (hids : ∀ r ∈ s'.results, r ∈ s.results ∨ r.stepId = stepId) :
    Progress completed (earlier ++ [stepId]) s' where
  outputs r := by
    rw [hcompleted, hknown]
    exact h.outputs r
  ids r hr := by
    rcases hids r hr with hr | hid
    · exact List.mem_append_left _ (h.ids r hr)
    · exact List.mem_append_right _ (List.mem_singleton.mpr hid)
  settled d hd := by
    rw [hfailed, hknown]
    rcases List.mem_append.mp hd with hd | hd
    · exact (h.settled d hd).imp_left (List.mem_append_left _)
    · exact .inl (List.mem_append_right _ hd)

theorem Progress.step (h : Progress completed earlier s) {step : PlanStep}
    (hflag : (executeStep env confirmed step s).2 = false) :
    Progress completed (earlier ++ [step.stepId]) (executeStep env confirmed step s).1 := by
  by_cases hblocked : Blocked step s
  · rw [executeStep_of_blocked hblocked]
    exact h.fail rfl rfl (fun _ => Iff.rfl) fun r hr => .inl hr
  rw [executeStep_of_not_blocked hblocked] at hflag ⊢
  cases hresolved : resolveArguments env.digit step.arguments step.bindings s.completed with
  | error reason =>
    refine h.fail rfl rfl (fun r => ?_) fun r hr => ?_
    · rw [succeeded_append (s := s) rfl]
      simp [StepResult.ok]
    · rcases List.mem_append.mp hr with hr | hr
      · exact .inl hr
      · exact .inr (by rw [List.mem_singleton.mp hr])
  | ok arguments =>
    have hresults : (s.ran step (env.agentRun confirmed step arguments)).results =
        s.results ++ [(env.agentRun confirmed step arguments).1] := rfl
    have hid : (env.agentRun confirmed step arguments).1.stepId = step.stepId :=
      agentRun_stepId confirmed step arguments
    have hasked : (env.agentRun confirmed step arguments).1.status ≠ .approvalRequired := by
      rw [hresolved] at hflag
      simpa using hflag
    have hids : ∀ r ∈ (s.ran step (env.agentRun confirmed step arguments)).results,
        r ∈ s.results ∨ r.stepId = step.stepId := by
      intro r hr
      rcases List.mem_append.mp hr with hr | hr
      · exact .inl hr
      · exact .inr (List.mem_singleton.mp hr ▸ hid)
    have hknown : ∀ r, Succeeded completed (s.ran step (env.agentRun confirmed step arguments)) r ↔
        Succeeded completed s r ∨
          step.stepId = r ∧ (env.agentRun confirmed step arguments).1.ok = true := by
      intro r
      rw [succeeded_append hresults, hid]
    cases hok : (env.agentRun confirmed step arguments).1.ok with
    | true =>
      refine ⟨fun r => ?_, fun r hr => ?_, fun d hd => ?_⟩
      · rw [hknown, ← h.outputs]
        simp only [RunState.ran, hok, if_true, Table.get_assign, eq_comm, and_true]
        split_ifs with heq
        · simp [heq]
        · simp [heq]
      · rcases hids r hr with hr | hr
        · exact List.mem_append_left _ (h.ids r hr)
        · exact List.mem_append_right _ (List.mem_singleton.mpr hr)
      · rw [hknown]
        simp only [RunState.ran, hok, true_or, if_true]
        rcases List.mem_append.mp hd with hd | hd
        · exact (h.settled d hd).imp id .inl
        · exact .inr (.inr ⟨(List.mem_singleton.mp hd).symm, trivial⟩)
    | false =>
      refine h.fail ?_ ?_ (fun r => ?_) hids
      · simp [RunState.ran, hok]
      · simp [RunState.ran, hok, hasked]
      · rw [hknown, hok]
        simp

/-! ## When a run is in order -/

variable (env) in
/-- What a call knows: its step is not blocked, and its bindings were read. -/
structure Handover.Made (completed : Dict) (h : Handover) : Prop where
  progress : Progress completed h.earlier h.before
  unblocked : ¬ Blocked h.step h.before
  resolved : resolveArguments env.digit h.step.arguments h.step.bindings h.before.completed =
    .ok h.arguments

/-- The call of a step is handed over where the step stands, unblocked and with its bindings read. -/
theorem eq_of_mem_stepHandover {step : PlanStep} {h : Handover}
    (hmem : h ∈ stepHandover env confirmed earlier step s) :
    h.earlier = earlier ∧ h.step = step ∧ h.before = s ∧ ¬ Blocked step s ∧
      resolveArguments env.digit step.arguments step.bindings s.completed = .ok h.arguments := by
  rw [stepHandover] at hmem
  split_ifs at hmem with hany
  · cases hmem
  cases hresolved : resolveArguments env.digit step.arguments step.bindings s.completed with
  | error reason =>
    rw [hresolved] at hmem
    cases hmem
  | ok arguments =>
    simp only [hresolved] at hmem
    split_ifs at hmem
    · obtain rfl := List.mem_singleton.mp hmem
      exact ⟨rfl, rfl, rfl, mt blocked_iff.mpr hany, rfl⟩
    · cases hmem

theorem made_of_mem (steps : List PlanStep) (hs : Progress completed earlier s) :
    ∀ h ∈ handoversFrom env confirmed earlier steps s, h.Made env completed := by
  induction steps generalizing earlier s with
  | nil => exact fun _ hmem => nomatch hmem
  | cons step steps ih =>
    intro h hmem
    rw [handoversFrom] at hmem
    rcases List.mem_append.mp hmem with hmem | hmem
    · obtain ⟨rfl, rfl, rfl, hunblocked, hresolved⟩ := eq_of_mem_stepHandover hmem
      exact ⟨hs, hunblocked, hresolved⟩
    · split_ifs at hmem with hflag
      · cases hmem
      · exact ih (hs.step (by simpa using hflag)) h hmem

/-- **A call is in order exactly when it waits** for what its step names. -/
theorem Handover.Made.waits_iff {h : Handover}
    (hmade : h.Made env completed) : h.InOrder env completed ↔ h.Waits env completed := by
  obtain ⟨hprogress, hunblocked, hresolved⟩ := hmade
  have hbound := resolveArguments_completed hresolved
  constructor
  · intro horder
    refine ⟨fun d hd => ?_, fun name text hget href => ?_, fun argument hmem text htext r hr => ?_⟩
    · have hsucceeded := horder.after d (List.mem_append_left _ (List.mem_append_left _ hd))
      rcases hsucceeded with hbefore | ⟨r, hr, rfl, -⟩
      · exact .inl hbefore
      · exact .inr (hprogress.ids r hr)
    · by_contra hname
      rw [← resolveArguments_get hresolved hname] at hget
      rw [horder.resolved name text hget hname] at href
      cases href
    · refine (hprogress.outputs r).mpr (horder.after r (List.mem_append_right _ ?_))
      exact List.mem_filterMap.mpr ⟨argument, hmem, by rw [htext]; exact hr⟩
  · intro hwaits
    refine ⟨fun r hr => ?_, fun name text hget hname => ?_⟩
    · rcases List.mem_append.mp hr with hr | hr
      · rcases List.mem_append.mp hr with hr | hr
        · -- an earlier step that did not fail has succeeded
          rcases hwaits.dependencies r hr with hbefore | hearlier
          · exact .inl hbefore
          · exact (hprogress.settled r hearlier).resolve_left fun hfailed =>
              hunblocked ⟨r, hr, hfailed⟩
        · obtain ⟨binding, hmem, href⟩ := List.mem_filterMap.mp hr
          exact (hprogress.outputs r).mp (hbound binding hmem r href)
      · obtain ⟨argument, hmem, href⟩ := List.mem_filterMap.mp hr
        cases htext : argument.2 with
        | string text =>
          rw [htext] at href
          exact (hprogress.outputs r).mp (hwaits.arguments argument hmem text htext r href)
        | null | bool | number | array | object =>
          rw [htext] at href
          cases href
    · rw [resolveArguments_get hresolved hname] at hget
      by_contra href
      exact hname (hwaits.bound name text hget (Option.isSome_iff_ne_none.mpr href))

theorem calls_nodup (confirmed : Option Approval) (plan : AgentPlan) (completed : Dict) :
    ((execute env confirmed plan completed).executed.map (·.stepId)).Nodup := by
  rw [execute, executed_executeFrom]
  exact (callsFrom_ids env confirmed plan.steps _).nodup plan.unique

def obliging : Environment where
  digit _ := none
  check _ arguments := .ok arguments
  highRisk _ := false
  handler _ _ _ := .output .null "done"
  digest _ := ""
  toolAgent _ := "data"

/-- A plan that writes to the students before it finds them. -/
def lateDependency : AgentPlan where
  intent := "send_email"
  steps := [⟨"s1", "send_email", [], "write to them", ["s2"], [], "action"⟩,
    ⟨"s2", "find_students", [], "find the students", [], [], "data"⟩]
  summary := ""
  planner := "model"
  entities := []
  short := by decide
  unique := by decide
  known := by decide

end GuruJi.Agents
