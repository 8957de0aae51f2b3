import GuruJi.Agents.Execution

/-!
# A confirmed run and an uninterrupted one

`_resume` drops the dependencies on steps that ran before the pause, whatever became of them: their
outputs are kept, but not that they failed or were skipped. A later step whose dependency failed
then runs after the confirmation (`not_resumesAsUninterrupted`). And the confirmed arguments are
those the gateway's checks returned, which it checks once more.

`resumesAsUninterrupted_iff` says when the two runs make the same calls: the second check must
return the confirmed arguments unchanged, and every later step with a dependency that failed or was
skipped before the pause must be stopped for another reason too. The proof runs both plans in
lockstep: they agree on what later steps can read, and the steps that failed in the uninterrupted
run are those that failed before the pause or in the resumed run.
-/

namespace GuruJi.Agents

open GuruJi.Lib

variable (env : Environment)

def AtMostOneHighRisk (plan : AgentPlan) : Prop :=
  plan.steps.countP (fun step => env.highRisk step.tool) ≤ 1

/-- A run that asks for a confirmation, and the confirmation with what it keeps. -/
def pause (plan : AgentPlan) : Option (RunState × Approval) :=
  let run := execute env none plan []
  (keepForResume env plan run.results).map (run, ·)

/-- The paused run and the resumed one together make the calls of one run that carries the
confirmation from the start, each step's at most once. -/
def ResumesAsUninterrupted (plan : AgentPlan) : Prop :=
  ∀ run approved, pause env plan = some (run, approved) →
    let resumed := execute env (some approved) (resume env approved).1 (resume env approved).2
    let whole := execute env (some approved) plan []
    run.executed ++ resumed.executed = whole.executed ∧ (whole.executed.map (·.stepId)).Nodup

/-- A step that does not run even without its dependencies on the steps `before`. -/
def StoppedAnyway (before : List String) (step : PlanStep) (s : RunState) : Prop :=
  (∃ d ∈ step.dependsOn, d ∉ before ∧ d ∈ s.failed) ∨
    ∀ arguments, resolveArguments env.digit step.arguments step.bindings s.completed = .ok arguments →
      ∃ refusal, env.check step.tool arguments = .error refusal

/-- No step of the rest of an uninterrupted run is stopped by its dependencies on `before` alone. -/
def NoneRevived (confirmed : Option Approval) (before : List String) : RunState → List PlanStep → Prop
  | _, [] => True
  | s, step :: steps =>
    ((∃ d ∈ step.dependsOn, d ∈ before) → StoppedAnyway env before step s) ∧
      NoneRevived confirmed before (executeStep env confirmed step s).1 steps

/-- The confirmed arguments pass the checks unchanged, and no later step waits for a step that
failed or was skipped before the pause, unless it is stopped anyway. -/
def Resumable (plan : AgentPlan) : Prop :=
  ∀ run approved, pause env plan = some (run, approved) → ∀ kept ∈ approved.resume,
    ∀ stopped later, stepsFrom (·.stepId == kept.stoppedAt) plan.steps = some (stopped, later) →
      env.check approved.toolName approved.arguments = .ok approved.arguments ∧
      NoneRevived env (some approved) run.failed
        (executeStep env (some approved) stopped ⟨run.completed, run.failed, [], []⟩).1 later

variable {env}

/-! ## The two runs in lockstep -/

/-- The uninterrupted run and the resumed one, between two later steps: what later steps refer to
is the same, and what failed is what failed before the pause or in the resumed run. -/
structure Lockstep (refers : String → Prop) (before present : List String) (u r : RunState) :
    Prop where
  failed : ∀ d, d ∈ u.failed ↔ d ∈ before ∨ d ∈ r.failed
  present : ∀ d ∈ r.failed, d ∈ present
  completed : ∀ d, refers d → u.completed.get d = r.completed.get d

section
variable {refers : String → Prop} {before present : List String} {u r : RunState}

theorem Lockstep.fail {u' r' : RunState} {stepId : String}
    (h : Lockstep refers before present u r) (hid : stepId ∈ present)
    (hu : u'.failed = u.failed ++ [stepId]) (hr : r'.failed = r.failed ++ [stepId])
    (hcu : u'.completed = u.completed) (hcr : r'.completed = r.completed) :
    Lockstep refers before present u' r' where
  failed d := by
    rw [hu, hr, List.mem_append, List.mem_append, h.failed d, or_assoc]
  present d hd := by
    rw [hr] at hd
    rcases List.mem_append.mp hd with hd | hd
    · exact h.present d hd
    · rwa [List.mem_singleton.mp hd]
  completed d hd := by
    rw [hcu, hcr]
    exact h.completed d hd

theorem Lockstep.ran {step step' : PlanStep} {result : StepResult × Option Call}
    (h : Lockstep refers before present u r) (hid : step.stepId ∈ present)
    (hstep : step'.stepId = step.stepId) :
    Lockstep refers before present (u.ran step result) (r.ran step' result) where
  failed d := by
    simp only [RunState.ran, hstep]
    split_ifs
    · exact h.failed d
    · rw [List.mem_append, List.mem_append, h.failed d, or_assoc]
  present d hd := by
    simp only [RunState.ran, hstep] at hd
    split_ifs at hd
    · exact h.present d hd
    · rcases List.mem_append.mp hd with hd | hd
      · exact h.present d hd
      · rwa [List.mem_singleton.mp hd]
  completed d hd := by
    simp only [RunState.ran, hstep]
    split_ifs
    · rw [Table.get_assign, Table.get_assign, h.completed d hd]
    · exact h.completed d hd

theorem Lockstep.blocked_drop (h : Lockstep refers before present u r)
    (hdisjoint : ∀ d ∈ before, d ∉ present) (step : PlanStep) :
    Blocked (dropDependencies present step) r ↔
      ∃ d ∈ step.dependsOn, d ∉ before ∧ d ∈ u.failed := by
  constructor
  · rintro ⟨d, hd, hf⟩
    have hp := h.present d hf
    exact ⟨d, (List.mem_filter.mp hd).1, fun hb => hdisjoint d hb hp, (h.failed d).mpr (.inr hf)⟩
  · rintro ⟨d, hd, hb, hf⟩
    have hf := ((h.failed d).mp hf).resolve_left hb
    refine ⟨d, List.mem_filter.mpr ⟨hd, ?_⟩, hf⟩
    simpa using h.present d hf

theorem Lockstep.blocked (h : Lockstep refers before present u r)
    (hdisjoint : ∀ d ∈ before, d ∉ present) (step : PlanStep) :
    Blocked step u ↔ (∃ d ∈ step.dependsOn, d ∈ before) ∨
      Blocked (dropDependencies present step) r := by
  rw [h.blocked_drop hdisjoint]
  constructor
  · rintro ⟨d, hd, hf⟩
    by_cases hb : d ∈ before
    · exact .inl ⟨d, hd, hb⟩
    · exact .inr ⟨d, hd, hb, hf⟩
  · rintro (⟨d, hd, hb⟩ | ⟨d, hd, -, hf⟩)
    · exact ⟨d, hd, (h.failed d).mpr (.inl hb)⟩
    · exact ⟨d, hd, hf⟩

/-- A step that only the uninterrupted run skips: the runs go on alike exactly when the resumed one
does not call it. -/
theorem Lockstep.calls_iff_of_dead {confirmed : Option Approval} {step : PlanStep}
    {steps : List PlanStep} (h : Lockstep refers before present u r) (hid : step.stepId ∈ present)
    (hnotmem : step.stepId ∉ steps.map (·.stepId))
    (hresolve : resolveArguments env.digit step.arguments step.bindings u.completed =
      resolveArguments env.digit step.arguments step.bindings r.completed)
    (hdead : ∃ d ∈ step.dependsOn, d ∈ before)
    (hlive : ¬ ∃ d ∈ step.dependsOn, d ∉ before ∧ d ∈ u.failed)
    (hlow : env.highRisk step.tool = false)
    (hrest : ∀ {u' r' : RunState}, Lockstep refers before present u' r' →
      (callsFrom env confirmed steps u' =
          callsFrom env confirmed (steps.map (dropDependencies present)) r' ↔
        NoneRevived env confirmed before u' steps)) :
    [] ++ callsFrom env confirmed steps (u.skip step.stepId) =
        (match resolveArguments env.digit step.arguments step.bindings r.completed with
          | .error _ => []
          | .ok arguments => (env.agentRun confirmed step arguments).2.toList) ++
        callsFrom env confirmed (steps.map (dropDependencies present))
          (match resolveArguments env.digit step.arguments step.bindings r.completed with
          | .error reason => (r.unresolved step reason, false)
          | .ok arguments => (r.ran step (env.agentRun confirmed step arguments),
              (env.agentRun confirmed step arguments).1.status == Status.approvalRequired)).1 ↔
      ((∃ d ∈ step.dependsOn, d ∈ before) → StoppedAnyway env before step u) ∧
        NoneRevived env confirmed before (u.skip step.stepId) steps := by
  cases hr : resolveArguments env.digit step.arguments step.bindings r.completed with
  | error reason =>
    have hnext : Lockstep refers before present (u.skip step.stepId) (r.unresolved step reason) :=
      h.fail hid rfl rfl rfl rfl
    refine (hrest hnext).trans (and_iff_right fun _ => Or.inr ?_).symm
    intro arguments harg
    simp [hresolve, hr] at harg
  | ok arguments =>
    rcases agentRun_cases env confirmed step arguments with ⟨refusal, hcheck, hrun⟩ |
      ⟨v, hcheck, ⟨hrisk, -⟩ | ⟨-, hrun⟩⟩
    · -- the gateway refuses it
      have hnext : Lockstep refers before present (u.skip step.stepId)
          (r.ran step (outcomeResult step (.raised refusal), none)) := by
        have hs := refusal.refused
        refine h.fail hid rfl ?_ rfl ?_ <;>
          simp [RunState.ran, outcomeResult, StepResult.ok, hs.1, hs.2]
      simp only [hrun]
      refine (hrest hnext).trans (and_iff_right fun _ => Or.inr ?_).symm
      intro arguments' harg
      rw [hresolve, hr] at harg
      exact ⟨refusal, Except.ok.inj harg ▸ hcheck⟩
    · simp [hlow] at hrisk
    · -- it is called, and the uninterrupted run never calls it
      simp only [hrun]
      constructor
      · intro heq
        have hids := (callsFrom_ids env confirmed steps (u.skip step.stepId)).subset
        have hhead : step.stepId ∈ (callsFrom env confirmed steps (u.skip step.stepId)).map
            (·.stepId) := by
          rw [List.nil_append] at heq
          rw [heq]
          simp
        exact absurd (hids hhead) hnotmem
      · rintro ⟨hstopped, -⟩
        rcases hstopped hdead with hl | hl
        · exact absurd hl hlive
        · obtain ⟨refusal, hrefused⟩ := hl arguments (by rw [hresolve, hr])
          simp [hcheck] at hrefused

/-- **Lockstep**: over steps that are not high-risk the two runs make the same calls exactly when
no step is stopped by its dependencies on `before` alone. -/
theorem Lockstep.calls_iff {confirmed : Option Approval} (hdisjoint : ∀ d ∈ before, d ∉ present)
    {steps : List PlanStep} (hlow : ∀ step ∈ steps, env.highRisk step.tool = false)
    (hunique : (steps.map (·.stepId)).Nodup) (hpresent : ∀ step ∈ steps, step.stepId ∈ present)
    (hrefers : ∀ step ∈ steps, ∀ binding ∈ step.bindings,
      ∀ d ∈ referencedStep env.digit binding.2, refers d)
    (h : Lockstep refers before present u r) :
    callsFrom env confirmed steps u =
        callsFrom env confirmed (steps.map (dropDependencies present)) r ↔
      NoneRevived env confirmed before u steps := by
  induction steps generalizing u r with
  | nil => simp [callsFrom, NoneRevived]
  | cons step steps ih =>
    have hlow' := hlow step List.mem_cons_self
    have hid := hpresent step List.mem_cons_self
    have hresolve : resolveArguments env.digit step.arguments step.bindings u.completed =
        resolveArguments env.digit step.arguments step.bindings r.completed :=
      resolveArguments_congr env.digit fun b hb d hd =>
        h.completed d (hrefers step List.mem_cons_self b hb d hd)
    have hflag : (executeStep env confirmed step u).2 = false :=
      (executeStep_lowRisk hlow' confirmed none u).2
    have hlowdrop : env.highRisk (dropDependencies present step).tool = false := hlow'
    have hflag' : (executeStep env confirmed (dropDependencies present step) r).2 = false :=
      (executeStep_lowRisk hlowdrop confirmed none r).2
    rw [List.map_cons, callsFrom_cons hflag, callsFrom_cons hflag', NoneRevived]
    obtain ⟨hnotmem, hunique'⟩ := List.nodup_cons.mp hunique
    have hrest : ∀ {u' r' : RunState}, Lockstep refers before present u' r' →
        (callsFrom env confirmed steps u' =
            callsFrom env confirmed (steps.map (dropDependencies present)) r' ↔
          NoneRevived env confirmed before u' steps) := fun h' =>
      ih (fun x hx => hlow x (List.mem_cons_of_mem _ hx)) hunique'
        (fun x hx => hpresent x (List.mem_cons_of_mem _ hx))
        (fun x hx => hrefers x (List.mem_cons_of_mem _ hx)) h'
    by_cases hlive : Blocked (dropDependencies present step) r
    · -- blocked in both runs by what failed since the pause
      have hblocked : Blocked step u := (h.blocked hdisjoint step).mpr (.inr hlive)
      have hnext : Lockstep refers before present (u.skip step.stepId) (r.skip step.stepId) :=
        h.fail hid rfl rfl rfl rfl
      rw [stepCalls_of_blocked hblocked, stepCalls_of_blocked hlive, executeStep_of_blocked hblocked,
        executeStep_of_blocked hlive]
      exact (hrest hnext).trans
        (and_iff_right fun _ => Or.inl ((h.blocked_drop hdisjoint step).mp hlive)).symm
    · by_cases hdead : ∃ d ∈ step.dependsOn, d ∈ before
      · -- blocked in the uninterrupted run alone, by what failed before the pause
        have hblocked : Blocked step u := (h.blocked hdisjoint step).mpr (.inl hdead)
        rw [stepCalls_of_blocked hblocked, executeStep_of_blocked hblocked,
          stepCalls_of_not_blocked hlive, executeStep_of_not_blocked hlive]
        exact h.calls_iff_of_dead hid hnotmem hresolve hdead
          (fun hb => hlive ((h.blocked_drop hdisjoint step).mpr hb)) hlow' hrest
      · -- blocked in neither: both resolve the same arguments and get the same result
        have hblocked : ¬ Blocked step u := fun hb =>
          ((h.blocked hdisjoint step).mp hb).elim hdead hlive
        rw [stepCalls_of_not_blocked hblocked, executeStep_of_not_blocked hblocked,
          stepCalls_of_not_blocked hlive, executeStep_of_not_blocked hlive, hresolve,
          and_iff_right fun hd => absurd hd hdead]
        cases hr : resolveArguments env.digit step.arguments step.bindings r.completed with
        | error reason =>
          simp only [dropDependencies, hr]
          exact hrest (h.fail hid rfl rfl rfl rfl)
        | ok arguments =>
          simp only [dropDependencies, hr]
          have hnext : Lockstep refers before present
              (u.ran step (env.agentRun confirmed step arguments))
              (r.ran (dropDependencies present step) (env.agentRun confirmed step arguments)) :=
            h.ran hid rfl
          exact List.append_right_inj _ |>.trans (hrest hnext)

end

/-! ## The pause -/

theorem highRisk_split {p : PlanStep → Bool} {steps : List PlanStep} (h : steps.countP p ≤ 1) :
    (∀ step ∈ steps, p step = false) ∨ ∃ earlier stopped later,
      steps = earlier ++ stopped :: later ∧ p stopped = true ∧
      (∀ step ∈ earlier, p step = false) ∧ ∀ step ∈ later, p step = false := by
  induction steps with
  | nil => simp
  | cons step steps ih =>
    cases hp : p step with
    | true =>
      rw [List.countP_cons_of_pos hp] at h
      have hnone : steps.countP p = 0 := by omega
      refine .inr ⟨[], step, steps, rfl, hp, by simp, fun x hx => ?_⟩
      simpa using List.countP_eq_zero.mp hnone x hx
    | false =>
      rw [List.countP_cons_of_neg (by simp [hp])] at h
      rcases ih h with hall | ⟨earlier, stopped, later, hsteps, hs, hearly, hlate⟩
      · exact .inl (by simpa [hp] using hall)
      · exact .inr ⟨step :: earlier, stopped, later, by rw [hsteps, List.cons_append], hs,
          by simpa [hp] using hearly, hlate⟩

theorem stepsFrom_append {p : PlanStep → Bool} {earlier later : List PlanStep} {step : PlanStep}
    (hearly : ∀ x ∈ earlier, p x = false) (hp : p step = true) :
    stepsFrom p (earlier ++ step :: later) = some (step, later) := by
  induction earlier with
  | nil => simp [stepsFrom, hp]
  | cons x earlier ih =>
    simp only [List.cons_append, stepsFrom, hearly x List.mem_cons_self, Bool.false_eq_true, if_false]
    exact ih fun y hy => hearly y (List.mem_cons_of_mem _ hy)

theorem keepForResume_of_unasked {plan : AgentPlan} {s : RunState} (h : Recorded s) :
    keepForResume env plan s.results = none := by
  have hnone : s.results.find? (fun r => r.status == .approvalRequired && r.approval.isSome) =
      none := by
    refine List.find?_eq_none.mpr fun r hr => ?_
    simp [h.unasked r hr]
  rw [keepForResume, hnone]

/-- A paused run: what ran before the step that asked, that step, and what its confirmation keeps. -/
structure Paused (env : Environment) (plan : AgentPlan) (run : RunState) (approved : Approval)
    (earlier later : List PlanStep) (stopped : PlanStep) (s : RunState) (arguments : Dict) :
    Prop where
  steps : plan.steps = earlier ++ stopped :: later
  early : ∀ step ∈ earlier, env.highRisk step.tool = false
  late : ∀ step ∈ later, env.highRisk step.tool = false
  before : s = runLowRisk env earlier (.start [])
  unblocked : ¬ Blocked stopped s
  resolved : resolveArguments env.digit stopped.arguments stopped.bindings s.completed = .ok arguments
  checked : env.check stopped.tool arguments = .ok approved.arguments
  executed : run.executed = s.executed
  completed : run.completed = s.completed
  failed : run.failed = s.failed
  tool : approved.toolName = stopped.tool
  sha256 : approved.argumentsSha256 = env.digest approved.arguments
  kept : ∃ outputs, approved.resume = some ⟨plan, stopped.stepId, outputs⟩ ∧
    ∀ step ∈ later, ∀ d ∈ referencedSteps env step, s.completed.get d = outputs.get d

theorem AgentPlan.ids_ne (plan : AgentPlan) {earlier later : List PlanStep} {stopped : PlanStep}
    (h : plan.steps = earlier ++ stopped :: later) :
    (∀ step ∈ earlier, step.stepId ≠ stopped.stepId) ∧
      stopped.stepId ∉ later.map (·.stepId) ∧ (later.map (·.stepId)).Nodup ∧
      ∀ d ∈ earlier.map (·.stepId), d ∉ stopped.stepId :: later.map (·.stepId) := by
  have hunique := plan.unique
  rw [h, List.map_append, List.map_cons] at hunique
  obtain ⟨-, hlate, hdisjoint⟩ := List.nodup_append.mp hunique
  obtain ⟨hnotmem, hnodup⟩ := List.nodup_cons.mp hlate
  refine ⟨fun step hstep => ?_, hnotmem, hnodup, fun d hd hd' => hdisjoint d hd d hd' rfl⟩
  exact hdisjoint _ (List.mem_map_of_mem hstep) _ List.mem_cons_self

theorem paused_of_pause {plan : AgentPlan} {run : RunState} {approved : Approval}
    (hone : AtMostOneHighRisk env plan) (h : pause env plan = some (run, approved)) :
    ∃ earlier later stopped s arguments,
      Paused env plan run approved earlier later stopped s arguments := by
  obtain ⟨approved', hkeep, heq⟩ := Option.map_eq_some_iff.mp h
  obtain ⟨rfl, rfl⟩ := Prod.mk.inj heq
  rcases highRisk_split hone with hall | ⟨earlier, stopped, later, hsteps, hrisk, hearly, hlate⟩
  · -- no step is high-risk, so nobody is asked
    have hrun : execute env none plan [] = runLowRisk env plan.steps (.start []) := by
      have happend := executeFrom_append hall none [] (.start [])
      rwa [List.append_nil] at happend
    rw [hrun, keepForResume_of_unasked (Recorded.start.runLowRisk hall)] at hkeep
    cases hkeep
  · obtain ⟨s, hs⟩ : ∃ s, s = runLowRisk env earlier (.start []) := ⟨_, rfl⟩
    have hrecorded : Recorded s := hs ▸ Recorded.start.runLowRisk hearly
    have hrun : execute env none plan [] = executeFrom env none (stopped :: later) s := by
      rw [execute, hsteps, executeFrom_append hearly, hs]
    cases hflag : (executeStep env none stopped s).2 with
    | false =>
      -- the high-risk step did not ask, and the later ones do not
      have hlow := executeFrom_append hlate none [] (executeStep env none stopped s).1
      rw [List.append_nil] at hlow
      have hrun' : execute env none plan [] =
          runLowRisk env later (executeStep env none stopped s).1 := by
        rw [hrun, executeFrom]
        simp only [hflag, Bool.false_eq_true, if_false]
        exact hlow
      rw [hrun', keepForResume_of_unasked ((hrecorded.executeStep hflag).runLowRisk hlate)] at hkeep
      cases hkeep
    | true =>
      have hunblocked : ¬ Blocked stopped s := fun hb => by
        simp [executeStep_of_blocked hb] at hflag
      have hstep : executeStep env none stopped s = _ := executeStep_of_not_blocked hunblocked
      cases hr : resolveArguments env.digit stopped.arguments stopped.bindings s.completed with
      | error reason => simp [hstep, hr] at hflag
      | ok arguments =>
        simp only [hr] at hstep
        rcases agentRun_cases env none stopped arguments with ⟨refusal, -, hagent⟩ |
          ⟨v, hcheck, ⟨-, -, result, hagent, hid, hstatus, hask⟩ | ⟨-, hagent⟩⟩
        · have hne := outcomeResult_status stopped (.raised refusal)
          simp [hstep, hagent, hne] at hflag
        · have hstopped : execute env none plan [] = s.ran stopped (result, none) := by
            rw [hrun, executeFrom]
            simp only [hstep, hagent, hstatus, beq_self_eq_true, if_true]
          have hfind : (s.results ++ [result]).find?
              (fun r => r.status == .approvalRequired && r.approval.isSome) = some result := by
            rw [List.find?_append, List.find?_eq_none.mpr fun r hr => by
              simp [hrecorded.unasked r hr], Option.none_or]
            simp [hstatus, hask]
          obtain ⟨hne, -⟩ := plan.ids_ne hsteps
          have hfrom : stepsFrom (·.stepId == result.stepId) plan.steps = some (stopped, later) := by
            rw [hsteps]
            exact stepsFrom_append (fun x hx => by simpa [hid] using hne x hx) (by simp [hid])
          rw [hstopped] at hkeep ⊢
          simp only [keepForResume, RunState.ran, hfind, hask, hfrom, Option.some.injEq] at hkeep
          subst hkeep
          refine ⟨earlier, later, stopped, s, arguments, hsteps, hearly, hlate, hs, hunblocked, hr,
            hcheck, by simp [RunState.ran], ?_, ?_, rfl, rfl, _, by rw [hid], ?_⟩
          · simp [RunState.ran, StepResult.ok, hstatus]
          · simp [RunState.ran, hstatus]
          · intro step hstep d hd
            rw [get_keptOutputs (List.mem_flatMap.mpr ⟨step, hstep, hd⟩), hrecorded.completed]
            simp [collect, StepResult.ok, hstatus]
        · have hne := outcomeResult_status stopped (env.handler stopped.stepId stopped.tool v)
          simp [hstep, hagent, hne] at hflag

/-! ## The resumed run -/

theorem resume_of_stepsFrom (env : Environment) {approved : Approval} {kept : Kept} {stopped : PlanStep}
    {later : List PlanStep} (hkept : approved.resume = some kept)
    (hfrom : stepsFrom (fun step => step.stepId == kept.stoppedAt && step.tool == approved.toolName)
      kept.plan.steps = some (stopped, later)) :
    (resume env approved).1.steps = remainingSteps approved stopped later ∧
      (resume env approved).2 = kept.completed := by
  rw [resume, hkept]
  simp only
  split
  · rename_i hnone
    simp [hfrom] at hnone
  · rename_i stopped' later' hsome
    rw [hfrom] at hsome
    obtain ⟨rfl, rfl⟩ := Prod.mk.inj (Option.some.inj hsome)
    exact ⟨rfl, rfl⟩

theorem NoneRevived.congr {confirmed : Option Approval} {before : List String}
    {steps : List PlanStep} {s t : RunState} (hc : s.completed = t.completed)
    (hf : s.failed = t.failed) :
    NoneRevived env confirmed before s steps ↔ NoneRevived env confirmed before t steps := by
  induction steps generalizing s t with
  | nil => rfl
  | cons step steps ih =>
    have hnext : NoneRevived env confirmed before (executeStep env confirmed step s).1 steps ↔
        NoneRevived env confirmed before (executeStep env confirmed step t).1 steps := by
      obtain ⟨-, hc', hf'⟩ := executeStep_congr confirmed step hc hf
      exact ih hc' hf'
    simp only [NoneRevived, StoppedAnyway, hc, hf, hnext]

section
variable {plan : AgentPlan} {run : RunState} {approved : Approval} {earlier later : List PlanStep}
  {stopped : PlanStep} {s : RunState} {arguments : Dict}

/-- The uninterrupted run calls the step with the arguments the confirmation was asked for. -/
theorem Paused.executeStep (h : Paused env plan run approved earlier later stopped s arguments) :
    executeStep env (some approved) stopped s =
      (s.ran stopped
        (outcomeResult stopped (env.handler stopped.stepId stopped.tool approved.arguments),
          some ⟨stopped.stepId, stopped.tool, approved.arguments⟩), false) ∧
    stepCalls env (some approved) stopped s =
      [⟨stopped.stepId, stopped.tool, approved.arguments⟩] := by
  have husable : env.usable (some approved) stopped.tool approved.arguments = true := by
    simp [Environment.usable, h.tool, h.sha256]
  rw [executeStep_of_not_blocked h.unblocked, stepCalls_of_not_blocked h.unblocked, h.resolved]
  rcases agentRun_cases env (some approved) stopped arguments with ⟨refusal, hcheck, -⟩ |
    ⟨v, hcheck, ⟨-, hno, -⟩ | ⟨-, hagent⟩⟩
  · rw [h.checked] at hcheck
    cases hcheck
  · obtain rfl := Except.ok.inj (h.checked.symm.trans hcheck)
    rw [husable] at hno
    cases hno
  · obtain rfl := Except.ok.inj (h.checked.symm.trans hcheck)
    simp [hagent, outcomeResult_status]

theorem Paused.later_iff (h : Paused env plan run approved earlier later stopped s arguments)
    {outputs : Dict}
    (hkept : ∀ step ∈ later, ∀ d ∈ referencedSteps env step, s.completed.get d = outputs.get d)
    (result : StepResult × Option Call) {step' : PlanStep} (hid : step'.stepId = stopped.stepId) :
    callsFrom env (some approved) later (s.ran stopped result) =
        callsFrom env (some approved)
          (later.map (dropDependencies (stopped.stepId :: later.map (·.stepId))))
          ((RunState.start outputs).ran step' result) ↔
      NoneRevived env (some approved) s.failed (s.ran stopped result) later := by
  obtain ⟨-, -, hnodup, hdisjoint⟩ := plan.ids_ne h.steps
  have hbefore : ∀ d ∈ s.failed, d ∉ stopped.stepId :: later.map (·.stepId) := by
    intro d hd
    rw [h.before] at hd
    rcases failed_runLowRisk _ _ d hd with hd | hd
    · simp [RunState.start] at hd
    · exact hdisjoint d hd
  have hstart : Lockstep (fun d => ∃ step ∈ later, d ∈ referencedSteps env step) s.failed
      (stopped.stepId :: later.map (·.stepId)) s (.start outputs) := by
    refine ⟨by simp [RunState.start], by simp [RunState.start], ?_⟩
    rintro d ⟨step, hstep, hd⟩
    exact hkept step hstep d hd
  refine (hstart.ran List.mem_cons_self hid).calls_iff hbefore h.late hnodup
    (fun step hstep => List.mem_cons_of_mem _ (List.mem_map_of_mem hstep))
    fun step hstep binding hbinding d hd => ⟨step, hstep, ?_⟩
  refine List.mem_append_left _ (List.mem_append_right _ ?_)
  exact List.mem_filterMap.mpr ⟨binding, hbinding, hd⟩

theorem Paused.executed_iff (h : Paused env plan run approved earlier later stopped s arguments)
    {outputs : Dict} (hresume : approved.resume = some ⟨plan, stopped.stepId, outputs⟩) :
    run.executed ++ (execute env (some approved) (resume env approved).1
        (resume env approved).2).executed = (execute env (some approved) plan []).executed ↔
      callsFrom env (some approved) (remainingSteps approved stopped later) (.start outputs) =
        ⟨stopped.stepId, stopped.tool, approved.arguments⟩ ::
          callsFrom env (some approved) later
            (GuruJi.Agents.executeStep env (some approved) stopped s).1 := by
  obtain ⟨hwhole, hcall⟩ := h.executeStep
  have hfrom : stepsFrom (fun step => step.stepId == stopped.stepId && step.tool == approved.toolName)
      plan.steps = some (stopped, later) := by
    rw [h.steps]
    exact stepsFrom_append (fun x hx => by simp [(plan.ids_ne h.steps).1 x hx]) (by simp [h.tool])
  obtain ⟨hremaining, hcompleted⟩ := resume_of_stepsFrom env hresume hfrom
  have hflag : (GuruJi.Agents.executeStep env (some approved) stopped s).2 = false := by
    rw [hwhole]
  rw [execute, hremaining, hcompleted, execute, h.steps, executeFrom_append h.early, ← h.before,
    executed_executeFrom, executed_executeFrom, callsFrom_cons hflag, hcall, h.executed]
  exact List.append_right_inj _

/-- The run that stopped to ask leaves what later steps read as the uninterrupted one does. -/
theorem Paused.noneRevived_iff (h : Paused env plan run approved earlier later stopped s arguments) :
    NoneRevived env (some approved) run.failed (GuruJi.Agents.executeStep env
        (some approved) stopped ⟨run.completed, run.failed, [], []⟩).1 later ↔
      NoneRevived env (some approved) s.failed
        (GuruJi.Agents.executeStep env (some approved) stopped s).1 later := by
  obtain ⟨-, hcompleted, hfailed⟩ := executeStep_congr (some approved) stopped
    (s := ⟨run.completed, run.failed, [], []⟩) (t := s) h.completed h.failed
  rw [NoneRevived.congr hcompleted hfailed, h.failed]

theorem Paused.calls_iff (h : Paused env plan run approved earlier later stopped s arguments) :
    run.executed ++ (execute env (some approved) (resume env approved).1
        (resume env approved).2).executed =
      (execute env (some approved) plan []).executed ↔
    env.check approved.toolName approved.arguments = .ok approved.arguments ∧
      NoneRevived env (some approved) run.failed
        (GuruJi.Agents.executeStep env (some approved) stopped
          ⟨run.completed, run.failed, [], []⟩).1 later := by
  obtain ⟨outputs, hresume, hkept⟩ := h.kept
  obtain ⟨-, hnotmem, -⟩ := plan.ids_ne h.steps
  obtain ⟨hwhole, -⟩ := h.executeStep
  obtain ⟨later', hlater'⟩ : ∃ steps, steps =
      later.map (dropDependencies (stopped.stepId :: later.map (·.stepId))) := ⟨_, rfl⟩
  obtain ⟨step', hstep'⟩ : ∃ step, step =
      dropDependencies (stopped.stepId :: later.map (·.stepId)) (confirmedStep approved stopped) :=
    ⟨_, rfl⟩
  have hid : step'.stepId = stopped.stepId := by rw [hstep']; rfl
  have htool : step'.tool = approved.toolName := by rw [hstep']; rfl
  have hsteps : remainingSteps approved stopped later = step' :: later' := by
    rw [hstep', hlater']
    rfl
  have hunblocked : ¬ Blocked step' (.start outputs) := by
    rintro ⟨d, -, hd⟩
    simp [RunState.start] at hd
  have hresolved : resolveArguments env.digit step'.arguments step'.bindings
      (RunState.start outputs).completed = .ok approved.arguments := by
    rw [hstep']
    rfl
  -- a call of the stopped step is not among the calls of the later ones
  have hlast : ∀ r call calls, callsFrom env (some approved) later' r = call :: calls →
      call.stepId ≠ stopped.stepId := by
    intro r call calls heq hcallId
    have hids := mem_ids_of_callsFrom heq
    rw [hlater', List.map_map] at hids
    exact hnotmem (hcallId ▸ hids)
  rw [h.executed_iff hresume, h.noneRevived_iff, hsteps, callsFrom,
    stepCalls_of_not_blocked hunblocked, executeStep_of_not_blocked hunblocked, hresolved]
  simp only
  rcases agentRun_cases env (some approved) step' approved.arguments with ⟨refusal, hcheck, hagent⟩ |
    ⟨v, hcheck, ⟨-, hno, result, hagent, -, hstatus, -⟩ | ⟨-, hagent⟩⟩
  · -- the confirmed arguments are refused
    rw [htool] at hcheck
    have hne := outcomeResult_status step' (.raised refusal)
    simp only [hagent, Option.toList_none, List.nil_append, beq_eq_false_iff_ne.mpr hne,
      Bool.false_eq_true, if_false, hcheck]
    exact ⟨fun heq => absurd rfl (hlast _ _ _ heq), fun hok => by simp at hok⟩
  · -- the confirmation is not for what the checks make of its arguments
    rw [htool] at hcheck hno
    simp only [hagent, hstatus, Option.toList_none, List.nil_append, beq_self_eq_true, if_true,
      hcheck]
    refine ⟨fun heq => by simp at heq, fun hok => ?_⟩
    obtain rfl := Except.ok.inj hok.1
    simp [Environment.usable, h.sha256] at hno
  · rw [htool] at hcheck
    have hne := outcomeResult_status step' (env.handler step'.stepId step'.tool v)
    simp only [hagent, Option.toList_some, beq_eq_false_iff_ne.mpr hne, Bool.false_eq_true, if_false,
      List.singleton_append, List.cons.injEq]
    rw [hcheck]
    simp only [hid, htool, h.tool, Call.mk.injEq, true_and, Except.ok.injEq]
    refine and_congr_right ?_
    rintro rfl
    have hresult :
        outcomeResult step' (env.handler stopped.stepId stopped.tool approved.arguments) =
          outcomeResult stopped (env.handler stopped.stepId stopped.tool approved.arguments) := by
      cases env.handler stopped.stepId stopped.tool approved.arguments <;>
        simp [outcomeResult, hid, htool, h.tool]
    rw [hresult, hwhole, eq_comm, hlater']
    exact h.later_iff hkept _ hid

end

/-! ## When a resumed run is an uninterrupted one -/

theorem executed_nodup (confirmed : Option Approval) (plan : AgentPlan) :
    ((execute env confirmed plan []).executed.map (·.stepId)).Nodup := by
  rw [execute, executed_executeFrom]
  exact (callsFrom_ids env confirmed plan.steps _).nodup plan.unique

/-- **A resumed run makes the calls of an uninterrupted one exactly when the confirmed arguments
pass the checks unchanged and no later step was stopped by the steps before the pause alone.** -/
theorem resumesAsUninterrupted_iff (env : Environment) (plan : AgentPlan)
    (hone : AtMostOneHighRisk env plan) : ResumesAsUninterrupted env plan ↔ Resumable env plan := by
  have hboth : ∀ run approved, pause env plan = some (run, approved) →
      (run.executed ++ (execute env (some approved) (resume env approved).1
          (resume env approved).2).executed = (execute env (some approved) plan []).executed ↔
        ∀ kept ∈ approved.resume, ∀ stopped later,
          stepsFrom (·.stepId == kept.stoppedAt) plan.steps = some (stopped, later) →
          env.check approved.toolName approved.arguments = .ok approved.arguments ∧
          NoneRevived env (some approved) run.failed
            (executeStep env (some approved) stopped ⟨run.completed, run.failed, [], []⟩).1 later) := by
    intro run approved hpause
    obtain ⟨earlier, later, stopped, s, arguments, h⟩ := paused_of_pause hone hpause
    obtain ⟨outputs, hresume, -⟩ := h.kept
    have hfrom : stepsFrom (·.stepId == stopped.stepId) plan.steps = some (stopped, later) := by
      rw [h.steps]
      exact stepsFrom_append (fun x hx => by simpa using (plan.ids_ne h.steps).1 x hx) (by simp)
    rw [h.calls_iff]
    constructor
    · rintro hok kept hkept stopped' later' hfrom'
      rw [hresume] at hkept
      obtain rfl := Option.some.inj hkept
      obtain ⟨rfl, rfl⟩ := Prod.mk.inj (Option.some.inj (hfrom.symm.trans hfrom'))
      exact hok
    · intro hok
      exact hok _ hresume stopped later hfrom
  constructor
  · intro h run approved hpause
    exact (hboth run approved hpause).mp (h run approved hpause).1
  · intro h run approved hpause
    exact ⟨(hboth run approved hpause).mpr (h run approved hpause), executed_nodup _ plan⟩

/-! ## A failed dependency forgotten -/

/-- Tools that accept any arguments; the handler of the step `s1` fails. -/
def failingFirst : Environment where
  digit _ := none
  check _ arguments := .ok arguments
  highRisk tool := tool == "update_student_record"
  handler stepId _ _ :=
    if stepId = "s1" then .raised ⟨.failed, "the source is not available", by decide⟩
    else .output .null "done"
  digest _ := "d"
  toolAgent _ := "data"

/-- Find the students, change a record, write to the students found. -/
def threeSteps : AgentPlan where
  intent := "update_student_record"
  steps := [⟨"s1", "find_students", [], "find the students", [], [], "data"⟩,
    ⟨"s2", "update_student_record", [], "change the record", [], [], "action"⟩,
    ⟨"s3", "send_email", [], "write to them", ["s1"], [], "action"⟩]
  summary := ""
  planner := "deterministic"
  entities := []
  short := by decide
  unique := by decide
  known := by decide

theorem resumesAsUninterrupted_iff_threeSteps :
    ResumesAsUninterrupted failingFirst threeSteps ↔ Resumable failingFirst threeSteps :=
  resumesAsUninterrupted_iff failingFirst threeSteps (by unfold AtMostOneHighRisk; decide)

/-- The steps that a paused and resumed run calls, and those that an uninterrupted one calls. -/
def callIds (paused : RunState × Approval) : List String × List String :=
  let resumed := resume failingFirst paused.2
  ((paused.1.executed ++ (execute failingFirst (some paused.2) resumed.1 resumed.2).executed).map
      (·.stepId),
    (execute failingFirst (some paused.2) threeSteps []).executed.map (·.stepId))

/-- The step that depends on the failed one runs after the confirmation. -/
theorem not_resumesAsUninterrupted :
    ¬ ∀ (env : Environment) (plan : AgentPlan), AtMostOneHighRisk env plan →
      ResumesAsUninterrupted env plan := by
  intro h
  have hone : AtMostOneHighRisk failingFirst threeSteps := by unfold AtMostOneHighRisk; decide
  obtain ⟨⟨run, approved⟩, hpause⟩ : ∃ paused, pause failingFirst threeSteps = some paused := by
    exact ⟨_, rfl⟩
  have hcalls := congrArg (fun calls => calls.map Call.stepId)
    (h failingFirst threeSteps hone run approved hpause).1
  have hids : (pause failingFirst threeSteps).map callIds =
      some (["s1", "s2", "s3"], ["s1", "s2"]) := by decide
  rw [hpause] at hids
  obtain ⟨hresumed, hwhole⟩ := Prod.mk.inj (Option.some.inj hids)
  rw [hresumed, hwhole] at hcalls
  simp at hcalls

end GuruJi.Agents
