import GuruJi.Agents.Bindings
import GuruJi.Auth.Authorization
import Mathlib.Data.List.Nodup
import Mathlib.Data.Rat.Floor

/-!
# The open-task agent

One task: a model is asked turn after turn, and the tools that it calls are run in between. The model, the
gateway, the sandbox and the clock are a `World`, whose state each of them may change.

* `resultText_fits`: what is sent of a result fits, and is the longest preview that does;
* **`open_task_sound`**: what holds when a task ends, whatever the model answers.
-/

namespace GuruJi.OpenTask

open GuruJi.Lib
open GuruJi.Agents (Json Dict)
open GuruJi.Auth (PlatformToolSpec Principal)

/-! ## Results of tools -/

/-- `rows` of `_table`: a list of records. -/
def recordsOf : Json → Option (List Json)
  | .array items =>
    if items ≠ [] ∧ items.all (fun item => match item with | .object _ => true | _ => false) then some items
    else none
  | _ => none

/-- `max(tables, key=len)`: the first of the longest. -/
def longest : List (List Json) → Option (List Json)
  | [] => none
  | table :: tables =>
    some (tables.foldl (fun best t => if best.length < t.length then t else best) table)

/-- `_table`. -/
def table (data : Json) : Option (List Json) :=
  match recordsOf data, data with
  | some rows, _ => some rows
  | none, .object fields => longest (fields.filterMap fun field => recordsOf field.2)
  | none, _ => none

def columnsOf (rows : List Json) : List String :=
  (rows.flatMap fun row => match row with | .object fields => fields.map Prod.fst | _ => []).eraseDups

/-- What `_result` reads of a call of the gateway. -/
structure Invocation where
  status : String
  summary : String
  denialReason : Option String
  data : Json
  recordsReturned : Option Nat
  warnings : List Json
  /-- of each source its `source_id`, its title and where it is -/
  provenance : List (Option String × String × String)

def Invocation.ok (invocation : Invocation) : Bool := invocation.status = "success"

/-- `OpenTaskLimits`, without the tokens of a turn and the tasks of a day. -/
structure OpenTaskLimits where
  maxTurns : Nat
  maxResultChars : Nat
  previewRows : Nat
  maxCodeChars : Nat
  positive : 0 < maxTurns ∧ 0 < maxResultChars ∧ 0 < previewRows ∧ 0 < maxCodeChars

/-- The first preview that fits, from `rows` on, of half as many rows each. -/
def fitRows (limit : Nat) (encode : Nat → String) (rows : Nat) : Option String :=
  if (encode rows).toList.length ≤ limit then some (encode rows)
  else if h : 1 < rows then fitRows limit encode (rows / 2)
  else none
termination_by rows
decreasing_by omega

section
variable (dumps : Json → String) (limits : OpenTaskLimits) (payload : Dict)

/-- The text with a preview of the first rows. -/
def rowsText (rows : List Json) (n : Nat) : String :=
  dumps (.object (payload ++ [("preview_rows", .array (rows.take n))]))

def omittedText : String :=
  upTo limits.maxResultChars (dumps (.object (payload ++
    [("preview_omitted", .string "the result is too large to preview; read the files")])))

/-- The loop of `_result` over previews of a payload. -/
def resultText (data : Json) : String :=
  match table data with
  | some rows =>
    (fitRows limits.maxResultChars (rowsText dumps payload rows) limits.previewRows).getD
      (omittedText dumps limits payload)
  | none =>
    let whole := dumps (.object (payload ++ [("preview", data)]))
    if whole.toList.length ≤ limits.maxResultChars then whole else omittedText dumps limits payload

end

theorem fitRows_eq_some {limit : Nat} {encode : Nat → String} {rows : Nat} {text : String}
    (h : fitRows limit encode rows = some text) :
    ∃ k, text = encode (rows / 2 ^ k) ∧ text.toList.length ≤ limit ∧
      ∀ j < k, limit < (encode (rows / 2 ^ j)).toList.length := by
  fun_induction fitRows limit encode rows with
  | case1 rows hfits =>
    obtain rfl := Option.some.inj h
    exact ⟨0, by simp, hfits, by simp⟩
  | case2 rows hlong hrows ih =>
    obtain ⟨k, htext, hfits, hbefore⟩ := ih h
    refine ⟨k + 1, ?_, hfits, fun j hj => ?_⟩
    · rw [htext, Nat.pow_succ', Nat.div_div_eq_div_mul]
    · cases j with
      | zero => simpa using hlong
      | succ j =>
        have hlonger := hbefore j (by omega)
        rwa [Nat.div_div_eq_div_mul, ← Nat.pow_succ'] at hlonger
  | case3 rows hlong hrows => cases h

theorem fitRows_eq_none {limit : Nat} {encode : Nat → String} {rows : Nat}
    (h : fitRows limit encode rows = none) (k : Nat) (hk : 1 ≤ rows / 2 ^ k) :
    limit < (encode (rows / 2 ^ k)).toList.length := by
  fun_induction fitRows limit encode rows generalizing k with
  | case1 rows hfits => cases h
  | case2 rows hlong hrows ih =>
    cases k with
    | zero => simpa using hlong
    | succ k =>
      rw [Nat.pow_succ', ← Nat.div_div_eq_div_mul] at hk ⊢
      exact ih h k hk
  | case3 rows hlong hrows =>
    cases k with
    | zero => simpa using hlong
    | succ k =>
      have hone : rows / 2 ^ (k + 1) ≤ rows / 2 := by
        rw [Nat.pow_succ', ← Nat.div_div_eq_div_mul]
        exact Nat.div_le_self _ _
      omega

inductive Block where
  | text (text : String)
  | toolUse (id name : String) (input : Json)
  /-- thinking, and the like -/
  | other

/-- What a model answers, without its usage. -/
structure AssistantMessage where
  stopReason : String
  content : List Block

inductive TurnOutcome where
  | message (message : AssistantMessage)
  | timeout
  | unavailable

inductive ResultItem where
  | toolResult (toolUseId content : String) (isError : Bool)
  | text (text : String)

/-- A message of the conversation; of an assistant's only the content is sent. -/
inductive Message where
  | task (text : String)
  | assistant (message : AssistantMessage)
  | results (items : List ResultItem)

/-- A `StepResult`, without times and warnings. -/
structure ToolStep where
  stepId : String
  tool : String
  status : String
  summary : String
  recordsReturned : Option Nat
  denialReason : Option String

structure Source where
  sourceId : Option String
  title : String
  locator : String

/-- `_Run`, without usage; and what was asked of the model and of the gateway. -/
structure Run where
  steps : List ToolStep
  sources : List Source
  turns : Nat
  dataFiles : Nat
  asked : List (List Message)
  invoked : List String

def Run.start : Run := ⟨[], [], 0, 0, [], []⟩

def Run.ask (run : Run) (messages : List Message) : Run :=
  { run with turns := run.turns + 1, asked := run.asked ++ [messages] }

structure PythonResult where
  ok : Bool
  timedOut : Bool
  exitCode : String
  /-- what is sent of it: exit code, output and the files that are there -/
  payload : Json

/-- What a task meets; `ω` is the state of all of it. -/
structure World (ω : Type*) where
  /-- seconds until the deadline -/
  remaining : ω → ℚ
  toolTurn : ω → List Message → TurnOutcome × ω
  invoke : ω → String → Dict → Invocation × ω
  /-- runs a program for at most the seconds that are asked for, if they are a positive number -/
  runCode : ω → String → Option Json → PythonResult × ω
  dumps : Json → String
  isSpace : Char → Bool

/-- `RUN_PYTHON`. -/
def runPythonName : String := "run_python"

def argumentsOf : Json → Dict
  | .object fields => fields
  | _ => []

/-- Where `write_data` writes. -/
def dataPath (name : String) : Json := .string ("data/" ++ name)

/-- The payload of `_result`, without its preview. -/
def resultPayload (name : String) (invocation : Invocation) : Dict :=
  let csv := match table invocation.data with
    | some _ => [("csv", dataPath (name ++ ".csv"))]
    | none => []
  let records := match invocation.recordsReturned with
    | some n => .number (toString n)
    | none => .null
  let counts := match table invocation.data with
    | some rows => [("row_count", Json.number (toString rows.length)),
        ("columns", .array ((columnsOf rows).map .string))]
    | none => []
  let warnings := if invocation.warnings = [] then [] else [("warnings", .array (invocation.warnings.take 10))]
  [("status", .string "success"), ("summary", .string invocation.summary), ("records_returned", records),
    ("files", .object (("json", dataPath (name ++ ".json")) :: csv))] ++ counts ++ warnings

/-- `int` of a number. -/
def truncate (x : ℚ) : Int := if 0 ≤ x then ⌊x⌋ else ⌈x⌉

def stepId (run : Run) : String := "t" ++ toString (run.steps.length + 1)

def Run.record (run : Run) (tool status summary : String) (recordsReturned : Option Nat)
    (denialReason : Option String) : Run :=
  { run with steps := run.steps ++
      [⟨stepId run, tool, status, summary, recordsReturned, denialReason⟩] }

/-- The sources of a call, less those that are known. -/
def addSources : List Source → List (Option String × String × String) → List Source
  | sources, [] => sources
  | sources, (sourceId, title, locator) :: rest =>
    if sources.any (·.sourceId = sourceId) then addSources sources rest
    else addSources (sources ++ [⟨sourceId, title, locator⟩]) rest

section
variable {ω : Type*} (world : World ω) (limits : OpenTaskLimits) (allowed : List String)

/-- `_result`. -/
def result (tool : String) (invocation : Invocation) (run : Run) : (String × Bool) × Run :=
  if invocation.ok then
    let files := run.dataFiles + 1
    ((resultText world.dumps limits (resultPayload (tool ++ "_" ++ toString files) invocation)
      invocation.data, false), { run with dataFiles := files })
  else
    let reason := match invocation.denialReason with
      | some reason => if reason = "" then invocation.summary else reason
      | none => invocation.summary
    ((world.dumps (.object [("status", .string invocation.status),
      ("reason", .string (if reason = "" then invocation.status else reason))]), true), run)

/-- `_data_tool`. -/
def dataTool (name : String) (input : Json) (run : Run) (w : ω) : (String × Bool) × Run × ω :=
  if name ∈ allowed then
    let (invocation, w') := world.invoke w name (argumentsOf input)
    let summary := if invocation.summary = "" then invocation.denialReason.getD "" else invocation.summary
    let run := run.record name invocation.status summary invocation.recordsReturned invocation.denialReason
    let (sent, run) := result world limits name invocation
      { run with
        sources := addSources run.sources invocation.provenance
        invoked := run.invoked ++ [name] }
    (sent, run, w')
  else
    ((world.dumps (.object [("status", .string "unknown_tool"),
      ("reason", .string (name ++ " is not one of your tools"))]), true),
      run.record name "unknown_tool" "not available to the open-task agent" none (some "not available"), w)

/-- `_run_python`. -/
def runPython (input : Json) (run : Run) (w : ω) : (String × Bool) × Run × ω :=
  let code := match Table.get (argumentsOf input) "code" with
    | some (.string code) =>
      if strip world.isSpace code = "" ∨ limits.maxCodeChars < code.toList.length then none else some code
    | _ => none
  match code with
  | none =>
    ((world.dumps (.object [("status", .string "invalid_arguments"), ("reason", .string
      ("code must be a non-empty string of at most " ++ toString limits.maxCodeChars ++ " characters"))]),
        true),
      run.record runPythonName "invalid_arguments" "no runnable code" none
        (some "code missing or too long"), w)
  | some code =>
    let (done, w') := world.runCode w code (Table.get (argumentsOf input) "timeout_seconds")
    ((world.dumps done.payload, !done.ok),
      run.record runPythonName (if done.ok then "success" else "failed")
        (if done.timedOut then "timed out" else "exit code " ++ done.exitCode) none none, w')

/-- The calls of a message, one after another. -/
def callTools : List Block → Run → ω → List ResultItem × Run × ω
  | [], run, w => ([], run, w)
  | .toolUse id name input :: blocks, run, w =>
    let ((content, isError), run, w) :=
      if name = runPythonName then runPython world limits input run w
      else dataTool world limits allowed name input run w
    let (items, run, w) := callTools blocks run w
    (.toolResult id content isError :: items, run, w)
  | _ :: blocks, run, w => callTools blocks run w

inductive Stop where
  | limit | deadline | unavailable | refusal | done | cutOff
  deriving DecidableEq

/-- `_text`. -/
def textOf (message : AssistantMessage) : String :=
  strip world.isSpace (String.join (message.content.map fun block => match block with
    | .text text => text
    | _ => ""))

/-- What a model is told of its budget once little of it is left. -/
def budgetNote (turnsLeft : Nat) (secondsLeft : Int) : List ResultItem :=
  if turnsLeft ≤ 2 ∨ secondsLeft ≤ 120 then
    [.text ("Budget: " ++ toString turnsLeft ++ " model turns and about " ++ toString (max secondsLeft 0) ++
      " seconds left. Finish now: make sure the deliverables are in outputs/ and reply with your summary.")]
  else []

structure State (ω : Type*) where
  messages : List Message
  run : Run
  world : ω

/-- One round of the loop: it stops, with a text, or goes on. -/
def turn (s : State ω) : Option (Stop × String) × State ω :=
  if world.remaining s.world ≤ 5 then (some (.deadline, ""), s)
  else
    let run := s.run.ask s.messages
    match world.toolTurn s.world s.messages with
    | (.timeout, w) => (some (.deadline, ""), ⟨s.messages, run, w⟩)
    | (.unavailable, w) => (some (.unavailable, ""), ⟨s.messages, run, w⟩)
    | (.message message, w) =>
      let messages := s.messages ++ [.assistant message]
      if message.stopReason = "refusal" then (some (.refusal, ""), ⟨messages, run, w⟩)
      else if message.stopReason = "pause_turn" then (none, ⟨messages, run, w⟩)
      else if message.stopReason ≠ "tool_use" then
        (some (if message.stopReason = "end_turn" then .done else .cutOff, textOf world message),
          ⟨messages, run, w⟩)
      else
        let (items, run, w) := callTools world limits allowed message.content run w
        if items = [] then (some (.done, textOf world message), ⟨messages, run, w⟩)
        else
          let note := budgetNote (limits.maxTurns - run.turns) (truncate (world.remaining w))
          (none, ⟨messages ++ [.results (items ++ note)], run, w⟩)

/-- `_loop`, with as many turns as are left. -/
def loop : Nat → State ω → (Stop × String) × State ω
  | 0, s => ((.limit, ""), s)
  | turns + 1, s =>
    match turn world limits allowed s with
    | (some stop, s') => (stop, s')
    | (none, s') => loop turns s'

end

/-- `for_principal`, of the registered tools. -/
def forPrincipal {u : Auth.Language} (registered : List (PlatformToolSpec u)) (principal : Principal u) :
    List (PlatformToolSpec u) :=
  registered.filter fun tool => principal.hasCapability tool.requiredCapability

/-- `tools_for`. -/
def toolsFor {u : Auth.Language} (registered : List (PlatformToolSpec u)) (principal : Principal u) :
    List (PlatformToolSpec u) :=
  (forPrincipal registered principal).filter fun tool => tool.risk = .read

/-! ## What tools do to a run -/

/-- The calls of a message: their ids and the tools. -/
def callsOf : List Block → List (String × String)
  | [] => []
  | .toolUse id name _ :: blocks => (id, name) :: callsOf blocks
  | _ :: blocks => callsOf blocks

def ResultItem.answers : ResultItem → Option String
  | .toolResult id _ _ => some id
  | .text _ => none

def Numbered (steps : List ToolStep) : Prop :=
  steps.map (·.stepId) = (List.range steps.length).map fun n => "t" ++ toString (n + 1)

/-- The gateway is asked for a call of a tool that is allowed. -/
def reaches (allowed : List String) (name : String) : Bool := name ≠ runPythonName && name ∈ allowed

/-- From one run to another, calls of `tools` are made. -/
structure Ran (allowed tools : List String) (run run' : Run) : Prop where
  steps : run'.steps.map (·.tool) = run.steps.map (·.tool) ++ tools
  numbered : Numbered run.steps → Numbered run'.steps
  sources : (run.sources.map (·.sourceId)).Nodup → (run'.sources.map (·.sourceId)).Nodup
  invoked : run'.invoked = run.invoked ++ tools.filter (reaches allowed)
  asked : run'.asked = run.asked
  turns : run'.turns = run.turns

section
variable {ω : Type*} {world : World ω} {limits : OpenTaskLimits} {allowed tools more : List String}
  {run run' run'' : Run}

theorem Ran.refl (allowed : List String) (run : Run) : Ran allowed [] run run :=
  ⟨by simp, id, id, by simp, rfl, rfl⟩

theorem Ran.trans (h : Ran allowed tools run run') (h' : Ran allowed more run' run'') :
    Ran allowed (tools ++ more) run run'' where
  steps := by rw [h'.steps, h.steps, List.append_assoc]
  numbered := h'.numbered ∘ h.numbered
  sources := h'.sources ∘ h.sources
  invoked := by rw [h'.invoked, h.invoked, List.filter_append, List.append_assoc]
  asked := h'.asked.trans h.asked
  turns := h'.turns.trans h.turns

theorem numbered_concat {steps : List ToolStep} {step : ToolStep} (h : Numbered steps)
    (hstep : step.stepId = "t" ++ toString (steps.length + 1)) : Numbered (steps ++ [step]) := by
  rw [Numbered, List.map_append, h, List.length_append, List.length_singleton, List.range_succ,
    List.map_append, List.map_singleton, List.map_singleton, hstep]

theorem nodup_addSources (items : List (Option String × String × String)) {sources : List Source}
    (h : (sources.map (·.sourceId)).Nodup) :
    ((addSources sources items).map (·.sourceId)).Nodup := by
  induction items generalizing sources with
  | nil => exact h
  | cons item items ih =>
    obtain ⟨sourceId, title, locator⟩ := item
    rw [addSources]
    split_ifs with hknown
    · exact ih h
    · refine ih ?_
      rw [List.map_append, List.map_singleton]
      refine List.nodup_append.mpr ⟨h, List.nodup_singleton _, fun x hx y hy heq => ?_⟩
      obtain rfl : x = sourceId := heq.trans (List.mem_singleton.mp hy)
      obtain ⟨source, hsource, rfl⟩ := List.mem_map.mp hx
      exact hknown (List.any_eq_true.mpr ⟨source, hsource, decide_eq_true rfl⟩)

theorem ran_record (run : Run) (tool status summary : String) (recordsReturned : Option Nat)
    (denialReason : Option String) (htool : reaches allowed tool = false) :
    Ran allowed [tool] run (run.record tool status summary recordsReturned denialReason) :=
  ⟨by simp [Run.record], fun h => numbered_concat h rfl, id, by simp [Run.record, htool], rfl, rfl⟩

variable (world limits) in
theorem result_run (tool : String) (invocation : Invocation) (run : Run) :
    ∃ files, (result world limits tool invocation run).2 = { run with dataFiles := files } := by
  rw [result]
  split_ifs
  · exact ⟨_, rfl⟩
  · exact ⟨run.dataFiles, rfl⟩

variable (world limits allowed) in
theorem dataTool_ran (name : String) (input : Json) (run : Run) (w : ω) (hname : name ≠ runPythonName) :
    Ran allowed [name] run (dataTool world limits allowed name input run w).2.1 := by
  rw [dataTool]
  split_ifs with hallowed
  · show Ran allowed [name] run (result world limits name _ _).2
    obtain ⟨files, hrun⟩ := result_run world limits name _ _
    rw [hrun]
    refine ⟨by simp [Run.record], fun h => numbered_concat h rfl, fun h => nodup_addSources _ h, ?_, rfl, rfl⟩
    simp [Run.record, reaches, hname, hallowed]
  · exact ran_record _ _ _ _ _ _ (by simp [reaches, hallowed])

variable (world limits allowed) in
theorem runPython_ran (input : Json) (run : Run) (w : ω) :
    Ran allowed [runPythonName] run (runPython world limits input run w).2.1 := by
  rw [runPython]
  dsimp only
  split
  · exact ran_record _ _ _ _ _ _ (by simp [reaches])
  · exact ran_record _ _ _ _ _ _ (by simp [reaches])

variable (world limits allowed) in
/-- **The calls of a message** are made in their order, each once, and each is answered. -/
theorem callTools_spec (blocks : List Block) (run : Run) (w : ω) :
    (callTools world limits allowed blocks run w).1.filterMap ResultItem.answers =
        (callsOf blocks).map Prod.fst ∧
      Ran allowed ((callsOf blocks).map Prod.snd) run (callTools world limits allowed blocks run w).2.1 := by
  induction blocks generalizing run w with
  | nil => exact ⟨rfl, Ran.refl allowed run⟩
  | cons block blocks ih =>
    cases block with
    | text text => exact ih run w
    | other => exact ih run w
    | toolUse id name input =>
      by_cases hname : name = runPythonName
      · obtain ⟨hitems, hran⟩ := ih (runPython world limits input run w).2.1
          (runPython world limits input run w).2.2
        have hcall := runPython_ran world limits allowed input run w
        simp only [callTools, if_pos hname, callsOf, List.filterMap_cons, ResultItem.answers,
          List.map_cons]
        refine ⟨by rw [hitems], ?_⟩
        rw [hname]
        exact hcall.trans hran
      · obtain ⟨hitems, hran⟩ := ih (dataTool world limits allowed name input run w).2.1
          (dataTool world limits allowed name input run w).2.2
        have hcall := dataTool_ran world limits allowed name input run w hname
        simp only [callTools, if_neg hname, callsOf, List.filterMap_cons, ResultItem.answers,
          List.map_cons]
        exact ⟨by rw [hitems], hcall.trans hran⟩

end

/-! ## Runs -/

/-- A conversation that may be sent: what an assistant's turn called is answered right after it, in its
order, and only a turn that was paused has no answer. -/
inductive Dialogue : List Message → Prop
  | task (text : String) : Dialogue [.task text]
  | paused {messages : List Message} {message : AssistantMessage} (h : Dialogue messages)
      (hstop : message.stopReason = "pause_turn") : Dialogue (messages ++ [.assistant message])
  | answered {messages : List Message} {message : AssistantMessage} {items : List ResultItem}
      (h : Dialogue messages) (hstop : message.stopReason = "tool_use") (hcalls : callsOf message.content ≠ [])
      (hitems : items.filterMap ResultItem.answers = (callsOf message.content).map Prod.fst) :
      Dialogue (messages ++ [.assistant message, .results items])

/-- The calls that a message of the conversation makes the agent run. -/
def Message.calls : Message → List String
  | .assistant message =>
    if message.stopReason = "tool_use" then (callsOf message.content).map Prod.snd else []
  | _ => []

/-- What holds of a task between its turns and at its end. -/
structure Sound {ω : Type*} (allowed : List String) (s : State ω) : Prop where
  turns : s.run.asked.length = s.run.turns
  dialogues : ∀ messages ∈ s.run.asked, Dialogue messages
  grows : s.run.asked.Pairwise (· <+: ·)
  sent : ∀ messages ∈ s.run.asked, messages <+: s.messages
  steps : s.run.steps.map (·.tool) = s.messages.flatMap Message.calls
  numbered : Numbered s.run.steps
  invoked : s.run.invoked = (s.messages.flatMap Message.calls).filter (reaches allowed)
  sources : (s.run.sources.map (·.sourceId)).Nodup

section
variable {ω : Type*} {world : World ω} {limits : OpenTaskLimits} {allowed : List String} {s : State ω}

theorem items_eq_nil {blocks : List Block} {run : Run} {w : ω} (h : callsOf blocks = []) :
    (callTools world limits allowed blocks run w).1 = [] := by
  induction blocks generalizing run w with
  | nil => rfl
  | cons block blocks ih =>
    cases block with
    | text text => exact ih h
    | other => exact ih h
    | toolUse id name input => cases h

theorem answers_budgetNote (turnsLeft : Nat) (secondsLeft : Int) :
    (budgetNote turnsLeft secondsLeft).filterMap ResultItem.answers = [] := by
  rw [budgetNote]
  split_ifs <;> rfl

theorem Sound.start (allowed : List String) (text : String) (w : ω) :
    Sound allowed ⟨[.task text], Run.start, w⟩ :=
  ⟨rfl, by simp [Run.start], List.Pairwise.nil, by simp [Run.start], rfl, rfl, rfl, List.nodup_nil⟩

theorem Sound.elsewhere (h : Sound allowed s) (w : ω) : Sound allowed { s with world := w } :=
  { h with }

/-- The conversation is sent to the model once more. -/
theorem Sound.ask (h : Sound allowed s) (hdialogue : Dialogue s.messages) :
    Sound allowed { s with run := s.run.ask s.messages } := {
  h with
  turns := by simp [Run.ask, h.turns]
  dialogues := fun messages hmem => by
    rcases List.mem_append.mp hmem with hmem | hmem
    · exact h.dialogues messages hmem
    · rw [List.mem_singleton.mp hmem]
      exact hdialogue
  grows := by
    refine List.pairwise_append.mpr ⟨h.grows, List.pairwise_singleton _ _, fun messages hmem last hlast => ?_⟩
    rw [List.mem_singleton.mp hlast]
    exact h.sent messages hmem
  sent := fun messages hmem => by
    rcases List.mem_append.mp hmem with hmem | hmem
    · exact h.sent messages hmem
    · exact List.mem_singleton.mp hmem ▸ List.prefix_rfl }

/-- Messages are added, and the calls of them are made. -/
theorem Sound.extend (h : Sound allowed s) {more : List Message} {run : Run} {w : ω}
    (hran : Ran allowed (more.flatMap Message.calls) s.run run) :
    Sound allowed ⟨s.messages ++ more, run, w⟩ where
  turns := by rw [hran.asked, hran.turns, h.turns]
  dialogues := by rw [hran.asked]; exact h.dialogues
  grows := by rw [hran.asked]; exact h.grows
  sent messages hmem := by
    rw [hran.asked] at hmem
    exact (h.sent messages hmem).trans (List.prefix_append _ _)
  steps := by rw [hran.steps, h.steps, List.flatMap_append]
  numbered := hran.numbered h.numbered
  invoked := by rw [hran.invoked, h.invoked, List.flatMap_append, List.filter_append]
  sources := hran.sources h.sources

variable (world limits) in
/-- **One turn** keeps it, counts itself, and goes on only with a conversation that may be sent. -/
theorem Sound.turn (h : Sound allowed s) (hdialogue : Dialogue s.messages) :
    Sound allowed (turn world limits allowed s).2 ∧
      (turn world limits allowed s).2.run.turns ≤ s.run.turns + 1 ∧
        ((turn world limits allowed s).1 = none → Dialogue (turn world limits allowed s).2.messages) := by
  have hask := h.ask hdialogue
  -- a message that makes the agent run nothing
  have hquiet : ∀ (message : AssistantMessage) (w : ω), message.stopReason ≠ "tool_use" →
      Sound allowed ⟨s.messages ++ [.assistant message], s.run.ask s.messages, w⟩ := by
    intro message w hstop
    refine hask.extend ?_
    simp only [List.flatMap_cons, List.flatMap_nil, Message.calls, if_neg hstop, List.append_nil]
    exact Ran.refl _ _
  rw [OpenTask.turn]
  split_ifs with hdeadline
  · exact ⟨h, Nat.le_succ _, fun hstop => by cases hstop⟩
  dsimp only
  split
  · exact ⟨hask.elsewhere _, le_refl _, fun hstop => by cases hstop⟩
  · exact ⟨hask.elsewhere _, le_refl _, fun hstop => by cases hstop⟩
  · rename_i message w hmessage
    split_ifs with hrefusal hpause hother hend hnone
    · exact ⟨hquiet message w (by rw [hrefusal]; decide), le_refl _, fun hstop => by cases hstop⟩
    · exact ⟨hquiet message w (by rw [hpause]; decide), le_refl _, fun _ => .paused hdialogue hpause⟩
    · exact ⟨hquiet message w hother, le_refl _, fun hstop => by cases hstop⟩
    · exact ⟨hquiet message w hother, le_refl _, fun hstop => by cases hstop⟩
    all_goals
      have hstop : message.stopReason = "tool_use" := not_not.mp hother
      obtain ⟨hitems, hran⟩ := callTools_spec world limits allowed message.content
        (s.run.ask s.messages) w
    · refine ⟨hask.extend ?_, hran.turns.le, fun hstop => by cases hstop⟩
      simpa [Message.calls, hstop] using hran
    · refine ⟨?_, hran.turns.le, fun _ => ?_⟩
      · dsimp only
        rw [List.append_assoc]
        refine hask.extend ?_
        simpa [Message.calls, hstop] using hran
      · dsimp only
        rw [List.append_assoc]
        refine .answered hdialogue hstop (fun hcalls => hnone ?_) ?_
        · exact items_eq_nil hcalls
        · rw [List.filterMap_append, hitems, answers_budgetNote, List.append_nil]

variable (world limits) in
/-- What one turn keeps, a whole task keeps. -/
theorem Sound.loop (turns : Nat) (h : Sound allowed s) (hdialogue : Dialogue s.messages) :
    Sound allowed (loop world limits allowed turns s).2 ∧
      (loop world limits allowed turns s).2.run.turns ≤ s.run.turns + turns := by
  induction turns generalizing s with
  | zero => exact ⟨h, le_refl _⟩
  | succ turns ih =>
    obtain ⟨hsound, hturns, hgoes⟩ := h.turn world limits hdialogue
    rw [OpenTask.loop]
    split
    · rename_i stop s' hstop
      rw [hstop] at hsound hturns
      exact ⟨hsound, by dsimp only at hturns ⊢; omega⟩
    · rename_i s' hstop
      rw [hstop] at hsound hturns hgoes
      obtain ⟨hsound', hturns'⟩ := ih hsound (hgoes rfl)
      refine ⟨hsound', ?_⟩
      dsimp only at hturns hturns' ⊢
      omega

/-- **A task of any model**: it is asked at most as often as the limit says, each time with what it was
sent before and more; each of its calls is run once, in its order, and answered at once; and the gateway is
asked for nothing but calls of tools that only read and that the person may use. -/
theorem open_task_sound {u : Auth.Language} (world : World ω) (limits : OpenTaskLimits)
    (registered : List (PlatformToolSpec u)) (principal : Principal u) (text : String) (w : ω) :
    let allowed := (toolsFor registered principal).map (·.name)
    let final := (loop world limits allowed limits.maxTurns ⟨[.task text], Run.start, w⟩).2
    Sound allowed final ∧ final.run.turns ≤ limits.maxTurns ∧
      ∀ name ∈ final.run.invoked, ∃ tool ∈ registered, tool.name = name ∧ tool.risk = .read ∧
        principal.hasCapability tool.requiredCapability = true := by
  intro allowed final
  obtain ⟨hsound, hturns⟩ := (Sound.start allowed text w).loop world limits limits.maxTurns
    (.task text)
  refine ⟨hsound, hturns.trans (Nat.zero_add _).le, fun name hname => ?_⟩
  rw [hsound.invoked] at hname
  obtain ⟨-, hallowed⟩ := List.mem_filter.mp hname
  rw [reaches, Bool.and_eq_true] at hallowed
  obtain ⟨tool, htool, rfl⟩ := List.mem_map.mp (of_decide_eq_true hallowed.2)
  obtain ⟨htool, hread⟩ := List.mem_filter.mp htool
  obtain ⟨hregistered, hcapable⟩ := List.mem_filter.mp htool
  exact ⟨tool, hregistered, rfl, of_decide_eq_true hread, hcapable⟩

end

end GuruJi.OpenTask
