import GuruJi.Lib.Machine
import GuruJi.Lib.Table
import Mathlib.Data.List.Perm.Subperm

/-!
# Turns of a voice connection

The socket keeps reading while turns are answered: each turn is a task of its own, and the map `_turns`
names the tasks by the ids of their messages. A new utterance or an interrupt mutes what is being
answered and cancels it, unless the turn has reached the master agent; when the connection ends, the
tasks of the map are waited for. Between two awaits of the read loop the turns go on.

* `uncut_step`: no step cancels a turn in its agent stage;
* `tracked_step`: as long as no turn takes the id of one that is running, the map names every task that
  runs;
* **`turns_in_hand`**: what holds of every run;
* `turn_overwritten`: utterances that repeat an id.
-/

namespace GuruJi.Voice

open GuruJi.Lib

/-- `MAX_TURNS_IN_FLIGHT`. -/
def maxTurnsInFlight : Nat := 3

/-- How far the dialogue is with a turn. -/
inductive Stage where
  | preparing | agent | conversation | answered
  deriving DecidableEq

/-- `_TurnState` and its task: whether it was asked to cancel, and whether it is done. -/
structure TurnState where
  clientMessageId : String
  stage : Stage
  isProtected : Bool
  muted : Bool
  cancelled : Bool
  done : Bool
  deriving DecidableEq

def TurnState.new (clientMessageId : String) : TurnState :=
  ⟨clientMessageId, .preparing, false, false, false, false⟩

/-- Where the read loop is. -/
inductive ReaderState where
  | reading
  /-- In `_interrupt`, with the turns still to be stopped and the id of the turn to start after it, if
  any. -/
  | stopping (rest : List Nat) (next : Option String)
  /-- After `_shutdown`, with the tasks it waits for. -/
  | ended (waited : List Nat)
  deriving DecidableEq

/-- The turns started so far by their numbers, and `_turns`. -/
structure Connection where
  started : Nat
  turn : Nat → TurnState
  turns : Table String Nat
  reader : ReaderState

inductive ConnectionAction where
  /-- An `interrupt` event, which may name a turn. -/
  | interrupt (clientMessageId : Option String)
  /-- An utterance, with the id that is made up where it has none. -/
  | utterance (clientMessageId : Option String) (generated : String)
  /-- The next step of `_interrupt`, up to its next `await`. -/
  | stopNext
  /-- What follows `_interrupt`. -/
  | proceed
  /-- The read loop ends, whatever the reason. -/
  | shutdown
  /-- `on_progress` of a turn, with the stage "agent" or "conversation". -/
  | progress (i : Nat) (agent : Bool)
  /-- The dialogue has answered. -/
  | respond (i : Nat) (sideEffects : Bool)
  /-- The task of a turn is done, cancelled or not. -/
  | finish (i : Nat)
  deriving DecidableEq

namespace Connection
variable (w : Connection)

/-- The turns of the map whose tasks are not done. -/
def liveTurns : List Nat := (w.turns.map Prod.snd).filter fun i => !(w.turn i).done

/-- What `_interrupt` stops: what is not muted yet, or of it the named turn. -/
def interrupted (clientMessageId : Option String) : List Nat :=
  let live := w.liveTurns.filter fun i => !(w.turn i).muted
  match clientMessageId with
  | none => live
  | some id =>
    let own := live.filter fun i => (w.turn i).clientMessageId = id
    if (w.turns.get id).isSome ∧ own ≠ [] then own else live

def modify (i : Nat) (f : TurnState → TurnState) : Connection :=
  { w with turn := Function.update w.turn i (f (w.turn i)) }

def cancel (state : TurnState) : TurnState :=
  if state.isProtected then state else { state with cancelled := state.cancelled || !state.done }

/-- A turn is muted and, unless it is protected, cancelled. -/
def stop (state : TurnState) : TurnState := cancel { state with muted := true }

/-- `_start_turn`, after the interrupt: nothing is started when too much is live. -/
def startTurn (id : String) : Connection :=
  if maxTurnsInFlight ≤ w.liveTurns.length then { w with reader := .reading }
  else
    { started := w.started + 1
      turn := Function.update w.turn w.started (.new id)
      turns := Table.assign (w.turns.filter fun e => !(w.turn e.2).done) id w.started
      reader := .reading }

/-- `_shutdown`. -/
def shutdown : Connection :=
  { w with
    turn := fun i => if i ∈ w.liveTurns then cancel (w.turn i) else w.turn i
    reader := .ended w.liveTurns }

/-- The task goes on: it has started, and was neither asked to cancel nor is it done. -/
def goesOn (i : Nat) : Bool := i < w.started && !(w.turn i).cancelled && !(w.turn i).done

def step : ConnectionAction → Option Connection
  | .interrupt named =>
    if w.reader = .reading then some { w with reader := .stopping (w.interrupted named) none } else none
  | .utterance clientMessageId generated =>
    if w.reader = .reading then
      some { w with reader := .stopping (w.interrupted none) (some (clientMessageId.getD generated)) }
    else none
  | .stopNext =>
    match w.reader with
    | .stopping (i :: rest) next => some { w.modify i stop with reader := .stopping rest next }
    | _ => none
  | .proceed =>
    match w.reader with
    | .stopping [] none => some { w with reader := .reading }
    | .stopping [] (some id) => some (w.startTurn id)
    | _ => none
  | .shutdown =>
    match w.reader with
    | .ended _ => none
    | _ => some w.shutdown
  | .progress i agent =>
    if w.goesOn i ∧ (w.turn i).stage ≠ .answered then
      some (w.modify i fun state =>
        { state with stage := if agent then .agent else .conversation, isProtected := agent })
    else none
  | .respond i sideEffects =>
    if w.goesOn i then
      some (w.modify i fun state =>
        { state with stage := .answered, isProtected := state.isProtected || sideEffects })
    else none
  | .finish i =>
    if i < w.started then some (w.modify i fun state => { state with done := true }) else none

end Connection

def connection : Machine Connection ConnectionAction where
  init w := w.started = 0 ∧ (∀ i, w.turn i = .new "") ∧ w.turns = [] ∧ w.reader = .reading
  step := Connection.step

/-- No turn is started under the id of one that is still running. -/
def FreshTurn (w : Connection) : ConnectionAction → Prop
  | .proceed => ∀ id, w.reader = .stopping [] (some id) → w.liveTurns.length < maxTurnsInFlight →
      ∀ i < w.started, (w.turn i).clientMessageId = id → (w.turn i).done = true
  | _ => True

def Connection.running (w : Connection) : List Nat := (List.range w.started).filter fun i =>
    !(w.turn i).done

/-- No turn in its agent stage was asked to cancel. -/
def Uncut (w : Connection) : Prop := ∀ i, (w.turn i).stage = .agent → (w.turn i).cancelled = false

def Bounded (w : Connection) : Prop := w.running.length ≤ maxTurnsInFlight

/-- When the connection has ended, the turns that are still in their agent stage are waited for. -/
def Waited (w : Connection) : Prop :=
  ∀ waited, w.reader = .ended waited → ∀ i ∈ w.running, (w.turn i).stage = .agent → i ∈ waited

/-! ## One turn -/

/-- What a step may make of a turn. -/
inductive TurnMove (s : TurnState) : TurnState → Prop
  | stays : TurnMove s s
  | stopped : TurnMove s (Connection.stop s)
  | cancelled : TurnMove s (Connection.cancel s)
  | progressed (agent : Bool) (hgoes : s.cancelled = false) :
      TurnMove s { s with stage := if agent then .agent else .conversation, isProtected := agent }
  | responded (sideEffects : Bool) :
      TurnMove s { s with stage := .answered, isProtected := s.isProtected || sideEffects }
  | finished : TurnMove s { s with done := true }

/-- A turn in its agent stage is protected, and was not asked to cancel. -/
def Safe (s : TurnState) : Prop := s.stage = .agent → s.isProtected = true ∧ s.cancelled = false

theorem safe_cancel {s : TurnState} (h : Safe s) : Safe (Connection.cancel s) := by
  intro hstage
  rw [Connection.cancel] at hstage ⊢
  split_ifs at hstage ⊢ with hprotected
  · exact h hstage
  · exact absurd (h hstage).1 hprotected

theorem TurnMove.safe {s s' : TurnState} (hmove : TurnMove s s') (h : Safe s) : Safe s' := by
  cases hmove with
  | stays => exact h
  | stopped =>
    have hmuted : Safe { s with muted := true } := h
    exact safe_cancel hmuted
  | cancelled => exact safe_cancel h
  | progressed agent hgoes =>
    intro hstage
    cases agent with
    | true => exact ⟨rfl, hgoes⟩
    | false => cases hstage
  | responded sideEffects =>
    intro hstage
    cases hstage
  | finished => exact h

theorem cancel_same (s : TurnState) :
    (Connection.cancel s).clientMessageId = s.clientMessageId ∧ (Connection.cancel s).done = s.done := by
  rw [Connection.cancel]
  split_ifs
  · exact ⟨rfl, rfl⟩
  · exact ⟨rfl, rfl⟩

theorem TurnMove.lasts {s s' : TurnState} (hmove : TurnMove s s') :
    s'.clientMessageId = s.clientMessageId ∧ (s.done = true → s'.done = true) := by
  cases hmove with
  | stays => exact ⟨rfl, id⟩
  | stopped =>
    obtain ⟨hid, hdone⟩ := cancel_same { s with muted := true }
    exact ⟨hid, fun h => hdone.trans h⟩
  | cancelled =>
    obtain ⟨hid, hdone⟩ := cancel_same s
    exact ⟨hid, fun h => hdone.trans h⟩
  | progressed agent hgoes => exact ⟨rfl, id⟩
  | responded sideEffects => exact ⟨rfl, id⟩
  | finished => exact ⟨rfl, fun _ => rfl⟩

/-! ## One step -/

variable {w w' : Connection} {a : ConnectionAction}

theorem modify_moves (w : Connection) {i : Nat} {f : TurnState → TurnState}
    (hf : TurnMove (w.turn i) (f (w.turn i)))
    (j : Nat) : TurnMove (w.turn j) ((w.modify i f).turn j) := by
  show TurnMove (w.turn j) (Function.update w.turn i (f (w.turn i)) j)
  by_cases hij : j = i
  · subst hij
    rw [Function.update_self]
    exact hf
  · rw [Function.update_of_ne hij]
    exact .stays

theorem step_cases (h : w.step a = some w') :
    (∃ id, w.reader = .stopping [] (some id) ∧ a = .proceed ∧ w.liveTurns.length < maxTurnsInFlight ∧
      w' = w.startTurn id) ∨
    (w'.turns = w.turns ∧ w'.started = w.started ∧ (∀ i, TurnMove (w.turn i) (w'.turn i)) ∧
      ∀ waited, w'.reader = .ended waited → w.reader = .ended waited ∨ waited = w.liveTurns) := by
  have hstays : ∀ i, TurnMove (w.turn i) (w.turn i) := fun _ => .stays
  cases a with
  | interrupt named =>
    rw [Connection.step] at h
    split_ifs at h
    obtain rfl := Option.some.inj h
    exact .inr ⟨rfl, rfl, hstays, fun _ hended => by cases hended⟩
  | utterance clientMessageId generated =>
    rw [Connection.step] at h
    split_ifs at h
    obtain rfl := Option.some.inj h
    exact .inr ⟨rfl, rfl, hstays, fun _ hended => by cases hended⟩
  | stopNext =>
    rw [Connection.step] at h
    split at h
    · obtain rfl := Option.some.inj h
      exact .inr ⟨rfl, rfl, modify_moves w .stopped, fun _ hended => by cases hended⟩
    · cases h
  | proceed =>
    rw [Connection.step] at h
    split at h
    · obtain rfl := Option.some.inj h
      exact .inr ⟨rfl, rfl, hstays, fun _ hended => by cases hended⟩
    · rename_i id hreader
      obtain rfl := Option.some.inj h
      by_cases hbusy : maxTurnsInFlight ≤ w.liveTurns.length
      · rw [Connection.startTurn, if_pos hbusy]
        exact .inr ⟨rfl, rfl, hstays, fun _ hended => by cases hended⟩
      · exact .inl ⟨id, hreader, rfl, Nat.lt_of_not_le hbusy, rfl⟩
    · cases h
  | shutdown =>
    rw [Connection.step] at h
    split at h
    · cases h
    · obtain rfl := Option.some.inj h
      refine .inr ⟨rfl, rfl, fun i => ?_, fun waited hended => .inr (ReaderState.ended.inj hended).symm⟩
      show TurnMove (w.turn i) (if i ∈ w.liveTurns then Connection.cancel (w.turn i) else w.turn i)
      split_ifs
      · exact .cancelled
      · exact .stays
  | progress i agent =>
    rw [Connection.step] at h
    split at h
    swap
    · cases h
    rename_i hgoes
    obtain rfl := Option.some.inj h
    have hcancelled : (w.turn i).cancelled = false := by
      have hon := hgoes.1
      simp only [Connection.goesOn, Bool.and_eq_true, Bool.not_eq_true'] at hon
      exact hon.1.2
    exact .inr ⟨rfl, rfl, modify_moves w (.progressed agent hcancelled), fun _ hended => .inl hended⟩
  | respond i sideEffects =>
    rw [Connection.step] at h
    split_ifs at h
    obtain rfl := Option.some.inj h
    exact .inr ⟨rfl, rfl, modify_moves w (.responded sideEffects), fun _ hended => .inl hended⟩
  | finish i =>
    rw [Connection.step] at h
    split_ifs at h
    obtain rfl := Option.some.inj h
    exact .inr ⟨rfl, rfl, modify_moves w .finished, fun _ hended => .inl hended⟩

theorem startTurn_eq (hfree : w.liveTurns.length < maxTurnsInFlight) (id : String) : w.startTurn id =
      { started := w.started + 1
        turn := Function.update w.turn w.started (.new id)
        turns := Table.assign (w.turns.filter fun e => !(w.turn e.2).done) id w.started
        reader := .reading } :=
  if_neg (Nat.not_le.mpr hfree)

theorem uncut_step (h : ∀ i, Safe (w.turn i)) (hstep : w.step a = some w') : ∀ i, Safe (w'.turn i) := by
  intro i
  rcases step_cases hstep with ⟨id, -, -, hfree, rfl⟩ | ⟨-, -, hmoves, -⟩
  · rw [startTurn_eq hfree]
    show Safe (Function.update w.turn w.started (.new id) i)
    by_cases hi : i = w.started
    · rw [hi, Function.update_self]
      exact fun hstage => by cases hstage
    · rw [Function.update_of_ne hi]
      exact h i
  · exact (hmoves i).safe (h i)

/-! ## The map -/

/-- The map names the tasks that run. -/
structure Tracked (w : Connection) : Prop where
  keys : (w.turns.map Prod.fst).Nodup
  named : ∀ e ∈ w.turns, e.2 < w.started ∧ (w.turn e.2).clientMessageId = e.1
  covers : ∀ i < w.started, (w.turn i).done = false → i ∈ w.turns.map Prod.snd
  bound : w.liveTurns.length ≤ maxTurnsInFlight
  waited : ∀ waited, w.reader = .ended waited → ∀ i < w.started, (w.turn i).done = false → i ∈ waited

theorem mem_liveTurns {i : Nat} : i ∈ w.liveTurns ↔ i ∈ w.turns.map Prod.snd ∧ (w.turn i).done =
    false := by
  rw [Connection.liveTurns, List.mem_filter, Bool.not_eq_true']

theorem length_liveTurns : w.liveTurns.length = w.turns.countP fun e => !(w.turn e.2).done := by
  rw [Connection.liveTurns, ← List.countP_eq_length_filter, List.countP_map]
  rfl

theorem Tracked.moved (h : Tracked w) (hturns : w'.turns = w.turns) (hstarted : w'.started = w.started)
    (hmoves : ∀ i, TurnMove (w.turn i) (w'.turn i))
    (hended : ∀ waited, w'.reader = .ended waited → w.reader = .ended waited ∨ waited = w.liveTurns) :
    Tracked w' := by
  have hrun : ∀ i, (w'.turn i).done = false → (w.turn i).done = false := by
    intro i hi
    rw [← Bool.not_eq_true] at hi ⊢
    exact fun hdone => hi ((hmoves i).lasts.2 hdone)
  refine ⟨hturns ▸ h.keys, ?_, ?_, ?_, ?_⟩
  · intro e he
    rw [hturns] at he
    obtain ⟨hlt, hid⟩ := h.named e he
    exact ⟨hstarted ▸ hlt, (hmoves e.2).lasts.1.trans hid⟩
  · intro i hi hdone
    rw [hturns]
    exact h.covers i (hstarted ▸ hi) (hrun i hdone)
  · refine Nat.le_trans ?_ h.bound
    rw [length_liveTurns, length_liveTurns, hturns]
    refine List.countP_mono_left fun e _ hi => ?_
    rw [Bool.not_eq_true'] at hi ⊢
    exact hrun e.2 hi
  · intro waited hreader i hi hdone
    rw [hstarted] at hi
    rcases hended waited hreader with hbefore | rfl
    · exact h.waited waited hbefore i hi (hrun i hdone)
    · exact mem_liveTurns.mpr ⟨h.covers i hi (hrun i hdone), hrun i hdone⟩

theorem get_unfinished (h : Tracked w) {id : String}
    (hfresh : ∀ i < w.started, (w.turn i).clientMessageId = id → (w.turn i).done = true) :
    Table.get (w.turns.filter fun e => !(w.turn e.2).done) id = none := by
  rcases hget : Table.get (w.turns.filter fun e => !(w.turn e.2).done) id with _ | i
  · rfl
  obtain ⟨hmem, hrun⟩ := List.mem_filter.mp (Table.mem_of_get hget)
  obtain ⟨hlt, hid⟩ := h.named (id, i) hmem
  rw [Bool.not_eq_true', hfresh i hlt hid] at hrun
  cases hrun

theorem Tracked.startTurn (h : Tracked w) {id : String} (hfree : w.liveTurns.length < maxTurnsInFlight)
    (hfresh : ∀ i < w.started, (w.turn i).clientMessageId = id → (w.turn i).done = true) :
    Tracked (w.startTurn id) := by
  rw [startTurn_eq hfree]
  have hkeys : ((w.turns.filter fun e => !(w.turn e.2).done).map Prod.fst).Nodup :=
    h.keys.sublist (List.filter_sublist.map _)
  have hnew : Table.get (w.turns.filter fun e => !(w.turn e.2).done) id = none := get_unfinished h hfresh
  have hold : ∀ i < w.started, Function.update w.turn w.started (.new id) i = w.turn i :=
    fun i hi => Function.update_of_ne (Nat.ne_of_lt hi) _ _
  have hmem : ∀ e, e ∈ Table.assign (w.turns.filter fun e => !(w.turn e.2).done) id w.started ↔
      e = (id, w.started) ∨ e ∈ w.turns ∧ (w.turn e.2).done = false := by
    intro e
    rw [Table.mem_assign hkeys, List.mem_filter, Bool.not_eq_true']
    refine or_congr_right (and_iff_left_of_imp fun he hid => ?_)
    have hlt := h.named e he.1
    rw [hfresh e.2 hlt.1 (hlt.2.trans hid)] at he
    cases he.2
  refine ⟨Table.nodup_keys_assign hkeys id w.started, ?_, ?_, ?_, fun _ hended => by cases hended⟩
  · intro e he
    dsimp only at he ⊢
    rcases (hmem e).mp he with rfl | ⟨hold', -⟩
    · rw [Function.update_self]
      exact ⟨Nat.lt_succ_self _, rfl⟩
    · obtain ⟨hlt, hid⟩ := h.named e hold'
      rw [hold e.2 hlt]
      exact ⟨Nat.lt_succ_of_lt hlt, hid⟩
  · intro i hi hdone
    dsimp only at hi hdone ⊢
    rcases Nat.lt_succ_iff_lt_or_eq.mp hi with hlt | rfl
    · rw [hold i hlt] at hdone
      obtain ⟨e, he, rfl⟩ := List.mem_map.mp (h.covers i hlt hdone)
      exact List.mem_map_of_mem ((hmem e).mpr (.inr ⟨he, hdone⟩))
    · exact List.mem_map_of_mem ((hmem (id, w.started)).mpr (.inl rfl))
  · rw [length_liveTurns]
    dsimp only
    rw [Table.countP_assign_new hnew, List.countP_filter]
    have hsame : w.turns.countP (fun e => !(Function.update w.turn w.started (.new id) e.2).done &&
        !(w.turn e.2).done) = w.liveTurns.length := by
      rw [length_liveTurns]
      refine List.countP_congr fun e he => ?_
      rw [hold e.2 (h.named e he).1, Bool.and_self]
    rw [hsame]
    split_ifs
    · exact hfree
    · exact Nat.le_of_lt hfree

theorem tracked_step (h : Tracked w) (hfresh : FreshTurn w a) (hstep : w.step a = some w') :
    Tracked w' := by
  rcases step_cases hstep with ⟨id, hreader, rfl, hfree, rfl⟩ | ⟨hturns, hstarted, hmoves, hended⟩
  · exact h.startTurn hfree (hfresh id hreader hfree)
  · exact h.moved hturns hstarted hmoves hended

theorem Tracked.bounded (h : Tracked w) : Bounded w := by
  have hsub : w.running ⊆ w.liveTurns := by
    intro i hi
    obtain ⟨hlt, hrun⟩ := List.mem_filter.mp hi
    rw [Bool.not_eq_true'] at hrun
    exact mem_liveTurns.mpr ⟨h.covers i (List.mem_range.mp hlt) hrun, hrun⟩
  have hnodup : w.running.Nodup := List.nodup_range.filter _
  exact Nat.le_trans (hnodup.subperm hsub).length_le h.bound

theorem Tracked.waits (h : Tracked w) : Waited w := by
  intro waited hended i hi _
  obtain ⟨hlt, hrun⟩ := List.mem_filter.mp hi
  exact h.waited waited hended i (List.mem_range.mp hlt) (Bool.not_eq_true' _ ▸ hrun)

/-! ## Every run -/

theorem tracked_init (h : connection.init w) : Tracked w := by
  obtain ⟨hstarted, -, hturns, hreader⟩ := h
  refine ⟨?_, ?_, ?_, ?_, ?_⟩
  · rw [hturns]
    exact List.nodup_nil
  · rw [hturns]
    exact fun e he => by cases he
  · rw [hstarted]
    exact fun i hi => absurd hi (Nat.not_lt_zero i)
  · rw [Connection.liveTurns, hturns]
    exact Nat.zero_le _
  · rw [hreader]
    exact fun _ hended => by cases hended

/-- **An agent action is never cut short**, in any run; and as long as no turn is started under the id of
one that is still running, the turns stay bounded and what is in its agent stage is waited for at the
end. -/
theorem turns_in_hand (w : Connection) :
    (connection.Reaches Machine.Always w → Uncut w) ∧
      (connection.Reaches FreshTurn w → Bounded w ∧ Waited w) := by
  refine ⟨fun h i hstage => ?_, fun h => ?_⟩
  · have hsafe : ∀ i, Safe (w.turn i) := by
      refine h.invariant (fun s a t hs _ hstep => uncut_step hs hstep) fun s hs i => ?_
      rw [hs.2.1 i]
      exact fun hstage => by cases hstage
    exact (hsafe i hstage).2
  · have htracked : Tracked w :=
      h.invariant (fun s a t hs hfresh hstep => tracked_step hs hfresh hstep) fun s hs => tracked_init hs
    exact ⟨htracked.bounded, htracked.waits⟩

def opened : Connection := ⟨0, fun _ => .new "", [], .reading⟩

/-- An utterance with the id "a", after the muting of the turn before it; its turn reaches the agent. -/
def repeated (i : Nat) : List ConnectionAction :=
  [.utterance (some "a") ""] ++ (if i = 0 then [] else [.stopNext]) ++ [.proceed, .progress i true]

/-- Two utterances of one id, then the end: the first turn is not waited for. Four: four turns run. -/
theorem turn_overwritten :
    (¬ ∀ w, connection.Reaches Machine.Always w → Waited w) ∧
      ¬ ∀ w, connection.Reaches Machine.Always w → Bounded w := by
  constructor
  · intro h
    obtain ⟨w, hw, hend⟩ := connection.reaches_of_exec Machine.Always (s := opened)
      (repeated 0 ++ repeated 1 ++ [.shutdown])
      (fun w => w.reader = .ended [1] ∧ 0 ∈ w.running ∧ (w.turn 0).stage = .agent)
      ⟨rfl, fun _ => rfl, rfl, rfl⟩ (by decide)
    obtain ⟨hreader, hrun, hstage⟩ := of_decide_eq_true hend
    exact absurd (h w hw [1] hreader 0 hrun hstage) (by decide)
  · intro h
    obtain ⟨w, hw, hmany⟩ := connection.reaches_of_exec Machine.Always (s := opened)
      (repeated 0 ++ repeated 1 ++ repeated 2 ++ repeated 3) (fun w => w.running.length = 4)
      ⟨rfl, fun _ => rfl, rfl, rfl⟩ (by decide)
    have hbound : w.running.length ≤ 3 := h w hw
    rw [of_decide_eq_true hmany] at hbound
    omega

end GuruJi.Voice
