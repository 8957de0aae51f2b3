import Mathlib.Data.List.Basic
import Mathlib.Tactic.Common

/-!
# The events of a streamed answer

`StreamSequenceValidator` checks each event of a stream against what came before it, and changes its
state as it checks.

* `accept_error`: an event that is rejected leaves the state as it was;
* `accept_phase`: a stream goes through four phases, and an event is accepted iff its number is the next
  and its type leads on from the phase;
* `phaseRun_done_iff`: the types of a whole stream;
* **`accepted_iff`**: what is accepted is what begins a whole stream;
* `no_terminal_rule`: that it starts first, is numbered and has one terminal event, at its end, does not
  make a stream whole, whichever events are terminal.
-/

namespace GuruJi.Conversation

/-- The types of events. -/
inductive EventType where
  | messageStart | citation | warning | delta | answer | messageEnd | error | done
  deriving DecidableEq

/-- What an event is about; `δ` are the objects it may carry. -/
inductive EventBody (δ : Type) where
  | messageStart
  | citation (citation : δ)
  | warning (warning : δ)
  | delta (text : String)
  | answer (answer : δ)
  | messageEnd (status : String)
  | error (code message : String)
  | done
  deriving DecidableEq

/-- `event.type`. -/
def EventBody.type {δ : Type} : EventBody δ → EventType
  | messageStart => .messageStart
  | citation _ => .citation
  | warning _ => .warning
  | delta _ => .delta
  | answer _ => .answer
  | messageEnd _ => .messageEnd
  | error _ _ => .error
  | done => .done

structure StreamEvent (δ : Type) where
  requestId : String
  conversationId : Option String
  sequence : Nat
  body : EventBody δ
  deriving DecidableEq

/-- `validated.type`. -/
def StreamEvent.type {δ : Type} (event : StreamEvent δ) : EventType := event.body.type

structure StreamSequenceValidator where
  lastSequence : Nat
  started : Bool
  ended : Bool
  done : Bool
  deriving DecidableEq

def StreamSequenceValidator.fresh : StreamSequenceValidator := ⟨0, false, false, false⟩

/-- Why an event is rejected: it is no event, or it is out of order. -/
inductive StreamRejection where
  | validation
  | sequence (message : String)
  deriving DecidableEq

def contentTypes : List EventType := [.citation, .warning, .delta, .answer]

section
variable {δ ρ : Type} (validateEvent : ρ → Option (StreamEvent δ))

/-- `accept`, with the state that it leaves; each check comes after the changes that precede it. -/
def accept (s : StreamSequenceValidator) (raw : ρ) :
    Except StreamRejection (StreamEvent δ) × StreamSequenceValidator :=
  match validateEvent raw with
  | none => (.error .validation, s)
  | some validated =>
    if s.done then (.error (.sequence "events cannot be emitted after done"), s)
    else if validated.sequence ≠ s.lastSequence + 1 then
      (.error (.sequence "stream sequence must be contiguous and monotonic"), s)
    else if s.started = false ∧ validated.type ≠ .messageStart then
      (.error (.sequence "message_start must be the first stream event"), s)
    else if validated.type = .messageStart ∧ s.started = true then
      (.error (.sequence "message_start may only be emitted once"), s)
    else
      let s := if validated.type = .messageStart then { s with started := true } else s
      if validated.type = .messageEnd ∧ s.ended = true then
        (.error (.sequence "message_end may only be emitted once"), s)
      else
        let s := if validated.type = .messageEnd then { s with ended := true } else s
        if validated.type = .done ∧ s.ended = false then
          (.error (.sequence "done requires message_end"), s)
        else
          let s := if validated.type = .done then { s with done := true } else s
          if s.ended = true ∧ validated.type ∈ contentTypes then
            (.error (.sequence "content events cannot follow message_end"), s)
          else (.ok validated, { s with lastSequence := validated.sequence })

/-- Every event of a stream is accepted, one after the other. -/
def acceptAll (s : StreamSequenceValidator) : List ρ → Option StreamSequenceValidator
  | [] => some s
  | raw :: raws =>
    match accept validateEvent s raw with
    | (.ok _, next) => acceptAll next raws
    | (.error _, _) => none

end

/-! ## Whole streams -/

/-- Where a stream is. -/
inductive Phase where
  | new | opened | ended | done
  deriving DecidableEq

def Phase.next : Phase → EventType → Option Phase
  | .new, .messageStart => some .opened
  | .opened, .messageEnd => some .ended
  | .opened, .citation | .opened, .warning | .opened, .delta | .opened, .answer | .opened, .error =>
    some .opened
  | .ended, .error => some .ended
  | .ended, .done => some .done
  | _, _ => none

def phaseRun (phase : Phase) (types : List EventType) : Option Phase := types.foldlM Phase.next phase

/-- The types of a whole stream: it starts once and ends once, content comes between, errors may come up
to the last event, and that is `done`. -/
def WholeTypes (types : List EventType) : Prop :=
  ∃ before after, types = .messageStart :: before ++ .messageEnd :: after ++ [.done] ∧
    (∀ type ∈ before, type ∈ contentTypes ∨ type = .error) ∧ ∀ type ∈ after, type = .error

section
variable {δ ρ : Type}

/-- A whole stream; its events are numbered from one. -/
structure WellFormed (events : List (StreamEvent δ)) : Prop where
  numbered : events.map (·.sequence) = List.range' 1 events.length
  types : WholeTypes (events.map (·.type))

/-- A stream that starts first, is numbered, and has one terminal event, at its end. -/
structure OneTerminal (terminal : EventType → Bool) (events : List (StreamEvent δ)) : Prop where
  starts : (events.map (·.type)).head? = some .messageStart
  numbered : events.map (·.sequence) = List.range' 1 events.length
  terminates : ∃ before last, events = before ++ [last] ∧ terminal last.type = true ∧
    ∀ event ∈ before, terminal event.type = false

variable {validateEvent : ρ → Option (StreamEvent δ)}

/-! ## A rejected event -/

variable {event : StreamEvent δ} {terminal : EventType → Bool}

theorem eq_of_check {c : Prop} [Decidable c] {message rejection : StreamRejection}
    {s next after : StreamSequenceValidator}
    (h : (if c then (Except.error message, s) else (Except.ok event, next)) =
        (.error rejection, after)) :
    after = s := by
  split_ifs at h
  · exact (Prod.mk.inj h).2.symm
  · exact absurd (Prod.mk.inj h).1 (by simp)

/-- **An event that is rejected** leaves the state as it was: no check fails after a change. -/
theorem accept_error {s after : StreamSequenceValidator} {raw : ρ} {rejection : StreamRejection}
    (h : accept validateEvent s raw = (.error rejection, after)) : after = s := by
  unfold accept at h
  cases hraw : validateEvent raw with
  | none =>
    rw [hraw] at h
    exact (Prod.mk.inj h).2.symm
  | some event =>
    rw [hraw] at h
    dsimp only at h
    by_cases hdone : s.done = true
    · rw [if_pos hdone] at h
      exact (Prod.mk.inj h).2.symm
    rw [if_neg hdone] at h
    by_cases hnumber : event.sequence ≠ s.lastSequence + 1
    · rw [if_pos hnumber] at h
      exact (Prod.mk.inj h).2.symm
    rw [if_neg hnumber] at h
    by_cases hfirst : s.started = false ∧ event.type ≠ .messageStart
    · rw [if_pos hfirst] at h
      exact (Prod.mk.inj h).2.symm
    rw [if_neg hfirst] at h
    by_cases honce : event.type = .messageStart ∧ s.started = true
    · rw [if_pos honce] at h
      exact (Prod.mk.inj h).2.symm
    rw [if_neg honce] at h
    -- What is left to be checked depends on the type, and is checked once before any change.
    cases htype : event.type with
    | messageStart => simp [htype, contentTypes] at h
    | messageEnd =>
      simp only [htype, contentTypes, true_and, reduceCtorEq, if_true, if_false, List.mem_cons,
        List.not_mem_nil, or_self, and_false] at h
      exact eq_of_check h
    | done =>
      simp only [htype, contentTypes, true_and, reduceCtorEq, if_true, if_false, List.mem_cons,
        List.not_mem_nil, or_self, and_false] at h
      exact eq_of_check h
    | citation =>
      simp only [htype, contentTypes, reduceCtorEq, if_false, false_and, List.mem_cons, true_or,
        and_true]
        at h
      exact eq_of_check h
    | warning =>
      simp only [htype, contentTypes, reduceCtorEq, if_false, false_and, List.mem_cons, true_or, or_true,
        and_true] at h
      exact eq_of_check h
    | delta =>
      simp only [htype, contentTypes, reduceCtorEq, if_false, false_and, List.mem_cons, true_or, or_true,
        and_true] at h
      exact eq_of_check h
    | answer =>
      simp only [htype, contentTypes, reduceCtorEq, if_false, false_and, List.mem_cons, true_or, or_true,
        and_true] at h
      exact eq_of_check h
    | error => simp [htype, contentTypes] at h

/-! ## Phases -/

def Phase.state (phase : Phase) (n : Nat) : StreamSequenceValidator :=
  match phase with
  | .new => ⟨n, false, false, false⟩
  | .opened => ⟨n, true, false, false⟩
  | .ended => ⟨n, true, true, false⟩
  | .done => ⟨n, true, true, true⟩

theorem accept_next {phase next : Phase} {n : Nat} {raw : ρ}
    (hraw : validateEvent raw = some event) (hseq : event.sequence = n + 1)
    (hnext : phase.next event.type = some next) :
    accept validateEvent (phase.state n) raw = (.ok event, next.state (n + 1)) := by
  unfold accept
  rw [hraw]
  dsimp only
  generalize event.type = type at hnext ⊢
  cases phase with
  | new =>
    cases type <;> cases hnext
    simp [Phase.state, hseq, contentTypes]
  | opened => cases type <;> cases hnext <;> simp [Phase.state, hseq, contentTypes]
  | ended => cases type <;> cases hnext <;> simp [Phase.state, hseq, contentTypes]
  | done => cases type <;> cases hnext

theorem accept_stuck {phase : Phase} {n : Nat} {raw : ρ} (hraw : validateEvent raw = some event)
    (hstuck : event.sequence = n + 1 → phase.next event.type = none) :
    ∃ rejection, accept validateEvent (phase.state n) raw = (.error rejection, phase.state n) := by
  have hfailed : ∃ rejection after, accept validateEvent (phase.state n) raw =
    (.error rejection, after) := by
    unfold accept
    rw [hraw]
    dsimp only
    by_cases hseq : event.sequence = n + 1
    · have hnone := hstuck hseq
      generalize event.type = type at hnone ⊢
      cases phase with
      | new => cases type <;> cases hnone <;> simp [Phase.state, hseq]
      | opened => cases type <;> cases hnone <;> simp [Phase.state, hseq]
      | ended => cases type <;> cases hnone <;> simp [Phase.state, hseq, contentTypes]
      | done => cases type <;> cases hnone <;> simp [Phase.state]
    · cases phase with
      | new => simp [Phase.state, hseq]
      | opened => simp [Phase.state, hseq]
      | ended => simp [Phase.state, hseq]
      | done => simp [Phase.state]
  obtain ⟨rejection, after, heq⟩ := hfailed
  exact ⟨rejection, accept_error heq ▸ heq⟩

/-- **A stream is accepted** iff its events are numbered on and their types lead on. -/
theorem acceptAll_phase (phase : Phase) (n : Nat) (raws : List ρ) :
    (acceptAll validateEvent (phase.state n) raws).isSome = true ↔
      ∃ events, raws.mapM validateEvent = some events ∧
        events.map (·.sequence) = List.range' (n + 1) events.length ∧
          (phaseRun phase (events.map (·.type))).isSome = true := by
  induction raws generalizing phase n with
  | nil => exact iff_of_true rfl ⟨[], rfl, rfl, rfl⟩
  | cons raw raws ih =>
    rw [acceptAll, List.mapM_cons]
    cases hraw : validateEvent raw with
    | none =>
      have hfailed : accept validateEvent (phase.state n) raw = (.error .validation, phase.state n) := by
        unfold accept
        rw [hraw]
      rw [hfailed]
      simp
    | some event =>
      have hevents : ∀ events, (some event >>= fun first => raws.mapM validateEvent >>= fun rest =>
          pure (first :: rest)) = some events ↔ ∃ rest, raws.mapM validateEvent = some rest ∧
            events = event :: rest := by
        intro events
        cases raws.mapM validateEvent with
        | none => simp
        | some rest => simp [eq_comm]
      by_cases hleads : event.sequence = n + 1 ∧ (phase.next event.type).isSome = true
      · obtain ⟨hseq, hsome⟩ := hleads
        obtain ⟨next, hnext⟩ := Option.isSome_iff_exists.mp hsome
        rw [accept_next hraw hseq hnext]
        dsimp only
        rw [ih]
        constructor
        · rintro ⟨rest, hrest, hnumbered, hrun⟩
          refine ⟨event :: rest, (hevents _).mpr ⟨rest, hrest, rfl⟩, ?_, ?_⟩
          · rw [List.map_cons, List.length_cons, List.range'_succ, hnumbered, hseq]
          · rw [List.map_cons, phaseRun, List.foldlM_cons, hnext]
            exact hrun
        · rintro ⟨events, hmap, hnumbered, hrun⟩
          obtain ⟨rest, hrest, rfl⟩ := (hevents _).mp hmap
          refine ⟨rest, hrest, ?_, ?_⟩
          · rw [List.map_cons, List.length_cons, List.range'_succ] at hnumbered
            exact (List.cons.inj hnumbered).2
          · rw [List.map_cons, phaseRun, List.foldlM_cons, hnext] at hrun
            exact hrun
      · have hstuck : event.sequence = n + 1 → phase.next event.type = none := fun hseq =>
          Option.not_isSome_iff_eq_none.mp fun hsome => hleads ⟨hseq, hsome⟩
        obtain ⟨rejection, hrejected⟩ := accept_stuck hraw hstuck
        rw [hrejected]
        refine iff_of_false (by simp) ?_
        rintro ⟨events, hmap, hnumbered, hrun⟩
        obtain ⟨rest, -, rfl⟩ := (hevents _).mp hmap
        rw [List.map_cons, List.length_cons, List.range'_succ] at hnumbered
        refine hleads ⟨(List.cons.inj hnumbered).1, ?_⟩
        rw [List.map_cons, phaseRun, List.foldlM_cons] at hrun
        cases hnext : phase.next event.type with
        | none =>
          rw [hnext] at hrun
          cases hrun
        | some next => rfl

/-! ## The types of a whole stream -/

theorem phaseRun_done (types : List EventType) : phaseRun .done types = some .done ↔ types = [] := by
  cases types with
  | nil => exact iff_of_true rfl rfl
  | cons type types => exact iff_of_false (by cases type <;> simp [phaseRun, Phase.next]) (by simp)

theorem phaseRun_ended (types : List EventType) : phaseRun .ended types = some .done ↔
    ∃ after, types = after ++ [.done] ∧ ∀ type ∈ after, type = .error := by
  induction types with
  | nil => exact iff_of_false (by simp [phaseRun]) (by simp)
  | cons type types ih =>
    rw [phaseRun, List.foldlM_cons]
    constructor
    · intro h
      cases type with
      | error =>
        obtain ⟨after, rfl, hafter⟩ := ih.mp h
        exact ⟨.error :: after, rfl, List.forall_mem_cons.mpr ⟨rfl, hafter⟩⟩
      | done => exact ⟨[], by rw [(phaseRun_done types).mp h]; rfl, by simp⟩
      | messageStart => cases h
      | citation => cases h
      | warning => cases h
      | delta => cases h
      | answer => cases h
      | messageEnd => cases h
    · rintro ⟨after, heq, hafter⟩
      cases after with
      | nil =>
        obtain ⟨rfl, rfl⟩ := List.cons.inj heq
        rfl
      | cons first after =>
        obtain ⟨rfl, rfl⟩ := List.cons.inj heq
        obtain ⟨rfl, hrest⟩ := List.forall_mem_cons.mp hafter
        exact ih.mpr ⟨after, rfl, hrest⟩

theorem phaseRun_opened (types : List EventType) : phaseRun .opened types = some .done ↔
    ∃ before after, types = before ++ .messageEnd :: after ++ [.done] ∧
      (∀ type ∈ before, type ∈ contentTypes ∨ type = .error) ∧ ∀ type ∈ after, type = .error := by
  induction types with
  | nil => exact iff_of_false (by simp [phaseRun]) (by simp)
  | cons type types ih =>
    rw [phaseRun, List.foldlM_cons]
    have hinner : type ∈ contentTypes ∨ type = .error → (Phase.next .opened type = some .opened) := by
      cases type <;> simp [contentTypes, Phase.next]
    constructor
    · intro h
      by_cases hend : type = .messageEnd
      · subst hend
        obtain ⟨after, rfl, hafter⟩ := (phaseRun_ended types).mp h
        exact ⟨[], after, rfl, by simp, hafter⟩
      · have hcontent : type ∈ contentTypes ∨ type = .error := by
          cases type with
          | messageStart => cases h
          | done => cases h
          | messageEnd => exact absurd rfl hend
          | citation => decide
          | warning => decide
          | delta => decide
          | answer => decide
          | error => decide
        rw [hinner hcontent] at h
        obtain ⟨before, after, rfl, hbefore, hafter⟩ := ih.mp h
        exact ⟨type :: before, after, rfl, List.forall_mem_cons.mpr ⟨hcontent, hbefore⟩, hafter⟩
    · rintro ⟨before, after, heq, hbefore, hafter⟩
      cases before with
      | nil =>
        obtain ⟨rfl, rfl⟩ := List.cons.inj heq
        exact (phaseRun_ended _).mpr ⟨after, rfl, hafter⟩
      | cons first before =>
        obtain ⟨rfl, rfl⟩ := List.cons.inj heq
        obtain ⟨hfirst, hbefore⟩ := List.forall_mem_cons.mp hbefore
        rw [hinner hfirst]
        exact ih.mpr ⟨before, after, rfl, hbefore, hafter⟩

/-- **The types of a whole stream** lead from the first phase to the last. -/
theorem phaseRun_done_iff (types : List EventType) :
    phaseRun .new types = some .done ↔ WholeTypes types := by
  cases types with
  | nil =>
    refine iff_of_false (by simp [phaseRun]) ?_
    rintro ⟨before, after, heq, -⟩
    cases heq
  | cons type types =>
    rw [phaseRun, List.foldlM_cons]
    constructor
    · intro h
      cases type with
      | messageStart =>
        obtain ⟨before, after, rfl, hbefore, hafter⟩ := (phaseRun_opened types).mp h
        exact ⟨before, after, rfl, hbefore, hafter⟩
      | citation => cases h
      | warning => cases h
      | delta => cases h
      | answer => cases h
      | messageEnd => cases h
      | error => cases h
      | done => cases h
    · rintro ⟨before, after, heq, hbefore, hafter⟩
      obtain ⟨rfl, rfl⟩ := List.cons.inj heq
      exact (phaseRun_opened _).mpr ⟨before, after, rfl, hbefore, hafter⟩

theorem exists_rest (phase : Phase) :
    ∃ bodies : List (EventBody δ), phaseRun phase (bodies.map EventBody.type) = some .done := by
  cases phase with
  | new => exact ⟨[.messageStart, .messageEnd "complete", .done], rfl⟩
  | opened => exact ⟨[.messageEnd "complete", .done], rfl⟩
  | ended => exact ⟨[.done], rfl⟩
  | done => exact ⟨[], rfl⟩

/-- What leads on from the first phase, with its numbers, is what begins a whole stream. -/
theorem exists_wellFormed_iff (events : List (StreamEvent δ)) : (∃ more, WellFormed (events ++ more)) ↔
      events.map (·.sequence) = List.range' 1 events.length ∧
        (phaseRun .new (events.map (·.type))).isSome = true := by
  constructor
  · rintro ⟨more, hnumbered, htypes⟩
    refine ⟨?_, ?_⟩
    · rw [List.map_append, List.length_append, ← List.range'_append_1] at hnumbered
      exact (List.append_inj hnumbered (by rw [List.length_map, List.length_range'])).1
    · have hrun := (phaseRun_done_iff _).mpr htypes
      rw [List.map_append, phaseRun, List.foldlM_append] at hrun
      obtain ⟨phase, hphase, -⟩ := Option.bind_eq_some_iff.mp hrun
      rw [phaseRun, hphase]
      rfl
  · rintro ⟨hnumbered, hrun⟩
    obtain ⟨phase, hphase⟩ := Option.isSome_iff_exists.mp hrun
    obtain ⟨bodies, hbodies⟩ := exists_rest (δ := δ) phase
    let more : List (StreamEvent δ) := (bodies.zipIdx (events.length + 1)).map fun body =>
      ⟨"request", none, body.2, body.1⟩
    have hsequences : more.map (·.sequence) = List.range' (events.length + 1) bodies.length := by
      rw [← List.zipIdx_map_snd (events.length + 1) bodies, List.map_map]
      rfl
    have hmore : more.map (·.type) = bodies.map EventBody.type := by
      conv_rhs => rw [← List.zipIdx_map_fst (events.length + 1) bodies, List.map_map]
      rw [List.map_map]
      rfl
    have hlength : more.length = bodies.length := by rw [List.length_map, List.length_zipIdx]
    refine ⟨more, ?_, (phaseRun_done_iff _).mp ?_⟩
    · rw [List.map_append, hnumbered, hsequences, List.length_append, hlength,
        ← List.range'_append_1, Nat.add_comm 1]
    · rw [List.map_append, phaseRun, List.foldlM_append]
      rw [phaseRun] at hphase
      rw [hphase, hmore]
      exact hbodies

/-- **The validator accepts what begins a whole stream**, and an event that it rejects changes nothing:
the same next event is accepted as before. -/
theorem accepted_iff (raws : List ρ) :
    ((acceptAll validateEvent .fresh raws).isSome = true ↔
      ∃ events, raws.mapM validateEvent = some events ∧ ∃ more, WellFormed (events ++ more)) ∧
        ∀ (s after : StreamSequenceValidator) (raw : ρ) (rejection : StreamRejection),
          accept validateEvent s raw = (.error rejection, after) → after = s ∧
            ∀ next, accept validateEvent after next = accept validateEvent s next := by
  refine ⟨?_, fun s after raw rejection h => ?_⟩
  · simp only [exists_wellFormed_iff]
    exact acceptAll_phase .new 0 raws
  · rw [accept_error h]
    exact ⟨rfl, fun next => rfl⟩

/-- What has only started. -/
theorem accepted_iff_started : ∃ events : List (StreamEvent Unit),
    [StreamEvent.mk "request" none 1 .messageStart].mapM some = some events ∧
      ∃ more, WellFormed (events ++ more) :=
  (accepted_iff [StreamEvent.mk "request" none 1 .messageStart]).1.mp rfl

/-! ## One terminal event -/

theorem OneTerminal.inner {start rest : List (StreamEvent δ)}
    {event next : StreamEvent δ} (h : OneTerminal terminal (start ++ event :: next :: rest)) :
    terminal event.type = false := by
  obtain ⟨before, last, heq, -, hbefore⟩ := h.terminates
  refine hbefore event ?_
  have hdrop : before = start ++ event :: (next :: rest).dropLast := by
    have hinit := congrArg List.dropLast heq
    rw [List.dropLast_concat, List.dropLast_append_of_ne_nil (List.cons_ne_nil _ _)] at hinit
    exact hinit.symm
  rw [hdrop]
  exact List.mem_append_right _ List.mem_cons_self

def numberedEvents (bodies : List (EventBody Unit)) : List (StreamEvent Unit) :=
  (bodies.zipIdx 1).map fun body => ⟨"request", none, body.2, body.1⟩

theorem not_rule_of_inner (start rest : List (StreamEvent δ))
    (event next : StreamEvent δ) (hterminal : terminal event.type = true)
    (haccepted : (acceptAll some .fresh (start ++ event :: next :: rest)).isSome = true) :
    ¬((acceptAll some .fresh (start ++ event :: next :: rest)).isSome = true ↔
      ∃ more, OneTerminal terminal ((start ++ event :: next :: rest) ++ more)) := by
  intro hiff
  obtain ⟨more, hmore⟩ := hiff.mp haccepted
  rw [List.append_assoc, List.cons_append, List.cons_append] at hmore
  rw [hmore.inner] at hterminal
  cases hterminal

theorem not_rule_of_last {bodies : List (EventBody Unit)}
    {last : EventBody Unit} (hbodies : ∀ body ∈ .messageStart :: bodies, terminal body.type = false)
    (hlast : terminal last.type = true)
    (hfails : (acceptAll some .fresh (numberedEvents (.messageStart :: bodies ++ [last]))).isSome =
        false) :
    ¬((acceptAll some .fresh (numberedEvents (.messageStart :: bodies ++ [last]))).isSome = true ↔
      ∃ more, OneTerminal terminal (numberedEvents (.messageStart :: bodies ++ [last]) ++ more)) := by
  intro hiff
  have hall : numberedEvents (.messageStart :: bodies ++ [last]) =
      numberedEvents (.messageStart :: bodies) ++ [⟨"request", none, bodies.length + 2, last⟩] := by
    unfold numberedEvents
    rw [List.zipIdx_append, List.map_append, List.length_cons, Nat.add_comm 1]
    rfl
  have hwhole : OneTerminal terminal (numberedEvents (.messageStart :: bodies ++ [last]) ++ []) := by
    rw [List.append_nil]
    refine ⟨rfl, ?_, _, _, hall, hlast, fun event hevent => ?_⟩
    · unfold numberedEvents
      rw [List.map_map, List.length_map, List.length_zipIdx]
      exact List.zipIdx_map_snd 1 _
    · obtain ⟨body, hbody, rfl⟩ := List.mem_map.mp hevent
      exact hbodies body.1 (List.fst_mem_of_mem_zipIdx hbody)
  rw [hiff.mpr ⟨[], hwhole⟩] at hfails
  cases hfails

theorem exists_not_rule (terminal : EventType → Bool) : ∃ events : List (StreamEvent Unit),
    ¬((acceptAll some .fresh events).isSome = true ↔ ∃ more, OneTerminal terminal (events ++ more)) := by
  cases hstart : terminal .messageStart with
  | true =>
    exact ⟨_, not_rule_of_inner [] [] ⟨"request", none, 1, .messageStart⟩ ⟨"request", none, 2, .delta ""⟩
      hstart rfl⟩
  | false =>
    cases hend : terminal .messageEnd with
    | true =>
      exact ⟨_, not_rule_of_inner [⟨"request", none, 1, .messageStart⟩] []
        ⟨"request", none, 2, .messageEnd "complete"⟩ ⟨"request", none, 3, .done⟩ hend rfl⟩
    | false =>
      cases hdone : terminal .done with
      | true =>
        refine ⟨_, @not_rule_of_last terminal [] .done (fun body hbody => ?_) hdone rfl⟩
        rw [List.mem_singleton.mp hbody]
        exact hstart
      | false =>
        -- After the end and `done` nothing is accepted.
        by_cases hother : ∃ body : EventBody Unit, terminal body.type = true
        · obtain ⟨body, hbody⟩ := hother
          refine ⟨_, @not_rule_of_last terminal [.messageEnd "complete", .done] body
            (fun first hfirst => ?_) hbody (by cases body <;> rfl)⟩
          rcases List.mem_cons.mp hfirst with rfl | hfirst
          · exact hstart
          · rcases List.mem_pair.mp hfirst with rfl | rfl
            · exact hend
            · exact hdone
        · refine ⟨[⟨"request", none, 1, .messageStart⟩], fun hiff => ?_⟩
          obtain ⟨more, hmore⟩ := hiff.mp rfl
          obtain ⟨-, last, -, hlast, -⟩ := hmore.terminates
          exact hother ⟨last.body, hlast⟩

/-- **That a stream starts first**, is numbered and has one terminal event, at its end, is not the rule,
whichever events are terminal. -/
theorem no_terminal_rule : ¬∃ terminal : EventType → Bool, ∀ events : List (StreamEvent Unit),
    (acceptAll some .fresh events).isSome = true ↔ ∃ more, OneTerminal terminal (events ++ more) := by
  rintro ⟨terminal, hrule⟩
  obtain ⟨events, hevents⟩ := exists_not_rule terminal
  exact hevents (hrule events)

end
end GuruJi.Conversation
