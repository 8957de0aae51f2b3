import GuruJi.Lib.Machine
import Mathlib.Data.List.Range
import Mathlib.Logic.Relation

/-!
# Speech of a voice turn

The sentences of a turn are queued; one sender takes them in order, waits until each is synthesised and
sends it under the lock of the socket, unless the turn was silenced, the sentence withdrawn or the
connection closed in the meantime. A retraction empties the queue and starts a new generation of
sentences; an interrupt mutes the turn and cancels it. Both then send a `cancelled` event. At the end the
turn waits for its sender and reports how many sentences were sent. Between two awaits of one task the
others go on.

* `Move`: what a step may do to the speech of a turn;
* `Good`: sentences are sent in the order in which they were queued, under consecutive numbers;
* `Quiet`: nothing queued before a `cancelled` event is sent after it;
* **`spoken_in_order`**: what holds of every run.
-/

namespace GuruJi.Voice

open GuruJi.Lib

/-- `_Utterance`: its place in the order of queuing, its generation, and whether it is
synthesised here. -/
structure Utterance where
  index : Nat
  generation : Nat
  audio : Bool
  deriving DecidableEq

/-- What is sent about the speech of a turn. -/
inductive WireEvent where
  /-- A sentence with its number, and its place in the order of queuing. -/
  | speech (seq index : Nat)
  /-- A `cancelled` event, and how many sentences were queued before it. -/
  | cancelled (queued : Nat)
  | speechEnd (count : Nat)
  deriving DecidableEq

/-- The task of `_send_speech`. -/
inductive Sender where
  | absent
  /-- In `speech_queue.get`. -/
  | waiting
  /-- Awaiting the audio of a sentence. -/
  | voicing (item : Utterance)
  /-- Waiting for the lock. -/
  | locking (item : Utterance)
  /-- Sending under the lock, with the number given. -/
  | sending (item : Utterance) (seq : Nat)
  | finished
  deriving DecidableEq

def Sender.alive : Sender → Bool
  | .absent | .finished => false
  | _ => true

def Sender.held : Sender → Option Utterance
  | .voicing item | .locking item | .sending item _ => some item
  | _ => none

def Sender.isSending : Sender → Bool
  | .sending _ _ => true
  | _ => false

/-- The speech of a `_TurnState`, the connection, and what was sent so far. -/
structure Speech where
  queue : List (Option Utterance)
  sender : Sender
  senderCancelled : Bool
  generation : Nat
  seq : Nat
  queued : Nat
  muted : Bool
  spokenAny : Bool
  isOpen : Bool
  sent : List WireEvent
  deriving DecidableEq

namespace Speech
variable (s : Speech)

/-- `_say`: a sentence is queued, for a new sender where there is none. -/
def say (audio : Bool) : Speech :=
  if s.muted then s
  else
    { s with
      spokenAny := true
      queue := s.queue ++ [some ⟨s.queued, s.generation, audio⟩]
      queued := s.queued + 1
      sender := if s.sender.alive then s.sender else .waiting
      senderCancelled := s.sender.alive && s.senderCancelled }

/-- `speech_queue.get` of the sender, which ends at the mark. -/
def take : Option Speech :=
  match s.sender, s.queue with
  | .waiting, some item :: queue => some { s with sender := .voicing item, queue }
  | .waiting, none :: queue => some { s with sender := .finished, queue }
  | _, _ => none

/-- The audio that the sender waits for is there. -/
def voiced (synthesised : List Nat) : Option Speech :=
  match s.sender with
  | .voicing item =>
    if !item.audio || synthesised.contains item.index then some { s with sender := .locking item } else
      none
  | _ => none

/-- The sender has the lock, and looks whether the sentence may still be sent. -/
def lock : Option Speech :=
  match s.sender with
  | .locking item =>
    if s.muted || item.generation != s.generation || !s.isOpen then some { s with sender := .waiting }
    else some { s with sender := .sending item s.seq }
  | _ => none

/-- The end of `send_json`, which fails where the peer went away. -/
def deliver (ok : Bool) : Option Speech :=
  match s.sender with
  | .sending item n =>
    if ok then some { s with sender := .waiting, sent := s.sent ++ [.speech n item.index], seq := s.seq + 1 }
    else some { s with sender := .waiting, isOpen := false }
  | _ => none

/-- A cancelled sender ends; what it was sending may have been delivered. -/
def abort (delivered : Bool) : Option Speech :=
  if s.senderCancelled && s.sender.alive then
    match s.sender with
    | .sending item n =>
      some { s with sender := .finished, sent := if delivered then s.sent ++ [.speech n item.index] else s.sent }
    | _ => some { s with sender := .finished }
  else none

/-- `_drain`. -/
def drain : Speech := { s with queue := [] }

/-- Cancelling a sender that is done does nothing. -/
def cancelSender : Speech := { s with senderCancelled := s.senderCancelled || s.sender.alive }

/-- `_stop_speech`. -/
def stop : Speech := s.drain.cancelSender

/-- The first part of `_retract`. -/
def bump : Speech := { s.drain with generation := s.generation + 1 }

/-- `_finish_speech` puts the mark that ends the sender. -/
def mark : Speech := { s with queue := s.queue ++ [none] }

def mute : Speech := { s with muted := true }

def close : Speech := { s with isOpen := false }

def log (event : WireEvent) (ok : Bool) : Speech :=
  if ok then { s with sent := s.sent ++ [event] } else s.close

end Speech

/-- Where the task of the turn is. -/
inductive Phase where
  | responding
  /-- In `_retract`, waiting for the lock. -/
  | retracting
  /-- In `_retract`, waiting for the lock to send `cancelled`. -/
  | announcing
  /-- Sending `cancelled` under the lock. -/
  | withdrawing
  /-- After the answer. -/
  | speaking
  /-- Waiting for the sender. -/
  | finishing
  /-- Waiting for the lock to send `speech_end`. -/
  | counted (count : Nat)
  | reporting (count : Nat)
  | over
  deriving DecidableEq

/-- Where the read loop is with the `cancelled` event of the turn. -/
inductive Silencing where
  | idle | waiting | sending
  deriving DecidableEq

/-- A turn that speaks, with its filler task and the sentences synthesised so far. -/
structure SpokenTurn where
  speech : Speech
  synthesised : List Nat
  phase : Phase
  cancelRequested : Bool
  filler : Bool
  reader : Silencing
  deriving DecidableEq

inductive SpeechAction where
  /-- The audio of a sentence is there. -/
  | synthesise (index : Nat)
  /-- `on_progress` or `on_speech`, or a chunk of the answer. -/
  | say (audio : Bool)
  /-- The filler task, once it has slept. -/
  | fill (audio : Bool)
  | take | voiced | lock
  | deliver (ok : Bool)
  | abort (delivered : Bool)
  /-- The dialogue has answered, and what was said may have to be retracted. -/
  | respond (retract : Bool)
  | bump | announce
  | announced (ok : Bool)
  | finish | joined | report
  | reported (ok : Bool)
  /-- The turn raises, or has nothing to say. -/
  | leave
  /-- The turn is cancelled; what it was sending may have been delivered. -/
  | unwind (delivered : Bool)
  /-- `_interrupt`, which cancels the turn if it is not protected. -/
  | interrupt (cancels : Bool)
  | silence
  | silenced (ok : Bool)
  /-- The connection closes; `_shutdown` cancels the turn if it is not protected. -/
  | close (cancels : Bool)
  deriving DecidableEq

namespace SpokenTurn
variable (announces : Bool) (w : SpokenTurn)

def Phase.holds : Phase → Bool
  | .withdrawing | .reporting _ => true
  | _ => false

def lockFree : Bool := !w.speech.sender.isSending && !Phase.holds w.phase && w.reader ≠ .sending

def isAt (phase : Phase) : Bool := w.phase = phase && !w.cancelRequested

/-- The turn ends: its filler and its sender are cancelled. -/
def ended (speech : Speech) : SpokenTurn :=
    { w with filler := false, speech := speech.stop, phase := .over }

/-- The task of the turn is cancelled, and with it the sender that it waits for. -/
def cancelTask : SpokenTurn :=
  { w with
    speech := if w.phase = .finishing then w.speech.cancelSender else w.speech
    cancelRequested := w.cancelRequested || w.phase ≠ .over }

/-- The `cancelled` event of the turn. -/
def cancelledEvent : WireEvent := .cancelled w.speech.queued

def step : SpeechAction → Option SpokenTurn
  | .synthesise index => some { w with synthesised := index :: w.synthesised }
  | .say audio =>
    if w.isAt .responding || w.isAt .speaking then some { w with speech := w.speech.say audio } else none
  | .fill audio =>
    if w.filler then
      some { w with filler := false, speech := if w.speech.spokenAny then w.speech else w.speech.say audio }
    else none
  | .take => w.speech.take.map fun speech => { w with speech }
  | .voiced => (w.speech.voiced w.synthesised).map fun speech => { w with speech }
  | .lock => if w.lockFree then w.speech.lock.map fun speech => { w with speech } else none
  | .deliver ok => (w.speech.deliver ok).map fun speech => { w with speech }
  | .abort delivered => (w.speech.abort delivered).map fun speech => { w with speech }
  | .respond retract =>
    if w.isAt .responding then
      some { w with filler := false, phase := if retract then .retracting else .speaking }
    else none
  | .bump =>
    if w.isAt .retracting && w.lockFree then
      some { w with speech := w.speech.bump, phase := if announces then .announcing else .speaking }
    else none
  | .announce =>
    if w.isAt .announcing then
      if !w.speech.isOpen then some { w with phase := .speaking }
      else if w.lockFree then some { w with phase := .withdrawing } else none
    else none
  | .announced ok =>
    if w.isAt .withdrawing then
      some { w with speech := w.speech.log w.cancelledEvent ok, phase := .speaking }
    else none
  | .finish =>
    if w.isAt .speaking then
      if w.speech.sender.alive then some { w with speech := w.speech.mark, phase := .finishing }
      else some { w with phase := .counted w.speech.seq }
    else none
  | .joined =>
    if w.isAt .finishing && !w.speech.sender.alive then some { w with phase := .counted w.speech.seq }
      else none
  | .report =>
    match w.phase, w.cancelRequested with
    | .counted count, false =>
      if !w.speech.isOpen then some (w.ended w.speech)
      else if w.lockFree then some { w with phase := .reporting count } else none
    | _, _ => none
  | .reported ok =>
    match w.phase, w.cancelRequested with
    | .reporting count, false => some (w.ended (w.speech.log (.speechEnd count) ok))
    | _, _ => none
  | .leave => if w.isAt .responding || w.isAt .speaking then some (w.ended w.speech) else none
  | .unwind delivered =>
    if w.cancelRequested then
      match w.phase with
      | .over => none
      | .withdrawing =>
          some (w.ended (if delivered then w.speech.log w.cancelledEvent true else w.speech))
      | .reporting count =>
          some (w.ended (if delivered then w.speech.log (.speechEnd count) true else w.speech))
      | _ => some (w.ended w.speech)
    else none
  | .interrupt cancels =>
    if w.reader = .idle then
      let w := if cancels then w.cancelTask else w
      some { w with speech := w.speech.mute, reader := if cancels && announces then .waiting else .idle }
    else none
  | .silence =>
    if w.reader = .waiting then
      if !w.speech.isOpen then some { w with reader := .idle }
      else if w.lockFree then some { w with reader := .sending } else none
    else none
  | .silenced ok =>
    if w.reader = .sending then
      some { w with speech := w.speech.log w.cancelledEvent ok, reader := .idle }
    else none
  | .close cancels =>
    let w := if cancels then w.cancelTask else w
    some { w with speech := w.speech.close }

end SpokenTurn

def Speech.fresh : Speech := ⟨[], .absent, false, 0, 0, 0, false, false, true, []⟩

/-- A turn of a client that hears speech, with or without a filler; `announces` when the client has opted
into `cancelled` events. -/
def speaking (announces : Bool) : Machine SpokenTurn SpeechAction where
  init w := w.speech = .fresh ∧ w.synthesised = [] ∧ w.phase = .responding ∧ w.cancelRequested = false ∧
    w.reader = .idle
  step := SpokenTurn.step announces

/-! ## What is queued, taken and sent -/

/-- The sentences that were sent: their numbers, and their places in the order of queuing. -/
def spoken (events : List WireEvent) : List (Nat × Nat) :=
  events.filterMap fun
    | .speech seq index => some (seq, index)
    | _ => none

namespace Speech

def pending (s : Speech) : List Utterance := s.sender.held.toList ++ s.queue.filterMap id

/-- The places of the sentences that were sent or may still be. -/
def line (s : Speech) : List Nat := (spoken s.sent).map Prod.snd ++ s.pending.map (·.index)

end Speech

/-- Nothing that was queued before `q` sentences were may still be sent. -/
structure Barred (q : Nat) (s : Speech) : Prop where
  queued : q ≤ s.queued
  pending : s.muted = false → ∀ item ∈ s.pending, item.generation = s.generation → q ≤ item.index
  sending : ∀ item n, s.sender = .sending item n → q ≤ item.index

/-- What a step may do to the speech of a turn. -/
inductive Move (s : Speech) : Speech → Prop
  | said (audio : Bool) (hmuted : s.muted = false) (hmark : none ∉ s.queue)
      (hcancelled : s.senderCancelled = false)
      (hend : ∀ count, .speechEnd count ∉ s.sent) : Move s (s.say audio)
  | taken (item : Utterance) (queue : List (Option Utterance)) (hsender : s.sender = .waiting)
      (hqueue : s.queue = some item :: queue) : Move s { s with sender := .voicing item, queue }
  | finished (queue : List (Option Utterance)) (hsender : s.sender = .waiting)
      (hqueue : s.queue = none :: queue) : Move s { s with sender := .finished, queue }
  | voiced (item : Utterance) (hsender : s.sender = .voicing item) :
      Move s { s with sender := .locking item }
  | dropped (item : Utterance) (hsender : s.sender = .locking item)
      (hstopped : s.muted = true ∨ item.generation ≠ s.generation ∨ s.isOpen = false) :
      Move s { s with sender := .waiting }
  | locked (item : Utterance) (hsender : s.sender = .locking item) (hmuted : s.muted = false)
      (hgeneration : item.generation = s.generation) : Move s { s with sender := .sending item s.seq }
  | delivered (item : Utterance) (n : Nat) (hsender : s.sender = .sending item n) :
      Move s { s with sender := .waiting, sent := s.sent ++ [.speech n item.index], seq := s.seq + 1 }
  | failed (item : Utterance) (n : Nat) (hsender : s.sender = .sending item n) :
      Move s { s with sender := .waiting, isOpen := false }
  | lost (hcancelled : s.senderCancelled = true) : Move s { s with sender := .finished }
  | escaped (item : Utterance) (n : Nat) (hsender : s.sender = .sending item n)
      (hcancelled : s.senderCancelled = true) :
      Move s { s with sender := .finished, sent := s.sent ++ [.speech n item.index] }
  | stopped : Move s s.stop
  | bumped : Move s s.bump
  | marked (hmark : none ∉ s.queue) (halive : s.sender.alive = true) : Move s s.mark
  | muted : Move s s.mute
  | closed : Move s s.close
  | cancelled : Move s s.cancelSender
  | withdrawn (hbarred : Barred s.queued s) : Move s (s.log (.cancelled s.queued) true)
  | reported (count : Nat) (hcount : count = (spoken s.sent).length)
      (hall : s.muted = false → s.generation = 0 → s.isOpen = true →
        (spoken s.sent).map Prod.snd = List.range s.queued) : Move s (s.log (.speechEnd count) true)

variable {s s' : Speech}

theorem spoken_append (before after : List WireEvent) : spoken (before ++ after) = spoken before ++
    spoken after :=
  List.filterMap_append

theorem say_eq (audio : Bool) (hmuted : s.muted = false) (hcancelled : s.senderCancelled = false) :
    s.say audio =
      { s with
        spokenAny := true
        queue := s.queue ++ [some ⟨s.queued, s.generation, audio⟩]
        queued := s.queued + 1
        sender := if s.sender.alive then s.sender else .waiting } := by
  rw [Speech.say, if_neg (Bool.eq_false_iff.mp hmuted), hcancelled, Bool.and_false]

theorem held_of_not_alive (h : s.sender.alive = false) : s.sender.held = none := by
  cases hsender : s.sender <;> rw [hsender] at h <;> first | rfl | cases h

theorem line_move (h : Move s s') : s'.line = s.line ++ [s.queued] ∧ s'.queued = s.queued + 1 ∨
      s'.line.Sublist s.line ∧ s'.queued = s.queued := by
  cases h with
  | said audio hmuted hmark hcancelled hend =>
    rw [say_eq audio hmuted hcancelled]
    refine .inl ⟨?_, rfl⟩
    have hheld : (if s.sender.alive then s.sender else Sender.waiting).held = s.sender.held := by
      cases halive : s.sender.alive with
      | true => rfl
      | false => exact (held_of_not_alive halive).symm
    simp [Speech.line, Speech.pending, hheld]
  | taken item queue hsender hqueue =>
    exact .inr ⟨by simp [Speech.line, Speech.pending, hsender, hqueue, Sender.held], rfl⟩
  | finished queue hsender hqueue =>
    exact .inr ⟨by simp [Speech.line, Speech.pending, hsender, hqueue, Sender.held], rfl⟩
  | voiced item hsender => exact .inr ⟨by simp [Speech.line, Speech.pending, hsender, Sender.held], rfl⟩
  | dropped item hsender hstopped =>
      exact .inr ⟨by simp [Speech.line, Speech.pending, hsender, Sender.held], rfl⟩
  | locked item hsender hmuted hgeneration =>
    exact .inr ⟨by simp [Speech.line, Speech.pending, hsender, Sender.held], rfl⟩
  | delivered item n hsender =>
    exact .inr ⟨by simp [Speech.line, Speech.pending, hsender, Sender.held, spoken], rfl⟩
  | failed item n hsender =>
      exact .inr ⟨by simp [Speech.line, Speech.pending, hsender, Sender.held], rfl⟩
  | lost hcancelled => exact .inr ⟨by simp [Speech.line, Speech.pending, Sender.held], rfl⟩
  | escaped item n hsender hcancelled =>
    exact .inr ⟨by simp [Speech.line, Speech.pending, hsender, Sender.held, spoken], rfl⟩
  | stopped =>
      exact .inr ⟨by simp [Speech.line, Speech.pending, Speech.stop, Speech.cancelSender, Speech.drain], rfl⟩
  | bumped => exact .inr ⟨by simp [Speech.line, Speech.pending, Speech.bump, Speech.drain], rfl⟩
  | marked hmark halive => exact .inr ⟨by simp [Speech.line, Speech.pending, Speech.mark], rfl⟩
  | muted => exact .inr ⟨.refl _, rfl⟩
  | closed => exact .inr ⟨.refl _, rfl⟩
  | cancelled => exact .inr ⟨.refl _, rfl⟩
  | withdrawn hbarred => exact .inr ⟨by simp [Speech.line, Speech.pending, Speech.log, spoken], rfl⟩
  | reported count hcount hall =>
      exact .inr ⟨by simp [Speech.line, Speech.pending, Speech.log, spoken], rfl⟩

/-- The sentences of the line are in the order in which they were queued. -/
structure Ordered (s : Speech) : Prop where
  increasing : s.line.Pairwise (· < ·)
  below : ∀ i ∈ s.line, i < s.queued

theorem Ordered.move (h : Ordered s) (hmove : Move s s') : Ordered s' := by
  rcases line_move hmove with ⟨hline, hqueued⟩ | ⟨hline, hqueued⟩
  · refine ⟨?_, ?_⟩
    · rw [hline, List.pairwise_append]
      refine ⟨h.increasing, List.pairwise_singleton _ _, fun i hi j hj => ?_⟩
      rw [List.mem_singleton.mp hj]
      exact h.below i hi
    · intro i hi
      rw [hline, List.mem_append, List.mem_singleton] at hi
      rcases hi with hold | rfl
      · exact Nat.lt_of_lt_of_le (h.below i hold) (by omega)
      · omega
  · exact ⟨h.increasing.sublist hline, fun i hi => hqueued ▸ h.below i (hline.subset hi)⟩

/-- The sentences that were sent are numbered, and the next number is theirs in all, as long as the
sender was not cancelled while it sent one. -/
structure Numbered (s : Speech) : Prop where
  numbers : (spoken s.sent).map Prod.fst = List.range (spoken s.sent).length
  next : s.sender.alive = true ∨ s.senderCancelled = false → s.seq = (spoken s.sent).length
  own : ∀ item n, s.sender = .sending item n → n = s.seq

theorem numbers_concat {events : List WireEvent} {n i : Nat}
    (h : (spoken events).map Prod.fst = List.range (spoken events).length)
        (hn : n = (spoken events).length) :
    (spoken (events ++ [.speech n i])).map Prod.fst =
      List.range (spoken (events ++ [.speech n i])).length ∧
      (spoken (events ++ [.speech n i])).length = n + 1 := by
  have hone : spoken [.speech n i] = [(n, i)] := rfl
  rw [spoken_append, hone, List.map_append, List.length_append, h, hn]
  exact ⟨(List.range_succ).symm, rfl⟩

theorem Numbered.sent (h : Numbered s) {item : Utterance} {n : Nat}
    (hsender : s.sender = .sending item n) : n = (spoken s.sent).length := by
  rw [h.own item n hsender]
  exact h.next (.inl (by rw [hsender]; rfl))

theorem Numbered.move (h : Numbered s) (hmove : Move s s') : Numbered s' := by
  cases hmove with
  | said audio hmuted hmark hcancelled hend =>
    rw [say_eq audio hmuted hcancelled]
    refine ⟨h.numbers, fun _ => h.next (.inr hcancelled), fun item n hsender => h.own item n ?_⟩
    cases halive : s.sender.alive with
    | true =>
      simp only [halive, if_true] at hsender
      exact hsender
    | false =>
      simp only [halive, Bool.false_eq_true, if_false] at hsender
      cases hsender
  | taken item queue hsender hqueue =>
    exact ⟨h.numbers, fun _ => h.next (.inl (by rw [hsender]; rfl)),
      fun _ _ hsending => by cases hsending⟩
  | finished queue hsender hqueue =>
    exact ⟨h.numbers, fun _ => h.next (.inl (by rw [hsender]; rfl)),
      fun _ _ hsending => by cases hsending⟩
  | voiced item hsender =>
    exact ⟨h.numbers, fun _ => h.next (.inl (by rw [hsender]; rfl)),
      fun _ _ hsending => by cases hsending⟩
  | dropped item hsender hstopped =>
    exact ⟨h.numbers, fun _ => h.next (.inl (by rw [hsender]; rfl)),
      fun _ _ hsending => by cases hsending⟩
  | locked item hsender hmuted hgeneration =>
    exact ⟨h.numbers, fun _ => h.next (.inl (by rw [hsender]; rfl)), fun _ _ hsending =>
      (by cases hsending; rfl)⟩
  | delivered item n hsender =>
    have hn := h.sent hsender
    obtain ⟨hnumbers, hlength⟩ := numbers_concat (i := item.index) h.numbers hn
    refine ⟨hnumbers, fun _ => ?_, fun _ _ hsending => by cases hsending⟩
    dsimp only
    rw [hlength, h.own item n hsender]
  | failed item n hsender =>
    exact ⟨h.numbers, fun _ => h.next (.inl (by rw [hsender]; rfl)),
      fun _ _ hsending => by cases hsending⟩
  | lost hcancelled =>
    refine ⟨h.numbers, fun hon => ?_, fun _ _ hsending => by cases hsending⟩
    rcases hon with halive | hnot
    · cases halive
    · exact absurd (hcancelled.symm.trans hnot) Bool.noConfusion
  | escaped item n hsender hcancelled =>
    obtain ⟨hnumbers, hlength⟩ := numbers_concat (i := item.index) h.numbers (h.sent hsender)
    refine ⟨hnumbers, fun hon => ?_, fun _ _ hsending => by cases hsending⟩
    rcases hon with halive | hnot
    · cases halive
    · exact absurd (hcancelled.symm.trans hnot) Bool.noConfusion
  | stopped =>
      exact ⟨h.numbers, fun hon => h.next (hon.imp_right fun hnot => (Bool.or_eq_false_iff.mp hnot).1),
        h.own⟩
  | bumped => exact ⟨h.numbers, h.next, h.own⟩
  | marked hmark halive => exact ⟨h.numbers, h.next, h.own⟩
  | muted => exact ⟨h.numbers, h.next, h.own⟩
  | closed => exact ⟨h.numbers, h.next, h.own⟩
  | cancelled =>
    exact ⟨h.numbers, fun hon => h.next (hon.imp_right fun hnot => (Bool.or_eq_false_iff.mp hnot).1),
      h.own⟩
  | withdrawn hbarred =>
    have hsame : spoken (s.log (.cancelled s.queued) true).sent = spoken s.sent := by
      simp [Speech.log, spoken]
    exact ⟨hsame ▸ h.numbers, fun hon => (h.next hon).trans (congrArg List.length hsame).symm, h.own⟩
  | reported count hcount hall =>
    have hsame : spoken (s.log (.speechEnd count) true).sent = spoken s.sent := by
      simp [Speech.log, spoken]
    exact ⟨hsame ▸ h.numbers, fun hon => (h.next hon).trans (congrArg List.length hsame).symm, h.own⟩

/-- A sentence of the current generation is added to those that may still be sent; no other step adds
one. -/
theorem pending_move (h : Move s s') :
    (∃ audio, s'.pending = s.pending ++ [⟨s.queued, s.generation, audio⟩] ∧ s'.generation =
      s.generation) ∨ s'.pending ⊆ s.pending ∧ s.generation ≤ s'.generation := by
  cases h with
  | said audio hmuted hmark hcancelled hend =>
    rw [say_eq audio hmuted hcancelled]
    have hheld : (if s.sender.alive then s.sender else Sender.waiting).held = s.sender.held := by
      cases halive : s.sender.alive with
      | true => rfl
      | false => exact (held_of_not_alive halive).symm
    exact .inl ⟨audio, by simp [Speech.pending, hheld], rfl⟩
  | taken item queue hsender hqueue =>
    exact .inr ⟨by simp [Speech.pending, hsender, hqueue, Sender.held], Nat.le_refl _⟩
  | finished queue hsender hqueue =>
    exact .inr ⟨by simp [Speech.pending, hsender, hqueue, Sender.held], Nat.le_refl _⟩
  | voiced item hsender => exact .inr ⟨by simp [Speech.pending, hsender, Sender.held], Nat.le_refl _⟩
  | dropped item hsender hstopped =>
    exact .inr ⟨by simp [Speech.pending, hsender, Sender.held], Nat.le_refl _⟩
  | locked item hsender hmuted hgeneration =>
    exact .inr ⟨by simp [Speech.pending, hsender, Sender.held], Nat.le_refl _⟩
  | delivered item n hsender =>
      exact .inr ⟨by simp [Speech.pending, hsender, Sender.held], Nat.le_refl _⟩
  | failed item n hsender => exact .inr ⟨by simp [Speech.pending, hsender, Sender.held], Nat.le_refl _⟩
  | lost hcancelled => exact .inr ⟨by simp [Speech.pending, Sender.held], Nat.le_refl _⟩
  | escaped item n hsender hcancelled =>
    exact .inr ⟨by simp [Speech.pending, hsender, Sender.held], Nat.le_refl _⟩
  | stopped =>
    exact .inr ⟨by simp [Speech.pending, Speech.stop, Speech.cancelSender, Speech.drain], Nat.le_refl _⟩
  | bumped => exact .inr ⟨by simp [Speech.pending, Speech.bump, Speech.drain], Nat.le_succ _⟩
  | marked hmark halive => exact .inr ⟨by simp [Speech.pending, Speech.mark], Nat.le_refl _⟩
  | muted => exact .inr ⟨List.Subset.refl _, Nat.le_refl _⟩
  | closed => exact .inr ⟨List.Subset.refl _, Nat.le_refl _⟩
  | cancelled => exact .inr ⟨List.Subset.refl _, Nat.le_refl _⟩
  | withdrawn hbarred => exact .inr ⟨List.Subset.refl _, Nat.le_refl _⟩
  | reported count hcount hall => exact .inr ⟨List.Subset.refl _, Nat.le_refl _⟩

/-- Nothing follows the mark in the queue, nothing is left in it without a sender, and no sentence is of
a later generation. -/
structure Tidy (s : Speech) : Prop where
  last : none ∉ s.queue.dropLast
  idle : s.sender.alive = false → s.senderCancelled = false → s.queue = []
  generations : ∀ item ∈ s.pending, item.generation ≤ s.generation

theorem Tidy.move (h : Tidy s) (hmove : Move s s') : Tidy s' := by
  have hgenerations : ∀ item ∈ s'.pending, item.generation ≤ s'.generation := by
    intro item hitem
    rcases pending_move hmove with ⟨audio, hpending, hgeneration⟩ | ⟨hpending, hgeneration⟩
    · rw [hpending, List.mem_append, List.mem_singleton] at hitem
      rw [hgeneration]
      rcases hitem with hold | rfl
      · exact h.generations item hold
      · exact Nat.le_refl _
    · exact Nat.le_trans (h.generations item (hpending hitem)) hgeneration
  refine ⟨?_, ?_, hgenerations⟩
  · cases hmove with
    | said audio hmuted hmark hcancelled hend =>
      rw [say_eq audio hmuted hcancelled]
      simpa using hmark
    | taken item queue hsender hqueue =>
      have hlast := h.last
      rw [hqueue] at hlast
      exact fun hmem => hlast (by cases queue <;> simp_all)
    | finished queue hsender hqueue =>
      have hlast := h.last
      rw [hqueue] at hlast
      exact fun hmem => hlast (by cases queue <;> simp_all)
    | stopped => exact List.not_mem_nil
    | bumped => exact List.not_mem_nil
    | marked hmark halive => simpa [Speech.mark] using hmark
    | _ => exact h.last
  · intro halive hcancelled
    cases hmove with
    | said audio hmuted hmark hcancelled' hend =>
      rw [say_eq audio hmuted hcancelled'] at halive
      cases hbefore : s.sender.alive <;> simp_all [Sender.alive]
    | finished queue hsender hqueue =>
      have hlast := h.last
      rw [hqueue] at hlast
      cases queue with
      | nil => rfl
      | cons item queue => exact absurd List.mem_cons_self hlast
    | lost hcancelled' => exact absurd (hcancelled'.symm.trans hcancelled) Bool.noConfusion
    | escaped item n hsender hcancelled' =>
        exact absurd (hcancelled'.symm.trans hcancelled) Bool.noConfusion
    | stopped => rfl
    | bumped => rfl
    | marked hmark halive' => exact absurd (halive'.symm.trans halive) Bool.noConfusion
    | cancelled => exact h.idle halive (Bool.or_eq_false_iff.mp hcancelled).1
    | muted => exact h.idle halive hcancelled
    | closed => exact h.idle halive hcancelled
    | withdrawn hbarred => exact h.idle halive hcancelled
    | reported count hcount hall => exact h.idle halive hcancelled
    | _ => cases halive

/-! ## Silence -/

theorem concat_split {α : Type*} {l before after : List α} {x e : α}
    (h : l ++ [e] = before ++ x :: after) :
    (l = before ∧ e = x ∧ after = []) ∨ ∃ rest, after = rest ++ [e] ∧ l = before ++ x :: rest := by
  rcases List.eq_nil_or_concat after with rfl | ⟨rest, last, rfl⟩
  · obtain ⟨hl, he⟩ := List.append_inj' h rfl
    exact .inl ⟨hl, (List.cons.inj he).1, rfl⟩
  · have hshape : before ++ x :: (rest ++ [last]) = (before ++ x :: rest) ++ [last] := by
      rw [List.append_assoc, List.cons_append]
    rw [List.concat_eq_append, hshape] at h
    obtain ⟨hl, he⟩ := List.append_inj' h rfl
    obtain rfl := (List.cons.inj he).1
    exact .inr ⟨rest, List.concat_eq_append, hl⟩

/-- At most one event is sent at a time; a sentence is the one that the sender was sending. -/
theorem sent_move (h : Move s s') : s'.sent = s.sent ∨ ∃ event, s'.sent = s.sent ++ [event] ∧
      ∀ seq i, event = .speech seq i → ∃ item n, s.sender = .sending item n ∧ i = item.index := by
  cases h with
  | said audio hmuted hmark hcancelled hend =>
    rw [say_eq audio hmuted hcancelled]
    exact .inl rfl
  | delivered item n hsender =>
    exact .inr ⟨_, rfl, fun seq i hevent => ⟨item, n, hsender, (WireEvent.speech.inj hevent).2.symm⟩⟩
  | escaped item n hsender hcancelled =>
    exact .inr ⟨_, rfl, fun seq i hevent => ⟨item, n, hsender, (WireEvent.speech.inj hevent).2.symm⟩⟩
  | withdrawn hbarred => exact .inr ⟨_, rfl, fun _ _ hevent => by cases hevent⟩
  | reported count hcount hall => exact .inr ⟨_, rfl, fun _ _ hevent => by cases hevent⟩
  | _ => exact .inl rfl

theorem loud_move (h : Move s s') : (s'.muted = false → s.muted = false) ∧
    (s'.isOpen = true → s.isOpen = true) := by
  cases h with
  | said audio hmuted hmark hcancelled hend =>
    rw [say_eq audio hmuted hcancelled]
    exact ⟨id, id⟩
  | failed item n hsender => exact ⟨id, fun hopen => by cases hopen⟩
  | muted => exact ⟨fun hmuted => (by cases hmuted), id⟩
  | closed => exact ⟨id, fun hopen => by cases hopen⟩
  | _ => exact ⟨id, id⟩

theorem sending_move (h : Move s s') {item : Utterance} {n : Nat}
    (hsender : s'.sender = .sending item n) :
    s.sender = .sending item n ∨ s.muted = false ∧ item ∈ s.pending ∧ item.generation =
    s.generation := by
  cases h with
  | said audio hmuted hmark hcancelled hend =>
    rw [say_eq audio hmuted hcancelled] at hsender
    cases halive : s.sender.alive with
    | true =>
      simp only [halive, if_true] at hsender
      exact .inl hsender
    | false =>
      simp only [halive, Bool.false_eq_true, if_false] at hsender
      cases hsender
  | locked item' hlocking hmuted hgeneration =>
    cases hsender
    refine .inr ⟨hmuted, ?_, hgeneration⟩
    rw [Speech.pending, hlocking]
    exact List.mem_cons_self
  | stopped => exact .inl hsender
  | bumped => exact .inl hsender
  | marked hmark halive => exact .inl hsender
  | muted => exact .inl hsender
  | closed => exact .inl hsender
  | cancelled => exact .inl hsender
  | withdrawn hbarred => exact .inl hsender
  | reported count hcount hall => exact .inl hsender
  | _ => cases hsender

theorem Barred.move {q : Nat} (h : Barred q s) (htidy : Tidy s) (hmove : Move s s') : Barred q s' := by
  refine ⟨?_, fun hmuted item hitem hcurrent => ?_, fun item n hsender => ?_⟩
  · rcases line_move hmove with ⟨-, hqueued⟩ | ⟨-, hqueued⟩
    · exact hqueued ▸ Nat.le_succ_of_le h.queued
    · exact hqueued ▸ h.queued
  · have hloud := (loud_move hmove).1 hmuted
    rcases pending_move hmove with ⟨audio, hpending, hgeneration⟩ | ⟨hpending, hgeneration⟩
    · rw [hpending, List.mem_append, List.mem_singleton] at hitem
      rcases hitem with hold | rfl
      · exact h.pending hloud item hold (hcurrent.trans hgeneration)
      · exact h.queued
    · refine h.pending hloud item (hpending hitem) ?_
      have hold := htidy.generations item (hpending hitem)
      omega
  · rcases sending_move hmove hsender with hbefore | ⟨hloud, hitem, hcurrent⟩
    · exact h.sending item n hbefore
    · exact h.pending hloud item hitem hcurrent

/-- What was queued before a `cancelled` event is not sent after it. -/
structure Quiet (s : Speech) : Prop where
  silent : ∀ before q after, s.sent = before ++ .cancelled q :: after → ∀ e ∈ spoken after, q ≤ e.2
  barred : ∀ q, .cancelled q ∈ s.sent → Barred q s

theorem Quiet.move (h : Quiet s) (htidy : Tidy s) (hmove : Move s s') : Quiet s' := by
  have hbarred : ∀ q, .cancelled q ∈ s'.sent → Barred q s := by
    intro q hq
    cases hmove with
    | said audio hmuted hmark hcancelled hend =>
      rw [say_eq audio hmuted hcancelled] at hq
      exact h.barred q hq
    | delivered item n hsender => exact h.barred q (by simpa using hq)
    | escaped item n hsender hcancelled => exact h.barred q (by simpa using hq)
    | withdrawn hnow =>
      rcases List.mem_append.mp hq with hold | hnew
      · exact h.barred q hold
      · obtain rfl := WireEvent.cancelled.inj (List.mem_singleton.mp hnew)
        exact hnow
    | reported count hcount hall => exact h.barred q (by simpa [Speech.log] using hq)
    | _ => exact h.barred q hq
  refine ⟨fun before q after hsplit e he => ?_, fun q hq => (hbarred q hq).move htidy hmove⟩
  rcases sent_move hmove with hsame | ⟨event, hsent, hspeech⟩
  · exact h.silent before q after (hsame ▸ hsplit) e he
  rw [hsent] at hsplit
  rcases concat_split hsplit with ⟨-, -, rfl⟩ | ⟨rest, rfl, hbefore⟩
  · cases he
  rw [spoken_append, List.mem_append] at he
  rcases he with hold | hnew
  · exact h.silent before q rest hbefore e hold
  · have hq : WireEvent.cancelled q ∈ s'.sent := by
      rw [hsent, hbefore]
      simp
    cases event with
    | speech seq i =>
      obtain ⟨item, n, hsender, rfl⟩ := hspeech seq i rfl
      obtain rfl : e = (seq, item.index) := List.mem_singleton.mp hnew
      exact (hbarred q hq).sending item n hsender
    | cancelled queued => cases hnew
    | speechEnd count => cases hnew

/-! ## Nothing is left out -/

/-- As long as nothing stopped the turn, every sentence that was queued is in the line. -/
def Kept (s : Speech) : Prop :=
  s.muted = false → s.generation = 0 → s.isOpen = true → s.senderCancelled = false →
      s.line = List.range s.queued

theorem Kept.move (h : Kept s) (htidy : Tidy s) (hmove : Move s s') : Kept s' := by
  intro hmuted hgeneration hopen hcancelled
  cases hmove with
  | said audio hmuted' hmark hcancelled' hend =>
    have hsame : (s.say audio).line = s.line ++ [s.queued] ∧ (s.say audio).queued = s.queued + 1 := by
      rcases line_move (.said audio hmuted' hmark hcancelled' hend) with hsaid | ⟨-, hqueued⟩
      · exact hsaid
      · rw [say_eq audio hmuted' hcancelled'] at hqueued
        exact absurd hqueued (Nat.succ_ne_self _)
    rw [say_eq audio hmuted' hcancelled'] at hgeneration hopen
    rw [hsame.1, hsame.2, h hmuted' hgeneration hopen hcancelled', List.range_succ]
  | taken item queue hsender hqueue =>
    refine Eq.trans ?_ (h hmuted hgeneration hopen hcancelled)
    simp [Speech.line, Speech.pending, hsender, hqueue, Sender.held]
  | finished queue hsender hqueue =>
    refine Eq.trans ?_ (h hmuted hgeneration hopen hcancelled)
    simp [Speech.line, Speech.pending, hsender, hqueue, Sender.held]
  | voiced item hsender =>
    refine Eq.trans ?_ (h hmuted hgeneration hopen hcancelled)
    simp [Speech.line, Speech.pending, hsender, Sender.held]
  | dropped item hsender hstopped =>
    have hitem : item ∈ s.pending := by
      rw [Speech.pending, hsender]
      exact List.mem_cons_self
    have hold := htidy.generations item hitem
    dsimp only at hmuted hgeneration hopen
    rcases hstopped with hmuted' | hother | hclosed
    · exact absurd (hmuted'.symm.trans hmuted) Bool.noConfusion
    · omega
    · exact absurd (hclosed.symm.trans hopen) Bool.noConfusion
  | locked item hsender hmuted' hcurrent =>
    refine Eq.trans ?_ (h hmuted hgeneration hopen hcancelled)
    simp [Speech.line, Speech.pending, hsender, Sender.held]
  | delivered item n hsender =>
    refine Eq.trans ?_ (h hmuted hgeneration hopen hcancelled)
    simp [Speech.line, Speech.pending, hsender, Sender.held, spoken]
  | failed item n hsender => cases hopen
  | lost hcancelled' => exact absurd (hcancelled'.symm.trans hcancelled) Bool.noConfusion
  | escaped item n hsender hcancelled' =>
      exact absurd (hcancelled'.symm.trans hcancelled) Bool.noConfusion
  | stopped =>
    obtain ⟨hnot, hdead⟩ := Bool.or_eq_false_iff.mp hcancelled
    have hqueue := htidy.idle hdead hnot
    refine Eq.trans ?_ (h hmuted hgeneration hopen hnot)
    simp [Speech.line, Speech.pending, Speech.stop, Speech.cancelSender, Speech.drain, hqueue]
  | bumped => exact absurd hgeneration (Nat.succ_ne_zero _)
  | marked hmark halive =>
    refine Eq.trans ?_ (h hmuted hgeneration hopen hcancelled)
    simp [Speech.line, Speech.pending, Speech.mark]
  | muted => cases hmuted
  | closed => cases hopen
  | cancelled => exact h hmuted hgeneration hopen (Bool.or_eq_false_iff.mp hcancelled).1
  | withdrawn hbarred =>
    refine Eq.trans ?_ (h hmuted hgeneration hopen hcancelled)
    simp [Speech.line, Speech.pending, Speech.log, spoken]
  | reported count hcount hall =>
    refine Eq.trans ?_ (h hmuted hgeneration hopen hcancelled)
    simp [Speech.line, Speech.pending, Speech.log, spoken]

/-- When the end is reported, the count is that of the sentences that were sent, and these are all that
were queued unless the turn was muted or retracted or the connection closed. -/
def Complete (s : Speech) : Prop :=
  ∀ before count after, s.sent = before ++ .speechEnd count :: after → count = (spoken before).length ∧
    (s.muted = false → s.generation = 0 → s.isOpen = true → (spoken before).map Prod.snd =
    List.range s.queued)

theorem generation_move (h : Move s s') : s.generation ≤ s'.generation := by
  rcases pending_move h with ⟨-, -, hsame⟩ | ⟨-, hle⟩
  · exact Nat.le_of_eq hsame.symm
  · exact hle

theorem queued_move (h : Move s s') : s'.queued = s.queued ∨ ∀ count, .speechEnd count ∉ s.sent := by
  cases h with
  | said audio hmuted hmark hcancelled hend => exact .inr hend
  | _ => exact .inl rfl

theorem reported_move (h : Move s s') {count : Nat} (hsent : s'.sent = s.sent ++ [.speechEnd count]) :
    count = (spoken s.sent).length ∧ (s'.muted = false → s'.generation = 0 → s'.isOpen = true →
      (spoken s.sent).map Prod.snd = List.range s'.queued) := by
  have hnew : ∀ event, s'.sent = s.sent ++ [event] → event = .speechEnd count := fun event hevent =>
    (List.cons.inj (List.append_cancel_left (hevent.symm.trans hsent))).1
  have hsome : s'.sent ≠ s.sent := by simp [hsent]
  cases h with
  | said audio hmuted hmark hcancelled hend =>
    rw [say_eq audio hmuted hcancelled] at hsome
    exact absurd rfl hsome
  | delivered item n hsender => cases hnew _ rfl
  | escaped item n hsender hcancelled => cases hnew _ rfl
  | withdrawn hbarred => cases hnew _ rfl
  | reported count' hcount hall =>
    obtain rfl := WireEvent.speechEnd.inj (hnew _ rfl)
    exact ⟨hcount, hall⟩
  | _ => exact absurd rfl hsome

theorem Complete.move (h : Complete s) (hmove : Move s s') : Complete s' := by
  intro before count after hsplit
  obtain ⟨hloud, hstill⟩ := loud_move hmove
  -- What was reported before is as complete as it was, as nothing is queued after it.
  have hold : ∀ rest, s.sent = before ++ .speechEnd count :: rest → count = (spoken before).length ∧
      (s'.muted = false → s'.generation = 0 → s'.isOpen = true →
        (spoken before).map Prod.snd = List.range s'.queued) := by
    intro rest hsent
    obtain ⟨hcount, hall⟩ := h before count rest hsent
    refine ⟨hcount, fun hmuted hgeneration hopen => ?_⟩
    have hfirst : s.generation = 0 := Nat.le_zero.mp (hgeneration ▸ generation_move hmove)
    rw [hall (hloud hmuted) hfirst (hstill hopen)]
    rcases queued_move hmove with hqueued | hnone
    · rw [hqueued]
    · exact absurd (hsent ▸ List.mem_append_right _ List.mem_cons_self) (hnone count)
  rcases sent_move hmove with hsame | ⟨event, hsent, -⟩
  · exact hold after (hsame ▸ hsplit)
  rcases concat_split (hsent.symm.trans hsplit) with ⟨rfl, rfl, -⟩ | ⟨rest, -, hbefore⟩
  · exact reported_move hmove hsent
  · exact hold rest hbefore

/-- What holds of the speech of a turn. -/
structure SoundSpeech (s : Speech) : Prop where
  ordered : Ordered s
  numbered : Numbered s
  tidy : Tidy s
  quiet : Quiet s
  kept : Kept s
  complete : Complete s

theorem SoundSpeech.move (h : SoundSpeech s) (hmove : Move s s') : SoundSpeech s' :=
  ⟨h.ordered.move hmove, h.numbered.move hmove, h.tidy.move hmove, h.quiet.move h.tidy hmove,
    h.kept.move h.tidy hmove, h.complete.move hmove⟩

theorem SoundSpeech.moves (h : SoundSpeech s) (hmoves : Relation.ReflTransGen Move s s') :
    SoundSpeech s' := by
  induction hmoves with
  | refl => exact h
  | tail _ hmove ih => exact ih.move hmove

theorem sound_fresh : SoundSpeech .fresh := by
  refine ⟨⟨List.Pairwise.nil, fun i hi => by cases hi⟩, ⟨rfl, fun _ => rfl, fun _ _ h => by cases h⟩,
    ⟨List.not_mem_nil, fun _ _ => rfl, fun _ h => by cases h⟩, ⟨?_, fun _ h => by cases h⟩,
    fun _ _ _ _ => rfl, ?_⟩
  · exact fun before q after h =>
      absurd h.symm (List.append_ne_nil_of_right_ne_nil _ (List.cons_ne_nil _ _))
  · exact fun before q after h =>
      absurd h.symm (List.append_ne_nil_of_right_ne_nil _ (List.cons_ne_nil _ _))

/-! ## The tasks -/

/-- What holds of the tasks of a turn. -/
structure Control (w : SpokenTurn) : Prop where
  filler : w.filler = true → w.phase = .responding
  cancels : w.speech.senderCancelled = true → w.phase = .over ∨ w.phase = .finishing ∧
      w.cancelRequested = true
  stopped : w.cancelRequested = true → w.speech.muted = true ∨ w.speech.isOpen = false
  silencing : w.reader ≠ .idle → w.speech.muted = true
  alone : w.speech.sender.isSending = true → SpokenTurn.Phase.holds w.phase = false ∧ w.reader ≠ .sending
  withdrawn : w.phase = .announcing ∨ w.phase = .withdrawing →
    w.speech.queue = [] ∧ ∀ item, w.speech.sender.held = some item → item.generation <
    w.speech.generation
  marked : none ∈ w.speech.queue → w.phase = .finishing
  counted : ∀ count, w.phase = .counted count ∨ w.phase = .reporting count →
    count = (spoken w.speech.sent).length ∧ w.speech.sender.alive = false ∧ w.speech.queue = []
  ended : ∀ count, .speechEnd count ∈ w.speech.sent → w.phase = .over

variable {announces : Bool} {w w' : SpokenTurn} {a : SpeechAction}

variable {speech : Speech} {s s' : Speech} {phase : Phase} {reader : Silencing}

theorem Control.sender (h : Control w) (halive : w.speech.sender.alive = true)
    (hcancelled : speech.senderCancelled = w.speech.senderCancelled)
        (hmuted : speech.muted = w.speech.muted)
    (hopen : w.speech.isOpen = false → speech.isOpen = false)
    (hgeneration : speech.generation = w.speech.generation) (hqueue : speech.queue ⊆ w.speech.queue)
    (hheld : ∀ item, speech.sender.held = some item → w.speech.sender.held = some item ∨
        some item ∈ w.speech.queue)
    (hsending : speech.sender.isSending = true → w.lockFree = true)
    (hsent : ∀ count, .speechEnd count ∈ speech.sent → .speechEnd count ∈ w.speech.sent) :
    Control { w with speech } := by
  refine ⟨h.filler, fun hc => h.cancels (hcancelled ▸ hc), fun hc => ?_, fun hr => ?_, fun hs => ?_,
    fun hp => ?_,
    fun hmem => h.marked (hqueue hmem), fun count hp => ?_, fun count hmem =>
    h.ended count (hsent count hmem)⟩
  · exact (h.stopped hc).imp (hmuted.trans ·) hopen
  · exact hmuted.trans (h.silencing hr)
  · have hfree := hsending hs
    simp only [SpokenTurn.lockFree, Bool.and_eq_true, Bool.not_eq_true', decide_eq_true_eq] at hfree
    exact ⟨hfree.1.2, hfree.2⟩
  · obtain ⟨hempty, hold⟩ := h.withdrawn hp
    rw [hempty] at hqueue
    refine ⟨List.subset_nil.mp hqueue, fun item hitem => ?_⟩
    rcases hheld item hitem with hbefore | hwaiting
    · exact (hold item hbefore).trans_eq hgeneration.symm
    · rw [hempty] at hwaiting
      cases hwaiting
  · have hdead := (h.counted count hp).2.1
    exact absurd (halive.symm.trans hdead) Bool.noConfusion

theorem take_spec (h : s.take = some s') :
    s.sender = .waiting ∧ ∃ first queue, s.queue = first :: queue ∧
      ((∃ item, first = some item ∧ s' = { s with sender := .voicing item, queue }) ∨
        first = none ∧ s' = { s with sender := .finished, queue }) := by
  unfold Speech.take at h
  split at h
  · rename_i item queue hsender hqueue
    exact ⟨hsender, _, queue, hqueue, .inl ⟨item, rfl, (Option.some.inj h).symm⟩⟩
  · rename_i queue hsender hqueue
    exact ⟨hsender, _, queue, hqueue, .inr ⟨rfl, (Option.some.inj h).symm⟩⟩
  · cases h

theorem voiced_spec {synthesised : List Nat} (h : s.voiced synthesised = some s') :
    ∃ item, s.sender = .voicing item ∧ s' = { s with sender := .locking item } := by
  unfold Speech.voiced at h
  split at h
  · rename_i item hsender
    split_ifs at h
    exact ⟨item, hsender, (Option.some.inj h).symm⟩
  · cases h

theorem lock_spec (h : s.lock = some s') : ∃ item, s.sender = .locking item ∧
      ((s.muted = true ∨ item.generation ≠ s.generation ∨ s.isOpen = false) ∧
        s' = { s with sender := .waiting } ∨
        (s.muted = false ∧ item.generation = s.generation) ∧
        s' = { s with sender := .sending item s.seq }) := by
  unfold Speech.lock at h
  split at h
  · rename_i item hsender
    refine ⟨item, hsender, ?_⟩
    split_ifs at h with hstopped
    · refine .inl ⟨?_, (Option.some.inj h).symm⟩
      simpa [or_assoc] using hstopped
    · refine .inr ⟨?_, (Option.some.inj h).symm⟩
      simp only [Bool.or_eq_true, Bool.not_eq_true', not_or, Bool.not_eq_true,
        bne_eq_false_iff_eq] at hstopped
      exact hstopped.1
  · cases h

theorem deliver_spec {ok : Bool} (h : s.deliver ok = some s') : ∃ item n, s.sender = .sending item n ∧
      (s' = { s with sender := .waiting, sent := s.sent ++ [.speech n item.index], seq := s.seq + 1 } ∨
        s' = { s with sender := .waiting, isOpen := false }) := by
  unfold Speech.deliver at h
  split at h
  · rename_i item n hsender
    refine ⟨item, n, hsender, ?_⟩
    split_ifs at h
    · exact .inl (Option.some.inj h).symm
    · exact .inr (Option.some.inj h).symm
  · cases h

theorem abort_spec {delivered : Bool} (h : s.abort delivered = some s') :
    (s.senderCancelled = true ∧ s.sender.alive = true) ∧
      (s' = { s with sender := .finished } ∨ ∃ item n, s.sender = .sending item n ∧
        s' = { s with sender := .finished, sent := s.sent ++ [.speech n item.index] }) := by
  unfold Speech.abort at h
  split at h
  swap
  · cases h
  rename_i hcancelled
  rw [Bool.and_eq_true] at hcancelled
  refine ⟨hcancelled, ?_⟩
  split at h
  · rename_i item n hsender
    cases delivered with
    | true => exact .inr ⟨item, n, hsender, (Option.some.inj h).symm⟩
    | false => exact .inl (Option.some.inj h).symm
  · exact .inl (Option.some.inj h).symm

/-- A step moves the speech of the turn, and keeps what holds of its tasks. -/
structure Advance (w w' : SpokenTurn) : Prop where
  moves : Relation.ReflTransGen Move w.speech w'.speech
  control : Control w'

theorem take_progress (h : Control w) {s' : Speech} (htake : w.speech.take = some s') :
    Advance w { w with speech := s' } := by
  obtain ⟨hsender, first, queue, hqueue, hcases⟩ := take_spec htake
  have halive : w.speech.sender.alive = true := by
    rw [hsender]
    rfl
  rcases hcases with ⟨item, rfl, rfl⟩ | ⟨rfl, rfl⟩
  · refine ⟨.single (.taken item queue hsender hqueue), h.sender halive rfl rfl id rfl ?_ ?_ ?_ fun _ =>
      id⟩
    · rw [hqueue]
      exact List.subset_cons_self _ _
    · intro item' hitem
      rw [hqueue]
      obtain rfl := Option.some.inj hitem
      exact .inr List.mem_cons_self
    · exact fun hsending => by cases hsending
  · refine ⟨.single (.finished queue hsender hqueue), h.sender halive rfl rfl id rfl ?_ ?_ ?_ fun _ =>
      id⟩
    · rw [hqueue]
      exact List.subset_cons_self _ _
    · exact fun _ hitem => by cases hitem
    · exact fun hsending => by cases hsending

theorem voiced_progress (h : Control w) {s' : Speech} {synthesised : List Nat}
    (hvoiced : w.speech.voiced synthesised = some s') : Advance w { w with speech := s' } := by
  obtain ⟨item, hsender, rfl⟩ := voiced_spec hvoiced
  have halive : w.speech.sender.alive = true := by
    rw [hsender]
    rfl
  refine ⟨.single (.voiced item hsender), h.sender halive rfl rfl id rfl (List.Subset.refl _) ?_ ?_
    fun _ => id⟩
  · intro item' hitem
    rw [hsender]
    exact .inl hitem
  · exact fun hsending => by cases hsending

theorem lock_progress (h : Control w) {s' : Speech} (hfree : w.lockFree = true)
    (hlock : w.speech.lock = some s') : Advance w { w with speech := s' } := by
  obtain ⟨item, hsender, hcases⟩ := lock_spec hlock
  have halive : w.speech.sender.alive = true := by
    rw [hsender]
    rfl
  rcases hcases with ⟨hstopped, rfl⟩ | ⟨⟨hmuted, hcurrent⟩, rfl⟩
  · refine ⟨.single (.dropped item hsender hstopped),
      h.sender halive rfl rfl id rfl (List.Subset.refl _) ?_ (fun _ => hfree) fun _ => id⟩
    exact fun _ hitem => by cases hitem
  · refine ⟨.single (.locked item hsender hmuted hcurrent),
      h.sender halive rfl rfl id rfl (List.Subset.refl _) ?_ (fun _ => hfree) fun _ => id⟩
    intro item' hitem
    rw [hsender]
    exact .inl hitem

theorem mem_sent_concat {events : List WireEvent} {n i count : Nat}
    (h : .speechEnd count ∈ events ++ [.speech n i]) : .speechEnd count ∈ events := by
  simpa using h

theorem deliver_progress (h : Control w) {s' : Speech} {ok : Bool}
    (hdeliver : w.speech.deliver ok = some s') : Advance w { w with speech := s' } := by
  obtain ⟨item, n, hsender, hcases⟩ := deliver_spec hdeliver
  have halive : w.speech.sender.alive = true := by
    rw [hsender]
    rfl
  rcases hcases with rfl | rfl
  · exact ⟨.single (.delivered item n hsender), h.sender halive rfl rfl id rfl (List.Subset.refl _)
      (fun _ hitem => by cases hitem) (fun hsending => by cases hsending) fun _ => mem_sent_concat⟩
  · exact ⟨.single (.failed item n hsender), h.sender halive rfl rfl (fun _ => rfl) rfl
      (List.Subset.refl _)
      (fun _ hitem => by cases hitem) (fun hsending => by cases hsending) fun _ => id⟩

theorem abort_progress (h : Control w) {s' : Speech} {delivered : Bool}
    (habort : w.speech.abort delivered = some s') : Advance w { w with speech := s' } := by
  obtain ⟨⟨hcancelled, halive⟩, rfl | ⟨item, n, hsender, rfl⟩⟩ := abort_spec habort
  · exact ⟨.single (.lost hcancelled), h.sender halive rfl rfl id rfl (List.Subset.refl _)
      (fun _ hitem => by cases hitem) (fun hsending => by cases hsending) fun _ => id⟩
  · exact ⟨.single (.escaped item n hsender hcancelled), h.sender halive rfl rfl id rfl
      (List.Subset.refl _)
      (fun _ hitem => by cases hitem) (fun hsending => by cases hsending) fun _ => mem_sent_concat⟩

theorem Control.going (h : Control w) (hon : w.cancelRequested = false) (hphase : w.phase ≠ .over) :
    w.speech.senderCancelled = false ∧ ∀ count, .speechEnd count ∉ w.speech.sent := by
  refine ⟨?_, fun count hmem => hphase (h.ended count hmem)⟩
  cases hcancelled : w.speech.senderCancelled with
  | false => rfl
  | true =>
    rcases h.cancels hcancelled with hover | ⟨-, hrequested⟩
    · exact absurd hover hphase
    · exact absurd (hrequested.symm.trans hon) Bool.noConfusion

theorem say_progress (h : Control w) (audio : Bool) {filler : Bool}
    (hfiller : filler = true → w.phase = .responding)
    (hphase : w.phase = .responding ∨ w.phase = .speaking) :
    Advance w { w with filler, speech := w.speech.say audio } := by
  cases hmuted : w.speech.muted with
  | true =>
    have hsame : w.speech.say audio = w.speech := if_pos hmuted
    rw [hsame]
    exact ⟨.refl, ⟨hfiller, h.cancels, h.stopped, h.silencing, h.alone, h.withdrawn, h.marked, h.counted,
      h.ended⟩⟩
  | false =>
    have hnotOver : w.phase ≠ .over := by
      rcases hphase with hp | hp <;> rw [hp] <;> exact Phase.noConfusion
    have hmark : none ∉ w.speech.queue := fun hmem => by
      have hfinishing := h.marked hmem
      rcases hphase with hp | hp <;> exact absurd (hp.symm.trans hfinishing) (by decide)
    have hcancelled : w.speech.senderCancelled = false := by
      cases hc : w.speech.senderCancelled with
      | false => rfl
      | true =>
        rcases h.cancels hc with hover | ⟨hfinishing, -⟩
        · exact absurd hover hnotOver
        · rcases hphase with hp | hp <;> exact absurd (hp.symm.trans hfinishing) (by decide)
    have hend : ∀ count, .speechEnd count ∉ w.speech.sent := fun count hmem =>
      hnotOver (h.ended count hmem)
    refine ⟨.single (.said audio hmuted hmark hcancelled hend), ?_⟩
    rw [say_eq audio hmuted hcancelled]
    refine ⟨hfiller, h.cancels, h.stopped, h.silencing, fun hsending => h.alone ?_, fun hp => ?_,
      fun hmem => ?_, fun count hp => ?_, h.ended⟩
    · cases halive : w.speech.sender.alive with
      | true =>
        simp only [halive, if_true] at hsending
        exact hsending
      | false =>
        simp only [halive, Bool.false_eq_true, if_false] at hsending
        cases hsending
    · rcases hphase with hp' | hp' <;> rcases hp with hp | hp <;> exact absurd (hp'.symm.trans hp)
        (by decide)
    · exact absurd (by simpa using hmem) hmark
    · rcases hphase with hp' | hp' <;> rcases hp with
        hp | hp <;> exact absurd (hp'.symm.trans hp) Phase.noConfusion

theorem ended_control (h : Control w) (hmuted : speech.muted = w.speech.muted)
    (hopen : w.speech.isOpen = false → speech.isOpen = false)
        (hsender : speech.sender = w.speech.sender) :
    Control (w.ended speech) := by
  refine ⟨fun hf => (by cases hf), fun _ => .inl rfl, fun hc => ?_, fun hr =>
    hmuted.trans (h.silencing hr),
    fun hs => ⟨rfl, ?_⟩, fun hp => ?_, fun hmem => (by cases hmem), fun count hp => ?_, fun _ _ => rfl⟩
  · exact (h.stopped hc).imp (hmuted.trans ·) hopen
  · have hsending : speech.sender.isSending = true := hs
    rw [hsender] at hsending
    exact (h.alone hsending).2
  · rcases hp with hp | hp <;> cases hp
  · rcases hp with hp | hp <;> cases hp

theorem ended_progress (h : Control w) : Advance w (w.ended w.speech) :=
  ⟨.single .stopped, ended_control h rfl id rfl⟩

theorem Control.enter (h : Control w) (hon : w.cancelRequested = false) (hnotOver : w.phase ≠ .over)
    {filler : Bool} (hfiller : filler = true → phase = .responding)
    (hcancelled : speech.senderCancelled = w.speech.senderCancelled)
    (hmuted : w.speech.muted = true → speech.muted = true) (hsender : speech.sender = w.speech.sender)
    (hholds : SpokenTurn.Phase.holds phase = true → w.lockFree = true)
    (hwithdrawn : phase = .announcing ∨ phase = .withdrawing → speech.queue = [] ∧
      ∀ item, speech.sender.held = some item → item.generation < speech.generation)
    (hmark : none ∈ speech.queue → phase = .finishing)
    (hcounted : ∀ count, phase = .counted count ∨ phase = .reporting count →
      count = (spoken speech.sent).length ∧ speech.sender.alive = false ∧ speech.queue = [])
    (hsent : ∀ count, .speechEnd count ∈ speech.sent → .speechEnd count ∈ w.speech.sent) :
    Control { w with filler, speech, phase } := by
  obtain ⟨hnot, hend⟩ := h.going hon hnotOver
  refine ⟨hfiller, fun hc => ?_, fun hc => ?_, fun hr => hmuted (h.silencing hr), fun hs => ⟨?_, ?_⟩,
    hwithdrawn, hmark, hcounted, fun count hmem => absurd (hsent count hmem) (hend count)⟩
  · exact absurd (hc.symm.trans (hcancelled.trans hnot)) (by decide)
  · exact absurd (hc.symm.trans hon) (by decide)
  · have hsending : w.speech.sender.isSending = true := hsender ▸ hs
    cases hholding : SpokenTurn.Phase.holds phase with
    | false => rfl
    | true =>
      have hfree := hholds hholding
      rw [SpokenTurn.lockFree, hsending] at hfree
      cases hfree
  · exact (h.alone (hsender ▸ hs)).2

theorem isAt_iff : w.isAt phase = true ↔ w.phase = phase ∧ w.cancelRequested = false := by
  rw [SpokenTurn.isAt, Bool.and_eq_true, decide_eq_true_eq, Bool.not_eq_true']

theorem Control.unmarked (h : Control w) (hphase : w.phase ≠ .finishing)
    (hmem : none ∈ w.speech.queue) : phase = .finishing :=
  absurd (h.marked hmem) hphase

theorem Control.unfilled (h : Control w) (hphase : w.phase ≠ .responding)
    (hf : w.filler = true) : phase = .responding :=
  absurd (h.filler hf) hphase

theorem respond_progress (h : Control w) (hat : w.isAt .responding = true) (retract : Bool) :
    Advance w { w with filler := false, phase := if retract then .retracting else .speaking } := by
  obtain ⟨hphase, hon⟩ := isAt_iff.mp hat
  have hnotOver : w.phase ≠ .over := by simp [hphase]
  have hunmarked : w.phase ≠ .finishing := by simp [hphase]
  refine ⟨.refl, h.enter hon hnotOver (fun hf => by cases hf) rfl id rfl ?_ ?_ (h.unmarked hunmarked) ?_
    fun _ => id⟩
  · cases retract <;> exact fun hh => by cases hh
  · cases retract <;> rintro (hp | hp) <;> cases hp
  · cases retract <;> rintro count (hp | hp) <;> cases hp

theorem bump_progress (h : Control w) (htidy : Tidy w.speech) (hat : w.isAt .retracting = true) :
    Advance w { w with speech := w.speech.bump, phase := if announces then .announcing else .speaking }
    := by
  obtain ⟨hphase, hon⟩ := isAt_iff.mp hat
  have hnotOver : w.phase ≠ .over := by simp [hphase]
  have hunfilled : w.phase ≠ .responding := by simp [hphase]
  refine ⟨.single .bumped, h.enter hon hnotOver (h.unfilled hunfilled) rfl id rfl ?_ ?_
    (fun hmem => by cases hmem) ?_ fun _ => id⟩
  · cases announces <;> exact fun hh => by cases hh
  · refine fun _ => ⟨rfl, fun item hitem => Nat.lt_succ_of_le (htidy.generations item ?_)⟩
    have hheld : w.speech.sender.held = some item := hitem
    rw [Speech.pending, hheld]
    exact List.mem_cons_self
  · cases announces <;> rintro count (hp | hp) <;> cases hp

theorem announce_progress (h : Control w) (hat : w.isAt .announcing = true)
    (hphase' : phase = .speaking ∨ phase = .withdrawing ∧ w.lockFree = true) :
        Advance w { w with phase } := by
  obtain ⟨hphase, hon⟩ := isAt_iff.mp hat
  have hnotOver : w.phase ≠ .over := by simp [hphase]
  have hunfilled : w.phase ≠ .responding := by simp [hphase]
  have hunmarked : w.phase ≠ .finishing := by simp [hphase]
  refine ⟨.refl, h.enter hon hnotOver (h.unfilled hunfilled) rfl id rfl ?_ ?_ (h.unmarked hunmarked) ?_
    fun _ => id⟩
  · rcases hphase' with rfl | ⟨-, hfree⟩
    · exact fun hh => by cases hh
    · exact fun _ => hfree
  · exact fun _ => h.withdrawn (.inl hphase)
  · rcases hphase' with rfl | ⟨rfl, -⟩ <;> rintro count (hp | hp) <;> cases hp

theorem Control.barred (h : Control w) (hphase : w.phase = .withdrawing) :
    Barred w.speech.queued w.speech := by
  obtain ⟨hqueue, hheld⟩ := h.withdrawn (.inr hphase)
  refine ⟨Nat.le_refl _, fun _ item hitem hcurrent => ?_, fun item n hsender => ?_⟩
  · rw [Speech.pending, hqueue] at hitem
    have hitem : w.speech.sender.held = some item := by simpa using hitem
    exact absurd hcurrent (Nat.ne_of_lt (hheld item hitem))
  · have halone := (h.alone (by rw [hsender]; rfl)).1
    rw [hphase] at halone
    cases halone

theorem announced_progress (h : Control w) (hat : w.isAt .withdrawing = true) (ok : Bool) :
    Advance w { w with speech := w.speech.log w.cancelledEvent ok, phase := .speaking } := by
  obtain ⟨hphase, hon⟩ := isAt_iff.mp hat
  have hnotOver : w.phase ≠ .over := by simp [hphase]
  have hunfilled : w.phase ≠ .responding := by simp [hphase]
  have hunmarked : w.phase ≠ .finishing := by simp [hphase]
  have hspeaking : ∀ count, ¬(Phase.speaking = .counted count ∨ Phase.speaking = .reporting count) := by
    simp
  cases ok with
  | true =>
    refine ⟨.single (.withdrawn (h.barred hphase)),
      h.enter hon hnotOver (h.unfilled hunfilled) rfl id rfl
      (fun hh => by cases hh) (by simp) (h.unmarked hunmarked)
          (fun count hp => absurd hp (hspeaking count)) ?_⟩
    simp [Speech.log, SpokenTurn.cancelledEvent]
  | false =>
    exact ⟨.single .closed, h.enter hon hnotOver (h.unfilled hunfilled) rfl id rfl
      (fun hh => by cases hh)
      (by simp) (h.unmarked hunmarked) (fun count hp => absurd hp (hspeaking count)) fun _ => id⟩

theorem finish_progress (h : Control w) (hnumbered : Numbered w.speech) (htidy : Tidy w.speech)
    (hat : w.isAt .speaking = true) :
    Advance w (if w.speech.sender.alive then { w with speech := w.speech.mark, phase := .finishing }
      else { w with phase := .counted w.speech.seq }) := by
  obtain ⟨hphase, hon⟩ := isAt_iff.mp hat
  have hnotOver : w.phase ≠ .over := by simp [hphase]
  have hunfilled : w.phase ≠ .responding := by simp [hphase]
  have hunmarked : w.phase ≠ .finishing := by simp [hphase]
  have hnot := (h.going hon hnotOver).1
  cases halive : w.speech.sender.alive with
  | true =>
    rw [if_pos rfl]
    exact ⟨.single (.marked (fun hmem => hunmarked (h.marked hmem)) halive),
      h.enter hon hnotOver (h.unfilled hunfilled) rfl id rfl (fun hh => by cases hh) (by simp)
      (fun _ => rfl)
        (by simp) fun _ => id⟩
  | false =>
    rw [if_neg Bool.false_ne_true]
    refine ⟨.refl, h.enter hon hnotOver (h.unfilled hunfilled) rfl id rfl (fun hh => by cases hh)
      (by simp) (h.unmarked hunmarked) (fun count hp => ?_) fun _ => id⟩
    obtain rfl : w.speech.seq = count := by simpa using hp
    exact ⟨hnumbered.next (.inr hnot), halive, htidy.idle halive hnot⟩

theorem joined_progress (h : Control w) (hnumbered : Numbered w.speech) (htidy : Tidy w.speech)
    (hat : w.isAt .finishing = true) (hdone : w.speech.sender.alive = false) :
    Advance w { w with phase := .counted w.speech.seq } := by
  obtain ⟨hphase, hon⟩ := isAt_iff.mp hat
  have hnotOver : w.phase ≠ .over := by simp [hphase]
  have hunfilled : w.phase ≠ .responding := by simp [hphase]
  have hnot := (h.going hon hnotOver).1
  have hqueue := htidy.idle hdone hnot
  refine ⟨.refl, h.enter hon hnotOver (h.unfilled hunfilled) rfl id rfl (fun hh => by cases hh) (by simp)
    (fun hmem => ?_) (fun count hp => ?_) fun _ => id⟩
  · rw [hqueue] at hmem
    cases hmem
  · obtain rfl : w.speech.seq = count := by simpa using hp
    exact ⟨hnumbered.next (.inr hnot), hdone, hqueue⟩

theorem report_progress (h : Control w) (hon : w.cancelRequested = false) {count : Nat}
    (hphase : w.phase = .counted count) (hfree : w.lockFree = true) :
    Advance w { w with phase := .reporting count } := by
  have hnotOver : w.phase ≠ .over := by simp [hphase]
  have hunfilled : w.phase ≠ .responding := by simp [hphase]
  have hunmarked : w.phase ≠ .finishing := by simp [hphase]
  refine ⟨.refl, h.enter hon hnotOver (h.unfilled hunfilled) rfl id rfl (fun _ => hfree) (by simp)
    (h.unmarked hunmarked) (fun count' hp => ?_) fun _ => id⟩
  obtain rfl : count = count' := by simpa using hp
  exact h.counted count (.inl hphase)

theorem reported_progress (h : Control w) (hkept : Kept w.speech) {count : Nat}
    (hphase : w.phase = .reporting count)
    (hon : w.cancelRequested = false) (ok : Bool) :
        Advance w (w.ended (w.speech.log (.speechEnd count) ok)) := by
  obtain ⟨hcount, hdead, hqueue⟩ := h.counted count (.inr hphase)
  have hnot := (h.going hon (by simp [hphase])).1
  cases ok with
  | true =>
    refine ⟨.tail (.single (.reported count hcount fun hmuted hfirst hopen => ?_)) .stopped,
      ended_control h rfl id rfl⟩
    rw [← hkept hmuted hfirst hopen hnot]
    simp [Speech.line, Speech.pending, held_of_not_alive hdead, hqueue]
  | false => exact ⟨.tail (.single .closed) .stopped, ended_control h rfl (fun _ => rfl) rfl⟩

theorem unwind_progress (h : Control w) (hrequested : w.cancelRequested = true)
    (hspeech : speech = w.speech ∨ w.phase = .withdrawing ∧ speech = w.speech.log w.cancelledEvent true ∨
      ∃ count, w.phase = .reporting count ∧ speech = w.speech.log (.speechEnd count) true) :
    Advance w (w.ended speech) := by
  rcases hspeech with rfl | ⟨hphase, rfl⟩ | ⟨count, hphase, rfl⟩
  · exact ended_progress h
  · exact ⟨.tail (.single (.withdrawn (h.barred hphase))) .stopped, ended_control h rfl id rfl⟩
  · obtain ⟨hcount, -, -⟩ := h.counted count (.inr hphase)
    refine ⟨.tail (.single (.reported count hcount fun hmuted _ hopen => ?_)) .stopped,
      ended_control h rfl id rfl⟩
    rcases h.stopped hrequested with hsilent | hclosed
    · exact absurd (hsilent.symm.trans hmuted) Bool.noConfusion
    · exact absurd (hclosed.symm.trans hopen) Bool.noConfusion

theorem cut_control (h : Control w) {cancelRequested : Bool}
    (hqueue : speech.queue = w.speech.queue) (hsender : speech.sender = w.speech.sender)
    (hgeneration : speech.generation = w.speech.generation) (hsent : speech.sent = w.speech.sent)
    (hcancelled : speech.senderCancelled = true →
      w.speech.senderCancelled = true ∨ w.phase = .finishing ∧ cancelRequested = true)
    (hrequested : w.cancelRequested = true → cancelRequested = true)
    (hstopped : speech.muted = true ∨ speech.isOpen = false)
        (hmuted : reader ≠ .idle → speech.muted = true)
    (hreader : reader = .sending → w.reader = .sending) :
    Control { w with speech, cancelRequested, reader } := by
  refine ⟨h.filler, fun hc => ?_, fun _ => hstopped, hmuted, fun hs => ?_, fun hp => ?_,
    fun hmem => h.marked (hqueue ▸ hmem), fun count hp => ?_, fun count hmem =>
    h.ended count (hsent ▸ hmem)⟩
  · rcases hcancelled hc with hbefore | hnow
    · exact (h.cancels hbefore).imp_right fun hfinishing => ⟨hfinishing.1, hrequested hfinishing.2⟩
    · exact .inr hnow
  · obtain ⟨hholds, halone⟩ := h.alone (hsender ▸ hs)
    exact ⟨hholds, fun hsending => halone (hreader hsending)⟩
  · obtain ⟨hempty, hheld⟩ := h.withdrawn hp
    exact ⟨hqueue.trans hempty, fun item hitem => hgeneration ▸ hheld item (hsender ▸ hitem)⟩
  · obtain ⟨hcount, hdead, hempty⟩ := h.counted count hp
    dsimp only
    rw [hsent, hsender]
    exact ⟨hcount, hdead, hqueue.trans hempty⟩

theorem cancelTask_cases (w : SpokenTurn) : (w.phase = .finishing ∧ w.cancelTask =
      { w with speech := w.speech.cancelSender, cancelRequested := true }) ∨
      ∃ cancelRequested, (w.cancelRequested = true → cancelRequested = true) ∧
        w.cancelTask = { w with cancelRequested } := by
  unfold SpokenTurn.cancelTask
  by_cases hphase : w.phase = .finishing
  · refine .inl ⟨hphase, ?_⟩
    simp [hphase]
  · refine .inr ⟨_, fun hrequested => ?_, by rw [if_neg hphase]⟩
    rw [hrequested, Bool.true_or]

theorem interrupt_progress (h : Control w) (cancels : Bool)
    (hreader : reader ≠ .sending) : Advance w { (if cancels then w.cancelTask else w) with
      speech := (if cancels then w.cancelTask else w).speech.mute, reader } := by
  have hnotSending : reader = .sending → w.reader = .sending := fun hsending => absurd hsending hreader
  cases cancels with
  | false =>
    exact ⟨.single .muted, cut_control h rfl rfl rfl rfl .inl id (.inl rfl) (fun _ => rfl) hnotSending⟩
  | true =>
    rw [if_pos rfl]
    rcases cancelTask_cases w with ⟨hphase, hcut⟩ | ⟨requested, hrequested, hcut⟩
    · rw [hcut]
      exact ⟨.tail (.single .cancelled) .muted, cut_control h rfl rfl rfl rfl
        (fun _ => .inr ⟨hphase, rfl⟩) (fun _ => rfl) (.inl rfl) (fun _ => rfl) hnotSending⟩
    · rw [hcut]
      exact ⟨.single .muted, cut_control h rfl rfl rfl rfl .inl hrequested (.inl rfl)
        (fun _ => rfl) hnotSending⟩

theorem close_progress (h : Control w) (cancels : Bool) :
    Advance w { (if cancels then w.cancelTask else w) with
      speech := (if cancels then w.cancelTask else w).speech.close } := by
  cases cancels with
  | false => exact ⟨.single .closed, cut_control h rfl rfl rfl rfl .inl id (.inr rfl) h.silencing id⟩
  | true =>
    rw [if_pos rfl]
    rcases cancelTask_cases w with ⟨hphase, hcut⟩ | ⟨requested, hrequested, hcut⟩
    · rw [hcut]
      exact ⟨.tail (.single .cancelled) .closed, cut_control h rfl rfl rfl rfl
        (fun _ => .inr ⟨hphase, rfl⟩) (fun _ => rfl) (.inr rfl) h.silencing id⟩
    · rw [hcut]
      exact ⟨.single .closed, cut_control h rfl rfl rfl rfl .inl hrequested (.inr rfl) h.silencing id⟩

theorem silence_control (h : Control w) (hmuted : w.speech.muted = true)
    (hreader : reader = .sending → w.lockFree = true) : Control { w with reader } := by
  refine ⟨h.filler, h.cancels, h.stopped, fun _ => hmuted, fun hs =>
    ⟨(h.alone hs).1, fun hsending => ?_⟩, h.withdrawn, h.marked, h.counted, h.ended⟩
  have hfree := hreader hsending
  rw [SpokenTurn.lockFree, hs] at hfree
  cases hfree

theorem silenced_progress (h : Control w) (hreader : w.reader = .sending) (ok : Bool) :
    Advance w { w with speech := w.speech.log w.cancelledEvent ok, reader := .idle } := by
  have hmuted : w.speech.muted = true := h.silencing (by rw [hreader]; decide)
  cases ok with
  | true =>
    have hbarred : Barred w.speech.queued w.speech := by
      refine ⟨Nat.le_refl _, fun hloud => absurd (hmuted.symm.trans hloud) Bool.noConfusion,
        fun item n hsender => ?_⟩
      exact absurd hreader (h.alone (by rw [hsender]; rfl)).2
    refine ⟨.single (.withdrawn hbarred), ?_⟩
    refine ⟨h.filler, h.cancels, h.stopped, fun hr => absurd rfl hr, fun hs =>
      ⟨(h.alone hs).1, fun hr => (by cases hr)⟩,
      h.withdrawn, h.marked, fun count hp => ?_, fun count hmem => h.ended count ?_⟩
    · obtain ⟨hcount, hrest⟩ := h.counted count hp
      refine ⟨?_, hrest⟩
      simpa [Speech.log, SpokenTurn.cancelledEvent, spoken] using hcount
    · simpa [Speech.log, SpokenTurn.cancelledEvent] using hmem
  | false =>
    exact ⟨.single .closed, cut_control h rfl rfl rfl rfl .inl id (.inr rfl) (fun hr => absurd rfl hr)
      (fun hr => by cases hr)⟩

theorem step_progress (h : Control w) (hsound : SoundSpeech w.speech)
    (hstep : w.step announces a = some w') : Advance w w' := by
  cases a with
  | synthesise index =>
    obtain rfl := Option.some.inj hstep
    exact ⟨.refl, ⟨h.filler, h.cancels, h.stopped, h.silencing, h.alone, h.withdrawn, h.marked,
      h.counted, h.ended⟩⟩
  | say audio =>
    rw [SpokenTurn.step] at hstep
    split_ifs at hstep with hat
    obtain rfl := Option.some.inj hstep
    have hphase : w.phase = .responding ∨ w.phase = .speaking :=
      (Bool.or_eq_true _ _ ▸ hat).imp (fun hr => (isAt_iff.mp hr).1) fun hs => (isAt_iff.mp hs).1
    exact say_progress h audio h.filler hphase
  | fill audio =>
    rw [SpokenTurn.step] at hstep
    split at hstep
    swap
    · cases hstep
    rename_i hfiller
    obtain rfl := Option.some.inj hstep
    have hphase := h.filler hfiller
    split_ifs
    · exact ⟨.refl, ⟨fun hf => (by cases hf), h.cancels, h.stopped, h.silencing, h.alone, h.withdrawn,
        h.marked, h.counted, h.ended⟩⟩
    · exact say_progress h audio (fun hf => by cases hf) (.inl hphase)
  | take =>
    obtain ⟨speech, htake, rfl⟩ := Option.map_eq_some_iff.mp hstep
    exact take_progress h htake
  | voiced =>
    obtain ⟨speech, hvoiced, rfl⟩ := Option.map_eq_some_iff.mp hstep
    exact voiced_progress h hvoiced
  | lock =>
    rw [SpokenTurn.step] at hstep
    split_ifs at hstep with hfree
    obtain ⟨speech, hlock, rfl⟩ := Option.map_eq_some_iff.mp hstep
    exact lock_progress h hfree hlock
  | deliver ok =>
    obtain ⟨speech, hdeliver, rfl⟩ := Option.map_eq_some_iff.mp hstep
    exact deliver_progress h hdeliver
  | abort delivered =>
    obtain ⟨speech, habort, rfl⟩ := Option.map_eq_some_iff.mp hstep
    exact abort_progress h habort
  | respond retract =>
    rw [SpokenTurn.step] at hstep
    split at hstep
    swap
    · cases hstep
    rename_i hat
    obtain rfl := Option.some.inj hstep
    exact respond_progress h hat retract
  | bump =>
    rw [SpokenTurn.step] at hstep
    split at hstep
    swap
    · cases hstep
    rename_i hat
    obtain rfl := Option.some.inj hstep
    exact bump_progress h hsound.tidy (Bool.and_eq_true _ _ ▸ hat).1
  | announce =>
    rw [SpokenTurn.step] at hstep
    split_ifs at hstep with hat hclosed hfree
    · obtain rfl := Option.some.inj hstep
      exact announce_progress h hat (.inl rfl)
    · obtain rfl := Option.some.inj hstep
      exact announce_progress h hat (.inr ⟨rfl, hfree⟩)
  | announced ok =>
    rw [SpokenTurn.step] at hstep
    split_ifs at hstep with hat
    obtain rfl := Option.some.inj hstep
    exact announced_progress h hat ok
  | finish =>
    rw [SpokenTurn.step] at hstep
    split at hstep
    swap
    · cases hstep
    rename_i hat
    have hfinish := finish_progress h hsound.numbered hsound.tidy hat
    split_ifs at hstep hfinish
    · exact Option.some.inj hstep ▸ hfinish
    · exact Option.some.inj hstep ▸ hfinish
  | joined =>
    rw [SpokenTurn.step] at hstep
    split_ifs at hstep with hat
    obtain rfl := Option.some.inj hstep
    rw [Bool.and_eq_true, Bool.not_eq_true'] at hat
    exact joined_progress h hsound.numbered hsound.tidy hat.1 hat.2
  | report =>
    rw [SpokenTurn.step] at hstep
    split at hstep
    · rename_i count hphase hon
      split_ifs at hstep with hclosed hfree
      · obtain rfl := Option.some.inj hstep
        exact ended_progress h
      · obtain rfl := Option.some.inj hstep
        exact report_progress h hon hphase hfree
    · cases hstep
  | reported ok =>
    rw [SpokenTurn.step] at hstep
    split at hstep
    · rename_i count hphase hon
      obtain rfl := Option.some.inj hstep
      exact reported_progress h hsound.kept hphase hon ok
    · cases hstep
  | leave =>
    rw [SpokenTurn.step] at hstep
    split_ifs at hstep
    obtain rfl := Option.some.inj hstep
    exact ended_progress h
  | unwind delivered =>
    rw [SpokenTurn.step] at hstep
    split at hstep
    swap
    · cases hstep
    rename_i hrequested
    split at hstep
    · cases hstep
    · rename_i hphase
      obtain rfl := Option.some.inj hstep
      cases delivered with
      | true => exact unwind_progress h hrequested (.inr (.inl ⟨hphase, rfl⟩))
      | false => exact ended_progress h
    · rename_i count hphase
      obtain rfl := Option.some.inj hstep
      cases delivered with
      | true => exact unwind_progress h hrequested (.inr (.inr ⟨count, hphase, rfl⟩))
      | false => exact ended_progress h
    · obtain rfl := Option.some.inj hstep
      exact ended_progress h
  | interrupt cancels =>
    rw [SpokenTurn.step] at hstep
    split at hstep
    swap
    · cases hstep
    obtain rfl := Option.some.inj hstep
    exact interrupt_progress h cancels (by split_ifs <;> decide)
  | silence =>
    rw [SpokenTurn.step] at hstep
    split_ifs at hstep with hreader hclosed hfree
    · obtain rfl := Option.some.inj hstep
      exact ⟨.refl, silence_control h (h.silencing (by rw [hreader]; decide)) fun hr => by cases hr⟩
    · obtain rfl := Option.some.inj hstep
      exact ⟨.refl, silence_control h (h.silencing (by rw [hreader]; decide)) fun _ => hfree⟩
  | silenced ok =>
    rw [SpokenTurn.step] at hstep
    split_ifs at hstep with hreader
    obtain rfl := Option.some.inj hstep
    exact silenced_progress h hreader ok
  | close cancels =>
    obtain rfl := Option.some.inj hstep
    exact close_progress h cancels

/-! ## Every run -/

/-- What was sent about a turn. -/
structure SpokenInOrder (s : Speech) : Prop where
  /-- Nothing that was queued before a `cancelled` event is sent after it. -/
  silent : ∀ before q after, s.sent = before ++ .cancelled q :: after → ∀ e ∈ spoken after, q ≤ e.2
  /-- The numbers are 0, 1, 2, ... -/
  numbered : (spoken s.sent).map Prod.fst = List.range (spoken s.sent).length
  /-- The sentences are in the order in which they were queued. -/
  ordered : ((spoken s.sent).map Prod.snd).Pairwise (· < ·)
  /-- When the end is reported, its count is that of the sentences sent; these are all that were queued
  unless the turn was muted or retracted or the connection closed. -/
  complete : Complete s

/-- **Nothing is spoken after the event that stopped it**, in any interleaving; what is spoken is in
order, and complete unless something stopped it. -/
theorem spoken_in_order (announces : Bool) (w : SpokenTurn)
    (h : (speaking announces).Reaches Machine.Always w) : SpokenInOrder w.speech := by
  have hboth : Control w ∧ SoundSpeech w.speech := by
    refine h.invariant (P := fun w => Control w ∧ SoundSpeech w.speech) (fun s a t hs _ hstep => ?_)
      fun s hs => ?_
    · obtain ⟨hmoves, hcontrol⟩ := step_progress hs.1 hs.2 hstep
      exact ⟨hcontrol, hs.2.moves hmoves⟩
    · obtain ⟨hspeech, -, hphase, hrequested, hreader⟩ := hs
      rw [hspeech]
      refine ⟨⟨fun _ => hphase, ?_, ?_, ?_, ?_, ?_, ?_, ?_, ?_⟩, sound_fresh⟩
      all_goals simp [hspeech, hphase, hrequested, hreader, Speech.fresh, Sender.isSending]
  obtain ⟨-, hsound⟩ := hboth
  refine ⟨hsound.quiet.silent, hsound.numbered.numbers, ?_, hsound.complete⟩
  exact hsound.ordered.increasing.sublist (List.sublist_append_left _ _)

def silentTurn : SpokenTurn := ⟨.fresh, [], .responding, false, true, .idle⟩

/-- One sentence is said and retracted while the next one waits, and another one is said instead. -/
def retractedSpeech : List SpeechAction :=
  [.say false, .say false, .take, .voiced, .lock, .deliver true, .respond true, .bump, .announce,
    .announced true,
    .say true, .synthesise 2, .finish, .take, .voiced, .lock, .deliver true, .take, .joined, .report,
    .reported true]

theorem spoken_in_order_retracted : ∃ w, (speaking true).Reaches Machine.Always w ∧
    w.speech.sent = [.speech 0 0, .cancelled 2, .speech 1 2, .speechEnd 2] ∧ SpokenInOrder w.speech := by
  obtain ⟨w, hw, hsent⟩ := (speaking true).reaches_of_exec Machine.Always
    (s := silentTurn) retractedSpeech
    (fun w => w.speech.sent = [.speech 0 0, .cancelled 2, .speech 1 2, .speechEnd 2])
    ⟨rfl, rfl, rfl, rfl, rfl⟩ (by decide)
  exact ⟨w, hw, of_decide_eq_true hsent, spoken_in_order true w hw⟩

end GuruJi.Voice
