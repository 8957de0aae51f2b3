import GuruJi.Conversation.Marker
import Mathlib.Data.List.Infix

/-!
# Streamed replies

`stream_reply` reads a reply piece by piece. The opening is held back until it is clear that it is no
marker, or until it is too long for one; then it is released to speech, and so is each piece after it.

* `stream_sound`: whatever happens, what is released is the beginning of what came, and a search is
  reported with nothing released.
* **`streams_iff`**: a reply that is read in pieces is read as it is whole, iff it has no marker, or no
  piece ends within the marker after more than `maxMarkerChars` characters.
* `long_marker_spoken`: a marker with so much white space in it that its beginning is spoken.
-/

namespace GuruJi.Conversation

open GuruJi.Voice

/-! ## Reading -/

/-- `MAX_MARKER_CHARS`. -/
def maxMarkerChars : Nat := 320

inductive StreamError where
  | timeoutFirst
  | timeoutTotal
  | provider
  deriving DecidableEq

structure StreamOutcome where
  text : List Char
  emittedAny : Bool
  search : Option (List Char)
  error : Option StreamError
  deriving DecidableEq

/-- What comes of the model: a piece of text, a deadline that passes first, or a failure. -/
inductive Event where
  | text (delta : List Char)
  | late
  | failed
  deriving DecidableEq

/-- The text so far, what is held back of it, and what was released to speech. -/
structure Reading where
  parts : List Char
  held : List Char
  released : Bool
  spoken : List (List Char)
  deriving DecidableEq

/-- The outcome of a reading, with what was spoken. -/
def Reading.outcome (s : Reading) (search : Option (List Char)) (error : Option StreamError) :
    StreamOutcome × List (List Char) :=
  (⟨s.parts, !s.spoken.isEmpty, search, error⟩, s.spoken)

/-- `release`. -/
def Reading.release (s : Reading) (text : List Char) : Reading :=
  if text = [] then s else { s with spoken := s.spoken ++ [text] }

/-- What is done with an opening. -/
inductive Verdict where
  | wait
  | ask (query : List Char)
  | release
  deriving DecidableEq

/-- The checks of an opening that may be a marker. -/
def judgeMarker (opening : List Char) : Verdict :=
  match query opening with
  | some query => .ask query
  | none =>
    -- not a well-formed marker: ordinary text
    if [']', ']'] <:+: opening ∨ maxMarkerChars < opening.length then .release else .wait

def judge (detectSearch : Bool) (held : List Char) : Verdict :=
  if (opening held).length < 2 then .wait
  else if detectSearch && ['[', '['].isPrefixOf (opening held) then judgeMarker (opening held)
  else .release

def asked (detectSearch : Bool) (held : List Char) : Option (List Char) :=
  if detectSearch then query (opening held) else none

def finish (detectSearch : Bool) (s : Reading) : StreamOutcome × List (List Char) :=
  if s.released ∨ s.held = [] then s.outcome none none
  else
    match asked detectSearch s.held with
    | some query => s.outcome (some query) none
    | none => (s.release s.held).outcome none none

/-- The loop of `stream_reply`, over what comes of the model. -/
def streamFrom (detectSearch : Bool) : Reading → List Event → StreamOutcome × List (List Char)
  | s, [] => finish detectSearch s
  | s, .late :: _ => s.outcome none (some (if s.parts = [] then .timeoutFirst else .timeoutTotal))
  | s, .failed :: _ => s.outcome none (some .provider)
  | s, .text delta :: events =>
    if delta = [] then streamFrom detectSearch s events
    else if s.released then
      streamFrom detectSearch ({ s with parts := s.parts ++ delta }.release delta) events
    else
      let s := { s with parts := s.parts ++ delta, held := s.held ++ delta }
      match judge detectSearch s.held with
      | .wait => streamFrom detectSearch s events
      | .ask query => s.outcome (some query) none
      | .release => streamFrom detectSearch ({ s with released := true }.release s.held) events

/-- `stream_reply`. -/
def streamReply (detectSearch : Bool) (events : List Event) : StreamOutcome × List (List Char) :=
  streamFrom detectSearch ⟨[], [], false, []⟩ events

/-! ## What is read -/

def cuts (before : List Char) : List (List Char) → List (List Char)
  | [] => []
  | delta :: deltas => (before ++ delta) :: cuts (before ++ delta) deltas

/-- A piece ends in the marker, too far from its beginning. -/
def CutsMarker (deltas : List (List Char)) : Prop :=
  ∃ cut ∈ cuts [] deltas, maxMarkerChars < (opening cut).length ∧ query cut = none

/-- The reading agrees with that of the whole reply. -/
structure Agrees (detectSearch : Bool) (deltas : List (List Char)) : Prop where
  search : (streamReply detectSearch (deltas.map .text)).1.search = query deltas.flatten
  silent : query deltas.flatten ≠ none → (streamReply detectSearch (deltas.map .text)).2 = []
  whole : query deltas.flatten = none →
    (streamReply detectSearch (deltas.map .text)).2.flatten = deltas.flatten

variable {detectSearch : Bool} {p : List Char} {deltas : List (List Char)}

def waiting (p : List Char) : Reading := ⟨p, p, false, []⟩

theorem prefix_of_mem_cuts {cut : List Char} (h : cut ∈ cuts p deltas) : p <+: cut := by
  induction deltas generalizing p with
  | nil => cases h
  | cons delta deltas ih =>
    rcases List.mem_cons.mp h with rfl | h
    · exact List.prefix_append p delta
    · exact (List.prefix_append p delta).trans (ih h)

theorem streamFrom_released (detectSearch : Bool) {s : Reading} (hs : s.released = true)
    (deltas : List (List Char)) : (streamFrom detectSearch s (deltas.map .text)).1.search = none ∧
      (streamFrom detectSearch s (deltas.map .text)).2.flatten = s.spoken.flatten ++ deltas.flatten := by
  induction deltas generalizing s with
  | nil =>
    rw [List.map_nil, streamFrom, finish, if_pos (.inl hs)]
    exact ⟨rfl, by simp [Reading.outcome]⟩
  | cons delta deltas ih =>
    rw [List.map_cons, streamFrom]
    split_ifs with hdelta
    · rw [hdelta, List.flatten_cons, List.nil_append]
      exact ih hs
    · obtain ⟨hsearch, hspoken⟩ := ih (s := { s with parts := s.parts ++ delta }.release delta) (by
        rw [Reading.release, if_neg hdelta]
        exact hs)
      refine ⟨hsearch, ?_⟩
      rw [hspoken, Reading.release, if_neg hdelta]
      simp

/-! ## Openings -/

theorem judgeMarker_ask {q : List Char} (h : judgeMarker p = .ask q) : query p = some q := by
  rw [judgeMarker] at h
  split at h
  case h_1 query hquery => rw [hquery, Verdict.ask.inj h]
  case h_2 => split_ifs at h

theorem judge_ask {q : List Char} (h : judge detectSearch p = .ask q) :
    detectSearch = true ∧ query p = some q := by
  rw [judge] at h
  split_ifs at h with hshort hmarker
  rw [Bool.and_eq_true] at hmarker
  exact ⟨hmarker.1, query_opening ▸ judgeMarker_ask h⟩

theorem judge_long (detectSearch : Bool) (hlong : maxMarkerChars < (opening p).length)
    (hquery : query p = none) : judge detectSearch p = .release := by
  have htwo : ¬(opening p).length < 2 := by
    unfold maxMarkerChars at hlong
    omega
  rw [judge, if_neg htwo]
  split_ifs with hmarker
  · simp only [judgeMarker, query_opening, hquery]
    rw [if_pos (.inr hlong)]
  · rfl

theorem judgeMarker_release (h : judgeMarker p = .release) :
    query p = none ∧ ([']', ']'] <:+: p ∨ maxMarkerChars < p.length) := by
  rw [judgeMarker] at h
  split at h
  case h_1 => cases h
  case h_2 hquery =>
    split_ifs at h with hclosed
    exact ⟨hquery, hclosed⟩

theorem judge_release {more q : List Char} (h : judge true p = .release)
    (hq : query (p ++ more) = some q) : maxMarkerChars < (opening p).length ∧ query p = none := by
  rw [judge] at h
  split_ifs at h with hshort hmarker
  · obtain ⟨hquery, hclosed⟩ := judgeMarker_release h
    rw [query_opening] at hquery
    refine ⟨hclosed.resolve_left fun hpair => ?_, hquery⟩
    have hasked := query_of_closed hq (hpair.trans (List.dropWhile_suffix _).isInfix)
    exact absurd (hquery.symm.trans hasked) (by simp)
  · -- a text that does not open with brackets asks for nothing
    have hne : opening p ≠ [] := by
      intro hnil
      rw [hnil] at hshort
      exact hshort (by decide)
    have hbrackets := brackets_of_query hq
    rw [opening_append hne] at hbrackets
    have hopen : ['[', '['] <+: opening p :=
      List.prefix_of_prefix_length_le hbrackets (List.prefix_append _ _) (Nat.not_lt.mp hshort)
    rw [Bool.true_and, List.isPrefixOf_iff_prefix] at hmarker
    exact absurd hopen hmarker

/-! ## Runs -/

def follow (detectSearch : Bool) (held : List Char) (events : List Event) : Verdict →
    StreamOutcome × List (List Char)
  | .wait => streamFrom detectSearch (waiting held) events
  | .ask query => (waiting held).outcome (some query) none
  | .release => streamFrom detectSearch ({ waiting held with released := true }.release held) events

theorem streamFrom_cons {delta : List Char} (h : delta ≠ []) (p : List Char) (events : List Event) :
    streamFrom detectSearch (waiting p) (.text delta :: events) =
      follow detectSearch (p ++ delta) events (judge detectSearch (p ++ delta)) := by
  have hreleased : ¬(waiting p).released = true := Bool.false_ne_true
  rw [streamFrom, if_neg h, if_neg hreleased]
  show (match judge detectSearch (p ++ delta) with | .wait => _ | .ask query => _ | .release => _) = _
  cases judge detectSearch (p ++ delta) <;> rfl

theorem streamFrom_empty (s : Reading) (events : List Event) :
    streamFrom detectSearch s (.text [] :: events) = streamFrom detectSearch s events := by
  rw [streamFrom, if_pos rfl]

theorem follow_release (detectSearch : Bool) (held : List Char) (deltas : List (List Char)) :
    (follow detectSearch held (deltas.map .text) .release).1.search = none ∧
      (follow detectSearch held (deltas.map .text) .release).2.flatten = held ++ deltas.flatten := by
  have hspoken : ({ waiting held with released := true }.release held).spoken.flatten = held := by
    rw [Reading.release]
    split_ifs with hheld
    · rw [hheld]
      rfl
    · exact List.append_nil held
  have hreleased : ({ waiting held with released := true }.release held).released = true := by
    rw [Reading.release]
    split_ifs <;> rfl
  obtain ⟨hsearch, htold⟩ := streamFrom_released detectSearch hreleased deltas
  rw [hspoken] at htold
  exact ⟨hsearch, htold⟩

theorem finish_waiting (p : List Char) : finish detectSearch (waiting p) =
    match asked detectSearch p with
    | some query => (waiting p).outcome (some query) none
    | none => ((waiting p).release p).outcome none none := by
  rw [finish]
  split_ifs with hdone
  · obtain rfl : p = [] := hdone.resolve_left Bool.false_ne_true
    have hnone : asked detectSearch [] = none := by
      rw [asked]
      split_ifs <;> rfl
    rw [hnone]
    rfl
  · rfl

/-! ## Whatever happens -/

def texts : List Event → List Char
  | .text delta :: events => delta ++ texts events
  | _ => []

theorem spoken_of_released (detectSearch : Bool) {s : Reading} (hs : s.released = true)
    (hspoken : s.spoken.flatten = s.parts)
    (events : List Event) : (streamFrom detectSearch s events).2.flatten <+: s.parts ++ texts events ∧
      (streamFrom detectSearch s events).1.search = none := by
  induction events generalizing s with
  | nil =>
    rw [streamFrom, finish, if_pos (.inl hs)]
    exact ⟨hspoken ▸ List.prefix_append _ _, rfl⟩
  | cons event events ih =>
    cases event with
    | late => exact ⟨hspoken ▸ List.prefix_append _ _, rfl⟩
    | failed => exact ⟨hspoken ▸ List.prefix_append _ _, rfl⟩
    | text delta =>
      rw [streamFrom, texts]
      split_ifs with hdelta
      · rw [hdelta, List.nil_append]
        exact ih hs hspoken
      · rw [Reading.release, if_neg hdelta, ← List.append_assoc]
        exact ih (s := ⟨s.parts ++ delta, s.held, s.released, s.spoken ++ [delta]⟩) hs (by
          rw [List.flatten_append, hspoken, List.flatten_singleton])

theorem spoken_of_waiting (p : List Char) (events : List Event) :
    (streamFrom detectSearch (waiting p) events).2.flatten <+: p ++ texts events ∧
      ((streamFrom detectSearch (waiting p) events).1.search ≠ none →
        (streamFrom detectSearch (waiting p) events).2 = []) := by
  induction events generalizing p with
  | nil =>
    rw [streamFrom, finish_waiting]
    rcases asked detectSearch p with _ | q
    · refine ⟨?_, fun hne => absurd rfl hne⟩
      show ((waiting p).release p).spoken.flatten <+: _
      rw [Reading.release]
      split_ifs
      · exact List.nil_prefix
      · show p ++ [] <+: p ++ []
        exact List.prefix_rfl
    · exact ⟨List.nil_prefix, fun _ => rfl⟩
  | cons event events ih =>
    cases event with
    | late => exact ⟨List.nil_prefix, fun _ => rfl⟩
    | failed => exact ⟨List.nil_prefix, fun _ => rfl⟩
    | text delta =>
      rw [texts]
      by_cases hdelta : delta = []
      · rw [hdelta, streamFrom_empty, List.nil_append]
        exact ih p
      · rw [streamFrom_cons hdelta, ← List.append_assoc]
        cases judge detectSearch (p ++ delta) with
        | wait => exact ih (p ++ delta)
        | ask q => exact ⟨List.nil_prefix, fun _ => rfl⟩
        | release =>
          have hne : p ++ delta ≠ [] := fun hnil => hdelta (List.append_eq_nil_iff.mp hnil).2
          rw [follow, Reading.release, if_neg hne]
          obtain ⟨hstart, hnone⟩ := spoken_of_released detectSearch
            (s := ⟨p ++ delta, p ++ delta, true, [p ++ delta]⟩) rfl (List.append_nil _) events
          exact ⟨hstart, fun hsome => absurd hnone hsome⟩

/-- **Whatever happens**, what is released is the beginning of what came, and nothing is when a search is
reported. -/
theorem stream_sound (detectSearch : Bool) (events : List Event) :
    (streamReply detectSearch events).2.flatten <+: texts events ∧
      ((streamReply detectSearch events).1.search ≠ none → (streamReply detectSearch events).2 = []) :=
  spoken_of_waiting [] events

/-! ## Whole replies -/

theorem streamFrom_plain (detectSearch : Bool) (h : query (p ++ deltas.flatten) = none) :
    (streamFrom detectSearch (waiting p) (deltas.map .text)).1.search = none ∧
      (streamFrom detectSearch (waiting p) (deltas.map .text)).2.flatten = p ++ deltas.flatten := by
  induction deltas generalizing p with
  | nil =>
    rw [List.flatten_nil, List.append_nil] at h ⊢
    have hnone : asked detectSearch p = none := by
      rw [asked, query_opening, h, ite_self]
    rw [List.map_nil, streamFrom, finish_waiting, hnone]
    refine ⟨rfl, ?_⟩
    show ((waiting p).release p).spoken.flatten = p
    rw [Reading.release]
    split_ifs with hp
    · exact hp.symm
    · exact List.append_nil p
  | cons delta deltas ih =>
    rw [List.flatten_cons, ← List.append_assoc] at h ⊢
    rw [List.map_cons]
    by_cases hdelta : delta = []
    · rw [hdelta, List.append_nil] at h ⊢
      rw [streamFrom_empty]
      exact ih h
    · rw [streamFrom_cons hdelta]
      rcases hjudge : judge detectSearch (p ++ delta) with _ | q | _
      · exact ih h
      · have hasked := query_append (judge_ask hjudge).2 deltas.flatten
        exact absurd (h.symm.trans hasked) (by simp)
      · exact follow_release detectSearch (p ++ delta) deltas

/-- A marker is found as it is in the whole reply when no piece ends in it too far. -/
theorem streamFrom_marker {q : List Char} (h : query (p ++ deltas.flatten) = some q)
    (hcuts : ∀ cut ∈ cuts p deltas, maxMarkerChars < (opening cut).length → query cut ≠ none) :
    (streamFrom true (waiting p) (deltas.map .text)).1.search = some q ∧
      (streamFrom true (waiting p) (deltas.map .text)).2 = [] := by
  induction deltas generalizing p with
  | nil =>
    rw [List.flatten_nil, List.append_nil] at h
    have hasked : asked true p = some q := by rw [asked, if_pos rfl, query_opening, h]
    rw [List.map_nil, streamFrom, finish_waiting, hasked]
    exact ⟨rfl, rfl⟩
  | cons delta deltas ih =>
    rw [List.flatten_cons, ← List.append_assoc] at h
    obtain ⟨hcut, hlater⟩ := List.forall_mem_cons.mp hcuts
    rw [List.map_cons]
    by_cases hdelta : delta = []
    · rw [hdelta, List.append_nil] at h hlater
      rw [hdelta, streamFrom_empty]
      exact ih h hlater
    · rw [streamFrom_cons hdelta]
      rcases hjudge : judge true (p ++ delta) with _ | q' | _
      · exact ih h hlater
      · have hasked := query_append (judge_ask hjudge).2 deltas.flatten
        obtain rfl := Option.some.inj (h.symm.trans hasked)
        exact ⟨rfl, rfl⟩
      · obtain ⟨hlong, hnone⟩ := judge_release hjudge h
        exact absurd hnone (hcut hlong)

theorem streamFrom_cut {cut : List Char} (hcut : cut ∈ cuts p deltas)
    (hwait : judge detectSearch p = .wait)
    (hlong : maxMarkerChars < (opening cut).length) (hnone : query cut = none) :
    (streamFrom detectSearch (waiting p) (deltas.map .text)).1.search = none := by
  induction deltas generalizing p with
  | nil => cases hcut
  | cons delta deltas ih =>
    rw [List.map_cons]
    have hjudge := judge_long detectSearch hlong hnone
    by_cases hdelta : delta = []
    · rw [cuts, hdelta, List.append_nil, List.mem_cons] at hcut
      rw [hdelta, streamFrom_empty]
      rcases hcut with rfl | hcut
      · exact absurd (hwait.symm.trans hjudge) (by simp)
      · exact ih hcut hwait
    · rw [streamFrom_cons hdelta]
      rcases hnext : judge detectSearch (p ++ delta) with _ | q | _
      · rcases List.mem_cons.mp hcut with rfl | hcut
        · exact absurd (hnext.symm.trans hjudge) (by simp)
        · exact ih hcut hnext
      · -- the query would stay
        obtain ⟨more, rfl⟩ : p ++ delta <+: cut := by
          rcases List.mem_cons.mp hcut with rfl | hcut
          · exact List.prefix_rfl
          · exact prefix_of_mem_cuts hcut
        exact absurd (hnone.symm.trans (query_append (judge_ask hnext).2 more)) (by simp)
      · exact (follow_release detectSearch (p ++ delta) deltas).1

theorem streamFrom_undetected : (streamFrom false (waiting p) (deltas.map .text)).1.search = none := by
  induction deltas generalizing p with
  | nil =>
    have hnone : asked false p = none := rfl
    rw [List.map_nil, streamFrom, finish_waiting, hnone]
    rfl
  | cons delta deltas ih =>
    rw [List.map_cons]
    by_cases hdelta : delta = []
    · rw [hdelta, streamFrom_empty]
      exact ih
    · rw [streamFrom_cons hdelta]
      rcases hnext : judge false (p ++ delta) with _ | q | _
      · exact ih
      · cases (judge_ask hnext).1
      · exact (follow_release false (p ++ delta) deltas).1

/-- **A reply that is read in pieces is read as it is whole** iff it has no marker, or markers are looked
for and no piece ends within the marker after more than `maxMarkerChars` characters. -/
theorem streams_iff (detectSearch : Bool) (deltas : List (List Char)) :
    Agrees detectSearch deltas ↔
      (query deltas.flatten ≠ none → detectSearch = true ∧ ¬CutsMarker deltas) := by
  rcases hquery : query deltas.flatten with _ | q
  · refine iff_of_true ?_ fun hne => absurd rfl hne
    obtain ⟨hsearch, hspoken⟩ := streamFrom_plain detectSearch (p := []) hquery
    exact {
      search := hsearch.trans hquery.symm
      silent := fun hne => absurd hquery hne
      whole := fun _ => hspoken }
  · constructor
    · intro h _
      have hsearch : (streamFrom detectSearch (waiting []) (deltas.map .text)).1.search = some q :=
        h.search.trans hquery
      refine ⟨?_, ?_⟩
      · cases detectSearch
        · exact absurd (streamFrom_undetected.symm.trans hsearch) (by simp)
        · rfl
      · rintro ⟨cut, hcut, hlong, hnone⟩
        exact absurd ((streamFrom_cut hcut rfl hlong hnone).symm.trans hsearch) (by simp)
    · intro h
      obtain ⟨rfl, hcuts⟩ := h (by simp)
      obtain ⟨hsearch, hspoken⟩ := streamFrom_marker (p := []) hquery fun cut hcut hlong hnone =>
        hcuts ⟨cut, hcut, hlong, hnone⟩
      exact {
        search := hsearch.trans hquery.symm
        silent := fun _ => hspoken
        whole := fun hnone => absurd (hquery.symm.trans hnone) (by simp) }

/-! ## A marker that is spoken -/

/-- A marker with much white space in it, cut there. -/
def longMarker : List (List Char) :=
  ["[[search:".toList ++ List.replicate 320 ' ', "exam dates]]".toList]

/-- The marker is spoken, although the whole reply asks for a search. -/
theorem long_marker_spoken : ¬Agrees true longMarker := by
  intro h
  have hwhole : query longMarker.flatten = some "exam dates".toList := by decide +kernel
  have hstream : (streamReply true (longMarker.map .text)).1.search = none := by decide +kernel
  have hsearch := h.search
  rw [hwhole, hstream] at hsearch
  cases hsearch

end GuruJi.Conversation
