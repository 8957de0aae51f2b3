import GuruJi.Lib.Machine
import GuruJi.Lib.Text
import Mathlib.Algebra.Order.Field.Rat
import Mathlib.Tactic.Linarith

/-!
# Host slots

Workers that share the table of host slots take a host for the gap plus a whole request before they send
one, and hand it back when it is over (`_turn`). The update that hands it back is conditioned on nothing:
a worker whose hand-back is written late frees the host while another one's request runs.

The world notes beside the table who took each host last, and the requests that are over.

* **`polite_of_byTaker`**: requests to one host are a gap apart in the runs where a host is handed back
  only by the worker that took it last;
* `not_polite`: a late hand-back.

Waiting for the lock and for the last request of the same process only delays `Action.ask`.
-/

namespace GuruJi.Crawl.Slots

open GuruJi.Lib GuruJi.Lib.Machine

/-- `MAX_CRAWL_DELAY_SECONDS`. -/
def maxCrawlDelaySeconds : ℚ := 60

/-- A request to be made: what `_turn` reads of its URL, of the fetcher and of the robots.txt. -/
structure Turn where
  host : String
  minHostInterval : ℚ
  crawlDelay : Option ℕ
  deadline : ℚ
  deadline_nonneg : 0 ≤ deadline
  deriving DecidableEq

def Turn.interval (turn : Turn) : ℚ :=
  max turn.minHostInterval (min (turn.crawlDelay.getD 0 : ℕ) maxCrawlDelaySeconds)

def Turn.lease (turn : Turn) : ℚ := turn.interval + turn.deadline

theorem Turn.interval_nonneg (turn : Turn) : 0 ≤ turn.interval := by
  refine le_max_of_le_right (le_min (Nat.cast_nonneg _) ?_)
  unfold maxCrawlDelaySeconds
  norm_num

theorem Turn.interval_le_lease (turn : Turn) : turn.interval ≤ turn.lease :=
  le_add_of_nonneg_right turn.deadline_nonneg

/-- How texts are stripped and lowered. -/
structure Texts where
  isSpace : Char → Bool
  lower : String → String

/-- `host.strip().lower().rstrip(".")[:255]`. -/
def slotKey (texts : Texts) (host : String) : String :=
  upTo 255 (String.ofList ((texts.lower (strip texts.isSpace host)).toList.rdropWhile (· = '.')))

/-! ## The table -/

/-- `intel_host_slots`: the next allowed time of a host. -/
abbrev HostSlots := String → Option ℚ

def HostSlots.set (slots : HostSlots) (key : String) (next : ℚ) : HostSlots :=
    Function.update slots key (some next)

theorem HostSlots.set_self (slots : HostSlots) (key : String) (next : ℚ) : slots.set key next key =
    some next := by
  rw [HostSlots.set, Function.update_self]

theorem HostSlots.set_of_ne {slots : HostSlots} {key key' : String} (h : key' ≠ key) (next : ℚ) :
    slots.set key next key' = slots key' := by
  rw [HostSlots.set, Function.update_of_ne h]

/-- `claim_host_slot`: 0 and the slot, or the seconds until it may be tried again. -/
def claimHostSlot (slots : HostSlots) (key : String) (interval moment : ℚ) : ℚ × HostSlots :=
  match slots key with
  | none => (0, slots.set key (moment + interval))
  | some nextAllowedAt =>
    if nextAllowedAt ≤ moment then (0, slots.set key (moment + interval))
    else (max 0 (nextAllowedAt - moment), slots)

/-- `release_host_slot`. -/
def releaseHostSlot (slots : HostSlots) (key : String) (interval moment : ℚ) : HostSlots :=
  match slots key with
  | none => slots
  | some _ => slots.set key (moment + interval)

theorem claimHostSlot_cases (slots : HostSlots) (key : String) (interval moment : ℚ) :
    0 < (claimHostSlot slots key interval moment).1 ∨
      (∀ next, slots key = some next → next ≤ moment) ∧
        claimHostSlot slots key interval moment = (0, slots.set key (moment + interval)) := by
  unfold claimHostSlot
  rcases hslot : slots key with _ | next
  · exact .inr ⟨nofun, rfl⟩
  · simp only
    split_ifs with hle
    · refine .inr ⟨fun next' h => ?_, rfl⟩
      rw [Option.some.injEq] at h
      exact h ▸ hle
    · exact .inl (lt_max_of_lt_right (sub_pos.mpr (not_le.mp hle)))

/-! ## Workers -/

/-- Where a worker is in `_turn`. The moment is the clock of its claim. -/
inductive Phase where
  | idle
  | asking (turn : Turn) (waited moment : ℚ)
  | waiting (turn : Turn) (waited : ℚ)
  | granted (turn : Turn) (moment : ℚ)
  | requesting (turn : Turn) (moment started : ℚ)
  | finished (turn : Turn) (moment ended : ℚ)
  | returning (turn : Turn) (moment released : ℚ)
  deriving DecidableEq

/-- A request that is over. -/
structure Request where
  host : String
  interval : ℚ
  started : ℚ
  ended : ℚ
  deriving DecidableEq

structure World (ι : Type) where
  clock : ℚ
  slots : HostSlots
  phases : ι → Phase
  takenBy : String → Option ι
  requests : List Request

inductive Action (ι : Type) where
  | tick (t : ℚ)
  | ask (i : ι) (turn : Turn)
  | claim (i : ι)
  | again (i : ι)
  | send (i : ι)
  | finish (i : ι)
  /-- `release_host_slot` reads the clock, then writes. -/
  | handBack (i : ι)
  | write (i : ι)
  /-- Nothing is handed back: the release fails, or there is none. -/
  | keep (i : ι)

section
variable {ι : Type} [DecidableEq ι]

def World.enter (w : World ι) (i : ι) (phase : Phase) : World ι :=
  { w with phases := Function.update w.phases i phase }

def World.take (w : World ι) (slots : HostSlots) (key : String) (i : ι) : World ι :=
  { w with slots, takenBy := Function.update w.takenBy key (some i) }

def World.log (w : World ι) (r : Request) : World ι := { w with requests := w.requests ++ [r] }

def World.put (w : World ι) (slots : HostSlots) : World ι := { w with slots }

variable (texts : Texts)

/-- A claim that waits: another one, or `_HostBusy`. -/
def Turn.denied (turn : Turn) (waited wait : ℚ) : Phase :=
  if maxCrawlDelaySeconds + turn.lease ≤ waited then .idle
  else .waiting turn (waited + min (max wait (1 / 20)) (max turn.interval 1))

def step (w : World ι) : Action ι → Option (World ι)
  | .tick t => if w.clock ≤ t then some { w with clock := t } else none
  | .ask i turn =>
    match w.phases i with
    | .idle => some (w.enter i (.asking turn 0 w.clock))
    | _ => none
  | .claim i =>
    match w.phases i with
    | .asking turn waited moment =>
      let claimed := claimHostSlot w.slots (slotKey texts turn.host) turn.lease moment
      if 0 < claimed.1 then some (w.enter i (turn.denied waited claimed.1))
      else some ((w.take claimed.2 (slotKey texts turn.host) i).enter i (.granted turn moment))
    | _ => none
  | .again i =>
    match w.phases i with
    | .waiting turn waited => some (w.enter i (.asking turn waited w.clock))
    | _ => none
  | .send i =>
    match w.phases i with
    | .granted turn moment => some (w.enter i (.requesting turn moment w.clock))
    | _ => none
  | .finish i =>
    match w.phases i with
    | .requesting turn moment started =>
      some ((w.log ⟨turn.host, turn.interval, started, w.clock⟩).enter i (.finished turn moment w.clock))
    | _ => none
  | .handBack i =>
    match w.phases i with
    | .finished turn moment _ => some (w.enter i (.returning turn moment w.clock))
    | _ => none
  | .write i =>
    match w.phases i with
    | .returning turn _ released =>
      some ((w.put (releaseHostSlot w.slots (slotKey texts turn.host) turn.interval released)).enter i
          .idle)
    | _ => none
  | .keep i =>
    match w.phases i with
    | .granted .. | .finished .. | .returning .. => some (w.enter i .idle)
    | _ => none

/-- Any number of workers, and any table to start with. -/
def crawl : Machine (World ι) (Action ι) where
  init w := (∀ i, w.phases i = .idle) ∧ (∀ key, w.takenBy key = none) ∧ w.requests = []
  step := step texts

end

section
variable {ι : Type} (texts : Texts)

/-! ## What a run is taken to keep to -/

/-- The deadline of a request, and the end of the lease it runs under. -/
def Turn.InTime (turn : Turn) (moment t : ℚ) : Prop := t ≤ moment + turn.deadline ∧ t <
    moment + turn.lease

def Phase.InTime (t : ℚ) : Phase → Prop
  | .requesting turn moment _ => turn.InTime moment t
  | _ => True

def Phase.Sendable (t : ℚ) : Phase → Prop
  | .granted turn moment => turn.InTime moment t
  | _ => True

/-- Every request is over within the deadline of its slot. -/
def Prompt (w : World ι) : Action ι → Prop
  | .tick t => ∀ i, (w.phases i).InTime t
  | .send i => (w.phases i).Sendable w.clock
  | _ => True

def Phase.returned : Phase → Option String
  | .returning turn _ _ => some (slotKey texts turn.host)
  | _ => none

/-- A host is handed back by the worker that took it last. -/
def ByTaker (w : World ι) : Action ι → Prop
  | .write i => ∀ key ∈ (w.phases i).returned texts, w.takenBy key = some i
  | _ => True

/-- Requests to one host are not in flight together and a gap apart. -/
structure Polite (w : World ι) : Prop where
  alone : ∀ i j turn moment started turn' moment' started',
    w.phases i = .requesting turn moment started →
    w.phases j = .requesting turn' moment' started' → slotKey texts turn.host =
    slotKey texts turn'.host → i = j
  gap : ∀ r ∈ w.requests, ∀ i turn moment started, w.phases i = .requesting turn moment started →
    slotKey texts r.host = slotKey texts turn.host → r.ended + r.interval ≤ started
  gaps : w.requests.Pairwise fun r r' =>
    slotKey texts r.host = slotKey texts r'.host → r.ended + r.interval ≤ r'.started

/-! ## What is known of a worker -/

/-- A worker that took a slot and has not handed it back. `floor` is how early a hand-back may let the
next request start. -/
structure Holds (w : World ι) (i : ι) (turn : Turn) (moment floor : ℚ) : Prop where
  moment_le : moment ≤ w.clock
  floor_le : floor ≤ w.clock + turn.interval
  row : w.takenBy (slotKey texts turn.host) = some i →
    w.slots (slotKey texts turn.host) = some (moment + turn.lease)
  after : w.takenBy (slotKey texts turn.host) = some i → ∀ r ∈ w.requests,
    slotKey texts r.host = slotKey texts turn.host → r.ended + r.interval ≤ floor

/-- A request that runs holds its host; a slot that was not used yet may have run out. -/
def Fits (w : World ι) (i : ι) : Phase → Prop
  | .idle => True
  | .asking _ _ moment => moment ≤ w.clock
  | .waiting .. => True
  | .granted turn moment => Holds texts w i turn moment moment ∧
      (w.takenBy (slotKey texts turn.host) = some i ∨ moment + turn.lease ≤ w.clock)
  | .requesting turn moment started => Holds texts w i turn moment moment ∧
      w.takenBy (slotKey texts turn.host) = some i ∧ moment ≤ started ∧ turn.InTime moment w.clock
  | .finished turn moment ended => Holds texts w i turn moment (ended + turn.interval)
  | .returning turn moment released => Holds texts w i turn moment (released + turn.interval)

/-- The invariant. -/
structure Sound (w : World ι) : Prop where
  fits : ∀ i, Fits texts w i (w.phases i)
  slot : ∀ r ∈ w.requests, ∃ next, w.slots (slotKey texts r.host) = some next ∧ r.ended + r.interval ≤
      next
  gaps : w.requests.Pairwise fun r r' =>
    slotKey texts r.host = slotKey texts r'.host → r.ended + r.interval ≤ r'.started

variable {texts} {w w' : World ι} {i j : ι}

theorem Sound.polite (h : Sound texts w) : Polite texts w := by
  refine ⟨fun i j turn moment started turn' moment' started' hi hj hkey => ?_,
    fun r hr i turn moment started hi hkey => ?_, h.gaps⟩
  · have hfitsI := h.fits i
    have hfitsJ := h.fits j
    rw [hi] at hfitsI
    rw [hj] at hfitsJ
    have htaken := hfitsI.2.1
    rw [hkey, hfitsJ.2.1, Option.some.injEq] at htaken
    exact htaken.symm
  · have hfits := h.fits i
    rw [hi] at hfits
    obtain ⟨hholds, htaken, hstarted, -⟩ := hfits
    exact (hholds.after htaken r hr hkey).trans hstarted

theorem Holds.tick {turn : Turn} {moment floor t : ℚ} (h : Holds texts w i turn moment floor)
    (ht : w.clock ≤ t) : Holds texts { w with clock := t } i turn moment floor :=
  ⟨h.moment_le.trans ht, h.floor_le.trans (add_le_add_left ht _), h.row, h.after⟩

theorem Sound.tick (h : Sound texts w) {t : ℚ} (ht : w.clock ≤ t)
    (hprompt : ∀ i, (w.phases i).InTime t) : Sound texts { w with clock := t } := by
  refine ⟨fun i => ?_, h.slot, h.gaps⟩
  have hfits := h.fits i
  have hin := hprompt i
  show Fits texts { w with clock := t } i (w.phases i)
  cases hphase : w.phases i with
  | idle | waiting => trivial
  | asking turn waited moment =>
    rw [hphase] at hfits
    exact le_trans hfits ht
  | granted turn moment =>
    rw [hphase] at hfits
    exact ⟨hfits.1.tick ht, hfits.2.imp_right fun hout => hout.trans ht⟩
  | requesting turn moment started =>
    rw [hphase] at hfits hin
    exact ⟨hfits.1.tick ht, hfits.2.1, hfits.2.2.1, hin⟩
  | finished turn moment ended =>
    rw [hphase] at hfits
    exact Holds.tick hfits ht
  | returning turn moment released =>
    rw [hphase] at hfits
    exact Holds.tick hfits ht

end

/-! ## Going on -/

section
variable {ι : Type} [DecidableEq ι] {texts : Texts} {w w' : World ι} {i j : ι}

theorem phases_enter_self (w : World ι) (i : ι) (phase : Phase) : (w.enter i phase).phases i =
    phase := by
  simp only [World.enter, Function.update_self]

theorem phases_enter_of_ne (h : j ≠ i) (phase : Phase) : (w.enter i phase).phases j = w.phases j := by
  simp only [World.enter, Function.update_of_ne h]

theorem slots_enter {phase : Phase} : (w.enter i phase).slots = w.slots := rfl

theorem Fits.enter {phase p : Phase} (h : Fits texts w i p) : Fits texts (w.enter j phase) i p := by
  cases p with
  | idle | asking | waiting => exact h
  | granted turn moment => exact ⟨⟨h.1.1, h.1.2, h.1.3, h.1.4⟩, h.2⟩
  | requesting turn moment started => exact ⟨⟨h.1.1, h.1.2, h.1.3, h.1.4⟩, h.2⟩
  | finished turn moment ended => exact ⟨h.1, h.2, h.3, h.4⟩
  | returning turn moment released => exact ⟨h.1, h.2, h.3, h.4⟩

theorem Sound.enter (h : Sound texts w) {phase : Phase} (hphase : Fits texts w i phase) :
    Sound texts (w.enter i phase) := by
  refine ⟨fun j => ?_, h.slot, h.gaps⟩
  by_cases hj : j = i
  · rw [hj, phases_enter_self]
    exact hphase.enter
  · rw [phases_enter_of_ne hj]
    exact (h.fits j).enter

/-! ## Taking a slot -/

section
omit [DecidableEq ι]

theorem takenBy_take (w : World ι) (slots : HostSlots) (key : String) (i : ι) :
    (w.take slots key i).takenBy key = some i := by
  simp only [World.take, Function.update_self]

theorem takenBy_take_of_ne {slots : HostSlots} {key key' : String} (h : key' ≠ key) :
    (w.take slots key i).takenBy key' = w.takenBy key' := by
  simp only [World.take, Function.update_of_ne h]

theorem slots_take {slots : HostSlots} {key : String} : (w.take slots key i).slots = slots := rfl

theorem slots_put {slots : HostSlots} : (w.put slots).slots = slots := rfl

theorem takenBy_of_take {slots : HostSlots} {key key' : String} (hne : j ≠ i)
    (h : (w.take slots key i).takenBy key' = some j) : key' ≠ key ∧ w.takenBy key' = some j := by
  by_cases hkey : key' = key
  · rw [hkey, takenBy_take, Option.some.injEq] at h
    exact absurd h.symm hne
  · rw [takenBy_take_of_ne hkey] at h
    exact ⟨hkey, h⟩

theorem Holds.take {turn : Turn} {moment floor next : ℚ} {key : String}
    (h : Holds texts w j turn moment floor)
    (hne : j ≠ i) : Holds texts (w.take (w.slots.set key next) key i) j turn moment floor := by
  refine ⟨h.moment_le, h.floor_le, fun hmine => ?_, fun hmine => h.after (takenBy_of_take hne hmine).2⟩
  obtain ⟨hkey, hmine⟩ := takenBy_of_take hne hmine
  rw [slots_take, HostSlots.set_of_ne hkey]
  exact h.row hmine

theorem Fits.take {phase : Phase} {key : String} {moment next : ℚ} (h : Fits texts w j phase)
    (hne : j ≠ i)
    (hmoment : moment ≤ w.clock) (hfree : ∀ next, w.slots key = some next → next ≤ moment) :
    Fits texts (w.take (w.slots.set key next) key i) j phase := by
  cases phase with
  | idle | waiting => trivial
  | asking turn waited moment => exact h
  | granted turn moment' =>
    refine ⟨h.1.take hne, ?_⟩
    rcases h.2 with hmine | hout
    · by_cases hkey : slotKey texts turn.host = key
      · exact .inr ((hfree _ (hkey ▸ h.1.row hmine)).trans hmoment)
      · exact .inl ((takenBy_take_of_ne hkey).trans hmine)
    · exact .inr hout
  | requesting turn moment' started =>
    obtain ⟨hholds, hmine, hstarted, hin⟩ := h
    refine ⟨hholds.take hne, ?_, hstarted, hin⟩
    by_cases hkey : slotKey texts turn.host = key
    · exact absurd ((hfree _ (hkey ▸ hholds.row hmine)).trans hmoment) (not_le.mpr hin.2)
    · exact (takenBy_take_of_ne hkey).trans hmine
  | finished turn moment' ended => exact Holds.take h hne
  | returning turn moment' released => exact Holds.take h hne

end

theorem Sound.take (h : Sound texts w) {turn : Turn} {moment next : ℚ} {key : String}
    (hkey : slotKey texts turn.host = key) (hnext : next = moment + turn.lease)
        (hmoment : moment ≤ w.clock)
    (hfree : ∀ next, w.slots key = some next → next ≤ moment) :
    Sound texts ((w.take (w.slots.set key next) key i).enter i (.granted turn moment)) := by
  have hlease : moment ≤ next :=
    hnext ▸ le_add_of_nonneg_right (turn.interval_nonneg.trans turn.interval_le_lease)
  have hafter : ∀ r ∈ w.requests, slotKey texts r.host = key → r.ended + r.interval ≤ moment := by
    intro r hr hkey
    obtain ⟨next, hnext, hle⟩ := h.slot r hr
    exact hle.trans (hfree next (hkey ▸ hnext))
  have hholds : Holds texts (w.take (w.slots.set key next) key i) i turn moment moment := by
    refine ⟨hmoment, hmoment.trans (le_add_of_nonneg_right turn.interval_nonneg), fun _ => ?_, fun _ =>
      ?_⟩
    · rw [hkey, ← hnext, slots_take, HostSlots.set_self]
    · rw [hkey]
      exact hafter
  refine ⟨fun j => ?_, fun r hr => ?_, h.gaps⟩
  · by_cases hj : j = i
    · rw [hj, phases_enter_self]
      exact Fits.enter ⟨hholds, .inl (hkey ▸ takenBy_take ..)⟩
    · rw [phases_enter_of_ne hj]
      exact ((h.fits j).take hj hmoment hfree).enter
  · by_cases hmine : slotKey texts r.host = key
    · refine ⟨next, ?_, (hafter r hr hmine).trans hlease⟩
      rw [slots_enter, slots_take, hmine, HostSlots.set_self]
    · obtain ⟨next', hslot, hle⟩ := h.slot r hr
      refine ⟨next', ?_, hle⟩
      rw [slots_enter, slots_take, HostSlots.set_of_ne hmine]
      exact hslot

/-! ## The end of a request -/

section
omit [DecidableEq ι]

theorem Holds.log {turn : Turn} {moment floor : ℚ} {r : Request} (h : Holds texts w j turn moment floor)
    (hr : w.takenBy (slotKey texts turn.host) = some j → slotKey texts r.host = slotKey texts turn.host →
      r.ended + r.interval ≤ floor) : Holds texts (w.log r) j turn moment floor := by
  refine ⟨h.moment_le, h.floor_le, h.row, fun hmine q hq hkey => ?_⟩
  rcases List.mem_append.mp hq with hq | hq
  · exact h.after hmine q hq hkey
  · rw [List.mem_singleton] at hq
    subst hq
    exact hr hmine hkey

theorem Fits.log {phase : Phase} {r : Request} (h : Fits texts w j phase)
    (hr : w.takenBy (slotKey texts r.host) ≠ some j) : Fits texts (w.log r) j phase := by
  have hkeep : ∀ {turn moment floor}, Holds texts w j turn moment floor →
      Holds texts (w.log r) j turn moment floor := by
    intro turn moment floor hholds
    refine hholds.log fun hmine hkey => absurd ?_ hr
    rw [hkey]
    exact hmine
  cases phase with
  | idle | waiting => trivial
  | asking turn waited moment => exact h
  | granted turn moment => exact ⟨hkeep h.1, h.2⟩
  | requesting turn moment started => exact ⟨hkeep h.1, h.2⟩
  | finished turn moment ended => exact hkeep h
  | returning turn moment released => exact hkeep h

end

theorem Sound.finish (h : Sound texts w) {turn : Turn} {moment started : ℚ}
    (hphase : w.phases i = .requesting turn moment started) :
    Sound texts ((w.log ⟨turn.host, turn.interval, started, w.clock⟩).enter i
    (.finished turn moment w.clock)) := by
  have hfits := h.fits i
  rw [hphase] at hfits
  obtain ⟨hholds, hmine, hstarted, hin⟩ := hfits
  have hover : moment ≤ w.clock + turn.interval :=
    hholds.moment_le.trans (le_add_of_nonneg_right turn.interval_nonneg)
  refine ⟨fun j => ?_, fun r hr => ?_, ?_⟩
  · by_cases hj : j = i
    · rw [hj, phases_enter_self]
      refine Fits.enter (Holds.log ⟨hholds.moment_le, le_rfl, hholds.row, fun _ r hr hkey => ?_⟩
        fun _ _ => le_rfl)
      exact (hholds.after hmine r hr hkey).trans hover
    · rw [phases_enter_of_ne hj]
      refine ((h.fits j).log ?_).enter
      rw [hmine, ne_eq, Option.some.injEq]
      exact Ne.symm hj
  · rcases List.mem_append.mp hr with hr | hr
    · exact h.slot r hr
    · rw [List.mem_singleton] at hr
      subst hr
      refine ⟨_, hholds.row hmine, ?_⟩
      have hdeadline := hin.1
      unfold Turn.lease
      simp only
      linarith
  · refine List.pairwise_append.mpr ⟨h.gaps, List.pairwise_singleton _ _, fun r hr r' hr' hkey => ?_⟩
    rw [List.mem_singleton] at hr'
    subst hr'
    exact (hholds.after hmine r hr hkey).trans hstarted

/-! ## Handing a host back -/

section
omit [DecidableEq ι]

theorem Holds.put {turn : Turn} {moment floor next : ℚ} {key : String}
    (h : Holds texts w j turn moment floor)
    (hother : w.takenBy key ≠ some j) :
        Holds texts (w.put (w.slots.set key next)) j turn moment floor := by
  refine ⟨h.moment_le, h.floor_le, fun hmine => ?_, h.after⟩
  have hne : slotKey texts turn.host ≠ key := by
    intro hkey
    rw [hkey] at hmine
    exact hother hmine
  rw [slots_put, HostSlots.set_of_ne hne]
  exact h.row hmine

theorem Fits.put {phase : Phase} {key : String} {next : ℚ} (h : Fits texts w j phase)
    (hother : w.takenBy key ≠ some j) : Fits texts (w.put (w.slots.set key next)) j phase := by
  cases phase with
  | idle | waiting => trivial
  | asking turn waited moment => exact h
  | granted turn moment => exact ⟨h.1.put hother, h.2⟩
  | requesting turn moment started => exact ⟨h.1.put hother, h.2⟩
  | finished turn moment ended => exact Holds.put h hother
  | returning turn moment released => exact Holds.put h hother

end

theorem Sound.put (h : Sound texts w) {turn : Turn} {moment released next : ℚ} {key : String}
    (hkey : slotKey texts turn.host = key) (hnext : next = released + turn.interval)
    (hphase : w.phases i = .returning turn moment released) (hmine : w.takenBy key = some i) :
    Sound texts ((w.put (w.slots.set key next)).enter i .idle) := by
  have hfits := h.fits i
  rw [hphase] at hfits
  have hafter := hfits.after (hkey ▸ hmine)
  rw [hkey, ← hnext] at hafter
  refine ⟨fun j => ?_, fun r hr => ?_, h.gaps⟩
  · by_cases hj : j = i
    · rw [hj, phases_enter_self]
      trivial
    · rw [phases_enter_of_ne hj]
      refine ((h.fits j).put ?_).enter
      rw [hmine, ne_eq, Option.some.injEq]
      exact Ne.symm hj
  · by_cases hown : slotKey texts r.host = key
    · refine ⟨next, ?_, hafter r hr hown⟩
      rw [slots_enter, slots_put, hown, HostSlots.set_self]
    · obtain ⟨next', hslot, hle⟩ := h.slot r hr
      refine ⟨next', ?_, hle⟩
      rw [slots_enter, slots_put, HostSlots.set_of_ne hown]
      exact hslot

/-! ## Runs -/

section
omit [DecidableEq ι]

theorem Fits.handBack {turn : Turn} {moment ended : ℚ}
    (h : Fits texts w i (.finished turn moment ended)) :
    Fits texts w i (.returning turn moment w.clock) :=
  ⟨h.moment_le, le_rfl, h.row, fun hmine r hr hkey => (h.after hmine r hr hkey).trans h.floor_le⟩

theorem Fits.send {turn : Turn} {moment : ℚ} (h : Fits texts w i (.granted turn moment))
    (hin : turn.InTime moment w.clock) : Fits texts w i (.requesting turn moment w.clock) :=
  ⟨h.1, h.2.resolve_right (not_le.mpr hin.2), h.1.moment_le, hin⟩

theorem Fits.denied {turn : Turn} {waited wait : ℚ} : Fits texts w i (turn.denied waited wait) := by
  unfold Turn.denied
  split_ifs
  · trivial
  · trivial

end

theorem keeps_sound : (crawl texts).Keeps (fun w a => Prompt w a ∧ ByTaker texts w a)
    (@Sound ι texts) := by
  intro w a w' h hok hstep
  have hfits := h.fits
  change step texts w a = some w' at hstep
  cases a with
  | tick t =>
    rw [step] at hstep
    split_ifs at hstep with hle
    rw [Option.some.injEq] at hstep
    exact hstep ▸ h.tick hle hok.1
  | ask i turn =>
    rw [step] at hstep
    split at hstep
    · rw [Option.some.injEq] at hstep
      exact hstep ▸ h.enter (le_refl w.clock)
    · cases hstep
  | claim i =>
    rw [step] at hstep
    split at hstep
    · rename_i turn waited moment hphase
      have hasking : Fits texts w i (.asking turn waited moment) := hphase ▸ hfits i
      rcases claimHostSlot_cases w.slots (slotKey texts turn.host) turn.lease moment with
        hwait | ⟨hfree, htaken⟩
      · rw [if_pos hwait, Option.some.injEq] at hstep
        exact hstep ▸ h.enter Fits.denied
      · simp only [htaken, lt_irrefl, if_false, Option.some.injEq] at hstep
        rw [← hstep]
        exact h.take rfl rfl hasking hfree
    · cases hstep
  | again i =>
    rw [step] at hstep
    split at hstep
    · rw [Option.some.injEq] at hstep
      exact hstep ▸ h.enter (le_refl w.clock)
    · cases hstep
  | send i =>
    rw [step] at hstep
    split at hstep
    · rename_i turn moment hphase
      have hgranted : Fits texts w i (.granted turn moment) := hphase ▸ hfits i
      have hin : (Phase.granted turn moment).Sendable w.clock := hphase ▸ hok.1
      rw [Option.some.injEq] at hstep
      exact hstep ▸ h.enter (hgranted.send hin)
    · cases hstep
  | finish i =>
    rw [step] at hstep
    split at hstep
    · rename_i turn moment started hphase
      rw [Option.some.injEq] at hstep
      rw [← hstep]
      exact h.finish hphase
    · cases hstep
  | handBack i =>
    rw [step] at hstep
    split at hstep
    · rename_i turn moment ended hphase
      have hover : Fits texts w i (.finished turn moment ended) := hphase ▸ hfits i
      rw [Option.some.injEq] at hstep
      exact hstep ▸ h.enter hover.handBack
    · cases hstep
  | write i =>
    rw [step] at hstep
    split at hstep
    · rename_i turn moment released hphase
      have hmine : w.takenBy (slotKey texts turn.host) = some i := by
        refine hok.2 (slotKey texts turn.host) ?_
        rw [hphase]
        rfl
      have hholds : Fits texts w i (.returning turn moment released) := hphase ▸ hfits i
      rw [Option.some.injEq, releaseHostSlot, hholds.row hmine] at hstep
      rw [← hstep]
      exact h.put rfl rfl hphase hmine
    · cases hstep
  | keep i =>
    rw [step] at hstep
    split at hstep
    · rw [Option.some.injEq] at hstep
      exact hstep ▸ h.enter trivial
    · rw [Option.some.injEq] at hstep
      exact hstep ▸ h.enter trivial
    · rw [Option.some.injEq] at hstep
      exact hstep ▸ h.enter trivial
    · cases hstep

/-- **Requests to one host are a gap apart** as long as hosts are handed back by the workers that took
them last. -/
theorem polite_of_byTaker (texts : Texts) (w : World ι)
    (h : (crawl texts).Reaches (fun w a => Prompt w a ∧ ByTaker texts w a) w) : Polite texts w := by
  refine (h.invariant keeps_sound fun start hstart => ?_).polite
  obtain ⟨hidle, -, hnone⟩ := hstart
  refine ⟨fun i => ?_, fun r hr => ?_, ?_⟩
  · rw [hidle i]
    trivial
  · rw [hnone] at hr
    cases hr
  · rw [hnone]
    exact .nil

end

/-! ## A late hand-back -/

instance (turn : Turn) (moment t : ℚ) : Decidable (turn.InTime moment t) :=
    inferInstanceAs (Decidable (_ ∧ _))

instance (t : ℚ) : ∀ phase : Phase, Decidable (phase.InTime t)
  | .requesting turn moment _ => inferInstanceAs (Decidable (turn.InTime moment t))
  | .idle | .asking .. | .waiting .. | .granted .. | .finished .. | .returning .. => .isTrue trivial

instance (t : ℚ) : ∀ phase : Phase, Decidable (phase.Sendable t)
  | .granted turn moment => inferInstanceAs (Decidable (turn.InTime moment t))
  | .idle | .asking .. | .waiting .. | .requesting .. | .finished .. | .returning .. => .isTrue trivial

instance (w : World (Fin 3)) : ∀ a, Decidable (Prompt w a)
  | .tick t => inferInstanceAs (Decidable (∀ i, (w.phases i).InTime t))
  | .send i => inferInstanceAs (Decidable ((w.phases i).Sendable w.clock))
  | .ask .. | .claim _ | .again _ | .finish _ | .handBack _ | .write _ | .keep _ => .isTrue trivial

instance (texts : Texts) (w : World (Fin 3)) : ∀ a, Decidable (ByTaker texts w a)
  | .write i => inferInstanceAs (Decidable (∀ key ∈ (w.phases i).returned texts, w.takenBy key = some i))
  | .tick _ | .ask .. | .claim _ | .again _ | .send _ | .finish _ | .handBack _ | .keep _ =>
      .isTrue trivial

def plainTexts : Texts := ⟨(· = ' '), id⟩

def sampleTurn : Turn := ⟨"h", 1, none, 29, by norm_num⟩

def sampleWorld : World (Fin 3) := ⟨0, fun _ => none, fun _ => .idle, fun _ => none, []⟩

theorem sampleWorld_init : (crawl plainTexts).init sampleWorld := ⟨fun _ => rfl, fun _ => rfl, rfl⟩

def inTurn : List (Action (Fin 3)) :=
  [.ask 0 sampleTurn, .claim 0, .send 0, .finish 0, .handBack 0, .write 0, .tick 1, .ask 1 sampleTurn,
    .claim 1, .send 1, .finish 1]

/-- A hand-back read in time is written when the lease has run out and another worker has the host. -/
def lateHandBack : List (Action (Fin 3)) :=
  [.ask 0 sampleTurn, .claim 0, .send 0, .finish 0, .handBack 0, .tick 30, .ask 1 sampleTurn, .claim 1,
    .send 1, .write 0, .ask 2 sampleTurn, .claim 2, .send 2]

theorem polite_inTurn : ∃ w : World (Fin 3), w.requests.length = 2 ∧ Polite plainTexts w := by
  obtain ⟨w, hw, hlength⟩ := reaches_of_exec (crawl plainTexts)
    (fun w a => Prompt w a ∧ ByTaker plainTexts w a) inTurn (fun w => w.requests.length = 2)
    sampleWorld_init (by decide +kernel)
  exact ⟨w, of_decide_eq_true hlength, polite_of_byTaker plainTexts w hw⟩

/-- Every request is over in time, and two of them to one host run at once. -/
theorem not_polite : ¬ ∀ w : World (Fin 3), (crawl plainTexts).Reaches Prompt w →
    Polite plainTexts w := by
  intro hall
  obtain ⟨w, hw, hboth⟩ := reaches_of_exec (crawl plainTexts) Prompt lateHandBack
    (fun w => w.phases 1 = .requesting sampleTurn 30 30 ∧ w.phases 2 = .requesting sampleTurn 30 30)
    sampleWorld_init (by decide +kernel)
  obtain ⟨hfirst, hsecond⟩ := of_decide_eq_true hboth
  exact absurd ((hall w hw).alone 1 2 _ _ _ _ _ _ hfirst hsecond rfl) (by decide)

end GuruJi.Crawl.Slots
