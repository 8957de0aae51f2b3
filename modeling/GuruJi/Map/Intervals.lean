import Mathlib.Algebra.GroupWithZero.Nat
import Mathlib.Tactic.Common

/-!
# Intervals of sources

`_next_interval` moves the interval of a source with the yield of its runs; `mark_gap_sources` flags the
sources that search where nothing is known yet, and brings them round sooner. Whatever the runs, the
floor of the configuration goes before everything else.

* **`interval_band`**: in every run the kept interval stays between floor and ceiling, failures and
  productive runs do not lengthen it, and idle ones bring a lead to four times its base at most and a
  watch back to its base.
-/

namespace GuruJi.Map.Intervals

/-! ## The rule -/

/-- The bounds of `EngineConfig`, in seconds. -/
structure EngineConfig where
  minInterval : Nat
  maxInterval : Nat
  deriving DecidableEq

def EngineConfig.default : EngineConfig := ⟨3600, 30 * 86400⟩

def gapIntervalSeconds : Nat := 3 * 86400

/-- A source, as far as its interval depends on it; `default_interval` is its connector's, zero if that
is not known. -/
structure Source where
  intervalSeconds : Nat
  baseIntervalSeconds : Option Nat
  defaultInterval : Nat
  isGap : Bool
  isLead : Bool
  failureStreak : Nat
  deriving DecidableEq

/-- `ConnectorResult`. -/
structure ConnectorResult where
  failed : Bool
  yieldCount : Int
  deriving DecidableEq

namespace ConnectorResult

def productive (result : ConnectorResult) : Bool := !result.failed && result.yieldCount > 0

def idle (result : ConnectorResult) : Bool := !result.failed && !(result.yieldCount > 0)

end ConnectorResult

namespace Source
variable (s : Source)

/-- `int(interval_seconds or 86400)`. -/
def interval : Nat := if s.intervalSeconds = 0 then 86400 else s.intervalSeconds

/-- The base, or the connector's default, or the interval. -/
def base : Nat :=
  if s.baseIntervalSeconds.getD 0 ≠ 0 then s.baseIntervalSeconds.getD 0
  else if s.defaultInterval ≠ 0 then s.defaultInterval
  else s.interval

end Source

variable (config : EngineConfig)

def ceiling (s : Source) : Nat :=
  if s.isGap then min config.maxInterval gapIntervalSeconds else config.maxInterval

/-- `max(min_interval, min(ceiling, seconds))`. -/
def bounded (s : Source) (seconds : Nat) : Nat := max config.minInterval (min (ceiling config s) seconds)

/-- Where a run that did not fail moves the interval, before it is bounded. -/
def moved (s : Source) (result : ConnectorResult) : Nat :=
  if result.yieldCount > 0 then max (s.interval / 2) (s.base / 8)
  else if s.isLead then min (s.interval * 2) (s.base * 4)
  else if s.interval ≥ s.base then s.base
  else min s.base (s.interval * 2)

/-- `_next_interval`: the seconds until the source is due again, and the interval that is kept. -/
def nextInterval (s : Source) (result : ConnectorResult) : Nat × Nat :=
  if result.failed then
    (bounded config s (s.base * 2 ^ min (s.failureStreak + 1) 5),
        bounded config s (min s.interval s.base))
  else (bounded config s (moved s result), bounded config s (moved s result))

/-! ## Runs -/

/-- What happens to a source: it is run, the gaps are marked anew, or its origin changes. -/
inductive Event where
  | run (result : ConnectorResult)
  | marked (isGap : Bool)
  | originated (isLead : Bool)
  deriving DecidableEq

/-- A step; `mark_gap_sources` shortens the interval of a source that it flags. -/
def step (s : Source) : Event → Source
  | .run result => { s with
      intervalSeconds := (nextInterval config s result).2
      failureStreak := if result.failed then s.failureStreak + 1 else 0 }
  | .marked isGap => { s with
      isGap := isGap
      intervalSeconds := if isGap ∧ s.intervalSeconds > gapIntervalSeconds then gapIntervalSeconds
        else s.intervalSeconds }
  | .originated isLead => { s with isLead := isLead }

def after (s : Source) (events : List Event) : Source := events.foldl (step config) s

def afterRuns (s : Source) (results : List ConnectorResult) : Source := after config s (results.map .run)

variable {config} {s : Source} {result : ConnectorResult}

/-! ## One run -/

theorem interval_pos (s : Source) : 0 < s.interval := by
  unfold Source.interval
  split_ifs <;> omega

theorem le_interval (s : Source) : s.intervalSeconds ≤ s.interval := by
  unfold Source.interval
  split_ifs <;> omega

theorem kept_eq (s : Source) (result : ConnectorResult) : (nextInterval config s result).2 =
    bounded config s (if result.failed then min s.interval s.base else moved s result) := by
  unfold nextInterval
  split_ifs <;> rfl

theorem bounds_kept (s : Source) (result : ConnectorResult) :
    config.minInterval ≤ (nextInterval config s result).2 ∧
      (nextInterval config s result).2 ≤ max config.minInterval (ceiling config s) := by
  rw [kept_eq, bounded]
  omega

theorem kept_failed (hfailed : result.failed = true) :
    (nextInterval config s result).2 ≤ max config.minInterval s.interval := by
  rw [kept_eq, if_pos hfailed, bounded]
  omega

theorem kept_productive (hproductive : result.productive = true) (hbase : s.base / 8 ≤ s.interval) :
    (nextInterval config s result).2 ≤ max config.minInterval s.interval := by
  obtain ⟨hfailed, hyield⟩ : result.failed = false ∧ result.yieldCount > 0 := by
    simpa [ConnectorResult.productive] using hproductive
  rw [kept_eq, if_neg (by simp [hfailed]), moved, if_pos hyield, bounded]
  omega

theorem idle_iff : result.idle = true ↔ result.failed = false ∧ ¬result.yieldCount > 0 := by
  simp [ConnectorResult.idle]

theorem kept_lead (hidle : result.idle = true) (hlead : s.isLead = true) :
    (nextInterval config s result).2 ≤ max config.minInterval (4 * s.base) := by
  obtain ⟨hfailed, hyield⟩ := idle_iff.mp hidle
  rw [kept_eq, if_neg (by simp [hfailed]), moved, if_neg hyield, if_pos hlead, bounded]
  omega

theorem kept_watch (hidle : result.idle = true) (hwatch : s.isLead = false) :
    (nextInterval config s result).2 = bounded config s (min s.base (s.interval * 2)) := by
  obtain ⟨hfailed, hyield⟩ := idle_iff.mp hidle
  rw [kept_eq, if_neg (by simp [hfailed]), moved, if_neg hyield, if_neg (by simp [hwatch])]
  split_ifs with hbase
  · rw [Nat.min_eq_left (by omega)]
  · rfl

/-! ## Idle watches -/

/-- A watch whose interval is its base, as far as floor and ceiling allow. -/
def Settled (config : EngineConfig) (s : Source) : Prop := s.intervalSeconds = bounded config s s.base

theorem base_step (s : Source) (result : ConnectorResult) : (step config s (.run result)).base = s.base ∨
      (step config s (.run result)).base = (step config s (.run result)).interval ∧
      s.base = s.interval := by
  unfold Source.base
  by_cases hstored : s.baseIntervalSeconds.getD 0 ≠ 0
  · left
    rw [if_pos hstored, if_pos (by exact hstored)]
    rfl
  · rw [if_neg hstored, if_neg (by exact hstored)]
    by_cases hdefault : s.defaultInterval ≠ 0
    · left
      rw [if_pos hdefault, if_pos (by exact hdefault)]
      rfl
    · right
      rw [if_neg hdefault, if_neg (by exact hdefault)]
      exact ⟨rfl, rfl⟩

theorem idle_step (hidle : result.idle = true) (hwatch : s.isLead = false) :
    Settled config (step config s (.run result)) ∨
      s.interval < (step config s (.run result)).intervalSeconds ∧
        (step config s (.run result)).intervalSeconds < min (ceiling config s) s.base ∧
        (step config s (.run result)).base = s.base := by
  have hkept : (step config s (.run result)).intervalSeconds =
      max config.minInterval (min (ceiling config s) (min s.base (s.interval * 2))) :=
    kept_watch hidle hwatch
  have hsettled : Settled config (step config s (.run result)) ↔
      (step config s (.run result)).intervalSeconds =
        max config.minInterval (min (ceiling config s) (step config s (.run result)).base) := Iff.rfl
  have hpos := interval_pos s
  rw [hsettled]
  rcases base_step s result with hbase | ⟨hbase, hown⟩
  · rw [hbase, hkept]
    omega
  · left
    rw [hbase, Source.interval]
    split_ifs with hzero
    · rw [hzero] at hkept ⊢
      omega
    · omega

theorem settled_step (hidle : result.idle = true) (hwatch : s.isLead = false) (h : Settled config s) :
    Settled config (step config s (.run result)) := by
  refine (idle_step hidle hwatch).resolve_right ?_
  rintro ⟨hfurther, hbelow, -⟩
  have hle := le_interval s
  rw [Settled, bounded] at h
  omega

theorem settled_runs {results : List ConnectorResult} (hidle : ∀ result ∈ results, result.idle = true)
    (hwatch : s.isLead = false) (h : Settled config s) : Settled config
        (afterRuns config s results) := by
  induction results generalizing s with
  | nil => exact h
  | cons result results ih =>
    have hfirst := hidle result List.mem_cons_self
    exact ih (fun r hr => hidle r (List.mem_cons_of_mem result hr)) hwatch (settled_step hfirst hwatch h)

theorem idle_runs {results : List ConnectorResult} (hidle : ∀ result ∈ results, result.idle = true)
    (hwatch : s.isLead = false) :
    Settled config (afterRuns config s results) ∨
      s.intervalSeconds + results.length ≤ (afterRuns config s results).intervalSeconds ∧
        (results ≠ [] → (afterRuns config s results).intervalSeconds < s.base) := by
  induction results generalizing s with
  | nil => exact Or.inr ⟨Nat.le_refl _, fun h => absurd rfl h⟩
  | cons result results ih =>
    have hfirst := hidle result List.mem_cons_self
    have hrest : ∀ r ∈ results, r.idle = true := fun r hr => hidle r (List.mem_cons_of_mem result hr)
    have hstep : Settled config (step config s (.run result)) ∨ _ := idle_step hfirst hwatch
    rcases hstep with hsettled | ⟨hfurther, hbelow, hbase⟩
    · exact Or.inl (settled_runs (s := step config s (.run result)) hrest hwatch hsettled)
    · refine (ih (s := step config s (.run result)) hrest hwatch).imp_right ?_
      rintro ⟨hfar, hbase'⟩
      have hle := le_interval s
      rw [hbase] at hbase'
      refine ⟨?_, fun _ => ?_⟩
      · show s.intervalSeconds + (results.length + 1) ≤
          (afterRuns config (step config s (.run result)) results).intervalSeconds
        omega
      · by_cases hnil : results = []
        · rw [hnil]
          show (step config s (.run result)).intervalSeconds < s.base
          omega
        · exact hbase' hnil

theorem settles {results : List ConnectorResult} (hidle : ∀ result ∈ results, result.idle = true)
    (hwatch : s.isLead = false) (hlong : s.base + 1 ≤ results.length) :
    Settled config (afterRuns config s results) := by
  refine (idle_runs hidle hwatch).resolve_right ?_
  rintro ⟨hfar, hbase⟩
  have hbelow := hbase (by rintro rfl; exact absurd hlong (Nat.not_succ_le_zero s.base))
  omega

/-! ## The band -/

/-- The interval before a run: no shorter than the floor, or than the interval of gaps. -/
theorem floor_after {events : List Event} (h : min config.minInterval gapIntervalSeconds ≤
    s.intervalSeconds) :
    min config.minInterval gapIntervalSeconds ≤ (after config s events).intervalSeconds := by
  induction events generalizing s with
  | nil => exact h
  | cons event events ih =>
    refine ih ?_
    cases event with
    | run result =>
      have hkept : config.minInterval ≤ (step config s (.run result)).intervalSeconds :=
        (bounds_kept s result).1
      omega
    | marked isGap =>
      show min config.minInterval gapIntervalSeconds ≤
        if isGap ∧ s.intervalSeconds > gapIntervalSeconds then gapIntervalSeconds else s.intervalSeconds
      split_ifs
      · omega
      · exact h
    | originated isLead => exact h

/-- What the next runs of a source keep. The floor goes before everything else: it is what is kept where
it is above the ceiling, and a source below it (by marking) or with a base below it comes to it. -/
structure InBand (config : EngineConfig) (t : Source) : Prop where
  floor : config.minInterval ≤ t.intervalSeconds ∨ gapIntervalSeconds ≤ t.intervalSeconds
  band : ∀ result, config.minInterval ≤ (nextInterval config t result).2 ∧
    (nextInterval config t result).2 ≤ max config.minInterval (ceiling config t)
  failure : ∀ result : ConnectorResult, result.failed = true →
    (nextInterval config t result).2 ≤ max config.minInterval t.interval
  productive : ∀ result : ConnectorResult, result.productive = true → t.base / 8 ≤ t.interval →
    (nextInterval config t result).2 ≤ max config.minInterval t.interval
  idleLead : ∀ result : ConnectorResult, result.idle = true → t.isLead = true →
    (nextInterval config t result).2 ≤ max config.minInterval (4 * t.base)
  idleWatch : t.isLead = false → ∃ n, ∀ results : List ConnectorResult,
    (∀ result ∈ results, result.idle = true) → n ≤ results.length →
      (afterRuns config t results).intervalSeconds =
        max config.minInterval (min (ceiling config (afterRuns config t results))
        (afterRuns config t results).base)

/-- **Scheduling stays in its band**, whatever happens to a source. -/
theorem interval_band (config : EngineConfig) (s : Source) (events : List Event)
    (hstart : config.minInterval ≤ s.intervalSeconds ∧ s.intervalSeconds ≤ config.maxInterval) :
    InBand config (after config s events) where
  floor := by
    have hfloor : min config.minInterval gapIntervalSeconds ≤ (after config s events).intervalSeconds :=
      floor_after (by omega)
    omega
  band := bounds_kept (after config s events)
  failure _ hfailed := kept_failed hfailed
  productive _ hproductive hbase := kept_productive hproductive hbase
  idleLead _ hidle hlead := kept_lead hidle hlead
  idleWatch hwatch := ⟨(after config s events).base + 1, fun _ hidle hlong => settles hidle hwatch hlong⟩

def fortnightly : Source := ⟨1209600, some 1209600, 1209600, false, false, 0⟩

theorem interval_band_fortnightly : InBand .default
    (after .default fortnightly [.marked true, .run ⟨false, 2⟩, .marked false]) :=
  interval_band .default fortnightly [.marked true, .run ⟨false, 2⟩, .marked false] (by decide)

def quickLead : Source := ⟨3600, some 600, 0, false, true, 0⟩

/-- The floor is more than four times its base. -/
theorem floor_above_base : ¬∀ (config : EngineConfig) (s : Source) (result : ConnectorResult),
    config.minInterval ≤ s.intervalSeconds ∧ s.intervalSeconds ≤ config.maxInterval →
      result.idle = true → s.isLead = true → (nextInterval config s result).2 ≤ 4 * s.base := by
  intro h
  exact absurd (h .default quickLead ⟨false, 0⟩ (by decide) (by decide) rfl) (by decide)

end GuruJi.Map.Intervals
