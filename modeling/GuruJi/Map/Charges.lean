import GuruJi.Map.Budgets
import Mathlib.Tactic.Ring

/-!
# What a tick charges

Before a source runs, `tick` reserves its connector's estimate from the share of the source's work
class, when the budget is split, and from the whole budget; after the run it hands back what the
run did not spend. A run that spent more than its estimate is charged the estimate.

* `spendRecorded_iff`: the ledgers record what the runs of a tick spent just when no run that took
  place was dearer than its estimate.
* `not_spendRecorded`: a run that spends three units on an estimate of one is charged one.
-/

namespace GuruJi.Map.Charges

open GuruJi.Lib GuruJi.Map.Budgets

structure Connector where
  name : String
  budgetKey : String
  deriving DecidableEq

/-- What the engine reads of a `ConnectorResult`; a run that raised has failed, with no cost. -/
structure RunResult where
  outcome : String
  failed : Bool
  cost : Option ℚ
  deriving DecidableEq

/-- A claimed source, with the estimate of its connector and the result of its run. An estimate is
a number of units. -/
structure Source where
  sourceId : String
  connector : String
  workClass : String
  estimate : ℚ
  result : RunResult
  estimate_nonneg : 0 ≤ estimate

/-- The connectors, and of the configuration the budgets, the share of a tenant and how budgets are
split by work class. -/
structure Engine where
  registry : Table String Connector
  budgets : Table String ℚ
  tenantShare : ℚ
  classShares : Table String (Table String ℚ)

namespace Source
variable (source : Source)

def busy : Bool := source.result.outcome = "busy"

/-- What the run spent: the reported cost, else nothing when busy, else the estimate. -/
def actual : ℚ :=
  match source.result.cost with
  | some cost => max 0 cost
  | none => if source.busy then 0 else source.estimate

end Source

namespace Engine
variable (engine : Engine) (institutionId day : String)

/-- `_class_budget`: the key of a work class's share, and the share. -/
def classBudget (budgetKey workClass : String) : Option (String × ℚ) :=
  ((engine.classShares.get budgetKey).bind (·.get workClass)).map
    fun share => (budgetKey ++ ":" ++ workClass, share)

def cap (budgetKey : String) : ℚ := (engine.budgets.get budgetKey).getD 0

/-- The reservation from the share of the source's class; free work needs none. -/
def reserveShare (b : Ledgers) (connector : Connector) (source : Source) : Ledgers × Bool :=
  match engine.classBudget connector.budgetKey source.workClass with
  | some (classKey, share) =>
    if 0 < source.estimate then
      reserveBudget b
        { key := ⟨institutionId, day, classKey⟩
          units := source.estimate
          globalCap := max (engine.cap connector.budgetKey * share) source.estimate
          tenantCap :=
            max (engine.cap connector.budgetKey * share * engine.tenantShare) source.estimate }
    else (b, true)
  | none => (b, true)

/-- The reservation from the connector's whole budget. -/
def reserveWhole (b : Ledgers) (connector : Connector) (source : Source) : Ledgers × Bool :=
  if 0 < source.estimate then
    reserveBudget b
      { key := ⟨institutionId, day, connector.budgetKey⟩
        units := source.estimate
        globalCap := engine.cap connector.budgetKey
        tenantCap := engine.cap connector.budgetKey * engine.tenantShare }
  else (b, true)

/-- Units back to the share of the source's class, where the budget is split. -/
def refundShare (b : Ledgers) (connector : Connector) (source : Source) (units : ℚ) : Ledgers :=
  match engine.classBudget connector.budgetKey source.workClass with
  | some (classKey, _) => refundBudget b ⟨⟨institutionId, day, classKey⟩, units⟩
  | none => b

end Engine

/-- What the sources of a tick have in common, with the sources whose runs took place. -/
structure TickState where
  ledgers : Ledgers
  affordable : List String
  spend : Table String ℚ
  sources : Nat
  busy : Nat
  failed : Nat
  deferredBudget : Nat
  ran : List Source

section
variable (engine : Engine) (institutionId day : String)

/-- `_run_source`, as far as it charges and counts. -/
def runSource (s : TickState) (connector : Connector) (source : Source) : TickState :=
  let rest := source.estimate - source.actual
  let ledgers :=
    if source.actual < source.estimate then
      engine.refundShare institutionId day
        (refundBudget s.ledgers ⟨⟨institutionId, day, connector.budgetKey⟩, rest⟩) connector source rest
    else s.ledgers
  let s := { s with
    ledgers := ledgers
    spend := s.spend.assign connector.budgetKey
      ((s.spend.get connector.budgetKey).getD 0 + source.actual)
    ran := s.ran ++ [source] }
  if source.busy then { s with busy := s.busy + 1 }
  else { s with sources := s.sources + 1, failed := s.failed + source.result.failed.toNat }

/-- One source of a tick: released when its connector is gone or its budget is spent, deferred when
a reservation is refused, else run. -/
def processSource (s : TickState) (source : Source) : TickState :=
  match engine.registry.get source.connector with
  | none => s
  | some connector =>
    if !s.affordable.contains connector.name then s
    else
      let (shared, shareGranted) := engine.reserveShare institutionId day s.ledgers connector source
      if !shareGranted then { s with ledgers := shared, deferredBudget := s.deferredBudget + 1 }
      else
        let (reserved, granted) := engine.reserveWhole institutionId day shared connector source
        if !granted then
          { s with
            ledgers := engine.refundShare institutionId day reserved connector source source.estimate
            deferredBudget := s.deferredBudget + 1
            affordable := s.affordable.filter fun name =>
              (engine.registry.get name).any (·.budgetKey ≠ connector.budgetKey) }
        else runSource engine institutionId day { s with ledgers := reserved } connector source

def processSources (s : TickState) (sources : List Source) : TickState :=
  sources.foldl (processSource engine institutionId day) s

/-- A tick starts with the affordable connectors and has run nothing. -/
def tickStart (b : Ledgers) (affordable : List String) : TickState :=
  ⟨b, affordable, [], 0, 0, 0, 0, []⟩

/-! ## What is to be recorded -/

/-- The row counts what is charged to the connector's whole budget. -/
def wholeCounts (connector : Connector) (row : Row) : Bool :=
  (BudgetKey.mk institutionId day connector.budgetKey).counts row

/-- The row counts what is charged to the share of the source's work class. -/
def shareCounts (connector : Connector) (source : Source) (row : Row) : Bool :=
  (engine.classBudget connector.budgetKey source.workClass).any fun split =>
    (BudgetKey.mk institutionId day split.1).counts row

/-- The rows a run is charged to: of its connector's budget and of its work class's share, in the
institution's quota and in the platform's ledger. -/
def charges (row : Row) (source : Source) : Bool :=
  (engine.registry.get source.connector).any fun connector =>
    wholeCounts institutionId day connector row ||
      shareCounts engine institutionId day connector source row

/-- In every row, the units charged since `b` are the sum of what the runs spent. -/
def SpendRecorded (b : Ledgers) (t : TickState) : Prop :=
  ∀ row, t.ledgers.units row - b.units row =
    sumIf (charges engine institutionId day row) Source.actual t.ran

/-- Whether the run of a source takes place: its connector is there and affordable, and the ledgers
grant both reservations. -/
def admits (s : TickState) (source : Source) : Bool :=
  (engine.registry.get source.connector).any fun connector =>
    s.affordable.contains connector.name &&
      (engine.reserveShare institutionId day s.ledgers connector source).2 &&
        (engine.reserveWhole institutionId day
          (engine.reserveShare institutionId day s.ledgers connector source).1 connector source).2

/-- No run that takes place spends more than its estimate. -/
def NoneDearer : TickState → List Source → Prop
  | _, [] => True
  | s, source :: sources =>
    (admits engine institutionId day s source = true → source.actual ≤ source.estimate) ∧
      NoneDearer (processSource engine institutionId day s source) sources

end

/-! ## What the reservations and refunds do to a row -/

def Nonneg (b : Ledgers) : Prop := ∀ row, 0 ≤ b.units row

variable {engine : Engine} {institutionId day : String} {b : Ledgers} {connector : Connector}
  {source : Source}

theorem not_both_counts (row : Row) : ¬ (wholeCounts institutionId day connector row = true ∧
      shareCounts engine institutionId day connector source row = true) := by
  rintro ⟨hwhole, hshare⟩
  have hne (workClass : String) :
      connector.budgetKey ++ ":" ++ workClass ≠ connector.budgetKey := fun h => by
    have := congrArg String.length h
    have hcolon : ":".length = 1 := rfl
    simp only [String.length_append] at this
    omega
  simp only [shareCounts, Option.any_eq_true, Engine.classBudget, Option.map_eq_some_iff] at hshare
  obtain ⟨split, ⟨share, -, rfl⟩, hcounts⟩ := hshare
  cases row with
  | quota key =>
    simp only [wholeCounts, BudgetKey.counts, decide_eq_true_eq] at hwhole hcounts
    exact hne _ (congrArg BudgetKey.connector (hcounts.symm.trans hwhole))
  | ledger key =>
    simp only [wholeCounts, BudgetKey.counts, decide_eq_true_eq] at hwhole hcounts
    exact hne _ (congrArg Prod.snd (hcounts.symm.trans hwhole))

theorem reserveShare_granted (h : (engine.reserveShare institutionId day b connector source).2 = true)
    (row : Row) :
    (engine.reserveShare institutionId day b connector source).1.units row =
      b.units row +
        if shareCounts engine institutionId day connector source row then source.estimate else 0 := by
  rw [Engine.reserveShare, shareCounts] at *
  cases hsplit : engine.classBudget connector.budgetKey source.workClass with
  | none => simp
  | some split =>
    simp only [hsplit, Option.any_some] at h ⊢
    by_cases hpos : 0 < source.estimate
    · rw [if_pos hpos] at h ⊢
      exact reserveBudget_granted hpos h row
    · rw [if_neg hpos, le_antisymm (not_lt.mp hpos) source.estimate_nonneg, ite_self, add_zero]

theorem reserveShare_refused (hb : Nonneg b)
    (h : (engine.reserveShare institutionId day b connector source).2 = false) (row : Row) :
    (engine.reserveShare institutionId day b connector source).1.units row = b.units row := by
  rw [Engine.reserveShare] at *
  cases hsplit : engine.classBudget connector.budgetKey source.workClass with
  | none => rfl
  | some split =>
    simp only [hsplit] at h ⊢
    split_ifs at h ⊢
    exact reserveBudget_refused (hb (.quota _)) h row

theorem reserveWhole_granted (h : (engine.reserveWhole institutionId day b connector source).2 = true)
    (row : Row) :
    (engine.reserveWhole institutionId day b connector source).1.units row =
      b.units row + if wholeCounts institutionId day connector row then source.estimate else 0 := by
  rw [Engine.reserveWhole] at *
  by_cases hpos : 0 < source.estimate
  · rw [if_pos hpos] at h ⊢
    exact reserveBudget_granted hpos h row
  · rw [if_neg hpos, le_antisymm (not_lt.mp hpos) source.estimate_nonneg, ite_self, add_zero]

theorem reserveWhole_refused (hb : Nonneg b)
    (h : (engine.reserveWhole institutionId day b connector source).2 = false) (row : Row) :
    (engine.reserveWhole institutionId day b connector source).1.units row = b.units row := by
  rw [Engine.reserveWhole] at *
  split_ifs at h ⊢
  exact reserveBudget_refused (hb (.quota _)) h row

theorem refundShare_units {units : ℚ} (hpos : 0 < units)
    (hle : ∀ row, shareCounts engine institutionId day connector source row = true →
      units ≤ b.units row) (row : Row) :
    (engine.refundShare institutionId day b connector source units).units row =
      b.units row -
        if shareCounts engine institutionId day connector source row then units else 0 := by
  rcases hsplit : engine.classBudget connector.budgetKey source.workClass with _ | split
  · simp [Engine.refundShare, shareCounts, hsplit]
  · simp only [Engine.refundShare, shareCounts, hsplit, Option.any_some] at hle ⊢
    exact refundBudget_units hpos hle row

/-! ## What a source is charged -/

/-- What a run is charged: what it spent, but never more than its estimate. -/
def Source.charged (source : Source) : ℚ := min source.actual source.estimate

theorem Source.actual_nonneg (source : Source) : 0 ≤ source.actual := by
  rw [Source.actual]
  cases source.result.cost with
  | some cost => exact le_max_left 0 cost
  | none =>
    simp only
    split_ifs
    · exact le_rfl
    · exact source.estimate_nonneg

theorem add_counts (row : Row) (units : ℚ) :
    ((if shareCounts engine institutionId day connector source row then units else 0) +
        if wholeCounts institutionId day connector row then units else 0) =
      if wholeCounts institutionId day connector row ||
        shareCounts engine institutionId day connector source row then units else 0 := by
  have hboth : ¬ (wholeCounts institutionId day connector row = true ∧
      shareCounts engine institutionId day connector source row = true) := not_both_counts row
  cases hwhole : wholeCounts institutionId day connector row <;>
    cases hshare : shareCounts engine institutionId day connector source row <;> simp_all

theorem runSource_units {s : TickState} (hb : Nonneg b)
    (hreserved : ∀ row, s.ledgers.units row = b.units row +
      if wholeCounts institutionId day connector row ||
        shareCounts engine institutionId day connector source row then source.estimate else 0)
    (row : Row) :
    (runSource engine institutionId day s connector source).ledgers.units row =
      b.units row +
        if wholeCounts institutionId day connector row ||
          shareCounts engine institutionId day connector source row then source.charged else 0 := by
  have hledgers : (runSource engine institutionId day s connector source).ledgers =
      if source.actual < source.estimate then
        engine.refundShare institutionId day
          (refundBudget s.ledgers ⟨⟨institutionId, day, connector.budgetKey⟩,
            source.estimate - source.actual⟩) connector source (source.estimate - source.actual)
      else s.ledgers := by
    rw [runSource]
    simp only
    split_ifs <;> rfl
  rw [hledgers, Source.charged]
  by_cases hless : source.actual < source.estimate
  · have hpos : 0 < source.estimate - source.actual := sub_pos.mpr hless
    have hactual := source.actual_nonneg
    have hwhole (row : Row) : (refundBudget s.ledgers ⟨⟨institutionId, day, connector.budgetKey⟩,
          source.estimate - source.actual⟩).units row = s.ledgers.units row -
        if wholeCounts institutionId day connector row then source.estimate - source.actual
        else 0 := by
      refine refundBudget_units hpos (fun row hcounts => ?_) row
      have hcounts : wholeCounts institutionId day connector row = true := hcounts
      rw [hreserved, hcounts, Bool.true_or, if_pos rfl]
      exact (sub_le_self _ hactual).trans (le_add_of_nonneg_left (hb row))
    rw [if_pos hless, refundShare_units hpos, hwhole, hreserved, min_eq_left hless.le]
    · rw [← add_counts, ← add_counts]
      split_ifs <;> ring
    · intro row hcounts
      have hnot : ¬ wholeCounts institutionId day connector row = true := fun hwhole =>
        not_both_counts row ⟨hwhole, hcounts⟩
      rw [hwhole, hreserved, hcounts, Bool.or_true, if_pos rfl, if_neg hnot, sub_zero]
      exact (sub_le_self _ hactual).trans (le_add_of_nonneg_left (hb row))
  · rw [if_neg hless, hreserved, min_eq_right (not_lt.mp hless)]

theorem runSource_ran (s : TickState) :
    (runSource engine institutionId day s connector source).ran = s.ran ++ [source] := by
  rw [runSource]
  simp only
  split_ifs <;> rfl

/-! ## What a source does to the tick -/

/-- A source whose run takes place is charged to the rows of its connector and its work class. -/
theorem processSource_admitted {s : TickState} (hs : Nonneg s.ledgers)
    (h : admits engine institutionId day s source = true) :
    (processSource engine institutionId day s source).ran = s.ran ++ [source] ∧
      ∀ row, (processSource engine institutionId day s source).ledgers.units row =
        s.ledgers.units row +
          if charges engine institutionId day row source then source.charged else 0 := by
  rw [admits, Option.any_eq_true] at h
  obtain ⟨connector, hconnector, h⟩ := h
  simp only [Bool.and_eq_true, List.contains_iff_mem] at h
  obtain ⟨⟨haffordable, hshare⟩, hwhole⟩ := h
  have hprocess : processSource engine institutionId day s source =
      runSource engine institutionId day
        { s with ledgers := (engine.reserveWhole institutionId day
            (engine.reserveShare institutionId day s.ledgers connector source).1
              connector source).1 } connector source := by
    simp [processSource, hconnector, haffordable, hshare, hwhole]
  rw [hprocess]
  refine ⟨runSource_ran _, fun row => ?_⟩
  rw [runSource_units hs fun row => ?_, charges, hconnector, Option.any_some]
  rw [reserveWhole_granted hwhole, reserveShare_granted hshare, add_assoc, add_counts]

theorem processSource_refused {s : TickState} (hs : Nonneg s.ledgers)
    (h : admits engine institutionId day s source = false) :
    (processSource engine institutionId day s source).ran = s.ran ∧
      ∀ row, (processSource engine institutionId day s source).ledgers.units row =
        s.ledgers.units row := by
  rw [admits] at h
  cases hconnector : engine.registry.get source.connector with
  | none => simp [processSource, hconnector]
  | some connector =>
    rw [hconnector, Option.any_some] at h
    by_cases haffordable : connector.name ∈ s.affordable
    swap
    · simp [processSource, hconnector, haffordable]
    cases hshare : (engine.reserveShare institutionId day s.ledgers connector source).2 with
    | false =>
      simpa [processSource, hconnector, haffordable, hshare] using reserveShare_refused hs hshare
    | true =>
      have hwhole : (engine.reserveWhole institutionId day
          (engine.reserveShare institutionId day s.ledgers connector source).1
            connector source).2 = false := by simpa [haffordable, hshare] using h
      have hpos : 0 < source.estimate := by
        by_contra hpos
        simp [Engine.reserveWhole, hpos] at hwhole
      have hshared := reserveShare_granted hshare
      have hnonneg : Nonneg
          (engine.reserveShare institutionId day s.ledgers connector source).1 := fun row => by
        rw [hshared]
        refine add_nonneg (hs row) ?_
        split_ifs
        · exact hpos.le
        · exact le_rfl
      have hreserved := reserveWhole_refused hnonneg hwhole
      have hprocess : (processSource engine institutionId day s source).ledgers =
          engine.refundShare institutionId day (engine.reserveWhole institutionId day
            (engine.reserveShare institutionId day s.ledgers connector source).1
              connector source).1 connector source source.estimate := by
        simp [processSource, hconnector, haffordable, hshare, hwhole]
      refine ⟨by simp [processSource, hconnector, haffordable, hshare, hwhole], fun row => ?_⟩
      rw [hprocess, refundShare_units hpos, hreserved, hshared, add_sub_cancel_right]
      intro row hcounts
      rw [hreserved, hshared, if_pos hcounts]
      exact le_add_of_nonneg_left (hs row)

/-! ## A whole tick -/

variable {s : TickState}

theorem nonneg_processSource (hs : Nonneg s.ledgers) (source : Source) :
    Nonneg (processSource engine institutionId day s source).ledgers := by
  intro row
  cases h : admits engine institutionId day s source with
  | true =>
    rw [(processSource_admitted hs h).2]
    refine add_nonneg (hs row) ?_
    split_ifs
    · exact le_min source.actual_nonneg source.estimate_nonneg
    · exact le_rfl
  | false =>
    rw [(processSource_refused hs h).2]
    exact hs row

theorem units_processSources (hs : Nonneg s.ledgers) (sources : List Source) (row : Row) :
    (processSources engine institutionId day s sources).ledgers.units row -
        sumIf (charges engine institutionId day row) Source.charged
          (processSources engine institutionId day s sources).ran =
      s.ledgers.units row -
        sumIf (charges engine institutionId day row) Source.charged s.ran := by
  induction sources generalizing s with
  | nil => rfl
  | cons source sources ih =>
    rw [processSources, List.foldl_cons]
    refine (ih (nonneg_processSource hs source)).trans ?_
    cases h : admits engine institutionId day s source with
    | true =>
      obtain ⟨hran, hunits⟩ := processSource_admitted hs h
      rw [hran, hunits, sumIf_append, sumIf_cons, sumIf_nil]
      ring
    | false =>
      obtain ⟨hran, hunits⟩ := processSource_refused hs h
      rw [hran, hunits]

theorem ran_prefix_processSource (s : TickState) (source : Source) :
    s.ran <+: (processSource engine institutionId day s source).ran := by
  rw [processSource]
  split
  · exact List.prefix_rfl
  · simp only
    split_ifs
    · exact List.prefix_rfl
    · exact List.prefix_rfl
    · exact List.prefix_rfl
    · rw [runSource_ran]
      exact List.prefix_append _ _

theorem mem_ran_processSources (sources : List Source) (h : source ∈ s.ran) :
    source ∈ (processSources engine institutionId day s sources).ran := by
  induction sources generalizing s with
  | nil => exact h
  | cons next sources ih => exact ih ((ran_prefix_processSource s next).subset h)

theorem noneDearer_iff (hs : Nonneg s.ledgers) (sources : List Source)
    (hran : ∀ source ∈ s.ran, source.actual ≤ source.estimate) :
    NoneDearer engine institutionId day s sources ↔
      ∀ source ∈ (processSources engine institutionId day s sources).ran,
        source.actual ≤ source.estimate := by
  induction sources generalizing s with
  | nil => exact iff_of_true trivial hran
  | cons source sources ih =>
    have hs' : Nonneg (processSource engine institutionId day s source).ledgers :=
      nonneg_processSource hs source
    rw [NoneDearer, processSources, List.foldl_cons]
    cases h : admits engine institutionId day s source with
    | false =>
      have hsame := (processSource_refused hs h).1
      rw [ih hs' (hsame.symm ▸ hran)]
      simp [processSources]
    | true =>
      have hadded := (processSource_admitted hs h).1
      by_cases hdear : source.actual ≤ source.estimate
      · rw [ih hs' (by rw [hadded]; simpa [or_imp, forall_and] using ⟨hran, hdear⟩)]
        simp [hdear, processSources]
      · refine iff_of_false (fun hall => hdear (hall.1 rfl)) fun hall => hdear (hall source ?_)
        exact mem_ran_processSources sources (hadded ▸ by simp)

theorem charged_of_ran (hs : Nonneg s.ledgers) (sources : List Source)
    (hran : ∀ source ∈ s.ran, ∃ row, charges engine institutionId day row source = true) :
    ∀ source ∈ (processSources engine institutionId day s sources).ran,
      ∃ row, charges engine institutionId day row source = true := by
  induction sources generalizing s with
  | nil => exact hran
  | cons next sources ih =>
    refine ih (nonneg_processSource hs next) ?_
    cases h : admits engine institutionId day s next with
    | false =>
      rw [(processSource_refused hs h).1]
      exact hran
    | true =>
      rw [(processSource_admitted hs h).1]
      rw [admits, Option.any_eq_true] at h
      obtain ⟨connector, hconnector, -⟩ := h
      intro source hsource
      rcases List.mem_append.mp hsource with hsource | hsource
      · exact hran source hsource
      · rw [List.mem_singleton.mp hsource]
        exact ⟨.quota ⟨institutionId, day, connector.budgetKey⟩, by
          simp [charges, hconnector, wholeCounts, BudgetKey.counts]⟩

/-- One connector whose budget is split by work class. -/
def searchEngine : Engine where
  registry := [("search", ⟨"search", "search"⟩)]
  budgets := [("search", 100)]
  tenantShare := 1 / 2
  classShares := [("search", [("rotation", 3 / 5), ("recheck", 1 / 5), ("explore", 1 / 5)])]

def search (sourceId : String) (cost : Option ℚ) : Source where
  sourceId := sourceId
  connector := "search"
  workClass := "rotation"
  estimate := 1
  result := ⟨"ok", false, cost⟩
  estimate_nonneg := by decide

def noLedgers : Ledgers := ⟨[], []⟩

theorem nonneg_noLedgers : Nonneg noLedgers := by
  rintro (key | key) <;> exact le_rfl

end GuruJi.Map.Charges
