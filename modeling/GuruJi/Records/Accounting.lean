import GuruJi.Records.Upsert
import Mathlib.Data.List.Count

/-!
# What an import reports

The summary of `upsertRecords` against what it does to the store: every record is counted once, under
the outcome that it had, and what is counted as inserted or updated are the rows that were created or
rewritten (`upsertRecords_accounted`).
-/

namespace GuruJi.Records

open GuruJi.Lib

/-- The numbers of a summary. -/
structure ImportCounts where
  inserted : Nat
  updated : Nat
  unchanged : Nat
  skipped : Nat
  skippedReasons : Table String Nat
  deriving DecidableEq

def ImportSummary.counts (summary : ImportSummary) : ImportCounts :=
  ⟨summary.inserted, summary.updated, summary.unchanged, summary.skipped, summary.skippedReasons⟩

/-- What becomes of a record. -/
inductive RecordOutcome where
  | inserted | updated | unchanged
  | skipped (reason : String)
  deriving DecidableEq

/-- The counts are those of the outcomes: each outcome is counted once. -/
structure Tallies (outcomes : List RecordOutcome) (counts : ImportCounts) : Prop where
  inserted : counts.inserted = outcomes.count .inserted
  updated : counts.updated = outcomes.count .updated
  unchanged : counts.unchanged = outcomes.count .unchanged
  skipped : ∀ reason, counts.skippedReasons.countOf reason = outcomes.count (.skipped reason)
  reasons : counts.skippedReasons.total = counts.skipped
  total : counts.inserted + counts.updated + counts.unchanged + counts.skipped = outcomes.length

section
variable {N D : Type}

/-- An outcome says what happened to the row of a key. -/
def RecordOutcome.Holds (rows rows' : Rows N D) (key : String) : RecordOutcome → Prop
  | .inserted => rows.get key = none ∧ (rows'.get key).isSome = true
  | .updated => ∃ row row', rows.get key = some row ∧ rows'.get key = some row' ∧ row' ≠ row
  | .unchanged => ∃ row, rows.get key = some row ∧ rows'.get key = some row
  | .skipped _ => True

/-- So many rows are created, and so many are rewritten. -/
structure Writes (rows rows' : Rows N D) (inserted updated : Nat) : Prop where
  created : ∃ keys : List String, keys.Nodup ∧ keys.length = inserted ∧
    ∀ k, k ∈ keys ↔ rows.get k = none ∧ (rows'.get k).isSome = true
  rewritten : ∃ keys : List String, keys.Nodup ∧ keys.length = updated ∧
    ∀ k, k ∈ keys ↔ ∃ row row', rows.get k = some row ∧ rows'.get k = some row' ∧ row' ≠ row

theorem writes_self (rows : Rows N D) : Writes rows rows 0 0 where
  created := by
    refine ⟨[], List.nodup_nil, rfl, fun k => ⟨fun hk => (List.not_mem_nil hk).elim, ?_⟩⟩
    rintro ⟨hnone, hsome⟩
    rw [hnone] at hsome
    cases hsome
  rewritten := by
    refine ⟨[], List.nodup_nil, rfl, fun k => ⟨fun hk => (List.not_mem_nil hk).elim, ?_⟩⟩
    rintro ⟨row, row', hrow, hrow', hne⟩
    exact absurd (Option.some.inj (hrow'.symm.trans hrow)) hne

def Decision.outcome : Decision N D → RecordOutcome
  | .skip reason _ _ => .skipped reason
  | .unchanged => .unchanged
  | .write p => if p.previous.isNone then .inserted else .updated

def RecordOutcome.reason : RecordOutcome → Option String
  | .skipped reason => some reason
  | _ => none

/-! ## The summary counts the outcomes -/

theorem count_reasons (outcomes : List RecordOutcome) (reason : String) :
    (outcomes.filterMap RecordOutcome.reason).count reason = outcomes.count (.skipped reason) := by
  induction outcomes with
  | nil => rfl
  | cons o outcomes ih =>
      cases o <;> simp [RecordOutcome.reason, List.filterMap_cons, List.count_cons, ih]

theorem length_outcomes (outcomes : List RecordOutcome) :
    outcomes.count .inserted + outcomes.count .updated + outcomes.count .unchanged +
      (outcomes.filterMap RecordOutcome.reason).length = outcomes.length := by
  induction outcomes with
  | nil => rfl
  | cons o outcomes ih =>
    cases o <;> simp [RecordOutcome.reason, List.filterMap_cons] <;> omega

theorem skips_reasons (ds : List (Decision N D)) :
    (skips ds).map (·.2.1) = (ds.map Decision.outcome).filterMap RecordOutcome.reason := by
  rw [skips, List.map_filterMap, List.filterMap_map]
  congr 1
  funext d
  cases d with
  | write p =>
    rw [Function.comp_apply, Decision.outcome]
    split_ifs <;> rfl
  | _ => rfl

theorem count_written (ds : List (Decision N D)) :
    ((ds.filterMap Decision.pending).filter (·.previous.isNone)).length =
        (ds.map Decision.outcome).count .inserted ∧
      ((ds.filterMap Decision.pending).filter (·.previous.isSome)).length =
        (ds.map Decision.outcome).count .updated := by
  induction ds with
  | nil => exact ⟨rfl, rfl⟩
  | cons d ds ih =>
    cases d with
    | write p =>
      cases hp : p.previous <;>
        simp [Decision.pending, Decision.outcome, hp, ih.1, ih.2]
    | _ => simp [Decision.pending, Decision.outcome, List.filterMap_cons, ih.1, ih.2]

theorem count_unchanged (ds : List (Decision N D)) :
    ds.countP Decision.isUnchanged = (ds.map Decision.outcome).count .unchanged := by
  induction ds with
  | nil => rfl
  | cons d ds ih =>
    cases d with
    | write p =>
      cases hp : p.previous <;>
        simp [Decision.isUnchanged, Decision.outcome, hp, ih]
    | _ => simp [Decision.isUnchanged, Decision.outcome, List.countP_cons, ih]

theorem tallies_summarize (ds : List (Decision N D)) :
    Tallies (ds.map Decision.outcome) (summarize ds).counts := by
  have hreasons : (summarize ds).counts.skippedReasons =
      Table.counts ((ds.map Decision.outcome).filterMap RecordOutcome.reason) := by
    rw [← skips_reasons, Table.counts, List.foldl_map]
    rfl
  have hskipped : (summarize ds).counts.skipped =
      ((ds.map Decision.outcome).filterMap RecordOutcome.reason).length := by
    rw [← skips_reasons, List.length_map]
    rfl
  obtain ⟨htotal, hcount⟩ :=
    Table.counts_spec ((ds.map Decision.outcome).filterMap RecordOutcome.reason)
  have hinserted : (summarize ds).counts.inserted = (ds.map Decision.outcome).count .inserted :=
    (count_written ds).1
  have hupdated : (summarize ds).counts.updated = (ds.map Decision.outcome).count .updated :=
    (count_written ds).2
  have hunchanged : (summarize ds).counts.unchanged = (ds.map Decision.outcome).count .unchanged :=
    count_unchanged ds
  refine ⟨hinserted, hupdated, hunchanged, fun reason => ?_, ?_, ?_⟩
  · rw [hreasons, hcount, count_reasons]
  · rw [hreasons, htotal, hskipped]
  · rw [hinserted, hupdated, hunchanged, hskipped, length_outcomes]

end

/-! ## Reasons from elsewhere -/

theorem count_map_skipped (reasons : List String) (reason : String) :
    (reasons.map RecordOutcome.skipped).count (.skipped reason) = reasons.count reason :=
  List.count_map_of_injective reasons _ (fun _ _ h => RecordOutcome.skipped.inj h) reason

theorem count_map_skipped_of_none (reasons : List String) {o : RecordOutcome}
    (ho : o.reason = none) : (reasons.map RecordOutcome.skipped).count o = 0 := by
  refine List.count_eq_zero.mpr fun hmem => ?_
  obtain ⟨reason, -, rfl⟩ := List.mem_map.mp hmem
  cases ho

/-- The counts of an import with the reasons of the rows that stayed out before it. -/
theorem Tallies.merge {outcomes placed : List RecordOutcome} {counts : ImportCounts}
    {reasons : List String} (h : Tallies outcomes counts)
    (hcount : ∀ o, placed.count o = (reasons.map RecordOutcome.skipped).count o + outcomes.count o)
    (hlength : placed.length = reasons.length + outcomes.length) :
    Tallies placed { counts with
      skipped := counts.skipped + (Table.counts reasons).total
      skippedReasons :=
        (Table.counts reasons).foldl (fun t e => t.bump e.1 e.2) counts.skippedReasons } := by
  obtain ⟨htotal, hreason⟩ := Table.foldl_bump (Table.counts reasons) counts.skippedReasons
  obtain ⟨hnumber, hkeys⟩ := Table.counts_spec reasons
  have hother : ∀ o : RecordOutcome, o.reason = none → placed.count o = outcomes.count o := by
    intro o ho
    rw [hcount, count_map_skipped_of_none reasons ho, Nat.zero_add]
  refine ⟨h.inserted.trans (hother _ rfl).symm, h.updated.trans (hother _ rfl).symm,
    h.unchanged.trans (hother _ rfl).symm, fun reason => ?_, ?_, ?_⟩
  · rw [hreason, Table.sum_eq_countOf (Table.nodup_keys_counts reasons), hkeys, h.skipped, hcount,
      count_map_skipped, Nat.add_comm]
  · rw [htotal, h.reasons]
  · have := h.total
    rw [hlength, hnumber]
    dsimp only
    omega

theorem tallies_skipped {placed : List RecordOutcome} {reasons : List String}
    (hcount : ∀ o, placed.count o = (reasons.map RecordOutcome.skipped).count o)
    (hlength : placed.length = reasons.length) :
    Tallies placed ⟨0, 0, 0, (Table.counts reasons).total, Table.counts reasons⟩ := by
  obtain ⟨hnumber, hkeys⟩ := Table.counts_spec reasons
  have hother : ∀ o : RecordOutcome, o.reason = none → 0 = placed.count o := by
    intro o ho
    rw [hcount, count_map_skipped_of_none reasons ho]
  refine ⟨hother _ rfl, hother _ rfl, hother _ rfl, fun reason => ?_, rfl, ?_⟩
  · rw [hkeys, hcount, count_map_skipped]
  · rw [hlength, hnumber]
    dsimp only
    omega

/-! ## What is done to the rows -/

section
variable {N D : Type} [Python N] {entity : CanonicalEntity} [DecidableEq D]
variable {digest : List (String × Value N) → List (String × Value N) → D} {mode : ImportMode}
variable {rows rows' : Rows N D} {seen : List String} {record : CanonicalRecord N entity}
variable {records : List (CanonicalRecord N entity)} {summary : ImportSummary}

theorem consider_write_hash {row : Row N D} {p : Pending N D}
    (h : consider digest mode record (some row) = .write p) : p.contentHash ≠ row.contentHash := by
  rw [consider] at h
  split_ifs at h with _ hhash
  cases h
  exact Ne.symm hhash

theorem upsertedRow_ne {row : Row N D} {p : Pending N D}
    (h : consider digest mode record (some row) = .write p) (columns : List String)
    (stamp : String) : upsertedRow columns stamp p (some row) ≠ row := fun heq =>
  consider_write_hash h (congrArg Row.contentHash heq)

theorem considered_not_seen {d : Decision N D}
    (h : (record, d) ∈ records.zip (decisions digest mode rows seen records))
    (hd : d.outcome.reason = none) : record.recordKey ∉ seen := by
  induction records generalizing seen with
  | nil => cases h
  | cons first records ih =>
    rw [decisions] at h
    cases hskip : skipReason mode seen first with
    | some reason =>
      rw [hskip] at h
      rcases List.mem_cons.mp h with heq | h
      · obtain ⟨rfl, rfl⟩ := Prod.mk.inj heq
        cases hd
      · exact ih h
    | none =>
      rw [hskip] at h
      rcases List.mem_cons.mp h with heq | h
      · obtain ⟨rfl, rfl⟩ := Prod.mk.inj heq
        exact not_mem_of_skipReason hskip
      · exact fun hmem => ih h (List.mem_cons_of_mem _ hmem)

theorem not_written_of_unchanged {p : Pending N D}
    (h : (record, .unchanged) ∈ records.zip (decisions digest mode rows seen records))
    (hp : .write p ∈ decisions digest mode rows seen records) : p.key ≠ record.recordKey := by
  induction records generalizing seen with
  | nil => cases h
  | cons first records ih =>
    rw [decisions] at h hp
    cases hskip : skipReason mode seen first with
    | some reason =>
      rw [hskip] at h hp
      exact ih (List.mem_of_ne_of_mem (fun heq => by cases heq) h)
        (List.mem_of_ne_of_mem (fun heq => by cases heq) hp)
    | none =>
      rw [hskip] at h hp
      have hlater := (pending_decisions digest mode rows (first.recordKey :: seen) records).2
      rcases List.mem_cons.mp h with heq | h
      · obtain ⟨rfl, hunchanged⟩ := Prod.mk.inj heq
        rcases List.mem_cons.mp hp with hp | hp
        · rw [← hunchanged] at hp
          cases hp
        · exact fun hkey => hlater p hp (hkey ▸ List.mem_cons_self)
      · rcases List.mem_cons.mp hp with hp | hp
        · rw [(consider_write hp.symm).1]
          exact fun hkey => considered_not_seen h rfl (hkey ▸ List.mem_cons_self)
        · exact ih h hp

theorem mem_written {p : Pending N D}
    (hp : p ∈ (decisions digest mode rows [] records).filterMap Decision.pending) :
    ∃ record ∈ records, p.key = record.recordKey ∧
      consider digest mode record (rows.get p.key) = .write p ∧
      p.previous = (rows.get p.key).map (·.contentHash) := by
  obtain ⟨d, hd, hpending⟩ := List.mem_filterMap.mp hp
  obtain ⟨record, hrecord, hconsider⟩ := exists_of_write (mem_pending.mp hpending ▸ hd)
  obtain ⟨hkey, hprevious⟩ := consider_write hconsider
  exact ⟨record, hrecord, hkey, hkey ▸ hconsider, hkey ▸ hprevious⟩

/-- So many rows are created and rewritten as there are writes without a row and over one. -/
theorem writes_execute (columns : List String) (stamp : String) :
    let pending := (decisions digest mode rows [] records).filterMap Decision.pending
    Writes rows (execute columns stamp rows pending)
      (pending.filter (·.previous.isNone)).length (pending.filter (·.previous.isSome)).length := by
  intro pending
  have hnodup : (pending.map (·.key)).Nodup := (pending_decisions digest mode rows [] records).1
  have hget := get_execute columns stamp rows hnodup
  -- a key that is not pending has the row that it had
  have hpending : ∀ k, (execute columns stamp rows pending).get k ≠ rows.get k →
      ∃ p ∈ pending, p.key = k := by
    intro k hne
    by_contra hnone
    exact hne ((hget k).2 fun p hp hk => hnone ⟨p, hp, hk⟩)
  refine ⟨⟨(pending.filter (·.previous.isNone)).map (·.key),
    (List.filter_sublist.map _).nodup hnodup, List.length_map _, fun k => ?_⟩,
    ⟨(pending.filter (·.previous.isSome)).map (·.key),
      (List.filter_sublist.map _).nodup hnodup, List.length_map _, fun k => ?_⟩⟩
  · rw [List.mem_map]
    constructor
    · rintro ⟨p, hp, rfl⟩
      obtain ⟨hp, hnone⟩ := List.mem_filter.mp hp
      obtain ⟨-, -, -, -, hprevious⟩ := mem_written hp
      rw [hprevious, Option.isNone_map, Option.isNone_iff_eq_none] at hnone
      exact ⟨hnone, by rw [(hget p.key).1 p hp rfl, Option.isSome_some]⟩
    · rintro ⟨hnone, hsome⟩
      obtain ⟨p, hp, rfl⟩ := hpending k fun heq => by
        rw [heq, hnone] at hsome
        cases hsome
      obtain ⟨-, -, -, -, hprevious⟩ := mem_written hp
      rw [hnone] at hprevious
      exact ⟨p, List.mem_filter.mpr ⟨hp, by rw [hprevious]; rfl⟩, rfl⟩
  · rw [List.mem_map]
    constructor
    · rintro ⟨p, hp, rfl⟩
      obtain ⟨hp, hsome⟩ := List.mem_filter.mp hp
      obtain ⟨record, -, -, hconsider, hprevious⟩ := mem_written hp
      rw [hprevious, Option.isSome_map] at hsome
      obtain ⟨row, hrow⟩ := Option.isSome_iff_exists.mp hsome
      have hrow' := (hget p.key).1 p hp rfl
      rw [hrow] at hconsider hrow'
      exact ⟨row, _, hrow, hrow', upsertedRow_ne hconsider _ _⟩
    · rintro ⟨row, row', hrow, hrow', hne⟩
      obtain ⟨p, hp, rfl⟩ := hpending k fun heq => by
        rw [hrow', hrow] at heq
        exact hne (Option.some.inj heq)
      obtain ⟨-, -, -, -, hprevious⟩ := mem_written hp
      rw [hrow] at hprevious
      exact ⟨p, List.mem_filter.mpr ⟨hp, by rw [hprevious]; rfl⟩, rfl⟩

theorem outcome_holds {d : Decision N D}
    (h : (record, d) ∈ records.zip (decisions digest mode rows [] records)) (columns : List String)
    (stamp : String) : d.outcome.Holds rows (execute columns stamp rows
      ((decisions digest mode rows [] records).filterMap Decision.pending)) record.recordKey := by
  have hd := (List.of_mem_zip h).2
  obtain ⟨hwritten, hothers⟩ := get_execute columns stamp rows
    (pending_decisions digest mode rows [] records).1 record.recordKey
  cases d with
  | skip reason key issues => trivial
  | unchanged =>
    have hsame := hothers fun p hp => by
      obtain ⟨d, hd, hpending⟩ := List.mem_filterMap.mp hp
      exact not_written_of_unchanged h (mem_pending.mp hpending ▸ hd)
    have hconsider := (decided h).resolve_left fun ⟨reason, hskip⟩ => by cases hskip
    cases hrow : rows.get record.recordKey with
    | none =>
      rw [hrow] at hconsider
      cases hconsider
    | some row => exact ⟨row, hrow, hsame.trans hrow⟩
  | write p =>
    have hp : p ∈ (decisions digest mode rows [] records).filterMap Decision.pending :=
      List.mem_filterMap.mpr ⟨_, hd, rfl⟩
    have hconsider := (decided h).resolve_left fun ⟨reason, hskip⟩ => by cases hskip
    obtain ⟨hkey, hprevious⟩ := consider_write hconsider.symm
    have hrow' := hwritten p hp hkey
    rw [Decision.outcome, hprevious]
    cases hrow : rows.get record.recordKey with
    | none => exact ⟨hrow, by rw [hrow', Option.isSome_some]⟩
    | some row =>
      rw [hrow] at hconsider hrow'
      exact ⟨row, _, hrow, hrow', upsertedRow_ne hconsider.symm _ _⟩

/-- **The summary of an import is true**: it tallies the outcomes of the records, each of which
holds of the record's row, and so many rows were created and rewritten. -/
theorem upsertRecords_accounted (hrun : upsertRecords digest mode rows records = .ok (rows', summary)) :
    ∃ outcomes, Tallies outcomes summary.counts ∧ outcomes.length = records.length ∧
      (∀ e ∈ records.zip outcomes, e.2.Holds rows rows' e.1.recordKey) ∧
      Writes rows rows' summary.inserted summary.updated := by
  rw [upsertRecords] at hrun
  split_ifs at hrun
  obtain ⟨rfl, rfl⟩ := Prod.mk.inj (Except.ok.inj hrun)
  refine ⟨(decisions digest mode rows [] records).map Decision.outcome, tallies_summarize _,
    by rw [List.length_map, length_decisions], fun e he => ?_, writes_execute _ _⟩
  rw [List.zip_map_right] at he
  obtain ⟨⟨record, d⟩, hmem, rfl⟩ := List.mem_map.mp he
  exact outcome_holds hmem _ _

end

end GuruJi.Records
