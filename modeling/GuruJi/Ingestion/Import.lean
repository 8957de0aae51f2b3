import GuruJi.Ingestion.Staging
import GuruJi.Records.Accounting
import GuruJi.Records.Honest

/-!
# The import of a job

`_import`: the staged rows that are ready, or were left to a review, and that no decision keeps out
go to `upsertRecords`; the others are counted under the reason they stay out for.

* `import_accounted`: every staged row is counted once, under what became of it.
-/

namespace GuruJi.Ingestion

open GuruJi.Lib GuruJi.Records

variable {N D : Type} [Python N] {entity : CanonicalEntity} {maxRows : Nat}

/-- What an import leaves in the job's report. -/
structure ImportReport where
  entity : String
  counts : ImportCounts
  insertedKeysSample : List String
  updatedKeysSample : List String
  skippedKeysSample : List (String × String × List Issue)
  committedBy : String
  rowsConsidered : Option Nat
  message : Option String

def importedRecord (job : StagedJob N entity maxRows) (row : StagedRow N entity)
    (normalized : Normalized N entity) : CanonicalRecord N entity :=
  { normalized.record with
    lineage := ⟨job.fileId, (job.fileName.filter (· ≠ "") <|> job.sourceLabel).getD "",
      row.locator, job.jobId⟩ }

/-- The loop's body: why a row stays out, or its record and the keys of its fields. -/
def disposal (job : StagedJob N entity maxRows) (skipLocators : List String)
    (row : StagedRow N entity) : Except String (CanonicalRecord N entity × List String) :=
  if h : row.status = .ready ∨ row.status = .review then
    if skipLocators.contains row.locator then .error "duplicate_review_decision"
    else
      let normalized := row.normalized.get (row.carried h)
      .ok (importedRecord job row normalized, normalized.names)
  else .error (skipReason row)

def reasonOf {α : Type*} : Except String α → Option String
  | .error reason => some reason
  | .ok _ => none

/-- What the report says of rows that fail a check once they are merged. -/
def mergeMessage (afterMerge : Nat) (skippedKeys : List (String × String × List Issue)) : String :=
  let checks := Table.counts (skippedKeys.flatMap fun s => s.2.2.map fun i => i.field ++ " " ++ i.code)
  let common := ((sortBy (fun e => -(e.2 : Int)) checks).take 3).map Prod.fst
  upTo 500 (toString afterMerge ++
    " rows were not imported: with the values already stored they fail a check (" ++
    String.intercalate ", " common ++
    "; see skipped_keys_sample), so those records were left as they were")

/-- `_import`. -/
def importRows [DecidableEq D] (digest : List (String × Value N) → List (String × Value N) → D)
    (stamp : String) (job : StagedJob N entity maxRows) (skipLocators : List String)
    (committedBy : String) (store : Rows N D) : Except String (Rows N D × ImportReport) :=
  let staged := jobRecords maxRows job.rows
  let disposals := staged.map (disposal job skipLocators)
  let taken := disposals.filterMap Except.toOption
  let reasons := Table.counts (disposals.filterMap reasonOf)
  let skipped := reasons.total
  if taken.isEmpty then
    .ok (store, ⟨entity.name, ⟨0, 0, 0, skipped, reasons⟩, [], [], [], committedBy, none,
      some "no rows were eligible for import"⟩)
  else do
    let mode : ImportMode :=
      ⟨(taken.flatMap Prod.snd).dedup, (sheetColumn job).toList, true, stamp⟩
    let (store', summary) ← upsertRecords digest mode store (taken.map Prod.fst)
    let skippedReasons := reasons.foldl (fun t e => t.bump e.1 e.2) summary.skippedReasons
    let afterMerge := skippedReasons.countOf "blocking_issues_after_merge"
    return (store',
      { entity := entity.name
        counts := { summary.counts with skipped := summary.skipped + skipped, skippedReasons }
        insertedKeysSample := summary.insertedKeys
        updatedKeysSample := summary.updatedKeys
        skippedKeysSample := summary.skippedKeys
        committedBy
        rowsConsidered := some staged.length
        message := if afterMerge = 0 then none
          else some (mergeMessage afterMerge summary.skippedKeys) })

/-! ## Every row is counted once -/

theorem exists_outcomes {α : Type*} (disposals : List (Except String α)) (outcomes : List RecordOutcome)
    (hlength : outcomes.length = (disposals.filterMap Except.toOption).length) :
    ∃ placed : List RecordOutcome, placed.length = disposals.length ∧
      (∀ o, placed.count o =
        ((disposals.filterMap reasonOf).map RecordOutcome.skipped).count o + outcomes.count o) ∧
      ∀ e ∈ disposals.zip placed, (∃ reason, e = (.error reason, .skipped reason)) ∨
        ∃ a, e.1 = .ok a ∧ (a, e.2) ∈ (disposals.filterMap Except.toOption).zip outcomes := by
  induction disposals generalizing outcomes with
  | nil =>
    obtain rfl := List.length_eq_zero_iff.mp hlength
    exact ⟨[], rfl, fun o => rfl, fun e he => by cases he⟩
  | cons d disposals ih =>
    cases d with
    | error reason =>
      obtain ⟨placed, hplaced, hcount, hrows⟩ := ih outcomes hlength
      refine ⟨.skipped reason :: placed, congrArg Nat.succ hplaced, fun o => ?_, fun e he => ?_⟩
      · rw [List.count_cons, hcount, List.filterMap_cons_some (rfl : reasonOf _ = _),
          List.map_cons, List.count_cons]
        omega
      · rcases List.mem_cons.mp he with rfl | he
        · exact .inl ⟨reason, rfl⟩
        · exact hrows e he
    | ok a =>
      rw [List.filterMap_cons_some (rfl : Except.toOption (.ok a : Except String α) = _)] at hlength ⊢
      cases outcomes with
      | nil => cases hlength
      | cons outcome outcomes =>
        obtain ⟨placed, hplaced, hcount, hrows⟩ := ih outcomes (Nat.succ.inj hlength)
        refine ⟨outcome :: placed, congrArg Nat.succ hplaced, fun o => ?_, fun e he => ?_⟩
        · rw [List.count_cons, hcount, List.filterMap_cons_none (rfl : reasonOf _ = _),
            List.count_cons]
          omega
        · rcases List.mem_cons.mp he with rfl | he
          · exact .inr ⟨a, rfl, List.mem_cons_self⟩
          · exact (hrows e he).imp_right fun ⟨b, hb, hmem⟩ => ⟨b, hb, List.mem_cons_of_mem _ hmem⟩

theorem length_disposals {α : Type*} (disposals : List (Except String α)) :
    (disposals.filterMap reasonOf).length + (disposals.filterMap Except.toOption).length =
      disposals.length := by
  induction disposals with
  | nil => rfl
  | cons d disposals ih =>
    cases d <;> simp [List.filterMap_cons, reasonOf, Except.toOption] <;> omega

/-- The report of an import against the staged rows and the store. -/
structure Accounted (job : StagedJob N entity maxRows) (store store' : Rows N D)
    (report : ImportReport) : Prop where
  /-- The counts add up to the staged rows. -/
  total : report.counts.inserted + report.counts.updated + report.counts.unchanged +
    report.counts.skipped = job.rows.length
  /-- The reasons add up to the rows skipped. -/
  reasons : report.counts.skippedReasons.total = report.counts.skipped
  /-- Every staged row is counted under one outcome, which holds of the row of its record. -/
  once : ∃ (staged : List (StagedRow N entity)) (outcomes : List RecordOutcome),
    staged.Perm job.rows ∧ outcomes.length = staged.length ∧ Tallies outcomes report.counts ∧
      ∀ e ∈ staged.zip outcomes, e.2.reason = none →
        ∃ n, e.1.normalized = some n ∧ e.2.Holds store store' n.record.recordKey
  /-- So many stored rows are created and rewritten. -/
  writes : Writes store store' report.counts.inserted report.counts.updated

theorem disposal_ok {job : StagedJob N entity maxRows} {skipLocators : List String}
    {row : StagedRow N entity} {a : CanonicalRecord N entity × List String}
    (h : disposal job skipLocators row = .ok a) :
    ∃ n, row.normalized = some n ∧ a = (importedRecord job row n, n.names) := by
  rw [disposal] at h
  split_ifs at h
  exact ⟨_, (Option.some_get _).symm, (Except.ok.inj h).symm⟩

/-- **The accounting of an import is exact**, for any staged rows and any rows kept out. -/
theorem import_accounted [DecidableEq D]
    (digest : List (String × Value N) → List (String × Value N) → D) (stamp : String)
    (job : StagedJob N entity maxRows) (skipLocators : List String) (committedBy : String)
    (store store' : Rows N D) (report : ImportReport)
    (h : importRows digest stamp job skipLocators committedBy store = .ok (store', report)) :
    Accounted job store store' report := by
  let disposals := (jobRecords maxRows job.rows).map (disposal job skipLocators)
  let taken := disposals.filterMap Except.toOption
  -- with the outcomes of what is taken, every row has one
  have hone : ∀ outcomes : List RecordOutcome, outcomes.length = taken.length →
      (∀ e ∈ (taken.map Prod.fst).zip outcomes, e.2.Holds store store' e.1.recordKey) →
      ∃ placed : List RecordOutcome, placed.length = (jobRecords maxRows job.rows).length ∧
        (∀ o, placed.count o =
          ((disposals.filterMap reasonOf).map RecordOutcome.skipped).count o + outcomes.count o) ∧
        ∀ e ∈ (jobRecords maxRows job.rows).zip placed, e.2.reason = none →
          ∃ n, e.1.normalized = some n ∧ e.2.Holds store store' n.record.recordKey := by
    intro outcomes hlength hholds
    obtain ⟨placed, hplaced, hcount, hrows⟩ := exists_outcomes disposals outcomes hlength
    refine ⟨placed, hplaced.trans (List.length_map _), hcount, fun e he hnone => ?_⟩
    have hzip : (disposal job skipLocators e.1, e.2) ∈ disposals.zip placed := by
      rw [List.zip_map_left]
      exact List.mem_map.mpr ⟨e, he, rfl⟩
    rcases hrows _ hzip with ⟨reason, heq⟩ | ⟨a, hok, hmem⟩
    · rw [(Prod.mk.inj heq).2] at hnone
      cases hnone
    · obtain ⟨n, hn, rfl⟩ := disposal_ok hok
      refine ⟨n, hn, hholds (importedRecord job e.1 n, e.2) ?_⟩
      rw [List.zip_map_left]
      exact List.mem_map.mpr ⟨_, hmem, rfl⟩
  have hlength := (jobRecords_perm job).length_eq
  rw [importRows] at h
  split_ifs at h with hempty
  · obtain ⟨rfl, rfl⟩ := Prod.mk.inj (Except.ok.inj h)
    have htaken : taken = [] := List.isEmpty_iff.mp hempty
    obtain ⟨placed, hplaced, hcount, hrows⟩ := hone [] (congrArg List.length htaken).symm
      fun e he => by simp at he
    have hall := length_disposals disposals
    rw [show disposals.filterMap Except.toOption = [] from htaken, List.length_nil,
      Nat.add_zero, List.length_map, ← hplaced] at hall
    have htally := tallies_skipped (fun o => (hcount o).trans (by simp)) hall.symm
    exact ⟨htally.total.trans (hplaced.trans hlength), htally.reasons,
      ⟨_, placed, jobRecords_perm job, hplaced, htally, hrows⟩, writes_self store⟩
  · let mode : ImportMode :=
      ⟨(taken.flatMap Prod.snd).dedup, (sheetColumn job).toList, true, stamp⟩
    change (upsertRecords digest mode store (taken.map Prod.fst)).bind _ = _ at h
    cases hrun : upsertRecords digest mode store (taken.map Prod.fst) with
    | error e =>
      rw [hrun] at h
      cases h
    | ok result =>
      rw [hrun] at h
      obtain ⟨rfl, rfl⟩ := Prod.mk.inj (Except.ok.inj h)
      obtain ⟨outcomes, htally, houtcomes, hholds, hwrites⟩ := upsertRecords_accounted hrun
      rw [List.length_map] at houtcomes
      obtain ⟨placed, hplaced, hcount, hrows⟩ := hone outcomes houtcomes hholds
      have hall := length_disposals disposals
      rw [show (disposals.filterMap Except.toOption).length = outcomes.length from houtcomes.symm,
        List.length_map, ← hplaced] at hall
      have htallies := htally.merge hcount hall.symm
      exact ⟨htallies.total.trans (hplaced.trans hlength), htallies.reasons,
        ⟨_, placed, jobRecords_perm job, hplaced, htallies, hrows⟩, hwrites⟩

def studentRow (rowNumber : Nat) (locator : String) (status : RowStatus) (action : RowAction) :
    StagedRow ℚ student where
  rowNumber := rowNumber
  locator := locator
  raw := [("USN", .text "S1"), ("Name", .text "Asha")]
  ocr := false
  ocrConfidence := none
  normalized := some ⟨asha, ["student_id", "name"]⟩
  status := status
  action := action
  recordKey := some asha.recordKey
  carried _ := rfl
  keyed n hn := by rw [← Option.some.inj hn]

/-- A sheet that names a student twice; a reviewer keeps the second copy out. -/
def studentJob : StagedJob ℚ student 50000 where
  jobId := "job-1"
  fileId := some "file-1"
  fileName := some "students.csv"
  sourceLabel := none
  headers := ["USN", "Name"]
  sheets := ["students"]
  rows := [studentRow 2 "csv;row=2" .ready .insert,
    studentRow 3 "csv;row=3" .review .conflictInBatch]
  fits := by decide

theorem import_accounted_students : ∃ store' report,
    importRows content "2025-06-01" studentJob ["csv;row=3"] "clerk" [] = .ok (store', report) ∧
      report.counts = ⟨1, 0, 0, 1, [("duplicate_review_decision", 1)]⟩ ∧
      Accounted studentJob ([] : Rows ℚ (Content ℚ)) store' report := by
  have hrun : ((importRows content "2025-06-01" studentJob ["csv;row=3"] "clerk" []).toOption.map
      fun r => r.2.counts) = some ⟨1, 0, 0, 1, [("duplicate_review_decision", 1)]⟩ := by
    decide +kernel
  obtain ⟨⟨store', report⟩, hok, hcounts⟩ := Option.map_eq_some_iff.mp hrun
  have himport := ok_of_toOption hok
  exact ⟨store', report, himport, hcounts, import_accounted content _ _ _ _ _ _ _ himport⟩

end GuruJi.Ingestion
