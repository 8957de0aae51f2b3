import GuruJi.Lib.Latest
import GuruJi.Records.Derive
import Mathlib.Data.Prod.Lex
import Mathlib.Data.String.Basic

/-!
# The staged rows of a job

What parsing stages of a file, what normalising makes of it, and how the rows are read back. The
record that a row was normalised to is kept with the keys of its fields; its lineage is made anew
when it is imported.
-/

namespace GuruJi.Ingestion

open GuruJi.Lib GuruJi.Records

inductive RowStatus where
  | parsed | ready | review | rejected | skipped
  deriving DecidableEq

inductive RowAction where
  | pending | insert | update | duplicateInBatch | conflictInBatch | missingKey | replacesStoredMarks
  deriving DecidableEq

def RowAction.text : RowAction → String
  | .pending => "pending"
  | .insert => "insert"
  | .update => "update"
  | .duplicateInBatch => "duplicate_in_batch"
  | .conflictInBatch => "conflict_in_batch"
  | .missingKey => "missing_key"
  | .replacesStoredMarks => "replaces_stored_marks"

/-- What normalising makes of a row: its record, and the keys of the record's fields. -/
structure Normalized (N : Type) [Python N] (entity : CanonicalEntity) where
  record : CanonicalRecord N entity
  names : List String

/-- A row of `ingestion_records`. A row is let into an import only as normalising left it, under the
key of its record. -/
structure StagedRow (N : Type) [Python N] (entity : CanonicalEntity) where
  rowNumber : Nat
  locator : String
  raw : Table String (Value N)
  ocr : Bool
  ocrConfidence : Option N
  normalized : Option (Normalized N entity)
  status : RowStatus
  action : RowAction
  recordKey : Option String
  carried : status = .ready ∨ status = .review → normalized.isSome = true
  keyed : ∀ n, normalized = some n → recordKey = some n.record.recordKey

/-- `_clamp_limit`. -/
def clampLimit (limit maximum : Nat) : Nat := if limit = 0 then 1 else min limit maximum

/-- The rows that `job_records` reads at most. -/
def recordsLimit (maxRows : Nat) : Nat := clampLimit maxRows 50000

variable {N : Type} [Python N] {entity : CanonicalEntity}

/-- `ORDER BY row_number, locator`. -/
def StagedRow.order (row : StagedRow N entity) : Nat ×ₗ String := toLex (row.rowNumber, row.locator)

/-- `job_records`. -/
def jobRecords (maxRows : Nat) (rows : List (StagedRow N entity)) : List (StagedRow N entity) :=
  (sortBy StagedRow.order rows).take (recordsLimit maxRows)

/-- A job with its staged rows, as far as an import reads them. The rows are those that normalising
wrote back, which it had read with the same limit. -/
structure StagedJob (N : Type) [Python N] (entity : CanonicalEntity) (maxRows : Nat) where
  jobId : String
  fileId : Option String
  fileName : Option String
  sourceLabel : Option String
  headers : List String
  sheets : List String
  rows : List (StagedRow N entity)
  fits : rows.length ≤ recordsLimit maxRows

/-- `_skip_reason`. -/
def skipReason (row : StagedRow N entity) : String :=
  if row.status = .rejected then "blocking_issues"
  else if row.action = .missingKey then "missing_natural_key"
  else row.action.text

/-- `_sheet_column`. -/
def sheetColumn {maxRows : Nat} (job : StagedJob N entity maxRows) : Option String :=
  if 1 < job.sheets.length then job.headers.getLast? else none

theorem jobRecords_perm {maxRows : Nat} (job : StagedJob N entity maxRows) :
    (jobRecords maxRows job.rows).Perm job.rows := by
  have hperm : (sortBy StagedRow.order job.rows).Perm job.rows := List.perm_insertionSort _ _
  rwa [jobRecords, List.take_of_length_le (hperm.length_eq ▸ job.fits)]

end GuruJi.Ingestion
