import GuruJi.Documents.Retrieval

/-!
# Listing generated reports

`ReportService.list` takes the newest reports of an institution and leaves out the ones the caller
may not read. `listReports_eq_iff` says when what is left are the newest readable ones.
-/

namespace GuruJi.Actions

open GuruJi.Lib GuruJi.Auth GuruJi.Documents

/-- What a listing says of a report. -/
structure ReportItem where
  reportId : String
  title : String
  format : String
  rowCount : Int
  sizeBytes : Int
  createdBy : String
  createdAt : String
  toolName : String
  downloadPath : String
  deriving DecidableEq

def reportItem (r : Report) : ReportItem :=
  ⟨r.reportId, r.title, r.format, r.rowCount, r.sizeBytes, r.createdBy, r.createdAt, r.toolName,
    "/v1/reports/" ++ r.reportId ++ "/download"⟩

section
variable {u : Language} {K : Type} (store : Store K) (principal : Principal u)
  (institutionId : String) (limit : Int)

/-- `_readable`: to the creator, and to who holds every capability that was recorded. -/
def readable (record : Report) : Bool :=
  if record.createdBy = principal.principalId then true
  else if !principal.hasCapability .reportsGenerate then false
  else match record.requiredCapabilities with
    | none => false
    | some required =>
      required.all fun value => (Capability.ofText value).any principal.hasCapability

/-- The guard of `list`. -/
def reportScope : Except Raised Unit :=
  requireScope principal institutionId "report scope is outside the caller's institution"

/-- `list`. -/
def listReports : Except Raised (List ReportItem) := do
  reportScope principal institutionId
  let rows := (store.listReports institutionId limit).filter (readable principal)
  return rows.map reportItem

def reportsOf : List Report :=
  store.reports.filter fun r => r.institutionId = institutionId && readable principal r

/-- The newest of the reports a principal may read. -/
def newestReadable : Except Raised (List ReportItem) := do
  reportScope principal institutionId
  return (newest (·.createdAt) (clampLimit limit 500)
    (reportsOf store principal institutionId)).map reportItem

/-- No report that a caller may not read buries one that it may. -/
def ReportsUnburied : Prop :=
  reportScope principal institutionId = .ok () →
    Unburied (readable principal) (·.createdAt) (clampLimit limit 500)
      (store.reports.filter fun r => r.institutionId = institutionId)

variable {store principal institutionId limit}

/-- **A listing of reports** holds the newest readable ones exactly when no other one buries
them. -/
theorem listReports_eq_iff : listReports store principal institutionId limit =
      newestReadable store principal institutionId limit ↔
    ReportsUnburied store principal institutionId limit := by
  have hrows : reportsOf store principal institutionId =
      (store.reports.filter fun r => r.institutionId = institutionId).filter
        (readable principal) := by
    rw [reportsOf, List.filter_filter]
    refine List.filter_congr fun r _ => ?_
    rw [Bool.and_comm]
  rw [listReports, newestReadable, ReportsUnburied, hrows, guarded_eq_iff, Store.listReports]
  exact forall_congr' fun _ => newest_filter_iff reportItem _ _ _ _

end

end GuruJi.Actions
