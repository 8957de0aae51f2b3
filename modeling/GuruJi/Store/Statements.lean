import GuruJi.Ingestion.Staging
import GuruJi.Lib.Tenants
import GuruJi.Records.Upsert

/-!
# The statements of the institution store

The tables that institutions share and the methods of `InstitutionDataStore` on records, documents
and review items, each with the statements it runs: their conditions, joins, groups, orders and
limits. What a database engine decides for itself (how values compare, what an aggregate of them
is) is its `Sql`; the ids and the time that a method draws are arguments. Rows are read in the order
they are stored.
-/

namespace GuruJi.Store

open GuruJi.Lib GuruJi.Lib.Database GuruJi.Records

variable {N D : Type} [Python N]

/-! ## The engine -/

/-- What the engine makes of values. -/
structure Sql (N : Type) where
  /-- The text of a value that is not null, as `LOWER` takes it. -/
  text : Value N → String
  lower : String → String
  upper : String → String
  like : String → String → Bool
  /-- `=`, of values that are not null. -/
  equals : Value N → Value N → Bool
  /-- `<`, of values that are not null. -/
  less : Value N → Value N → Bool
  /-- The order of `ORDER BY`. -/
  before : Value N → Value N → Bool
  /-- Whether two values fall into one group. -/
  grouped : Value N → Value N → Bool
  sum : List (Value N) → Value N
  avg : List (Value N) → Value N
  max : List (Value N) → Value N
  min : List (Value N) → Value N
  minus : Value N → Value N → Value N
  /-- `x * 100.0 / y`. -/
  percent : Value N → Value N → Value N
  /-- `int(x)`, of the driver's floats. -/
  truncate : N → Int
  /-- `str(values)`, of a list that a caller passes. -/
  listText : List (Value N) → String

namespace Sql

variable (sql : Sql N)

/-- `x = ?`. -/
def is (v param : Value N) : Bool := !v.isNull && !param.isNull && sql.equals v param

/-- `LOWER(x) = ?`. -/
def lowerIs (text : String) (v : Value N) : Bool := !v.isNull && sql.lower (sql.text v) == text

/-- `LOWER(x) LIKE ?`. -/
def lowerLike (pattern : String) (v : Value N) : Bool :=
  !v.isNull && sql.like (sql.lower (sql.text v)) pattern

/-- `LOWER(x) = LOWER(y)`. -/
def sameLower (v w : Value N) : Bool :=
  !v.isNull && !w.isNull && sql.lower (sql.text v) == sql.lower (sql.text w)

/-- `UPPER(x)`. -/
def upperOf : Value N → Value N
  | .text s => .text (sql.upper s)
  | v => v

end Sql

/-- `COALESCE(x, y)`. -/
def coalesce (v w : Value N) : Value N := if v.isNull then w else v

/-- `GROUP BY`. -/
def groupBy {α κ : Type} (same : κ → κ → Bool) (rows : List (κ × α)) : List (κ × List α) :=
  rows.foldl (fun groups r =>
    if groups.any fun g => same g.1 r.1 then
      groups.map fun g => if same g.1 r.1 then (g.1, g.2 ++ [r.2]) else g
    else groups ++ [(r.1, [r.2])]) []

/-- `ORDER BY`: rows that the order does not tell apart stay in their order. -/
def orderBy {α : Type} (before : α → α → Bool) (rows : List α) : List α :=
  rows.insertionSort fun r r' => before r r' = true

/-! ## The tables -/

/-- A row of an entity's table. -/
structure RecordRow (N D : Type) where
  recordKey : String
  content : Row N D

structure Document where
  title : String
  fileName : String
  objectKey : String
  contentType : String
  sizeBytes : Nat
  sha256 : String
  classification : String
  category : String
  uploadedBy : String
  uploadedAt : String
  pageCount : Nat
  chunkCount : Nat
  status : String
  deriving DecidableEq

structure DocumentChunk (N : Type) where
  documentId : String
  chunkIndex : Int
  pageNumber : Option Int
  text : String
  embedding : List N
  tokenCount : Int
  deriving DecidableEq

/-- A row of `review_items`; payload and resolution are JSON texts. -/
structure ReviewRow where
  jobId : String
  kind : String
  status : String
  payload : String
  createdAt : String
  resolvedAt : Option String
  resolvedBy : Option String
  resolution : String
  deriving DecidableEq

inductive TableName where
  | records (entity : String)
  | documents
  | documentChunks
  | reviewItems
  deriving DecidableEq

def RowOf (N D : Type) : TableName → Type
  | .records _ => RecordRow N D
  | .documents => Document
  | .documentChunks => DocumentChunk N
  | .reviewItems => ReviewRow

inductive StoreError where
  | valueError (message : String)
  | keyError (message : String)
  /-- A primary key is taken. -/
  | integrityError
  /-- The driver takes no such parameter. -/
  | bindingError
  deriving DecidableEq

abbrev StoreDatabase (N D : Type) := Database String String (RowOf N D)

abbrev Method (N D α : Type) := Transaction String String (RowOf N D) StoreError α

abbrev RecordOf (N D : Type) := Owned String String (RecordRow N D)

/-- `with self._tenant(institution_id)`. -/
def inTenant {α : Type} (institutionId : String) (body : Method N D α) : Method N D α :=
  if Lib.strip (Python.isSpace N) institutionId = "" then
    throw (.valueError "institution_id is required")
  else body

def raiseValueError {α : Type} : Except String α → Method N D α
  | .ok a => pure a
  | .error message => throw (.valueError message)

/-! ## Records -/

/-- `SELECT ... FROM` an entity's table. -/
def selectRecords (entity : CanonicalEntity) (p : RecordOf N D → Bool) :
    Method N D (List (RecordOf N D)) :=
  Database.select (TableName.records entity.name) p

/-- `_row_to_record`. -/
structure RecordView (N : Type) where
  recordKey : String
  fields : List (String × Value N)
  attributes : Table String (Value N)
  issues : List Issue
  lineage : RecordLineage
  importedAt : String
  updatedAt : String

def rowToRecord (entity : CanonicalEntity) (r : RecordOf N D) : RecordView N where
  recordKey := r.row.recordKey
  fields := entity.fieldNames.map fun name => (name, storedFields entity r.row.content name)
  attributes := r.row.content.attributes
  issues := r.row.content.issues
  lineage := r.row.content.lineage
  importedAt := r.row.content.importedAt
  updatedAt := r.row.content.updatedAt

/-- `SELECT ... WHERE institution_id = ? AND record_key IN (...)`, chunk by chunk. -/
def lookup (institutionId : String) (entity : CanonicalEntity) (keys : List String) :
    Method N D (List (RecordOf N D)) :=
  selectRecords entity fun r => r.tenant == institutionId && keys.contains r.row.recordKey

/-- The statement for what is pending: a row of the institution with the key is updated. -/
def writeRecord (institutionId : String) (entity : CanonicalEntity) (stamp : String)
    (rowId : String → String) (update : Pending N D → Row N D → Row N D) (p : Pending N D) :
    Method N D Unit :=
  Database.upsert .integrityError (TableName.records entity.name)
    (⟨institutionId, rowId p.key, ⟨p.key, insertedRow stamp p⟩⟩ : RecordOf N D)
    (fun r : RecordOf N D => r.tenant == institutionId && r.row.recordKey == p.key)
    fun r : RecordRow N D => { r with content := update p r.content }

/-- The transaction that writes what is pending, statement by statement. -/
def writeRecords (institutionId : String) (entity : CanonicalEntity) (stamp : String)
    (rowId : String → String) (update : Pending N D → Row N D → Row N D)
    (pending : List (Pending N D)) : Method N D Unit :=
  inTenant institutionId
    (((byStatement pending).flatMap Prod.snd).forM (writeRecord institutionId entity stamp rowId update))

section
variable [DecidableEq D] {entity : CanonicalEntity}

def byKey (rows : List (RecordOf N D)) : Rows N D :=
  rows.map fun r => (r.row.recordKey, r.row.content)

/-- `upsert_records` with `mapped_fields`: what it decides over the rows it looks up is
`Records.upsertRecords`. -/
def upsertRecords (digest : List (String × Value N) → List (String × Value N) → D)
    (institutionId : String) (mode : ImportMode) (rowId : String → String)
    (records : List (CanonicalRecord N entity)) : Method N D ImportSummary := do
  let found ← inTenant institutionId (lookup institutionId entity (records.map (·.recordKey)))
  let (_, summary) ← raiseValueError (Records.upsertRecords digest mode (byKey found) records)
  writeRecords institutionId entity mode.stamp rowId (updatedRow (mergeColumns entity mode) mode.stamp)
    ((decisions digest mode (byKey found) [] records).filterMap Decision.pending)
  return summary

/-- A record that replaces all columns of its row, with the keys of its fields. -/
def replacement (digest : List (String × Value N) → List (String × Value N) → D)
    (record : CanonicalRecord N entity) (names : List String) (previous : Option D) :
    Pending N D where
  key := record.recordKey
  previous := previous
  values := fun name => (entity.field name).elim .null fun item => boolParam item (record.fields name)
  attributes := record.attributes
  notes := record.normalizations
  issues := record.issues
  contentHash := digest ((entity.fieldNames.filter names.contains).map fun name =>
    (name, record.fields name)) (sortBy Prod.fst record.attributes)
  lineage := record.lineage
  rederived := []

/-- The loop of `upsert_records` without `mapped_fields`. -/
def replacements (digest : List (String × Value N) → List (String × Value N) → D) (mode : ImportMode)
    (rows : Rows N D) : List String → List (CanonicalRecord N entity × List String) →
      List (Decision N D)
  | _, [] => []
  | seen, (record, names) :: records =>
    match skipReason mode seen record with
    | some reason =>
      .skip reason record.recordKey [] :: replacements digest mode rows seen records
    | none =>
      let previous := (rows.get record.recordKey).map (·.contentHash)
      let p := replacement digest record names previous
      (if previous = some p.contentHash then .unchanged else .write p) ::
        replacements digest mode rows (record.recordKey :: seen) records

/-- `upsert_records` without `mapped_fields`: an update assigns every column but `imported_at`. -/
def replaceRecords (digest : List (String × Value N) → List (String × Value N) → D)
    (institutionId : String) (mode : ImportMode) (rowId : String → String)
    (records : List (CanonicalRecord N entity × List String)) : Method N D ImportSummary :=
  if records.isEmpty then throw (.valueError "no records to import")
  else do
    let found ← inTenant institutionId
      (lookup institutionId entity (records.map (·.1.recordKey)))
    let ds := replacements digest mode (byKey found) [] records
    writeRecords institutionId entity mode.stamp rowId
      (fun p row => { insertedRow mode.stamp p with importedAt := row.importedAt })
      (ds.filterMap Decision.pending)
    return summarize ds

end

/-- `existing_keys`. -/
def existingKeys (institutionId : String) (entity : CanonicalEntity) (keys : List String) :
    Method N D (List (RecordView N)) :=
  if keys.isEmpty then pure []
  else inTenant institutionId do
    let rows ← lookup institutionId entity keys
    return rows.map (rowToRecord entity)

def cleanedValues (values : List (Value N)) : List String :=
  (sortBy id (((values.filter Value.truthy).map fun v =>
    Python.lower N (Lib.strip (Python.isSpace N) v.str)).dedup)).take 500

/-- `lookup_person_matches`. -/
def lookupPersonMatches (sql : Sql N) (institutionId : String) (entity : CanonicalEntity)
    (names phones emails : List (Value N)) (limit : Nat) : Method N D (List (RecordView N)) :=
  let clauses := ([("name", names), ("phone", phones), ("email", emails)].filter fun c =>
    entity.fieldNames.contains c.1 && !(cleanedValues c.2).isEmpty).map fun c =>
      (c.1, cleanedValues c.2)
  if clauses.isEmpty then pure []
  else inTenant institutionId do
    let rows ← selectRecords entity fun r => r.tenant == institutionId &&
      clauses.any fun c => c.2.any fun text => sql.lowerIs text (r.row.content.columns c.1)
    return (rows.take (Ingestion.clampLimit limit 5000)).map (rowToRecord entity)

/-- A filter's value. -/
inductive Filter (N : Type) where
  | one (v : Value N)
  | many (vs : List (Value N))

/-- `_bool_param`. -/
def boolFilter (item : CanonicalField) (v : Value N) : Value N :=
  if item.fieldType ≠ .boolean then v
  else
    match v with
    | .bool b => .int (if b then 1 else 0)
    | .int i => .int (if i = 0 then 0 else 1)
    | .text s =>
      let text := Python.lower N (Lib.strip (Python.isSpace N) s)
      if ["1", "true", "yes", "y", "t"].contains text then .int 1
      else if ["0", "false", "no", "n", "f"].contains text then .int 0
      else v
    | _ => v

/-- `_column` and `entity.field`. -/
def fieldOf (entity : CanonicalEntity) (name : String) : Except StoreError CanonicalField :=
  if !safeIdentifier name then .error (.valueError ("unsafe column name: " ++ Python.repr N name))
  else
    match entity.field name with
    | some item => .ok item
    | none => .error (.keyError ("unknown canonical field: " ++ entity.name ++ "." ++ name))

/-- `key.removesuffix(suffix)` of a key that ends so. -/
def withoutSuffix (suffix key : String) : Option String :=
  if suffix.toList.isSuffixOf key.toList then
    some (String.ofList (key.toList.take (key.length - suffix.length)))
  else none

def Filter.missing : Filter N → Bool
  | .one .null => true
  | .one (.text s) => s == ""
  | _ => false

/-- `str(value)`. -/
def Filter.str (sql : Sql N) : Filter N → String
  | .one v => v.str
  | .many vs => sql.listText vs

/-- `list(value)`, or the value alone. -/
def Filter.values : Filter N → List (Value N)
  | .one v => [v]
  | .many vs => vs

/-- What a comparison binds of a filter; a list is refused when the statement runs. -/
def Filter.param : Filter N → Value N
  | .one v => v
  | .many _ => .null

def Filter.unbindable (key : String) : Filter N → Bool
  | .one _ => false
  | .many _ => (withoutSuffix "__contains" key).isNone && (withoutSuffix "__in" key).isNone

abbrev Clause (N : Type) := String × (Value N → Bool)

def comparison (sql : Sql N) (param : Value N) : List (String × (Value N → Bool)) :=
  let known := fun (holds : Value N → Bool) v => !Value.isNull v && !param.isNull && holds v
  [("__gte", known fun v => !sql.less v param), ("__lte", known fun v => !sql.less param v),
    ("__lt", known fun v => sql.less v param), ("__gt", known fun v => sql.less param v)]

/-- The clause of one filter; `none` for one without a value. -/
def clauseOf (sql : Sql N) (entity : CanonicalEntity) (key : String) (filter : Filter N) :
    Except StoreError (Option (Clause N)) :=
  if filter.missing then .ok none
  else
    match withoutSuffix "__contains" key with
    | some column => do
      let _ ← fieldOf (N := N) entity column
      return some (column, sql.lowerLike ("%" ++ Python.lower N (filter.str sql) ++ "%"))
    | none =>
      match withoutSuffix "__in" key with
      | some column => do
        let item ← fieldOf (N := N) entity column
        let values := filter.values.map (boolFilter item)
        return some (column, fun v => values.any (sql.is v))
      | none =>
        let param := filter.param
        match ["__gte", "__lte", "__lt", "__gt"].filterMap fun suffix =>
            (withoutSuffix suffix key).map (suffix, ·) with
        | (suffix, column) :: _ => do
          let item ← fieldOf (N := N) entity column
          let holds := ((comparison sql (boolFilter item param)).find? (·.1 == suffix)).elim
            (fun _ => false) Prod.snd
          return some (column, holds)
        | [] => do
          let item ← fieldOf (N := N) entity key
          match boolFilter item param with
          | .text s => return some (key, sql.lowerIs (Python.lower N s))
          | v => return some (key, fun w => sql.is w v)

/-- `_where`, after its first condition. -/
def whereClauses (sql : Sql N) (entity : CanonicalEntity) (filters : Table String (Filter N)) :
    Except StoreError (List (Clause N)) := do
  let clauses ← filters.mapM fun f => clauseOf sql entity f.1 f.2
  return clauses.filterMap id

/-- The driver refuses the parameters of `_where` that are lists. -/
def bind (filters : Table String (Filter N)) : Method N D Unit :=
  if filters.any fun f => f.2.unbindable f.1 then throw .bindingError else pure ()

/-- The condition of `_where`. -/
def matching (institutionId : String) (clauses : List (Clause N)) (r : RecordOf N D) : Bool :=
  r.tenant == institutionId && clauses.all fun c => c.2 (r.row.content.columns c.1)

def raiseStoreError {α : Type} : Except StoreError α → Method N D α
  | .ok a => pure a
  | .error e => throw e

/-- The order of `query_records`. -/
def recordOrder (sql : Sql N) (entity : CanonicalEntity) (order : Option String) :
    Except StoreError (RecordOf N D → RecordOf N D → Bool) :=
  let byKey := fun r r' : RecordOf N D => decide (r.row.recordKey ≤ r'.row.recordKey)
  match order.filter (· ≠ "") with
  | none => .ok byKey
  | some order => do
    let column := String.ofList (order.toList.dropWhile (· = '-'))
    let _ ← fieldOf (N := N) entity column
    let before := fun r r' : RecordOf N D =>
      if startsWith "-" order then sql.before (r'.row.content.columns column)
        (r.row.content.columns column)
      else sql.before (r.row.content.columns column) (r'.row.content.columns column)
    return fun r r' => before r r' && (!before r' r || byKey r r')

/-- `query_records`. -/
def queryRecords (sql : Sql N) (institutionId : String) (entity : CanonicalEntity)
    (filters : Table String (Filter N)) (limit offset : Nat) (order : Option String) :
    Method N D (List (RecordView N)) := do
  let clauses ← raiseStoreError (whereClauses sql entity filters)
  let before ← raiseStoreError (recordOrder sql entity order)
  inTenant institutionId do
    bind filters
    let rows ← selectRecords entity (matching institutionId clauses)
    return (((orderBy before rows).drop offset).take (Ingestion.clampLimit limit 5000)).map
      (rowToRecord entity)

/-- `count_records`. -/
def countRecords (sql : Sql N) (institutionId : String) (entity : CanonicalEntity)
    (filters : Table String (Filter N)) : Method N D Nat := do
  let clauses ← raiseStoreError (whereClauses sql entity filters)
  inTenant institutionId do
    bind filters
    let rows ← selectRecords entity (matching (D := D) institutionId clauses)
    return rows.length

def keyed (institutionId recordKey : String) (r : RecordOf N D) : Bool :=
  r.tenant == institutionId && r.row.recordKey == Python.lower N recordKey

/-- `get_record`. -/
def getRecord (institutionId : String) (entity : CanonicalEntity) (recordKey : String) :
    Method N D (Option (RecordView N)) :=
  inTenant institutionId do
    let rows ← selectRecords entity (keyed institutionId recordKey)
    return (rows.map (rowToRecord entity)).head?

/-- The checks of `update_record_fields` on its changes. -/
def assignmentsOf (entity : CanonicalEntity) (changes : Table String (Value N)) :
    Except StoreError (Table String (Value N)) :=
  changes.mapM fun c =>
    if !safeIdentifier c.1 then
      .error (.valueError ("unsafe column name: " ++ Python.repr N c.1))
    else if entity.naturalKey.contains c.1 then
      .error (.valueError ("natural key field cannot be updated: " ++ c.1))
    else do
      let item ← fieldOf (N := N) entity c.1
      return (c.1, boolParam item c.2)

/-- `update_record_fields`: the record before and after. -/
def updateRecordFields (institutionId : String) (entity : CanonicalEntity) (recordKey : String)
    (changes : Table String (Value N)) (locator stamp : String) :
    Method N D (RecordView N × RecordView N) :=
  if changes.isEmpty then throw (.valueError "no changes supplied")
  else do
    match ← getRecord institutionId entity recordKey with
    | none => throw (.keyError (entity.name ++ " record not found: " ++ recordKey))
    | some before => do
      let assignments ← raiseStoreError (assignmentsOf entity changes)
      inTenant institutionId do
        Database.update (TableName.records entity.name)
          (keyed institutionId recordKey : RecordOf N D → Bool)
          fun r : RecordRow N D => { r with content := editedRow assignments locator stamp r.content }
        let rows ← selectRecords entity (keyed (D := D) institutionId recordKey)
        return (before, ((rows.map (rowToRecord entity)).head?).getD before)

/-- `distinct_values`. -/
def distinctValues (sql : Sql N) (institutionId : String) (entity : CanonicalEntity)
    (column : String) (limit : Nat) : Method N D (List String) := do
  let _ ← raiseStoreError (fieldOf (N := N) entity column)
  inTenant institutionId do
    let rows ← selectRecords (D := D) entity fun r => r.tenant == institutionId &&
      !(r.row.content.columns column).isNull && !sql.equals (r.row.content.columns column) (.text "")
    let values := groupBy sql.grouped (rows.map fun r => (r.row.content.columns column, ()))
    return ((orderBy sql.before (values.map Prod.fst)).take (Ingestion.clampLimit limit 5000)).map
      Value.str

/-- `entity_counts`, of the entities there are. -/
def entityCounts (institutionId : String) (entities : List CanonicalEntity) :
    Method N D (List (String × Nat)) :=
  inTenant institutionId (entities.mapM fun entity => do
    let rows ← selectRecords (D := D) entity fun r => r.tenant == institutionId
    return (entity.name, rows.length))

/-- `delete_by_job`. -/
def deleteByJob (institutionId : String) (entity : CanonicalEntity) (ingestionJobId : String) :
    Method N D Nat :=
  inTenant institutionId (Database.delete (TableName.records entity.name)
    fun r : RecordOf N D => r.tenant == institutionId &&
      r.row.content.lineage.ingestionJobId == some ingestionJobId)

end GuruJi.Store
