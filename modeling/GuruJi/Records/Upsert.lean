import GuruJi.Records.Merge

/-!
# The store of an entity's records

One institution's table of one entity, and the operations that write it: `upsertRecords` (a merging
import), `updateRecordFields` and `deleteByJob`. An import decides each record over the rows it looked
up first (`decisions`), then writes what is pending, grouped by statement (`execute`).

* `get_execute`: the row of a key after the writes.
-/

namespace GuruJi.Records

open GuruJi.Lib

/-- The rows of one institution and entity by `record_key`. -/
abbrev Rows (N D : Type) := Table String (Row N D)

variable {N D : Type} [Python N]

/-- The other arguments of `upsert_records` in merging mode, and the time it takes. -/
structure ImportMode where
  mappedFields : List String
  keptAttributes : List String
  skipBlocking : Bool
  stamp : String

def mergeColumns (entity : CanonicalEntity) (mode : ImportMode) : List String :=
  entity.fieldNames.filter mode.mappedFields.contains

/-! ## The statement -/

/-- A row to write: `previous` is the hash of the row that was there. -/
structure Pending (N D : Type) where
  key : String
  previous : Option D
  values : Fields N
  attributes : Table String (Value N)
  notes : List String
  issues : List Issue
  contentHash : D
  lineage : RecordLineage
  rederived : List String

/-- A boolean column is bound as `0` or `1`. -/
def boolParam (item : CanonicalField) (v : Value N) : Value N :=
  if item.fieldType = .boolean ∧ !v.isNull then .int (if v.truthy then 1 else 0) else v

/-- The value bound to each column: a merge sends NULL for a blank one. -/
def bindValues (entity : CanonicalEntity) (value : Fields N) : Fields N := fun name =>
  match entity.field name with
  | some item => if (boolParam item (value name)).blank then .null else boolParam item (value name)
  | none => .null

/-- `INSERT INTO ... VALUES ...`. -/
def insertedRow (stamp : String) (p : Pending N D) : Row N D where
  columns := p.values
  attributes := p.attributes
  normalizations := p.notes
  issues := p.issues
  contentHash := p.contentHash
  lineage := p.lineage
  importedAt := stamp
  updatedAt := stamp

/-- `ON CONFLICT ... DO UPDATE SET ...`. -/
def updatedRow (columns : List String) (stamp : String) (p : Pending N D) (row : Row N D) :
    Row N D where
  columns := fun name =>
    if p.rederived.contains name then p.values name
    else if columns.contains name then
      if (p.values name).isNull then row.columns name else p.values name
    else row.columns name
  attributes := p.attributes
  normalizations := p.notes
  issues := p.issues
  contentHash := p.contentHash
  lineage := p.lineage
  importedAt := row.importedAt
  updatedAt := stamp

def upsertedRow (columns : List String) (stamp : String) (p : Pending N D) :
    Option (Row N D) → Row N D
  | none => insertedRow stamp p
  | some row => updatedRow columns stamp p row

def upsertRow (columns : List String) (stamp : String) (rows : Rows N D) (p : Pending N D) :
    Rows N D :=
  rows.assign p.key (upsertedRow columns stamp p (rows.get p.key))

/-- `by_statement`. -/
def byStatement (pending : List (Pending N D)) : Table (List String) (List (Pending N D)) :=
  pending.foldl (fun t p => t.push p.rederived p) []

def execute (columns : List String) (stamp : String) (rows : Rows N D)
    (pending : List (Pending N D)) : Rows N D :=
  ((byStatement pending).flatMap Prod.snd).foldl (upsertRow columns stamp) rows

/-! ## The import -/

variable {entity : CanonicalEntity}

/-- What an import does with a record. -/
inductive Decision (N D : Type) where
  | skip (reason : String) (key : String) (issues : List Issue)
  | unchanged
  | write (p : Pending N D)

/-- `not key.strip("|")`. -/
def missingKey (key : String) : Bool := key.toList.all (· = '|')

/-- Why a record is skipped before its row is looked at. -/
def skipReason (mode : ImportMode) (seen : List String) (record : CanonicalRecord N entity) :
    Option String :=
  if missingKey record.recordKey then some "missing_natural_key"
  else if mode.skipBlocking && record.hasBlockingIssues then some "blocking_issues"
  else if seen.contains record.recordKey then some "duplicate_in_batch"
  else none

def insertion (digest : List (String × Value N) → List (String × Value N) → D)
    (record : CanonicalRecord N entity) : Pending N D where
  key := record.recordKey
  previous := none
  values := bindValues entity record.fields
  attributes := record.attributes
  notes := record.normalizations
  issues := record.issues
  contentHash := rowHash digest entity record.fields record.attributes
  lineage := record.lineage
  rederived := []

def overwrite (row : Row N D) (record : CanonicalRecord N entity) (merged : Merged N D) :
    Pending N D where
  key := record.recordKey
  previous := some row.contentHash
  values := bindValues entity fun name =>
    if merged.rederived.contains name then merged.fields name
    else if merged.heldBack.contains name then .null
    else record.fields name
  attributes := merged.attributes
  notes := merged.notes
  issues := merged.issues
  contentHash := merged.contentHash
  lineage := record.lineage
  rederived := merged.rederived

variable [DecidableEq D]

/-- What an import does with a record once its row was looked up. -/
def consider (digest : List (String × Value N) → List (String × Value N) → D) (mode : ImportMode)
    (record : CanonicalRecord N entity) : Option (Row N D) → Decision N D
  | none => .write (insertion digest record)
  | some row =>
    let merged := mergeStored digest row record (mergeColumns entity mode) mode.keptAttributes
    if mode.skipBlocking && merged.blocking then
      .skip "blocking_issues_after_merge" record.recordKey
        (merged.issues.filter (·.severity = .error))
    else if row.contentHash = merged.contentHash then .unchanged
    else .write (overwrite row record merged)

/-- The loop over the records, with the keys seen so far. -/
def decisions (digest : List (String × Value N) → List (String × Value N) → D) (mode : ImportMode)
    (rows : Rows N D) : List String → List (CanonicalRecord N entity) → List (Decision N D)
  | _, [] => []
  | seen, record :: records =>
    match skipReason mode seen record with
    | some reason =>
      .skip reason record.recordKey [] :: decisions digest mode rows seen records
    | none =>
      consider digest mode record (rows.get record.recordKey) ::
        decisions digest mode rows (record.recordKey :: seen) records

def Decision.pending : Decision N D → Option (Pending N D)
  | .write p => some p
  | _ => none

def Decision.isUnchanged : Decision N D → Bool
  | .unchanged => true
  | _ => false

structure ImportSummary where
  inserted : Nat
  updated : Nat
  unchanged : Nat
  skipped : Nat
  insertedKeys : List String
  updatedKeys : List String
  skippedReasons : Table String Nat
  skippedKeys : List (String × String × List Issue)
  deriving DecidableEq

def skips (ds : List (Decision N D)) : List (String × String × List Issue) :=
  ds.filterMap fun
    | .skip reason key issues => some (key, reason, issues)
    | _ => none

def summarize (ds : List (Decision N D)) : ImportSummary :=
  let pending := ds.filterMap Decision.pending
  let inserted := pending.filter (·.previous.isNone)
  let updated := pending.filter (·.previous.isSome)
  { inserted := inserted.length
    updated := updated.length
    unchanged := ds.countP Decision.isUnchanged
    skipped := (skips ds).length
    insertedKeys := (inserted.map (·.key)).take 50
    updatedKeys := (updated.map (·.key)).take 50
    skippedReasons := (skips ds).foldl (fun t s => t.assign s.2.1 ((t.get s.2.1).getD 0 + 1)) []
    skippedKeys := ((skips ds).filter (·.2.1 = "blocking_issues_after_merge")).take 50 }

/-- `upsert_records` with `mapped_fields`. -/
def upsertRecords (digest : List (String × Value N) → List (String × Value N) → D)
    (mode : ImportMode) (rows : Rows N D) (records : List (CanonicalRecord N entity)) :
    Except String (Rows N D × ImportSummary) :=
  let unknown := sortBy id (mode.mappedFields.dedup.filter fun name =>
    !entity.fieldNames.contains name)
  if records.isEmpty then .error "no records to import"
  else if !unknown.isEmpty then
    .error ("not fields of " ++ entity.name ++ ": " ++ String.intercalate ", " unknown)
  else
    let ds := decisions digest mode rows [] records
    .ok (execute (mergeColumns entity mode) mode.stamp rows (ds.filterMap Decision.pending),
      summarize ds)

/-! ## Edits and deletions -/

/-- `_SAFE_IDENTIFIER`. -/
def safeIdentifier (name : String) : Bool :=
  let letter := fun c : Char => c.isLower || c = '_'
  match name.toList with
  | [] => false
  | c :: cs => letter c && cs.all (fun c => letter c || c.isDigit) && decide (cs.length ≤ 62)

def changedColumn (entity : CanonicalEntity) (name : String) : Except String CanonicalField :=
  if !safeIdentifier name then .error ("unsafe column name: " ++ Python.repr N name)
  else if entity.naturalKey.contains name then
    .error ("natural key field cannot be updated: " ++ name)
  else
    match entity.field name with
    | some item => .ok item
    | none => .error ("unknown canonical field: " ++ entity.name ++ "." ++ name)

/-- `UPDATE ... SET ...` of an edit. -/
def editedRow (assignments : Table String (Value N)) (locator stamp : String) (row : Row N D) :
    Row N D :=
  { row with
    columns := fun name => (assignments.get name).getD (row.columns name)
    lineage := { row.lineage with sourceLocator := some locator }
    updatedAt := stamp }

/-- `update_record_fields`. -/
def updateRecordFields (entity : CanonicalEntity) (rows : Rows N D) (recordKey : String)
    (changes : Table String (Value N)) (locator stamp : String) : Except String (Rows N D) :=
  if changes.isEmpty then .error "no changes supplied"
  else if (rows.get (Python.lower N recordKey)).isNone then
    .error (entity.name ++ " record not found: " ++ recordKey)
  else do
    let assignments ← changes.mapM fun c => do
      let item ← changedColumn (N := N) entity c.1
      return (c.1, boolParam item c.2)
    return rows.updateWhere (Python.lower N recordKey) (fun _ => true)
      (editedRow assignments locator stamp)

/-- `delete_by_job`, with the number of rows deleted. -/
def deleteByJob (rows : Rows N D) (ingestionJobId : String) : Rows N D × Nat :=
  let gone := fun e : String × Row N D => decide (e.2.lineage.ingestionJobId = some ingestionJobId)
  (rows.filter (fun e => !gone e), rows.countP gone)

/-! ## What is written -/

section
variable {N D : Type} (columns : List String) (stamp : String) (rows : Rows N D)
variable {pending : List (Pending N D)}

theorem get_upsertRow (p : Pending N D) (k : String) : (upsertRow columns stamp rows p).get k =
      if k = p.key then some (upsertedRow columns stamp p (rows.get k)) else rows.get k := by
  rw [upsertRow, Table.get_assign]
  split_ifs with hk
  · rw [hk]
  · rfl

theorem byStatement_perm (pending : List (Pending N D)) :
    ((byStatement pending).flatMap Prod.snd).Perm pending := by
  have hpush := Table.flatMap_foldl_push_perm pending Pending.rederived id []
  rwa [List.map_id] at hpush

theorem get_foldl_upsertRow (h : (pending.map (·.key)).Nodup) (k : String) :
    (∀ p ∈ pending, p.key = k → (pending.foldl (upsertRow columns stamp) rows).get k =
        some (upsertedRow columns stamp p (rows.get k))) ∧
      ((∀ p ∈ pending, p.key ≠ k) →
        (pending.foldl (upsertRow columns stamp) rows).get k = rows.get k) := by
  induction pending generalizing rows with
  | nil => simp
  | cons q pending ih =>
    obtain ⟨hq, h⟩ := List.nodup_cons.mp h
    obtain ⟨hin, hout⟩ := ih (upsertRow columns stamp rows q) h
    rw [List.foldl_cons]
    constructor
    · intro p hp hk
      rcases List.mem_cons.mp hp with rfl | hp
      · have hnot : ∀ p' ∈ pending, p'.key ≠ k := fun p' hp' heq =>
          hq (List.mem_map.mpr ⟨p', hp', heq.trans hk.symm⟩)
        rw [hout hnot, get_upsertRow, if_pos hk.symm]
      · have hne : k ≠ q.key := fun heq => hq (List.mem_map.mpr ⟨p, hp, hk.trans heq⟩)
        rw [hin p hp hk, get_upsertRow, if_neg hne]
    · intro hnot
      have hne : k ≠ q.key := fun heq => hnot q List.mem_cons_self heq.symm
      rw [hout fun p hp => hnot p (List.mem_cons_of_mem q hp), get_upsertRow, if_neg hne]

/-- **The row of a key after the writes**, whatever statement each goes through. -/
theorem get_execute (h : (pending.map (·.key)).Nodup) (k : String) :
    (∀ p ∈ pending, p.key = k → (execute columns stamp rows pending).get k =
        some (upsertedRow columns stamp p (rows.get k))) ∧
      ((∀ p ∈ pending, p.key ≠ k) → (execute columns stamp rows pending).get k = rows.get k) := by
  have hperm := byStatement_perm pending
  have hnodup := (hperm.map (·.key)).nodup_iff.mpr h
  obtain ⟨hin, hout⟩ := get_foldl_upsertRow columns stamp rows hnodup k
  exact ⟨fun p hp => hin p (hperm.mem_iff.mpr hp),
    fun hnot => hout fun p hp => hnot p (hperm.mem_iff.mp hp)⟩

theorem nodup_keys_execute (h : (rows.map Prod.fst).Nodup) :
    ((execute columns stamp rows pending).map Prod.fst).Nodup :=
  foldl_keeps (P := fun rows : Rows N D => (rows.map Prod.fst).Nodup)
    (fun p _ _ hrows => Table.nodup_keys_assign hrows p.key _) h

end

section
variable {digest : List (String × Value N) → List (String × Value N) → D} {mode : ImportMode}
variable {rows : Rows N D} {seen : List String} {record : CanonicalRecord N entity}
variable {records : List (CanonicalRecord N entity)}

theorem not_mem_of_skipReason (h : skipReason mode seen record = none) : record.recordKey ∉ seen := by
  rw [skipReason] at h
  split_ifs at h with _ _ hseen
  simpa using hseen

theorem consider_write {row : Option (Row N D)} {p : Pending N D}
    (h : consider digest mode record row = .write p) :
    p.key = record.recordKey ∧ p.previous = row.map (·.contentHash) := by
  cases row with
  | none =>
    cases h
    exact ⟨rfl, rfl⟩
  | some row =>
    rw [consider] at h
    split_ifs at h
    cases h
    exact ⟨rfl, rfl⟩

theorem consider_write_some {row : Row N D} {p : Pending N D}
    (h : consider digest mode record (some row) = .write p) :
    p = overwrite row record
      (mergeStored digest row record (mergeColumns entity mode) mode.keptAttributes) := by
  rw [consider] at h
  split_ifs at h
  cases h
  rfl

theorem mem_pending {N D : Type} {d : Decision N D} {p : Pending N D} :
    d.pending = some p ↔ d = .write p := by
  cases d <;> simp [Decision.pending]

/-- What is decided about a record: it is skipped unseen, or considered over its row. -/
theorem decided {d : Decision N D}
    (h : (record, d) ∈ records.zip (decisions digest mode rows seen records)) :
    (∃ reason, d = .skip reason record.recordKey []) ∨
      d = consider digest mode record (rows.get record.recordKey) := by
  induction records generalizing seen with
  | nil => cases h
  | cons first records ih =>
    rw [decisions] at h
    cases hskip : skipReason mode seen first with
    | some reason =>
      rw [hskip] at h
      rcases List.mem_cons.mp h with heq | h
      · obtain ⟨rfl, rfl⟩ := Prod.mk.inj heq
        exact .inl ⟨reason, rfl⟩
      · exact ih h
    | none =>
      rw [hskip] at h
      rcases List.mem_cons.mp h with heq | h
      · obtain ⟨rfl, rfl⟩ := Prod.mk.inj heq
        exact .inr rfl
      · exact ih h

theorem length_decisions : (decisions digest mode rows seen records).length = records.length := by
  induction records generalizing seen with
  | nil => rfl
  | cons record records ih =>
    rw [decisions]
    cases skipReason mode seen record <;> simp [ih]

theorem exists_of_write {p : Pending N D} (h : .write p ∈ decisions digest mode rows seen records) :
    ∃ record ∈ records, consider digest mode record (rows.get record.recordKey) = .write p := by
  have hzip : (records.zip (decisions digest mode rows seen records)).map Prod.snd =
      decisions digest mode rows seen records := List.map_snd_zip length_decisions.le
  rw [← hzip] at h
  obtain ⟨⟨record, d⟩, hmem, rfl⟩ := List.mem_map.mp h
  rcases decided hmem with ⟨reason, hskip⟩ | hconsider
  · cases hskip
  · exact ⟨record, (List.of_mem_zip hmem).1, hconsider.symm⟩

theorem pending_decisions
    (digest : List (String × Value N) → List (String × Value N) → D) (mode : ImportMode)
    (rows : Rows N D) (seen : List String)
    (records : List (CanonicalRecord N entity)) :
    (((decisions digest mode rows seen records).filterMap Decision.pending).map (·.key)).Nodup ∧
      ∀ p, .write p ∈ decisions digest mode rows seen records → p.key ∉ seen := by
  induction records generalizing seen with
  | nil => simp [decisions]
  | cons record records ih =>
    rw [decisions]
    cases hskip : skipReason mode seen record with
    | some reason =>
      obtain ⟨hnodup, hseen⟩ := ih seen
      exact ⟨hnodup, fun p hp => hseen p (by simpa using hp)⟩
    | none =>
      obtain ⟨hnodup, hseen⟩ := ih (record.recordKey :: seen)
      constructor
      · dsimp only
        cases hpending : (consider digest mode record (rows.get record.recordKey)).pending with
        | none => rwa [List.filterMap_cons_none hpending]
        | some p =>
          have hkey := (consider_write (mem_pending.mp hpending)).1
          rw [List.filterMap_cons_some hpending, List.map_cons, List.nodup_cons]
          refine ⟨fun hmem => ?_, hnodup⟩
          obtain ⟨q, hq, heq⟩ := List.mem_map.mp hmem
          obtain ⟨d, hd, hwrite⟩ := List.mem_filterMap.mp hq
          have hnot := hseen q (mem_pending.mp hwrite ▸ hd)
          exact hnot (heq.trans hkey ▸ List.mem_cons_self)
      · intro p hp
        rcases List.mem_cons.mp hp with hp | hp
        · rw [(consider_write hp.symm).1]
          exact not_mem_of_skipReason hskip
        · exact fun hmem => hseen p hp (List.mem_cons_of_mem _ hmem)

end

/-! ## Rows one by one -/

section
variable {N D : Type}

/-- One row a key, and `P` of every row under its key. -/
def AllRows (P : String → Row N D → Prop) (rows : Rows N D) : Prop :=
  (rows.map Prod.fst).Nodup ∧ ∀ k row, rows.get k = some row → P k row

variable {P : String → Row N D → Prop} {rows rows' : Rows N D}

theorem allRows_nil : AllRows P [] := ⟨List.nodup_nil, fun _ _ hget => by cases hget⟩

theorem AllRows.deleteByJob (h : AllRows P rows) (ingestionJobId : String) :
    AllRows P (Records.deleteByJob rows ingestionJobId).1 :=
  ⟨(List.filter_sublist.map Prod.fst).nodup h.1,
    fun k row hget => h.2 k row (Table.get_of_get_filter h.1 hget)⟩

variable [Python N] {entity : CanonicalEntity}

/-- What `update_record_fields` assigns for its changes. -/
def AssignedBy (entity : CanonicalEntity) (changes assignments : Table String (Value N)) : Prop :=
  ∀ e ∈ assignments, e.1 ∉ entity.naturalKey ∧ ∃ c ∈ changes, c.1 = e.1 ∧ ∃ item,
    entity.field c.1 = some item ∧ e.2 = boolParam item c.2

theorem changedColumn_ok {name : String} {item : CanonicalField}
    (h : changedColumn (N := N) entity name = .ok item) :
    name ∉ entity.naturalKey ∧ entity.field name = some item := by
  rw [changedColumn] at h
  split_ifs at h with _ hkey
  refine ⟨fun hmem => hkey (List.contains_iff_mem.mpr hmem), ?_⟩
  cases hfield : entity.field name with
  | none =>
    rw [hfield] at h
    cases h
  | some item' =>
    rw [hfield] at h
    exact congrArg some (Except.ok.inj h)

theorem updateRecordFields_ok {recordKey locator stamp : String} {changes : Table String (Value N)}
    (h : updateRecordFields entity rows recordKey changes locator stamp = .ok rows') :
    ∃ assignments, rows' = rows.updateWhere (Python.lower N recordKey) (fun _ => true)
        (editedRow assignments locator stamp) ∧ AssignedBy entity changes assignments := by
  rw [updateRecordFields] at h
  split_ifs at h
  cases hassignments : changes.mapM fun c => do
      let item ← changedColumn (N := N) entity c.1
      return (c.1, boolParam item c.2) with
  | error e =>
    rw [hassignments] at h
    cases h
  | ok assignments =>
    rw [hassignments] at h
    refine ⟨assignments, (Except.ok.inj h).symm, fun e he => ?_⟩
    obtain ⟨c, hc, hvalue⟩ := mem_of_mapM_ok hassignments he
    cases hitem : changedColumn (N := N) entity c.1 with
    | error e =>
      rw [hitem] at hvalue
      cases hvalue
    | ok item =>
      rw [hitem] at hvalue
      obtain rfl := Except.ok.inj hvalue
      obtain ⟨hkey, hfield⟩ := changedColumn_ok hitem
      exact ⟨hkey, c, hc, rfl, item, hfield, rfl⟩

section
variable [DecidableEq D] {digest : List (String × Value N) → List (String × Value N) → D}
variable {mode : ImportMode} {records : List (CanonicalRecord N entity)} {summary : ImportSummary}

/-- An import leaves a row as it was, or writes it as it decided over the row that was there. -/
theorem upsertRecords_get (hrun : upsertRecords digest mode rows records = .ok (rows', summary))
    (k : String) : rows'.get k = rows.get k ∨ ∃ record ∈ records, record.recordKey = k ∧
      ∃ p, consider digest mode record (rows.get k) = .write p ∧
        rows'.get k = some (upsertedRow (mergeColumns entity mode) mode.stamp p (rows.get k)) := by
  rw [upsertRecords] at hrun
  split_ifs at hrun
  obtain ⟨rfl, -⟩ := Prod.mk.inj (Except.ok.inj hrun)
  obtain ⟨hwritten, hothers⟩ := get_execute (mergeColumns entity mode) mode.stamp rows
    (pending_decisions digest mode rows [] records).1 k
  by_cases hp : ∃ p ∈ (decisions digest mode rows [] records).filterMap Decision.pending, p.key = k
  · obtain ⟨p, hp, hk⟩ := hp
    obtain ⟨d, hd, hpending⟩ := List.mem_filterMap.mp hp
    obtain ⟨record, hrecord, hconsider⟩ := exists_of_write (mem_pending.mp hpending ▸ hd)
    have hkey := (consider_write hconsider).1.symm.trans hk
    exact .inr ⟨record, hrecord, hkey, p, hkey ▸ hconsider, hwritten p hp hk⟩
  · exact .inl (hothers fun p hmem hk => hp ⟨p, hmem, hk⟩)

theorem decisions_eq_map {seen : List String} (hnodup : (records.map (·.recordKey)).Nodup)
    (hsound : ∀ record ∈ records, missingKey record.recordKey = false ∧
      record.hasBlockingIssues = false ∧ record.recordKey ∉ seen) :
    decisions digest mode rows seen records =
      records.map fun record => consider digest mode record (rows.get record.recordKey) := by
  induction records generalizing seen with
  | nil => rfl
  | cons record records ih =>
    obtain ⟨hnew, hnodup⟩ := List.nodup_cons.mp hnodup
    obtain ⟨hkey, hblocking, hseen⟩ := hsound record List.mem_cons_self
    have hskip : skipReason mode seen record = none := by
      simp [skipReason, hkey, hblocking, hseen]
    rw [decisions, hskip, List.map_cons]
    refine congrArg _ (ih hnodup fun other hother => ?_)
    obtain ⟨hkey', hblocking', hseen'⟩ := hsound other (List.mem_cons_of_mem _ hother)
    refine ⟨hkey', hblocking', fun hmem => ?_⟩
    rcases List.mem_cons.mp hmem with heq | hmem
    · exact hnew (List.mem_map.mpr ⟨other, hother, heq⟩)
    · exact hseen' hmem

theorem upsertRecords_stores (hrun : upsertRecords digest mode rows records = .ok (rows', summary))
    (hnodup : (records.map (·.recordKey)).Nodup)
    (hsound : ∀ record ∈ records, missingKey record.recordKey = false ∧
      record.hasBlockingIssues = false) {record : CanonicalRecord N entity}
    (hrecord : record ∈ records) : (rows'.get record.recordKey).isSome = true := by
  cases hget : rows.get record.recordKey with
  | some row =>
    rcases upsertRecords_get hrun record.recordKey with hsame | ⟨_, _, _, _, _, hrow⟩
    · rw [hsame, hget]
      rfl
    · rw [hrow]
      rfl
  | none =>
    rw [upsertRecords] at hrun
    split_ifs at hrun
    obtain ⟨rfl, -⟩ := Prod.mk.inj (Except.ok.inj hrun)
    have hwrite : Decision.write (insertion digest record) ∈
        decisions digest mode rows [] records := by
      rw [decisions_eq_map hnodup fun r hr => ⟨(hsound r hr).1, (hsound r hr).2, List.not_mem_nil⟩]
      exact List.mem_map.mpr ⟨record, hrecord, by rw [hget]; rfl⟩
    have hpending : insertion digest record ∈
        (decisions digest mode rows [] records).filterMap Decision.pending :=
      List.mem_filterMap.mpr ⟨_, hwrite, rfl⟩
    rw [(get_execute (mergeColumns entity mode) mode.stamp rows
      (pending_decisions digest mode rows [] records).1 record.recordKey).1 _ hpending rfl]
    rfl

/-- What holds of the rows before an import, and of every row that it writes, holds after it. -/
theorem AllRows.upsertRecords (h : AllRows P rows)
    (hrun : Records.upsertRecords digest mode rows records = .ok (rows', summary))
    (hwrite : ∀ record ∈ records, ∀ p,
      consider digest mode record (rows.get record.recordKey) = .write p →
        P record.recordKey (upsertedRow (mergeColumns entity mode) mode.stamp p
          (rows.get record.recordKey))) : AllRows P rows' := by
  refine ⟨?_, fun k row hget => ?_⟩
  · rw [Records.upsertRecords] at hrun
    split_ifs at hrun
    obtain ⟨rfl, -⟩ := Prod.mk.inj (Except.ok.inj hrun)
    exact nodup_keys_execute _ _ _ h.1
  · rcases upsertRecords_get hrun k with hsame | ⟨record, hrecord, rfl, p, hconsider, hrow⟩
    · exact h.2 k row (hsame ▸ hget)
    · rw [hrow] at hget
      exact Option.some.inj hget ▸ hwrite record hrecord p hconsider

end

theorem AllRows.updateRecordFields {recordKey locator stamp : String}
    {changes : Table String (Value N)} (h : AllRows P rows)
    (hrun : Records.updateRecordFields entity rows recordKey changes locator stamp = .ok rows')
    (hedit : ∀ row, rows.get (Python.lower N recordKey) = some row → ∀ assignments,
      AssignedBy entity changes assignments →
        P (Python.lower N recordKey) (editedRow assignments locator stamp row)) :
    AllRows P rows' := by
  obtain ⟨assignments, rfl, hchanges⟩ := updateRecordFields_ok hrun
  refine ⟨(Table.keys_updateWhere rows _ _ _).symm ▸ h.1, fun k row hget => ?_⟩
  by_cases hk : k = Python.lower N recordKey
  · rw [hk, Table.get_updateWhere_self] at hget
    obtain ⟨row', hrow', rfl⟩ := Option.map_eq_some_iff.mp hget
    exact hk ▸ hedit row' hrow' assignments hchanges
  · rw [Table.get_updateWhere_ne _ _ _ hk] at hget
    exact h.2 k row hget

end

end GuruJi.Records
