import GuruJi.Ingestion.Duplicates
import GuruJi.Ingestion.Reviews
import GuruJi.Records.Honest

/-!
# Normalising a job

`normalize` compares the rows of a job that can be imported with each other and with the records that
exist, writes the staged rows back and asks a reviewer what it cannot decide. Mapping and cleaning a
row is left open: a `Prepared` row is any row with any record of it.

* `normalize_asks`: what is ready, what waits for a review, and what is asked.
-/

namespace GuruJi.Ingestion

open GuruJi.Lib GuruJi.Records

variable {N D : Type} [Python N] {entity : CanonicalEntity} {maxRows : Nat}

/-- A staged row with the record that mapping, cleaning and validating make of it. -/
structure Prepared (N : Type) [Python N] (entity : CanonicalEntity) where
  row : StagedRow N entity
  normalized : Normalized N entity
  located : normalized.record.lineage.sourceLocator = some row.locator

def Prepared.record (p : Prepared N entity) : CanonicalRecord N entity := p.normalized.record

/-- The rows of a job in the order they are read. A parser gives each row of a table a locator of its
own; the tables of a job are the sheets of one workbook, or one table. -/
structure Batch (N : Type) [Python N] (entity : CanonicalEntity) (maxRows : Nat) where
  prepared : List (Prepared N entity)
  fits : prepared.length ≤ recordsLimit maxRows
  ordered : Chronological (fun p : Prepared N entity => p.row.order) prepared
  distinct : (prepared.map (·.row.locator)).Nodup
  located : ∀ p ∈ prepared, p.row.locator ≠ ""

/-! ## The records that exist -/

/-- `MAX_QUERY_ROWS`. -/
def maxQueryRows : Nat := 5000

/-- `existing_keys`. -/
def existingKeys (entity : CanonicalEntity) (store : Rows N D) (keys : List String) :
    Table String (Fields N) :=
  (store.filter fun e => keys.contains e.1).map fun e => (e.1, storedFields entity e.2)

def personClauses (records : List (CanonicalRecord N entity)) : List (String × List String) :=
  (["name", "phone", "email"].filter entity.fieldNames.contains).filterMap fun column =>
    let cleaned := (sortBy id (((records.map (·.fields column)).filter Value.truthy).map fun v =>
      Python.lower N (Records.strip (Python.isSpace N) v.str)).dedup).take 500
    if cleaned.isEmpty then none else some (column, cleaned)

/-- A possible answer of `lookup_person_matches`: which rows a limit leaves is up to the database,
as is its `LOWER`. -/
structure PersonMatches (lower : String → String) (records : List (CanonicalRecord N entity))
    (store : Rows N D) (found : Table String (Fields N)) : Prop where
  matching : ∀ e ∈ found, ∃ row, store.get e.1 = some row ∧ e.2 = storedFields entity row ∧
    ∃ clause ∈ personClauses records, ∃ s, row.columns clause.1 = .text s ∧ lower s ∈ clause.2
  limited : found.length ≤ clampLimit 2000 maxQueryRows

/-- `existing.setdefault(key, value)` for each match. -/
def withPeople (existing people : Table String (Fields N)) : Table String (Fields N) :=
  people.foldl (fun t e => if (t.get e.1).isSome then t else t.insert e.1 e.2) existing

/-! ## Stored marks -/

/-- `_MARK_FIELDS`. -/
def markFields : List String := ["marks_obtained", "max_marks", "grade", "result_status"]

/-- `value not in (None, "")`. -/
def given : Value N → Bool
  | .null => false
  | .text s => s ≠ ""
  | _ => true

/-- `_same_value`. -/
def sameValue (new stored : Value N) : Bool :=
  if !given stored then false
  else
    match new.toNumber, stored.toNumber with
    | some x, some y => Python.same x y
    | _, _ => Python.lower N (Records.strip (Python.isSpace N) new.str) =
        Python.lower N (Records.strip (Python.isSpace N) stored.str)

/-- The body of `_stored_marks_replaced`. -/
def storedMarksReplaced (existing : Table String (Fields N)) (index : Nat)
    (record : CanonicalRecord N entity) : RowAction → RowAction × Option (DuplicateCandidate N)
  | .update =>
    let stored := (existing.get record.recordKey).getD fun _ => .null
    let differing := markFields.filter fun name =>
      given (record.fields name) && !sameValue (record.fields name) (stored name)
    if differing.isEmpty then (.update, none)
    else (.replacesStoredMarks, some ⟨.conflictingKey, locatorOf index record, none,
      some record.recordKey, ratioOf 95 100,
      [("differing_fields", .columns differing), ("exam_name", .value (record.fields "exam_name")),
        ("stored", .values (differing.map fun name => (name, stored name))),
        ("new", .values (differing.map fun name => (name, record.fields name)))]⟩)
  | action => (action, none)

/-- `str(item.evidence.get("exam_name"))`. -/
def examName (c : DuplicateCandidate N) : String :=
  match c.evidence.get "exam_name" with
  | some (.value v) => v.str
  | _ => "None"

/-! ## The rows written back -/

def statusOf : RowAction → RowStatus
  | .conflictInBatch | .replacesStoredMarks => .review
  | .duplicateInBatch | .missingKey => .skipped
  | _ => .ready

def Prepared.blocked (p : Prepared N entity) : Bool := p.record.hasBlockingIssues

def Prepared.staged (p : Prepared N entity) (status : RowStatus) (action : RowAction) :
    StagedRow N entity :=
  { p.row with
    normalized := some p.normalized
    status, action
    recordKey := some p.record.recordKey
    carried := fun _ => rfl
    keyed := fun n hn => by rw [← Option.some.inj hn]; rfl }

/-- `updated_rows`: the actions are those of the rows that can be imported. -/
def updatedRows : List (Prepared N entity) → List RowAction → List (StagedRow N entity)
  | [], _ => []
  | p :: ps, actions =>
    if p.blocked then p.staged .rejected .insert :: updatedRows ps actions
    else
      let action := actions.headD .insert
      p.staged (statusOf action) action :: updatedRows ps actions.tail

/-- `_stored_marks_replaced` over the rows that can be imported, with their positions. -/
def replaceMarks (existing : Table String (Fields N)) (indexed : List (Prepared N entity × Nat))
    (actions : List RowAction) : List (RowAction × Option (DuplicateCandidate N)) :=
  List.zipWith (fun e action => storedMarksReplaced existing e.2 e.1.record action) indexed actions

/-- What `_normalize` leaves: the rows, and what it found. -/
structure Normalization (N : Type) [Python N] (entity : CanonicalEntity) where
  rows : List (StagedRow N entity)
  candidates : List (DuplicateCandidate N)
  warnings : List String

/-- `review_items`. -/
def Normalization.questions (result : Normalization N entity) : List (DuplicateCandidate N) :=
  result.candidates.filter fun c => c.kind = .conflictingKey || c.kind = .probablePerson

section
variable [DecidableEq D] [Similarity N]

/-- `_normalize`, from the prepared rows on. -/
def normalize (digest : List (String × Value N) → List (String × Value N) → D)
    (batch : Batch N entity maxRows) (reshapedMarks : Bool) (store : Rows N D)
    (people : Table String (Fields N)) : Normalization N entity :=
  let records := batch.prepared.map Prepared.record
  let stored := existingKeys entity store
    ((records.map (·.recordKey)).filter fun key => !missingKey key)
  let existing := if isPerson entity then withPeople stored people else stored
  let importable := batch.prepared.zipIdx.filter fun e => !e.1.blocked
  let found := findDuplicates digest (importable.map fun e => e.1.record) existing
  let replaced : List (RowAction × Option (DuplicateCandidate N)) :=
    if entity.name = "exam" && reshapedMarks then
      replaceMarks existing importable found.actions
    else found.actions.map fun action => (action, none)
  let replacing := replaced.filterMap Prod.snd
  ⟨updatedRows batch.prepared (replaced.map Prod.fst), found.candidates ++ replacing,
    found.warnings ++ if replacing.isEmpty then [] else
      [toString replacing.length ++ " rows would replace marks already stored for exam " ++
        String.intercalate ", " (sortBy id (replacing.map examName).dedup) ++
        "; each waits for a decision: keep the stored marks or use the row"]⟩

end

/-- `_nothing_importable`. -/
def nothingImportable (rows : List (StagedRow N entity)) : String :=
  let rejected := rows.filter fun row => row.status = .rejected
  let errors := Table.counts (rejected.flatMap fun row =>
    ((row.normalized.elim [] fun n => n.record.issues).filter (·.severity = .error)).map fun i =>
      i.field ++ " " ++ i.code)
  let noKey := rows.countP fun row => row.status ≠ .rejected && row.action = .missingKey
  let common := (sortBy (fun e => -(e.2 : Int)) errors).take 3
  let detail := String.intercalate ", " (common.map fun e => e.1 ++ " (" ++ toString e.2 ++ ")")
  let reasons :=
    (if rejected.isEmpty then [] else
        [toString rejected.length ++ " have errors" ++ if detail = "" then "" else ": " ++ detail]) ++
      if noKey = 0 then [] else [toString noKey ++ " have no identifier"]
  upTo 500 ("none of the " ++ toString rows.length ++ " rows can be imported (" ++
    (if reasons.isEmpty then "no row is eligible" else String.intercalate "; " reasons) ++
    "); check the column mapping and the file, then retry the job to map it again")

/-- Where `_normalize` leaves the job. -/
def Normalization.outcome (result : Normalization N entity) : JobStatus × Stage × Option String :=
  if !result.rows.any fun row => row.status = .ready || row.status = .review then
    (.failed, .normalizing, some (nothingImportable result.rows))
  else if !result.questions.isEmpty then (.needsReview, .duplicateReview, none)
  else (.ready, .ready, none)

/-! ## What is ready and what is asked -/

/-- `str(row.get("record_key") or "")`. -/
def StagedRow.key (row : StagedRow N entity) : String := row.recordKey.getD ""

/-- The first row of its key among those that can be imported. -/
def FirstRow (rows : List (StagedRow N entity)) (row : StagedRow N entity) : Prop :=
  row ∈ rows ∧ row.status ≠ .rejected ∧ missingKey row.key = false ∧
    ∀ other ∈ rows, other.status ≠ .rejected → other.key = row.key → row.order ≤ other.order

/-- The rows that normalising leaves, against what it asks and the keys that are known to exist. -/
structure Asks (rows : List (StagedRow N entity)) (questions : List (DuplicateCandidate N))
    (known : String → Prop) : Prop where
  distinct : (rows.map (·.locator)).Nodup
  located : ∀ row ∈ rows, row.locator ≠ ""
  unblocked : ∀ row ∈ rows, row.status ≠ .rejected → ∀ n, row.normalized = some n →
    n.record.hasBlockingIssues = false
  kinds : ∀ q ∈ questions, q.kind = .conflictingKey ∨ q.kind = .probablePerson
  /-- No row is asked about twice as a copy. -/
  once : ((questions.filter (·.kind = .conflictingKey)).map (·.leftLocator)).Nodup
  /-- What is ready is the first of its key; what waits for a review is asked about. -/
  ready : ∀ row ∈ rows, row.status = .ready → FirstRow rows row
  review : ∀ row ∈ rows, row.status = .review → missingKey row.key = false ∧
    ∃ q ∈ questions, q.kind = .conflictingKey ∧ q.leftLocator = row.locator
  /-- The first row of a key is ready, or would replace something known. -/
  first : ∀ row, FirstRow rows row → row.status = .ready ∨ row.status = .review ∧ known row.key
  conflicting : ∀ q ∈ questions, q.kind = .conflictingKey →
    ∃ row ∈ rows, row.status = .review ∧ q.leftLocator = row.locator
  /-- People are asked about by the first rows of their keys, the earlier one on the left. -/
  person : ∀ q ∈ questions, q.kind = .probablePerson →
    ∃ row, FirstRow rows row ∧ q.leftLocator = row.locator ∧
      ((∃ other, FirstRow rows other ∧ row.order < other.order ∧
          q.rightLocator = some other.locator) ∨
        q.rightLocator = none ∧ ∃ k, q.recordKey = some k ∧ known k)

section
variable {batch : Batch N entity maxRows} {p : Prepared N entity} {ps : List (Prepared N entity)}
variable {actions : List RowAction}

theorem updatedRows_locators (ps : List (Prepared N entity)) (actions : List RowAction) :
    (updatedRows ps actions).map (·.locator) = ps.map (·.row.locator) := by
  induction ps generalizing actions with
  | nil => rfl
  | cons p ps ih =>
    rw [updatedRows]
    split_ifs
    · exact congrArg _ (ih actions)
    · exact congrArg _ (ih actions.tail)

theorem mem_updatedRows {row : StagedRow N entity}
    (h : actions.length = (ps.filter fun p => !p.blocked).length) :
    row ∈ updatedRows ps actions ↔
      (∃ p ∈ ps, p.blocked = true ∧ row = p.staged .rejected .insert) ∨
        ∃ (i : Nat) (p : _) (action : _), (ps.filter fun p => !p.blocked)[i]? = some p ∧
          actions[i]? = some action ∧ row = p.staged (statusOf action) action := by
  induction ps generalizing actions with
  | nil => simp [updatedRows]
  | cons p ps ih =>
    rw [updatedRows]
    by_cases hp : p.blocked = true
    · rw [List.filter_cons_of_neg (by simp [hp])] at h ⊢
      rw [if_pos hp, List.mem_cons, ih h, List.exists_mem_cons_iff, or_assoc]
      simp only [hp, true_and]
    · rw [List.filter_cons_of_pos (by simp [hp])] at h ⊢
      cases actions with
      | nil => cases h
      | cons action actions =>
        rw [if_neg hp, List.mem_cons, List.tail_cons, ih (Nat.succ.inj h), List.exists_mem_cons_iff,
          List.headD_cons]
        constructor
        · rintro (rfl | ⟨q, hq, hblocked, rfl⟩ | ⟨i, q, a, hi, ha, rfl⟩)
          · exact .inr ⟨0, p, action, rfl, rfl, rfl⟩
          · exact .inl (.inr ⟨q, hq, hblocked, rfl⟩)
          · exact .inr ⟨i + 1, q, a, hi, ha, rfl⟩
        · rintro ((⟨hblocked, -⟩ | ⟨q, hq, hblocked, rfl⟩) | ⟨i, q, a, hi, ha, rfl⟩)
          · exact absurd hblocked hp
          · exact .inr (.inl ⟨q, hq, hblocked, rfl⟩)
          · cases i with
            | zero =>
              obtain rfl := Option.some.inj hi
              obtain rfl := Option.some.inj ha
              exact .inl rfl
            | succ i => exact .inr (.inr ⟨i, q, a, hi, ha, rfl⟩)

theorem storedMarksReplaced_cases (existing : Table String (Fields N)) (index : Nat)
    (record : CanonicalRecord N entity) (action : RowAction) :
    storedMarksReplaced existing index record action = (action, none) ∨
      action = .update ∧ ∃ c, c.kind = .conflictingKey ∧ c.leftLocator = locatorOf index record ∧
        storedMarksReplaced existing index record action = (.replacesStoredMarks, some c) := by
  cases action with
  | update =>
    simp only [storedMarksReplaced]
    split_ifs
    · exact .inl rfl
    · exact .inr ⟨trivial, _, rfl, rfl, rfl⟩
  | _ => exact .inl rfl

def Batch.importable (batch : Batch N entity maxRows) : List (Prepared N entity) :=
  batch.prepared.filter fun p => !p.blocked

/-- The actions of the rows that can be imported, in their order, against what is asked. -/
structure Places (batch : Batch N entity maxRows) (actions : List RowAction)
    (questions : List (DuplicateCandidate N)) (known : String → Prop) : Prop where
  length : actions.length = batch.importable.length
  once : ((questions.filter (·.kind = .conflictingKey)).map (·.leftLocator)).Nodup
  placed : ∀ (i : Nat) p action, batch.importable[i]? = some p → actions[i]? = some action →
    statusOf action = .skipped ∧ ¬ FirstCopy (batch.importable.map Prepared.record) i p.record ∨
    statusOf action = .ready ∧ FirstCopy (batch.importable.map Prepared.record) i p.record ∨
    statusOf action = .review ∧ missingKey p.record.recordKey = false ∧
      (∃ q ∈ questions, q.kind = .conflictingKey ∧ q.leftLocator = p.row.locator) ∧
      (FirstCopy (batch.importable.map Prepared.record) i p.record → known p.record.recordKey)
  conflicting : ∀ q ∈ questions, q.kind = .conflictingKey → ∃ (i : Nat) (p : _) (action : _),
    batch.importable[i]? = some p ∧ actions[i]? = some action ∧ statusOf action = .review ∧
      q.leftLocator = p.row.locator
  person : ∀ q ∈ questions, q.kind = .probablePerson → ∃ (i : Nat) (p : _),
    batch.importable[i]? = some p ∧
      FirstCopy (batch.importable.map Prepared.record) i p.record ∧
      q.leftLocator = p.row.locator ∧
      ((∃ (j : Nat) (p' : _), i < j ∧ batch.importable[j]? = some p' ∧
          FirstCopy (batch.importable.map Prepared.record) j p'.record ∧
          q.rightLocator = some p'.row.locator) ∨
        q.rightLocator = none ∧ ∃ k, q.recordKey = some k ∧ known k)

theorem locatorOf_record (hp : p ∈ batch.prepared) (i : Nat) : locatorOf i p.record = p.row.locator := by
  rw [locatorOf, Prepared.record, p.located, Option.filter_some,
    if_pos (by simpa using batch.located p hp), Option.getD_some]

theorem Batch.mem_of_importable {i : Nat} (hi : batch.importable[i]? = some p) :
    p ∈ batch.prepared := List.mem_of_mem_filter (List.mem_of_getElem? hi)

theorem exists_importable {i : Nat} {record : CanonicalRecord N entity}
    (hi : (batch.importable.map Prepared.record)[i]? = some record) :
    ∃ p, batch.importable[i]? = some p ∧ p.record = record := by
  rw [List.getElem?_map] at hi
  exact Option.map_eq_some_iff.mp hi

theorem nodup_locators (batch : Batch N entity maxRows) : (batch.importable.map (·.row.locator)).Nodup :=
  ((List.filter_sublist (p := fun p : Prepared N entity => !p.blocked)).map _).nodup batch.distinct

theorem locatorOf_importable (batch : Batch N entity maxRows) :
    (batch.importable.map Prepared.record).zipIdx.map (fun e => locatorOf e.2 e.1) =
      batch.importable.map (·.row.locator) := by
  refine List.ext_getElem? fun i => ?_
  rw [List.getElem?_map, List.getElem?_zipIdx, List.getElem?_map, List.getElem?_map]
  cases hi : batch.importable[i]? with
  | none => rfl
  | some p => exact congrArg some (locatorOf_record (Batch.mem_of_importable hi) _)

variable {known : String → Prop} {found : Duplicates N} {existing : Table String (Fields N)}

theorem Places.of_compared (h : Compared (batch.importable.map Prepared.record) existing found)
    (hknown : ∀ k, (existing.get k).isSome = true → known k) :
    Places batch found.actions found.candidates known := by
  have hsublist := h.once
  rw [locatorOf_importable] at hsublist
  refine ⟨by simpa using h.length, hsublist.nodup (nodup_locators batch),
    fun i p action hi haction => ?_, fun q hq hkind => ?_, fun q hq hkind => ?_⟩
  · have hrecord : (batch.importable.map Prepared.record)[i]? = some p.record := by
      rw [List.getElem?_map, hi]
      rfl
    obtain ⟨c, hstands, hasked⟩ := h.stands i p.record action hrecord haction
    cases hstands with
    | keyless hkey =>
      refine .inl ⟨rfl, fun hfirst => ?_⟩
      rw [hfirst.2.1] at hkey
      cases hkey
    | inserts hfirst => exact .inr (.inl ⟨rfl, hfirst⟩)
    | updates hfirst _ => exact .inr (.inl ⟨rfl, hfirst⟩)
    | repeats hlater c _ => exact .inl ⟨rfl, hlater⟩
    | conflicts hkey hlater c hkind hleft =>
      refine .inr (.inr ⟨rfl, hkey, ⟨c, hasked c rfl, hkind, ?_⟩, fun hfirst => absurd hfirst hlater⟩)
      rw [hleft, locatorOf_record (Batch.mem_of_importable hi)]
  · obtain ⟨i, record, hi, haction, hleft⟩ := h.conflicting q hq hkind
    obtain ⟨p, hp, rfl⟩ := exists_importable hi
    exact ⟨i, p, _, hp, haction, rfl, hleft.trans (locatorOf_record (Batch.mem_of_importable hp) i)⟩
  · obtain ⟨-, i, record, hfirst, hleft, hright⟩ := h.person q hq hkind
    obtain ⟨p, hp, rfl⟩ := exists_importable hfirst.1
    refine ⟨i, p, hp, hfirst, hleft.trans (locatorOf_record (Batch.mem_of_importable hp) i),
      hright.imp ?_ ?_⟩
    · rintro ⟨j, other, hlt, hother, hright⟩
      obtain ⟨p', hp', rfl⟩ := exists_importable hother.1
      exact ⟨j, p', hlt, hp', hother, hright.trans p'.located⟩
    · rintro ⟨hnone, k, hk, hsome⟩
      exact ⟨hnone, k, hk, hknown k hsome⟩

theorem getElem?_replaceMarks {indexed : List (Prepared N entity × Nat)} {i : Nat}
    {result : RowAction × Option (DuplicateCandidate N)}
    (h : (replaceMarks existing indexed actions)[i]? = some result) :
    ∃ e action, indexed[i]? = some e ∧ actions[i]? = some action ∧
      result = storedMarksReplaced existing e.2 e.1.record action := by
  rw [replaceMarks, List.getElem?_zipWith] at h
  split at h
  · exact ⟨_, _, ‹_›, ‹_›, (Option.some.inj h).symm⟩
  · cases h

theorem Places.of_replaced {indexed : List (Prepared N entity × Nat)}
    (h : Compared (batch.importable.map Prepared.record) existing found)
    (hindexed : indexed.map Prod.fst = batch.importable)
    (hknown : ∀ k, (existing.get k).isSome = true → known k) :
    Places batch ((replaceMarks existing indexed found.actions).map Prod.fst)
      (found.candidates ++ (replaceMarks existing indexed found.actions).filterMap Prod.snd)
      known := by
  have hplaces := Places.of_compared h hknown
  have hlength : indexed.length = batch.importable.length := by rw [← hindexed, List.length_map]
  -- a result is the one of a row, at its position
  have hresult : ∀ {i : Nat} {result}, (replaceMarks existing indexed found.actions)[i]? = some result →
      ∃ p action index, batch.importable[i]? = some p ∧ found.actions[i]? = some action ∧
        result = storedMarksReplaced existing index p.record action := by
    intro i result hi
    obtain ⟨e, action, he, haction, rfl⟩ := getElem?_replaceMarks hi
    exact ⟨e.1, action, e.2, by rw [← hindexed, List.getElem?_map, he]; rfl, haction, rfl⟩
  -- a candidate comes from a row that would update
  have hreplaced : ∀ {i : Nat} {result} {c : DuplicateCandidate N},
      (replaceMarks existing indexed found.actions)[i]? = some result → result.2 = some c →
        ∃ p, result.1 = .replacesStoredMarks ∧ batch.importable[i]? = some p ∧
          found.actions[i]? = some .update ∧ c.kind = .conflictingKey ∧
          c.leftLocator = p.row.locator := by
    intro i result c hget hc
    obtain ⟨p, action, index, hi, haction, rfl⟩ := hresult hget
    rcases storedMarksReplaced_cases existing index p.record action with hkept | ⟨rfl, c', hc'⟩
    · rw [hkept] at hc
      cases hc
    · obtain ⟨hkind, hleft, heq⟩ := hc'
      rw [heq] at hc ⊢
      obtain rfl := Option.some.inj hc
      rw [locatorOf_record (Batch.mem_of_importable hi)] at hleft
      exact ⟨p, rfl, hi, haction, hkind, hleft⟩
  refine ⟨?_, ?_, fun i p action hi haction => ?_, fun q hq hkind => ?_, fun q hq hkind => ?_⟩
  · rw [List.length_map, replaceMarks, List.length_zipWith, hplaces.length, hlength, Nat.min_self]
  · -- a row whose marks would be replaced is no conflict in the batch
    rw [List.filter_append, List.map_append, List.nodup_append]
    refine ⟨hplaces.once, ?_, fun left hleft left' hleft' heq => ?_⟩
    · rw [List.filter_filterMap, List.map_filterMap]
      refine (filterMap_sublist fun i result left hget hleft => ?_).nodup (nodup_locators batch)
      obtain ⟨c, hc, rfl⟩ := Option.map_eq_some_iff.mp hleft
      obtain ⟨p, -, hi, -, -, hleft⟩ := hreplaced hget (Option.filter_eq_some_iff.mp hc).1
      rw [List.getElem?_map, hi, hleft]
      rfl
    · obtain ⟨c, hc, rfl⟩ := List.mem_map.mp hleft
      obtain ⟨hc, hkind⟩ := List.mem_filter.mp hc
      obtain ⟨i, record, hi, haction, hleft⟩ := h.conflicting c hc (by simpa using hkind)
      obtain ⟨p, hp, rfl⟩ := exists_importable hi
      rw [locatorOf_record (Batch.mem_of_importable hp)] at hleft
      obtain ⟨c', hc', rfl⟩ := List.mem_map.mp hleft'
      obtain ⟨result, hmem, hc'⟩ := List.mem_filterMap.mp (List.mem_of_mem_filter hc')
      obtain ⟨j, hget⟩ := List.mem_iff_getElem?.mp hmem
      obtain ⟨p', -, hj, hupdate, -, hleft'⟩ := hreplaced hget hc'
      have hij : i = j := by
        refine (List.getElem?_inj ?_ (nodup_locators batch)).mp ?_
        · rw [List.length_map]
          exact (List.getElem?_eq_some_iff.mp hp).1
        · rw [List.getElem?_map, List.getElem?_map, hp, hj]
          exact congrArg some (hleft.symm.trans (heq.trans hleft'))
      rw [hij, hupdate] at haction
      cases haction
  · rw [List.getElem?_map] at haction
    obtain ⟨result, hget, rfl⟩ := Option.map_eq_some_iff.mp haction
    obtain ⟨p', before, index, hi', hbefore, rfl⟩ := hresult hget
    obtain rfl := Option.some.inj (hi.symm.trans hi')
    rcases storedMarksReplaced_cases existing index p.record before with hkept | ⟨rfl, c, hc⟩
    · rw [hkept]
      refine (hplaces.placed i p before hi hbefore).imp_right (Or.imp_right ?_)
      rintro ⟨hreview, hkey, ⟨q, hq, hleft⟩, hfirst⟩
      exact ⟨hreview, hkey, ⟨q, List.mem_append_left _ hq, hleft⟩, hfirst⟩
    · obtain ⟨hkind, hleft, hreplaced⟩ := hc
      have hrecord : (batch.importable.map Prepared.record)[i]? = some p.record := by
        rw [List.getElem?_map, hi]
        rfl
      obtain ⟨_, hstands, -⟩ := h.stands i p.record _ hrecord hbefore
      cases hstands with
      | updates hfirst hsome =>
        rw [hreplaced] at hget ⊢
        refine .inr (.inr ⟨rfl, hfirst.2.1, ⟨c, ?_, hkind, ?_⟩, fun _ => hknown _ hsome⟩)
        · exact List.mem_append_right _ (List.mem_filterMap.mpr ⟨_, List.mem_of_getElem? hget, rfl⟩)
        · rw [hleft, locatorOf_record (Batch.mem_of_importable hi)]
  · rcases List.mem_append.mp hq with hq | hq
    · obtain ⟨i, p, action, hi, haction, hreview, hleft⟩ := hplaces.conflicting q hq hkind
      have hlt := (List.getElem?_eq_some_iff.mp hi).1
      obtain ⟨result, hget⟩ : ∃ result, (replaceMarks existing indexed found.actions)[i]? =
          some result := ⟨_, List.getElem?_eq_getElem (by
            rwa [replaceMarks, List.length_zipWith, hplaces.length, hlength, Nat.min_self])⟩
      obtain ⟨p', before, index, hi', hbefore, rfl⟩ := hresult hget
      obtain rfl := Option.some.inj (hi.symm.trans hi')
      obtain rfl := Option.some.inj (haction.symm.trans hbefore)
      refine ⟨i, p, action, hi, ?_, hreview, hleft⟩
      rw [List.getElem?_map, hget]
      rcases storedMarksReplaced_cases existing index p.record action with hkept | ⟨rfl, -⟩
      · rw [hkept]
        rfl
      · cases hreview
    · obtain ⟨result, hmem, hq⟩ := List.mem_filterMap.mp hq
      obtain ⟨i, hget⟩ := List.mem_iff_getElem?.mp hmem
      obtain ⟨p, haction, hi, -, -, hleft⟩ := hreplaced hget hq
      refine ⟨i, p, .replacesStoredMarks, hi, ?_, rfl, hleft⟩
      rw [List.getElem?_map, hget, Option.map_some, haction]
  · rcases List.mem_append.mp hq with hq | hq
    · exact hplaces.person q hq hkind
    · obtain ⟨result, hmem, hq⟩ := List.mem_filterMap.mp hq
      obtain ⟨i, hget⟩ := List.mem_iff_getElem?.mp hmem
      obtain ⟨-, -, -, -, hconflict, -⟩ := hreplaced hget hq
      rw [hconflict] at hkind
      cases hkind

theorem Batch.order_lt {i j : Nat} {p' : Prepared N entity} (hi : batch.importable[i]? = some p)
    (hj : batch.importable[j]? = some p') (hlt : i < j) : p.row.order < p'.row.order := by
  have hpairwise := List.pairwise_iff_getElem.mp
    (batch.ordered.sublist (List.filter_sublist (p := fun p => !p.blocked)))
  obtain ⟨hi', rfl⟩ := List.getElem?_eq_some_iff.mp hi
  obtain ⟨hj', rfl⟩ := List.getElem?_eq_some_iff.mp hj
  exact hpairwise i j hi' hj' hlt

theorem Places.exists_action {questions : List (DuplicateCandidate N)}
    (h : Places batch actions questions known) {i : Nat} (hi : batch.importable[i]? = some p) :
    ∃ action, actions[i]? = some action :=
  ⟨_, List.getElem?_eq_getElem (h.length ▸ (List.getElem?_eq_some_iff.mp hi).1)⟩

theorem statusOf_ne_rejected (action : RowAction) : statusOf action ≠ .rejected := by
  cases action <;> decide

theorem Places.mem_iff {questions : List (DuplicateCandidate N)}
    (h : Places batch actions questions known) {row : StagedRow N entity} :
    row ∈ updatedRows batch.prepared actions ∧ row.status ≠ .rejected ↔
      ∃ (i : Nat) (p : _) (action : _), batch.importable[i]? = some p ∧
        actions[i]? = some action ∧ row = p.staged (statusOf action) action := by
  rw [mem_updatedRows h.length]
  constructor
  · rintro ⟨⟨p, -, -, rfl⟩ | hrow, hstatus⟩
    · exact absurd rfl hstatus
    · exact hrow
  · rintro ⟨i, p, action, hi, haction, rfl⟩
    exact ⟨.inr ⟨i, p, action, hi, haction, rfl⟩, statusOf_ne_rejected action⟩

theorem Places.firstRow_iff {questions : List (DuplicateCandidate N)} {i : Nat} {action : RowAction}
    (h : Places batch actions questions known) (hi : batch.importable[i]? = some p)
    (haction : actions[i]? = some action) :
    FirstRow (updatedRows batch.prepared actions) (p.staged (statusOf action) action) ↔
      FirstCopy (batch.importable.map Prepared.record) i p.record := by
  have hrow := h.mem_iff.mpr ⟨i, p, action, hi, haction, rfl⟩
  constructor
  · rintro ⟨-, -, hkey, hleast⟩
    refine ⟨by rw [List.getElem?_map, hi]; rfl, hkey, fun j record hj heq => ?_⟩
    obtain ⟨p', hp', rfl⟩ := exists_importable hj
    obtain ⟨action', haction'⟩ := h.exists_action hp'
    obtain ⟨hmem, hstatus⟩ := h.mem_iff.mpr ⟨j, p', action', hp', haction', rfl⟩
    by_contra hlt
    exact absurd (hleast _ hmem hstatus heq) (not_le.mpr (Batch.order_lt hp' hi (not_le.mp hlt)))
  · rintro ⟨-, hkey, hleast⟩
    refine ⟨hrow.1, hrow.2, hkey, fun other hother hstatus heq => ?_⟩
    obtain ⟨j, p', action', hj, -, rfl⟩ := h.mem_iff.mp ⟨hother, hstatus⟩
    rcases (hleast j p'.record (by rw [List.getElem?_map, hj]; rfl) heq).eq_or_lt with rfl | hlt
    · obtain rfl := Option.some.inj (hi.symm.trans hj)
      exact le_rfl
    · exact (Batch.order_lt hi hj hlt).le

theorem Places.questions {candidates : List (DuplicateCandidate N)}
    (h : Places batch actions candidates known) : Places batch actions
      (candidates.filter fun c => c.kind = .conflictingKey || c.kind = .probablePerson) known := by
  refine ⟨h.length, ?_, fun i p action hi haction => ?_,
    fun q hq => h.conflicting q (List.mem_of_mem_filter hq),
    fun q hq => h.person q (List.mem_of_mem_filter hq)⟩
  · have hsame : ((candidates.filter fun c => c.kind = .conflictingKey || c.kind = .probablePerson)
        |>.filter (·.kind = .conflictingKey)) = candidates.filter (·.kind = .conflictingKey) := by
      rw [List.filter_filter]
      refine List.filter_congr fun c _ => ?_
      cases c.kind <;> rfl
    rw [hsame]
    exact h.once
  refine (h.placed i p action hi haction).imp_right (Or.imp_right ?_)
  rintro ⟨hreview, hkey, ⟨q, hq, hkind, hleft⟩, hfirst⟩
  exact ⟨hreview, hkey, ⟨q, List.mem_filter.mpr ⟨hq, by simp [hkind]⟩, hkind, hleft⟩, hfirst⟩

theorem Places.asks {questions : List (DuplicateCandidate N)} (h : Places batch actions questions known)
    (hkinds : ∀ q ∈ questions, q.kind = .conflictingKey ∨ q.kind = .probablePerson) :
    Asks (updatedRows batch.prepared actions) questions known := by
  have hplace : ∀ row ∈ updatedRows batch.prepared actions, row.status ≠ .rejected →
      ∃ (i : Nat) (p : _) (action : _), batch.importable[i]? = some p ∧
        actions[i]? = some action ∧ row = p.staged (statusOf action) action :=
    fun row hrow hstatus => h.mem_iff.mp ⟨hrow, hstatus⟩
  refine ⟨?_, ?_, ?_, hkinds, h.once, fun row hrow hready => ?_, fun row hrow hreview => ?_,
    fun row hfirst => ?_, fun q hq hkind => ?_, fun q hq hkind => ?_⟩
  · rw [updatedRows_locators]
    exact batch.distinct
  · intro row hrow
    have hmem := List.mem_map_of_mem (f := (·.locator)) hrow
    rw [updatedRows_locators] at hmem
    obtain ⟨p, hp, hlocator⟩ := List.mem_map.mp hmem
    exact hlocator ▸ batch.located p hp
  · intro row hrow hstatus n hn
    obtain ⟨i, p, action, hi, -, rfl⟩ := hplace row hrow hstatus
    obtain rfl := Option.some.inj hn
    have hblocked : p.blocked = false := by
      simpa using (List.mem_filter.mp (List.mem_of_getElem? hi)).2
    exact hblocked
  · obtain ⟨i, p, action, hi, haction, rfl⟩ := hplace row hrow (by rw [hready]; nofun)
    replace hready : statusOf action = .ready := hready
    rcases h.placed i p action hi haction with ⟨hs, -⟩ | ⟨-, hfirst⟩ | ⟨hs, -⟩
    · rw [hready] at hs
      cases hs
    · exact (h.firstRow_iff hi haction).mpr hfirst
    · rw [hready] at hs
      cases hs
  · obtain ⟨i, p, action, hi, haction, rfl⟩ := hplace row hrow (by rw [hreview]; nofun)
    replace hreview : statusOf action = .review := hreview
    rcases h.placed i p action hi haction with ⟨hs, -⟩ | ⟨hs, -⟩ | ⟨-, hkey, hq, -⟩
    · rw [hreview] at hs
      cases hs
    · rw [hreview] at hs
      cases hs
    · exact ⟨hkey, hq⟩
  · obtain ⟨i, p, action, hi, haction, rfl⟩ := hplace row hfirst.1 hfirst.2.1
    have hcopy := (h.firstRow_iff hi haction).mp hfirst
    rcases h.placed i p action hi haction with ⟨-, hnot⟩ | ⟨hs, -⟩ | ⟨hs, -, -, hknown⟩
    · exact absurd hcopy hnot
    · exact .inl hs
    · exact .inr ⟨hs, hknown hcopy⟩
  · obtain ⟨i, p, action, hi, haction, hreview, hleft⟩ := h.conflicting q hq hkind
    exact ⟨_, (h.mem_iff.mpr ⟨i, p, action, hi, haction, rfl⟩).1, hreview, hleft⟩
  · obtain ⟨i, p, hi, hfirst, hleft, hright⟩ := h.person q hq hkind
    obtain ⟨action, haction⟩ := h.exists_action hi
    refine ⟨_, (h.firstRow_iff hi haction).mpr hfirst, hleft, hright.imp_left ?_⟩
    rintro ⟨j, p', hlt, hj, hfirst', hright⟩
    obtain ⟨action', haction'⟩ := h.exists_action hj
    exact ⟨_, (h.firstRow_iff hj haction').mpr hfirst', Batch.order_lt hi hj hlt, hright⟩

theorem existingKeys_known {store : Rows N D} {keys : List String} {k : String}
    (h : ((existingKeys entity store keys).get k).isSome = true) : (store.get k).isSome = true := by
  obtain ⟨e, he, rfl⟩ := List.mem_map.mp (Table.isSome_get.mp h)
  obtain ⟨e', he', rfl⟩ := List.mem_map.mp he
  exact Table.isSome_get.mpr (List.mem_map_of_mem (List.mem_of_mem_filter he'))

omit [Python N] in
theorem withPeople_known (known : String → Prop) {people : Table String (Fields N)}
    (hexisting : ∀ k, (existing.get k).isSome = true → known k) (hpeople : ∀ e ∈ people, known e.1) :
    ∀ k, ((withPeople existing people).get k).isSome = true → known k := by
  refine foldl_keeps (P := fun t : Table String (Fields N) => ∀ k, (t.get k).isSome = true → known k)
    (fun e he t ht k hk => ?_) hexisting
  split_ifs at hk with hsome
  · exact ht k hk
  · rw [Table.get_insert t _ (by simpa using hsome)] at hk
    split_ifs at hk with heq
    · exact heq ▸ hpeople e he
    · exact ht k hk

/-- **What normalising leaves and asks**, for any rows, store and matches. -/
theorem normalize_asks [DecidableEq D] [Similarity N]
    (digest : List (String × Value N) → List (String × Value N) → D)
    (batch : Batch N entity maxRows) (reshapedMarks : Bool) (store : Rows N D)
    (people : Table String (Fields N)) (hpeople : ∀ e ∈ people, (store.get e.1).isSome = true) :
    Asks (normalize digest batch reshapedMarks store people).rows
      (normalize digest batch reshapedMarks store people).questions
      fun k => (store.get k).isSome = true := by
  let stored := existingKeys entity store
    (((batch.prepared.map Prepared.record).map (·.recordKey)).filter fun key => !missingKey key)
  let existing := if isPerson entity then withPeople stored people else stored
  let importable := batch.prepared.zipIdx.filter fun e => !e.1.blocked
  have hexisting : ∀ k, (existing.get k).isSome = true → (store.get k).isSome = true := by
    intro k hk
    dsimp only [existing] at hk
    split_ifs at hk
    · exact withPeople_known (fun k => (store.get k).isSome = true)
        (fun k hk => existingKeys_known hk) hpeople k hk
    · exact existingKeys_known hk
  have hindexed : importable.map Prod.fst = batch.importable := by
    rw [Batch.importable, ← List.zipIdx_map_fst 0 batch.prepared, List.filter_map]
    rfl
  have hcompared : Compared (batch.importable.map Prepared.record) existing
      (findDuplicates digest (importable.map fun e => e.1.record) existing) := by
    have hrecords : importable.map (fun e => e.1.record) = batch.importable.map Prepared.record := by
      rw [← hindexed, List.map_map]
      rfl
    rw [hrecords]
    exact findDuplicates_compared digest _ existing
  rw [normalize, Normalization.questions]
  refine (Places.questions ?_).asks fun q hq => by simpa using (List.mem_filter.mp hq).2
  by_cases hmarks : (entity.name = "exam" && reshapedMarks) = true
  · rw [if_pos hmarks]
    exact Places.of_replaced hcompared hindexed hexisting
  · rw [if_neg hmarks, List.map_map, List.filterMap_map]
    have hnone : ((findDuplicates digest (importable.map fun e => e.1.record) existing).actions.filterMap
        (Prod.snd ∘ fun action => (action, (none : Option (DuplicateCandidate N))))) = [] :=
      List.filterMap_eq_nil_iff.mpr fun _ _ => rfl
    have hkept : ((findDuplicates digest (importable.map fun e => e.1.record) existing).actions.map
        (Prod.fst ∘ fun action => (action, (none : Option (DuplicateCandidate N))))) = _ :=
      List.map_id _
    rw [hnone, hkept, List.append_nil]
    exact Places.of_compared hcompared hexisting

end

end GuruJi.Ingestion
