import GuruJi.Ingestion.Staging
import GuruJi.Records.Upsert

/-!
# Duplicates in a batch

`findDuplicates` compares the rows of a batch with each other and with the records that exist. The
first copy of a key inserts or updates; a later one is a duplicate or a conflict. People are compared
under different keys when they share a block (`probablePeople`).

* `findDuplicates_compared`: how each record stands to the ones before it, and what is asked.
-/

namespace GuruJi.Ingestion

open GuruJi.Lib GuruJi.Records

/-- What comparing people needs of Python's floats and of `difflib`. -/
class Similarity (N : Type) where
  ratio : String → String → N
  add : N → N → N
  min : N → N → N
  round3 : N → N

inductive CandidateKind where
  | exactKey | conflictingKey | probablePerson
  deriving DecidableEq

def CandidateKind.text : CandidateKind → String
  | .exactKey => "exact_key"
  | .conflictingKey => "conflicting_key"
  | .probablePerson => "probable_person"

inductive Evidence (N : Type) where
  | flag (b : Bool)
  | columns (names : List String)
  | text (s : String)
  | number (x : N)
  | value (v : Value N)
  | values (vs : Table String (Value N))

structure DuplicateCandidate (N : Type) where
  kind : CandidateKind
  leftLocator : String
  rightLocator : Option String
  recordKey : Option String
  score : N
  evidence : Table String (Evidence N)

variable {N D : Type} [Python N] {entity : CanonicalEntity}

/-- A quotient of whole numbers, as a float literal rounds it. -/
def ratioOf (p q : Int) : N := Python.div (Python.ofInt p) (Python.ofInt q)

/-! ## People -/

/-- `NAME_SIMILARITY_THRESHOLD`. -/
def nameSimilarityThreshold : N := ratioOf 9 10

/-- `MAX_BLOCK_SIZE`. -/
def maxBlockSize : Nat := 200

/-- `MAX_PAIRWISE_ROWS`. -/
def maxPairwiseRows : Nat := 5000

def personFields : List String :=
  ["name", "date_of_birth", "phone", "email", "guardian_phone", "program", "admission_year"]

def corroboratingFields : List String := ["date_of_birth", "phone", "email", "guardian_phone"]

def contextFields : List String := ["program", "admission_year"]

/-- `_norm`. -/
def norm (v : Value N) : String :=
  if v.isNull then ""
  else if v.str = "" then ""
  else Python.lower N (Records.strip (Python.isSpace N) v.str)

/-- `_person_view`. -/
def personView (fields : Fields N) : Fields N := fun name =>
  if personFields.contains name then fields name else .null

/-- `left.get(key) and right.get(key) and _norm(left[key]) == _norm(right[key])`. -/
def matching (left right : Fields N) (key : String) : Bool :=
  (left key).truthy && (right key).truthy && norm (left key) = norm (right key)

/-- `_block_keys`. -/
def blockKeys (fields : Fields N) : List String :=
  let tokens := ((norm (fields "name")).toList.splitOnP (Python.isSpace N)).filter (· ≠ [])
  (corroboratingFields.filter fun name => norm (fields name) ≠ "").map
      (fun name => name ++ ":" ++ norm (fields name)) ++
    match tokens.head?, tokens.getLast? with
    | some first, some last => ["name:" ++ String.ofList first ++ "|" ++ String.ofList last]
    | _, _ => []

section
variable [Similarity N]

/-- `_name_similarity`. -/
def nameSimilarity (left right : Value N) : N :=
  if !left.truthy || !right.truthy then Python.ofInt 0
  else Similarity.ratio (Python.lower N left.str) (Python.lower N right.str)

/-- `_person_signals`. -/
def personSignals (left right : Fields N) (ignored : List String) : N × Table String (Evidence N) :=
  let corroborating := corroboratingFields.filter fun key =>
    matching left right key && !ignored.contains (key ++ ":" ++ norm (left key))
  let evidence := corroborating.map fun key => (key, Evidence.text "match")
  if corroborating.isEmpty then (Python.ofInt 0, evidence)
  else
    let score : N := nameSimilarity (left "name") (right "name")
    let evidence := evidence ++ [("name_similarity", .number (Similarity.round3 score))]
    if Python.lt score nameSimilarityThreshold then (Python.ofInt 0, evidence)
    else
      (Similarity.min (Python.ofInt 1)
          (Similarity.add score (Python.mul (ratioOf 1 10) (Python.ofInt corroborating.length))),
        evidence ++ (contextFields.filter (matching left right)).map fun key => (key, .text "match"))

/-- An entry of a block: a first copy with its position in the batch, or a record that exists. -/
inductive Member (N : Type) [Python N] (entity : CanonicalEntity) where
  | batch (index : Nat) (record : CanonicalRecord N entity)
  | existing (key : String) (fields : Fields N)

/-- What a row was found to match. -/
structure Hits (N : Type) [Python N] (entity : CanonicalEntity) where
  batch : Table Nat (CanonicalRecord N entity × N × Table String (Evidence N))
  existing : Table String (N × Table String (Evidence N))

/-- The body of the innermost loop of `_probable_people`. -/
def compareWith (existing : Table String (Fields N)) (ignored : List String) (index : Nat)
    (record : CanonicalRecord N entity) (hits : Hits N entity) : Member N entity → Hits N entity
  | .batch other otherRecord =>
    if other ≤ index || (hits.batch.get other).isSome ||
        ((existing.get record.recordKey).isSome && (existing.get otherRecord.recordKey).isSome) then
      hits
    else
      let signals := personSignals (personView record.fields) (personView otherRecord.fields) ignored
      if Python.le nameSimilarityThreshold signals.1 then
        { hits with batch := hits.batch.assign other (otherRecord, signals) }
      else hits
  | .existing key fields =>
    if (existing.get record.recordKey).isSome || key = record.recordKey ||
        (hits.existing.get key).isSome then hits
    else
      let signals := personSignals (personView record.fields) (personView fields) ignored
      if Python.le nameSimilarityThreshold signals.1 then
        { hits with existing := hits.existing.assign key signals }
      else hits

/-- `record.lineage.source_locator or f"row={index + 1}"`. -/
def locatorOf (index : Nat) (record : CanonicalRecord N entity) : String :=
  (record.lineage.sourceLocator.filter (· ≠ "")).getD ("row=" ++ toString (index + 1))

/-- What people's first copies and existing records are found under. -/
def blocksOf (keyed : List (Nat × CanonicalRecord N entity)) (existing : Table String (Fields N)) :
    Table String (List (Member N entity)) :=
  let batch : List (String × Member N entity) := if keyed.length ≤ maxPairwiseRows then
      keyed.flatMap fun e => (blockKeys (personView e.2.fields)).map fun b => (b, .batch e.1 e.2)
    else []
  let others : List (String × Member N entity) := existing.flatMap fun e =>
    (blockKeys (personView e.2)).map fun b => (b, .existing e.1 e.2)
  (batch ++ others).foldl (fun t e => Table.push t e.1 e.2) []

/-- What a row matches: every block that it is in is gone through. -/
def hitsOf (existing : Table String (Fields N)) (blocks : Table String (List (Member N entity)))
    (ignored : List String) (index : Nat) (record : CanonicalRecord N entity) : Hits N entity :=
  (((blockKeys (personView record.fields)).filter fun b => !ignored.contains b).flatMap
    fun b => (blocks.get b).getD []).foldl (compareWith existing ignored index record) ⟨[], []⟩

def peopleOf (existing : Table String (Fields N)) (blocks : Table String (List (Member N entity)))
    (ignored : List String) (index : Nat) (record : CanonicalRecord N entity) :
    List (DuplicateCandidate N) :=
  let hits := hitsOf existing blocks ignored index record
  (sortBy Prod.fst hits.batch).map (fun hit =>
      ⟨.probablePerson, locatorOf index record, hit.2.1.lineage.sourceLocator,
        some hit.2.1.recordKey, hit.2.2.1, hit.2.2.2⟩) ++
    (sortBy Prod.fst hits.existing).map fun hit =>
      ⟨.probablePerson, locatorOf index record, none, some hit.1, hit.2.1,
        hit.2.2.assign "existing_record_key" (.text hit.1)⟩

/-- `_probable_people`, with its warnings. -/
def probablePeople (keyed : List (Nat × CanonicalRecord N entity))
    (existing : Table String (Fields N)) : List (DuplicateCandidate N) × List String :=
  let blocks := blocksOf keyed existing
  let ignored := (blocks.filter fun b => maxBlockSize < b.2.length).map Prod.fst
  let columns := sortBy id (ignored.map beforeColon).dedup
  (keyed.flatMap fun e => peopleOf existing blocks ignored e.1 e.2,
    (if maxPairwiseRows < keyed.length then
        ["probable_person_check_skipped_in_batch: " ++ toString keyed.length ++ " rows exceed the " ++
          toString maxPairwiseRows ++
          " row limit; rows were still checked against existing records"] else []) ++
      if ignored.isEmpty then [] else
        ["shared_values_ignored: " ++ String.intercalate ", " columns ++
          " values shared by more than " ++ toString maxBlockSize ++
          " people were not used for matching"])

end

/-! ## Copies of a key -/

/-- What a batch says of its records: the actions in their order, and what is asked. -/
structure Duplicates (N : Type) where
  candidates : List (DuplicateCandidate N)
  actions : List RowAction
  warnings : List String

def differingFields (record other : CanonicalRecord N entity) : List String :=
  (sortBy id (entity.fieldNames.filter fun name =>
    !(record.fields name).same (other.fields name))).take 20

variable [DecidableEq D]

def compareCopies (digest : List (String × Value N) → List (String × Value N) → D) (index : Nat)
    (record other : CanonicalRecord N entity) : RowAction × DuplicateCandidate N :=
  if rowHash digest entity other.fields other.attributes =
      rowHash digest entity record.fields record.attributes then
    (.duplicateInBatch, ⟨.exactKey, locatorOf index record, other.lineage.sourceLocator,
      some record.recordKey, Python.ofInt 1, [("identical", .flag true)]⟩)
  else
    (.conflictInBatch, ⟨.conflictingKey, locatorOf index record, other.lineage.sourceLocator,
      some record.recordKey, ratioOf 95 100,
      [("differing_fields", .columns (differingFields record other))]⟩)

/-- `first_by_key` after a record. -/
def noteFirst (first : Table String (Nat × CanonicalRecord N entity)) (index : Nat)
    (record : CanonicalRecord N entity) : Table String (Nat × CanonicalRecord N entity) :=
  if missingKey record.recordKey || (first.get record.recordKey).isSome then first
  else first.insert record.recordKey (index, record)

/-- The body of the loop of `find_duplicates`. -/
def classify (digest : List (String × Value N) → List (String × Value N) → D)
    (existing : Table String (Fields N)) (first : Table String (Nat × CanonicalRecord N entity))
    (index : Nat) (record : CanonicalRecord N entity) : RowAction × Option (DuplicateCandidate N) :=
  if missingKey record.recordKey then (.missingKey, none)
  else
    match first.get record.recordKey with
    | some (_, other) => (compareCopies digest index record other).map id some
    | none => (if (existing.get record.recordKey).isSome then .update else .insert, none)

/-- The loop of `find_duplicates` from a position on, with `first_by_key` after it. -/
def classifyAll (digest : List (String × Value N) → List (String × Value N) → D)
    (existing : Table String (Fields N)) :
    Table String (Nat × CanonicalRecord N entity) → Nat → List (CanonicalRecord N entity) →
      List (RowAction × Option (DuplicateCandidate N)) × Table String (Nat × CanonicalRecord N entity)
  | first, _, [] => ([], first)
  | first, index, record :: records =>
    let rest := classifyAll digest existing (noteFirst first index record) (index + 1) records
    (classify digest existing first index record :: rest.1, rest.2)

def isPerson (entity : CanonicalEntity) : Bool :=
  ["student", "faculty", "staff", "admission"].contains entity.name

/-- `find_duplicates`. -/
def findDuplicates [Similarity N]
    (digest : List (String × Value N) → List (String × Value N) → D)
    (records : List (CanonicalRecord N entity)) (existing : Table String (Fields N)) :
    Duplicates N :=
  let (found, first) := classifyAll digest existing [] 0 records
  let people := if !records.isEmpty && isPerson entity then
    probablePeople (first.map Prod.snd) existing else ([], [])
  ⟨found.filterMap Prod.snd ++ people.1, found.map Prod.fst, people.2⟩

/-! ## What a batch says of its records -/

def FirstCopy (records : List (CanonicalRecord N entity)) (i : Nat)
    (record : CanonicalRecord N entity) : Prop :=
  records[i]? = some record ∧ missingKey record.recordKey = false ∧
    ∀ j other, records[j]? = some other → other.recordKey = record.recordKey → i ≤ j

/-- `first_by_key` holds the first record of every key. -/
def HoldsFirst (records : List (CanonicalRecord N entity))
    (first : Table String (Nat × CanonicalRecord N entity)) : Prop :=
  (first.map Prod.fst).Nodup ∧ ∀ k i record,
    first.get k = some (i, record) ↔ record.recordKey = k ∧ FirstCopy records i record

section
variable {records : List (CanonicalRecord N entity)} {record : CanonicalRecord N entity} {i : Nat}
variable {first : Table String (Nat × CanonicalRecord N entity)}

theorem exists_firstCopy (hi : records[i]? = some record) (hkey : missingKey record.recordKey = false) :
    ∃ j ≤ i, ∃ other, FirstCopy records j other ∧ other.recordKey = record.recordKey := by
  induction i using Nat.strong_induction_on generalizing record with
  | _ i ih =>
    by_cases hfirst : FirstCopy records i record
    · exact ⟨i, le_rfl, record, hfirst, rfl⟩
    · rw [FirstCopy] at hfirst
      push Not at hfirst
      obtain ⟨j, other, hj, hsame, hlt⟩ := hfirst hi hkey
      obtain ⟨l, hl, least, hleast, heq⟩ := ih j hlt hj (hsame ▸ hkey)
      exact ⟨l, hl.trans hlt.le, least, hleast, heq.trans hsame⟩

theorem firstCopy_append {other : CanonicalRecord N entity} :
    FirstCopy (records ++ [record]) i other ↔ FirstCopy records i other ∨
      i = records.length ∧ other = record ∧ missingKey record.recordKey = false ∧
        ∀ r ∈ records, r.recordKey ≠ record.recordKey := by
  have hbefore : ∀ {j}, j < records.length → (records ++ [record])[j]? = records[j]? :=
    fun hj => List.getElem?_append_left hj
  constructor
  · rintro ⟨hi, hkey, hleast⟩
    by_cases hlt : i < records.length
    · refine .inl ⟨hbefore hlt ▸ hi, hkey, fun j r hj heq => hleast j r ?_ heq⟩
      rwa [hbefore (List.getElem?_eq_some_iff.mp hj).1]
    · have hlength := (List.getElem?_eq_some_iff.mp hi).1
      rw [List.length_append, List.length_singleton] at hlength
      obtain rfl : i = records.length := by omega
      rw [List.getElem?_append_right le_rfl, Nat.sub_self] at hi
      obtain rfl := Option.some.inj hi
      refine .inr ⟨rfl, rfl, hkey, fun r hr heq => ?_⟩
      obtain ⟨j, hj⟩ := List.mem_iff_getElem?.mp hr
      have hjlt := (List.getElem?_eq_some_iff.mp hj).1
      exact hlt ((hleast j r (hbefore hjlt ▸ hj) heq).trans_lt hjlt)
  · rintro (⟨hi, hkey, hleast⟩ | ⟨rfl, rfl, hkey, hnew⟩)
    · have hlt := (List.getElem?_eq_some_iff.mp hi).1
      refine ⟨hbefore hlt ▸ hi, hkey, fun j r hj heq => ?_⟩
      by_cases hjlt : j < records.length
      · exact hleast j r (hbefore hjlt ▸ hj) heq
      · omega
    · refine ⟨by simp, hkey, fun j r hj heq => ?_⟩
      by_contra hlt
      rw [hbefore (not_le.mp hlt)] at hj
      exact hnew r (List.mem_of_getElem? hj) heq

theorem HoldsFirst.noteFirst (h : HoldsFirst records first) (record : CanonicalRecord N entity) :
    HoldsFirst (records ++ [record]) (Ingestion.noteFirst first records.length record) := by
  rw [Ingestion.noteFirst]
  split_ifs with hknown
  · -- the record is not the first of a key
    have hsame : ∀ j other, FirstCopy (records ++ [record]) j other ↔ FirstCopy records j other := by
      intro j other
      rw [firstCopy_append, or_iff_left]
      rintro ⟨-, -, hkey, hnew⟩
      rw [hkey, Bool.false_or] at hknown
      obtain ⟨⟨l, r⟩, hget⟩ := Option.isSome_iff_exists.mp hknown
      obtain ⟨heq, hfirst, -⟩ := (h.2 _ l r).mp hget
      exact hnew r (List.mem_of_getElem? hfirst) heq
    exact ⟨h.1, fun k j other => by rw [h.2, hsame]⟩
  · obtain ⟨hkey, hnone⟩ := Bool.or_eq_false_iff.mp (Bool.eq_false_iff.mpr hknown)
    have hget := Option.isNone_iff_eq_none.mp (by simpa using hnone)
    have hnew : ∀ r ∈ records, r.recordKey ≠ record.recordKey := by
      intro r hr heq
      obtain ⟨j, hj⟩ := List.mem_iff_getElem?.mp hr
      obtain ⟨l, -, least, hleast, hsame⟩ := exists_firstCopy hj (heq ▸ hkey)
      rw [(h.2 _ l least).mpr ⟨hsame.trans heq, hleast⟩] at hget
      cases hget
    refine ⟨?_, fun k j other => ?_⟩
    · rw [Table.insert, List.map_append, List.nodup_append]
      refine ⟨h.1, List.nodup_singleton _, fun k hk k' hk' heq => ?_⟩
      obtain rfl : k' = record.recordKey := by simpa using hk'
      have hsome := Table.isSome_get.mpr (heq ▸ hk)
      rw [hget] at hsome
      cases hsome
    · rw [Table.get_insert first _ hget, firstCopy_append]
      split_ifs with hk
      · constructor
        · intro heq
          obtain ⟨rfl, rfl⟩ := Prod.mk.inj (Option.some.inj heq)
          exact ⟨hk.symm, .inr ⟨rfl, rfl, hkey, hnew⟩⟩
        · rintro ⟨heq, hfirst | ⟨rfl, rfl, -⟩⟩
          · exact absurd (heq.trans hk) (hnew other (List.mem_of_getElem? hfirst.1))
          · rfl
      · rw [h.2]
        refine and_congr_right fun heq => (or_iff_left ?_).symm
        rintro ⟨-, rfl, -⟩
        exact hk heq.symm

theorem classifyAll_spec (digest : List (String × Value N) → List (String × Value N) → D)
    (existing : Table String (Fields N)) (rest : List (CanonicalRecord N entity))
    (h : HoldsFirst records first) :
    HoldsFirst (records ++ rest) (classifyAll digest existing first records.length rest).2 ∧
      (classifyAll digest existing first records.length rest).1.length = rest.length ∧
      ∀ i record, rest[i]? = some record → ∃ before, HoldsFirst (records ++ rest.take i) before ∧
        (classifyAll digest existing first records.length rest).1[i]? =
          some (classify digest existing before (records.length + i) record) := by
  induction rest generalizing records first with
  | nil => exact ⟨by simpa [classifyAll] using h, rfl, fun i record hi => by cases hi⟩
  | cons next rest ih =>
    obtain ⟨hall, hlength, hfound⟩ := ih (h.noteFirst next)
    rw [List.length_append, List.length_singleton, List.append_assoc, List.singleton_append] at *
    rw [classifyAll]
    refine ⟨hall, congrArg Nat.succ hlength, fun i record hi => ?_⟩
    cases i with
    | zero =>
      obtain rfl := Option.some.inj hi
      exact ⟨first, by simpa using h, rfl⟩
    | succ i =>
      obtain ⟨before, hbefore, hi⟩ := hfound i record hi
      rw [List.append_assoc, List.singleton_append] at hbefore
      exact ⟨before, hbefore, by rw [Nat.add_right_comm] at hi; exact hi⟩

/-- How a record stands to the ones before it, with the action and the candidate found of it. -/
inductive Stands (records : List (CanonicalRecord N entity)) (existing : Table String (Fields N))
    (i : Nat) (record : CanonicalRecord N entity) : RowAction × Option (DuplicateCandidate N) → Prop
  | keyless (hkey : missingKey record.recordKey = true) :
      Stands records existing i record (.missingKey, none)
  | inserts (hfirst : FirstCopy records i record) : Stands records existing i record (.insert, none)
  | updates (hfirst : FirstCopy records i record)
      (hknown : (existing.get record.recordKey).isSome = true) :
      Stands records existing i record (.update, none)
  | repeats (hlater : ¬ FirstCopy records i record)
      (c : DuplicateCandidate N) (hkind : c.kind = .exactKey) :
      Stands records existing i record (.duplicateInBatch, some c)
  | conflicts (hkey : missingKey record.recordKey = false) (hlater : ¬ FirstCopy records i record)
      (c : DuplicateCandidate N) (hkind : c.kind = .conflictingKey)
      (hleft : c.leftLocator = locatorOf i record) :
      Stands records existing i record (.conflictInBatch, some c)

theorem classify_stands (digest : List (String × Value N) → List (String × Value N) → D)
    (existing : Table String (Fields N)) (hi : records[i]? = some record)
    (h : HoldsFirst (records.take i) first) :
    Stands records existing i record (classify digest existing first i record) := by
  rw [classify]
  cases hkey : missingKey record.recordKey with
  | true => exact .keyless hkey
  | false =>
    rw [if_neg Bool.false_ne_true]
    cases hget : first.get record.recordKey with
    | none =>
      have hfirst : FirstCopy records i record := by
        refine ⟨hi, hkey, fun j other hj heq => ?_⟩
        by_contra hlt
        have hj' : (records.take i)[j]? = some other := by
          rw [List.getElem?_take_of_lt (not_le.mp hlt), hj]
        obtain ⟨l, -, least, hleast, hsame⟩ := exists_firstCopy hj' (heq ▸ hkey)
        rw [(h.2 _ l least).mpr ⟨hsame.trans heq, hleast⟩] at hget
        cases hget
      dsimp only
      split_ifs with hknown
      · exact .updates hfirst hknown
      · exact .inserts hfirst
    | some e =>
      obtain ⟨l, other⟩ := e
      obtain ⟨heq, hl, -⟩ := (h.2 _ l other).mp hget
      have hlt : l < i := by
        have := (List.getElem?_eq_some_iff.mp hl).1
        rw [List.length_take] at this
        omega
      rw [List.getElem?_take_of_lt hlt] at hl
      have hlater : ¬ FirstCopy records i record := fun hfirst =>
        absurd (hfirst.2.2 l other hl heq) (not_le.mpr hlt)
      dsimp only
      rw [compareCopies]
      split_ifs
      · exact .repeats hlater _ rfl
      · exact .conflicts hkey hlater _ rfl rfl

end

/-! ## What people are asked about -/

section
variable [Similarity N] {existing : Table String (Fields N)} {ignored : List String} {index : Nat}
variable {keyed : List (Nat × CanonicalRecord N entity)} {record : CanonicalRecord N entity}

/-- A first copy that takes part, or a record that exists. -/
def Member.Known (keyed : List (Nat × CanonicalRecord N entity)) (existing : Table String (Fields N)) :
    Member N entity → Prop
  | .batch other otherRecord => (other, otherRecord) ∈ keyed
  | .existing key _ => (existing.get key).isSome = true

/-- The matches found so far: later first copies, and records that exist. -/
def Hits.Known (keyed : List (Nat × CanonicalRecord N entity)) (existing : Table String (Fields N))
    (index : Nat) (hits : Hits N entity) : Prop :=
  (∀ e ∈ hits.batch, index < e.1 ∧ (e.1, e.2.1) ∈ keyed) ∧
    ∀ e ∈ hits.existing, (existing.get e.1).isSome = true

omit [Similarity N] in
theorem mem_blocksOf {block : String} {m : Member N entity}
    (hm : m ∈ ((blocksOf keyed existing).get block).getD []) : m.Known keyed existing := by
  cases hget : (blocksOf keyed existing).get block with
  | none =>
    rw [hget] at hm
    cases hm
  | some members =>
    rw [hget] at hm
    have hmem : m ∈ (blocksOf keyed existing).flatMap Prod.snd :=
      List.mem_flatMap.mpr ⟨_, Table.mem_of_get hget, hm⟩
    rw [blocksOf, (Table.flatMap_foldl_push_perm _ Prod.fst Prod.snd []).mem_iff] at hmem
    simp only [List.flatMap_nil, List.nil_append, List.map_append, List.mem_append, List.mem_map] at hmem
    rcases hmem with ⟨e, he, rfl⟩ | ⟨e, he, rfl⟩
    · split_ifs at he
      · obtain ⟨entry, hentry, he⟩ := List.mem_flatMap.mp he
        obtain ⟨b, -, rfl⟩ := List.mem_map.mp he
        exact hentry
      · cases he
    · obtain ⟨entry, hentry, he⟩ := List.mem_flatMap.mp he
      obtain ⟨b, -, rfl⟩ := List.mem_map.mp he
      exact Table.isSome_get.mpr (List.mem_map_of_mem hentry)

theorem Hits.Known.compareWith {hits : Hits N entity} {m : Member N entity}
    (h : hits.Known keyed existing index) (hm : m.Known keyed existing) :
    (Ingestion.compareWith existing ignored index record hits m).Known keyed existing index := by
  cases m with
  | batch other otherRecord =>
    rw [Ingestion.compareWith]
    dsimp only
    split_ifs with hskip
    · exact h
    · refine ⟨fun e he => ?_, h.2⟩
      rcases Table.eq_or_mem_of_mem_assign he with rfl | he
      · simp only [Bool.or_eq_true, decide_eq_true_eq, not_or, not_le] at hskip
        exact ⟨hskip.1.1, hm⟩
      · exact h.1 e he
    · exact h
  | existing key fields =>
    rw [Ingestion.compareWith]
    dsimp only
    split_ifs
    · exact h
    · refine ⟨h.1, fun e he => ?_⟩
      rcases Table.eq_or_mem_of_mem_assign he with rfl | he
      · exact hm
      · exact h.2 e he
    · exact h

theorem hitsOf_known : (hitsOf existing (blocksOf keyed existing) ignored index record).Known
    keyed existing index := by
  refine foldl_keeps (fun m hm hits hhits => ?_) ⟨List.forall_mem_nil _, List.forall_mem_nil _⟩
  obtain ⟨b, -, hm⟩ := List.mem_flatMap.mp hm
  exact hhits.compareWith (mem_blocksOf hm)

theorem mem_peopleOf {c : DuplicateCandidate N}
    (hc : c ∈ peopleOf existing (blocksOf keyed existing) ignored index record) :
    c.kind = .probablePerson ∧ c.leftLocator = locatorOf index record ∧
      ((∃ e ∈ keyed, index < e.1 ∧ c.rightLocator = e.2.lineage.sourceLocator) ∨
        c.rightLocator = none ∧ ∃ k, c.recordKey = some k ∧ (existing.get k).isSome = true) := by
  obtain ⟨hbatch, hexisting⟩ : (hitsOf existing (blocksOf keyed existing) ignored index
    record).Known keyed existing index := hitsOf_known
  rcases List.mem_append.mp hc with hc | hc
  · obtain ⟨hit, hhit, rfl⟩ := List.mem_map.mp hc
    obtain ⟨hlt, hmem⟩ := hbatch hit (mem_sortBy.mp hhit)
    exact ⟨rfl, rfl, .inl ⟨_, hmem, hlt, rfl⟩⟩
  · obtain ⟨hit, hhit, rfl⟩ := List.mem_map.mp hc
    exact ⟨rfl, rfl, .inr ⟨rfl, hit.1, rfl, hexisting hit (mem_sortBy.mp hhit)⟩⟩

end

/-! ## The whole batch -/

/-- What the entries of one list say of another at their own positions, they say in order. -/
theorem filterMap_sublist {α β : Type} {f : α → Option β} {l : List α} {bs : List β}
    (h : ∀ (i : Nat) a b, l[i]? = some a → f a = some b → bs[i]? = some b) :
    (l.filterMap f).Sublist bs := by
  induction l generalizing bs with
  | nil => exact List.nil_sublist bs
  | cons a l ih =>
    cases bs with
    | nil =>
      rw [List.filterMap_eq_nil_iff.mpr fun a' ha' => ?_]
      obtain ⟨i, hi⟩ := List.mem_iff_getElem?.mp ha'
      exact Option.eq_none_iff_forall_ne_some.mpr fun b hb => nomatch h i a' b hi hb
    | cons b bs =>
      have hrest := ih fun i a' b' hi hb' => h (i + 1) a' b' hi hb'
      cases hf : f a with
      | none =>
        rw [List.filterMap_cons_none hf]
        exact hrest.cons b
      | some b' =>
        rw [List.filterMap_cons_some hf, Option.some.inj (h 0 a b' rfl hf)]
        exact hrest.cons_cons b'

/-- What `find_duplicates` finds: how each record stands to the others, and what is asked of it. -/
structure Compared (records : List (CanonicalRecord N entity)) (existing : Table String (Fields N))
    (found : Duplicates N) : Prop where
  length : found.actions.length = records.length
  /-- Each action comes from how its record stands; a conflict is asked about. -/
  stands : ∀ (i : Nat) record action, records[i]? = some record → found.actions[i]? = some action →
    ∃ c, Stands records existing i record (action, c) ∧ ∀ c' ∈ c, c' ∈ found.candidates
  /-- Nothing else is asked of copies. -/
  conflicting : ∀ c ∈ found.candidates, c.kind = .conflictingKey → ∃ (i : Nat) (record : _),
    records[i]? = some record ∧ found.actions[i]? = some .conflictInBatch ∧
      c.leftLocator = locatorOf i record
  /-- No record is asked about twice as a copy. -/
  once : ((found.candidates.filter (·.kind = .conflictingKey)).map (·.leftLocator)).Sublist
    (records.zipIdx.map fun e => locatorOf e.2 e.1)
  /-- People are asked about by the first copies of their keys. -/
  person : ∀ c ∈ found.candidates, c.kind = .probablePerson → isPerson entity = true ∧
    ∃ i record, FirstCopy records i record ∧ c.leftLocator = locatorOf i record ∧
      ((∃ j other, i < j ∧ FirstCopy records j other ∧
          c.rightLocator = other.lineage.sourceLocator) ∨
        c.rightLocator = none ∧ ∃ k, c.recordKey = some k ∧ (existing.get k).isSome = true)

/-- **What `find_duplicates` finds**, for any batch and any existing records. -/
theorem findDuplicates_compared [Similarity N]
    (digest : List (String × Value N) → List (String × Value N) → D)
    (records : List (CanonicalRecord N entity)) (existing : Table String (Fields N)) :
    Compared records existing (findDuplicates digest records existing) := by
  have hnone : HoldsFirst ([] : List (CanonicalRecord N entity)) [] :=
    ⟨List.nodup_nil, fun k i record => ⟨nofun, fun h => nomatch h.2.1⟩⟩
  obtain ⟨hall, hlength, hfound⟩ := classifyAll_spec digest existing records hnone
  simp only [List.length_nil, List.nil_append, Nat.zero_add] at hall hlength hfound
  set found := classifyAll digest existing [] 0 records
  have hstands : ∀ (i : Nat) record, records[i]? = some record → ∃ result,
      found.1[i]? = some result ∧ Stands records existing i record result := by
    intro i record hi
    obtain ⟨before, hbefore, hget⟩ := hfound i record hi
    exact ⟨_, hget, classify_stands digest existing hi hbefore⟩
  have hactions : (findDuplicates digest records existing).actions = found.1.map Prod.fst := rfl
  have hsource : ∀ c ∈ (findDuplicates digest records existing).candidates,
      (∃ (i : Nat) (action : RowAction), found.1[i]? = some (action, some c)) ∨
        isPerson entity = true ∧ c ∈ (probablePeople (found.2.map Prod.snd) existing).1 := by
    intro c hc
    rcases List.mem_append.mp hc with hc | hc
    · obtain ⟨⟨action, c'⟩, hmem, heq⟩ := List.mem_filterMap.mp hc
      obtain ⟨i, hi⟩ := List.mem_iff_getElem?.mp hmem
      obtain rfl : c' = some c := heq
      exact .inl ⟨i, action, hi⟩
    · split_ifs at hc with hpeople
      · exact .inr ⟨(Bool.and_eq_true_iff.mp hpeople).2, hc⟩
      · cases hc
  refine ⟨?_, fun i record action hi haction => ?_, fun c hc hkind => ?_, ?_, fun c hc hkind => ?_⟩
  · rw [hactions, List.length_map, hlength]
  · obtain ⟨⟨action', c⟩, hget, hresult⟩ := hstands i record hi
    rw [hactions, List.getElem?_map, hget] at haction
    obtain rfl := Option.some.inj haction
    refine ⟨c, hresult, fun c' hc' => List.mem_append_left _ (List.mem_filterMap.mpr ?_)⟩
    exact ⟨_, List.mem_of_getElem? hget, hc'⟩
  · rcases hsource c hc with ⟨i, action, hget⟩ | ⟨-, hc⟩
    · have hlt := (List.getElem?_eq_some_iff.mp hget).1
      obtain ⟨record, hi⟩ : ∃ record, records[i]? = some record :=
        ⟨_, List.getElem?_eq_getElem (hlength ▸ hlt)⟩
      obtain ⟨result, hget', hresult⟩ := hstands i record hi
      obtain rfl := Option.some.inj (hget.symm.trans hget')
      refine ⟨i, record, hi, ?_⟩
      cases hresult with
      | repeats _ _ hexact =>
        rw [hexact] at hkind
        cases hkind
      | conflicts _ _ _ _ hleft => exact ⟨by rw [hactions, List.getElem?_map, hget]; rfl, hleft⟩
    · obtain ⟨e, -, hc⟩ := List.mem_flatMap.mp hc
      rw [(mem_peopleOf hc).1] at hkind
      cases hkind
  · have hpeople : (if !records.isEmpty && isPerson entity then
        probablePeople (found.2.map Prod.snd) existing else ([], [])).1.filter
          (·.kind = .conflictingKey) = [] := by
      refine List.filter_eq_nil_iff.mpr fun c hc => ?_
      split_ifs at hc
      · obtain ⟨e, -, hc⟩ := List.mem_flatMap.mp hc
        simp [(mem_peopleOf hc).1]
      · cases hc
    have hcandidates : (findDuplicates digest records existing).candidates =
        found.1.filterMap Prod.snd ++ (if !records.isEmpty && isPerson entity then
          probablePeople (found.2.map Prod.snd) existing else ([], [])).1 := rfl
    rw [hcandidates, List.filter_append, hpeople, List.append_nil, List.filter_filterMap,
      List.map_filterMap]
    refine filterMap_sublist fun i result left hget hleft => ?_
    obtain ⟨c, hc, rfl⟩ := Option.map_eq_some_iff.mp hleft
    obtain ⟨hc, hkind⟩ := Option.filter_eq_some_iff.mp hc
    have hlt := (List.getElem?_eq_some_iff.mp hget).1
    have hi : records[i]? = some records[i] := List.getElem?_eq_getElem (hlength ▸ hlt)
    obtain ⟨result', hget', hresult⟩ := hstands i _ hi
    obtain rfl := Option.some.inj (hget.symm.trans hget')
    rw [List.getElem?_map, List.getElem?_zipIdx, hi, Nat.zero_add]
    obtain ⟨action, c'⟩ := result
    obtain rfl : c' = some c := hc
    cases hresult with
    | repeats _ _ hexact => simp [hexact] at hkind
    | conflicts _ _ _ _ hleft => exact congrArg some hleft.symm
  · rcases hsource c hc with ⟨i, action, hget⟩ | ⟨hperson, hc⟩
    · have hlt := (List.getElem?_eq_some_iff.mp hget).1
      obtain ⟨result, hget', hresult⟩ := hstands i _ (List.getElem?_eq_getElem (hlength ▸ hlt))
      obtain rfl := Option.some.inj (hget.symm.trans hget')
      cases hresult with
      | repeats _ _ hexact =>
        rw [hexact] at hkind
        cases hkind
      | conflicts _ _ _ hconflict _ =>
        rw [hconflict] at hkind
        cases hkind
    · have hfirst : ∀ e ∈ found.2.map Prod.snd, FirstCopy records e.1 e.2 := by
        intro e he
        obtain ⟨⟨k, i, record⟩, hmem, rfl⟩ := List.mem_map.mp he
        exact ((hall.2 k i record).mp (Table.get_of_mem hall.1 hmem)).2
      obtain ⟨e, he, hc⟩ := List.mem_flatMap.mp hc
      obtain ⟨-, hleft, hright⟩ := mem_peopleOf hc
      refine ⟨hperson, e.1, e.2, hfirst e he, hleft, hright.imp_left ?_⟩
      rintro ⟨e', he', hlt, hright⟩
      exact ⟨e'.1, e'.2, hlt, hfirst e' he', hright⟩

end GuruJi.Ingestion
