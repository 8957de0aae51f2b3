import GuruJi.Ingestion.Skips
import GuruJi.Lib.Repeats

/-!
# People matched one by one

The blocks of `_probable_people` decide which people are compared, not what is asked of them. Two people
that match share a value that is left out for neither, and so a block (`exists_block`). The questions are
those that comparing the first rows of all keys one by one asks, where a row that updates a record on
file is not compared with other records on file.

* `people_one_by_one`: the same questions, each once, for any batch and any existing records.
-/

namespace GuruJi.Ingestion

open GuruJi.Lib GuruJi.Records

variable {N D : Type} [Python N] {entity : CanonicalEntity}

/-! ## One by one -/

/-- How many of the rows and of the records that exist have a value. -/
def sharers (rows : List (Nat × CanonicalRecord N entity)) (existing : Table String (Fields N))
    (block : String) : Nat :=
  rows.countP (fun e => (blockKeys (personView e.2.fields)).contains block) +
    existing.countP fun e => (blockKeys (personView e.2)).contains block

/-- The values that more records share than a block may hold. -/
def sharedValues (rows : List (Nat × CanonicalRecord N entity)) (existing : Table String (Fields N)) :
    List String :=
  ((rows.flatMap fun e => blockKeys (personView e.2.fields)) ++
    existing.flatMap fun e => blockKeys (personView e.2)).filter
      fun block => maxBlockSize < sharers rows existing block

/-- The first rows of the keys that rows have, with their positions. -/
def firstCopies (records : List (CanonicalRecord N entity)) : List (Nat × CanonicalRecord N entity) :=
  (records.zipIdx.filter fun e => !missingKey e.1.recordKey &&
    (records.take e.2).all fun other => other.recordKey ≠ e.1.recordKey).map Prod.swap

/-- A row that updates a record on file creates no new identity. -/
def asked (existing : Table String (Fields N)) (left : CanonicalRecord N entity) :
    Option (CanonicalRecord N entity) → Bool
  | some right =>
    !((existing.get left.recordKey).isSome && (existing.get right.recordKey).isSome)
  | none => !(existing.get left.recordKey).isSome

section
variable [Similarity N]

/-- The matching rule: what two people are found to share, when they match. -/
def matched (left right : Fields N) (ignored : List String) :
    Option (N × Table String (Evidence N)) :=
  let signals := personSignals (personView left) (personView right) ignored
  if Python.le nameSimilarityThreshold signals.1 then some signals else none

def rowCandidate (left right : Nat × CanonicalRecord N entity)
    (signals : N × Table String (Evidence N)) : DuplicateCandidate N :=
  ⟨.probablePerson, locatorOf left.1 left.2, right.2.lineage.sourceLocator, some right.2.recordKey,
    signals.1, signals.2⟩

def recordCandidate (left : Nat × CanonicalRecord N entity) (key : String)
    (signals : N × Table String (Evidence N)) : DuplicateCandidate N :=
  ⟨.probablePerson, locatorOf left.1 left.2, none, some key, signals.1,
    signals.2.assign "existing_record_key" (.text key)⟩

/-- The later rows that a row matches, of those it is compared with. -/
def matchedRows (rows : List (Nat × CanonicalRecord N entity)) (ignored : List String)
    (may : CanonicalRecord N entity → Option (CanonicalRecord N entity) → Bool)
    (left : Nat × CanonicalRecord N entity) :
    Table Nat (CanonicalRecord N entity × N × Table String (Evidence N)) :=
  (rows.filter fun right => left.1 < right.1 && may left.2 (some right.2)).filterMap fun right =>
    (matched left.2.fields right.2.fields ignored).map fun signals => (right.1, right.2, signals)

/-- The records that exist that a row matches, of those it is compared with. -/
def matchedRecords (existing : Table String (Fields N)) (ignored : List String)
    (may : CanonicalRecord N entity → Option (CanonicalRecord N entity) → Bool)
    (left : Nat × CanonicalRecord N entity) : Table String (N × Table String (Evidence N)) :=
  (existing.filter fun _ => may left.2 none).filterMap fun e =>
    (matched left.2.fields e.2 ignored).map fun signals => (e.1, signals)

/-- Every pair of rows and every row with every record that exists, where `may` lets them be compared. -/
def oneByOne (rows : List (Nat × CanonicalRecord N entity)) (existing : Table String (Fields N))
    (may : CanonicalRecord N entity → Option (CanonicalRecord N entity) → Bool) :
    List (DuplicateCandidate N) :=
  rows.flatMap fun left =>
    (matchedRows rows (sharedValues rows existing) may left).map
        (fun hit => rowCandidate left (hit.1, hit.2.1) hit.2.2) ++
      (matchedRecords existing (sharedValues rows existing) may left).map
        fun hit => recordCandidate left hit.1 hit.2

end

/-! ## Blocks -/

/-- Each column of a person is null, or has more than spaces in it. -/
def Filled (fields : Fields N) : Prop :=
  ∀ name ∈ personFields, fields name = .null ∨
    Records.strip (Python.isSpace N) (fields name).str ≠ ""

instance [DecidableEq N] (fields : Fields N) : Decidable (Filled fields) :=
  inferInstanceAs (Decidable (∀ name ∈ personFields, fields name = .null ∨
    Records.strip (Python.isSpace N) (fields name).str ≠ ""))

omit [Python N] in
theorem personView_of_mem {fields : Fields N} {name : String} (h : name ∈ personFields) :
    personView fields name = fields name := by
  rw [personView, if_pos (List.contains_iff_mem.mpr h)]

theorem corroborating_personField {name : String} (h : name ∈ corroboratingFields) :
    name ∈ personFields := by
  revert name
  decide

theorem norm_ne_empty (hlower : ∀ s, Python.lower N s = "" → s = "") {v : Value N}
    (htruthy : v.truthy = true) (hfilled : v = .null ∨ Records.strip (Python.isSpace N) v.str ≠ "") :
    norm v ≠ "" := by
  rcases hfilled with rfl | hfilled
  · cases htruthy
  · have hnull : v.isNull = false := by
      cases v with
      | null => cases htruthy
      | _ => rfl
    have hstr : v.str ≠ "" := by
      intro hempty
      rw [hempty] at hfilled
      exact hfilled rfl
    rw [norm, hnull, if_neg Bool.false_ne_true, if_neg hstr]
    exact fun h => hfilled (hlower _ h)

theorem mem_blockKeys_of_corroborating {fields : Fields N} {key : String}
    (hkey : key ∈ corroboratingFields) (hnorm : norm (fields key) ≠ "") :
    key ++ ":" ++ norm (fields key) ∈ blockKeys fields := by
  rw [blockKeys]
  refine List.mem_append_left _ (List.mem_map.mpr ⟨key, ?_, rfl⟩)
  exact List.mem_filter.mpr ⟨hkey, decide_eq_true hnorm⟩

theorem nodup_blockKeys (fields : Fields N) : (blockKeys fields).Nodup := by
  let letter (text : String) : Option Char := text.toList.head?
  have hletter : ∀ key ∈ corroboratingFields, ∀ rest, letter (key ++ ":" ++ rest) = letter key := by
    intro key hkey rest
    simp only [corroboratingFields, List.mem_cons, List.not_mem_nil, or_false] at hkey
    rcases hkey with rfl | rfl | rfl | rfl <;> simp [letter]
  have hname : ∀ rest, letter ("name:" ++ rest) = some 'n' := fun rest => by simp [letter]
  have hsub : ((blockKeys fields).map letter).Sublist
      (corroboratingFields.map letter ++ [some 'n']) := by
    rw [blockKeys, List.map_append, List.map_map]
    refine List.Sublist.append ?_ ?_
    · have hmap : (corroboratingFields.filter fun name => decide (norm (fields name) ≠ "")).map
          (letter ∘ fun name => name ++ ":" ++ norm (fields name)) =
            (corroboratingFields.filter fun name => decide (norm (fields name) ≠ "")).map letter :=
        List.map_congr_left fun key hkey => hletter key (List.mem_of_mem_filter hkey) _
      rw [hmap]
      exact List.filter_sublist.map letter
    · split
      · rw [List.map_singleton, String.append_assoc, String.append_assoc, hname]
      · exact List.nil_sublist _
  exact List.Nodup.of_map letter (hsub.nodup (by decide))

section
variable [Similarity N]

/-- A match is a value that two people share, and that is not left out: a block of both. -/
theorem exists_block {left right : Fields N} {ignored : List String}
    {signals : N × Table String (Evidence N)}
    (hlower : ∀ s, Python.lower N s = "" → s = "")
    (hzero : Python.le (nameSimilarityThreshold : N) (Python.ofInt 0) = false) (hfilled : Filled left)
    (h : matched left right ignored = some signals) :
    ∃ block ∈ blockKeys (personView left), block ∈ blockKeys (personView right) ∧
      block ∉ ignored := by
  rw [matched] at h
  split_ifs at h with hscore
  rw [personSignals] at hscore
  dsimp only at hscore
  split_ifs at hscore with hnone hlow
  · exact absurd hscore (Bool.eq_false_iff.mp hzero)
  · exact absurd hscore (Bool.eq_false_iff.mp hzero)
  · rw [List.isEmpty_iff] at hnone
    obtain ⟨key, hmem⟩ := List.exists_mem_of_ne_nil _ hnone
    obtain ⟨hkey, hmatch⟩ := List.mem_filter.mp hmem
    simp only [matching, Bool.and_eq_true, decide_eq_true_eq, Bool.not_eq_true'] at hmatch
    obtain ⟨⟨⟨htruthy, -⟩, hsame⟩, hshared⟩ := hmatch
    have hperson := corroborating_personField hkey
    have hnorm : norm (personView left key) ≠ "" := by
      refine norm_ne_empty hlower htruthy ?_
      rw [personView_of_mem hperson]
      exact hfilled key hperson
    refine ⟨_, mem_blockKeys_of_corroborating hkey hnorm, ?_, fun hmem => ?_⟩
    · rw [hsame] at hnorm ⊢
      exact mem_blockKeys_of_corroborating hkey hnorm
    · rw [List.contains_iff_mem.mpr hmem] at hshared
      cases hshared

theorem matched_congr (left right : Fields N) {ignored ignored' : List String}
    (h : ∀ block, block ∈ ignored ↔ block ∈ ignored') :
    matched left right ignored = matched left right ignored' := by
  have hcontains : ∀ block, ignored.contains block = ignored'.contains block := fun block =>
    Bool.eq_iff_iff.mpr (by rw [List.contains_iff_mem, List.contains_iff_mem, h])
  simp only [matched, personSignals, hcontains]

/-! ## What a row is found to match -/

/-- What a row finds in an entry of a block, of its own batch. -/
def batchHit (existing : Table String (Fields N)) (ignored : List String)
    (left : Nat × CanonicalRecord N entity) : Member N entity →
      Option (Nat × CanonicalRecord N entity × N × Table String (Evidence N))
  | .batch other record =>
    if left.1 < other && asked existing left.2 (some record) then
      (matched left.2.fields record.fields ignored).map fun signals => (other, record, signals)
    else none
  | .existing .. => none

/-- What a row finds in an entry of a block, of the records that exist. -/
def existingHit (existing : Table String (Fields N)) (ignored : List String)
    (left : Nat × CanonicalRecord N entity) :
    Member N entity → Option (String × N × Table String (Evidence N))
  | .batch .. => none
  | .existing key fields =>
    if asked existing left.2 none && decide (key ≠ left.2.recordKey) then
      (matched left.2.fields fields ignored).map fun signals => (key, signals)
    else none

variable {existing : Table String (Fields N)} {ignored : List String}
variable {left : Nat × CanonicalRecord N entity} {hits : Hits N entity}

theorem compareWith_eq (m : Member N entity) : compareWith existing ignored left.1 left.2 hits m =
      ⟨(batchHit existing ignored left m).elim hits.batch hits.batch.note,
        (existingHit existing ignored left m).elim hits.existing hits.existing.note⟩ := by
  cases m with
  | batch other record =>
    rw [compareWith, batchHit, existingHit, asked, matched]
    by_cases hlt : left.1 < other
    · have hle : decide (other ≤ left.1) = false := decide_eq_false (not_le.mpr hlt)
      rw [hle, decide_eq_true hlt]
      cases (existing.get left.2.recordKey).isSome && (existing.get record.recordKey).isSome
      · by_cases hknown : (hits.batch.get other).isSome = true
        · split_ifs <;> simp_all [Table.note]
        · split_ifs <;> simp_all [Table.note]
      · simp
    · simp [hlt, not_lt.mp hlt]
  | existing key fields =>
    rw [compareWith, batchHit, existingHit, asked, matched]
    cases (existing.get left.2.recordKey).isSome
    · by_cases hkey : key = left.2.recordKey
      · simp [hkey]
      · by_cases hknown : (hits.existing.get key).isSome = true
        · split_ifs <;> simp_all [Table.note]
        · split_ifs <;> simp_all [Table.note]
    · simp

theorem foldl_compareWith (members : List (Member N entity)) :
    members.foldl (compareWith existing ignored left.1 left.2) hits =
      ⟨(members.filterMap (batchHit existing ignored left)).foldl Table.note hits.batch,
        (members.filterMap (existingHit existing ignored left)).foldl Table.note hits.existing⟩ := by
  induction members generalizing hits with
  | nil => rfl
  | cons m members ih =>
    rw [List.foldl_cons, ih, compareWith_eq, List.filterMap_cons, List.filterMap_cons]
    cases batchHit existing ignored left m <;> cases existingHit existing ignored left m <;> rfl

end

/-! ## What blocks hold -/

variable {keyed : List (Nat × CanonicalRecord N entity)} {existing : Table String (Fields N)}

def Member.Under (keyed : List (Nat × CanonicalRecord N entity)) (existing : Table String (Fields N))
    (block : String) : Member N entity → Prop
  | .batch other record => (other, record) ∈ keyed ∧ block ∈ blockKeys (personView record.fields)
  | .existing key fields => (key, fields) ∈ existing ∧ block ∈ blockKeys (personView fields)

variable {block : String}

theorem mem_block (hlimit : keyed.length ≤ maxPairwiseRows) {m : Member N entity} :
    m ∈ ((blocksOf keyed existing).get block).getD [] ↔ m.Under keyed existing block := by
  rw [blocksOf, if_pos hlimit, Table.getD_foldl_push _ Prod.fst Prod.snd]
  cases m with
  | batch other record =>
    constructor
    · intro h
      simpa [Table.get, Member.Under, and_comm] using h
    · rintro ⟨hmem, hblock⟩
      simpa [Table.get] using ⟨hmem, hblock⟩
  | existing key fields =>
    constructor
    · intro h
      simpa [Table.get, Member.Under, and_comm] using h
    · rintro ⟨hmem, hblock⟩
      simpa [Table.get] using ⟨hmem, hblock⟩

theorem countP_blocks {α : Type} (l : List α) (person : α → Fields N) (member : α → Member N entity)
    (block : String) :
    (l.flatMap fun a => (blockKeys (person a)).map fun b => (b, member a)).countP (·.1 = block) =
      l.countP fun a => (blockKeys (person a)).contains block := by
  induction l with
  | nil => rfl
  | cons a l ih =>
    have hone : ((blockKeys (person a)).map fun b => (b, member a)).countP (·.1 = block) =
        if (blockKeys (person a)).contains block then 1 else 0 := by
      rw [List.countP_map]
      show (blockKeys (person a)).count block = _
      rw [(nodup_blockKeys _).count]
      simp only [List.contains_iff_mem]
    rw [List.flatMap_cons, List.countP_append, List.countP_cons, ih, hone, Nat.add_comm]

theorem length_block (hlimit : keyed.length ≤ maxPairwiseRows) (block : String) :
    (((blocksOf keyed existing).get block).getD []).length = sharers keyed existing block := by
  rw [blocksOf, if_pos hlimit, Table.getD_foldl_push _ Prod.fst Prod.snd, Table.get, Option.getD_none,
    List.nil_append, List.length_map, ← List.countP_eq_length_filter, List.countP_append, sharers,
    countP_blocks, countP_blocks]

theorem mem_sharedValues :
    block ∈ sharedValues keyed existing ↔ maxBlockSize < sharers keyed existing block := by
  rw [sharedValues, List.mem_filter, decide_eq_true_eq]
  refine and_iff_right_of_imp fun hmany => ?_
  have hsome : 0 < sharers keyed existing block := Nat.zero_lt_of_lt hmany
  rw [sharers, Nat.add_pos_iff_pos_or_pos, List.countP_pos_iff, List.countP_pos_iff] at hsome
  rcases hsome with ⟨e, he, hblock⟩ | ⟨e, he, hblock⟩
  · refine List.mem_append_left _ (List.mem_flatMap.mpr ⟨e, he, ?_⟩)
    exact List.contains_iff_mem.mp hblock
  · refine List.mem_append_right _ (List.mem_flatMap.mpr ⟨e, he, ?_⟩)
    exact List.contains_iff_mem.mp hblock

theorem mem_ignored (hlimit : keyed.length ≤ maxPairwiseRows) :
    block ∈ ((blocksOf keyed existing).filter fun b => maxBlockSize < b.2.length).map Prod.fst ↔
      block ∈ sharedValues keyed existing := by
  rw [mem_sharedValues, ← length_block hlimit, List.mem_map]
  have hnodup : ((blocksOf keyed existing).map Prod.fst).Nodup :=
    Table.nodup_keys_foldl_push _ Prod.fst Prod.snd List.nodup_nil
  constructor
  · rintro ⟨⟨b, members⟩, hmem, rfl⟩
    obtain ⟨hmem, hlength⟩ := List.mem_filter.mp hmem
    rw [Table.get_of_mem hnodup hmem]
    exact of_decide_eq_true hlength
  · intro hlength
    cases hget : (blocksOf keyed existing).get block with
    | none =>
      rw [hget] at hlength
      exact absurd hlength (Nat.not_lt_zero _)
    | some members =>
      rw [hget] at hlength
      exact ⟨_, List.mem_filter.mpr ⟨Table.mem_of_get hget, decide_eq_true hlength⟩, rfl⟩

/-! ## The same matches -/

section
variable [Similarity N] {ignored : List String} {left : Nat × CanonicalRecord N entity}

theorem keys_filterMap_sublist {α κ ρ : Type} {f : α → Option (κ × ρ)} (key : α → κ)
    (h : ∀ a b, f a = some b → b.1 = key a) (l : List α) :
    ((l.filterMap f).map Prod.fst).Sublist (l.map key) := by
  induction l with
  | nil => exact List.nil_sublist _
  | cons a l ih =>
    cases hf : f a with
    | none =>
      rw [List.filterMap_cons_none hf]
      exact ih.cons _
    | some b =>
      rw [List.filterMap_cons_some hf, List.map_cons, List.map_cons, h a b hf]
      exact ih.cons_cons _

variable {may : CanonicalRecord N entity → Option (CanonicalRecord N entity) → Bool}
  {rows : List (Nat × CanonicalRecord N entity)}

theorem mem_matchedRows {e : Nat × CanonicalRecord N entity × N × Table String (Evidence N)} :
    e ∈ matchedRows rows ignored may left ↔ (e.1, e.2.1) ∈ rows ∧ left.1 < e.1 ∧
      may left.2 (some e.2.1) = true ∧ matched left.2.fields e.2.1.fields ignored = some e.2.2 := by
  simp only [matchedRows, List.mem_filterMap, List.mem_filter, Bool.and_eq_true, decide_eq_true_eq,
    Option.map_eq_some_iff]
  constructor
  · rintro ⟨right, ⟨hmem, hlt, hmay⟩, signals, hsignals, rfl⟩
    exact ⟨hmem, hlt, hmay, hsignals⟩
  · rintro ⟨hmem, hlt, hmay, hsignals⟩
    exact ⟨_, ⟨hmem, hlt, hmay⟩, _, hsignals, rfl⟩

theorem mem_matchedRecords {e : String × N × Table String (Evidence N)} :
    e ∈ matchedRecords existing ignored may left ↔ may left.2 none = true ∧
      ∃ fields, (e.1, fields) ∈ existing ∧ matched left.2.fields fields ignored = some e.2 := by
  simp only [matchedRecords, List.mem_filterMap, List.mem_filter, Option.map_eq_some_iff]
  constructor
  · rintro ⟨entry, ⟨hmem, hmay⟩, signals, hsignals, rfl⟩
    exact ⟨hmay, entry.2, hmem, hsignals⟩
  · rintro ⟨hmay, fields, hmem, hsignals⟩
    exact ⟨_, ⟨hmem, hmay⟩, _, hsignals, rfl⟩

theorem nodup_matchedRows
    (h : (rows.map Prod.fst).Nodup) : ((matchedRows rows ignored may left).map Prod.fst).Nodup := by
  refine List.Sublist.nodup ?_ h
  refine (keys_filterMap_sublist Prod.fst (fun right e he => ?_) _).trans
    (List.filter_sublist.map _)
  obtain ⟨signals, -, rfl⟩ := Option.map_eq_some_iff.mp he
  rfl

theorem nodup_matchedRecords (h : (existing.map Prod.fst).Nodup) :
    ((matchedRecords existing ignored may left).map Prod.fst).Nodup := by
  refine List.Sublist.nodup ?_ h
  refine (keys_filterMap_sublist Prod.fst (fun entry e he => ?_) _).trans
    (List.filter_sublist.map _)
  obtain ⟨signals, -, rfl⟩ := Option.map_eq_some_iff.mp he
  rfl

/-- The entries of the blocks that a row is looked up in. -/
def lookedUp (blocks : Table String (List (Member N entity))) (ignored : List String)
    (left : Nat × CanonicalRecord N entity) : List (Member N entity) :=
  ((blockKeys (personView left.2.fields)).filter fun b => !ignored.contains b).flatMap
    fun b => (blocks.get b).getD []

theorem hitsOf_eq {blocks : Table String (List (Member N entity))} :
    hitsOf existing blocks ignored left.1 left.2 =
      ⟨((lookedUp blocks ignored left).filterMap (batchHit existing ignored left)).foldl Table.note [],
        ((lookedUp blocks ignored left).filterMap (existingHit existing ignored left)).foldl
          Table.note []⟩ :=
  foldl_compareWith _

omit [Similarity N] in
theorem mem_lookedUp (hlimit : keyed.length ≤ maxPairwiseRows) {m : Member N entity} :
    m ∈ lookedUp (blocksOf keyed existing) ignored left ↔
      ∃ block ∈ blockKeys (personView left.2.fields), block ∉ ignored ∧
        m.Under keyed existing block := by
  simp only [lookedUp, List.mem_flatMap, List.mem_filter, Bool.not_eq_true', mem_block hlimit]
  constructor
  · rintro ⟨block, ⟨hblock, hshared⟩, hm⟩
    refine ⟨block, hblock, fun hmem => ?_, hm⟩
    rw [List.contains_iff_mem.mpr hmem] at hshared
    cases hshared
  · rintro ⟨block, hblock, hshared, hm⟩
    exact ⟨block, ⟨hblock, Bool.eq_false_iff.mpr fun h => hshared (List.contains_iff_mem.mp h)⟩, hm⟩

theorem batchHits_perm (hlower : ∀ s, Python.lower N s = "" → s = "")
    (hzero : Python.le (nameSimilarityThreshold : N) (Python.ofInt 0) = false)
    (hlimit : keyed.length ≤ maxPairwiseRows) (hkeyed : (keyed.map Prod.fst).Nodup)
    (hfilled : Filled left.2.fields) :
    (hitsOf existing (blocksOf keyed existing) ignored left.1 left.2).batch.Perm
      (matchedRows keyed ignored (asked existing) left) := by
  have hfound : ∀ e, e ∈ (lookedUp (blocksOf keyed existing) ignored left).filterMap
      (batchHit existing ignored left) ↔ e ∈ matchedRows keyed ignored (asked existing) left := by
    intro e
    rw [List.mem_filterMap, mem_matchedRows]
    constructor
    · rintro ⟨m, hm, hhit⟩
      obtain ⟨block, -, -, hunder⟩ := (mem_lookedUp hlimit).mp hm
      cases m with
      | existing => cases hhit
      | batch other record =>
        rw [batchHit] at hhit
        split_ifs at hhit with hmay
        obtain ⟨signals, hsignals, rfl⟩ := Option.map_eq_some_iff.mp hhit
        obtain ⟨hlt, hasked⟩ := Bool.and_eq_true_iff.mp hmay
        exact ⟨hunder.1, of_decide_eq_true hlt, hasked, hsignals⟩
    · rintro ⟨hmem, hlt, hasked, hsignals⟩
      obtain ⟨block, hleft, hright, hshared⟩ := exists_block hlower hzero hfilled hsignals
      refine ⟨.batch e.1 e.2.1, (mem_lookedUp hlimit).mpr ⟨block, hleft, hshared, hmem, hright⟩, ?_⟩
      rw [batchHit, decide_eq_true hlt, hasked, Bool.and_self, if_pos rfl, hsignals]
      rfl
  rw [hitsOf_eq]
  exact Table.foldl_note_perm (nodup_matchedRows hkeyed) hfound

theorem existingHits_perm (hlower : ∀ s, Python.lower N s = "" → s = "")
    (hzero : Python.le (nameSimilarityThreshold : N) (Python.ofInt 0) = false)
    (hlimit : keyed.length ≤ maxPairwiseRows) (hkeys : (existing.map Prod.fst).Nodup)
    (hfilled : Filled left.2.fields) :
    (hitsOf existing (blocksOf keyed existing) ignored left.1 left.2).existing.Perm
      (matchedRecords existing ignored (asked existing) left) := by
  have hfound : ∀ e, e ∈ (lookedUp (blocksOf keyed existing) ignored left).filterMap
      (existingHit existing ignored left) ↔
        e ∈ matchedRecords existing ignored (asked existing) left := by
    intro e
    rw [List.mem_filterMap, mem_matchedRecords]
    constructor
    · rintro ⟨m, hm, hhit⟩
      obtain ⟨block, -, -, hunder⟩ := (mem_lookedUp hlimit).mp hm
      cases m with
      | batch => cases hhit
      | existing key fields =>
        rw [existingHit] at hhit
        split_ifs at hhit with hmay
        obtain ⟨signals, hsignals, rfl⟩ := Option.map_eq_some_iff.mp hhit
        exact ⟨(Bool.and_eq_true_iff.mp hmay).1, fields, hunder.1, hsignals⟩
    · rintro ⟨hasked, fields, hmem, hsignals⟩
      obtain ⟨block, hleft, hright, hshared⟩ := exists_block hlower hzero hfilled hsignals
      refine ⟨.existing e.1 fields, (mem_lookedUp hlimit).mpr ⟨block, hleft, hshared, hmem, hright⟩, ?_⟩
      -- a row that is compared with records on file has none under its own key
      have hother : e.1 ≠ left.2.recordKey := by
        intro heq
        rw [asked, Bool.not_eq_true', ← heq, Table.get_of_mem hkeys hmem] at hasked
        cases hasked
      rw [existingHit, hasked, decide_eq_true hother, Bool.and_self, if_pos rfl, hsignals]
      rfl
  rw [hitsOf_eq]
  exact Table.foldl_note_perm (nodup_matchedRecords hkeys) hfound

theorem peopleOf_perm (hlower : ∀ s, Python.lower N s = "" → s = "")
    (hzero : Python.le (nameSimilarityThreshold : N) (Python.ofInt 0) = false)
    (hlimit : keyed.length ≤ maxPairwiseRows) (hkeyed : (keyed.map Prod.fst).Nodup)
    (hkeys : (existing.map Prod.fst).Nodup) (hfilled : Filled left.2.fields) :
    (peopleOf existing (blocksOf keyed existing) ignored left.1 left.2).Perm
      ((matchedRows keyed ignored (asked existing) left).map
          (fun hit => rowCandidate left (hit.1, hit.2.1) hit.2.2) ++
        (matchedRecords existing ignored (asked existing) left).map
          fun hit => recordCandidate left hit.1 hit.2) := by
  refine List.Perm.append (List.Perm.map _ ?_) (List.Perm.map _ ?_)
  · exact (List.perm_insertionSort _ _).trans (batchHits_perm hlower hzero hlimit hkeyed hfilled)
  · exact (List.perm_insertionSort _ _).trans (existingHits_perm hlower hzero hlimit hkeys hfilled)

theorem matchedRows_perm {rows rows' : List (Nat × CanonicalRecord N entity)} {ignored' : List String}
    (hrows : rows.Perm rows') (hignored : ∀ block, block ∈ ignored ↔ block ∈ ignored') :
    (matchedRows rows ignored may left).Perm (matchedRows rows' ignored' may left) := by
  simp only [matchedRows, matched_congr _ _ hignored]
  exact (hrows.filter _).filterMap _

theorem matchedRecords_congr {ignored' : List String}
    (hignored : ∀ block, block ∈ ignored ↔ block ∈ ignored') :
    matchedRecords existing ignored may left = matchedRecords existing ignored' may left := by
  simp only [matchedRecords, matched_congr _ _ hignored]

theorem probablePeople_perm (hlower : ∀ s, Python.lower N s = "" → s = "")
    (hzero : Python.le (nameSimilarityThreshold : N) (Python.ofInt 0) = false)
    (hlimit : keyed.length ≤ maxPairwiseRows) (hkeyed : (keyed.map Prod.fst).Nodup)
    (hkeys : (existing.map Prod.fst).Nodup) (hfilled : ∀ e ∈ keyed, Filled e.2.fields)
    (hrows : keyed.Perm rows) :
    (probablePeople keyed existing).1.Perm (oneByOne rows existing (asked existing)) := by
  have hignored : ∀ block, block ∈ ((blocksOf keyed existing).filter
      fun b => maxBlockSize < b.2.length).map Prod.fst ↔ block ∈ sharedValues rows existing := by
    intro block
    rw [mem_ignored hlimit, mem_sharedValues, mem_sharedValues, sharers, sharers, hrows.countP_eq]
  refine List.Perm.trans (List.Perm.flatMap_left keyed fun e he => ?_) (hrows.flatMap_right _)
  refine (peopleOf_perm hlower hzero hlimit hkeyed hkeys (hfilled e he)).trans ?_
  rw [matchedRecords_congr hignored]
  exact ((matchedRows_perm hrows hignored).map _).append_right _

end

/-! ## The whole batch -/

section
variable {records : List (CanonicalRecord N entity)}

theorem mem_firstCopies {i : Nat} {record : CanonicalRecord N entity} :
    (i, record) ∈ firstCopies records ↔ FirstCopy records i record := by
  simp only [firstCopies, List.mem_map, List.mem_filter, List.mem_zipIdx_iff_getElem?,
    Bool.and_eq_true, Bool.not_eq_true', List.all_eq_true, decide_eq_true_eq]
  constructor
  · rintro ⟨⟨record', i'⟩, ⟨hi, hkey, hbefore⟩, heq⟩
    obtain ⟨rfl, rfl⟩ := Prod.mk.inj heq
    refine ⟨hi, hkey, fun j other hj hsame => ?_⟩
    by_contra hlt
    refine hbefore other (List.mem_of_getElem? (i := j) ?_) hsame
    rw [List.getElem?_take_of_lt (not_le.mp hlt)]
    exact hj
  · rintro ⟨hi, hkey, hleast⟩
    refine ⟨(record, i), ⟨hi, hkey, fun other hother hsame => ?_⟩, rfl⟩
    obtain ⟨j, hj⟩ := List.mem_iff_getElem?.mp hother
    have hlt : j < i := by
      have hlength := (List.getElem?_eq_some_iff.mp hj).1
      rw [List.length_take] at hlength
      omega
    rw [List.getElem?_take_of_lt hlt] at hj
    exact absurd (hleast j other hj hsame) (not_le.mpr hlt)

theorem positions_firstCopies (records : List (CanonicalRecord N entity)) :
    ((firstCopies records).map Prod.fst).Sublist (List.range records.length) := by
  have hpositions : records.zipIdx.map Prod.snd = List.range records.length := by
    rw [List.zipIdx_map_snd, List.range_eq_range']
  rw [firstCopies, List.map_map, ← hpositions]
  exact List.filter_sublist.map Prod.snd

theorem HoldsFirst.perm {first : Table String (Nat × CanonicalRecord N entity)}
    (h : HoldsFirst records first) : (first.map Prod.snd).Perm (firstCopies records) := by
  have hfirst : ∀ e ∈ first, e.2.2.recordKey = e.1 ∧ FirstCopy records e.2.1 e.2.2 := fun e he =>
    (h.2 e.1 e.2.1 e.2.2).mp (Table.get_of_mem h.1 he)
  refine (List.perm_ext_iff_of_nodup ?_ ?_).mpr fun e => ?_
  · refine List.Nodup.map_on (fun e he e' he' heq => ?_) (.of_map _ h.1)
    refine Prod.ext ?_ heq
    rw [← (hfirst e he).1, ← (hfirst e' he').1, heq]
  · exact .of_map _ ((positions_firstCopies records).nodup List.nodup_range)
  · rw [List.mem_map, mem_firstCopies]
    constructor
    · rintro ⟨entry, hentry, rfl⟩
      exact (hfirst entry hentry).2
    · intro hcopy
      exact ⟨_, Table.mem_of_get ((h.2 _ e.1 e.2).mpr ⟨rfl, hcopy⟩), rfl⟩

variable [DecidableEq D]

theorem kind_of_mem_classifyAll (digest : List (String × Value N) → List (String × Value N) → D)
    {existing : Table String (Fields N)} {first : Table String (Nat × CanonicalRecord N entity)}
    {index : Nat} {result : RowAction × Option (DuplicateCandidate N)} {c : DuplicateCandidate N}
    (h : result ∈ (classifyAll digest existing first index records).1) (hc : result.2 = some c) :
    c.kind ≠ .probablePerson := by
  induction records generalizing first index with
  | nil => cases h
  | cons record records ih =>
    rw [classifyAll] at h
    rcases List.mem_cons.mp h with rfl | h
    · rw [classify] at hc
      by_cases hkey : missingKey record.recordKey = true
      · rw [if_pos hkey] at hc
        cases hc
      · rw [if_neg hkey] at hc
        cases hget : first.get record.recordKey with
        | none =>
          rw [hget] at hc
          cases hc
        | some copy =>
          rw [hget] at hc
          obtain rfl : (compareCopies digest index record copy.2).2 = c := Option.some.inj hc
          rw [compareCopies]
          split_ifs <;> exact fun hkind => by cases hkind
    · exact ih h

/-- **The questions about people are those of comparing one by one** the first rows of all keys, and the
rows that update nothing with every record on file: the same questions, each as often. -/
theorem people_one_by_one [Similarity N]
    (digest : List (String × Value N) → List (String × Value N) → D)
    (records : List (CanonicalRecord N entity)) (existing : Table String (Fields N))
    (hlower : ∀ s, Python.lower N s = "" → s = "")
    (hzero : Python.le (nameSimilarityThreshold : N) (Python.ofInt 0) = false)
    (hlimit : records.length ≤ maxPairwiseRows) (hfilled : ∀ record ∈ records, Filled record.fields)
    (hkeys : (existing.map Prod.fst).Nodup) :
    ((findDuplicates digest records existing).candidates.filter (·.kind = .probablePerson)).Perm
      (if isPerson entity then oneByOne (firstCopies records) existing (asked existing) else []) := by
  have hnone : HoldsFirst ([] : List (CanonicalRecord N entity)) [] :=
    ⟨List.nodup_nil, fun k i record => ⟨nofun, fun h => nomatch h.2.1⟩⟩
  obtain ⟨hall, -, -⟩ := classifyAll_spec digest existing records hnone
  rw [List.nil_append, List.length_nil] at hall
  have hcandidates : (findDuplicates digest records existing).candidates =
      (classifyAll digest existing [] 0 records).1.filterMap Prod.snd ++
        (if !records.isEmpty && isPerson entity then probablePeople
          ((classifyAll digest existing [] 0 records).2.map Prod.snd) existing else ([], [])).1 := rfl
  set first := (classifyAll digest existing [] 0 records).2
  have hperm := hall.perm
  have hcopies : ((classifyAll digest existing [] 0 records).1.filterMap Prod.snd).filter
      (·.kind = .probablePerson) = [] := by
    refine List.filter_eq_nil_iff.mpr fun c hc => ?_
    obtain ⟨result, hresult, hsome⟩ := List.mem_filterMap.mp hc
    exact mt of_decide_eq_true (kind_of_mem_classifyAll digest hresult hsome)
  rw [hcandidates, List.filter_append, hcopies, List.nil_append]
  cases hperson : isPerson entity with
  | false =>
    rw [Bool.and_false, if_neg Bool.false_ne_true, if_neg Bool.false_ne_true]
    exact List.Perm.nil
  | true =>
    rw [if_pos rfl, Bool.and_true]
    have hpeople : ((probablePeople (first.map Prod.snd) existing).1.filter
        (·.kind = .probablePerson)).Perm (oneByOne (firstCopies records) existing (asked existing)) := by
      rw [List.filter_eq_self.mpr fun c hc => ?_]
      · refine probablePeople_perm hlower hzero ?_ ?_ hkeys (fun e he => ?_) hperm
        · have hle := (positions_firstCopies records).length_le
          rw [List.length_map, List.length_range] at hle
          exact hperm.length_eq.trans_le (hle.trans hlimit)
        · exact (hperm.map Prod.fst).nodup_iff.mpr
            ((positions_firstCopies records).nodup List.nodup_range)
        · exact hfilled _ (List.mem_of_getElem? (mem_firstCopies.mp (hperm.mem_iff.mp he)).1)
      · obtain ⟨e, -, hc⟩ := List.mem_flatMap.mp hc
        exact decide_eq_true (mem_peopleOf hc).1
    cases records with
    | nil => exact List.Perm.nil
    | cons record records => exact hpeople

end

/-! ## Rows on file -/

/-- Every pair of rows is compared, and every row with every record that exists. -/
def AsksEveryPair [Similarity N] [DecidableEq D]
    (digest : List (String × Value N) → List (String × Value N) → D)
    (records : List (CanonicalRecord N entity)) (existing : Table String (Fields N)) : Prop :=
  ∀ c, c ∈ (findDuplicates digest records existing).candidates.filter (·.kind = .probablePerson) ↔
    c ∈ if isPerson entity then
        oneByOne (records.zipIdx.map Prod.swap) existing fun _ _ => true else []

theorem underived_student : ∀ d ∈ derivedFields student.name, derivedNote [] d.1 = false := by decide

/-- Asha without a number, with one and with another one. -/
def ashaNumbered (number : Option Bool) : CanonicalRecord ℚ student :=
  cleanRecord
    { fields := fun name =>
        if name = "student_id" then number.elim .null fun second => .text (if second then "S2" else "S1")
        else if name = "name" then .text "Asha"
        else if name = "phone" then .text "9876543210" else .null
      notes := []
      columns := fun name hname => by
        split_ifs with hid hn hphone
        · exact absurd (hid ▸ by decide) hname
        · exact absurd (hn ▸ by decide) hname
        · exact absurd (hphone ▸ by decide) hname
        · rfl
      booleans := by rcases number with - | (- | -) <;> decide
      blanks := by rcases number with - | (- | -) <;> decide
      underived := underived_student }
    [] [] ⟨none, none, none, some "job-1"⟩ List.nodup_nil

def twoNumbers : List (CanonicalRecord ℚ student) :=
    [ashaNumbered (some false), ashaNumbered (some true)]

def bothOnFile : Table String (Fields ℚ) :=
  [("s1", (ashaNumbered (some false)).fields), ("s2", (ashaNumbered (some true)).fields)]

theorem not_asksEveryPair {records : List (CanonicalRecord ℚ student)}
    {existing : Table String (Fields ℚ)}
    (hfound : (findDuplicates content records existing).candidates.filter (·.kind = .probablePerson) =
        [])
    (hpairs : oneByOne (records.zipIdx.map Prod.swap) existing (fun _ _ => true) ≠ []) :
    ¬ AsksEveryPair content records existing := by
  intro h
  obtain ⟨c, hc⟩ := List.exists_mem_of_ne_nil _ hpairs
  have hmem := (h c).mpr hc
  rw [hfound] at hmem
  cases hmem

/-- Two rows that update records on file are not asked about, nor are copies of a key or rows without. -/
theorem pairs_left_out :
    ¬ AsksEveryPair content twoNumbers bothOnFile ∧
      ¬ AsksEveryPair content [ashaNumbered (some false), ashaNumbered (some false)] [] ∧
      ¬ AsksEveryPair content [ashaNumbered none, ashaNumbered (some false)] [] := by
  refine ⟨?_, ?_, ?_⟩
  · exact not_asksEveryPair (List.length_eq_zero_iff.mp (by decide +kernel))
      (List.length_pos_iff.mp (by decide +kernel))
  · exact not_asksEveryPair (List.length_eq_zero_iff.mp (by decide +kernel))
      (List.length_pos_iff.mp (by decide +kernel))
  · exact not_asksEveryPair (List.length_eq_zero_iff.mp (by decide +kernel))
      (List.length_pos_iff.mp (by decide +kernel))

theorem eq_empty_of_toLower (s : String) (h : s.toLower = "") : s = "" := by
  have hmap : s.map Char.toLower = "" := h
  rw [← String.toList_eq_nil_iff, String.toList_map, List.map_eq_nil_iff] at hmap
  exact String.toList_eq_nil_iff.mp hmap

/-- Two new rows of one name and one phone: the same question, asked once. -/
theorem people_one_by_one_asha :
    ((findDuplicates content twoNumbers []).candidates.filter (·.kind = .probablePerson)).Perm
      (oneByOne (firstCopies twoNumbers) [] (asked [])) :=
  people_one_by_one content twoNumbers [] eq_empty_of_toLower (by decide +kernel) (by decide)
    (by decide) List.nodup_nil

example : (oneByOne (firstCopies twoNumbers) [] (asked [])).length = 1 := by decide +kernel

end GuruJi.Ingestion
