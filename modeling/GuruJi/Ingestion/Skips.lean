import GuruJi.Ingestion.Import
import GuruJi.Ingestion.Normalize
import Mathlib.Data.Set.Finite.Lemmas
import Mathlib.Logic.Relation

/-!
# What the decisions keep out of an import

`locatorsToSkip` reads the decisions on a run's duplicate items: a copy that is approved away or not
chosen stays out, and so does every row of an identity that a same-person decision drops. Between the
questions and the import other jobs may write the store.

* `decisions_honoured`: what reaches the import, and who is kept.
-/

namespace GuruJi.Ingestion

open GuruJi.Lib GuruJi.Records Machine

variable {N D : Type} [Python N] {entity : CanonicalEntity} {maxRows : Nat}

/-- A row of `review_items`: a duplicate item has a candidate and the run that asked in its payload. -/
structure JobReview (N : Type) where
  item : ReviewItem
  payload : Option (DuplicateCandidate N × String)

def JobReview.asked (run : String) (review : JobReview N) : Option (DuplicateCandidate N) :=
  if review.item.kind = .duplicate then
    (review.payload.filter fun payload => payload.2 = run).map Prod.fst
  else none

/-- `decided`: what a person decided of a run's questions. -/
def decided (run : String) (reviews : List (JobReview N)) :
    List (DuplicateCandidate N × ReviewStatus) :=
  reviews.filterMap fun review =>
    if (review.item.status = .approved || review.item.status = .rejected) &&
        review.item.resolvedBy ≠ some "system" then
      (review.asked run).map fun c => (c, review.item.status)
    else none

structure Skips where
  skip : List String
  droppedKeys : List String
  chosen : Table String (Nat × String)

section
variable (rows : Table String (StagedRow N entity)) (existing : Table String (Fields N))

/-- `str(rows.get(locator, {}).get("record_key") or "")`. -/
def keyAt (locator : String) : String := (rows.get locator).elim "" StagedRow.key

/-- `drop`. -/
def Skips.drop (s : Skips) (locator : String) : Skips :=
  if missingKey (keyAt rows locator) then { s with skip := s.skip ++ [locator] }
  else { s with droppedKeys := s.droppedKeys ++ [keyAt rows locator] }

def chosenRow (left : String) : Option (StagedRow N entity) :=
  (rows.get left).filter fun row =>
    (row.status = .ready || row.status = .review) && !missingKey row.key

/-- A reviewed copy is to be used: the latest of a key is. -/
def Skips.choose (s : Skips) (left : String) : Skips :=
  match chosenRow rows left with
  | some row =>
    if (s.chosen.get row.key).all fun best => best.1 < row.rowNumber then
      { s with chosen := s.chosen.assign row.key (row.rowNumber, left) }
    else s
  | none => s

/-- The identity that an approved match drops, by the locator of its row. -/
def dropped (c : DuplicateCandidate N) : Option String :=
  let leftKnown := (existing.get (keyAt rows c.leftLocator)).isSome
  match c.rightLocator.filter (· ≠ "") with
  | none => if leftKnown then none else some c.leftLocator
  | some right =>
    let rightKnown := (existing.get (keyAt rows right)).isSome
    if leftKnown && !rightKnown then some right
    else if rightKnown && !leftKnown then some c.leftLocator
    else if !leftKnown && !rightKnown then some right
    else none

def Skips.decide (s : Skips) (d : DuplicateCandidate N × ReviewStatus) : Skips :=
  if d.1.kind = .conflictingKey then
    if d.2 = .approved then { s with skip := s.skip ++ [d.1.leftLocator] }
    else s.choose rows d.1.leftLocator
  else if d.2 ≠ .approved then s
  else
    match dropped rows existing d.1 with
    | some locator => s.drop rows locator
    | none => s

end

/-- `rows`: the staged rows by their locators. -/
def rowsByLocator (maxRows : Nat) (rows : List (StagedRow N entity)) :
    Table String (StagedRow N entity) :=
  (jobRecords maxRows rows).foldl (fun t row => t.assign row.locator row) []

/-- `existing`: which of the staged keys are stored by now. -/
def storedKeys (job : StagedJob N entity maxRows) (store : Rows N D) : Table String (Fields N) :=
  existingKeys entity store (sortBy id (((rowsByLocator maxRows job.rows).map fun e =>
    e.2.key).filter fun key => !missingKey key).dedup)

def skipsOf (job : StagedJob N entity maxRows) (store : Rows N D) (run : String)
    (reviews : List (JobReview N)) : Skips :=
  (decided run reviews).foldl
    (Skips.decide (rowsByLocator maxRows job.rows) (storedKeys job store)) ⟨[], [], []⟩

/-- `_locators_to_skip`. -/
def locatorsToSkip (job : StagedJob N entity maxRows) (store : Rows N D) (run : String)
    (reviews : List (JobReview N)) : List String :=
  if (decided run reviews).isEmpty then []
  else
    let rows := rowsByLocator maxRows job.rows
    let s := skipsOf job store run reviews
    s.skip ++
      (s.chosen.flatMap fun e => (rows.filter fun row =>
        row.2.recordKey = some e.1 && row.1 ≠ e.2.2).map Prod.fst) ++
      (rows.filter fun row => row.2.recordKey.any s.droppedKeys.contains).map Prod.fst

/-! ## The loop over the decisions -/

section
variable {rows : Table String (StagedRow N entity)} {existing : Table String (Fields N)} {s : Skips}
variable {ds : List (DuplicateCandidate N × ReviewStatus)}

/-- An approved match drops the identity of the row at a locator. -/
def Drops (rows : Table String (StagedRow N entity)) (existing : Table String (Fields N))
    (d : DuplicateCandidate N × ReviewStatus) (locator : String) : Prop :=
  d.1.kind ≠ .conflictingKey ∧ d.2 = .approved ∧ dropped rows existing d.1 = some locator

theorem Skips.choose_eq (s : Skips) (left : String) :
    (s.choose rows left).skip = s.skip ∧ (s.choose rows left).droppedKeys = s.droppedKeys := by
  rw [Skips.choose]
  split
  · split_ifs <;> exact ⟨rfl, rfl⟩
  · exact ⟨rfl, rfl⟩

theorem Skips.drop_chosen (s : Skips) (locator : String) : (s.drop rows locator).chosen = s.chosen := by
  rw [Skips.drop]
  split_ifs <;> rfl

theorem decide_cases (rows : Table String (StagedRow N entity)) (existing : Table String (Fields N))
    (s : Skips) (d : DuplicateCandidate N × ReviewStatus) :
    (d.1.kind = .conflictingKey ∧ d.2 = .approved ∧
        s.decide rows existing d = { s with skip := s.skip ++ [d.1.leftLocator] }) ∨
      (d.1.kind = .conflictingKey ∧ d.2 ≠ .approved ∧
        s.decide rows existing d = s.choose rows d.1.leftLocator) ∨
      ((d.1.kind ≠ .conflictingKey ∧ ∀ locator, ¬ Drops rows existing d locator) ∧
        s.decide rows existing d = s) ∨
      ∃ locator, Drops rows existing d locator ∧
        s.decide rows existing d = s.drop rows locator := by
  rw [Skips.decide]
  by_cases hkind : d.1.kind = .conflictingKey
  · rw [if_pos hkind]
    by_cases hstatus : d.2 = .approved
    · exact .inl ⟨hkind, hstatus, if_pos hstatus⟩
    · exact .inr (.inl ⟨hkind, hstatus, if_neg hstatus⟩)
  · rw [if_neg hkind]
    refine .inr (.inr ?_)
    by_cases hstatus : d.2 = .approved
    · rw [if_neg (not_not.mpr hstatus)]
      cases hdropped : dropped rows existing d.1 with
      | none =>
        exact .inl ⟨⟨hkind, fun locator hdrops => nomatch hdropped.symm.trans hdrops.2.2⟩, rfl⟩
      | some locator => exact .inr ⟨locator, ⟨hkind, hstatus, hdropped⟩, rfl⟩
    · exact .inl ⟨⟨hkind, fun locator hdrops => hstatus hdrops.2.1⟩, if_pos hstatus⟩

theorem mem_skip {locator : String} :
    locator ∈ (ds.foldl (Skips.decide rows existing) s).skip ↔ locator ∈ s.skip ∨
      (∃ d ∈ ds, d.1.kind = .conflictingKey ∧ d.2 = .approved ∧ d.1.leftLocator = locator) ∨
      ∃ d ∈ ds, Drops rows existing d locator ∧ missingKey (keyAt rows locator) = true := by
  induction ds generalizing s with
  | nil => simp
  | cons d ds ih =>
    rw [List.foldl_cons, ih, List.exists_mem_cons_iff, List.exists_mem_cons_iff]
    rcases decide_cases rows existing s d with ⟨hkind, hstatus, heq⟩ | ⟨hkind, hstatus, heq⟩ |
      ⟨⟨hkind, hnone⟩, heq⟩ | ⟨gone, hdrops, heq⟩
    · have hnone : ∀ locator, ¬ Drops rows existing d locator := fun _ h => h.1 hkind
      simp only [heq, List.mem_append, List.mem_singleton, hkind, hstatus, hnone, true_and,
        false_and, false_or, eq_comm (a := locator), or_assoc]
    · have hnone : ∀ locator, ¬ Drops rows existing d locator := fun _ h => h.1 hkind
      simp only [heq, (s.choose_eq _).1, hkind, hstatus, hnone, true_and, false_and, false_or]
    · simp only [heq, hkind, hnone, false_and, false_or]
    · have hgone : Drops rows existing d locator ↔ locator = gone :=
        ⟨fun h => Option.some.inj (h.2.2.symm.trans hdrops.2.2), fun h => h ▸ hdrops⟩
      rw [heq, Skips.drop]
      split_ifs with hkey
      · have hkeyless : locator = gone ∧ missingKey (keyAt rows locator) = true ↔ locator = gone :=
          and_iff_left_of_imp fun h => h ▸ hkey
        simp only [hgone, hkeyless, hdrops.1, false_and, false_or, List.mem_append,
          List.mem_singleton, or_assoc]
        exact or_congr_right or_left_comm
      · have hkeyed : ¬ (locator = gone ∧ missingKey (keyAt rows locator) = true) :=
          fun h => hkey (h.1 ▸ h.2)
        simp only [hgone, hkeyed, hdrops.1, false_and, false_or]

theorem mem_droppedKeys {k : String} :
    k ∈ (ds.foldl (Skips.decide rows existing) s).droppedKeys ↔ k ∈ s.droppedKeys ∨
      ∃ d ∈ ds, ∃ locator, Drops rows existing d locator ∧ keyAt rows locator = k ∧
        missingKey k = false := by
  induction ds generalizing s with
  | nil => simp
  | cons d ds ih =>
    rw [List.foldl_cons, ih, List.exists_mem_cons_iff, ← or_assoc]
    refine or_congr_left ?_
    rcases decide_cases rows existing s d with ⟨hkind, hstatus, heq⟩ | ⟨hkind, hstatus, heq⟩ |
      ⟨⟨hkind, hnone⟩, heq⟩ | ⟨gone, hdrops, heq⟩
    · rw [heq, or_iff_left fun ⟨_, h, _⟩ => h.1 hkind]
    · rw [heq, (s.choose_eq _).2, or_iff_left fun ⟨_, h, _⟩ => h.1 hkind]
    · rw [heq, or_iff_left fun ⟨l, h, _⟩ => hnone l h]
    · have hgone : ∀ l, Drops rows existing d l ↔ l = gone := fun l =>
        ⟨fun h => Option.some.inj (h.2.2.symm.trans hdrops.2.2), fun h => h ▸ hdrops⟩
      simp only [hgone, exists_eq_left]
      rw [heq, Skips.drop]
      split_ifs with hkey
      · rw [or_iff_left]
        rintro ⟨rfl, hkeyed⟩
        rw [hkey] at hkeyed
        cases hkeyed
      · rw [List.mem_append, List.mem_singleton, eq_comm (a := k)]
        exact or_congr_right ⟨fun h => ⟨h, h ▸ by simpa using hkey⟩, And.left⟩

/-- For each key, the latest of the rows chosen. -/
structure ChosenBy (rows : Table String (StagedRow N entity))
    (ds : List (DuplicateCandidate N × ReviewStatus)) (chosen : Table String (Nat × String)) :
    Prop where
  nodup : (chosen.map Prod.fst).Nodup
  sound : ∀ k n keep, chosen.get k = some (n, keep) → ∃ d ∈ ds, d.1.kind = .conflictingKey ∧
    d.2 ≠ .approved ∧ d.1.leftLocator = keep ∧
    ∃ row, chosenRow rows keep = some row ∧ row.key = k ∧ row.rowNumber = n
  latest : ∀ d ∈ ds, d.1.kind = .conflictingKey → d.2 ≠ .approved →
    ∀ row, chosenRow rows d.1.leftLocator = some row →
      ∃ n keep, chosen.get row.key = some (n, keep) ∧ row.rowNumber ≤ n

variable {d : DuplicateCandidate N × ReviewStatus}

theorem ChosenBy.append {chosen : Table String (Nat × String)} (h : ChosenBy rows ds chosen)
    (hnone : d.1.kind = .conflictingKey → d.2 ≠ .approved → chosenRow rows d.1.leftLocator = none) :
    ChosenBy rows (ds ++ [d]) chosen := by
  refine ⟨h.nodup, fun k n keep hget => ?_, fun d' hd' hkind hstatus row hrow => ?_⟩
  · obtain ⟨d', hd', hsound⟩ := h.sound k n keep hget
    exact ⟨d', List.mem_append_left _ hd', hsound⟩
  · rcases List.mem_append.mp hd' with hd' | hd'
    · exact h.latest d' hd' hkind hstatus row hrow
    · obtain rfl := List.mem_singleton.mp hd'
      rw [hnone hkind hstatus] at hrow
      cases hrow

theorem ChosenBy.choose (h : ChosenBy rows ds s.chosen)
    (hkind : d.1.kind = .conflictingKey) (hstatus : d.2 ≠ .approved) :
    ChosenBy rows (ds ++ [d]) (s.choose rows d.1.leftLocator).chosen := by
  rw [Skips.choose]
  cases hrow : chosenRow rows d.1.leftLocator with
  | none => exact h.append fun _ _ => hrow
  | some row =>
    dsimp only
    split_ifs with hbest
    · refine ⟨Table.nodup_keys_assign h.nodup _ _, fun k n keep hget => ?_,
        fun d' hd' hkind' hstatus' row' hrow' => ?_⟩
      · rw [Table.get_assign] at hget
        split_ifs at hget with hk
        · obtain ⟨rfl, rfl⟩ := Prod.mk.inj (Option.some.inj hget)
          exact ⟨d, by simp, hkind, hstatus, rfl, row, hrow, hk.symm, rfl⟩
        · obtain ⟨d', hd', hsound⟩ := h.sound k n keep hget
          exact ⟨d', List.mem_append_left _ hd', hsound⟩
      · rw [Table.get_assign]
        rcases List.mem_append.mp hd' with hd' | hd'
        · obtain ⟨n, keep, hget, hle⟩ := h.latest d' hd' hkind' hstatus' row' hrow'
          split_ifs with hk
          · rw [← hk, hget] at hbest
            exact ⟨_, _, rfl, hle.trans (of_decide_eq_true hbest).le⟩
          · exact ⟨n, keep, hget, hle⟩
        · obtain rfl := List.mem_singleton.mp hd'
          obtain rfl := Option.some.inj (hrow.symm.trans hrow')
          rw [if_pos rfl]
          exact ⟨_, _, rfl, le_rfl⟩
    · refine ⟨h.nodup, fun k n keep hget => ?_, fun d' hd' hkind' hstatus' row' hrow' => ?_⟩
      · obtain ⟨d', hd', hsound⟩ := h.sound k n keep hget
        exact ⟨d', List.mem_append_left _ hd', hsound⟩
      · rcases List.mem_append.mp hd' with hd' | hd'
        · exact h.latest d' hd' hkind' hstatus' row' hrow'
        · obtain rfl := List.mem_singleton.mp hd'
          obtain rfl := Option.some.inj (hrow.symm.trans hrow')
          cases hget : s.chosen.get row.key with
          | none =>
            rw [hget] at hbest
            exact absurd rfl hbest
          | some best =>
            rw [hget] at hbest
            exact ⟨best.1, best.2, rfl, not_lt.mp fun hlt => hbest (decide_eq_true hlt)⟩

theorem ChosenBy.decide (h : ChosenBy rows ds s.chosen) :
    ChosenBy rows (ds ++ [d]) (s.decide rows existing d).chosen := by
  rcases decide_cases rows existing s d with ⟨-, hstatus, heq⟩ | ⟨hkind, hstatus, heq⟩ |
    ⟨⟨hkind, -⟩, heq⟩ | ⟨gone, hdrops, heq⟩
  · rw [heq]
    exact h.append fun _ hother => absurd hstatus hother
  · rw [heq]
    exact h.choose hkind hstatus
  · rw [heq]
    exact h.append fun hother => absurd hother hkind
  · rw [heq, (Skips.drop_chosen s gone)]
    exact h.append fun hother => absurd hother hdrops.1

theorem chosenBy_foldl (rows : Table String (StagedRow N entity)) (existing : Table String (Fields N))
    (ds : List (DuplicateCandidate N × ReviewStatus)) :
    ChosenBy rows ds (ds.foldl (Skips.decide rows existing) ⟨[], [], []⟩).chosen := by
  induction ds using List.reverseRecOn with
  | nil => exact ⟨List.nodup_nil, fun _ _ _ => nofun, List.forall_mem_nil _⟩
  | append_singleton ds d ih =>
    rw [List.foldl_append]
    exact ih.decide

end

/-! ## Who is kept -/

/-- A row that is imported, unless the store rejects it. -/
def Reaches (job : StagedJob N entity maxRows) (skipLocators : List String)
    (row : StagedRow N entity) : Prop :=
  row ∈ job.rows ∧ ∃ taken, disposal job skipLocators row = .ok taken

/-- A reviewer let the earlier copy stand, or the stored record. -/
def ApprovedAway (ds : List (DuplicateCandidate N × ReviewStatus)) (row : StagedRow N entity) : Prop :=
  ∃ d ∈ ds, d.1.kind = .conflictingKey ∧ d.2 = .approved ∧ d.1.leftLocator = row.locator

def Chosen (ds : List (DuplicateCandidate N × ReviewStatus)) (row : StagedRow N entity) : Prop :=
  ∃ d ∈ ds, d.1.kind = .conflictingKey ∧ d.2 = .rejected ∧ d.1.leftLocator = row.locator

/-- A reviewer approved that two identities are the same person. -/
def SamePerson (rows : List (StagedRow N entity)) (ds : List (DuplicateCandidate N × ReviewStatus))
    (key key' : String) : Prop :=
  ∃ d ∈ ds, d.1.kind = .probablePerson ∧ d.2 = .approved ∧
    ∃ row ∈ rows, d.1.leftLocator = row.locator ∧ row.key = key ∧
      ((∃ other ∈ rows, d.1.rightLocator = some other.locator ∧ other.key = key') ∨
        d.1.rightLocator = none ∧ d.1.recordKey = some key')

/-- The items of a job whose import was requested: a person decided everything its run asked. -/
structure Answered (run : String) (questions : List (DuplicateCandidate N))
    (reviews : List (JobReview N)) : Prop where
  asked : reviews.filterMap (JobReview.asked run) = questions
  resolved : ∀ review ∈ reviews, review.item.kind = .duplicate → review.item.status ≠ .pending
  person : ∀ review ∈ reviews, review.asked run ≠ none → review.item.resolvedBy ≠ some "system"

/-- The decisions on the copies and the people of a job, against what reaches the import. -/
structure Honoured (rows : List (StagedRow N entity))
    (ds : List (DuplicateCandidate N × ReviewStatus)) (stored : String → Prop)
    (reaches : StagedRow N entity → Prop) : Prop where
  /-- One row of a key. -/
  single : ∀ row other, reaches row → reaches other → row.key = other.key → row = other
  /-- The latest copy chosen, else the earliest one that was not approved away. -/
  copy : ∀ row, reaches row →
    (Chosen ds row ∧ ∀ other ∈ rows, other.key = row.key → Chosen ds other →
      other.rowNumber ≤ row.rowNumber) ∨
    ((∀ other ∈ rows, other.key = row.key → ¬ Chosen ds other) ∧ ¬ ApprovedAway ds row ∧
      ∀ other ∈ rows, other.status ≠ .rejected → other.key = row.key → other.order < row.order →
        ApprovedAway ds other)
  /-- A copy stays out for another one, or is dropped as the same person; what updates a stored
  record is never dropped so. -/
  kept : ∀ row ∈ rows, row.status = .ready ∨ row.status = .review → ¬ reaches row →
    ApprovedAway ds row ∨ (∃ other ∈ rows, other ≠ row ∧ other.key = row.key ∧ Chosen ds other) ∨
      ¬ stored row.key ∧ ∃ key, SamePerson rows ds row.key key ∨ SamePerson rows ds key row.key
  /-- Of the identities that are the same person, one is stored or imported. -/
  represented : ∀ key, stored key ∨ (∃ row ∈ rows, row.status ≠ .rejected ∧
      missingKey row.key = false ∧ row.key = key) →
    ∃ key', Relation.EqvGen (SamePerson rows ds) key key' ∧
      (stored key' ∨ ∃ row, reaches row ∧ row.key = key')

section
variable {job : StagedJob N entity maxRows} {store : Rows N D} {run : String}
variable {reviews : List (JobReview N)} {questions : List (DuplicateCandidate N)}
variable {row other : StagedRow N entity} {known : String → Prop}

theorem reaches_iff {skipLocators : List String} : Reaches job skipLocators row ↔
    row ∈ job.rows ∧ (row.status = .ready ∨ row.status = .review) ∧
      row.locator ∉ skipLocators := by
  rw [Reaches, disposal]
  refine and_congr_right fun _ => ?_
  by_cases hstatus : row.status = .ready ∨ row.status = .review
  · by_cases hskip : row.locator ∈ skipLocators
    · simp [hstatus, hskip]
    · simp [hstatus, hskip]
  · simp [hstatus]

theorem recordKey_eq (h : row.status = .ready ∨ row.status = .review) :
    row.recordKey = some row.key := by
  obtain ⟨n, hn⟩ := Option.isSome_iff_exists.mp (row.carried h)
  rw [StagedRow.key, row.keyed n hn, Option.getD_some]

theorem get_rowsByLocator (hdistinct : (job.rows.map (·.locator)).Nodup) {locator : String} :
    (rowsByLocator maxRows job.rows).get locator = some row ↔
      row ∈ job.rows ∧ row.locator = locator := by
  have hperm := jobRecords_perm job
  let entries := (jobRecords maxRows job.rows).map fun row => (row.locator, row)
  have hkeys : (entries.map Prod.fst).Nodup := by
    rw [List.map_map]
    exact (hperm.map _).nodup_iff.mpr hdistinct
  obtain ⟨hin, hout⟩ := Table.get_foldl_assign [] hkeys locator
  have hfold : rowsByLocator maxRows job.rows =
      entries.foldl (fun t e => Table.assign t e.1 e.2) [] := by
    rw [rowsByLocator, List.foldl_map]
  rw [hfold]
  have hmem : ∀ {r : StagedRow N entity}, (locator, r) ∈ entries ↔ r ∈ job.rows ∧
    r.locator = locator := by
    intro r
    rw [List.mem_map, ← hperm.mem_iff]
    constructor
    · rintro ⟨r', hr', heq⟩
      obtain ⟨rfl, rfl⟩ := Prod.mk.inj heq
      exact ⟨hr', rfl⟩
    · rintro ⟨hr, rfl⟩
      exact ⟨r, hr, rfl⟩
  constructor
  · intro hget
    by_cases hr : ∃ r, (locator, r) ∈ entries
    · obtain ⟨r, hr⟩ := hr
      obtain rfl := Option.some.inj ((hin r hr).symm.trans hget)
      exact hmem.mp hr
    · rw [hout fun r hr' => hr ⟨r, hr'⟩] at hget
      cases hget
  · exact fun h => hin row (hmem.mpr h)

theorem keyAt_locator (hdistinct : (job.rows.map (·.locator)).Nodup) (hrow : row ∈ job.rows) :
    keyAt (rowsByLocator maxRows job.rows) row.locator = row.key := by
  rw [keyAt, (get_rowsByLocator hdistinct).mpr ⟨hrow, rfl⟩]
  rfl

theorem mem_filter_rowsByLocator (hdistinct : (job.rows.map (·.locator)).Nodup)
    (hrow : row ∈ job.rows) (p : String × StagedRow N entity → Bool) :
    row.locator ∈ ((rowsByLocator maxRows job.rows).filter p).map Prod.fst ↔
      p (row.locator, row) = true := by
  have hget : (rowsByLocator maxRows job.rows).get row.locator = some row :=
    (get_rowsByLocator hdistinct).mpr ⟨hrow, rfl⟩
  have hkeys : ((rowsByLocator maxRows job.rows).map Prod.fst).Nodup :=
    foldl_keeps (P := fun t : Table String (StagedRow N entity) => (t.map Prod.fst).Nodup)
      (fun r _ t ht => Table.nodup_keys_assign ht _ r) List.nodup_nil
  constructor
  · intro hmem
    obtain ⟨⟨locator, r⟩, he, rfl⟩ := List.mem_map.mp hmem
    obtain ⟨he, hp⟩ := List.mem_filter.mp he
    obtain rfl := Option.some.inj ((Table.get_of_mem hkeys he).symm.trans hget)
    exact hp
  · exact fun hp => List.mem_map.mpr ⟨_, List.mem_filter.mpr ⟨Table.mem_of_get hget, hp⟩, rfl⟩

theorem isSome_storedKeys (hdistinct : (job.rows.map (·.locator)).Nodup) (hrow : row ∈ job.rows)
    (hkey : missingKey row.key = false) :
    ((storedKeys job store).get row.key).isSome = true ↔ (store.get row.key).isSome = true := by
  refine ⟨existingKeys_known, fun hstored => ?_⟩
  obtain ⟨e, he, heq⟩ := List.mem_map.mp (Table.isSome_get.mp hstored)
  have hget : (rowsByLocator maxRows job.rows).get row.locator = some row :=
    (get_rowsByLocator hdistinct).mpr ⟨hrow, rfl⟩
  have hlisted : row.key ∈ sortBy id (((rowsByLocator maxRows job.rows).map fun e =>
      e.2.key).filter fun key => !missingKey key).dedup := by
    rw [mem_sortBy, List.mem_dedup, List.mem_filter, hkey]
    exact ⟨List.mem_map.mpr ⟨_, Table.mem_of_get hget, rfl⟩, rfl⟩
  refine Table.isSome_get.mpr (List.mem_map.mpr ⟨(e.1, storedFields entity e.2), ?_, heq⟩)
  refine List.mem_map.mpr ⟨e, List.mem_filter.mpr ⟨he, ?_⟩, rfl⟩
  rw [heq]
  exact List.contains_iff_mem.mpr hlisted

omit [Python N] in
theorem Answered.decided (h : Answered run questions reviews) :
    (Ingestion.decided run reviews).map Prod.fst = questions ∧
      ∀ d ∈ Ingestion.decided run reviews, d.2 = .approved ∨ d.2 = .rejected := by
  constructor
  · rw [Ingestion.decided, List.map_filterMap, ← h.asked]
    refine List.filterMap_congr fun review hreview => ?_
    cases hasked : review.asked run with
    | none => split_ifs <;> rfl
    | some c =>
      have hkind : review.item.kind = .duplicate := by
        rw [JobReview.asked] at hasked
        split_ifs at hasked with hkind
        exact hkind
      have hperson := h.person review hreview (by simp [hasked])
      have hresolved := h.resolved review hreview hkind
      cases hstatus : review.item.status with
      | pending => exact absurd hstatus hresolved
      | approved => simp [hperson]
      | rejected => simp [hperson]
  · intro d hd
    obtain ⟨review, -, hreview⟩ := List.mem_filterMap.mp hd
    split_ifs at hreview with hstatus
    obtain ⟨c, -, rfl⟩ := Option.map_eq_some_iff.mp hreview
    simpa using (Bool.and_eq_true_iff.mp hstatus).1

/-- What an approved match drops: an identity that is not stored, for one that is or for the identity
of an earlier row. -/
theorem exists_of_drops (hasks : Asks job.rows questions known)
    (hknown : ∀ key, known key → (store.get key).isSome = true)
    (hans : Answered run questions reviews) {locator : String}
    {d : DuplicateCandidate N × ReviewStatus} (hd : d ∈ decided run reviews)
    (h : Drops (rowsByLocator maxRows job.rows) (storedKeys job store) d locator) :
    ∃ row, FirstRow job.rows row ∧ row.locator = locator ∧ ¬ (store.get row.key).isSome = true ∧
      ∃ key, (SamePerson job.rows (decided run reviews) row.key key ∨
          SamePerson job.rows (decided run reviews) key row.key) ∧
        ((store.get key).isSome = true ∨
          ∃ other, FirstRow job.rows other ∧ other.key = key ∧ other.order < row.order) := by
  obtain ⟨hkind, hstatus, hdropped⟩ := h
  have hq : d.1 ∈ questions := hans.decided.1 ▸ List.mem_map_of_mem hd
  have hkind : d.1.kind = .probablePerson := (hasks.kinds d.1 hq).resolve_left hkind
  obtain ⟨left, hfirst, hleft, hright⟩ := hasks.person d.1 hq hkind
  have hkey : ∀ {row}, FirstRow job.rows row →
      (((storedKeys job store).get (keyAt (rowsByLocator maxRows job.rows) row.locator)).isSome =
        true ↔ (store.get row.key).isSome = true) := by
    intro row hrow
    rw [keyAt_locator hasks.distinct hrow.1]
    exact isSome_storedKeys hasks.distinct hrow.1 hrow.2.2.1
  rcases hright with ⟨right, hfirst', hlt, hright⟩ | ⟨hright, key, hrecord, hexists⟩
  · have hedge : SamePerson job.rows (decided run reviews) left.key right.key :=
      ⟨d, hd, hkind, hstatus, left, hfirst.1, hleft, rfl, .inl ⟨right, hfirst'.1, hright, rfl⟩⟩
    have hl := hkey hfirst
    have hr := hkey hfirst'
    rw [dropped, hleft, hright, Option.filter_some,
      if_pos (by simpa using hasks.located right hfirst'.1)] at hdropped
    dsimp only at hdropped
    simp only [Bool.and_eq_true, Bool.not_eq_true', ← Bool.not_eq_true, hl, hr] at hdropped
    split_ifs at hdropped with hleft' hright' hnew
    · obtain rfl := Option.some.inj hdropped
      exact ⟨right, hfirst', rfl, hleft'.2, left.key, .inr hedge, .inl hleft'.1⟩
    · obtain rfl := Option.some.inj hdropped
      exact ⟨left, hfirst, rfl, hright'.2, right.key, .inl hedge, .inl hright'.1⟩
    · obtain rfl := Option.some.inj hdropped
      exact ⟨right, hfirst', rfl, hnew.2, left.key, .inr hedge, .inr ⟨left, hfirst, rfl, hlt⟩⟩
  · have hl := hkey hfirst
    rw [dropped, hleft, hright] at hdropped
    dsimp only [Option.filter_none] at hdropped
    split_ifs at hdropped with hnot
    obtain rfl := Option.some.inj hdropped
    refine ⟨left, hfirst, rfl, fun hstored => hnot (hl.mpr hstored), key, .inl ?_, .inl ?_⟩
    · exact ⟨d, hd, hkind, hstatus, left, hfirst.1, hleft, rfl, .inr ⟨hright, hrecord⟩⟩
    · exact hknown key hexists

theorem mem_locatorsToSkip (hasks : Asks job.rows questions known)
    (hknown : ∀ key, known key → (store.get key).isSome = true)
    (hans : Answered run questions reviews) (hrow : row ∈ job.rows)
    (hstatus : row.status = .ready ∨ row.status = .review) :
    row.locator ∈ locatorsToSkip job store run reviews ↔ ApprovedAway (decided run reviews) row ∨
      (∃ n keep, (skipsOf job store run reviews).chosen.get row.key = some (n, keep) ∧
        row.locator ≠ keep) ∨
      row.key ∈ (skipsOf job store run reviews).droppedKeys := by
  have hkey := recordKey_eq hstatus
  have hchosen := chosenBy_foldl (rowsByLocator maxRows job.rows) (storedKeys job store)
    (decided run reviews)
  have hskip : row.locator ∈ (skipsOf job store run reviews).skip ↔
      ApprovedAway (decided run reviews) row := by
    rw [skipsOf, mem_skip, or_iff_right List.not_mem_nil]
    refine or_iff_left ?_
    rintro ⟨d, hd, hdrops, hmissing⟩
    obtain ⟨r, hfirst, hlocator, -⟩ := exists_of_drops hasks hknown hans hd hdrops
    rw [← hlocator, keyAt_locator hasks.distinct hfirst.1, hfirst.2.2.1] at hmissing
    cases hmissing
  rw [locatorsToSkip]
  split_ifs with hnone
  · have hempty := List.isEmpty_iff.mp hnone
    simp [skipsOf, ApprovedAway, hempty, Table.get]
  · rw [List.mem_append, List.mem_append, hskip, or_assoc,
      mem_filter_rowsByLocator hasks.distinct hrow, List.mem_flatMap]
    refine or_congr_right (or_congr ?_ ?_)
    · constructor
      · rintro ⟨⟨k, n, keep⟩, he, hmem⟩
        rw [mem_filter_rowsByLocator hasks.distinct hrow, hkey] at hmem
        simp only [Option.some.injEq, ne_eq, Bool.and_eq_true, decide_eq_true_eq] at hmem
        obtain ⟨rfl, hne⟩ := hmem
        exact ⟨n, keep, Table.get_of_mem hchosen.nodup he, by simpa using hne⟩
      · rintro ⟨n, keep, hget, hne⟩
        refine ⟨(row.key, n, keep), Table.mem_of_get hget, ?_⟩
        rw [mem_filter_rowsByLocator hasks.distinct hrow, hkey]
        simpa using hne
    · rw [hkey, Option.any_some, List.contains_iff_mem]

theorem Asks.eq_of_locator (hasks : Asks job.rows questions known) (hrow : row ∈ job.rows)
    (hother : other ∈ job.rows) (h : row.locator = other.locator) : row = other :=
  List.inj_on_of_nodup_map hasks.distinct hrow hother h

theorem Asks.eq_of_firstRow (hasks : Asks job.rows questions known) (h : FirstRow job.rows row)
    (h' : FirstRow job.rows other) (hkey : row.key = other.key) : row = other := by
  have horder : row.order = other.order :=
    le_antisymm (h.2.2.2 other h'.1 h'.2.1 hkey.symm) (h'.2.2.2 row h.1 h.2.1 hkey)
  exact hasks.eq_of_locator h.1 h'.1 (Prod.mk.inj (toLex_inj.mp horder)).2

theorem Asks.review_of_asked (hasks : Asks job.rows questions known)
    (hans : Answered run questions reviews) {d : DuplicateCandidate N × ReviewStatus}
    (hd : d ∈ decided run reviews) (hkind : d.1.kind = .conflictingKey) (hrow : row ∈ job.rows)
    (hleft : d.1.leftLocator = row.locator) : row.status = .review := by
  have hq : d.1 ∈ questions := hans.decided.1 ▸ List.mem_map_of_mem hd
  obtain ⟨r, hr, hreview, hlocator⟩ := hasks.conflicting d.1 hq hkind
  obtain rfl := hasks.eq_of_locator hr hrow (hlocator.symm.trans hleft)
  exact hreview

theorem Asks.answered (hasks : Asks job.rows questions known)
    (hans : Answered run questions reviews) (hrow : row ∈ job.rows) (hreview : row.status = .review) :
    Chosen (decided run reviews) row ∨ ApprovedAway (decided run reviews) row := by
  obtain ⟨-, q, hq, hkind, hleft⟩ := hasks.review row hrow hreview
  rw [← hans.decided.1] at hq
  obtain ⟨d, hd, rfl⟩ := List.mem_map.mp hq
  rcases hans.decided.2 d hd with hstatus | hstatus
  · exact .inr ⟨d, hd, hkind, hstatus, hleft⟩
  · exact .inl ⟨d, hd, hkind, hstatus, hleft⟩

theorem Asks.not_approvedAway (hasks : Asks job.rows questions known)
    (hans : Answered run questions reviews) (h : Chosen (decided run reviews) row) :
    ¬ ApprovedAway (decided run reviews) row := by
  rintro ⟨d, hd, hkind, hstatus, hleft⟩
  obtain ⟨d', hd', hkind', hstatus', hleft'⟩ := h
  have honce : (((decided run reviews).filter (·.1.kind = .conflictingKey)).map
      (·.1.leftLocator)).Nodup := by
    have := hasks.once
    rwa [← hans.decided.1, List.filter_map, List.map_map] at this
  have hsame : d = d' := List.inj_on_of_nodup_map honce
    (List.mem_filter.mpr ⟨hd, by simpa using hkind⟩)
    (List.mem_filter.mpr ⟨hd', by simpa using hkind'⟩) (hleft.trans hleft'.symm)
  rw [hsame, hstatus'] at hstatus
  cases hstatus

theorem Asks.chosen_sound (hasks : Asks job.rows questions known)
    (hans : Answered run questions reviews) {key keep : String} {n : Nat}
    (hget : (skipsOf job store run reviews).chosen.get key = some (n, keep)) :
    ∃ row ∈ job.rows, row.locator = keep ∧ row.key = key ∧ row.rowNumber = n ∧
      row.status = .review ∧ Chosen (decided run reviews) row := by
  obtain ⟨d, hd, hkind, hstatus, hleft, row, hrow, hkey, hnumber⟩ :=
    (chosenBy_foldl _ _ _).sound key n keep hget
  obtain ⟨hrow, -⟩ := Option.filter_eq_some_iff.mp hrow
  obtain ⟨hmem, hlocator⟩ := (get_rowsByLocator hasks.distinct).mp hrow
  have hleft := hleft.trans hlocator.symm
  exact ⟨row, hmem, hlocator, hkey, hnumber, hasks.review_of_asked hans hd hkind hmem hleft,
    d, hd, hkind, (hans.decided.2 d hd).resolve_left hstatus, hleft⟩

theorem Asks.chosen_latest (hasks : Asks job.rows questions known)
    (hans : Answered run questions reviews) (hrow : row ∈ job.rows)
    (h : Chosen (decided run reviews) row) : ∃ n keep,
      (skipsOf job store run reviews).chosen.get row.key = some (n, keep) ∧ row.rowNumber ≤ n := by
  obtain ⟨d, hd, hkind, hstatus, hleft⟩ := h
  have hreview := hasks.review_of_asked hans hd hkind hrow hleft
  refine (chosenBy_foldl _ _ _).latest d hd hkind (by rw [hstatus]; nofun) row ?_
  rw [chosenRow, hleft, (get_rowsByLocator hasks.distinct).mpr ⟨hrow, rfl⟩, Option.filter_some,
    if_pos (by simp [hreview, (hasks.review row hrow hreview).1])]

/-- What reaches the import is the row chosen of its key, or the first of a key with none. -/
theorem Asks.reaches_cases (hasks : Asks job.rows questions known)
    (hknown : ∀ key, known key → (store.get key).isSome = true)
    (hans : Answered run questions reviews)
    (h : Reaches job (locatorsToSkip job store run reviews) row) :
    (∃ n, (skipsOf job store run reviews).chosen.get row.key = some (n, row.locator)) ∨
      (skipsOf job store run reviews).chosen.get row.key = none ∧ FirstRow job.rows row := by
  obtain ⟨hrow, hstatus, hnot⟩ := reaches_iff.mp h
  rw [mem_locatorsToSkip hasks hknown hans hrow hstatus, not_or, not_or] at hnot
  cases hget : (skipsOf job store run reviews).chosen.get row.key with
  | some best =>
    obtain ⟨n, keep⟩ := best
    refine .inl ⟨n, ?_⟩
    by_contra hne
    exact hnot.2.1 ⟨n, keep, hget, fun heq => hne (heq ▸ rfl)⟩
  | none =>
    refine .inr ⟨rfl, ?_⟩
    rcases hstatus with hready | hreview
    · exact hasks.ready row hrow hready
    · rcases hasks.answered hans hrow hreview with hchosen | haway
      · obtain ⟨n, keep, hsome, -⟩ : ∃ n keep, (skipsOf job store run reviews).chosen.get row.key =
            some (n, keep) ∧ row.rowNumber ≤ n := hasks.chosen_latest hans hrow hchosen
        rw [hget] at hsome
        cases hsome
      · exact absurd haway hnot.1

theorem exists_firstRow {rows : List (StagedRow N entity)} (hrow : row ∈ rows)
    (hstatus : row.status ≠ .rejected) (hkey : missingKey row.key = false) :
    ∃ r, FirstRow rows r ∧ r.key = row.key := by
  have hfinite : {r | r ∈ rows ∧ r.status ≠ .rejected ∧ r.key = row.key}.Finite :=
    rows.finite_toSet.subset fun r hr => hr.1
  obtain ⟨r, ⟨hr, hrstatus, hrkey⟩, hleast⟩ := Set.exists_min_image _ StagedRow.order hfinite
    ⟨row, hrow, hstatus, rfl⟩
  exact ⟨r, ⟨hr, hrstatus, hrkey ▸ hkey, fun other hother hs hk =>
    hleast other ⟨hother, hs, hk.trans hrkey⟩⟩, hrkey⟩

theorem Asks.exists_reaches (hasks : Asks job.rows questions known)
    (hknown : ∀ key, known key → (store.get key).isSome = true)
    (hans : Answered run questions reviews) (hfirst : FirstRow job.rows row)
    (hstored : ¬ (store.get row.key).isSome = true)
    (hdropped : row.key ∉ (skipsOf job store run reviews).droppedKeys) :
    ∃ r, Reaches job (locatorsToSkip job store run reviews) r ∧ r.key = row.key := by
  cases hget : (skipsOf job store run reviews).chosen.get row.key with
  | some best =>
    obtain ⟨n, keep⟩ := best
    obtain ⟨r, hr, hlocator, hkey, -, hreview, hchosen⟩ := hasks.chosen_sound hans hget
    refine ⟨r, reaches_iff.mpr ⟨hr, .inr hreview, ?_⟩, hkey⟩
    rw [mem_locatorsToSkip hasks hknown hans hr (.inr hreview), hkey]
    rintro (haway | ⟨n', keep', hget', hne⟩ | hgone)
    · exact hasks.not_approvedAway hans hchosen haway
    · rw [hget] at hget'
      obtain ⟨-, rfl⟩ := Prod.mk.inj (Option.some.inj hget')
      exact hne hlocator
    · exact hdropped hgone
  | none =>
    rcases hasks.first row hfirst with hready | ⟨-, hk⟩
    · refine ⟨row, reaches_iff.mpr ⟨hfirst.1, .inl hready, ?_⟩, rfl⟩
      rw [mem_locatorsToSkip hasks hknown hans hfirst.1 (.inl hready)]
      rintro (⟨d, hd, hkind, -, hleft⟩ | ⟨n, keep, hget', -⟩ | hgone)
      · have hreview := hasks.review_of_asked hans hd hkind hfirst.1 hleft
        rw [hready] at hreview
        cases hreview
      · rw [hget] at hget'
        cases hget'
      · exact hdropped hgone
    · exact absurd (hknown row.key hk) hstored

/-- Of the identities joined to one, some is stored, or the earliest in the batch is not dropped. -/
theorem Asks.represented (hasks : Asks job.rows questions known)
    (hknown : ∀ key, known key → (store.get key).isSome = true)
    (hans : Answered run questions reviews) (hfirst : FirstRow job.rows row) :
    ∃ key, Relation.EqvGen (SamePerson job.rows (decided run reviews)) row.key key ∧
      ((store.get key).isSome = true ∨
        ∃ r, Reaches job (locatorsToSkip job store run reviews) r ∧ r.key = key) := by
  by_contra hnone
  have hnew : ∀ key, Relation.EqvGen (SamePerson job.rows (decided run reviews)) row.key key →
      ¬ (store.get key).isSome = true := fun key hjoined hstored => hnone ⟨key, hjoined, .inl hstored⟩
  have hfinite : {r | FirstRow job.rows r ∧
      Relation.EqvGen (SamePerson job.rows (decided run reviews)) row.key r.key}.Finite :=
    job.rows.finite_toSet.subset fun r hr => hr.1.1
  obtain ⟨m, ⟨hm, hjoined⟩, hleast⟩ := Set.exists_min_image _ StagedRow.order hfinite
    ⟨row, hfirst, .refl _⟩
  have hkept : m.key ∉ (skipsOf job store run reviews).droppedKeys := by
    intro hgone
    rw [skipsOf, mem_droppedKeys, or_iff_right List.not_mem_nil] at hgone
    obtain ⟨d, hd, locator, hdrops, hkey, -⟩ := hgone
    obtain ⟨r, hr, rfl, -, key, hedge, hcase⟩ := exists_of_drops hasks hknown hans hd hdrops
    rw [keyAt_locator hasks.distinct hr.1] at hkey
    obtain rfl := hasks.eq_of_firstRow hr hm hkey
    -- the identity that it was dropped for is joined as well
    have hjoined' : Relation.EqvGen (SamePerson job.rows (decided run reviews)) row.key key :=
      hjoined.trans _ _ _ (hedge.elim (.rel _ _) fun h => .symm _ _ (.rel _ _ h))
    rcases hcase with hstored | ⟨other, hother, rfl, hlt⟩
    · exact hnew key hjoined' hstored
    · exact absurd (hleast other ⟨hother, hjoined'⟩) (not_le.mpr hlt)
  obtain ⟨r, hr, hkey⟩ := hasks.exists_reaches hknown hans hm (hnew _ hjoined) hkept
  exact hnone ⟨m.key, hjoined, .inr ⟨r, hr, hkey⟩⟩

theorem Asks.honoured (hasks : Asks job.rows questions known)
    (hknown : ∀ key, known key → (store.get key).isSome = true)
    (hans : Answered run questions reviews) :
    Honoured job.rows (decided run reviews) (fun key => (store.get key).isSome = true)
      (Reaches job (locatorsToSkip job store run reviews)) := by
  refine ⟨fun row other hrow hother hkey => ?_, fun row hreaches => ?_,
    fun row hrow hstatus hnot => ?_, fun key hkey => ?_⟩
  · have hcases := hasks.reaches_cases hknown hans hother
    rw [← hkey] at hcases
    rcases hasks.reaches_cases hknown hans hrow with ⟨n, hget⟩ | ⟨hget, hfirst⟩
    · rw [hget] at hcases
      rcases hcases with ⟨n', heq⟩ | ⟨hnone, -⟩
      · exact hasks.eq_of_locator hrow.1 hother.1 (Prod.mk.inj (Option.some.inj heq)).2
      · cases hnone
    · rw [hget] at hcases
      rcases hcases with ⟨n', heq⟩ | ⟨-, hfirst'⟩
      · cases heq
      · exact hasks.eq_of_firstRow hfirst hfirst' hkey
  · rcases hasks.reaches_cases hknown hans hreaches with ⟨n, hget⟩ | ⟨hget, hfirst⟩
    · obtain ⟨r, hr, hlocator, -, hnumber, -, hchosen⟩ := hasks.chosen_sound hans hget
      obtain rfl := hasks.eq_of_locator hr hreaches.1 hlocator
      refine .inl ⟨hchosen, fun other hother hkey hchosen' => ?_⟩
      obtain ⟨n', keep', hget', hle⟩ : ∃ n keep, (skipsOf job store run reviews).chosen.get other.key =
        some (n, keep) ∧ other.rowNumber ≤ n := hasks.chosen_latest hans hother hchosen'
      rw [hkey, hget] at hget'
      obtain ⟨rfl, -⟩ := Prod.mk.inj (Option.some.inj hget')
      exact hnumber ▸ hle
    · refine .inr ⟨fun other hother hkey hchosen => ?_, fun haway => ?_,
        fun other hother hs hkey hlt => absurd (hfirst.2.2.2 other hother hs hkey) (not_le.mpr hlt)⟩
      · obtain ⟨n, keep, hget', -⟩ : ∃ n keep, (skipsOf job store run reviews).chosen.get other.key =
          some (n, keep) ∧ other.rowNumber ≤ n := hasks.chosen_latest hans hother hchosen
        rw [hkey, hget] at hget'
        cases hget'
      · obtain ⟨hrow, hstatus, hnot⟩ := reaches_iff.mp hreaches
        exact hnot ((mem_locatorsToSkip hasks hknown hans hrow hstatus).mpr (.inl haway))
  · have hskip : row.locator ∈ locatorsToSkip job store run reviews := by
      by_contra hskip
      exact hnot (reaches_iff.mpr ⟨hrow, hstatus, hskip⟩)
    rcases (mem_locatorsToSkip hasks hknown hans hrow hstatus).mp hskip with
      haway | ⟨n, keep, hget, hne⟩ | hgone
    · exact .inl haway
    · obtain ⟨r, hr, rfl, hkey, -, -, hchosen⟩ := hasks.chosen_sound hans hget
      exact .inr (.inl ⟨r, hr, fun heq => hne (heq ▸ rfl), hkey, hchosen⟩)
    · rw [skipsOf, mem_droppedKeys, or_iff_right List.not_mem_nil] at hgone
      obtain ⟨d, hd, locator, hdrops, hkey, -⟩ := hgone
      obtain ⟨r, hr, rfl, hnew, key, hedge, -⟩ := exists_of_drops hasks hknown hans hd hdrops
      rw [keyAt_locator hasks.distinct hr.1] at hkey
      rw [← hkey]
      exact .inr (.inr ⟨hnew, key, hedge⟩)
  · rcases hkey with hstored | ⟨row, hrow, hstatus, hmissing, rfl⟩
    · exact ⟨key, .refl _, .inl hstored⟩
    · obtain ⟨r, hfirst, hkey⟩ := exists_firstRow hrow hstatus hmissing
      exact hkey ▸ hasks.represented hknown hans hfirst

end

/-! ## From the questions to the import -/

/-- Other imports and edits; no caller of the service deletes the records of a job. -/
def WithoutDeletion : Rows N D → Records.Action N entity → Prop :=
  fun _ action => ∀ ingestionJobId, action ≠ .deleteByJob ingestionJobId

section
variable [DecidableEq D] {digest : List (String × Value N) → List (String × Value N) → D}

theorem stored_keeps (key : String) : (recordStore digest entity).Keeps WithoutDeletion
    fun rows : Rows N D => (rows.get key).isSome = true := by
  intro rows action rows' hstored hok hstep
  cases action with
  | upsertRecords mode records =>
    obtain ⟨⟨rows'', summary⟩, hrun, rfl⟩ := Option.map_eq_some_iff.mp hstep
    rcases upsertRecords_get (ok_of_toOption hrun) key with hsame | ⟨_, _, _, _, _, hrow⟩
    · rw [hsame]
      exact hstored
    · rw [hrow]
      rfl
  | updateRecordFields recordKey changes locator stamp =>
    obtain ⟨assignments, rfl, -⟩ := updateRecordFields_ok (ok_of_toOption hstep)
    rw [Table.get_updateWhere]
    split_ifs <;> simpa using hstored
  | deleteByJob ingestionJobId => exact absurd rfl (hok ingestionJobId)

theorem Asks.importRows_stores {job : StagedJob N entity maxRows} {row : StagedRow N entity}
    {questions : List (DuplicateCandidate N)} {known : String → Prop} {skipLocators : List String}
    {stamp committedBy : String} {store store' : Rows N D} {report : ImportReport}
    (hasks : Asks job.rows questions known)
    (hsingle : ∀ row other, Reaches job skipLocators row → Reaches job skipLocators other →
      row.key = other.key → row = other)
    (h : importRows digest stamp job skipLocators committedBy store = .ok (store', report))
    (hrow : Reaches job skipLocators row) : (store'.get row.key).isSome = true := by
  have hperm := jobRecords_perm job
  let taken := ((jobRecords maxRows job.rows).map (disposal job skipLocators)).filterMap
    Except.toOption
  -- what is taken is the record of a row that reaches the import
  have htaken : ∀ {r : StagedRow N entity} {a}, r ∈ job.rows → disposal job skipLocators r = .ok a →
      Reaches job skipLocators r ∧ a.1.recordKey = r.key ∧ missingKey r.key = false ∧
        a.1.hasBlockingIssues = false := by
    intro r a hr ha
    have hreaches : Reaches job skipLocators r := ⟨hr, a, ha⟩
    obtain ⟨-, hstatus, -⟩ := reaches_iff.mp hreaches
    obtain ⟨n, hn, rfl⟩ := disposal_ok ha
    refine ⟨hreaches, ?_, ?_, hasks.unblocked r hr (by rcases hstatus with h | h <;> simp [h]) n hn⟩
    · rw [StagedRow.key, r.keyed n hn]
      rfl
    · rcases hstatus with hready | hreview
      · exact (hasks.ready r hr hready).2.2.1
      · exact (hasks.review r hr hreview).1
  obtain ⟨hmem, a, ha⟩ := hrow
  have hlisted : a ∈ taken := by
    refine List.mem_filterMap.mpr ⟨_, List.mem_map_of_mem (hperm.mem_iff.mpr hmem), ?_⟩
    rw [ha]
    rfl
  have hsound : ∀ record ∈ taken.map Prod.fst, missingKey record.recordKey = false ∧
      record.hasBlockingIssues = false := by
    intro record hrecord
    obtain ⟨b, hb, rfl⟩ := List.mem_map.mp hrecord
    obtain ⟨d, hd, hb⟩ := List.mem_filterMap.mp hb
    obtain ⟨r, hr, rfl⟩ := List.mem_map.mp hd
    obtain ⟨-, hkey, hmissing, hblocking⟩ := htaken (hperm.mem_iff.mp hr) (ok_of_toOption hb)
    exact ⟨hkey ▸ hmissing, hblocking⟩
  have hnodup : ((taken.map Prod.fst).map (·.recordKey)).Nodup := by
    have hrows : (jobRecords maxRows job.rows).Nodup :=
      hperm.nodup_iff.mpr (List.Nodup.of_map _ hasks.distinct)
    rw [List.map_map, List.Nodup, List.pairwise_map, List.pairwise_filterMap, List.pairwise_map]
    refine hrows.imp_of_mem fun {r r'} hr hr' hne b hb b' hb' heq => hne ?_
    obtain ⟨hreaches, hkey, -⟩ := htaken (hperm.mem_iff.mp hr) (ok_of_toOption hb)
    obtain ⟨hreaches', hkey', -⟩ := htaken (hperm.mem_iff.mp hr') (ok_of_toOption hb')
    exact hsingle r r' hreaches hreaches' (hkey.symm.trans (heq.trans hkey'))
  rw [importRows] at h
  split_ifs at h with hempty
  · rw [show taken = [] from List.isEmpty_iff.mp hempty] at hlisted
    cases hlisted
  · change (upsertRecords digest _ store (taken.map Prod.fst)).bind _ = _ at h
    cases hrun : upsertRecords digest ⟨(taken.flatMap Prod.snd).dedup, (sheetColumn job).toList, true,
        stamp⟩ store (taken.map Prod.fst) with
    | error e =>
      rw [hrun] at h
      cases h
    | ok result =>
      rw [hrun] at h
      obtain ⟨rfl, rfl⟩ := Prod.mk.inj (Except.ok.inj h)
      rw [← (htaken hmem ha).2.1]
      exact upsertRecords_stores hrun hnodup hsound (List.mem_map_of_mem hlisted)

end

/-! ## A student in two rooms -/

/-- Numbers without rounding; names alike or not. -/
instance : Similarity ℚ where
  ratio left right := if left = right then 1 else 0
  add := (· + ·)
  min := min
  round3 x := (x * 1000 + 1 / 2).floor / 1000

def hostelRow (rowNumber : Nat) (locator room : String) : Prepared ℚ student where
  row :=
    { rowNumber, locator
      raw := [("USN", .text "S1"), ("Name", .text "Asha"), ("Room", .text room)]
      ocr := false
      ocrConfidence := none
      normalized := none
      status := .parsed
      action := .pending
      recordKey := none
      carried := by decide
      keyed := nofun }
  normalized :=
    { record := { asha with
        attributes := [("Room", .text room)]
        lineage := ⟨some "file-1", some "hostel.csv", some locator, some "job-1"⟩
        keys := List.nodup_singleton _ }
      names := ["student_id", "name"] }
  located := rfl

def hostelBatch : Batch ℚ student 50000 where
  prepared := [hostelRow 2 "csv;row=2" "12", hostelRow 3 "csv;row=3" "14"]
  fits := by decide
  ordered := by decide
  distinct := by decide
  located := by decide

def hostelNormalized : Normalization ℚ student :=
  normalize content hostelBatch false ([] : Rows ℚ (Content ℚ)) []

def hostelJob : StagedJob ℚ student 50000 where
  jobId := "job-1"
  fileId := some "file-1"
  fileName := some "hostel.csv"
  sourceLabel := none
  headers := ["USN", "Name", "Room"]
  sheets := ["hostel"]
  rows := hostelNormalized.rows
  fits := by decide

def hostelReviews : List (JobReview ℚ) :=
  hostelNormalized.questions.map fun q =>
    ⟨⟨.duplicate, .rejected, some "dean", none⟩, some (q, "run-1")⟩

end GuruJi.Ingestion
