import GuruJi.Ingestion.MarkRows
import GuruJi.Ingestion.Sheets
import GuruJi.Lib.Text
import Mathlib.Data.List.DropRight

/-!
# Rows beyond the limit

The merged rows are staged up to a limit, and the exam rows of a wide row together: the row at the limit
takes those before it along that its locator says are of the same wide row.

* `wideRow_examLocator`: the locator of an exam row leads back to its wide row;
* `keptRows_at`: what is staged of the rows before the wide row, or the row of its own, at the limit;
* **`keptRows_whole_iff`**: the rows that are staged are the longest beginning of whole wide rows iff the
  row before the one at the limit is not read as of the same wide row;
* `separate_of_distinct`: wide rows with different locators, among rows that are not read as one;
* `named_like_column`: a sheet with `;col=` in its name.
-/

namespace GuruJi.Ingestion

open GuruJi.Lib

/-! ## Locators -/

/-- What stands before the last occurrence of a separator. -/
def beforeLast (sep : List Char) : List Char → Option (List Char)
  | [] => none
  | c :: text =>
    match beforeLast sep text with
    | some before => some (c :: before)
    | none => if sep.isPrefixOf (c :: text) then some [] else none

/-- `_wide_row`. -/
def wideRow (locator : String) : Option String :=
  (beforeLast ";col=".toList locator.toList).map String.ofList

def examLocator (locator : String) (column : Nat) : String :=
  locator ++ ";col=" ++ columnLetter column

theorem beforeLast_eq_none {c : Char} {sep text : List Char} (h : c ∉ text) :
    beforeLast (c :: sep) text = none := by
  induction text with
  | nil => rfl
  | cons d text ih =>
    obtain ⟨hd, htext⟩ := not_or.mp (mt List.mem_cons.mpr h)
    have hstart : (c :: sep).isPrefixOf (d :: text) = false := by
      simp [List.isPrefixOf, hd]
    rw [beforeLast, ih htext, hstart]
    rfl

theorem beforeLast_append {c : Char} {sep tail : List Char} (hsep : c ∉ sep) (htail : c ∉ tail)
    (before : List Char) : beforeLast (c :: sep) (before ++ (c :: sep ++ tail)) = some before := by
  induction before with
  | nil =>
    have hnone : beforeLast (c :: sep) (sep ++ tail) = none :=
      beforeLast_eq_none fun hmem => (List.mem_append.mp hmem).elim hsep htail
    have hstart : (c :: sep).isPrefixOf (c :: (sep ++ tail)) = true :=
      List.isPrefixOf_iff_prefix.mpr ⟨tail, rfl⟩
    show beforeLast (c :: sep) (c :: (sep ++ tail)) = some []
    rw [beforeLast, hnone, hstart]
    rfl
  | cons d before ih => rw [List.cons_append, beforeLast, ih]

theorem semicolon_not_mem_columnLetter (n : Nat) : ';' ∉ (columnLetter n).toList := by
  have hletters : (List.range 26).all (fun d => Char.ofNat (65 + d) ≠ ';') = true := by decide
  rw [columnLetter, String.toList_ofList]
  intro h
  obtain ⟨d, hd, heq⟩ := List.mem_map.mp h
  have hlt : d < 26 := numeral_lt (by omega) (n + 1) d hd
  simpa [heq] using List.all_eq_true.mp hletters d (List.mem_range.mpr hlt)

/-- The locator of an exam row leads back to its wide row. -/
theorem wideRow_examLocator (locator : String) (column : Nat) :
    wideRow (examLocator locator column) = some locator := by
  have hsep : ";col=".toList = ';' :: ['c', 'o', 'l', '='] := rfl
  have htext : (examLocator locator column).toList =
      locator.toList ++ (';' :: ['c', 'o', 'l', '='] ++ (columnLetter column).toList) := by
    rw [examLocator, String.toList_append, String.toList_append, List.append_assoc, hsep]
  rw [wideRow, hsep, htext,
    beforeLast_append (by decide) (semicolon_not_mem_columnLetter column), Option.map_some,
    String.ofList_toList]

/-! ## Staging -/

section
variable {R : Type*} (locator : R → String)

/-- The wide row that a locator is read as: not the empty text. -/
def readWide (row : R) : Option String := (wideRow (locator row)).filter (· ≠ "")

def keptRows (maxRows : Nat) (merged : List R) : List R :=
  match merged[maxRows]?.bind (readWide locator) with
  | some cut => (merged.take maxRows).rdropWhile fun row => wideRow (locator row) = some cut
  | none => merged.take maxRows

/-- A row of a sheet: the exam rows of a wide row, with its locator, or one row of its own. -/
structure SourceRow where
  rows : List R
  wide : Option String
  own : wide = none → rows.length = 1
  exams : ∀ l ∈ wide, l ≠ "" ∧ ∀ row ∈ rows, ∃ column, locator row = examLocator l column

variable {locator}

def sourceRows (source : List (SourceRow locator)) : List R := source.flatMap (·.rows)

variable (locator) in
/-- A beginning of the rows, no longer than the limit, that has all rows of each wide row or none, and
is the longest of these. -/
structure KeepsWhole (source : List (SourceRow locator)) (maxRows : Nat) (rows : List R) : Prop where
  within : rows.length ≤ maxRows
  whole : ∃ before after, source = before ++ after ∧ rows = sourceRows before
  longest : ∀ before after, source = before ++ after → (sourceRows before).length ≤ maxRows →
    (sourceRows before).length ≤ rows.length

/-- The row before the wide row, or the row of its own, at the limit is not read as of the wide row that
the one at the limit is read as. -/
def Separate (source : List (SourceRow locator)) (maxRows : Nat) : Prop :=
  ∀ before s after, source = before ++ s :: after → (sourceRows before).length ≤ maxRows →
    maxRows < (sourceRows before).length + s.rows.length →
      ∀ last ∈ (sourceRows before).getLast?, ∀ row ∈ s.rows, ∀ l ∈ readWide locator row,
        wideRow (locator last) ≠ some l

/-! ## The row at the limit -/

theorem sourceRows_append (a b : List (SourceRow locator)) :
    sourceRows (a ++ b) = sourceRows a ++ sourceRows b := List.flatMap_append

theorem sourceRows_cons (s : SourceRow locator) (a : List (SourceRow locator)) :
    sourceRows (s :: a) = s.rows ++ sourceRows a := List.flatMap_cons

theorem readWide_of_wide {s : SourceRow locator} {l : String} (h : s.wide = some l) {row : R}
    (hrow : row ∈ s.rows) : wideRow (locator row) = some l ∧ readWide locator row = some l := by
  obtain ⟨hne, hexams⟩ := s.exams l h
  obtain ⟨column, hcolumn⟩ := hexams row hrow
  have hwide : wideRow (locator row) = some l := by rw [hcolumn, wideRow_examLocator]
  refine ⟨hwide, ?_⟩
  rw [readWide, hwide, Option.filter_some, if_pos (decide_eq_true hne)]

theorem exists_at_limit {source : List (SourceRow locator)} {n : Nat}
    (h : n < (sourceRows source).length) : ∃ before s after, source = before ++ s :: after ∧
      (sourceRows before).length ≤ n ∧ n < (sourceRows before).length + s.rows.length := by
  induction source generalizing n with
  | nil => exact absurd h (Nat.not_lt_zero n)
  | cons s source ih =>
    by_cases hs : n < s.rows.length
    · exact ⟨[], s, source, rfl, Nat.zero_le n, by simpa [sourceRows] using hs⟩
    · have hlength : (sourceRows (s :: source)).length = s.rows.length + (sourceRows source).length := by
        simp [sourceRows]
      obtain ⟨before, t, after, rfl, hle, hlt⟩ := @ih (n - s.rows.length) (by omega)
      have hbefore : (sourceRows (s :: before)).length = s.rows.length + (sourceRows before).length := by
        simp [sourceRows]
      exact ⟨s :: before, t, after, rfl, by omega, by omega⟩

theorem rdropWhile_append_of_all {p : R → Bool} {a b : List R} (h : ∀ x ∈ b, p x = true) :
    (a ++ b).rdropWhile p = a.rdropWhile p := by
  induction b using List.reverseRecOn with
  | nil => rw [List.append_nil]
  | append_singleton b x ih =>
    rw [← List.append_assoc, List.rdropWhile_concat_pos p _ x (h x (by simp))]
    exact ih fun y hy => h y (List.mem_append_left _ hy)

/-- What is staged, where the limit falls in a source row: the rows before it, without those at their
end that are read as of the wide row that one of its rows is read as. -/
theorem keptRows_at {before after : List (SourceRow locator)} {s : SourceRow locator} {n : Nat}
    (hle : (sourceRows before).length ≤ n) (hlt : n < (sourceRows before).length + s.rows.length) :
    ∃ row ∈ s.rows, keptRows locator n (sourceRows (before ++ s :: after)) =
      match readWide locator row with
      | some l => (sourceRows before).rdropWhile fun r => wideRow (locator r) = some l
      | none => sourceRows before := by
  have hin : n - (sourceRows before).length < s.rows.length := by omega
  have hrows : sourceRows (before ++ s :: after) =
      sourceRows before ++ (s.rows ++ sourceRows after) := by
    rw [sourceRows_append]
    rfl
  obtain ⟨row, hrow⟩ : ∃ row, s.rows[n - (sourceRows before).length]? = some row :=
    ⟨_, List.getElem?_eq_getElem hin⟩
  have hget : (sourceRows (before ++ s :: after))[n]? = some row := by
    rw [hrows, List.getElem?_append_right hle, List.getElem?_append_left hin, hrow]
  have htake : (sourceRows (before ++ s :: after)).take n =
      sourceRows before ++ s.rows.take (n - (sourceRows before).length) := by
    rw [hrows, List.take_append, List.take_of_length_le hle, List.take_append_of_le_length (by omega)]
  have hmem : row ∈ s.rows := List.mem_of_getElem? hrow
  refine ⟨row, hmem, ?_⟩
  rw [keptRows, hget, Option.bind_some, htake]
  cases hwide : s.wide with
  | none =>
    -- A row of its own is the first of its rows.
    have hone := s.own hwide
    have hstart : n - (sourceRows before).length = 0 := by omega
    rw [hstart, List.take_zero, List.append_nil]
  | some l =>
    rw [(readWide_of_wide hwide hmem).2]
    refine rdropWhile_append_of_all fun row hrow => ?_
    exact decide_eq_true (readWide_of_wide hwide (List.mem_of_mem_take hrow)).1

theorem readWide_same {s : SourceRow locator} {row row' : R} (hrow : row ∈ s.rows)
    (hrow' : row' ∈ s.rows) : readWide locator row = readWide locator row' := by
  cases hwide : s.wide with
  | none =>
    obtain ⟨only, honly⟩ := List.length_eq_one_iff.mp (s.own hwide)
    rw [honly] at hrow hrow'
    rw [List.mem_singleton.mp hrow, List.mem_singleton.mp hrow']
  | some l => rw [(readWide_of_wide hwide hrow).2, (readWide_of_wide hwide hrow').2]

theorem length_le_of_fits {before after before' after' : List (SourceRow locator)}
    {s : SourceRow locator} {n : Nat} (heq : before' ++ after' = before ++ s :: after)
    (hfits : (sourceRows before').length ≤ n) (hlt : n < (sourceRows before).length + s.rows.length) :
    (sourceRows before').length ≤ (sourceRows before).length := by
  rcases List.append_eq_append_iff.mp heq with ⟨x, rfl, -⟩ | ⟨x, rfl, hx⟩
  · rw [sourceRows_append, List.length_append]
    omega
  · rcases x with _ | ⟨t, x⟩
    · rw [List.append_nil]
    · obtain ⟨rfl, -⟩ := List.cons.inj hx
      have hlength : (sourceRows (before ++ s :: x)).length =
          (sourceRows before).length + (s.rows.length + (sourceRows x).length) := by
        rw [sourceRows_append, List.length_append, sourceRows_cons, List.length_append]
      omega

theorem at_limit_unique {before after before' after' : List (SourceRow locator)}
    {s s' : SourceRow locator} {n : Nat} (heq : before ++ s :: after = before' ++ s' :: after')
    (hle : (sourceRows before).length ≤ n) (hlt : n < (sourceRows before).length + s.rows.length)
    (hle' : (sourceRows before').length ≤ n)
    (hlt' : n < (sourceRows before').length + s'.rows.length) : before = before' ∧ s = s' := by
  rcases List.append_eq_append_iff.mp heq with ⟨x, rfl, hx⟩ | ⟨x, rfl, hx⟩
  · rcases x with _ | ⟨t, x⟩
    · exact ⟨(List.append_nil before).symm, (List.cons.inj hx).1⟩
    · obtain ⟨rfl, -⟩ := List.cons.inj hx
      rw [sourceRows_append, List.length_append, sourceRows_cons, List.length_append] at hle'
      omega
  · rcases x with _ | ⟨t, x⟩
    · exact ⟨List.append_nil before', (List.cons.inj hx).1.symm⟩
    · obtain ⟨rfl, -⟩ := List.cons.inj hx
      rw [sourceRows_append, List.length_append, sourceRows_cons, List.length_append] at hle
      omega

/-- What is staged are whole wide rows, and as many as fit, iff it is all before the source row in which
the limit falls. -/
theorem keepsWhole_iff_eq {before after : List (SourceRow locator)} {s : SourceRow locator} {n : Nat}
    {kept : List R} (hle : (sourceRows before).length ≤ n)
    (hlt : n < (sourceRows before).length + s.rows.length) (hkept : kept <+: sourceRows before) :
    KeepsWhole locator (before ++ s :: after) n kept ↔ kept = sourceRows before := by
  constructor
  · intro h
    exact hkept.eq_of_length_le (h.longest before (s :: after) rfl hle)
  · rintro rfl
    exact ⟨hle, ⟨before, s :: after, rfl, rfl⟩, fun before' after' heq hfits =>
      length_le_of_fits heq.symm hfits hlt⟩

/-- **Whole wide rows are staged**, and as many as fit, iff the row before the one at the limit is not
read as of the same wide row. -/
theorem keptRows_whole_iff (source : List (SourceRow locator)) (maxRows : Nat) :
    KeepsWhole locator source maxRows (keptRows locator maxRows (sourceRows source)) ↔
      Separate source maxRows := by
  by_cases hlong : maxRows < (sourceRows source).length
  · obtain ⟨before, s, after, rfl, hle, hlt⟩ := exists_at_limit hlong
    obtain ⟨row, hrow, hkept⟩ := @keptRows_at _ _ before after s _ hle hlt
    have hseparate : Separate (before ++ s :: after) maxRows ↔
        ∀ last ∈ (sourceRows before).getLast?, ∀ l ∈ readWide locator row,
          wideRow (locator last) ≠ some l := by
      constructor
      · exact fun h last hlast => h before s after rfl hle hlt last hlast row hrow
      · intro h before' s' after' heq hle' hlt' last hlast row' hrow'
        obtain ⟨rfl, rfl⟩ := at_limit_unique heq hle hlt hle' hlt'
        rw [readWide_same hrow' hrow]
        exact h last hlast
    rw [hseparate, hkept]
    cases hwide : readWide locator row with
    | none =>
      refine iff_of_true ((keepsWhole_iff_eq hle hlt List.prefix_rfl).mpr rfl) fun last _ l hl => ?_
      cases hl
    | some l =>
      refine (keepsWhole_iff_eq hle hlt (List.rdropWhile_prefix _ _)).trans ?_
      rw [rdropWhile_eq_self_iff_last]
      refine forall₂_congr fun last _ => ?_
      simp
  · have hnone : (sourceRows source)[maxRows]? = none := List.getElem?_eq_none (Nat.not_lt.mp hlong)
    have hall : keptRows locator maxRows (sourceRows source) = sourceRows source := by
      rw [keptRows, hnone]
      exact List.take_of_length_le (Nat.not_lt.mp hlong)
    rw [hall]
    refine iff_of_true ⟨Nat.not_lt.mp hlong, ⟨source, [], (List.append_nil source).symm, rfl⟩, ?_⟩ ?_
    · rintro before after rfl -
      rw [sourceRows_append, List.length_append]
      exact Nat.le_add_right _ _
    · rintro before s after rfl - hlt
      rw [sourceRows_append, List.length_append, sourceRows_cons, List.length_append] at hlong
      omega

/-- Wide rows with different locators are staged whole, where no other row is read as one. -/
theorem separate_of_distinct {source : List (SourceRow locator)}
    (hplain : ∀ s ∈ source, s.wide = none → ∀ row ∈ s.rows, wideRow (locator row) = none)
    (hdistinct : (source.filterMap (·.wide)).Nodup) (maxRows : Nat) : Separate source maxRows := by
  rintro before s after rfl - - last hlast row hrow l hl hread
  obtain ⟨t, ht, hlast⟩ := List.mem_flatMap.mp (List.mem_of_mem_getLast? hlast)
  have hwide : wideRow (locator row) = some l := (Option.mem_filter_iff.mp hl).1
  have hs : s.wide = some l := by
    cases hnone : s.wide with
    | none =>
      rw [hplain s (List.mem_append_right _ List.mem_cons_self) hnone row hrow] at hwide
      exact absurd hwide (Option.some_ne_none l).symm
    | some l' => rw [← hwide, (readWide_of_wide hnone hrow).1]
  have htl : t.wide = some l := by
    cases hnone : t.wide with
    | none =>
      rw [hplain t (List.mem_append_left _ ht) hnone last hlast] at hread
      exact absurd hread (Option.some_ne_none l).symm
    | some l' => rw [← hread, (readWide_of_wide hnone hlast).1]
  rw [List.filterMap_append] at hdistinct
  refine List.disjoint_of_nodup_append hdistinct (List.mem_filterMap.mpr ⟨t, ht, htl⟩) ?_
  exact List.mem_filterMap.mpr ⟨s, List.mem_cons_self, hs⟩

end

/-! ## Staged rows -/

section
variable {V : Type*} (text : String → V) (norm : String → String) (plain : V → V)

/-- A row as it is staged. -/
structure StagedRecord (V : Type*) where
  rowNumber : Nat
  locator : String
  raw : Table String V
  status : String
  action : String
  deriving DecidableEq

/-- The staged form of a row, with the values that the store takes. -/
def stagedRecord (row : MergedRow V) : StagedRecord V where
  rowNumber := row.rowNumber
  locator := row.record.locator
  raw := row.fields.map fun e => (e.1, plain e.2)
  status := "parsed"
  action := "pending"

def mergedLocator (row : MergedRow V) : String := row.record.locator

/-- The rows that `_stage_parsed_rows` stages of the sheets that are selected. -/
def stagedParsedRows (maxRows : Nat) (tables : List (ParsedSheet V)) : List (StagedRecord V) :=
  (keptRows mergedLocator maxRows (mergeSheets text norm tables).2).map (stagedRecord plain)

variable {text norm plain}

theorem keptRows_prefix {R : Type*} (locator : R → String) (maxRows : Nat) (merged : List R) :
    keptRows locator maxRows merged <+: merged := by
  unfold keptRows
  split
  · exact (List.rdropWhile_prefix _ _).trans (List.take_prefix _ _)
  · exact List.take_prefix _ _

/-- **The rows that are staged are whole wide rows**, as many as fit, iff the row before the one at the
limit is not read as of the same wide row. -/
theorem stagedParsedRows_whole_iff {tables : List (ParsedSheet V)} {maxRows : Nat}
    {source : List (SourceRow (mergedLocator : MergedRow V → String))}
    (hsource : sourceRows source = (mergeSheets text norm tables).2) :
    (∃ rows, rows <+: sourceRows source ∧
      stagedParsedRows text norm plain maxRows tables = rows.map (stagedRecord plain) ∧
        KeepsWhole mergedLocator source maxRows rows) ↔ Separate source maxRows := by
  rw [← keptRows_whole_iff, stagedParsedRows, ← hsource]
  constructor
  · rintro ⟨rows, hstart, hstaged, hwhole⟩
    have hlength := congrArg List.length hstaged
    rw [List.length_map, List.length_map] at hlength
    have hkept := keptRows_prefix mergedLocator maxRows (sourceRows source)
    rwa [(List.prefix_of_prefix_length_le hkept hstart hlength.le).eq_of_length hlength]
  · exact fun hwhole => ⟨_, keptRows_prefix _ _ _, rfl, hwhole⟩

/-! ## Where rows come from -/

def ownRow {R : Type*} {locator : R → String} (row : R) : SourceRow locator :=
  ⟨[row], none, fun _ => rfl, fun _ h => absurd h (Option.not_mem_none _)⟩

theorem plain_source {R : Type*} {locator : R → String} (rows : List R) :
    sourceRows (rows.map (@ownRow R locator)) = rows := by
  induction rows with
  | nil => rfl
  | cons row rows ih => rw [List.map_cons, sourceRows_cons, ih]; rfl

end

/-! ## Two sheets -/

deriving instance DecidableEq for IntermediateRecord
deriving instance DecidableEq for MergedRow

def semesterExam (row column : Nat) (marks : String) : IntermediateRecord String :=
  ⟨examLocator ("sheet=2nd Sem;row=" ++ toString row) column, row, [("marks_obtained", marks)]⟩

def semesterRecords : List (IntermediateRecord String) :=
  [semesterExam 2 3 "41", semesterExam 2 4 "37", semesterExam 3 3 "40", semesterExam 3 4 "44"]

theorem keyed_semester : ∀ r ∈ semesterRecords, (r.fields.map Prod.fst).Nodup ∧
    ∀ k ∈ r.fields.map Prod.fst, k ∈ ["marks_obtained"] := by decide

theorem numbered_semester : ∀ r ∈ semesterRecords, 1 ≤ r.rowNumber := by decide

def semester : ParsedSheet String where
  headers := ["marks_obtained"]
  records := semesterRecords
  warnings := []
  title := ""
  name := "2nd Sem"
  distinct := List.nodup_singleton _
  keyed := keyed_semester
  numbered := numbered_semester

def mergedExam (row column : Nat) (marks : String) : MergedRow String :=
  ⟨semesterExam row column marks, [("marks_obtained", marks)], row⟩

def semesterRow (row : Nat) (first second : String) :
    SourceRow (mergedLocator : MergedRow String → String) where
  rows := [mergedExam row 3 first, mergedExam row 4 second]
  wide := some ("sheet=2nd Sem;row=" ++ toString row)
  own := fun h => absurd h (Option.some_ne_none _)
  exams := by
    intro l hl
    obtain rfl := Option.some.inj hl
    refine ⟨fun hempty => ?_, fun exam hexam => ?_⟩
    · have hlength := congrArg String.length hempty
      rw [String.length_append] at hlength
      exact absurd (Nat.eq_zero_of_add_eq_zero_right hlength) (by decide)
    · rcases List.mem_pair.mp hexam with rfl | rfl
      · exact ⟨3, rfl⟩
      · exact ⟨4, rfl⟩

/-- With room for three rows, the two exams of the first student are staged, and none of the second. -/
theorem stagedParsedRows_whole_iff_semester :
    Separate [semesterRow 2 "41" "37", semesterRow 3 "40" "44"] 3 ∧
      ∃ rows, rows <+: sourceRows [semesterRow 2 "41" "37", semesterRow 3 "40" "44"] ∧
        stagedParsedRows id (normalizeHeader String.toLower) id 3 [semester] =
          rows.map (stagedRecord id) ∧
        KeepsWhole mergedLocator [semesterRow 2 "41" "37", semesterRow 3 "40" "44"] 3 rows := by
  have hseparate : Separate [semesterRow 2 "41" "37", semesterRow 3 "40" "44"] 3 := by
    refine separate_of_distinct (fun s hs hnone => ?_) (by decide) 3
    rcases List.mem_pair.mp hs with rfl | rfl
    · exact absurd hnone (Option.some_ne_none _)
    · exact absurd hnone (Option.some_ne_none _)
  exact ⟨hseparate, (stagedParsedRows_whole_iff (by decide)).mpr hseparate⟩

/-- The rows of two students, under a name that has the sign of a column in it. -/
def listedRecords : List (IntermediateRecord String) :=
  [⟨"sheet=Marks;col=A;row=2", 2, [("Name", "Asha")]⟩,
      ⟨"sheet=Marks;col=A;row=3", 3, [("Name", "Ravi")]⟩]

theorem keyed_listed : ∀ r ∈ listedRecords, (r.fields.map Prod.fst).Nodup ∧
    ∀ k ∈ r.fields.map Prod.fst, k ∈ ["Name"] := by decide

theorem numbered_listed : ∀ r ∈ listedRecords, 1 ≤ r.rowNumber := by decide

def listed : ParsedSheet String where
  headers := ["Name"]
  records := listedRecords
  warnings := []
  title := ""
  name := "Marks;col=A"
  distinct := List.nodup_singleton _
  keyed := keyed_listed
  numbered := numbered_listed

/-- With room for one row of the sheet, none is staged. -/
theorem named_like_column : ∃ source : List (SourceRow (mergedLocator : MergedRow String → String)),
    sourceRows source = (mergeSheets id (normalizeHeader String.toLower) [listed]).2 ∧
      (∀ s ∈ source, s.wide = none) ∧
        stagedParsedRows id (normalizeHeader String.toLower) id 1 [listed] = [] ∧
          ¬∃ rows, rows <+: sourceRows source ∧
            stagedParsedRows id (normalizeHeader String.toLower) id 1 [listed] =
              rows.map (stagedRecord id) ∧ KeepsWhole mergedLocator source 1 rows := by
  have hnone : stagedParsedRows id (normalizeHeader String.toLower) id 1 [listed] = [] := by
    decide
  refine ⟨_, plain_source _, fun s hs => ?_, hnone, ?_⟩
  · obtain ⟨row, -, rfl⟩ := List.mem_map.mp hs
    rfl
  · rintro ⟨rows, -, hstaged, hwhole⟩
    rw [hnone] at hstaged
    obtain rfl := List.map_eq_nil_iff.mp hstaged.symm
    have hmerged : (mergeSheets id (normalizeHeader String.toLower) [listed]).2 =
        [⟨listedRecords[0], [("Name", "Asha")], 2⟩, ⟨listedRecords[1], [("Name", "Ravi")], 3⟩] := by
      decide
    rw [hmerged] at hwhole
    exact absurd (hwhole.longest [ownRow _] [ownRow _] rfl le_rfl) (Nat.not_succ_le_zero 0)

end GuruJi.Ingestion
