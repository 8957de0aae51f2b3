import GuruJi.Ingestion.Grids
import GuruJi.Lib.Fold
import Mathlib.Algebra.GroupWithZero.Nat

/-!
# Worksheets

The reader of workbooks streams a worksheet: it puts the cells of a row where their references say, and
the rows one after the other.

* `getElem?_readRow`: within a row, each cell is at its column;
* **`reads_right_iff`**: every cell is at its row and column, the merged ranges cover what they cover in
  the file and records have the row numbers of the sheet, iff no row is left out above a row that has a
  cell;
* `row_left_out`: a sheet whose first row is left out.
-/

namespace GuruJi.Ingestion

open GuruJi.Lib

/-- `\d` and `int` of a decimal character. -/
structure Decimals where
  digit : Char → Option Nat
  ascii : ∀ c : Char, c.isDigit = true → digit c = some (c.toNat - '0'.toNat)
  letters : ∀ c : Char, 'A' ≤ c → c ≤ 'Z' → digit c = none

/-- `MAX_SHEET_COLUMNS`. -/
def maxSheetColumns : Nat := 1024

/-- `[A-Z]`. -/
def isColumnLetter (c : Char) : Bool := 'A' ≤ c && c ≤ 'Z'

def columnNumber (letters : List Char) : Nat :=
    letters.foldl (fun index c => index * 26 + (c.toNat - 'A'.toNat + 1)) 0

section
variable (d : Decimals)

/-- `_column_index`. -/
def columnIndex (ref : List Char) : Nat :=
  match ref.takeWhile isColumnLetter, ref.dropWhile isColumnLetter with
  | [], _ | _, [] => 0
  | letters, next :: _ =>
    if (d.digit next).isNone then 0
    else if 3 < letters.length then maxSheetColumns
    else columnNumber letters - 1

/-- `int(digits)`. -/
def intOf (digits : List Char) : Nat := digits.foldl (fun n c => 10 * n + (d.digit c).getD 0) 0

/-- `_CELL_REF.fullmatch`: the letters and the digits. -/
def fullMatch (ref : List Char) : Option (List Char × List Char) :=
  let letters := ref.takeWhile isColumnLetter
  let digits := ref.dropWhile isColumnLetter
  if letters ≠ [] ∧ digits ≠ [] ∧ digits.all (fun c => (d.digit c).isSome) then some (letters, digits)
    else none

/-- `_merged_range`. -/
def mergedRange (ref : List Char) : Option Span :=
  match ref.splitOn ':' with
  | [first, last] =>
    match fullMatch d first, fullMatch d last with
    | some (_, firstDigits), some (_, lastDigits) =>
      some ⟨intOf d firstDigits - 1, columnIndex d first, intOf d lastDigits - 1, columnIndex d last⟩
    | _, _ => none
  | _ => none

/-! ## Reading a sheet -/

/-- A worksheet as it is streamed: its rows, each with the references and the values of its cells, and
then the references of its merged ranges. -/
structure XmlSheet where
  rows : List (List (List Char × Cell))
  merges : List (List Char)

def readCell (values : List Cell) (cell : List Char × Cell) : List Cell :=
  let index := columnIndex d cell.1
  if index < maxSheetColumns then values ++ List.replicate (index - values.length) (.text "") ++
    [cell.2] else values

def readRow (cells : List (List Char × Cell)) : List Cell := cells.foldl (readCell d) []

/-- The rows of a sheet, and whether the reader stopped: `room` is the number of rows until it does. -/
def readRows : Nat → List (List (List Char × Cell)) → List (List Cell) × Bool
  | _, [] => ([], false)
  | room, row :: rows =>
    if room ≤ 1 then ([readRow d row], true)
    else
      let rest := readRows (room - 1) rows
      (readRow d row :: rest.1, rest.2)

/-- `_read_sheet`: the grid, and the merged ranges near its top. -/
def readSheet (sheet : XmlSheet) : List (List Cell) × List Span :=
  let rows := readRows d (maxRows + 21) sheet.rows
  (rows.1, if rows.2 then [] else (sheet.merges.filterMap (mergedRange d)).filter (·.firstRow < 40))

end

/-! ## Sheets with references -/

/-- A position of a sheet, as its references name it. -/
structure CellRef where
  letters : List Char
  row : Nat
  named : letters ≠ []
  upper : ∀ c ∈ letters, isColumnLetter c = true
  positive : 1 ≤ row

def CellRef.column (ref : CellRef) : Nat := columnNumber ref.letters - 1

def CellRef.text (ref : CellRef) : List Char := ref.letters ++ (Nat.repr ref.row).toList

/-- A row of a sheet: its cells are in its own row, in the order of their columns. -/
structure SheetRow where
  number : Nat
  cells : List (CellRef × Cell)
  inRow : ∀ cell ∈ cells, cell.1.row = number
  increasing : cells.Pairwise fun a b => a.1.column < b.1.column
  positive : 1 ≤ number

/-- A worksheet whose rows are in the order of their numbers; empty rows and cells may be left out. -/
structure Sheet where
  rows : List SheetRow
  merges : List (CellRef × CellRef)
  increasing : rows.Pairwise fun a b => a.number < b.number

def SheetRow.xml (row : SheetRow) : List (List Char × Cell) := row.cells.map fun cell =>
    (cell.1.text, cell.2)

def Sheet.xml (sheet : Sheet) : XmlSheet :=
  ⟨sheet.rows.map SheetRow.xml, sheet.merges.map fun merge => merge.1.text ++ ':' :: merge.2.text⟩

/-! ## References -/

theorem not_isColumnLetter_of_isDigit {c : Char} (h : c.isDigit = true) : isColumnLetter c = false := by
  rw [Char.isDigit, Bool.and_eq_true, decide_eq_true_eq, decide_eq_true_eq] at h
  rw [isColumnLetter, Bool.and_eq_false_iff]
  left
  rw [decide_eq_false_iff_not, Char.le_def, UInt32.le_iff_toNat_le]
  have hle := UInt32.le_iff_toNat_le.mp h.2
  exact fun hA => absurd (hA.trans hle) (by decide)

theorem digits_repr (n : Nat) : ∃ c cs, (Nat.repr n).toList = c :: cs ∧ ∀ x ∈ c :: cs,
    x.isDigit = true := by
  have hne : (Nat.repr n).toList ≠ [] := by
    rw [Nat.repr, String.toList_ofList]
    exact Nat.toDigits_ne_nil
  obtain ⟨c, cs, hcs⟩ := List.exists_cons_of_ne_nil hne
  exact ⟨c, cs, hcs, fun x hx => isDigit_of_mem_repr (hcs ▸ hx)⟩

namespace CellRef
variable (ref : CellRef)

theorem split_text : ref.text.takeWhile isColumnLetter = ref.letters ∧
    ref.text.dropWhile isColumnLetter = (Nat.repr ref.row).toList := by
  obtain ⟨c, cs, hcs, hdigits⟩ := digits_repr ref.row
  have hc := not_isColumnLetter_of_isDigit (hdigits c List.mem_cons_self)
  rw [text, hcs]
  constructor
  · rw [List.takeWhile_append_of_pos ref.upper, List.takeWhile_cons_of_neg (by simp [hc]),
      List.append_nil]
  · rw [List.dropWhile_append_of_pos ref.upper, List.dropWhile_cons_of_neg (by simp [hc])]

theorem columnIndex_text (d : Decimals) :
    columnIndex d ref.text = if 3 < ref.letters.length then maxSheetColumns else ref.column := by
  obtain ⟨hletters, hdigits⟩ := ref.split_text
  obtain ⟨c, cs, hcs, hall⟩ := digits_repr ref.row
  obtain ⟨l, ls, hls⟩ := List.exists_cons_of_ne_nil ref.named
  have hc := d.ascii c (hall c List.mem_cons_self)
  rw [columnIndex, hletters, hdigits, hcs, hls]
  simp only [hc, Option.isNone_some, Bool.false_eq_true, if_false]
  rw [column, hls]

theorem le_columnNumber (letters : List Char) (index : Nat) : index * 26 ^ letters.length ≤
    letters.foldl (fun index c => index * 26 + (c.toNat - 'A'.toNat + 1)) index := by
  induction letters generalizing index with
  | nil => simp
  | cons c letters ih =>
    refine le_trans ?_ (ih _)
    rw [List.length_cons, Nat.pow_succ']
    calc index * (26 * 26 ^ letters.length) = index * 26 * 26 ^ letters.length :=
          (Nat.mul_assoc _ _ _).symm
      _ ≤ _ := Nat.mul_le_mul_right _ (Nat.le_add_right _ _)

theorem length_le_of_column_lt (h : ref.column < maxSheetColumns) : ref.letters.length ≤ 3 := by
  by_contra hlong
  obtain ⟨l, ls, hls⟩ := List.exists_cons_of_ne_nil ref.named
  have hnumber := le_columnNumber ls (0 * 26 + (l.toNat - 'A'.toNat + 1))
  rw [hls, List.length_cons] at hlong
  have hpow : 26 ^ 3 ≤ 26 ^ ls.length := Nat.pow_le_pow_right (by omega) (by omega)
  have hfirst : 26 ^ ls.length ≤ (0 * 26 + (l.toNat - 'A'.toNat + 1)) * 26 ^ ls.length :=
    Nat.le_mul_of_pos_left _ (by omega)
  have hcolumn : columnNumber ref.letters - 1 < 1024 := h
  rw [columnNumber, hls, List.foldl_cons] at hcolumn
  omega

theorem columnIndex_lt_iff (d : Decimals) : columnIndex d ref.text < maxSheetColumns ↔ ref.column <
    maxSheetColumns := by
  rw [columnIndex_text]
  split_ifs with hlong
  · refine iff_of_false (lt_irrefl _) fun h => ?_
    have := ref.length_le_of_column_lt h
    omega
  · exact Iff.rfl

theorem columnIndex_of_lt (d : Decimals) (h : ref.column < maxSheetColumns) : columnIndex d ref.text =
    ref.column := by
  rw [columnIndex_text, if_neg (by have := ref.length_le_of_column_lt h; omega)]

end CellRef

/-! ## Within a row -/

section
variable (d : Decimals)

theorem readCell_text (values : List Cell) (ref : CellRef) (value : Cell) :
    readCell d values (ref.text, value) =
      if ref.column < maxSheetColumns then
        values ++ List.replicate (ref.column - values.length) (.text "") ++ [value]
      else values := by
  rw [readCell]
  by_cases hlt : ref.column < maxSheetColumns
  · rw [if_pos hlt, if_pos ((ref.columnIndex_lt_iff d).mpr hlt), ref.columnIndex_of_lt d hlt]
  · rw [if_neg hlt, if_neg (mt (ref.columnIndex_lt_iff d).mp hlt)]

/-- Cells in the order of their columns are put where these say, and what is there stays. -/
theorem getElem?_foldl_readCell {cells : List (CellRef × Cell)}
    (hcells : cells.Pairwise fun a b => a.1.column < b.1.column) (values : List Cell)
    (hvalues : ∀ cell ∈ cells, values.length ≤ cell.1.column) :
    (∀ (c : Nat) v, values[c]? = some v →
      (cells.foldl (fun values cell => readCell d values (cell.1.text, cell.2)) values)[c]? = some v) ∧
    ∀ cell ∈ cells, cell.1.column < maxSheetColumns →
      (cells.foldl (fun values cell => readCell d values (cell.1.text, cell.2)) values)[cell.1.column]? =
      some cell.2 := by
  induction cells generalizing values with
  | nil => exact ⟨fun _ _ h => h, nofun⟩
  | cons first cells ih =>
    obtain ⟨hfirst, hcells⟩ := List.pairwise_cons.mp hcells
    have hle := hvalues first List.mem_cons_self
    rw [List.foldl_cons, readCell_text]
    by_cases hlt : first.1.column < maxSheetColumns
    · rw [if_pos hlt]
      have hlength : (values ++ List.replicate (first.1.column - values.length) (Cell.text "")).length =
          first.1.column := by
        rw [List.length_append, List.length_replicate]
        omega
      obtain ⟨hstay, hput⟩ := ih hcells (values ++ List.replicate (first.1.column - values.length)
        (.text "") ++ [first.2])
        fun cell hcell => by
          have hnext := hfirst cell hcell
          rw [List.length_append, hlength, List.length_singleton]
          omega
      refine ⟨fun c v hv => hstay c v ?_, fun cell hcell hcolumn => ?_⟩
      · have hc : c < values.length := (List.getElem?_eq_some_iff.mp hv).1
        rw [List.append_assoc, List.getElem?_append_left hc]
        exact hv
      · rcases List.mem_cons.mp hcell with rfl | hcell
        · refine hstay _ _ ?_
          rw [List.getElem?_append_right hlength.le, hlength, Nat.sub_self]
          rfl
        · exact hput cell hcell hcolumn
    · rw [if_neg hlt]
      obtain ⟨hstay, hput⟩ := ih hcells values fun cell hcell =>
        hvalues cell (List.mem_cons_of_mem _ hcell)
      refine ⟨hstay, fun cell hcell hcolumn => ?_⟩
      rcases List.mem_cons.mp hcell with rfl | hcell
      · exact absurd hcolumn hlt
      · exact hput cell hcell hcolumn

/-- The row has a cell in the columns that are read. -/
def SheetRow.Filled (row : SheetRow) : Prop := ∃ cell ∈ row.cells, cell.1.column < maxSheetColumns

theorem readRow_xml (row : SheetRow) :
    readRow d row.xml = row.cells.foldl (fun values cell => readCell d values (cell.1.text, cell.2))
    [] := by
  rw [readRow, SheetRow.xml, List.foldl_map]

/-- **Within a row**, each cell is at its column. -/
theorem getElem?_readRow {row : SheetRow} {cell : CellRef × Cell} (hcell : cell ∈ row.cells)
    (hcolumn : cell.1.column < maxSheetColumns) : (readRow d row.xml)[cell.1.column]? = some cell.2 := by
  rw [readRow_xml]
  exact (getElem?_foldl_readCell d row.increasing [] fun _ _ => Nat.zero_le _).2 cell hcell hcolumn

theorem readRow_ne_nil_iff {row : SheetRow} : readRow d row.xml ≠ [] ↔ row.Filled := by
  constructor
  · intro hne
    by_contra hempty
    refine hne ?_
    rw [readRow_xml]
    refine foldl_keeps (P := fun values : List Cell => values = []) (fun cell hcell values hvalues =>
      ?_) rfl
    rw [readCell_text, if_neg fun hlt => hempty ⟨cell, hcell, hlt⟩]
    exact hvalues
  · rintro ⟨cell, hcell, hcolumn⟩ hnil
    have hget := getElem?_readRow d hcell hcolumn
    rw [hnil] at hget
    cases hget

theorem readRows_eq (room : Nat) (rows : List (List (List Char × Cell))) :
    (readRows d (room + 1) rows).1 = (rows.take (room + 1)).map (readRow d) := by
  induction rows generalizing room with
  | nil => rfl
  | cons row rows ih =>
    rw [readRows, List.take_succ_cons, List.map_cons]
    rcases room with _ | room
    · rfl
    · rw [if_neg (by omega)]
      exact congrArg _ (ih room)

theorem readSheet_grid (sheet : Sheet) :
    (readSheet d sheet.xml).1 = (sheet.rows.take (maxRows + 21)).map fun row => readRow d row.xml := by
  refine (readRows_eq d (maxRows + 20) _).trans ?_
  rw [Sheet.xml, ← List.map_take, List.map_map]
  rfl

end

/-! ## Merged ranges -/

/-- A merged range covers a position of the grid. -/
def Span.Covers (span : Span) (r c : Nat) : Prop :=
  span.firstRow ≤ r ∧ r ≤ span.lastRow ∧ span.firstCol ≤ c ∧ c ≤ span.lastCol

/-- A merged range of the file covers a position of the sheet. -/
def Merged (merge : CellRef × CellRef) (row column : Nat) : Prop :=
  merge.1.row ≤ row ∧ row ≤ merge.2.row ∧ merge.1.column ≤ column ∧ column ≤ merge.2.column

section
variable (d : Decimals)

theorem intOf_repr (n : Nat) : intOf d (Nat.repr n).toList = n := by
  have hfold : ∀ (cs : List Char) (m : Nat), (∀ c ∈ cs, c.isDigit = true) →
      cs.foldl (fun n c => 10 * n + (d.digit c).getD 0) m =
      cs.foldl (fun n c => 10 * n + (c.toNat - '0'.toNat)) m := by
    intro cs
    induction cs with
    | nil => exact fun _ _ => rfl
    | cons c cs ih =>
      intro m hcs
      rw [List.foldl_cons, List.foldl_cons, d.ascii c (hcs c List.mem_cons_self), Option.getD_some]
      exact ih _ fun x hx => hcs x (List.mem_cons_of_mem c hx)
  rw [intOf, hfold _ _ fun c hc => isDigit_of_mem_repr hc, ← Nat.ofDigitChars_eq_foldl, Nat.repr,
    String.toList_ofList]
  exact Nat.ofDigitChars_ten_toDigits

theorem fullMatch_text (ref : CellRef) : fullMatch d ref.text =
    some (ref.letters, (Nat.repr ref.row).toList) := by
  obtain ⟨hletters, hdigits⟩ := ref.split_text
  obtain ⟨c, cs, hcs, hall⟩ := digits_repr ref.row
  have hsome : ((Nat.repr ref.row).toList.all fun c => (d.digit c).isSome) = true :=
    List.all_eq_true.mpr fun x hx => by rw [d.ascii x (isDigit_of_mem_repr hx)]; rfl
  rw [fullMatch, hletters, hdigits]
  exact if_pos ⟨ref.named, by rw [hcs]; exact List.cons_ne_nil _ _, hsome⟩

theorem colon_not_mem_text (ref : CellRef) : ∀ c ∈ ref.text, (c == ':') = false := by
  intro c hc
  rw [beq_eq_false_iff_ne]
  rintro rfl
  rcases List.mem_append.mp hc with hletter | hdigit
  · exact absurd (ref.upper ':' hletter) (by decide)
  · exact absurd (isDigit_of_mem_repr hdigit) (by decide)

theorem mergedRange_text (first last : CellRef) : mergedRange d (first.text ++ ':' :: last.text) =
    some ⟨first.row - 1, columnIndex d first.text, last.row - 1, columnIndex d last.text⟩ := by
  have hsplit : (first.text ++ ':' :: last.text).splitOn ':' = [first.text, last.text] := by
    rw [List.splitOn, List.splitOnP_append_cons _ _ (by rfl),
      List.splitOnP_eq_singleton (colon_not_mem_text first),
      List.splitOnP_eq_singleton (colon_not_mem_text last)]
    rfl
  rw [mergedRange, hsplit]
  simp only [fullMatch_text, intOf_repr]

theorem covers_iff (first last : CellRef) {row column : Nat} (hrow : 1 ≤ row)
    (hcolumn : column < maxSheetColumns) :
    Span.Covers ⟨first.row - 1, columnIndex d first.text, last.row - 1, columnIndex d last.text⟩
      (row - 1) column ↔ Merged (first, last) row column := by
  have hfirst : columnIndex d first.text ≤ column ↔ first.column ≤ column := by
    by_cases hlt : first.column < maxSheetColumns
    · rw [first.columnIndex_of_lt d hlt]
    · have hbeyond := mt (first.columnIndex_lt_iff d).mp hlt
      omega
  have hlast : column ≤ columnIndex d last.text ↔ column ≤ last.column := by
    by_cases hlt : last.column < maxSheetColumns
    · rw [last.columnIndex_of_lt d hlt]
    · have hbeyond := mt (last.columnIndex_lt_iff d).mp hlt
      omega
  rw [Span.Covers, Merged]
  simp only [hfirst, hlast]
  omega

theorem merged_readSheet (sheet : Sheet) : ∀ span ∈ (readSheet d sheet.xml).2, ∃ merge ∈ sheet.merges,
    ∀ row column, 1 ≤ row → column < maxSheetColumns →
    (span.Covers (row - 1) column ↔ Merged merge row column) := by
  intro span hspan
  rw [readSheet] at hspan
  simp only at hspan
  split_ifs at hspan
  · cases hspan
  · obtain ⟨ref, href, hrange⟩ := List.mem_filterMap.mp (List.mem_filter.mp hspan).1
    obtain ⟨merge, hmerge, rfl⟩ := List.mem_map.mp href
    rw [mergedRange_text] at hrange
    obtain rfl := Option.some.inj hrange
    exact ⟨merge, hmerge, fun row column => covers_iff d merge.1 merge.2⟩

/-! ## The rows of a sheet -/

/-- Every cell is at its row and its column in the grid. -/
def Sheet.PutsCells (sheet : Sheet) : Prop :=
  ∀ row ∈ sheet.rows, ∀ cell ∈ row.cells, cell.1.column < maxSheetColumns →
    ∃ entry, (readSheet d sheet.xml).1[row.number - 1]? = some entry ∧ entry[cell.1.column]? =
    some cell.2

/-- What a sheet is read as agrees with the file: its cells, its merged ranges, and the row numbers of
the records of its table. -/
structure Sheet.ReadsRight (sheet : Sheet) : Prop where
  cells : sheet.PutsCells d
  merged : ∀ span ∈ (readSheet d sheet.xml).2, ∃ merge ∈ sheet.merges, ∀ row column, 1 ≤ row →
    column < maxSheetColumns → (span.Covers (row - 1) column ↔ Merged merge row column)
  records : ∀ isSpace finder source,
    let table := gridToTable isSpace finder source (readSheet d sheet.xml).1 (readSheet d sheet.xml).2
    ∀ record ∈ table.records, ∃ row ∈ sheet.rows, row.number = record.rowNumber ∧
      record.fields = rowFields isSpace table.headers (readRow d row.xml)

/-- No row is left out above a row that has a cell in the columns that are read, and no such row is
beyond those that are read. -/
def Sheet.NoneLeftOut (sheet : Sheet) : Prop :=
  ∀ (k : Nat) row, sheet.rows[k]? = some row → row.Filled → row.number = k + 1 ∧ k < maxRows + 21

variable {d} {sheet : Sheet}

theorem Sheet.le_number {k : Nat} {row : SheetRow} (h : sheet.rows[k]? = some row) : k + 1 ≤
    row.number := by
  induction k generalizing row with
  | zero => exact row.positive
  | succ k ih =>
    obtain ⟨hk, rfl⟩ := List.getElem?_eq_some_iff.mp h
    have hbefore := ih (List.getElem?_eq_getElem (by omega : k < sheet.rows.length))
    have hlt := List.pairwise_iff_getElem.mp sheet.increasing k (k + 1) (by omega) hk (by omega)
    omega

theorem Sheet.number_lt {j k : Nat} {first second : SheetRow} (hj : sheet.rows[j]? = some first)
    (hk : sheet.rows[k]? = some second) (hjk : j < k) : first.number + (k - j) ≤ second.number := by
  obtain ⟨n, rfl⟩ : ∃ n, k = j + 1 + n := ⟨k - (j + 1), by omega⟩
  induction n generalizing second with
  | zero =>
    rw [Nat.add_zero] at hk hjk ⊢
    obtain ⟨hlt, rfl⟩ := List.getElem?_eq_some_iff.mp hj
    obtain ⟨hlt', rfl⟩ := List.getElem?_eq_some_iff.mp hk
    have hnext := List.pairwise_iff_getElem.mp sheet.increasing j (j + 1) hlt hlt' hjk
    omega
  | succ n ih =>
    obtain ⟨hlt, rfl⟩ := List.getElem?_eq_some_iff.mp hk
    have hbefore := ih (List.getElem?_eq_getElem (by omega : j + 1 + n < sheet.rows.length)) (by omega)
    have hnext := List.pairwise_iff_getElem.mp sheet.increasing (j + 1 + n) (j + 1 + (n + 1))
      (by omega) hlt (by omega)
    omega

/-- Where a row is left out above a cell, the entry of its row is that of a later row, or
there is none. -/
theorem Sheet.noneLeftOut_of_putsCells (h : sheet.PutsCells d) : sheet.NoneLeftOut := by
  -- a filled row whose number is too high sends the reader to a later one, and so on to the end
  have hexact : ∀ n k row, sheet.rows.length ≤ k + n → sheet.rows[k]? = some row → row.Filled →
      row.number = k + 1 ∧ k < maxRows + 21 := by
    intro n
    induction n with
    | zero =>
      intro k row hn hrow
      have hlt := (List.getElem?_eq_some_iff.mp hrow).1
      omega
    | succ n ih =>
      intro k row hn hrow hfilled
      obtain ⟨cell, hcell, hcolumn⟩ := hfilled
      obtain ⟨entry, hentry, hvalue⟩ := h row (List.mem_of_getElem? hrow) cell hcell hcolumn
      rw [readSheet_grid, List.getElem?_map, Option.map_eq_some_iff] at hentry
      obtain ⟨later, hlater, rfl⟩ := hentry
      have hlimit := (List.getElem?_eq_some_iff.mp hlater).1
      rw [List.length_take] at hlimit
      have hle := sheet.le_number hrow
      rw [List.getElem?_take_of_lt (by omega)] at hlater
      by_cases hnumber : row.number = k + 1
      · exact ⟨hnumber, by omega⟩
      · have hlaterFilled : later.Filled := by
          refine (readRow_ne_nil_iff d).mp fun hnil => ?_
          rw [hnil] at hvalue
          cases hvalue
        have hexact := (ih (row.number - 1) later (by omega) hlater hlaterFilled).1
        have hfar := sheet.number_lt hrow hlater (by omega)
        omega
  exact fun k row => hexact sheet.rows.length k row (Nat.le_add_left _ _)

theorem Sheet.readsRight_of_noneLeftOut (h : sheet.NoneLeftOut) : sheet.ReadsRight d where
  cells := by
    intro row hmem cell hcell hcolumn
    obtain ⟨k, hk⟩ := List.mem_iff_getElem?.mp hmem
    obtain ⟨hnumber, hlimit⟩ := h k row hk ⟨cell, hcell, hcolumn⟩
    refine ⟨readRow d row.xml, ?_, getElem?_readRow d hcell hcolumn⟩
    rw [readSheet_grid, List.getElem?_map, hnumber, Nat.add_sub_cancel, List.getElem?_take_of_lt hlimit,
      hk]
    rfl
  merged := merged_readSheet d sheet
  records := by
    intro isSpace finder source table record hrecord
    cases hblock : finder.header (readSheet d sheet.xml).1 (readSheet d sheet.xml).2 with
    | none =>
      have htable : table = ⟨[], [], ["no_header_row_detected"], ""⟩ := by
        show gridToTable _ _ _ _ _ = _
        rw [gridToTable, hblock]
      rw [htable] at hrecord
      cases hrecord
    | some block =>
      have htable : table = blockTable isSpace finder source (readSheet d sheet.xml).1 block := by
        show gridToTable _ _ _ _ _ = _
        rw [gridToTable, hblock]
      rw [htable] at hrecord ⊢
      obtain ⟨i, entry, hentry, hnumber, hfields, hkept⟩ := (gridRecords_rows _ _ _).2 record hrecord
      rw [List.getElem?_drop, readSheet_grid, List.getElem?_map, Option.map_eq_some_iff] at hentry
      obtain ⟨row, hrow, rfl⟩ := hentry
      have hlimit := (List.getElem?_eq_some_iff.mp hrow).1
      rw [List.length_take] at hlimit
      rw [List.getElem?_take_of_lt (by omega)] at hrow
      have hfilled : row.Filled := by
        refine (readRow_ne_nil_iff d).mp fun hnil => ?_
        rw [hnil, skipped, List.take_nil, List.all_nil, Bool.or_true] at hkept
        cases hkept
      refine ⟨row, List.mem_of_getElem? hrow, ?_, hfields⟩
      have hexact := (h _ row hrow hfilled).1
      omega

end

/-- **The reader puts every cell where its reference says**, the merged ranges cover what they cover in
the file and the row numbers of the records are the sheet's, iff no row is left out above a row that has
a cell, and none of these is beyond the rows that are read. -/
theorem reads_right_iff (d : Decimals) (sheet : Sheet) : sheet.ReadsRight d ↔ sheet.NoneLeftOut :=
  ⟨fun h => Sheet.noneLeftOut_of_putsCells h.cells, Sheet.readsRight_of_noneLeftOut⟩

/-! ## A row that is left out -/

def asciiDecimals : Decimals where
  digit c := if c.isDigit then some (c.toNat - '0'.toNat) else none
  ascii _ h := if_pos h
  letters c hA hZ := by
    refine if_neg fun hdigit => ?_
    have hletter : isColumnLetter c = true := by
      rw [isColumnLetter, decide_eq_true hA, decide_eq_true hZ]
      rfl
    rw [not_isColumnLetter_of_isDigit hdigit] at hletter
    cases hletter

/-- One cell, B2: the first row is empty and left out. -/
def sheetFromSecondRow : Sheet where
  rows :=
    [⟨2, [(⟨['B'], 2, by decide, List.all_eq_true.mp (by decide), by decide⟩, .text "USN")], by simp,
      by simp, by decide⟩]
  merges := []
  increasing := List.pairwise_singleton _ _

/-- B2 is read as the cell of the first row. -/
theorem row_left_out : ¬sheetFromSecondRow.ReadsRight asciiDecimals ∧
    (readSheet asciiDecimals sheetFromSecondRow.xml).1 = [[.text "", .text "USN"]] := by
  refine ⟨fun h => ?_, by decide⟩
  have hfilled : (sheetFromSecondRow.rows.head (List.cons_ne_nil _ _)).Filled :=
    ⟨_, List.mem_cons_self, by decide⟩
  have hnumber := (Sheet.noneLeftOut_of_putsCells h.cells 0 _ rfl hfilled).1
  cases hnumber

end GuruJi.Ingestion
