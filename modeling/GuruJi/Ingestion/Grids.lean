import GuruJi.Agents.Bindings
import GuruJi.Lib.Repeats
import GuruJi.Lib.Words

/-!
# Grids

A grid with a header becomes a table: the columns get names, and each row below the header is a record
with a field for each of its columns. Rows of JSON objects become a table the same way.

* `dedupeHeaders_nodup_iff`: the names are distinct iff no header is the name that a repeat of another
  gets;
* `keepsCells`, `keepsKeys`: where they are distinct, every cell and every key is kept;
* **`columns_distinct_iff`**: the three together;
* `columns_collide`: "Marks (2)" beside "Marks" twice.
-/

namespace GuruJi.Ingestion

open GuruJi.Lib
open GuruJi.Agents (Json Dict)

/-- `MAX_ROWS`. -/
def maxRows : Nat := 100000

/-- `MAX_COLUMNS`. -/
def maxColumns : Nat := 200

/-- A cell: nothing, a text, or another value with what `str` gives of it, of a whole float as of the
integer. -/
inductive Cell where
  | none
  | text (s : String)
  | other (shown : String)
  deriving DecidableEq

def Cell.shown : Cell → String
  | .none => ""
  | .text s => s
  | .other shown => shown

def Cell.stored (isSpace : Char → Bool) : Cell → Cell
  | .text s => .text (strip isSpace s)
  | cell => cell

section
variable (isSpace : Char → Bool)

/-- `_clean_header`. -/
def cleanHeader (cell : Cell) : String :=
  let spaced := cell.shown.toList.map fun c => if c = '\n' then ' ' else c
  let text := String.intercalate " " ((words isSpace spaced).map String.ofList)
  strip isSpace (strip (· = ':') (strip isSpace text))

/-! ## The names of columns -/

/-- The name of the `k`-th of several columns with one name. -/
def repeatName (name : String) (k : Nat) : String := name ++ " (" ++ Nat.repr k ++ ")"

/-- The name of a column on its own, at its position from one. -/
def columnName (header : Cell × Nat) : String :=
  if cleanHeader isSpace header.1 = "" then "column_" ++ Nat.repr (header.2 + 1) else
    cleanHeader isSpace header.1

/-- The names of the columns before repeats are told apart. -/
def columnNames (headers : List Cell) : List String := headers.zipIdx.map (columnName isSpace)

/-- `dedupe_headers`. -/
def dedupeHeaders (headers : List Cell) : List String :=
    number repeatName [] (columnNames isSpace headers)

/-- No column has the name that a repeat of another gets. -/
def NoClash (headers : List Cell) : Prop :=
  ∀ name k, Repeated (columnNames isSpace headers) name k →
      repeatName name k ∉ columnNames isSpace headers

omit isSpace in
theorem repr_injective {m n : Nat} (h : Nat.repr m = Nat.repr n) : m = n := by
  have hdigits : Nat.toDigits 10 m = Nat.toDigits 10 n := by
    have hlist := congrArg String.toList h
    rwa [Nat.repr, Nat.repr, String.toList_ofList, String.toList_ofList] at hlist
  have hvalue := congrArg (fun ds => Nat.ofDigitChars 10 ds 0) hdigits
  simpa using hvalue

omit isSpace in
theorem isDigit_of_mem_repr {n : Nat} {c : Char} (h : c ∈ (Nat.repr n).toList) : c.isDigit = true := by
  rw [Nat.repr, String.toList_ofList] at h
  exact Nat.isDigit_of_mem_toDigits (by omega) (by omega) h

omit isSpace in
theorem repeatName_injective (a : String) (k : Nat) (b : String) (j : Nat)
    (h : repeatName a k = repeatName b j) : a = b ∧ k = j := by
  have hlist := congrArg String.toList h
  simp only [repeatName, String.toList_append] at hlist
  have hsplit : ∀ (name : String) (n : Nat),
      ((name.toList ++ " (".toList) ++ (Nat.repr n).toList).rtakeWhile (· ≠ '(') = (Nat.repr n).toList ∧
        ((name.toList ++ " (".toList) ++ (Nat.repr n).toList).rdropWhile
        (· ≠ '(') = name.toList ++ " (".toList := by
    intro name n
    refine rtakeWhile_append_of_pos ?_ fun c hc => ?_
    · show (name.toList ++ [' ', '(']).rtakeWhile _ = []
      rw [show name.toList ++ [' ', '('] = (name.toList ++ [' ']) ++ ['('] by simp]
      exact List.rtakeWhile_concat_neg _ _ _ (by decide)
    · have hdigit := isDigit_of_mem_repr hc
      rw [decide_eq_true_eq]
      rintro rfl
      cases hdigit
  have hinit := List.append_cancel_right hlist
  have hdigits := (hsplit a k).1.symm.trans ((congrArg _ hinit).trans (hsplit b j).1)
  have hname := (hsplit a k).2.symm.trans ((congrArg _ hinit).trans (hsplit b j).2)
  exact ⟨String.toList_inj.mp (List.append_cancel_right hname),
    repr_injective (String.toList_inj.mp hdigits)⟩

/-- **The names are distinct** iff no header is the name that a repeat of another gets. -/
theorem dedupeHeaders_nodup_iff (headers : List Cell) :
    (dedupeHeaders isSpace headers).Nodup ↔ NoClash isSpace headers :=
  nodup_number_iff repeatName_injective

theorem length_dedupeHeaders (headers : List Cell) : (dedupeHeaders isSpace headers).length =
    headers.length := by
  rw [dedupeHeaders, length_number, columnNames, List.length_map, List.length_zipIdx]

end

/-! ## A grid -/

/-- `IntermediateRecord`, without what its file says of all its records. -/
structure IntermediateRecord (V : Type*) where
  locator : String
  rowNumber : Nat
  fields : Table String V

/-- `ParsedTable`. -/
structure ParsedTable (V : Type*) where
  headers : List String
  records : List (IntermediateRecord V)
  warnings : List String
  title : String

/-- The rows of a header, from zero, with a cell for each of its columns. -/
structure HeaderBlock where
  first : Nat
  last : Nat
  cells : List Cell
  width : cells.length ≤ maxColumns

/-- A merged range, from zero. -/
structure Span where
  firstRow : Int
  firstCol : Nat
  lastRow : Int
  lastCol : Nat
  deriving DecidableEq

/-- What finds the header of a grid, by its rows and its merged ranges, and the columns that a row of
notes under it leaves blank. -/
structure HeaderFinder where
  header : List (List Cell) → List Span → Option HeaderBlock
  annotationColumns : List (List Cell) → HeaderBlock → Nat → Option (List Nat)

/-- Where the records of a table come from. -/
structure GridSource where
  sheet : Option String
  page : Option Nat
  locatorPrefix : Option String

/-- `prefix`: the first of them that is not empty. -/
def GridSource.prefixText (source : GridSource) : String :=
  match source.locatorPrefix.filter (· ≠ ""), source.sheet.filter (· ≠ ""),
    source.page.filter (· ≠ 0) with
  | some text, _, _ => text
  | none, some sheet, _ => "sheet=" ++ sheet
  | none, none, some page => "page=" ++ Nat.repr page
  | none, none, none => "table"

section
variable (isSpace : Char → Bool)

def blankCell (cell : Cell) : Bool := cleanHeader isSpace cell = ""

/-- The columns of a row up to its last filled cell, within the limit. -/
def filledWidth (row : List Cell) : Nat :=
  (row.take maxColumns).zipIdx.foldl (fun w e => if blankCell isSpace e.1 then w else max w (e.2 + 1)) 0

/-- `width`, after a row. -/
def widen (width : Nat) (row : List Cell) : Nat :=
  if width < row.length then max width (filledWidth isSpace row) else width

/-- `width`. -/
def gridWidth (rows : List (List Cell)) (block : HeaderBlock) : Nat :=
  ((rows.drop (block.last + 1)).take maxRows).foldl (widen isSpace) block.cells.length

/-- The header cells, and blank ones for the columns beside them that hold data. -/
def headerCells (rows : List (List Cell)) (block : HeaderBlock) : List Cell :=
  block.cells ++ List.replicate (min (gridWidth isSpace rows block) maxColumns - block.cells.length)
      (.text "")

def rowFields (headers : List String) (row : List Cell) : Table String Cell :=
  (headers.zip ((row.take headers.length).map (Cell.stored isSpace))).foldl (fun t e => t.assign e.1 e.2)
      []

def skipped (headers : List String) (annotated : Option Nat) (offset : Nat) (row : List Cell) : Bool :=
  some offset = annotated || (row.take headers.length).all (blankCell isSpace)

/-- The loop over the rows below the header: `room` is the number of records that still fit. -/
def gridRecords (source : GridSource) (headers : List String) (annotated : Option Nat) :
    Nat → Nat → List (List Cell) → List (IntermediateRecord Cell) × Bool
  | _, _, [] => ([], false)
  | room, offset, row :: rows =>
    if skipped isSpace headers annotated offset row then
      gridRecords source headers annotated room (offset + 1) rows
    else
      let record := ⟨source.prefixText ++ ";row=" ++ Nat.repr offset, offset,
        rowFields isSpace headers row⟩
      if room ≤ 1 then ([record], true)
      else
        let rest := gridRecords source headers annotated (room - 1) (offset + 1) rows
        (record :: rest.1, rest.2)

/-- The row of notes under the header, counted from one. -/
def annotationRow (finder : HeaderFinder) (rows : List (List Cell)) (block : HeaderBlock)
    (headers : List String) : Option (Nat × List Nat) :=
  if block.last + 1 < rows.length then
    ((finder.annotationColumns rows block headers.length).filter (· ≠ [])).map fun columns =>
        (block.last + 2, columns)
  else none

def gridTitle (rows : List (List Cell)) (block : HeaderBlock) : String :=
  upTo 200 (String.intercalate " " ((rows.take block.first).flatMap fun row =>
    ((row.take maxColumns).map (cleanHeader isSpace)).filter (· ≠ "")))

def blockTable (finder : HeaderFinder) (source : GridSource) (rows : List (List Cell))
    (block : HeaderBlock) : ParsedTable Cell :=
  let headers := dedupeHeaders isSpace (headerCells isSpace rows block)
  let annotated := annotationRow finder rows block headers
  let records := gridRecords isSpace source headers (annotated.map Prod.fst) maxRows (block.last + 2)
    (rows.drop (block.last + 1))
  { headers
    records := records.1
    warnings :=
      (if 0 < block.first then ["skipped_" ++ Nat.repr block.first ++ "_leading_rows"] else []) ++
      (if block.first < block.last then
        ["headers_combined_from_rows_" ++ Nat.repr (block.first + 1) ++ "_and_" ++
            Nat.repr (block.last + 1)] else []) ++
      (match annotated with
        | some (row, columns) => ["skipped_row_" ++ Nat.repr row ++ "_as_annotation:blank " ++
            String.intercalate ", " (columns.filterMap (headers[·]?)) ++
            "; only short labels over number columns"]
        | none => []) ++
      (if records.2 then ["row_limit_reached"] else [])
    title := gridTitle isSpace rows block }

/-- `grid_to_table`. -/
def gridToTable (finder : HeaderFinder) (source : GridSource) (rows : List (List Cell))
    (merged : List Span) : ParsedTable Cell :=
  match finder.header rows merged with
  | none => ⟨[], [], ["no_header_row_detected"], ""⟩
  | some block => blockTable isSpace finder source rows block

/-! ## The width of a grid -/

variable {isSpace}

theorem le_filled (l : List (Cell × Nat)) (w : Nat) :
    w ≤ l.foldl (fun w e => if blankCell isSpace e.1 then w else max w (e.2 + 1)) w ∧
      ∀ e ∈ l, blankCell isSpace e.1 = false →
        e.2 < l.foldl (fun w e => if blankCell isSpace e.1 then w else max w (e.2 + 1)) w := by
  induction l generalizing w with
  | nil => exact ⟨le_rfl, nofun⟩
  | cons d l ih =>
    obtain ⟨hle, hlt⟩ := ih (if blankCell isSpace d.1 then w else max w (d.2 + 1))
    rw [List.foldl_cons]
    refine ⟨le_trans ?_ hle, fun e he hfilled => ?_⟩
    · split_ifs
      · exact le_rfl
      · exact le_max_left _ _
    · rcases List.mem_cons.mp he with rfl | he
      · rw [if_neg (by simp [hfilled])] at hle ⊢
        exact lt_of_lt_of_le (Nat.lt_of_succ_le (le_max_right w (e.2 + 1))) hle
      · exact hlt e he hfilled

theorem lt_filledWidth {row : List Cell} {c : Nat} {cell : Cell} (hc : c < maxColumns)
    (hcell : row[c]? = some cell)
    (hfilled : blankCell isSpace cell = false) : c < filledWidth isSpace row := by
  refine (le_filled ((row.take maxColumns).zipIdx) 0).2 (cell, c) ?_ hfilled
  rw [List.mk_mem_zipIdx_iff_getElem?, List.getElem?_take_of_lt hc]
  exact hcell

theorem le_widened (rows : List (List Cell)) (width : Nat) :
    width ≤ rows.foldl (widen isSpace) width ∧ ∀ row ∈ rows, ∀ c < maxColumns, ∀ cell,
      row[c]? = some cell → blankCell isSpace cell = false → c < rows.foldl (widen isSpace) width := by
  induction rows generalizing width with
  | nil => exact ⟨le_rfl, nofun⟩
  | cons first rows ih =>
    obtain ⟨hle, hlt⟩ := ih (widen isSpace width first)
    have hgrows : width ≤ widen isSpace width first := by
      rw [widen]
      split_ifs
      · exact le_max_left _ _
      · exact le_rfl
    refine ⟨hgrows.trans hle, fun row hrow c hc cell hcell hfilled => ?_⟩
    rcases List.mem_cons.mp hrow with rfl | hrow
    · refine lt_of_lt_of_le ?_ hle
      rw [widen]
      split_ifs with hwide
      · exact lt_of_lt_of_le (lt_filledWidth hc hcell hfilled) (le_max_right _ _)
      · have hin : c < row.length := (List.getElem?_eq_some_iff.mp hcell).1
        omega
    · exact hlt row hrow c hc cell hcell hfilled

theorem length_headerCells (rows : List (List Cell)) (block : HeaderBlock) :
    (headerCells isSpace rows block).length = min (gridWidth isSpace rows block) maxColumns := by
  have hle : block.cells.length ≤ gridWidth isSpace rows block := (le_widened _ _).1
  have hwidth := block.width
  rw [headerCells, List.length_append, List.length_replicate]
  omega

theorem lt_length_headerCells {rows : List (List Cell)} {block : HeaderBlock} {i c : Nat}
    {row : List Cell} {cell : Cell}
    (hi : i < maxRows) (hrow : rows[block.last + 1 + i]? = some row) (hc : c < maxColumns)
    (hcell : row[c]? = some cell) (hfilled : blankCell isSpace cell = false) :
    c < (headerCells isSpace rows block).length := by
  have hmem : row ∈ (rows.drop (block.last + 1)).take maxRows := by
    refine List.mem_of_getElem? (i := i) ?_
    rw [List.getElem?_take_of_lt hi, List.getElem?_drop]
    exact hrow
  have hwidth : c < gridWidth isSpace rows block := (le_widened _ _).2 row hmem c hc cell hcell hfilled
  rw [length_headerCells]
  exact lt_min hwidth hc

/-! ## The records of a grid -/

variable {source : GridSource} {headers : List String} {annotated : Option Nat}

theorem map_fst_zip_sublist {α β : Type*} (l : List α) (l' : List β) :
    ((l.zip l').map Prod.fst).Sublist l := by
  induction l generalizing l' with
  | nil => exact List.nil_sublist _
  | cons a l ih =>
    rcases l' with _ | ⟨b, l'⟩
    · exact List.nil_sublist _
    · exact (ih l').cons_cons a

theorem get_rowFields (hnodup : headers.Nodup) {row : List Cell} {c : Nat} {header : String}
    {cell : Cell}
    (hheader : headers[c]? = some header) (hcell : row[c]? = some cell) :
    (rowFields isSpace headers row).get header = some (cell.stored isSpace) := by
  have hkeys : ((headers.zip ((row.take headers.length).map (Cell.stored isSpace))).map
    Prod.fst).Nodup :=
    hnodup.sublist (map_fst_zip_sublist _ _)
  refine (Table.get_foldl_assign [] hkeys header).1 _ (List.mem_of_getElem? (i := c) ?_)
  have hc : c < headers.length := (List.getElem?_eq_some_iff.mp hheader).1
  rw [List.getElem?_zip_eq_some, List.getElem?_map, List.getElem?_take_of_lt hc, hcell]
  exact ⟨hheader, rfl⟩

theorem gridRecords_rows (room offset : Nat) (rows : List (List Cell)) :
    ((gridRecords isSpace source headers annotated room offset rows).1.map (·.rowNumber)).Pairwise
      (· < ·) ∧ ∀ record ∈ (gridRecords isSpace source headers annotated room offset rows).1, ∃ i row,
        rows[i]? = some row ∧ record.rowNumber = offset + i ∧ record.fields =
          rowFields isSpace headers row ∧
          skipped isSpace headers annotated (offset + i) row = false := by
  induction rows generalizing room offset with
  | nil => exact ⟨List.Pairwise.nil, nofun⟩
  | cons row rows ih =>
    rw [gridRecords]
    split_ifs with hskipped hroom
    · obtain ⟨hpairwise, horigin⟩ := ih room (offset + 1)
      refine ⟨hpairwise, fun record hrecord => ?_⟩
      obtain ⟨i, row', hrow, hnumber, hfields, hkept⟩ := horigin record hrecord
      refine ⟨i + 1, row', hrow, by omega, hfields, ?_⟩
      rwa [← Nat.add_assoc, Nat.add_right_comm]
    · refine ⟨List.pairwise_singleton _ _, fun record hrecord => ?_⟩
      rw [List.mem_singleton.mp hrecord]
      exact ⟨0, row, rfl, rfl, rfl, by simpa using hskipped⟩
    · obtain ⟨hpairwise, horigin⟩ := ih (room - 1) (offset + 1)
      refine ⟨List.pairwise_cons.mpr ⟨fun number hnumber => ?_, hpairwise⟩, fun record hrecord => ?_⟩
      · obtain ⟨record, hrecord, rfl⟩ := List.mem_map.mp hnumber
        obtain ⟨i, -, -, hnumber, -⟩ := horigin record hrecord
        show offset < record.rowNumber
        omega
      · rcases List.mem_cons.mp hrecord with rfl | hrecord
        · exact ⟨0, row, rfl, rfl, rfl, by simpa using hskipped⟩
        · obtain ⟨i, row', hrow, hnumber, hfields, hkept⟩ := horigin record hrecord
          refine ⟨i + 1, row', hrow, by omega, hfields, ?_⟩
          rwa [← Nat.add_assoc, Nat.add_right_comm]

theorem exists_record {room offset i : Nat} {rows : List (List Cell)} {row : List Cell} (hi : i < room)
    (hrow : rows[i]? = some row) (hkept : skipped isSpace headers annotated (offset + i) row = false) :
    ∃ record ∈ (gridRecords isSpace source headers annotated room offset rows).1,
      record.rowNumber = offset + i ∧ record.fields = rowFields isSpace headers row := by
  induction rows generalizing room offset i with
  | nil => cases hrow
  | cons first rows ih =>
    rw [gridRecords]
    rcases i with _ | i
    · obtain rfl := Option.some.inj hrow
      rw [if_neg (by simpa using hkept)]
      split_ifs
      · exact ⟨_, List.mem_cons_self, rfl, rfl⟩
      · exact ⟨_, List.mem_cons_self, rfl, rfl⟩
    · have hlater : skipped isSpace headers annotated (offset + 1 + i) row = false := by
        rwa [← Nat.add_assoc, Nat.add_right_comm] at hkept
      split_ifs with hskipped hroom
      · obtain ⟨record, hrecord, hnumber, hfields⟩ := @ih room (offset + 1) i (by omega) hrow hlater
        exact ⟨record, hrecord, by omega, hfields⟩
      · omega
      · obtain ⟨record, hrecord, hnumber, hfields⟩ :=
          @ih (room - 1) (offset + 1) i (by omega) hrow hlater
        exact ⟨record, List.mem_cons_of_mem _ hrecord, by omega, hfields⟩

/-- Under distinct names, a filled cell is in its field of the one record of its row. -/
theorem gridRecords_keeps (hnodup : headers.Nodup) {room offset i c : Nat} {rows : List (List Cell)}
    {row : List Cell}
    {cell : Cell} (hi : i < room) (hrow : rows[i]? = some row) (hnotes : annotated ≠ some (offset + i))
    (hc : c < headers.length) (hcell : row[c]? = some cell) (hfilled : blankCell isSpace cell = false) :
    ∃ record ∈ (gridRecords isSpace source headers annotated room offset rows).1, record.rowNumber =
      offset + i ∧ (∀ other ∈ (gridRecords isSpace source headers annotated room offset rows).1,
        other.rowNumber = record.rowNumber → other = record) ∧
        ∃ header, headers[c]? = some header ∧ record.fields.get header = some (cell.stored isSpace) := by
  have hkept : skipped isSpace headers annotated (offset + i) row = false := by
    rw [skipped, Bool.or_eq_false_iff, decide_eq_false_iff_not, List.all_eq_false]
    refine ⟨fun heq => hnotes heq.symm, cell, ?_, by simp [hfilled]⟩
    refine List.mem_of_getElem? (i := c) ?_
    rw [List.getElem?_take_of_lt hc]
    exact hcell
  obtain ⟨record, hrecord, hnumber, hfields⟩ := @exists_record isSpace source _ _ _ _ _ _ _ hi hrow hkept
  refine ⟨record, hrecord, hnumber, fun other hother hsame => ?_, _, List.getElem?_eq_getElem hc, ?_⟩
  · have hdistinct := (@gridRecords_rows isSpace source headers annotated room offset rows).1.imp
      fun h => Nat.ne_of_lt h
    exact List.inj_on_of_nodup_map hdistinct hother hrecord hsame
  · rw [hfields]
    exact get_rowFields hnodup (List.getElem?_eq_getElem hc) hcell

theorem rowNumbers_gridRecords (room offset : Nat) (rows : List (List Cell)) :
    (gridRecords isSpace source headers annotated room offset rows).1.map (·.rowNumber) =
      (((rows.zipIdx offset).filter fun row => !skipped isSpace headers annotated row.2 row.1).take
        (max 1 room)).map Prod.snd := by
  induction rows generalizing room offset with
  | nil => simp [gridRecords]
  | cons row rows ih =>
    rw [gridRecords, List.zipIdx_cons]
    split_ifs with hskipped hroom
    · rw [ih, List.filter_cons_of_neg (by simp [hskipped])]
    · rw [List.filter_cons_of_pos (by simpa using hskipped), max_eq_left hroom]
      rfl
    · obtain ⟨more, rfl⟩ : ∃ more, room = more + 2 := ⟨room - 2, by omega⟩
      rw [List.filter_cons_of_pos (by simpa using hskipped), max_eq_right (by omega),
        List.take_succ_cons, List.map_cons, List.map_cons, ih, max_eq_right (by omega)]
      rfl

theorem get_rowFields_none (hnodup : headers.Nodup) {row : List Cell} {c : Nat} {header : String}
    (hheader : headers[c]? = some header) (hcell : row[c]? = none) :
    (rowFields isSpace headers row).get header = none := by
  have hkeys : ((headers.zip ((row.take headers.length).map (Cell.stored isSpace))).map
      Prod.fst).Nodup := hnodup.sublist (map_fst_zip_sublist _ _)
  refine ((Table.get_foldl_assign [] hkeys header).2 fun cell hmem => ?_).trans rfl
  obtain ⟨i, hi⟩ := List.mem_iff_getElem?.mp hmem
  rw [List.getElem?_zip_eq_some, List.getElem?_map] at hi
  obtain ⟨hc, rfl⟩ := List.getElem?_eq_some_iff.mp hheader
  obtain ⟨hi', heq⟩ := List.getElem?_eq_some_iff.mp hi.1
  obtain rfl := (List.Nodup.getElem_inj_iff hnodup).mp heq
  rw [List.getElem?_take_of_lt hc, hcell] at hi
  exact absurd hi.2 (by simp)

/-! ## Every cell is kept -/

variable (isSpace)

/-- Every filled cell below the header, within the limits and not in a row that is reported as notes, is
in the field of its column in the one record of its row; the columns have different names, and the
records the order of the rows. -/
def KeepsCells (finder : HeaderFinder) (source : GridSource) (rows : List (List Cell))
    (merged : List Span) : Prop :=
  ∀ block ∈ finder.header rows merged,
    let table := gridToTable isSpace finder source rows merged
    table.headers.Nodup ∧ (table.records.map (·.rowNumber)).Pairwise (· < ·) ∧
      ∀ i < maxRows, ∀ row, rows[block.last + 1 + i]? = some row →
        (annotationRow finder rows block table.headers).map Prod.fst ≠ some (block.last + 2 + i) →
          ∀ c < maxColumns, ∀ cell, row[c]? = some cell → blankCell isSpace cell = false →
            ∃ record ∈ table.records, record.rowNumber = block.last + 2 + i ∧
              (∀ other ∈ table.records, other.rowNumber = record.rowNumber → other = record) ∧
                ∃ header, table.headers[c]? = some header ∧ record.fields.get header =
                some (cell.stored isSpace)

/-- No column of a grid has the name that a repeat of another gets. -/
def GridNoClash (finder : HeaderFinder) (rows : List (List Cell)) (merged : List Span) : Prop :=
  ∀ block ∈ finder.header rows merged, NoClash isSpace (headerCells isSpace rows block)

variable {isSpace}

/-- **A grid keeps its cells** iff no column has the name that a repeat of another gets. -/
theorem keepsCells_iff (finder : HeaderFinder) (rows : List (List Cell)) (merged : List Span) :
    KeepsCells isSpace finder source rows merged ↔ GridNoClash isSpace finder rows merged := by
  refine forall₂_congr fun block hblock => ?_
  have htable : gridToTable isSpace finder source rows merged =
    blockTable isSpace finder source rows block := by
    rw [gridToTable, hblock]
  rw [htable, ← dedupeHeaders_nodup_iff]
  refine ⟨fun h => h.1, fun hnodup => ⟨hnodup, (gridRecords_rows _ _ _).1, ?_⟩⟩
  intro i hi row hrow hannotated c hc cell hcell hfilled
  have hin : c < (dedupeHeaders isSpace (headerCells isSpace rows block)).length := by
    rw [length_dedupeHeaders]
    exact lt_length_headerCells hi hrow hc hcell hfilled
  have hbelow : (rows.drop (block.last + 1))[i]? = some row := List.getElem?_drop.trans hrow
  exact gridRecords_keeps hnodup hi hbelow hannotated hin hcell hfilled

end

/-! ## Rows of JSON -/

/-- A dictionary: of a key that comes twice the last value, in the place of the first. -/
def dictOf (fields : Dict) : Dict := fields.foldl (fun t e => t.assign e.1 e.2) []

def objectOf : Json → Option Dict
  | .object fields => some (dictOf fields)
  | _ => none

def isObjectList : Json → Bool
  | .array items => !items.isEmpty && (items.take 10).all fun item => (objectOf item).isSome
  | _ => false

/-- `_rows`. -/
def jsonRows : Json → List Dict
  | .array items => items.filterMap objectOf
  | .object fields => match ((dictOf fields).map Prod.snd).find? isObjectList with
    | some (.array items) => items.filterMap objectOf
    | _ => [dictOf fields]
  | _ => []

/-- `ParserError`, with its message. -/
structure ParserError where
  message : String
  deriving DecidableEq

def addKey (keys : List String) (key : String) : Except ParserError (List String) :=
  if key ∈ keys then .ok keys
  else if maxColumns < keys.length + 1 then
    .error ⟨"JSON rows use more than " ++ Nat.repr maxColumns ++
        " distinct keys; export a flat table instead"⟩
  else .ok (keys ++ [key])

/-- `raw_keys`. -/
def rawKeys (rows : List Dict) : Except ParserError (List String) :=
  (rows.flatMap fun row => row.map Prod.fst).foldlM addKey []

/-- What `parse_json` returns. -/
structure JsonResult where
  tables : List (ParsedTable Json)
  warnings : List String

section
variable (isSpace : Char → Bool)

/-- `rename[key]`. -/
def rename (keys : List String) (key : String) : String :=
  (Table.get (keys.zip (dedupeHeaders isSpace (keys.map .text))) key).getD ""

def jsonRecord (keys : List String) (row : Dict × Nat) : IntermediateRecord Json where
  locator := "json;index=" ++ Nat.repr (row.2 + 1)
  rowNumber := row.2 + 1
  fields := dictOf (row.1.map fun e => (rename isSpace keys e.1, e.2))

def jsonTable (keys : List String) (rows : List Dict) : ParsedTable Json where
  headers := dedupeHeaders isSpace (keys.map .text)
  records := rows.zipIdx.map (jsonRecord isSpace keys)
  warnings := []
  title := ""

/-- `parse_json`, of the text that has been decoded. -/
def parseJson (payload : Json) : Except ParserError JsonResult :=
  let rows := (jsonRows payload).take maxRows
  if rows.isEmpty then .ok ⟨[], ["no_object_rows_found"]⟩
  else (rawKeys rows).map fun keys => ⟨[jsonTable isSpace keys rows], []⟩

/-- Every key of every row is kept with its value, under a header of the table that is its own. -/
def KeepsKeys (payload : Json) : Prop :=
  ∀ result, parseJson isSpace payload = .ok result → ∀ table ∈ result.tables, table.headers.Nodup ∧
    ∃ header : String → String, ∀ i row, ((jsonRows payload).take maxRows)[i]? = some row →
      (row.map fun e => header e.1).Nodup ∧ ∃ record, table.records[i]? = some record ∧
        record.rowNumber = i + 1 ∧ ∀ key value, row.get key = some value →
          header key ∈ table.headers ∧ record.fields.get (header key) = some value

/-- No key of the rows is the name that a repeat of another gets. -/
def KeysNoClash (payload : Json) : Prop :=
  ∀ keys, rawKeys ((jsonRows payload).take maxRows) = .ok keys → NoClash isSpace (keys.map .text)

variable {isSpace} {keys : List String}

theorem nodup_dictOf (fields : Dict) : ((dictOf fields).map Prod.fst).Nodup := by
  have hfold : ∀ (l : Dict) (t : Dict), (t.map Prod.fst).Nodup →
      ((l.foldl (fun t e => Table.assign t e.1 e.2) t).map Prod.fst).Nodup := by
    intro l
    induction l with
    | nil => exact fun t ht => ht
    | cons e l ih => exact fun t ht => ih _ (Table.nodup_keys_assign ht e.1 e.2)
  exact hfold fields [] List.nodup_nil

theorem get_dictOf {fields : Dict} (h : (fields.map Prod.fst).Nodup) {key : String} {value : Json}
    (hmem : (key, value) ∈ fields) : (dictOf fields).get key = some value :=
  (Table.get_foldl_assign [] h key).1 value hmem

theorem nodup_jsonRows {payload : Json} {row : Dict} (h : row ∈ jsonRows payload) :
    (row.map Prod.fst).Nodup := by
  have hobjects : ∀ items : List Json, row ∈ items.filterMap objectOf → (row.map Prod.fst).Nodup := by
    intro items hrow
    obtain ⟨item, -, hitem⟩ := List.mem_filterMap.mp hrow
    cases item with
    | object fields =>
      rw [← Option.some.inj hitem]
      exact nodup_dictOf fields
    | null | bool | number | string | array => cases hitem
  unfold jsonRows at h
  split at h
  · exact hobjects _ h
  · split at h
    · exact hobjects _ h
    · rw [List.mem_singleton.mp h]
      exact nodup_dictOf _
  · cases h

theorem rawKeys_ok {l acc : List String} (h : l.foldlM addKey acc = .ok keys) (hacc : acc.Nodup) :
    keys.Nodup ∧ acc ⊆ keys ∧ l ⊆ keys := by
  induction l generalizing acc with
  | nil =>
    obtain rfl := Except.ok.inj h
    exact ⟨hacc, List.Subset.refl _, List.nil_subset _⟩
  | cons key l ih =>
    rw [List.foldlM_cons] at h
    by_cases hmem : key ∈ acc
    · rw [addKey, if_pos hmem] at h
      obtain ⟨hnodup, hsub, hrest⟩ := ih h hacc
      exact ⟨hnodup, hsub, List.cons_subset.mpr ⟨hsub hmem, hrest⟩⟩
    · rw [addKey, if_neg hmem] at h
      split_ifs at h
      · cases h
      · have hnew : (acc ++ [key]).Nodup := by
          rw [List.nodup_append_comm]
          exact List.nodup_cons.mpr ⟨hmem, hacc⟩
        obtain ⟨hnodup, hsub, hrest⟩ := ih h hnew
        refine ⟨hnodup, fun x hx => hsub (List.mem_append_left _ hx), List.cons_subset.mpr ⟨?_, hrest⟩⟩
        exact hsub (List.mem_append_right _ List.mem_cons_self)

theorem rename_spec (hkeys : keys.Nodup) {key : String} (hkey : key ∈ keys) : ∃ c : Nat,
    keys[c]? = some key ∧
    (dedupeHeaders isSpace (keys.map .text))[c]? = some (rename isSpace keys key) := by
  obtain ⟨c, hc⟩ := List.mem_iff_getElem?.mp hkey
  have hlength : c < (dedupeHeaders isSpace (keys.map .text)).length := by
    rw [length_dedupeHeaders, List.length_map]
    exact (List.getElem?_eq_some_iff.mp hc).1
  have hnodup : ((keys.zip (dedupeHeaders isSpace (keys.map .text))).map Prod.fst).Nodup :=
    hkeys.sublist (map_fst_zip_sublist _ _)
  have hget := Table.get_of_mem hnodup (List.mem_of_getElem? (i := c)
    (List.getElem?_zip_eq_some.mpr ⟨hc, List.getElem?_eq_getElem hlength⟩))
  refine ⟨c, hc, ?_⟩
  rw [rename, hget]
  exact List.getElem?_eq_getElem hlength

theorem rename_inj (hkeys : keys.Nodup) (hheaders : (dedupeHeaders isSpace (keys.map .text)).Nodup)
    {a b : String}
    (ha : a ∈ keys) (hb : b ∈ keys) (h : rename isSpace keys a = rename isSpace keys b) : a = b := by
  obtain ⟨c, hc, hrename⟩ := @rename_spec isSpace _ hkeys _ ha
  obtain ⟨d, hd, hrename'⟩ := @rename_spec isSpace _ hkeys _ hb
  rw [← h] at hrename'
  have hlt := (List.getElem?_eq_some_iff.mp hrename).1
  obtain rfl := (List.getElem?_inj hlt hheaders).mp (hrename.trans hrename'.symm)
  exact Option.some.inj (hc.symm.trans hd)

/-- **JSON rows keep their keys** iff no key is the name that a repeat of another gets. -/
theorem keepsKeys_iff (payload : Json) : KeepsKeys isSpace payload ↔ KeysNoClash isSpace payload := by
  have hnodup : ∀ row ∈ (jsonRows payload).take maxRows, (row.map Prod.fst).Nodup := fun row hrow =>
    nodup_jsonRows (List.mem_of_mem_take hrow)
  unfold KeepsKeys KeysNoClash parseJson
  generalize (jsonRows payload).take maxRows = rows at hnodup ⊢
  by_cases hempty : rows = []
  · subst hempty
    refine iff_of_true (fun result hresult => ?_) fun keys hkeys => ?_
    · rw [← Except.ok.inj hresult]
      exact nofun
    · rw [← Except.ok.inj hkeys]
      exact fun name k hrepeated => List.not_mem_nil
  have hrows : rows.isEmpty = false := by simpa using hempty
  cases hkeys : rawKeys rows with
  | error e =>
      exact iff_of_true (fun result hresult => by simp [hrows, hkeys, Except.map] at hresult) nofun
  | ok keys =>
    obtain ⟨hdistinct, -, hall⟩ := rawKeys_ok hkeys List.nodup_nil
    have hin : ∀ row ∈ rows, ∀ key ∈ row.map Prod.fst, key ∈ keys := fun row hrow key hkey =>
      hall (List.mem_flatMap.mpr ⟨row, hrow, hkey⟩)
    simp only [hrows, hkeys, Bool.false_eq_true, if_false, Except.map, Except.ok.injEq, forall_eq',
      List.mem_singleton, forall_eq]
    rw [← dedupeHeaders_nodup_iff]
    refine ⟨fun h => h.1, fun hheaders => ⟨hheaders, rename isSpace keys, fun i row hrow => ?_⟩⟩
    have hmem := List.mem_of_getElem? hrow
    have hrenamed : (row.map fun e => rename isSpace keys e.1).Nodup := by
      have hmap := (hnodup row hmem).map_on fun a ha b hb hab =>
        rename_inj hdistinct hheaders (hin row hmem a ha) (hin row hmem b hb) hab
      rwa [List.map_map] at hmap
    refine ⟨hrenamed, jsonRecord isSpace keys (row, i), ?_, rfl, fun key value hvalue => ⟨?_, ?_⟩⟩
    · show (rows.zipIdx.map (jsonRecord isSpace keys))[i]? = _
      rw [List.getElem?_map, List.getElem?_zipIdx, hrow]
      simp
    · have hkey : key ∈ keys := hin row hmem key (Table.isSome_get.mp (by rw [hvalue]; rfl))
      obtain ⟨c, -, hc⟩ := @rename_spec isSpace _ hdistinct _ hkey
      exact List.mem_of_getElem? hc
    · refine get_dictOf ?_ (List.mem_map.mpr ⟨(key, value), Table.mem_of_get hvalue, rfl⟩)
      rw [List.map_map]
      exact hrenamed

end

/-! ## All of them -/

/-- **A parsed grid loses no cell**: the names of any headers are distinct, a grid keeps every cell and
JSON rows keep every key, each iff no column has the name that a repeat of another gets. -/
theorem columns_distinct_iff (isSpace : Char → Bool) :
    (∀ headers, (dedupeHeaders isSpace headers).Nodup ↔ NoClash isSpace headers) ∧
      (∀ finder source rows merged,
        KeepsCells isSpace finder source rows merged ↔ GridNoClash isSpace finder rows merged) ∧
          ∀ payload, KeepsKeys isSpace payload ↔ KeysNoClash isSpace payload :=
  ⟨dedupeHeaders_nodup_iff isSpace, fun finder _ rows merged => keepsCells_iff finder rows merged,
      keepsKeys_iff⟩

/-- Two columns are Marks, and a third is named as the second of them will be. -/
def markHeaders : List Cell := [.text "Marks", .text "Marks", .text "Marks (2)"]

/-- The first row is the header, and no row is notes. -/
def firstRowHeader : HeaderFinder where
  header rows _ := match rows with
    | row :: _ => some ⟨0, 0, row.take maxColumns, List.length_take_le maxColumns row⟩
    | [] => none
  annotationColumns _ _ _ := none

theorem repeated_marks : Repeated (columnNames (· = ' ') markHeaders) "Marks" 2 ∧
    repeatName "Marks" 2 ∈ columnNames (· = ' ') markHeaders := by
  have hnames : columnNames (· = ' ') markHeaders = ["Marks", "Marks", "Marks (2)"] := by decide +kernel
  rw [hnames]
  exact ⟨⟨le_rfl, by decide⟩, by decide⟩

/-- "Marks (2)" comes twice: a grid under these headers loses a cell, and rows of JSON a key. -/
theorem columns_collide :
    ¬(dedupeHeaders (· = ' ') markHeaders).Nodup ∧
      ¬KeepsCells (· = ' ') firstRowHeader ⟨some "Sheet1", none, none⟩
        [markHeaders, [.other "10", .other "40", .other "7"]] [] ∧
        ((gridToTable (· = ' ') firstRowHeader ⟨some "Sheet1", none, none⟩
          [markHeaders, [.other "10", .other "40", .other "7"]] []).records.map (·.fields)) =
            [[("Marks", .other "10"), ("Marks (2)", .other "7")]] := by
  have hnot : ¬NoClash (· = ' ') markHeaders := fun h => h "Marks" 2 repeated_marks.1 repeated_marks.2
  have hcells : headerCells (· = ' ') [markHeaders, [.other "10", .other "40", .other "7"]]
      ⟨0, 0, markHeaders, by decide⟩ = markHeaders := by decide +kernel
  refine ⟨fun h => hnot ((dedupeHeaders_nodup_iff _ _).mp h), fun h => hnot ?_, by decide +kernel⟩
  have hclash := (keepsCells_iff _ _ _).mp h ⟨0, 0, markHeaders, by decide⟩ rfl
  rwa [hcells] at hclash

end GuruJi.Ingestion
