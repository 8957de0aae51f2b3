import GuruJi.Documents.Chunking
import GuruJi.Ingestion.Grids
import GuruJi.Ingestion.LayoutLines
import GuruJi.Lib.Places
import Mathlib.Data.List.Infix

/-!
# Tables in plain text

The lines of a text that looks like a table are read, and their cells become a grid.

* `headerColumn_lt`: a column that is taken from a later field is a later column;
* `getElem?_columns_of_under`: fields under the headers taken from them are where these are;
* **`keepsFields_iff`**: each field of a data line is under the header taken from the same field of the
  header lines iff no two headers share a name, bars stand clear, and blank fields stand before a text
  only where they do in the header lines;
* `marks_under_roll`: marks after a blank roll number.
-/

namespace GuruJi.Ingestion

open GuruJi.Lib
open GuruJi.Voice (isSpace)
open GuruJi.Documents (splitLines)

/-! ## Rows of a text -/

/-- `text_to_rows`. -/
def textToRows (text : List Char) : List (List (List Char)) :=
  (((splitLines [] text).map (trim isSpace)).filter (· ≠ [])).map readCells

/-- `looks_tabular`. -/
def looksTabular (rows : List (List (List Char))) : Bool :=
  let widths := (rows.map List.length).filter (1 < ·)
  3 ≤ widths.length && widths.any fun width => max 3 (widths.length * 6 / 10) ≤ widths.count width

def textRow (cells : List (List Char)) : List Cell := cells.map fun cell => .text (String.ofList cell)

/-- `text_to_table`. -/
def textToTable (finder : HeaderFinder) (page : Option Nat) (text : List Char) :
    Option (ParsedTable Cell) :=
  let rows := textToRows text
  if looksTabular rows then
    let table := gridToTable isSpace finder ⟨none, page, none⟩ (rows.map textRow) []
    if table.headers ≠ [] ∧ table.records ≠ [] then some table else none
  else none

/-! ## Columns -/

section
variable (lines : List SeparatedLine)

def inkedLines : List SeparatedLine := lines.filter fun line => trim isSpace line.text ≠ []

def lineRow (line : SeparatedLine) : List Cell := textRow (readCells (trim isSpace line.text))

def lineGrid : List (List Cell) := (inkedLines lines).map lineRow

def lineHeaders (block : HeaderBlock) : List String :=
  dedupeHeaders isSpace (headerCells isSpace (lineGrid lines) block)

def headerLines (block : HeaderBlock) : List SeparatedLine :=
  ((inkedLines lines).take (block.last + 1)).drop block.first

/-- The number, from one, of the line of notes under a header. -/
def notesLine (finder : HeaderFinder) (block : HeaderBlock) : Option Nat :=
  (annotationRow finder (lineGrid lines) block (lineHeaders lines block)).map Prod.fst

/-- The lines of data below a header, within the limit, with their numbers from one. -/
def dataLines (finder : HeaderFinder) (block : HeaderBlock) : List (SeparatedLine × Nat) :=
  ((((inkedLines lines).drop (block.last + 1)).zipIdx (block.last + 2)).filter fun line =>
    notesLine lines finder block ≠ some line.2).take maxRows

end

/-- A column is taken from the field at a position: its cell in each header line is of this
field, or absent where the field is blank. A field that no header line goes up to has the
column that is its own. -/
def HeaderColumn (headers : List SeparatedLine) (k c : Nat) : Prop :=
  (∀ line ∈ headers, (line.field k ≠ none → line.columns[c]? = some k) ∧
    (line.field k = none → line.columns.length ≤ c)) ∧
    ((∃ line ∈ headers, line.field k ≠ none) ∨
      c = k ∧ ∀ line ∈ headers, ∀ j, k ≤ j → line.field j = none)

/-- The fields of lines are kept: each line of the header and of data is read as its texts, and each line
of data has a record with the text of each field, or nothing if it is blank, under the header taken from
it. -/
structure KeepsFields (finder : HeaderFinder) (lines : List SeparatedLine) (parsed : ParsedTable Cell) :
    Prop where
  distinct : parsed.headers.Nodup
  read : ∀ block ∈ finder.header (lineGrid lines) [],
    ∀ line ∈ headerLines lines block ++ (dataLines lines finder block).map Prod.fst,
      readCells (trim isSpace line.text) = line.texts
  under : ∀ block ∈ finder.header (lineGrid lines) [], ∀ line ∈ dataLines lines finder block,
    ∃ record ∈ parsed.records, record.rowNumber = line.2 ∧ ∀ k,
      (line.1.field k ≠ none → ∃ c header, HeaderColumn (headerLines lines block) k c ∧
        parsed.headers[c]? = some header) ∧
        ∀ c header, HeaderColumn (headerLines lines block) k c → parsed.headers[c]? = some header →
          record.fields.get header = (line.1.field k).map fun text => .text (String.ofList text)

/-- The fields of lines are aligned: the names of the columns are distinct, bars stand clear, and each
line of data has a text that is more than colons, and as its `i`-th text that of a field from which the
`i`-th column is taken. -/
structure AlignsFields (finder : HeaderFinder) (lines : List SeparatedLine) : Prop where
  names : GridNoClash isSpace finder (lineGrid lines) []
  clear : ∀ block ∈ finder.header (lineGrid lines) [],
    ∀ line ∈ headerLines lines block ++ (dataLines lines finder block).map Prod.fst,
      Clear true line.first line.rest
  aligned : ∀ block ∈ finder.header (lineGrid lines) [], ∀ line ∈ dataLines lines finder block,
    (∃ text ∈ line.1.texts, blankCell isSpace (.text (String.ofList text)) = false) ∧
      ∀ i k, line.1.columns[i]? = some k → i < (lineHeaders lines block).length ∧
        HeaderColumn (headerLines lines block) k i

namespace SeparatedLine
variable {line : SeparatedLine}

theorem mem_kept {text : List Char} {k : Nat} : (text, k) ∈ line.kept ↔ line.field k = some text := by
  rw [kept, List.mem_filter, List.mk_mem_zipIdx_iff_getElem?, List.getElem?_map, field,
    Option.filter_eq_some_iff]

theorem kept_increasing : line.kept.Pairwise (·.2 < ·.2) := by
  refine List.Pairwise.filter _ ?_
  have hpositions := List.pairwise_lt_range' (s := 0) (n := (line.fields.map (trim isSpace)).length)
  rwa [← List.zipIdx_map_snd, List.pairwise_map] at hpositions

theorem getElem?_texts (i : Nat) : line.texts[i]? = (line.kept[i]?).map Prod.fst := List.getElem?_map

theorem getElem?_columns (i : Nat) : line.columns[i]? = (line.kept[i]?).map Prod.snd :=
  List.getElem?_map

theorem kept_of_columns {i k : Nat} (h : line.columns[i]? = some k) :
    ∃ text, line.kept[i]? = some (text, k) ∧ line.field k = some text := by
  rw [getElem?_columns, Option.map_eq_some_iff] at h
  obtain ⟨⟨text, j⟩, hkept, rfl⟩ := h
  exact ⟨text, hkept, mem_kept.mp (List.mem_of_getElem? hkept)⟩

theorem exists_column {k : Nat} (h : line.field k ≠ none) : ∃ i : Nat, line.columns[i]? = some k := by
  obtain ⟨text, htext⟩ := Option.ne_none_iff_exists'.mp h
  obtain ⟨i, hi⟩ := List.mem_iff_getElem?.mp (mem_kept.mpr htext)
  exact ⟨i, by rw [getElem?_columns, hi]; rfl⟩

theorem columns_lt {i j k l : Nat} (hi : line.columns[i]? = some k) (hj : line.columns[j]? = some l)
    (h : k < l) : i < j := by
  have hpairwise : line.columns.Pairwise (· < ·) := List.pairwise_map.mpr kept_increasing
  obtain ⟨hi', rfl⟩ := List.getElem?_eq_some_iff.mp hi
  obtain ⟨hj', rfl⟩ := List.getElem?_eq_some_iff.mp hj
  by_contra hnot
  rcases Nat.lt_or_eq_of_le (Nat.le_of_not_lt hnot) with hlt | rfl
  · exact Nat.lt_asymm h (List.pairwise_iff_getElem.mp hpairwise _ _ hj' hi' hlt)
  · exact Nat.lt_irrefl _ h

theorem columns_inj {i j k : Nat} (hi : line.columns[i]? = some k) (hj : line.columns[j]? = some k) :
    i = j := by
  have hnodup : line.columns.Nodup :=
    (List.pairwise_map.mpr kept_increasing : line.columns.Pairwise (· < ·)).imp Nat.ne_of_lt
  have hlt := (List.getElem?_eq_some_iff.mp hi).1
  exact (List.getElem?_inj hlt hnodup).mp (hi.trans hj.symm)

theorem trim_text {text : List Char} (h : text ∈ line.texts) : trim isSpace text = text := by
  rw [texts_eq, List.mem_filter] at h
  obtain ⟨field, -, rfl⟩ := List.mem_map.mp h.1
  exact trim_trim

end SeparatedLine

section
variable {headers : List SeparatedLine} {k l c d : Nat}

/-- A column that is taken from a later field is a later column. -/
theorem headerColumn_lt (hk : HeaderColumn headers k c) (hl : HeaderColumn headers l d) (h : k < l) :
    c < d := by
  rcases hk.2 with ⟨line, hline, hfield⟩ | ⟨rfl, hnone⟩
  · have hc := (hk.1 line hline).1 hfield
    by_cases hfield' : line.field l = none
    · exact Nat.lt_of_lt_of_le (List.getElem?_eq_some_iff.mp hc).1 ((hl.1 line hline).2 hfield')
    · exact SeparatedLine.columns_lt hc ((hl.1 line hline).1 hfield') h
  · rcases hl.2 with ⟨line, hline, hfield⟩ | ⟨rfl, -⟩
    · exact absurd (hnone line hline l (Nat.le_of_lt h)) hfield
    · exact h

theorem headerColumn_unique (hc : HeaderColumn headers k c) (hd : HeaderColumn headers k d) : c = d := by
  rcases hc.2 with ⟨line, hline, hfield⟩ | ⟨rfl, hnone⟩
  · exact SeparatedLine.columns_inj ((hc.1 line hline).1 hfield) ((hd.1 line hline).1 hfield)
  · rcases hd.2 with ⟨line, hline, hfield⟩ | ⟨rfl, -⟩
    · exact absurd (hnone line hline c le_rfl) hfield
    · rfl

theorem headerColumn_injective (hk : HeaderColumn headers k c) (hl : HeaderColumn headers l c) :
    k = l := by
  rcases Nat.lt_trichotomy k l with h | h | h
  · exact absurd (headerColumn_lt hk hl h) (Nat.lt_irrefl c)
  · exact h
  · exact absurd (headerColumn_lt hl hk h) (Nat.lt_irrefl c)

end

/-! ## Records of lines -/

section
variable {finder : HeaderFinder} {page : Option Nat} {lines : List SeparatedLine} {block : HeaderBlock}
  {line : SeparatedLine × Nat}

theorem grid_textToRows {text : List Char} (hlines : splitLines [] text = lines.map (·.text)) :
    (textToRows text).map textRow = lineGrid lines := by
  have htrim : (lines.map (·.text)).map (trim isSpace) = lines.map fun line => trim isSpace line.text :=
    List.map_map
  rw [textToRows, hlines, htrim, List.filter_map, List.map_map, List.map_map]
  rfl

theorem textToTable_some {text : List Char} {parsed : ParsedTable Cell}
    (hlines : splitLines [] text = lines.map (·.text))
    (htable : textToTable finder page text = some parsed) :
    parsed = gridToTable isSpace finder ⟨none, page, none⟩ (lineGrid lines) [] := by
  rw [textToTable] at htable
  dsimp only at htable
  rw [grid_textToRows hlines] at htable
  split_ifs at htable
  exact (Option.some.inj htable).symm

theorem gridToTable_lines (hblock : block ∈ finder.header (lineGrid lines) []) :
    gridToTable isSpace finder ⟨none, page, none⟩ (lineGrid lines) [] =
      blockTable isSpace finder ⟨none, page, none⟩ (lineGrid lines) block := by
  rw [gridToTable, hblock]

theorem place_of_line (h : line ∈ dataLines lines finder block) :
    ∃ i : Nat, line.2 = block.last + 2 + i ∧
      ((lineGrid lines).drop (block.last + 1))[i]? = some (lineRow line.1) ∧
        notesLine lines finder block ≠ some line.2 := by
  have hmem := List.mem_filter.mp (List.mem_of_mem_take h)
  obtain ⟨hle, hget⟩ := List.mem_zipIdx_iff_le_and_getElem?_sub.mp hmem.1
  refine ⟨line.2 - (block.last + 2), by omega, ?_, of_decide_eq_true hmem.2⟩
  rw [lineGrid, ← List.map_drop, List.getElem?_map, hget]
  rfl

theorem fields_of_line (h : line ∈ dataLines lines finder block) {record : IntermediateRecord Cell}
    (hrecord : record ∈
      (blockTable isSpace finder ⟨none, page, none⟩ (lineGrid lines) block).records)
    (hnumber : record.rowNumber = line.2) :
    record.fields = rowFields isSpace (lineHeaders lines block) (lineRow line.1) ∧
      ∃ cell ∈ (lineRow line.1).take (lineHeaders lines block).length, blankCell isSpace cell =
      false := by
  obtain ⟨i, hi, hrow, -⟩ := place_of_line h
  obtain ⟨j, row, hrow', hnumber', hfields, hkept⟩ := (gridRecords_rows _ _ _).2 record hrecord
  obtain rfl : j = i := by omega
  obtain rfl := Option.some.inj (hrow.symm.trans hrow')
  rw [skipped, Bool.or_eq_false_iff, List.all_eq_false] at hkept
  obtain ⟨cell, hcell, hfilled⟩ := hkept.2
  exact ⟨hfields, cell, hcell, by simpa using hfilled⟩

theorem record_of_line (h : line ∈ dataLines lines finder block)
    (hcell : ∃ cell ∈ (lineRow line.1).take (lineHeaders lines block).length,
      blankCell isSpace cell = false) :
    ∃ record ∈ (blockTable isSpace finder ⟨none, page, none⟩ (lineGrid lines) block).records,
      record.rowNumber = line.2 := by
  have hnumbers := @rowNumbers_gridRecords isSpace ⟨none, page, none⟩ (lineHeaders lines block)
    (notesLine lines finder block) maxRows (block.last + 2) ((lineGrid lines).drop (block.last + 1))
  obtain ⟨cell, hcell, hfilled⟩ := hcell
  have hkept : skipped isSpace (lineHeaders lines block) (notesLine lines finder block) line.2
      (lineRow line.1) = false := by
    obtain ⟨i, -, -, hnotes⟩ := place_of_line h
    rw [skipped, Bool.or_eq_false_iff, List.all_eq_false, decide_eq_false_iff_not]
    exact ⟨fun heq => hnotes heq.symm, cell, hcell, by simp [hfilled]⟩
  have hmem : (lineRow line.1, line.2) ∈ (((lineGrid lines).drop (block.last + 1)).zipIdx
      (block.last + 2) |>.filter fun row : List Cell × Nat => !skipped isSpace (lineHeaders lines block)
        (notesLine lines finder block) row.2 row.1).take (max 1 maxRows) := by
    rw [lineGrid, ← List.map_drop, List.zipIdx_map, List.filter_map, ← List.map_take]
    refine List.mem_map_of_mem (f := Prod.map lineRow id) ?_
    have htwice := mem_take_filter (p := fun line : SeparatedLine × Nat =>
      !skipped isSpace (lineHeaders lines block) (notesLine lines finder block) line.2 (lineRow line.1))
      h (by rw [hkept]; rfl)
    have heq : ∀ row : SeparatedLine × Nat, (!skipped isSpace (lineHeaders lines block)
        (notesLine lines finder block) row.2 (lineRow row.1) && notesLine lines finder block ≠
          some row.2) = !skipped isSpace (lineHeaders lines block) (notesLine lines finder block) row.2
            (lineRow row.1) := by
      intro row
      cases hskipped : skipped isSpace (lineHeaders lines block) (notesLine lines finder block) row.2
          (lineRow row.1) with
      | true => rfl
      | false =>
        rw [skipped, Bool.or_eq_false_iff, decide_eq_false_iff_not] at hskipped
        exact decide_eq_true fun heq => hskipped.1 heq.symm
    rw [List.filter_filter, List.filter_congr fun row _ => heq row] at htwice
    exact htwice
  have hmem := List.mem_map_of_mem (f := Prod.snd) hmem
  rw [← hnumbers] at hmem
  obtain ⟨record, hrecord, hnumber⟩ := List.mem_map.mp hmem
  exact ⟨record, hrecord, hnumber⟩

theorem get_texts {texts : List (List Char)} (htexts : ∀ text ∈ texts, trim isSpace text = text)
    {headers : List String} (hnodup : headers.Nodup) {c : Nat} {header : String}
    (hheader : headers[c]? = some header) :
    (rowFields isSpace headers (textRow texts)).get header =
      (texts[c]?).map fun text => .text (String.ofList text) := by
  have hrow : (textRow texts)[c]? = (texts[c]?).map fun text => .text (String.ofList text) :=
    List.getElem?_map
  cases htext : texts[c]? with
  | none => exact get_rowFields_none hnodup hheader (by rw [hrow, htext]; rfl)
  | some text =>
    rw [get_rowFields hnodup hheader (by rw [hrow, htext]; rfl), Cell.stored, strip_eq_trim,
      String.toList_ofList, htexts text (List.mem_of_getElem? htext)]
    rfl

/-- Where each field stands under the header that is taken from it, the `i`-th text is that of a field
from which the `i`-th column is taken. -/
theorem getElem?_columns_of_under {line : SeparatedLine} {headers : List SeparatedLine} {width : Nat}
    (h : ∀ k, line.field k ≠ none →
      ∃ c, HeaderColumn headers k c ∧ c < width ∧ line.texts[c]? = line.field k) :
    ∀ i k, line.columns[i]? = some k → i < width ∧ HeaderColumn headers k i := by
  classical
  have hchoice : ∀ k, ∃ c, line.field k ≠ none →
      HeaderColumn headers k c ∧ c < width ∧ line.texts[c]? = line.field k := by
    intro k
    by_cases hk : line.field k = none
    · exact ⟨0, fun hne => absurd hk hne⟩
    · obtain ⟨c, hc⟩ := h k hk
      exact ⟨c, fun _ => hc⟩
  choose place hplace using hchoice
  have hfield : ∀ entry ∈ line.kept, line.field entry.2 ≠ none := by
    intro entry hentry
    rw [SeparatedLine.mem_kept.mp hentry]
    exact Option.some_ne_none _
  have hwhere := @index_of_increasing _ Prod.snd line.kept line.kept (fun _ => True) (fun _ => True) _
    SeparatedLine.kept_increasing (List.Sublist.refl _) (fun _ _ _ => trivial)
    (fun entry => place entry.2)
    (fun entry hentry _ => by
      obtain ⟨-, -, htext⟩ := hplace entry.2 (hfield entry hentry)
      rw [SeparatedLine.mem_kept.mp hentry, SeparatedLine.getElem?_texts,
        Option.map_eq_some_iff] at htext
      obtain ⟨other, hother, -⟩ := htext
      exact ⟨other, hother, trivial⟩)
    (fun entry hentry other hother _ _ hlt => headerColumn_lt (hplace _ (hfield entry hentry)).1
      (hplace _ (hfield other hother)).1 hlt)
  intro i k hcolumn
  obtain ⟨text, hkept, hk⟩ := SeparatedLine.kept_of_columns hcolumn
  have hmem := List.mem_of_getElem? hkept
  have hself := hwhere (text, k) hmem trivial
  obtain ⟨hheader, hwidth, -⟩ := hplace k (hfield _ hmem)
  have hcolumn' : line.columns[place k]? = some k := by
    rw [SeparatedLine.getElem?_columns, hself]
    rfl
  obtain rfl := SeparatedLine.columns_inj hcolumn' hcolumn
  exact ⟨hwidth, hheader⟩

/-- Where the `i`-th text is that of a field from which the `i`-th column is taken, a column has the text
of the field from which it is taken. -/
theorem getElem?_texts_of_aligned {line : SeparatedLine} {headers : List SeparatedLine}
    (h : ∀ i k, line.columns[i]? = some k → HeaderColumn headers k i) {k c : Nat}
    (hc : HeaderColumn headers k c) : line.texts[c]? = line.field k := by
  cases hfield : line.field k with
  | some text =>
    obtain ⟨i, hi⟩ := SeparatedLine.exists_column (by rw [hfield]; exact Option.some_ne_none text)
    obtain rfl := headerColumn_unique (h i k hi) hc
    obtain ⟨text', hkept, htext⟩ := SeparatedLine.kept_of_columns hi
    rw [SeparatedLine.getElem?_texts, hkept, ← hfield, htext]
    rfl
  | none =>
    cases hkept : line.kept[c]? with
    | none => rw [SeparatedLine.getElem?_texts, hkept, Option.map_none]
    | some entry =>
      have hcolumn : line.columns[c]? = some entry.2 := by
        rw [SeparatedLine.getElem?_columns, hkept, Option.map_some]
      obtain rfl := headerColumn_injective (h c entry.2 hcolumn) hc
      rw [SeparatedLine.mem_kept.mp (List.mem_of_getElem? hkept)] at hfield
      cases hfield

/-- **Fields are kept** iff they are aligned. -/
theorem keepsFields_iff {text : List Char} {parsed : ParsedTable Cell}
    (hlines : splitLines [] text = lines.map (·.text))
    (htable : textToTable finder page text = some parsed) :
    KeepsFields finder lines parsed ↔ AlignsFields finder lines := by
  have hparsed := textToTable_some hlines htable
  have hheaders : ∀ block ∈ finder.header (lineGrid lines) [],
      parsed = blockTable isSpace finder ⟨none, page, none⟩ (lineGrid lines) block ∧
        parsed.headers = lineHeaders lines block := by
    intro block hblock
    have heq := hparsed.trans (gridToTable_lines hblock)
    exact ⟨heq, by rw [heq]; rfl⟩
  have hread : ∀ line : SeparatedLine, readCells (trim isSpace line.text) = line.texts →
      lineRow line = textRow line.texts := fun line h => congrArg textRow h
  constructor
  · intro h
    refine ⟨fun block hblock => ?_, fun block hblock line hline =>
      SeparatedLine.read_iff.mp (h.read block hblock line hline), fun block hblock line hline => ?_⟩
    · rw [← dedupeHeaders_nodup_iff]
      have hdistinct := h.distinct
      rwa [(hheaders block hblock).2] at hdistinct
    · obtain ⟨heq, hnames⟩ := hheaders block hblock
      have hrow := hread line.1 (h.read block hblock line.1
        (List.mem_append_right _ (List.mem_map_of_mem hline)))
      obtain ⟨record, hrecord, hnumber, hunder⟩ := h.under block hblock line hline
      have hdistinct := h.distinct
      rw [heq] at hrecord
      rw [hnames] at hdistinct hunder
      obtain ⟨hfields, cell, hcell, hfilled⟩ := fields_of_line hline hrecord hnumber
      rw [hrow] at hfields hcell
      obtain ⟨text, htext, rfl⟩ := List.mem_map.mp (List.mem_of_mem_take hcell)
      refine ⟨⟨text, htext, hfilled⟩, getElem?_columns_of_under fun k hk => ?_⟩
      obtain ⟨c, header, hc, hheader⟩ := (hunder k).1 hk
      have hget := (hunder k).2 c header hc hheader
      rw [hfields, get_texts (fun _ => SeparatedLine.trim_text) hdistinct hheader] at hget
      have hinjective : Function.Injective fun text : List Char => Cell.text (String.ofList text) :=
        fun a b hab => String.ofList_inj.mp (Cell.text.inj hab)
      exact ⟨c, hc, (List.getElem?_eq_some_iff.mp hheader).1, Option.map_injective hinjective hget⟩
  · intro h
    have hdistinct : parsed.headers.Nodup := by
      cases hheader : finder.header (lineGrid lines) [] with
      | none =>
        rw [hparsed, gridToTable, hheader]
        exact List.nodup_nil
      | some block =>
        rw [(hheaders block hheader).2]
        exact (dedupeHeaders_nodup_iff _ _).mpr (h.names block hheader)
    refine ⟨hdistinct, fun block hblock line hline =>
      SeparatedLine.read_iff.mpr (h.clear block hblock line hline), fun block hblock line hline => ?_⟩
    obtain ⟨heq, hnames⟩ := hheaders block hblock
    have hrow := hread line.1 (SeparatedLine.read_iff.mpr (h.clear block hblock line.1
      (List.mem_append_right _ (List.mem_map_of_mem hline))))
    obtain ⟨⟨text, htext, hfilled⟩, haligned⟩ := h.aligned block hblock line hline
    obtain ⟨i, hi⟩ := List.mem_iff_getElem?.mp htext
    have hwidth : i < (lineHeaders lines block).length := by
      rw [SeparatedLine.getElem?_texts, Option.map_eq_some_iff] at hi
      obtain ⟨entry, hentry, -⟩ := hi
      exact (haligned i entry.2 (by rw [SeparatedLine.getElem?_columns, hentry]; rfl)).1
    obtain ⟨record, hrecord, hnumber⟩ := record_of_line hline ⟨.text (String.ofList text), by
      rw [hrow]
      refine List.mem_of_getElem? (i := i) ?_
      rw [List.getElem?_take_of_lt hwidth, textRow, List.getElem?_map, hi]
      rfl, hfilled⟩
    obtain ⟨hfields, -⟩ := fields_of_line hline hrecord hnumber
    rw [hnames] at hdistinct
    rw [heq]
    refine ⟨record, hrecord, hnumber, fun k => ⟨fun hk => ?_, fun c header hc hheader => ?_⟩⟩
    · obtain ⟨i, hi⟩ := SeparatedLine.exists_column hk
      obtain ⟨hlt, hcolumn⟩ := haligned i k hi
      exact ⟨i, _, hcolumn, List.getElem?_eq_getElem hlt⟩
    · rw [hfields, hrow, get_texts (fun _ => SeparatedLine.trim_text) hdistinct hheader,
        getElem?_texts_of_aligned (fun i k hi => (haligned i k hi).2) hc]

end

/-! ## Marks after a blank roll number -/

/-- Fields without bars or anything else that is matched. -/
def plainTexts (fields : List String) : Bool :=
  fields.all fun field => field.toList.all (· ≠ '|') && field.toList.tails.all (sepLength · = 0)

theorem plain_of_plainTexts {fields : List String} (h : plainTexts fields = true) :
    ∀ field ∈ fields.map String.toList, Plain field := by
  intro field hfield
  obtain ⟨text, htext, rfl⟩ := List.mem_map.mp hfield
  have hboth := List.all_eq_true.mp h text htext
  rw [Bool.and_eq_true, List.all_eq_true, List.all_eq_true] at hboth
  refine ⟨fun rest hrest => of_decide_eq_true (hboth.2 rest hrest), ?_⟩
  rintro ⟨before, after, heq, -⟩
  have hbar := hboth.1 '|' (heq ▸ List.mem_append_right _ List.mem_cons_self)
  exact absurd hbar (by decide)

def tabLine (first : String) (rest : List String) (h : plainTexts (first :: rest) = true) :
    SeparatedLine where
  first := first.toList
  rest := rest.map fun field => (.tab, field.toList)
  spaced e he := by
    obtain ⟨field, -, rfl⟩ := List.mem_map.mp he
    exact trivial
  plain := by
    have hplain := plain_of_plainTexts h
    rw [List.map_map]
    exact hplain

theorem clear_tabLine {first : String} {rest : List String} (h : plainTexts (first :: rest) = true) :
    Clear true (tabLine first rest h).first (tabLine first rest h).rest := by
  have htabs : ∀ (rest : List String) (field : List Char),
      Clear true field (rest.map fun field => (.tab, field.toList)) := by
    intro rest
    induction rest with
    | nil => exact fun _ => trivial
    | cons next rest ih => exact fun _ => ih next.toList
  exact htabs rest first.toList

def tabLines (rows : List (String × String × String)) : List SeparatedLine :=
  rows.filterMap fun row =>
    if h : plainTexts [row.1, row.2.1, row.2.2] = true then some (tabLine row.1 [row.2.1, row.2.2] h)
    else none

def marksLines : List SeparatedLine :=
  tabLines [("Name", "Roll No", "Marks"), ("Asha", "1", "41"), ("Ravi", "2", "50"), ("Mina", "3", "60")]

def rollLines : List SeparatedLine :=
  tabLines [("Name", "Roll No", "Marks"), ("Asha", "", "41"), ("Ravi", "2", "50"), ("Mina", "3", "60")]

def marksText : List Char := "Name\tRoll No\tMarks\nAsha\t1\t41\nRavi\t2\t50\nMina\t3\t60".toList

def rollText : List Char := "Name\tRoll No\tMarks\nAsha\t\t41\nRavi\t2\t50\nMina\t3\t60".toList

theorem marksText_lines : splitLines [] marksText = marksLines.map (·.text) := by decide

theorem rollText_lines : splitLines [] rollText = rollLines.map (·.text) := by decide

theorem marksLines_columns : marksLines.map (·.columns) = List.replicate 4 [0, 1, 2] := by decide

def marksBlock : HeaderBlock :=
    ⟨0, 0, textRow ["Name".toList, "Roll No".toList, "Marks".toList], by decide⟩

theorem marks_header : firstRowHeader.header (lineGrid marksLines) [] = some marksBlock := by
  have hgrid : (lineGrid marksLines).head? = some marksBlock.cells := by decide
  obtain ⟨rows, hrows⟩ := List.head?_eq_some_iff.mp hgrid
  rw [hrows]
  rfl

theorem marks_aligned : AlignsFields firstRowHeader marksLines := by
  have hclear : ∀ line ∈ marksLines, Clear true line.first line.rest := by
    intro line hline
    obtain ⟨row, -, hrow⟩ := List.mem_filterMap.mp hline
    split_ifs at hrow
    obtain rfl := Option.some.inj hrow
    exact clear_tabLine _
  have hcolumns : ∀ line ∈ marksLines, line.columns = [0, 1, 2] := by
    intro line hline
    have hmem : line.columns ∈ List.replicate 4 [0, 1, 2] :=
      marksLines_columns ▸ List.mem_map_of_mem hline
    exact (List.mem_replicate.mp hmem).2
  have htexts : ∀ line ∈ marksLines,
      line.texts.any fun text => !blankCell isSpace (.text (String.ofList text)) := by
    have hall : (marksLines.map (·.texts)).all fun texts =>
        texts.any fun text => !blankCell isSpace (.text (String.ofList text)) := by decide
    exact fun line hline => List.all_eq_true.mp hall _ (List.mem_map_of_mem hline)
  have hheader : ∀ line ∈ headerLines marksLines marksBlock, line ∈ marksLines := fun line hline =>
    List.mem_of_mem_filter (List.mem_of_mem_take (List.mem_of_mem_drop hline))
  have hdata : ∀ line ∈ dataLines marksLines firstRowHeader marksBlock, line.1 ∈ marksLines := by
    intro line hline
    obtain ⟨-, hline⟩ := List.mem_zipIdx_iff_le_and_getElem?_sub.mp
      (List.mem_of_mem_filter (List.mem_of_mem_take hline))
    exact List.mem_of_mem_filter (List.mem_of_mem_drop (List.mem_of_getElem? hline))
  have hsome : ∃ line, line ∈ headerLines marksLines marksBlock := by
    have hlength : (headerLines marksLines marksBlock).length = 1 := by decide
    exact List.exists_mem_of_length_pos (by rw [hlength]; exact Nat.one_pos)
  refine ⟨fun block hblock => ?_, fun block hblock line hline => ?_, fun block hblock line hline => ?_⟩
  · rw [← dedupeHeaders_nodup_iff]
    obtain rfl := Option.some.inj (marks_header.symm.trans hblock)
    decide
  · obtain rfl := Option.some.inj (marks_header.symm.trans hblock)
    rcases List.mem_append.mp hline with hline | hline
    · exact hclear line (hheader line hline)
    · obtain ⟨entry, hentry, rfl⟩ := List.mem_map.mp hline
      exact hclear entry.1 (hdata entry hentry)
  · obtain rfl := Option.some.inj (marks_header.symm.trans hblock)
    obtain ⟨text, htext, hfilled⟩ := List.any_eq_true.mp (htexts line.1 (hdata line hline))
    refine ⟨⟨text, htext, by simpa using hfilled⟩, fun i k hk => ?_⟩
    have hfield : ∀ header ∈ headerLines marksLines marksBlock, header.columns[i]? = some k := by
      intro header hmem
      rw [hcolumns header (hheader header hmem), ← hcolumns line.1 (hdata line hline)]
      exact hk
    have hnone : ∀ header ∈ headerLines marksLines marksBlock, header.field k ≠ none := by
      intro header hmem
      obtain ⟨text, -, heq⟩ := SeparatedLine.kept_of_columns (hfield header hmem)
      rw [heq]
      exact Option.some_ne_none text
    rw [hcolumns line.1 (hdata line hline)] at hk
    refine ⟨?_, fun header hmem => ⟨fun _ => hfield header hmem, fun hblank =>
      absurd hblank (hnone header hmem)⟩, Or.inl ?_⟩
    · have hlength : (lineHeaders marksLines marksBlock).length = 3 := by decide
      rw [hlength]
      exact (List.getElem?_eq_some_iff.mp hk).1
    · obtain ⟨header, hmem⟩ := hsome
      exact ⟨header, hmem, hnone header hmem⟩

/-- Marks without blank fields are kept. -/
theorem keepsFields_iff_marks : ∃ parsed, textToTable firstRowHeader none marksText = some parsed ∧
    KeepsFields firstRowHeader marksLines parsed := by
  have hsome : (textToTable firstRowHeader none marksText).isSome := by decide
  obtain ⟨parsed, hparsed⟩ := Option.isSome_iff_exists.mp hsome
  exact ⟨parsed, hparsed, (keepsFields_iff marksText_lines hparsed).mpr marks_aligned⟩

/-- **The marks stand under Roll No**: the roll number before them is blank. -/
theorem marks_under_roll :
    splitLines [] rollText = rollLines.map (·.text) ∧
      (textToTable firstRowHeader none rollText).map (·.records.map (·.fields)) =
        some [[("Name", .text "Asha"), ("Roll No", .text "41")],
          [("Name", .text "Ravi"), ("Roll No", .text "2"), ("Marks", .text "50")],
          [("Name", .text "Mina"), ("Roll No", .text "3"), ("Marks", .text "60")]] ∧
        ∀ parsed ∈ textToTable firstRowHeader none rollText,
          ¬KeepsFields firstRowHeader rollLines parsed := by
  refine ⟨rollText_lines, by decide, fun parsed hparsed h => ?_⟩
  have hheader : firstRowHeader.header (lineGrid rollLines) [] = some marksBlock := by
    have hgrid : (lineGrid rollLines).head? = some marksBlock.cells := by decide
    obtain ⟨rows, hrows⟩ := List.head?_eq_some_iff.mp hgrid
    rw [hrows]
    rfl
  have htable : (textToTable firstRowHeader none rollText).map (fun parsed => (parsed.headers,
      parsed.records.map fun record => (record.rowNumber, record.fields.get "Marks"))) =
        some (["Name", "Roll No", "Marks"],
        [(2, none), (3, some (.text "50")), (4, some (.text "60"))]) := by
    decide
  rw [hparsed, Option.map_some, Option.some.injEq, Prod.mk.injEq] at htable
  have hline : (2, some "41".toList) ∈ (dataLines rollLines firstRowHeader marksBlock).map fun line =>
      (line.2, line.1.field 2) := by decide
  obtain ⟨line, hline, heq⟩ := List.mem_map.mp hline
  obtain ⟨hnumber, hfield⟩ := Prod.mk.inj heq
  obtain ⟨record, hrecord, hrow, hunder⟩ := h.under marksBlock hheader line hline
  obtain ⟨c, header, hcolumn, hc⟩ := (hunder 2).1 (by rw [hfield]; exact Option.some_ne_none _)
  have hget := (hunder 2).2 c header hcolumn hc
  have hcolumns : ([0, 1, 2], true) ∈ (headerLines rollLines marksBlock).map fun line =>
      (line.columns, decide (line.field 2 ≠ none)) := by decide
  obtain ⟨first, hfirst, heq⟩ := List.mem_map.mp hcolumns
  obtain ⟨hthree, hthird⟩ := Prod.mk.inj heq
  have hplace := (hcolumn.1 first hfirst).1 (of_decide_eq_true hthird)
  have hsecond : first.columns[2]? = some 2 := by
    rw [hthree]
    rfl
  obtain rfl := SeparatedLine.columns_inj hsecond hplace
  rw [htable.1] at hc
  obtain rfl : "Marks" = header := Option.some.inj hc
  have hmem : (record.rowNumber, record.fields.get "Marks") ∈
      [(2, none), (3, some (Cell.text "50")), (4, some (Cell.text "60"))] :=
    htable.2 ▸ List.mem_map_of_mem hrecord
  rw [hrow, hnumber, hget, hfield] at hmem
  revert hmem
  decide

end GuruJi.Ingestion
