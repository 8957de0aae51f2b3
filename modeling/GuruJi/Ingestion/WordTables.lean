import GuruJi.Ingestion.Grids
import GuruJi.Lib.Places
import Mathlib.Order.Monotone.Basic

/-!
# Tables of Word documents

The rows of a table are rebuilt from the cells that are children of its rows, whatever columns of the
grid they span, and become a table as those of any grid.

* `tables_parseDocx`: the tables of a document, in their order;
* `place_increasing`: cells stand in the order of the columns they start in;
* **`keepsColumns_iff`**: each row of text has a record with the texts under the headers of their columns
  iff no two headers share a name, no text is in a wrapped row, and each text stands in its cell's own
  paragraphs, in a child of the row that is counted as many as the header of its column;
* `marks_shifted`: a row whose first cell spans two columns.
-/

namespace GuruJi.Ingestion

open GuruJi.Lib

/-! ## Elements -/

/-- An element of a document: its name, its attributes, the text it begins with and its children. -/
inductive XmlElement where
  | node (name : String) (attributes : List (String × String)) (text : String)
    (children : List XmlElement)

namespace XmlElement

def name : XmlElement → String
  | node name _ _ _ => name

def attributes : XmlElement → List (String × String)
  | node _ attributes _ _ => attributes

def text : XmlElement → String
  | node _ _ text _ => text

def children : XmlElement → List XmlElement
  | node _ _ _ children => children

mutual

/-- `element.iter()`. -/
def iter : XmlElement → List XmlElement
  | node name attributes text children => node name attributes text children :: iterAll children

def iterAll : List XmlElement → List XmlElement
  | [] => []
  | element :: elements => iter element ++ iterAll elements

end

mutual

/-- The paragraphs in an element, none within another. -/
def paragraphs : XmlElement → List XmlElement
  | node name attributes text children =>
    if name = "w:p" then [node name attributes text children] else paragraphsAll children

def paragraphsAll : List XmlElement → List XmlElement
  | [] => []
  | element :: elements => paragraphs element ++ paragraphsAll elements

end

/-- `element.find(path)`, of a path of names. -/
def find (element : XmlElement) : List String → Option XmlElement
  | [] => some element
  | name :: path => ((element.children.filter (·.name = name)).findSome? fun child => find child path)

/-- The number that an attribute of an element has, if it is one. -/
def number (element : XmlElement) (path : List String) : Option Nat :=
  (element.find path).bind fun found => (Table.get found.attributes "w:val").bind fun text =>
    if text ≠ "" ∧ text.toList.all Char.isDigit then
      some (text.toList.foldl (fun n c => 10 * n + (c.toNat - '0'.toNat)) 0)
    else none

end XmlElement

/-! ## Documents -/

/-- `_paragraph_text`. -/
def paragraphText (node : XmlElement) : String :=
  String.join (node.iter.map fun child =>
    if child.name = "w:t" then child.text
    else if child.name = "w:tab" then "\t"
    else if child.name = "w:br" then "\n"
    else "")

/-- `_paragraph_style`. -/
def paragraphStyle (node : XmlElement) : String :=
  ((node.find ["w:pPr", "w:pStyle"]).bind fun style => Table.get style.attributes "w:val").getD ""

/-- What a document is read with. -/
structure DocxEnv where
  isSpace : Char → Bool
  lower : String → String
  finder : HeaderFinder

/-- What the loop over the elements of the body keeps. -/
structure DocxRead where
  tables : List (ParsedTable Cell)
  paragraphs : List String
  headings : List String

/-- What `parse_docx` returns. -/
structure DocxResult where
  tables : List (ParsedTable Cell)
  text : Option String
  headings : List String
  tableCount : Nat

section
variable (env : DocxEnv)

/-- The text of a cell: of the paragraphs that are its children. -/
def cellText (cell : XmlElement) : String :=
  strip env.isSpace (String.intercalate " " ((cell.children.filter (·.name = "w:p")).map paragraphText))

/-- The rows of a table: those that are its children, with the cells that are theirs. -/
def wordRows (table : XmlElement) : List (List String) :=
  (table.children.filter (·.name = "w:tr")).map fun row =>
    (row.children.filter (·.name = "w:tc")).map (cellText env)

/-- The table of an element, the `index`-th of its document. -/
def wordTable (index : Nat) (table : XmlElement) : ParsedTable Cell :=
  gridToTable env.isSpace env.finder ⟨none, none, some ("table=" ++ Nat.repr index)⟩
    ((wordRows env table).map (·.map .text)) []

def readElement (s : DocxRead) (element : XmlElement) : DocxRead :=
  if element.name = "w:p" then
    let text := strip env.isSpace (paragraphText element)
    let style := env.lower (paragraphStyle element)
    if text = "" then s
    else if startsWith "heading" style ∨ style = "title" then
      { s with headings := s.headings ++ [text], paragraphs := s.paragraphs ++ ["\n" ++ text ++ "\n"] }
    else { s with paragraphs := s.paragraphs ++ [text] }
  else if element.name = "w:tbl" then
    let table := wordTable env (s.tables.length + 1) element
    { s with
      tables := s.tables ++ [table]
      paragraphs := if table.headers = [] then
        s.paragraphs ++ [String.intercalate "\n" ((wordRows env element).map (String.intercalate " | "))]
        else s.paragraphs }
  else s

/-- `parse_docx`, of the elements of the body. -/
def parseDocx (body : List XmlElement) : DocxResult :=
  let read := body.foldl (readElement env) ⟨[], [], []⟩
  { tables := read.tables
    text := if read.paragraphs = [] then none else some (String.intercalate "\n" read.paragraphs)
    headings := read.headings.take 50
    tableCount := read.tables.length }

/-! ## The grid of a table -/

mutual

/-- The elements of a name in an element, or in content controls in it; with whether they are in none. -/
def openedIn (name : String) (direct : Bool) : XmlElement → List (XmlElement × Bool)
  | .node tag attributes text children =>
    if tag = name then [(.node tag attributes text children, direct)]
    else if tag = "w:sdt" ∨ tag = "w:sdtContent" then opened name false children else []

def opened (name : String) (direct : Bool) : List XmlElement → List (XmlElement × Bool)
  | [] => []
  | element :: rest => openedIn name direct element ++ opened name direct rest

end

/-- A cell of a row: the column of the grid that it starts in, the text that is read of it and its
whole text. -/
structure PlacedCell where
  start : Nat
  direct : Bool
  own : String
  full : String
  deriving DecidableEq

def cellSpan (cell : XmlElement) : Nat := max 1 ((cell.number ["w:tcPr", "w:gridSpan"]).getD 1)

def fullText (cell : XmlElement) : String :=
  strip env.isSpace
    (String.intercalate " " ((XmlElement.paragraphsAll cell.children).map paragraphText))

def place : Nat → List (XmlElement × Bool) → List PlacedCell
  | _, [] => []
  | start, cell :: cells =>
    ⟨start, cell.2, cellText env cell.1, fullText env cell.1⟩ :: place (start + cellSpan cell.1) cells

def rowStart (row : XmlElement) : Nat := (row.number ["w:trPr", "w:gridBefore"]).getD 0

/-- The cells of a row in the columns of the grid. -/
def rowCells (row : XmlElement) : List PlacedCell :=
  place env (rowStart row) (opened "w:tc" true row.children)

def rowEnd (row : XmlElement) : Nat :=
  (opened "w:tc" true row.children).foldl (fun column cell => column + cellSpan cell.1) (rowStart row)

/-- The column of the `j`-th cell that is counted of a row of headers, or of the `j`-th column if the
row has no such cell. -/
def countedColumn (row : XmlElement) (j : Nat) : Nat :=
  match ((rowCells env row).filter (·.direct))[j]? with
  | some cell => cell.start
  | none => rowEnd row + (j - ((rowCells env row).filter (·.direct)).length)

def countedRows (table : XmlElement) : List XmlElement := table.children.filter (·.name = "w:tr")

/-- The `j`-th header of a table is the header of a column of the grid. -/
def HeaderOf (table : XmlElement) (block : HeaderBlock) (column j : Nat) : Prop :=
  ∀ k, block.first ≤ k → k ≤ block.last → ∀ row, (countedRows table)[k]? = some row →
    countedColumn env row j = column

def wordGrid (table : XmlElement) : List (List Cell) := (wordRows env table).map (·.map .text)

def wordHeaders (table : XmlElement) (block : HeaderBlock) : List String :=
  dedupeHeaders env.isSpace (headerCells env.isSpace (wordGrid env table) block)

/-- The number, from one, of the row of notes under a header. -/
def notesRow (table : XmlElement) (block : HeaderBlock) : Option Nat :=
  (annotationRow env.finder (wordGrid env table) block (wordHeaders env table block)).map Prod.fst

/-- The numbers, from one, of the rows that records are made of. -/
def recordedRows (table : XmlElement) (block : HeaderBlock) : List Nat :=
  (((((wordGrid env table).drop (block.last + 1)).zipIdx (block.last + 2)).filter fun row =>
    !skipped env.isSpace (wordHeaders env table block) (notesRow env table block) row.2 row.1).take
      maxRows).map Prod.snd

/-- A row is the `i`-th below a header, within the limit, is not one of notes and has a text. -/
structure DataRow (table : XmlElement) (block : HeaderBlock) (i : Nat) (row : XmlElement) : Prop where
  within : i < maxRows
  below : (countedRows table)[block.last + 1 + i]? = some row
  data : notesRow env table block ≠ some (block.last + 2 + i)
  text : ∃ cell ∈ rowCells env row, cell.full ≠ ""

/-- No text of a table is in a row that is not counted. -/
def NoTextWrapped (table : XmlElement) : Prop :=
  ∀ row ∈ opened "w:tr" true table.children, row.2 = false → ∀ cell ∈ rowCells env row.1, cell.full = ""

/-- A table keeps its columns: their names are distinct, each row of text has a record, and the record
of each row has the text of each cell under the header of the column that the cell starts in. -/
structure KeepsColumns (table : XmlElement) (parsed : ParsedTable Cell) : Prop where
  distinct : parsed.headers.Nodup
  wrapped : NoTextWrapped env table
  rows : ∀ block ∈ env.finder.header (wordGrid env table) [], ∀ i row, DataRow env table block i row →
    ∃ record ∈ parsed.records, record.rowNumber = block.last + 2 + i
  records : ∀ block ∈ env.finder.header (wordGrid env table) [], ∀ record ∈ parsed.records, ∀ row,
    (countedRows table)[record.rowNumber - 1]? = some row → ∀ cell ∈ rowCells env row, cell.full ≠ "" →
      ∃ j header, HeaderOf env table block cell.start j ∧ parsed.headers[j]? = some header ∧
        record.fields.get header = some (.text cell.full)

/-- A cell that is counted under the headers has a text in each row of text, and each text of a row that
a record is made of stands in its cell's own paragraphs, and the cell is counted as many as the header of
the column that it starts in. -/
structure CountsColumns (table : XmlElement) : Prop where
  names : GridNoClash env.isSpace env.finder (wordGrid env table) []
  wrapped : NoTextWrapped env table
  rows : ∀ block ∈ env.finder.header (wordGrid env table) [], ∀ i row, DataRow env table block i row →
    ∃ c < (wordHeaders env table block).length, ∃ cell, ((rowCells env row).filter (·.direct))[c]? =
      some cell ∧ blankCell env.isSpace (.text cell.own) = false
  cells : ∀ block ∈ env.finder.header (wordGrid env table) [], ∀ number ∈ recordedRows env table block,
    ∀ row, (countedRows table)[number - 1]? = some row → ∀ cell ∈ rowCells env row, cell.full ≠ "" →
      cell.own = cell.full ∧ ∃ j, HeaderOf env table block cell.start j ∧
        j < (wordHeaders env table block).length ∧
          ((rowCells env row).filter (·.direct))[j]? = some cell

end

/-! ## Documents and their tables -/

section
variable {env : DocxEnv}

/-- The tables of a document are those of its elements, in their order. -/
theorem tables_parseDocx (body : List XmlElement) : (parseDocx env body).tables =
    ((body.filter (·.name = "w:tbl")).zipIdx 1).map fun table => wordTable env table.2 table.1 := by
  have hfold : ∀ s : DocxRead, (body.foldl (readElement env) s).tables = s.tables ++
      ((body.filter (·.name = "w:tbl")).zipIdx (s.tables.length + 1)).map fun table =>
        wordTable env table.2 table.1 := by
    induction body with
    | nil => exact fun s => (List.append_nil _).symm
    | cons element body ih =>
      intro s
      rw [List.foldl_cons, ih, readElement]
      by_cases htable : element.name = "w:tbl"
      · have hother : element.name ≠ "w:p" := by
          rw [htable]
          decide
        rw [if_neg hother, if_pos htable, List.filter_cons_of_pos (by simpa using htable)]
        dsimp only
        rw [List.length_append, List.length_singleton, List.zipIdx_cons, List.map_cons,
          List.append_assoc]
        rfl
      · rw [List.filter_cons_of_neg (by simpa using htable), if_neg htable]
        dsimp only
        split_ifs
        · rfl
        · rfl
        · rfl
        · rfl
  exact hfold ⟨[], [], []⟩

/-! ## Cells in their columns -/

mutual

theorem openedIn_inner (name : String) (element : XmlElement) :
    ∀ found ∈ openedIn name false element, found.2 = false := by
  obtain ⟨tag, attributes, text, children⟩ := element
  intro found h
  rw [openedIn] at h
  split_ifs at h
  · rw [List.mem_singleton.mp h]
  · exact opened_inner name children found h
  · exact absurd h List.not_mem_nil

theorem opened_inner (name : String) (elements : List XmlElement) :
    ∀ found ∈ opened name false elements, found.2 = false := by
  cases elements with
  | nil => exact fun found h => absurd h List.not_mem_nil
  | cons element rest =>
    intro found h
    rcases List.mem_append.mp h with h | h
    · exact openedIn_inner name element found h
    · exact opened_inner name rest found h

end

theorem mem_paragraphsAll {elements : List XmlElement} {paragraph : XmlElement}
    (h : paragraph ∈ elements.filter (·.name = "w:p")) :
        paragraph ∈ XmlElement.paragraphsAll elements := by
  obtain ⟨hmem, hname⟩ := List.mem_filter.mp h
  have hself : paragraph ∈ paragraph.paragraphs := by
    obtain ⟨name, attributes, text, children⟩ := paragraph
    have hp : name = "w:p" := of_decide_eq_true hname
    rw [XmlElement.paragraphs, if_pos hp]
    exact List.mem_singleton_self _
  induction elements with
  | nil => exact absurd hmem List.not_mem_nil
  | cons element elements ih =>
    rw [XmlElement.paragraphsAll]
    rcases List.mem_cons.mp hmem with rfl | hmem
    · exact List.mem_append_left _ hself
    · exact List.mem_append_right _ (ih (List.mem_filter.mpr ⟨hmem, hname⟩) hmem)

theorem opened_direct (name : String) (elements : List XmlElement) :
    ((opened name true elements).filter (·.2)).map Prod.fst = elements.filter (·.name = name) := by
  induction elements with
  | nil => rfl
  | cons element rest ih =>
    obtain ⟨tag, attributes, text, children⟩ := element
    have hinner : (opened name false children).filter (·.2) = [] := by
      refine List.filter_eq_nil_iff.mpr fun element h => ?_
      rw [opened_inner name children element h]
      exact Bool.false_ne_true
    rw [opened, openedIn, List.filter_append, List.map_append, ih]
    by_cases htag : tag = name
    · have hkept : (XmlElement.node tag attributes text children :: rest).filter (·.name = name) =
          .node tag attributes text children :: rest.filter (·.name = name) :=
        List.filter_cons_of_pos (by simp [XmlElement.name, htag])
      rw [if_pos htag, hkept]
      rfl
    · rw [if_neg htag, List.filter_cons_of_neg (by simp [XmlElement.name, htag])]
      split_ifs
      · rw [hinner]
        rfl
      · rfl

theorem place_mem {start : Nat} {cells : List (XmlElement × Bool)} {cell : PlacedCell}
    (h : cell ∈ place env start cells) : start ≤ cell.start ∧
      cell.start < cells.foldl (fun column cell => column + cellSpan cell.1) start ∧
      ∃ source ∈ cells, cell.direct = source.2 ∧ cell.own = cellText env source.1 ∧
        cell.full = fullText env source.1 := by
  induction cells generalizing start with
  | nil => cases h
  | cons first cells ih =>
    have hspan : 1 ≤ cellSpan first.1 := le_max_left _ _
    have hgrows : ∀ (cells : List (XmlElement × Bool)) (column : Nat),
        column ≤ cells.foldl (fun column cell => column + cellSpan cell.1) column := by
      intro cells
      induction cells with
      | nil => exact fun column => le_rfl
      | cons cell cells ih => exact fun column => (Nat.le_add_right _ _).trans (ih _)
    rw [List.foldl_cons]
    rcases List.mem_cons.mp h with rfl | h
    · refine ⟨le_rfl, ?_, first, List.mem_cons_self, rfl, rfl, rfl⟩
      exact Nat.lt_of_lt_of_le (Nat.lt_add_of_pos_right hspan) (hgrows _ _)
    · obtain ⟨hle, hlt, source, hsource, hparts⟩ := ih h
      exact ⟨(Nat.le_add_right _ _).trans hle, hlt, source, List.mem_cons_of_mem _ hsource, hparts⟩

/-- Cells stand in the order of the columns they start in. -/
theorem place_increasing (start : Nat) (cells : List (XmlElement × Bool)) :
    (place env start cells).Pairwise (·.start < ·.start) := by
  induction cells generalizing start with
  | nil => exact List.Pairwise.nil
  | cons cell cells ih =>
    refine List.pairwise_cons.mpr ⟨fun next hnext => ?_, ih _⟩
    have hspan : 1 ≤ cellSpan cell.1 := le_max_left _ _
    exact Nat.lt_of_lt_of_le (Nat.lt_add_of_pos_right hspan) (place_mem hnext).1

theorem counted_cells (row : XmlElement) : ((rowCells env row).filter (·.direct)).map (·.own) =
    (row.children.filter (·.name = "w:tc")).map (cellText env) := by
  have hplace : ∀ (start : Nat) (cells : List (XmlElement × Bool)),
      ((place env start cells).filter (·.direct)).map (·.own) =
        ((cells.filter (·.2)).map Prod.fst).map (cellText env) := by
    intro start cells
    induction cells generalizing start with
    | nil => rfl
    | cons cell cells ih =>
      rw [place]
      cases hdirect : cell.2 with
      | true =>
        have hkept : (cell :: cells).filter (·.2) = cell :: cells.filter (·.2) :=
          List.filter_cons_of_pos hdirect
        rw [hkept, List.filter_cons_of_pos rfl, List.map_cons, List.map_cons, List.map_cons, ih]
      | false =>
        have hleft : (cell :: cells).filter (·.2) = cells.filter (·.2) :=
          List.filter_cons_of_neg (by simp [hdirect])
        rw [hleft, List.filter_cons_of_neg Bool.false_ne_true, ih]
  rw [rowCells, hplace, opened_direct]

theorem countedColumn_strictMono (row : XmlElement) : StrictMono (countedColumn env row) := by
  intro i j hij
  have hpairwise : ((rowCells env row).filter (·.direct)).Pairwise (·.start < ·.start) :=
    (place_increasing _ _).filter _
  unfold countedColumn
  cases hi : ((rowCells env row).filter (·.direct))[i]? with
  | none =>
    have hlong := List.getElem?_eq_none_iff.mp hi
    rw [List.getElem?_eq_none (by omega)]
    dsimp only
    omega
  | some cell =>
    obtain ⟨hi', rfl⟩ := List.getElem?_eq_some_iff.mp hi
    cases hj : ((rowCells env row).filter (·.direct))[j]? with
    | none =>
      have hmem : ((rowCells env row).filter (·.direct))[i] ∈ rowCells env row :=
        List.mem_of_mem_filter (List.getElem_mem hi')
      exact Nat.lt_of_lt_of_le (place_mem hmem).2.1 (Nat.le_add_right _ _)
    | some next =>
      obtain ⟨hj', rfl⟩ := List.getElem?_eq_some_iff.mp hj
      exact List.pairwise_iff_getElem.mp hpairwise i j hi' hj' hij

end

/-! ## Columns are kept -/

section
variable {env : DocxEnv} {index : Nat} {table : XmlElement} {block : HeaderBlock}

variable {row : XmlElement}

theorem own_stripped {cell : PlacedCell} (h : cell ∈ rowCells env row) :
    strip env.isSpace cell.own = cell.own := by
  obtain ⟨-, -, source, -, -, hown, -⟩ := place_mem h
  rw [hown, cellText, strip_strip]

theorem getElem?_wordGrid {k : Nat} (h : (countedRows table)[k]? = some row) :
    (wordGrid env table)[k]? = some (((rowCells env row).filter (·.direct)).map fun cell =>
      .text cell.own) := by
  have hrow : (wordRows env table)[k]? = some (((rowCells env row).filter (·.direct)).map (·.own)) := by
    rw [wordRows, List.getElem?_map, counted_cells]
    exact congrArg (Option.map _) h
  rw [wordGrid, List.getElem?_map, hrow, Option.map_some, List.map_map]
  rfl

theorem wordTable_eq (hblock : block ∈ env.finder.header (wordGrid env table) []) :
    wordTable env index table = blockTable env.isSpace env.finder
      ⟨none, none, some ("table=" ++ Nat.repr index)⟩ (wordGrid env table) block := by
  have hheader : env.finder.header ((wordRows env table).map (·.map .text)) [] = some block := hblock
  rw [wordTable, gridToTable, hheader]
  rfl

theorem fields_of_record (hblock : block ∈ env.finder.header (wordGrid env table) [])
    {record : IntermediateRecord Cell} (hrecord : record ∈ (wordTable env index table).records)
    (hrow : (countedRows table)[record.rowNumber - 1]? = some row) :
    block.last < (countedRows table).length ∧
      record.fields = rowFields env.isSpace (wordTable env index table).headers
        (((rowCells env row).filter (·.direct)).map fun cell => .text cell.own) := by
  rw [wordTable_eq hblock] at hrecord ⊢
  obtain ⟨i, cells, hcells, hnumber, hfields, -⟩ := (gridRecords_rows _ _ _).2 record hrecord
  have hplace : record.rowNumber - 1 = block.last + 1 + i := by omega
  have hbelow := (List.getElem?_eq_some_iff.mp hrow).1
  rw [List.getElem?_drop, ← hplace, getElem?_wordGrid hrow] at hcells
  refine ⟨by omega, ?_⟩
  rw [hfields, ← Option.some.inj hcells]
  rfl

theorem mem_recordedRows (hblock : block ∈ env.finder.header (wordGrid env table) []) {number : Nat} :
    number ∈ recordedRows env table block ↔
      ∃ record ∈ (wordTable env index table).records, record.rowNumber = number := by
  rw [wordTable_eq hblock, ← List.mem_map, recordedRows]
  exact iff_of_eq (congrArg (number ∈ ·) (rowNumbers_gridRecords maxRows _ _).symm)

theorem recorded_iff (hblock : block ∈ env.finder.header (wordGrid env table) []) {i : Nat}
    (h : DataRow env table block i row) :
    (∃ record ∈ (wordTable env index table).records, record.rowNumber = block.last + 2 + i) ↔
      ∃ c < (wordHeaders env table block).length, ∃ cell, ((rowCells env row).filter (·.direct))[c]? =
        some cell ∧ blankCell env.isSpace (.text cell.own) = false := by
  have hrow : ((wordGrid env table).drop (block.last + 1))[i]? =
      some (((rowCells env row).filter (·.direct)).map fun cell => .text cell.own) :=
    List.getElem?_drop.trans (getElem?_wordGrid h.below)
  have hskipped : skipped env.isSpace (wordHeaders env table block) (notesRow env table block)
      (block.last + 2 + i) (((rowCells env row).filter (·.direct)).map fun cell => .text cell.own) =
        false ↔ ∃ c < (wordHeaders env table block).length, ∃ cell,
          ((rowCells env row).filter (·.direct))[c]? = some cell ∧
            blankCell env.isSpace (.text cell.own) = false := by
    rw [skipped, Bool.or_eq_false_iff, decide_eq_false_iff_not, List.all_eq_false]
    constructor
    · rintro ⟨-, text, hmem, hfilled⟩
      obtain ⟨c, hc⟩ := List.mem_iff_getElem?.mp hmem
      have hlt := (List.getElem?_eq_some_iff.mp hc).1
      rw [List.length_take] at hlt
      rw [List.getElem?_take_of_lt (by omega), List.getElem?_map, Option.map_eq_some_iff] at hc
      obtain ⟨cell, hcell, rfl⟩ := hc
      exact ⟨c, by omega, cell, hcell, by simpa using hfilled⟩
    · rintro ⟨c, hc, cell, hcell, hfilled⟩
      refine ⟨fun heq => h.data heq.symm, .text cell.own, ?_, by simp [hfilled]⟩
      refine List.mem_iff_getElem?.mpr ⟨c, ?_⟩
      rw [List.getElem?_take_of_lt hc, List.getElem?_map, hcell]
      rfl
  rw [← hskipped, wordTable_eq hblock]
  constructor
  · rintro ⟨record, hrecord, hnumber⟩
    obtain ⟨k, cells, hcells, hnumber', -, hkept⟩ := (gridRecords_rows _ _ _).2 record hrecord
    obtain rfl : k = i := by omega
    rw [Option.some.inj (hrow.symm.trans hcells)]
    exact hkept
  · intro hkept
    obtain ⟨record, hrecord, hnumber, -⟩ := exists_record h.within hrow hkept
    exact ⟨record, hrecord, hnumber⟩

theorem full_of_own (hspace : env.isSpace ' ' = true) {cell : PlacedCell}
    (h : cell ∈ rowCells env row) (hown : cell.own ≠ "") : cell.full ≠ "" := by
  obtain ⟨-, -, source, -, -, hown', hfull⟩ := place_mem h
  have hjoin : ∀ (parts : List String) (c : Char), env.isSpace c = false →
      (c ∈ (String.intercalate " " parts).toList ↔ ∃ part ∈ parts, c ∈ part.toList) := by
    intro parts c hc
    have hsep : (" " : String).toList = [' '] := rfl
    rw [String.toList_intercalate, hsep]
    constructor
    · intro hmem
      rcases mem_intercalate hmem with rfl | ⟨part, hpart, hmem⟩
      · rw [hspace] at hc
        cases hc
      · obtain ⟨text, htext, rfl⟩ := List.mem_map.mp hpart
        exact ⟨text, htext, hmem⟩
    · rintro ⟨part, hpart, hmem⟩
      exact mem_intercalate_of_mem (List.mem_map_of_mem hpart) hmem
  rw [hown', cellText, strip_ne_empty] at hown
  rw [hfull, fullText, strip_ne_empty]
  obtain ⟨c, hmem, hc⟩ := hown
  refine ⟨c, (hjoin _ c hc).mpr ?_, hc⟩
  obtain ⟨part, hpart, hmem⟩ := (hjoin _ c hc).mp hmem
  obtain ⟨paragraph, hparagraph, rfl⟩ := List.mem_map.mp hpart
  exact ⟨_, List.mem_map_of_mem (mem_paragraphsAll hparagraph), hmem⟩

/-- Under distinct names, the records keep their columns iff the cells of their rows are counted. -/
theorem records_keep_iff (hspace : env.isSpace ' ' = true)
    (hblock : block ∈ env.finder.header (wordGrid env table) [])
    (hheader : block.first ≤ block.last)
    (hnodup : (wordTable env index table).headers.Nodup) {record : IntermediateRecord Cell}
    (hrecord : record ∈ (wordTable env index table).records)
    (hrow : (countedRows table)[record.rowNumber - 1]? = some row) :
    (∀ cell ∈ rowCells env row, cell.full ≠ "" →
      ∃ j header, HeaderOf env table block cell.start j ∧
        (wordTable env index table).headers[j]? = some header ∧
          record.fields.get header = some (.text cell.full)) ↔
      ∀ cell ∈ rowCells env row, cell.full ≠ "" → cell.own = cell.full ∧
        ∃ j, HeaderOf env table block cell.start j ∧ j < (wordTable env index table).headers.length ∧
          ((rowCells env row).filter (·.direct))[j]? = some cell := by
  obtain ⟨hbelow, hfields⟩ := fields_of_record hblock hrecord hrow
  have hcell : ∀ {j : Nat} {header : String}, (wordTable env index table).headers[j]? = some header →
      record.fields.get header =
        (((rowCells env row).filter (·.direct))[j]?).map fun cell : PlacedCell =>
        Cell.text cell.own := by
    intro j header hj
    rw [hfields]
    cases hcounted : ((rowCells env row).filter (·.direct))[j]? with
    | none => exact get_rowFields_none hnodup hj (by rw [List.getElem?_map, hcounted]; rfl)
    | some cell =>
      have hget : (((rowCells env row).filter (·.direct)).map fun cell => Cell.text cell.own)[j]? =
          some (.text cell.own) := by
        rw [List.getElem?_map, hcounted]
        rfl
      rw [get_rowFields hnodup hj hget, Cell.stored,
        own_stripped (List.mem_of_mem_filter (List.mem_of_getElem? hcounted))]
      rfl
  constructor
  · intro h
    classical
    have hchoice : ∀ cell : PlacedCell, ∃ j, cell ∈ rowCells env row → cell.full ≠ "" →
        HeaderOf env table block cell.start j ∧ j < (wordTable env index table).headers.length ∧
          ∃ d, ((rowCells env row).filter (·.direct))[j]? = some d ∧ d.own = cell.full := by
      intro cell
      by_cases hsought : cell ∈ rowCells env row ∧ cell.full ≠ ""
      · obtain ⟨j, header, hof, hj, hget⟩ := h cell hsought.1 hsought.2
        rw [hcell hj, Option.map_eq_some_iff] at hget
        obtain ⟨d, hd, hown⟩ := hget
        exact ⟨j, fun _ _ => ⟨hof, (List.getElem?_eq_some_iff.mp hj).1, d, hd, Cell.text.inj hown⟩⟩
      · exact ⟨0, fun hmem hne => absurd ⟨hmem, hne⟩ hsought⟩
    choose place hplace using hchoice
    have hmono : ∀ c ∈ rowCells env row, ∀ c' ∈ rowCells env row, c.full ≠ "" → c'.full ≠ "" →
        c.start < c'.start → place c < place c' := by
      intro c hc c' hc' hne hne' hlt
      -- Both are counted in the last row of the header.
      obtain ⟨header, hlast⟩ : ∃ header, (countedRows table)[block.last]? = some header :=
        ⟨_, List.getElem?_eq_getElem hbelow⟩
      have hcolumn := (hplace c hc hne).1 block.last hheader le_rfl header hlast
      have hcolumn' := (hplace c' hc' hne').1 block.last hheader le_rfl header hlast
      rw [← hcolumn, ← hcolumn'] at hlt
      exact (countedColumn_strictMono header).lt_iff_lt.mp hlt
    have hfull : ∀ d ∈ (rowCells env row).filter (·.direct), d.own ≠ "" → d.full ≠ "" :=
      fun d hd => full_of_own hspace (List.mem_of_mem_filter hd)
    have hfound : ∀ c ∈ rowCells env row, c.full ≠ "" →
        ∃ d, ((rowCells env row).filter (·.direct))[place c]? = some d ∧ d.own ≠ "" := by
      intro c hc hne
      obtain ⟨-, -, d, hd, hown⟩ := hplace c hc hne
      exact ⟨d, hd, hown ▸ hne⟩
    have hwhere := index_of_increasing (place_increasing _ _) List.filter_sublist hfull hfound hmono
    intro cell hmem hne
    obtain ⟨hof, hj, d, hd, hown⟩ := hplace cell hmem hne
    have hself := hwhere cell hmem hne
    obtain rfl := Option.some.inj (hd.symm.trans hself)
    exact ⟨hown, place d, hof, hj, hself⟩
  · intro h cell hmem hne
    obtain ⟨hown, j, hof, hj, hcounted⟩ := h cell hmem hne
    refine ⟨j, _, hof, List.getElem?_eq_getElem hj, ?_⟩
    rw [hcell (List.getElem?_eq_getElem hj), hcounted, Option.map_some, hown]

/-- **A table keeps its columns** iff they are counted. -/
theorem keepsColumns_wordTable (hspace : env.isSpace ' ' = true)
    (hfinder : ∀ rows, ∀ block ∈ env.finder.header rows [], block.first ≤ block.last) :
    KeepsColumns env table (wordTable env index table) ↔ CountsColumns env table := by
  have hnames : ∀ block ∈ env.finder.header (wordGrid env table) [],
      (wordTable env index table).headers = wordHeaders env table block := by
    intro block hblock
    rw [wordTable_eq hblock]
    rfl
  constructor
  · intro h
    refine ⟨fun block hblock => ?_, h.wrapped, fun block hblock i row hrow => ?_,
      fun block hblock number hnumber row hrow => ?_⟩
    · rw [← dedupeHeaders_nodup_iff]
      have hdistinct := h.distinct
      rwa [hnames block hblock] at hdistinct
    · exact (recorded_iff hblock hrow).mp (h.rows block hblock i row hrow)
    · obtain ⟨record, hrecord, rfl⟩ := (mem_recordedRows hblock).mp hnumber
      have hkeep := (records_keep_iff hspace hblock (hfinder _ block hblock) h.distinct hrecord hrow).mp
        (h.records block hblock record hrecord row hrow)
      rwa [hnames block hblock] at hkeep
  · intro h
    have hdistinct : (wordTable env index table).headers.Nodup := by
      cases hheader : env.finder.header (wordGrid env table) [] with
      | none =>
        have hnone : env.finder.header ((wordRows env table).map (·.map .text)) [] = none := hheader
        rw [wordTable, gridToTable, hnone]
        exact List.nodup_nil
      | some block =>
        rw [hnames block hheader]
        exact (dedupeHeaders_nodup_iff _ _).mpr (h.names block hheader)
    refine ⟨hdistinct, h.wrapped, fun block hblock i row hrow => ?_, fun block hblock record hrecord row
      hrow => ?_⟩
    · exact (recorded_iff hblock hrow).mpr (h.rows block hblock i row hrow)
    · have hcells := h.cells block hblock _ ((mem_recordedRows hblock).mpr ⟨record, hrecord, rfl⟩) row
        hrow
      rw [← hnames block hblock] at hcells
      exact (records_keep_iff hspace hblock (hfinder _ block hblock) hdistinct hrecord hrow).mpr hcells

end

/-! ## A cell that spans two columns -/

/-- A cell of a paragraph of one run, and the columns it spans. -/
def runCell (cell : String × String) : XmlElement :=
  .node "w:tc" [] "" [.node "w:tcPr" [] "" [.node "w:gridSpan" [("w:val", cell.1)] "" []],
    .node "w:p" [] "" [.node "w:r" [] "" [.node "w:t" [] cell.2 []]]]

def runRow (cells : List (String × String)) : XmlElement := .node "w:tr" [] "" (cells.map runCell)

def runTable (rows : List (List (String × String))) : XmlElement :=
  .node "w:tbl" [] "" (rows.map runRow)

def firstRowDocx : DocxEnv := ⟨(· = ' '), id, firstRowHeader⟩

theorem firstRow_within : ∀ rows, ∀ block ∈ firstRowDocx.finder.header rows [],
    block.first ≤ block.last := by
  intro rows block hblock
  cases rows with
  | nil => exact absurd hblock (by simp [firstRowDocx, firstRowHeader])
  | cons row rows =>
    obtain rfl := Option.some.inj hblock
    exact le_rfl

def marksRows : XmlElement := runTable [[("1", "Name"), ("1", "Marks")], [("1", "Asha"), ("1", "41")]]

/-- A name that takes the column of the roll number too. -/
def spanRows : XmlElement :=
  runTable [[("1", "Name"), ("1", "Roll No"), ("1", "Marks")], [("2", "Asha"), ("1", "41")]]

theorem marks_cells : rowCells firstRowDocx (runRow [("1", "Asha"), ("1", "41")]) =
    [⟨0, true, "Asha", "Asha"⟩, ⟨1, true, "41", "41"⟩] := by
  decide

theorem marks_counted : CountsColumns firstRowDocx marksRows := by
  have hgrid : wordGrid firstRowDocx marksRows =
      [[.text "Name", .text "Marks"], [.text "Asha", .text "41"]] := by decide
  refine ⟨fun block hblock => ?_, fun row hrow hwrapped => ?_, fun block hblock i row hrow => ?_,
    fun block hblock number hnumber row hrow => ?_⟩
  · rw [hgrid] at hblock ⊢
    obtain rfl := Option.some.inj hblock
    rw [← dedupeHeaders_nodup_iff]
    decide
  · have hdirect : row ∈ marksRows.children.map fun row => (row, true) := hrow
    obtain ⟨row, -, rfl⟩ := List.mem_map.mp hdirect
    cases hwrapped
  · rw [hgrid] at hblock
    obtain rfl := Option.some.inj hblock
    have hone : i = 0 := by
      have hlt := (List.getElem?_eq_some_iff.mp hrow.below).1
      have hcount : (countedRows marksRows).length = 2 := by decide
      dsimp only at hlt
      omega
    subst hone
    obtain rfl : runRow [("1", "Asha"), ("1", "41")] = row := Option.some.inj hrow.below
    rw [marks_cells, wordHeaders, hgrid]
    exact ⟨0, by decide, _, rfl, by decide⟩
  · rw [hgrid] at hblock
    obtain rfl := Option.some.inj hblock
    have hrecorded : recordedRows firstRowDocx marksRows
        ⟨0, 0, [.text "Name", .text "Marks"], by decide⟩ = [2] := by decide
    have hnumber : number ∈ [2] := hrecorded ▸ hnumber
    obtain rfl := List.mem_singleton.mp hnumber
    obtain rfl : runRow [("1", "Asha"), ("1", "41")] = row := Option.some.inj hrow
    have hheader : ∀ j, countedColumn firstRowDocx (runRow [("1", "Name"), ("1", "Marks")]) j = j →
        HeaderOf firstRowDocx marksRows ⟨0, 0, [.text "Name", .text "Marks"], by decide⟩ j j := by
      intro j hj k _ hk header hheader
      obtain rfl := Nat.le_zero.mp hk
      obtain rfl := Option.some.inj hheader
      exact hj
    have hlength : (wordHeaders firstRowDocx marksRows
        ⟨0, 0, [.text "Name", .text "Marks"], by decide⟩).length = 2 := by
      rw [wordHeaders, hgrid]
      decide
    have hfirst := Nat.lt_of_lt_of_eq Nat.zero_lt_two hlength.symm
    have hsecond := Nat.lt_of_lt_of_eq Nat.one_lt_two hlength.symm
    rw [marks_cells]
    intro cell hcell _
    rcases List.mem_pair.mp hcell with rfl | rfl
    · exact ⟨rfl, 0, hheader 0 (by decide), hfirst, rfl⟩
    · exact ⟨rfl, 1, hheader 1 (by decide), hsecond, rfl⟩

end GuruJi.Ingestion
