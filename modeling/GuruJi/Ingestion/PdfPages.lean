import GuruJi.Ingestion.TextLayout
import Mathlib.Data.List.Dedup

/-!
# Pages of a PDF

The text of a page is read, or by OCR where there is little; a page that cannot be is named in a warning.
The tables that are found on it become tables of the result if they have a header and rows.

* `tables_foldl`, `texts_foldl`, `warnings_foldl`: the result has what each page gives;
* `named_eq`: a warning names one page;
* **`keepsPages_iff`**: each page is accounted for, and each table that is found kept, iff there are no
  more pages than are read, and each page that is read has tables with rows only, and one if it has no
  text;
* `page_dropped`: a page of which OCR reads an empty text.
-/

namespace GuruJi.Ingestion

open GuruJi.Lib
open GuruJi.Voice (isSpace)
open GuruJi.Documents (splitLines)

/-! ## Pages -/

/-- `MIN_TEXT_CHARS_PER_PAGE`. -/
def minTextCharsPerPage : Nat := 25

/-- `MAX_PAGES`. -/
def maxPages : Nat := 400

/-- What a library finds on a page: its text, its tables, and its picture unless it cannot be made. -/
structure SourcePage (Image : Type) where
  text : List Char
  tables : List (List (List (Option String)))
  image : Option Image

/-- A page as `extract_pdf_pages` gives it. -/
structure PageEntry (Image : Type) where
  number : Nat
  text : List Char
  tables : List (List (List (Option String)))
  image : Option Image

/-- `OcrResult`. -/
structure OcrResult where
  text : List Char
  tables : List (List (List String))

/-- The libraries, in the order of preference. -/
inductive PdfEngine where
  | pymupdf
  | pdfplumber
  | pypdf
  deriving DecidableEq

def shortText (text : List Char) : Bool := (trim isSpace text).length < minTextCharsPerPage

section
variable {Image : Type}

/-- The entry of a page: `pypdf` gives its text only. -/
def PdfEngine.entry (engine : PdfEngine) (page : SourcePage Image × Nat) : PageEntry Image :=
  match engine with
  | .pypdf => ⟨page.2, page.1.text, [], none⟩
  | .pymupdf | .pdfplumber =>
    ⟨page.2, page.1.text, page.1.tables, if shortText page.1.text then page.1.image else none⟩

def PdfEngine.pages (engine : PdfEngine) (document : List (SourcePage Image)) : List (PageEntry Image) :=
  ((document.take maxPages).zipIdx 1).map engine.entry

end

/-- What a PDF is read with: the libraries, each with the document it reads unless it is not installed or
raises, OCR with the message of `OcrUnavailable`, and `_KEY_VALUE.match`. -/
structure PdfEnv (Image : Type) where
  read : PdfEngine → List UInt8 → Option (List (SourcePage Image))
  recognize : Image → Except String OcrResult
  finder : HeaderFinder
  keyValue : List Char → Option (List Char × List Char)
  lower : String → String

/-- A table of the result, with its page. -/
structure PageTable where
  name : String
  page : Option Nat
  ocr : Bool
  table : ParsedTable Cell

/-- A text section. -/
structure PageText where
  locator : String
  text : List Char
  page : Nat
  ocr : Bool

/-- `ParseResult`. -/
structure PdfResult where
  tables : List PageTable
  texts : List PageText
  warnings : List String
  pageCount : Nat
  engine : PdfEngine
  ocrPages : Nat
  textPages : Nat

/-- What is read of a page. -/
structure PageRead where
  text : List Char
  ocr : Bool
  tables : List (List (List String))

section
variable {Image : Type} (env : PdfEnv Image)

/-- The library that reads a file, and the document it reads. -/
def readDocument (content : List UInt8) : Option (PdfEngine × List (SourcePage Image)) :=
  [PdfEngine.pymupdf, .pdfplumber, .pypdf].findSome? fun engine =>
    (env.read engine content).map fun document => (engine, document)

/-- `extract_pdf_pages`. -/
def extractPdfPages (content : List UInt8) : Except ParserError (List (PageEntry Image) × PdfEngine) :=
  if content.take 4 ≠ [0x25, 0x50, 0x44, 0x46] then .error ⟨"file is not a PDF"⟩
  else match readDocument env content with
    | some (engine, document) => .ok (engine.pages document, engine)
    | none => .error ⟨"PDF parsing needs one of PyMuPDF, pdfplumber, or pypdf installed " ++
        "(see the 'ingest' extra)"⟩

/-- The text of a page, or the warning that names it. -/
def readEntry (entry : PageEntry Image) : Except String PageRead :=
  if shortText entry.text then
    match entry.image with
    | none => .error ("page_" ++ Nat.repr entry.number ++ "_needs_ocr")
    | some image => match env.recognize image with
      | .error message => .error ("page_" ++ Nat.repr entry.number ++ "_needs_ocr:" ++ message)
      | .ok result => .ok ⟨result.text, true, result.tables⟩
  else .ok ⟨entry.text, false, []⟩

def gridOfPage (number : Nat) (rows : List (List Cell)) : ParsedTable Cell :=
  gridToTable isSpace env.finder ⟨none, some number, none⟩ rows []

/-- The rows of a table that is found, without the empty ones. -/
def foundRows (grid : List (List (Option String))) : List (List Cell) :=
  (grid.filter (· ≠ [])).map fun row => row.map fun cell => .text (cell.getD "")

def ocrRows (grid : List (List String)) : List (List Cell) := grid.map fun row => row.map .text

def tableName (number index : Nat) : String :=
  "page_" ++ Nat.repr number ++ "_table_" ++ Nat.repr index

def ocrTables (number : Nat) (read : PageRead) : List PageTable :=
  (read.tables.zipIdx 1).filterMap fun grid =>
    let table := gridOfPage env number (ocrRows grid.1)
    if table.headers ≠ [] then some ⟨tableName number grid.2, some number, true, table⟩ else none

/-- The tables of a page that have a header and rows. -/
def foundTables (entry : PageEntry Image) : List PageTable :=
  (entry.tables.zipIdx 1).filterMap fun grid =>
    let table := gridOfPage env entry.number (foundRows grid.1)
    if table.headers ≠ [] ∧ table.records ≠ [] then
      some ⟨tableName entry.number grid.2, some entry.number, false, table⟩
    else none

/-- The table that the text of a page looks like. -/
def layoutTable (number : Nat) (read : PageRead) : List PageTable :=
  ((textToTable env.finder (some number) read.text).map fun table : ParsedTable Cell =>
    ⟨"page_" ++ Nat.repr number ++ "_layout", some number, read.ocr,
      { table with warnings := table.warnings ++ ["table_inferred_from_text_layout"] }⟩).toList

/-- The text section of a page, unless it is blank. -/
def textSection (number : Nat) (read : PageRead) : List PageText :=
  if trim isSpace read.text ≠ [] then
    [⟨"page=" ++ Nat.repr number, read.text, number, read.ocr⟩]
  else []

def readPage (s : PdfResult) (entry : PageEntry Image) : PdfResult :=
  match readEntry env entry with
  | .error warning => { s with warnings := s.warnings ++ [warning] }
  | .ok read =>
    let tables := s.tables ++ ocrTables env entry.number read ++ foundTables env entry
    { s with
      tables := if tables.any (·.page = some entry.number) then tables
        else tables ++ layoutTable env entry.number read
      texts := s.texts ++ textSection entry.number read
      ocrPages := if read.ocr then s.ocrPages + 1 else s.ocrPages
      textPages := if read.ocr then s.textPages else s.textPages + 1 }

/-- `key_value_fields`. -/
def keyValueFields (text : List Char) : Table String Cell :=
  (splitLines [] text).foldl (fun fields line =>
    match env.keyValue line with
    | none => fields
    | some (label, value) =>
      let key := String.intercalate " " ((words isSpace label).map String.ofList)
      let value := String.ofList (trim isSpace value)
      if key ≠ "" ∧ value ≠ "" ∧ env.lower key ∉ fields.map Prod.fst then
        fields.assign key (.text value)
      else fields) []

/-- `_form_records`. -/
def formRecords (texts : List PageText) : List (IntermediateRecord Cell) :=
  texts.foldl (fun records text =>
    let fields := keyValueFields env text.text
    if 3 ≤ fields.length then
      records ++ [⟨text.locator, if text.page ≠ 0 then text.page else records.length + 1, fields⟩]
    else records) []

def formTable (records : List (IntermediateRecord Cell)) : PageTable :=
  ⟨"form_fields", none, false,
    { headers := ((records.flatMap fun record => record.fields.map Prod.fst).dedup).mergeSort (· ≤ ·)
      records
      warnings := ["fields_extracted_from_form_layout"]
      title := "" }⟩

/-- `parse_pdf`. -/
def parsePdf (content : List UInt8) : Except ParserError PdfResult :=
  (extractPdfPages env content).map fun (pages, engine) =>
    let result := pages.foldl (readPage env) ⟨[], [], [], pages.length, engine, 0, 0⟩
    let records := formRecords env result.texts
    if result.tables = [] ∧ result.texts ≠ [] ∧ records ≠ [] then
      { result with tables := [formTable records] }
    else result

/-! ## What is kept -/

def Named (result : PdfResult) (number : Nat) : Prop :=
  ∃ warning ∈ result.warnings, startsWith ("page_" ++ Nat.repr number ++ "_") warning = true

/-- A page has its text in a text section, or rows in a table, or is named in a warning. -/
def PageAccounted (result : PdfResult) (entry : PageEntry Image) : Prop :=
  (∃ read, readEntry env entry = .ok read ∧
    ∃ text ∈ result.texts, text.page = entry.number ∧ text.text = read.text) ∨
    (∃ table ∈ result.tables, table.page = some entry.number ∧ table.table.records ≠ []) ∨
      Named result entry.number

/-- Each page of a document is accounted for, and each table that is found on one is in the result,
unless a warning names the page. -/
structure KeepsPages (engine : PdfEngine) (document : List (SourcePage Image)) (result : PdfResult) :
    Prop where
  pages : ∀ page ∈ document.zipIdx 1, PageAccounted env result (engine.entry page)
  tables : ∀ entry ∈ engine.pages document, ∀ j grid, entry.tables[j]? = some grid →
    (∃ table ∈ result.tables, table.name = tableName entry.number (j + 1) ∧ table.ocr = false ∧
      table.page = some entry.number ∧ table.table = gridOfPage env entry.number (foundRows grid)) ∨
      Named result entry.number

def Tabular (number : Nat) (rows : List (List Cell)) : Prop :=
  (gridOfPage env number rows).headers ≠ [] ∧ (gridOfPage env number rows).records ≠ []

/-- The tables that are found on a page that is read have rows, and without a text it has such a table,
or OCR reads one. -/
def ReadsWhole (entry : PageEntry Image) : Prop :=
  ∀ read, readEntry env entry = .ok read →
    (∀ grid ∈ entry.tables, Tabular env entry.number (foundRows grid)) ∧
      (trim isSpace read.text = [] → entry.tables ≠ [] ∨
        ∃ grid ∈ read.tables, Tabular env entry.number (ocrRows grid))

end

/-! ## What each page gives -/

section
variable {Image : Type} {env : PdfEnv Image} {entry : PageEntry Image} {read : PageRead}

variable (env) in
def pageTables (entry : PageEntry Image) : List PageTable :=
  match readEntry env entry with
  | .error _ => []
  | .ok read =>
    let tables := ocrTables env entry.number read ++ foundTables env entry
    if tables.any (·.page = some entry.number) then tables
    else tables ++ layoutTable env entry.number read

variable (env) in
def pageTexts (entry : PageEntry Image) : List PageText :=
  match readEntry env entry with
  | .error _ => []
  | .ok read => textSection entry.number read

variable (env) in
def pageWarnings (entry : PageEntry Image) : List String :=
  match readEntry env entry with
  | .error warning => [warning]
  | .ok _ => []

theorem mem_ocrTables {table : PageTable} : table ∈ ocrTables env entry.number read ↔
    ∃ j grid, read.tables[j]? = some grid ∧
      (gridOfPage env entry.number (ocrRows grid)).headers ≠ [] ∧ table =
        ⟨tableName entry.number (j + 1), some entry.number, true,
          gridOfPage env entry.number (ocrRows grid)⟩ := by
  rw [ocrTables, List.mem_filterMap]
  constructor
  · rintro ⟨grid, hgrid, htable⟩
    obtain ⟨hle, hget⟩ := List.mem_zipIdx_iff_le_and_getElem?_sub.mp hgrid
    dsimp only at htable
    split_ifs at htable with hheaders
    refine ⟨grid.2 - 1, grid.1, hget, hheaders, ?_⟩
    rw [Nat.sub_add_cancel hle]
    exact (Option.some.inj htable).symm
  · rintro ⟨j, grid, hgrid, hheaders, rfl⟩
    refine ⟨(grid, j + 1), ?_, if_pos hheaders⟩
    exact List.mem_zipIdx_iff_le_and_getElem?_sub.mpr ⟨Nat.succ_le_succ (Nat.zero_le j), hgrid⟩

theorem mem_foundTables {table : PageTable} : table ∈ foundTables env entry ↔
    ∃ j grid, entry.tables[j]? = some grid ∧ Tabular env entry.number (foundRows grid) ∧ table =
      ⟨tableName entry.number (j + 1), some entry.number, false,
        gridOfPage env entry.number (foundRows grid)⟩ := by
  rw [foundTables, List.mem_filterMap]
  constructor
  · rintro ⟨grid, hgrid, htable⟩
    obtain ⟨hle, hget⟩ := List.mem_zipIdx_iff_le_and_getElem?_sub.mp hgrid
    dsimp only at htable
    split_ifs at htable with htabular
    refine ⟨grid.2 - 1, grid.1, hget, htabular, ?_⟩
    rw [Nat.sub_add_cancel hle]
    exact (Option.some.inj htable).symm
  · rintro ⟨j, grid, hgrid, htabular, rfl⟩
    refine ⟨(grid, j + 1), ?_, if_pos htabular⟩
    exact List.mem_zipIdx_iff_le_and_getElem?_sub.mpr ⟨Nat.succ_le_succ (Nat.zero_le j), hgrid⟩

theorem textToTable_rows {finder : HeaderFinder} {page : Option Nat} {text : List Char}
    {parsed : ParsedTable Cell} (h : textToTable finder page text = some parsed) :
    parsed.headers ≠ [] ∧ parsed.records ≠ [] := by
  rw [textToTable] at h
  dsimp only at h
  split_ifs at h with hlooks hrows
  rw [← Option.some.inj h]
  exact hrows

theorem mem_layoutTable {table : PageTable} (h : table ∈ layoutTable env entry.number read) :
    table.page = some entry.number ∧ table.ocr = read.ocr ∧ table.table.headers ≠ [] ∧
      table.table.records ≠ [] := by
  rw [layoutTable, Option.mem_toList, Option.map_eq_some_iff] at h
  obtain ⟨parsed, hparsed, rfl⟩ := h
  have hrows := textToTable_rows hparsed
  exact ⟨rfl, rfl, hrows⟩

theorem mem_splitLines {text before line : List Char} (h : line ∈ splitLines before text) :
    ∀ c ∈ line, c ∈ before ∨ c ∈ text := by
  induction hn : text.length using Nat.strong_induction_on generalizing before text with
  | h n ih =>
    unfold splitLines at h
    split at h
    · split_ifs at h
      · exact absurd h List.not_mem_nil
      · rw [List.mem_singleton.mp h]
        exact fun c hc => Or.inl hc
    · rename_i text
      rcases List.mem_cons.mp h with rfl | h
      · exact fun c hc => Or.inl hc
      · intro c hc
        rcases ih text.length (by rw [← hn, List.length_cons, List.length_cons]; omega) h rfl c hc with
          hc | hc
        · exact absurd hc List.not_mem_nil
        · exact Or.inr (List.mem_cons_of_mem _ (List.mem_cons_of_mem _ hc))
    · rename_i d text _
      have hlt : text.length < n := by
        rw [← hn, List.length_cons]
        omega
      split_ifs at h
      · rcases List.mem_cons.mp h with rfl | h
        · exact fun c hc => Or.inl hc
        · intro c hc
          rcases ih text.length hlt h rfl c hc with hc | hc
          · exact absurd hc List.not_mem_nil
          · exact Or.inr (List.mem_cons_of_mem _ hc)
      · intro c hc
        rcases ih text.length hlt h rfl c hc with hc | hc
        · rcases List.mem_append.mp hc with hc | hc
          · exact Or.inl hc
          · exact Or.inr (List.mem_cons.mpr (Or.inl (List.mem_singleton.mp hc)))
        · exact Or.inr (List.mem_cons_of_mem _ hc)

theorem layoutTable_blank (h : trim isSpace read.text = []) :
    layoutTable env entry.number read = [] := by
  have hblank : ∀ c ∈ read.text, isSpace c = true := by
    intro c hc
    by_contra hink
    have hmem := mem_trim hc (Bool.eq_false_iff.mpr hink)
    rw [h] at hmem
    cases hmem
  have hrows : textToRows read.text = [] := by
    rw [textToRows, List.map_eq_nil_iff, List.filter_eq_nil_iff]
    intro line hline
    obtain ⟨whole, hwhole, rfl⟩ := List.mem_map.mp hline
    have hspace : ∀ c ∈ whole, isSpace c = true := fun c hc =>
      hblank c ((mem_splitLines hwhole c hc).resolve_left List.not_mem_nil)
    rw [trim_blank hspace]
    decide
  rw [layoutTable, textToTable]
  dsimp only
  rw [hrows]
  rfl

theorem page_of_mem {table : PageTable} (h : table ∈ pageTables env entry) :
    table.page = some entry.number := by
  rw [pageTables] at h
  cases hread : readEntry env entry with
  | error warning =>
    rw [hread] at h
    cases h
  | ok read =>
    rw [hread] at h
    have hmem : table ∈ (ocrTables env entry.number read ++ foundTables env entry) ++
        layoutTable env entry.number read := by
      dsimp only at h
      split_ifs at h
      · exact List.mem_append_left _ h
      · exact h
    rcases List.mem_append.mp hmem with hmem | hmem
    · rcases List.mem_append.mp hmem with hmem | hmem
      · obtain ⟨-, -, -, -, rfl⟩ := mem_ocrTables.mp hmem
        rfl
      · obtain ⟨-, -, -, -, rfl⟩ := mem_foundTables.mp hmem
        rfl
    · exact (mem_layoutTable hmem).1

theorem readPage_eq {s : PdfResult} (h : ∀ table ∈ s.tables, table.page ≠ some entry.number) :
    (readPage env s entry).tables = s.tables ++ pageTables env entry ∧
      (readPage env s entry).texts = s.texts ++ pageTexts env entry ∧
      (readPage env s entry).warnings = s.warnings ++ pageWarnings env entry := by
  rw [readPage, pageTables, pageTexts, pageWarnings]
  cases hread : readEntry env entry with
  | error warning => exact ⟨(List.append_nil _).symm, (List.append_nil _).symm, rfl⟩
  | ok read =>
    refine ⟨?_, rfl, (List.append_nil _).symm⟩
    have hnone : s.tables.any (·.page = some entry.number) = false := by
      rw [List.any_eq_false]
      exact fun table htable => by simpa using h table htable
    dsimp only
    rw [List.append_assoc, List.any_append, hnone, Bool.false_or]
    split_ifs
    · rfl
    · rw [List.append_assoc]

theorem foldl_readPage {entries : List (PageEntry Image)} (hnumbers : (entries.map (·.number)).Nodup)
    {s : PdfResult} (hs : ∀ table ∈ s.tables, ∀ entry ∈ entries, table.page ≠ some entry.number) :
    (entries.foldl (readPage env) s).tables = s.tables ++ entries.flatMap (pageTables env) ∧
      (entries.foldl (readPage env) s).texts = s.texts ++ entries.flatMap (pageTexts env) ∧
      (entries.foldl (readPage env) s).warnings = s.warnings ++ entries.flatMap (pageWarnings env) := by
  induction entries generalizing s with
  | nil => exact ⟨(List.append_nil _).symm, (List.append_nil _).symm, (List.append_nil _).symm⟩
  | cons entry entries ih =>
    obtain ⟨hnew, hnumbers⟩ := List.nodup_cons.mp hnumbers
    obtain ⟨htables, htexts, hwarnings⟩ := @readPage_eq _ env entry s fun table htable =>
      hs table htable entry List.mem_cons_self
    have hs' : ∀ table ∈ (readPage env s entry).tables, ∀ next ∈ entries,
        table.page ≠ some next.number := by
      intro table htable next hnext
      rw [htables, List.mem_append] at htable
      rcases htable with htable | htable
      · exact hs table htable next (List.mem_cons_of_mem _ hnext)
      · rw [page_of_mem htable]
        exact fun heq => hnew (List.mem_map.mpr ⟨next, hnext, (Option.some.inj heq).symm⟩)
    obtain ⟨htables', htexts', hwarnings'⟩ := ih hnumbers hs'
    rw [List.foldl_cons, htables', htexts', hwarnings', htables, htexts, hwarnings, List.append_assoc,
      List.append_assoc, List.append_assoc]
    exact ⟨rfl, rfl, rfl⟩

theorem warning_eq {warning : String} (h : readEntry env entry = .error warning) :
    ∃ rest, warning.toList = "page_".toList ++ ((Nat.repr entry.number).toList ++ '_' :: rest) := by
  rw [readEntry] at h
  split_ifs at h
  cases himage : entry.image with
  | none =>
    rw [himage] at h
    refine ⟨"needs_ocr".toList, ?_⟩
    rw [← Except.error.inj h, String.toList_append, String.toList_append, List.append_assoc]
    rfl
  | some image =>
    rw [himage] at h
    dsimp only at h
    cases hocr : env.recognize image with
    | ok result =>
      rw [hocr] at h
      cases h
    | error message =>
      rw [hocr] at h
      refine ⟨"needs_ocr:".toList ++ message.toList, ?_⟩
      rw [← Except.error.inj h, String.toList_append, String.toList_append, String.toList_append,
        List.append_assoc, List.append_assoc]
      rfl

/-- A warning names one page. -/
theorem named_eq {warning : String} (h : readEntry env entry = .error warning) (number : Nat) :
    startsWith ("page_" ++ Nat.repr number ++ "_") warning = true ↔ number = entry.number := by
  have hdigits : ∀ n : Nat, '_' ∉ (Nat.repr n).toList := by
    intro n hmem
    exact absurd (isDigit_of_mem_repr hmem) (by decide)
  obtain ⟨rest, heq⟩ := warning_eq h
  rw [startsWith, List.isPrefixOf_iff_prefix, heq, String.toList_append, String.toList_append]
  constructor
  · rintro ⟨more, hmore⟩
    rw [List.append_assoc, List.append_assoc] at hmore
    have hnumber := List.append_cancel_left hmore
    have hsplit : (Nat.repr number).toList ++ '_' :: more =
        (Nat.repr entry.number).toList ++ '_' :: rest := hnumber
    exact repr_injective (String.toList_inj.mp (append_sep_inj (hdigits _) (hdigits _) hsplit).1)
  · rintro rfl
    refine ⟨rest, ?_⟩
    rw [List.append_assoc, List.append_assoc]
    rfl

/-! ## Pages of a document -/

variable {engine : PdfEngine} {document : List (SourcePage Image)} {result : PdfResult}
  {content : List UInt8}

theorem number_entry (page : SourcePage Image × Nat) : (engine.entry page).number = page.2 := by
  cases engine with
  | pymupdf => rfl
  | pdfplumber => rfl
  | pypdf => rfl

theorem numbers_pages : (engine.pages document).map (·.number) =
    List.range' 1 (document.take maxPages).length := by
  rw [PdfEngine.pages, List.map_map, ← List.zipIdx_map_snd]
  exact List.map_congr_left fun page _ => number_entry page

theorem numbers_nodup : ((engine.pages document).map (·.number)).Nodup := by
  rw [numbers_pages]
  exact List.nodup_range'

/-- The result has what its pages give, and nothing else with the number of a page. -/
theorem parsePdf_ok (hresult : parsePdf env content = .ok result)
    (hdocument : readDocument env content = some (engine, document)) :
    result.texts = (engine.pages document).flatMap (pageTexts env) ∧
      result.warnings = (engine.pages document).flatMap (pageWarnings env) ∧
      ∀ table number, table.page = some number →
        (table ∈ result.tables ↔ table ∈ (engine.pages document).flatMap (pageTables env)) := by
  obtain ⟨htables, htexts, hwarnings⟩ := @foldl_readPage _ env (engine.pages document) numbers_nodup
    ⟨[], [], [], (engine.pages document).length, engine, 0, 0⟩
    (fun table htable => absurd htable List.not_mem_nil)
  rw [List.nil_append] at htables htexts hwarnings
  rw [parsePdf, extractPdfPages] at hresult
  split_ifs at hresult
  · cases hresult
  rw [hdocument] at hresult
  have heq := Except.ok.inj hresult
  dsimp only at heq
  split_ifs at heq with hform
  · subst heq
    refine ⟨htexts, hwarnings, fun table number hpage => ?_⟩
    rw [← htables, hform.1]
    refine iff_of_false (fun hmem => ?_) List.not_mem_nil
    rw [List.mem_singleton.mp hmem] at hpage
    cases hpage
  · subst heq
    exact ⟨htexts, hwarnings, fun table number _ => by rw [htables]⟩

theorem parsePdf_some (hpdf : content.take 4 = [0x25, 0x50, 0x44, 0x46])
    (hdocument : readDocument env content = some (engine, document)) :
    ∃ result, parsePdf env content = .ok result := by
  have hpages : extractPdfPages env content = .ok (engine.pages document, engine) := by
    rw [extractPdfPages, if_neg (not_not.mpr hpdf), hdocument]
  rw [parsePdf, hpages]
  exact ⟨_, rfl⟩

section
variable (hresult : parsePdf env content = .ok result)
  (hdocument : readDocument env content = some (engine, document))
include hresult hdocument

theorem entry_of_table {table : PageTable} {number : Nat} (hpage : table.page = some number)
    (htable : table ∈ result.tables) :
    ∃ entry ∈ engine.pages document, entry.number = number ∧ table ∈ pageTables env entry := by
  rw [(parsePdf_ok hresult hdocument).2.2 table number hpage] at htable
  obtain ⟨entry, hentry, hmem⟩ := List.mem_flatMap.mp htable
  exact ⟨entry, hentry, Option.some.inj ((page_of_mem hmem).symm.trans hpage), hmem⟩

theorem entry_of_text {text : PageText} (htext : text ∈ result.texts) :
    ∃ entry ∈ engine.pages document, entry.number = text.page ∧ text ∈ pageTexts env entry := by
  rw [(parsePdf_ok hresult hdocument).1] at htext
  obtain ⟨entry, hentry, hmem⟩ := List.mem_flatMap.mp htext
  refine ⟨entry, hentry, ?_, hmem⟩
  rw [pageTexts] at hmem
  cases hread : readEntry env entry with
  | error warning =>
    rw [hread] at hmem
    cases hmem
  | ok read =>
    rw [hread] at hmem
    dsimp only at hmem
    rw [textSection] at hmem
    split_ifs at hmem
    · rw [List.mem_singleton.mp hmem]
    · cases hmem

theorem table_iff (hentry : entry ∈ engine.pages document) {table : PageTable}
    (hpage : table.page = some entry.number) : table ∈ result.tables ↔ table ∈ pageTables env entry := by
  constructor
  · intro htable
    obtain ⟨other, hother, hnumber, hmem⟩ := entry_of_table hresult hdocument hpage htable
    obtain rfl := List.inj_on_of_nodup_map numbers_nodup hother hentry hnumber
    exact hmem
  · intro hmem
    rw [(parsePdf_ok hresult hdocument).2.2 table entry.number hpage]
    exact List.mem_flatMap.mpr ⟨entry, hentry, hmem⟩

theorem text_iff (hentry : entry ∈ engine.pages document) {text : PageText}
    (hpage : text.page = entry.number) : text ∈ result.texts ↔ text ∈ pageTexts env entry := by
  constructor
  · intro htext
    obtain ⟨other, hother, hnumber, hmem⟩ := entry_of_text hresult hdocument htext
    obtain rfl := List.inj_on_of_nodup_map numbers_nodup hother hentry (hnumber.trans hpage)
    exact hmem
  · intro hmem
    rw [(parsePdf_ok hresult hdocument).1]
    exact List.mem_flatMap.mpr ⟨entry, hentry, hmem⟩

theorem named_iff (number : Nat) : Named result number ↔
    ∃ entry ∈ engine.pages document, entry.number = number ∧
      ∃ warning, readEntry env entry = .error warning := by
  rw [Named, (parsePdf_ok hresult hdocument).2.1]
  constructor
  · rintro ⟨warning, hwarning, hnamed⟩
    obtain ⟨entry, hentry, hwarning⟩ := List.mem_flatMap.mp hwarning
    rw [pageWarnings] at hwarning
    cases hread : readEntry env entry with
    | ok read =>
      rw [hread] at hwarning
      cases hwarning
    | error warned =>
      rw [hread] at hwarning
      obtain rfl := List.mem_singleton.mp hwarning
      exact ⟨entry, hentry, ((named_eq hread number).mp hnamed).symm, warning, hread⟩
  · rintro ⟨entry, hentry, rfl, warning, hread⟩
    refine ⟨warning, List.mem_flatMap.mpr ⟨entry, hentry, ?_⟩, (named_eq hread _).mpr rfl⟩
    rw [pageWarnings, hread]
    exact List.mem_singleton_self _

theorem number_of_accounted (h : PageAccounted env result entry) :
    ∃ other ∈ engine.pages document, other.number = entry.number := by
  rcases h with ⟨_, _, text, htext, hpage, _⟩ | ⟨table, htable, hpage, _⟩ | hnamed
  · obtain ⟨other, hother, hnumber, -⟩ := entry_of_text hresult hdocument htext
    exact ⟨other, hother, hnumber.trans hpage⟩
  · obtain ⟨other, hother, hnumber, -⟩ := entry_of_table hresult hdocument hpage htable
    exact ⟨other, hother, hnumber⟩
  · obtain ⟨other, hother, hnumber, -⟩ := (named_iff hresult hdocument _).mp hnamed
    exact ⟨other, hother, hnumber⟩

theorem tables_kept_iff (hentry : entry ∈ engine.pages document)
    (hread : readEntry env entry = .ok read) : (∀ j grid, entry.tables[j]? = some grid →
      (∃ table ∈ result.tables, table.name = tableName entry.number (j + 1) ∧ table.ocr = false ∧
        table.page = some entry.number ∧ table.table = gridOfPage env entry.number (foundRows grid)) ∨
        Named result entry.number) ↔
      ∀ grid ∈ entry.tables, Tabular env entry.number (foundRows grid) := by
  have hunnamed : ¬Named result entry.number := by
    rw [named_iff hresult hdocument]
    rintro ⟨other, hother, hnumber, warning, hwarned⟩
    obtain rfl := List.inj_on_of_nodup_map numbers_nodup hother hentry hnumber
    rw [hread] at hwarned
    cases hwarned
  constructor
  · intro h grid hgrid
    obtain ⟨j, hj⟩ := List.mem_iff_getElem?.mp hgrid
    obtain ⟨table, htable, -, hocr, hpage, heq⟩ := (h j grid hj).resolve_right hunnamed
    rw [table_iff hresult hdocument hentry hpage, pageTables, hread] at htable
    have hmem : table ∈ (ocrTables env entry.number read ++ foundTables env entry) ++
        layoutTable env entry.number read := by
      dsimp only at htable
      split_ifs at htable
      · exact List.mem_append_left _ htable
      · exact htable
    rw [Tabular, ← heq]
    rcases List.mem_append.mp hmem with hmem | hmem
    · rcases List.mem_append.mp hmem with hmem | hmem
      · obtain ⟨_, _, _, _, htable⟩ := mem_ocrTables.mp hmem
        rw [htable] at hocr
        cases hocr
      · obtain ⟨_, _, _, htabular, htable⟩ := mem_foundTables.mp hmem
        rw [htable]
        exact htabular
    · exact (mem_layoutTable hmem).2.2
  · intro h j grid hj
    have hmem := mem_foundTables.mpr ⟨j, grid, hj, h grid (List.mem_of_getElem? hj), rfl⟩
    refine Or.inl ⟨⟨tableName entry.number (j + 1), some entry.number, false,
      gridOfPage env entry.number (foundRows grid)⟩, ?_, rfl, rfl, rfl, rfl⟩
    rw [table_iff hresult hdocument hentry rfl, pageTables, hread]
    dsimp only
    split_ifs
    · exact List.mem_append_right _ hmem
    · exact List.mem_append_left _ (List.mem_append_right _ hmem)

theorem accounted_iff (hentry : entry ∈ engine.pages document) (hread : readEntry env entry = .ok read) :
    PageAccounted env result entry ↔ trim isSpace read.text ≠ [] ∨
      (∃ grid ∈ entry.tables, Tabular env entry.number (foundRows grid)) ∨
        ∃ grid ∈ read.tables, Tabular env entry.number (ocrRows grid) := by
  constructor
  · intro h
    by_contra hnone
    rw [not_or, not_or, not_not] at hnone
    obtain ⟨hblank, hfound, hocr⟩ := hnone
    rcases h with ⟨_, _, text, htext, hpage, _⟩ | ⟨table, htable, hpage, hrecords⟩ | hnamed
    · rw [text_iff hresult hdocument hentry hpage, pageTexts, hread] at htext
      dsimp only at htext
      rw [textSection, if_neg (not_not.mpr hblank)] at htext
      cases htext
    · rw [table_iff hresult hdocument hentry hpage, pageTables, hread] at htable
      dsimp only at htable
      rw [layoutTable_blank hblank, List.append_nil, ite_self] at htable
      rcases List.mem_append.mp htable with hmem | hmem
      · obtain ⟨_, grid, hgrid, hheaders, heq⟩ := mem_ocrTables.mp hmem
        rw [heq] at hrecords
        exact hocr ⟨grid, List.mem_of_getElem? hgrid, hheaders, hrecords⟩
      · obtain ⟨_, grid, hgrid, htabular, _⟩ := mem_foundTables.mp hmem
        exact hfound ⟨grid, List.mem_of_getElem? hgrid, htabular⟩
    · obtain ⟨other, hother, hnumber, warning, hwarned⟩ :=
        (named_iff hresult hdocument _).mp hnamed
      obtain rfl := List.inj_on_of_nodup_map numbers_nodup hother hentry hnumber
      rw [hread] at hwarned
      cases hwarned
  · have hkept : ∀ table ∈ ocrTables env entry.number read ++ foundTables env entry,
        table ∈ pageTables env entry := by
      intro table hmem
      rw [pageTables, hread]
      dsimp only
      split_ifs
      · exact hmem
      · exact List.mem_append_left _ hmem
    rintro (htext | ⟨grid, hgrid, htabular⟩ | ⟨grid, hgrid, htabular⟩)
    · refine Or.inl ⟨read, hread, ⟨"page=" ++ Nat.repr entry.number, read.text, entry.number, read.ocr⟩,
        ?_, rfl, rfl⟩
      rw [text_iff hresult hdocument hentry rfl, pageTexts, hread]
      dsimp only
      rw [textSection, if_pos htext]
      exact List.mem_singleton_self _
    · obtain ⟨j, hj⟩ := List.mem_iff_getElem?.mp hgrid
      have hmem := mem_foundTables.mpr ⟨j, grid, hj, htabular, rfl⟩
      exact Or.inr (Or.inl ⟨_, (table_iff hresult hdocument hentry rfl).mpr
        (hkept _ (List.mem_append_right _ hmem)), rfl, htabular.2⟩)
    · obtain ⟨j, hj⟩ := List.mem_iff_getElem?.mp hgrid
      have hmem := mem_ocrTables.mpr ⟨j, grid, hj, htabular.1, rfl⟩
      exact Or.inr (Or.inl ⟨_, (table_iff hresult hdocument hentry rfl).mpr
        (hkept _ (List.mem_append_left _ hmem)), rfl, htabular.2⟩)

end

/-- **Each page is accounted for**, and each table that is found is kept or its page named, iff the
document has no more pages than are read, and each page that is read is read whole. -/
theorem keepsPages_iff (hresult : parsePdf env content = .ok result)
    (hdocument : readDocument env content = some (engine, document)) :
    KeepsPages env engine document result ↔
      document.length ≤ maxPages ∧ ∀ entry ∈ engine.pages document, ReadsWhole env entry := by
  constructor
  · intro h
    have hlength : document.length ≤ maxPages := by
      by_contra hlong
      have hlt : maxPages < document.length := Nat.lt_of_not_le hlong
      have hmem : (document[maxPages], maxPages + 1) ∈ document.zipIdx 1 :=
        List.mem_zipIdx_iff_le_and_getElem?_sub.mpr
          ⟨Nat.succ_le_succ (Nat.zero_le _), List.getElem?_eq_getElem hlt⟩
      obtain ⟨other, hother, hnumber⟩ := number_of_accounted hresult hdocument (h.pages _ hmem)
      have hrange : other.number ∈ (engine.pages document).map (·.number) := List.mem_map_of_mem hother
      rw [numbers_pages, hnumber, number_entry, List.mem_range'_1, List.length_take] at hrange
      omega
    refine ⟨hlength, fun entry hentry read hread => ?_⟩
    have htables := (tables_kept_iff hresult hdocument hentry hread).mp fun j grid =>
      h.tables entry hentry j grid
    refine ⟨htables, fun hblank => ?_⟩
    have haccounted : PageAccounted env result entry := by
      rw [PdfEngine.pages, List.take_of_length_le hlength] at hentry
      obtain ⟨page, hpage, rfl⟩ := List.mem_map.mp hentry
      exact h.pages page hpage
    rcases ((accounted_iff hresult hdocument hentry hread).mp haccounted).resolve_left
      (not_not.mpr hblank) with ⟨grid, hgrid, -⟩ | hocr
    · exact Or.inl (List.ne_nil_of_mem hgrid)
    · exact Or.inr hocr
  · rintro ⟨hlength, h⟩
    have hnamed : ∀ entry ∈ engine.pages document, ∀ warning, readEntry env entry = .error warning →
        Named result entry.number := fun entry hentry warning hread =>
      (named_iff hresult hdocument _).mpr ⟨entry, hentry, rfl, warning, hread⟩
    refine ⟨fun page hpage => ?_, fun entry hentry j grid hgrid => ?_⟩
    · have hentry : engine.entry page ∈ engine.pages document := by
        rw [PdfEngine.pages, List.take_of_length_le hlength]
        exact List.mem_map_of_mem hpage
      cases hread : readEntry env (engine.entry page) with
      | error warning => exact Or.inr (Or.inr (hnamed _ hentry warning hread))
      | ok read =>
        obtain ⟨htables, htext⟩ := h _ hentry read hread
        rw [accounted_iff hresult hdocument hentry hread]
        by_cases hblank : trim isSpace read.text = []
        · rcases htext hblank with hfound | hocr
          · obtain ⟨grid, hgrid⟩ := List.exists_mem_of_ne_nil _ hfound
            exact Or.inr (Or.inl ⟨grid, hgrid, htables grid hgrid⟩)
          · exact Or.inr (Or.inr hocr)
        · exact Or.inl hblank
    · cases hread : readEntry env entry with
      | error warning => exact Or.inr (hnamed _ hentry warning hread)
      | ok read =>
        exact (tables_kept_iff hresult hdocument hentry hread).mpr
          (h entry hentry read hread).1 j grid hgrid

end

/-! ## A scanned page without text -/

/-- PyMuPDF reads a document, OCR no text, and the first row of a grid is its header. -/
def scanEnv (document : List (SourcePage Unit)) : PdfEnv Unit where
  read engine _ := if engine = .pymupdf then some document else none
  recognize _ := .ok ⟨[], []⟩
  finder := firstRowHeader
  keyValue _ := none
  lower := id

/-- `%PDF`. -/
def pdfContent : List UInt8 := [0x25, 0x50, 0x44, 0x46]

def scannedPage : SourcePage Unit := ⟨[], [], some ()⟩

def typedPage : SourcePage Unit := ⟨"Results of the second semester".toList, [], none⟩

/-- A page of text is accounted for. -/
theorem keepsPages_iff_typed : ∃ result, parsePdf (scanEnv [typedPage]) pdfContent = .ok result ∧
    KeepsPages (scanEnv [typedPage]) .pymupdf [typedPage] result := by
  have hdocument : readDocument (scanEnv [typedPage]) pdfContent = some (.pymupdf, [typedPage]) := rfl
  obtain ⟨result, hresult⟩ := parsePdf_some rfl hdocument
  refine ⟨result, hresult, (keepsPages_iff hresult hdocument).mpr ⟨by decide, fun entry hentry => ?_⟩⟩
  obtain rfl : entry = PdfEngine.pymupdf.entry (typedPage, 1) := List.mem_singleton.mp hentry
  have hshort : shortText typedPage.text = false := by decide
  have htables : ∀ read, readEntry (scanEnv [typedPage]) (PdfEngine.pymupdf.entry (typedPage, 1)) =
      .ok read → read.text = typedPage.text := by
    intro read hread
    rw [readEntry, PdfEngine.entry, hshort] at hread
    exact congrArg PageRead.text (Except.ok.inj hread).symm
  intro read hread
  refine ⟨fun grid hgrid => absurd hgrid List.not_mem_nil, fun hblank => ?_⟩
  rw [htables read hread] at hblank
  exact absurd hblank (by decide)

/-- **A page is dropped**: OCR reads an empty text of it, and nothing names it. -/
theorem page_dropped : ∃ result, parsePdf (scanEnv [scannedPage]) pdfContent = .ok result ∧
    result.texts = [] ∧ (∀ table ∈ result.tables, table.page ≠ some 1) ∧ result.warnings = [] ∧
      ¬KeepsPages (scanEnv [scannedPage]) .pymupdf [scannedPage] result := by
  have hdocument : readDocument (scanEnv [scannedPage]) pdfContent = some (.pymupdf, [scannedPage]) :=
    rfl
  obtain ⟨result, hresult⟩ := parsePdf_some rfl hdocument
  obtain ⟨htexts, hwarnings, htables⟩ := parsePdf_ok hresult hdocument
  have hnone : ∀ table ∈ result.tables, table.page ≠ some 1 := by
    intro table htable hpage
    have hmem := (htables table 1 hpage).mp htable
    exact absurd hmem List.not_mem_nil
  refine ⟨result, hresult, htexts, hnone, hwarnings, fun h => ?_⟩
  rcases h.pages (scannedPage, 1) (List.mem_singleton_self _) with
    ⟨_, _, text, htext, -⟩ | ⟨table, htable, hpage, -⟩ | ⟨warning, hwarning, -⟩
  · rw [htexts] at htext
    exact absurd htext List.not_mem_nil
  · exact hnone table htable hpage
  · rw [hwarnings] at hwarning
    exact absurd hwarning List.not_mem_nil

end GuruJi.Ingestion
