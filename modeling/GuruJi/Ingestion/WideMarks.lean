import GuruJi.Ingestion.Sheets
import GuruJi.Lib.Numerals
import GuruJi.Records.Canonical

/-!
# Wide marks sheets

A result sheet has one row for each student and one column for each subject. `reshape_marks_table` makes
it one row for each student, course and exam: it finds the course columns, gives each an exam name that
no other column of its course has, and then goes through the rows until there are `maxRows` exam rows.
-/

namespace GuruJi.Ingestion

open GuruJi.Lib GuruJi.Records

/-! ## Sheets of marks -/

/-- A row of a sheet, and where it is from. -/
structure MarksRecord (N : Type) extends IntermediateRecord (Value N) where
  sourceFile : String
  sheet : Option String
  page : Option Nat
  ocr : Bool
  ocrConfidence : Option N

/-- A parsed sheet. A header may be there twice. -/
structure MarksTable (N : Type) where
  name : String
  headers : List String
  records : List (MarksRecord N)
  warnings : List String
  page : Option Nat
  ocr : Bool
  title : String

/-- The patterns of words and texts that the reshape asks for, and what it does with letters
and numbers. -/
structure MarksEnv (N : Type) where
  idHeader : Nat → String → Bool
  nameHeader : String → Bool
  attendance : String → Bool
  gradePoints : String → Bool
  gpa : String → Bool
  percent : String → Bool
  marksWord : String → Bool
  genericSheet : String → Bool
  unnamed : String → Bool
  dropRepeat : String → String
  groupOf : String → Option (String × Option String)
  wholeGroup : String → Bool
  external : String → Bool
  internal : String → Bool
  examPhrase : String → Option String
  fileStem : String → String
  isNumber : String → Bool
  graceMark : String → Option (String × Option String)
  add : N → N → N
  whole : N → Option Int

/-- `EXAM_HEADERS`. -/
def examHeaders : List String :=
  ["student_id", "student_name", "course_code", "course_name", "exam_name", "marks_obtained",
      "result_status"]

section
variable {N : Type} [Python N]

/-- `record.fields.get(header)`. -/
def MarksRecord.cell (record : MarksRecord N) (header : String) : Value N :=
    (record.fields.get header).getD .null

/-- `_blank`: nothing, or nothing but white space, dots and dashes. -/
def noMark (v : Value N) : Bool :=
  v.isNull || v.str.toList.all fun c => Python.isSpace N c || c ∈ ['.', '-', '–', '—']

variable (env : MarksEnv N)

/-- `int(number) if number.is_integer() else number`. -/
def MarksEnv.tidy (x : N) : Value N :=
  match env.whole x with
  | some i => .int i
  | none => .number x

/-- `_number`: the number of a cell, with the grace marks added if these count. -/
def MarksEnv.number (grace : Bool) (v : Value N) : Option (Value N) :=
  match v with
  | .bool _ => none
  | .int i => some (.int i)
  | .number x => some (.number x)
  | v =>
    let text := GuruJi.Lib.strip (Python.isSpace N) v.str
    if env.isNumber text then (Python.parse text).map env.tidy
    else if grace then
      (env.graceMark text).bind fun parts => (Python.parse parts.1).map fun mark =>
        env.tidy (env.add mark ((parts.2.bind Python.parse).getD (Python.ofInt 0)))
    else none

end

/-! ## Course columns -/

def isUpperAlnum (c : Char) : Bool := 'A' ≤ c && c ≤ 'Z' || '0' ≤ c && c ≤ '9'

def isAlnum (c : Char) : Bool := isUpperAlnum c || 'a' ≤ c && c ≤ 'z'

/-- `_BRACKETED_CODE`: a label, and a code in brackets at the end. -/
def bracketedCode (isSpace : Char → Bool) (text : List Char) : Option (List Char × List Char) :=
  match text.reverse with
  | close :: inside =>
    let inside := inside.dropWhile isSpace
    let code := inside.takeWhile isAlnum
    match (inside.drop code.length).dropWhile isSpace with
    | bracket :: before =>
      let label := (before.dropWhile isSpace).reverse
      if close ∈ [')', ']'] ∧ bracket ∈
        ['(', '['] ∧ 4 ≤ code.length ∧ code.length ≤ 12 ∧ '\n' ∉ label then
        some (label, code.reverse) else none
    | [] => none
  | [] => none

/-- `_BARE_CODE`: a code at the end, after a label and a space if there is one. -/
def bareCode (isSpace : Char → Bool) (text : List Char) : Option (List Char × List Char) :=
  let code := text.reverse.takeWhile isUpperAlnum
  if 4 ≤ code.length ∧ code.length ≤ 12 then
    match text.reverse.drop code.length with
    | [] => some ([], code.reverse)
    | c :: label => if isSpace c ∧ '\n' ∉ label then some (label.reverse, code.reverse) else none
  else none

/-- `_NOT_A_COURSE`: a year after one letter or two, or a semester, batch or year. -/
def notACourse (code : List Char) : Bool :=
  let year (digits : List Char) : Bool := match digits with
    | [a, b, c, d] => ([a, b] = ['1', '9'] || [a, b] = ['2', '0']) && c.isDigit && d.isDigit
    | _ => false
  (["SEM", "BATCH", "YEAR"].any fun start => start.toList.isPrefixOf code) ||
    [1, 2].any fun n => (code.take n).length = n && (code.take n).all Char.isUpper && year (code.drop n)

/-- `_course_code`: letters and digits, at least two of each, in capitals. -/
def courseCode (token : List Char) : Option String :=
  let code := token.map Char.toUpper
  if token.countP Char.isAlpha < 2 ∨ token.countP Char.isDigit < 2 ∨ notACourse code then none
  else some (String.ofList code)

section
variable {N : Type} [Python N] (env : MarksEnv N)

/-- `normalize_header`. -/
def headerText (N : Type) [Python N] (text : String) : String := normalizeHeader (Python.lower N) text

/-- `_parse_course_header`: the label before the code, and the code. -/
def parseCourseHeader (header : String) : Option (String × String) :=
  let text := (GuruJi.Lib.strip (Python.isSpace N) (env.dropRepeat header)).toList
  ((bracketedCode (Python.isSpace N) text).or (bareCode (Python.isSpace N) text)).bind fun found =>
    (courseCode found.2).map fun code =>
      (GuruJi.Lib.strip (Python.isSpace N) (String.ofList found.1), code)

/-- `_find_column`. -/
def findColumn (headers : List String) (pattern : String → Bool) : Option String :=
  headers.find? fun header => pattern (headerText N (env.dropRepeat header))

/-- A column of marks: its header, its label and its code. -/
structure CourseColumn where
  header : String
  label : String
  code : String
  deriving DecidableEq

/-- What the loop over the headers finds of one of them, with its marks: no course column, one, or that
the sheet is not to be reshaped. -/
def readColumn (students : List (MarksRecord N)) (known : List (Option String))
    (header following : String) : Option (Option (CourseColumn × List (Value N))) :=
  if some header ∈ known then some none
  else
    match parseCourseHeader env header with
    | none => some none
    | some (label, code) =>
      if env.unnamed following ∧ students.any fun r => (env.number true (r.cell following)).isSome then
        none
      else
        let filled := (students.map (·.cell header)).filter fun v => !noMark v
        let numbers := filled.filterMap (env.number true)
        -- three fifths of the filled cells are numbers
        if numbers ≠ [] ∧ 3 * filled.length ≤ 5 * numbers.length then
          some (some (⟨header, label, code⟩, numbers))
        else some none

def followed (headers : List String) : List (String × String) := headers.zip (headers.tail ++ [""])

/-- The course columns and their marks, in the order of the headers, if the sheet may be reshaped. -/
def courseColumns (students : List (MarksRecord N)) (known : List (Option String))
    (headers : List String) : Option (List (CourseColumn × List (Value N))) :=
  ((followed headers).mapM fun h => readColumn env students known h.1 h.2).map (·.filterMap id)

/-- The keys of a dictionary that columns were put in by their headers. -/
def labelled (columns : List CourseColumn) : List CourseColumn :=
  columns.foldl (fun kept c => if kept.any (·.header = c.header) then kept else kept ++ [c]) []

/-! ## Exams -/

/-- `_common_suffix`, of the words of labels, last first. -/
def commonSuffix (labels : List (List String)) : List String :=
  match labels with
  | [] => []
  | first :: rest => first.take ((List.range first.length).takeWhile fun k =>
      rest.all fun words => (words[k]?.map (Python.lower N)) = (first[k]?.map (Python.lower N))).length

def labelWords (N : Type) [Python N] (label : String) : List String :=
  (words (Python.isSpace N) label.toList).map String.ofList

/-- The known group of a column, if two columns share it at least. -/
def knownGroup (columns : List CourseColumn) (column : CourseColumn) : Option (String × String) :=
  (env.groupOf column.label).bind fun found =>
    let named (c : CourseColumn) : Bool :=
      (env.groupOf c.label).any fun other => headerText N other.1 = headerText N found.1
    if 2 ≤ columns.countP named then
      some (found.1, GuruJi.Lib.strip (Python.isSpace N) (found.2.getD "")) else none

/-- The group and the subject of a column, by the words at the end that the columns of its
course share. -/
def sharedSubject (others : List CourseColumn) (column : CourseColumn) : String × String :=
  let labels := others.map fun c => labelWords N c.label
  let subject := if 1 < others.length then (commonSuffix (N := N) (labels.map List.reverse)).reverse else
    []
  let own := labelWords N column.label
  let group := if subject = [] then "" else
    String.intercalate " " (own.take (own.length - subject.length))
  (group, if subject ≠ [] ∧ group ≠ "" then String.intercalate " " subject else column.label)

/-- `_split_labels`, of one column. -/
def splitLabel (columns : List CourseColumn) (column : CourseColumn) : String × String :=
  (knownGroup env columns column).getD
    (sharedSubject (N := N)
      (columns.filter fun c => c.code = column.code && (knownGroup env columns c).isNone) column)

def namedExam (group : String) : String :=
  if env.external (headerText N group) then "SEE (External)"
  else if env.internal (headerText N group) then "CIE (Internal)"
  else group

/-- `_exam_name`. -/
def marksExamName (group sheet title fileName : String) : String :=
  if env.external (headerText N group) ∨ env.internal (headerText N group) ∨ group ≠ "" then
    namedExam env group
  else
    match [sheet, title, env.fileStem fileName].findSome? fun text => (env.examPhrase text).filter
      (· ≠ "") with
    | some phrase => namedExam env phrase
    | none =>
      let sheet := upTo 60 (String.intercalate " " (labelWords N sheet))
      if headerText N sheet ≠ "" ∧ !env.genericSheet (headerText N sheet) then sheet else "Marks"

end

/-- A course column with what its label is split into and its exam. -/
structure ExamColumn extends CourseColumn where
  group : String
  subject : String
  exam : String
  deriving DecidableEq

/-- The exams that headers have got, and the codes and exams that are taken. -/
structure ExamNames where
  exams : Table String String
  taken : List (String × String)

/-- The exam that a column gets: its name, with the first number that is free in its course. -/
def freeExam (taken : List (String × String)) (code name : String) : String :=
  numberedName name (firstFree (fun k => (code, numberedName name k)) taken taken.length 0)

/-- A column gets its exam; `name` is the exam's name for a column. -/
def nameExam (name : CourseColumn → String) (names : ExamNames) (column : CourseColumn) : ExamNames :=
  let exam := freeExam names.taken column.code (name column)
  ⟨names.exams.assign column.header exam, names.taken ++ [(column.code, exam)]⟩

/-- The columns of a header that is there twice each get an exam, and the last one stays. -/
def examNames (name : CourseColumn → String) (columns : List CourseColumn) : ExamNames :=
  columns.foldl (nameExam name) ⟨[], []⟩

/-! ## Which sheets are reshaped -/

section
variable {N : Type} [Python N] (env : MarksEnv N)

/-- `0 <= mark <= MAX_MARK`. -/
def isMark : Value N → Bool
  | .int i => 0 ≤ i && i ≤ 200
  | .number x => Python.le (Python.ofInt 0) x && Python.le x (Python.ofInt 200)
  | _ => false

/-- `mark <= MAX_GRADE_POINT`. -/
def isGradePoint : Value N → Bool
  | .int i => i ≤ 10
  | .number x => Python.le x (Python.ofInt 10)
  | _ => false

/-- The column that names the student: the best kind of identifier that a header has. -/
def idColumnOf (headers : List String) : Option String :=
  [0, 1, 2].findSome? fun i => (findColumn env headers (env.idHeader i)).filter (· ≠ "")

def nameColumnOf (headers : List String) (idColumn : String) : Option String :=
  findColumn env (headers.filter (· ≠ idColumn)) env.nameHeader

def studentsOf (table : MarksTable N) (idColumn : String) : List (MarksRecord N) :=
  table.records.filter fun r => !noMark (r.cell idColumn)

def contextOf (table : MarksTable N) : List String :=
  (table.name :: table.title :: table.headers).map (headerText N)

/-- A word of attendance: in the sheet's name, its title, or over a column of data. -/
def holdsAttendance (table : MarksTable N) (students : List (MarksRecord N)) : Bool :=
  ((contextOf table).take 2 ++ (table.headers.filter fun h =>
    students.any fun r => !noMark (r.cell h)).map (headerText N)).any env.attendance

/-- The headers' labels and the marks under them make it a sheet of marks. -/
def holdsMarks (table : MarksTable N) (columns : List CourseColumn) (marks : List (Value N)) : Bool :=
  3 ≤ columns.length && 2 ≤ (columns.map (·.code)).dedup.length &&
    !(columns.any fun c => env.percent (Python.lower N c.header)) && marks.all isMark &&
    !(((contextOf table).take 2 ++ columns.map fun c => headerText N c.header).any env.gradePoints) &&
    !(marks.all isGradePoint && (contextOf table).any env.gpa) &&
    ((columns.any fun c => (splitLabel env columns c).1 ≠ "" && env.wholeGroup
      (splitLabel env columns c).1) || (contextOf table).any env.marksWord)

/-- What is known of a sheet that is reshaped. -/
structure MarksSheet where
  idColumn : String
  nameColumn : Option String
  columns : List ExamColumn
  deriving DecidableEq

/-- The name of the exam of a column, before it gets a number. -/
def columnExam (table : MarksTable N) (columns : List CourseColumn) (column : CourseColumn) : String :=
  marksExamName env (splitLabel env columns column).1 table.name table.title
    ((table.records.head?.map (·.sourceFile)).getD "")

/-- The course columns with their exams; `repeated` has a column for each time that its
header is there. -/
def examColumns (table : MarksTable N) (repeated : List CourseColumn) : List ExamColumn :=
  let columns := labelled repeated
  let names := examNames (columnExam env table columns) repeated
  columns.map fun c =>
    ⟨c, (splitLabel env columns c).1, (splitLabel env columns c).2, (names.exams.get c.header).getD ""⟩

def knownColumns (idColumn : String) (nameColumn : Option String) : List (Option String) :=
    [some idColumn, nameColumn]

/-- The sheet is one of marks, and its columns are known. -/
def marksSheet (table : MarksTable N) : Option MarksSheet :=
  (idColumnOf env table.headers).bind fun idColumn =>
    let students := studentsOf table idColumn
    let nameColumn := nameColumnOf env table.headers idColumn
    if table.records = [] ∨ holdsAttendance env table students then none
    else
      (courseColumns env students (knownColumns idColumn nameColumn) table.headers).bind fun found =>
        let repeated := found.map Prod.fst
        if holdsMarks env table (labelled repeated) (found.flatMap Prod.snd) then
          some ⟨idColumn, nameColumn, examColumns env table repeated⟩
        else none

/-! ## Exam rows -/

/-- `_column_letter`, of the column after `n` others. -/
def columnLetter (n : Nat) : String :=
  String.ofList ((numeral 26 (n + 1)).map fun d => Char.ofNat (65 + d))

/-- The place of a header, the last one if it is there twice. -/
def positionOf (headers : List String) (header : String) : Nat :=
  headers.length - 1 - headers.reverse.idxOf header

/-- The text that stands for the result of a cell that is not a plain number. -/
def resultStatus (v : Value N) : Value N :=
  if (env.number false v).isSome then .null
  else .text (GuruJi.Lib.strip (Python.isSpace N) v.str)

def examRow (headers : List String) (sheet : MarksSheet) (record : MarksRecord N) (column : ExamColumn) :
    MarksRecord N where
  locator := record.locator ++ ";col=" ++ columnLetter (positionOf headers column.header)
  rowNumber := record.rowNumber
  fields :=
    [("student_id", if noMark (record.cell sheet.idColumn) then .null else record.cell sheet.idColumn),
      ("student_name", ((sheet.nameColumn.filter (· ≠ "")).map record.cell).getD .null),
      ("course_code", .text column.code),
      ("course_name", if column.subject = "" then .null else .text column.subject),
      ("exam_name", .text column.exam),
      ("marks_obtained", (env.number true (record.cell column.header)).getD .null),
      ("result_status", resultStatus env (record.cell column.header))]
  sourceFile := record.sourceFile
  sheet := record.sheet
  page := record.page
  ocr := record.ocr
  ocrConfidence := record.ocrConfidence

/-- A note or a footer: no student and no number under a course. -/
def isNote (sheet : MarksSheet) (record : MarksRecord N) : Bool :=
  noMark (record.cell sheet.idColumn) &&
    !sheet.columns.any fun c => (env.number true (record.cell c.header)).isSome

/-- What the loop over the rows keeps. -/
structure MarksRead (N : Type) where
  records : List (MarksRecord N) := []
  skipped : List (Nat × String) := []
  withoutMarks : List Nat := []
  blankCells : Nat := 0
  studentRows : Nat := 0
  graceCells : Nat := 0

def readMark (headers : List String) (sheet : MarksSheet) (record : MarksRecord N) (s : MarksRead N)
    (column : ExamColumn) : MarksRead N :=
  let value := record.cell column.header
  if noMark value then { s with blankCells := s.blankCells + 1 }
  else
    { s with
      records := s.records ++ [examRow env headers sheet record column]
      graceCells := s.graceCells +
        if (env.number true value).isSome ∧ (env.number false value).isNone then 1 else 0 }

def readStudent (headers : List String) (sheet : MarksSheet) (s : MarksRead N) (record : MarksRecord N) :
    MarksRead N :=
  let next := sheet.columns.foldl (readMark env headers sheet record) s
  if next.records.length = s.records.length then
    { next with withoutMarks := next.withoutMarks ++ [record.rowNumber] }
  else { next with studentRows := next.studentRows + 1 }

/-- The rows are read, until there are `maxRows` exam rows; with whether there are. -/
def readMarks (headers : List String) (sheet : MarksSheet) :
    MarksRead N → List (MarksRecord N) → MarksRead N × Bool
  | s, [] => (s, false)
  | s, record :: records =>
    if isNote env sheet record then
      readMarks headers sheet
        { s with skipped := s.skipped ++ [(record.rowNumber, "no student identifier and no marks")] }
            records
    else
      let next := readStudent env headers sheet s record
      if maxRows ≤ next.records.length then (next, true) else readMarks headers sheet next records

/-- The summary of a reshape, for the review of its columns. -/
structure ReshapeSummary where
  sheet : String
  wideRows : Nat
  examRows : Nat
  studentRows : Nat
  studentIdColumn : String
  studentNameColumn : Option String
  courseColumns : List ExamColumn
  leftOutColumns : List String
  skippedRows : Nat
  skippedRowDetails : List (Nat × String)
  rowsWithoutMarks : List Nat
  blankMarkCells : Nat
  graceMarkCells : Nat
  examNames : List String
  courses : List String

/-- The columns that are not reshaped, without the blank ones that have no header. -/
def leftOut (table : MarksTable N) (sheet : MarksSheet) : List String :=
  table.headers.filter fun h =>
    (sheet.columns.all fun c => c.header ≠ h) && some h ∉ knownColumns sheet.idColumn sheet.nameColumn &&
      (!env.unnamed h || table.records.any fun r => !noMark (r.cell h))

/-- `list(dict.fromkeys(texts))`. -/
def firstSeen (texts : List String) : List String :=
  texts.foldl (fun kept text => if text ∈ kept then kept else kept ++ [text]) []

/-- `REPORT_ROWS`. -/
def reportRows : Nat := 50

/-- `reshape_marks_table`. -/
def reshapeMarksTable (table : MarksTable N) : Option (MarksTable N × ReshapeSummary) :=
  (marksSheet env table).map fun sheet =>
    let (read, limited) := readMarks env table.headers sheet {} table.records
    let told := "reshaped_" ++ toString table.records.length ++ "_wide_rows_to_" ++
      toString read.records.length ++ "_exam_rows"
    ({ table with
        headers := examHeaders
        records := read.records
        warnings := table.warnings ++ (if limited then ["row_limit_reached"] else []) ++ [told] },
      { sheet := table.name
        wideRows := table.records.length
        examRows := read.records.length
        studentRows := read.studentRows
        studentIdColumn := sheet.idColumn
        studentNameColumn := sheet.nameColumn
        courseColumns := sheet.columns
        leftOutColumns := leftOut env table sheet
        skippedRows := read.skipped.length
        skippedRowDetails := read.skipped.take reportRows
        rowsWithoutMarks := read.withoutMarks.take reportRows
        blankMarkCells := read.blankCells
        graceMarkCells := read.graceCells
        examNames := firstSeen (sheet.columns.map (·.exam))
        courses := firstSeen (sheet.columns.map (·.code)) })

end

end GuruJi.Ingestion
