import GuruJi.Ingestion.WideMarks

/-!
# The rows of a reshaped sheet

Each cell of a course column becomes one exam row, row by row and then column by column, in the rows that
are read: those up to the one with which there are `maxRows` exam rows.

* `readMarks_spec`, `rowsRead_spec`: the rows that the loop reads, and what it makes of them;
* **`reshape_lossless`**: the exam rows are the cells of the rows that are read;
* `rows_left_out`: a sheet with more cells than `maxRows`.
-/

namespace GuruJi.Ingestion

open GuruJi.Lib GuruJi.Records

variable {N : Type} [Python N] {env : MarksEnv N}

/-! ## Columns -/

theorem nodup_labelled (repeated : List CourseColumn) : ((labelled repeated).map (·.header)).Nodup ∧
    ∀ c ∈ repeated, c.header ∈ (labelled repeated).map (·.header) := by
  induction repeated using List.reverseRecOn with
  | nil => exact ⟨List.nodup_nil, fun c hc => absurd hc List.not_mem_nil⟩
  | append_singleton repeated c ih =>
    obtain ⟨hnodup, hmem⟩ := ih
    have hstep : labelled (repeated ++ [c]) = if (labelled repeated).any (·.header = c.header) then
      labelled repeated
        else labelled repeated ++ [c] := by
      rw [labelled, List.foldl_append]
      rfl
    have hany : (labelled repeated).any (·.header = c.header) = true ↔ c.header ∈ (labelled repeated).map
      (·.header) := by
      simp only [List.any_eq_true, decide_eq_true_eq, List.mem_map]
    rw [hstep]
    split_ifs with hknown
    · refine ⟨hnodup, fun d hd => ?_⟩
      rcases List.mem_append.mp hd with hd | hd
      · exact hmem d hd
      · rw [List.mem_singleton.mp hd]
        exact hany.mp hknown
    · rw [List.map_append]
      refine ⟨List.nodup_append.mpr ⟨hnodup, List.nodup_singleton _, fun a ha b hb hab => ?_⟩,
        fun d hd => ?_⟩
      · rw [List.map_singleton, List.mem_singleton] at hb
        exact hknown (hany.mpr (hb ▸ hab ▸ ha))
      · rcases List.mem_append.mp hd with hd | hd
        · exact List.mem_append_left _ (hmem d hd)
        · rw [List.mem_singleton.mp hd]
          exact List.mem_append_right _ (List.mem_singleton_self _)

theorem marksSheet_eq_some {table : MarksTable N} {sheet : MarksSheet}
    (h : marksSheet env table = some sheet) :
    ∃ idColumn found, idColumnOf env table.headers = some idColumn ∧
      courseColumns env (studentsOf table idColumn)
        (knownColumns idColumn (nameColumnOf env table.headers idColumn)) table.headers = some found ∧
      sheet = ⟨idColumn, nameColumnOf env table.headers idColumn,
      examColumns env table (found.map Prod.fst)⟩ := by
  obtain ⟨idColumn, hid, h⟩ := Option.bind_eq_some_iff.mp h
  dsimp only at h
  split_ifs at h
  obtain ⟨found, hfound, h⟩ := Option.bind_eq_some_iff.mp h
  split_ifs at h
  exact ⟨idColumn, found, hid, hfound, (Option.some.inj h).symm⟩

theorem marksSheet_of {table : MarksTable N} {idColumn : String}
    {found : List (CourseColumn × List (Value N))} (hid : idColumnOf env table.headers = some idColumn)
    (hrecords : table.records ≠ [])
        (hattendance : holdsAttendance env table (studentsOf table idColumn) = false)
    (hfound : courseColumns env (studentsOf table idColumn)
      (knownColumns idColumn (nameColumnOf env table.headers idColumn)) table.headers = some found)
    (hmarks : holdsMarks env table (labelled (found.map Prod.fst)) (found.flatMap Prod.snd) = true) :
    marksSheet env table =
      some ⟨idColumn, nameColumnOf env table.headers idColumn,
      examColumns env table (found.map Prod.fst)⟩ := by
  have hno : ¬(table.records = [] ∨ holdsAttendance env table (studentsOf table idColumn) = true) := by
    rw [hattendance]
    exact not_or.mpr ⟨hrecords, Bool.false_ne_true⟩
  rw [marksSheet, hid, Option.bind_some]
  dsimp only
  rw [if_neg hno, hfound, Option.bind_some, if_pos hmarks]

theorem nodup_columns {table : MarksTable N} {sheet : MarksSheet}
    (h : marksSheet env table = some sheet) : (sheet.columns.map (·.header)).Nodup := by
  obtain ⟨idColumn, found, -, -, rfl⟩ := marksSheet_eq_some h
  show ((examColumns env table (found.map Prod.fst)).map _).Nodup
  rw [examColumns, List.map_map]
  exact (nodup_labelled (found.map Prod.fst)).1

/-! ## Cells and exam rows -/

/-- The course columns under which a row has a cell. -/
def filledColumns (sheet : MarksSheet) (record : MarksRecord N) : List ExamColumn :=
  sheet.columns.filter fun c => !noMark (record.cell c.header)

/-- The cells of course columns in the rows that are not skipped, row by row and then column
by column. -/
def courseCells (env : MarksEnv N) (sheet : MarksSheet) (records : List (MarksRecord N)) :
    List (MarksRecord N × ExamColumn) :=
  (records.filter fun r => !isNote env sheet r).flatMap fun r => (filledColumns sheet r).map fun c =>
      (r, c)

/-- An exam row carries the student of a cell's row, the course and the exam of its column, and its
value: the number, or else the text. -/
structure Carries (env : MarksEnv N) (sheet : MarksSheet) (row : MarksRecord N)
    (cell : MarksRecord N × ExamColumn) : Prop where
  student : row.fields.get "student_id" =
    some (if noMark (cell.1.cell sheet.idColumn) then .null else cell.1.cell sheet.idColumn)
  name : row.fields.get "student_name" =
      some (((sheet.nameColumn.filter (· ≠ "")).map cell.1.cell).getD .null)
  course : row.fields.get "course_code" = some (.text cell.2.code)
  courseName : row.fields.get "course_name" = some (if cell.2.subject = "" then .null else
      .text cell.2.subject)
  exam : row.fields.get "exam_name" = some (.text cell.2.exam)
  number : row.fields.get "marks_obtained" =
      some ((env.number true (cell.1.cell cell.2.header)).getD .null)
  text : (env.number false (cell.1.cell cell.2.header)).isNone → row.fields.get "result_status" =
    some (.text (GuruJi.Lib.strip (Python.isSpace N) (cell.1.cell cell.2.header).str))
  kept : (env.number true (cell.1.cell cell.2.header)).isSome ∨
      (env.number false (cell.1.cell cell.2.header)).isNone
  origin : row.rowNumber = cell.1.rowNumber ∧ row.sourceFile = cell.1.sourceFile ∧
    row.sheet = cell.1.sheet ∧
    row.page = cell.1.page ∧ row.ocr = cell.1.ocr ∧ row.ocrConfidence = cell.1.ocrConfidence

theorem isSome_number {v : Value N} (h : (env.number false v).isSome) : (env.number true v).isSome := by
  have hword : ∀ text : String, (if env.isNumber text then (Python.parse text).map env.tidy else
      none : Option (Value N)).isSome →
      ∀ other : Option (Value N), (if env.isNumber text then (Python.parse text).map env.tidy else
      other).isSome := by
    intro text htext other
    split_ifs at htext ⊢
    · exact htext
    · cases htext
  cases v with
  | int i => rfl
  | number x => rfl
  | bool b => cases h
  | null => exact hword _ h _
  | text t => exact hword _ h _

theorem carries_examRow (headers : List String) (sheet : MarksSheet)
    (cell : MarksRecord N × ExamColumn) :
    Carries env sheet (examRow env headers sheet cell.1 cell.2) cell where
  student := rfl
  name := rfl
  course := rfl
  courseName := rfl
  exam := rfl
  number := rfl
  text h := by
    show some (resultStatus env _) = _
    rw [resultStatus, if_neg]
    rw [Option.isNone_iff_eq_none] at h
    rw [h]
    exact Bool.false_ne_true
  kept := by
    rcases hplain : env.number false (cell.1.cell cell.2.header) with _ | v
    · exact .inr rfl
    · exact .inl (isSome_number (by rw [hplain]; rfl))
  origin := ⟨rfl, rfl, rfl, rfl, rfl, rfl⟩

/-! ## The loop -/

variable {headers : List String} {sheet : MarksSheet}

variable (env headers sheet) in
theorem foldl_readMark (record : MarksRecord N) (columns : List ExamColumn) (s : MarksRead N) :
    (columns.foldl (readMark env headers sheet record) s).records =
      s.records ++ (columns.filter fun c => !noMark (record.cell c.header)).map
      (examRow env headers sheet record) := by
  induction columns generalizing s with
  | nil => exact (List.append_nil _).symm
  | cons c columns ih =>
    rw [List.foldl_cons, ih, readMark]
    by_cases hblank : noMark (record.cell c.header) = true
    · rw [if_pos hblank, List.filter_cons_of_neg (by simp [hblank])]
    · rw [if_neg hblank, List.filter_cons_of_pos (by simpa using hblank), List.map_cons,
        List.append_assoc]
      rfl

variable (env headers sheet) in
theorem readStudent_records (s : MarksRead N) (record : MarksRecord N) :
    (readStudent env headers sheet s record).records =
      s.records ++ (filledColumns sheet record).map (examRow env headers sheet record) := by
  have hread := foldl_readMark env headers sheet record sheet.columns s
  rw [readStudent]
  split_ifs
  · exact hread
  · exact hread

theorem courseCells_cons_note {record : MarksRecord N} (h : isNote env sheet record = true)
    (records : List (MarksRecord N)) : courseCells env sheet (record :: records) =
        courseCells env sheet records := by
  rw [courseCells, List.filter_cons_of_neg (by simp [h]), courseCells]

theorem courseCells_cons {record : MarksRecord N} (h : isNote env sheet record = false)
    (records : List (MarksRecord N)) : courseCells env sheet (record :: records) =
      ((filledColumns sheet record).map fun c => (record, c)) ++ courseCells env sheet records := by
  rw [courseCells, List.filter_cons_of_pos (by simp [h]), List.flatMap_cons, courseCells]

def examRows (env : MarksEnv N) (headers : List String) (sheet : MarksSheet)
    (cells : List (MarksRecord N × ExamColumn)) : List (MarksRecord N) :=
  cells.map fun cell => examRow env headers sheet cell.1 cell.2

/-- The rows that are read when there are some exam rows: all, or those up to the one with which there
are `maxRows`. -/
def rowsRead (env : MarksEnv N) (sheet : MarksSheet) : Nat → List (MarksRecord N) → List (MarksRecord N)
  | _, [] => []
  | count, record :: records =>
    if isNote env sheet record then record :: rowsRead env sheet count records
    else if maxRows ≤ count + (filledColumns sheet record).length then [record]
    else record :: rowsRead env sheet (count + (filledColumns sheet record).length) records

variable (env headers sheet) in
/-- **The loop makes the cells of the rows that are read into exam rows**, and knows whether these are
all. -/
theorem readMarks_spec (records : List (MarksRecord N)) (s : MarksRead N) :
    (readMarks env headers sheet s records).1.records =
        s.records ++ examRows env headers sheet
        (courseCells env sheet (rowsRead env sheet s.records.length records)) ∧
      ((readMarks env headers sheet s records).2 = false → rowsRead env sheet s.records.length records =
      records) := by
  induction records generalizing s with
  | nil => exact ⟨(List.append_nil _).symm, fun _ => rfl⟩
  | cons record records ih =>
    rw [readMarks, rowsRead]
    by_cases hnote : isNote env sheet record = true
    · rw [if_pos hnote, if_pos hnote, courseCells_cons_note hnote]
      obtain ⟨hrows, hall⟩ := ih
        { s with skipped := s.skipped ++ [(record.rowNumber, "no student identifier and no marks")] }
      exact ⟨hrows, fun h => congrArg _ (hall h)⟩
    · have hkept : isNote env sheet record = false := Bool.eq_false_iff.mpr hnote
      have hnext := readStudent_records env headers sheet s record
      have hlength : (readStudent env headers sheet s record).records.length =
          s.records.length + (filledColumns sheet record).length := by
        rw [hnext, List.length_append, List.length_map]
      rw [if_neg hnote, if_neg hnote, ← hlength]
      by_cases hlimit : maxRows ≤ (readStudent env headers sheet s record).records.length
      · rw [if_pos hlimit, if_pos hlimit, courseCells_cons hkept]
        refine ⟨?_, fun h => absurd h.symm Bool.false_ne_true⟩
        rw [hnext, examRows, List.map_append, List.map_map]
        exact congrArg _ (List.append_nil _).symm
      · rw [if_neg hlimit, if_neg hlimit, courseCells_cons hkept]
        obtain ⟨hrows, hall⟩ := ih (readStudent env headers sheet s record)
        refine ⟨?_, fun h => congrArg _ (hall h)⟩
        rw [hrows, hnext, examRows, examRows, List.map_append, List.map_map, List.append_assoc]
        rfl

variable (env sheet) in
/-- The rows that are read are a beginning of the rows, and no more than what reaches the limit. -/
theorem rowsRead_spec (records : List (MarksRecord N)) {count : Nat} (hcount : count < maxRows) :
    ∃ rest, records = rowsRead env sheet count records ++ rest ∧
      (rest ≠ [] → maxRows ≤ count + (courseCells env sheet (rowsRead env sheet count records)).length) ∧
      ∀ before after, rowsRead env sheet count records = before ++ after → after ≠ [] →
        count + (courseCells env sheet before).length < maxRows := by
  induction records generalizing count with
  | nil =>
    refine ⟨[], rfl, fun h => absurd rfl h, fun before after h hne => ?_⟩
    exact absurd (List.nil_eq_append_iff.mp h).2 hne
  | cons record records ih =>
    rw [rowsRead]
    by_cases hnote : isNote env sheet record = true
    · obtain ⟨rest, hsplit, hreached, hfirst⟩ := ih hcount
      rw [if_pos hnote, courseCells_cons_note hnote]
      refine ⟨rest, by rw [List.cons_append, ← hsplit], hreached, fun before after h hne => ?_⟩
      rcases List.cons_eq_append_iff.mp h with ⟨rfl, -⟩ | ⟨before, rfl, hrest⟩
      · exact hcount
      · rw [courseCells_cons_note hnote]
        exact hfirst before after hrest hne
    · have hcells : ∀ rows, (courseCells env sheet (record :: rows)).length =
          (filledColumns sheet record).length + (courseCells env sheet rows).length := by
        intro rows
        rw [courseCells_cons (Bool.eq_false_iff.mpr hnote), List.length_append, List.length_map]
      rw [if_neg hnote]
      by_cases hlimit : maxRows ≤ count + (filledColumns sheet record).length
      · rw [if_pos hlimit]
        refine ⟨records, rfl, fun _ => ?_, fun before after h hne => ?_⟩
        · rw [hcells]
          omega
        · rcases List.cons_eq_append_iff.mp h with ⟨rfl, -⟩ | ⟨before, rfl, hrest⟩
          · exact hcount
          · exact absurd (List.nil_eq_append_iff.mp hrest).2 hne
      · obtain ⟨rest, hsplit, hreached, hfirst⟩ := ih (Nat.lt_of_not_le hlimit)
        rw [if_neg hlimit]
        refine ⟨rest, by rw [List.cons_append, ← hsplit], fun h => ?_, fun before after h hne => ?_⟩
        · have hlong := hreached h
          rw [hcells]
          omega
        · rcases List.cons_eq_append_iff.mp h with ⟨rfl, -⟩ | ⟨before, rfl, hrest⟩
          · exact hcount
          · have hbefore := hfirst before after hrest hne
            rw [hcells]
            omega

variable (env sheet) in
theorem length_courseCells_concat (records : List (MarksRecord N)) (record : MarksRecord N) :
    (courseCells env sheet (records ++ [record])).length ≤
      (courseCells env sheet records).length + sheet.columns.length := by
  have hlast : (courseCells env sheet [record]).length ≤ sheet.columns.length := by
    by_cases hnote : isNote env sheet record = true
    · rw [courseCells_cons_note hnote]
      exact Nat.zero_le _
    · rw [courseCells_cons (Bool.eq_false_iff.mpr hnote), List.length_append, List.length_map]
      exact List.length_filter_le _ _
  rw [courseCells, List.filter_append, List.flatMap_append, List.length_append]
  exact Nat.add_le_add_left hlast _

variable (env sheet) in
theorem length_rowsRead_lt (records : List (MarksRecord N)) :
    (courseCells env sheet (rowsRead env sheet 0 records)).length < maxRows + sheet.columns.length := by
  obtain ⟨rest, -, -, hfirst⟩ := rowsRead_spec env sheet records (Nat.zero_lt_succ 99999)
  rcases List.eq_nil_or_concat (rowsRead env sheet 0 records) with hnone | ⟨before, last, hread⟩
  · rw [hnone]
    exact Nat.lt_of_lt_of_le (Nat.zero_lt_succ _) (Nat.le_add_right maxRows _)
  · rw [List.concat_eq_append] at hread
    have hshort := hfirst before [last] hread (List.cons_ne_nil _ _)
    rw [hread]
    have hlast := length_courseCells_concat env sheet before last
    omega

theorem forall₂_examRows (cells : List (MarksRecord N × ExamColumn)) :
    List.Forall₂ (Carries env sheet) (examRows env headers sheet cells) cells := by
  rw [examRows, List.forall₂_map_left_iff, List.forall₂_same]
  exact fun cell _ => carries_examRow headers sheet cell

/-! ## The reshaped sheet -/

theorem reshapeMarksTable_eq {table : MarksTable N} (h : marksSheet env table = some sheet) :
    ∃ reshaped summary, reshapeMarksTable env table = some (reshaped, summary) ∧
      reshaped.records = examRows env table.headers sheet
      (courseCells env sheet (rowsRead env sheet 0 table.records)) ∧
      (rowsRead env sheet 0 table.records ≠ table.records →
      "row_limit_reached" ∈ reshaped.warnings) := by
  obtain ⟨hrows, hall⟩ := readMarks_spec env table.headers sheet table.records {}
  refine ⟨_, _, by rw [reshapeMarksTable, h]; rfl, hrows, fun hne => ?_⟩
  have hlimited : (readMarks env table.headers sheet {} table.records).2 = true := by
    rw [← Bool.not_eq_false]
    exact fun hno => hne (hall hno)
  simp [hlimited]

/-- **The exam rows are the cells of the course columns**, in the rows that are not skipped, up to the
one with which there are `maxRows` of them; if rows are left out, a warning says so. -/
theorem reshape_lossless (env : MarksEnv N) (table reshaped : MarksTable N) (summary : ReshapeSummary)
    (h : reshapeMarksTable env table = some (reshaped, summary)) :
    ∃ sheet, marksSheet env table = some sheet ∧ (sheet.columns.map (·.header)).Nodup ∧
      ∃ read rest, table.records = read ++ rest ∧
      List.Forall₂ (Carries env sheet) reshaped.records (courseCells env sheet read) ∧
      (rest ≠ [] → maxRows ≤ (courseCells env sheet read).length ∧
      "row_limit_reached" ∈ reshaped.warnings) ∧
      ∀ before after, read = before ++ after → after ≠ [] → (courseCells env sheet before).length <
      maxRows := by
  obtain ⟨sheet, hsheet, -⟩ := Option.map_eq_some_iff.mp h
  obtain ⟨reshaped', summary', hreshape, hrows, hwarned⟩ := reshapeMarksTable_eq hsheet
  obtain ⟨rfl, -⟩ := Prod.mk.inj (Option.some.inj (h.symm.trans hreshape))
  obtain ⟨rest, hsplit, hreached, hfirst⟩ := rowsRead_spec env sheet table.records
    (Nat.zero_lt_succ 99999)
  refine ⟨sheet, hsheet, nodup_columns hsheet, _, rest, hsplit, ?_, fun hne => ⟨?_, ?_⟩,
    fun before after h hne => ?_⟩
  · rw [hrows]
    exact forall₂_examRows _
  · have hlong := hreached hne
    omega
  · refine hwarned fun hall => hne ?_
    rw [hall] at hsplit
    exact List.append_right_eq_self.mp hsplit.symm
  · have hshort := hfirst before after h hne
    omega

/-! ## A sheet that is too long -/

/-- The patterns, as they are for the texts of the sheets below. -/
def plainMarks : MarksEnv ℚ where
  idHeader i text := i = 0 && text = "usn"
  nameHeader text := text = "name"
  attendance text := text = "attended"
  gradePoints text := text = "credits"
  gpa text := text = "sgpa"
  percent text := text = "percentage"
  marksWord text := text = "marks"
  genericSheet text := text = "sheet"
  unnamed text := startsWith "column_" text
  dropRepeat := id
  groupOf text :=
    if text = "CIE 1 HRM" then some ("CIE 1", some "HRM")
    else if text = "cie 1 HRM" then some ("cie 1", some "HRM")
    else none
  wholeGroup text := text = "CIE 1" || text = "cie 1"
  external text := text = "see"
  internal text := text = "ia"
  examPhrase _ := none
  fileStem := beforeColon
  isNumber text := text ≠ "" && text.toList.all Char.isDigit
  graceMark _ := none
  add := (· + ·)
  whole x := if x = x.floor then some x.floor else none

def marksRow (usn : Value ℚ) : MarksRecord ℚ where
  locator := "sheet=Marks;row=2"
  rowNumber := 2
  fields := [("USN", usn), ("HRM (MBA201)", .int 40), ("OB (MBA202)", .int 35), ("FM (MBA203)", .int 28)]
  sourceFile := "results.xlsx"
  sheet := some "Marks"
  page := none
  ocr := false
  ocrConfidence := none

/-- A sheet of a student's marks, and more rows of marks without a student. -/
def marksTable (more : Nat) : MarksTable ℚ where
  name := "Marks"
  headers := ["USN", "HRM (MBA201)", "OB (MBA202)", "FM (MBA203)"]
  records := marksRow (.text "1MB01") :: List.replicate more (marksRow .null)
  warnings := []
  page := none
  ocr := false
  title := ""

def threeCourses : MarksSheet where
  idColumn := "USN"
  nameColumn := none
  columns :=
    [⟨⟨"HRM (MBA201)", "HRM", "MBA201"⟩, "", "HRM", "Marks"⟩,
      ⟨⟨"OB (MBA202)", "OB", "MBA202"⟩, "", "OB", "Marks"⟩,
      ⟨⟨"FM (MBA203)", "FM", "MBA203"⟩, "", "FM", "Marks"⟩]

theorem marksSheet_marksTable (more : Nat) : marksSheet plainMarks (marksTable more) =
    some threeCourses := by
  have hone : marksSheet plainMarks (marksTable 0) = some threeCourses := by decide +kernel
  have hid : idColumnOf plainMarks (marksTable 0).headers = some "USN" := by decide +kernel
  have hnameless : (List.replicate more (marksRow .null)).filter (fun r => !noMark (r.cell "USN")) =
    [] := by
    rw [List.filter_eq_nil_iff]
    intro r hr
    rw [List.eq_of_mem_replicate hr]
    decide
  have hstudents : studentsOf (marksTable more) "USN" = studentsOf (marksTable 0) "USN" := by
    show List.filter _ (_ :: List.replicate more _) = List.filter _ (_ :: List.replicate 0 _)
    rw [List.filter_cons, List.filter_cons, hnameless]
    rfl
  rw [← hone, marksSheet, marksSheet]
  show (idColumnOf plainMarks (marksTable 0).headers).bind _ =
    (idColumnOf plainMarks (marksTable 0).headers).bind _
  rw [hid, Option.bind_some, Option.bind_some, hstudents]
  have hrows : ∀ n, (marksTable n).records ≠ [] := fun n => List.cons_ne_nil _ _
  simp only [hrows, false_or]
  rfl

theorem isNote_marksRow (usn : Value ℚ) : isNote plainMarks threeCourses (marksRow usn) = false := by
  have hmark : (threeCourses.columns.any fun c =>
      (plainMarks.number true ((marksRow usn).cell c.header)).isSome) = true := rfl
  rw [isNote, hmark]
  exact Bool.and_false _

theorem length_filledColumns_marksRow (usn : Value ℚ) :
    (filledColumns threeCourses (marksRow usn)).length = 3 := by
  have hfilled : (threeCourses.columns.all fun c => !noMark ((marksRow .null).cell c.header)) =
    true := by
    decide
  have hcell : ∀ c ∈ threeCourses.columns, (marksRow usn).cell c.header =
    (marksRow .null).cell c.header := by
    intro c hc
    rcases hc with _ | ⟨_, _ | ⟨_, _ | ⟨_, hc⟩⟩⟩
    · rfl
    · rfl
    · rfl
    · cases hc
  rw [filledColumns, List.filter_eq_self.mpr fun c hc => by
    rw [hcell c hc]
    exact List.all_eq_true.mp hfilled c hc]
  rfl

theorem length_courseCells_marksTable (more : Nat) :
    (courseCells plainMarks threeCourses (marksTable more).records).length = 3 * (more + 1) := by
  have hmore : (courseCells plainMarks threeCourses (List.replicate more (marksRow .null))).length =
    3 * more := by
    induction more with
    | zero => rfl
    | succ more ih =>
      rw [List.replicate_succ, courseCells_cons (isNote_marksRow _), List.length_append, List.length_map,
        length_filledColumns_marksRow, ih]
      omega
  rw [marksTable, courseCells_cons (isNote_marksRow _), List.length_append, List.length_map,
    length_filledColumns_marksRow, hmore]
  omega

/-- **A sheet with more cells than `maxRows`** leaves some out. -/
theorem rows_left_out : ∃ reshaped summary,
    reshapeMarksTable plainMarks (marksTable 33334) = some (reshaped, summary) ∧
      ¬List.Forall₂ (Carries plainMarks threeCourses) reshaped.records
        (courseCells plainMarks threeCourses (marksTable 33334).records) := by
  obtain ⟨reshaped, summary, hreshape, hrows, -⟩ := reshapeMarksTable_eq (marksSheet_marksTable 33334)
  refine ⟨reshaped, summary, hreshape, fun hall => ?_⟩
  have hlength := hall.length_eq
  rw [hrows, examRows, List.length_map, length_courseCells_marksTable] at hlength
  have hread := length_rowsRead_lt plainMarks threeCourses (marksTable 33334).records
  have hcolumns : maxRows + threeCourses.columns.length = 100003 := rfl
  omega

theorem reshape_lossless_marksTable : ∃ reshaped summary sheet,
    reshapeMarksTable plainMarks (marksTable 0) = some (reshaped, summary) ∧
      ∃ read rest, (marksTable 0).records = read ++ rest ∧
        List.Forall₂ (Carries plainMarks sheet) reshaped.records
        (courseCells plainMarks sheet read) := by
  obtain ⟨reshaped, summary, hreshaped, -⟩ := reshapeMarksTable_eq (marksSheet_marksTable 0)
  obtain ⟨sheet, -, -, read, rest, hsplit, hrows, -⟩ :=
    reshape_lossless plainMarks (marksTable 0) reshaped summary hreshaped
  exact ⟨reshaped, summary, sheet, hreshaped, read, rest, hsplit, hrows⟩

end GuruJi.Ingestion
