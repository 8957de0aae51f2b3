import GuruJi.Ingestion.MarkRows
import GuruJi.Lib.Fold
import GuruJi.Lib.Words

/-!
# The keys of exam rows

The exam rows of a student are told apart by course and exam. Exams of one course have names that differ
as they are spelled; the record key reads them in lower case, with one space between words, and nothing
for a placeholder.

* `sameKey_iff`: two exam rows of a student share their key iff their courses do and their exams read
  alike;
* **`keys_differ_iff`**: no two do, iff no column gets an exam that reads like one of its course with
  which it shares a row;
* `mark_overwritten`: two groups that differ in letter case.
-/

namespace GuruJi.Ingestion

open GuruJi.Lib GuruJi.Records

/-! ## Cleaning -/

/-- What cleaning does to texts and to the values of other types, as far as exam keys do not depend on
it. -/
structure Cleaning (N : Type) where
  upper : String → String
  personName : String → String
  program : String → Value N
  whole : N → Option Int
  other : FieldType → String → Value N → Value N
  upper_code : ∀ code : String, code.toList.all isUpperAlnum = true → upper code = code

/-- What Python's texts do with the characters of course codes. -/
class CodeText (N : Type) [Python N] : Prop where
  lower_code : ∀ code : String, code.toList.all isUpperAlnum = true →
    (Python.lower N code).toList = code.toList.map Char.toLower
  code_not_space : ∀ c : Char, isUpperAlnum c = true → Python.isSpace N c = false ∧
    Python.isSpace N c.toLower = false

section
variable {N : Type} [Python N]

/-- `normalize_whitespace`. -/
def normalizeWhitespace (N : Type) [Python N] (text : String) : String :=
  String.intercalate " " ((words (Python.isSpace N) text.toList).map String.ofList)

def placeholders : List String := ["na", "n/a", "nil", "null", "none", "-", "--"]

variable (cleaning : Cleaning N)

/-- `clean_value` of a value that is there. -/
def cleanTyped (fieldType : FieldType) (name : String) (v : Value N) : Value N :=
  match fieldType with
  | .string =>
    if name ∈ ["name", "student_name", "guardian_name", "hod_name"] then
      .text (cleaning.personName v.str)
    else if name = "program" then cleaning.program v.str
    else if name ∈ ["department", "course_code", "fee_type", "exam_name", "status", "result_status",
        "gender", "category", "section"] then
      let cleaned := normalizeWhitespace N v.str
      if name ∈ ["course_code", "section"] then .text (cleaning.upper cleaned)
      else if name ∈ ["status", "result_status", "gender"] then .text (Python.lower N cleaned)
      else .text cleaned
    else .text v.str
  | .identifier =>
    match v with
    | .number x =>
      match cleaning.whole x with
      | some i => .text (toString i)
      | none => .text (cleaning.upper (normalizeWhitespace N v.str))
    | v => .text (cleaning.upper (normalizeWhitespace N v.str))
  | fieldType => cleaning.other fieldType name v

/-- `clean_value`, without its notes and issues. -/
def cleanValue (fieldType : FieldType) (name : String) (v : Value N) : Value N :=
  match v with
  | .null => .null
  | .text s =>
    let stripped := normalizeWhitespace N s
    if stripped = "" ∨ Python.lower N stripped ∈ placeholders then .null
    else cleanTyped cleaning fieldType name (.text stripped)
  | v => cleanTyped cleaning fieldType name v

/-- `clean_record`, of an entity without columns that are worked out. -/
def cleanedFields (entity : CanonicalEntity) (fields : Table String (Value N)) : Fields N := fun name =>
  match entity.field name, fields.get name with
  | some item, some v => cleanValue cleaning item.fieldType name v
  | _, _ => .null

def examKey (row : MarksRecord N) : String := recordKeyFor exam (cleanedFields cleaning exam row.fields)

/-- What the record key reads of a course's code. -/
def readCode (code : String) : String := keyPart (cleanValue cleaning .string "course_code" (.text code))

def readExam (exam : String) : String := keyPart (cleanValue cleaning .string "exam_name" (.text exam))

end

/-! ## Course codes -/

/-- A course code as headers have it: capital letters and digits, with one digit at least. -/
def IsCode (code : String) : Prop := code.toList.all isUpperAlnum = true ∧ code.toList.any Char.isDigit =
    true

instance : DecidablePred IsCode := fun code =>
  inferInstanceAs (Decidable (code.toList.all isUpperAlnum = true ∧ code.toList.any Char.isDigit = true))

theorem ascii_letters : ∀ n < 128,
    (isAlnum (Char.ofNat n) = true → isUpperAlnum (Char.ofNat n).toUpper = true) ∧
    (isUpperAlnum (Char.ofNat n) = true → (Char.ofNat n).toLower.toUpper = Char.ofNat n ∧
      (Char.ofNat n).toLower ≠ '|' ∧ (Char.ofNat n).toUpper = Char.ofNat n ∧
        (Char.ofNat n).isWhitespace = false ∧ (Char.ofNat n).toLower.isWhitespace = false) ∧
    ((Char.ofNat n).isDigit = true → (Char.ofNat n).toUpper = Char.ofNat n ∧ (Char.ofNat n).toLower =
    Char.ofNat n) := by
  decide

theorem isAlnum_lt {c : Char} (h : isAlnum c = true) : c.toNat < 128 := by
  simp only [isAlnum, isUpperAlnum, Bool.or_eq_true, Bool.and_eq_true, decide_eq_true_eq] at h
  rcases h with (⟨-, h⟩ | ⟨-, h⟩) | ⟨-, h⟩
  · exact Nat.lt_of_le_of_lt (show c.toNat ≤ 90 from h) (by decide)
  · exact Nat.lt_of_le_of_lt (show c.toNat ≤ 57 from h) (by decide)
  · exact Nat.lt_of_le_of_lt (show c.toNat ≤ 122 from h) (by decide)

theorem isAlnum_of_isUpperAlnum {c : Char} (h : isUpperAlnum c = true) : isAlnum c = true := by
  rw [isAlnum, h, Bool.true_or]

/-- A letter or a digit is a capital letter or a digit when it is put in upper case. -/
theorem isUpperAlnum_toUpper {c : Char} (h : isAlnum c = true) : isUpperAlnum c.toUpper = true := by
  have hascii := (ascii_letters c.toNat (isAlnum_lt h)).1
  rw [Char.ofNat_toNat] at hascii
  exact hascii h

theorem toUpper_toLower {c : Char} (h : isUpperAlnum c = true) : c.toLower.toUpper = c ∧
    c.toLower ≠ '|' ∧ c.toUpper = c ∧ c.isWhitespace = false ∧ c.toLower.isWhitespace = false := by
  have hascii := (ascii_letters c.toNat (isAlnum_lt (isAlnum_of_isUpperAlnum h))).2.1
  rw [Char.ofNat_toNat] at hascii
  exact hascii h

theorem toUpper_digit {c : Char} (h : c.isDigit = true) : c.toUpper = c ∧ c.toLower = c := by
  have hlt : c.toNat < 128 := by
    rw [Char.isDigit, Bool.and_eq_true, decide_eq_true_eq, decide_eq_true_eq] at h
    exact Nat.lt_of_le_of_lt (show c.toNat ≤ 57 from h.2) (by decide)
  have hascii := (ascii_letters c.toNat hlt).2.2
  rw [Char.ofNat_toNat] at hascii
  exact hascii h

theorem isCode_of_courseCode {token : List Char} {code : String} (h : courseCode token = some code)
    (htoken : ∀ c ∈ token, isAlnum c = true) : IsCode code := by
  rw [courseCode] at h
  split_ifs at h with hno
  obtain rfl := Option.some.inj h
  push Not at hno
  refine ⟨?_, ?_⟩
  · rw [String.toList_ofList, List.all_map, List.all_eq_true]
    exact fun c hc => isUpperAlnum_toUpper (htoken c hc)
  · have htwo : 0 < token.countP Char.isDigit := by omega
    obtain ⟨c, hc, hdigit⟩ := List.countP_pos_iff.mp htwo
    rw [String.toList_ofList, List.any_map, List.any_eq_true]
    refine ⟨c, hc, ?_⟩
    rw [Function.comp_apply, (toUpper_digit hdigit).1]
    exact hdigit

theorem isAlnum_bracketedCode {isSpace : Char → Bool} {text label code : List Char}
    (h : bracketedCode isSpace text = some (label, code)) : ∀ c ∈ code, isAlnum c = true := by
  rw [bracketedCode] at h
  split at h
  · dsimp only at h
    split at h
    · split_ifs at h
      obtain ⟨-, rfl⟩ := Prod.mk.inj (Option.some.inj h)
      exact fun c hc => List.mem_takeWhile_imp (List.mem_reverse.mp hc)
    · cases h
  · cases h

theorem isAlnum_bareCode {isSpace : Char → Bool} {text label code : List Char}
    (h : bareCode isSpace text = some (label, code)) : ∀ c ∈ code, isAlnum c = true := by
  have hcode : code = (text.reverse.takeWhile isUpperAlnum).reverse := by
    rw [bareCode] at h
    split_ifs at h
    split at h
    · exact (Prod.mk.inj (Option.some.inj h)).2.symm
    · split_ifs at h
      exact (Prod.mk.inj (Option.some.inj h)).2.symm
  intro c hc
  rw [hcode, List.mem_reverse] at hc
  exact isAlnum_of_isUpperAlnum (List.mem_takeWhile_imp hc)

section
variable {N : Type} [Python N] {env : MarksEnv N}

theorem isCode_parseCourseHeader {header label code : String}
    (h : parseCourseHeader env header = some (label, code)) : IsCode code := by
  rw [parseCourseHeader, Option.bind_eq_some_iff] at h
  obtain ⟨⟨before, token⟩, hfound, h⟩ := h
  obtain ⟨code', hcode, heq⟩ := Option.map_eq_some_iff.mp h
  obtain ⟨-, rfl⟩ := Prod.mk.inj heq
  refine isCode_of_courseCode hcode ?_
  rcases Option.or_eq_some_iff.mp hfound with hbracketed | ⟨-, hbare⟩
  · exact isAlnum_bracketedCode hbracketed
  · exact isAlnum_bareCode hbare

theorem mem_courseColumns {students : List (MarksRecord N)} {known : List (Option String)}
    {headers : List String}
    {found : List (CourseColumn × List (Value N))} (h : courseColumns env students known headers =
        some found)
    {c : CourseColumn} (hc : c ∈ found.map Prod.fst) : parseCourseHeader env c.header =
        some (c.label, c.code) := by
  obtain ⟨read, hread, rfl⟩ := Option.map_eq_some_iff.mp h
  obtain ⟨⟨c', marks⟩, hmem, rfl⟩ := List.mem_map.mp hc
  obtain ⟨column, hcolumn, hid⟩ := List.mem_filterMap.mp hmem
  obtain rfl : column = some (c', marks) := hid
  obtain ⟨⟨header, following⟩, -, hheader⟩ := mem_of_mapM_some hread hcolumn
  rw [readColumn] at hheader
  by_cases hknown : some header ∈ known
  · rw [if_pos hknown] at hheader
    cases Option.some.inj hheader
  · rw [if_neg hknown] at hheader
    dsimp only at hheader
    rcases hparsed : parseCourseHeader env header with _ | ⟨label, code⟩
    · rw [hparsed] at hheader
      cases Option.some.inj hheader
    · rw [hparsed] at hheader
      dsimp only at hheader
      split_ifs at hheader
      · obtain ⟨rfl, -⟩ := Prod.mk.inj (Option.some.inj (Option.some.inj hheader))
        exact hparsed
      · cases Option.some.inj hheader

end

/-! ## What keys read -/

theorem strip_of_no_space {p : Char → Bool} {text : String} (h : ∀ c ∈ text.toList, p c = false) :
    Records.strip p text = text := by
  have hdrop : ∀ l : List Char, (∀ c ∈ l, p c = false) → l.dropWhile p = l := by
    intro l hl
    rw [List.dropWhile_eq_self_iff]
    intro hne
    rw [hl _ (List.getElem_mem hne)]
    exact Bool.false_ne_true
  rw [Records.strip, hdrop _ h, hdrop _ fun c hc => h c (List.mem_reverse.mp hc), List.reverse_reverse,
    String.ofList_toList]

section
variable {N : Type} [Python N] [CodeText N] {cleaning : Cleaning N}

theorem toList_readCode {code : String} (h : IsCode code) :
    (readCode cleaning code).toList = code.toList.map Char.toLower := by
  obtain ⟨hletters, hdigit⟩ := h
  have hall : ∀ c ∈ code.toList, isUpperAlnum c = true := List.all_eq_true.mp hletters
  have hspace : ∀ c ∈ code.toList, Python.isSpace N c = false :=
    fun c hc => (CodeText.code_not_space c (hall c hc)).1
  have hlower : (Python.lower N code).toList = code.toList.map Char.toLower :=
    CodeText.lower_code code hletters
  have hne : code.toList ≠ [] := by
    intro hnil
    rw [hnil] at hdigit
    cases hdigit
  have heven : normalizeWhitespace N code = code := by
    rw [normalizeWhitespace, words_of_no_space hne hspace, List.map_singleton, String.ofList_toList,
      String.intercalate_singleton]
  have hplace : Python.lower N code ∉ placeholders := by
    intro hmem
    have hnone : placeholders.all (fun text => !text.toList.any Char.isDigit) = true := by decide
    have hno := List.all_eq_true.mp hnone _ hmem
    obtain ⟨c, hc, hisDigit⟩ := List.any_eq_true.mp hdigit
    have hany : (Python.lower N code).toList.any Char.isDigit = true := by
      rw [hlower, List.any_map, List.any_eq_true]
      exact ⟨c, hc, by rw [Function.comp_apply, (toUpper_digit hisDigit).2]; exact hisDigit⟩
    rw [hany] at hno
    cases hno
  have hclean : cleanValue cleaning .string "course_code" (.text code) = .text code := by
    have hempty : code ≠ "" := fun heq => hne (by rw [heq]; rfl)
    have htyped : cleanTyped cleaning .string "course_code" (.text code) =
        .text (cleaning.upper (normalizeWhitespace N code)) := rfl
    simp only [cleanValue]
    rw [heven, if_neg (not_or.mpr ⟨hempty, hplace⟩), htyped, heven, cleaning.upper_code code hletters]
  have hkey : keyPart (.text code : Value N) = Python.lower N code := by
    have hwords : words (Python.isSpace N) (Python.lower N code).toList =
      [(Python.lower N code).toList] := by
      refine words_of_no_space ?_ ?_
      · rw [hlower]
        exact fun hnil => hne (List.map_eq_nil_iff.mp hnil)
      · rw [hlower]
        intro c hc
        obtain ⟨d, hd, rfl⟩ := List.mem_map.mp hc
        exact (CodeText.code_not_space d (hall d hd)).2
    have hfilter : (List.splitOnP (Python.isSpace N) (Python.lower N code).toList).filter
        (fun word => word ≠ []) = [(Python.lower N code).toList] := by
      rw [← hwords, words]
      refine List.filter_congr fun word _ => ?_
      cases word <;> rfl
    show String.intercalate " " (List.map String.ofList (List.filter _ (List.splitOnP _
      (Python.lower N (Records.strip (Python.isSpace N) code)).toList))) = _
    rw [strip_of_no_space hspace, hfilter, List.map_singleton, String.ofList_toList,
      String.intercalate_singleton]
  rw [readCode, hclean, hkey, hlower]

theorem readCode_inj {code code' : String} (h : IsCode code) (h' : IsCode code') :
    readCode cleaning code = readCode cleaning code' ↔ code = code' := by
  refine ⟨fun heq => ?_, congrArg _⟩
  have hback : ∀ {text : String}, IsCode text →
      ((readCode cleaning text).toList.map Char.toUpper) = text.toList := by
    intro text htext
    rw [toList_readCode htext, List.map_map]
    conv_rhs => rw [← List.map_id text.toList]
    exact List.map_congr_left fun c hc => (toUpper_toLower (List.all_eq_true.mp htext.1 c hc)).1
  rw [← String.toList_inj, ← hback h, ← hback h', heq]

theorem bar_not_mem_readCode {code : String} (h : IsCode code) :
    '|' ∉ (readCode cleaning code).toList := by
  rw [toList_readCode h]
  intro hmem
  obtain ⟨c, hc, heq⟩ := List.mem_map.mp hmem
  exact (toUpper_toLower (List.all_eq_true.mp h.1 c hc)).2.1 heq

variable {env : MarksEnv N} {headers : List String} {sheet : MarksSheet}

/-- What the record key reads of a row's student. -/
def readStudentId (cleaning : Cleaning N) (sheet : MarksSheet) (record : MarksRecord N) : String :=
  keyPart (cleanValue cleaning .identifier "student_id"
    (if noMark (record.cell sheet.idColumn) then .null else record.cell sheet.idColumn))

theorem toList_examKey (record : MarksRecord N) (c : ExamColumn) :
    (examKey cleaning (examRow env headers sheet record c)).toList =
      (readStudentId cleaning sheet record).toList ++
      '|' :: ((readCode cleaning c.code).toList ++ '|' :: (readExam cleaning c.exam).toList) := by
  show (String.intercalate "|" [readStudentId cleaning sheet record, readCode cleaning c.code,
    readExam cleaning c.exam]).toList = _
  rw [String.toList_intercalate]
  simp [List.intercalate, List.intersperse]

/-- **Two exam rows of a student share their key** iff their courses do and their exams read alike. -/
theorem sameKey_iff {c d : ExamColumn} (hc : IsCode c.code) (hd : IsCode d.code)
    (record : MarksRecord N) :
    examKey cleaning (examRow env headers sheet record c) = examKey cleaning
      (examRow env headers sheet record d) ↔
      c.code = d.code ∧ readExam cleaning c.exam = readExam cleaning d.exam := by
  rw [← String.toList_inj, toList_examKey, toList_examKey, List.append_cancel_left_eq,
    List.cons_inj_right]
  constructor
  · intro h
    obtain ⟨hcode, hexam⟩ := append_sep_inj (bar_not_mem_readCode hc) (bar_not_mem_readCode hd) h
    exact ⟨(readCode_inj hc hd).mp (String.toList_inj.mp hcode), String.toList_inj.mp hexam⟩
  · rintro ⟨hcode, hexam⟩
    rw [hcode, hexam]

end

/-! ## Names of exams -/

section
variable {name : CourseColumn → String}

variable (name) in
theorem examNames_concat (before : List CourseColumn) (c : CourseColumn) :
    examNames name (before ++ [c]) = nameExam name (examNames name before) c := List.foldl_append

variable (name) in
theorem get_examNames_append {header : String} (before after : List CourseColumn)
    (h : header ∉ after.map (·.header)) :
    (examNames name (before ++ after)).exams.get header = (examNames name before).exams.get header := by
  induction after using List.reverseRecOn with
  | nil => rw [List.append_nil]
  | append_singleton after c ih =>
    rw [List.map_append, List.mem_append, not_or] at h
    have hne : header ≠ c.header := fun heq => h.2 (heq ▸ List.mem_singleton_self _)
    rw [← List.append_assoc, examNames_concat, nameExam, Table.get_assign, if_neg hne, ih h.1]

variable (name) in
theorem get_examNames_last (before after : List CourseColumn) (c : CourseColumn)
    (h : c.header ∉ after.map (·.header)) :
    (examNames name (before ++ c :: after)).exams.get c.header =
      some (freeExam (examNames name before).taken c.code (name c)) := by
  rw [List.append_cons, get_examNames_append _ _ _ h, examNames_concat, nameExam, Table.get_assign,
    if_pos rfl]

theorem last_of_mem {columns : List CourseColumn} {header : String}
    (h : header ∈ columns.map (·.header)) :
    ∃ (before : List CourseColumn) (c : CourseColumn) (after : List CourseColumn),
      columns = before ++ c :: after ∧ c.header = header ∧ header ∉ after.map (·.header) := by
  induction columns with
  | nil => cases h
  | cons d columns ih =>
    by_cases hlater : header ∈ columns.map (·.header)
    · obtain ⟨before, c, after, rfl, hc, hafter⟩ := ih hlater
      exact ⟨d :: before, c, after, rfl, hc, hafter⟩
    · rw [List.map_cons, List.mem_cons] at h
      exact ⟨[], d, columns, rfl, (h.resolve_right hlater).symm, hlater⟩

/-- A course column comes for the last time and gets an exam that reads like one that its course has, of
a column that does not come again and that shares a row with it. -/
def ReadsAlike (read : String → String) (name : CourseColumn → String) (together : String → String →
    Prop)
    (before : List CourseColumn) (c : CourseColumn) (after : List CourseColumn) : Prop :=
  c.header ∉ after.map (·.header) ∧
    ∃ d ∈ before, d.header ∉ (c :: after).map (·.header) ∧ d.code = c.code ∧ together d.header c.header ∧
      ∃ exam, (examNames name before).exams.get d.header = some exam ∧
        read exam = read (freeExam (examNames name before).taken c.code (name c))

end

/-! ## The rows of one student -/

section
variable {N : Type} [Python N]

/-- The course columns of a sheet in the order of its headers, one for each time that a
header is there. -/
def repeatedColumns (env : MarksEnv N) (table : MarksTable N) : List CourseColumn :=
  (((idColumnOf env table.headers).bind fun idColumn => courseColumns env (studentsOf table idColumn)
    (knownColumns idColumn (nameColumnOf env table.headers idColumn)) table.headers).getD []).map
        Prod.fst

/-- Some row that is read and not skipped has cells under both headers. -/
def SharesRow (env : MarksEnv N) (sheet : MarksSheet) (records : List (MarksRecord N))
    (header header' : String) : Prop :=
  ∃ record ∈ records, isNote env sheet record = false ∧ noMark (record.cell header) = false ∧
    noMark (record.cell header') = false

/-- The exam rows of a student from different course columns have different keys. -/
def KeysDiffer (env : MarksEnv N) (cleaning : Cleaning N) (headers : List String) (sheet : MarksSheet)
    (records : List (MarksRecord N)) : Prop :=
  ∀ record ∈ records, isNote env sheet record = false →
    ∀ c ∈ filledColumns sheet record, ∀ d ∈ filledColumns sheet record, c ≠ d →
      examKey cleaning (examRow env headers sheet record c) ≠ examKey cleaning
      (examRow env headers sheet record d)

variable {env : MarksEnv N}

theorem marksSheet_columns {table : MarksTable N} {sheet : MarksSheet}
    (h : marksSheet env table = some sheet) :
    sheet.columns = examColumns env table (repeatedColumns env table) ∧
      ∀ c ∈ repeatedColumns env table, parseCourseHeader env c.header = some (c.label, c.code) := by
  obtain ⟨idColumn, found, hid, hfound, rfl⟩ := marksSheet_eq_some h
  have hrepeated : repeatedColumns env table = found.map Prod.fst := by
    rw [repeatedColumns, hid, Option.bind_some, hfound]
    rfl
  rw [hrepeated]
  exact ⟨rfl, fun c hc => mem_courseColumns hfound hc⟩

theorem labelled_subset (repeated : List CourseColumn) : labelled repeated ⊆ repeated := by
  induction repeated using List.reverseRecOn with
  | nil => exact List.Subset.refl _
  | append_singleton repeated c ih =>
    have hstep : labelled (repeated ++ [c]) = if (labelled repeated).any (·.header = c.header) then
      labelled repeated
        else labelled repeated ++ [c] := by
      rw [labelled, List.foldl_append]
      rfl
    rw [hstep]
    split_ifs
    · exact fun d hd => List.mem_append_left _ (ih hd)
    · exact List.append_subset.mpr ⟨fun d hd => List.mem_append_left _ (ih hd),
        List.subset_append_right _ _⟩

theorem mem_examColumns {table : MarksTable N} {repeated : List CourseColumn} {c : ExamColumn}
    (h : c ∈ examColumns env table repeated) : c.toCourseColumn ∈ labelled repeated ∧
      c.exam = ((examNames (columnExam env table (labelled repeated)) repeated).exams.get c.header).getD
      "" := by
  obtain ⟨column, hcolumn, rfl⟩ := List.mem_map.mp h
  exact ⟨hcolumn, rfl⟩

theorem noMark_of_mem {sheet : MarksSheet} {record : MarksRecord N} {c : ExamColumn}
    (h : c ∈ filledColumns sheet record) :
    c ∈ sheet.columns ∧ noMark (record.cell c.header) = false := by
  obtain ⟨hmem, hfilled⟩ := List.mem_filter.mp h
  exact ⟨hmem, by simpa using hfilled⟩

variable [CodeText N] {cleaning : Cleaning N}

/-- The columns of two exam rows that share their key: at the later one's last turn its exam reads like
the other's. -/
theorem readsAlike_of_sameKey {repeated : List CourseColumn} {name : CourseColumn → String}
    {read : String → String}
    {together : String → String → Prop} {c d : CourseColumn}
    (hunique : ∀ a ∈ repeated, ∀ b ∈ repeated, a.header = b.header → a = b)
    (hc : c ∈ repeated) (hd : d ∈ repeated) (hne : c.header ≠ d.header) (hcode : c.code = d.code)
    (htogether : together c.header d.header) (hback : together d.header c.header)
    (hread : read (((examNames name repeated).exams.get c.header).getD "") =
      read (((examNames name repeated).exams.get d.header).getD "")) :
    ∃ before e after, repeated = before ++ e :: after ∧
        ReadsAlike read name together before e after := by
  obtain ⟨before, c', after, hsplit, hc', hlast⟩ :=
    last_of_mem (List.mem_map_of_mem (f := (·.header)) hc)
  have hmem : c' ∈ repeated := by
    rw [hsplit]
    exact List.mem_append_right _ List.mem_cons_self
  obtain rfl : c' = c := hunique c' hmem c hc hc'
  by_cases hlater : d.header ∈ after.map (·.header)
  · -- the other column comes for the last time after this one
    obtain ⟨middle, d', rest, rfl, hd', hrest⟩ := last_of_mem hlater
    have hmem' : d' ∈ repeated := by
      rw [hsplit]
      exact List.mem_append_right _ (List.mem_cons_of_mem _ (List.mem_append_right _ List.mem_cons_self))
    obtain rfl : d' = d := hunique d' hmem' d hd hd'
    have hsplit' : repeated = (before ++ c' :: middle) ++ d' :: rest := by
      rw [hsplit, List.append_assoc, List.cons_append]
    have hgone : c'.header ∉ (d' :: rest).map (·.header) := fun h =>
      hlast (by rw [List.map_append]; exact List.mem_append_right _ h)
    refine ⟨_, d', rest, hsplit', hrest, c', List.mem_append_right _ List.mem_cons_self, hgone, hcode,
      htogether, ?_⟩
    have hstays := get_examNames_append name (before ++ c' :: middle) (d' :: rest) hgone
    have hmiddle : c'.header ∉ middle.map (·.header) := fun h =>
      hlast (by rw [List.map_append]; exact List.mem_append_left _ h)
    have hown := get_examNames_last name before middle c' hmiddle
    refine ⟨_, hown, ?_⟩
    rw [hsplit', hstays, hown, get_examNames_last _ _ _ _ hrest] at hread
    exact hread
  · have hearlier : d.header ∈ before.map (·.header) := by
      have hall := List.mem_map_of_mem (f := (·.header)) hd
      rw [hsplit, List.map_append, List.mem_append, List.map_cons, List.mem_cons] at hall
      exact hall.elim id fun h => (h.elim (fun h => absurd h.symm hne) fun h => absurd h hlater)
    have hgone : d.header ∉ (c' :: after).map (·.header) := by
      rw [List.map_cons, List.mem_cons, not_or]
      exact ⟨hne.symm, hlater⟩
    obtain ⟨start, d', rest, rfl, hd', hrest⟩ := last_of_mem hearlier
    have hmem' : d' ∈ repeated := by
      rw [hsplit]
      exact List.mem_append_left _ (List.mem_append_right _ List.mem_cons_self)
    obtain rfl : d' = d := hunique d' hmem' d hd hd'
    have hstays := get_examNames_append name (start ++ d' :: rest) (c' :: after) hgone
    have hown := get_examNames_last name start rest d' hrest
    refine ⟨_, c', after, hsplit, hlast, d', List.mem_append_right _ List.mem_cons_self, hgone,
      hcode.symm, hback, _, hown, ?_⟩
    rw [hsplit, hstays, hown, get_examNames_last _ _ _ _ hlast] at hread
    exact hread.symm

/-- **No two exam rows of a student share their key** iff no course column gets an exam that reads like
one that its course has, of a column with which it shares a row. -/
theorem keys_differ_iff (env : MarksEnv N) (cleaning : Cleaning N) (table reshaped : MarksTable N)
    (summary : ReshapeSummary) (h : reshapeMarksTable env table = some (reshaped, summary)) :
    ∃ sheet, marksSheet env table = some sheet ∧
      reshaped.records = examRows env table.headers sheet
        (courseCells env sheet (rowsRead env sheet 0 table.records)) ∧
      (KeysDiffer env cleaning table.headers sheet (rowsRead env sheet 0 table.records) ↔
        ∀ before c after, repeatedColumns env table = before ++ c :: after →
          ¬ReadsAlike (readExam cleaning) (columnExam env table (labelled (repeatedColumns env table)))
            (SharesRow env sheet (rowsRead env sheet 0 table.records)) before c after) := by
  obtain ⟨sheet, hsheet, heq⟩ := Option.map_eq_some_iff.mp h
  obtain ⟨hreshaped, -⟩ := Prod.mk.inj heq
  obtain ⟨hrows, -⟩ := readMarks_spec env table.headers sheet table.records {}
  obtain ⟨hcolumns, hparsed⟩ := marksSheet_columns hsheet
  have hunique : ∀ a ∈ repeatedColumns env table, ∀ b ∈ repeatedColumns env table, a.header = b.header →
    a = b := by
    intro a ha b hb hab
    have hlabel := hparsed a ha
    rw [hab, hparsed b hb] at hlabel
    obtain ⟨hlabel, hcode⟩ := Prod.mk.inj (Option.some.inj hlabel)
    obtain ⟨header, label, code⟩ := a
    obtain ⟨header', label', code'⟩ := b
    obtain rfl : header = header' := hab
    obtain rfl : label' = label := hlabel
    obtain rfl : code' = code := hcode
    rfl
  have hcolumn : ∀ c ∈ sheet.columns, c.toCourseColumn ∈ labelled (repeatedColumns env table) ∧
      c.exam = ((examNames (columnExam env table (labelled (repeatedColumns env table)))
        (repeatedColumns env table)).exams.get c.header).getD "" := by
    intro c hc
    rw [hcolumns] at hc
    exact mem_examColumns hc
  have hcode : ∀ c ∈ sheet.columns, IsCode c.code := fun c hc =>
    isCode_parseCourseHeader (hparsed _ (labelled_subset _ (hcolumn c hc).1))
  refine ⟨sheet, hsheet, by rw [← hreshaped, hrows]; rfl, ?_⟩
  constructor
  · rintro hdiffer before c after hsplit ⟨hlast, d, hd, hgone, hsame,
      ⟨record, hrecord, hnote, hdcell, hccell⟩, exam, hexam, hread⟩
    have hmem : ∀ e ∈ repeatedColumns env table, noMark (record.cell e.header) = false →
        ∃ column ∈ filledColumns sheet record, column.toCourseColumn = e := by
      intro e he hcell
      obtain ⟨e', he', hheader⟩ := List.mem_map.mp ((nodup_labelled (repeatedColumns env table)).2 e he)
      obtain rfl := hunique e' (labelled_subset _ he') e he hheader
      have hthere := List.mem_map_of_mem (f := fun c : CourseColumn =>
        (⟨c, (splitLabel env (labelled (repeatedColumns env table)) c).1,
          (splitLabel env (labelled (repeatedColumns env table)) c).2,
          ((examNames (columnExam env table (labelled (repeatedColumns env table)))
            (repeatedColumns env table)).exams.get c.header).getD ""⟩ : ExamColumn)) he'
      refine ⟨_, List.mem_filter.mpr ⟨by rw [hcolumns]; exact hthere, ?_⟩, rfl⟩
      simpa using hcell
    obtain ⟨column, hfilled, rfl⟩ := hmem c (by rw [hsplit]; simp) hccell
    obtain ⟨column', hfilled', rfl⟩ := hmem d (by rw [hsplit]; simp [hd]) hdcell
    have hne : column' ≠ column := by
      rintro rfl
      exact hgone List.mem_cons_self
    refine hdiffer record hrecord hnote column' hfilled' column hfilled hne ?_
    rw [sameKey_iff (hcode _ (noMark_of_mem hfilled').1) (hcode _ (noMark_of_mem hfilled).1)]
    refine ⟨hsame, ?_⟩
    rw [(hcolumn _ (noMark_of_mem hfilled').1).2, (hcolumn _ (noMark_of_mem hfilled).1).2]
    generalize columnExam env table (labelled (repeatedColumns env table)) = name at hexam hread ⊢
    rw [hsplit, get_examNames_append _ _ _ hgone, hexam, get_examNames_last _ _ _ _ hlast]
    exact hread
  · intro hnever record hrecord hnote c hc d hd hne hkey
    obtain ⟨hcmem, hccell⟩ := noMark_of_mem hc
    obtain ⟨hdmem, hdcell⟩ := noMark_of_mem hd
    rw [sameKey_iff (hcode c hcmem) (hcode d hdmem), (hcolumn c hcmem).2, (hcolumn d hdmem).2] at hkey
    have hheader : c.header ≠ d.header := fun heq =>
      hne (List.inj_on_of_nodup_map (nodup_columns hsheet) hcmem hdmem heq)
    have htogether : SharesRow env sheet (rowsRead env sheet 0 table.records) c.header d.header :=
      ⟨record, hrecord, hnote, hccell, hdcell⟩
    have hback : SharesRow env sheet (rowsRead env sheet 0 table.records) d.header c.header :=
      ⟨record, hrecord, hnote, hdcell, hccell⟩
    obtain ⟨before, e, after, hsplit, halike⟩ := readsAlike_of_sameKey hunique
      (labelled_subset _ (hcolumn c hcmem).1) (labelled_subset _ (hcolumn d hdmem).1) hheader hkey.1
      htogether hback hkey.2
    exact hnever before e after hsplit halike

end

/-! ## Groups that differ in letter case -/

instance : CodeText ℚ where
  lower_code _ _ := String.toList_map
  code_not_space _ hc := (toUpper_toLower hc).2.2.2

/-- Cleaning that leaves names, programs and numbers as they are. -/
def plainCleaning : Cleaning ℚ where
  upper := String.toUpper
  personName := id
  program := .text
  whole x := if x = x.floor then some x.floor else none
  other _ _ v := v
  upper_code code hcode := by
    have hchars : code.toList.map Char.toUpper = code.toList := by
      conv_rhs => rw [← List.map_id code.toList]
      exact List.map_congr_left fun c hc => (toUpper_toLower (List.all_eq_true.mp hcode c hc)).2.2.1
    rw [← String.toList_inj]
    exact String.toList_map.trans hchars

/-- A student's marks in two tests of one course and in another one. -/
def testsRow : MarksRecord ℚ where
  locator := "sheet=Marks;row=2"
  rowNumber := 2
  fields := [("USN", .text "1MB01"), ("CIE 1 HRM (MBA201)", .int 18), ("cie 1 HRM (MBA201)", .int 20),
    ("OB (MBA202)", .int 35)]
  sourceFile := "results.xlsx"
  sheet := some "Marks"
  page := none
  ocr := false
  ocrConfidence := none

def testsTable : MarksTable ℚ where
  name := "Marks"
  headers := ["USN", "CIE 1 HRM (MBA201)", "cie 1 HRM (MBA201)", "OB (MBA202)"]
  records := [testsRow]
  warnings := []
  page := none
  ocr := false
  title := ""

def upperTest : ExamColumn := ⟨⟨"CIE 1 HRM (MBA201)", "CIE 1 HRM", "MBA201"⟩, "CIE 1", "HRM", "CIE 1"⟩

def lowerTest : ExamColumn := ⟨⟨"cie 1 HRM (MBA201)", "cie 1 HRM", "MBA201"⟩, "cie 1", "HRM", "cie 1"⟩

def testsSheet : MarksSheet where
  idColumn := "USN"
  nameColumn := none
  columns := [upperTest, lowerTest, ⟨⟨"OB (MBA202)", "OB", "MBA202"⟩, "", "OB", "Marks"⟩]

def testColumns : List CourseColumn := testsSheet.columns.map (·.toCourseColumn)

theorem headerText_tests : ∀ test ∈ ["CIE 1", "cie 1"], headerText ℚ test = "cie 1" := by decide +kernel

theorem splitLabel_tests : splitLabel plainMarks testColumns upperTest.toCourseColumn =
    ("CIE 1", "HRM") ∧
    splitLabel plainMarks testColumns lowerTest.toCourseColumn = ("cie 1", "HRM") := by
  have hupper := headerText_tests "CIE 1" (by decide)
  have hlower := headerText_tests "cie 1" (by decide)
  have hgroups : testColumns.map (fun c => plainMarks.groupOf c.label) =
      [some ("CIE 1", some "HRM"), some ("cie 1", some "HRM"), none] := by decide
  have hcount : ∀ p : Option (String × Option String) → Bool,
      testColumns.countP (fun c => p (plainMarks.groupOf c.label)) =
        [some ("CIE 1", some "HRM"), some ("cie 1", some "HRM"), none].countP p := by
    intro p
    rw [← hgroups, List.countP_map]
    rfl
  have hstrip : GuruJi.Lib.strip (Python.isSpace ℚ) "HRM" = "HRM" := by decide
  have hknown : ∀ column : CourseColumn, ∀ test ∈ ["CIE 1", "cie 1"],
      plainMarks.groupOf column.label = some (test, some "HRM") →
        splitLabel plainMarks testColumns column = (test, "HRM") := by
    intro column test htest hgroup
    have hnamed : testColumns.countP (fun c => (plainMarks.groupOf c.label).any fun other =>
        headerText ℚ other.1 = headerText ℚ test) = 2 := by
      rw [hcount fun group => group.any fun other => headerText ℚ other.1 = headerText ℚ test,
        headerText_tests test htest]
      simp [hupper, hlower]
    rw [splitLabel, knownGroup, hgroup, Option.bind_some]
    dsimp only
    rw [hnamed, if_pos (Nat.le_refl 2)]
    show (test, GuruJi.Lib.strip (Python.isSpace ℚ) "HRM") = _
    rw [hstrip]
  exact ⟨hknown _ _ (by decide) rfl, hknown _ _ (by decide) rfl⟩

theorem columnExam_tests : testColumns.map (columnExam plainMarks testsTable testColumns) =
    ["CIE 1", "cie 1", "Marks"] := by
  have hupper : marksExamName plainMarks "CIE 1" "Marks" "" "results.xlsx" = "CIE 1" := by decide +kernel
  have hlower : marksExamName plainMarks "cie 1" "Marks" "" "results.xlsx" = "cie 1" := by decide +kernel
  have hother : columnExam plainMarks testsTable testColumns ⟨"OB (MBA202)", "OB", "MBA202"⟩ =
    "Marks" := by decide +kernel
  show [columnExam plainMarks testsTable testColumns upperTest.toCourseColumn,
    columnExam plainMarks testsTable testColumns lowerTest.toCourseColumn, _] = _
  rw [columnExam, columnExam, splitLabel_tests.1, splitLabel_tests.2, hother]
  exact congrArg₂ _ hupper (congrArg₂ _ hlower rfl)

theorem marksSheet_testsTable : marksSheet plainMarks testsTable = some testsSheet := by
  have hid : idColumnOf plainMarks testsTable.headers = some "USN" := by decide +kernel
  have hname : nameColumnOf plainMarks testsTable.headers "USN" = none := by decide +kernel
  have hattendance : holdsAttendance plainMarks testsTable (studentsOf testsTable "USN") = false := by
    decide +kernel
  have hfound : courseColumns plainMarks (studentsOf testsTable "USN")
      (knownColumns "USN" none) testsTable.headers =
      some (testColumns.zip [[.int 18], [.int 20], [.int 35]]) := by decide
  have hlabelled : labelled testColumns = testColumns := by decide
  have hmarks : holdsMarks plainMarks testsTable testColumns [.int 18, .int 20, .int 35] = true := by
    have hword : (contextOf testsTable).any plainMarks.marksWord = true := by decide +kernel
    have hrest : (3 ≤ testColumns.length && 2 ≤ (testColumns.map (·.code)).dedup.length &&
        !(testColumns.any fun c => plainMarks.percent (Python.lower ℚ c.header)) &&
        [(.int 18 : Value ℚ), .int 20, .int 35].all isMark &&
        !(((contextOf testsTable).take 2 ++ testColumns.map fun c =>
            headerText ℚ c.header).any plainMarks.gradePoints) &&
        !([(.int 18 : Value ℚ), .int 20, .int 35].all isGradePoint &&
          (contextOf testsTable).any plainMarks.gpa)) = true := by decide +kernel
    rw [holdsMarks, Bool.and_eq_true]
    exact ⟨hrest, Bool.or_eq_true_iff.mpr (.inr hword)⟩
  have hexams : examColumns plainMarks testsTable testColumns = testsSheet.columns := by
    have hnames : examNames (columnExam plainMarks testsTable testColumns) testColumns =
        (testColumns.zip ["CIE 1", "cie 1", "Marks"]).foldl
          (fun names c => nameExam (fun _ => c.2) names c.1) ⟨[], []⟩ := by
      rw [← columnExam_tests, ← List.map_prod_left_eq_zip, List.foldl_map]
      rfl
    have hgiven : ((testColumns.zip ["CIE 1", "cie 1", "Marks"]).foldl
        (fun names c => nameExam (fun _ => c.2) names c.1) ⟨[], []⟩).exams =
          [("CIE 1 HRM (MBA201)", "CIE 1"), ("cie 1 HRM (MBA201)", "cie 1"),
          ("OB (MBA202)", "Marks")] := by
      decide
    have hother : splitLabel plainMarks testColumns ⟨"OB (MBA202)", "OB", "MBA202"⟩ = ("", "OB") := by
      decide
    rw [examColumns, hlabelled, hnames, hgiven]
    simp only [testColumns, testsSheet, List.map_cons, List.map_nil] at hother ⊢
    have hupper := splitLabel_tests.1
    have hlower := splitLabel_tests.2
    simp only [testColumns, testsSheet, List.map_cons, List.map_nil] at hupper hlower
    rw [hupper, hlower, hother]
    rfl
  have hfst : (testColumns.zip [[(.int 18 : Value ℚ)], [.int 20], [.int 35]]).map Prod.fst =
    testColumns := rfl
  have hmarks' : holdsMarks plainMarks testsTable
      (labelled ((testColumns.zip [[(.int 18 : Value ℚ)], [.int 20], [.int 35]]).map Prod.fst))
      ((testColumns.zip [[.int 18], [.int 20], [.int 35]]).flatMap Prod.snd) = true := by
    rw [hfst, hlabelled]
    exact hmarks
  rw [← hname] at hfound
  have hsheet := marksSheet_of hid (List.cons_ne_nil _ _) hattendance hfound hmarks'
  rw [hfst, hexams, hname] at hsheet
  exact hsheet

/-- **A mark of a student overwrites another one**: tests "CIE 1" and "cie 1" of one course have the same
key. -/
theorem mark_overwritten : (reshapeMarksTable plainMarks testsTable).isSome ∧
    ¬KeysDiffer plainMarks plainCleaning testsTable.headers testsSheet
      (rowsRead plainMarks testsSheet 0 testsTable.records) := by
  obtain ⟨reshaped, summary, hreshape, -⟩ := reshapeMarksTable_eq marksSheet_testsTable
  refine ⟨by rw [hreshape]; rfl, fun hdiffer => ?_⟩
  have hread : testsRow ∈ rowsRead plainMarks testsSheet 0 testsTable.records := by
    rw [testsTable, rowsRead]
    split_ifs
    · exact List.mem_cons_self
    · exact List.mem_cons_self
    · exact List.mem_cons_self
  have hnote : isNote plainMarks testsSheet testsRow = false := by decide
  have hfilled : ∀ column ∈ [upperTest, lowerTest], column ∈ filledColumns testsSheet testsRow := by
    decide
  have hne : upperTest ≠ lowerTest := by decide
  have hcode : ∀ column ∈ [upperTest, lowerTest], IsCode column.code := by decide
  have hupper : upperTest ∈ [upperTest, lowerTest] := List.mem_cons_self
  have hlower : lowerTest ∈ [upperTest, lowerTest] := List.mem_cons_of_mem _ List.mem_cons_self
  refine hdiffer testsRow hread hnote _ (hfilled _ hupper) _ (hfilled _ hlower) hne ?_
  rw [sameKey_iff (hcode _ hupper) (hcode _ hlower)]
  refine ⟨rfl, ?_⟩
  have hclean : ∀ test ∈ ["CIE 1", "cie 1"],
      cleanValue plainCleaning .string "exam_name" (.text test) = .text test := by decide +kernel
  have hread : ∀ test ∈ ["CIE 1", "cie 1"], keyPart (.text test : Value ℚ) = "cie 1" := by decide +kernel
  show keyPart (cleanValue plainCleaning .string "exam_name" (.text "CIE 1")) =
    keyPart (cleanValue plainCleaning .string "exam_name" (.text "cie 1"))
  rw [hclean _ (by decide), hclean _ (by decide), hread _ (by decide), hread _ (by decide)]

theorem keys_differ_iff_testsTable : ∃ sheet, marksSheet plainMarks testsTable = some sheet ∧
    (KeysDiffer plainMarks plainCleaning testsTable.headers sheet
      (rowsRead plainMarks sheet 0 testsTable.records) ↔
      ∀ before c after, repeatedColumns plainMarks testsTable = before ++ c :: after →
        ¬ReadsAlike (readExam plainCleaning)
          (columnExam plainMarks testsTable (labelled (repeatedColumns plainMarks testsTable)))
          (SharesRow plainMarks sheet (rowsRead plainMarks sheet 0 testsTable.records)) before c
              after) := by
  obtain ⟨reshaped, summary, hreshape, -⟩ := reshapeMarksTable_eq marksSheet_testsTable
  obtain ⟨sheet, hsheet, -, hiff⟩ :=
    keys_differ_iff plainMarks plainCleaning testsTable reshaped summary hreshape
  exact ⟨sheet, hsheet, hiff⟩

end GuruJi.Ingestion
