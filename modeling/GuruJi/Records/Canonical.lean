import GuruJi.Lib.Table
import GuruJi.Lib.Text
import Mathlib.Data.List.Nodup
import Mathlib.Data.Rat.Floor

/-!
# The canonical data model

Values, entities and records of the institution's tables. The numbers of a sheet are a type `N`
with the operations that the rules apply to them: Python's floats, with the rounding left open and
`nan` left out. What Python does with letters and spaces is left open too.
-/

namespace GuruJi.Records

open GuruJi.Lib

/-- Python's floats and texts, as far as the rules use them. -/
class Python (N : Type) where
  same : N → N → Bool
  le : N → N → Bool
  lt : N → N → Bool
  sub : N → N → N
  mul : N → N → N
  div : N → N → N
  abs : N → N
  round2 : N → N
  ofInt : Int → N
  half : N
  threeHalves : N
  toText : N → String
  parse : String → Option N
  isSpace : Char → Bool
  lower : String → String
  casefold : String → String
  repr : String → String
  same_self : ∀ x, same x x = true
  letter_not_space : ∀ c : Char, c.isAlpha = true → isSpace c = false

/-- Numbers without rounding, to compute examples with; `toText` is right for whole numbers and
`parse` for words. -/
instance : Python ℚ where
  same x y := x = y
  le x y := x ≤ y
  lt x y := x < y
  sub := (· - ·)
  mul := (· * ·)
  div := (· / ·)
  abs x := if x < 0 then -x else x
  round2 x := (x * 100 + 1 / 2).floor / 100
  ofInt i := i
  half := 1 / 2
  threeHalves := 3 / 2
  toText x := toString x.floor ++ ".0"
  parse _ := none
  isSpace := Char.isWhitespace
  lower := String.toLower
  casefold := String.toLower
  repr text := "'" ++ text ++ "'"
  same_self := by simp
  letter_not_space := by
    intro c hc
    rw [Bool.eq_false_iff]
    intro hspace
    simp only [Char.isWhitespace, Bool.or_eq_true, decide_eq_true_eq] at hspace
    rcases hspace with ((rfl | rfl) | rfl) | rfl <;> revert hc <;> decide

inductive Value (N : Type) where
  | null
  | text (s : String)
  | int (i : Int)
  | number (x : N)
  | bool (b : Bool)
  deriving DecidableEq

/-- A row's columns by name; `fields.get(name)` of a column that is not there is null. -/
abbrev Fields (N : Type) := String → Value N

/-- `text.strip()`. -/
def strip (isSpace : Char → Bool) (text : String) : String :=
  String.ofList (((text.toList.dropWhile isSpace).reverse.dropWhile isSpace).reverse)

namespace Value
variable {N : Type}

def isNull : Value N → Bool
  | null => true
  | _ => false

theorem isNull_iff {v : Value N} : v.isNull = true ↔ v = .null := by
  cases v <;> simp [isNull]

theorem isNull_eq_false_iff {v : Value N} : v.isNull = false ↔ v ≠ .null := by
  cases v <;> simp [isNull]

variable [Python N]

/-- `_blank`. -/
def blank : Value N → Bool
  | null => true
  | text s => s.toList.all (Python.isSpace N)
  | _ => false

/-- `if value`. -/
def truthy : Value N → Bool
  | null => false
  | text s => s ≠ ""
  | int i => i ≠ 0
  | number x => !Python.same x (Python.ofInt 0)
  | bool b => b

/-- `str(value)`. -/
def str : Value N → String
  | null => "None"
  | text s => s
  | int i => toString i
  | number x => Python.toText x
  | bool b => if b then "True" else "False"

/-- `int(value)` of a column that holds integers. -/
def toInt : Value N → Int
  | int i => i
  | bool b => if b then 1 else 0
  | _ => 0

/-- `float(value)`, `none` where it raises. -/
def toNumber : Value N → Option N
  | int i => some (Python.ofInt i)
  | number x => some x
  | bool b => some (Python.ofInt (if b then 1 else 0))
  | text s => Python.parse s
  | null => none

/-- `float(value)` of a column that holds numbers. -/
def toFloat (v : Value N) : N := v.toNumber.getD (Python.ofInt 0)

/-- A number without a fraction; booleans count as `0` and `1`. -/
def asInt : Value N → Option Int
  | int i => some i
  | bool b => some (if b then 1 else 0)
  | _ => none

/-- `left == right`. -/
def same : Value N → Value N → Bool
  | null, null => true
  | text s, text t => s = t
  | number x, number y => Python.same x y
  | number x, v => v.asInt.any fun i => Python.same x (Python.ofInt i)
  | v, number y => v.asInt.any fun i => Python.same (Python.ofInt i) y
  | v, w => v.asInt.isSome && v.asInt = w.asInt

theorem same_self (v : Value N) : v.same v = true := by
  cases v with
  | number x => exact Python.same_self x
  | null => rfl
  | _ => simp [same, asInt]

/-- `_agrees`. -/
def agrees (left right : Value N) : Bool :=
  if left.isNull ∨ right.isNull then left.isNull && right.isNull
  else
    match left.toNumber, right.toNumber with
    | some x, some y => Python.le (Python.abs (Python.sub x y)) Python.half
    | _, _ => Python.casefold N (strip (Python.isSpace N) left.str) =
        Python.casefold N (strip (Python.isSpace N) right.str)

end Value

/-! ## Entities -/

inductive FieldType where
  | string | integer | number | date | boolean | percent | phone | email | identifier
  deriving DecidableEq

structure CanonicalField where
  name : String
  fieldType : FieldType
  deriving DecidableEq

/-- The columns `derive_fields` can fill, each with every column its value depends on; a column
comes before those worked out from it. -/
def derivedFields (entity : String) : List (String × List String) :=
  if entity = "attendance" then
    [("classes_attended", ["classes_held", "classes_absent"]),
      ("attendance_percent", ["classes_held", "classes_attended", "classes_absent"])]
  else if entity = "fee" then
    [("balance", ["amount_due", "amount_paid"]),
      ("status", ["amount_due", "amount_paid", "balance"])]
  else []

/-- The columns that `derive_fields` and `cross_field_issues` read or fill. -/
def ruledFields (entity : String) : List String :=
  (derivedFields entity).flatMap (fun d => d.1 :: d.2) ++
    if entity = "exam" then ["marks_obtained", "max_marks"] else []

/-- An entity as its constructor accepts it, with the columns that its rules name. -/
structure CanonicalEntity where
  name : String
  naturalKey : List String
  fields : List CanonicalField
  distinct : (fields.map (·.name)).Nodup
  keyed : ∀ key ∈ naturalKey, key ∈ fields.map (·.name)
  ruled : ∀ column ∈ ruledFields name, ∃ item ∈ fields, item.name = column ∧
    item.fieldType ≠ .boolean ∧ item.fieldType ≠ .phone

namespace CanonicalEntity

def fieldNames (entity : CanonicalEntity) : List String := entity.fields.map (·.name)

def field (entity : CanonicalEntity) (name : String) : Option CanonicalField :=
  entity.fields.find? (·.name = name)

variable {entity : CanonicalEntity}

theorem field_eq_some {name : String} {item : CanonicalField} :
    entity.field name = some item ↔ item ∈ entity.fields ∧ item.name = name := by
  constructor
  · intro h
    exact ⟨List.mem_of_find?_eq_some h, by simpa using List.find?_some h⟩
  · rintro ⟨hitem, rfl⟩
    cases hfind : entity.field item.name with
    | none => simpa using List.find?_eq_none.mp hfind item hitem
    | some other =>
      have hname : other.name = item.name := by simpa using List.find?_some hfind
      exact congrArg some
        (List.inj_on_of_nodup_map entity.distinct (List.mem_of_find?_eq_some hfind) hitem hname)

theorem field_eq_none {name : String} : entity.field name = none ↔ name ∉ entity.fieldNames := by
  rw [field, List.find?_eq_none, fieldNames, List.mem_map]
  simp

end CanonicalEntity

/-! The entities whose columns are derived or checked against each other, and students. -/

def student : CanonicalEntity where
  name := "student"
  naturalKey := ["student_id"]
  fields := [⟨"student_id", .identifier⟩, ⟨"name", .string⟩, ⟨"first_name", .string⟩,
    ⟨"last_name", .string⟩, ⟨"program", .string⟩, ⟨"department", .string⟩, ⟨"semester", .integer⟩,
    ⟨"section", .string⟩, ⟨"batch", .string⟩, ⟨"admission_year", .integer⟩,
    ⟨"date_of_birth", .date⟩, ⟨"gender", .string⟩, ⟨"phone", .phone⟩, ⟨"email", .email⟩,
    ⟨"guardian_name", .string⟩, ⟨"guardian_phone", .phone⟩, ⟨"address", .string⟩,
    ⟨"category", .string⟩, ⟨"blood_group", .string⟩, ⟨"status", .string⟩]
  distinct := by decide
  keyed := by decide
  ruled := by decide

def attendance : CanonicalEntity where
  name := "attendance"
  naturalKey := ["student_id", "course_code", "period"]
  fields := [⟨"student_id", .identifier⟩, ⟨"student_name", .string⟩, ⟨"program", .string⟩,
    ⟨"department", .string⟩, ⟨"semester", .integer⟩, ⟨"section", .string⟩, ⟨"course_code", .string⟩,
    ⟨"period", .string⟩, ⟨"classes_held", .integer⟩, ⟨"classes_attended", .integer⟩,
    ⟨"classes_absent", .integer⟩, ⟨"attendance_percent", .percent⟩, ⟨"recorded_on", .date⟩]
  distinct := by decide
  keyed := by decide
  ruled := by decide

def fee : CanonicalEntity where
  name := "fee"
  naturalKey := ["student_id", "fee_type", "academic_year", "semester", "receipt_no"]
  fields := [⟨"student_id", .identifier⟩, ⟨"student_name", .string⟩, ⟨"program", .string⟩,
    ⟨"semester", .integer⟩, ⟨"academic_year", .string⟩, ⟨"fee_type", .string⟩,
    ⟨"amount_due", .number⟩, ⟨"amount_paid", .number⟩, ⟨"balance", .number⟩, ⟨"due_date", .date⟩,
    ⟨"paid_on", .date⟩, ⟨"receipt_no", .string⟩, ⟨"payment_mode", .string⟩, ⟨"status", .string⟩]
  distinct := by decide
  keyed := by decide
  ruled := by decide

def exam : CanonicalEntity where
  name := "exam"
  naturalKey := ["student_id", "course_code", "exam_name"]
  fields := [⟨"student_id", .identifier⟩, ⟨"student_name", .string⟩, ⟨"program", .string⟩,
    ⟨"semester", .integer⟩, ⟨"course_code", .string⟩, ⟨"course_name", .string⟩,
    ⟨"exam_name", .string⟩, ⟨"marks_obtained", .number⟩, ⟨"max_marks", .number⟩, ⟨"grade", .string⟩,
    ⟨"result_status", .string⟩, ⟨"exam_date", .date⟩]
  distinct := by decide
  keyed := by decide
  ruled := by decide

/-! The other entities. -/

def faculty : CanonicalEntity where
  name := "faculty"
  naturalKey := ["faculty_id"]
  fields := [⟨"faculty_id", .identifier⟩, ⟨"name", .string⟩, ⟨"designation", .string⟩,
    ⟨"department", .string⟩, ⟨"qualification", .string⟩, ⟨"specialization", .string⟩,
    ⟨"email", .email⟩, ⟨"phone", .phone⟩, ⟨"joining_date", .date⟩, ⟨"experience_years", .number⟩,
    ⟨"is_hod", .boolean⟩, ⟨"status", .string⟩]
  distinct := by decide
  keyed := by decide
  ruled := by decide

def staff : CanonicalEntity where
  name := "staff"
  naturalKey := ["staff_id"]
  fields := [⟨"staff_id", .identifier⟩, ⟨"name", .string⟩, ⟨"designation", .string⟩,
    ⟨"department", .string⟩, ⟨"email", .email⟩, ⟨"phone", .phone⟩, ⟨"joining_date", .date⟩,
    ⟨"status", .string⟩]
  distinct := by decide
  keyed := by decide
  ruled := by decide

def program : CanonicalEntity where
  name := "program"
  naturalKey := ["code"]
  fields := [⟨"code", .identifier⟩, ⟨"name", .string⟩, ⟨"department", .string⟩, ⟨"level", .string⟩,
    ⟨"duration_semesters", .integer⟩, ⟨"intake", .integer⟩, ⟨"status", .string⟩]
  distinct := by decide
  keyed := by decide
  ruled := by decide

def department : CanonicalEntity where
  name := "department"
  naturalKey := ["code"]
  fields := [⟨"code", .identifier⟩, ⟨"name", .string⟩, ⟨"hod_id", .identifier⟩,
    ⟨"hod_name", .string⟩, ⟨"hod_email", .email⟩, ⟨"status", .string⟩]
  distinct := by decide
  keyed := by decide
  ruled := by decide

def course : CanonicalEntity where
  name := "course"
  naturalKey := ["code"]
  fields := [⟨"code", .identifier⟩, ⟨"name", .string⟩, ⟨"program", .string⟩,
    ⟨"department", .string⟩, ⟨"semester", .integer⟩, ⟨"credits", .number⟩,
    ⟨"faculty_id", .identifier⟩, ⟨"course_type", .string⟩]
  distinct := by decide
  keyed := by decide
  ruled := by decide

def enrollment : CanonicalEntity where
  name := "enrollment"
  naturalKey := ["student_id", "academic_year", "semester"]
  fields := [⟨"student_id", .identifier⟩, ⟨"program", .string⟩, ⟨"semester", .integer⟩,
    ⟨"academic_year", .string⟩, ⟨"section", .string⟩, ⟨"status", .string⟩]
  distinct := by decide
  keyed := by decide
  ruled := by decide

def admission : CanonicalEntity where
  name := "admission"
  naturalKey := ["application_id"]
  fields := [⟨"application_id", .identifier⟩, ⟨"name", .string⟩, ⟨"program", .string⟩,
    ⟨"status", .string⟩, ⟨"applied_on", .date⟩, ⟨"phone", .phone⟩, ⟨"email", .email⟩,
    ⟨"category", .string⟩, ⟨"entrance_score", .number⟩, ⟨"academic_year", .string⟩]
  distinct := by decide
  keyed := by decide
  ruled := by decide

def event : CanonicalEntity where
  name := "event"
  naturalKey := ["title", "event_date"]
  fields := [⟨"title", .string⟩, ⟨"event_date", .date⟩, ⟨"end_date", .date⟩, ⟨"category", .string⟩,
    ⟨"organizer", .string⟩, ⟨"venue", .string⟩, ⟨"description", .string⟩,
    ⟨"participants", .integer⟩]
  distinct := by decide
  keyed := by decide
  ruled := by decide

/-- `CANONICAL_ENTITIES`. -/
def canonicalEntities : List CanonicalEntity :=
  [student, faculty, staff, program, department, course, attendance, fee, exam, enrollment, admission,
    event]

/-! ## Issues and lineage -/

inductive Severity where
  | error | warning | info
  deriving DecidableEq

structure Issue where
  field : String
  code : String
  severity : Severity
  value : Option String
  extra : List (String × String)
  deriving DecidableEq

structure RecordLineage where
  sourceFileId : Option String
  sourceFileName : Option String
  sourceLocator : Option String
  ingestionJobId : Option String
  deriving DecidableEq

/-! ## Keys -/

section
variable {N : Type} [Python N]

/-- `_key_part`: words in lower case, with one space between them. -/
def keyPart (v : Value N) : String :=
  if v.isNull then ""
  else
    let text := Python.lower N (strip (Python.isSpace N) v.str)
    String.intercalate " " (((text.toList.splitOnP (Python.isSpace N)).filter (· ≠ [])).map
      String.ofList)

/-- `record_key_for`. -/
def recordKeyFor (entity : CanonicalEntity) (fields : Fields N) : String :=
  String.intercalate "|" (entity.naturalKey.map fun name => keyPart (fields name))

end

end GuruJi.Records
