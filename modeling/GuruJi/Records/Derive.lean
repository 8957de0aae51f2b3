import GuruJi.Lib.Fold
import GuruJi.Records.Canonical
import Mathlib.Logic.Function.Basic

/-!
# Derived columns and cleaned records

`deriveFields` fills the blank columns that follow from others, and `crossFieldIssues` checks
columns against each other. `worked` is the value a derived column has when it is worked out afresh:
it depends on the inputs of the column alone (`worked_congr`). A `CanonicalRecord` is what cleaning
and validation leave of a row of a sheet; `cleanRecord` builds one.
-/

namespace GuruJi.Records

open GuruJi.Lib

variable {N : Type} [Python N]

/-- `f"{name}:derived_from_..."`. -/
def derivedNote (notes : List String) (name : String) : Bool :=
  notes.any (startsWith (name ++ ":" ++ "derived_from_"))

def deriveAttendance (fields : Fields N) : Fields N × List String :=
  let held := fields "classes_held"
  let absent := fields "classes_absent"
  let counted : Fields N × List String :=
    if (fields "classes_attended").isNull && !held.isNull && !absent.isNull then
      (Function.update fields "classes_attended" (.int (max 0 (held.toInt - absent.toInt))),
        ["classes_attended:derived_from_absent"])
    else (fields, [])
  let attended := counted.1 "classes_attended"
  if (counted.1 "attendance_percent").isNull && held.truthy && !attended.isNull then
    (Function.update counted.1 "attendance_percent" (.number (Python.round2
        (Python.mul (Python.div attended.toFloat held.toFloat) (Python.ofInt 100)))),
      counted.2 ++ ["attendance_percent:derived_from_counts"])
  else counted

def deriveFee (fields : Fields N) : Fields N × List String :=
  let due := fields "amount_due"
  let paid := fields "amount_paid"
  let balanced : Fields N × List String :=
    if (fields "balance").isNull && !due.isNull then
      (Function.update fields "balance" (.number (Python.round2
          (Python.sub due.toFloat (if paid.truthy then paid.toFloat else Python.ofInt 0)))),
        ["balance:derived_from_due_minus_paid"])
    else (fields, [])
  let balance := balanced.1 "balance"
  if (balanced.1 "status").isNull && !balance.isNull then
    (Function.update balanced.1 "status" (.text (if Python.le balance.toFloat (Python.ofInt 0 : N) then
        "paid" else if paid.truthy then "partial" else "pending")),
      balanced.2 ++ ["status:derived_from_balance"])
  else balanced

/-- `derive_fields`. -/
def deriveFields (entity : String) (fields : Fields N) : Fields N × List String :=
  if entity = "attendance" then deriveAttendance fields
  else if entity = "fee" then deriveFee fields
  else (fields, [])

def worked (entity : String) (fields : Fields N) (name : String) : Value N :=
  (deriveFields entity (Function.update fields name .null)).1 name

def workedNotes (entity : String) (fields : Fields N) (name : String) : List String :=
  (deriveFields entity (Function.update fields name .null)).2.filter (beforeColon · = name)

/-- `CROSS_FIELD_CODES`. -/
def crossFieldCodes : List String :=
  ["attended_exceeds_held", "attendance_unknown", "marks_exceed_maximum", "paid_far_exceeds_due"]

/-- `_issue`. -/
def issue (field code : String) (severity : Severity) (value : Value N)
    (extra : List (String × String)) : Issue :=
  ⟨field, code, severity, if value.isNull then none else some (upTo 60 value.str), extra⟩

/-- `cross_field_issues`. -/
def crossFieldIssues (entity : String) (fields : Fields N) : List Issue :=
  if entity = "attendance" then
    let held := fields "classes_held"
    let attended := fields "classes_attended"
    (if !held.isNull && !attended.isNull && held.toInt < attended.toInt then
        [issue "classes_attended" "attended_exceeds_held" .error attended [("classes_held", held.str)]]
      else []) ++
    (if (fields "attendance_percent").isNull && (held.isNull || held.toInt = 0 || attended.isNull) then
        [issue "attendance_percent" "attendance_unknown" .warning (.null : Value N) []]
      else [])
  else if entity = "exam" then
    let marks := fields "marks_obtained"
    let maximum := fields "max_marks"
    if !marks.isNull && !maximum.isNull && Python.lt maximum.toFloat marks.toFloat then
      [issue "marks_obtained" "marks_exceed_maximum" .error marks [("max_marks", maximum.str)]]
    else []
  else if entity = "fee" then
    let due := fields "amount_due"
    let paid := fields "amount_paid"
    if !due.isNull && !paid.isNull &&
        Python.lt (Python.mul due.toFloat Python.threeHalves) paid.toFloat &&
        Python.lt (Python.ofInt 0 : N) due.toFloat then
      [issue "amount_paid" "paid_far_exceeds_due" .warning paid [("amount_due", due.str)]]
    else []
  else []

/-! ## What a derived column depends on -/

section
variable {entity : String} {d : String × List String} {fields fields' : Fields N}

theorem derivedFields_cases (h : d ∈ derivedFields entity) :
    entity = "attendance" ∧ (d = ("classes_attended", ["classes_held", "classes_absent"]) ∨
        d = ("attendance_percent", ["classes_held", "classes_attended", "classes_absent"])) ∨
      entity = "fee" ∧ (d = ("balance", ["amount_due", "amount_paid"]) ∨
        d = ("status", ["amount_due", "amount_paid", "balance"])) := by
  rw [derivedFields] at h
  split_ifs at h with ha hf
  · exact .inl ⟨ha, by simpa using h⟩
  · exact .inr ⟨hf, by simpa using h⟩
  · simp at h

end

section
variable (fields : Fields N)

theorem worked_classesAttended : worked "attendance" fields "classes_attended" =
      (if !(fields "classes_held").isNull && !(fields "classes_absent").isNull then
        .int (max 0 ((fields "classes_held").toInt - (fields "classes_absent").toInt)) else .null) ∧
    workedNotes "attendance" fields "classes_attended" =
      if !(fields "classes_held").isNull && !(fields "classes_absent").isNull then
        ["classes_attended:derived_from_absent"] else [] := by
  simp only [worked, workedNotes, deriveFields, deriveAttendance, if_true]
  simp [Value.isNull, beforeColon]
  split_ifs <;> simp_all

/-- The attended classes that a percentage is of. -/
def attendedClasses (fields : Fields N) : Value N :=
  if (fields "classes_attended").isNull && !(fields "classes_held").isNull &&
      !(fields "classes_absent").isNull then
    .int (max 0 ((fields "classes_held").toInt - (fields "classes_absent").toInt))
  else fields "classes_attended"

theorem worked_attendancePercent : worked "attendance" fields "attendance_percent" =
      (if (fields "classes_held").truthy && !(attendedClasses fields).isNull then
        .number (Python.round2 (Python.mul
          (Python.div (attendedClasses fields).toFloat (fields "classes_held").toFloat)
          (Python.ofInt 100))) else .null) ∧
    workedNotes "attendance" fields "attendance_percent" =
      if (fields "classes_held").truthy && !(attendedClasses fields).isNull then
        ["attendance_percent:derived_from_counts"] else [] := by
  simp only [worked, workedNotes, deriveFields, deriveAttendance, attendedClasses, if_true]
  simp [Value.isNull, beforeColon]
  split_ifs <;> simp_all

theorem worked_balance : worked "fee" fields "balance" = (if !(fields "amount_due").isNull then
        .number (Python.round2 (Python.sub (fields "amount_due").toFloat
          (if (fields "amount_paid").truthy then (fields "amount_paid").toFloat
          else Python.ofInt 0))) else .null) ∧
    workedNotes "fee" fields "balance" =
      if !(fields "amount_due").isNull then ["balance:derived_from_due_minus_paid"] else [] := by
  simp only [worked, workedNotes, deriveFields, deriveFee, if_true]
  simp [Value.isNull, beforeColon]
  split_ifs <;> simp_all

def owed (fields : Fields N) : Value N :=
  if (fields "balance").isNull && !(fields "amount_due").isNull then
    .number (Python.round2 (Python.sub (fields "amount_due").toFloat
      (if (fields "amount_paid").truthy then (fields "amount_paid").toFloat else Python.ofInt 0)))
  else fields "balance"

theorem worked_status : worked "fee" fields "status" = (if !(owed fields).isNull then
        .text (if Python.le (owed fields).toFloat (Python.ofInt 0 : N) then "paid"
          else if (fields "amount_paid").truthy then "partial" else "pending") else .null) ∧
    workedNotes "fee" fields "status" =
      if !(owed fields).isNull then ["status:derived_from_balance"] else [] := by
  simp only [worked, workedNotes, deriveFields, deriveFee, owed, if_true]
  simp [Value.isNull, beforeColon]
  split_ifs <;> simp_all

end

section
variable {entity : String} {d : String × List String} {fields fields' : Fields N}

/-- **A derived column depends on its inputs alone.** -/
theorem worked_congr (hd : d ∈ derivedFields entity) (h : ∀ i ∈ d.2, fields i = fields' i) :
    worked entity fields d.1 = worked entity fields' d.1 ∧
      workedNotes entity fields d.1 = workedNotes entity fields' d.1 := by
  rcases derivedFields_cases hd with ⟨rfl, rfl | rfl⟩ | ⟨rfl, rfl | rfl⟩
  · have hheld := h "classes_held" (by simp)
    have habsent := h "classes_absent" (by simp)
    simp only [worked_classesAttended, hheld, habsent, and_self]
  · have hheld := h "classes_held" (by simp)
    have hattended : attendedClasses fields = attendedClasses fields' := by
      simp only [attendedClasses, hheld, h "classes_attended" (by simp), h "classes_absent" (by simp)]
    simp only [worked_attendancePercent, hheld, hattended, and_self]
  · have hdue := h "amount_due" (by simp)
    have hpaid := h "amount_paid" (by simp)
    simp only [worked_balance, hdue, hpaid, and_self]
  · have hpaid := h "amount_paid" (by simp)
    have howed : owed fields = owed fields' := by
      simp only [owed, h "amount_due" (by simp), hpaid, h "balance" (by simp)]
    simp only [worked_status, hpaid, howed, and_self]

theorem derivedNote_workedNotes (hd : d ∈ derivedFields entity) :
    derivedNote (workedNotes entity fields d.1) d.1 = !(worked entity fields d.1).isNull := by
  rcases derivedFields_cases hd with ⟨rfl, rfl | rfl⟩ | ⟨rfl, rfl | rfl⟩
  · simp only [worked_classesAttended]
    split_ifs <;> rfl
  · simp only [worked_attendancePercent]
    split_ifs <;> rfl
  · simp only [worked_balance]
    split_ifs <;> rfl
  · simp only [worked_status]
    split_ifs <;> rfl

theorem worked_blank (hd : d ∈ derivedFields entity) (h : (worked entity fields d.1).blank = true) :
    worked entity fields d.1 = .null := by
  have hletter : Python.isSpace N 'p' = false := Python.letter_not_space 'p' (by decide)
  rcases derivedFields_cases hd with ⟨rfl, rfl | rfl⟩ | ⟨rfl, rfl | rfl⟩
  · rw [(worked_classesAttended fields).1] at h ⊢
    split_ifs at h ⊢ <;> first | rfl | simp [Value.blank] at h
  · rw [(worked_attendancePercent fields).1] at h ⊢
    split_ifs at h ⊢ <;> first | rfl | simp [Value.blank] at h
  · rw [(worked_balance fields).1] at h ⊢
    split_ifs at h ⊢ <;> first | rfl | simp [Value.blank] at h
  · rw [(worked_status fields).1] at h ⊢
    split_ifs at h ⊢ <;> first | rfl | simp [Value.blank, hletter] at h

theorem about_of_derivedNote {notes : List String} (hd : d ∈ derivedFields entity)
    (h : derivedNote notes d.1 = true) : ∃ note ∈ notes, beforeColon note = d.1 ∧
      startsWith (d.1 ++ ":" ++ "derived_from_") note = true := by
  obtain ⟨note, hnote, hstarts⟩ := List.any_eq_true.mp h
  refine ⟨note, hnote, beforeColon_of_startsWith ?_ hstarts, hstarts⟩
  rcases derivedFields_cases hd with ⟨-, rfl | rfl⟩ | ⟨-, rfl | rfl⟩ <;> decide

theorem crossFieldIssues_congr (h : ∀ column ∈ ruledFields entity, fields column = fields' column) :
    crossFieldIssues entity fields = crossFieldIssues entity fields' := by
  by_cases ha : entity = "attendance"
  · subst ha
    simp only [crossFieldIssues, if_true, h "classes_held" (by decide),
      h "classes_attended" (by decide), h "attendance_percent" (by decide)]
  by_cases he : entity = "exam"
  · subst he
    simp only [crossFieldIssues, if_neg ha, if_true, h "marks_obtained" (by decide),
      h "max_marks" (by decide)]
  by_cases hf : entity = "fee"
  · subst hf
    simp only [crossFieldIssues, if_neg ha, if_neg he, if_true, h "amount_due" (by decide),
      h "amount_paid" (by decide)]
  simp only [crossFieldIssues, if_neg ha, if_neg he, if_neg hf]

theorem derivedFields_ordered (entity : String) :
    (derivedFields entity).Pairwise fun a b => b.1 ≠ a.1 ∧ b.1 ∉ a.2 := by
  rw [derivedFields]
  split_ifs <;> decide

theorem mem_ruledFields (hd : d ∈ derivedFields entity) {column : String}
    (h : column = d.1 ∨ column ∈ d.2) : column ∈ ruledFields entity := by
  refine List.mem_append_left _ (List.mem_flatMap.mpr ⟨d, hd, ?_⟩)
  exact List.mem_cons.mpr h

theorem derivedField_type {entity : CanonicalEntity} {item : CanonicalField}
    (hd : d ∈ derivedFields entity.name) (hitem : item ∈ entity.fields) (h : item.name = d.1) :
    item.fieldType ≠ .boolean ∧ item.fieldType ≠ .phone := by
  obtain ⟨other, hother, hname, htype⟩ := entity.ruled d.1 (mem_ruledFields hd (.inl rfl))
  have heq : item = other :=
    List.inj_on_of_nodup_map entity.distinct hitem hother (h.trans hname.symm)
  exact heq ▸ htype

end

/-! ## Filling the columns in order -/

def fill (entity : String) (filled : Fields N × List String) (d : String × List String) :
    Fields N × List String :=
  if (filled.1 d.1).isNull then
    (Function.update filled.1 d.1 (worked entity filled.1 d.1),
      filled.2 ++ workedNotes entity filled.1 d.1)
  else filled

section
variable {fields : Fields N} {notes : List String} {name : String}

omit [Python N] in
theorem update_null (h : (fields name).isNull = true) : Function.update fields name .null = fields :=
  (Value.isNull_iff.mp h) ▸ Function.update_eq_self name fields

theorem fill_attended (inputs : List String) : fill "attendance" (fields, notes)
      ("classes_attended", inputs) =
    if (fields "classes_attended").isNull && !(fields "classes_held").isNull &&
        !(fields "classes_absent").isNull then
      (Function.update fields "classes_attended"
        (.int (max 0 ((fields "classes_held").toInt - (fields "classes_absent").toInt))),
        notes ++ ["classes_attended:derived_from_absent"])
    else (fields, notes) := by
  rw [fill, (worked_classesAttended fields).1, (worked_classesAttended fields).2]
  cases hnull : (fields "classes_attended").isNull
  · rfl
  · cases hcounts : !(fields "classes_held").isNull && !(fields "classes_absent").isNull
    · simp [hcounts, update_null hnull]
    · simp [hcounts]

theorem fill_percent (inputs : List String) (h : attendedClasses fields = fields "classes_attended") :
    fill "attendance" (fields, notes) ("attendance_percent", inputs) =
    if (fields "attendance_percent").isNull && (fields "classes_held").truthy &&
        !(fields "classes_attended").isNull then
      (Function.update fields "attendance_percent" (.number (Python.round2 (Python.mul
          (Python.div (fields "classes_attended").toFloat (fields "classes_held").toFloat)
          (Python.ofInt 100)))),
        notes ++ ["attendance_percent:derived_from_counts"])
    else (fields, notes) := by
  rw [fill, (worked_attendancePercent fields).1, (worked_attendancePercent fields).2, h]
  cases hnull : (fields "attendance_percent").isNull
  · rfl
  · cases hcounts : (fields "classes_held").truthy && !(fields "classes_attended").isNull
    · simp [hcounts, update_null hnull]
    · simp [hcounts]

theorem fill_balance (inputs : List String) : fill "fee" (fields, notes) ("balance", inputs) =
    if (fields "balance").isNull && !(fields "amount_due").isNull then
      (Function.update fields "balance" (.number (Python.round2 (Python.sub
          (fields "amount_due").toFloat (if (fields "amount_paid").truthy then
            (fields "amount_paid").toFloat else Python.ofInt 0)))),
        notes ++ ["balance:derived_from_due_minus_paid"])
    else (fields, notes) := by
  rw [fill, (worked_balance fields).1, (worked_balance fields).2]
  cases hnull : (fields "balance").isNull
  · rfl
  · cases hdue : !(fields "amount_due").isNull
    · simp [update_null hnull]
    · simp

theorem fill_status (inputs : List String) (h : owed fields = fields "balance") :
    fill "fee" (fields, notes) ("status", inputs) =
    if (fields "status").isNull && !(fields "balance").isNull then
      (Function.update fields "status" (.text (if Python.le (fields "balance").toFloat
          (Python.ofInt 0 : N) then "paid"
          else if (fields "amount_paid").truthy then "partial" else "pending")),
        notes ++ ["status:derived_from_balance"])
    else (fields, notes) := by
  rw [fill, (worked_status fields).1, (worked_status fields).2, h]
  cases hnull : (fields "status").isNull
  · rfl
  · cases hbalance : !(fields "balance").isNull
    · simp [update_null hnull]
    · simp

/-- **The columns are filled in order**, each from what is there by then. -/
theorem deriveFields_eq (entity : String) (fields : Fields N) :
    deriveFields entity fields = (derivedFields entity).foldl (fill entity) (fields, []) := by
  rw [deriveFields, derivedFields]
  split_ifs with ha hf
  · subst ha
    rw [List.foldl_cons, List.foldl_cons, List.foldl_nil, fill_attended, deriveAttendance]
    cases hcounts : (fields "classes_attended").isNull && !(fields "classes_held").isNull &&
        !(fields "classes_absent").isNull
    · have hattended : attendedClasses fields = fields "classes_attended" := by
        rw [attendedClasses, hcounts]
        rfl
      exact (fill_percent _ hattended).symm
    · exact (fill_percent _ rfl).symm
  · subst hf
    rw [List.foldl_cons, List.foldl_cons, List.foldl_nil, fill_balance, deriveFee]
    cases hdue : (fields "balance").isNull && !(fields "amount_due").isNull
    · have howed : owed fields = fields "balance" := by
        rw [owed, hdue]
        rfl
      exact (fill_status _ howed).symm
    · exact (fill_status _ rfl).symm
  · rfl

end

section
variable {entity name : String} {d e : String × List String} {filled : Fields N × List String}
variable {notes notes' : List String}

theorem derivedNote_append :
    derivedNote (notes ++ notes') name = (derivedNote notes name || derivedNote notes' name) :=
  List.any_append

theorem derivedNote_filter {p : String → Bool} (hd : d ∈ derivedFields entity)
    (h : ∀ note, beforeColon note = d.1 → p note = true) :
    derivedNote (notes.filter p) d.1 = derivedNote notes d.1 := by
  rw [Bool.eq_iff_iff]
  constructor
  · intro hnote
    obtain ⟨note, hmem, hstarts⟩ := List.any_eq_true.mp hnote
    exact List.any_eq_true.mpr ⟨note, List.mem_of_mem_filter hmem, hstarts⟩
  · intro hnote
    obtain ⟨note, hmem, habout, hstarts⟩ := about_of_derivedNote hd hnote
    exact List.any_eq_true.mpr ⟨note, List.mem_filter.mpr ⟨hmem, h note habout⟩, hstarts⟩

theorem derivedNote_of_apart (hd : d ∈ derivedFields entity)
    (h : ∀ note ∈ notes, beforeColon note ≠ d.1) : derivedNote notes d.1 = false := by
  rw [Bool.eq_false_iff]
  intro hnote
  obtain ⟨note, hmem, habout, -⟩ := about_of_derivedNote hd hnote
  exact h note hmem habout

theorem derivedNote_workedNotes_of_ne {fields : Fields N} (hd : d ∈ derivedFields entity)
    (h : name ≠ d.1) : derivedNote (workedNotes entity fields name) d.1 = false :=
  derivedNote_of_apart hd fun _ hnote habout =>
    h ((by simpa using List.of_mem_filter hnote : _ = name).symm.trans habout)

theorem worked_update_self (fields : Fields N) (value : Value N) :
    worked entity (Function.update fields name value) name = worked entity fields name := by
  rw [worked, worked, Function.update_idem]

theorem fill_of_ne (h : name ≠ d.1) : (fill entity filled d).1 name = filled.1 name := by
  rw [fill]
  split_ifs
  · exact Function.update_of_ne h _ _
  · rfl

theorem derivedNote_fill_of_ne (hd : d ∈ derivedFields entity) (h : e.1 ≠ d.1) :
    derivedNote (fill entity filled e).2 d.1 = derivedNote filled.2 d.1 := by
  rw [fill]
  split_ifs
  · rw [derivedNote_append, derivedNote_workedNotes_of_ne hd h, Bool.or_false]
  · rfl

/-- A column that is noted as derived is what it is when worked out afresh, and one that is null
cannot be worked out. -/
def Filled (entity : String) (d : String × List String) (filled : Fields N × List String) : Prop :=
  (derivedNote filled.2 d.1 = true →
    filled.1 d.1 ≠ .null ∧ filled.1 d.1 = worked entity filled.1 d.1) ∧
  (filled.1 d.1 = .null → worked entity filled.1 d.1 = .null)

theorem filled_fill (hd : d ∈ derivedFields entity) (h : derivedNote filled.2 d.1 = false) :
    Filled entity d (fill entity filled d) := by
  rw [fill]
  split_ifs with hnull
  · refine ⟨fun hnote => ?_, fun hnull => ?_⟩ <;> dsimp only at *
    · rw [derivedNote_append, h, Bool.false_or, derivedNote_workedNotes hd] at hnote
      rw [Function.update_self, worked_update_self]
      exact ⟨Value.isNull_eq_false_iff.mp (by simpa using hnote), rfl⟩
    · rw [Function.update_self] at hnull
      rw [worked_update_self, hnull]
  · refine ⟨fun hnote => ?_, fun hnull' => ?_⟩
    · rw [h] at hnote
      cases hnote
    · exact absurd (Value.isNull_iff.mpr hnull') hnull

theorem Filled.fill (hd : d ∈ derivedFields entity) (he : e.1 ≠ d.1 ∧ e.1 ∉ d.2)
    (h : Filled entity d filled) : Filled entity d (Records.fill entity filled e) := by
  have hworked : worked entity (Records.fill entity filled e).1 d.1 = worked entity filled.1 d.1 :=
    (worked_congr hd fun i hi => fill_of_ne fun heq => he.2 (heq ▸ hi)).1
  rw [Filled, fill_of_ne he.1.symm, derivedNote_fill_of_ne hd he.1, hworked]
  exact h

/-- **Every derived column is settled once the columns are filled.** -/
theorem filled_deriveFields (hd : d ∈ derivedFields entity) (fields : Fields N) :
    Filled entity d (deriveFields entity fields) := by
  rw [deriveFields_eq]
  refine foldl_settles (P := Filled entity)
    (Q := fun d (filled : Fields N × List String) => derivedNote filled.2 d.1 = false)
    (derivedFields_ordered entity) ?_ ?_ ?_ (fun a _ => rfl) d hd
  · exact fun a ha s hs => filled_fill ha hs
  · exact fun a _ b hb hab s hs => (derivedNote_fill_of_ne hb hab.1.symm).trans hs
  · exact fun a ha b _ hab s hs => hs.fill ha hab

theorem deriveFields_of_ne (fields : Fields N) (h : ∀ d ∈ derivedFields entity, name ≠ d.1) :
    (deriveFields entity fields).1 name = fields name := by
  rw [deriveFields_eq]
  exact foldl_keeps (P := fun filled : Fields N × List String => filled.1 name = fields name)
    (fun d hd s hs => (fill_of_ne (h d hd)).trans hs) rfl

theorem blank_deriveFields (fields : Fields N)
    (h : ∀ d ∈ derivedFields entity, (fields d.1).blank = true → fields d.1 = .null)
    (hd : d ∈ derivedFields entity) (hblank : ((deriveFields entity fields).1 d.1).blank = true) :
    (deriveFields entity fields).1 d.1 = .null := by
  rw [deriveFields_eq] at hblank ⊢
  refine foldl_keeps (P := fun filled : Fields N × List String => (filled.1 d.1).blank = true →
    filled.1 d.1 = .null) (fun e he s hs => ?_) (h d hd) hblank
  by_cases hed : d.1 = e.1
  · rw [fill]
    split_ifs
    · dsimp only
      rw [hed, Function.update_self]
      exact worked_blank he
    · exact hs
  · rw [fill_of_ne hed]
    exact hs

end

/-! ## Records -/

/-- What cleaning and validation leave of a row: only a phone number can be cleaned to an empty
text, a derived column that is noted as such is the value its inputs give, one that is blank cannot
be worked out, and what fails a check across columns is an issue. -/
structure CanonicalRecord (N : Type) [Python N] (entity : CanonicalEntity) where
  fields : Fields N
  attributes : Table String (Value N)
  normalizations : List String
  issues : List Issue
  lineage : RecordLineage
  columns : ∀ name, name ∉ entity.fieldNames → fields name = .null
  booleans : ∀ item ∈ entity.fields, item.fieldType = .boolean →
    fields item.name = .null ∨ ∃ b, fields item.name = .bool b
  blanks : ∀ item ∈ entity.fields, item.fieldType ≠ .phone → (fields item.name).blank = true →
    fields item.name = .null
  keys : (attributes.map Prod.fst).Nodup
  derived : ∀ d ∈ derivedFields entity.name, derivedNote normalizations d.1 = true →
    fields d.1 ≠ .null ∧ fields d.1 = worked entity.name fields d.1
  underived : ∀ d ∈ derivedFields entity.name, fields d.1 = .null →
    worked entity.name fields d.1 = .null
  checked : ∀ issue ∈ crossFieldIssues entity.name fields, issue ∈ issues

/-- The columns of a row as `clean_value` leaves them, each null or of the type of its field. -/
structure CleanedValues (N : Type) [Python N] (entity : CanonicalEntity) where
  fields : Fields N
  notes : List String
  columns : ∀ name, name ∉ entity.fieldNames → fields name = .null
  booleans : ∀ item ∈ entity.fields, item.fieldType = .boolean →
    fields item.name = .null ∨ ∃ b, fields item.name = .bool b
  blanks : ∀ item ∈ entity.fields, item.fieldType ≠ .phone → (fields item.name).blank = true →
    fields item.name = .null
  underived : ∀ d ∈ derivedFields entity.name, derivedNote notes d.1 = false

namespace CanonicalRecord
variable {entity : CanonicalEntity}

def recordKey (record : CanonicalRecord N entity) : String := recordKeyFor entity record.fields

def hasBlockingIssues (record : CanonicalRecord N entity) : Bool :=
  record.issues.any (·.severity = .error)

end CanonicalRecord

theorem derivedField_mem {entity : CanonicalEntity} {d : String × List String}
    (hd : d ∈ derivedFields entity.name) : d.1 ∈ entity.fieldNames := by
  obtain ⟨item, hitem, hname, -⟩ := entity.ruled d.1 (mem_ruledFields hd (.inl rfl))
  exact List.mem_map.mpr ⟨item, hitem, hname⟩

/-- The end of `clean_record`, and the checks across columns of `validate_record`. -/
def cleanRecord {entity : CanonicalEntity} (values : CleanedValues N entity)
    (attributes : Table String (Value N)) (issues : List Issue) (lineage : RecordLineage)
    (hkeys : (attributes.map Prod.fst).Nodup) : CanonicalRecord N entity :=
  let derived := deriveFields entity.name values.fields
  { fields := derived.1
    attributes
    normalizations := values.notes ++ derived.2
    issues := issues ++ crossFieldIssues entity.name derived.1
    lineage
    columns := fun name hname => by
      have hne : ∀ d ∈ derivedFields entity.name, name ≠ d.1 :=
        fun d hd heq => hname (heq ▸ derivedField_mem hd)
      exact (deriveFields_of_ne _ hne).trans (values.columns name hname)
    booleans := fun item hitem htype => by
      have hne : ∀ d ∈ derivedFields entity.name, item.name ≠ d.1 :=
        fun d hd heq => (derivedField_type hd hitem heq).1 htype
      exact deriveFields_of_ne values.fields hne ▸ values.booleans item hitem htype
    blanks := fun item hitem htype hblank => by
      by_cases hd : ∃ d ∈ derivedFields entity.name, item.name = d.1
      · obtain ⟨d, hd, heq⟩ := hd
        rw [heq] at hblank ⊢
        refine blank_deriveFields _ (fun e he hblank => ?_) hd hblank
        obtain ⟨other, hother, hname, -, htype⟩ := entity.ruled e.1 (mem_ruledFields he (.inl rfl))
        rw [← hname] at hblank ⊢
        exact values.blanks other hother htype hblank
      · have hne : ∀ d ∈ derivedFields entity.name, item.name ≠ d.1 :=
          fun d hmem heq => hd ⟨d, hmem, heq⟩
        rw [deriveFields_of_ne _ hne] at hblank ⊢
        exact values.blanks item hitem htype hblank
    keys := hkeys
    derived := fun d hd hnote => by
      rw [derivedNote_append, values.underived d hd, Bool.false_or] at hnote
      exact (filled_deriveFields hd values.fields).1 hnote
    underived := fun d hd => (filled_deriveFields hd values.fields).2
    checked := fun _ => List.mem_append_right issues }

end GuruJi.Records
