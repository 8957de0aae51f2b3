import GuruJi.Auth.Principals

/-!
# Redaction of tool results

Before a tool result leaves the gateway, `strip_student_contact` drops the contact keys of every
mapping that carries a `student_id`, for a caller who may not read contact data. A mapping nested
in a student's mapping is stripped only when it carries a `student_id` of its own.

* `nonInterfering_iff`: the results whose redaction does not depend on a student's contact values.
* `not_nonInterfering`: a snapshot nested in a student's mapping shows them.
-/

namespace GuruJi.Gateway

open GuruJi.Auth

/-- What a tool handler may return: mappings, lists and tuples over values of a type `A`. -/
inductive Output (A : Type) where
  | mapping (items : List (String × Output A))
  | list (items : List (Output A))
  | tuple (items : List (Output A))
  | scalar (value : A)

/-- `STUDENT_CONTACT_FIELDS`, which are also the `SENSITIVE_STUDENT_KEYS`. -/
def studentContactFields : List String :=
  ["phone", "email", "guardian_name", "guardian_phone", "address", "date_of_birth", "gender",
    "category", "blood_group", "admission_year"]

/-- `key in SENSITIVE_STUDENT_KEYS`. -/
def isContact (key : String) : Bool := studentContactFields.contains key

variable {A : Type} {u : Language}

/-- `"student_id" in value`. -/
def hasStudentId (items : List (String × Output A)) : Bool :=
  (items.map (·.1)).contains "student_id"

/-! ## The redaction -/

mutual

/-- `strip_student_contact`. -/
def stripStudentContact (principal : Principal u) : Output A → Output A
  | .mapping items =>
    if principal.hasCapability .studentsReadContact then .mapping items
    else if hasStudentId items then .mapping (stripItems principal true items)
    else .mapping (stripItems principal false items)
  | .list items =>
    if principal.hasCapability .studentsReadContact then .list items
    else .list (stripEach principal items)
  | .tuple items =>
    if principal.hasCapability .studentsReadContact then .tuple items
    else .tuple (stripEach principal items)
  | .scalar value => .scalar value

/-- The items of a mapping, less the contact keys when it is a student's. -/
def stripItems (principal : Principal u) (student : Bool) :
    List (String × Output A) → List (String × Output A)
  | [] => []
  | (key, item) :: rest =>
    if student && isContact key then stripItems principal student rest
    else (key, stripStudentContact principal item) :: stripItems principal student rest

def stripEach (principal : Principal u) : List (Output A) → List (Output A)
  | [] => []
  | item :: rest => stripStudentContact principal item :: stripEach principal rest

end

/-! ## Results that differ in contact values only -/

mutual

/-- Two results that differ only in values stored under contact keys inside a student's mapping,
`inside` being whether they already lie in one. -/
def SameButContact (inside : Bool) : Output A → Output A → Prop
  | .mapping items, .mapping items' => SameItems (inside || hasStudentId items) items items'
  | .list items, .list items' => SameEach inside items items'
  | .tuple items, .tuple items' => SameEach inside items items'
  | .scalar value, .scalar value' => value = value'
  | _, _ => False

def SameItems (inside : Bool) : List (String × Output A) → List (String × Output A) → Prop
  | [], [] => True
  | (key, item) :: rest, (key', item') :: rest' =>
    key = key' ∧ ((inside = true ∧ isContact key = true) ∨ SameButContact inside item item') ∧
      SameItems inside rest rest'
  | _, _ => False

def SameEach (inside : Bool) : List (Output A) → List (Output A) → Prop
  | [], [] => True
  | item :: rest, item' :: rest' => SameButContact inside item item' ∧ SameEach inside rest rest'
  | _, _ => False

end

/-- The redaction of `value` is that of every result that differs from it in contact values only. -/
def NonInterfering (principal : Principal u) (value : Output A) : Prop :=
  ∀ value', SameButContact false value value' →
    stripStudentContact principal value' = stripStudentContact principal value

/-! ## Guarded results -/

mutual

/-- In what the redaction leaves, a mapping that lies inside a student's mapping and holds a
contact key has a `student_id` of its own. -/
def Guarded (inside : Bool) : Output A → Prop
  | .mapping items => GuardedItems (hasStudentId items) (inside || hasStudentId items) items
  | .list items => GuardedEach inside items
  | .tuple items => GuardedEach inside items
  | .scalar _ => True

/-- The same of the items of a mapping that is a student's itself (`student`) or lies in one. -/
def GuardedItems (student inside : Bool) : List (String × Output A) → Prop
  | [] => True
  | (key, item) :: rest =>
    ((student = true ∧ isContact key = true) ∨
      (¬ (inside = true ∧ isContact key = true) ∧ Guarded inside item)) ∧
    GuardedItems student inside rest

def GuardedEach (inside : Bool) : List (Output A) → Prop
  | [] => True
  | item :: rest => Guarded inside item ∧ GuardedEach inside rest

end

variable {principal : Principal u}

theorem hasStudentId_congr {items items' : List (String × Output A)} {inside : Bool}
    (h : SameItems inside items items') : hasStudentId items' = hasStudentId items := by
  suffices items'.map (·.1) = items.map (·.1) by rw [hasStudentId, this, hasStudentId]
  induction items generalizing items' with
  | nil => cases items' <;> simp_all [SameItems]
  | cons entry rest ih =>
    cases items' with
    | nil => simp [SameItems] at h
    | cons entry' rest' =>
      obtain ⟨hkey, -, hrest⟩ := h
      simp [hkey, ih hrest]

theorem stripStudentContact_mapping (hcap : principal.hasCapability .studentsReadContact = false)
    (items : List (String × Output A)) :
    stripStudentContact principal (.mapping items) =
      .mapping (stripItems principal (hasStudentId items) items) := by
  cases h : hasStudentId items <;> simp [stripStudentContact, hcap, h]

theorem stripStudentContact_list (hcap : principal.hasCapability .studentsReadContact = false)
    (items : List (Output A)) :
    stripStudentContact principal (.list items) = .list (stripEach principal items) := by
  simp [stripStudentContact, hcap]

theorem stripStudentContact_tuple (hcap : principal.hasCapability .studentsReadContact = false)
    (items : List (Output A)) :
    stripStudentContact principal (.tuple items) = .tuple (stripEach principal items) := by
  simp [stripStudentContact, hcap]

/-! ## A guarded result shows no contact value -/

mutual

theorem strip_eq_of_guarded (hcap : principal.hasCapability .studentsReadContact = false)
    {inside : Bool} : ∀ {value value' : Output A}, Guarded inside value →
      SameButContact inside value value' →
      stripStudentContact principal value' = stripStudentContact principal value
  | .mapping items, .mapping items', hg, hs => by
    rw [stripStudentContact_mapping hcap, stripStudentContact_mapping hcap, hasStudentId_congr hs,
      stripItems_eq_of_guarded hcap hg hs]
  | .list items, .list items', hg, hs => by
    rw [stripStudentContact_list hcap, stripStudentContact_list hcap,
      stripEach_eq_of_guarded hcap hg hs]
  | .tuple items, .tuple items', hg, hs => by
    rw [stripStudentContact_tuple hcap, stripStudentContact_tuple hcap,
      stripEach_eq_of_guarded hcap hg hs]
  | .scalar value, .scalar value', _, hs => by
    rw [show value = value' from hs]

theorem stripItems_eq_of_guarded (hcap : principal.hasCapability .studentsReadContact = false)
    {student inside : Bool} : ∀ {items items' : List (String × Output A)},
      GuardedItems student inside items → SameItems inside items items' →
      stripItems principal student items' = stripItems principal student items
  | [], [], _, _ => rfl
  | (key, item) :: rest, (key', item') :: rest', ⟨hg, hgs⟩, ⟨hkey, hs, hss⟩ => by
    subst hkey
    have hrest := stripItems_eq_of_guarded hcap hgs hss
    rcases hg with hdrop | ⟨hkept, hg⟩
    · have hand : (student && isContact key) = true := by simp [hdrop]
      rw [stripItems, stripItems, if_pos hand, if_pos hand, hrest]
    · rw [stripItems, stripItems, hrest, strip_eq_of_guarded hcap hg (hs.resolve_left hkept)]

theorem stripEach_eq_of_guarded (hcap : principal.hasCapability .studentsReadContact = false)
    {inside : Bool} : ∀ {items items' : List (Output A)},
      GuardedEach inside items → SameEach inside items items' →
      stripEach principal items' = stripEach principal items
  | [], [], _, _ => rfl
  | item :: rest, item' :: rest', ⟨hg, hgs⟩, ⟨hs, hss⟩ => by
    rw [stripEach, stripEach, strip_eq_of_guarded hcap hg hs, stripEach_eq_of_guarded hcap hgs hss]

end

/-! ## A result that is not guarded shows one -/

mutual

/-- The same result with every contact value inside a student's mapping put in a list. -/
def altered (inside : Bool) : Output A → Output A
  | .mapping items => .mapping (alteredItems (inside || hasStudentId items) items)
  | .list items => .list (alteredEach inside items)
  | .tuple items => .tuple (alteredEach inside items)
  | .scalar value => .scalar value

def alteredItems (inside : Bool) : List (String × Output A) → List (String × Output A)
  | [] => []
  | (key, item) :: rest =>
    (key, if inside && isContact key then .list [item] else altered inside item) ::
      alteredItems inside rest

def alteredEach (inside : Bool) : List (Output A) → List (Output A)
  | [] => []
  | item :: rest => altered inside item :: alteredEach inside rest

end

mutual

theorem same_altered {inside : Bool} :
    ∀ value : Output A, SameButContact inside value (altered inside value)
  | .mapping items => sameItems_altered items
  | .list items => sameEach_altered items
  | .tuple items => sameEach_altered items
  | .scalar _ => rfl

theorem sameItems_altered {inside : Bool} :
    ∀ items : List (String × Output A), SameItems inside items (alteredItems inside items)
  | [] => trivial
  | (key, item) :: rest => by
    refine ⟨rfl, ?_, sameItems_altered rest⟩
    by_cases hkey : inside = true ∧ isContact key = true
    · exact .inl hkey
    · rw [if_neg (by simpa using hkey)]
      exact .inr (same_altered item)

theorem sameEach_altered {inside : Bool} :
    ∀ items : List (Output A), SameEach inside items (alteredEach inside items)
  | [] => trivial
  | item :: rest => ⟨same_altered item, sameEach_altered rest⟩

end

theorem strip_list_singleton_ne (hcap : principal.hasCapability .studentsReadContact = false)
    (value : Output A) :
    stripStudentContact principal (.list [value]) ≠ stripStudentContact principal value := by
  intro h
  rw [stripStudentContact_list hcap] at h
  have := congrArg sizeOf h
  simp [stripEach] at this
  omega

mutual

theorem guarded_of_strip_altered (hcap : principal.hasCapability .studentsReadContact = false)
    {inside : Bool} : ∀ value : Output A,
      stripStudentContact principal (altered inside value) = stripStudentContact principal value →
      Guarded inside value
  | .mapping items, h => by
    have hid : hasStudentId (alteredItems (inside || hasStudentId items) items) =
        hasStudentId items := hasStudentId_congr (sameItems_altered items)
    rw [altered, stripStudentContact_mapping hcap, stripStudentContact_mapping hcap, hid] at h
    exact guardedItems_of_strip_altered hcap items (Output.mapping.inj h)
  | .list items, h => by
    rw [altered, stripStudentContact_list hcap, stripStudentContact_list hcap] at h
    exact guardedEach_of_strip_altered hcap items (Output.list.inj h)
  | .tuple items, h => by
    rw [altered, stripStudentContact_tuple hcap, stripStudentContact_tuple hcap] at h
    exact guardedEach_of_strip_altered hcap items (Output.tuple.inj h)
  | .scalar _, _ => trivial

theorem guardedItems_of_strip_altered
    (hcap : principal.hasCapability .studentsReadContact = false) {student inside : Bool} :
    ∀ items : List (String × Output A),
      stripItems principal student (alteredItems inside items) =
        stripItems principal student items →
      GuardedItems student inside items
  | [], _ => trivial
  | (key, item) :: rest, h => by
    rw [alteredItems, stripItems, stripItems] at h
    by_cases hdrop : (student && isContact key) = true
    · rw [if_pos hdrop, if_pos hdrop] at h
      exact ⟨.inl (by simpa using hdrop), guardedItems_of_strip_altered hcap rest h⟩
    rw [if_neg hdrop, if_neg hdrop] at h
    obtain ⟨hitem, hrest⟩ := List.cons.inj h
    refine ⟨.inr ?_, guardedItems_of_strip_altered hcap rest hrest⟩
    replace hitem := (Prod.mk.inj hitem).2
    by_cases hkey : inside = true ∧ isContact key = true
    · rw [if_pos (by simpa using hkey)] at hitem
      exact absurd hitem (strip_list_singleton_ne hcap item)
    · rw [if_neg (by simpa using hkey)] at hitem
      exact ⟨hkey, guarded_of_strip_altered hcap item hitem⟩

theorem guardedEach_of_strip_altered (hcap : principal.hasCapability .studentsReadContact = false)
    {inside : Bool} : ∀ items : List (Output A),
      stripEach principal (alteredEach inside items) = stripEach principal items →
      GuardedEach inside items
  | [], _ => trivial
  | item :: rest, h => by
    rw [alteredEach, stripEach, stripEach] at h
    obtain ⟨hitem, hrest⟩ := List.cons.inj h
    exact ⟨guarded_of_strip_altered hcap item hitem, guardedEach_of_strip_altered hcap rest hrest⟩

end

/-- **The redaction of a result is independent of contact values just when the result is
guarded.** -/
theorem nonInterfering_iff (hcap : principal.hasCapability .studentsReadContact = false)
    (value : Output A) : NonInterfering principal value ↔ Guarded false value := by
  constructor
  · intro h
    exact guarded_of_strip_altered hcap value (h _ (same_altered value))
  · intro hg value' hs
    exact strip_eq_of_guarded hcap hg hs

/-! ## A snapshot nested in a student's mapping -/

def plainWords : Language := ⟨fun c => c = ' ', id, fun _ => false, fun _ => false⟩

/-- A caller who may read students but not their contact data. -/
def classTeacher : Principal plainWords where
  principalId := "faculty-1"
  principalType := .faculty
  capabilities := facultyCapabilities
  scopes := []
  authenticated := true
  consentVerified := true
  revoked := false
  named := by decide
  anonymous := by decide

def studentRow (phone : String) : Output String :=
  .mapping [("student_id", .scalar "MBA001"), ("name", .scalar "Asha"), ("phone", .scalar phone)]

/-- What a change to a student reports: the changed field as it was and as it is. -/
def changeReport (before after : String) : Output String :=
  .mapping [("student_id", .scalar "MBA001"), ("changed_fields", .list [.scalar "phone"]),
    ("before", .mapping [("phone", .scalar before)]),
    ("after", .mapping [("phone", .scalar after)])]

theorem nonInterfering_studentRow :
    NonInterfering classTeacher (.list [studentRow "9876543210"]) :=
  (nonInterfering_iff (by decide) _).mpr (by
    simp [Guarded, GuardedEach, GuardedItems, studentRow, hasStudentId, isContact,
      studentContactFields])

/-- **A nested snapshot keeps its contact values**: two reports that differ in a student's former
phone number only are handed out as they are. -/
theorem not_nonInterfering :
    classTeacher.hasCapability .studentsReadContact = false ∧
      SameButContact false (changeReport "111" "333") (changeReport "222" "333") ∧
      stripStudentContact classTeacher (changeReport "111" "333") = changeReport "111" "333" ∧
      stripStudentContact classTeacher (changeReport "222" "333") = changeReport "222" "333" ∧
      ¬ NonInterfering classTeacher (changeReport "111" "333") := by
  have hcap : classTeacher.hasCapability .studentsReadContact = false := by decide
  have hsame : SameButContact false (changeReport "111" "333") (changeReport "222" "333") := by
    simp [SameButContact, SameItems, SameEach, changeReport, hasStudentId, isContact,
      studentContactFields]
  have hkept (before : String) :
      stripStudentContact classTeacher (changeReport before "333") = changeReport before "333" := by
    simp [stripStudentContact, stripItems, stripEach, changeReport, hcap, hasStudentId, isContact,
      studentContactFields]
  refine ⟨hcap, hsame, hkept _, hkept _, fun h => ?_⟩
  have := h _ hsame
  rw [hkept, hkept] at this
  simp [changeReport] at this

end GuruJi.Gateway
