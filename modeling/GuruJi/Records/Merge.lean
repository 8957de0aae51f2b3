import GuruJi.Lib.Latest
import GuruJi.Records.Derive
import Mathlib.Data.String.Basic

/-!
# Laying a record over a stored row

A merging import writes the columns that a record supplies and keeps the others. `mergeStored` is
the row that results: the columns that follow from others are looked at again (`rederive`), in the
order they depend on each other.

* `mergeStored_fields_written`, `mergeStored_fields_of_not_rederived`: the columns of the result.
* `rederive_spec`: what is worked out again was not written, and is what it is when worked out.
-/

namespace GuruJi.Records

open GuruJi.Lib

/-! ## Rows -/

/-- A row of an entity's table. -/
structure Row (N D : Type) where
  columns : Fields N
  attributes : Table String (Value N)
  normalizations : List String
  issues : List Issue
  contentHash : D
  lineage : RecordLineage
  importedAt : String
  updatedAt : String

variable {N D : Type} [Python N]

/-- A column as it is read: booleans are stored as `0` and `1`. -/
def readColumn (fieldType : FieldType) (v : Value N) : Value N :=
  if fieldType = .boolean ∧ !v.isNull then .bool v.truthy else v

/-- The columns in `_row_to_record`. -/
def storedFields (entity : CanonicalEntity) (row : Row N D) : Fields N := fun name =>
  match entity.field name with
  | some item => readColumn item.fieldType (row.columns name)
  | none => .null

/-- `_row_hash`: the digest of the columns that are not blank, and of the attributes by name. -/
def rowHash (digest : List (String × Value N) → List (String × Value N) → D)
    (entity : CanonicalEntity) (fields : Fields N) (attributes : Table String (Value N)) : D :=
  digest ((entity.fieldNames.filter fun name => !(fields name).blank).map fun name =>
      (name, fields name))
    (sortBy Prod.fst attributes)

abbrev Content (N : Type) := List (String × Value N) × List (String × Value N)

/-- A digest without collisions: the content itself. -/
abbrev content {N : Type} (fields attributes : List (String × Value N)) : Content N :=
  (fields, attributes)

/-! ## The merge -/

/-- The columns a merge reads again: the stored ones, and which of them the record wrote or
changed. -/
structure Overlay (N : Type) where
  entity : String
  stored : Fields N
  storedNotes : List String
  written : String → Bool
  changed : String → Bool

/-- The variables of `_merge_stored`'s loop. -/
structure Working (N : Type) where
  fields : Fields N
  notes : List String
  issues : List Issue
  rederived : List String
  doubtful : List String

/-- `_MERGE_CODES`. -/
def mergeCodes : List String := ["stale_after_partial_update", "recomputed_after_partial_update"]

def mergeIssue (name code : String) (v : Value N) : Issue :=
  ⟨name, code, .warning, some (upTo 40 v.str), []⟩

/-- The record did not read the column, but wrote one that it depends on. -/
def looksAgain (o : Overlay N) (d : String × List String) : Bool :=
  !o.written d.1 && d.2.any o.written &&
    (d.2.any o.changed || (o.stored d.1).blank || derivedNote o.storedNotes d.1)

/-- A value a sheet stated that the stored row does not bear out, or cannot tell. -/
def keepsStated (o : Overlay N) (value : Value N) (name : String) : Bool :=
  !(o.stored name).blank &&
    (value.isNull && !derivedNote o.storedNotes name ||
      !(derivedNote o.storedNotes name || (worked o.entity o.stored name).agrees (o.stored name)))

def replaces (value before : Value N) : Bool :=
  !value.same before && !(before.blank && value.isNull)

/-- One turn of the loop over the derived columns. -/
def rederive (o : Overlay N) (w : Working N) (d : String × List String) : Working N :=
  if looksAgain o d then
    let name := d.1
    let before := o.stored name
    let noted := derivedNote o.storedNotes name
    let value := worked o.entity w.fields name
    let doubt := d.2.any w.doubtful.contains
    let issues := w.issues.filter fun i => !(i.field = name && mergeCodes.contains i.code)
    if keepsStated o value name then
      if doubt || !value.agrees before then
        { w with
          issues := issues ++ [mergeIssue name "stale_after_partial_update" before]
          doubtful := w.doubtful ++ [name] }
      else { w with issues }
    else
      let replaced := replaces value before
      let w : Working N :=
        if replaced then
          { w with
            fields := Function.update w.fields name value
            rederived := w.rederived ++ [name]
            notes := w.notes.filter (beforeColon · ≠ name) ++ workedNotes o.entity w.fields name
            issues := issues.filter (·.field ≠ name) }
        else { w with issues }
      if doubt && !value.isNull then
        { w with
          issues := w.issues ++ [mergeIssue name "stale_after_partial_update"
            (if before.blank then value else before)]
          doubtful := w.doubtful ++ [name] }
      else if replaced && value.isNull then
        { w with issues := w.issues ++ [mergeIssue name "stale_after_partial_update" before] }
      else if replaced && !before.blank && !noted then
        { w with issues := w.issues ++ [mergeIssue name "recomputed_after_partial_update" before] }
      else w
  else w

/-- `{**stored, **record}`, except for the stored values of the kept attributes. -/
def overlayAttributes (stored record : Table String (Value N)) (kept : List String) :
    Table String (Value N) :=
  (record.filter fun e => !kept.contains e.1 || (stored.get e.1).isNone).foldl
    (fun t e => t.assign e.1 e.2) stored

/-- `_Merged`. -/
structure Merged (N D : Type) where
  fields : Fields N
  attributes : Table String (Value N)
  notes : List String
  issues : List Issue
  contentHash : D
  rederived : List String
  heldBack : List String
  blocking : Bool

variable {entity : CanonicalEntity}

/-- The derived columns that a record worked out from its own sheet alone. -/
def CanonicalRecord.own (record : CanonicalRecord N entity) (name : String) : Bool :=
  (derivedFields entity.name).any (·.1 = name) && derivedNote record.normalizations name

/-- The columns that a record writes over a stored row. -/
def CanonicalRecord.written (record : CanonicalRecord N entity) (columns : List String)
    (name : String) : Bool :=
  columns.contains name && !record.own name && !(record.fields name).blank

def overlay (row : Row N D) (record : CanonicalRecord N entity) (columns : List String) :
    Overlay N where
  entity := entity.name
  stored := storedFields entity row
  storedNotes := row.normalizations
  written := record.written columns
  changed := fun name =>
    record.written columns name && !(record.fields name).same (storedFields entity row name)

/-- The state before the loop: notes and issues follow the values they are about. -/
def overlaid (row : Row N D) (record : CanonicalRecord N entity) (columns : List String) :
    Working N :=
  let written := record.written columns
  let notes := row.normalizations.filter fun note => !written (beforeColon note)
  let issues := row.issues.filter fun i => !written i.field
  { fields := fun name => if written name then record.fields name else storedFields entity row name
    notes := notes ++ record.normalizations.filter fun note =>
      !notes.contains note && !record.own (beforeColon note)
    issues := issues ++ record.issues.filter fun i => !issues.contains i && !record.own i.field
    rederived := []
    doubtful := [] }

/-- `_merge_stored`. -/
def mergeStored (digest : List (String × Value N) → List (String × Value N) → D) (row : Row N D)
    (record : CanonicalRecord N entity) (columns kept : List String) : Merged N D :=
  let w := (derivedFields entity.name).foldl (rederive (overlay row record columns))
    (overlaid row record columns)
  let attributes := overlayAttributes row.attributes record.attributes kept
  let checks := crossFieldIssues entity.name w.fields
  { fields := w.fields
    attributes
    notes := w.notes
    issues := (w.issues.filter fun i => !crossFieldCodes.contains i.code) ++ checks
    contentHash := rowHash digest entity w.fields attributes
    rederived := w.rederived
    heldBack := ((derivedFields entity.name).map Prod.fst).filter fun name =>
      record.own name && !w.rederived.contains name
    blocking := checks.any (·.severity = .error) }

/-! ## One turn of the loop -/

section
variable {o : Overlay N} {w : Working N} {d e : String × List String} {name : String}

/-- The loop replaces the value of a derived column. -/
def acts (o : Overlay N) (w : Working N) (d : String × List String) : Bool :=
  looksAgain o d && !keepsStated o (worked o.entity w.fields d.1) d.1 &&
    replaces (worked o.entity w.fields d.1) (o.stored d.1)

/-- **What one turn changes**, issues apart. -/
theorem rederive_spec (o : Overlay N) (w : Working N) (d : String × List String) :
    (rederive o w d).fields = (if acts o w d then
      Function.update w.fields d.1 (worked o.entity w.fields d.1) else w.fields) ∧
    (rederive o w d).notes = (if acts o w d then
      w.notes.filter (beforeColon · ≠ d.1) ++ workedNotes o.entity w.fields d.1 else w.notes) ∧
    (rederive o w d).rederived = (if acts o w d then w.rederived ++ [d.1] else w.rederived) := by
  rw [rederive, acts]
  dsimp only
  cases looksAgain o d
  · exact ⟨rfl, rfl, rfl⟩
  cases keepsStated o (worked o.entity w.fields d.1) d.1
  · -- whatever warning is raised, the value is replaced or not
    cases replaces (worked o.entity w.fields d.1) (o.stored d.1) <;>
      simp only [if_true, Bool.not_false, Bool.and_true, Bool.false_eq_true, if_false,
        Bool.and_false] <;>
      split_ifs <;> exact ⟨rfl, rfl, rfl⟩
  · simp only [if_true, Bool.not_true, Bool.and_false, Bool.false_and, Bool.false_eq_true, if_false]
    split_ifs <;> exact ⟨rfl, rfl, rfl⟩

theorem rederive_fields_of_ne (h : name ≠ d.1) : (rederive o w d).fields name = w.fields name := by
  rw [(rederive_spec o w d).1]
  split_ifs
  · exact Function.update_of_ne h _ _
  · rfl

theorem derivedNote_rederive_of_ne (hd : d ∈ derivedFields o.entity) (h : e.1 ≠ d.1) :
    derivedNote (rederive o w e).notes d.1 = derivedNote w.notes d.1 := by
  rw [(rederive_spec o w e).2.1]
  split_ifs
  · have hkept : ∀ note, beforeColon note = d.1 → decide (beforeColon note ≠ e.1) = true :=
      fun note habout => by simpa [habout] using h.symm
    rw [derivedNote_append, derivedNote_filter hd hkept, derivedNote_workedNotes_of_ne hd h,
      Bool.or_false]
  · rfl

theorem rederive_of_acts (hd : d ∈ derivedFields o.entity) (h : acts o w d = true) :
    (rederive o w d).fields d.1 = worked o.entity w.fields d.1 ∧
      derivedNote (rederive o w d).notes d.1 = !(worked o.entity w.fields d.1).isNull := by
  obtain ⟨hfields, hnotes, -⟩ := rederive_spec o w d
  rw [if_pos h] at hfields hnotes
  have hapart : derivedNote (w.notes.filter (beforeColon · ≠ d.1)) d.1 = false :=
    derivedNote_of_apart hd fun note hnote => by simpa using List.of_mem_filter hnote
  refine ⟨hfields ▸ Function.update_self .., ?_⟩
  rw [hnotes, derivedNote_append, hapart, Bool.false_or, derivedNote_workedNotes hd]

theorem noted_of_acts (h : acts o w d = true) (hnull : (worked o.entity w.fields d.1).isNull = true) :
    derivedNote o.storedNotes d.1 = true := by
  simp only [acts, keepsStated, replaces, hnull, Bool.and_true, Bool.and_eq_true,
    Bool.not_eq_true', Bool.true_and] at h
  obtain ⟨⟨-, hkeeps⟩, -, hblank⟩ := h
  rw [hblank] at hkeeps
  simp only [Bool.not_false, Bool.true_and, Bool.or_eq_false_iff, Bool.not_eq_false'] at hkeeps
  exact hkeeps.1

end

/-! ## The whole loop -/

/-- What the turns so far leave: every other column is as it was, and what was worked out again was
not written. -/
structure Looped (o : Overlay N) (w₀ w : Working N) : Prop where
  others : ∀ name, name ∉ w.rederived → w.fields name = w₀.fields name
  rederived : ∀ name ∈ w.rederived, o.written name = false ∧
    ∃ d ∈ derivedFields o.entity, d.1 = name ∧ ∃ f : Fields N,
      w.fields name = worked o.entity f name ∧
      ((w.fields name).isNull = true → derivedNote o.storedNotes name = true)

theorem Looped.rederive {o : Overlay N} {w₀ w : Working N} {d : String × List String}
    (hd : d ∈ derivedFields o.entity) (h : Looped o w₀ w) :
    Looped o w₀ (Records.rederive o w d) := by
  obtain ⟨hfields, -, hrederived⟩ := rederive_spec o w d
  by_cases hacts : acts o w d = true
  · rw [if_pos hacts] at hfields hrederived
    have hvalue := (rederive_of_acts hd hacts).1
    refine ⟨fun name hname => ?_, fun name hname => ?_⟩ <;> rw [hrederived] at hname
    · simp only [List.mem_append, List.mem_singleton, not_or] at hname
      rw [rederive_fields_of_ne hname.2]
      exact h.others name hname.1
    · by_cases heq : name = d.1
      · subst heq
        have hwritten : o.written d.1 = false := by
          simp only [acts, looksAgain, Bool.and_eq_true, Bool.not_eq_true'] at hacts
          exact hacts.1.1.1.1
        refine ⟨hwritten, d, hd, rfl, w.fields, hvalue, fun hnull => ?_⟩
        exact noted_of_acts hacts (hvalue ▸ hnull)
      · rw [rederive_fields_of_ne heq]
        refine h.rederived name ?_
        simpa [heq] using hname
  · rw [if_neg hacts] at hfields hrederived
    refine ⟨fun name hname => ?_, fun name hname => ?_⟩ <;> rw [hrederived] at hname <;> rw [hfields]
    · exact h.others name hname
    · exact h.rederived name hname

section
variable {entity : CanonicalEntity} {row : Row N D} {record : CanonicalRecord N entity}
variable {columns kept : List String} {d : String × List String}
variable {digest : List (String × Value N) → List (String × Value N) → D}

theorem looped_mergeStored (row : Row N D) (record : CanonicalRecord N entity) (columns : List String) :
    Looped (overlay row record columns) (overlaid row record columns)
      ((derivedFields entity.name).foldl (rederive (overlay row record columns))
        (overlaid row record columns)) :=
  foldl_keeps (P := Looped (overlay row record columns) (overlaid row record columns))
    (fun d hd w hw => hw.rederive hd) ⟨fun _ _ => rfl, fun _ h => by cases h⟩

/-- **The columns that are not worked out again**: as the record wrote them, or as they were. -/
theorem mergeStored_fields_of_not_rederived {name : String}
    (h : name ∉ (mergeStored digest row record columns kept).rederived) :
    (mergeStored digest row record columns kept).fields name =
      if record.written columns name then record.fields name else storedFields entity row name :=
  (looped_mergeStored row record columns).others name h

/-- **The columns that are**: none that the record wrote, each a derived column as worked out. -/
theorem mergeStored_rederived {name : String}
    (h : name ∈ (mergeStored digest row record columns kept).rederived) :
    record.written columns name = false ∧ ∃ d ∈ derivedFields entity.name, d.1 = name ∧
      ∃ f : Fields N, (mergeStored digest row record columns kept).fields name =
          worked entity.name f name ∧
        (((mergeStored digest row record columns kept).fields name).isNull = true →
          derivedNote row.normalizations name = true) :=
  (looped_mergeStored row record columns).rederived name h

theorem mergeStored_fields_written {name : String} (h : record.written columns name = true) :
    (mergeStored digest row record columns kept).fields name = record.fields name := by
  have hname : name ∉ (mergeStored digest row record columns kept).rederived := fun hmem => by
    rw [(mergeStored_rederived hmem).1] at h
    cases h
  rw [mergeStored_fields_of_not_rederived hname, if_pos h]

theorem own_eq (hd : d ∈ derivedFields entity.name) :
    record.own d.1 = derivedNote record.normalizations d.1 := by
  have hany : (derivedFields entity.name).any (·.1 = d.1) = true :=
    List.any_eq_true.mpr ⟨d, hd, by simp⟩
  rw [CanonicalRecord.own, hany, Bool.true_and]

/-- A derived column is noted as such in the merged row when it was, and the record did not write
it. -/
theorem derivedNote_overlaid (hd : d ∈ derivedFields entity.name) :
    derivedNote (overlaid row record columns).notes d.1 =
      (!record.written columns d.1 && derivedNote row.normalizations d.1) := by
  have hrecord : ∀ notes : List String, derivedNote (record.normalizations.filter fun note =>
      !notes.contains note && !record.own (beforeColon note)) d.1 = false := by
    intro notes
    rw [Bool.eq_false_iff]
    intro hnote
    obtain ⟨note, hmem, habout, hstarts⟩ := about_of_derivedNote hd hnote
    obtain ⟨hmem, hfilter⟩ := List.mem_filter.mp hmem
    have hown : record.own d.1 = true :=
      (own_eq hd).trans (List.any_eq_true.mpr ⟨note, hmem, hstarts⟩)
    simp [habout, hown] at hfilter
  rw [overlaid, derivedNote_append, hrecord, Bool.or_false]
  cases hwritten : record.written columns d.1
  · rw [derivedNote_filter hd fun note habout => by rw [habout, hwritten]; rfl]
    rfl
  · refine derivedNote_of_apart hd fun note hnote habout => ?_
    have := List.of_mem_filter hnote
    rw [habout, hwritten] at this
    cases this

/-- What the turn of a derived column starts from. -/
def Untouched (row : Row N D) (record : CanonicalRecord N entity) (columns : List String)
    (d : String × List String) (w : Working N) : Prop :=
  w.fields d.1 = (overlaid row record columns).fields d.1 ∧
    derivedNote w.notes d.1 = (!record.written columns d.1 && derivedNote row.normalizations d.1)

theorem untouched_overlaid (hd : d ∈ derivedFields entity.name) :
    Untouched row record columns d (overlaid row record columns) :=
  ⟨rfl, derivedNote_overlaid hd⟩

theorem Untouched.rederive {e : String × List String} {w : Working N}
    (hd : d ∈ derivedFields entity.name) (h : e.1 ≠ d.1) (hw : Untouched row record columns d w) :
    Untouched row record columns d (Records.rederive (overlay row record columns) w e) :=
  ⟨(rederive_fields_of_ne h.symm).trans hw.1, (derivedNote_rederive_of_ne hd h).trans hw.2⟩

theorem mergeStored_noted (hstored : ∀ d ∈ derivedFields entity.name,
      derivedNote row.normalizations d.1 = true → (storedFields entity row d.1).blank = false)
    (hd : d ∈ derivedFields entity.name)
    (h : derivedNote (mergeStored digest row record columns kept).notes d.1 = true) :
    ((mergeStored digest row record columns kept).fields d.1).blank = false := by
  refine foldl_settles (Q := Untouched row record columns)
    (P := fun d (w : Working N) => derivedNote w.notes d.1 = true → (w.fields d.1).blank = false)
    (derivedFields_ordered entity.name) ?_ ?_ ?_ (fun a ha => untouched_overlaid ha) d hd h
  · intro a ha w hw hnote
    by_cases hacts : acts (overlay row record columns) w a = true
    · obtain ⟨hvalue, hnoted⟩ := rederive_of_acts ha hacts
      rw [hnoted, Bool.not_eq_true', Value.isNull_eq_false_iff] at hnote
      rw [hvalue, Bool.eq_false_iff]
      exact fun hblank => hnote (worked_blank ha hblank)
    · obtain ⟨hfields, hnotes, -⟩ := rederive_spec (overlay row record columns) w a
      rw [if_neg hacts] at hfields hnotes
      rw [hnotes, hw.2, Bool.and_eq_true, Bool.not_eq_true'] at hnote
      rw [hfields, hw.1, overlaid]
      dsimp only
      rw [hnote.1]
      exact hstored a ha hnote.2
  · exact fun a _ b hb hab w hw => hw.rederive hb hab.1.symm
  · intro a ha b _ hab w hw hnote
    rw [derivedNote_rederive_of_ne ha hab.1] at hnote
    rw [rederive_fields_of_ne hab.1.symm]
    exact hw hnote

end

end GuruJi.Records
