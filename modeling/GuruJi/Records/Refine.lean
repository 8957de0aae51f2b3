import GuruJi.Records.Upsert

/-!
# The statement writes the merge

The `INSERT ... ON CONFLICT DO UPDATE` of a merging import and `mergeStored` describe the same row,
once in SQL and once for the hash: `upsert_refines_merge`. `storedFields_insertedRow` says what is
stored of a record that had no row.
-/

namespace GuruJi.Records

open GuruJi.Lib

variable {N D : Type} [Python N] {entity : CanonicalEntity} {record : CanonicalRecord N entity}
variable {digest : List (String × Value N) → List (String × Value N) → D}
variable {row : Row N D} {columns kept : List String} {stamp name : String}

/-! ## Binding and reading a value -/

theorem readColumn_of_ne {fieldType : FieldType} (h : fieldType ≠ .boolean) (v : Value N) :
    readColumn fieldType v = v := if_neg fun hb => h hb.1

theorem bindValues_spec {item : CanonicalField} {value : Fields N}
    (hfield : entity.field name = some item)
    (hboolean : item.fieldType = .boolean → value name = .null ∨ ∃ b, value name = .bool b) :
    ((value name).blank = true → bindValues entity value name = .null) ∧
      ((value name).blank = false → (bindValues entity value name).isNull = false ∧
        readColumn item.fieldType (bindValues entity value name) = value name) := by
  have hbind : bindValues entity value name =
      if (boolParam item (value name)).blank then .null else boolParam item (value name) := by
    rw [bindValues, hfield]
  by_cases htype : item.fieldType = .boolean
  · rcases hboolean htype with hnull | ⟨b, hb⟩
    · simp [hbind, hnull, boolParam, Value.blank, Value.isNull]
    · have hparam : boolParam item (value name) = .int (if b then 1 else 0) := by
        simp [boolParam, htype, hb, Value.isNull, Value.truthy]
      rw [hbind, hparam, hb, htype]
      cases b <;> simp [Value.blank, readColumn, Value.isNull, Value.truthy]
  · have hparam : boolParam item (value name) = value name := if_neg fun hb => htype hb.1
    rw [hbind, hparam]
    refine ⟨fun hblank => if_pos hblank, fun hblank => ?_⟩
    rw [hblank, if_neg Bool.false_ne_true, readColumn_of_ne htype]
    refine ⟨Value.isNull_eq_false_iff.mpr fun hnull => ?_, rfl⟩
    rw [hnull] at hblank
    cases hblank

theorem record_booleans {item : CanonicalField} (record : CanonicalRecord N entity)
    (hfield : entity.field name = some item) (htype : item.fieldType = .boolean) :
    record.fields name = .null ∨ ∃ b, record.fields name = .bool b := by
  obtain ⟨hitem, rfl⟩ := CanonicalEntity.field_eq_some.mp hfield
  exact record.booleans item hitem htype

/-! ## The update -/

theorem heldBack_contains (h : name ∉ (mergeStored digest row record columns kept).rederived) :
    (mergeStored digest row record columns kept).heldBack.contains name = record.own name := by
  rw [Bool.eq_iff_iff, List.contains_iff_mem, mergeStored, List.mem_filter, Bool.and_eq_true,
    Bool.not_eq_true']
  constructor
  · exact fun hheld => hheld.2.1
  · intro hown
    obtain ⟨d, hd, hname⟩ := List.any_eq_true.mp (Bool.and_eq_true_iff.mp hown).1
    exact ⟨List.mem_map.mpr ⟨d, hd, by simpa using hname⟩, hown, by simpa [mergeStored] using h⟩

theorem written_of_null (h : (record.fields name).blank = true) :
    record.written columns name = false := by
  rw [CanonicalRecord.written, h, Bool.not_true, Bool.and_false]

abbrev supplied (record : CanonicalRecord N entity) (m : Merged N D) : Fields N := fun name =>
  if m.rederived.contains name then m.fields name
  else if m.heldBack.contains name then .null
  else record.fields name

theorem updated_column (name : String) (m : Merged N D) :
    (updatedRow columns stamp (overwrite row record m) row).columns name =
      if m.rederived.contains name then bindValues entity (supplied record m) name
      else if columns.contains name then
        if (bindValues entity (supplied record m) name).isNull then row.columns name
        else bindValues entity (supplied record m) name
      else row.columns name := rfl

section
variable {m : Merged N D} {item : CanonicalField}

theorem updated_of_unknown (hm : m = mergeStored digest row record columns kept)
    (hfield : entity.field name = none) :
    storedFields entity (updatedRow columns stamp (overwrite row record m) row) name =
      m.fields name := by
  have hname := CanonicalEntity.field_eq_none.mp hfield
  have hmem : name ∉ (mergeStored digest row record columns kept).rederived := fun hmem => by
    obtain ⟨_, d, hd, rfl, -⟩ := mergeStored_rederived hmem
    exact hname (derivedField_mem hd)
  have hwritten : record.written columns name = false :=
    written_of_null (by rw [record.columns name hname]; rfl)
  rw [hm, mergeStored_fields_of_not_rederived hmem, hwritten, if_neg Bool.false_ne_true,
    storedFields, storedFields, hfield]

theorem updated_of_rederived (hm : m = mergeStored digest row record columns kept)
    (hfield : entity.field name = some item) (hmem : name ∈ m.rederived) :
    readColumn item.fieldType
        ((updatedRow columns stamp (overwrite row record m) row).columns name) =
      m.fields name := by
  obtain ⟨_, d, hd, rfl, f, hworked, _⟩ := mergeStored_rederived (hm ▸ hmem)
  have hvalue : m.fields d.1 = worked entity.name f d.1 := hm ▸ hworked
  obtain ⟨hitem, hname⟩ := CanonicalEntity.field_eq_some.mp hfield
  have htype := (derivedField_type hd hitem hname).1
  have hsupplied : supplied record m d.1 = m.fields d.1 := if_pos (by simpa using hmem)
  obtain ⟨hblank, hfull⟩ := bindValues_spec hfield
    fun h => (absurd h htype : supplied record m d.1 = .null ∨ _)
  rw [updated_column, if_pos (by simpa using hmem)]
  rw [hsupplied] at hblank hfull
  cases hb : (m.fields d.1).blank
  · exact (hfull hb).2
  · rw [hblank hb, readColumn_of_ne htype, hvalue, worked_blank hd (hvalue ▸ hb)]

/-- A column that is not: the record's value where the record writes it, else what was there. -/
theorem updated_of_kept (hm : m = mergeStored digest row record columns kept)
    (hfield : entity.field name = some item) (hmem : name ∉ m.rederived) :
    readColumn item.fieldType
        ((updatedRow columns stamp (overwrite row record m) row).columns name) =
      if record.written columns name then record.fields name
      else readColumn item.fieldType (row.columns name) := by
  have hheld : m.heldBack.contains name = record.own name := by
    rw [hm] at hmem ⊢
    exact heldBack_contains hmem
  have hsupplied : supplied record m name =
      if record.own name then .null else record.fields name := by
    rw [supplied, if_neg (by simpa using hmem), hheld]
  have hboolean : item.fieldType = .boolean →
      supplied record m name = .null ∨ ∃ b, supplied record m name = .bool b := by
    intro htype
    rw [hsupplied]
    split_ifs
    · exact .inl rfl
    · exact record_booleans record hfield htype
  obtain ⟨hblank, hfull⟩ := bindValues_spec hfield hboolean
  rw [hsupplied] at hblank hfull
  rw [updated_column, if_neg (by simpa using hmem)]
  cases hcolumn : columns.contains name
  · rw [if_neg Bool.false_ne_true, CanonicalRecord.written, hcolumn, Bool.false_and,
      Bool.false_and, if_neg Bool.false_ne_true]
  rw [if_pos rfl]
  cases hown : record.own name
  · rw [hown, if_neg Bool.false_ne_true] at hblank hfull
    cases hb : (record.fields name).blank
    · rw [(hfull hb).1, if_neg Bool.false_ne_true, (hfull hb).2, CanonicalRecord.written,
        hcolumn, hown, hb]
      rfl
    · rw [hblank hb, written_of_null hb]
      rfl
  · rw [hown, if_pos rfl] at hblank
    rw [hblank rfl, CanonicalRecord.written, hown, Bool.not_true, Bool.and_false,
      Bool.false_and]
    rfl

end

/-- **The columns that the update leaves are those of the merge.** -/
theorem storedFields_updatedRow
    (digest : List (String × Value N) → List (String × Value N) → D) (row : Row N D)
    (record : CanonicalRecord N entity) (columns kept : List String) (stamp : String) :
    storedFields entity (updatedRow columns stamp
        (overwrite row record (mergeStored digest row record columns kept)) row) =
      (mergeStored digest row record columns kept).fields := by
  funext name
  cases hfield : entity.field name with
  | none => exact updated_of_unknown rfl hfield
  | some item =>
    rw [storedFields, hfield]
    dsimp only
    by_cases hmem : name ∈ (mergeStored digest row record columns kept).rederived
    · exact updated_of_rederived rfl hfield hmem
    · rw [updated_of_kept rfl hfield hmem, mergeStored_fields_of_not_rederived hmem, storedFields,
        hfield]

theorem rowHash_congr {fields fields' : Fields N} {attributes : Table String (Value N)}
    (hblank : ∀ name, (fields name).blank = (fields' name).blank)
    (hfull : ∀ name, (fields name).blank = false → fields name = fields' name) :
    rowHash digest entity fields attributes = rowHash digest entity fields' attributes := by
  have hnames : entity.fieldNames.filter (fun name => !(fields name).blank) =
      entity.fieldNames.filter fun name => !(fields' name).blank :=
    List.filter_congr fun name _ => by rw [hblank name]
  rw [rowHash, rowHash, ← hnames]
  congr 1
  refine List.map_congr_left fun name hname => ?_
  rw [hfull name (by simpa using List.of_mem_filter hname)]

/-- A record that had no row is stored as it is, but for its blank values. -/
theorem storedFields_insertedRow (digest : List (String × Value N) → List (String × Value N) → D)
    (record : CanonicalRecord N entity) (stamp name : String) :
    storedFields entity (insertedRow stamp (insertion digest record)) name =
      if (record.fields name).blank then .null else record.fields name := by
  cases hfield : entity.field name with
  | none =>
    rw [storedFields, hfield, record.columns name (CanonicalEntity.field_eq_none.mp hfield)]
    exact (ite_self _).symm
  | some item =>
    obtain ⟨hblank, hfull⟩ := bindValues_spec hfield (record_booleans record hfield)
    rw [storedFields, hfield]
    change readColumn item.fieldType (bindValues entity record.fields name) = _
    split_ifs with hb
    · rw [hblank hb]
      exact if_neg fun h => by simp [Value.isNull] at h
    · exact (hfull (by simpa using hb)).2

end GuruJi.Records
