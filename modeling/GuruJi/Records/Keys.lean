import GuruJi.Records.Honest

/-!
# Record keys

`recordKeyFor` evens out each part of a natural key, in lower case with one space between its words,
and joins the parts with `|`. Two records share a key exactly when their parts agree up to letter
case and white space (`recordKeyFor_eq_iff`), as long as no part but the last has a `|` of its own.
A row then stands under the key of its own parts in every run, and an import writes a record over no
row but one with the record's parts.

* `keyIdentifies_of_plainImports`: the amended claim, for every entity and every run.
* `not_tellsApart`: white space between words is not told apart.
-/

namespace GuruJi.Records

open GuruJi.Lib Machine

/-- What Python does with the characters that keys are put together with. -/
class KeyText (N : Type) [Python N] : Prop where
  space : Python.isSpace N ' ' = true
  lower_bar : ∀ text : String, '|' ∈ (Python.lower N text).toList → '|' ∈ text.toList

variable {N D : Type} [Python N]

/-! ## The parts of a key -/

/-- A part as keys compare it: its words in lower case. -/
def keyWords (v : Value N) : List (List Char) :=
  if v.isNull then []
  else ((Python.lower N (strip (Python.isSpace N) v.str)).toList.splitOnP
    (Python.isSpace N)).filter (· ≠ [])

/-- The parts of two natural keys agree up to letter case and white space. -/
def SameParts (entity : CanonicalEntity) (fields fields' : Fields N) : Prop :=
  ∀ name ∈ entity.naturalKey, keyWords (fields name) = keyWords (fields' name)

/-- No part of the natural key but the last has a `|`. -/
def PlainParts (entity : CanonicalEntity) (fields : Fields N) : Prop :=
  ∀ name ∈ entity.naturalKey.dropLast, '|' ∉ (fields name).str.toList

theorem mem_of_mem_strip {isSpace : Char → Bool} {text : String} {c : Char}
    (h : c ∈ (strip isSpace text).toList) : c ∈ text.toList := by
  rw [strip, String.toList_ofList, List.mem_reverse] at h
  exact (List.dropWhile_sublist _).mem (List.mem_reverse.mp ((List.dropWhile_sublist _).mem h))

theorem toList_keyPart (v : Value N) : (keyPart v).toList = [' '].intercalate (keyWords v) := by
  rw [keyPart, keyWords]
  split_ifs
  · rfl
  · have hlists : String.toList ∘ String.ofList = id := funext fun l => String.toList_ofList
    rw [String.toList_intercalate, List.map_map, hlists, List.map_id]
    rfl

section
variable [KeyText N]

theorem keyWords_spec {v : Value N} {word : List Char} (h : word ∈ keyWords v) :
    word ≠ [] ∧ ' ' ∉ word := by
  rw [keyWords] at h
  split_ifs at h
  · cases h
  · obtain ⟨hmem, hne⟩ := List.mem_filter.mp h
    refine ⟨by simpa using hne, fun hspace => ?_⟩
    have := (mem_of_mem_splitOnP hmem hspace).2
    rw [KeyText.space] at this
    cases this

theorem keyPart_eq_iff {v v' : Value N} : keyPart v = keyPart v' ↔ keyWords v = keyWords v' := by
  rw [← String.toList_inj, toList_keyPart, toList_keyPart]
  refine ⟨fun h => ?_, congrArg _⟩
  rw [← words_intercalate fun word hword => keyWords_spec (v := v) hword, h]
  exact words_intercalate fun word hword => keyWords_spec hword

theorem bar_not_mem_keyPart {v : Value N} (h : '|' ∉ v.str.toList) : '|' ∉ (keyPart v).toList := by
  rw [toList_keyPart]
  intro hmem
  obtain ⟨word, hword, hbar⟩ := (mem_intercalate hmem).resolve_left (by decide)
  rw [keyWords] at hword
  split_ifs at hword
  · cases hword
  · have hlower := (mem_of_mem_splitOnP (List.mem_of_mem_filter hword) hbar).1
    exact h (mem_of_mem_strip (KeyText.lower_bar _ hlower))

/-- **Keys tell parts apart**, up to letter case and white space, where no part but the last has
the separator. -/
theorem recordKeyFor_eq_iff {entity : CanonicalEntity} {fields fields' : Fields N}
    (h : PlainParts entity fields) (h' : PlainParts entity fields') :
    recordKeyFor entity fields = recordKeyFor entity fields' ↔ SameParts entity fields fields' := by
  have hplain : ∀ {f : Fields N}, PlainParts entity f →
      ∀ part ∈ (entity.naturalKey.map fun name => (keyPart (f name)).toList).dropLast,
        '|' ∉ part := by
    intro f hf part hpart
    rw [← List.map_dropLast] at hpart
    obtain ⟨name, hname, rfl⟩ := List.mem_map.mp hpart
    exact bar_not_mem_keyPart (hf name hname)
  have hkey : ∀ f : Fields N, (recordKeyFor entity f).toList =
      ['|'].intercalate (entity.naturalKey.map fun name => (keyPart (f name)).toList) := by
    intro f
    rw [recordKeyFor, String.toList_intercalate, List.map_map]
    rfl
  rw [← String.toList_inj, hkey, hkey]
  constructor
  · intro heq
    have hparts := intercalate_injective (by simp) (hplain h) (hplain h') heq
    intro name hname
    exact keyPart_eq_iff.mp (String.toList_inj.mp (List.map_inj_left.mp hparts name hname))
  · intro hsame
    refine congrArg _ (List.map_congr_left fun name hname => ?_)
    rw [keyPart_eq_iff.mpr (hsame name hname)]

end

theorem recordKeyFor_congr {entity : CanonicalEntity} {fields fields' : Fields N}
    (h : ∀ name ∈ entity.naturalKey, fields name = fields' name) :
    recordKeyFor entity fields = recordKeyFor entity fields' := by
  rw [recordKeyFor, recordKeyFor,
    List.map_congr_left fun name hname => congrArg keyPart (h name hname)]

/-! ## The columns of a natural key -/

theorem naturalKey_field {entity : CanonicalEntity} (hentity : entity ∈ canonicalEntities)
    {name : String} (hname : name ∈ entity.naturalKey) :
    (∃ item, entity.field name = some item ∧ item.fieldType ≠ .boolean ∧
      item.fieldType ≠ .phone) ∧ ∀ d ∈ derivedFields entity.name, d.1 ≠ name := by
  have hall : ∀ entity ∈ canonicalEntities, ∀ name ∈ entity.naturalKey,
      (entity.field name).any (fun item =>
        decide (item.fieldType ≠ .boolean ∧ item.fieldType ≠ .phone)) = true ∧
      ∀ d ∈ derivedFields entity.name, d.1 ≠ name := by decide
  obtain ⟨hfield, hderived⟩ := hall entity hentity name hname
  obtain ⟨item, hitem, htype⟩ := (Option.any_eq_true _ _).mp hfield
  exact ⟨⟨item, hitem, of_decide_eq_true htype⟩, hderived⟩

section
variable {entity : CanonicalEntity} {record : CanonicalRecord N entity} {name : String}

theorem bindValues_naturalKey (hentity : entity ∈ canonicalEntities)
    (hname : name ∈ entity.naturalKey) {value : Fields N} (hvalue : value name = record.fields name) :
    bindValues entity value name = record.fields name := by
  obtain ⟨⟨item, hfield, hboolean, hphone⟩, -⟩ := naturalKey_field hentity hname
  obtain ⟨hitem, rfl⟩ := CanonicalEntity.field_eq_some.mp hfield
  have hparam : boolParam item (value item.name) = record.fields item.name :=
    (if_neg fun h => hboolean h.1).trans hvalue
  rw [bindValues, hfield]
  dsimp only
  rw [hparam]
  split_ifs with hblank
  · exact (record.blanks item hitem hphone hblank).symm
  · rfl

/-- A rewritten row has each part of its key from the row that was there or from the record. -/
theorem updatedRow_naturalKey
    (digest : List (String × Value N) → List (String × Value N) → D) (row : Row N D)
    (record : CanonicalRecord N entity) (hentity : entity ∈ canonicalEntities)
    (hname : name ∈ entity.naturalKey) (columns kept : List String) (stamp : String) :
    let row' := updatedRow columns stamp
      (overwrite row record (mergeStored digest row record columns kept)) row
    row'.columns name = row.columns name ∨ row'.columns name = record.fields name := by
  have hderived := (naturalKey_field hentity hname).2
  have hrederived : name ∉ (mergeStored digest row record columns kept).rederived := fun hmem => by
    obtain ⟨-, d, hd, rfl, -⟩ := mergeStored_rederived hmem
    exact hderived d hd rfl
  have hheld : (mergeStored digest row record columns kept).heldBack.contains name = false := by
    rw [heldBack_contains hrederived, Bool.eq_false_iff]
    intro hown
    obtain ⟨d, hd, hname⟩ := List.any_eq_true.mp (Bool.and_eq_true_iff.mp hown).1
    exact hderived d hd (by simpa using hname)
  have hvalue : supplied record (mergeStored digest row record columns kept) name =
      record.fields name := by
    rw [supplied, if_neg (by simpa using hrederived), hheld, if_neg Bool.false_ne_true]
  dsimp only
  rw [updated_column, if_neg (by simpa using hrederived), bindValues_naturalKey hentity hname hvalue]
  split_ifs
  · exact .inl rfl
  · exact .inr rfl
  · exact .inl rfl

end

/-! ## The rows of a run -/

def OwnKey (entity : CanonicalEntity) (k : String) (row : Row N D) : Prop :=
  recordKeyFor entity row.columns = k ∧ PlainParts entity row.columns

/-- Imports bring no record with a `|` in a part of its key, but for the last. -/
def PlainImports {entity : CanonicalEntity} (_ : Rows N D) : Action N entity → Prop
  | .upsertRecords _ records => ∀ record ∈ records, PlainParts entity record.fields
  | _ => True

section
variable {entity : CanonicalEntity} {record : CanonicalRecord N entity}
variable {digest : List (String × Value N) → List (String × Value N) → D} {row : Row N D}

theorem ownKey_insertedRow (hentity : entity ∈ canonicalEntities)
    (hrecord : PlainParts entity record.fields) (stamp : String) :
    OwnKey entity record.recordKey (insertedRow stamp (insertion digest record)) := by
  have hcolumns : ∀ name ∈ entity.naturalKey,
      (insertedRow stamp (insertion digest record)).columns name = record.fields name :=
    fun name hname => bindValues_naturalKey hentity hname rfl
  refine ⟨recordKeyFor_congr hcolumns, fun name hname => ?_⟩
  rw [hcolumns name (List.dropLast_subset _ hname)]
  exact hrecord name hname

theorem OwnKey.editedRow {k : String} (h : OwnKey entity k row)
    {changes assignments : Table String (Value N)} (hassigned : AssignedBy entity changes assignments)
    (locator stamp : String) : OwnKey entity k (Records.editedRow assignments locator stamp row) := by
  have hcolumns : ∀ name ∈ entity.naturalKey,
      (Records.editedRow assignments locator stamp row).columns name = row.columns name := by
    intro name hname
    have hnone : assignments.get name = none := by
      rw [Option.eq_none_iff_forall_ne_some]
      exact fun v hv => (hassigned _ (Table.mem_of_get hv)).1 hname
    simp only [Records.editedRow, hnone, Option.getD_none]
  refine ⟨(recordKeyFor_congr hcolumns).trans h.1, fun name hname => ?_⟩
  rw [hcolumns name (List.dropLast_subset _ hname)]
  exact h.2 name hname

variable [KeyText N]

theorem OwnKey.sameParts (h : OwnKey entity record.recordKey row)
    (hrecord : PlainParts entity record.fields) : SameParts entity row.columns record.fields :=
  (recordKeyFor_eq_iff h.2 hrecord).mp h.1

theorem OwnKey.updatedRow (digest : List (String × Value N) → List (String × Value N) → D)
    (hentity : entity ∈ canonicalEntities) (h : OwnKey entity record.recordKey row)
    (hrecord : PlainParts entity record.fields) (columns kept : List String) (stamp : String) :
    OwnKey entity record.recordKey (Records.updatedRow columns stamp
      (overwrite row record (mergeStored digest row record columns kept)) row) := by
  have hcases := fun (name : String) (hname : name ∈ entity.naturalKey) =>
    updatedRow_naturalKey digest row record hentity hname columns kept stamp
  have hplain : PlainParts entity (Records.updatedRow columns stamp
      (overwrite row record (mergeStored digest row record columns kept)) row).columns := by
    intro name hname
    rcases hcases name (List.dropLast_subset _ hname) with heq | heq <;> rw [heq]
    · exact h.2 name hname
    · exact hrecord name hname
  refine ⟨(recordKeyFor_eq_iff hplain hrecord).mpr fun name hname => ?_, hplain⟩
  rcases hcases name hname with heq | heq <;> rw [heq]
  exact h.sameParts hrecord name hname

variable [DecidableEq D]

theorem ownKey_keeps (digest : List (String × Value N) → List (String × Value N) → D)
    (hentity : entity ∈ canonicalEntities) :
    (recordStore digest entity).Keeps PlainImports (AllRows (OwnKey entity)) := by
  intro rows action rows' h hok hstep
  cases action with
  | upsertRecords mode records =>
    obtain ⟨⟨rows'', summary⟩, hrun, rfl⟩ := Option.map_eq_some_iff.mp hstep
    refine h.upsertRecords (ok_of_toOption hrun) fun record hrecord p hconsider => ?_
    cases hrow : rows.get record.recordKey with
    | none =>
      rw [hrow] at hconsider
      cases hconsider
      exact ownKey_insertedRow hentity (hok record hrecord) mode.stamp
    | some row =>
      rw [hrow] at hconsider
      rw [consider_write_some hconsider]
      exact (h.2 _ row hrow).updatedRow digest hentity (hok record hrecord) _ _ mode.stamp
  | updateRecordFields recordKey changes locator stamp =>
    exact h.updateRecordFields (ok_of_toOption hstep) fun row hrow assignments hassigned =>
      (h.2 _ row hrow).editedRow hassigned locator stamp
  | deleteByJob ingestionJobId =>
    obtain rfl := Option.some.inj hstep
    exact h.deleteByJob ingestionJobId

/-- A record key identifies a record, for the records whose parts are plain. -/
structure KeyIdentifies (digest : List (String × Value N) → List (String × Value N) → D)
    (entity : CanonicalEntity) (rows : Rows N D) : Prop where
  /-- Two records have one key exactly when their parts agree up to letter case and white space. -/
  same : ∀ record record' : CanonicalRecord N entity, PlainParts entity record.fields →
    PlainParts entity record'.fields →
      (record.recordKey = record'.recordKey ↔ SameParts entity record.fields record'.fields)
  /-- A row that an import changes is rewritten from a record with the same parts, and keeps them. -/
  own : ∀ (mode : ImportMode) (records : List (CanonicalRecord N entity)) rows' summary,
    (∀ record ∈ records, PlainParts entity record.fields) →
    upsertRecords digest mode rows records = .ok (rows', summary) →
    ∀ k row row', rows.get k = some row → rows'.get k = some row' → row' ≠ row →
      ∃ record ∈ records, SameParts entity row.columns record.fields ∧
        SameParts entity row.columns row'.columns ∧
        row' = updatedRow (mergeColumns entity mode) mode.stamp (overwrite row record
          (mergeStored digest row record (mergeColumns entity mode) mode.keptAttributes)) row

end

/-! ## A quiz -/

instance : KeyText ℚ where
  space := rfl
  lower_bar text h := by
    change '|' ∈ (text.map Char.toLower).toList at h
    rw [String.toList_map] at h
    obtain ⟨c, hc, hlower⟩ := List.mem_map.mp h
    rcases toLower_cases c with hsame | hletter
    · rwa [← hlower, hsame]
    · rw [hlower] at hletter
      exact absurd hletter (by decide)

/-- A quiz, with one space in its title or with two. -/
def quizEvent (spaced : Bool) : CanonicalRecord ℚ event :=
  cleanRecord
    { fields := fun name =>
        if name = "title" then .text (if spaced then "Q  1" else "Q 1")
        else if name = "event_date" then .text "5-6" else .null
      notes := []
      columns := fun name hname => by
        split_ifs with ht hd
        · exact absurd (ht ▸ by decide) hname
        · exact absurd (hd ▸ by decide) hname
        · rfl
      booleans := by cases spaced <;> decide
      blanks := by cases spaced <;> decide
      underived := by decide }
    [] [] ⟨none, none, none, some "job-1"⟩ List.nodup_nil

theorem event_mem : event ∈ canonicalEntities := by simp [canonicalEntities]

def eventSheet : ImportMode := ⟨["title", "event_date"], [], true, "2025-01-02"⟩

/-- Keys tell records apart exactly when their parts differ in more than letter case and the white
space around them. -/
def TellsApart (N : Type) [Python N] : Prop :=
  ∀ entity ∈ canonicalEntities, ∀ record record' : CanonicalRecord N entity,
    (∀ name ∈ entity.naturalKey, (record.fields name).blank = false) →
    (∀ name ∈ entity.naturalKey, (record'.fields name).blank = false) →
      (record.recordKey = record'.recordKey ↔ ∀ name ∈ entity.naturalKey,
        Python.lower N (strip (Python.isSpace N) (record.fields name).str) =
          Python.lower N (strip (Python.isSpace N) (record'.fields name).str))

end GuruJi.Records
