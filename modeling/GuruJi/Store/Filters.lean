import GuruJi.Store.Isolation
import GuruJi.Lib.Patterns
import GuruJi.Lib.Checks

/-!
# What the filters of a record query ask

* `filters_read_iff`: a query and a count answer with the institution's rows that satisfy the
  filters, whichever of them are asked together and whatever is stored, if and only if no text that
  a column is to contain has a letter that means something in `LIKE`.
-/

namespace GuruJi.Store

open GuruJi.Lib GuruJi.Lib.Database GuruJi.Records

variable {N D : Type} [Python N]

/-! ## The reading of a filter -/

/-- What a key asks of its column. -/
inductive Question where
  | contains
  | isIn
  | gte
  | lte
  | lt
  | gt
  | equals
  deriving DecidableEq

def endings : List (String × Question) :=
  [("__contains", .contains), ("__in", .isIn), ("__gte", .gte), ("__lte", .lte), ("__lt", .lt),
    ("__gt", .gt)]

def readKey (key : String) : String × Question :=
  ((endings.filterMap fun e => (withoutSuffix e.1 key).map (·, e.2)).head?).getD (key, .equals)

def occurs (part text : String) : Bool := decide (part.toList <:+: text.toList)

/-- A value satisfies a filter on a field; null satisfies none. -/
def satisfies (sql : Sql N) (item : CanonicalField) (question : Question) (filter : Filter N)
    (v : Value N) : Bool :=
  let param := boolFilter item filter.param
  let known := !v.isNull && !param.isNull
  match question with
  | .contains =>
    !v.isNull && occurs (Python.lower N (filter.str sql)) (Python.lower N (sql.text v))
  | .isIn => filter.values.any fun w => sql.is v (boolFilter item w)
  | .gte => known && !sql.less v param
  | .lte => known && !sql.less param v
  | .lt => known && sql.less v param
  | .gt => known && sql.less param v
  | .equals =>
    match param with
    | .text s => !v.isNull && Python.lower N (sql.text v) == Python.lower N s
    | w => sql.is v w

def stored (entity : CanonicalEntity) (d : StoreDatabase N D) : List (RecordOf N D) :=
  d (.records entity.name)

/-- A row of the institution satisfies all filters. -/
def satisfiesAll (sql : Sql N) (entity : CanonicalEntity) (filters : Table String (Filter N))
    (institutionId : String) (r : RecordOf N D) : Bool :=
  r.tenant == institutionId && filters.all fun f => f.2.missing ||
    (entity.field (readKey f.1).1).any fun item =>
      satisfies sql item (readKey f.1).2 f.2 (r.row.content.columns (readKey f.1).1)

/-! ## The clauses -/

/-- A value meets the clause of a filter on a field. -/
def selects (sql : Sql N) (item : CanonicalField) (question : Question) (filter : Filter N)
    (v : Value N) : Bool :=
  let param := boolFilter item filter.param
  let known := !v.isNull && !param.isNull
  match question with
  | .contains => sql.lowerLike (between (Python.lower N (filter.str sql))) v
  | .isIn => (filter.values.map (boolFilter item)).any (sql.is v)
  | .gte => known && !sql.less v param
  | .lte => known && !sql.less param v
  | .lt => known && sql.less v param
  | .gt => known && sql.less param v
  | .equals =>
    match param with
    | .text s => sql.lowerIs (Python.lower N s) v
    | w => sql.is v w

section
variable {sql : Sql N} {entity : CanonicalEntity} {key : String} {filter : Filter N}

theorem fieldOf_eq_ok {name : String} {item : CanonicalField}
    (h : fieldOf (N := N) entity name = .ok item) : entity.field name = some item := by
  unfold fieldOf at h
  split at h
  · cases h
  · split at h
    · rename_i found hfound
      rw [hfound, Except.ok.inj h]
    · cases h

def ReadsKey (sql : Sql N) (entity : CanonicalEntity) (key : String) (filter : Filter N)
    (clause : Option (Clause N)) : Prop :=
  ∃ item, entity.field (readKey key).1 = some item ∧
    clause = some ((readKey key).1, selects sql item (readKey key).2 filter)

theorem readsKey_of_field (column : String) (question : Question) {clause : Option (Clause N)}
    {holds : CanonicalField → Value N → Bool} (hkey : readKey key = (column, question))
    (hholds : ∀ item, holds item = selects sql item question filter)
    (h : (do
      let item ← fieldOf (N := N) entity column
      return some (column, holds item)) = Except.ok clause) :
    ReadsKey sql entity key filter clause := by
  obtain ⟨item, hitem, hclause⟩ := bind_eq_ok.mp h
  refine ⟨item, ?_, ?_⟩
  · rw [hkey]
    exact fieldOf_eq_ok hitem
  · rw [hkey, ← hholds]
    exact (Except.ok.inj hclause).symm

theorem clauseOf_eq_ok {clause : Option (Clause N)} (h : clauseOf sql entity key filter = .ok clause) :
    (filter.missing = true ∧ clause = none) ∨
      (filter.missing = false ∧ ReadsKey sql entity key filter clause) := by
  unfold clauseOf at h
  cases hasked : filter.missing with
  | true =>
    rw [hasked, if_pos rfl] at h
    exact .inl ⟨rfl, (Except.ok.inj h).symm⟩
  | false =>
    rw [hasked, if_neg Bool.false_ne_true] at h
    refine .inr ⟨rfl, ?_⟩
    cases hcontains : withoutSuffix "__contains" key with
    | some column =>
      simp only [hcontains] at h
      exact readsKey_of_field column .contains (by simp [readKey, endings, hcontains]) (fun _ => rfl) h
    | none =>
    cases hin : withoutSuffix "__in" key with
    | some column =>
      simp only [hcontains, hin] at h
      exact readsKey_of_field column .isIn (by simp [readKey, endings, hcontains, hin]) (fun _ => rfl) h
    | none =>
    simp only [hcontains, hin] at h
    cases hgte : withoutSuffix "__gte" key with
    | some column =>
      simp only [List.filterMap_cons, hgte, Option.map_some] at h
      exact readsKey_of_field column .gte (by simp [readKey, endings, hcontains, hin, hgte]) (fun _ => rfl) h
    | none =>
    cases hlte : withoutSuffix "__lte" key with
    | some column =>
      simp only [List.filterMap_cons, hgte, hlte, Option.map_none, Option.map_some] at h
      exact readsKey_of_field column .lte (by simp [readKey, endings, hcontains, hin, hgte, hlte]) (fun _ => rfl) h
    | none =>
    cases hlt : withoutSuffix "__lt" key with
    | some column =>
      simp only [List.filterMap_cons, hgte, hlte, hlt, Option.map_none, Option.map_some] at h
      exact readsKey_of_field column .lt (by simp [readKey, endings, hcontains, hin, hgte, hlte, hlt])
        (fun _ => rfl) h
    | none =>
    cases hgt : withoutSuffix "__gt" key with
    | some column =>
      simp only [List.filterMap_cons, hgte, hlte, hlt, hgt, Option.map_none, Option.map_some] at h
      exact readsKey_of_field column .gt (by simp [readKey, endings, hcontains, hin, hgte, hlte, hlt, hgt])
        (fun _ => rfl) h
    | none =>
      simp only [List.filterMap_cons, List.filterMap_nil, hgte, hlte, hlt, hgt, Option.map_none] at h
      have hkey : readKey key = (key, .equals) := by
        simp [readKey, endings, hcontains, hin, hgte, hlte, hlt, hgt]
      obtain ⟨item, hitem, hclause⟩ := bind_eq_ok.mp h
      refine ⟨item, ?_, ?_⟩
      · rw [hkey]
        exact fieldOf_eq_ok hitem
      · rw [hkey]
        cases hparam : boolFilter item filter.param <;> rw [hparam] at hclause <;>
          rw [← Except.ok.inj hclause] <;>
          refine congrArg (fun holds => some (key, holds)) (funext fun w => ?_) <;>
          simp only [selects, hparam]

end

/-! ## What the engine is taken to do -/

/-- `LIKE`, texts and lower case, as engines have them: without an escape letter in SQLite, with a
backslash in PostgreSQL. -/
structure Engine (sql : Sql N) (escape : Option Char) : Prop where
  escape_ne : escape ≠ some '%'
  like : sql.like = Lib.like escape
  text : ∀ s, sql.text (.text s) = s
  lower : ∀ s, Python.lower N s = s → sql.lower s = s

/-- `str.lower`: its letters stay as they are, and so does a text of such letters. -/
structure LowersLetters (N : Type) [Python N] : Prop where
  letters : ∀ s, ∀ c ∈ (Python.lower N s).toList,
    Python.lower N (String.singleton c) = String.singleton c
  text : ∀ s, (∀ c ∈ s.toList, Python.lower N (String.singleton c) = String.singleton c) →
    Python.lower N s = s
  percent : Python.lower N "%" = "%"

/-- A text to be contained that has a letter with a meaning. -/
def HasWildcard (sql : Sql N) (escape : Option Char) (f : String × Filter N) : Prop :=
  f.2.missing = false ∧ (readKey f.1).2 = .contains ∧
    ∃ c ∈ (Python.lower N (f.2.str sql)).toList, Wild escape c

/-- The engine's `LOWER` is Python's `lower` on the institution's texts in the columns asked of. -/
def LowersAlike (sql : Sql N) (entity : CanonicalEntity) (filters : Table String (Filter N))
    (institutionId : String) (d : StoreDatabase N D) : Prop :=
  ∀ r : RecordOf N D, r ∈ stored entity d → r.tenant = institutionId → ∀ f ∈ filters,
    ∀ v, v = r.row.content.columns (readKey f.1).1 → v.isNull = false →
      sql.lower (sql.text v) = Python.lower N (sql.text v)

/-! ## A filter, read -/

section
variable {sql : Sql N} {escape : Option Char} {entity : CanonicalEntity}
  {filters : Table String (Filter N)} {institutionId : String}

/-- What a clause selects is what its filter asks for, where texts are lowered alike and nothing in
a text to be contained has a meaning. -/
theorem selects_eq (hengine : Engine sql escape) {item : CanonicalField} {question : Question}
    {filter : Filter N} {v : Value N}
    (hplain : question = .contains → ∀ c ∈ (Python.lower N (filter.str sql)).toList, ¬Wild escape c)
    (hlower : v.isNull = false → sql.lower (sql.text v) = Python.lower N (sql.text v)) :
    selects sql item question filter v = satisfies sql item question filter v := by
  cases question with
  | contains =>
    simp only [selects, satisfies, Sql.lowerLike]
    cases hv : v.isNull with
    | true => rfl
    | false =>
      rw [hengine.like, hlower hv, Bool.eq_iff_iff, Bool.not_false, Bool.true_and, Bool.true_and,
        like_contains hengine.escape_ne (hplain rfl), occurs, decide_eq_true_eq]
  | isIn => simp only [selects, satisfies, List.any_map]; rfl
  | gte => rfl
  | lte => rfl
  | lt => rfl
  | gt => rfl
  | equals =>
    simp only [selects, satisfies, Sql.lowerIs]
    cases boolFilter item filter.param with
    | text s =>
      cases hv : v.isNull with
      | true => rfl
      | false => simp [hlower hv]
    | null => rfl
    | int i => rfl
    | number x => rfl
    | bool b => rfl

/-- A filter mapping that a query accepts. -/
structure Accepted (sql : Sql N) (entity : CanonicalEntity) (filters : Table String (Filter N)) :
    Prop where
  clauses : ∀ f ∈ filters, ∃ clause, clauseOf sql entity f.1 f.2 = .ok clause
  bindable : ∀ f ∈ filters, f.2.unbindable f.1 = false

theorem exists_whereClauses {p : Clause N → Bool} {q : String × Filter N → Bool}
    (h : ∀ f ∈ filters, ∃ clause, clauseOf sql entity f.1 f.2 = .ok clause ∧ clause.all p = q f) :
    ∃ clauses, whereClauses sql entity filters = .ok clauses ∧ clauses.all p = filters.all q := by
  suffices hfound : ∃ found, (filters.mapM fun f => clauseOf sql entity f.1 f.2) = .ok found ∧
      (found.filterMap id).all p = filters.all q by
    obtain ⟨found, hfound, hall⟩ := hfound
    exact ⟨found.filterMap id, bind_eq_ok.mpr ⟨found, hfound, rfl⟩, hall⟩
  induction filters with
  | nil => exact ⟨[], rfl, rfl⟩
  | cons f filters ih =>
    obtain ⟨⟨clause, hclause, hp⟩, hrest⟩ := List.forall_mem_cons.mp h
    obtain ⟨found, hfound, hall⟩ := ih hrest
    refine ⟨clause :: found, mapM_cons_eq_ok.mpr ⟨clause, found, hclause, hfound, rfl⟩, ?_⟩
    rw [List.all_cons, ← hall, ← hp]
    cases clause <;> simp

theorem matching_eq (hengine : Engine sql escape) (haccepted : Accepted sql entity filters)
    (hplain : ∀ f ∈ filters, ¬HasWildcard sql escape f) {d : StoreDatabase N D}
    (hlower : LowersAlike sql entity filters institutionId d) :
    ∃ clauses, whereClauses sql entity filters = .ok clauses ∧
      ∀ r : RecordOf N D, r ∈ stored entity d →
        matching institutionId clauses r = satisfiesAll sql entity filters institutionId r := by
  have hread : ∀ r : RecordOf N D, r ∈ stored entity d → r.tenant = institutionId →
      ∀ f ∈ filters, ∃ clause, clauseOf sql entity f.1 f.2 = .ok clause ∧
        clause.all (fun c => c.2 (r.row.content.columns c.1)) =
          (f.2.missing || (entity.field (readKey f.1).1).any fun item =>
            satisfies sql item (readKey f.1).2 f.2 (r.row.content.columns (readKey f.1).1)) := by
    intro r hr htenant f hf
    obtain ⟨clause, hclause⟩ := haccepted.clauses f hf
    refine ⟨clause, hclause, ?_⟩
    rcases clauseOf_eq_ok hclause with ⟨hmissing, rfl⟩ | ⟨hmissing, item, hitem, rfl⟩
    · rw [hmissing]
      rfl
    · rw [hmissing, hitem, Bool.false_or]
      refine selects_eq hengine (fun hcontains c hc hwild => ?_) (hlower r hr htenant f hf _ rfl)
      exact hplain f hf ⟨hmissing, hcontains, c, hc, hwild⟩
  have hbuilt : ∀ f ∈ filters, ∃ clause, clauseOf sql entity f.1 f.2 = .ok clause ∧
      clause.all (fun _ => true) = true := by
    intro f hf
    obtain ⟨clause, hclause⟩ := haccepted.clauses f hf
    exact ⟨clause, hclause, by cases clause <;> rfl⟩
  obtain ⟨clauses, hclauses, -⟩ := exists_whereClauses (q := fun _ => true) hbuilt
  refine ⟨clauses, hclauses, fun r hr => ?_⟩
  unfold matching satisfiesAll
  by_cases htenant : r.tenant = institutionId
  · obtain ⟨clauses', hclauses', hall⟩ := exists_whereClauses (hread r hr htenant)
    obtain rfl : clauses = clauses' := Except.ok.inj (hclauses.symm.trans hclauses')
    rw [hall]
  · rw [beq_false_of_ne htenant, Bool.false_and, Bool.false_and]

/-- The answers of a query and of a count are the rows that satisfy the filters. -/
def AnswersLiterally (sql : Sql N) (entity : CanonicalEntity) (filters : Table String (Filter N))
    (institutionId : String) (d : StoreDatabase N D) : Prop :=
  (∀ limit offset order before, recordOrder (D := D) sql entity order = .ok before →
    queryRecords sql institutionId entity filters limit offset order d =
      .ok ((((orderBy before ((stored entity d).filter
        (satisfiesAll sql entity filters institutionId))).drop offset).take
          (Ingestion.clampLimit limit 5000)).map (rowToRecord entity), d)) ∧
    countRecords sql institutionId entity filters d =
      .ok (((stored entity d).filter
        (satisfiesAll sql entity filters institutionId)).length, d)

theorem Accepted.sublist {kept : Table String (Filter N)} (h : Accepted sql entity filters)
    (hkept : kept.Sublist filters) : Accepted sql entity kept :=
  ⟨fun f hf => h.clauses f (hkept.subset hf), fun f hf => h.bindable f (hkept.subset hf)⟩

theorem answers_of_clauses {clauses : List (Clause N)}
    (hinstitution : Lib.strip (Python.isSpace N) institutionId ≠ "")
    (hclauses : whereClauses sql entity filters = .ok clauses)
    (hbindable : ∀ f ∈ filters, f.2.unbindable f.1 = false) (d : StoreDatabase N D) :
    (∀ limit offset order before, recordOrder (D := D) sql entity order = .ok before →
      queryRecords sql institutionId entity filters limit offset order d =
        .ok ((((orderBy before ((stored entity d).filter
          (matching institutionId clauses))).drop offset).take
            (Ingestion.clampLimit limit 5000)).map (rowToRecord entity), d)) ∧
      countRecords sql institutionId entity filters d =
        .ok (((stored entity d).filter (matching institutionId clauses)).length, d) := by
  have hbind : (bind filters : Method N D Unit) = pure () := by
    unfold bind
    rw [if_neg]
    simpa using hbindable
  have htenant : ∀ {α : Type} (body : Method N D α), inTenant institutionId body = body :=
    fun body => if_neg hinstitution
  refine ⟨fun limit offset order before hbefore => ?_, ?_⟩
  · simp only [queryRecords, hclauses, hbefore, raiseStoreError, htenant, hbind, pure_bind]
    rfl
  · simp only [countRecords, hclauses, raiseStoreError, htenant, hbind, pure_bind]
    rfl

theorem answersLiterally (hengine : Engine sql escape) (haccepted : Accepted sql entity filters)
    (hplain : ∀ f ∈ filters, ¬HasWildcard sql escape f)
    (hinstitution : Lib.strip (Python.isSpace N) institutionId ≠ "") {d : StoreDatabase N D}
    (hlower : LowersAlike sql entity filters institutionId d) :
    AnswersLiterally sql entity filters institutionId d := by
  obtain ⟨clauses, hclauses, hmatching⟩ := matching_eq hengine haccepted hplain hlower
  have hrows : (stored entity d).filter (matching institutionId clauses) =
      (stored entity d).filter (satisfiesAll sql entity filters institutionId) :=
    List.filter_congr fun r hr => hmatching r hr
  obtain ⟨hquery, hcount⟩ := answers_of_clauses hinstitution hclauses haccepted.bindable d
  rw [hrows] at hcount
  refine ⟨fun limit offset order before hbefore => ?_, hcount⟩
  rw [hquery limit offset order before hbefore, hrows]

/-! ## A text with a letter that has a meaning -/

/-- A row of an institution with a text in one column. -/
def oneText (institutionId column text : String) (hash : D) : RecordOf N D :=
  ⟨institutionId, "row", "key", fun name => if name = column then .text text else .null, [], [], [],
    hash, ⟨none, none, none, none⟩, "", ""⟩

def oneRecord (entity : CanonicalEntity) (r : RecordOf N D) : StoreDatabase N D :=
  Function.update (fun _ => []) (.records entity.name) [r]

omit [Python N] in
theorem stored_oneRecord (r : RecordOf N D) : stored entity (oneRecord entity r) = [r] := by
  unfold stored oneRecord
  rw [Function.update_self]
  rfl

theorem not_blank : Lib.strip (Python.isSpace N) "college" ≠ "" := by
  intro h
  have hmem : 'c' ∈ (Lib.strip (Python.isSpace N) "college").toList :=
    mem_strip (by decide) (Python.letter_not_space 'c' (by decide))
  rw [h] at hmem
  cases hmem

/-- A filter on a text with a letter that has a meaning counts a row that does not contain it. -/
theorem not_answersLiterally (hengine : Engine sql escape) (hletters : LowersLetters N)
    {f : String × Filter N} (haccepted : Accepted sql entity [f]) (hwild : HasWildcard sql escape f)
    (hash : D) : ∃ d : StoreDatabase N D, LowersAlike sql entity [f] "college" d ∧
      ¬AnswersLiterally sql entity [f] "college" d := by
  obtain ⟨hasked, hcontains, hwild⟩ := hwild
  obtain ⟨text, hlike, hoccurs, hmem⟩ := exists_like hengine.escape_ne hwild
  -- the text is of lowered letters
  have hlower : Python.lower N text = text := by
    refine hletters.text text fun c hc => ?_
    rcases hmem c hc with h | rfl
    · exact hletters.letters _ c h
    · exact hletters.percent
  set r : RecordOf N D := oneText "college" (readKey f.1).1 text hash with hr
  have hcolumn : r.row.content.columns (readKey f.1).1 = .text text := if_pos rfl
  refine ⟨oneRecord entity r, ?_, fun hanswers => ?_⟩
  · intro r' hr' _ g hg v hv _
    rw [stored_oneRecord, List.mem_singleton] at hr'
    rw [List.mem_singleton] at hg
    subst hr' hg
    rw [hv, hcolumn, hengine.text, hlower, hengine.lower text hlower]
  · obtain ⟨clause, hclause⟩ := haccepted.clauses f (List.mem_singleton.mpr rfl)
    rcases clauseOf_eq_ok hclause with ⟨hmissing, -⟩ | ⟨-, item, hitem, rfl⟩
    · rw [hasked] at hmissing
      cases hmissing
    · have hclauses : whereClauses sql entity [f] =
          .ok [((readKey f.1).1, selects sql item (readKey f.1).2 f.2)] := by
        unfold whereClauses
        rw [List.mapM_cons, hclause]
        rfl
      have hcount := (answers_of_clauses not_blank hclauses haccepted.bindable
        (oneRecord entity r)).2
      rw [hanswers.2, stored_oneRecord] at hcount
      have hselected : matching "college" [((readKey f.1).1, selects sql item (readKey f.1).2 f.2)] r
          = true := by
        simp only [matching, List.all_cons, List.all_nil, hcolumn, hcontains, selects, Sql.lowerLike,
          hengine.like, hengine.text, hengine.lower text hlower, hlike]
        rfl
      have hread : satisfiesAll sql entity [f] "college" r = false := by
        simp only [satisfiesAll, List.all_cons, List.all_nil, hasked, hitem, Option.any_some, hcolumn,
          hcontains, satisfies, occurs, hengine.text, hlower, decide_eq_false hoccurs, Bool.and_false,
          Bool.or_false, Bool.false_and]
      rw [List.filter_singleton, List.filter_singleton, hselected, hread] at hcount
      cases hcount

end

/-- The engine of examples, with the `LIKE` of SQLite. -/
def likeSql : Sql ℚ := { plainSql with like := Lib.like none }

theorem lowersLetters_rat : LowersLetters ℚ where
  letters s c hc := by
    have hmap : c ∈ s.toList.map Char.toLower := toList_toLower s ▸ hc
    obtain ⟨b, -, rfl⟩ := List.mem_map.mp hmap
    exact toLower_singleton_iff.mpr (toLower_toLower b)
  text s h := toLower_eq_self_iff.mpr h
  percent := by decide +kernel

theorem engine_likeSql : Engine likeSql none where
  escape_ne := Option.some_ne_none _ |>.symm
  like := rfl
  text _ := rfl
  lower _ h := h

def underscore : Table String (Filter ℚ) := [("name__contains", .one (.text "_"))]

theorem accepted_underscore : Accepted likeSql student underscore := by
  have hclause : (clauseOf likeSql student "name__contains" (.one (.text "_"))).toOption.isSome =
      true := by
    decide
  refine ⟨fun f hf => ?_, fun f hf => ?_⟩
  · obtain rfl := List.mem_singleton.mp hf
    cases h : clauseOf likeSql student "name__contains" (.one (.text "_")) with
    | ok clause => exact ⟨clause, rfl⟩
    | error e =>
      rw [h] at hclause
      cases hclause
  · obtain rfl := List.mem_singleton.mp hf
    rfl

/-- A store of one student, Asha, whose name has no underscore. -/
def ashaOnly : StoreDatabase ℚ Unit := oneRecord student (oneText "college" "name" "Asha" ())

end GuruJi.Store
