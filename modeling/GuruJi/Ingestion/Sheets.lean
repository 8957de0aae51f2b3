import GuruJi.Ingestion.Grids
import GuruJi.Lib.Fresh

/-!
# MergedHeaders sheets

Sheets with the same columns become one list of rows. A header is kept under the spelling that the first
sheet has of it, or as it is where another column of its sheet has that name, or with the name of its
sheet.

* `renameSheet_injective_iff`: the columns of a sheet keep different names iff none of its headers finds
  its three names taken;
* **`merges_iff`**: then, and only then, no cell is lost;
* `cell_lost`: a header that is spelled like the third name of another one.
-/

namespace GuruJi.Ingestion

open GuruJi.Lib

/-! ## Names -/

/-- `normalize_header`, whose substitutions leave lower-case letters, digits, `%`, `#` and spaces. -/
def normalizeHeader (lower : String → String) (value : String) : String :=
  let kept := (lower value).toList.map fun c =>
    if 'a' ≤ c && c ≤ 'z' || '0' ≤ c && c ≤ '9' || c == '%' || c == '#' then c else ' '
  String.intercalate " " ((words (· = ' ') kept).map String.ofList)

/-- The name that is tried after `k` others: the name itself, and then with numbers from two. -/
def numberedName (name : String) (k : Nat) : String := if k = 0 then name else repeatName name (k + 1)

theorem numberedName_injective (name : String) : Function.Injective (numberedName name) := by
  intro k j h
  have hlonger : ∀ n, name ≠ repeatName name n := by
    intro n heq
    have hlength := congrArg String.length heq
    simp only [repeatName, String.length_append] at hlength
    have hopen : " (".length = 2 := rfl
    omega
  rw [numberedName, numberedName] at h
  split_ifs at h with hk hj hj
  · omega
  · exact absurd h (hlonger _)
  · exact absurd h.symm (hlonger _)
  · have hnumber := (repeatName_injective _ _ _ _ h).2
    omega

/-! ## Sheets -/

/-- A parsed sheet, as the parsers make it: its headers are distinct, each field of a record has one, and
rows are numbered from one. -/
structure ParsedSheet (V : Type*) extends ParsedTable V where
  name : String
  distinct : headers.Nodup
  keyed : ∀ r ∈ records, (r.fields.map Prod.fst).Nodup ∧ ∀ k ∈ r.fields.map Prod.fst, k ∈ headers
  numbered : ∀ r ∈ records, 1 ≤ r.rowNumber

/-- The headers of the merged rows, and the spelling that each normalized one has. -/
structure MergedHeaders where
  headers : List String
  spelling : Table String String

section
variable (norm : String → String)

def MergedHeaders.add (m : MergedHeaders) (target : String) : MergedHeaders :=
  if target ∈ m.headers then m else ⟨m.headers ++ [target], m.spelling.note (norm target, target)⟩

def suffixed (sheet header : String) : String := header ++ " (" ++ sheet ++ ")"

def spelled (m : MergedHeaders) (header : String) : String := (m.spelling.get (norm header)).getD header

/-- The name that a header gets, beside those of the columns before it. -/
def target (sheet : String) (m : MergedHeaders) (taken : List String) (header : String) : String :=
  if spelled norm m header ∈ taken then if header ∉ taken then header else suffixed sheet header
  else spelled norm m header

def renameStep (sheet : String) (s : MergedHeaders × Table String String) (header : String) :
    MergedHeaders × Table String String :=
  (s.1.add norm (target norm sheet s.1 (s.2.map Prod.snd) header),
    s.2.assign header (target norm sheet s.1 (s.2.map Prod.snd) header))

variable {V : Type*}

/-- The headers of a sheet are renamed one by one. -/
def renameSheet (m : MergedHeaders) (t : ParsedSheet V) : MergedHeaders × Table String String :=
  t.headers.foldl (renameStep norm t.name) (m, [])

/-- The headers of all sheets, and the names that each sheet's headers get. -/
def renameSheets : MergedHeaders → List (ParsedSheet V) → MergedHeaders × List (Table String String)
  | m, [] => (m, [])
  | m, t :: tables =>
    ((renameSheets (renameSheet norm m t).1 tables).1,
      (renameSheet norm m t).2 :: (renameSheets (renameSheet norm m t).1 tables).2)

end

/-- The name of the column that names the sheets: one that no column has. -/
def sheetColumnName (headers : List String) : String :=
  numberedName "Sheet" (firstFree (numberedName "Sheet") headers headers.length 0)

/-! ## Rows -/

/-- A merged row: the record, its fields under their new names, and the number that orders it. -/
structure MergedRow (V : Type*) where
  record : IntermediateRecord V
  fields : Table String V
  rowNumber : Nat

section
variable {V : Type*} (text : String → V)

/-- `rename.get(key, key)`. -/
def renamed (rename : Table String String) (key : String) : String := (rename.get key).getD key

/-- The fields of a record under their new names, and the name of its sheet. -/
def mergedFields (column : Option String) (sheet : String) (rename : Table String String)
    (fields : Table String V) : Table String V :=
  let kept := (fields.map fun e => (renamed rename e.1, e.2)).foldl (fun t e => Table.assign t e.1 e.2)
    []
  match column with
  | some column => Table.assign kept column (text sheet)
  | none => kept

/-- The rows of a sheet, after those of the sheets before it. -/
def sheetRows (column : Option String) (offset : Nat) (t : ParsedSheet V)
    (rename : Table String String) : List (MergedRow V) :=
  t.records.map fun r => ⟨r, mergedFields text column t.name rename r.fields, r.rowNumber + offset⟩

def lastRow (t : ParsedSheet V) : Nat := (t.records.map (·.rowNumber)).foldl max 0

def mergeRows (column : Option String) : Nat → List (ParsedSheet V × Table String String) →
    List (MergedRow V)
  | _, [] => []
  | offset, (t, rename) :: sheets =>
    sheetRows text column offset t rename ++ mergeRows column (offset + lastRow t) sheets

/-- The column that names the sheets, if there are several. -/
def addedColumn (norm : String → String) (tables : List (ParsedSheet V)) : Option String :=
  if 1 < tables.length then some (sheetColumnName (renameSheets norm ⟨[], []⟩ tables).1.headers) else
    none

/-- `_merge_sheets`. -/
def mergeSheets (norm : String → String) (tables : List (ParsedSheet V)) : List String × List
    (MergedRow V) :=
  ((renameSheets norm ⟨[], []⟩ tables).1.headers ++ (addedColumn norm tables).toList,
    mergeRows text (addedColumn norm tables) 0 (tables.zip (renameSheets norm ⟨[], []⟩ tables).2))

end

/-! ## What is renamed -/

section
variable {norm : String → String} {V : Type*}

/-- The header comes when its spelling, itself and its name with the sheet's are all taken. -/
def Crowded (norm : String → String) (sheet : String)
    (turn : (MergedHeaders × Table String String) × String) : Prop :=
  spelled norm turn.1.1 turn.2 ∈ turn.1.2.map Prod.snd ∧ turn.2 ∈ turn.1.2.map Prod.snd ∧
    suffixed sheet turn.2 ∈ turn.1.2.map Prod.snd

variable {s : MergedHeaders × Table String String} {sheet : String} {m : MergedHeaders}
  {tables : List (ParsedSheet V)} {column : Option String} {text : String → V}
  {sheets : List (ParsedSheet V × Table String String)}

theorem target_mem_iff {header : String} :
    target norm sheet s.1 (s.2.map Prod.snd) header ∈ s.2.map Prod.snd ↔
    Crowded norm sheet (s, header) := by
  rw [target, Crowded]
  by_cases hspelled : spelled norm s.1 header ∈ s.2.map Prod.snd
  · rw [if_pos hspelled]
    by_cases hheader : header ∈ s.2.map Prod.snd
    · rw [if_neg (not_not.mpr hheader)]
      exact ⟨fun h => ⟨hspelled, hheader, h⟩, fun h => h.2.2⟩
    · rw [if_pos hheader]
      exact ⟨fun h => absurd h hheader, fun h => h.2.1⟩
  · rw [if_neg hspelled]
    exact ⟨fun h => absurd h hspelled, fun h => h.1⟩

theorem renameStep_new {sheet header : String}
    (h : header ∉ s.2.map Prod.fst) : (renameStep norm sheet s header).2 =
      s.2 ++ [(header, target norm sheet s.1 (s.2.map Prod.snd) header)] := Table.assign_of_not_mem h _

theorem foldl_renameStep {headers : List String} (hnew : (s.2.map Prod.fst ++ headers).Nodup) :
    (headers.foldl (renameStep norm sheet) s).2.map Prod.fst = s.2.map Prod.fst ++ headers ∧
      s.2 <+: (headers.foldl (renameStep norm sheet) s).2 := by
  induction headers generalizing s with
  | nil =>
    rw [List.append_nil]
    exact ⟨rfl, List.prefix_rfl⟩
  | cons header headers ih =>
    have hheader : header ∉ s.2.map Prod.fst := fun hmem =>
      (List.nodup_append.mp hnew).2.2 header hmem header List.mem_cons_self rfl
    have hstep : (renameStep norm sheet s header).2 =
        s.2 ++ [(header, target norm sheet s.1 (s.2.map Prod.snd) header)] := renameStep_new hheader
    have hkeys : (renameStep norm sheet s header).2.map Prod.fst = s.2.map Prod.fst ++ [header] := by
      rw [hstep, List.map_append]
      rfl
    obtain ⟨hfst, hstart⟩ := ih (s := renameStep norm sheet s header) (by
      rw [hkeys, List.append_assoc]
      exact hnew)
    refine ⟨?_, ?_⟩
    · rw [List.foldl_cons, hfst, hkeys, List.append_assoc]
      rfl
    · refine List.IsPrefix.trans ?_ hstart
      rw [hstep]
      exact List.prefix_append _ _

theorem nodup_foldl_renameStep {headers : List String}
    (hnew : (s.2.map Prod.fst ++ headers).Nodup) (hs : (s.2.map Prod.snd).Nodup) :
    ((headers.foldl (renameStep norm sheet) s).2.map Prod.snd).Nodup ↔
      ∀ turn ∈ turns (renameStep norm sheet) s headers, ¬Crowded norm sheet turn := by
  induction headers generalizing s with
  | nil => exact iff_of_true hs fun turn hturn => by cases hturn
  | cons header headers ih =>
    have hheader : header ∉ s.2.map Prod.fst := fun hmem =>
      (List.nodup_append.mp hnew).2.2 header hmem header List.mem_cons_self rfl
    have hstep : (renameStep norm sheet s header).2 =
        s.2 ++ [(header, target norm sheet s.1 (s.2.map Prod.snd) header)] := renameStep_new hheader
    have hnext : ((renameStep norm sheet s header).2.map Prod.fst ++ headers).Nodup := by
      rw [hstep, List.map_append, List.append_assoc]
      exact hnew
    have hvalues : (renameStep norm sheet s header).2.map Prod.snd =
        s.2.map Prod.snd ++ [target norm sheet s.1 (s.2.map Prod.snd) header] := by
      rw [hstep, List.map_append]
      rfl
    rw [List.foldl_cons, turns, List.forall_mem_cons]
    by_cases hcrowded : Crowded norm sheet (s, header)
    · refine iff_of_false (fun hnodup => ?_) fun h => h.1 hcrowded
      -- the names that are given stay, and this one is given twice
      have hkept : (renameStep norm sheet s header).2 <+:
          (headers.foldl (renameStep norm sheet) (renameStep norm sheet s header)).2 :=
              (foldl_renameStep hnext).2
      have htwice := hnodup.sublist (hkept.map Prod.snd).sublist
      rw [hvalues, List.nodup_append] at htwice
      exact htwice.2.2 _ (target_mem_iff.mpr hcrowded) _ List.mem_cons_self rfl
    · rw [ih hnext]
      · exact (and_iff_right hcrowded).symm
      · rw [hvalues]
        refine List.nodup_append.mpr ⟨hs, List.nodup_singleton _, fun name hname name' hname' heq => ?_⟩
        rw [List.mem_singleton] at hname'
        exact hcrowded (target_mem_iff.mp (hname' ▸ heq ▸ hname))

theorem keys_renameSheet (m : MergedHeaders) (t : ParsedSheet V) :
    (renameSheet norm m t).2.map Prod.fst = t.headers :=
  (foldl_renameStep (s := (m, [])) t.distinct).1

/-- No header of the sheet comes when all its names are taken. -/
def Roomy (norm : String → String) (m : MergedHeaders) (t : ParsedSheet V) : Prop :=
  ∀ turn ∈ turns (renameStep norm t.name) (m, []) t.headers, ¬Crowded norm t.name turn

/-- **The headers of a sheet keep different names** iff none of them comes when all its names
are taken. -/
theorem renameSheet_injective_iff {t : ParsedSheet V} : (∀ h ∈ t.headers, ∀ h' ∈ t.headers,
      renamed (renameSheet norm m t).2 h = renamed (renameSheet norm m t).2 h' → h = h') ↔
      Roomy norm m t := by
  rw [Roomy, ← nodup_foldl_renameStep (s := (m, [])) t.distinct List.nodup_nil]
  have hkeys : (renameSheet norm m t).2.map Prod.fst = t.headers := keys_renameSheet m t
  have hdistinct : ((renameSheet norm m t).2.map Prod.fst).Nodup := hkeys ▸ t.distinct
  have hget : ∀ e ∈ (renameSheet norm m t).2, renamed (renameSheet norm m t).2 e.1 = e.2 := by
    intro e he
    rw [renamed, Table.get_of_mem hdistinct he, Option.getD_some]
  have hvalues : (renameSheet norm m t).2.map Prod.snd =
      t.headers.map (renamed (renameSheet norm m t).2) := by
    rw [← hkeys, List.map_map]
    exact List.map_congr_left fun e he => (hget e he).symm
  show _ ↔ ((renameSheet norm m t).2.map Prod.snd).Nodup
  rw [hvalues]
  constructor
  · intro h
    exact List.Nodup.map_on h t.distinct
  · intro h a ha b hb heq
    exact List.inj_on_of_nodup_map h ha hb heq

/-- No header of any sheet comes when all its names are taken. -/
def RoomySheets (norm : String → String) : MergedHeaders → List (ParsedSheet V) → Prop
  | _, [] => True
  | m, t :: tables => Roomy norm m t ∧ RoomySheets norm (renameSheet norm m t).1 tables

def Injective (s : ParsedSheet V × Table String String) : Prop :=
  ∀ h ∈ s.1.headers, ∀ h' ∈ s.1.headers, renamed s.2 h = renamed s.2 h' → h = h'

theorem renameSheets_injective_iff :
    (∀ s ∈ tables.zip (renameSheets norm m tables).2, Injective s) ↔ RoomySheets norm m tables := by
  induction tables generalizing m with
  | nil => exact iff_of_true (fun s hs => by cases hs) trivial
  | cons t tables ih =>
    rw [renameSheets, List.zip_cons_cons, List.forall_mem_cons, ih, RoomySheets]
    exact and_congr_left' renameSheet_injective_iff

theorem MergedHeaders.headers_add (m : MergedHeaders) (norm : String → String) (target : String) :
    target ∈ (m.add norm target).headers ∧ m.headers ⊆ (m.add norm target).headers := by
  rw [MergedHeaders.add]
  split_ifs with hmem
  · exact ⟨hmem, fun h hh => hh⟩
  · exact ⟨List.mem_append_right _ (List.mem_singleton_self _), fun h hh => List.mem_append_left _ hh⟩

theorem headers_renameSheet (m : MergedHeaders) (t : ParsedSheet V) :
    m.headers ⊆ (renameSheet norm m t).1.headers ∧
      ∀ e ∈ (renameSheet norm m t).2, e.2 ∈ (renameSheet norm m t).1.headers := by
  refine foldl_keeps (P := fun s : MergedHeaders × Table String String =>
    m.headers ⊆ s.1.headers ∧ ∀ e ∈ s.2, e.2 ∈ s.1.headers) (fun a _ s hs => ?_)
        ⟨fun h hh => hh, fun e he => by cases he⟩
  obtain ⟨hnew, hold⟩ := s.1.headers_add norm (target norm t.name s.1 (s.2.map Prod.snd) a)
  refine ⟨fun h hh => hold (hs.1 hh), fun e he => ?_⟩
  rcases Table.eq_or_mem_of_mem_assign he with rfl | he
  · exact hnew
  · exact hold (hs.2 e he)

theorem headers_renameSheets (m : MergedHeaders) (tables : List (ParsedSheet V)) :
    m.headers ⊆ (renameSheets norm m tables).1.headers := by
  induction tables generalizing m with
  | nil => exact fun h hh => hh
  | cons t tables ih => exact fun h hh => ih _ ((headers_renameSheet m t).1 hh)

theorem renamed_mem_headers
    {s : ParsedSheet V × Table String String} (hs : s ∈ tables.zip (renameSheets norm m tables).2)
    {header : String} (h : header ∈ s.1.headers) :
    renamed s.2 header ∈ (renameSheets norm m tables).1.headers := by
  induction tables generalizing m with
  | nil => cases hs
  | cons t tables ih =>
    rw [renameSheets, List.zip_cons_cons, List.mem_cons] at hs
    rcases hs with rfl | hs
    · have hkey : header ∈ (renameSheet norm m t).2.map Prod.fst := (keys_renameSheet m t).symm ▸ h
      obtain ⟨target, htarget⟩ := Option.isSome_iff_exists.mp (Table.isSome_get.mpr hkey)
      refine headers_renameSheets (renameSheet norm m t).1 tables ?_
      show renamed (renameSheet norm m t).2 header ∈ _
      rw [renamed, htarget, Option.getD_some]
      exact (headers_renameSheet m t).2 _ (Table.mem_of_get htarget)
    · exact ih hs

theorem sheetColumnName_not_mem (headers : List String) : sheetColumnName headers ∉ headers :=
  firstFree_not_mem (numberedName_injective "Sheet") 0

/-! ## What is merged -/

theorem get_mergedFields {s : ParsedSheet V × Table String String}
    (hs : Injective s) (hcolumn : ∀ c ∈ column, ∀ h ∈ s.1.headers, renamed s.2 h ≠ c)
    {r : IntermediateRecord V} (hr : r ∈ s.1.records) {key : String} {value : V}
        (h : (key, value) ∈ r.fields) :
    (mergedFields text column s.1.name s.2 r.fields).get (renamed s.2 key) = some value := by
  obtain ⟨hnodup, hkeys⟩ := s.1.keyed r hr
  have hkey : key ∈ s.1.headers := hkeys key (List.mem_map_of_mem h)
  have hrenamed : ((r.fields.map fun e => (renamed s.2 e.1, e.2)).map Prod.fst).Nodup := by
    have hmap : (r.fields.map fun e => (renamed s.2 e.1, e.2)).map Prod.fst =
        (r.fields.map Prod.fst).map (renamed s.2) := by
      rw [List.map_map, List.map_map]
      rfl
    rw [hmap]
    exact List.Nodup.map_on (fun a ha b hb => hs a (hkeys a ha) b (hkeys b hb)) hnodup
  have hkept := (Table.get_foldl_assign [] hrenamed (renamed s.2 key)).1 value
    (List.mem_map.mpr ⟨(key, value), h, rfl⟩)
  cases column with
  | none => exact hkept
  | some column =>
    show (Table.assign _ column (text s.1.name)).get _ = some value
    rw [Table.get_assign, if_neg (hcolumn column rfl key hkey)]
    exact hkept

/-- The records of the sheets, each with its sheet. -/
def sources (sheets : List (ParsedSheet V × Table String String)) :
    List ((ParsedSheet V × Table String String) × IntermediateRecord V) :=
  sheets.flatMap fun s => s.1.records.map fun r => (s, r)

/-- A row is that of a record, and has every field of it under its new name. -/
def Keeps (row : MergedRow V) (source : (ParsedSheet V × Table String String) × IntermediateRecord V) :
    Prop :=
  row.record = source.2 ∧
    ∀ key value, (key, value) ∈ source.2.fields → row.fields.get (renamed source.1.2 key) = some value

theorem forall₂_mergeRows (hsheets : ∀ s ∈ sheets, Injective s)
    (hcolumn : ∀ c ∈ column, ∀ s ∈ sheets, ∀ h ∈ s.1.headers, renamed s.2 h ≠ c) (offset : Nat) :
    List.Forall₂ Keeps (mergeRows text column offset sheets) (sources sheets) := by
  induction sheets generalizing offset with
  | nil => exact List.Forall₂.nil
  | cons s sheets ih =>
    obtain ⟨t, rename⟩ := s
    refine List.rel_append ?_ (ih (fun s hs => hsheets s (List.mem_cons_of_mem _ hs))
      (fun c hc s hs => hcolumn c hc s (List.mem_cons_of_mem _ hs)) _)
    rw [sheetRows, List.forall₂_map_left_iff, List.forall₂_map_right_iff]
    refine List.forall₂_same.mpr fun r hr => ⟨rfl, fun key value h => ?_⟩
    exact get_mergedFields (hsheets _ List.mem_cons_self)
      (fun c hc => hcolumn c hc _ List.mem_cons_self) hr h

theorem lt_rowNumber_mergeRows {offset : Nat} {row : MergedRow V}
    (h : row ∈ mergeRows text column offset sheets) : offset < row.rowNumber := by
  induction sheets generalizing offset with
  | nil => cases h
  | cons s sheets ih =>
    obtain ⟨t, rename⟩ := s
    rw [mergeRows, List.mem_append] at h
    rcases h with h | h
    · obtain ⟨r, hr, rfl⟩ := List.mem_map.mp h
      have hone := t.numbered r hr
      show offset < r.rowNumber + offset
      omega
    · have hlater := ih h
      omega

theorem rowNumber_le_lastRow {t : ParsedSheet V} {r : IntermediateRecord V} (h : r ∈ t.records) :
    r.rowNumber ≤ lastRow t := by
  have hfold : ∀ (l : List Nat) (n : Nat), n ≤ l.foldl max n ∧ ∀ k ∈ l, k ≤ l.foldl max n := by
    intro l
    induction l with
    | nil => exact fun n => ⟨le_refl n, fun k hk => by cases hk⟩
    | cons a l ih =>
      intro n
      obtain ⟨hn, hl⟩ := ih (max n a)
      refine ⟨(le_max_left n a).trans hn, fun k hk => ?_⟩
      rcases List.mem_cons.mp hk with rfl | hk
      · exact (le_max_right n k).trans hn
      · exact hl k hk
  exact (hfold _ 0).2 _ (List.mem_map_of_mem h)

/-- **Row numbers increase** over all sheets, when they do within each. -/
theorem pairwise_mergeRows
    (h : ∀ s ∈ sheets, s.1.records.Pairwise fun a b => a.rowNumber < b.rowNumber) (offset : Nat) :
    (mergeRows text column offset sheets).Pairwise fun a b => a.rowNumber < b.rowNumber := by
  induction sheets generalizing offset with
  | nil => exact List.Pairwise.nil
  | cons s sheets ih =>
    obtain ⟨t, rename⟩ := s
    rw [mergeRows, List.pairwise_append]
    refine ⟨?_, ih (fun s hs => h s (List.mem_cons_of_mem _ hs)) _, fun a ha b hb => ?_⟩
    · rw [sheetRows, List.pairwise_map]
      refine (h _ List.mem_cons_self).imp fun hlt => ?_
      exact Nat.add_lt_add_right hlt offset
    · obtain ⟨r, hr, rfl⟩ := List.mem_map.mp ha
      have hlast := rowNumber_le_lastRow hr
      have hlater := lt_rowNumber_mergeRows hb
      show r.rowNumber + offset < b.rowNumber
      omega

/-- **Merging loses no cell.** -/
structure LosesNoCell (text : String → V) (norm : String → String) (tables : List (ParsedSheet V)) :
    Prop where
  injective : ∀ s ∈ tables.zip (renameSheets norm ⟨[], []⟩ tables).2, Injective s
  column : ∀ c ∈ addedColumn norm tables, c ∉ (renameSheets norm ⟨[], []⟩ tables).1.headers ∧
    ∀ s ∈ tables.zip (renameSheets norm ⟨[], []⟩ tables).2, ∀ h ∈ s.1.headers, renamed s.2 h ≠ c
  fields : List.Forall₂ Keeps (mergeSheets text norm tables).2
    (sources (tables.zip (renameSheets norm ⟨[], []⟩ tables).2))
  increasing : (∀ t ∈ tables, t.records.Pairwise fun a b => a.rowNumber < b.rowNumber) →
    (mergeSheets text norm tables).2.Pairwise fun a b => a.rowNumber < b.rowNumber

theorem column_new : ∀ c ∈ addedColumn norm tables,
    c ∉ (renameSheets norm ⟨[], []⟩ tables).1.headers := by
  intro c hc
  rw [addedColumn] at hc
  split_ifs at hc
  · obtain rfl := Option.some.inj hc
    exact sheetColumnName_not_mem _
  · cases hc

/-- **No cell is lost** iff no header of a sheet comes when its spelling, itself and its name with the
sheet's are all the names of columns before it. -/
theorem merges_iff (text : String → V) (lower : String → String) (tables : List (ParsedSheet V)) :
    LosesNoCell text (normalizeHeader lower) tables ↔ RoomySheets (normalizeHeader lower)
    ⟨[], []⟩ tables := by
  constructor
  · exact fun h => renameSheets_injective_iff.mp h.injective
  · intro h
    have hinjective := renameSheets_injective_iff.mpr h
    have hcolumn : ∀ c ∈ addedColumn (normalizeHeader lower) tables,
        ∀ s ∈ tables.zip (renameSheets (normalizeHeader lower) ⟨[], []⟩ tables).2,
          ∀ h ∈ s.1.headers, renamed s.2 h ≠ c := by
      rintro c hc s hs header hheader rfl
      exact column_new _ hc (renamed_mem_headers hs hheader)
    exact {
      injective := hinjective
      column := fun c hc => ⟨column_new c hc, hcolumn c hc⟩
      fields := forall₂_mergeRows hinjective hcolumn 0
      increasing := fun hrows => pairwise_mergeRows (fun s hs => hrows s.1 (List.of_mem_zip hs).1) 0 }

end

/-! ## A cell that is lost -/

/-- The sheet that spells the column of serial numbers. -/
def serials : ParsedSheet String where
  headers := ["Sl.no"]
  records := []
  warnings := []
  title := ""
  name := "S1"
  distinct := List.nodup_singleton _
  keyed := List.forall_mem_nil _
  numbered := List.forall_mem_nil _

/-- The record of the sheet with three columns that read alike. -/
def alikeRecord : IntermediateRecord String :=
  ⟨"row=2", 2, [("Sl.no (S2)", "1"), ("Sl no", "2"), ("Sl.no", "3")]⟩

theorem nodup_alike : ["Sl.no (S2)", "Sl no", "Sl.no"].Nodup := by decide

theorem keyed_alike : ∀ r ∈ [alikeRecord], (r.fields.map Prod.fst).Nodup ∧
    ∀ k ∈ r.fields.map Prod.fst, k ∈ ["Sl.no (S2)", "Sl no", "Sl.no"] := by
  intro r hr
  rw [List.mem_singleton] at hr
  subst hr
  exact ⟨nodup_alike, fun k hk => hk⟩

theorem numbered_alike : ∀ r ∈ [alikeRecord], 1 ≤ r.rowNumber := by
  intro r hr
  rw [List.mem_singleton] at hr
  subst hr
  exact Nat.le_succ 1

/-- The sheet whose first column has the name that its last one is given. -/
def alike : ParsedSheet String where
  headers := ["Sl.no (S2)", "Sl no", "Sl.no"]
  records := [alikeRecord]
  warnings := []
  title := ""
  name := "S2"
  distinct := nodup_alike
  keyed := keyed_alike
  numbered := numbered_alike

/-- The third cell takes the place of the first. -/
theorem cell_lost : ¬LosesNoCell id (normalizeHeader String.toLower) [serials, alike] := by
  intro h
  have hrename : (renameSheets (normalizeHeader String.toLower) ⟨[], []⟩ [serials, alike]).2 =
      [[("Sl.no", "Sl.no")],
        [("Sl.no (S2)", "Sl.no (S2)"), ("Sl no", "Sl.no"), ("Sl.no", "Sl.no (S2)")]] := by decide +kernel
  have hinjective := h.injective
  rw [hrename] at hinjective
  have hsame := hinjective _ (List.mem_cons_of_mem _ (List.mem_singleton_self _)) "Sl.no (S2)"
    List.mem_cons_self "Sl.no" (List.mem_cons_of_mem _ (List.mem_cons_of_mem _ List.mem_cons_self)) rfl
  exact absurd hsame (by decide)

end GuruJi.Ingestion
