import GuruJi.Ingestion.Grids

/-!
# Tables of a database

The rows of a table of an institution's database become records, under headers that are made of the
names of its columns.

* `readCursor_spec`: the loop reads rows up to the limit, and one at least;
* **`fetchTable_reads_iff`**: a table is read in full, and its end reported right, iff the limit is
  positive and not the number of rows, and each column that has another name than its header has the
  values that the rows hold under that header;
* `cells_lost`: a column with a blank at the end of its name, and a table that fits exactly.
-/

namespace GuruJi.Ingestion

open GuruJi.Lib

/-- What a statement gives: columns of different names, and rows with a value for each of them, which
is `none` for NULL. -/
structure ResultSet (V : Type) where
  columns : List String
  distinct : columns.Nodup
  rows : List (List (Option V))
  widths : ∀ row ∈ rows, row.length = columns.length

/-- A result set as it is read, and whether reading past its rows fails. -/
structure Cursor (V : Type) extends ResultSet V where
  broken : Bool

/-- `ExistingDatabaseConnector`, with what its engine answers to a statement, if it does. -/
structure ExistingDatabaseConnector (V : Type) where
  maxRows : Int := Ingestion.maxRows
  execute : String → Option (Cursor V)

/-- What `fetch_table` raises, with its message. -/
inductive FetchError where
  | valueError (message : String)
  | parserError (message : String)
  deriving DecidableEq

/-- What `fetch_table` returns. -/
structure DatabaseResult (V : Type) where
  fileName : String
  pageCount : Nat
  metadata : Table String String
  tableName : String
  table : ParsedTable (Option V)

/-- `_SAFE_IDENTIFIER`. -/
def safeIdentifier (value : String) : Bool :=
  match value.toList with
  | [] => false
  | c :: rest => (c.isAlpha || c = '_') && rest.length ≤ 62 && rest.all fun d => d.isAlphanum || d = '_'

/-- `validate_identifier`. -/
def validateIdentifier (value : String) : Except FetchError Unit :=
  if safeIdentifier value then .ok () else .error (.valueError "unsafe SQL identifier")

/-- `qualified`. -/
def qualifiedName (table : String) (schema : Option String) : String :=
  match schema.filter (· ≠ "") with
  | some schema => schema ++ "." ++ table
  | none => table

def selectAll (table : String) (schema : Option String) : String :=
  "SELECT * FROM " ++ qualifiedName table schema

/-- `row_limit`. -/
def rowLimit (maxRows : Int) (limit : Option Int) : Int :=
  min ((limit.filter (· ≠ 0)).getD maxRows) maxRows

/-- The loop over a cursor: `rows` have been read, and the others are still to come. -/
def readCursor {R : Type} (rowLimit : Int) (broken : Bool) (rows : List R) : List R → Option (List R)
  | [] => if broken then none else some rows
  | row :: rest =>
    if rowLimit ≤ (rows ++ [row]).length then some (rows ++ [row])
    else readCursor rowLimit broken (rows ++ [row]) rest

section
variable {V : Type}

/-- `dict(row)`. -/
def rowDict (columns : List String) (row : List (Option V)) : Table String (Option V) := columns.zip row

/-- `row.get(key)`. -/
def valueAt (row : Table String (Option V)) (key : String) : Option V := (row.get key).join

def databaseRecord (qualified : String) (headers : List String) (row : Table String (Option V) × Nat) :
    IntermediateRecord (Option V) where
  locator := "table=" ++ qualified ++ ";row=" ++ Nat.repr (row.2 + 1)
  rowNumber := row.2 + 1
  fields := headers.foldl (fun t key => t.assign key (valueAt row.1 key)) []

variable (isSpace : Char → Bool)

/-- `headers`: of the keys of the first row. -/
def databaseHeaders : List (Table String (Option V)) → List String
  | [] => []
  | row :: _ => dedupeHeaders isSpace (row.map fun e => .text e.1)

def databaseTable (qualified : String) (rowLimit : Int) (rows : List (Table String (Option V))) :
    ParsedTable (Option V) where
  headers := databaseHeaders isSpace rows
  records := rows.zipIdx.map (databaseRecord qualified (databaseHeaders isSpace rows))
  warnings := if rowLimit ≤ rows.length then ["row_limit_reached"] else []
  title := ""

/-- `result`. -/
def databaseResult (qualified : String) (rowLimit : Int) (rows : List (Table String (Option V))) :
    DatabaseResult V where
  fileName := "db:" ++ qualified
  pageCount := 1
  metadata := [("source", "database"), ("table", qualified)]
  tableName := qualified
  table := databaseTable isSpace qualified rowLimit rows

/-- `fetch_table`. -/
def ExistingDatabaseConnector.fetchTable (connector : ExistingDatabaseConnector V) (table : String)
    (schema : Option String) (limit : Option Int) : Except FetchError (DatabaseResult V) := do
  validateIdentifier table
  schema.elim (.ok ()) validateIdentifier
  let qualified := qualifiedName table schema
  let rowLimit := rowLimit connector.maxRows limit
  let read := (connector.execute (selectAll table schema)).bind fun cursor =>
    readCursor rowLimit cursor.broken [] (cursor.rows.map (rowDict cursor.columns))
  (read.map (databaseResult isSpace qualified rowLimit)).elim
    (.error (.parserError
      ("table " ++ qualified ++ " could not be read with the read-only credential"))) .ok

/-! ## What a table should hold -/

/-- Each of the first rows has one record, in their order, that holds every value under the header of
its column, and the end of these rows is reported exactly when there are more. -/
structure ReadsTable (resultSet : ResultSet V) (rowLimit : Int) (table : ParsedTable (Option V)) : Prop
    where
  count : table.records.length = (resultSet.rows.take rowLimit.toNat).length
  values : ∀ (i : Nat) row (record : IntermediateRecord (Option V)), (resultSet.rows.take rowLimit.toNat)[i]? = some row →
    table.records[i]? = some record → table.headers.Nodup ∧
      ∀ (j : Nat) value, row[j]? = some value → ∃ header, table.headers[j]? = some header ∧ record.fields.get header = some value
  limit : "row_limit_reached" ∈ table.warnings ↔ rowLimit.toNat < resultSet.rows.length

def columnHeaders (resultSet : ResultSet V) : List String :=
  dedupeHeaders isSpace (resultSet.columns.map .text)

/-- Of the columns whose names are not their headers, the first rows hold the values that they hold
under these headers, and no two columns have one header. -/
def HeadersAgree (resultSet : ResultSet V) (rowLimit : Int) : Prop :=
  (columnHeaders isSpace resultSet).Nodup ∧ ∀ row ∈ resultSet.rows.take rowLimit.toNat,
    ∀ (j : Nat) column header, resultSet.columns[j]? = some column →
      (columnHeaders isSpace resultSet)[j]? = some header → column ≠ header →
        valueAt (rowDict resultSet.columns row) header = valueAt (rowDict resultSet.columns row) column

/-- The limit is positive and not the number of rows, and the headers agree with the columns. -/
def Readable (resultSet : ResultSet V) (rowLimit : Int) : Prop :=
  0 < rowLimit ∧ (resultSet.rows.length : Int) ≠ rowLimit ∧
    (resultSet.rows ≠ [] → HeadersAgree isSpace resultSet rowLimit)

/-! ## The rows that are read -/

omit isSpace in
/-- The loop reads rows up to the limit, and one at least. -/
theorem readCursor_spec {R : Type} (limit : Int) (rows rest : List R) :
    readCursor limit false rows rest = some (rows ++ rest.take (max 1 (limit - rows.length)).toNat) := by
  induction rest generalizing rows with
  | nil => simp [readCursor]
  | cons row rest ih =>
    have hlength : ((rows ++ [row]).length : Int) = rows.length + 1 := by simp
    rw [readCursor, hlength]
    split_ifs with hlast
    · have hone : (max 1 (limit - rows.length)).toNat = 1 := by omega
      rw [hone, List.take_succ_cons, List.take_zero]
    · have hmore : (max 1 (limit - rows.length)).toNat =
          (max 1 (limit - (rows.length + 1))).toNat + 1 := by omega
      rw [ih, hlength, hmore, List.take_succ_cons, List.append_assoc, List.singleton_append]

variable {isSpace} {resultSet : ResultSet V} {qualified : String} {limit : Int}

variable {row : List (Option V)}

omit isSpace in
theorem keys_rowDict {columns : List String}
    (h : row.length = columns.length) : (rowDict columns row).map Prod.fst = columns :=
  List.map_fst_zip (le_of_eq h.symm)

omit isSpace in
theorem valueAt_rowDict (hrow : row ∈ resultSet.rows) {j : Nat} {column : String}
    {value : Option V} (hcolumn : resultSet.columns[j]? = some column) (hvalue : row[j]? = some value) :
    valueAt (rowDict resultSet.columns row) column = value := by
  have hkeys : ((rowDict resultSet.columns row).map Prod.fst).Nodup := by
    rw [keys_rowDict (resultSet.widths row hrow)]
    exact resultSet.distinct
  have hmem : (column, value) ∈ rowDict resultSet.columns row :=
    List.mem_of_getElem? (List.getElem?_zip_eq_some.mpr ⟨hcolumn, hvalue⟩)
  rw [valueAt, Table.get_of_mem hkeys hmem, Option.join_some]

theorem databaseHeaders_read (hrows : resultSet.rows ≠ []) {n : Nat} (hn : 0 < n) :
    databaseHeaders isSpace ((resultSet.rows.map (rowDict resultSet.columns)).take n) =
      columnHeaders isSpace resultSet := by
  obtain ⟨row, rows, hcons⟩ := List.exists_cons_of_ne_nil hrows
  obtain ⟨m, rfl⟩ := Nat.exists_eq_succ_of_ne_zero (Nat.pos_iff_ne_zero.mp hn)
  have hwidth := resultSet.widths row (hcons ▸ List.mem_cons_self)
  have hkeys : (rowDict resultSet.columns row).map (fun e => Cell.text e.1) =
      resultSet.columns.map Cell.text := by
    rw [← congrArg (List.map Cell.text) (keys_rowDict hwidth), List.map_map]
    rfl
  rw [hcons, List.map_cons, List.take_succ_cons, databaseHeaders, hkeys, columnHeaders]

theorem get_databaseRecord {headers : List String} {row : Table String (Option V) × Nat}
    {header : String} (h : header ∈ headers) :
    (databaseRecord qualified headers row).fields.get header = some (valueAt row.1 header) := by
  rw [databaseRecord, Table.get_foldl_assign_keys, if_pos h]

theorem getElem_records {rows : List (Table String (Option V))} {i : Nat} :
    (databaseTable isSpace qualified limit rows).records[i]? =
      rows[i]?.map fun row => databaseRecord qualified (databaseHeaders isSpace rows) (row, i) := by
  rw [databaseTable, List.getElem?_map, List.getElem?_zipIdx, Option.map_map]
  simp [Function.comp_def]

theorem mem_warnings {rows : List (Table String (Option V))} :
    "row_limit_reached" ∈ (databaseTable isSpace qualified limit rows).warnings ↔
      limit ≤ rows.length := by
  rw [databaseTable]
  split_ifs with h <;> simp [h]

def fetchedRows (resultSet : ResultSet V) (limit : Int) : List (Table String (Option V)) :=
  (resultSet.rows.map (rowDict resultSet.columns)).take (max 1 limit).toNat

omit isSpace in
theorem length_fetchedRows : (fetchedRows resultSet limit).length =
    min (max 1 limit).toNat resultSet.rows.length := by
  rw [fetchedRows, List.length_take, List.length_map]

omit isSpace in
theorem getElem_fetchedRows (hlimit : 0 < limit) {i : Nat} : (fetchedRows resultSet limit)[i]? =
    ((resultSet.rows.take limit.toNat)[i]?).map (rowDict resultSet.columns) := by
  have hmax : max 1 limit = limit := by omega
  rw [fetchedRows, hmax, ← List.map_take, List.getElem?_map]

theorem headers_fetchedRows (hrows : resultSet.rows ≠ []) :
    databaseHeaders isSpace (fetchedRows resultSet limit) = columnHeaders isSpace resultSet :=
  databaseHeaders_read hrows (by omega)

theorem record_of_row (hlimit : 0 < limit) {i : Nat}
    (hrow : (resultSet.rows.take limit.toNat)[i]? = some row) :
    (databaseTable isSpace qualified limit (fetchedRows resultSet limit)).records[i]? =
      some (databaseRecord qualified (columnHeaders isSpace resultSet)
        (rowDict resultSet.columns row, i)) := by
  have hmem : row ∈ resultSet.rows := List.mem_of_mem_take (List.mem_of_getElem? hrow)
  rw [getElem_records, getElem_fetchedRows hlimit, hrow, headers_fetchedRows (List.ne_nil_of_mem hmem)]
  rfl

/-- The values that a row holds under the headers of its columns are theirs. -/
def HoldsValues (isSpace : Char → Bool) (resultSet : ResultSet V) (row : List (Option V)) : Prop :=
  ∀ (j : Nat) value, row[j]? = some value → ∃ header,
    (columnHeaders isSpace resultSet)[j]? = some header ∧
      valueAt (rowDict resultSet.columns row) header = value

/-- They are iff those under the headers that are not the names of their columns are. -/
theorem holdsValues_iff (hrow : row ∈ resultSet.rows) :
    HoldsValues isSpace resultSet row ↔ ∀ (j : Nat) column header,
      resultSet.columns[j]? = some column → (columnHeaders isSpace resultSet)[j]? = some header →
        column ≠ header → valueAt (rowDict resultSet.columns row) header =
          valueAt (rowDict resultSet.columns row) column := by
  have hwidth := resultSet.widths row hrow
  constructor
  · intro h j column header hcolumn hheader _
    have hj : j < row.length := hwidth ▸ (List.getElem?_eq_some_iff.mp hcolumn).1
    obtain ⟨header', hheader', hvalue⟩ := h j _ (List.getElem?_eq_getElem hj)
    obtain rfl : header = header' := Option.some.inj (hheader.symm.trans hheader')
    rw [hvalue, valueAt_rowDict hrow hcolumn (List.getElem?_eq_getElem hj)]
  · intro h j value hvalue
    have hj : j < resultSet.columns.length := hwidth ▸ (List.getElem?_eq_some_iff.mp hvalue).1
    have hj' : j < (columnHeaders isSpace resultSet).length := by
      rwa [columnHeaders, length_dedupeHeaders, List.length_map]
    have hcolumn := List.getElem?_eq_getElem hj
    have hheader := List.getElem?_eq_getElem hj'
    refine ⟨_, hheader, ?_⟩
    by_cases hsame : resultSet.columns[j] = (columnHeaders isSpace resultSet)[j]
    · rw [← hsame, valueAt_rowDict hrow hcolumn hvalue]
    · rw [h j _ _ hcolumn hheader hsame, valueAt_rowDict hrow hcolumn hvalue]

/-- The records hold the values of their rows iff the headers agree with the columns. -/
theorem values_iff (hlimit : 0 < limit) (hrows : resultSet.rows ≠ []) :
    (∀ (i : Nat) row (record : IntermediateRecord (Option V)),
      (resultSet.rows.take limit.toNat)[i]? = some row →
        (databaseTable isSpace qualified limit (fetchedRows resultSet limit)).records[i]? = some record →
          (columnHeaders isSpace resultSet).Nodup ∧ ∀ (j : Nat) value, row[j]? = some value →
            ∃ header, (columnHeaders isSpace resultSet)[j]? = some header ∧
              record.fields.get header = some value) ↔
      HeadersAgree isSpace resultSet limit := by
  have hfields : ∀ row i, (∀ (j : Nat) value, row[j]? = some value →
      ∃ header, (columnHeaders isSpace resultSet)[j]? = some header ∧
        (databaseRecord qualified (columnHeaders isSpace resultSet)
          (rowDict resultSet.columns row, i)).fields.get header = some value) ↔
        HoldsValues isSpace resultSet row := by
    refine fun row i => forall₃_congr fun j value _ => exists_congr fun header => ?_
    refine and_congr_right fun hheader => ?_
    rw [get_databaseRecord (List.mem_of_getElem? hheader), Option.some.injEq]
  constructor
  · intro h
    refine ⟨?_, fun row hrow => ?_⟩
    · obtain ⟨first, rest, hcons⟩ := List.exists_cons_of_ne_nil hrows
      obtain ⟨n, hn⟩ : ∃ n, limit.toNat = n + 1 := ⟨limit.toNat - 1, by omega⟩
      have hfirst : (resultSet.rows.take limit.toNat)[0]? = some first := by
        rw [hcons, hn]
        rfl
      exact (h 0 first _ hfirst (record_of_row hlimit hfirst)).1
    · obtain ⟨i, hi⟩ := List.mem_iff_getElem?.mp hrow
      have hheld := (hfields row i).mp (h i row _ hi (record_of_row hlimit hi)).2
      exact (holdsValues_iff (List.mem_of_mem_take hrow)).mp hheld
  · rintro ⟨hnodup, hagree⟩ i row record hrow hrecord
    have hin := List.mem_of_getElem? hrow
    obtain rfl := Option.some.inj ((record_of_row hlimit hrow).symm.trans hrecord)
    have hheld := (holdsValues_iff (List.mem_of_mem_take hin)).mpr (hagree row hin)
    exact ⟨hnodup, (hfields row i).mpr hheld⟩

/-- A table holds its rows, and reports their end, iff the limit is positive and not the number of
rows, and the headers agree with the columns. -/
theorem readsTable_iff : ReadsTable resultSet limit
    (databaseTable isSpace qualified limit (fetchedRows resultSet limit)) ↔
      Readable isSpace resultSet limit := by
  have hlength : (databaseTable isSpace qualified limit (fetchedRows resultSet limit)).records.length =
      min (max 1 limit).toNat resultSet.rows.length := by
    rw [databaseTable, List.length_map, List.length_zipIdx, length_fetchedRows]
  have hwarned := @mem_warnings V isSpace qualified limit (fetchedRows resultSet limit)
  rw [length_fetchedRows] at hwarned
  constructor
  · intro h
    have hcount := hlength.symm.trans h.count
    rw [List.length_take] at hcount
    have hend := hwarned.symm.trans h.limit
    have hpos : 0 < limit := by omega
    refine ⟨hpos, by omega, fun hrows => ?_⟩
    have hheaders : (databaseTable isSpace qualified limit (fetchedRows resultSet limit)).headers =
      columnHeaders isSpace resultSet := headers_fetchedRows hrows
    have hvalues := h.values
    rw [hheaders] at hvalues
    exact (values_iff hpos hrows).mp hvalues
  · rintro ⟨hpos, hfull, hagree⟩
    refine ⟨?_, fun i row record hrow hrecord => ?_, hwarned.trans (by omega)⟩
    · rw [hlength, List.length_take]
      omega
    · have hrows : resultSet.rows ≠ [] :=
        List.ne_nil_of_mem (List.mem_of_mem_take (List.mem_of_getElem? hrow))
      have hheaders : (databaseTable isSpace qualified limit (fetchedRows resultSet limit)).headers =
        columnHeaders isSpace resultSet := headers_fetchedRows hrows
      rw [hheaders]
      exact (values_iff hpos hrows).mpr (hagree hrows) i row record hrow hrecord

/-- The connector may read the table, and the statement gives the result set. -/
def Gives (connector : ExistingDatabaseConnector V) (table : String) (schema : Option String)
    (resultSet : ResultSet V) : Prop :=
  safeIdentifier table = true ∧ (∀ name ∈ schema, safeIdentifier name = true) ∧
    connector.execute (selectAll table schema) = some ⟨resultSet, false⟩

theorem fetchTable_eq {connector : ExistingDatabaseConnector V} {table : String}
    {schema : Option String} (h : Gives connector table schema resultSet) (limit : Option Int) :
    connector.fetchTable isSpace table schema limit = .ok
      (databaseResult isSpace (qualifiedName table schema) (rowLimit connector.maxRows limit)
        (fetchedRows resultSet (rowLimit connector.maxRows limit))) := by
  obtain ⟨htable, hschema, hexecute⟩ := h
  have hvalid : schema.elim (.ok ()) validateIdentifier = (.ok () : Except FetchError Unit) := by
    cases schema with
    | none => rfl
    | some name => exact if_pos (hschema name rfl)
  have hread : readCursor (rowLimit connector.maxRows limit) false []
      (resultSet.rows.map (rowDict resultSet.columns)) =
        some (fetchedRows resultSet (rowLimit connector.maxRows limit)) := by
    rw [readCursor_spec, List.length_nil]
    simp [fetchedRows]
  have htable' : validateIdentifier table = .ok () := if_pos htable
  show (validateIdentifier table).bind (fun _ => _) = _
  rw [htable']
  show (schema.elim (.ok ()) validateIdentifier).bind (fun _ => _) = _
  rw [hvalid]
  show Option.elim (Option.map _ ((connector.execute _).bind _)) _ _ = _
  rw [hexecute, Option.bind_some, hread]
  rfl

/-- **A table is read in full**, with the end of its rows reported right, iff the limit is positive and
not the number of rows, and the headers agree with the columns. -/
theorem fetchTable_reads_iff {connector : ExistingDatabaseConnector V} {table : String}
    {schema : Option String} (h : Gives connector table schema resultSet) (limit : Option Int) :
    (∃ result, connector.fetchTable isSpace table schema limit = .ok result ∧
      ReadsTable resultSet (rowLimit connector.maxRows limit) result.table) ↔
        Readable isSpace resultSet (rowLimit connector.maxRows limit) := by
  rw [fetchTable_eq h, ← @readsTable_iff V isSpace resultSet (qualifiedName table schema)]
  constructor
  · rintro ⟨result, hresult, hreads⟩
    obtain rfl := Except.ok.inj hresult
    exact hreads
  · exact fun hreads => ⟨_, rfl, hreads⟩

end

/-! ## What is lost -/

/-- A student's marks, under the name of a column. -/
def markResult (column : String) (h : ["usn", column].Nodup) : ResultSet String where
  columns := ["usn", column]
  distinct := h
  rows := [[some "1AB21CS001", some "87"]]
  widths row hrow := by
    rw [List.mem_singleton.mp hrow]
    rfl

def markDatabase (resultSet : ResultSet String) : ExistingDatabaseConnector String where
  execute statement := if statement = "SELECT * FROM results" then some ⟨resultSet, false⟩ else none

theorem markDatabase_gives (resultSet : ResultSet String) :
    Gives (markDatabase resultSet) "results" none resultSet := by
  refine ⟨by decide, ?_, rfl⟩
  simp

theorem padded_nodup : ["usn", "Marks "].Nodup := by decide

theorem plain_nodup : ["usn", "marks"].Nodup := by decide

/-- A table whose columns are named as their headers is read in full, with room for its one row. -/
theorem fetchTable_reads_iff_marks :
    (∃ result, (markDatabase (markResult "marks" plain_nodup)).fetchTable (· = ' ') "results" none none =
      .ok result ∧ ReadsTable (markResult "marks" plain_nodup) (rowLimit 100000 none) result.table) ↔
        Readable (· = ' ') (markResult "marks" plain_nodup) (rowLimit 100000 none) :=
  fetchTable_reads_iff (markDatabase_gives (markResult "marks" plain_nodup)) none

/-- The marks of a column with a blank at the end of its name are looked up without it, and a table
with one row is reported as cut at one. -/
theorem cells_lost :
    (¬∃ result, (markDatabase (markResult "Marks " padded_nodup)).fetchTable (· = ' ') "results" none
        none = .ok result ∧
      ReadsTable (markResult "Marks " padded_nodup) (rowLimit 100000 none) result.table) ∧
    ¬∃ result, (markDatabase (markResult "marks" plain_nodup)).fetchTable (· = ' ') "results" none
        (some 1) = .ok result ∧
      ReadsTable (markResult "marks" plain_nodup) (rowLimit 100000 (some 1)) result.table := by
  refine ⟨?_, ?_⟩
  · rintro ⟨result, hresult, hreads⟩
    obtain rfl := Except.ok.inj ((fetchTable_eq (markDatabase_gives _) none).symm.trans hresult)
    obtain ⟨-, -, hagree⟩ := readsTable_iff.mp hreads
    have hheaders : columnHeaders (· = ' ') (markResult "Marks " padded_nodup) = ["usn", "Marks"] := by
      decide
    have hsame := (hagree (List.cons_ne_nil _ _)).2 [some "1AB21CS001", some "87"]
      (by decide) 1 "Marks " "Marks" rfl (by rw [hheaders]; rfl) (by decide)
    exact absurd hsame (by decide)
  · rintro ⟨result, hresult, hreads⟩
    obtain rfl := Except.ok.inj ((fetchTable_eq (markDatabase_gives _) (some 1)).symm.trans hresult)
    obtain ⟨-, hfull, -⟩ := readsTable_iff.mp hreads
    exact hfull rfl

end GuruJi.Ingestion
