import GuruJi.Lib.Chains
import GuruJi.Lib.Rows
import GuruJi.Lib.Text
import Mathlib.Algebra.Order.Field.Rat

/-!
# Monitored documents

`upsert_document`: one row for each canonical URL of an institution, which keeps a full-page copy and its
verdict when only a search snippet is seen again, and which is reported as new when it is kept for the
first time.

* `observe`: what a call makes of the row of its URL, and `find_upsert`: the database does just that;
* `Reported`: the row remembers whether it was ever kept (`reported_observe`);
* **`evidence_kept`**: of every sequence of calls, what is new, what is changed and what stays;
* `first_kept_copy`: a row that is kept for the first time with a new text is new, not changed.
-/

namespace GuruJi.Monitoring

open GuruJi.Lib

inductive Status where
  | kept | review | excluded
  deriving DecidableEq

inductive Outcome where
  | new | changed | duplicate
  deriving DecidableEq

/-- What `collect` hands over. -/
structure Item where
  canonicalUrl : String
  url : String
  domain : String
  sourceType : String
  title : String
  excerpt : String
  contentSha256 : String
  publishedAt : Option String
  dateStatus : Option String
  retrievedAt : Option String
  matchLevel : String
  matchScore : ℚ
  matchReasons : List String
  relevanceScore : ℚ
  topics : List String
  status : Status
  extracted : Bool
  warnings : List String
  statusReason : Option String
  provider : Option String
  queries : List String
  requestedUrl : Option String
  runId : Option String
  deriving DecidableEq

/-- A row of `internet_documents`. -/
structure DocumentRow where
  documentId : String
  institutionId : String
  canonicalUrl : String
  url : String
  domain : String
  sourceType : String
  title : String
  excerpt : String
  contentSha256 : String
  publishedAt : Option String
  dateStatus : String
  firstSeenAt : String
  lastSeenAt : String
  retrievedAt : String
  matchLevel : String
  matchScore : ℚ
  matchReasons : List String
  relevanceScore : ℚ
  topics : List String
  status : Status
  extracted : Bool
  warnings : List String
  statusReason : Option String
  provider : Option String
  queries : List String
  requestedUrl : Option String
  lastRunId : Option String
  firstKeptAt : Option String
  deriving DecidableEq

/-- `now_iso()`, which is not empty. -/
structure Stamp where
  text : String
  written : text ≠ ""
  deriving DecidableEq

/-- A call of `upsert_document`, with the time and the id it would give a new row. -/
structure Upsert where
  institutionId : String
  item : Item
  stamp : Stamp
  documentId : String
  deriving DecidableEq

/-- What is said of a page, and what was made of it. -/
structure Copy where
  title : String
  excerpt : String
  contentSha256 : String
  extracted : Bool
  status : Status
  statusReason : Option String
  matchLevel : String
  matchScore : ℚ
  matchReasons : List String
  deriving DecidableEq

def DocumentRow.copy (row : DocumentRow) : Copy :=
  ⟨row.title, row.excerpt, row.contentSha256, row.extracted, row.status, row.statusReason,
    row.matchLevel, row.matchScore, row.matchReasons⟩

def Item.copy (item : Item) : Copy :=
  ⟨upTo 300 item.title, upTo 2000 item.excerpt, item.contentSha256, item.extracted, item.status,
    item.statusReason, item.matchLevel, item.matchScore, item.matchReasons⟩

/-- `list(dict.fromkeys(...))`. -/
def distinct (l : List String) : List String := firsts some l

def Upsert.insertion (call : Upsert) : DocumentRow where
  documentId := call.documentId
  institutionId := call.institutionId
  canonicalUrl := call.item.canonicalUrl
  url := call.item.url
  domain := call.item.domain
  sourceType := call.item.sourceType
  title := upTo 300 call.item.title
  excerpt := upTo 2000 call.item.excerpt
  contentSha256 := call.item.contentSha256
  publishedAt := call.item.publishedAt
  dateStatus := call.item.dateStatus.getD "unknown"
  firstSeenAt := call.stamp.text
  lastSeenAt := call.stamp.text
  retrievedAt := call.item.retrievedAt.getD call.stamp.text
  matchLevel := call.item.matchLevel
  matchScore := call.item.matchScore
  matchReasons := call.item.matchReasons
  relevanceScore := call.item.relevanceScore
  topics := call.item.topics
  status := call.item.status
  extracted := call.item.extracted
  warnings := call.item.warnings
  statusReason := call.item.statusReason
  provider := call.item.provider
  queries := distinct call.item.queries
  requestedUrl := call.item.requestedUrl
  lastRunId := call.item.runId
  firstKeptAt := if call.item.status = .kept then some call.stamp.text else none

/-- The richer of two copies: where the fetch failed this time, the full-page copy and the verdict made
from it stay. -/
def richer (existing : DocumentRow) (item : Item) : Copy :=
  if existing.extracted && !item.extracted then { existing.copy with extracted := true } else item.copy

def settled (existing : DocumentRow) (item : Item) : Copy :=
  let copy := richer existing item
  if existing.status = .kept ∧ copy.status = .excluded ∧ copy.statusReason =
    some "outside_time_window" then
    { copy with status := existing.status, statusReason := existing.statusReason }
  else copy

def outcome (existing : DocumentRow) (item : Item) : Outcome :=
  let status := (settled existing item).status
  let changed := existing.extracted = item.extracted ∧ existing.contentSha256 ≠ item.contentSha256
  if status = .kept ∧ existing.status ≠ .kept ∧ existing.firstKeptAt.getD "" = "" then .new
  else if changed then .changed
  else .duplicate

/-- `UPDATE internet_documents SET ...`. -/
def Upsert.refresh (call : Upsert) (existing row : DocumentRow) : DocumentRow :=
  let copy := settled existing call.item
  { row with
    url := call.item.url
    title := copy.title
    excerpt := copy.excerpt
    contentSha256 := copy.contentSha256
    publishedAt := call.item.publishedAt.or row.publishedAt
    dateStatus := call.item.dateStatus.getD "unknown"
    lastSeenAt := call.stamp.text
    retrievedAt := call.item.retrievedAt.getD call.stamp.text
    matchLevel := copy.matchLevel
    matchScore := copy.matchScore
    matchReasons := copy.matchReasons
    relevanceScore := call.item.relevanceScore
    topics := call.item.topics
    status := copy.status
    extracted := copy.extracted
    warnings := call.item.warnings
    statusReason := copy.statusReason
    provider := call.item.provider.or row.provider
    queries := distinct call.item.queries
    requestedUrl := call.item.requestedUrl.or row.requestedUrl
    lastRunId := call.item.runId.or row.lastRunId
    firstKeptAt := row.firstKeptAt.or (if copy.status = .kept then some call.stamp.text else none) }

def DocumentRow.key (row : DocumentRow) : String × String := (row.institutionId, row.canonicalUrl)

/-- `internet_documents`, with its keys. -/
structure InternetDocuments where
  rows : List DocumentRow
  ids : (rows.map (·.documentId)).Nodup
  urls : (rows.map DocumentRow.key).Nodup

def Upsert.key (call : Upsert) : String × String := (call.institutionId, call.item.canonicalUrl)

namespace InternetDocuments

def empty : InternetDocuments := ⟨[], List.nodup_nil, List.nodup_nil⟩

/-- `SELECT ... WHERE institution_id = ? AND canonical_url = ?`. -/
def find (db : InternetDocuments) (key : String × String) : Option DocumentRow :=
  db.rows.find? fun row => row.key = key

/-- `upsert_document`; an id that is taken violates the primary key. -/
def upsertDocument (db : InternetDocuments) (call : Upsert) :
    Except String ((String × Outcome) × InternetDocuments) :=
  match h : db.find call.key with
  | none =>
    if hid : call.documentId ∈ db.rows.map (·.documentId) then .error "IntegrityError"
    else .ok ((call.documentId, .new),
      { rows := db.rows ++ [call.insertion]
        ids := by
          rw [List.map_append, List.nodup_append_comm]
          exact List.nodup_cons.mpr ⟨hid, db.ids⟩
        urls := by
          rw [List.map_append, List.nodup_append_comm]
          refine List.nodup_cons.mpr ⟨fun hmem => ?_, db.urls⟩
          obtain ⟨row, hrow, hkey⟩ := List.mem_map.mp hmem
          exact ne_key_of_find? h row hrow hkey })
  | some existing =>
    .ok ((existing.documentId, outcome existing call.item),
      { rows := updateIf (fun row => row.institutionId = call.institutionId ∧ row.documentId = existing.documentId)
          (call.refresh existing) db.rows
        ids := by
          rw [map_updateIf]
          · exact db.ids
          · exact fun _ => rfl
        urls := by
          rw [map_updateIf]
          · exact db.urls
          · exact fun _ => rfl })

end InternetDocuments

/-! ## One URL -/

def observe (before : Option DocumentRow) (call : Upsert) : Outcome × DocumentRow :=
  match before with
  | none => (.new, call.insertion)
  | some existing => (outcome existing call.item, call.refresh existing existing)

/-- A call as the database answers it, with the row of its URL before and after. -/
structure Observation where
  item : Item
  before : Option DocumentRow
  outcome : Outcome
  after : Option DocumentRow
  deriving DecidableEq

def Observation.keeps (o : Observation) : Bool := o.after.any (·.status = .kept)

/-- The calls for one URL, in a sequence of calls for any. -/
def history (key : String × String) : InternetDocuments → List Upsert → List Observation
  | _, [] => []
  | db, call :: calls =>
    match db.upsertDocument call with
    | .error _ => history key db calls
    | .ok (out, db') =>
      (if call.key = key then [⟨call.item, db.find key, out.2, db'.find key⟩] else []) ++
        history key db' calls

theorem key_refresh (call : Upsert) (existing row : DocumentRow) :
    (call.refresh existing row).key = row.key := rfl

theorem find_upsert {db db' : InternetDocuments} {call : Upsert} {out : String × Outcome}
    (h : db.upsertDocument call = .ok (out, db')) :
    out.2 = (observe (db.find call.key) call).1 ∧
      db'.find call.key = some (observe (db.find call.key) call).2 ∧
      ∀ key, key ≠ call.key → db'.find key = db.find key := by
  unfold InternetDocuments.upsertDocument at h
  split at h
  · rename_i hnone
    split_ifs at h with hid
    obtain ⟨rfl, rfl⟩ := Prod.mk.inj (Except.ok.inj h)
    have hobserve : observe (db.find call.key) call = (.new, call.insertion) := by rw [hnone]; rfl
    rw [hobserve]
    refine ⟨rfl, ?_, fun key hne => ?_⟩
    · show List.find? _ (db.rows ++ [call.insertion]) = _
      rw [List.find?_append, show db.rows.find? _ = none from hnone, Option.none_or,
        List.find?_singleton, if_pos (decide_eq_true (show call.insertion.key = call.key from rfl))]
    · show List.find? _ (db.rows ++ [call.insertion]) = _
      rw [List.find?_append, List.find?_singleton,
        if_neg fun heq => hne (of_decide_eq_true heq).symm, Option.or_none]
      rfl
  · rename_i existing hsome
    obtain ⟨rfl, rfl⟩ := Prod.mk.inj (Except.ok.inj h)
    have hmem : existing ∈ db.rows := List.mem_of_find?_eq_some hsome
    have hkey : existing.key = call.key := by simpa using List.find?_some hsome
    rw [hsome]
    refine ⟨rfl, ?_, fun key hne => ?_⟩
    · refine (find?_updateIf (key_refresh call existing)).trans ?_
      rw [show db.rows.find? _ = some existing from hsome, Option.map_some]
      refine congrArg some (if_pos (decide_eq_true ⟨?_, rfl⟩))
      exact congrArg Prod.fst hkey
    · refine (find?_updateIf (key_refresh call existing)).trans ?_
      show (db.find key).map _ = db.find key
      rcases hfound : db.find key with _ | row
      · rfl
      have hrow : row ∈ db.rows := List.mem_of_find?_eq_some hfound
      have hrowKey : row.key = key := by simpa using List.find?_some hfound
      have hother : row.documentId ≠ existing.documentId := fun heq => by
        rw [List.inj_on_of_nodup_map db.ids hrow hmem heq] at hrowKey
        exact hne (hrowKey.symm.trans hkey)
      rw [Option.map_some, if_neg fun hhit => hother (of_decide_eq_true hhit).2]

/-- The observations of one URL, from the row that is there. -/
def observations : Option DocumentRow → List Upsert → List Observation
  | _, [] => []
  | before, call :: calls =>
    let out := observe before call
    ⟨call.item, before, out.1, some out.2⟩ :: observations (some out.2) calls

theorem history_eq (key : String × String) (db : InternetDocuments) (calls : List Upsert) :
    ∃ own : List Upsert, history key db calls = observations (db.find key) own := by
  induction calls generalizing db with
  | nil => exact ⟨[], rfl⟩
  | cons call calls ih =>
    rw [history]
    rcases hupsert : db.upsertDocument call with error | ⟨out, db'⟩
    · exact ih db
    obtain ⟨hout, hown, hothers⟩ := find_upsert hupsert
    obtain ⟨own, hrest⟩ := ih db'
    by_cases hkey : call.key = key
    · subst hkey
      refine ⟨call :: own, ?_⟩
      simp only [if_true, hrest, hout, hown]
      rfl
    · refine ⟨own, ?_⟩
      simp only [if_neg hkey, hrest, hothers key (Ne.symm hkey)]
      rfl

/-! ## What a row remembers -/

def Reported (ever : Bool) : Option DocumentRow → Prop
  | none => ever = false
  | some row => if ever then ∃ time, row.firstKeptAt = some time ∧ time ≠ ""
    else row.firstKeptAt = none ∧ row.status ≠ .kept

section
variable {ever : Bool} {before : Option DocumentRow} {call : Upsert}

def keptNow (before : Option DocumentRow) (call : Upsert) : Bool :=
  (observe before call).2.status = .kept

theorem reported_observe (h : Reported ever before) (call : Upsert) :
    Reported (ever || keptNow before call) (some (observe before call).2) := by
  rcases before with _ | existing
  · obtain rfl : ever = false := h
    by_cases hkept : call.item.status = .kept
    · have hnow : keptNow none call = true := decide_eq_true hkept
      rw [hnow]
      exact ⟨call.stamp.text, if_pos hkept, call.stamp.written⟩
    · have hnow : keptNow none call = false := decide_eq_false hkept
      rw [hnow]
      exact ⟨if_neg hkept, hkept⟩
  · cases ever with
    | true =>
      obtain ⟨time, htime, hwritten⟩ := h
      refine ⟨time, ?_, hwritten⟩
      show existing.firstKeptAt.or _ = some time
      rw [htime, Option.some_or]
    | false =>
      obtain ⟨hnever, hnot⟩ := h
      by_cases hkept : (settled existing call.item).status = .kept
      · have hnow : keptNow (some existing) call = true := decide_eq_true hkept
        rw [hnow]
        refine ⟨call.stamp.text, ?_, call.stamp.written⟩
        show existing.firstKeptAt.or (if (settled existing call.item).status = .kept then _ else _) = _
        rw [hnever, Option.none_or, if_pos hkept]
      · have hnow : keptNow (some existing) call = false := decide_eq_false hkept
        rw [hnow]
        refine ⟨?_, hkept⟩
        show existing.firstKeptAt.or (if (settled existing call.item).status = .kept then _ else _) = _
        rw [hnever, Option.none_or, if_neg hkept]

variable {existing : DocumentRow} {item : Item}

theorem outcome_cases (h : Reported ever (some existing)) (item : Item) : outcome existing item =
      if (settled existing item).status = .kept ∧ ever = false then .new
      else if existing.extracted = item.extracted ∧ existing.contentSha256 ≠ item.contentSha256 then
        .changed
      else .duplicate := by
  have hfirst : ((settled existing item).status = .kept ∧ existing.status ≠ .kept ∧
      existing.firstKeptAt.getD "" = "") ↔ (settled existing item).status = .kept ∧ ever = false := by
    refine and_congr_right fun _ => ?_
    cases ever with
    | true =>
      obtain ⟨time, htime, hwritten⟩ := h
      simp [htime, hwritten]
    | false =>
      obtain ⟨hnever, hnot⟩ := h
      simp [hnever, hnot]
  unfold outcome
  simp only [hfirst]

/-- A copy of the same kind with another text takes the place of the stored one. -/
def Replaces (before after : DocumentRow) : Prop :=
  before.extracted = after.extracted ∧ before.contentSha256 ≠ after.contentSha256

theorem settled_text (existing : DocumentRow) (item : Item) :
    (settled existing item).extracted = (richer existing item).extracted ∧
      (settled existing item).contentSha256 = (richer existing item).contentSha256 := by
  rw [settled]
  split_ifs
  · exact ⟨rfl, rfl⟩
  · exact ⟨rfl, rfl⟩

theorem richer_snippet (hfull : existing.extracted = true)
    (hsnippet : item.extracted = false) : richer existing item = existing.copy := by
  rw [richer, hfull, hsnippet]
  show { existing.copy with extracted := true } = existing.copy
  rw [DocumentRow.copy, hfull]

theorem richer_other
    (h : ¬(existing.extracted = true ∧ item.extracted = false)) : richer existing item = item.copy := by
  rw [richer, if_neg]
  rw [Bool.and_eq_true, Bool.not_eq_true']
  exact h

theorem replaces_iff (existing : DocumentRow) (call : Upsert) :
    Replaces existing (call.refresh existing existing) ↔
      existing.extracted = call.item.extracted ∧ existing.contentSha256 ≠ call.item.contentSha256 := by
  obtain ⟨hextracted, hdigest⟩ := settled_text existing call.item
  show existing.extracted = (settled existing call.item).extracted ∧
    existing.contentSha256 ≠ (settled existing call.item).contentSha256 ↔ _
  rw [hextracted, hdigest]
  by_cases hrich : existing.extracted = true ∧ call.item.extracted = false
  · rw [richer_snippet hrich.1 hrich.2, hrich.1, hrich.2]
    exact iff_of_false (fun h => h.2 rfl) fun h => Bool.noConfusion h.1
  · rw [richer_other hrich]
    rfl

theorem settled_snippet (hfull : existing.extracted = true)
    (hsnippet : item.extracted = false) : settled existing item = existing.copy := by
  rw [settled, richer_snippet hfull hsnippet]
  split_ifs
  · rfl
  · rfl

theorem settled_window (hkept : existing.status = .kept)
    (hstatus : item.status = .excluded) (hreason : item.statusReason = some "outside_time_window") :
    (settled existing item).status = .kept := by
  by_cases hrich : existing.extracted = true ∧ item.extracted = false
  · rw [settled_snippet hrich.1 hrich.2]
    exact hkept
  · rw [settled, richer_other hrich, if_pos ⟨hkept, hstatus, hreason⟩]
    exact hkept

/-! ## Every sequence of calls -/

/-- What holds of one call, when it is known whether the row was ever kept. -/
structure Lawful (ever : Bool) (o : Observation) : Prop where
  new : o.outcome = .new ↔ o.before = none ∨ o.keeps = true ∧ ever = false
  changed : o.outcome = .changed ↔
    (∃ row row', o.before = some row ∧ o.after = some row' ∧ Replaces row row') ∧
      ¬(o.keeps = true ∧ ever = false)
  fullCopy : ∀ row row', o.before = some row → o.after = some row' → row.extracted = true →
    o.item.extracted = false → row'.copy = row.copy
  window : ∀ row, o.before = some row → row.status = .kept → o.item.status = .excluded →
    o.item.statusReason = some "outside_time_window" → o.keeps = true

def observed (before : Option DocumentRow) (call : Upsert) : Observation :=
  ⟨call.item, before, (observe before call).1, some (observe before call).2⟩

theorem lawful_observed (h : Reported ever before) (call : Upsert) :
    Lawful ever (observed before call) := by
  rcases before with _ | existing
  · refine ⟨iff_of_true rfl (.inl rfl), iff_of_false (fun h => by cases h) ?_, ?_, ?_⟩
    · rintro ⟨⟨row, row', hrow, -⟩, -⟩
      cases hrow
    · intro row row' hrow
      cases hrow
    · intro row hrow
      cases hrow
  have hkeeps : (observed (some existing) call).keeps =
    decide ((settled existing call.item).status = .kept) := rfl
  have hout : (observed (some existing) call).outcome = outcome existing call.item := rfl
  have hfirst : ((settled existing call.item).status = .kept ∧ ever = false) ↔
      (observed (some existing) call).keeps = true ∧ ever = false := by
    rw [hkeeps, decide_eq_true_eq]
  have hreplaced : (∃ row row', (observed (some existing) call).before = some row ∧
      (observed (some existing) call).after = some row' ∧ Replaces row row') ↔
        existing.extracted = call.item.extracted ∧ existing.contentSha256 ≠ call.item.contentSha256 := by
    rw [← replaces_iff]
    constructor
    · rintro ⟨row, row', hrow, hrow', hreplaces⟩
      cases hrow
      cases hrow'
      exact hreplaces
    · exact fun hreplaces => ⟨_, _, rfl, rfl, hreplaces⟩
  have hthere : ¬(observed (some existing) call).before = none := fun h => by cases h
  rw [outcome_cases h] at hout
  refine ⟨?_, ?_, ?_, ?_⟩
  · rw [hout, ← hfirst]
    split_ifs with hnew hchanged
    · exact iff_of_true rfl (.inr hnew)
    · exact iff_of_false (fun h => by cases h) fun h => h.elim hthere hnew
    · exact iff_of_false (fun h => by cases h) fun h => h.elim hthere hnew
  · rw [hout, hreplaced, ← hfirst]
    split_ifs with hnew hchanged
    · exact iff_of_false (fun h => by cases h) fun h => h.2 hnew
    · exact iff_of_true rfl ⟨hchanged, hnew⟩
    · exact iff_of_false (fun h => by cases h) fun h => hchanged h.1
  · intro row row' hrow hrow' hfull hsnippet
    cases hrow
    cases hrow'
    exact settled_snippet hfull hsnippet
  · intro row hrow hkept hstatus hreason
    cases hrow
    rw [hkeeps]
    exact decide_eq_true (settled_window hkept hstatus hreason)

theorem lawful_observations (h : Reported ever before) {calls : List Upsert}
    {earlier later : List Observation}
    {o : Observation} (hsplit : observations before calls = earlier ++ o :: later) :
    Lawful (ever || earlier.any (·.keeps)) o := by
  induction calls generalizing before ever earlier with
  | nil => exact absurd hsplit.symm (List.append_ne_nil_of_right_ne_nil _ (List.cons_ne_nil _ _))
  | cons call calls ih =>
    have hcons : observations before (call :: calls) =
        observed before call :: observations (some (observe before call).2) calls := rfl
    rw [hcons] at hsplit
    rcases earlier with _ | ⟨first, earlier⟩
    · rw [List.nil_append, List.cons.injEq] at hsplit
      rw [← hsplit.1, List.any_nil, Bool.or_false]
      exact lawful_observed h call
    · rw [List.cons_append, List.cons.injEq] at hsplit
      have hrest := ih (reported_observe h call) hsplit.2
      rw [List.any_cons, ← hsplit.1, ← Bool.or_assoc]
      exact hrest

theorem countP_new (h : Reported ever before) (calls : List Upsert) :
    (observations before calls).countP (fun o => o.outcome = .new && o.keeps) =
      if ever = false ∧ (observations before calls).any (·.keeps) then 1 else 0 := by
  induction calls generalizing before ever with
  | nil => simp [observations]
  | cons call calls ih =>
    have hcons : observations before (call :: calls) =
        observed before call :: observations (some (observe before call).2) calls := rfl
    have hnext := ih (reported_observe h call)
    have hnew : (decide ((observed before call).outcome = .new) && (observed before call).keeps) = true ↔
        (observed before call).keeps = true ∧ ever = false := by
      rw [Bool.and_eq_true, decide_eq_true_eq, (lawful_observed h call).new]
      constructor
      · rintro ⟨hnone | hfirst, hkeeps⟩
        · have hbefore : before = none := hnone
          subst hbefore
          exact ⟨hkeeps, h⟩
        · exact hfirst
      · exact fun hfirst => ⟨.inr hfirst, hfirst.1⟩
    have hnow : keptNow before call = (observed before call).keeps := rfl
    rw [hcons, List.countP_cons, List.any_cons, hnext, hnow]
    simp only [hnew]
    cases ever <;> cases (observed before call).keeps <;> simp

end

/-- What every sequence of calls for a URL that was not there comes to. -/
structure EvidenceKept (h : List Observation) : Prop where
  /-- Kept and new once, if it is ever kept. -/
  once : h.countP (fun o => o.outcome = .new && o.keeps) = if h.any (·.keeps) then 1 else 0
  /-- New when it is first seen, and when it is first kept. -/
  new : ∀ earlier o later, h = earlier ++ o :: later →
    (o.outcome = .new ↔ o.before = none ∨ o.keeps = true ∧ ∀ e ∈ earlier, e.keeps = false)
  /-- A full-page copy and what was made of it outlast a snippet. -/
  fullCopy : ∀ o ∈ h, ∀ row row', o.before = some row → o.after = some row' → row.extracted = true →
    o.item.extracted = false → row'.copy = row.copy
  /-- A kept row stays kept when an item is outside the time window. -/
  window : ∀ o ∈ h, ∀ row, o.before = some row → row.status = .kept → o.item.status = .excluded →
    o.item.statusReason = some "outside_time_window" → o.keeps = true
  /-- Changed when a copy of the same kind with another text takes the place of the stored one, unless it
  is the first that is kept. -/
  changed : ∀ earlier o later, h = earlier ++ o :: later →
    (o.outcome = .changed ↔ (∃ row row', o.before = some row ∧ o.after = some row' ∧ Replaces row row') ∧
      ¬(o.keeps = true ∧ ∀ e ∈ earlier, e.keeps = false))

/-- **Monitoring keeps its best evidence**: for each URL, in every sequence of calls for any. -/
theorem evidence_kept (key : String × String) (calls : List Upsert) :
    EvidenceKept (history key .empty calls) := by
  obtain ⟨own, hown⟩ := history_eq key .empty calls
  have hempty : InternetDocuments.empty.find key = none := rfl
  rw [hempty] at hown
  rw [hown]
  have hreported : Reported false none := rfl
  have hearlier : ∀ earlier : List Observation, (false || earlier.any (·.keeps)) = false ↔
      ∀ e ∈ earlier, e.keeps = false := by
    intro earlier
    rw [Bool.false_or, List.any_eq_false]
    simp only [Bool.not_eq_true]
  refine ⟨?_, ?_, ?_, ?_, ?_⟩
  · rw [countP_new hreported]
    simp only [true_and]
  · intro earlier o later hsplit
    rw [(lawful_observations hreported hsplit).new, hearlier]
  · intro o ho
    obtain ⟨earlier, later, hsplit⟩ := List.append_of_mem ho
    exact (lawful_observations hreported hsplit).fullCopy
  · intro o ho
    obtain ⟨earlier, later, hsplit⟩ := List.append_of_mem ho
    exact (lawful_observations hreported hsplit).window
  · intro earlier o later hsplit
    rw [(lawful_observations hreported hsplit).changed, hearlier]

def anyStamp : Stamp := ⟨"2026-09-23T10:00:00+00:00", by decide⟩

def story (contentSha256 : String) (status : Status) : Upsert where
  institutionId := "college_a"
  item := ⟨"https://news.example/a", "https://news.example/a", "news.example", "news", "Title", "Text",
    contentSha256, none, none, none, "high", 1, [], 1, [], status, true, [], none, none, [], none, none⟩
  stamp := anyStamp
  documentId := "idoc-1"

/-- A page that is kept for the first time with a new text is new, not changed, and the first sight of a
page that is not kept is new too. -/
theorem first_kept_copy :
    ¬(∀ key calls, ∀ o ∈ history key .empty calls, o.outcome = .changed ↔
        ∃ row row', o.before = some row ∧ o.after = some row' ∧ Replaces row row') ∧
      (history ("college_a", "https://news.example/a") .empty [story "a" .excluded, story "b" .kept]).map
        (·.outcome) = [.new, .new] := by
  have hoften : (history ("college_a", "https://news.example/a") .empty
      [story "a" .excluded, story "b" .kept]).any (fun o => o.outcome ≠ .changed ∧
        (o.before.any fun row => o.after.any fun row' => row.extracted = row'.extracted ∧
          row.contentSha256 ≠ row'.contentSha256)) = true := by
    decide
  refine ⟨fun h => ?_, by decide⟩
  obtain ⟨o, ho, hreplaced⟩ := List.any_eq_true.mp hoften
  obtain ⟨hnot, hrows⟩ := of_decide_eq_true hreplaced
  obtain ⟨row, hrow, hafter⟩ := (Option.any_eq_true _ _).mp hrows
  obtain ⟨row', hrow', hsame⟩ := (Option.any_eq_true _ _).mp hafter
  have hreplaces := of_decide_eq_true hsame
  exact hnot ((h _ _ o ho).mpr ⟨row, row', hrow, hrow', hreplaces⟩)

end GuruJi.Monitoring
