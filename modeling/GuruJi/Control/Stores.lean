import GuruJi.Lib.Latest
import GuruJi.Lib.Rows
import GuruJi.Lib.Table

/-!
# Control stores

Voice sessions and usage counters in `InMemoryControlStore` and in the SQL control stores. The one has
two dictionaries and says its guards in Python, the other two tables with primary keys and conditional
updates. A timestamp is a text of one fixed form, whose order as a text is that of time: a type `τ`
with a linear order.

* `perform_agrees`: whatever is asked of both, they answer alike and go on agreeing;
* **`both_agree`**: so do they in every sequence of operations.

SQL leaves open in which order sessions of the same `created_at` are listed (`RowOrder`).
-/

namespace GuruJi.Control

open GuruJi.Lib

/-- A row of `voice_sessions`. -/
structure VoiceSession (τ : Type) where
  sessionId : String
  principalId : String
  institutionId : String
  principalJson : String
  ticketSha256 : String
  createdAt : τ
  ticketExpiresAt : τ
  expiresAt : τ
  claimedAt : Option τ
  closedAt : Option τ
  deriving DecidableEq

/-- The key of a usage counter. -/
structure UsageKey where
  institutionId : String
  principalId : String
  counter : String
  day : String
  deriving DecidableEq

inductive Operation (τ : Type) where
  | createVoiceSession (record : VoiceSession τ)
  | getVoiceSession (sessionId : String)
  | claimVoiceSession (sessionId ticketSha256 : String) (now : τ)
  | closeVoiceSession (sessionId : String) (principalId : Option String) (now : τ)
  | activeVoiceSessions (now : τ) (principalId : Option String)
  | takeUsage (key : UsageKey) (cap : Int)
  | pruneEphemeral (cutoff : τ) (oldestDay : String)
  deriving DecidableEq

inductive StoreError where
  | valueError (message : String)
  | integrityError
  deriving DecidableEq

/-- What an operation returns or raises. -/
inductive Result (τ : Type) where
  | created
  | refused (error : StoreError)
  | session (row : Option (VoiceSession τ))
  | sessions (rows : List (VoiceSession τ))
  | flag (b : Bool)
  | count (n : Nat)
  deriving DecidableEq

variable {τ : Type} [LinearOrder τ]

/-! ## In memory -/

/-- Open, and either waiting for its socket or connected. -/
def isActive (row : VoiceSession τ) (now : τ) : Bool :=
  if row.closedAt.isSome then false
  else if row.claimedAt.isNone then decide (now < row.ticketExpiresAt) && decide (now < row.expiresAt)
  else decide (now < row.expiresAt)

structure InMemoryControlStore (τ : Type) where
  voiceSessions : Table String (VoiceSession τ)
  usage : Table UsageKey Nat
  deriving DecidableEq

namespace InMemoryControlStore

def createVoiceSession (store : InMemoryControlStore τ) (record : VoiceSession τ) :
    Result τ × InMemoryControlStore τ :=
  if (store.voiceSessions.get record.sessionId).isSome then
    (.refused (.valueError "voice session already exists"), store)
  else (.created, { store with voiceSessions := store.voiceSessions.assign record.sessionId record })

def claimVoiceSession (store : InMemoryControlStore τ) (sessionId ticketSha256 : String) (now : τ) :
    Result τ × InMemoryControlStore τ :=
  match store.voiceSessions.get sessionId with
  | none => (.session none, store)
  | some row =>
    if row.ticketSha256 ≠ ticketSha256 ∨ row.claimedAt.isSome ∨ row.closedAt.isSome ∨
        row.ticketExpiresAt ≤ now ∨ row.expiresAt ≤ now then (.session none, store)
    else
      (.session (some { row with claimedAt := some now }),
        { store with
          voiceSessions := store.voiceSessions.assign sessionId { row with claimedAt := some now } })

def closeVoiceSession (store : InMemoryControlStore τ) (sessionId : String) (principalId : Option String)
    (now : τ) : Result τ × InMemoryControlStore τ :=
  match store.voiceSessions.get sessionId with
  | none => (.flag false, store)
  | some row =>
    if row.closedAt.isSome ∨ (principalId.isSome ∧ principalId ≠ some row.principalId) then
      (.flag false, store)
    else
      (.flag true,
        { store with
          voiceSessions := store.voiceSessions.assign sessionId { row with closedAt := some now } })

def activeVoiceSessions (store : InMemoryControlStore τ) (now : τ) (principalId : Option String) :
    List (VoiceSession τ) :=
  sortBy (·.createdAt) ((store.voiceSessions.map Prod.snd).filter fun row =>
    isActive row now && (principalId.isNone || decide (principalId = some row.principalId)))

def takeUsage (store : InMemoryControlStore τ) (key : UsageKey) (cap : Int) :
    Result τ × InMemoryControlStore τ :=
  let used := (store.usage.get key).getD 0
  if cap ≤ used then (.flag false, store)
  else (.flag true, { store with usage := store.usage.assign key (used + 1) })

def pruneEphemeral (store : InMemoryControlStore τ) (cutoff : τ) (oldestDay : String) :
    Result τ × InMemoryControlStore τ :=
  let stale := store.voiceSessions.filter fun entry =>
    decide (entry.2.closedAt.getD entry.2.expiresAt < cutoff)
  let old := store.usage.filter fun entry => decide (entry.1.day < oldestDay)
  (.count (stale.length + old.length),
    { voiceSessions := store.voiceSessions.filter fun entry =>
        !decide (entry.2.closedAt.getD entry.2.expiresAt < cutoff)
      usage := store.usage.filter fun entry => !decide (entry.1.day < oldestDay) })

def perform (store : InMemoryControlStore τ) : Operation τ → Result τ × InMemoryControlStore τ
  | .createVoiceSession record => store.createVoiceSession record
  | .getVoiceSession sessionId => (.session (store.voiceSessions.get sessionId), store)
  | .claimVoiceSession sessionId ticketSha256 now => store.claimVoiceSession sessionId ticketSha256 now
  | .closeVoiceSession sessionId principalId now => store.closeVoiceSession sessionId principalId now
  | .activeVoiceSessions now principalId =>
      (.sessions (store.activeVoiceSessions now principalId), store)
  | .takeUsage key cap => store.takeUsage key cap
  | .pruneEphemeral cutoff oldestDay => store.pruneEphemeral cutoff oldestDay

end InMemoryControlStore

/-! ## In a database -/

/-- A row of `usage_counters`. -/
structure UsageCounter where
  key : UsageKey
  used : Nat
  deriving DecidableEq

/-- The tables, with their primary keys. -/
structure ControlDb (τ : Type) where
  voiceSessions : List (VoiceSession τ)
  usageCounters : List UsageCounter
  sessionsKeyed : (voiceSessions.map (·.sessionId)).Nodup
  countersKeyed : (usageCounters.map (·.key)).Nodup

/-- `ORDER BY created_at`: sessions of the same time come in any order. -/
structure RowOrder (τ : Type) [LinearOrder τ] where
  order : List (VoiceSession τ) → List (VoiceSession τ)
  perm : ∀ rows, (order rows).Perm rows
  sorted : ∀ rows, (order rows).Pairwise fun a b => a.createdAt ≤ b.createdAt

namespace ControlDb

/-- `INSERT INTO voice_sessions`. -/
def insertSession (db : ControlDb τ) (record : VoiceSession τ) : Except StoreError (ControlDb τ) :=
  if h : record.sessionId ∈ db.voiceSessions.map (·.sessionId) then .error .integrityError
  else .ok { db with
    voiceSessions := db.voiceSessions ++ [record]
    sessionsKeyed := by
      rw [List.map_append, List.nodup_append_comm]
      exact List.nodup_cons.mpr ⟨h, db.sessionsKeyed⟩ }

/-- `SELECT * FROM voice_sessions WHERE session_id = ?`. -/
def selectSession (db : ControlDb τ) (sessionId : String) : Option (VoiceSession τ) :=
  db.voiceSessions.find? fun row => row.sessionId = sessionId

/-- `UPDATE voice_sessions SET ... WHERE session_id = ? AND ... RETURNING *`, without assigning the
primary key; the row count is that of the rows it returns. -/
def updateSession (db : ControlDb τ) (sessionId : String) (cond : VoiceSession τ → Bool)
    (set : VoiceSession τ → VoiceSession τ) (hset : ∀ row, (set row).sessionId = row.sessionId) :
    List (VoiceSession τ) × ControlDb τ :=
  ((db.voiceSessions.filter fun row => row.sessionId = sessionId ∧ cond row).map set,
    { db with
      voiceSessions := updateIf (fun row => row.sessionId = sessionId ∧ cond row) set db.voiceSessions
      sessionsKeyed := by
        rw [map_updateIf hset]
        exact db.sessionsKeyed })

/-- The condition of a claim, besides the session's id. -/
def claimable (ticketSha256 : String) (now : τ) (row : VoiceSession τ) : Bool :=
  decide (row.ticketSha256 = ticketSha256) && row.claimedAt.isNone && row.closedAt.isNone &&
    decide (now < row.ticketExpiresAt) && decide (now < row.expiresAt)

/-- The conditional update of `claim_voice_session`. -/
def claimSession (db : ControlDb τ) (sessionId ticketSha256 : String) (now : τ) :
    List (VoiceSession τ) × ControlDb τ :=
  db.updateSession sessionId (claimable ticketSha256 now)
    (fun row => { row with claimedAt := some now }) fun _ => rfl

/-- The conditional updates of `close_voice_session`. -/
def closeSession (db : ControlDb τ) (sessionId : String) (principalId : Option String) (now : τ) :
    List (VoiceSession τ) × ControlDb τ :=
  match principalId with
  | none => db.updateSession sessionId (·.closedAt.isNone) (fun row => { row with closedAt := some now })
      fun _ => rfl
  | some principal => db.updateSession sessionId
      (fun row => decide (row.principalId = principal) && row.closedAt.isNone)
      (fun row => { row with closedAt := some now }) fun _ => rfl

/-- The query of `active_voice_sessions`. -/
def selectActive (order : RowOrder τ) (db : ControlDb τ) (now : τ) (principalId : Option String) :
    List (VoiceSession τ) :=
  order.order (db.voiceSessions.filter fun row =>
    row.closedAt.isNone && decide (now < row.expiresAt) &&
      (row.claimedAt.isSome || decide (now < row.ticketExpiresAt)) &&
      (match principalId with
        | none => true
        | some principal => decide (row.principalId = principal)))

/-- The condition of a use, besides the counter's key. -/
def below (cap : Int) (row : UsageCounter) : Bool := decide ((row.used : Int) < cap)

/-- `INSERT INTO usage_counters ... ON CONFLICT ... DO UPDATE SET used = used + 1 WHERE used < cap`. -/
def upsertUsage (db : ControlDb τ) (key : UsageKey) (cap : Int) : Nat × ControlDb τ :=
  if h : key ∈ db.usageCounters.map (·.key) then
    ((db.usageCounters.filter fun row => row.key = key ∧ below cap row).length,
      { db with
        usageCounters := updateIf (fun row => row.key = key ∧ below cap row)
          (fun row => { row with used := row.used + 1 }) db.usageCounters
        countersKeyed := by
          rw [map_updateIf]
          · exact db.countersKeyed
          · exact fun _ => rfl })
  else
    (1, { db with
      usageCounters := db.usageCounters ++ [⟨key, 1⟩]
      countersKeyed := by
        rw [List.map_append, List.nodup_append_comm]
        exact List.nodup_cons.mpr ⟨h, db.countersKeyed⟩ })

/-- The transaction of `prune_ephemeral`. -/
def prune (db : ControlDb τ) (cutoff : τ) (oldestDay : String) : Nat × ControlDb τ :=
  ((db.voiceSessions.filter fun row => decide (row.closedAt.getD row.expiresAt < cutoff)).length +
      (db.usageCounters.filter fun row => decide (row.key.day < oldestDay)).length,
    { voiceSessions := db.voiceSessions.filter fun row => !decide (row.closedAt.getD row.expiresAt < cutoff)
      usageCounters := db.usageCounters.filter fun row => !decide (row.key.day < oldestDay)
      sessionsKeyed := db.sessionsKeyed.sublist (List.filter_sublist.map _)
      countersKeyed := db.countersKeyed.sublist (List.filter_sublist.map _) })

end ControlDb

/-- The two SQL control stores. -/
inductive SqlControlStore where
  | sqlite | postgres
  deriving DecidableEq

namespace SqlControlStore

def createVoiceSession (db : ControlDb τ) (record : VoiceSession τ) : Result τ × ControlDb τ :=
  match db.insertSession record with
  | .ok db' => (.created, db')
  | .error error => (.refused error, db)

/-- SQLite reads the claimed row with a query of its own. -/
def claimVoiceSession (store : SqlControlStore) (db : ControlDb τ) (sessionId ticketSha256 : String)
    (now : τ) : Result τ × ControlDb τ :=
  let out := db.claimSession sessionId ticketSha256 now
  match store with
  | .sqlite =>
    if out.1.length ≠ 1 then (.session none, out.2)
    else (.session (out.2.selectSession sessionId), out.2)
  | .postgres => (.session out.1.head?, out.2)

def closeVoiceSession (db : ControlDb τ) (sessionId : String) (principalId : Option String) (now : τ) :
    Result τ × ControlDb τ :=
  let out := db.closeSession sessionId principalId now
  (.flag (out.1.length = 1), out.2)

def takeUsage (db : ControlDb τ) (key : UsageKey) (cap : Int) : Result τ × ControlDb τ :=
  if cap ≤ 0 then (.flag false, db)
  else
    let out := db.upsertUsage key cap
    (.flag (out.1 = 1), out.2)

def perform (store : SqlControlStore) (order : RowOrder τ) (db : ControlDb τ) :
    Operation τ → Result τ × ControlDb τ
  | .createVoiceSession record => createVoiceSession db record
  | .getVoiceSession sessionId => (.session (db.selectSession sessionId), db)
  | .claimVoiceSession sessionId ticketSha256 now =>
      store.claimVoiceSession db sessionId ticketSha256 now
  | .closeVoiceSession sessionId principalId now => closeVoiceSession db sessionId principalId now
  | .activeVoiceSessions now principalId => (.sessions (db.selectActive order now principalId), db)
  | .takeUsage key cap => takeUsage db key cap
  | .pruneEphemeral cutoff oldestDay =>
    let out := db.prune cutoff oldestDay
    (.count out.1, out.2)

end SqlControlStore

/-- Operations one after the other: what they return or raise, and what they leave. -/
def performAll {S O R : Type} (perform : S → O → R × S) : S → List O → List R × S
  | s, [] => ([], s)
  | s, op :: ops =>
    let out := perform s op
    let rest := performAll perform out.2 ops
    (out.1 :: rest.1, rest.2)

/-! ## The stores agree -/

def ControlDb.image (db : ControlDb τ) : InMemoryControlStore τ :=
  ⟨entries (·.sessionId) id db.voiceSessions, entries (·.key) (·.used) db.usageCounters⟩

/-- The same answer: two refusals, or two lists of the same sessions that are both by time. -/
inductive Result.Same : Result τ → Result τ → Prop
  | refl (result : Result τ) : Same result result
  | refused (error error' : StoreError) : Same (.refused error) (.refused error')
  | sessions {rows rows' : List (VoiceSession τ)} (hperm : rows.Perm rows')
      (hrows : rows.Pairwise fun a b => a.createdAt ≤ b.createdAt)
      (hrows' : rows'.Pairwise fun a b => a.createdAt ≤ b.createdAt) : Same (.sessions rows)
          (.sessions rows')

variable {db : ControlDb τ}

theorem get_image (sessionId : String) :
    db.image.voiceSessions.get sessionId = db.selectSession sessionId := by
  unfold ControlDb.image ControlDb.selectSession
  rw [get_entries, Option.map_id, id]

theorem update_absent {sessionId : String} (h : db.selectSession sessionId = none)
    (cond : VoiceSession τ → Bool) (set : VoiceSession τ → VoiceSession τ)
    (hset : ∀ row, (set row).sessionId = row.sessionId) :
    db.updateSession sessionId cond set hset = ([], db) := by
  obtain ⟨hfilter, hupdate⟩ := updateIf_absent h (q := cond) (f := set)
  unfold ControlDb.updateSession
  simp only [hfilter, hupdate]
  rfl

theorem update_present {sessionId : String} {row : VoiceSession τ}
    (h : db.selectSession sessionId = some row)
    (cond : VoiceSession τ → Bool) (set : VoiceSession τ → VoiceSession τ)
    (hset : ∀ row, (set row).sessionId = row.sessionId) :
    (db.updateSession sessionId cond set hset).1 = (if cond row then [set row] else []) ∧
      (db.updateSession sessionId cond set hset).2.image =
        if cond row then
          { db.image with voiceSessions := db.image.voiceSessions.assign sessionId (set row) }
        else db.image := by
  obtain ⟨hfilter, hupdate⟩ := updateIf_present id db.sessionsKeyed h (q := cond) (hset row)
  unfold ControlDb.updateSession ControlDb.image
  simp only [hfilter, hupdate]
  split_ifs <;> exact ⟨rfl, rfl⟩

/-- An answer of the one store and what it leaves are those of the other. -/
def Agree (memory : Result τ × InMemoryControlStore τ) (sql : Result τ × ControlDb τ) : Prop :=
  memory.1.Same sql.1 ∧ memory.2 = sql.2.image

theorem create_agrees (record : VoiceSession τ) :
    Agree (db.image.createVoiceSession record) (SqlControlStore.createVoiceSession db record) := by
  have hknown : (db.image.voiceSessions.get record.sessionId).isSome ↔
      record.sessionId ∈ db.voiceSessions.map (·.sessionId) := by
    rw [Table.isSome_get]
    exact iff_of_eq (congrArg _ keys_entries)
  unfold InMemoryControlStore.createVoiceSession SqlControlStore.createVoiceSession
    ControlDb.insertSession
  by_cases h : record.sessionId ∈ db.voiceSessions.map (·.sessionId)
  · rw [if_pos (hknown.mpr h), dif_pos h]
    exact ⟨.refused _ _, rfl⟩
  · rw [if_neg fun hsome => h (hknown.mp hsome), dif_neg h]
    refine ⟨.refl _, ?_⟩
    have hnew : ∀ row ∈ db.voiceSessions, row.sessionId ≠ record.sessionId :=
      fun row hrow heq => h (List.mem_map.mpr ⟨row, hrow, heq⟩)
    exact congrArg (InMemoryControlStore.mk · db.image.usage) (entries_assign_new _ id record hnew)

theorem claimable_spec {row : VoiceSession τ} {ticketSha256 : String} {now : τ} :
    ControlDb.claimable ticketSha256 now row = true ↔ row.ticketSha256 = ticketSha256 ∧
      row.claimedAt = none ∧ row.closedAt = none ∧ now < row.ticketExpiresAt ∧ now < row.expiresAt := by
  simp [ControlDb.claimable, and_assoc]

theorem not_claimable_spec {row : VoiceSession τ} {ticketSha256 : String} {now : τ} :
    (row.ticketSha256 ≠ ticketSha256 ∨ row.claimedAt.isSome ∨ row.closedAt.isSome ∨
        row.ticketExpiresAt ≤ now ∨ row.expiresAt ≤ now) ↔
      ¬ControlDb.claimable ticketSha256 now row = true := by
  rw [claimable_spec]
  simp only [not_and_or, not_lt, ← Option.isSome_iff_ne_none, ne_eq]

theorem claim_agrees (store : SqlControlStore) (sessionId ticketSha256 : String) (now : τ) :
    Agree (db.image.claimVoiceSession sessionId ticketSha256 now)
      (store.claimVoiceSession db sessionId ticketSha256 now) := by
  unfold InMemoryControlStore.claimVoiceSession SqlControlStore.claimVoiceSession ControlDb.claimSession
  rw [get_image]
  cases hrow : db.selectSession sessionId with
  | none =>
    rw [update_absent hrow]
    cases store <;> exact ⟨.refl _, rfl⟩
  | some row =>
    obtain ⟨hhit, himage⟩ := update_present hrow (ControlDb.claimable ticketSha256 now)
      (fun row => { row with claimedAt := some now }) fun _ => rfl
    generalize db.updateSession sessionId _ _ _ = out at hhit himage ⊢
    simp only [not_claimable_spec]
    by_cases hclaim : ControlDb.claimable ticketSha256 now row = true
    · rw [if_pos hclaim] at hhit himage
      rw [if_neg (not_not.mpr hclaim), hhit]
      have hread : out.2.selectSession sessionId = some { row with claimedAt := some now } := by
        rw [← get_image, himage]
        exact (Table.get_assign _ _ _ _).trans (if_pos rfl)
      cases store with
      | sqlite => exact ⟨by rw [hread]; exact .refl _, himage.symm⟩
      | postgres => exact ⟨.refl _, himage.symm⟩
    · rw [if_neg hclaim] at hhit himage
      rw [if_pos hclaim, hhit]
      cases store <;> exact ⟨.refl _, himage.symm⟩

/-- The condition of a close, besides the session's id. -/
def closable (principalId : Option String) (row : VoiceSession τ) : Bool :=
  principalId.all (fun principal => decide (row.principalId = principal)) && row.closedAt.isNone

theorem not_closable_iff {principalId : Option String} {row : VoiceSession τ} :
    (row.closedAt.isSome ∨ (principalId.isSome ∧ principalId ≠ some row.principalId)) ↔
      ¬closable principalId row = true := by
  cases principalId with
  | none => cases hclosed : row.closedAt <;> simp [closable, hclosed]
  | some principal =>
    cases hclosed : row.closedAt <;> simp [closable, hclosed, eq_comm (a := principal)]

theorem closeSession_eq (sessionId : String) (principalId : Option String) (now : τ) :
    db.closeSession sessionId principalId now = db.updateSession sessionId (closable principalId)
      (fun row => { row with closedAt := some now }) fun _ => rfl := by
  cases principalId with
  | none => rfl
  | some principal => rfl

theorem close_agrees (sessionId : String) (principalId : Option String) (now : τ) :
    Agree (db.image.closeVoiceSession sessionId principalId now)
      (SqlControlStore.closeVoiceSession db sessionId principalId now) := by
  unfold InMemoryControlStore.closeVoiceSession SqlControlStore.closeVoiceSession
  rw [get_image, closeSession_eq]
  cases hrow : db.selectSession sessionId with
  | none =>
    rw [update_absent hrow]
    exact ⟨.refl _, rfl⟩
  | some row =>
    obtain ⟨hhit, himage⟩ := update_present hrow (closable principalId)
      (fun row => { row with closedAt := some now }) fun _ => rfl
    generalize db.updateSession sessionId _ _ _ = out at hhit himage ⊢
    simp only [not_closable_iff]
    by_cases hclose : closable principalId row = true
    · rw [if_pos hclose] at hhit himage
      rw [if_neg (not_not.mpr hclose), hhit]
      exact ⟨.refl _, himage.symm⟩
    · rw [if_neg hclose] at hhit himage
      rw [if_pos hclose, hhit]
      exact ⟨.refl _, himage.symm⟩

theorem active_agrees (order : RowOrder τ) (now : τ) (principalId : Option String) :
    (Result.sessions (db.image.activeVoiceSessions now principalId)).Same
      (.sessions (db.selectActive order now principalId)) := by
  have hrows : db.image.voiceSessions.map Prod.snd = db.voiceSessions := by
    unfold ControlDb.image entries
    rw [List.map_map]
    exact List.map_id _
  unfold InMemoryControlStore.activeVoiceSessions ControlDb.selectActive
  rw [hrows]
  have hwhere : (fun row : VoiceSession τ =>
      isActive row now && (principalId.isNone || decide (principalId = some row.principalId))) =
      fun row => row.closedAt.isNone && decide (now < row.expiresAt) &&
        (row.claimedAt.isSome || decide (now < row.ticketExpiresAt)) &&
        (match principalId with
          | none => true
          | some principal => decide (row.principalId = principal)) := by
    funext row
    unfold isActive
    cases row.closedAt <;> cases row.claimedAt <;> cases principalId <;>
      simp [Bool.and_comm, eq_comm]
  rw [hwhere]
  exact .sessions ((List.perm_insertionSort _ _).trans (order.perm _).symm) (sortBy_pairwise _ _)
    (order.sorted _)

theorem upsert_absent {key : UsageKey} (h : db.usageCounters.find? (fun row => row.key = key) = none)
    (cap : Int) : (db.upsertUsage key cap).1 = 1 ∧ (db.upsertUsage key cap).2.image =
      { db.image with usage := db.image.usage.assign key 1 } := by
  have hne := ne_key_of_find? h
  have hnew : key ∉ db.usageCounters.map (·.key) := by
    intro hmem
    obtain ⟨row, hmem, heq⟩ := List.mem_map.mp hmem
    exact hne row hmem heq
  have hassign : (entries UsageCounter.key UsageCounter.used db.usageCounters).assign key 1 =
      entries UsageCounter.key UsageCounter.used (db.usageCounters ++ [⟨key, 1⟩]) :=
    entries_assign_new UsageCounter.key UsageCounter.used ⟨key, 1⟩ hne
  unfold ControlDb.upsertUsage
  rw [dif_neg hnew]
  exact ⟨rfl, congrArg (InMemoryControlStore.mk db.image.voiceSessions ·) hassign.symm⟩

theorem upsert_present {key : UsageKey} {row : UsageCounter}
    (h : db.usageCounters.find? (fun row => row.key = key) = some row) (cap : Int) :
    (db.upsertUsage key cap).1 = (if ControlDb.below cap row then 1 else 0) ∧
      (db.upsertUsage key cap).2.image =
        if ControlDb.below cap row then
          { db.image with usage := db.image.usage.assign key (row.used + 1) }
        else db.image := by
  have hknown : key ∈ db.usageCounters.map (·.key) :=
    List.mem_map.mpr ⟨row, List.mem_of_find?_eq_some h, by simpa using List.find?_some h⟩
  obtain ⟨hfilter, hupdate⟩ := updateIf_present UsageCounter.used db.countersKeyed h
    (q := ControlDb.below cap) (f := fun row => { row with used := row.used + 1 }) rfl
  unfold ControlDb.upsertUsage
  rw [dif_pos hknown, hfilter]
  refine ⟨by split_ifs <;> rfl, ?_⟩
  refine (congrArg (InMemoryControlStore.mk db.image.voiceSessions ·) hupdate).trans ?_
  split_ifs <;> rfl

theorem usage_agrees (key : UsageKey) (cap : Int) :
    Agree (db.image.takeUsage key cap) (SqlControlStore.takeUsage db key cap) := by
  have hget : db.image.usage.get key = (db.usageCounters.find? fun row => row.key = key).map (·.used) :=
    get_entries
  unfold InMemoryControlStore.takeUsage SqlControlStore.takeUsage
  rw [hget]
  cases hrow : db.usageCounters.find? (fun row => row.key = key) with
  | none =>
    obtain ⟨hhit, himage⟩ := upsert_absent hrow cap
    show Agree (if cap ≤ 0 then _ else _) _
    by_cases hcap : cap ≤ 0
    · rw [if_pos hcap, if_pos hcap]
      exact ⟨.refl _, rfl⟩
    · rw [if_neg hcap, if_neg hcap]
      simp only [hhit]
      exact ⟨.refl _, himage.symm⟩
  | some row =>
    obtain ⟨hhit, himage⟩ := upsert_present hrow cap
    show Agree (if cap ≤ (row.used : Int) then _ else _) _
    by_cases hcap : cap ≤ row.used
    · have hmiss : ControlDb.below cap row = false := decide_eq_false (not_lt.mpr hcap)
      rw [hmiss] at hhit himage
      rw [if_pos hcap]
      by_cases hnone : cap ≤ 0
      · rw [if_pos hnone]
        exact ⟨.refl _, rfl⟩
      · rw [if_neg hnone]
        simp only [hhit]
        exact ⟨.refl _, himage.symm⟩
    · have hbelow : ControlDb.below cap row = true := decide_eq_true (not_le.mp hcap)
      have hpos : ¬cap ≤ 0 := by omega
      rw [hbelow] at hhit himage
      rw [if_neg hcap, if_neg hpos]
      simp only [hhit]
      exact ⟨.refl _, himage.symm⟩

theorem prune_agrees (cutoff : τ) (oldestDay : String) : Agree (db.image.pruneEphemeral cutoff oldestDay)
      (.count (db.prune cutoff oldestDay).1, (db.prune cutoff oldestDay).2) := by
  have hsessions : ∀ b : Bool, db.image.voiceSessions.filter (fun entry =>
      b == decide (entry.2.closedAt.getD entry.2.expiresAt < cutoff)) =
        entries (·.sessionId) id (db.voiceSessions.filter fun row =>
          b == decide (row.closedAt.getD row.expiresAt < cutoff)) :=
    fun b => entries_filter fun row => rfl
  have hcounters : ∀ b : Bool, db.image.usage.filter (fun entry =>
      b == decide (entry.1.day < oldestDay)) =
        entries (·.key) (·.used) (db.usageCounters.filter fun row =>
          b == decide (row.key.day < oldestDay)) :=
    fun b => entries_filter fun row => rfl
  have hold := hsessions true
  have hkept := hsessions false
  have holdDay := hcounters true
  have hkeptDay := hcounters false
  simp only [Bool.true_beq, Bool.false_beq] at hold hkept holdDay hkeptDay
  unfold InMemoryControlStore.pruneEphemeral ControlDb.prune
  simp only [hold, hkept, holdDay, hkeptDay]
  refine ⟨?_, rfl⟩
  simp only [entries, List.length_map]
  exact .refl _

/-- **Both stores answer alike** and go on agreeing. -/
theorem perform_agrees (db : ControlDb τ) (store : SqlControlStore) (order : RowOrder τ)
    (op : Operation τ) : Agree (db.image.perform op) (store.perform order db op) := by
  cases op with
  | createVoiceSession record => exact create_agrees record
  | getVoiceSession sessionId =>
    exact ⟨by rw [InMemoryControlStore.perform, get_image]; exact .refl _, rfl⟩
  | claimVoiceSession sessionId ticketSha256 now => exact claim_agrees store sessionId ticketSha256 now
  | closeVoiceSession sessionId principalId now => exact close_agrees sessionId principalId now
  | activeVoiceSessions now principalId => exact ⟨active_agrees order now principalId, rfl⟩
  | takeUsage key cap => exact usage_agrees key cap
  | pruneEphemeral cutoff oldestDay => exact prune_agrees cutoff oldestDay

/-- **Every sequence of operations** has the same answers in both stores, and leaves the same. -/
theorem both_agree (store : SqlControlStore) (db : ControlDb τ)
    (ops : List (Operation τ × RowOrder τ)) : List.Forall₂ Result.Same
        (performAll InMemoryControlStore.perform db.image (ops.map Prod.fst)).1
        (performAll (fun db op => store.perform op.2 db op.1) db ops).1 ∧
      (performAll InMemoryControlStore.perform db.image (ops.map Prod.fst)).2 =
        (performAll (fun db op => store.perform op.2 db op.1) db ops).2.image := by
  induction ops generalizing db with
  | nil => exact ⟨.nil, rfl⟩
  | cons op ops ih =>
    obtain ⟨hsame, hleft⟩ := perform_agrees db store op.2 op.1
    obtain ⟨hrest, hend⟩ := ih (store.perform op.2 db op.1).2
    rw [← hleft] at hrest hend
    exact ⟨.cons hsame hrest, hend⟩

end GuruJi.Control
