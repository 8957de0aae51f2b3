import GuruJi.Monitoring.Evidence
import GuruJi.Monitoring.Rotation

/-!
# Alerts of monitoring

A monitoring run stores every page it reads, adds an event for each kept one that is new or changed, and
alerts the recipients of the important ones. Each page is stored in a transaction of its own, and so are
the events, the run's outcome and the mark of what was alerted; the store says only once that a page is
new.

* `marked_runFor`: an event is marked only when a delivery contains it, and `lasts_runFor`: what was
  delivered and what was added stays;
* `contained_of_smooth`: a run in which no step fails alerts what it keeps for the first time;
* **`alerted_in_time`**: as long as no run that keeps an important page for the first time fails, each
  such page is alerted;
* `mention_lost`: a delivery that failed.
-/

namespace GuruJi.Monitoring

open GuruJi.Lib

inductive Importance where
  | high | medium | low
  deriving DecidableEq

/-- `_IMPORTANT_TOPICS`. -/
def importantTopics : List String := 
  ["accreditation", "ranking", "controversy", "announcement", "admission", "placement"]

def importance (tags : List String) (sourceType : String) : Importance :=
  let important := tags.any (importantTopics.contains ·)
  if ["official_website", "government", "news"].contains sourceType && important then .high
  else if important || ["official_website", "government"].contains sourceType then .medium
  else .low

/-- A page as `collect` reads it, with the time and the id that the store would give a new row. -/
structure Page where
  item : Item
  sourceLabel : String
  stamp : Stamp
  documentId : String
  deriving DecidableEq

def Page.importance (page : Page) : Importance :=
    Monitoring.importance page.item.topics page.item.sourceType

def Page.call (institutionId : String) (page : Page) : Upsert :=
  ⟨institutionId, page.item, page.stamp, page.documentId⟩

/-- A kept record, with what the store said of it. -/
structure Kept where
  page : Page
  documentId : String
  change : Outcome
  deriving DecidableEq

/-- The pages of `collect`, stored one after the other; nothing is returned when one cannot be stored. -/
def collectPages (institutionId : String) : InternetDocuments → List Page →
    Option (List Kept) × InternetDocuments
  | db, [] => (some [], db)
  | db, page :: pages =>
    match db.upsertDocument (page.call institutionId) with
    | .error _ => (none, db)
    | .ok (out, db') =>
      let rest := collectPages institutionId db' pages
      (rest.1.map fun kept =>
        if page.item.status = .kept then ⟨page, out.1, out.2⟩ :: kept else kept, rest.2)

/-- A row of `monitoring_events`. -/
structure EventRow where
  eventId : String
  runId : Nat
  documentId : String
  eventType : Outcome
  importance : Importance
  sourceType : String
  title : String
  url : String
  summary : String
  alerted : Bool
  deriving DecidableEq

/-- An event to be alerted: its id, title and URL. -/
structure Alert where
  eventId : String
  title : String
  url : String
  deriving DecidableEq

/-- What happens to the steps of a run: which of them raise, and the ids of new events. -/
structure Conduct where
  now : Int
  runId : Nat
  pages : List Page
  startFails : Bool
  /-- `collect` raises after the pages it has stored. -/
  collectFails : Bool
  eventId : Nat → String
  eventFails : Nat → Bool
  finishFails : Bool
  deliveryFails : Bool
  markFails : Bool

/-- `add_event`. -/
def Conduct.event (run : Conduct) (n : Nat) (record : Kept) : EventRow where
  eventId := run.eventId n
  runId := run.runId
  documentId := record.documentId
  eventType := record.change
  importance := record.page.importance
  sourceType := record.page.item.sourceType
  title := upTo 300 record.page.item.title
  url := record.page.item.url
  summary := upTo 1000 (record.page.sourceLabel ++ ": " ++ record.page.item.title)
  alerted := false

/-- The events of the kept records that are no duplicates, and what is to be alerted; nothing is returned
when an event cannot be added. -/
def addEvents (run : Conduct) : Nat → List EventRow → List Kept → Option (List Alert) × List EventRow
  | _, events, [] => (some [], events)
  | n, events, record :: records =>
    if record.change = .duplicate then addEvents run n events records
    else if run.eventFails n || events.any (·.eventId = run.eventId n) then (none, events)
    else
      let rest := addEvents run (n + 1) (events ++ [run.event n record]) records
      (rest.1.map fun alerts =>
        if record.page.importance = .high then
          ⟨run.eventId n, record.page.item.title, record.page.item.url⟩ :: alerts
        else alerts, rest.2)

/-- An alert that the sink has taken. -/
structure Delivery where
  institutionId : String
  recipients : List String
  name : String
  alerts : List Alert
  deriving DecidableEq

def Delivery.title (d : Delivery) : String :=
    s!"{d.alerts.length} important public mention(s) of {d.name}"

def Delivery.body (d : Delivery) : String :=
  "\n".intercalate (d.alerts.map fun alert => s!"- {alert.title} ({alert.url})")

/-- `mark_alerted`. -/
def markAlerted (ids : List String) (events : List EventRow) : List EventRow :=
  events.map fun event => if event.eventId ∈ ids then { event with alerted := true } else event

/-- A monitor with an alert sink, and the profile of its institution. -/
structure Monitor where
  institutionId : String
  name : String
  alertRecipients : List String
  lockSeconds : Int

/-- What is stored for an institution, and the alerts that were delivered. -/
structure AlertWorld where
  documents : InternetDocuments
  events : List EventRow
  runs : List RunRow
  delivered : List Delivery

inductive RunEnd where
  | skipped | failed
  /-- The kept records, whose verdicts the report counts, and the ids of the events that were alerted. -/
  | completed (kept : List Kept) (alerted : List String)
  deriving DecidableEq

/-- `finish_run`. -/
def finishRun (runId : Nat) (status : RunStatus) (runs : List RunRow) : List RunRow :=
  runs.map fun run => if run.runId = runId then { run with status } else run

/-- The end of a run, with the events to be alerted. -/
def deliverAlerts (m : Monitor) (run : Conduct) (kept : List Kept) (alerts : List Alert)
    (w : AlertWorld) : RunEnd × AlertWorld :=
  if alerts = [] ∨ m.alertRecipients = [] then (.completed kept [], w)
  else if run.deliveryFails then (.failed, w)
  else
    let delivery := ⟨m.institutionId, m.alertRecipients, m.name, alerts⟩
    let w := { w with delivered := w.delivered ++ [delivery] }
    let alerted := alerts.map (·.eventId)
    if run.markFails then (.failed, w)
    else (.completed kept alerted, { w with events := markAlerted alerted w.events })

def reportKept (m : Monitor) (run : Conduct) (kept : List Kept) (w : AlertWorld) : RunEnd × AlertWorld :=
  match addEvents run 0 w.events kept with
  | (none, events) => (.failed, { w with events })
  | (some alerts, events) =>
    if run.finishFails then (.failed, { w with events })
    else deliverAlerts m run kept alerts { w with events, runs := finishRun run.runId .succeeded w.runs }

/-- What `try_start_run` finds once it has closed the runs that lost their process. -/
def Monitor.otherRuns (m : Monitor) (w : AlertWorld) (run : Conduct) : List RunRow :=
  abandonStale w.runs run.now m.lockSeconds

def runFor (m : Monitor) (w : AlertWorld) (run : Conduct) : RunEnd × AlertWorld :=
  if run.startFails then (.failed, w)
  else if inProgress (m.otherRuns w run) then (.skipped, { w with runs := m.otherRuns w run })
  else
    let runs := m.otherRuns w run ++ [⟨run.runId, run.now, .running⟩]
    let (stored, documents) := collectPages m.institutionId w.documents run.pages
    match stored, run.collectFails with
    | some kept, false => reportKept m run kept { w with runs, documents }
    | _, _ =>
      (.failed, { w with
        documents
        runs := if run.finishFails then runs else finishRun run.runId .failed runs })

/-! ## Histories -/

/-- A run, with what was there before and after it. -/
structure Step where
  before : AlertWorld
  run : Conduct
  result : RunEnd
  after : AlertWorld

def trace (m : Monitor) : AlertWorld → List Conduct → List Step
  | _, [] => []
  | w, run :: runs =>
    let out := runFor m w run
    ⟨w, run, out.1, out.2⟩ :: trace m out.2 runs

def neverKept (before : Option DocumentRow) : Bool :=
  before.all fun row => row.status ≠ .kept ∧ row.firstKeptAt.getD "" = ""

/-- The important documents that storing the pages keeps for the first time. -/
def firstKept (institutionId : String) : InternetDocuments → List Page → List String
  | _, [] => []
  | db, page :: pages =>
    match db.upsertDocument (page.call institutionId) with
    | .error _ => []
    | .ok (out, db') =>
      let before := db.find (page.call institutionId).key
      (if page.importance = .high ∧ neverKept before ∧ keptNow before (page.call institutionId) then
        [out.1] else []) ++ firstKept institutionId db' pages

/-- The important documents that a run keeps for the first time. -/
def Step.firstKept (m : Monitor) (s : Step) : List String :=
  if s.run.startFails ∨ inProgress (m.otherRuns s.before s.run) then []
  else Monitoring.firstKept m.institutionId s.before.documents s.run.pages

def Step.completesKeeping (id : String) (s : Step) : Bool :=
  match s.result with
  | .completed kept _ => kept.any (·.documentId = id)
  | _ => false

/-- An alert that was delivered contains the document. -/
def Contained (w : AlertWorld) (id : String) : Prop :=
  ∃ d ∈ w.delivered, ∃ alert ∈ d.alerts, ∃ event ∈ w.events, event.eventId = alert.eventId ∧
      event.documentId = id

/-- Each important document that a run keeps for the first time is alerted by the end of the first run
from there on that completes and keeps it. -/
def AlertedInTime (m : Monitor) (steps : List Step) : Prop :=
  ∀ earlier first later, steps = earlier ++ first :: later → ∀ id ∈ first.firstKept m,
    ∀ last, (first :: later).find? (Step.completesKeeping id) = some last → Contained last.after id

/-- What is marked as alerted was in an alert that was delivered. -/
def MarkedDelivered (w : AlertWorld) : Prop :=
  ∀ event ∈ w.events, event.alerted = true → ∃ d ∈ w.delivered, event.eventId ∈ d.alerts.map (·.eventId)

/-- No step of a run fails up to the delivery of its alerts, and no id is given twice. There is at most
one event for each page. -/
structure Smooth (w : AlertWorld) (run : Conduct) : Prop where
  collects : run.collectFails = false
  newDocuments : (run.pages.map (·.documentId)).Nodup ∧
    ∀ page ∈ run.pages, page.documentId ∉ w.documents.rows.map (·.documentId)
  adds : ∀ n < run.pages.length, run.eventFails n = false
  newEvents : ∀ n < run.pages.length, run.eventId n ∉ w.events.map (·.eventId) ∧
    ∀ k < n, run.eventId k ≠ run.eventId n
  finishes : run.finishFails = false
  delivers : run.deliveryFails = false

/-! ## What lasts -/

/-- What was delivered stays, and so do the events, marked or not. -/
structure Lasts (w w' : AlertWorld) : Prop where
  delivered : ∀ d ∈ w.delivered, d ∈ w'.delivered
  events : ∀ event ∈ w.events, ∃ event' ∈ w'.events,
    event'.eventId = event.eventId ∧ event'.documentId = event.documentId

theorem Lasts.refl (w : AlertWorld) : Lasts w w :=
  ⟨fun _ hd => hd, fun event hevent => ⟨event, hevent, rfl, rfl⟩⟩

theorem Lasts.trans {w w' w'' : AlertWorld} (h : Lasts w w') (h' : Lasts w' w'') : Lasts w w'' := by
  refine ⟨fun d hd => h'.delivered d (h.delivered d hd), fun event hevent => ?_⟩
  obtain ⟨event', hevent', hid, hdocument⟩ := h.events event hevent
  obtain ⟨event'', hevent'', hid', hdocument'⟩ := h'.events event' hevent'
  exact ⟨event'', hevent'', hid'.trans hid, hdocument'.trans hdocument⟩

variable {id : String} {kept : List Kept} {w : AlertWorld} {call : Upsert} {run : Conduct}
  {m : Monitor} {runs : List Conduct}

theorem Lasts.contained {w w' : AlertWorld} (h : Lasts w w') (hw : Contained w id) :
    Contained w' id := by
  obtain ⟨d, hd, alert, halert, event, hevent, hid, hdocument⟩ := hw
  obtain ⟨event', hevent', hid', hdocument'⟩ := h.events event hevent
  exact ⟨d, h.delivered d hd, alert, halert, event', hevent', hid'.trans hid, hdocument'.trans hdocument⟩

theorem mem_addEvents (run : Conduct) {n : Nat} {events : List EventRow}
    {event : EventRow} : (event ∈ events → event ∈ (addEvents run n events kept).2) ∧
      (event ∈ (addEvents run n events kept).2 → event ∈ events ∨ event.alerted = false) := by
  induction kept generalizing n events with
  | nil => exact ⟨id, .inl⟩
  | cons record records ih =>
    rw [addEvents]
    split
    · exact ih
    split
    · exact ⟨id, .inl⟩
    · refine ⟨fun hevent => ih.1 (List.mem_append_left _ hevent), fun hevent => ?_⟩
      refine (ih.2 hevent).elim (fun hmem => ?_) .inr
      refine (List.mem_append.mp hmem).imp id fun hnew => ?_
      rw [List.mem_singleton.mp hnew]
      rfl

theorem lasts_addEvents (run : Conduct) (kept : List Kept) (w w' : AlertWorld)
    (hdelivered : w'.delivered = w.delivered) (hevents : w'.events = (addEvents run 0 w.events kept).2) :
    Lasts w w' := by
  refine ⟨fun d hd => hdelivered ▸ hd, fun event hevent => ⟨event, ?_, rfl, rfl⟩⟩
  rw [hevents]
  exact (mem_addEvents run).1 hevent

theorem marked_addEvents (run : Conduct) (kept : List Kept) {w w' : AlertWorld} (h : MarkedDelivered w)
    (hdelivered : w'.delivered = w.delivered) (hevents : w'.events = (addEvents run 0 w.events kept).2) :
    MarkedDelivered w' := by
  intro event hevent hmarked
  rw [hevents] at hevent
  rw [hdelivered]
  rcases (mem_addEvents run).2 hevent with hold | hnew
  · exact h event hold hmarked
  · rw [hnew] at hmarked
    cases hmarked

theorem lasts_deliverAlerts (m : Monitor) (run : Conduct) (kept : List Kept) (alerts : List Alert)
    (w : AlertWorld) : Lasts w (deliverAlerts m run kept alerts w).2 := by
  unfold deliverAlerts
  split_ifs
  · exact .refl w
  · exact .refl w
  · exact ⟨fun d hd => List.mem_append_left _ hd, fun event hevent => ⟨event, hevent, rfl, rfl⟩⟩
  · refine ⟨fun d hd => List.mem_append_left _ hd, fun event hevent => ?_⟩
    refine ⟨_, List.mem_map_of_mem hevent, ?_⟩
    split_ifs
    · exact ⟨rfl, rfl⟩
    · exact ⟨rfl, rfl⟩

theorem marked_deliverAlerts (m : Monitor) (run : Conduct) (kept : List Kept) (alerts : List Alert)
    (h : MarkedDelivered w) : MarkedDelivered
        (deliverAlerts m run kept alerts w).2 := by
  unfold deliverAlerts
  have hmore : ∀ {delivery : Delivery} {event : EventRow}, event ∈ w.events → event.alerted = true →
      ∃ d ∈ w.delivered ++ [delivery], event.eventId ∈ d.alerts.map (·.eventId) := by
    intro delivery event hevent hmarked
    obtain ⟨d, hd, hid⟩ := h event hevent hmarked
    exact ⟨d, List.mem_append_left _ hd, hid⟩
  split_ifs
  · exact h
  · exact h
  · exact fun event hevent hmarked => hmore hevent hmarked
  · intro event hevent hmarked
    obtain ⟨event', hevent', rfl⟩ := List.mem_map.mp hevent
    split_ifs at hmarked ⊢ with hid
    · exact ⟨_, List.mem_append_right _ (List.mem_singleton_self _), hid⟩
    · exact hmore hevent' hmarked

/-- What a run does is nothing, or adds events, or adds events and delivers alerts. -/
theorem runFor_induct (m : Monitor) (w : AlertWorld) (run : Conduct) {P : AlertWorld → Prop}
    (hsame : ∀ w', w'.delivered = w.delivered → w'.events = w.events → P w')
    (hadd : ∀ kept w', w'.delivered = w.delivered → w'.events = (addEvents run 0 w.events kept).2 → P w')
    (hdeliver : ∀ kept alerts w', w'.delivered = w.delivered →
      w'.events = (addEvents run 0 w.events kept).2 → P (deliverAlerts m run kept alerts w').2) :
    P (runFor m w run).2 := by
  unfold runFor
  split
  · exact hsame _ rfl rfl
  split
  · exact hsame _ rfl rfl
  · dsimp only
    split
    · rename_i kept hkept hcollect
      unfold reportKept
      split
      · rename_i events hadded
        exact hadd kept _ rfl (congrArg Prod.snd hadded).symm
      · rename_i alerts events hadded
        split
        · exact hadd kept _ rfl (congrArg Prod.snd hadded).symm
        · exact hdeliver kept alerts _ rfl (congrArg Prod.snd hadded).symm
    · exact hsame _ rfl rfl

theorem lasts_runFor (m : Monitor) (w : AlertWorld) (run : Conduct) : Lasts w (runFor m w run).2 := by
  apply runFor_induct
  · exact fun w' hdelivered hevents =>
      ⟨fun d hd => hdelivered ▸ hd, fun event hevent => ⟨event, hevents ▸ hevent, rfl, rfl⟩⟩
  · exact fun kept w' hdelivered hevents => lasts_addEvents run kept w w' hdelivered hevents
  · exact fun kept alerts w' hdelivered hevents =>
      (lasts_addEvents run kept w w' hdelivered hevents).trans (lasts_deliverAlerts m run kept alerts w')

theorem marked_runFor (m : Monitor) (run : Conduct) (h : MarkedDelivered w) :
    MarkedDelivered (runFor m w run).2 := by
  apply runFor_induct
  · intro w' hdelivered hevents event hevent hmarked
    rw [hdelivered]
    exact h event (hevents ▸ hevent) hmarked
  · exact fun kept w' hdelivered hevents => marked_addEvents run kept h hdelivered hevents
  · exact fun kept alerts w' hdelivered hevents =>
      marked_deliverAlerts m run kept alerts (marked_addEvents run kept h hdelivered hevents)

/-! ## A run in which no step fails -/

/-- What is kept for the first time is new, whatever was stored, and it was kept as it was read. -/
theorem new_of_neverKept {before : Option DocumentRow} (hnever : neverKept before = true)
    (hkept : keptNow before call = true) : (observe before call).1 = .new ∧ call.item.status =
        .kept := by
  rcases before with _ | existing
  · exact ⟨rfl, of_decide_eq_true hkept⟩
  · obtain ⟨hstatus, hfirst⟩ := of_decide_eq_true hnever
    have hsettled : (settled existing call.item).status = .kept := of_decide_eq_true hkept
    refine ⟨if_pos ⟨hsettled, hstatus, hfirst⟩, ?_⟩
    by_cases hrich : existing.extracted = true ∧ call.item.extracted = false
    · rw [settled_snippet hrich.1 hrich.2] at hsettled
      exact absurd hsettled hstatus
    · rw [settled, if_neg (fun h => hstatus h.1), richer_other hrich] at hsettled
      exact hsettled

theorem ids_upsert {db db' : InternetDocuments} {out : String × Outcome}
    (h : db.upsertDocument call = .ok (out, db'))
        (hid : id ∈ db'.rows.map (·.documentId)) :
    id ∈ db.rows.map (·.documentId) ∨ id = call.documentId := by
  unfold InternetDocuments.upsertDocument at h
  split at h
  · split_ifs at h
    obtain ⟨-, rfl⟩ := Prod.mk.inj (Except.ok.inj h)
    rw [List.map_append, List.mem_append] at hid
    exact hid.imp_right List.mem_singleton.mp
  · obtain ⟨-, rfl⟩ := Prod.mk.inj (Except.ok.inj h)
    rw [map_updateIf] at hid
    · exact .inl hid
    · exact fun _ => rfl

theorem exists_upsert (db : InternetDocuments)
    (h : call.documentId ∉ db.rows.map (·.documentId)) : ∃ out db', db.upsertDocument call =
        .ok (out, db') := by
  unfold InternetDocuments.upsertDocument
  split
  · exact ⟨_, _, dif_neg h⟩
  · exact ⟨_, _, rfl⟩

theorem collectPages_some (institutionId : String) {db : InternetDocuments} {pages : List Page}
    (hdistinct : (pages.map (·.documentId)).Nodup)
    (hnew : ∀ page ∈ pages, page.documentId ∉ db.rows.map (·.documentId)) :
    ∃ kept, (collectPages institutionId db pages).1 = some kept ∧ kept.length ≤ pages.length := by
  induction pages generalizing db with
  | nil => exact ⟨[], rfl, le_rfl⟩
  | cons page pages ih =>
    obtain ⟨hother, hdistinct⟩ := List.nodup_cons.mp hdistinct
    have hthisNew : (page.call institutionId).documentId ∉ db.rows.map (·.documentId) :=
      hnew page List.mem_cons_self
    obtain ⟨out, db', hupsert⟩ := exists_upsert db hthisNew
    have hlaterNew : ∀ later ∈ pages, later.documentId ∉ db'.rows.map (·.documentId) := by
      intro later hlater hid
      rcases ids_upsert hupsert hid with hold | hthis
      · exact hnew later (List.mem_cons_of_mem _ hlater) hold
      · exact hother (List.mem_map.mpr ⟨later, hlater, hthis⟩)
    obtain ⟨kept, hkept, hlength⟩ := ih hdistinct hlaterNew
    rw [collectPages, hupsert]
    refine ⟨_, congrArg (Option.map _) hkept, ?_⟩
    dsimp only
    split_ifs
    · exact Nat.succ_le_succ hlength
    · exact hlength.trans (Nat.le_succ _)

theorem exists_kept (institutionId : String) {db : InternetDocuments} {pages : List Page}
    (h : (collectPages institutionId db pages).1 = some kept)
    (hid : id ∈ firstKept institutionId db pages) :
    ∃ record ∈ kept, record.documentId = id ∧ record.change = .new ∧ record.page.importance = .high := by
  induction pages generalizing db kept with
  | nil => cases hid
  | cons page pages ih =>
    rw [firstKept] at hid
    rw [collectPages] at h
    rcases hupsert : db.upsertDocument (page.call institutionId) with error | ⟨out, db'⟩
    · rw [hupsert] at hid
      cases hid
    rw [hupsert] at h hid
    obtain ⟨rest, hrest, rfl⟩ := Option.map_eq_some_iff.mp h
    rcases List.mem_append.mp hid with hhere | hlater
    · split_ifs at hhere with hfirst
      · obtain ⟨hhigh, hnever, hkept⟩ := hfirst
        obtain ⟨hnew, hstatus⟩ := new_of_neverKept hnever hkept
        refine ⟨⟨page, out.1, out.2⟩, ?_, (List.mem_singleton.mp hhere).symm, ?_, hhigh⟩
        · rw [if_pos (show page.item.status = .kept from hstatus)]
          exact List.mem_cons_self
        · exact (find_upsert hupsert).1.trans hnew
      · cases hhere
    · obtain ⟨record, hrecord, hrest⟩ := ih hrest hlater
      refine ⟨record, ?_, hrest⟩
      split_ifs
      · exact List.mem_cons_of_mem _ hrecord
      · exact hrecord

/-- Events with new ids are all added, and each important one that is no duplicate is to be alerted. -/
theorem addEvents_some {bound : Nat} (hadds : ∀ n < bound, run.eventFails n = false)
    (hdistinct : ∀ n < bound, ∀ k < n, run.eventId k ≠ run.eventId n) {n : Nat} {events : List EventRow}
    (hnew : ∀ k < bound, n ≤ k → run.eventId k ∉ events.map (·.eventId))
    (hbound : n + kept.length ≤ bound) :
    ∃ alerts, (addEvents run n events kept).1 = some alerts ∧
      ∀ record ∈ kept, record.change ≠ .duplicate → record.page.importance = .high →
        ∃ alert ∈ alerts, ∃ event ∈ (addEvents run n events kept).2,
          event.eventId = alert.eventId ∧ event.documentId = record.documentId := by
  induction kept generalizing n events with
  | nil => exact ⟨[], rfl, fun _ hrecord => by cases hrecord⟩
  | cons record records ih =>
    rw [List.length_cons] at hbound
    by_cases hduplicate : record.change = .duplicate
    · obtain ⟨alerts, halerts, hall⟩ := ih hnew (by omega)
      have hsame : addEvents run n events (record :: records) = addEvents run n events records :=
        if_pos hduplicate
      rw [hsame]
      refine ⟨alerts, halerts, fun other hother hnot => ?_⟩
      rcases List.mem_cons.mp hother with rfl | hother
      · exact absurd hduplicate hnot
      · exact hall other hother hnot
    have hfree : ¬(run.eventFails n || events.any (·.eventId = run.eventId n)) = true := by
      rw [hadds n (by omega), Bool.false_or, List.any_eq_true]
      rintro ⟨event, hevent, hid⟩
      exact hnew n (by omega) le_rfl (List.mem_map.mpr ⟨event, hevent, of_decide_eq_true hid⟩)
    have hlaterNew : ∀ k < bound, n + 1 ≤ k →
        run.eventId k ∉ (events ++ [run.event n record]).map (·.eventId) := by
      intro k hk hlater hmem
      rw [List.map_append, List.mem_append] at hmem
      rcases hmem with hold | hthis
      · exact hnew k hk (by omega) hold
      · exact hdistinct k hk n (by omega) (List.mem_singleton.mp hthis).symm
    obtain ⟨alerts, halerts, hall⟩ := ih hlaterNew (by omega)
    rw [addEvents, if_neg hduplicate, if_neg hfree]
    refine ⟨_, congrArg (Option.map _) halerts, fun other hother hnot hhigh => ?_⟩
    rcases List.mem_cons.mp hother with rfl | hother
    · dsimp only
      rw [if_pos hhigh]
      exact ⟨_, List.mem_cons_self, run.event n other,
        (mem_addEvents run).1 (List.mem_append_right _ (List.mem_singleton_self _)), rfl, rfl⟩
    · obtain ⟨alert, halert, hevent⟩ := hall other hother hnot hhigh
      refine ⟨alert, ?_, hevent⟩
      split_ifs
      · exact List.mem_cons_of_mem _ halert
      · exact halert

theorem contained_deliverAlerts (kept : List Kept) {alerts : List Alert}
    (hrecipients : m.alertRecipients ≠ []) (hdelivers : run.deliveryFails = false)
    {alert : Alert} (halert : alert ∈ alerts) {event : EventRow} (hevent : event ∈ w.events)
    (hsame : event.eventId = alert.eventId) :
    Contained (deliverAlerts m run kept alerts w).2 event.documentId := by
  have halerts : ¬(alerts = [] ∨ m.alertRecipients = []) :=
    not_or.mpr ⟨List.ne_nil_of_mem halert, hrecipients⟩
  obtain ⟨event', hevent', hid, hdocument⟩ :=
    (lasts_deliverAlerts m run kept alerts w).events event hevent
  refine ⟨⟨m.institutionId, m.alertRecipients, m.name, alerts⟩, ?_, alert, halert, event', hevent',
    hid.trans hsame, hdocument⟩
  rw [deliverAlerts, if_neg halerts, if_neg (Bool.eq_false_iff.mp hdelivers)]
  dsimp only
  split_ifs
  · exact List.mem_append_right _ (List.mem_singleton_self _)
  · exact List.mem_append_right _ (List.mem_singleton_self _)

/-- Such a run alerts what it keeps for the first time. -/
theorem contained_of_smooth (hrecipients : m.alertRecipients ≠ [])
    (h : Smooth w run) (hstarts : ¬(run.startFails ∨ inProgress (m.otherRuns w run)))
    (hid : id ∈ firstKept m.institutionId w.documents run.pages) : Contained (runFor m w run).2 id := by
  obtain ⟨kept, hkept, hlength⟩ := collectPages_some m.institutionId h.newDocuments.1 h.newDocuments.2
  obtain ⟨record, hrecord, rfl, hnew, hhigh⟩ := exists_kept m.institutionId hkept hid
  obtain ⟨alerts, halerts, hall⟩ := addEvents_some h.adds (fun n hn => (h.newEvents n hn).2) (n := 0)
    (fun n hn _ => (h.newEvents n hn).1) (show 0 + kept.length ≤ _ by rwa [Nat.zero_add])
  obtain ⟨alert, halert, event, hevent, hsame, hdocument⟩ :=
    hall record hrecord (fun hduplicate => by rw [hnew] at hduplicate; cases hduplicate) hhigh
  obtain ⟨hstart, hfree⟩ := not_or.mp hstarts
  unfold runFor
  rw [if_neg hstart, if_neg hfree]
  dsimp only
  rw [hkept, h.collects]
  show Contained (reportKept m run kept _).2 _
  have hadded : addEvents run 0 w.events kept = (some alerts, (addEvents run 0 w.events kept).2) :=
    Prod.ext halerts rfl
  rw [reportKept]
  dsimp only
  rw [hadded, ← hdocument]
  dsimp only
  rw [if_neg (Bool.eq_false_iff.mp h.finishes)]
  exact contained_deliverAlerts kept hrecipients h.delivers halert hevent hsame

/-! ## Every history -/

theorem trace_split {earlier later : List Step} {s : Step} (h : trace m w runs = earlier ++ s :: later) :
    s.after = (runFor m s.before s.run).2 ∧ ∃ rest, later = trace m s.after rest := by
  induction runs generalizing w earlier with
  | nil => exact absurd h.symm (List.append_ne_nil_of_right_ne_nil _ (List.cons_ne_nil _ _))
  | cons run runs ih =>
    rw [trace] at h
    rcases earlier with _ | ⟨first, earlier⟩
    · obtain ⟨rfl, rfl⟩ := List.cons_eq_cons.mp h
      exact ⟨rfl, runs, rfl⟩
    · exact ih (List.cons_eq_cons.mp h).2

theorem lasts_trace {s : Step} (h : s ∈ trace m w runs) : Lasts w s.after := by
  induction runs generalizing w with
  | nil => cases h
  | cons run runs ih =>
    rcases List.mem_cons.mp h with rfl | hlater
    · exact lasts_runFor m w run
    · exact (lasts_runFor m w run).trans (ih hlater)

theorem marked_trace {s : Step} (h : s ∈ trace m w runs)
    (hw : MarkedDelivered w) : MarkedDelivered s.after := by
  induction runs generalizing w with
  | nil => cases h
  | cons run runs ih =>
    rcases List.mem_cons.mp h with rfl | hlater
    · exact marked_runFor m run hw
    · exact ih hlater (marked_runFor m run hw)

/-- The world of an institution before its first event. -/
def AlertWorld.start (documents : InternetDocuments) (runs : List RunRow) : AlertWorld :=
    ⟨documents, [], runs, []⟩

/-- **Important mentions are alerted**, as long as no run that keeps one for the first time fails on its
way to the delivery; whatever fails, only what was delivered is marked as alerted. -/
theorem alerted_in_time (m : Monitor) (documents : InternetDocuments) (stored : List RunRow)
    (runs : List Conduct)
    (hrecipients : m.alertRecipients ≠ [])
    (hsmooth : ∀ s ∈ trace m (.start documents stored) runs, s.firstKept m ≠ [] →
        Smooth s.before s.run) :
    AlertedInTime m (trace m (.start documents stored) runs) ∧
      ∀ s ∈ trace m (.start documents stored) runs, MarkedDelivered s.after := by
  refine ⟨?_, fun s hs => marked_trace hs fun event hevent => by cases hevent⟩
  intro earlier first later hsplit id hid last hlast
  have hfirst : first ∈ trace m (.start documents stored) runs := by
    rw [hsplit]
    exact List.mem_append_right _ List.mem_cons_self
  obtain ⟨hafter, rest, hlater⟩ := trace_split hsplit
  have hcontained : Contained first.after id := by
    have hrun := hsmooth first hfirst (List.ne_nil_of_mem hid)
    rw [Step.firstKept] at hid
    split_ifs at hid with hstarts
    · cases hid
    · rw [hafter]
      exact contained_of_smooth hrecipients hrun hstarts hid
  rcases List.mem_cons.mp (List.mem_of_find?_eq_some hlast) with rfl | hmem
  · exact hcontained
  · rw [hlater] at hmem
    exact (lasts_trace hmem).contained hcontained

/-- The monitor of a college that has someone to alert. -/
def collegeMonitor : Monitor := ⟨"college_a", "College A", ["principal"], 1800⟩

def rankingPage : Page where
  item := ⟨"https://news.example/a", "https://news.example/a", "news.example", "news", "Title", "Text",
    "a", none, none, none, "high", 1, [], 1, ["ranking"], .kept, true, [], none, none, [], none, none⟩
  sourceLabel := "News"
  stamp := anyStamp
  documentId := "idoc-1"

def plainRun (runId : Nat) (pages : List Page) : Conduct where
  now := 0
  runId := runId
  pages := pages
  startFails := false
  collectFails := false
  eventId n := if n = 0 then "mevt-1" else "mevt-2"
  eventFails _ := false
  finishFails := false
  deliveryFails := false
  markFails := false

/-- A run that reads nothing and fails, and one that alerts the story. -/
def soundRuns : List Conduct := [{ plainRun 1 [] with collectFails := true }, plainRun 2 [rankingPage]]

theorem alerted_in_time_ranking :
    AlertedInTime collegeMonitor (trace collegeMonitor (.start .empty []) soundRuns) ∧
      ∀ s ∈ trace collegeMonitor (.start .empty []) soundRuns, MarkedDelivered s.after := by
  refine alerted_in_time collegeMonitor .empty [] soundRuns (by decide) fun s hs hfirst => ?_
  rcases List.mem_cons.mp hs with rfl | hs
  · exact absurd rfl hfirst
  obtain rfl := List.mem_singleton.mp hs
  refine ⟨rfl, ?_, fun _ _ => rfl, ?_, rfl, rfl⟩
  · exact ⟨by decide, fun _ _ h => by cases h⟩
  · intro n hn
    obtain rfl : n = 0 := Nat.lt_one_iff.mp hn
    exact ⟨fun h => (by cases h), fun k hk => absurd hk (Nat.not_lt_zero k)⟩

/-- The delivery fails, and the next run reads the same story. -/
def lostRuns : List Conduct :=
  [{ plainRun 1 [rankingPage] with deliveryFails := true }, plainRun 2 [rankingPage]]

theorem not_alertedInTime {first second : Step} (id : String) (hid : id ∈ first.firstKept m)
    (hfails : first.completesKeeping id = false) (hcompletes : second.completesKeeping id = true)
    (hnone : second.after.delivered = []) : ¬ AlertedInTime m [first, second] := by
  intro h
  obtain ⟨d, hd, -⟩ := h [] first [second] rfl id hid second (by
    rw [List.find?_cons_of_neg (Bool.eq_false_iff.mp hfails), List.find?_cons_of_pos hcompletes])
  rw [hnone] at hd
  cases hd

/-- The next run completes and keeps the story, which it takes for reported. -/
theorem mention_lost : ¬ AlertedInTime collegeMonitor
    (trace collegeMonitor (.start .empty []) lostRuns) := by
  refine not_alertedInTime "idoc-1" ?_ ?_ ?_ ?_
  · decide
  · decide
  · decide
  · exact List.length_eq_zero_iff.mp (by decide)

end GuruJi.Monitoring
