import GuruJi.Auth.Principals
import GuruJi.Control.Limits

/-!
# The voice session manager

`VoiceSessionManager` over a control store that any number of tasks share. `_create` is four kinds of
store calls: it lists the person's live sessions, closes the oldest of them, counts all live sessions and
creates one; claims and closes come between. A time is a number of microseconds; each turn of a call is
taken at a time.

* **`limits_hold`**: no more than `max_active` sessions are live, and no more than `max_per_person` of
  one person, in every run in which the time does not go back, no session is created while another
  creation is between its listing and its end, and no claim is written after the ticket has run out;
* `limits_exceeded`: two creations at once.
-/

namespace GuruJi.Voice

open GuruJi.Lib GuruJi.Auth GuruJi.Control Machine

/-- `VoiceSessionManager`, whose limits are positive. -/
structure VoiceSessionManager where
  ttlSeconds : Nat
  maxActive : Nat
  ticketTtlSeconds : Nat
  maxPerPerson : Nat
  ttl : 0 < ttlSeconds
  active : 0 < maxActive
  ticketTtl : 0 < ticketTtlSeconds ∧ ticketTtlSeconds ≤ ttlSeconds
  perPerson : 0 < maxPerPerson

/-- What `_create` may raise. -/
inductive VoiceError where
  | permissionError (message : String)
  | voiceScopeError (message : String)
  | runtimeError (message : String)
  | valueError
  | store (error : StoreError)
  deriving DecidableEq

/-- `VoiceSessionManager(...)`. -/
def voiceSessionManager (ttlSeconds maxActive ticketTtlSeconds maxPerPerson : Int) :
    Except String VoiceSessionManager :=
  if h : 0 < ttlSeconds ∧ 0 < maxActive ∧ 0 < ticketTtlSeconds ∧ 0 < maxPerPerson then
    .ok ⟨ttlSeconds.toNat, maxActive.toNat, (min ticketTtlSeconds ttlSeconds).toNat, maxPerPerson.toNat,
      by omega, by omega, by omega, by omega⟩
  else .error "voice limits must be positive"

variable {u : Language}

/-- `principal_snapshot` with the scope, as a text, and the digest of a ticket. -/
structure VoiceEnv (u : Language) where
  snapshot : Principal u → InstitutionScope u → String
  digest : String → String

/-- The calls of the API. -/
inductive Request (u : Language) where
  | create (principal : Principal u) (institutionScope : Option (InstitutionScope u))
  | claimTransport (sessionId transportTicket : String)
  | releaseTransport (sessionId : String)
  | close (sessionId principalId : String)

/-- The scope of a session that is being opened, and the time of the opening. -/
structure Opening (u : Language) where
  scope : InstitutionScope u
  now : Int

inductive Answer where
  | opened (session : VoiceSession Int) (transportTicket : String)
  | claimed (session : Option (VoiceSession Int))
  | closed (done : Bool)
  | raised (error : VoiceError)
  deriving DecidableEq

/-- How far a call is. -/
inductive Progress (u : Language) where
  | ready
  | listing (opening : Opening u)
  | closing (opening : Opening u) (stale : List String)
  | inserting (opening : Opening u)
  | writing (now : Int)
  | returned (answer : Answer)

/-- What is open about a turn: its time, the next random texts, and what the store leaves open. -/
structure Choice (Ω : Type) where
  now : Int
  sessionId : String
  transportTicket : String
  store : Ω

/-- The store, and the time of the last turn. -/
structure Shared (D : Type) where
  store : D
  clock : Int

namespace VoiceSessionManager
variable (manager : VoiceSessionManager) (env : VoiceEnv u) {D Ω : Type} (backing : Backing Int D Ω)

/-- `_default_scope`. -/
def defaultScope (principal : Principal u) : Option (InstitutionScope u) :=
  principal.scopes.head?.or (institutionScope u "college_a" none none)

/-- What `_create` checks before it looks at the sessions. -/
def requestedScope (principal : Principal u) (scope : Option (InstitutionScope u)) :
    Except VoiceError (InstitutionScope u) :=
  if !principal.authenticated || !principal.capabilities.contains .startVoiceSession then
    .error (.permissionError "voice:start capability is required")
  else match scope.or (defaultScope principal) with
    | none => .error .valueError
    | some scope =>
      if principal.canAccess scope then .ok scope
      else .error (.voiceScopeError "voice session scope is outside the authenticated institution scope")

def record (principal : Principal u) (opening : Opening u) (sessionId transportTicket : String) :
    VoiceSession Int where
  sessionId := sessionId
  principalId := principal.principalId
  institutionId := opening.scope.collegeId
  principalJson := env.snapshot principal opening.scope
  ticketSha256 := env.digest transportTicket
  createdAt := opening.now
  ticketExpiresAt := opening.now + manager.ticketTtlSeconds * 1000000
  expiresAt := opening.now + manager.ttlSeconds * 1000000
  claimedAt := none
  closedAt := none

/-- The next turn of a call: one reading of the clock, or one call of the store. -/
def advance (choice : Choice Ω) (request : Request u) (progress : Progress u) (shared : Shared D) :
    Option (Progress u × Shared D) :=
  let call := backing.perform choice.store shared.store
  let leaving := fun (progress : Progress u) (db : D) => some (progress, Shared.mk db choice.now)
  match request, progress with
  | .create principal scope, .ready =>
    match requestedScope principal scope with
    | .error error => leaving (.returned (.raised error)) shared.store
    | .ok scope => leaving (.listing ⟨scope, choice.now⟩) shared.store
  | .create principal _, .listing opening =>
    let out := call (.activeVoiceSessions opening.now (some principal.principalId))
    match out.1 with
    | .sessions own =>
      let stale := (own.take (own.length + 1 - manager.maxPerPerson)).map (·.sessionId)
      leaving (.closing opening stale) out.2
    | _ => none
  | .create principal _, .closing opening (sessionId :: stale) =>
    let out := call (.closeVoiceSession sessionId (some principal.principalId) opening.now)
    leaving (.closing opening stale) out.2
  | .create _ _, .closing opening [] =>
    let out := call (.activeVoiceSessions opening.now none)
    match out.1 with
    | .sessions rows =>
      if manager.maxActive ≤ rows.length then
        leaving (.returned (.raised (.runtimeError "live voice session limit reached"))) out.2
      else leaving (.inserting opening) out.2
    | _ => none
  | .create principal _, .inserting opening =>
    let session := manager.record env principal opening choice.sessionId choice.transportTicket
    let out := call (.createVoiceSession session)
    match out.1 with
    | .refused error => leaving (.returned (.raised (.store error))) out.2
    | _ => leaving (.returned (.opened session choice.transportTicket)) out.2
  | .claimTransport _ transportTicket, .ready =>
    if transportTicket = "" then leaving (.returned (.claimed none)) shared.store
    else leaving (.writing choice.now) shared.store
  | .claimTransport sessionId transportTicket, .writing now =>
    let out := call (.claimVoiceSession sessionId (env.digest transportTicket) now)
    match out.1 with
    | .session row => leaving (.returned (.claimed row)) out.2
    | _ => none
  | .releaseTransport _, .ready | .close _ _, .ready => leaving (.writing choice.now) shared.store
  | .releaseTransport sessionId, .writing now =>
    let out := call (.closeVoiceSession sessionId none now)
    match out.1 with
    | .flag done => leaving (.returned (.closed done)) out.2
    | _ => none
  | .close sessionId principalId, .writing now =>
    let out := call (.closeVoiceSession sessionId (some principalId) now)
    match out.1 with
    | .flag done => leaving (.returned (.closed done)) out.2
    | _ => none
  | _, _ => none

def tasks : Machine (Pool (Shared D) (Request u) (Progress u)) (Turn (Request u) (Choice Ω)) :=
  interleaved .ready (manager.advance env backing)

def Within (shared : Shared D) : Prop :=
  ((backing.view shared.store).activeVoiceSessions shared.clock none).length ≤ manager.maxActive ∧
    ∀ principalId, ((backing.view shared.store).activeVoiceSessions shared.clock
      (some principalId)).length ≤ manager.maxPerPerson

end VoiceSessionManager

/-- A creation that has listed the person's sessions, and has not ended. -/
def isOpening : Request u × Progress u → Bool
  | (.create _ _, .closing _ _) | (.create _ _, .inserting _) => true
  | _ => false

/-- The time does not go back, no session is created while another creation is between its listing and
its end, and no claim is written after the ticket has run out. -/
def undisturbed {D Ω : Type} (env : VoiceEnv u) (backing : Backing Int D Ω)
    (pool : Pool (Shared D) (Request u) (Progress u)) : Turn (Request u) (Choice Ω) → Bool
  | .start _ => true
  | .advance i choice =>
    decide (pool.db.clock ≤ choice.now) &&
      match pool.calls[i]? with
      | some (.create _ _, .inserting _) => (pool.calls.eraseIdx i).all fun call => !isOpening call
      | some (.claimTransport sessionId ticket, .writing now) =>
        claimsInTime (backing.view pool.db.store) choice.now
          (.claimVoiceSession sessionId (env.digest ticket) now)
      | _ => true

/-! ## What a turn does -/

def writeOf (env : VoiceEnv u) (now : Int) : Request u → Option (Operation Int)
  | .create _ _ => none
  | .claimTransport sessionId ticket => some (.claimVoiceSession sessionId (env.digest ticket) now)
  | .releaseTransport sessionId => some (.closeVoiceSession sessionId none now)
  | .close sessionId principalId => some (.closeVoiceSession sessionId (some principalId) now)

/-- What a turn of a call does to the sessions, which are `memory`. -/
inductive Moves (manager : VoiceSessionManager) (env : VoiceEnv u) (now : Int)
    (memory : InMemoryControlStore Int) :
    Request u → Progress u → Progress u → InMemoryControlStore Int → Prop
  | begins {request : Request u} {progress : Progress u} (hquiet : isOpening (request, progress) = false)
      (htime : ∀ opening, progress = .listing opening → opening.now = now) :
    Moves manager env now memory request .ready progress memory
  | lists {principal : Principal u} {scope : Option (InstitutionScope u)} {opening : Opening u}
      {own : List (VoiceSession Int)}
      (hown : (memory.activeVoiceSessions opening.now (some principal.principalId)).Perm own) :
    Moves manager env now memory (.create principal scope) (.listing opening)
      (.closing opening ((own.take (own.length + 1 - manager.maxPerPerson)).map (·.sessionId))) memory
  | closes {principal : Principal u} {scope : Option (InstitutionScope u)} {opening : Opening u}
      {sessionId : String} {stale : List String} :
    Moves manager env now memory (.create principal scope) (.closing opening (sessionId :: stale))
      (.closing opening stale)
      (memory.perform (.closeVoiceSession sessionId (some principal.principalId) opening.now)).2
  | counts {principal : Principal u} {scope : Option (InstitutionScope u)} {opening : Opening u}
      (hfree : (memory.activeVoiceSessions opening.now none).length < manager.maxActive) :
    Moves manager env now memory (.create principal scope) (.closing opening [])
        (.inserting opening) memory
  | refuses {principal : Principal u} {scope : Option (InstitutionScope u)} {opening : Opening u}
      {answer : Answer} :
    Moves manager env now memory (.create principal scope) (.closing opening [])
        (.returned answer) memory
  | inserts {principal : Principal u} {scope : Option (InstitutionScope u)} {opening : Opening u}
      {session : VoiceSession Int} {answer : Answer}
          (hperson : session.principalId = principal.principalId) :
    Moves manager env now memory (.create principal scope) (.inserting opening) (.returned answer)
      (memory.perform (.createVoiceSession session)).2
  | writes {request : Request u} {stamp : Int} {op : Operation Int} {answer : Answer}
      (hop : writeOf env stamp request = some op) :
    Moves manager env now memory request (.writing stamp) (.returned answer) (memory.perform op).2

section
variable {manager : VoiceSessionManager} {env : VoiceEnv u} {D Ω : Type} {backing : Backing Int D Ω}

theorem perm_of_same {rows rows' : List (VoiceSession Int)}
    (h : Result.Same (.sessions rows) (.sessions rows')) : rows.Perm rows' := by
  cases h with
  | refl => exact List.Perm.refl _
  | sessions hperm => exact hperm

variable {memory memory' : InMemoryControlStore Int} {request : Request u} {clock clock' : Int}

theorem moves_of_leaving {progress before after : Progress u} {now : Int} {db : D} {shared : Shared D}
    (h : some (progress, Shared.mk db now) = some (after, shared)) (hview : backing.view db = memory')
    (hmoves : Moves manager env now memory request before progress memory') :
    shared.clock = now ∧ Moves manager env now memory request before after
    (backing.view shared.store) := by
  obtain ⟨rfl, rfl⟩ := Prod.mk.inj (Option.some.inj h)
  rw [← hview] at hmoves
  exact ⟨rfl, hmoves⟩

theorem moves_of_advance {choice : Choice Ω} {progress progress' : Progress u}
    {shared shared' : Shared D}
    (h : manager.advance env backing choice request progress shared = some (progress', shared')) :
    shared'.clock = choice.now ∧ Moves manager env choice.now
    (backing.view shared.store) request progress
      progress' (backing.view shared'.store) := by
  have hsame := backing.same choice.store shared.store
  have hleaves := backing.leaves choice.store shared.store
  rcases request with ⟨principal, scope⟩ | ⟨sessionId, ticket⟩ | sessionId | ⟨sessionId, principalId⟩
  · rcases progress with _ | opening | ⟨opening, _ | ⟨sessionId, stale⟩⟩ | opening | stamp | answer
    · simp only [VoiceSessionManager.advance] at h
      split at h
      · exact moves_of_leaving h rfl (.begins rfl fun _ h => by cases h)
      · exact moves_of_leaving h rfl (.begins rfl fun _ h => by cases h; rfl)
    · have hrows := hsame (.activeVoiceSessions opening.now (some principal.principalId))
      simp only [VoiceSessionManager.advance] at h
      split at h
      · rename_i own hown
        rw [hown] at hrows
        exact moves_of_leaving h (hleaves _) (.lists (perm_of_same hrows))
      · cases h
    · have hrows := hsame (.activeVoiceSessions opening.now none)
      simp only [VoiceSessionManager.advance] at h
      split at h
      · rename_i rows hown
        rw [hown] at hrows
        split_ifs at h with hfull
        · exact moves_of_leaving h (hleaves _) .refuses
        · refine moves_of_leaving h (hleaves _) (.counts ?_)
          rw [(perm_of_same hrows).length_eq]
          exact not_le.mp hfull
      · cases h
    · exact moves_of_leaving h (hleaves _) .closes
    · simp only [VoiceSessionManager.advance] at h
      split at h
      · exact moves_of_leaving h (hleaves _) (.inserts rfl)
      · exact moves_of_leaving h (hleaves _) (.inserts rfl)
    · cases h
    · cases h
  · rcases progress with _ | opening | ⟨opening, stale⟩ | opening | stamp | answer
    · simp only [VoiceSessionManager.advance] at h
      split_ifs at h
      · exact moves_of_leaving h rfl (.begins rfl fun _ h => by cases h)
      · exact moves_of_leaving h rfl (.begins rfl fun _ h => by cases h)
    · cases h
    · cases h
    · cases h
    · simp only [VoiceSessionManager.advance] at h
      split at h
      · exact moves_of_leaving h (hleaves _) (.writes rfl)
      · cases h
    · cases h
  all_goals
    rcases progress with _ | opening | ⟨opening, stale⟩ | opening | stamp | answer
    · exact moves_of_leaving h rfl (.begins rfl fun _ h => by cases h)
    · cases h
    · cases h
    · cases h
    · simp only [VoiceSessionManager.advance] at h
      split at h
      · exact moves_of_leaving h (hleaves _) (.writes rfl)
      · cases h
    · cases h

/-! ## What the calls know -/

/-- What a call knows of the sessions, while no session is created. -/
def Knows (manager : VoiceSessionManager) (memory : InMemoryControlStore Int) (clock : Int) :
    Request u × Progress u → Prop
  | (.create _ _, .listing opening) => opening.now ≤ clock
  | (.create principal _, .closing opening stale) => opening.now ≤ clock ∧
    live memory opening.now (kept principal.principalId stale) < manager.maxPerPerson
  | (.create principal _, .inserting opening) => opening.now ≤ clock ∧
    live memory opening.now (fun _ _ => true) < manager.maxActive ∧
      live memory opening.now (kept principal.principalId []) < manager.maxPerPerson
  | _ => True

/-- The limits hold at `clock`. -/
structure Fits (manager : VoiceSessionManager) (memory : InMemoryControlStore Int) (clock : Int) :
    Prop where
  all : live memory clock (fun _ _ => true) ≤ manager.maxActive
  each : ∀ person, live memory clock (kept person []) ≤ manager.maxPerPerson

theorem knows_of_not_opening {memory : InMemoryControlStore Int} {clock : Int}
    {call : Request u × Progress u}
    (h : isOpening call = false)
    (htime : ∀ principal scope opening, call = (.create principal scope, .listing opening) →
      opening.now ≤ clock) : Knows manager memory clock call := by
  obtain ⟨request, progress⟩ := call
  cases request <;> cases progress <;> first
    | trivial
    | exact htime _ _ _ rfl

theorem Knows.mono
    {call : Request u × Progress u} (h : Knows manager memory clock call) (hle : clock ≤ clock')
    (hlive : ∀ now q, now ≤ clock' → live memory' now q ≤ live memory now q) :
    Knows manager memory' clock' call := by
  obtain ⟨request, progress⟩ := call
  rcases request with ⟨principal, scope⟩ | _ | _ | _
  · cases progress with
    | listing opening => exact le_trans (show opening.now ≤ clock from h) hle
    | closing opening stale =>
      obtain ⟨htime, hperson⟩ := h
      exact ⟨htime.trans hle, (hlive _ _ (htime.trans hle)).trans_lt hperson⟩
    | inserting opening =>
      obtain ⟨htime, hall, hperson⟩ := h
      exact ⟨htime.trans hle, (hlive _ _ (htime.trans hle)).trans_lt hall,
        (hlive _ _ (htime.trans hle)).trans_lt hperson⟩
    | _ => trivial
  all_goals trivial

theorem Fits.mono (h : Fits manager memory clock) (hle : clock ≤ clock')
    (hlive : ∀ now q, now ≤ clock' → live memory' now q ≤ live memory now q) :
        Fits manager memory' clock' where
  all := (hlive _ _ le_rfl).trans ((live_antitone _ _ hle).trans h.all)
  each person := (hlive _ _ le_rfl).trans ((live_antitone _ _ hle).trans (h.each person))

theorem Fits.insert {memory : InMemoryControlStore Int} {principal : Principal u}
    {scope : Option (InstitutionScope u)} {opening : Opening u} {session : VoiceSession Int}
    (h : Fits manager memory clock) (hle : clock ≤ clock')
    (hknows : Knows manager memory clock (.create principal scope, .inserting opening))
    (hperson : session.principalId = principal.principalId) :
    Fits manager (memory.perform (.createVoiceSession session)).2 clock' := by
  obtain ⟨htime, hall, hown⟩ := hknows
  have hcreate : ∀ now q, live (memory.perform (.createVoiceSession session)).2 now q ≤
      live memory now q + if q session.sessionId session.principalId then 1 else 0 :=
    fun now q => live_create_le session
  have hlater : ∀ q, live (memory.perform (.createVoiceSession session)).2 clock' q ≤
      live (memory.perform (.createVoiceSession session)).2 opening.now q :=
    fun q => live_antitone _ q (htime.trans hle)
  refine ⟨?_, fun person => ?_⟩
  · have hnew := hcreate opening.now fun _ _ => true
    have hthen := hlater fun _ _ => true
    rw [if_pos rfl] at hnew
    omega
  · by_cases hsame : person = principal.principalId
    · have hnew := hcreate opening.now (kept person [])
      have hthen := hlater (kept person [])
      rw [hsame] at hnew hthen ⊢
      split_ifs at hnew <;> omega
    · have hnew := hcreate clock' (kept person [])
      have hold := live_antitone memory (kept person []) hle
      have hother : kept person [] session.sessionId session.principalId = false := by
        simp [kept, hperson, Ne.symm hsame]
      rw [hother, if_neg Bool.false_ne_true] at hnew
      have heach := h.each person
      omega

/-! ## The limits hold -/

/-- The invariant of the runs. -/
structure Sound (manager : VoiceSessionManager) (backing : Backing Int D Ω)
    (pool : Pool (Shared D) (Request u) (Progress u)) : Prop where
  fits : Fits manager (backing.view pool.db.store) pool.db.clock
  knows : ∀ call ∈ pool.calls, Knows manager (backing.view pool.db.store) pool.db.clock call

theorem within_iff_fits {shared : Shared D} :
    manager.Within backing shared ↔ Fits manager (backing.view shared.store) shared.clock := by
  have heach : ∀ person, (fun _ other => (some person).isNone || decide (some person = some other)) =
      kept person [] := by
    intro person
    funext id other
    simp [kept, eq_comm]
  unfold VoiceSessionManager.Within
  simp only [length_activeVoiceSessions, heach]
  exact ⟨fun h => ⟨h.1, h.2⟩, fun h => ⟨h.all, h.each⟩⟩

theorem mem_set_cases {α : Type*} {l : List α} {i : Nat} {a x : α} (h : x ∈ l.set i a) :
    x = a ∨ x ∈ l.eraseIdx i := by
  obtain ⟨j, hj⟩ := List.mem_iff_getElem?.mp h
  by_cases hji : j = i
  · subst hji
    rw [List.getElem?_set_self (by simpa using (List.getElem?_eq_some_iff.mp hj).1),
      Option.some.injEq] at hj
    exact .inl hj.symm
  · rw [List.getElem?_set_ne (Ne.symm hji)] at hj
    exact .inr (List.mem_eraseIdx_iff_getElem?.mpr ⟨j, hji, hj⟩)

theorem sound_of_moves {pool : Pool (Shared D) (Request u) (Progress u)} {i : Nat} {choice : Choice Ω}
    {progress progress' : Progress u} {shared' : Shared D}
    (h : Sound manager backing pool) (hok : undisturbed env backing pool (.advance i choice) = true)
    (hcall : pool.calls[i]? = some (request, progress)) (hclock : shared'.clock = choice.now)
    (hmoves : Moves manager env choice.now (backing.view pool.db.store) request progress progress'
      (backing.view shared'.store)) :
    Sound manager backing ⟨shared', pool.calls.set i (request, progress')⟩ := by
  rw [undisturbed, hcall, Bool.and_eq_true, decide_eq_true_eq] at hok
  obtain ⟨hle, hguard⟩ := hok
  have hown := h.knows _ (List.mem_of_getElem? hcall)
  have hothers : ∀ call ∈ pool.calls.eraseIdx i,
    Knows manager (backing.view pool.db.store) pool.db.clock call :=
    fun call hmem => h.knows call (List.mem_of_mem_eraseIdx hmem)
  -- when sessions only cease to be live, the others go on to know what they did
  have hquiet : (∀ now q, now ≤ shared'.clock →
        live (backing.view shared'.store) now q ≤ live (backing.view pool.db.store) now q) →
      Knows manager (backing.view shared'.store) shared'.clock (request, progress') →
      Sound manager backing ⟨shared', pool.calls.set i (request, progress')⟩ := by
    intro hlive hnext
    have hforward : pool.db.clock ≤ shared'.clock := hclock ▸ hle
    refine ⟨h.fits.mono hforward hlive, fun call hmem => ?_⟩
    rcases mem_set_cases hmem with rfl | hmem
    · exact hnext
    · exact (hothers call hmem).mono hforward hlive
  generalize hmemory : backing.view shared'.store = memory' at hmoves hquiet
  cases hmoves with
  | begins hnot htime =>
    exact hquiet (fun _ _ _ => le_rfl) (knows_of_not_opening hnot fun _ _ opening hlisting =>
      (htime opening (Prod.mk.inj hlisting).2).le.trans hclock.ge)
  | lists hperm =>
    refine hquiet (fun _ _ _ => le_rfl) ⟨(show _ ≤ _ from hown).trans (hclock ▸ hle), ?_⟩
    exact live_kept_lt (backing.named pool.db.store) hperm manager.perPerson
  | closes =>
    obtain ⟨htime, hperson⟩ := hown
    refine hquiet (fun now q hnow => live_perform_le (fun _ => rfl) rfl hnow)
      ⟨htime.trans (hclock ▸ hle), ?_⟩
    exact (live_close_le (backing.keyed pool.db.store) _).trans_lt hperson
  | counts hfree =>
    obtain ⟨htime, hperson⟩ := hown
    refine hquiet (fun _ _ _ => le_rfl) ⟨htime.trans (hclock ▸ hle), ?_, hperson⟩
    rw [length_activeVoiceSessions] at hfree
    exact hfree
  | refuses => exact hquiet (fun _ _ _ => le_rfl) trivial
  | @inserts principal scope opening session answer hperson =>
    refine ⟨?_, fun call hmem => ?_⟩
    · show Fits manager (backing.view shared'.store) shared'.clock
      rw [hmemory]
      exact h.fits.insert (hclock ▸ hle) hown hperson
    · rcases mem_set_cases hmem with rfl | hmem
      · trivial
      · have hquiet := List.all_eq_true.mp hguard call hmem
        rw [Bool.not_eq_true'] at hquiet
        refine knows_of_not_opening hquiet fun _ _ opening hlisting => ?_
        subst hlisting
        exact (show opening.now ≤ pool.db.clock from hothers _ hmem).trans (hclock ▸ hle)
  | @writes request stamp op answer hop =>
    have hcreate : ∀ id, createsSession id op = false := by
      cases request <;> cases hop <;> exact fun _ => rfl
    have htime : claimsInTime (backing.view pool.db.store) choice.now op = true := by
      cases request with
      | create => cases hop
      | claimTransport sessionId ticket => cases hop; exact hguard
      | releaseTransport sessionId => cases hop; rfl
      | close sessionId principalId => cases hop; rfl
    refine hquiet (fun now q hnow => live_perform_le hcreate htime (hnow.trans hclock.le)) ?_
    cases request <;> trivial

theorem sound_step {pool pool' : Pool (Shared D) (Request u) (Progress u)}
    {turn : Turn (Request u) (Choice Ω)}
    (h : Sound manager backing pool) (hok : undisturbed env backing pool turn = true)
    (hstep : (manager.tasks env backing).step pool turn = some pool') : Sound manager backing pool' := by
  rcases Pool.step_cases hstep with ⟨request, -, rfl⟩ |
    ⟨i, choice, request, progress, progress', shared', rfl, hcall, hadvance, rfl⟩
  · refine ⟨h.fits, fun call hmem => ?_⟩
    rcases List.mem_append.mp hmem with hmem | hmem
    · exact h.knows call hmem
    · rw [List.mem_singleton.mp hmem]
      cases request <;> trivial
  · obtain ⟨hclock, hmoves⟩ := moves_of_advance hadvance
    exact sound_of_moves h hok hcall hclock hmoves

/-- **The limits hold** in every undisturbed run from a state in which they hold and no call is
running. -/
theorem limits_hold (manager : VoiceSessionManager) (env : VoiceEnv u) (backing : Backing Int D Ω)
    {pool pool' : Pool (Shared D) (Request u) (Progress u)} {turns : List (Turn (Request u) (Choice Ω))}
    (hidle : pool.calls = []) (hwithin : manager.Within backing pool.db)
    (hrun : (manager.tasks env backing).Run (fun pool turn => undisturbed env backing pool turn = true)
      pool turns pool') : manager.Within backing pool'.db := by
  have hsound : Sound manager backing pool := by
    refine ⟨within_iff_fits.mp hwithin, fun call hmem => ?_⟩
    rw [hidle] at hmem
    exact absurd hmem List.not_mem_nil
  have hkept : Sound manager backing pool' :=
    hrun.invariant (fun _ _ _ h hok hstep => sound_step h hok hstep) hsound
  exact within_iff_fits.mpr hkept.fits

end

/-! ## Two creations at once -/

def oneSession : VoiceSessionManager :=
  ⟨300, 1, 60, 1, by decide, by decide, by decide, by decide⟩

def asciiText : Language where
  isSpace := Char.isWhitespace
  lower := String.toLower
  isZero literal := literal = "0"
  isOne literal := literal = "1"

/-- A snapshot that says nothing, and a ticket that is its own digest. -/
def plainEnv : VoiceEnv asciiText where
  snapshot _ _ := "{}"
  digest ticket := ticket

def collegeScope : InstitutionScope asciiText where
  collegeId := "college_a"
  departmentId := none
  batchId := none
  college := by decide
  department := by decide
  batch := by decide

def student : Principal asciiText where
  principalId := "stu-1"
  principalType := .student
  capabilities := [.startVoiceSession]
  scopes := [collegeScope]
  authenticated := true
  consentVerified := false
  revoked := false
  named := by decide
  anonymous := by decide

/-- Sessions of the same time in the order they were stored in. -/
def oldestFirst : RowOrder Int where
  order rows := sortBy (·.createdAt) rows
  perm _ := List.perm_insertionSort _ _
  sorted _ := sortBy_pairwise _ _

abbrev sqliteBacking : Backing Int (ControlDb Int) (RowOrder Int) := SqlControlStore.sqlite.backing

def idle : Pool (Shared (ControlDb Int)) (Request asciiText) (Progress asciiText) :=
  ⟨⟨⟨[], [], by decide, by decide⟩, 0⟩, []⟩

/-- A turn of call `i`, whose session would be `sessionId`. -/
def turnOf (i : Nat) (sessionId : String) : Turn (Request asciiText) (Choice (RowOrder Int)) :=
  .advance i ⟨0, sessionId, "ticket", oldestFirst⟩

theorem idle_within : oneSession.Within sqliteBacking idle.db :=
  ⟨Nat.zero_le _, fun _ => Nat.zero_le _⟩

/-- One creation. -/
theorem limits_hold_alone : ∃ pool,
    (oneSession.tasks plainEnv sqliteBacking).Run
        (fun pool turn => undisturbed plainEnv sqliteBacking pool turn = true) idle
        (.start (.create student none) :: List.replicate 4 (turnOf 0 "a")) pool ∧
      (pool.db.store.selectActive oldestFirst pool.db.clock none).length = 1 ∧
      oneSession.Within sqliteBacking pool.db := by
  have hexec : ((oneSession.tasks plainEnv sqliteBacking).exec
      (fun pool turn => undisturbed plainEnv sqliteBacking pool turn = true) idle
      (.start (.create student none) :: List.replicate 4 (turnOf 0 "a"))).map
        (fun pool => (pool.db.store.selectActive oldestFirst pool.db.clock none).length) = some 1 := by
    decide
  obtain ⟨pool, hpool, hone⟩ := Option.map_eq_some_iff.mp hexec
  have hrun := run_of_exec hpool
  exact ⟨pool, hrun, hone, limits_hold oneSession plainEnv sqliteBacking rfl idle_within hrun⟩

/-- Both creations of one person find no session before either creates one. -/
theorem limits_exceeded : ¬∀ turns pool,
    (oneSession.tasks plainEnv sqliteBacking).Run Always idle turns pool →
    oneSession.Within sqliteBacking pool.db := by
  intro h
  have hexec : ((oneSession.tasks plainEnv sqliteBacking).exec Always idle
      (.start (.create student none) :: .start (.create student none) ::
        List.replicate 3 (turnOf 0 "a") ++ List.replicate 4 (turnOf 1 "b") ++ [turnOf 0 "a"])).map
        (fun pool => ((sqliteBacking.view pool.db.store).activeVoiceSessions pool.db.clock
            none).length) =
      some 2 := by
    decide
  obtain ⟨pool, hpool, htwo⟩ := Option.map_eq_some_iff.mp hexec
  have hwithin := (h _ pool (run_of_exec hpool)).1
  rw [htwo] at hwithin
  exact absurd hwithin (by decide)

end GuruJi.Voice
