import GuruJi.Crawl.Fetch

/-!
# What is behind every request

Any number of retrievals on one fetcher, with the resolver and the servers against them. A request is
vetted when its pinned URL names an address of an answer to a look-up of its host that was public
throughout; the robots.txt behind a page was found by a request for it.

* `vet_safe`, `robotsHops_safe`, `pageHops_safe`: each part keeps what is noted justified;
* **`retrievals_vetted`**: every run.
-/

namespace GuruJi.Crawl

open GuruJi.Lib GuruJi.Lib.Machine

/-! ## The crawler -/

inductive Event (ρ : Type) where
  | resolved (host : String) (answer : Resolution)
  | found (origin : Origin) (robots : ρ)
  | sent (args : RetrieveArgs) (purpose : Purpose) (target : Target) (answer : Except Raised Response)

/-- The robots cache, and what was done. -/
structure Crawler (ρ : Type) where
  cache : Origin → Option (ℚ × Option ρ)
  trace : List (Event ρ)

variable {ρ : Type}

def Crawler.note (s : Crawler ρ) (events : List (Event ρ)) : Crawler ρ :=
    { s with trace := s.trace ++ events }

def Crawler.fresh : Crawler ρ := ⟨fun _ => none, []⟩

instance : Preorder (Crawler ρ) where
  le s s' := s.trace <+: s'.trace
  le_refl s := List.prefix_refl s.trace
  le_trans _ _ _ := List.IsPrefix.trans

theorem Crawler.le_note (s : Crawler ρ) (events : List (Event ρ)) : s ≤ s.note events :=
  List.prefix_append s.trace events

theorem Crawler.mem_of_le {s s' : Crawler ρ} (h : s ≤ s') {e : Event ρ} (he : e ∈ s.trace) :
    e ∈ s'.trace :=
  List.IsPrefix.subset h he

def act [DecidableEq ρ] (args : RetrieveArgs) : (effect : Effect ρ) → Answer ρ effect → Crawler ρ →
    Option (Crawler ρ)
  | .resolve host, answer, s => some (s.note [.resolved host answer])
  | .clock, _, s => some s
  | .cached origin, (entry : Option (ℚ × Option ρ)), s => if s.cache origin = entry then some s else none
  | .store origin entry, _, s => some
      { s.note (entry.2.toList.map (.found origin)) with cache := Function.update s.cache origin (some entry) }
  | .turn _, _, s => some s
  | .send purpose target _, answer, s => some (s.note [.sent args purpose target answer])

def pagesAsked : Effect ρ → Nat
  | .send .page _ _ => 1
  | _ => 0

abbrev Retrievals (ρ : Type) :=
    Pool (Crawler ρ) RetrieveArgs (Job (Effect ρ) (Answer ρ) (Except Raised Retrieval))

def retrievals [DecidableEq ρ] (env : FetchEnv ρ) (fetcher : Fetcher) :
    Machine (Retrievals ρ) (Turn RetrieveArgs ((effect : Effect ρ) → Answer ρ effect)) :=
  tasks pagesAsked (retrieve env fetcher) act

/-! ## What is behind an event -/

section
variable (env : FetchEnv ρ) (fetcher : Fetcher)

/-- The request goes to an address of an answer for its host, all of it public. -/
def Vetted (before : List (Event ρ)) (target : Target) : Prop :=
  ∃ answer : List Address,
    .resolved (hostText env (hostname env.lower target.url.netloc)) (.addresses answer) ∈ before ∧
      (∀ a ∈ answer, isPublicAddress env.ipaddress a.1 = true) ∧
      ∃ a ∈ answer, hostname env.lower target.pinnedUrl.netloc = some a.1

/-- What a robots.txt request says of the origin. -/
def verdict (response : Response) : Option ρ :=
  if response.status = 200 then ((response.read robotsMaxBytes).map env.readRobots).toOption
  else if 400 ≤ response.status ∧ response.status < 500 then some env.noRobots
  else none

def Justified (before : List (Event ρ)) : Event ρ → Prop
  | .resolved .. => True
  | .found origin robots => ∃ args target response,
      .sent args (.robots origin) target (.ok response) ∈ before ∧ verdict env response = some robots
  | .sent args purpose target _ => Vetted env before target ∧
      (args.checkDomain = true → allowedDomain env fetcher target.url = true) ∧
      (purpose = .page → fetcher.respectRobots = true → ∃ robots,
        .found target.url.origin robots ∈ before ∧
        env.canFetch robots (productToken env fetcher.userAgent) target.url = true)

/-- Everything that was done had its reasons before it. -/
def Sound (trace : List (Event ρ)) : Prop :=
  ∀ before e after, trace = before ++ e :: after → Justified env fetcher before e

/-- The invariant: every robots.txt in the cache was found. -/
structure Kept (s : Crawler ρ) : Prop where
  sound : Sound env fetcher s.trace
  cache : ∀ origin expiry robots, s.cache origin = some (expiry, some robots) →
      .found origin robots ∈ s.trace

variable {env fetcher} {s s' : Crawler ρ}

theorem Vetted.later {target : Target} (h : Vetted env s.trace target) (hle : s ≤ s') :
    Vetted env s'.trace target := by
  obtain ⟨answer, hmem, hrest⟩ := h
  exact ⟨answer, Crawler.mem_of_le hle hmem, hrest⟩

theorem Sound.snoc {trace : List (Event ρ)} {e : Event ρ} (h : Sound env fetcher trace)
    (he : Justified env fetcher trace e) : Sound env fetcher (trace ++ [e]) := by
  intro before e' after heq
  rcases List.eq_nil_or_concat after with rfl | ⟨init, last, rfl⟩
  · obtain ⟨rfl, rfl⟩ := List.concat_inj.mp (by simpa using heq)
    exact he
  · rw [List.concat_eq_append, ← List.cons_append, ← List.append_assoc] at heq
    exact h before e' init (List.append_inj_left' heq rfl)

theorem Kept.note {e : Event ρ} (h : Kept env fetcher s) (he : Justified env fetcher s.trace e) :
    Kept env fetcher (s.note [e]) :=
  ⟨h.sound.snoc he, fun origin expiry robots hcache =>
      List.mem_append_left _ (h.cache origin expiry robots hcache)⟩

theorem Justified.later {e : Event ρ} (h : Justified env fetcher s.trace e) (hle : s ≤ s') :
    Justified env fetcher s'.trace e := by
  cases e with
  | resolved host answer => trivial
  | found origin robots =>
    obtain ⟨args, target, response, hmem, hverdict⟩ := h
    exact ⟨args, target, response, Crawler.mem_of_le hle hmem, hverdict⟩
  | sent args purpose target answer =>
    obtain ⟨hvetted, hdomain, hrobots⟩ := h
    refine ⟨hvetted.later hle, hdomain, fun hpage hrespect => ?_⟩
    obtain ⟨robots, hmem, hfetch⟩ := hrobots hpage hrespect
    exact ⟨robots, Crawler.mem_of_le hle hmem, hfetch⟩

end

/-! ## The effects -/

section
variable [DecidableEq ρ] (env : FetchEnv ρ) (fetcher : Fetcher) (args : RetrieveArgs)

/-- An attempt of a retrieval that keeps the invariant, with a postcondition. -/
def Keeping {α : Type} (Post : Crawler ρ → α → Prop) (attempt : Fetch ρ α) (s : Crawler ρ) : Prop :=
  Attempt.Safe (act args) (Kept env fetcher) Post attempt s

variable {env fetcher args} {s : Crawler ρ}

theorem ask_safe (effect : Effect ρ) {Post : Crawler ρ → Answer ρ effect → Prop}
    (h : ∀ s', s ≤ s' → Kept env fetcher s' → ∀ answer s'', act args effect answer s' = some s'' →
      (Kept env fetcher s'' ∧ s' ≤ s'') ∧ Post s'' answer) :
    Keeping env fetcher args Post (@Attempt.ask (Effect ρ) (Answer ρ) Raised effect) s :=
        Attempt.safe_ask h

theorem resolve_safe (host : String) :
    Keeping env fetcher args (fun s answer => .resolved host answer ∈ s.trace) (resolve host) s := by
  refine @ask_safe ρ _ env fetcher args s (.resolve host) _ fun s' _ hkept answer s'' hact => ?_
  obtain rfl : s'.note [.resolved host answer] = s'' := Option.some.inj hact
  exact ⟨⟨hkept.note trivial, s'.le_note _⟩, List.mem_append_right _ List.mem_cons_self⟩

theorem clock_safe : Keeping env fetcher args (fun _ _ => True) clock s := by
  refine @ask_safe ρ _ env fetcher args s .clock _ fun s' _ hkept answer s'' hact => ?_
  obtain rfl : s' = s'' := Option.some.inj hact
  exact ⟨⟨hkept, le_rfl⟩, trivial⟩

theorem cachedRobots_safe (origin : Origin) : Keeping env fetcher args
    (fun s entry => ∀ expiry robots, entry = some (expiry, some robots) → .found origin robots ∈ s.trace)
    (cachedRobots origin) s := by
  refine @ask_safe ρ _ env fetcher args s (.cached origin) _ fun s' _ hkept answer s'' hact => ?_
  simp only [act] at hact
  split_ifs at hact with hcache
  obtain rfl : s' = s'' := Option.some.inj hact
  refine ⟨⟨hkept, le_rfl⟩, fun expiry robots hanswer => hkept.cache origin expiry robots ?_⟩
  exact hcache.trans hanswer

variable {origin : Origin} {target : Target}

omit [DecidableEq ρ] in
theorem Kept.store {entry : ℚ × Option ρ} {trace : List (Event ρ)} (h : Kept env fetcher s)
    (htrace : trace = s.trace ++ entry.2.toList.map (.found origin)) (hsound : Sound env fetcher trace) :
    Kept env fetcher ⟨Function.update s.cache origin (some entry), trace⟩ := by
  refine ⟨hsound, fun other expiry robots hcache => ?_⟩
  simp only at hcache ⊢
  rw [htrace]
  by_cases hother : other = origin
  · rw [hother, Function.update_self, Option.some.injEq] at hcache
    rw [hother, hcache]
    exact List.mem_append_right _ List.mem_cons_self
  · rw [Function.update_of_ne hother] at hcache
    exact List.mem_append_left _ (h.cache other expiry robots hcache)

theorem storeRobots_safe {entry : ℚ × Option ρ}
    (hfound : ∀ robots, entry.2 = some robots → Justified env fetcher s.trace (.found origin robots)) :
    Keeping env fetcher args (fun s _ => ∀ robots, entry.2 = some robots →
    .found origin robots ∈ s.trace)
      (storeRobots origin entry) s := by
  refine @ask_safe ρ _ env fetcher args s (.store origin entry) _ fun s' hle hkept answer s'' hact => ?_
  obtain rfl := Option.some.inj hact
  obtain ⟨expiry, found⟩ := entry
  have hsound : Sound env fetcher (s'.trace ++ found.toList.map (.found origin)) := by
    cases found with
    | none => simpa using hkept.sound
    | some robots => exact hkept.sound.snoc ((hfound robots rfl).later hle)
  refine ⟨⟨hkept.store rfl hsound, s'.le_note _⟩, ?_⟩
  rintro robots rfl
  exact List.mem_append_right _ List.mem_cons_self

theorem takeTurn_safe (url : Url) : Keeping env fetcher args (fun _ _ => True) (takeTurn url) s := by
  refine Attempt.Safe.bind (@ask_safe ρ _ env fetcher args s (.turn url) (fun _ _ => True)
    fun s' _ hkept answer s'' hact => ?_) ?_
  · obtain rfl : s' = s'' := Option.some.inj hact
    exact ⟨⟨hkept, le_rfl⟩, trivial⟩
  · intro s' given _ _
    cases (given : Bool) with
    | true => exact Attempt.safe_pure trivial
    | false => exact Attempt.safe_throw _

theorem send_safe {purpose : Purpose} {headers : List (String × String)}
    (h : ∀ answer, Justified env fetcher s.trace (.sent args purpose target answer)) :
    Keeping env fetcher args (fun s response => .sent args purpose target (.ok response) ∈ s.trace)
      (send purpose target headers) s := by
  refine Attempt.Safe.bind (takeTurn_safe target.url) fun s' _ hle _ => ?_
  refine Attempt.Safe.bind (@ask_safe ρ _ env fetcher args s' (.send purpose target headers)
    (fun s answer => .sent args purpose target answer ∈ s.trace) fun t hle' hkept answer t' hact =>
        ?_) ?_
  · obtain rfl : t.note [.sent args purpose target answer] = t' := Option.some.inj hact
    refine ⟨⟨hkept.note ((h answer).later (hle.trans hle')), t.le_note _⟩, ?_⟩
    exact List.mem_append_right _ List.mem_cons_self
  · intro t answer _ hmem
    cases (answer : Except Raised Response) with
    | ok response => exact Attempt.safe_pure hmem
    | error e => exact Attempt.safe_throw e

theorem readBounded_safe (response : Response) (maxBytes : Nat) : Keeping env fetcher args
    (fun _ raw => response.read maxBytes = .ok raw) (readBounded response maxBytes) s := by
  unfold readBounded
  split
  · rename_i raw hread
    exact Attempt.safe_pure hread
  · exact Attempt.safe_throw _

theorem following_safe (current : Url) (location : String) :
    Keeping env fetcher args (fun _ _ => True) (following env current location) s := by
  unfold following
  split
  · exact Attempt.safe_pure trivial
  · exact Attempt.safe_throw _

/-! ## Vetting -/

/-- The address is of an answer for the host, all of it public. -/
def Answered (env : FetchEnv ρ) (trace : List (Event ρ)) (host : String) (address : String) : Prop :=
  ∃ answer : List Address, .resolved host (.addresses answer) ∈ trace ∧
    (∀ a ∈ answer, isPublicAddress env.ipaddress a.1 = true) ∧ ∃ a ∈ answer, a.1 = address

theorem publicAddress_safe (name : Option String) : Keeping env fetcher args
    (fun s address => ∀ a, address = some a → Answered env s.trace (hostText env name) a)
    (publicAddress env name) s := by
  unfold publicAddress
  simp only
  split_ifs with hlocal
  · exact Attempt.safe_pure nofun
  refine Attempt.Safe.bind (resolve_safe (hostText env name)) fun s' answer _ hanswer => ?_
  cases answer with
  | timeout => exact Attempt.safe_throw _
  | failed => exact Attempt.safe_throw _
  | addresses answer =>
    cases answer with
    | nil => exact Attempt.safe_throw _
    | cons address others =>
      simp only
      split_ifs with hpublic
      · refine Attempt.safe_pure ?_
        rintro _ ⟨⟩
        exact ⟨_, hanswer, List.all_eq_true.mp hpublic, address, List.mem_cons_self, rfl⟩
      · exact Attempt.safe_pure nofun

omit [DecidableEq ρ] in
theorem pin_spec {url : Url} {address : String} (h : pin env fetcher url address = some target)
    (haddress : IsAddress address) :
    target.url = url ∧ hostname env.lower target.pinnedUrl.netloc = some address := by
  unfold pin at h
  split at h
  · cases h
  · split at h
    · rename_i name number _ _
      cases h
      exact ⟨rfl, hostname_pinnedNetloc haddress env.lower_numeric number⟩
    · cases h

omit [DecidableEq ρ] in
theorem vetted_of_pin {trace : List (Event ρ)} {url : Url} {address : String}
    (h : pin env fetcher url address = some target)
    (hanswered : Answered env trace (hostText env (hostname env.lower url.netloc)) address) :
    Vetted env trace target ∧ target.url = url := by
  obtain ⟨answer, hmem, hpublic, a, ha, rfl⟩ := hanswered
  obtain ⟨rfl, hhost⟩ := pin_spec h a.2
  exact ⟨⟨answer, hmem, hpublic, a, ha, hhost⟩, rfl⟩

theorem vet_safe (url : Url) (checkDomain : Bool) : Keeping env fetcher args
    (fun s target => ∀ t, target = some t → (Vetted env s.trace t ∧ t.url = url) ∧
      (checkDomain = true → allowedDomain env fetcher url = true))
      (vet env fetcher url checkDomain) s := by
  unfold vet
  split_ifs with hsupported hdomain
  · exact Attempt.safe_pure nofun
  · exact Attempt.safe_pure nofun
  refine Attempt.Safe.bind (publicAddress_safe (hostname env.lower url.netloc))
    fun s' address _ haddress => ?_
  refine Attempt.safe_pure fun target htarget => ?_
  obtain ⟨a, rfl, hpin⟩ := Option.bind_eq_some_iff.mp htarget
  refine ⟨vetted_of_pin hpin (haddress a rfl), fun hcheck => ?_⟩
  rw [hcheck, Bool.true_and, Bool.not_eq_true, Bool.not_eq_false'] at hdomain
  exact hdomain

/-! ## robots.txt -/

def Looked (env : FetchEnv ρ) (fetcher : Fetcher) (origin : Origin) (s : Crawler ρ) (loaded : Option ρ) :
    Prop :=
  ∀ robots, loaded = some robots → Justified env fetcher s.trace (.found origin robots)

theorem robotsFailure_safe (origin : Origin) (firstHop : Bool) (e : Raised) :
    Keeping env fetcher args (Looked env fetcher origin) (robotsFailure firstHop e) s := by
  unfold robotsFailure
  split
  · split_ifs
    · exact Attempt.safe_throw _
    · exact Attempt.safe_pure nofun
  all_goals first
    | exact Attempt.safe_pure nofun
    | exact Attempt.safe_throw _

omit [DecidableEq ρ] in
theorem looked_of_sent {response : Response} {robots : ρ}
    (hsent : .sent args (.robots origin) target (.ok response) ∈ s.trace)
    (hverdict : verdict env response = some robots) : Looked env fetcher origin s (some robots) := by
  rintro _ ⟨⟩
  exact ⟨args, target, response, hsent, hverdict⟩

def FirstHop (env : FetchEnv ρ) (fetcher : Fetcher) (args : RetrieveArgs) (current : Url)
    (vetted : Option String)
    (s : Crawler ρ) : Prop :=
  ∀ address, vetted = some address →
    Answered env s.trace (hostText env (hostname env.lower current.netloc)) address ∧
      (args.checkDomain = true → allowedDomain env fetcher current = true)

theorem robotsTarget_safe {vetted : Option String} {current : Url}
    (hvetted : FirstHop env fetcher args current vetted s) : Keeping env fetcher args
      (fun s target => ∀ t, target = some t → Vetted env s.trace t ∧
        (args.checkDomain = true → allowedDomain env fetcher t.url = true))
      (robotsTarget env fetcher vetted current) s := by
  cases vetted with
  | some address =>
    refine Attempt.safe_pure fun target hpin => ?_
    obtain ⟨hanswered, hdomain⟩ := hvetted address rfl
    obtain ⟨htarget, rfl⟩ := vetted_of_pin hpin hanswered
    exact ⟨htarget, hdomain⟩
  | none =>
    refine (vet_safe current true).mono fun s' target _ h t ht => ?_
    obtain ⟨⟨htarget, rfl⟩, hdomain⟩ := h t ht
    exact ⟨htarget, fun _ => hdomain rfl⟩

theorem robotsHops_safe (origin : Origin) (hops : Nat) (vetted : Option String) (current : Url)
    (hvetted : FirstHop env fetcher args current vetted s) :
    Keeping env fetcher args (Looked env fetcher origin)
    (robotsHops env fetcher origin hops vetted current) s := by
  induction hops generalizing vetted current s with
  | zero => exact Attempt.safe_pure nofun
  | succ hops ih =>
    rw [robotsHops]
    refine Attempt.Safe.catch ?_ fun s' e _ => robotsFailure_safe origin _ e
    refine Attempt.Safe.bind (robotsTarget_safe hvetted) fun s' target _ htarget => ?_
    cases target with
    | none => exact Attempt.safe_pure nofun
    | some target =>
      obtain ⟨hvetted', hdomain⟩ := htarget target rfl
      refine Attempt.Safe.bind (send_safe fun answer => ⟨hvetted', hdomain, nofun⟩)
        fun t response _ hsent => ?_
      split_ifs with hredirect hok hmissing
      · split
        · exact Attempt.safe_pure nofun
        · exact Attempt.safe_pure nofun
        · exact Attempt.Safe.bind (following_safe current _) fun t' url _ _ => ih none url nofun
      · refine Attempt.Safe.bind (readBounded_safe response robotsMaxBytes) fun t' raw hle hread => ?_
        refine Attempt.safe_pure (looked_of_sent (Crawler.mem_of_le hle hsent) ?_)
        rw [verdict, if_pos hok, hread]
        rfl
      · refine Attempt.safe_pure (looked_of_sent hsent ?_)
        rw [verdict, if_neg hok, if_pos hmissing]
      · exact Attempt.safe_pure nofun

theorem reload_safe (now : ℚ) (hvetted : Vetted env s.trace target)
    (hdomain : args.checkDomain = true → allowedDomain env fetcher target.url = true) :
    Keeping env fetcher args
      (fun s entry => ∀ robots, entry.2 = some robots → .found target.url.origin robots ∈ s.trace)
      (robotsEntry.reload env fetcher target now target.url.origin) s := by
  unfold robotsEntry.reload loadRobots
  have hfirst : FirstHop env fetcher args target.url.origin.robotsUrl
      (some ((hostname env.lower target.pinnedUrl.netloc).getD "")) s := by
    rintro _ ⟨⟩
    obtain ⟨answer, hmem, hpublic, a, ha, hhost⟩ := hvetted
    exact ⟨⟨answer, hmem, hpublic, a, ha, by rw [hhost]; rfl⟩, hdomain⟩
  refine Attempt.Safe.bind (Attempt.Safe.catch (robotsHops_safe target.url.origin _ _ _ hfirst) ?_) ?_
  · intro s' e _
    unfold lookUpFailed
    split_ifs
    · exact Attempt.Safe.bind (storeRobots_safe nofun) fun t _ _ _ => Attempt.safe_throw e
    · exact Attempt.safe_throw e
  · intro s' loaded _ hlooked
    refine Attempt.Safe.bind (storeRobots_safe hlooked) fun t _ _ hfound => Attempt.safe_pure hfound

theorem robotsEntry_safe (now : ℚ) {cached : Option (ℚ × Option ρ)} (hvetted : Vetted env s.trace target)
    (hdomain : args.checkDomain = true → allowedDomain env fetcher target.url = true)
    (hcached : ∀ expiry robots, cached = some (expiry, some robots) →
        .found target.url.origin robots ∈ s.trace) :
    Keeping env fetcher args
      (fun s entry => ∀ robots, entry.2 = some robots → .found target.url.origin robots ∈ s.trace)
      (robotsEntry env fetcher target now cached) s := by
  unfold robotsEntry
  cases cached with
  | none => exact reload_safe now hvetted hdomain
  | some entry =>
    simp only
    split_ifs
    · exact reload_safe now hvetted hdomain
    · refine Attempt.safe_pure fun robots hrobots => hcached entry.1 robots ?_
      rw [← hrobots]

theorem robotsAllows_safe (hvetted : Vetted env s.trace target)
    (hdomain : args.checkDomain = true → allowedDomain env fetcher target.url = true) :
    Keeping env fetcher args
      (fun s allowed => allowed = true → fetcher.respectRobots = true → ∃ robots,
        .found target.url.origin robots ∈ s.trace ∧
          env.canFetch robots (productToken env fetcher.userAgent) target.url = true)
      (robotsAllows env fetcher target) s := by
  unfold robotsAllows
  split_ifs with hrespect
  · refine Attempt.safe_pure fun _ hrespects => ?_
    rw [hrespects] at hrespect
    cases hrespect
  refine Attempt.Safe.bind clock_safe fun s' now hle _ => ?_
  refine Attempt.Safe.bind (cachedRobots_safe target.url.origin) fun t cached hle' hcached => ?_
  refine Attempt.Safe.bind (robotsEntry_safe now (hvetted.later (hle.trans hle')) hdomain hcached) ?_
  intro t' entry _ hentry
  refine Attempt.safe_pure fun hallowed _ => ?_
  cases hfound : entry.2 with
  | none => simp [hfound] at hallowed
  | some robots =>
    rw [hfound, Option.any_some] at hallowed
    exact ⟨robots, hentry robots hfound, hallowed⟩

/-! ## Pages -/

theorem retrieveFailure_safe (current : Url) (e : Raised) :
    Keeping env fetcher args (fun _ _ => True) (retrieveFailure current e) s := by
  cases e with
  | other => exact Attempt.safe_throw _
  | _ => exact Attempt.safe_pure trivial

theorem answered_safe (current : Url) (response : Response) :
    Keeping env fetcher args (fun _ _ => True) (answered env fetcher args current response) s := by
  unfold answered
  split_ifs
  · exact Attempt.safe_pure trivial
  · exact Attempt.safe_pure trivial
  · exact Attempt.safe_pure trivial
  · exact Attempt.Safe.bind (readBounded_safe response _) fun t raw _ _ => Attempt.safe_pure trivial

/-- A page is asked for only where it may be. -/
theorem pageHops_safe (hops : Nat) (current : Url) :
    Keeping env fetcher args (fun _ _ => True) (pageHops env fetcher args hops current) s := by
  induction hops generalizing current s with
  | zero => exact Attempt.safe_pure trivial
  | succ hops ih =>
    rw [pageHops]
    refine Attempt.Safe.catch ?_ fun s' e _ => retrieveFailure_safe current e
    split_ifs with hdomain
    · exact Attempt.safe_pure trivial
    refine Attempt.Safe.bind (vet_safe current false) fun s' target _ htarget => ?_
    cases target with
    | none => exact Attempt.safe_pure trivial
    | some target =>
      obtain ⟨⟨hvetted, rfl⟩, -⟩ := htarget target rfl
      have hallowedDomain : args.checkDomain = true → allowedDomain env fetcher target.url = true := by
        intro hcheck
        rw [hcheck, Bool.true_and, Bool.not_eq_true, Bool.not_eq_false'] at hdomain
        exact hdomain
      refine Attempt.Safe.bind (robotsAllows_safe hvetted hallowedDomain) fun t allowed hle hallowed =>
        ?_
      split_ifs with hrefused
      · exact Attempt.safe_pure trivial
      have hjustified : ∀ answer, Justified env fetcher t.trace (.sent args .page target answer) :=
        fun _ =>
        ⟨hvetted.later hle, hallowedDomain, fun _ => hallowed (by simpa using hrefused)⟩
      refine Attempt.Safe.bind (send_safe hjustified) fun t' response _ _ => ?_
      split_ifs
      · split
        · exact Attempt.safe_pure trivial
        · exact Attempt.safe_pure trivial
        · refine Attempt.Safe.bind (following_safe target.url _) fun u url _ _ => ?_
          split_ifs
          · exact Attempt.safe_pure trivial
          · exact ih url
      · exact answered_safe target.url response

end

/-! ## How many pages -/

section
variable {env : FetchEnv ρ} {fetcher : Fetcher} {args : RetrieveArgs} {α β : Type}

def Pageless (attempt : Fetch ρ α) : Prop := Attempt.Within pagesAsked attempt 0

variable {attempt : Fetch ρ α}

theorem Pageless.bind {f : α → Fetch ρ β} (h : Pageless attempt)
    (hf : ∀ value, Pageless (f value)) : Pageless (attempt >>= f) := Attempt.Within.bind h hf

theorem Pageless.within {f : α → Fetch ρ β} {n : Nat} (h : Pageless attempt)
    (hf : ∀ value, Attempt.Within pagesAsked (f value) n) : Attempt.Within pagesAsked
        (attempt >>= f) n := by
  rw [← Nat.zero_add n]
  exact Attempt.Within.bind h hf

theorem Pageless.catch {handler : Raised → Fetch ρ α} (h : Pageless attempt)
    (hhandler : ∀ e, Pageless (handler e)) : Pageless (tryCatch attempt handler) :=
        Attempt.Within.catch h hhandler

theorem pageless_pure (value : α) : Pageless (pure value : Fetch ρ α) := Attempt.within_pure value 0

theorem pageless_throw (e : Raised) : Pageless (throw e : Fetch ρ α) := Attempt.within_throw e 0

theorem pageless_takeTurn (url : Url) : Pageless (takeTurn url : Fetch ρ Unit) := by
  refine Pageless.bind (Attempt.within_ask _) fun given => ?_
  cases (given : Bool) with
  | true => exact pageless_pure ()
  | false => exact pageless_throw _

theorem within_send (purpose : Purpose) (target : Target) (headers : List (String × String)) :
    Attempt.Within pagesAsked (send purpose target headers : Fetch ρ Response)
      (pagesAsked (.send purpose target headers : Effect ρ)) := by
  rw [← Nat.zero_add (pagesAsked _)]
  refine Attempt.Within.bind (pageless_takeTurn target.url) fun _ => ?_
  refine Attempt.Within.bind (Attempt.within_ask (Effect.send purpose target headers)) (n := 0)
    fun answer => ?_
  cases (answer : Except Raised Response) with
  | ok response => exact pageless_pure response
  | error e => exact pageless_throw e

theorem pageless_readBounded (response : Response) (maxBytes : Nat) :
    Pageless (readBounded response maxBytes : Fetch ρ (List UInt8)) := by
  unfold readBounded
  split
  · exact pageless_pure _
  · exact pageless_throw _

theorem pageless_following (current : Url) (location : String) :
    Pageless (following env current location) := by
  unfold following
  split
  · exact pageless_pure _
  · exact pageless_throw _

theorem pageless_publicAddress (name : Option String) : Pageless (publicAddress env name) := by
  unfold publicAddress
  simp only
  split_ifs
  · exact pageless_pure none
  refine Pageless.bind (Attempt.within_ask _) fun answer => ?_
  cases (answer : Resolution) with
  | timeout => exact pageless_throw _
  | failed => exact pageless_throw _
  | addresses answer =>
    cases answer with
    | nil => exact pageless_throw _
    | cons address others =>
      simp only
      split_ifs
      · exact pageless_pure _
      · exact pageless_pure none

theorem pageless_vet (url : Url) (checkDomain : Bool) : Pageless (vet env fetcher url checkDomain) := by
  unfold vet
  split_ifs
  · exact pageless_pure none
  · exact pageless_pure none
  · exact (pageless_publicAddress _).bind fun _ => pageless_pure _

theorem pageless_robotsHops (origin : Origin) (hops : Nat) (vetted : Option String) (current : Url) :
    Pageless (robotsHops env fetcher origin hops vetted current) := by
  induction hops generalizing vetted current with
  | zero => exact pageless_pure none
  | succ hops ih =>
    rw [robotsHops]
    refine Pageless.catch (Pageless.bind ?_ fun target => ?_) fun e => ?_
    · cases vetted with
      | some address => exact pageless_pure _
      | none => exact pageless_vet current true
    · cases target with
      | none => exact pageless_pure none
      | some target =>
        refine Pageless.bind (within_send (.robots origin) target _) fun response => ?_
        split_ifs
        · split
          · exact pageless_pure none
          · exact pageless_pure none
          · exact (pageless_following current _).bind fun url => ih none url
        · exact (pageless_readBounded response _).bind fun raw => pageless_pure _
        · exact pageless_pure _
        · exact pageless_pure none
    · unfold robotsFailure
      split
      · split_ifs
        · exact pageless_throw _
        · exact pageless_pure none
      all_goals first
        | exact pageless_pure none
        | exact pageless_throw _

theorem pageless_robotsAllows (target : Target) : Pageless (robotsAllows env fetcher target) := by
  have hstore : ∀ origin entry, Pageless (storeRobots origin entry : Fetch ρ Unit) := fun origin entry =>
    Attempt.within_ask (Effect.store origin entry)
  have hreload : ∀ now, Pageless (robotsEntry.reload env fetcher target now target.url.origin) := by
    intro now
    refine Pageless.bind (Pageless.catch (pageless_robotsHops _ _ _ _) fun e => ?_) fun loaded =>
      (hstore _ _).bind fun _ => pageless_pure _
    unfold lookUpFailed
    split_ifs
    · exact (hstore _ _).bind fun _ => pageless_throw e
    · exact pageless_throw e
  unfold robotsAllows
  split_ifs
  · exact pageless_pure true
  refine Pageless.bind (Attempt.within_ask _) fun now => Pageless.bind (Attempt.within_ask _)
    fun cached => ?_
  refine Pageless.bind ?_ fun entry => pageless_pure _
  unfold robotsEntry
  cases (cached : Option (ℚ × Option ρ)) with
  | none => exact hreload now
  | some entry =>
    simp only
    split_ifs
    · exact hreload now
    · exact pageless_pure entry

theorem within_pageHops (hops : Nat) (current : Url) :
    Attempt.Within pagesAsked (pageHops env fetcher args hops current) hops := by
  induction hops generalizing current with
  | zero => exact Attempt.within_pure _ 0
  | succ hops ih =>
    have hpure : ∀ (value : Retrieval) n, Attempt.Within pagesAsked (pure value : Fetch ρ Retrieval) n :=
      Attempt.within_pure
    rw [pageHops]
    refine Attempt.Within.catch (m := hops + 1) (n := 0) ?_ fun e => ?_
    · split_ifs
      · exact hpure _ _
      refine (pageless_vet current false).within fun target => ?_
      cases target with
      | none => exact hpure _ _
      | some target =>
        refine (pageless_robotsAllows target).within fun allowed => ?_
        split_ifs
        · exact hpure _ _
        rw [Nat.add_comm hops 1]
        refine Attempt.Within.bind (within_send .page target _) fun response => ?_
        split_ifs
        · split
          · exact hpure _ _
          · exact hpure _ _
          · refine (pageless_following current _).within fun url => ?_
            split_ifs
            · exact hpure _ _
            · exact ih url
        · refine Attempt.Within.mono (m := 0) ?_ (Nat.zero_le _)
          unfold answered
          split_ifs
          · exact pageless_pure _
          · exact pageless_pure _
          · exact pageless_pure _
          · exact (pageless_readBounded response _).bind fun raw => pageless_pure _
    · cases e with
      | other => exact pageless_throw _
      | _ => exact pageless_pure _

end

/-! ## Runs -/

/-- **Every request of every run is vetted**, and a retrieval asks for one page more than it follows
redirects at most. -/
theorem retrievals_vetted [DecidableEq ρ] (env : FetchEnv ρ) (fetcher : Fetcher)
    (turns : List (Turn RetrieveArgs ((effect : Effect ρ) → Answer ρ effect)))
    (pool : Retrievals ρ)
    (hrun : (retrievals env fetcher).Run Always ⟨Crawler.fresh, []⟩ turns pool) :
    Sound env fetcher pool.db.trace ∧ ∀ call ∈ pool.calls, call.2.spent ≤ fetcher.maxRedirects + 1 := by
  constructor
  · have hprog : ∀ args s, Kept env fetcher s →
        (retrieve env fetcher args).Safe (act args) (Kept env fetcher) (fun _ _ => True) s :=
        fun args s _ =>
      (pageHops_safe (fetcher.maxRedirects + 1) args.url).run
    refine (hrun.invariant (tasks_keep hprog) ⟨⟨?_, ?_⟩, nofun⟩).1.sound
    · intro before e after heq
      cases before <;> cases heq
    · exact fun _ _ _ hcache => nomatch hcache
  · have hprog : ∀ args, (retrieve env fetcher args).Within pagesAsked (fetcher.maxRedirects + 1) :=
      fun args =>
      (within_pageHops (fetcher.maxRedirects + 1) args.url).run
    have hstart : (retrievals env fetcher).init ⟨Crawler.fresh, []⟩ := rfl
    exact spent_le hprog ⟨_, turns, hstart, hrun⟩

/-! ## One retrieval -/

/-- One public address, and a robots.txt that allows everything. -/
def sampleEnv : FetchEnv Bool where
  isSpace := (· = ' ')
  lower := id
  lower_numeric := fun _ _ => rfl
  ipaddress := ⟨fun text => if text = "8.8.8.8" then some (.v4 0x08080808) else none, fun _ => true,
      fun _ => false⟩
  urljoin := fun _ _ => none
  loginPath := fun _ => false
  readRobots := fun _ => true
  noRobots := true
  canFetch := fun robots _ _ => robots

def sampleFetcher : Fetcher := ⟨1000, ["x.com"], true, 3, "crawler/1.0", 86400, 900⟩

theorem isAddress_sample : IsAddress "8.8.8.8" where
  nonempty := by decide
  plain := by
    intro c hc
    have hshape : c = '8' ∨ c = '.' := by
      simp at hc
      tauto
    rcases hshape with rfl | rfl
    · decide
    · decide
  numeric := List.all_eq_true.mp (by decide)

def sampleAddress : Address := ⟨"8.8.8.8", isAddress_sample⟩

def sampleAnswers : (effect : Effect Bool) → Answer Bool effect
  | .resolve _ => Resolution.addresses [sampleAddress]
  | .clock => (0 : ℚ)
  | .cached _ => none
  | .store .. => ()
  | .turn _ => true
  | .send .. => .ok ⟨404, none, none, none, "text/html", fun _ => .ok []⟩

def sampleTurns : List (Turn RetrieveArgs ((effect : Effect Bool) → Answer Bool effect)) :=
  .start ⟨⟨"https", "h.in:8080", "/", ""⟩, ["html"], none, none, none, true⟩ ::
    List.replicate 9 (.advance 0 sampleAnswers)

theorem retrievals_vetted_sample : ∃ pool : Retrievals Bool, pool.db.trace.length = 4 ∧
    Sound sampleEnv sampleFetcher pool.db.trace ∧ ∀ call ∈ pool.calls, call.2.spent ≤ 4 := by
  have hexec : ((retrievals sampleEnv sampleFetcher).exec Always ⟨Crawler.fresh, []⟩ sampleTurns).map
      (fun pool => decide (pool.db.trace.length = 4)) = some true := by decide
  obtain ⟨pool, hpool, hlength⟩ := Option.map_eq_some_iff.mp hexec
  exact ⟨pool, of_decide_eq_true hlength, retrievals_vetted sampleEnv sampleFetcher sampleTurns pool
    (run_of_exec hpool)⟩

end GuruJi.Crawl
