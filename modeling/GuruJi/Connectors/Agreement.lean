import GuruJi.Connectors.Client
import GuruJi.Connectors.Service

/-!
# The client and the service agree

A connector client and a connector service of the same source and token.

* `coversBody_eq`: both compare scopes alike;
* `accepts_iff`: the requests of the client that the service accepts;
* `execute_reply`: what the client makes of the service's answer;
* **`client_service_agree`**: both together, and what is returned of any answer of any service.
-/

namespace GuruJi.Connectors

open GuruJi.Lib GuruJi.Auth
open GuruJi.Agents (Json Dict)

/-! ## What one side writes, the other side reads -/

section
variable {u : Language}

def scopeBodyOf (s : InstitutionScope u) : ScopeBody := ⟨s.collegeId, s.departmentId, s.batchId⟩

theorem coversValue_eq (granted requested : Option String) :
    coversValue granted requested = coversField granted requested := by
  cases granted <;> cases requested <;> simp [coversValue, coversField]

/-- **The service compares scopes as the client does.** -/
theorem coversBody_eq (granted requested : InstitutionScope u) :
    coversBody (scopeBodyOf granted) (scopeBodyOf requested) = granted.covers requested := by
  rw [coversBody, InstitutionScope.covers, scopeBodyOf, scopeBodyOf, coversValue_eq, coversValue_eq]
  by_cases hcollege : granted.collegeId = requested.collegeId
  · rw [if_neg (not_not.mpr hcollege), decide_eq_true hcollege, Bool.true_and]
    cases coversField granted.departmentId requested.departmentId <;>
      cases coversField granted.batchId requested.batchId <;> rfl
  · rw [if_pos hcollege, decide_eq_false hcollege, Bool.false_and, Bool.false_and]

theorem nullableText_map (value : Option String) :
    nullableText ((value.map Json.string).getD .null) = some value := by
  cases value <;> rfl

theorem textOf_map (value : Option String) : textOf ((value.map Json.string).getD .null) = value := by
  cases value <;> rfl

theorem listOf_texts (l : List String) : listOf textOf (.array (l.map .string)) = some l := by
  rw [listOf]
  induction l with
  | nil => rfl
  | cons text l ih =>
    rw [List.map_cons, List.mapM_cons, textOf, ih]
    rfl

theorem scopeBody_scopeJson (s : InstitutionScope u) :
    scopeBody (RemoteHttpConnector.scopeJson s) = some (scopeBodyOf s) := by
  simp [scopeBody, model, RemoteHttpConnector.scopeJson, asDict, requiredField, defaultField, Table.get,
    nullableText_map, textOf, scopeBodyOf]

theorem listOf_scopes (scope : Option (InstitutionScope u)) :
    listOf scopeBody (.array (scope.map RemoteHttpConnector.scopeJson).toList) =
      some (scope.map scopeBodyOf).toList := by
  cases scope with
  | none => rfl
  | some s =>
    simp only [Option.map_some, Option.toList_some, listOf, List.mapM_cons, scopeBody_scopeJson]
    rfl

theorem institutionScope_self (s : InstitutionScope u) :
    institutionScope u s.collegeId s.departmentId s.batchId = some s :=
  dif_pos ⟨s.college, s.department, s.batch⟩

theorem scopeOf_scopeJson (s : InstitutionScope u) :
    scopeOf u (RemoteHttpConnector.scopeJson s) = some s := by
  have hcollege : textOf (.string s.collegeId) = some s.collegeId := rfl
  simp [scopeOf, RemoteHttpConnector.scopeJson, asDict, claim, Table.get, textOf_map, hcollege,
    institutionScope_self]

theorem text_eq_askReadOnly {capability : Capability} :
    capability.text = "ask:read_only" ↔ capability = .askReadOnly := by
  cases capability <;> simp [Capability.text]

theorem text_eq_student {role : PrincipalType} : role.text = "student" ↔ role = .student := by
  cases role <;> simp [PrincipalType.text]

theorem text_ne_empty (role : PrincipalType) : role.text ≠ "" := by
  cases role <;> simp [PrincipalType.text]

end

/-! ## The request -/

variable {τ : Type} {env : WireEnv τ}

/-- The request id and the limits of a call are within the bounds of the service. -/
structure Serviceable {u : Language} (connector : RemoteHttpConnector u) (context : ConnectorContext u) :
    Prop where
  short : context.requestId.text.length ≤ 128
  duration : context.limits.maxDurationMs ≤ 120000
  rows : context.limits.maxRows ≤ 1000
  least : 1024 ≤ connector.responseLimit context
  most : connector.responseLimit context ≤ 10000000

/-- The context may call the service: its principal is identified and not revoked, may ask, and has the
consent that a student needs; and its scope is within that of the service. -/
structure Entitled {u : Language} (settings : ConnectorSettings u) (context : ConnectorContext u) :
    Prop where
  identified : (∃ id, context.principalId = some id ∧ id ≠ "") ∧ ∃ role, context.principalType =
      some role
  active : context.revoked = false
  capable : .askReadOnly ∈ context.capabilities
  consent : context.principalType = some .student →
    (∃ s, context.institutionScope = some s ∧ s.batchId.isSome) → context.consentVerified = true
  scope : ∃ s, context.institutionScope = some s ∧ Within settings (scopeBodyOf s)

def Accepts (env : WireEnv τ) (settings : ConnectorSettings env.toLanguage) (req : Request) : Prop :=
  ∃ body effective, executeBody env req.payload = some body ∧
    settings.authorize body (req.headers.get "Authorization") = .ok effective

/-- The principal of a context as the service reads it. -/
def principalBodyOf {u : Language} (context : ConnectorContext u) : PrincipalBody :=
  ⟨context.principalId, context.principalType.map PrincipalType.text,
    (context.capabilities.map Capability.text).mergeSort (· ≤ ·),
    (context.institutionScope.map scopeBodyOf).toList, context.consentVerified, context.revoked⟩

theorem principalBody_principalJson (context : ConnectorContext env.toLanguage) :
    principalBody env (RemoteHttpConnector.principalJson context) = some (principalBodyOf context) := by
  have htype : nullableText ((context.principalType.map fun role => Json.string role.text).getD .null) =
      some (context.principalType.map PrincipalType.text) := by
    cases context.principalType <;> rfl
  simp [principalBody, model, RemoteHttpConnector.principalJson, defaultField, Table.get,
    nullableText_map, htype, listOf_texts, listOf_scopes, env.asBool_bool, principalBodyOf]

theorem boundedInt_number {low high : Int} {n : Nat} {b : Bounded low high} :
    boundedInt env.asInt low high (.number n.repr) = some b ↔ b.value = n := by
  have hread : env.asInt (.number n.repr) = some (n : Int) := env.asInt_number n
  rw [boundedInt, hread, Option.bind_some]
  constructor
  · intro h
    split_ifs at h
    rw [← Option.some.inj h]
  · obtain ⟨value, hwithin⟩ := b
    rintro rfl
    exact dif_pos hwithin

variable {connector : RemoteHttpConnector env.toLanguage} {context : ConnectorContext env.toLanguage}

/-- The limits of a call as the service reads them. -/
def limitsBodyOf (connector : RemoteHttpConnector env.toLanguage)
    (context : ConnectorContext env.toLanguage)
    (h : Serviceable connector context) : LimitsBody :=
  ⟨⟨context.limits.maxDurationMs, Int.ofNat_le.mpr context.limits.positive.1,
    Int.ofNat_le.mpr h.duration⟩,
    ⟨context.limits.maxRows, Int.ofNat_le.mpr context.limits.positive.2.1, Int.ofNat_le.mpr h.rows⟩,
    ⟨connector.responseLimit context, Int.ofNat_le.mpr h.least, Int.ofNat_le.mpr h.most⟩⟩

theorem limitsBody_limitsJson {limits : LimitsBody} :
    limitsBody env (connector.limitsJson context) = some limits ↔
      limits.maxDurationMs.value = context.limits.maxDurationMs ∧
        limits.maxRows.value = context.limits.maxRows ∧
          limits.maxResponseBytes.value = connector.responseLimit context := by
  obtain ⟨maxDurationMs, maxRows, maxResponseBytes⟩ := limits
  simp [limitsBody, model, RemoteHttpConnector.limitsJson, defaultField, Table.get,
    Option.bind_eq_some_iff, boundedInt_number]

theorem scopeBody_map {scope : Option (InstitutionScope env.toLanguage)} {body : ScopeBody} :
    scopeBody ((scope.map RemoteHttpConnector.scopeJson).getD .null) = some body ↔
      ∃ s, scope = some s ∧ body = scopeBodyOf s := by
  cases scope with
  | none => simp [scopeBody, model]
  | some s => simp [scopeBody_scopeJson, eq_comm]

variable {arguments : Dict} {body : ExecuteBody} {toolName : String}
  {s : InstitutionScope env.toLanguage} {text : String}

theorem executeBody_payload :
    executeBody env (connector.payload toolName arguments context) = some body ↔
      body.sourceId = connector.sourceId.text ∧ body.toolName = toolName ∧ body.arguments = arguments ∧
        body.requestId = context.requestId.text ∧ body.principal = principalBodyOf context ∧
          (∃ s, context.institutionScope = some s ∧ body.institutionScope = scopeBodyOf s) ∧
            limitsBody env (connector.limitsJson context) = some body.limits := by
  have hread : executeBody env (connector.payload toolName arguments context) =
      (principalBody env (RemoteHttpConnector.principalJson context)).bind fun principal =>
        (scopeBody ((context.institutionScope.map RemoteHttpConnector.scopeJson).getD .null)).bind
            fun scope =>
          (limitsBody env (connector.limitsJson context)).bind fun limits =>
            if h : 1 ≤ context.requestId.text.length ∧ context.requestId.text.length ≤ 128 then
              some ⟨connector.sourceId.text, toolName, arguments, context.requestId.text, principal,
                  scope, limits, h⟩
            else none := rfl
  rw [hread, principalBody_principalJson, Option.bind_some]
  simp only [Option.bind_eq_some_iff, scopeBody_map, Option.dite_none_right_eq_some, Option.some.injEq]
  constructor
  · rintro ⟨_, ⟨s, hs, rfl⟩, limits, hlimits, hshort, rfl⟩
    exact ⟨rfl, rfl, rfl, rfl, rfl, ⟨s, hs, rfl⟩, hlimits⟩
  · obtain ⟨sourceId, toolName, arguments, requestId, principal, institutionScope, limits, hshort⟩ :=
      body
    rintro ⟨rfl, rfl, rfl, rfl, rfl, ⟨s, hs, rfl⟩, hlimits⟩
    exact ⟨_, ⟨s, hs, rfl⟩, limits, hlimits, hshort, rfl⟩

theorem requestId_ne_empty (context : ConnectorContext env.toLanguage) :
    context.requestId.text ≠ "" := by
  intro hempty
  have hblank := context.requestId.named
  rw [hempty] at hblank
  simp [Language.blank, strip] at hblank

/-- The bodies are read exactly when the call is within the bounds of the service and names a scope. -/
theorem exists_executeBody (toolName : String) (arguments : Dict)
    (hs : context.institutionScope = some s) (h : Serviceable connector context) :
    ∃ body, executeBody env (connector.payload toolName arguments context) = some body := by
  have hlength : 1 ≤ context.requestId.text.length := by
    have hne := requestId_ne_empty context
    rw [ne_eq, ← String.length_eq_zero_iff] at hne
    omega
  exact ⟨⟨connector.sourceId.text, toolName, arguments, context.requestId.text, principalBodyOf context,
    scopeBodyOf s, limitsBodyOf connector context h, hlength, h.short⟩,
    executeBody_payload.mpr ⟨rfl, rfl, rfl, rfl, rfl, ⟨s, hs, rfl⟩,
      limitsBody_limitsJson.mpr ⟨rfl, rfl, rfl⟩⟩⟩

theorem serviceable_of_executeBody
    (h : executeBody env (connector.payload toolName arguments context) = some body) :
    Serviceable connector context := by
  obtain ⟨-, -, -, hrequest, -, -, hlimits⟩ := executeBody_payload.mp h
  obtain ⟨hduration, hrows, hbytes⟩ := limitsBody_limitsJson.mp hlimits
  have hduration' := body.limits.maxDurationMs.within
  have hrows' := body.limits.maxRows.within
  have hbytes' := body.limits.maxResponseBytes.within
  refine ⟨hrequest ▸ body.short.2, ?_, ?_, ?_, ?_⟩ <;> omega

/-! ## Acceptance -/

variable {settings : ConnectorSettings env.toLanguage}

theorem compareDigest_self (h : ∀ c ∈ text.toList, c.toNat < 128) :
    compareDigest text text = .ok true := by
  rw [compareDigest, if_pos, decide_eq_true rfl]
  rw [List.all_eq_true]
  intro c hc
  rcases List.mem_append.mp hc with hc | hc
  · exact decide_eq_true (h c hc)
  · exact decide_eq_true (h c hc)

theorem headers_authorization {requestId token : String} (htoken : connector.authToken = some token)
    (hne : token ≠ "") : (connector.headers requestId).get "Authorization" =
        some ("Bearer " ++ token) := by
  have hfilter : (some token).filter (· ≠ "") = some token := by
    rw [Option.filter_some, if_pos (decide_eq_true hne)]
  rw [RemoteHttpConnector.headers, htoken, hfilter]
  split_ifs <;> simp [Table.get]

theorem authenticated_headers {requestId : String}
    (htoken : connector.authToken = some settings.serviceToken)
    (hcarries : env.carries ("Bearer " ++ settings.serviceToken) = true) :
    settings.authenticated ((connector.headers requestId).get "Authorization") = .ok true := by
  have hne : "Bearer " ++ settings.serviceToken ≠ "" := by
    intro h
    have := congrArg String.length h
    simp at this
  rw [headers_authorization htoken settings.required.2, ConnectorSettings.authenticated]
  have hfilter : (some ("Bearer " ++ settings.serviceToken)).filter (· ≠ "") =
      some ("Bearer " ++ settings.serviceToken) := by
    rw [Option.filter_some, if_pos (decide_eq_true hne)]
  rw [hfilter]
  exact compareDigest_self (env.carries_ascii _ hcarries)

theorem given_batch : given s.batchId = true ↔ s.batchId.isSome := by
  rw [given_iff, Option.isSome_iff_exists]
  refine exists_congr fun batch => and_iff_left_of_imp ?_
  rintro hbatch rfl
  have hblank := s.batch "" hbatch
  simp [Language.blank, strip] at hblank

/-- The scope that a context names, as the service answers for it. -/
def effectiveOf (s : InstitutionScope env.toLanguage) : EffectiveScope :=
    ⟨s.collegeId, s.departmentId, s.batchId⟩

theorem authorize_body {effective : EffectiveScope}
    (hsource : connector.sourceId.text = settings.sourceId)
    (htoken : connector.authToken = some settings.serviceToken)
    (hcarries : env.carries ("Bearer " ++ settings.serviceToken) = true)
        (happroved : toolName ∈ approvedTools)
    (hs : context.institutionScope = some s)
    (hbody : executeBody env (connector.payload toolName arguments context) = some body) :
    settings.authorize body ((connector.headers context.requestId.text).get "Authorization") =
      .ok effective ↔ Entitled settings context ∧ effective = effectiveOf s := by
  obtain ⟨hbsource, htool, -, -, hprincipal, ⟨s', hs', hscope⟩, -⟩ := executeBody_payload.mp hbody
  obtain rfl := Option.some.inj (hs.symm.trans hs')
  have hcapable : "ask:read_only" ∈ body.principal.capabilities ↔
    .askReadOnly ∈ context.capabilities := by
    rw [hprincipal]
    simp [principalBodyOf, text_eq_askReadOnly]
  have htype : given body.principal.type = true ↔ ∃ role, context.principalType = some role := by
    rw [hprincipal, given_iff]
    simp [principalBodyOf, text_ne_empty]
  have hstudent : body.principal.type = some "student" ↔ context.principalType = some .student := by
    rw [hprincipal]
    simp [principalBodyOf, text_eq_student]
  have hgrant : ∃ grant ∈ (principalBodyOf context).scopes, coversBody grant (scopeBodyOf s) = true := by
    refine ⟨scopeBodyOf s, ?_, ?_⟩
    · rw [principalBodyOf, hs]
      exact List.mem_singleton_self _
    · rw [coversBody_eq]
      exact s.covers_self
  rw [ConnectorSettings.authorize_eq_ok, ConnectorSettings.effectiveScope_eq_ok, hcapable, htype,
    hstudent, authenticated_headers htoken hcarries, hbsource, htool, hsource, hprincipal, hscope]
  constructor
  · rintro ⟨-, -, hid, hrole, -, hrevoked, hconsent, hask, hwithin, -, heffective⟩
    refine ⟨⟨⟨given_iff.mp hid, hrole⟩, hrevoked, hask, ?_, s, hs, hwithin⟩, heffective⟩
    rintro hrole ⟨s', hs', hbatch⟩
    obtain rfl := Option.some.inj (hs.symm.trans hs')
    exact hconsent hrole (given_batch.mpr hbatch)
  · rintro ⟨⟨⟨hid, hrole⟩, hrevoked, hask, hconsent, s', hs', hwithin⟩, heffective⟩
    obtain rfl := Option.some.inj (hs.symm.trans hs')
    exact ⟨rfl, rfl, given_iff.mpr hid, hrole, happroved, hrevoked,
      fun hrole hbatch => hconsent hrole ⟨s, hs, given_batch.mp hbatch⟩, hask, hwithin, hgrant,
      heffective⟩

/-- **The service accepts** exactly the calls of entitled contexts that are within its bounds. -/
theorem accepts_iff (hsource : connector.sourceId.text = settings.sourceId)
    (htoken : connector.authToken = some settings.serviceToken)
    (hcarries : env.carries ("Bearer " ++ settings.serviceToken) = true)
        (happroved : toolName ∈ approvedTools) :
    Accepts env settings (connector.request toolName arguments context) ↔
      Entitled settings context ∧ Serviceable connector context := by
  constructor
  · rintro ⟨body, effective, hbody, hauthorized⟩
    obtain ⟨-, -, -, -, -, ⟨s, hs, -⟩, -⟩ := executeBody_payload.mp hbody
    exact ⟨((authorize_body hsource htoken hcarries happroved hs hbody).mp hauthorized).1,
      serviceable_of_executeBody hbody⟩
  · rintro ⟨hentitled, hserviceable⟩
    obtain ⟨s, hs, -⟩ := hentitled.scope
    obtain ⟨body, hbody⟩ := exists_executeBody toolName arguments hs hserviceable
    exact ⟨body, effectiveOf s, hbody,
      (authorize_body hsource htoken hcarries happroved hs hbody).mpr ⟨hentitled, rfl⟩⟩

/-! ## The answer -/

theorem strip_plain (hhead : text.toList.head?.all Char.isAlphanum = true)
    (hlast : text.toList.getLast?.all Char.isAlphanum = true) : strip env.isSpace text = text := by
  rw [strip_eq_trim, trim_eq_self_iff.mpr, String.ofList_toList]
  rw [Option.all_eq_true] at hhead hlast
  exact ⟨fun c hc => env.plain c (hhead c hc), fun c hc => env.plain c (hlast c hc)⟩

theorem safeText_self {text default : String} (hstrip : strip env.isSpace text = text)
    (hlength : text.length ≤ 500) : safeText env.toLanguage (.string text) default = text := by
  rw [safeText_string, hstrip, upTo, List.take_of_length_le hlength, String.ofList_toList]

theorem requireText_self (hstrip : strip env.isSpace text = text) (hne : text ≠ "") :
    ∃ named, requireText env.toLanguage text = .ok named ∧ named.text = text := by
  have hblank : env.blank text = false := by
    rw [Language.blank, hstrip]
    exact decide_eq_false hne
  exact ⟨_, dif_pos hblank, hstrip⟩

theorem orElse_string {other : Json} (h : env.blank text = false) :
    orElse env.toLanguage (.string text) other = .string text := by
  refine if_pos (decide_eq_true ?_)
  rintro rfl
  simp [Language.blank, strip] at h

theorem parseDatetime_isoformat (t : τ) : parseDatetime env (.string (env.isoformat t)) = some t := by
  obtain ⟨hblank, hplain⟩ := env.isoformat_plain t
  have hsame : withOffset (env.isoformat t) = env.isoformat t := by
    have hflat : (env.isoformat t).toList.flatMap (fun c => if c = 'Z' then "+00:00".toList else [c]) =
        (env.isoformat t).toList := by
      have hsingle : ∀ c ∈ (env.isoformat t).toList,
          (if c = 'Z' then "+00:00".toList else [c]) = [c] := by
        intro c hc
        refine if_neg ?_
        rintro rfl
        exact hplain hc
      rw [List.flatMap_congr hsingle, List.flatMap_singleton']
    rw [withOffset, hflat, String.ofList_toList]
  rw [parseDatetime, if_neg (by rw [hblank]; exact Bool.false_ne_true), hsame,
    env.fromIsoformat_isoformat]

theorem parsePeriod_json (now : τ) :
    parsePeriod env (.object [("started_at", .string (env.isoformat (env.newYear now))),
      ("ended_at", .string (env.isoformat now))]) = some ⟨env.newYear now, now, env.newYear_le now⟩ := by
  have hblank := fun t => (env.isoformat_plain t).1
  simp [parsePeriod, claim, Table.get, orElse_string (hblank _), parseDatetime_isoformat, dataPeriod,
    env.newYear_le]

theorem readProvenance_json (now later : τ) (hsource : connector.sourceId.text = settings.sourceId)
    (hlength : settings.sourceId.length ≤ 500) :
    ∃ p, connector.readProvenance later (settings.provenanceJson now) = .ok p ∧
      p.sourceId.text = settings.sourceId := by
  obtain ⟨named, hnamed, htext⟩ := requireText_self settings.stripped settings.required.1
  have hword : ∀ text ∈ ["identity_fields_not_selected", "aggregate_only", "internal_api"],
      strip env.isSpace text = text := by
    intro text htext
    simp only [List.mem_cons, List.not_mem_nil, or_false] at htext
    obtain rfl | rfl | rfl := htext <;> exact strip_plain (by decide) (by decide)
  obtain ⟨selected, hselected, -⟩ := requireText_self (hword "identity_fields_not_selected" (by simp))
    (by decide)
  obtain ⟨aggregate, haggregate, -⟩ := requireText_self (hword "aggregate_only" (by simp)) (by decide)
  have hkind : SourceKind.ofText (safeText env.toLanguage (.string "internal_api") "") =
    .ok .internalApi := by
    rw [safeText_self (hword "internal_api" (by simp)) (by decide)]
    rfl
  have hrows : env.int (.number (Nat.repr 1)) = .ok 1 := env.int_number 1
  refine ⟨⟨named, .internalApi, now, true, 1, some ⟨env.newYear now, now, env.newYear_le now⟩,
    [selected, aggregate]⟩, ?_, htext⟩
  simp [RemoteHttpConnector.readProvenance, ConnectorSettings.provenanceJson, claim, Table.get, hsource,
    safeText_self settings.stripped hlength, hkind, hrows, parseDatetime_isoformat, parsePeriod_json,
    provenanceOf, hnamed, hselected, haggregate, env.str_string, truthy]
  rfl

/-- The result is a success with exactly the data of the answer, and the source is its only
provenance. -/
structure Served (settings : ConnectorSettings env.toLanguage) (answer : Dict) (r : ToolResult env) :
    Prop where
  status : r.status = .success
  data : r.data = .object answer
  warnings : r.warnings = []
  provenance : ∃ p, r.provenance = [p] ∧ p.sourceId.text = settings.sourceId

theorem strip_approved (env : WireEnv τ) (h : toolName ∈ approvedTools) :
    strip env.isSpace toolName = toolName ∧ toolName.length ≤ 500 ∧ toolName ≠ "" := by
  simp only [approvedTools, List.mem_cons, List.not_mem_nil, or_false] at h
  obtain rfl | rfl | rfl := h <;> exact ⟨strip_plain (by decide) (by decide), by decide, by decide⟩

theorem parseResult_envelope (now later : τ) (answer : Dict)
    (hsource : connector.sourceId.text = settings.sourceId)
    (hlength : settings.sourceId.length ≤ 500) (happroved : toolName ∈ approvedTools)
    (hs : context.institutionScope = some s) :
    ∃ r, connector.parseResult later toolName
      (settings.envelope toolName (effectiveOf s) answer now) context =
      .ok r ∧ Served settings answer r := by
  obtain ⟨hstrip, hshort, hne⟩ := strip_approved env happroved
  obtain ⟨p, hp, hpsource⟩ := readProvenance_json now later hsource hlength
  have hnamed : env.blank toolName = false := by
    rw [Language.blank, hstrip]
    exact decide_eq_false hne
  have hversion : safeText env.toLanguage (.string "2") "" = "2" :=
    safeText_self (strip_plain (by decide) (by decide)) (by decide)
  have hstatus : ResultStatus.ofText (safeText env.toLanguage (.string "success") "") =
    some .success := by
    rw [safeText_self (strip_plain (by decide) (by decide)) (by decide)]
    rfl
  have hattests : RemoteHttpConnector.attests context
      (settings.envelope toolName (effectiveOf s) answer now) = true := by
    refine RemoteHttpConnector.attests_iff.mpr ⟨s, s, hs, ?_, s.covers_self⟩
    exact scopeOf_scopeJson s
  refine ⟨⟨⟨toolName, hnamed⟩, .success, .object answer, [p], []⟩, ?_, ⟨rfl, rfl, rfl, p, rfl, hpsource⟩⟩
  rw [RemoteHttpConnector.parseResult, hattests]
  simp [ConnectorSettings.envelope, claim, Table.get, hversion, safeText_self hstrip hshort, hstatus]
  have hitems : [settings.provenanceJson now].mapM (connector.readProvenance later) = .ok [p] :=
    mapM_cons_eq_ok.mpr ⟨p, [], hp, rfl, rfl⟩
  have hnone : ([] : List (Option (Warning env.toLanguage))).reduceOption = [] := rfl
  simp [RemoteHttpConnector.parseProvenance, Table.get, hitems, toolResult, hnamed, claim, hnone]

theorem readBounded_exact {size maxBytes : Nat} (h : size ≤ maxBytes) :
    RemoteHttpConnector.readBounded env (some (toString size)) size maxBytes = .ok () := by
  have hdeclared : RemoteHttpConnector.checkDeclared env (some (toString size)) maxBytes = .ok () := by
    rw [RemoteHttpConnector.checkDeclared]
    split
    · rfl
    · next header hheader =>
      obtain rfl := Option.some.inj (Option.filter_eq_some_iff.mp hheader).1
      refine bind_eq_ok.mpr ⟨size, env.int_string size, if_neg ?_⟩
      omega
  exact bind_eq_ok.mpr ⟨(), hdeclared, if_neg (Nat.not_lt.mpr h)⟩

theorem headers_carried {requestId token : String} (htoken : connector.authToken = some token)
    (hrequest : env.carries requestId = true) (hcarries : env.carries ("Bearer " ++ token) = true) :
    (connector.headers requestId).any (fun header => !env.carries header.2) = false := by
  have hplain : ∀ text ∈ ["application/json", "2"], env.carries text = true := by
    intro text htext
    have hvisible : text.toList.all (fun c => decide (33 ≤ c.toNat ∧ c.toNat ≤ 126)) = true := by
      simp only [List.mem_cons, List.not_mem_nil, or_false] at htext
      obtain rfl | rfl := htext <;> decide
    exact env.carries_visible _ fun c hc => of_decide_eq_true (List.all_eq_true.mp hvisible c hc)
  have hjson := hplain "application/json" (by simp)
  have htwo := hplain "2" (by simp)
  rw [RemoteHttpConnector.headers, htoken, Option.filter_some]
  split_ifs <;> simp [hjson, htwo, hrequest, hcarries]

/-- **The client returns what the service reports**: exactly the data, from that source only. -/
theorem execute_reply {repository : Repository} {now later : τ} {arguments answer : Dict}
    (hsource : connector.sourceId.text = settings.sourceId)
    (htoken : connector.authToken = some settings.serviceToken) (hlength : settings.sourceId.length ≤
        500)
    (hrequest : env.carries context.requestId.text = true)
    (hcarries : env.carries ("Bearer " ++ settings.serviceToken) = true)
        (happroved : toolName ∈ approvedTools)
    (hallowed : toolName ∈ connector.allowedTools) (hentitled : Entitled settings context)
    (hserviceable : Serviceable connector context) (hs : context.institutionScope = some s)
    (hanswer : repository toolName arguments (effectiveOf s).json context.limits.maxRows = .ok answer)
    (hfits : dumpsSize (.object (settings.envelope toolName (effectiveOf s) answer now)) ≤
      connector.responseLimit context) :
    ∃ r, connector.execute (settings.reply repository now) later toolName arguments context = .ok r ∧
      Served settings answer r := by
  obtain ⟨body, hbody⟩ := exists_executeBody toolName arguments hs hserviceable
  obtain ⟨-, htool, harguments, -, -, -, hlimits⟩ := executeBody_payload.mp hbody
  obtain ⟨-, hrows, hbytes⟩ := limitsBody_limitsJson.mp hlimits
  have hserve : settings.serve repository now (connector.request toolName arguments context) =
      .ok (settings.envelope toolName (effectiveOf s) answer now) := by
    rw [ConnectorSettings.serve, RemoteHttpConnector.request, hbody]
    refine ConnectorSettings.execute_eq_ok.mpr ⟨effectiveOf s, answer, ?_, ?_, ?_, ?_⟩
    · exact (authorize_body hsource htoken hcarries happroved hs hbody).mpr ⟨hentitled, rfl⟩
    · rw [htool, harguments, hrows]
      exact hanswer
    · rw [htool]
    · rw [hbytes]
      exact Int.ofNat_le.mpr hfits
  have hsize : wireSize (.object (settings.envelope toolName (effectiveOf s) answer now)) ≤
      connector.maxResponseBytes := by
    calc _ ≤ dumpsSize (.object (settings.envelope toolName (effectiveOf s) answer now)) :=
      wireSize_le_dumpsSize _
      _ ≤ connector.responseLimit context := hfits
      _ ≤ connector.maxResponseBytes := min_le_right _ _
  obtain ⟨r, hr, hserved⟩ := parseResult_envelope now later answer hsource hlength
    happroved hs
  have hrequested : connector.requestJson (settings.reply repository now)
      (connector.request toolName arguments context) =
        .ok (settings.envelope toolName (effectiveOf s) answer now) := by
    have hreply : settings.reply repository now (connector.request toolName arguments context) =
        .body (some (toString (wireSize
        (.object (settings.envelope toolName (effectiveOf s) answer now)))))
          (wireSize (.object (settings.envelope toolName (effectiveOf s) answer now)))
          (some (.object (settings.envelope toolName (effectiveOf s) answer now))) := by
      rw [ConnectorSettings.reply, hserve]
    have hcarried : (connector.request toolName arguments context).headers.any
        (fun header => !env.carries header.2) = false := headers_carried htoken hrequest hcarries
    rw [RemoteHttpConnector.requestJson, hcarried, if_neg Bool.false_ne_true, hreply]
    exact bind_eq_ok.mpr ⟨(), readBounded_exact hsize, rfl⟩
  refine ⟨r, ?_, hserved⟩
  have hresult : (do
      let data ← connector.requestJson (settings.reply repository now)
        (connector.request toolName arguments context)
      connector.parseResult later toolName data context) = .ok r := bind_eq_ok.mpr ⟨_, hrequested, hr⟩
  rw [RemoteHttpConnector.execute, if_neg (not_not.mpr hallowed), hresult]

/-- **Client and service agree**: of the calls that can be sent, the service accepts exactly those of
entitled contexts within its bounds, comparing scopes as the client does, and the client then returns
exactly the data of the repository, from that source only. Whatever any service answers, a client that
requires an attestation returns data only of a body that attests a scope within the requested one and
names no other source. -/
theorem client_service_agree (settings : ConnectorSettings env.toLanguage)
    (connector : RemoteHttpConnector env.toLanguage) (context : ConnectorContext env.toLanguage)
    (toolName : String) (hsource : connector.sourceId.text = settings.sourceId)
    (htoken : connector.authToken = some settings.serviceToken) (happroved : toolName ∈ approvedTools)
    (hallowed : toolName ∈ connector.allowedTools) (hlength : settings.sourceId.length ≤ 500)
    (hrequest : env.carries context.requestId.text = true)
    (hcarries : env.carries ("Bearer " ++ settings.serviceToken) = true) :
    (∀ arguments, Accepts env settings (connector.request toolName arguments context) ↔
      Entitled settings context ∧ Serviceable connector context) ∧
    (∀ granted requested : InstitutionScope env.toLanguage,
      coversBody (scopeBodyOf granted) (scopeBodyOf requested) = granted.covers requested) ∧
    (∀ repository now later arguments answer s, context.institutionScope = some s →
      repository toolName arguments (effectiveOf s).json context.limits.maxRows = .ok answer →
      dumpsSize (.object (settings.envelope toolName (effectiveOf s) answer now)) ≤
      connector.responseLimit context →
      Accepts env settings (connector.request toolName arguments context) →
      ∃ r, connector.execute (settings.reply repository now) later toolName arguments context = .ok r ∧
        Served settings answer r) ∧
    ∀ (client : RemoteHttpConnector env.toLanguage) (send : Request → Reply) (now : τ) (tool : String)
      (arguments : Dict) (asked : ConnectorContext env.toLanguage) (r : ToolResult env),
      client.scopeAttestationRequired = true → client.execute send now tool arguments asked = .ok r →
      r.data ≠ .null → ∃ contentLength size data,
        send (client.request tool arguments asked) = .body contentLength size (some (.object data)) ∧
          r.data = claim data "data" ∧ Vouched client.sourceId.text asked data := by
  have haccepts : ∀ arguments, Accepts env settings (connector.request toolName arguments context) ↔
      Entitled settings context ∧ Serviceable connector context :=
    fun arguments => accepts_iff hsource htoken hcarries happroved
  refine ⟨haccepts, coversBody_eq, ?_, ?_⟩
  · intro repository now later arguments answer s hs hanswer hfits haccepted
    obtain ⟨hentitled, hserviceable⟩ := (haccepts arguments).mp haccepted
    exact execute_reply hsource htoken hlength hrequest hcarries happroved hallowed hentitled
      hserviceable hs
      hanswer hfits
  · intro client send now tool arguments asked r hrequired hr hdata
    obtain ⟨contentLength, size, data, hsend, hparse⟩ := RemoteHttpConnector.execute_data hr hdata
    obtain ⟨hcopy, hattests, hsources, -⟩ := RemoteHttpConnector.parseResult_data hparse hdata
    exact ⟨contentLength, size, data, hsend, hcopy,
      RemoteHttpConnector.attests_iff.mp (hattests hrequired), hsources⟩

/-! ## A call of the overview, and one for more rows than the service takes -/

/-- Two moments of one year. -/
inductive Moment where
  | newYear | today
  deriving DecidableEq

def Moment.isoformat : Moment → String
  | newYear => "2026-01-01T09:30:00+00:00"
  | today => "2026-03-05T09:30:00+00:00"

theorem isSpace_of_isAlphanum (c : Char) (h : c.isAlphanum = true) : c.isWhitespace = false := by
  by_contra hspace
  rw [Bool.not_eq_false] at hspace
  simp only [Char.isWhitespace, Bool.or_eq_true, decide_eq_true_eq] at hspace
  obtain ((rfl | rfl) | rfl) | rfl := hspace <;> exact absurd h (by decide)

def digitsValue (s : String) : Nat := Nat.ofDigitChars 10 s.toList 0

theorem digitsValue_toString (n : Nat) : digitsValue (toString n) = n := by
  have hrepr : toString n = Nat.repr n := rfl
  rw [digitsValue, hrepr, Nat.toList_repr, Nat.ofDigitChars_ten_toDigits]

def isPrintable (s : String) : Bool := s.toList.all fun c => decide (32 ≤ c.toNat ∧ c.toNat ≤ 126)

theorem isPrintable_of_visible (s : String) (h : ∀ c ∈ s.toList, 33 ≤ c.toNat ∧ c.toNat ≤ 126) :
    isPrintable s = true := by
  refine List.all_eq_true.mpr fun c hc => decide_eq_true ?_
  have hvisible := h c hc
  omega

theorem ascii_of_isPrintable (s : String) (h : isPrintable s = true) : ∀ c ∈ s.toList, c.toNat <
    128 := by
  intro c hc
  have hprintable := of_decide_eq_true (List.all_eq_true.mp h c hc)
  omega

def Moment.ofText (s : String) : Option Moment := [newYear, today].find? (·.isoformat = s)

theorem Moment.ofText_isoformat (t : Moment) : Moment.ofText t.isoformat = some t := by
  cases t <;> decide

theorem Moment.isoformat_plain (t : Moment) :
    plainLanguage.blank t.isoformat = false ∧ 'Z' ∉ t.isoformat.toList := by
  cases t <;> exact ⟨by decide, by decide⟩

def Moment.precedes : Moment → Moment → Bool
  | newYear, today => true
  | _, _ => false

theorem Moment.newYear_le (t : Moment) : Moment.precedes t .newYear = false := by
  cases t <;> rfl

/-- Ascii texts, the two moments, and whole numbers. -/
def plainWire : WireEnv Moment where
  toLanguage := plainLanguage
  carries := isPrintable
  fromIsoformat := Moment.ofText
  isoformat := Moment.isoformat
  precedes := Moment.precedes
  newYear _ := .newYear
  int
    | .number s | .string s => .ok (digitsValue s)
    | _ => .error .typeError
  str
    | .string s => s
    | _ => "?"
  asBool
    | .bool b => some b
    | _ => none
  asInt
    | .number s => some (digitsValue s)
    | _ => none
  plain := isSpace_of_isAlphanum
  carries_visible := isPrintable_of_visible
  carries_ascii := ascii_of_isPrintable
  fromIsoformat_isoformat := Moment.ofText_isoformat
  isoformat_plain := Moment.isoformat_plain
  newYear_le := Moment.newYear_le
  int_number n := congrArg (fun m : Nat => Except.ok (m : Int)) (digitsValue_toString n)
  int_string n := congrArg (fun m : Nat => Except.ok (m : Int)) (digitsValue_toString n)
  str_string _ := rfl
  asBool_bool _ := rfl
  asInt_number n := congrArg (fun m : Nat => some (m : Int)) (digitsValue_toString n)

theorem remote_named : plainLanguage.blank "college_a_remote" = false := by decide
theorem request_named : plainLanguage.blank "req-1" = false := by decide
theorem remote_stripped : strip plainLanguage.isSpace "college_a_remote" = "college_a_remote" := by
    decide
theorem remote_required : "college_a_remote" ≠ "" ∧ "connector-dev-token" ≠ "" := by decide
theorem overview_approves : ["institution.overview"] ≠ ([] : List String) := by decide
theorem million_positive : 0 < 1000000 := by omega

def collegeService : ConnectorSettings plainWire.toLanguage :=
  ⟨"college_a_remote", "connector-dev-token", "gcu", [], [], remote_stripped, remote_required⟩

def collegeClient : RemoteHttpConnector plainWire.toLanguage :=
  ⟨⟨"college_a_remote", remote_named⟩, ["institution.overview"], 1000000, some "connector-dev-token",
    true, overview_approves, million_positive⟩

/-- The principal of the college asks for at most so many rows. -/
def asking (maxRows : Nat) (h : 0 < 10000 ∧ 0 < maxRows ∧ 0 < 1000000) :
    ConnectorContext plainWire.toLanguage where
  requestId := ⟨"req-1", request_named⟩
  limits := ⟨10000, maxRows, 1000000, h⟩
  principalId := some "p-1"
  principalType := some .principal
  institutionScope := some wholeCollege
  capabilities := [.askReadOnly]
  consentVerified := false
  revoked := false

theorem asking_entitled {maxRows : Nat} (h : 0 < 10000 ∧ 0 < maxRows ∧ 0 < 1000000) :
    Entitled collegeService (asking maxRows h) where
  identified := ⟨⟨"p-1", rfl, by decide⟩, .principal, rfl⟩
  active := rfl
  capable := List.mem_singleton_self _
  consent hrole := by cases hrole
  scope := ⟨wholeCollege, rfl, rfl, .inl rfl, .inl rfl⟩

theorem carries_token : plainWire.carries "req-1" = true ∧
    plainWire.carries ("Bearer " ++ "connector-dev-token") = true := by decide

/-- The number of students is what the client returns. -/
theorem client_service_agree_overview : ∃ r, collegeClient.execute
    (collegeService.reply (fun _ _ _ _ => .ok [("active_students", .number "1240")]) .today)
    .today "institution.overview" [] (asking 500 (by omega)) = .ok r ∧
      Served collegeService [("active_students", .number "1240")] r := by
  obtain ⟨haccepts, -, hserved, -⟩ := client_service_agree collegeService collegeClient
    (asking 500 (by omega)) "institution.overview" rfl rfl (by decide) (by decide)
        (by decide) carries_token.1
    carries_token.2
  refine hserved _ .today .today [] _ wholeCollege rfl rfl (by decide) ((haccepts []).mpr ?_)
  exact ⟨asking_entitled _, by decide, by decide, by decide, by decide, by decide⟩

/-- More rows than the service takes are refused, whoever asks. -/
theorem rows_refused : ¬ ∀ (settings : ConnectorSettings plainWire.toLanguage)
    (connector : RemoteHttpConnector plainWire.toLanguage)
        (context : ConnectorContext plainWire.toLanguage)
    (toolName : String) (arguments : Dict), connector.sourceId.text = settings.sourceId →
      connector.authToken = some settings.serviceToken → toolName ∈ approvedTools →
        toolName ∈ connector.allowedTools →
          (Accepts plainWire settings (connector.request toolName arguments context) ↔
            Entitled settings context) := by
  intro h
  have hentitled := @asking_entitled 1001 (by omega)
  obtain ⟨body, -, hbody, -⟩ :=
    (h collegeService collegeClient _ "institution.overview" [] rfl rfl (by decide)
    (by decide)).mpr hentitled
  have hrows : 1001 ≤ 1000 := (serviceable_of_executeBody hbody).rows
  omega

end GuruJi.Connectors
