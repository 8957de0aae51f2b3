import GuruJi.Connectors.Wire

/-!
# The connector client

`RemoteHttpConnector` sends an approved tool call to the connector service of an institution and reads
the answer, which may be any JSON. Driver details stop here: what comes back is a `ToolResult`.

* `execute_eq_ok`: a result that carries data was read from a body;
* `parseResult_data`: a body whose data is returned attests a scope within the requested one, and names
  no other source.
-/

namespace GuruJi.Connectors

open GuruJi.Lib GuruJi.Auth
open GuruJi.Agents (Json Dict)

/-! ## Results -/

inductive ResultStatus where
  | success | partialResult | stale | unauthorized | unavailable | timeout | invalidResult
  deriving DecidableEq

namespace ResultStatus

def text : ResultStatus → String
  | success => "success"
  | partialResult => "partial"
  | stale => "stale"
  | unauthorized => "unauthorized"
  | unavailable => "unavailable"
  | timeout => "timeout"
  | invalidResult => "invalid_result"

def all : List ResultStatus :=
  [success, partialResult, stale, unauthorized, unavailable, timeout, invalidResult]

/-- `ResultStatus(item)`, for an item that is one. -/
def ofText (item : String) : Option ResultStatus := all.find? (·.text = item)

def isAnswer (status : ResultStatus) : Bool := [success, partialResult, stale].contains status

end ResultStatus

inductive SourceKind where
  | internalDatabase | internalApi | publicWeb | controlPlane
  deriving DecidableEq

namespace SourceKind

def text : SourceKind → String
  | internalDatabase => "internal_database"
  | internalApi => "internal_api"
  | publicWeb => "public_web"
  | controlPlane => "control_plane"

def all : List SourceKind := [internalDatabase, internalApi, publicWeb, controlPlane]

/-- `SourceKind(item)`, which refuses other texts. -/
def ofText (item : String) : Except PyError SourceKind :=
  match all.find? (·.text = item) with
  | some kind => .ok kind
  | none => .error .valueError

end SourceKind

variable {τ : Type}

/-- `DataPeriod`. -/
structure DataPeriod (env : WireEnv τ) where
  startedAt : τ
  endedAt : τ
  ordered : env.precedes endedAt startedAt = false

/-- `Provenance`. -/
structure Provenance (env : WireEnv τ) where
  sourceId : Named env.toLanguage
  sourceType : SourceKind
  retrievedAt : τ
  complete : Bool
  rowsUsed : Nat
  dataPeriod : Option (DataPeriod env)
  redactionsApplied : List (Named env.toLanguage)

/-- `Warning`. -/
structure Warning (u : Language) where
  code : Named u
  message : Named u
  sourceId : Option (Named u)

/-- `ToolResult`. -/
structure ToolResult (env : WireEnv τ) where
  toolName : Named env.toLanguage
  status : ResultStatus
  data : Json
  provenance : List (Provenance env)
  warnings : List (Warning env.toLanguage)

/-- `ToolResult(...)`, which refuses a blank tool name. -/
def toolResult (env : WireEnv τ) (toolName : String) (status : ResultStatus) (data : Json)
    (provenance : List (Provenance env)) (warnings : List (Warning env.toLanguage)) :
    Except PyError (ToolResult env) :=
  if h : env.blank toolName = false then .ok ⟨⟨toolName, h⟩, status, data, provenance, warnings⟩
  else .error .valueError

/-- `Warning(code, message, source_id)`. -/
def warningOf (u : Language) (code message sourceId : String) : Except PyError (Warning u) := do
  let code ← requireText u code
  let message ← requireText u message
  let sourceId ← requireText u sourceId
  return ⟨code, message, some sourceId⟩

def failure (env : WireEnv τ) (toolName : String) (status : ResultStatus)
    (code message sourceId : String) : Except PyError (ToolResult env) := do
  let warning ← warningOf env.toLanguage code message sourceId
  toolResult env toolName status .null [] [warning]

/-- `unavailable_result`. -/
def unavailableResult (env : WireEnv τ) (toolName sourceId message : String) : Except PyError
    (ToolResult env) :=
  failure env toolName .unavailable "source_unavailable" message sourceId

/-! ## The connector and the context of a call -/

/-- `QueryLimits`, as far as a connector reads them. -/
structure QueryLimits where
  maxDurationMs : Nat
  maxRows : Nat
  maxResponseBytes : Nat
  positive : 0 < maxDurationMs ∧ 0 < maxRows ∧ 0 < maxResponseBytes

/-- `ConnectorContext`. -/
structure ConnectorContext (u : Language) where
  requestId : Named u
  limits : QueryLimits
  principalId : Option String
  principalType : Option PrincipalType
  institutionScope : Option (InstitutionScope u)
  capabilities : List Capability
  consentVerified : Bool
  revoked : Bool

/-- `RemoteHttpConnector`. -/
structure RemoteHttpConnector (u : Language) where
  sourceId : Named u
  allowedTools : List String
  maxResponseBytes : Nat
  authToken : Option String
  scopeAttestationRequired : Bool
  approves : allowedTools ≠ []
  bounded : 0 < maxResponseBytes

/-! ## Reading values -/

/-- `_safe_text`. -/
def safeText (u : Language) (value : Json) (default : String) : String :=
  match value with
  | .string s => upTo 500 (strip u.isSpace s)
  | _ => default

/-- `value.replace("Z", "+00:00")`. -/
def withOffset (value : String) : String :=
  String.ofList (value.toList.flatMap fun c => if c = 'Z' then "+00:00".toList else [c])

/-- `_parse_datetime`. -/
def parseDatetime (env : WireEnv τ) : Json → Option τ
  | .string s => if env.blank s then none else env.fromIsoformat (withOffset s)
  | _ => none

/-- `DataPeriod(...)`, which refuses an end before its start. -/
def dataPeriod (env : WireEnv τ) (startedAt endedAt : τ) : Option (DataPeriod env) :=
  if h : env.precedes endedAt startedAt = false then some ⟨startedAt, endedAt, h⟩ else none

/-- `_parse_period`. -/
def parsePeriod (env : WireEnv τ) : Json → Option (DataPeriod env)
  | .object value => do
    let started ← parseDatetime env
      (orElse env.toLanguage (claim value "started_at") (claim value "start"))
    let ended ← parseDatetime env (orElse env.toLanguage (claim value "ended_at") (claim value "end"))
    dataPeriod env started ended
  | _ => none

/-- `Provenance(...)`, which refuses negative rows and blank texts. -/
def provenanceOf (env : WireEnv τ) (sourceId : String) (sourceType : SourceKind) (retrievedAt : τ)
    (complete : Bool) (rowsUsed : Int) (dataPeriod : Option (DataPeriod env))
    (redactionsApplied : List String) : Except PyError (Provenance env) := do
  let sourceId ← requireText env.toLanguage sourceId
  if rowsUsed < 0 then .error .valueError
  else
    let redactions ← redactionsApplied.mapM (requireText env.toLanguage)
    return ⟨sourceId, sourceType, retrievedAt, complete, rowsUsed.toNat, dataPeriod, redactions⟩

/-- `_warning`; `none` for a value that is skipped. -/
def warning (u : Language) (value : Json) (sourceId : String) : Except PyError (Option (Warning u)) :=
  match value with
  | .object fields =>
    let code := safeText u (claim fields "code") ""
    let message := safeText u (claim fields "message") ""
    if code = "" ∨ message = "" then .ok none
    else
      let named := safeText u (claim fields "source_id") sourceId
      some <$> warningOf u code message (if named = "" then sourceId else named)
  | _ => .ok none

namespace RemoteHttpConnector

/-! ## The request -/

section
variable {u : Language} (connector : RemoteHttpConnector u)

/-- `_headers`, and the content type of a payload. -/
def headers (requestId : String) : Table String String :=
  [("Accept", "application/json"), ("X-Guru-Connector-Contract", "2")]
    ++ (if requestId = "" then [] else [("X-Request-ID", requestId)])
    ++ ((connector.authToken.filter (· ≠ "")).map fun token =>
        ("Authorization", "Bearer " ++ token)).toList
    ++ [("Content-Type", "application/json")]

/-- `as_dict` of a scope. -/
def scopeJson (s : InstitutionScope u) : Json := .object (asDict s.collegeId s.departmentId s.batchId)

def principalJson (context : ConnectorContext u) : Json :=
  .object [("id", (context.principalId.map Json.string).getD .null),
    ("type", (context.principalType.map fun role => Json.string role.text).getD .null),
    ("capabilities", .array (((context.capabilities.map Capability.text).mergeSort (· ≤ ·)).map
    .string)), ("scopes", .array (context.institutionScope.map scopeJson).toList),
    ("consent_verified", .bool context.consentVerified),
    ("revoked", .bool context.revoked)]

def responseLimit (context : ConnectorContext u) : Nat :=
  min context.limits.maxResponseBytes connector.maxResponseBytes

def limitsJson (context : ConnectorContext u) : Json :=
  .object [("max_duration_ms", .number (toString context.limits.maxDurationMs)),
    ("max_rows", .number (toString context.limits.maxRows)),
    ("max_response_bytes", .number (toString (connector.responseLimit context)))]

def payload (toolName : String) (arguments : Dict) (context : ConnectorContext u) : Json :=
  .object [("contract_version", .string "2"),
    ("source_id", .string connector.sourceId.text),
    ("tool_name", .string toolName),
    ("arguments", .object arguments),
    ("request_id", .string context.requestId.text),
    ("principal", principalJson context),
    ("institution_scope", (context.institutionScope.map scopeJson).getD .null),
    ("limits", connector.limitsJson context)]

def request (toolName : String) (arguments : Dict) (context : ConnectorContext u) : Request :=
  ⟨connector.headers context.requestId.text, connector.payload toolName arguments context⟩

end

variable {env : WireEnv τ} (connector : RemoteHttpConnector env.toLanguage)

/-! ## The answer -/

/-- The declared length of a body, if it has one, is within the bound. -/
def checkDeclared (env : WireEnv τ) (contentLength : Option String) (maxBytes : Nat) :
    Except PyError Unit :=
  match contentLength.filter (· ≠ "") with
  | none => .ok ()
  | some header => do
    let declared ← env.int (.string header)
    -- the refusal is a `ValueError` too, and is caught with those of `int`
    if (maxBytes : Int) < declared then .error .valueError else .ok ()

/-- `_read_bounded`: a body whose declared or real size exceeds the bound is refused. -/
def readBounded (env : WireEnv τ) (contentLength : Option String) (size maxBytes : Nat) :
    Except PyError Unit := do
  checkDeclared env contentLength maxBytes
  if maxBytes < size then .error .responseTooLarge else .ok ()

/-- `_request_json`. -/
def requestJson (send : Request → Reply) (req : Request) : Except PyError Dict :=
  if req.headers.any fun header => !env.carries header.2 then .error .httpError
  else match send req with
    | .timeout => .error .timeoutException
    | .failed => .error .httpError
    | .body contentLength size value => do
      readBounded env contentLength size connector.maxResponseBytes
      match value with
      | some (.object data) => .ok data
      | _ => .error .valueError

def invalidResult (toolName code message : String) : Except PyError (ToolResult env) :=
  failure env toolName .invalidResult code message connector.sourceId.text

/-- The scope that a body attests, under one of its three names. -/
def attestedScope (u : Language) (data : Dict) : Option (InstitutionScope u) :=
  scopeOf u (orElse u (orElse u (claim data "effective_scope") (claim data "institution_scope"))
    (claim data "scope"))

/-- The body attests a scope within the requested one. -/
def attests {u : Language} (context : ConnectorContext u) (data : Dict) : Bool :=
  match context.institutionScope, attestedScope u data with
  | some requested, some attested => requested.covers attested
  | _, _ => false

def readProvenance (now : τ) : Json → Except PyError (Provenance env)
  | .object item =>
    if safeText env.toLanguage (claim item "source_id") "" ≠ connector.sourceId.text then
      .error .valueError
    else match (Table.get item "redactions_applied").getD (.array []) with
      | .array redactions => do
        let sourceType ← SourceKind.ofText (safeText env.toLanguage (claim item "source_type") "")
        let rowsUsed ← env.int ((Table.get item "rows_used").getD (.number (toString 0)))
        provenanceOf env connector.sourceId.text sourceType
          ((parseDatetime env (claim item "retrieved_at")).getD now)
          (truthy env.toLanguage ((Table.get item "complete").getD (.bool true))) rowsUsed
          (parsePeriod env (claim item "data_period")) (redactions.map env.str)
      | _ => .error .valueError
  | _ => .error .valueError

/-- The end of `_parse_result`, where the status, the scope and the warnings are read. -/
def parseProvenance (now : τ) (toolName : String) (data : Dict) (status : ResultStatus)
    (warnings : List (Warning env.toLanguage)) : Except PyError (ToolResult env) :=
  match (data.get "provenance").getD (.array []) with
  | .array items =>
    match items.mapM (connector.readProvenance now) with
    | .error .typeError | .error .valueError =>
      connector.invalidResult toolName "invalid_remote_result" "remote result provenance was invalid"
    | .error e => .error e
    | .ok provenance =>
      if status.isAnswer && provenance.isEmpty then
        connector.invalidResult toolName "invalid_remote_result"
          "successful remote results must include provenance"
      else toolResult env toolName status (claim data "data") provenance warnings
  | _ =>
    connector.invalidResult toolName "invalid_remote_result" "remote result provenance was not a list"

/-- `_parse_result`. -/
def parseResult (now : τ) (toolName : String) (data : Dict) (context : ConnectorContext env.toLanguage) :
    Except PyError (ToolResult env) :=
  if safeText env.toLanguage (claim data "contract_version") "" ≠ "2" then
    connector.invalidResult toolName "invalid_remote_result"
      "remote result contract version was not supported"
  else if safeText env.toLanguage (claim data "tool_name") toolName ≠ toolName then
    connector.invalidResult toolName "invalid_remote_result"
      "remote result tool name did not match the request"
  else match ResultStatus.ofText (safeText env.toLanguage (claim data "status") "") with
    | none =>
      connector.invalidResult toolName "invalid_remote_result"
          "remote result contained an unknown status"
    | some status =>
      if connector.scopeAttestationRequired && !attests context data then
        connector.invalidResult toolName "invalid_scope_attestation"
          "remote result did not attest an effective scope within the request"
      else match (data.get "warnings").getD (.array []) with
        | .array raw => do
          let warnings ← raw.mapM fun value => warning env.toLanguage value connector.sourceId.text
          connector.parseProvenance now toolName data status warnings.reduceOption
        | _ =>
          connector.invalidResult toolName "invalid_remote_result"
              "remote result warnings were not a list"

/-- `execute`. -/
def execute (send : Request → Reply) (now : τ) (toolName : String) (arguments : Dict)
    (context : ConnectorContext env.toLanguage) : Except PyError (ToolResult env) :=
  if toolName ∉ connector.allowedTools then
    unavailableResult env toolName connector.sourceId.text
        "tool is not enabled by the connector contract"
  else
    let result := do
      let data ← connector.requestJson send (connector.request toolName arguments context)
      connector.parseResult now toolName data context
    match result with
    | .ok result => .ok result
    | .error .timeoutException =>
      failure env toolName .timeout "source_timeout" "remote connector request timed out"
          connector.sourceId.text
    | .error .responseTooLarge | .error .httpError | .error .valueError =>
      failure env toolName .unavailable "source_unavailable"
        "remote connector response was unavailable or invalid" connector.sourceId.text
    | .error e => .error e

end RemoteHttpConnector

/-! ## What is returned -/

theorem safeText_string {u : Language} (s default : String) :
    safeText u (.string s) default = upTo 500 (strip u.isSpace s) := rfl

theorem toolResult_eq_ok {env : WireEnv τ} {toolName : String} {status : ResultStatus} {data : Json}
    {provenance : List (Provenance env)} {warnings : List (Warning env.toLanguage)}
        {r : ToolResult env} :
    toolResult env toolName status data provenance warnings = .ok r ↔ r.toolName.text = toolName ∧
      r.status = status ∧ r.data = data ∧ r.provenance = provenance ∧ r.warnings = warnings := by
  rw [toolResult]
  constructor
  · intro h
    split_ifs at h
    obtain rfl := Except.ok.inj h
    exact ⟨rfl, rfl, rfl, rfl, rfl⟩
  · rintro ⟨rfl, rfl, rfl, rfl, rfl⟩
    exact dif_pos r.toolName.named

theorem failure_data {env : WireEnv τ} {toolName code message sourceId : String} {status : ResultStatus}
    {r : ToolResult env} (h : failure env toolName status code message sourceId = .ok r) :
    r.data = .null := by
  obtain ⟨warning, -, h⟩ := bind_eq_ok.mp h
  exact (toolResult_eq_ok.mp h).2.2.1

/-- The item names a source: its text, trimmed and cut, is the id of the source. -/
def NamesSource (u : Language) (sourceId : String) (item : Json) : Prop :=
  ∃ fields name, item = .object fields ∧ claim fields "source_id" = .string name ∧
    upTo 500 (strip u.isSpace name) = sourceId

def provenanceItems (data : Dict) : List Json :=
  match (data.get "provenance").getD (.array []) with
  | .array items => items
  | _ => []

/-- The body attests a scope within the requested one, and every item of its provenance names
the source. -/
structure Vouched {u : Language} (sourceId : String) (context : ConnectorContext u) (data : Dict) :
    Prop where
  scope : ∃ requested attested, context.institutionScope = some requested ∧
    RemoteHttpConnector.attestedScope u data = some attested ∧ requested.covers attested = true
  source : ∀ item ∈ provenanceItems data, NamesSource u sourceId item

namespace RemoteHttpConnector
variable {env : WireEnv τ} {connector : RemoteHttpConnector env.toLanguage}
  {context : ConnectorContext env.toLanguage} {now : τ} {toolName : String} {data : Dict}

theorem attests_iff {u : Language} {context : ConnectorContext u} : attests context data = true ↔
    ∃ requested attested, context.institutionScope = some requested ∧
      attestedScope u data = some attested ∧ requested.covers attested = true := by
  rw [attests]
  split
  · next requested attested hrequested hattested =>
    constructor
    · intro hcovers
      exact ⟨requested, attested, hrequested, hattested, hcovers⟩
    · rintro ⟨_, _, hrequested', hattested', hcovers⟩
      rw [Option.some.inj (hrequested.symm.trans hrequested'),
        Option.some.inj (hattested.symm.trans hattested')]
      exact hcovers
  · next hnone =>
    refine iff_of_false Bool.false_ne_true ?_
    rintro ⟨requested, attested, hrequested, hattested, -⟩
    exact hnone requested attested hrequested hattested

theorem names_of_readProvenance {item : Json} {provenance : Provenance env}
    (h : connector.readProvenance now item = .ok provenance) :
    NamesSource env.toLanguage connector.sourceId.text item := by
  cases item with
  | object fields =>
    rw [readProvenance] at h
    split_ifs at h with hsource
    rw [ne_eq, not_not] at hsource
    cases hname : claim fields "source_id" with
    | string name =>
      rw [hname, safeText_string] at hsource
      exact ⟨fields, name, rfl, hname, hsource⟩
    | null | bool | number | array | object =>
      -- no text reads as the empty one, which is blank
      rw [hname] at hsource
      have hblank : env.blank "" = false := (congrArg _ hsource).trans connector.sourceId.named
      simp [Language.blank, strip] at hblank
  | null | bool | number | string | array => cases h

theorem parseProvenance_data {status : ResultStatus} {warnings : List (Warning env.toLanguage)}
    {r : ToolResult env} (h : connector.parseProvenance now toolName data status warnings = .ok r)
    (hdata : r.data ≠ .null) : r.data = claim data "data" ∧
      (∀ item ∈ provenanceItems data, NamesSource env.toLanguage connector.sourceId.text item) ∧
        (provenanceItems data).mapM (connector.readProvenance now) = .ok r.provenance := by
  have hinvalid : ∀ {code message : String},
      connector.invalidResult toolName code message = .ok r → False :=
    fun h => hdata (failure_data h)
  rw [parseProvenance] at h
  rw [provenanceItems]
  split at h
  · next items hitems =>
    split at h
    · exact (hinvalid h).elim
    · exact (hinvalid h).elim
    · cases h
    · next provenance hprovenance =>
      split_ifs at h
      · exact (hinvalid h).elim
      · obtain ⟨-, -, hr, rfl, -⟩ := toolResult_eq_ok.mp h
        refine ⟨hr, fun item hitem => ?_, hprovenance⟩
        obtain ⟨_, hread⟩ := exists_of_mapM hprovenance hitem
        exact names_of_readProvenance hread
  · exact (hinvalid h).elim

/-- **Data is returned only if it is vouched for**: the scope by an attestation where one is required,
the source by every item of the provenance. -/
theorem parseResult_data {r : ToolResult env}
    (h : connector.parseResult now toolName data context = .ok r) (hdata : r.data ≠ .null) :
    r.data = claim data "data" ∧
      (connector.scopeAttestationRequired = true → attests context data = true) ∧
        (∀ item ∈ provenanceItems data, NamesSource env.toLanguage connector.sourceId.text item) ∧
          (provenanceItems data).mapM (connector.readProvenance now) = .ok r.provenance := by
  have hinvalid : ∀ {code message : String},
      connector.invalidResult toolName code message = .ok r → False :=
    fun h => hdata (failure_data h)
  rw [parseResult] at h
  split at h
  · exact (hinvalid h).elim
  split at h
  · exact (hinvalid h).elim
  split at h
  · exact (hinvalid h).elim
  split at h
  · exact (hinvalid h).elim
  next hattests =>
  split at h
  · obtain ⟨warnings, -, h⟩ := bind_eq_ok.mp h
    obtain ⟨hr, hsource, hprovenance⟩ := parseProvenance_data h hdata
    refine ⟨hr, fun hrequired => ?_, hsource, hprovenance⟩
    simpa [hrequired] using hattests
  · exact (hinvalid h).elim

theorem execute_data {send : Request → Reply} {arguments : Dict} {r : ToolResult env}
    (h : connector.execute send now toolName arguments context = .ok r) (hdata : r.data ≠ .null) :
    ∃ contentLength size data, send (connector.request toolName arguments context) =
      .body contentLength size (some (.object data)) ∧
        connector.parseResult now toolName data context = .ok r := by
  rw [execute] at h
  by_cases hallowed : toolName ∉ connector.allowedTools
  · rw [if_pos hallowed] at h
    exact absurd (failure_data h) hdata
  rw [if_neg hallowed] at h
  dsimp only at h
  split at h
  · next result hresult =>
    obtain rfl := Except.ok.inj h
    obtain ⟨data, hrequest, hparse⟩ := bind_eq_ok.mp hresult
    rw [requestJson] at hrequest
    split_ifs at hrequest
    split at hrequest
    · cases hrequest
    · cases hrequest
    · next contentLength size value hsend =>
      obtain ⟨-, -, hvalue⟩ := bind_eq_ok.mp hrequest
      split at hvalue
      · obtain rfl := Except.ok.inj hvalue
        exact ⟨contentLength, size, _, hsend, hparse⟩
      · cases hvalue
  · exact absurd (failure_data h) hdata
  · exact absurd (failure_data h) hdata
  · exact absurd (failure_data h) hdata
  · exact absurd (failure_data h) hdata
  · cases h

end RemoteHttpConnector

end GuruJi.Connectors
