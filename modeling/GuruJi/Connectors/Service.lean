import GuruJi.Connectors.Wire

/-!
# The connector service

The service of an institution reads a request, authorises it and answers with what its repository reports
for the scope that was asked for. It writes nothing, and attests the scope that it used.

* `authorize_eq_ok`: the requests that are authorised, and the scope each is answered for;
* `execute_eq_ok`: what is answered.
-/

namespace GuruJi.Connectors

open GuruJi.Lib GuruJi.Auth
open GuruJi.Agents (Json Dict)

/-- `APPROVED_TOOLS`. -/
def approvedTools : List String :=
  ["institution.overview", "institution.attendance_summary", "institution.source_health"]

/-- `ConnectorSettings`, whose source and token are stripped and not empty. -/
structure ConnectorSettings (u : Language) where
  sourceId : String
  serviceToken : String
  allowedCollegeId : String
  allowedDepartments : List String
  allowedBatches : List String
  stripped : strip u.isSpace sourceId = sourceId
  required : sourceId ≠ "" ∧ serviceToken ≠ ""

/-- How a request is refused: its body is not as declared, with a status code, or by an error. -/
inductive Refusal where
  | unprocessable
  | httpException (statusCode : Nat) (detail : String)
  | typeError
  deriving DecidableEq

/-! ## Reading a body -/

/-- A number within bounds. -/
structure Bounded (low high : Int) where
  value : Int
  within : low ≤ value ∧ value ≤ high

structure ScopeBody where
  collegeId : String
  departmentId : Option String
  batchId : Option String

structure PrincipalBody where
  id : Option String
  type : Option String
  capabilities : List String
  scopes : List ScopeBody
  consentVerified : Bool
  revoked : Bool

structure LimitsBody where
  maxDurationMs : Bounded 1 120000
  maxRows : Bounded 1 1000
  maxResponseBytes : Bounded 1024 10000000

structure ExecuteBody where
  sourceId : String
  toolName : String
  arguments : Dict
  requestId : String
  principal : PrincipalBody
  institutionScope : ScopeBody
  limits : LimitsBody
  short : 1 ≤ requestId.length ∧ requestId.length ≤ 128

section
variable {α : Type}

/-- A model with the given fields, and no other: `extra="forbid"`. -/
def model (names : List String) (read : Dict → Option α) : Json → Option α
  | .object fields => if fields.all fun field => names.contains field.1 then read fields else none
  | _ => none

def requiredField (fields : Dict) (name : String) (read : Json → Option α) : Option α :=
  (fields.get name).bind read

def defaultField (fields : Dict) (name : String) (read : Json → Option α) (default : α) : Option α :=
  match fields.get name with
  | some value => read value
  | none => some default

/-- `str | None`. -/
def nullableText : Json → Option (Option String)
  | .null => some none
  | value => (textOf value).map some

/-- `list[...]`. -/
def listOf (read : Json → Option α) : Json → Option (List α)
  | .array items => items.mapM read
  | _ => none

/-- `dict[str, object]`. -/
def objectOf : Json → Option Dict
  | .object fields => some fields
  | _ => none

/-- `Field(ge=low, le=high)`. -/
def boundedInt (asInt : Json → Option Int) (low high : Int) (value : Json) : Option (Bounded low high) :=
  (asInt value).bind fun n => if h : low ≤ n ∧ n ≤ high then some ⟨n, h⟩ else none

end

/-- `ScopeBody`. -/
def scopeBody : Json → Option ScopeBody :=
  model ["college_id", "department_id", "batch_id"] fun fields => do
    let collegeId ← requiredField fields "college_id" textOf
    let departmentId ← defaultField fields "department_id" nullableText none
    let batchId ← defaultField fields "batch_id" nullableText none
    return ⟨collegeId, departmentId, batchId⟩

variable {τ : Type}

/-- `PrincipalBody`. -/
def principalBody (env : WireEnv τ) : Json → Option PrincipalBody :=
  model ["id", "type", "capabilities", "scopes", "consent_verified", "revoked"] fun fields => do
    let id ← defaultField fields "id" nullableText none
    let type ← defaultField fields "type" nullableText none
    let capabilities ← defaultField fields "capabilities" (listOf textOf) []
    let scopes ← defaultField fields "scopes" (listOf scopeBody) []
    let consentVerified ← defaultField fields "consent_verified" env.asBool false
    let revoked ← defaultField fields "revoked" env.asBool false
    return ⟨id, type, capabilities, scopes, consentVerified, revoked⟩

theorem defaultDuration : (1 : Int) ≤ 5000 ∧ (5000 : Int) ≤ 120000 := by omega
theorem defaultRows : (1 : Int) ≤ 100 ∧ (100 : Int) ≤ 1000 := by omega
theorem defaultResponse : (1024 : Int) ≤ 1000000 ∧ (1000000 : Int) ≤ 10000000 := by omega

def defaultLimits : LimitsBody :=
    ⟨⟨5000, defaultDuration⟩, ⟨100, defaultRows⟩, ⟨1000000, defaultResponse⟩⟩

/-- `LimitsBody`. -/
def limitsBody (env : WireEnv τ) : Json → Option LimitsBody :=
  model ["max_duration_ms", "max_rows", "max_response_bytes"] fun fields => do
    let maxDurationMs ← defaultField fields "max_duration_ms" (boundedInt env.asInt 1 120000)
      defaultLimits.maxDurationMs
    let maxRows ← defaultField fields "max_rows" (boundedInt env.asInt 1 1000) defaultLimits.maxRows
    let maxResponseBytes ← defaultField fields "max_response_bytes" (boundedInt env.asInt 1024 10000000)
      defaultLimits.maxResponseBytes
    return ⟨maxDurationMs, maxRows, maxResponseBytes⟩

/-- `ExecuteBody`. -/
def executeBody (env : WireEnv τ) : Json → Option ExecuteBody :=
  model ["contract_version", "source_id", "tool_name", "arguments", "request_id", "principal",
      "institution_scope", "limits"] fun fields => do
    let contractVersion ← requiredField fields "contract_version" textOf
    let sourceId ← requiredField fields "source_id" textOf
    let toolName ← requiredField fields "tool_name" textOf
    let arguments ← defaultField fields "arguments" objectOf []
    let requestId ← requiredField fields "request_id" textOf
    let principal ← requiredField fields "principal" (principalBody env)
    let institutionScope ← requiredField fields "institution_scope" scopeBody
    let limits ← defaultField fields "limits" (limitsBody env) defaultLimits
    if contractVersion ≠ "2" then none
    else if h : 1 ≤ requestId.length ∧ requestId.length ≤ 128 then
      some ⟨sourceId, toolName, arguments, requestId, principal, institutionScope, limits, h⟩
    else none

/-! ## Authorisation -/

/-- `EffectiveScope`. -/
structure EffectiveScope where
  collegeId : String
  departmentId : Option String
  batchId : Option String

def EffectiveScope.json (effective : EffectiveScope) : Dict :=
  asDict effective.collegeId effective.departmentId effective.batchId

/-- A granted department or batch against the requested one, as `_covers` compares them. -/
def coversValue (granted requested : Option String) : Bool :=
  match requested with
  | none => granted.isNone
  | some name => !(granted.isSome && granted ≠ some name)

/-- `_covers`. -/
def coversBody (grant requested : ScopeBody) : Bool :=
  if grant.collegeId ≠ requested.collegeId then false
  else if !coversValue grant.departmentId requested.departmentId then false
  else if !coversValue grant.batchId requested.batchId then false
  else true

/-- The allowed names, unless there are none, do not contain the requested one. -/
def outside (allowed : List String) (requested : Option String) : Bool :=
  !allowed.isEmpty && !requested.any allowed.contains

def given (value : Option String) : Bool := value.any (· ≠ "")

/-- `hmac.compare_digest`, which raises for texts that are not ascii. -/
def compareDigest (a b : String) : Except Refusal Bool :=
  if (a.toList ++ b.toList).all fun c => decide (c.toNat < 128) then .ok (a = b) else .error .typeError

namespace ConnectorSettings
variable {u : Language} (settings : ConnectorSettings u)

/-- `_effective_scope`. -/
def effectiveScope (body : ExecuteBody) : Except Refusal EffectiveScope :=
  let requested := body.institutionScope
  if requested.collegeId ≠ settings.allowedCollegeId then
    .error (.httpException 403 "requested college is outside connector scope")
  else if outside settings.allowedDepartments requested.departmentId then
    .error (.httpException 403 "requested department is outside connector scope")
  else if outside settings.allowedBatches requested.batchId then
    .error (.httpException 403 "requested batch is outside connector scope")
  else if !body.principal.scopes.any fun grant => coversBody grant requested then
    .error (.httpException 403 "principal scope does not cover connector request")
  else .ok ⟨requested.collegeId, requested.departmentId, requested.batchId⟩

def authenticated (authorization : Option String) : Except Refusal Bool :=
  match authorization.filter (· ≠ "") with
  | none => .ok false
  | some authorization => compareDigest authorization ("Bearer " ++ settings.serviceToken)

/-- `_authorize`. -/
def authorize (body : ExecuteBody) (authorization : Option String) : Except Refusal EffectiveScope := do
  let verified ← settings.authenticated authorization
  if !verified then .error (.httpException 401 "connector service authentication failed")
  else if body.sourceId ≠ settings.sourceId then .error (.httpException 403 "source identity mismatch")
  else if !given body.principal.id || !given body.principal.type then
    .error (.httpException 403 "verified principal identity is required")
  else if body.toolName ∉ approvedTools then
    .error (.httpException 403 "tool is not approved by connector contract")
  else if body.principal.revoked then .error (.httpException 403 "revoked principal")
  else if body.principal.type = some "student" && given body.institutionScope.batchId
      && !body.principal.consentVerified then
    .error (.httpException 403 "verified consent is required for student batch scope")
  else if "ask:read_only" ∉ body.principal.capabilities then
    .error (.httpException 403 "read-only capability is required")
  else settings.effectiveScope body

end ConnectorSettings

/-! ## The answer -/

/-- What the repository raises: that it does not know the tool, or anything else. -/
inductive RepositoryError where
  | keyError | other
  deriving DecidableEq

/-- `repository.execute`, of a tool, its arguments, a scope and the most rows. -/
abbrev Repository := String → Dict → Dict → Int → Except RepositoryError Dict

namespace ConnectorSettings
variable {env : WireEnv τ} (settings : ConnectorSettings env.toLanguage)

def provenanceJson (now : τ) : Json :=
  .object [("source_id", .string settings.sourceId), ("source_type", .string "internal_api"),
    ("retrieved_at", .string (env.isoformat now)), ("complete", .bool true),
    ("rows_used", .number (toString 1)),
    ("data_period", .object [("started_at", .string (env.isoformat (env.newYear now))),
      ("ended_at", .string (env.isoformat now))]),
    ("redactions_applied",
      .array [.string "identity_fields_not_selected", .string "aggregate_only"])]

def envelope (toolName : String) (effective : EffectiveScope) (data : Dict) (now : τ) : Dict :=
  [("contract_version", .string "2"), ("source_id", .string settings.sourceId),
    ("tool_name", .string toolName), ("status", .string "success"), ("data", .object data),
    ("effective_scope", .object effective.json),
    ("provenance", .array [settings.provenanceJson now]), ("warnings", .array [])]

/-- `repository.execute`, with its errors hidden. -/
def report (repository : Repository) (body : ExecuteBody) (effective : EffectiveScope) :
    Except Refusal Dict :=
  match repository body.toolName body.arguments effective.json body.limits.maxRows.value with
  | .ok data => .ok data
  | .error .keyError => .error (.httpException 403 "tool is not implemented by connector repository")
  | .error .other => .error (.httpException 503 "institution reporting repository unavailable")

/-- `execute`. -/
def execute (repository : Repository) (now : τ) (body : ExecuteBody) (authorization : Option String) :
    Except Refusal Dict := do
  let effective ← settings.authorize body authorization
  let data ← report repository body effective
  let envelope := settings.envelope body.toolName effective data now
  if body.limits.maxResponseBytes.value < dumpsSize (.object envelope) then
    .error (.httpException 413 "connector response exceeds caller limit")
  else .ok envelope

/-- `POST /v1/execute`. -/
def serve (repository : Repository) (now : τ) (req : Request) : Except Refusal Dict :=
  match executeBody env req.payload with
  | none => .error .unprocessable
  | some body => settings.execute repository now body (req.headers.get "Authorization")

def reply (repository : Repository) (now : τ) (req : Request) : Reply :=
  match settings.serve repository now req with
  | .error _ => .failed
  | .ok envelope =>
    .body (some (toString (wireSize (.object envelope)))) (wireSize (.object envelope))
        (some (.object envelope))

end ConnectorSettings

/-! ## What is authorised -/

/-- The scope of the request lies in the college, the departments and the batches of the service. -/
structure Within {u : Language} (settings : ConnectorSettings u) (requested : ScopeBody) : Prop where
  college : requested.collegeId = settings.allowedCollegeId
  department : settings.allowedDepartments = [] ∨ ∃ d ∈ requested.departmentId,
      d ∈ settings.allowedDepartments
  batch : settings.allowedBatches = [] ∨ ∃ b ∈ requested.batchId, b ∈ settings.allowedBatches

theorem outside_eq_false {allowed : List String} {requested : Option String} :
    outside allowed requested = false ↔ allowed = [] ∨ ∃ name ∈ requested, name ∈ allowed := by
  cases requested <;> simp [outside, or_iff_not_imp_left]

theorem given_iff {value : Option String} : given value = true ↔ ∃ text, value = some text ∧
    text ≠ "" := by
  cases value <;> simp [given]

namespace ConnectorSettings
variable {u : Language} {settings : ConnectorSettings u} {body : ExecuteBody}
    {effective : EffectiveScope}

theorem effectiveScope_eq_ok : settings.effectiveScope body = .ok effective ↔
    Within settings body.institutionScope ∧
      (∃ grant ∈ body.principal.scopes, coversBody grant body.institutionScope = true) ∧
        effective = ⟨body.institutionScope.collegeId, body.institutionScope.departmentId,
          body.institutionScope.batchId⟩ := by
  rw [effectiveScope]
  constructor
  · intro h
    split_ifs at h with hcollege hdepartment hbatch hcovers
    rw [Bool.not_eq_true, outside_eq_false] at hdepartment hbatch
    rw [Bool.not_eq_true', Bool.not_eq_false, List.any_eq_true] at hcovers
    exact ⟨⟨not_not.mp hcollege, hdepartment, hbatch⟩, hcovers, (Except.ok.inj h).symm⟩
  · rintro ⟨hwithin, hcovers, rfl⟩
    have hdepartment := outside_eq_false.mpr hwithin.department
    have hbatch := outside_eq_false.mpr hwithin.batch
    rw [if_neg (not_not.mpr hwithin.college), hdepartment, hbatch, List.any_eq_true.mpr hcovers]
    rfl

/-- The requests that carry the token and are authorised: the principal is known, not revoked, may ask,
and has the consent that a student needs; and the scope is within that of the service. -/
theorem authorize_eq_ok {authorization : Option String} :
    settings.authorize body authorization = .ok effective ↔
      settings.authenticated authorization = .ok true ∧ body.sourceId = settings.sourceId ∧
        given body.principal.id = true ∧ given body.principal.type = true ∧
          body.toolName ∈ approvedTools ∧
          body.principal.revoked = false ∧ (body.principal.type = some "student" →
            given body.institutionScope.batchId = true → body.principal.consentVerified = true) ∧
              "ask:read_only" ∈ body.principal.capabilities ∧ settings.effectiveScope body =
              .ok effective := by
  rw [authorize, bind_eq_ok]
  constructor
  · rintro ⟨verified, hverified, h⟩
    split_ifs at h with h1 h2 h3 h4 h5 h6 h7
    simp only [Bool.not_eq_true', Bool.not_eq_false] at h1
    simp only [Bool.or_eq_true, Bool.not_eq_true', not_or, Bool.not_eq_false] at h3
    simp only [Bool.and_eq_true, decide_eq_true_eq, Bool.not_eq_true', not_and, Bool.not_eq_false,
      and_imp] at h6
    subst h1
    exact ⟨hverified, not_not.mp h2, h3.1, h3.2, h4, Bool.not_eq_true _ ▸ h5, h6, h7, h⟩
  · rintro ⟨hverified, hsource, hid, htype, htool, hrevoked, hconsent, hcapable, h⟩
    refine ⟨true, hverified, ?_⟩
    rw [if_neg (by simp), if_neg (not_not.mpr hsource), if_neg (by simp [hid, htype]),
      if_neg (not_not.mpr htool), if_neg (by simp [hrevoked]), if_neg ?_, if_neg (not_not.mpr hcapable)]
    · exact h
    · simp only [Bool.and_eq_true, decide_eq_true_eq, Bool.not_eq_true', not_and, Bool.not_eq_false,
        and_imp]
      exact hconsent

end ConnectorSettings

namespace ConnectorSettings
variable {env : WireEnv τ} {settings : ConnectorSettings env.toLanguage} {repository : Repository}
    {now : τ}
  {body : ExecuteBody} {authorization : Option String}

/-- What is answered: the report for the scope of the request, in an envelope that the caller has room
for. -/
theorem execute_eq_ok {answer : Dict} : settings.execute repository now body authorization = .ok answer ↔
    ∃ effective data, settings.authorize body authorization = .ok effective ∧
      repository body.toolName body.arguments effective.json body.limits.maxRows.value = .ok data ∧
        answer = settings.envelope body.toolName effective data now ∧
          (dumpsSize (.object answer) : Int) ≤ body.limits.maxResponseBytes.value := by
  rw [execute]
  simp only [bind_eq_ok]
  constructor
  · rintro ⟨effective, heffective, data, hdata, h⟩
    rw [report] at hdata
    split at hdata
    · next hreport =>
      obtain rfl := Except.ok.inj hdata
      split_ifs at h with hfits
      obtain rfl := Except.ok.inj h
      exact ⟨effective, _, heffective, hreport, rfl, Int.not_lt.mp hfits⟩
    · cases hdata
    · cases hdata
  · rintro ⟨effective, data, heffective, hreport, rfl, hfits⟩
    refine ⟨effective, heffective, data, ?_, if_neg (Int.not_lt.mpr hfits)⟩
    rw [report, hreport]

end ConnectorSettings

end GuruJi.Connectors
