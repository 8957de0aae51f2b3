import GuruJi.Auth.Claims

/-!
# Policy decisions

The two policy decision points: the local one decides by the principal and the requested scope, the other
one asks a policy service, whose answer is arbitrary JSON.

* `localEvaluate_iff`: what the local one allows;
* `evaluate_iff`: what the other one allows, whatever the service answers;
* **`never_widens_iff`**: the service widens no authority iff some scope of the principal covers the
  requested one, and its unusable answers are denials iff fresh ones are required;
* `widens`: the service answers for the whole college, and the principal has a department.
-/

namespace GuruJi.Auth

open GuruJi.Lib
open GuruJi.Agents (Json Dict)

/-- What decisions read in texts, and the ids that are drawn for them. -/
structure PolicyEnv extends Language where
  upper : String → String
  uuid : Nat → String
  letters : ∀ c : Char, c.isAlpha = true → isSpace c = false
  upper_allow : upper "ALLOW" = "ALLOW"

inductive DenialReason where
  | unauthenticated | revoked | missingCapability | outOfScope | parentalConsentRequired | unknownAction
  | pdpUnavailable | stalePolicy
  deriving DecidableEq

/-- Why a request is denied: a known reason, or what the policy service says. -/
inductive Reason where
  | known (reason : DenialReason)
  | said (text : String)
  deriving DecidableEq

/-- `PolicyDecision`. -/
structure PolicyDecision (u : Language) where
  allowed : Bool
  action : String
  resourceType : String
  resourceId : String
  policyVersion : String
  decisionId : String
  matchedScope : Option (InstitutionScope u)
  reason : Option Reason
  named : ∀ text ∈ [action, resourceType, resourceId, policyVersion, decisionId], u.blank text = false
  judged : reason.isNone = allowed

/-- The arguments of `evaluate`. -/
structure PolicyRequest (u : Language) where
  principal : Principal u
  requiredCapability : Capability
  action : String
  resourceType : String
  resourceId : String
  requestedScope : InstitutionScope u

/-- `_allowed_actions`. -/
def allowedActions : List String :=
    ["list", "search", "retrieve", "mcp.tool.call", "execute", "write", "high_risk"]

namespace PolicyRequest
variable {u : Language} (req : PolicyRequest u)

/-- `PolicyDecision(...)`, which refuses blank names. -/
def decision (policyVersion decisionId : String) (matchedScope : Option (InstitutionScope u))
    (reason : Option Reason) : Option (PolicyDecision u) :=
  if h : ∀ text ∈ [req.action, req.resourceType, req.resourceId, policyVersion, decisionId],
    u.blank text = false
  then some ⟨reason.isNone, req.action, req.resourceType, req.resourceId, policyVersion, decisionId,
    matchedScope, reason, h, rfl⟩
  else none

/-- `_denied`. -/
def denied (policyVersion decisionId : String) (reason : Reason) : Option (PolicyDecision u) :=
  req.decision policyVersion decisionId none (some reason)

/-- A student asks about a batch, and no parent has consented. -/
def consentMissing : Bool :=
  req.principal.principalType =
      .student && req.requestedScope.batchId.isSome && !req.principal.consentVerified

end PolicyRequest

/-! ## The local decision point -/

/-- `LocalPolicyDecisionPoint.policy_version`. -/
def localPolicyVersion : String := "guru-local-v1"

/-- `LocalPolicyDecisionPoint.evaluate`. -/
def localEvaluate (env : PolicyEnv) (req : PolicyRequest env.toLanguage) :
    Option (PolicyDecision env.toLanguage) :=
  let decisionId := "pdp-" ++ env.uuid 0
  let deny := fun reason => req.denied localPolicyVersion decisionId (.known reason)
  if req.action ∉ allowedActions then deny .unknownAction
  else if req.principal.authenticated = false ∨ req.principal.principalType = .anonymous then
    deny .unauthenticated
  else if req.principal.revoked then deny .revoked
  else if !req.principal.hasCapability req.requiredCapability then deny .missingCapability
  else if req.consentMissing then deny .parentalConsentRequired
  else match req.principal.scopes.find? (·.covers req.requestedScope) with
    | none => deny .outOfScope
    | some scope => req.decision localPolicyVersion decisionId (some scope) none

/-! ## Reading an answer -/

/-- What `post`, `raise_for_status` and `json` give: an `HTTPError`, a `ValueError` or the body. -/
inductive Response where
  | failed
  | unreadable
  | body (value : Json)

def stripped (u : Language) : Json → Option String
  | .string s => if u.blank s then none else some (strip u.isSpace s)
  | _ => none

/-- `_decision_id`. -/
def decisionId (env : PolicyEnv) (payload : Dict) : String :=
  let value := orElse env.toLanguage
    (orElse env.toLanguage (claim payload "callId") (claim payload "decisionId"))
    (claim payload "requestId")
  (stripped env.toLanguage value).getD ("pdp-" ++ env.uuid 1)

/-- `raw_policy_version`. -/
def rawPolicyVersion (u : Language) (payload : Dict) : Json :=
  orElse u (claim payload "policyVersion") (claim payload "policy_version")

/-- Whether a status is one of the stale ones; `str` of a value that is no text is none of them. -/
def staleStatus (u : Language) : Json → Bool
  | .string s => ["stale", "unknown", "unavailable"].contains (u.lower (strip u.isSpace s))
  | _ => false

/-- `payload.get("stale") is True`. -/
def saysStale (payload : Dict) : Bool :=
  match claim payload "stale" with
  | .bool b => b
  | _ => false

def stale (u : Language) (payload : Dict) : Bool :=
  staleStatus u (((payload.get "policyStatus").or (payload.get "status")).getD (.string "current")) ||
    saysStale payload

/-- `_extract_resource`. -/
def extractResource (payload : Dict) (resourceId : String) : Option Dict :=
  match claim payload "resourceInstances" with
  | .object instances => match claim instances resourceId with
    | .object item => some item
    | _ => none
  | _ => none

/-- What an answer says of an action. -/
structure ActionResult (u : Language) where
  effect : Json
  reason : Option String
  matchedScope : Option (InstitutionScope u)

/-- The fields that both shapes of a result share. -/
def readResult (u : Language) (effect : Json) (fields : Dict) : ActionResult u :=
  ⟨effect, stripped u (claim fields "reason"),
    scopeOf u (orElse u (claim fields "matchedScope") (claim fields "matched_scope"))⟩

/-- An item of a list of results is about an action. -/
def isAbout (action : String) : Json → Bool
  | .object fields => match claim fields "action" with
    | .string s => s = action
    | _ => false
  | _ => false

/-- What a resource of an answer says of an action, in either shape. -/
def actionResult (u : Language) (resource : Dict) (action : String) : ActionResult u :=
  match claim resource "actions" with
  | .object actions => match claim actions action with
    | .object fields =>
        readResult u (orElse u (orElse u (claim fields "effect") (claim fields "decision"))
        (claim fields "outcome")) fields
    | effect => ⟨effect, none, none⟩
  | .array items => match items.find? (isAbout action) with
    | some (.object fields) =>
        readResult u (orElse u (claim fields "effect") (claim fields "decision")) fields
    | _ => ⟨.null, none, none⟩
  | _ => ⟨.null, none, none⟩

/-- Whether an effect allows; `str` of a value that is no text never does. -/
def allows (env : PolicyEnv) : Json → Bool
  | .string s => ["EFFECT_ALLOW", "ALLOW", "ALLOWED"].contains (env.upper s)
  | _ => false

/-! ## The decision point that asks a policy service -/

/-- `CerbosPolicyDecisionPoint`. -/
structure Cerbos (u : Language) where
  policyVersion : String
  requireFresh : Bool
  versioned : u.blank policyVersion = false

namespace Cerbos
variable {env : PolicyEnv} (pdp : Cerbos env.toLanguage)

/-- The version of an answer; one that states none has the configured version, unless freshness is
required. -/
def responseVersion (payload : Dict) : Option String :=
  match stripped env.toLanguage (rawPolicyVersion env.toLanguage payload) with
  | some version => some version
  | none => if pdp.requireFresh then none else some pdp.policyVersion

/-- `_parse_response`. -/
def parseResponse (payload : Dict) (req : PolicyRequest env.toLanguage) :
    Option (PolicyDecision env.toLanguage) :=
  let decisionId := decisionId env payload
  match pdp.responseVersion payload with
  | none => req.denied pdp.policyVersion decisionId (.known .stalePolicy)
  | some version =>
    if version ≠ pdp.policyVersion then req.denied version decisionId (.known .stalePolicy)
    else if pdp.requireFresh && stale env.toLanguage payload then
      req.denied pdp.policyVersion decisionId (.known .stalePolicy)
    else match extractResource payload req.resourceId with
      | none => req.denied pdp.policyVersion decisionId (.known .pdpUnavailable)
      | some resource =>
        let result := actionResult env.toLanguage resource req.action
        if allows env result.effect then
          let matched := result.matchedScope.getD req.requestedScope
          if !matched.covers req.requestedScope then req.denied version decisionId (.known .outOfScope)
          else if req.consentMissing then req.denied version decisionId (.known .parentalConsentRequired)
          else req.decision version decisionId (some matched) none
        else req.denied version decisionId (.said (result.reason.getD "pdp_denied"))

/-- `evaluate`. -/
def evaluate (req : PolicyRequest env.toLanguage) (response : Response) :
    Option (PolicyDecision env.toLanguage) :=
  let deny := fun reason => req.denied pdp.policyVersion ("pdp-" ++ env.uuid 0) (.known reason)
  if req.principal.revoked then deny .revoked
  else if !req.principal.active then deny .unauthenticated
  else if !req.principal.hasCapability req.requiredCapability then deny .missingCapability
  else if req.action ∉ allowedActions then deny .unknownAction
  else match response with
    | .failed | .unreadable => deny .pdpUnavailable
    | .body (.object payload) => match pdp.parseResponse payload req with
      | some decision => some decision
      | none => deny .pdpUnavailable
    | .body _ => deny .pdpUnavailable

end Cerbos

/-! ## What a decision point allows -/

def Allows {u : Language} (outcome : Option (PolicyDecision u)) : Prop := ∃ d ∈ outcome, d.allowed = true

/-- A request that passes the checks of both decision points: its action is known, its principal is
active and has the capability, the consent is there, and its resource is named. -/
structure PolicyRequest.Passes {u : Language} (req : PolicyRequest u) : Prop where
  known : req.action ∈ allowedActions
  capable : req.principal.hasCapability req.requiredCapability = true
  consented : req.consentMissing = false
  typed : u.blank req.resourceType = false
  named : u.blank req.resourceId = false

section
variable {env : PolicyEnv} {req : PolicyRequest env.toLanguage}

theorem blank_of_letter {text : String} {c : Char} (hc : c ∈ text.toList) (hletter : c.isAlpha = true) :
    env.toLanguage.blank text = false :=
  decide_eq_false (strip_ne_empty.mpr ⟨c, hc, env.letters c hletter⟩)

theorem blank_action (h : req.action ∈ allowedActions) : env.toLanguage.blank req.action = false := by
  have hletter : ∀ action ∈ allowedActions, action.toList.any Char.isAlpha = true := by decide
  obtain ⟨c, hc, hc'⟩ := List.any_eq_true.mp (hletter req.action h)
  exact blank_of_letter hc hc'

theorem blank_drawn (id : String) : env.toLanguage.blank ("pdp-" ++ id) = false := by
  have hp : 'p' ∈ ("pdp-" ++ id).toList := by
    rw [String.toList_append]
    exact List.mem_append_left _ (by decide)
  exact blank_of_letter hp (by decide)

theorem not_allows_none : ¬Allows (none : Option (PolicyDecision env.toLanguage)) := by
  rintro ⟨d, hd, -⟩
  cases hd

theorem not_allows_denied (policyVersion decisionId : String) (reason : Reason) :
    ¬Allows (req.denied policyVersion decisionId reason) := by
  unfold PolicyRequest.denied PolicyRequest.decision
  split_ifs
  · rintro ⟨d, hd, hallowed⟩
    rw [← Option.some.inj hd] at hallowed
    cases hallowed
  · exact not_allows_none

theorem allows_guard {c : Prop} [Decidable c] {policyVersion decisionId : String} {reason : Reason}
    {rest : Option (PolicyDecision env.toLanguage)} :
    Allows (if c then req.denied policyVersion decisionId reason else rest) ↔ ¬c ∧ Allows rest := by
  split_ifs with hc
  · exact iff_of_false (not_allows_denied _ _ _) fun h => h.1 hc
  · exact (and_iff_right hc).symm

theorem allows_decision {policyVersion decisionId : String} {scope : InstitutionScope env.toLanguage}
    (hversion : env.toLanguage.blank policyVersion = false)
        (hid : env.toLanguage.blank decisionId = false)
    (haction : req.action ∈ allowedActions) :
    Allows (req.decision policyVersion decisionId (some scope) none) ↔
      env.toLanguage.blank req.resourceType = false ∧ env.toLanguage.blank req.resourceId = false := by
  unfold PolicyRequest.decision
  split_ifs with hnamed
  · exact iff_of_true ⟨_, rfl, rfl⟩ ⟨hnamed _ (by simp), hnamed _ (by simp)⟩
  · refine iff_of_false not_allows_none fun ⟨htype, hresource⟩ => hnamed ?_
    simp only [List.forall_mem_cons]
    exact ⟨blank_action haction, htype, hresource, hversion, hid, nofun⟩

theorem active_iff {u : Language} {principal : Principal u} : principal.active = true ↔
    principal.authenticated = true ∧ principal.revoked = false ∧
    principal.principalType ≠ .anonymous := by
  rw [Principal.active, Bool.and_eq_true, Bool.and_eq_true, Bool.not_eq_true', decide_eq_true_eq,
    and_assoc]

theorem active_of_hasCapability {u : Language} {principal : Principal u} {capability : Capability}
    (h : principal.hasCapability capability = true) : principal.active = true :=
  (Bool.and_eq_true _ _ ▸ h : _ ∧ _).1

/-- **The local decision point** allows what passes and is covered by a scope of the principal. -/
theorem localEvaluate_iff : Allows (localEvaluate env req) ↔
    req.Passes ∧ ∃ scope ∈ req.principal.scopes, scope.covers req.requestedScope = true := by
  have hversion : env.toLanguage.blank localPolicyVersion = false :=
    blank_of_letter (c := 'g') (by decide) (by decide)
  have hid : env.toLanguage.blank ("pdp-" ++ env.uuid 0) = false := blank_drawn (env.uuid 0)
  -- the scope is looked for once the action is known
  have hscope : req.action ∈ allowedActions →
      (Allows (match req.principal.scopes.find? (·.covers req.requestedScope) with
      | none => req.denied localPolicyVersion ("pdp-" ++ env.uuid 0) (.known .outOfScope)
      | some scope => req.decision localPolicyVersion ("pdp-" ++ env.uuid 0) (some scope) none) ↔
        (env.toLanguage.blank req.resourceType = false ∧ env.toLanguage.blank req.resourceId = false) ∧
          ∃ scope ∈ req.principal.scopes, scope.covers req.requestedScope = true) := by
    intro hknown
    cases hfound : req.principal.scopes.find? (·.covers req.requestedScope) with
    | none =>
      refine iff_of_false (not_allows_denied _ _ _) fun h => ?_
      obtain ⟨-, scope, hscope, hcovers⟩ := h
      exact List.find?_eq_none.mp hfound scope hscope hcovers
    | some found =>
      refine (allows_decision hversion hid hknown).trans (and_iff_left ⟨found, ?_, ?_⟩).symm
      · exact List.mem_of_find?_eq_some hfound
      · have hcovers := List.find?_some hfound
        exact hcovers
  unfold localEvaluate
  simp only [allows_guard]
  constructor
  · rintro ⟨hknown, -, -, hcapable, hconsent, hallows⟩
    obtain ⟨⟨htype, hresource⟩, hcovers⟩ := (hscope (not_not.mp hknown)).mp hallows
    exact ⟨⟨not_not.mp hknown, by simpa using hcapable, by simpa using hconsent, htype, hresource⟩,
      hcovers⟩
  · rintro ⟨hpasses, hcovers⟩
    obtain ⟨hauthenticated, hlive, htype⟩ := active_iff.mp (active_of_hasCapability hpasses.capable)
    refine ⟨not_not.mpr hpasses.known,
      ?_, by simp [hlive], by simp [hpasses.capable], by simp [hpasses.consented],
      (hscope hpasses.known).mpr ⟨⟨hpasses.typed, hpasses.named⟩, hcovers⟩⟩
    rintro (hnot | hanonymous)
    · rw [hauthenticated] at hnot
      cases hnot
    · exact htype hanonymous

namespace Cerbos
variable (pdp : Cerbos env.toLanguage)

/-- An answer that grants a request: of the configured version, not stale where that matters, with a
result for the resource and the action that allows them in a scope which covers the requested one. -/
def Grants (payload : Dict) (req : PolicyRequest env.toLanguage) : Prop :=
  pdp.responseVersion payload = some pdp.policyVersion ∧
    (pdp.requireFresh && stale env.toLanguage payload) = false ∧
      ∃ resource, extractResource payload req.resourceId = some resource ∧
        allows env (actionResult env.toLanguage resource req.action).effect = true ∧
          ((actionResult env.toLanguage resource req.action).matchedScope.getD req.requestedScope).covers
            req.requestedScope = true

theorem blank_stripped {value : Json} {text : String} (h : stripped env.toLanguage value = some text) :
    env.toLanguage.blank text = false := by
  cases value with
  | string s =>
    rw [stripped] at h
    split_ifs at h with hs
    obtain rfl := Option.some.inj h
    exact blank_strip (by simpa using hs)
  | null | bool | number | array | object => cases h

theorem blank_decisionId (payload : Dict) : env.toLanguage.blank (decisionId env payload) = false := by
  have hdrawn : ∀ value, env.toLanguage.blank
    ((stripped env.toLanguage value).getD ("pdp-" ++ env.uuid 1)) = false := by
    intro value
    cases hvalue : stripped env.toLanguage value with
    | none => exact blank_drawn (env.uuid 1)
    | some text => exact blank_stripped hvalue
  exact hdrawn _

theorem parseResponse_iff (haction : req.action ∈ allowedActions) (payload : Dict) :
    Allows (pdp.parseResponse payload req) ↔ pdp.Grants payload req ∧ req.consentMissing = false ∧
      env.toLanguage.blank req.resourceType = false ∧ env.toLanguage.blank req.resourceId = false := by
  have hid : env.toLanguage.blank (decisionId env payload) = false := blank_decisionId payload
  unfold parseResponse Grants
  generalize decisionId env payload = id at hid
  cases pdp.responseVersion payload with
  | none =>
    refine iff_of_false (not_allows_denied _ _ _) fun h => ?_
    cases h.1.1
  | some version =>
    simp only [allows_guard]
    cases extractResource payload req.resourceId with
    | none =>
      refine iff_of_false (fun h => not_allows_denied _ _ _ h.2.2) fun h => ?_
      obtain ⟨-, -, resource, hnone, -⟩ := h.1
      cases hnone
    | some resource =>
      simp only
      constructor
      · rintro ⟨hversion, hfresh, hallows⟩
        obtain rfl : version = pdp.policyVersion := not_not.mp hversion
        split_ifs at hallows with heffect hcovers hconsent
        · exact absurd hallows (not_allows_denied _ _ _)
        · exact absurd hallows (not_allows_denied _ _ _)
        · have hnamed := (allows_decision pdp.versioned hid haction).mp hallows
          exact ⟨⟨rfl, by simpa using hfresh, resource, rfl, heffect, by simpa using hcovers⟩,
            by simpa using hconsent, hnamed⟩
        · exact absurd hallows (not_allows_denied _ _ _)
      · rintro ⟨⟨hversion, hfresh, found, hfound, heffect, hcovers⟩, hconsent, hnamed⟩
        obtain rfl := Option.some.inj hversion
        obtain rfl := Option.some.inj hfound
        refine ⟨not_not.mpr rfl, by simp [hfresh], ?_⟩
        rw [if_pos heffect, if_neg (by simp [hcovers]), if_neg (by simp [hconsent])]
        exact (allows_decision pdp.versioned hid haction).mpr hnamed

/-- **The decision point that asks** allows what passes and is granted by the answer. -/
theorem evaluate_iff (response : Response) : Allows (pdp.evaluate req response) ↔
    req.Passes ∧ ∃ payload, response = .body (.object payload) ∧ pdp.Grants payload req := by
  have hresponse : req.action ∈ allowedActions → (Allows (match response with
      | .failed | .unreadable =>
          req.denied pdp.policyVersion ("pdp-" ++ env.uuid 0) (.known .pdpUnavailable)
      | .body (.object payload) => match pdp.parseResponse payload req with
        | some decision => some decision
        | none => req.denied pdp.policyVersion ("pdp-" ++ env.uuid 0) (.known .pdpUnavailable)
      | .body _ => req.denied pdp.policyVersion ("pdp-" ++ env.uuid 0) (.known .pdpUnavailable)) ↔
        ∃ payload, response = .body (.object payload) ∧ Allows (pdp.parseResponse payload req)) := by
    intro haction
    have hdenied : ¬Allows (req.denied pdp.policyVersion ("pdp-" ++ env.uuid 0)
      (.known .pdpUnavailable)) :=
      not_allows_denied pdp.policyVersion ("pdp-" ++ env.uuid 0) (.known .pdpUnavailable)
    split
    · exact iff_of_false hdenied nofun
    · exact iff_of_false hdenied nofun
    · rename_i payload
      have hsame : (∃ payload', Response.body (.object payload) = .body (.object payload') ∧
          Allows (pdp.parseResponse payload' req)) ↔ Allows (pdp.parseResponse payload req) := by
        constructor
        · rintro ⟨payload', hpayload, hallows⟩
          obtain rfl := Json.object.inj (Response.body.inj hpayload)
          exact hallows
        · exact fun hallows => ⟨payload, rfl, hallows⟩
      rw [hsame]
      cases pdp.parseResponse payload req with
      | none => exact iff_of_false hdenied not_allows_none
      | some decision => exact Iff.rfl
    · rename_i value hvalue
      refine iff_of_false hdenied ?_
      rintro ⟨payload, hpayload, -⟩
      exact hvalue payload (Response.body.inj hpayload)
  unfold evaluate
  simp only [allows_guard]
  constructor
  · rintro ⟨-, -, hcapable, hknown, hallows⟩
    obtain ⟨payload, hpayload, hparsed⟩ := (hresponse (not_not.mp hknown)).mp hallows
    obtain ⟨hgrants, hconsent, htype, hresource⟩ :=
      (pdp.parseResponse_iff (not_not.mp hknown) payload).mp hparsed
    exact ⟨⟨not_not.mp hknown, by simpa using hcapable, hconsent, htype, hresource⟩, payload, hpayload,
      hgrants⟩
  · rintro ⟨hpasses, payload, hpayload, hgrants⟩
    have hactive := active_of_hasCapability hpasses.capable
    obtain ⟨-, hlive, -⟩ := active_iff.mp hactive
    refine ⟨by simp [hlive], by simp [hactive], by simp [hpasses.capable], not_not.mpr hpasses.known, ?_⟩
    refine (hresponse hpasses.known).mpr ⟨payload, hpayload, ?_⟩
    exact (pdp.parseResponse_iff hpasses.known payload).mpr ⟨hgrants, hpasses.consented, hpasses.typed,
      hpasses.named⟩

/-! ## Answers that are no use -/

/-- A version is given, is not blank, and is not the configured one. -/
def OtherVersion (payload : Dict) : Prop :=
  truthy env.toLanguage (rawPolicyVersion env.toLanguage payload) = true ∧
    ∀ text, rawPolicyVersion env.toLanguage payload = .string text →
      env.toLanguage.blank text = false ∧ strip env.isSpace text ≠ pdp.policyVersion

def NoVersion (env : PolicyEnv) (payload : Dict) : Prop :=
  truthy env.toLanguage (rawPolicyVersion env.toLanguage payload) = false ∨
    ∃ text, rawPolicyVersion env.toLanguage payload = .string text ∧ env.toLanguage.blank text = true

/-- An answer has a result for the resource and the action of a request. -/
def Concerns (payload : Dict) (req : PolicyRequest env.toLanguage) : Prop :=
  ∃ instances item : Dict, claim payload "resourceInstances" = .object instances ∧
    claim instances req.resourceId = .object item ∧
      ((∃ actions : Dict, claim item "actions" = .object actions ∧ claim actions req.action ≠ .null) ∨
        ∃ items, claim item "actions" = .array items ∧ ∃ fields : Dict, .object fields ∈ items ∧
          claim fields "action" = .string req.action)

/-- A response that is unreadable, about another resource or action, of another policy version, or, where
freshness is required, stale or without a version. -/
def Unusable (req : PolicyRequest env.toLanguage) : Response → Prop
  | .body (.object payload) => ¬Concerns payload req ∨ pdp.OtherVersion payload ∨
      (pdp.requireFresh = true ∧ (stale env.toLanguage payload = true ∨ NoVersion env payload))
  | _ => True

theorem concerns_of_grants {payload : Dict} (h : pdp.Grants payload req) : Concerns payload req := by
  obtain ⟨-, -, item, hitem, hallows, -⟩ := h
  unfold extractResource at hitem
  split at hitem
  case h_2 => cases hitem
  rename_i instances hinstances
  split at hitem
  case h_2 => cases hitem
  rename_i found hfound
  obtain rfl := Option.some.inj hitem
  refine ⟨instances, found, hinstances, hfound, ?_⟩
  unfold actionResult at hallows
  split at hallows
  · rename_i actions hactions
    refine .inl ⟨actions, hactions, fun hnull => ?_⟩
    rw [hnull] at hallows
    cases hallows
  · rename_i items hitems
    split at hallows
    · rename_i fields hfields
      refine .inr ⟨items, hitems, fields, List.mem_of_find?_eq_some hfields, ?_⟩
      have habout := List.find?_some hfields
      unfold isAbout at habout
      simp only at habout
      split at habout
      · rename_i s hs
        rw [hs, of_decide_eq_true habout]
      · cases habout
    · cases hallows
  · cases hallows

/-- The configured version can be stated, or need not be. -/
def Attestable : Prop := pdp.requireFresh = true → strip env.isSpace pdp.policyVersion =
    pdp.policyVersion

theorem stripped_eq_some {value : Json} {text : String} : stripped env.toLanguage value = some text ↔
    ∃ s, value = .string s ∧ env.toLanguage.blank s = false ∧ text = strip env.isSpace s := by
  cases value with
  | string s =>
    rw [stripped]
    split_ifs with hblank
    · refine iff_of_false nofun ?_
      rintro ⟨s', hs, hnot, -⟩
      rw [← Json.string.inj hs, hblank] at hnot
      cases hnot
    · constructor
      · intro h
        exact ⟨s, rfl, by simpa using hblank, (Option.some.inj h).symm⟩
      · rintro ⟨s', hs, -, rfl⟩
        rw [Json.string.inj hs]
  | null | bool | number | array | object => exact iff_of_false nofun (by rintro ⟨s, hs, -⟩; cases hs)

theorem version_of_grants {payload : Dict} (h : pdp.Grants payload req)
    (hfresh : pdp.requireFresh = true) :
    ∃ s, rawPolicyVersion env.toLanguage payload = .string s ∧ env.toLanguage.blank s = false ∧
      pdp.policyVersion = strip env.isSpace s := by
  have hversion := h.1
  unfold responseVersion at hversion
  split at hversion
  · rename_i version hstripped
    rw [Option.some.inj hversion] at hstripped
    exact stripped_eq_some.mp hstripped
  · rw [if_pos hfresh] at hversion
    cases hversion

theorem attestable_of_grants {payload : Dict} (h : pdp.Grants payload req) : pdp.Attestable := by
  intro hfresh
  obtain ⟨s, -, -, hversion⟩ := pdp.version_of_grants h hfresh
  rw [hversion, strip_strip]

theorem usable_of_grants {payload : Dict} (h : pdp.Grants payload req)
    (hfresh : pdp.requireFresh = true) : ¬pdp.Unusable req (.body (.object payload)) := by
  obtain ⟨s, hraw, hblank, hversion⟩ := pdp.version_of_grants h hfresh
  rintro (hconcerns | ⟨-, hother⟩ | ⟨-, hstale | hfalse | ⟨text, htext, hnone⟩⟩)
  · exact hconcerns (pdp.concerns_of_grants h)
  · exact (hother s hraw).2 hversion.symm
  · have hcurrent := h.2.1
    rw [hfresh, hstale] at hcurrent
    cases hcurrent
  · rw [hraw] at hfalse
    have hempty : s = "" := by simpa [truthy] using hfalse
    rw [hempty] at hblank
    cases hblank
  · rw [hraw] at htext
    rw [← Json.string.inj htext, hblank] at hnone
    cases hnone

def allowing (version : Json) (req : PolicyRequest env.toLanguage) : Dict :=
  [("policyVersion", version), ("policyStatus", .null),
    ("resourceInstances", .object
    [(req.resourceId, .object [("actions", .object [(req.action, .string "ALLOW")])])])]

theorem grants_allowing {version : Json} (h : pdp.responseVersion (allowing version req) =
    some pdp.policyVersion) : pdp.Grants (allowing version req) req := by
  have hresource : extractResource (allowing version req) req.resourceId =
      some [("actions", .object [(req.action, .string "ALLOW")])] := by
    simp [extractResource, allowing, claim, Table.get]
  have hresult : actionResult env.toLanguage
      [("actions", .object [(req.action, .string "ALLOW")])] req.action =
      ⟨.string "ALLOW", none, none⟩ := by
    simp [actionResult, claim, Table.get]
  refine ⟨h, ?_, _, hresource, ?_, ?_⟩
  · show (pdp.requireFresh && false) = false
    exact Bool.and_false _
  · rw [hresult]
    show ["EFFECT_ALLOW", "ALLOW", "ALLOWED"].contains (env.upper "ALLOW") = true
    rw [env.upper_allow]
    decide
  · rw [hresult]
    exact req.requestedScope.covers_self

theorem responseVersion_stated (h : strip env.isSpace pdp.policyVersion = pdp.policyVersion) :
    pdp.responseVersion (allowing (.string pdp.policyVersion) req) = some pdp.policyVersion := by
  have hne : pdp.policyVersion ≠ "" := by
    intro hempty
    have hversioned := pdp.versioned
    rw [hempty] at hversioned
    cases hversioned
  have hraw : rawPolicyVersion env.toLanguage (allowing (.string pdp.policyVersion) req) =
    .string pdp.policyVersion :=
    if_pos (decide_eq_true hne)
  have hstripped := stripped_eq_some.mpr ⟨_, hraw, pdp.versioned, rfl⟩
  rw [responseVersion, hstripped]
  exact congrArg some h

theorem responseVersion_unread (h : pdp.requireFresh = false) :
    pdp.responseVersion (allowing (.bool true) req) = some pdp.policyVersion := by
  have hraw : rawPolicyVersion env.toLanguage (allowing (.bool true) req) = .bool true := rfl
  rw [responseVersion, hraw, h]
  rfl

theorem unusable_unread : pdp.Unusable req (.body (.object (allowing (.bool true) req))) :=
  .inr (.inl ⟨rfl, nofun⟩)

end Cerbos

/-- **The policy service never widens authority**: what is allowed the local decision point would allow
too, iff some scope of the principal covers the requested one; and an unusable answer is a denial, iff
fresh ones are required. Requests that neither decision point lets pass, and versions that no answer can
state, are denied. -/
theorem never_widens_iff (env : PolicyEnv) (pdp : Cerbos env.toLanguage)
    (req : PolicyRequest env.toLanguage) :
    ((∀ response, Allows (pdp.evaluate req response) → Allows (localEvaluate env req)) ↔
      (req.Passes → pdp.Attestable → ∃ scope ∈ req.principal.scopes, scope.covers req.requestedScope =
      true)) ∧
    ((∀ response, pdp.Unusable req response → ¬Allows (pdp.evaluate req response)) ↔
      (req.Passes → pdp.Attestable → pdp.requireFresh = true)) := by
  refine ⟨⟨?_, ?_⟩, ⟨?_, ?_⟩⟩
  · intro hnarrow hpasses hattestable
    have hversion : ∃ version, pdp.responseVersion (Cerbos.allowing version req) =
      some pdp.policyVersion := by
      cases hfresh : pdp.requireFresh with
      | true => exact ⟨_, pdp.responseVersion_stated (hattestable hfresh)⟩
      | false => exact ⟨_, pdp.responseVersion_unread hfresh⟩
    obtain ⟨version, hversion⟩ := hversion
    have hallows := (pdp.evaluate_iff _).mpr ⟨hpasses, _, rfl, pdp.grants_allowing hversion⟩
    exact (localEvaluate_iff.mp (hnarrow _ hallows)).2
  · intro hcovered response hallows
    obtain ⟨hpasses, payload, -, hgrants⟩ := (pdp.evaluate_iff response).mp hallows
    exact localEvaluate_iff.mpr ⟨hpasses, hcovered hpasses (pdp.attestable_of_grants hgrants)⟩
  · intro hdenies hpasses _
    by_contra hlax
    have hversion : pdp.responseVersion (Cerbos.allowing (.bool true) req) = some pdp.policyVersion :=
      pdp.responseVersion_unread (Bool.eq_false_iff.mpr hlax)
    refine hdenies _ pdp.unusable_unread ?_
    exact (pdp.evaluate_iff _).mpr ⟨hpasses, _, rfl, pdp.grants_allowing hversion⟩
  · intro hfresh response hunusable hallows
    obtain ⟨hpasses, payload, rfl, hgrants⟩ := (pdp.evaluate_iff response).mp hallows
    exact pdp.usable_of_grants hgrants (hfresh hpasses (pdp.attestable_of_grants hgrants)) hunusable

end

/-! ## A department, and an answer for the college -/

theorem not_isWhitespace_of_isAlpha (c : Char) (h : c.isAlpha = true) : c.isWhitespace = false := by
  rw [← Bool.not_eq_true]
  intro hspace
  have hcases : c = ' ' ∨ c = '\t' ∨ c = '\r' ∨ c = '\n' := by
    simpa [Char.isWhitespace, or_assoc] using hspace
  rcases hcases with rfl | rfl | rfl | rfl
  · cases h
  · cases h
  · cases h
  · cases h

def plainPolicy : PolicyEnv where
  toLanguage := plainLanguage
  upper := id
  uuid := fun _ => "0"
  letters := not_isWhitespace_of_isAlpha
  upper_allow := rfl

/-- A head of one department asks for the whole college. -/
def headOfDepartment : PolicyRequest plainPolicy.toLanguage where
  principal := {
    principalId := "u-1"
    principalType := .hod
    capabilities := [.studentsRead]
    scopes := [⟨"gcu", some "cse", none, by decide, by decide, by decide⟩]
    authenticated := true
    consentVerified := false
    revoked := false
    named := by decide
    anonymous := nofun }
  requiredCapability := .studentsRead
  action := "retrieve"
  resourceType := "platform_tool"
  resourceId := "list_students"
  requestedScope := wholeCollege

def freshCerbos : Cerbos plainPolicy.toLanguage := ⟨"v1", true, by decide⟩

/-- The service allows without naming a scope: the request is allowed, and the local decision point
denies it. -/
theorem widens : ¬∀ response, Allows (freshCerbos.evaluate headOfDepartment response) →
    Allows (localEvaluate plainPolicy headOfDepartment) := by
  intro h
  have hpasses : headOfDepartment.Passes := ⟨by decide, by decide, by decide, by decide, by decide⟩
  have hversion : freshCerbos.responseVersion (Cerbos.allowing (.string "v1") headOfDepartment) =
    some "v1" :=
    freshCerbos.responseVersion_stated (by decide)
  have hgrants := freshCerbos.grants_allowing hversion
  have hallows := (Cerbos.evaluate_iff _ _).mpr ⟨hpasses, _, rfl, hgrants⟩
  obtain ⟨-, scope, hscope, hcovers⟩ := localEvaluate_iff.mp (h _ hallows)
  rw [List.mem_singleton.mp hscope] at hcovers
  cases hcovers

end GuruJi.Auth
