import GuruJi.Auth.Decisions

/-!
# The local checks and the local decision point

A tool call is authorized twice, by `authorize` and by a decision point. Both read the principal, a
capability and a scope in the same order, and neither grants more than is asked.

* `localEvaluate_eq`: the local decision point decides as `authorize` does, for each action that it
  knows;
* `authorize_mono`: more capabilities and scopes give no less access;
* **`local_checks_agree`**: both agree on each tool call, and what scopes cover is an order.
-/

namespace GuruJi.Auth

open GuruJi.Lib

/-! ## What a scope covers -/

theorem coversField_trans {a b c : Option String} (hab : coversField a b = true)
    (hbc : coversField b c = true) : coversField a c = true := by
  rw [coversField_iff] at hab hbc ⊢
  exact fun d hd => hbc d (hab d hd)

theorem coversField_antisymm {a b : Option String} (hab : coversField a b = true)
    (hba : coversField b a = true) : a = b := by
  rw [coversField_iff] at hab hba
  apply Option.ext
  intro d
  exact ⟨hab d, hba d⟩

namespace InstitutionScope
variable {u : Language} {a b c : InstitutionScope u}

theorem covers_fields : a.covers b = true ↔ a.collegeId = b.collegeId ∧
    coversField a.departmentId b.departmentId = true ∧ coversField a.batchId b.batchId = true := by
  rw [covers, Bool.and_eq_true, Bool.and_eq_true, decide_eq_true_eq, and_assoc]

theorem covers_trans (hab : a.covers b = true) (hbc : b.covers c = true) : a.covers c = true := by
  rw [covers_fields] at hab hbc ⊢
  exact ⟨hab.1.trans hbc.1, coversField_trans hab.2.1 hbc.2.1, coversField_trans hab.2.2 hbc.2.2⟩

theorem covers_antisymm (hab : a.covers b = true) (hba : b.covers a = true) : a = b := by
  rw [covers_fields] at hab hba
  obtain ⟨collegeId, departmentId, batchId⟩ := a
  obtain ⟨collegeId', departmentId', batchId'⟩ := b
  obtain rfl : collegeId = collegeId' := hab.1
  obtain rfl : departmentId = departmentId' := coversField_antisymm hab.2.1 hba.2.1
  obtain rfl : batchId = batchId' := coversField_antisymm hab.2.2 hba.2.2
  rfl

end InstitutionScope

/-! ## The local checks -/

/-- A permission has no reason, and a denial has one. -/
structure AuthorizationDecision where
  allowed : Bool
  reason : Option DenialReason
  judged : reason.isNone = allowed

namespace AuthorizationDecision

def allow : AuthorizationDecision := ⟨true, none, rfl⟩

def deny (reason : DenialReason) : AuthorizationDecision := ⟨false, some reason, rfl⟩

end AuthorizationDecision

section
variable {u : Language}

/-- `authorize`. -/
def authorize (principal : Principal u) (required : Capability) (requested : InstitutionScope u) :
    AuthorizationDecision :=
  if principal.authenticated = false ∨ principal.principalType = .anonymous then .deny .unauthenticated
  else if principal.revoked then .deny .revoked
  else if !principal.hasCapability required then .deny .missingCapability
  else if principal.principalType =
    .student && requested.batchId.isSome && !principal.consentVerified then
    .deny .parentalConsentRequired
  else if !principal.canAccess requested then .deny .outOfScope
  else .allow

variable {principal : Principal u} {required : Capability} {requested : InstitutionScope u}

theorem authorize_allowed_iff : (authorize principal required requested).allowed = true ↔
    principal.hasCapability required = true ∧
      (principal.principalType = .student && requested.batchId.isSome && !principal.consentVerified) =
        false ∧ ∃ scope ∈ principal.scopes, scope.covers requested = true := by
  have haccess : principal.hasCapability required = true →
      (principal.canAccess requested = true ↔ ∃ scope ∈ principal.scopes, scope.covers requested =
      true) := by
    intro hcapable
    rw [Principal.canAccess, active_of_hasCapability hcapable, Bool.true_and, List.any_eq_true]
  rw [authorize]
  by_cases hcapable : principal.hasCapability required = true
  · obtain ⟨hauthenticated, hlive, htype⟩ := active_iff.mp (active_of_hasCapability hcapable)
    have hknown : ¬(principal.authenticated = false ∨ principal.principalType = .anonymous) := by
      rw [hauthenticated]
      exact not_or.mpr ⟨Bool.noConfusion, htype⟩
    rw [if_neg hknown, hlive, if_neg Bool.false_ne_true, hcapable, if_neg (by decide),
      ← haccess hcapable]
    split_ifs with hconsent hcovered
    · exact iff_of_false Bool.false_ne_true fun h => absurd (hconsent.symm.trans h.2.1) (by decide)
    · refine iff_of_false Bool.false_ne_true fun h => ?_
      rw [h.2.2] at hcovered
      cases hcovered
    · exact iff_of_true rfl ⟨rfl, Bool.eq_false_iff.mpr hconsent, by simpa using hcovered⟩
  · refine iff_of_false (fun h => ?_) fun h => hcapable h.1
    have hlacks : (!principal.hasCapability required) = true := by simpa using hcapable
    rw [if_pos hlacks] at h
    split_ifs at h
    · cases h
    · cases h
    · cases h

/-- More capabilities and scopes, and nothing else. -/
structure Grants (principal more : Principal u) : Prop where
  principalType : more.principalType = principal.principalType
  authenticated : more.authenticated = principal.authenticated
  consentVerified : more.consentVerified = principal.consentVerified
  revoked : more.revoked = principal.revoked
  capabilities : principal.capabilities ⊆ more.capabilities
  scopes : principal.scopes ⊆ more.scopes

/-- **More capabilities and scopes give no less access.** -/
theorem authorize_mono {more : Principal u} (h : Grants principal more)
    (hallowed : (authorize principal required requested).allowed = true) :
    (authorize more required requested).allowed = true := by
  rw [authorize_allowed_iff] at hallowed ⊢
  obtain ⟨hcapable, hconsent, scope, hscope, hcovers⟩ := hallowed
  refine ⟨?_, ?_, scope, h.scopes hscope, hcovers⟩
  · rw [Principal.hasCapability, Bool.and_eq_true, List.contains_iff_mem] at hcapable ⊢
    refine ⟨?_, h.capabilities hcapable.2⟩
    rw [Principal.active, h.authenticated, h.revoked, h.principalType]
    exact hcapable.1
  · rw [h.principalType, h.consentVerified]
    exact hconsent

end

/-! ## The local decision point -/

section
variable {env : PolicyEnv} {req : PolicyRequest env.toLanguage}

theorem decision_eq_some (haction : req.action ∈ allowedActions)
    (htype : env.toLanguage.blank req.resourceType = false)
    (hresource : env.toLanguage.blank req.resourceId = false)
        (matchedScope : Option (InstitutionScope env.toLanguage))
    (reason : Option Reason) : ∃ d, req.decision localPolicyVersion
      ("pdp-" ++ env.uuid 0) matchedScope reason = some d ∧ d.reason = reason := by
  have hversion : env.toLanguage.blank localPolicyVersion = false :=
    blank_of_letter (c := 'g') (by decide) (by decide)
  have hnamed : ∀ text ∈ [req.action, req.resourceType, req.resourceId, localPolicyVersion, "pdp-" ++
      env.uuid 0], env.toLanguage.blank text = false := by
    simp only [List.forall_mem_cons]
    exact ⟨blank_action haction, htype, hresource, hversion, blank_drawn _, List.forall_mem_nil _⟩
  rw [PolicyRequest.decision, dif_pos hnamed]
  exact ⟨_, rfl, rfl⟩

variable (req) in
/-- **The local decision point decides as the local checks do**, for the actions that it knows. -/
theorem localEvaluate_eq (haction : req.action ∈ allowedActions)
    (htype : env.toLanguage.blank req.resourceType = false)
    (hresource : env.toLanguage.blank req.resourceId = false) : ∃ d, localEvaluate env req = some d ∧
      d.reason = (authorize req.principal req.requiredCapability req.requestedScope).reason.map
      .known := by
  have hdenied := fun reason : DenialReason =>
    decision_eq_some haction htype hresource none (some (.known reason))
  rw [localEvaluate, authorize]
  dsimp only
  rw [if_neg (not_not.mpr haction)]
  by_cases hunknown : req.principal.authenticated = false ∨ req.principal.principalType = .anonymous
  · rw [if_pos hunknown, if_pos hunknown]
    exact hdenied _
  rw [if_neg hunknown, if_neg hunknown]
  by_cases hrevoked : req.principal.revoked = true
  · rw [if_pos hrevoked, if_pos hrevoked]
    exact hdenied _
  rw [if_neg hrevoked, if_neg hrevoked]
  by_cases hlacks : (!req.principal.hasCapability req.requiredCapability) = true
  · rw [if_pos hlacks, if_pos hlacks]
    exact hdenied _
  rw [if_neg hlacks, if_neg hlacks, PolicyRequest.consentMissing]
  by_cases hconsent : (req.principal.principalType = .student && req.requestedScope.batchId.isSome &&
      !req.principal.consentVerified) = true
  · rw [if_pos hconsent, if_pos hconsent]
    exact hdenied _
  rw [if_neg hconsent, if_neg hconsent]
  -- who has a capability is active, so a scope that covers the request can be accessed
  have hcapable : req.principal.hasCapability req.requiredCapability = true := by simpa using hlacks
  have haccess : req.principal.canAccess req.requestedScope =
      (req.principal.scopes.find? (·.covers req.requestedScope)).isSome := by
    rw [Principal.canAccess, active_of_hasCapability hcapable, Bool.true_and, List.isSome_find?]
  rw [haccess]
  cases req.principal.scopes.find? (·.covers req.requestedScope) with
  | none => exact hdenied _
  | some scope => exact decision_eq_some haction htype hresource (some scope) none

end

/-! ## Tool calls -/

inductive RiskLevel where
  | read | write | highRisk
  deriving DecidableEq

/-- What the checks read of a tool; its name is not blank. -/
structure PlatformToolSpec (u : Language) where
  name : String
  requiredCapability : Capability
  risk : RiskLevel
  named : u.blank name = false

/-- `pdp_action`. -/
def pdpAction : RiskLevel → String
  | .read => "retrieve"
  | .write => "execute"
  | .highRisk => "high_risk"

theorem pdpAction_mem (risk : RiskLevel) : pdpAction risk ∈ allowedActions := by
  cases risk with
  | read => decide
  | write => decide
  | highRisk => decide

/-- What the decision point is asked about a call of a tool. -/
def PlatformToolSpec.request {u : Language} (tool : PlatformToolSpec u) (principal : Principal u)
    (scope : InstitutionScope u) : PolicyRequest u where
  principal := principal
  requiredCapability := tool.requiredCapability
  action := pdpAction tool.risk
  resourceType := "platform_tool"
  resourceId := tool.name
  requestedScope := scope

/-- **The local checks and the local decision point agree** on every call of a tool, on the verdict and
on the reason; access grows with capabilities and scopes; and what scopes cover is an order. -/
theorem local_checks_agree (env : PolicyEnv) :
    (∀ (principal : Principal env.toLanguage) (tool : PlatformToolSpec env.toLanguage)
      (scope : InstitutionScope env.toLanguage), ∃ d, localEvaluate env (tool.request principal scope) =
        some d ∧ d.allowed = (authorize principal tool.requiredCapability scope).allowed ∧
        d.reason = (authorize principal tool.requiredCapability scope).reason.map .known) ∧
    (∀ (principal more : Principal env.toLanguage) (required : Capability)
      (requested : InstitutionScope env.toLanguage),
      Grants principal more → (authorize principal required requested).allowed = true →
        (authorize more required requested).allowed = true) ∧
    (∀ a : InstitutionScope env.toLanguage, a.covers a = true) ∧
    (∀ a b c : InstitutionScope env.toLanguage, a.covers b = true → b.covers c = true →
    a.covers c = true) ∧
    ∀ a b : InstitutionScope env.toLanguage, a.covers b = true → b.covers a = true → a = b := by
  refine ⟨fun principal tool scope => ?_, fun _ _ _ _ => authorize_mono, InstitutionScope.covers_self,
    fun _ _ _ => InstitutionScope.covers_trans, fun _ _ => InstitutionScope.covers_antisymm⟩
  have htype : env.toLanguage.blank "platform_tool" = false :=
    blank_of_letter (c := 'p') (by decide) (by decide)
  obtain ⟨d, hd, hreason⟩ := localEvaluate_eq (tool.request principal scope)
    (pdpAction_mem tool.risk) htype
    tool.named
  refine ⟨d, hd, ?_, hreason⟩
  rw [← d.judged, ← (authorize principal tool.requiredCapability scope).judged, hreason,
    Option.isNone_map]
  rfl

end GuruJi.Auth
