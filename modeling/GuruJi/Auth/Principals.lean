import GuruJi.Lib.Text

/-!
# Principals

Who calls, with which capabilities and in which institutional scopes. A scope and a principal that
exist have passed the checks of their constructors.
-/

namespace GuruJi.Auth

open GuruJi.Lib

/-- What the language reads in a text: white space, lower case, and whether a number written so is
zero or one. -/
structure Language where
  isSpace : Char → Bool
  lower : String → String
  isZero : String → Bool
  isOne : String → Bool

/-- `not text.strip()`. -/
def Language.blank (u : Language) (text : String) : Bool := strip u.isSpace text = ""

inductive PrincipalType where
  | anonymous | student | faculty | staff | hod | principal | institutionAdmin | mainAdmin
  | platformSuperAdmin | system
  deriving DecidableEq

def PrincipalType.text : PrincipalType → String
  | anonymous => "anonymous"
  | student => "student"
  | faculty => "faculty"
  | staff => "staff"
  | hod => "hod"
  | principal => "principal"
  | institutionAdmin => "institution_admin"
  | mainAdmin => "main_admin"
  | platformSuperAdmin => "platform_super_admin"
  | system => "system"

inductive Capability where
  | askReadOnly | startVoiceSession | viewSourceMetadata | runBriefing | viewBriefingHistory
  | manageAccess | agentCommand | dataIngest | dataReview | studentsRead | studentsReadContact
  | attendanceRead | feesRead | facultyRead | examsRead | documentsRead | documentsManage
  | reportsGenerate | actionsEmail | actionsNotify | recordsWrite | intelligenceRead
  | intelligenceManage | webSearch
  deriving DecidableEq

namespace Capability

def text : Capability → String
  | askReadOnly => "ask:read_only"
  | startVoiceSession => "voice:start"
  | viewSourceMetadata => "source:view_metadata"
  | runBriefing => "briefing:run"
  | viewBriefingHistory => "briefing:view_history"
  | manageAccess => "access:manage"
  | agentCommand => "agent:command"
  | dataIngest => "data:ingest"
  | dataReview => "data:review"
  | studentsRead => "students:read"
  | studentsReadContact => "students:read_contact"
  | attendanceRead => "attendance:read"
  | feesRead => "fees:read"
  | facultyRead => "faculty:read"
  | examsRead => "exams:read"
  | documentsRead => "documents:read"
  | documentsManage => "documents:manage"
  | reportsGenerate => "reports:generate"
  | actionsEmail => "actions:email"
  | actionsNotify => "actions:notify"
  | recordsWrite => "records:write"
  | intelligenceRead => "intelligence:read"
  | intelligenceManage => "intelligence:manage"
  | webSearch => "web:search"

/-- `frozenset(Capability)`. -/
def all : List Capability :=
  [askReadOnly, startVoiceSession, viewSourceMetadata, runBriefing, viewBriefingHistory,
    manageAccess, agentCommand, dataIngest, dataReview, studentsRead, studentsReadContact,
    attendanceRead, feesRead, facultyRead, examsRead, documentsRead, documentsManage,
    reportsGenerate, actionsEmail, actionsNotify, recordsWrite, intelligenceRead,
    intelligenceManage, webSearch]

/-- `Capability(item)`, for an item that is one. -/
def ofText (item : String) : Option Capability := all.find? (·.text = item)

end Capability

/-! ## Roles -/

def studentCapabilities : List Capability :=
  [.askReadOnly, .startVoiceSession, .agentCommand, .documentsRead, .webSearch]

def facultyCapabilities : List Capability :=
  studentCapabilities ++ [.viewSourceMetadata, .runBriefing, .viewBriefingHistory, .studentsRead,
    .attendanceRead, .examsRead, .reportsGenerate, .intelligenceRead]

def staffCapabilities : List Capability :=
  studentCapabilities ++ [.viewSourceMetadata, .dataIngest, .dataReview, .studentsRead, .feesRead,
    .reportsGenerate, .actionsNotify]

def hodCapabilities : List Capability :=
  facultyCapabilities ++ [.studentsReadContact, .feesRead, .facultyRead, .actionsEmail,
    .actionsNotify]

def principalCapabilities : List Capability :=
  hodCapabilities ++ staffCapabilities ++ [.documentsManage, .recordsWrite, .intelligenceManage]

/-- `capabilities_for_role`. -/
def capabilitiesForRole : PrincipalType → List Capability
  | .anonymous => []
  | .student => studentCapabilities
  | .faculty => facultyCapabilities
  | .staff => staffCapabilities
  | .hod => hodCapabilities
  | .principal => principalCapabilities
  | .institutionAdmin | .mainAdmin | .platformSuperAdmin | .system => Capability.all

/-- `ROLE_ALIASES`. -/
def roleAlias : String → Option PrincipalType
  | "student" => some .student
  | "faculty" | "teacher" => some .faculty
  | "staff" | "office_staff" => some .staff
  | "hod" | "head_of_department" => some .hod
  | "principal" => some .principal
  | "institution_admin" => some .institutionAdmin
  | "main_admin" | "admin" => some .mainAdmin
  | "platform_super_admin" | "super_admin" => some .platformSuperAdmin
  | "system" => some .system
  | _ => none

theorem roleAlias_ne_anonymous (role : String) : roleAlias role ≠ some .anonymous := by
  unfold roleAlias
  split <;> simp

/-! ## Scopes -/

/-- The narrowest institutional scope a request or a grant can name. -/
structure InstitutionScope (u : Language) where
  collegeId : String
  departmentId : Option String
  batchId : Option String
  college : u.blank collegeId = false
  department : ∀ d ∈ departmentId, u.blank d = false
  batch : ∀ b ∈ batchId, u.blank b = false

/-- `InstitutionScope(...)`, which refuses blank names. -/
def institutionScope (u : Language) (collegeId : String) (departmentId batchId : Option String) :
    Option (InstitutionScope u) :=
  if h : u.blank collegeId = false ∧ (∀ d ∈ departmentId, u.blank d = false) ∧
      ∀ b ∈ batchId, u.blank b = false
  then some ⟨collegeId, departmentId, batchId, h.1, h.2.1, h.2.2⟩ else none

theorem institutionScope_eq_some {u : Language} {collegeId : String}
    {departmentId batchId : Option String} {s : InstitutionScope u}
    (h : institutionScope u collegeId departmentId batchId = some s) :
    collegeId = s.collegeId ∧ s.departmentId = departmentId ∧ s.batchId = batchId := by
  rw [institutionScope] at h
  split_ifs at h
  rw [← Option.some.inj h]
  exact ⟨rfl, rfl, rfl⟩

/-- A granted department or batch against the requested one. -/
def coversField : Option String → Option String → Bool
  | none, _ => true
  | some _, none => false
  | some granted, some requested => granted = requested

/-- `covers`. -/
def InstitutionScope.covers {u : Language} (granted requested : InstitutionScope u) : Bool :=
  granted.collegeId = requested.collegeId &&
    coversField granted.departmentId requested.departmentId &&
      coversField granted.batchId requested.batchId

theorem coversField_iff {granted requested : Option String} : coversField granted requested = true ↔
    ∀ d ∈ granted, requested = some d := by
  cases granted with
  | none => simp [coversField]
  | some g => cases requested <;> simp [coversField, eq_comm]

/-! ## Principals -/

/-- An authenticated caller; an anonymous one carries no authority. -/
structure Principal (u : Language) where
  principalId : String
  principalType : PrincipalType
  capabilities : List Capability
  scopes : List (InstitutionScope u)
  authenticated : Bool
  consentVerified : Bool
  revoked : Bool
  named : u.blank principalId = false
  anonymous : principalType = .anonymous → authenticated = false ∧ capabilities = [] ∧
    scopes = [] ∧ consentVerified = false ∧ revoked = false

namespace Principal
variable {u : Language} (principal : Principal u)

def active : Bool :=
  principal.authenticated && !principal.revoked && principal.principalType ≠ .anonymous

def hasCapability (capability : Capability) : Bool :=
  principal.active && principal.capabilities.contains capability

def canAccess (requested : InstitutionScope u) : Bool :=
  principal.active && principal.scopes.any (·.covers requested)

end Principal

end GuruJi.Auth
