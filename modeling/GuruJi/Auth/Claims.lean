import GuruJi.Agents.Bindings
import GuruJi.Auth.Principals

/-!
# Claims of a token

`principalFromClaims` maps the verified claims of a token to a principal. The claims are arbitrary
JSON, read under two spellings.

* `canAccess_iff`: what a principal made from claims may access.
* `narrows_iff`: the tokens whose scope claim never widens access.
* `not_narrows`: a department that is no text is dropped from its entry.
-/

namespace GuruJi.Auth

open GuruJi.Lib
open GuruJi.Agents (Json Dict)

/-! ## Reading claims -/

/-- `claims.get(name)`; a claim that is not there reads as null. -/
def claim (claims : Dict) (name : String) : Json := (claims.get name).getD .null

/-- `_lookup`. -/
def lookup (claims : Dict) (name : String) : Json :=
  if (claims.get name).isSome then claim claims name else claim claims ("custom:" ++ name)

def truthy (u : Language) : Json → Bool
  | .null => false
  | .bool b => b
  | .number literal => !u.isZero literal
  | .string s => s ≠ ""
  | .array items => !items.isEmpty
  | .object fields => !fields.isEmpty

/-- `a or b`. -/
def orElse (u : Language) (a b : Json) : Json := if truthy u a then a else b

def texts (items : List Json) : List String :=
  items.filterMap fun item => match item with
    | .string s => some s
    | _ => none

/-- `_claim_values`. -/
def claimValues (u : Language) (claims : Dict) (name : String) : List String :=
  let values := match lookup claims name with
    | .string s => [s]
    | .array items => texts items
    | _ => []
  (values.filter fun item => !u.blank item).map (strip u.isSpace)

/-- `_truthy_claim`. -/
def truthyClaim (u : Language) (claims : Dict) : List String → Bool
  | [] => false
  | name :: names =>
    match lookup claims name with
    | .bool b => b
    | .number literal => u.isOne literal
    | .string s => ["1", "true", "yes", "verified", "active"].contains (u.lower (strip u.isSpace s))
    | _ => truthyClaim u claims names

/-- `_capabilities`. -/
def claimedCapabilities (u : Language) (claims : Dict) (role : PrincipalType) : List Capability :=
  let raw := if claimValues u claims "guru_capabilities" = [] then claimValues u claims "capabilities"
    else claimValues u claims "guru_capabilities"
  if raw = [] then capabilitiesForRole role else raw.filterMap Capability.ofText

/-! ## Scopes -/

def textOf : Json → Option String
  | .string s => some s
  | _ => none

/-- The scope that an entry is read as; `none` for an entry that is skipped. -/
def scopeOf (u : Language) : Json → Option (InstitutionScope u)
  | .object fields =>
    match textOf (claim fields "college_id") with
    | none => none
    | some collegeId => institutionScope u collegeId (textOf (claim fields "department_id"))
        (textOf (claim fields "batch_id"))
  | _ => none

/-- The entries of a scope list; a single object is a list of one. -/
def entries : Json → List Json
  | .object fields => [.object fields]
  | .array items => items
  | _ => []

/-- The scope list that `_scopes` reads. -/
def scopeList (u : Language) (claims : Dict) : Json :=
  match lookup claims "guru_scopes" with
  | .null => orElse u (lookup claims "institution_scopes") (.array [])
  | raw => raw

def plainCollege (u : Language) (claims : Dict) : List (InstitutionScope u) :=
  match orElse u (lookup claims "college_id") (lookup claims "college") with
  | .string collegeId =>
    if u.blank collegeId then []
    else (institutionScope u (strip u.isSpace collegeId) none none).toList
  | _ => []

/-- `_scopes`. -/
def scopes (u : Language) (claims : Dict) : List (InstitutionScope u) :=
  let scopes := (entries (scopeList u claims)).filterMap (scopeOf u)
  if scopes.isEmpty then plainCollege u claims else scopes

/-! ## The principal -/

inductive AuthenticationError where
  | subjectMissing
  deriving DecidableEq

/-- The role of the claims; an unknown one is a student. -/
def claimedRole (u : Language) (claims : Dict) : PrincipalType :=
  let named (value : Json) : Option String := (textOf value).filter fun s => !u.blank s
  let role := ((named (lookup claims "guru_role")).or (named (lookup claims "role"))).getD "student"
  (roleAlias (u.lower role)).getD .student

theorem claimedRole_ne_anonymous (u : Language) (claims : Dict) : claimedRole u claims ≠ .anonymous := by
  rw [claimedRole]
  cases hrole : roleAlias (u.lower _) with
  | none => simp
  | some role =>
    rintro rfl
    exact roleAlias_ne_anonymous _ hrole

theorem blank_strip {u : Language} {text : String} (h : u.blank text = false) :
    u.blank (strip u.isSpace text) = false := by
  rw [Language.blank, decide_eq_false_iff_not] at h ⊢
  obtain ⟨c, hc, hspace⟩ := strip_ne_empty.mp h
  exact strip_ne_empty.mpr ⟨c, mem_strip hc hspace, hspace⟩

/-- `principal_from_claims`. -/
def principalFromClaims (u : Language) (claims : Dict) : Except AuthenticationError (Principal u) :=
  match claim claims "sub" with
  | .string subject =>
    if h : u.blank subject = false then
      .ok {
        principalId := strip u.isSpace subject
        principalType := claimedRole u claims
        capabilities := claimedCapabilities u claims (claimedRole u claims)
        scopes := scopes u claims
        authenticated := true
        consentVerified :=
          truthyClaim u claims ["guru_parental_consent", "parental_consent", "consent_verified"]
        revoked := truthyClaim u claims ["guru_revoked", "revoked", "account_revoked"]
        named := blank_strip h
        anonymous := fun hrole => absurd hrole (claimedRole_ne_anonymous u claims) }
    else .error .subjectMissing
  | _ => .error .subjectMissing

/-! ## What the token carries -/

def scopeClaims : List String :=
  ["guru_scopes", "custom:guru_scopes", "institution_scopes", "custom:institution_scopes"]

/-- The scope lists of the token, under any of their names. -/
def carried (claims : Dict) : List Json :=
  (scopeClaims.map (claim claims)).filter fun value => match value with
    | .null => false
    | _ => true

/-- The entries of the scope lists that the token carries. -/
def carriedEntries (claims : Dict) : List Json := (carried claims).flatMap entries

/-- A value that is present equals the one of the scope. -/
def Agrees (value : Json) (named : Option String) : Prop :=
  value ≠ .null → ∃ text, value = .string text ∧ named = some text

variable {u : Language}

/-- The entry names the college of the scope, and the department and the batch where it has one. -/
def Names (entry : Json) (s : InstitutionScope u) : Prop :=
  ∃ fields, entry = .object fields ∧ claim fields "college_id" = .string s.collegeId ∧
    Agrees (claim fields "department_id") s.departmentId ∧ Agrees (claim fields "batch_id") s.batchId

/-- **The scope claim never widens access**: what the principal may access is named by an entry that
the token carries. -/
def Narrows (u : Language) (claims : Dict) : Prop :=
  ∀ principal, principalFromClaims u claims = .ok principal → ∀ s, principal.canAccess s = true →
    ∃ entry ∈ carriedEntries claims, Names entry s

/-- The department and the batch of an entry are texts, where it has them. -/
def WellTyped (entry : Json) : Prop :=
  ∀ fields, entry = .object fields → ∀ name ∈ ["department_id", "batch_id"],
    claim fields name ≠ .null → ∃ text, claim fields name = .string text

/-- An entry that is read with a value dropped has another entry beside it that names what is left;
and where no entry can be read, there is no plain college to fall back on, but one an entry names. -/
structure Covered (u : Language) (claims : Dict) : Prop where
  typed : ∀ entry ∈ entries (scopeList u claims), ∀ s, scopeOf u entry = some s →
    WellTyped entry ∨ ∃ other ∈ carriedEntries claims, Names other s
  fallback : (∀ entry ∈ entries (scopeList u claims), scopeOf u entry = none) →
    ∀ s ∈ plainCollege u claims, ∃ other ∈ carriedEntries claims, Names other s

/-! ## Access -/

theorem InstitutionScope.covers_iff {granted requested : InstitutionScope u} :
    granted.covers requested = true ↔ granted.collegeId = requested.collegeId ∧
      (∀ d ∈ granted.departmentId, requested.departmentId = some d) ∧
      ∀ b ∈ granted.batchId, requested.batchId = some b := by
  rw [InstitutionScope.covers, Bool.and_eq_true, Bool.and_eq_true, decide_eq_true_eq,
    coversField_iff, coversField_iff, and_assoc]

theorem InstitutionScope.covers_self (s : InstitutionScope u) : s.covers s = true :=
  InstitutionScope.covers_iff.mpr ⟨rfl, fun _ h => h, fun _ h => h⟩

theorem Agrees.mono {value : Json} {granted requested : Option String} (h : Agrees value granted)
    (hcovers : ∀ d ∈ granted, requested = some d) : Agrees value requested := by
  intro hpresent
  obtain ⟨text, hvalue, hgranted⟩ := h hpresent
  exact ⟨text, hvalue, hcovers text hgranted⟩

variable {entry : Json} {s : InstitutionScope u} {claims : Dict}

theorem Names.mono {granted requested : InstitutionScope u} (h : Names entry granted)
    (hcovers : granted.covers requested = true) : Names entry requested := by
  obtain ⟨fields, rfl, hcollege, hdepartment, hbatch⟩ := h
  obtain ⟨hsame, hd, hb⟩ := InstitutionScope.covers_iff.mp hcovers
  exact ⟨fields, rfl, hsame ▸ hcollege, hdepartment.mono hd, hbatch.mono hb⟩

theorem agrees_textOf {value : Json} :
    Agrees value (textOf value) ↔ (value ≠ .null → ∃ text, value = .string text) := by
  refine forall_congr' fun _ => ?_
  constructor
  · rintro ⟨text, hvalue, -⟩
    exact ⟨text, hvalue⟩
  · rintro ⟨text, rfl⟩
    exact ⟨text, rfl, rfl⟩

theorem scopeOf_eq_some (h : scopeOf u entry = some s) :
    ∃ fields, entry = .object fields ∧ claim fields "college_id" = .string s.collegeId ∧
      s.departmentId = textOf (claim fields "department_id") ∧
      s.batchId = textOf (claim fields "batch_id") := by
  cases entry with
  | object fields =>
    rw [scopeOf] at h
    cases hcollege : claim fields "college_id" with
    | string collegeId =>
      rw [hcollege] at h
      obtain ⟨rfl, hdepartment, hbatch⟩ := institutionScope_eq_some h
      exact ⟨fields, rfl, hcollege, hdepartment, hbatch⟩
    | null | bool | number | array | object =>
      rw [hcollege] at h
      cases h
  | null | bool | number | string | array => cases h

/-- An entry names the scope it is read as exactly when no value of it was dropped. -/
theorem names_scopeOf (h : scopeOf u entry = some s) : Names entry s ↔ WellTyped entry := by
  obtain ⟨fields, rfl, hcollege, hdepartment, hbatch⟩ := scopeOf_eq_some h
  constructor
  · rintro ⟨fields', heq, -, hd, hb⟩ fields'' heq' name hname hpresent
    obtain rfl := Json.object.inj heq
    obtain rfl := Json.object.inj heq'
    rw [hdepartment] at hd
    rw [hbatch] at hb
    rcases List.mem_cons.mp hname with rfl | hname
    · exact agrees_textOf.mp hd hpresent
    · obtain rfl := List.mem_singleton.mp hname
      exact agrees_textOf.mp hb hpresent
  · intro htyped
    refine ⟨fields, rfl, hcollege, ?_, ?_⟩
    · rw [hdepartment]
      exact agrees_textOf.mpr (htyped fields rfl _ List.mem_cons_self)
    · rw [hbatch]
      exact agrees_textOf.mpr (htyped fields rfl _ (List.mem_cons_of_mem _ List.mem_cons_self))

theorem mem_carriedEntries
    (h : entry ∈ entries (scopeList u claims)) : entry ∈ carriedEntries claims := by
  have hclaim : ∀ name ∈ scopeClaims, entry ∈ entries (claim claims name) →
      entry ∈ carriedEntries claims := by
    intro name hname hentry
    refine List.mem_flatMap.mpr ⟨claim claims name, List.mem_filter.mpr
      ⟨List.mem_map_of_mem hname, ?_⟩, hentry⟩
    cases hvalue : claim claims name with
    | null =>
      rw [hvalue] at hentry
      cases hentry
    | bool | number | string | array | object => rfl
  have hlookup : ∀ name, name ∈ scopeClaims → "custom:" ++ name ∈ scopeClaims →
      entry ∈ entries (lookup claims name) → entry ∈ carriedEntries claims := by
    intro name hplain hcustom hentry
    rw [lookup] at hentry
    split_ifs at hentry
    · exact hclaim name hplain hentry
    · exact hclaim _ hcustom hentry
  have hguru : entry ∈ entries (lookup claims "guru_scopes") → entry ∈ carriedEntries claims :=
    hlookup "guru_scopes" (by decide) (by decide)
  rw [scopeList] at h
  split at h
  · rw [orElse] at h
    split_ifs at h
    · exact hlookup "institution_scopes" (by decide) (by decide) h
    · cases h
  · exact hguru h

theorem mem_scopes : s ∈ scopes u claims ↔
    (∃ entry ∈ entries (scopeList u claims), scopeOf u entry = some s) ∨
      (∀ entry ∈ entries (scopeList u claims), scopeOf u entry = none) ∧ s ∈ plainCollege u claims := by
  rw [scopes]
  by_cases hnone : (entries (scopeList u claims)).filterMap (scopeOf u) = []
  · have hskipped := List.filterMap_eq_nil_iff.mp hnone
    rw [hnone]
    constructor
    · exact fun hmem => .inr ⟨hskipped, hmem⟩
    · rintro (⟨entry, hentry, hs⟩ | ⟨-, hmem⟩)
      · rw [hskipped entry hentry] at hs
        cases hs
      · exact hmem
  · rw [if_neg (by simpa using hnone), List.mem_filterMap]
    refine ⟨.inl, fun h => h.resolve_right fun hskipped => hnone ?_⟩
    exact List.filterMap_eq_nil_iff.mpr hskipped.1

theorem covered_iff : Covered u claims ↔
    ∀ s ∈ scopes u claims, ∃ entry ∈ carriedEntries claims, Names entry s := by
  constructor
  · intro hcovered s hs
    rcases mem_scopes.mp hs with ⟨entry, hentry, hread⟩ | ⟨hskipped, hmem⟩
    · rcases hcovered.typed entry hentry s hread with htyped | hother
      · exact ⟨entry, mem_carriedEntries hentry, (names_scopeOf hread).mpr htyped⟩
      · exact hother
    · exact hcovered.fallback hskipped s hmem
  · intro h
    refine ⟨fun entry hentry s hread => .inr ?_, fun hskipped s hmem => ?_⟩
    · exact h s (mem_scopes.mpr (.inl ⟨entry, hentry, hread⟩))
    · exact h s (mem_scopes.mpr (.inr ⟨hskipped, hmem⟩))

/-- A principal made from claims may access what a scope of the claims covers, unless revoked. -/
theorem canAccess_iff {principal : Principal u}
    (h : principalFromClaims u claims = .ok principal) (s : InstitutionScope u) :
    principal.canAccess s = true ↔
      truthyClaim u claims ["guru_revoked", "revoked", "account_revoked"] = false ∧
        ∃ granted ∈ scopes u claims, granted.covers s = true := by
  rw [principalFromClaims] at h
  split at h
  · split_ifs at h
    obtain rfl := Except.ok.inj h
    simp [Principal.canAccess, Principal.active, claimedRole_ne_anonymous, List.any_eq_true]
  · cases h

theorem exists_principal : (∃ principal, principalFromClaims u claims = .ok principal) ↔
      ∃ subject, claim claims "sub" = .string subject ∧ u.blank subject = false := by
  constructor
  · rintro ⟨principal, h⟩
    rw [principalFromClaims] at h
    split at h
    case h_1 subject hsub =>
      split_ifs at h with hnamed
      exact ⟨subject, hsub, hnamed⟩
    case h_2 => cases h
  · rintro ⟨subject, hsub, hnamed⟩
    rw [principalFromClaims, hsub]
    exact ⟨_, dif_pos hnamed⟩

/-- **A scope claim narrows** exactly when the token names no subject or is revoked, or every value
that is dropped from its entries is covered. -/
theorem narrows_iff (u : Language) (claims : Dict) : Narrows u claims ↔
    (¬∃ subject, claim claims "sub" = .string subject ∧ u.blank subject = false) ∨
      truthyClaim u claims ["guru_revoked", "revoked", "account_revoked"] = true ∨
        Covered u claims := by
  rw [← exists_principal (u := u), covered_iff]
  constructor
  · intro hnarrows
    by_cases hrefused : ∃ principal, principalFromClaims u claims = .ok principal
    · obtain ⟨principal, hprincipal⟩ := hrefused
      refine .inr ?_
      cases hrevoked : truthyClaim u claims ["guru_revoked", "revoked", "account_revoked"] with
      | true => exact .inl rfl
      | false =>
        refine .inr fun s hs => hnarrows principal hprincipal s ?_
        exact (canAccess_iff hprincipal s).mpr ⟨hrevoked, s, hs, s.covers_self⟩
    · exact .inl hrefused
  · rintro (hrefused | hrevoked | hcovered) principal hprincipal s haccess
    · exact absurd ⟨principal, hprincipal⟩ hrefused
    · rw [((canAccess_iff hprincipal s).mp haccess).1] at hrevoked
      cases hrevoked
    · obtain ⟨-, granted, hgranted, hcovers⟩ := (canAccess_iff hprincipal s).mp haccess
      obtain ⟨entry, hentry, hnames⟩ := hcovered granted hgranted
      exact ⟨entry, hentry, hnames.mono hcovers⟩

/-! ## A department that is no text -/

def plainLanguage : Language where
  isSpace := Char.isWhitespace
  lower := String.toLower
  isZero literal := literal = "0"
  isOne literal := literal = "1"

/-- The provider writes the department as a number. -/
def numberedDepartment : Dict :=
  [("sub", .string "u-1"),
    ("guru_scopes", .array [.object [("college_id", .string "gcu"), ("department_id", .number "7")]])]

def wholeCollege : InstitutionScope plainLanguage where
  collegeId := "gcu"
  departmentId := none
  batchId := none
  college := by decide
  department := by decide
  batch := by decide

/-- The token grants the whole college. -/
theorem not_narrows : ¬ ∀ (u : Language) (claims : Dict), carried claims ≠ [] → Narrows u claims := by
  intro h
  obtain ⟨principal, hprincipal⟩ : ∃ principal,
      principalFromClaims plainLanguage numberedDepartment = .ok principal :=
    exists_principal.mpr ⟨"u-1", rfl, by decide⟩
  have haccess : principal.canAccess wholeCollege = true :=
    (canAccess_iff hprincipal wholeCollege).mpr
      ⟨by decide, wholeCollege, List.mem_cons_self, wholeCollege.covers_self⟩
  obtain ⟨entry, hentry, fields, rfl, -, hdepartment, -⟩ :=
    h plainLanguage numberedDepartment (List.cons_ne_nil _ _) principal hprincipal wholeCollege haccess
  obtain ⟨⟩ | ⟨-, hnil⟩ := hentry
  · obtain ⟨text, -, hnone⟩ := hdepartment nofun
    cases hnone
  · cases hnil

end GuruJi.Auth
