import GuruJi.Map.Placement
import GuruJi.Map.Rejections

/-!
# What an owner's file says

A domain's owner lists its accounts in a file, and a check of the file claims those that the owner may
confirm and withdraws the others it had listed. A file that has not changed is answered with 304: the
accounts are then those on which the owner's latest word in the log is a claim.

* `accounts_words`: what a reading records;
* **`unchanged_file_iff`**: over every history, a 304 records what a reading of the same file would, iff
  the accounts that may be claimed now are the same ones in the file and in the log;
* `unchanged_file_drifts`: an account that could not be claimed when the file was last read.
-/

namespace GuruJi.Map

open GuruJi.Lib

/-- `WELL_KNOWN_PATH`. -/
def wellKnownPath : String := "/.well-known/guruji.json"

/-- `MAX_LISTED_ACCOUNTS`. -/
def maxListedAccounts : Nat := 200

/-- What the checks take from outside: `verification_token`, of an epoch, a generation and a host, and
how a text is stripped. -/
structure OwnerEnv extends AssetEnv where
  token : Nat → Nat → String → String
  strip : String → String

/-- The object in a file: `none` for a value of another type. -/
structure OwnerPayload where
  verification : Option String
  accounts : Option (List (Option String))
  deriving DecidableEq

/-- What was found on the homepage. -/
inductive HomeFound where
  | tag | none | unhealthy
  deriving DecidableEq

/-- What the other two methods found. -/
structure OtherProofs where
  home : Option HomeFound
  homeOutcome : String
  dnsOutcome : String
  dnsFound : Bool
  deriving DecidableEq

/-- What the host answers when it is asked for the file; `payload` is the object in it, if it is one. -/
structure FileAnswer where
  onHost : Bool
  outcome : String
  payload : Option OwnerPayload
  deriving DecidableEq

/-- What a reading of the file found. -/
inductive Listed where
  | accounts (urls : List String)
  | absent
  deriving DecidableEq

/-- What `_remember` keeps: what was found, and the content its validators stand for, if they
were kept. -/
structure Remembered where
  found : String
  content : Option (Option OwnerPayload)
  deriving DecidableEq

/-- `_FILE_ABSENT`. -/
def fileAbsent : List String := ["not_found", "gone", "content_type"]

/-- `UNHEALTHY_STATUSES`. -/
def AssetStatus.isUnhealthy : AssetStatus → Bool
  | .seen .compromised | .seen .hijacked | .seen .parked | .seen .redirected => true
  | _ => false

/-! ## Withdrawing -/

section
variable (env : MapEnv)

def withdrawal (domainId detail sourceUrl : String) (observedVia : Via) (row : Evidence) : Observation :=
  ⟨row.assetId, .ownerClaim, .refutes, if sourceUrl = "" then row.sourceUrl else sourceUrl,
    some domainId, upTo 200 detail, row.channel, observedVia⟩

/-- The rows of a domain's claims that are the latest of their account and channel. -/
def latestClaims (m : MapState) (domainId : String) : List Evidence :=
  latestBy (fun row => (row.assetId, row.channel)) (m.store.linksFrom domainId .ownerClaim)

/-- `withdraw_owner_listing`. -/
def withdrawOwnerListing (m : MapState) (domainId detail : String) (keep : List String)
    (observedVia : Via)
    (sourceUrl : String) : List String × MapState :=
  let standing := (latestClaims m domainId).filter fun row => row.supports && !keep.contains row.assetId
  ((standing.map (·.assetId)).eraseDups,
    standing.foldl (fun m row => m.record env (withdrawal domainId detail sourceUrl observedVia row)) m)

end

/-! ## Reading the file -/

section
variable (env : OwnerEnv)

/-- `_matches`. -/
def tokenMatches (value : Option String) (token : String) : Bool := value.any fun text =>
    env.strip text = token

def proves (token : String) (payload : Option OwnerPayload) : Bool :=
  payload.any fun p => tokenMatches env p.verification token

def OwnerPayload.listed (p : OwnerPayload) : List String :=
  match p.accounts with
  | none => []
  | some items => (items.filterMap id).take maxListedAccounts

def fileChannel (host : String) : String := "owner-file:" ++ host

/-- `_listed_before`. -/
def listedBefore (m : MapState) (domainId channel : String) : List String :=
  let rows := (m.store.linksFrom domainId .ownerClaim).filter fun row =>
    row.channel = channel && row.observedVia = .owner
  let named := ((latestBy (·.assetId) rows).filter (·.supports)).map (·.assetId)
  (m.store.assets.filter fun asset => named.contains asset.assetId).map fun asset =>
      (m.texts asset.assetId).url

/-- `_well_known`, with what it remembers; the inner `none` is a file that could not be read. -/
def wellKnown (m : MapState) (domain : AssetRow) (token : String) (before : Option Remembered)
    (answer : FileAnswer) : Option Listed × Option Remembered :=
  if answer.onHost = false ∨ answer.outcome ∈ fileAbsent then (some .absent, some ⟨"absent", none⟩)
  else if answer.outcome = "not_modified" then
    match before.map (·.found) with
    | some "verified" =>
        (some (.accounts (listedBefore m domain.assetId (fileChannel domain.host))), before)
    | some "absent" => (some .absent, before)
    | _ => (none, before)
  else if answer.outcome ≠ "ok" then (none, before)
  else match answer.payload with
    | none => (some .absent, some ⟨"absent", some none⟩)
    | some p =>
      if tokenMatches env p.verification token then
        (some (.accounts p.listed), some ⟨"verified", some (some p)⟩)
      else (some .absent, some ⟨"absent", some (some p)⟩)

def listing (domain : AssetRow) (assetId : String) : Observation :=
  ⟨assetId, .ownerClaim, .supports, "https://" ++ domain.host ++ wellKnownPath, some domain.assetId,
    "listed in " ++ wellKnownPath, fileChannel domain.host, .owner⟩

/-- Whether the owner of a domain may claim an account: it is one, it is not suppressed, and it is not
placed where the owner has no say. -/
def mayClaim (m : MapState) (domain : AssetRow) (ref : AssetRef) : Bool :=
  ref.isAccount && !m.suppressed ref.key &&
    (m.store.findAsset ref.key).all fun existing => claimable m existing.entityId domain.entityId

/-- The loop of `_accounts`. -/
structure Naming where
  map : MapState
  named : List String
  newAssets : List String

def nameAccount (domain : AssetRow) (s : Naming) (url : String) : Naming :=
  match env.assetRef url with
  | none => s
  | some ref =>
    if mayClaim s.map domain ref then
      let asset := s.map.upsertAsset env.toAssetEnv ref domain.entityId "official"
      { map := asset.2.record env.toMapEnv (listing domain asset.1.1)
        named := s.named ++ [asset.1.1]
        newAssets := if asset.1.2 then s.newAssets ++ [ref.key] else s.newAssets }
    else s

/-- `_accounts`. -/
def accounts (m : MapState) (domain : AssetRow) (listed : List String) : Naming :=
  let s := listed.foldl (nameAccount env domain) ⟨m, [], []⟩
  let withdrawn := withdrawOwnerListing env.toMapEnv s.map domain.assetId
    ("no longer listed in " ++ wellKnownPath)
    s.named .owner ("https://" ++ domain.host ++ wellKnownPath)
  { s with map := withdrawn.2, named := s.named ++ withdrawn.1 }

/-! ## A check -/

/-- `ConnectorResult`. -/
structure OwnerResult where
  outcome : String
  failed : Bool
  prune : Bool
  touched : List String
  newAssets : List String
  deriving DecidableEq

def OwnerResult.plain (outcome : String) : OwnerResult := ⟨outcome, false, false, [], []⟩

/-- `nominated_by_institution`. -/
def nominatedByInstitution (m : MapState) (assetId : String) : Bool :=
  let rows := m.store.evidenceFor assetId
  let named := lastTime (fun row => row.supports &&
    [Kind.configuredDomain, .reviewerConfirm, .ownerClaim].contains row.kind) rows
  let ended := lastTime (fun row => row.refutes &&
    [Kind.configuredDomain, .reviewerReject, .lookalike, .impersonation].contains row.kind) rows
  named ≠ "" && decide (ended < named)

/-- `token_generation`. -/
def tokenGeneration (m : MapState) (assetId : String) : Nat :=
  (m.store.evidenceFor assetId).countP (·.kind = .other "owner_token_void")

/-- The names of the methods that found the token. -/
def proofNames (other : OtherProofs) (listed : Option Listed) : List String :=
  (if other.home = some .tag then ["meta_tag"] else []) ++
    (if other.dnsFound then ["dns_txt"] else []) ++ match listed with
    | some (.accounts _) => ["well_known_file"]
    | _ => []

/-- The polarity of the latest owner's word on a domain. -/
def latestOwnerClaim (m : MapState) (assetId channel : String) : Option Polarity :=
  (latest (fun row : Evidence => row.kind = .ownerClaim && row.channel = channel)
    (evidenceFor (m.store.evidenceFor assetId))).map (·.polarity)

def domainWord (domain : AssetRow) (polarity : Polarity) (detail : String) : Observation :=
  ⟨domain.assetId, .ownerClaim, polarity, "https://" ++ domain.host ++ "/", none, detail, "owner:" ++
    domain.host, .owner⟩

/-- `_record`: the map, and the assets it withdrew. -/
def recordProofs (m : MapState) (domain : AssetRow) (proofs : List String) (absent : Bool) :
    MapState × List String :=
  if proofs ≠ [] then
    (m.record env.toMapEnv
      (domainWord domain .supports ("domain verified by " ++ String.intercalate ", " proofs)), [])
  else if absent = true ∧ latestOwnerClaim m domain.assetId ("owner:" ++ domain.host) =
    some .supports then
    let told := m.record env.toMapEnv
      (domainWord domain .refutes "verification token no longer published")
    let withdrawn := withdrawOwnerListing env.toMapEnv told domain.assetId
      "the domain's ownership proof was withdrawn" [] .owner ("https://" ++ domain.host ++ "/")
    (withdrawn.2, withdrawn.1)
  else (m, [])

/-- `run` once the file has been asked for. -/
def conclude (m : MapState) (domain : AssetRow) (other : OtherProofs) (listed : Option Listed) :
    OwnerResult × MapState :=
  let proofs := proofNames other listed
  let absent := decide (proofs = [] ∧ other.home = some .none ∧ listed = some .absent ∧
    (other.dnsOutcome = "unchecked" ∨ other.dnsOutcome = "ok"))
  if proofs = [] ∧ other.home = none ∧ listed = none ∧ other.dnsOutcome ≠ "ok" then
    (⟨other.homeOutcome, true, false, [], []⟩, m)
  else
    let recorded := recordProofs env m domain proofs absent
    let named : Naming := match listed with
      | none => ⟨recorded.1, [], []⟩
      | some .absent => accounts env recorded.1 domain []
      | some (.accounts urls) => accounts env recorded.1 domain urls
    let touched := domain.assetId :: (recorded.2 ++ named.named)
    (⟨if proofs ≠ [] then "verified" else if absent then "no_proof" else "inconclusive", false, false,
        touched, named.newAssets⟩,
      named.map.regrade env.toMapEnv touched)

/-- The map, the epoch of the tokens, and what the checks remember under each token. -/
structure OwnerState where
  map : MapState
  epoch : Nat
  remembered : String → Option Remembered

/-- The domain that is checked, and the token that proves it, if its state allows a check. -/
def checked (s : OwnerState) (domainId : String) : Except OwnerResult (AssetRow × String) :=
  match s.map.store.getAsset domainId with
  | none => .error { OwnerResult.plain "asset_missing" with prune := true }
  | some domain =>
    if domain.kind ≠ "domain" then .error { OwnerResult.plain "asset_missing" with prune := true }
    else if nominatedByInstitution s.map domainId = false then
      .error { OwnerResult.plain "not_nominated" with prune := true }
    else if domain.status.isUnhealthy then .error (OwnerResult.plain "unhealthy")
    else .ok (domain, env.token s.epoch (tokenGeneration s.map domainId) domain.host)

/-- `run`. -/
def ownerRun (domainId : String) (s : OwnerState) (other : OtherProofs) (answer : FileAnswer) :
    OwnerResult × OwnerState :=
  match checked env s domainId with
  | .error result => (result, s)
  | .ok (domain, token) =>
    if other.home = some .unhealthy then (OwnerResult.plain "unhealthy", s)
    else
      let read := wellKnown env s.map domain token (s.remembered token) answer
      let done := conclude env s.map domain other read.1
      (done.1, { s with map := done.2, remembered := Function.update s.remembered token read.2 })

end

/-! ## What a reading records -/

def claimWord (domain : AssetRow) (key : String) : Word := (listing domain "").said (some key)

section
variable (env : OwnerEnv)

/-- One of the URLs is an account that may be claimed. -/
def Claims (m : MapState) (domain : AssetRow) (urls : List String) (key : String) : Prop :=
  ∃ url ∈ urls, ∃ ref, env.assetRef url = some ref ∧ ref.key = key ∧ mayClaim m domain ref = true

/-- The loop after some URLs. -/
structure Named (base : MapState) (domain : AssetRow) (urls : List String) (s : Naming) : Prop where
  grows : Grows base s.map
  found : ∀ key, Claims env base domain urls key → ∃ a, s.map.store.findAsset key = some a ∧
      a.assetId ∈ s.named
  named : ∀ id ∈ s.named, ∃ key, Claims env base domain urls key ∧ s.map.keyOf id = some key
  untouched : ∀ key, ¬Claims env base domain urls key → s.map.store.findAsset key =
      base.store.findAsset key
  rows : ∀ row ∈ MapState.added base s.map, row.assetId ∈ s.named
  said : ∀ w, w ∈ MapState.words base s.map ↔ ∃ key, Claims env base domain urls key ∧
      w = claimWord domain key

end

section
variable {env : OwnerEnv} {base m : MapState} {domain : AssetRow} {urls urls' : List String} {s : Naming}

theorem claims_snoc {url key : String} : Claims env m domain (urls ++ [url]) key ↔
    Claims env m domain urls key ∨
      ∃ ref, env.assetRef url = some ref ∧ ref.key = key ∧ mayClaim m domain ref = true := by
  simp only [Claims, List.mem_append, List.mem_singleton, or_and_right, exists_or, exists_eq_left]

theorem mayClaim_congr {m m' : MapState} {ref : AssetRef} (h : Grows m m')
    (hfind : m'.store.findAsset ref.key = m.store.findAsset ref.key) :
    mayClaim m' domain ref = mayClaim m domain ref := by
  rw [mayClaim, mayClaim, h.suppressed, hfind]
  congr 1
  exact congrArg (Option.all · _) (funext fun a => claimable_congr h.entities a.entityId domain.entityId)

theorem Named.congr (h : Named env base domain urls s)
    (hsame : ∀ key, Claims env base domain urls' key ↔ Claims env base domain urls key) :
    Named env base domain urls' s where
  grows := h.grows
  found := fun key hkey => h.found key ((hsame key).mp hkey)
  named := fun id hid => (h.named id hid).imp fun key hkey => ⟨(hsame key).mpr hkey.1, hkey.2⟩
  untouched := fun key hkey => h.untouched key fun hold => hkey ((hsame key).mpr hold)
  rows := h.rows
  said := fun w => (h.said w).trans (exists_congr fun key => and_congr_left fun _ => (hsame key).symm)

theorem Named.record (h : Named env base domain urls s) (ref : AssetRef) (newAssets : List String)
    (hmore : ∀ key, Claims env base domain urls' key ↔ Claims env base domain urls key ∨ key = ref.key) :
    let asset := s.map.upsertAsset env.toAssetEnv ref domain.entityId "official"
    Named env base domain urls'
      ⟨asset.2.record env.toMapEnv (listing domain asset.1.1), s.named ++ [asset.1.1], newAssets⟩ := by
  intro asset
  have hgrows : Grows s.map (asset.2.record env.toMapEnv (listing domain asset.1.1)) :=
    MapState.grows_upsert_record env.toAssetEnv s.map ref _ _ _
  obtain ⟨a, ha, hkey, hid⟩ :=
    (MapStore.upsertAsset_spec env.toAssetEnv s.map.store ref domain.entityId "official").1
  have hfound : asset.2.store.findAsset ref.key = some a := hkey ▸ MapStore.findAsset_of_mem ha
  have hkeyOf : asset.2.keyOf asset.1.1 = some ref.key :=
    (MapState.keyOf_eq_some asset.2).mpr ⟨a, hfound, hid⟩
  have hothers : ∀ key, key ≠ ref.key → asset.2.store.findAsset key = s.map.store.findAsset key := by
    intro key hne
    exact (MapStore.findAsset_upsertAsset env.toAssetEnv s.map.store ref _ _ key).trans (if_neg hne)
  have hadded : MapState.added s.map (asset.2.record env.toMapEnv (listing domain asset.1.1)) =
      [env.row asset.2.store.evidence (listing domain asset.1.1)] :=
    MapState.added_upsert_record env.toAssetEnv s.map ref _ _ _
  refine ⟨h.grows.trans hgrows, fun key hclaims => ?_, fun id hmem => ?_, fun key hnot => ?_,
    fun row hrow => ?_, fun w => ?_⟩
  · by_cases hsame : key = ref.key
    · exact ⟨a, hsame ▸ hfound, List.mem_append_right _ (List.mem_singleton.mpr hid)⟩
    · obtain ⟨b, hb, hmem⟩ := h.found key (((hmore key).mp hclaims).resolve_right hsame)
      exact ⟨b, (hothers key hsame).trans hb, List.mem_append_left _ hmem⟩
  · rcases List.mem_append.mp hmem with hold | hnew
    · obtain ⟨key, hclaims, hkey⟩ := h.named id hold
      exact ⟨key, (hmore key).mpr (.inl hclaims), hgrows.keyOf_some hkey⟩
    · rw [List.mem_singleton.mp hnew]
      exact ⟨ref.key, (hmore _).mpr (.inr rfl), hkeyOf⟩
  · obtain ⟨hold, hne⟩ := not_or.mp fun hor => hnot ((hmore key).mpr hor)
    exact (hothers key hne).trans (h.untouched key hold)
  · rw [h.grows.added_trans hgrows, hadded] at hrow
    rcases List.mem_append.mp hrow with hold | hnew
    · exact List.mem_append_left _ (h.rows row hold)
    · rw [List.mem_singleton.mp hnew]
      exact List.mem_append_right _ List.mem_cons_self
  · have hwords : MapState.words s.map (asset.2.record env.toMapEnv (listing domain asset.1.1)) =
        [claimWord domain ref.key] := by
      rw [MapState.words, hadded, List.map_singleton, claimWord, ← hkeyOf]
      rfl
    rw [h.grows.words_trans hgrows, List.mem_append, h.said w, hwords, List.mem_singleton]
    constructor
    · rintro (⟨key, hclaims, hw⟩ | hw)
      · exact ⟨key, (hmore key).mpr (.inl hclaims), hw⟩
      · exact ⟨ref.key, (hmore _).mpr (.inr rfl), hw⟩
    · rintro ⟨key, hclaims, hw⟩
      rcases (hmore key).mp hclaims with hold | rfl
      · exact .inl ⟨key, hold, hw⟩
      · exact .inr hw

theorem Named.step (h : Named env base domain urls s) (url : String) :
    Named env base domain (urls ++ [url]) (nameAccount env domain s url) := by
  unfold nameAccount
  rcases href : env.assetRef url with _ | ref
  · refine h.congr fun key => claims_snoc.trans (or_iff_left ?_)
    rintro ⟨ref, hsome, -⟩
    rw [href] at hsome
    cases hsome
  have hsnoc : ∀ key, Claims env base domain (urls ++ [url]) key ↔
      Claims env base domain urls key ∨ ref.key = key ∧ mayClaim base domain ref = true := by
    intro key
    rw [claims_snoc, href]
    simp
  -- an account that was not claimed is judged as it was before
  have hjudged : ¬Claims env base domain urls ref.key → mayClaim s.map domain ref =
    mayClaim base domain ref :=
    fun hnot => mayClaim_congr h.grows (h.untouched ref.key hnot)
  show Named env base domain (urls ++ [url]) (if mayClaim s.map domain ref = true then _ else s)
  by_cases hmay : mayClaim s.map domain ref = true
  · rw [if_pos hmay]
    refine h.record ref _ fun key => (hsnoc key).trans (or_congr_right' fun hnot => ?_)
    constructor
    · exact fun hkey => hkey.1.symm
    · rintro rfl
      exact ⟨rfl, (hjudged hnot).symm.trans hmay⟩
  · rw [if_neg hmay]
    refine h.congr fun key => (hsnoc key).trans (or_iff_left_of_imp ?_)
    rintro ⟨rfl, hbase⟩
    by_contra hnot
    exact hmay ((hjudged hnot).trans hbase)

theorem named_foldl (base : MapState) (domain : AssetRow) (listed : List String) :
    Named env base domain listed (listed.foldl (nameAccount env domain) ⟨base, [], []⟩) := by
  induction listed using List.reverseRecOn with
  | nil =>
    have hnone : ∀ key, ¬Claims env base domain [] key := by
      rintro key ⟨url, hurl, -⟩
      cases hurl
    have hadded : MapState.added base base = [] := List.drop_length
    refine ⟨Grows.refl base, fun key h => absurd h (hnone key), fun id h => absurd h List.not_mem_nil,
      fun _ _ => rfl, fun row hrow => ?_, fun w => ?_⟩
    · rw [List.foldl_nil, hadded] at hrow
      cases hrow
    · rw [List.foldl_nil, MapState.words, hadded, List.map_nil]
      refine iff_of_false List.not_mem_nil ?_
      rintro ⟨key, h, -⟩
      exact hnone key h
  | append_singleton urls url ih =>
    rw [List.foldl_append]
    exact ih.step url

/-! ## What is withdrawn -/

theorem mem_of_latestClaims {domainId : String} {row : Evidence} (h : row ∈ latestClaims m domainId) :
    row ∈ m.store.evidence := by
  have hlatest := mem_latestBy.mp h
  have hlinks := List.mem_of_mem_filter (List.mem_of_getLast? hlatest)
  exact List.mem_of_mem_filter (mem_sortBy.mp hlinks)

theorem latestClaims_congr {m' : MapState} (h : Grows m m') {domainId : String} {row : Evidence}
    (hrows : ∀ new ∈ MapState.added m m', new.assetId ≠ row.assetId) :
    row ∈ latestClaims m' domainId ↔ row ∈ latestClaims m domainId := by
  have hfilter : ∀ p : Evidence → Bool, (∀ new, p new = true → new.assetId = row.assetId) →
      (m'.store.linksFrom domainId .ownerClaim).filter p =
      (m.store.linksFrom domainId .ownerClaim).filter p := by
    intro p hp
    have hnew : ∀ q : Evidence → Bool, ((MapState.added m m').filter q).filter p = [] := by
      intro q
      refine List.filter_eq_nil_iff.mpr fun new hmem hpnew => ?_
      exact hrows new (List.mem_of_mem_filter hmem) (hp new hpnew)
    unfold MapStore.linksFrom
    rw [← sortBy_filter, ← sortBy_filter, h.added_eq, List.filter_append, List.filter_append, hnew,
      List.append_nil]
  have hlatest := hfilter (fun a =>
    Decidable.decide ((a.assetId, a.channel) = (row.assetId, row.channel)))
    fun new hnew => (Prod.mk.inj (of_decide_eq_true hnew)).1
  rw [latestClaims, latestClaims, mem_latestBy, mem_latestBy, latest, latest, hlatest]

theorem words_withdraw (env : AssetEnv) (m : MapState) (domainId detail : String) (keep : List String)
    (via : Via)
    (sourceUrl : String) :
    let final := (withdrawOwnerListing env.toMapEnv m domainId detail keep via sourceUrl).2
    Grows m final ∧ ∀ w, w ∈ MapState.words m final ↔
      ∃ row ∈ latestClaims m domainId, row.supports = true ∧ row.assetId ∉ keep ∧
        w = (withdrawal domainId detail sourceUrl via row).said (m.keyOf row.assetId) := by
  intro final
  obtain ⟨hgrows, -, hwords⟩ := MapState.foldl_record env m
    (((latestClaims m domainId).filter fun row => row.supports && !keep.contains row.assetId).map
      (withdrawal domainId detail sourceUrl via))
  have hfinal : final = _ := (List.foldl_map (f := withdrawal domainId detail sourceUrl via)).symm
  rw [hfinal]
  refine ⟨hgrows, fun w => ?_⟩
  rw [hwords, List.map_map, List.mem_map]
  constructor
  · rintro ⟨row, hrow, rfl⟩
    obtain ⟨hmem, hkept⟩ := List.mem_filter.mp hrow
    simp only [Bool.and_eq_true, Bool.not_eq_true', List.contains_iff_mem,
      decide_eq_false_iff_not] at hkept
    exact ⟨row, hmem, hkept.1, by simpa using hkept.2, rfl⟩
  · rintro ⟨row, hmem, hsupports, hkeep, rfl⟩
    exact ⟨row, List.mem_filter.mpr ⟨hmem, by simp [hsupports, hkeep]⟩, rfl⟩

/-- The withdrawal of an account that the file does not name. -/
def unlisted (domain : AssetRow) (row : Evidence) : Observation :=
  withdrawal domain.assetId ("no longer listed in " ++ wellKnownPath)
    ("https://" ++ domain.host ++ wellKnownPath) .owner row

/-- What a reading records: a claim of each account that it lists and that may be claimed, and a
withdrawal of the others that were claimed. -/
theorem accounts_words (env : OwnerEnv) (base : MapState) (domain : AssetRow) (listed : List String) :
    let final := (accounts env base domain listed).map
    Grows base final ∧ ∀ w, w ∈ MapState.words base final ↔
      (∃ key, Claims env base domain listed key ∧ w = claimWord domain key) ∨
        ∃ row ∈ latestClaims base domain.assetId, row.supports = true ∧
          (∀ key, Claims env base domain listed key → base.keyOf row.assetId ≠ some key) ∧
          w = (unlisted domain row).said (base.keyOf row.assetId) := by
  intro final
  have hnamed := @named_foldl env base domain listed
  set s := listed.foldl (nameAccount env domain) ⟨base, [], []⟩ with hs
  obtain ⟨hgrows, hwords⟩ := words_withdraw env.toAssetEnv s.map domain.assetId
    ("no longer listed in " ++ wellKnownPath) s.named .owner ("https://" ++ domain.host ++ wellKnownPath)
  have hmap : final = (withdrawOwnerListing env.toMapEnv s.map domain.assetId
    ("no longer listed in " ++ wellKnownPath) s.named .owner
    ("https://" ++ domain.host ++ wellKnownPath)).2 := rfl
  rw [hmap]
  refine ⟨hnamed.grows.trans hgrows, fun w => ?_⟩
  rw [hnamed.grows.words_trans hgrows, List.mem_append, hnamed.said, hwords]
  refine or_congr_right (exists_congr fun row => ?_)
  -- an account that is not named has its rows as they were
  have hlatest : row.assetId ∉ s.named →
      (row ∈ latestClaims s.map domain.assetId ↔ row ∈ latestClaims base domain.assetId) := fun hnot =>
    latestClaims_congr hnamed.grows fun new hnew heq => hnot (heq ▸ hnamed.rows new hnew)
  have hkept : row ∈ base.store.evidence →
      (row.assetId ∈ s.named ↔ ∃ key, Claims env base domain listed key ∧ base.keyOf row.assetId =
      some key) := by
    intro hrow
    constructor
    · intro hmem
      obtain ⟨key, hclaims, hkey⟩ := hnamed.named _ hmem
      exact ⟨key, hclaims, (hnamed.grows.keyOf hrow).symm.trans hkey⟩
    · rintro ⟨key, hclaims, hkey⟩
      obtain ⟨a, ha, hmem⟩ := hnamed.found key hclaims
      obtain ⟨b, hb, hid⟩ := (MapState.keyOf_eq_some s.map).mp (hnamed.grows.keyOf_some hkey)
      rw [ha] at hb
      obtain rfl := Option.some.inj hb
      rwa [hid] at hmem
  constructor
  · rintro ⟨hrow, hsupports, hnot, rfl⟩
    have hbase := (hlatest hnot).mp hrow
    have hevidence := mem_of_latestClaims hbase
    refine ⟨hbase, hsupports, fun key hclaims hkey => ?_, ?_⟩
    · exact hnot ((hkept hevidence).mpr ⟨key, hclaims, hkey⟩)
    · rw [hnamed.grows.keyOf hevidence]
      rfl
  · rintro ⟨hrow, hsupports, hnone, rfl⟩
    have hevidence := mem_of_latestClaims hrow
    have hnot : row.assetId ∉ s.named := by
      intro hmem
      obtain ⟨key, hclaims, hkey⟩ := (hkept hevidence).mp hmem
      exact hnone key hclaims hkey
    refine ⟨(hlatest hnot).mpr hrow, hsupports, hnot, ?_⟩
    rw [hnamed.grows.keyOf hevidence]
    rfl

theorem claimWord_mem {listed : List String} {key : String} :
    claimWord domain key ∈ MapState.words base (accounts env base domain listed).map ↔
      Claims env base domain listed key := by
  rw [(accounts_words env base domain listed).2]
  constructor
  · rintro (⟨key', hclaims, hw⟩ | ⟨row, -, -, -, hw⟩)
    · obtain rfl := Option.some.inj (congrArg Word.account hw)
      exact hclaims
    · exact absurd (congrArg Word.polarity hw) nofun
  · exact fun hclaims => .inl ⟨key, hclaims, rfl⟩

/-- Two readings record the same iff they list the same among the accounts that may be claimed. -/
theorem accounts_same_iff {listed listed' : List String} :
    (∀ w, w ∈ MapState.words base (accounts env base domain listed).map ↔
        w ∈ MapState.words base (accounts env base domain listed').map) ↔
      ∀ key, Claims env base domain listed key ↔ Claims env base domain listed' key := by
  constructor
  · intro h key
    rw [← claimWord_mem, h, claimWord_mem]
  · intro h w
    rw [(accounts_words env base domain listed).2, (accounts_words env base domain listed').2]
    simp only [h]

end

/-! ## A history of checks -/

/-- What happens to a domain: the map changes, the tokens are rotated, and a check is run. -/
inductive OwnerEvent where
  | change (f : MapState → MapState)
  | rotate
  | check (other : OtherProofs) (answer : FileAnswer)

/-- A check whose file is answered with 304, and the content that the validators stand for. -/
structure Occasion where
  state : OwnerState
  domain : AssetRow
  token : String
  other : OtherProofs
  content : Option OwnerPayload

def FileAnswer.unchanged : FileAnswer := ⟨true, "not_modified", none⟩

def FileAnswer.full (content : Option OwnerPayload) : FileAnswer := ⟨true, "ok", content⟩

section
variable (env : OwnerEnv) (domainId : String)

def OwnerEvent.run (s : OwnerState) : OwnerEvent → OwnerState
  | .change f => { s with map := f s.map }
  | .rotate => { s with epoch := s.epoch + 1 }
  | .check other answer => (ownerRun env domainId s other answer).2

/-- The check that an event is, if its file is answered with 304. -/
def occasion (s : OwnerState) : OwnerEvent → Option Occasion
  | .check other answer =>
    match checked env s domainId with
    | .error _ => none
    | .ok (domain, token) =>
      if other.home ≠ some .unhealthy ∧ answer.onHost = true ∧ answer.outcome = "not_modified" then
        ((s.remembered token).bind (·.content)).map fun content => ⟨s, domain, token, other, content⟩
      else none
  | _ => none

/-- The checks of a history that are answered with 304. -/
def occasions : OwnerState → List OwnerEvent → List Occasion
  | _, [] => []
  | s, e :: events => (occasion env domainId s e).toList ++ occasions (e.run env domainId s) events

def Occasion.said (o : Occasion) (answer : FileAnswer) : List Word :=
  MapState.words o.state.map (ownerRun env domainId o.state o.other answer).2.map

/-- The check says what a reading of the same file would say. -/
def Occasion.ReadsTheSame (o : Occasion) : Prop :=
  ∀ w, w ∈ o.said env domainId .unchanged ↔ w ∈ o.said env domainId (.full o.content)

/-- The accounts that may be claimed now are the same ones in the file and in the log. -/
def Occasion.Remembers (o : Occasion) : Prop :=
  ∀ p, o.content = some p → tokenMatches env p.verification o.token = true → ∀ key,
    Claims env o.state.map o.domain
      (listedBefore o.state.map o.domain.assetId (fileChannel o.domain.host)) key ↔
      Claims env o.state.map o.domain p.listed key

def OwnerState.Faithful (s : OwnerState) : Prop :=
  ∀ token r content, s.remembered token = some r → r.content = some content →
    r.found = if proves env token content then "verified" else "absent"

end

section
variable {env : OwnerEnv} {domainId : String} {s : OwnerState}

theorem wellKnown_faithful (m : MapState) (domain : AssetRow) (token : String)
    (before : Option Remembered)
    (answer : FileAnswer) (hbefore : ∀ r content, before = some r → r.content = some content →
      r.found = if proves env token content then "verified" else "absent") :
    ∀ r content, (wellKnown env m domain token before answer).2 = some r → r.content = some content →
      r.found = if proves env token content then "verified" else "absent" := by
  unfold wellKnown
  split_ifs with habsent hsame hfailed
  · rintro r content hr hcontent
    obtain rfl := Option.some.inj hr
    cases hcontent
  · split <;> exact hbefore
  · exact hbefore
  · rcases answer.payload with _ | p
    · rintro r content hr hcontent
      obtain rfl := Option.some.inj hr
      obtain rfl := Option.some.inj hcontent
      rfl
    · simp only
      by_cases hmatch : tokenMatches env p.verification token = true
      · rw [if_pos hmatch]
        rintro r content hr hcontent
        obtain rfl := Option.some.inj hr
        obtain rfl := Option.some.inj hcontent
        exact (if_pos hmatch).symm
      · rw [if_neg hmatch]
        rintro r content hr hcontent
        obtain rfl := Option.some.inj hr
        obtain rfl := Option.some.inj hcontent
        exact (if_neg hmatch).symm

theorem OwnerState.Faithful.run (h : s.Faithful env) (e : OwnerEvent) :
    (e.run env domainId s).Faithful env := by
  rcases e with f | _ | ⟨other, answer⟩
  · exact h
  · exact h
  · show (ownerRun env domainId s other answer).2.Faithful env
    unfold ownerRun
    rcases checked env s domainId with result | ⟨domain, token⟩
    · exact h
    simp only
    split_ifs with hhome
    · exact h
    intro token' r content hr hcontent
    by_cases hsame : token' = token
    · subst hsame
      have hnew : (wellKnown env s.map domain token' (s.remembered token') answer).2 = some r :=
        (Function.update_self token' _ s.remembered).symm.trans hr
      exact wellKnown_faithful s.map domain token' _ answer (h token') r content hnew hcontent
    · have hold : s.remembered token' = some r :=
        (Function.update_of_ne hsame _ s.remembered).symm.trans hr
      exact h token' r content hold hcontent

/-- What a check that is answered with 304 can rely on. -/
structure Occasion.Valid (env : OwnerEnv) (domainId : String) (o : Occasion) : Prop where
  checked : checked env o.state domainId = .ok (o.domain, o.token)
  healthy : o.other.home ≠ some .unhealthy
  remembered : ∃ r, o.state.remembered o.token = some r ∧
    r.found = if proves env o.token o.content then "verified" else "absent"

theorem valid_of_mem (h : s.Faithful env) (events : List OwnerEvent) :
    ∀ o ∈ occasions env domainId s events, o.Valid env domainId := by
  induction events generalizing s with
  | nil =>
    intro o ho
    cases ho
  | cons e events ih =>
    intro o ho
    rcases List.mem_append.mp ho with hnow | hlater
    · have hsome : occasion env domainId s e = some o := Option.mem_toList.mp hnow
      rcases e with f | _ | ⟨other, answer⟩
      · cases hsome
      · cases hsome
      unfold occasion at hsome
      rcases hchecked : checked env s domainId with result | ⟨domain, token⟩
      · rw [hchecked] at hsome
        cases hsome
      rw [hchecked] at hsome
      simp only at hsome
      split_ifs at hsome with hasked
      obtain ⟨content, hcontent, rfl⟩ := Option.map_eq_some_iff.mp hsome
      obtain ⟨r, hr, hrc⟩ := Option.bind_eq_some_iff.mp hcontent
      exact ⟨hchecked, hasked.1, r, hr, h token r content hr hrc⟩
    · exact ih (h.run e) o hlater

/-- What a check says of the domain when it has read a list. -/
def verifiedWord (domain : AssetRow) (other : OtherProofs) : Observation :=
  domainWord domain .supports
    ("domain verified by " ++ String.intercalate ", " (proofNames other (some (.accounts []))))

/-- A check that has read a list says that the domain is verified, and then what the list says. -/
theorem conclude_words (m : MapState) (domain : AssetRow) (other : OtherProofs) (urls : List String) :
    let told := m.record env.toMapEnv (verifiedWord domain other)
    MapState.words m (conclude env m domain other (some (.accounts urls))).2 =
      (verifiedWord domain other).said (m.keyOf domain.assetId) ::
        MapState.words told (accounts env told domain urls).map := by
  intro told
  have hproofs : proofNames other (some (.accounts urls)) ≠ [] := by simp [proofNames]
  have htold : Grows m told := MapState.grows_record env.toAssetEnv m _
  have hlisted : Grows told (accounts env told domain urls).map :=
    (accounts_words env told domain urls).1
  have hrecorded : ∀ absent,
      recordProofs env m domain (proofNames other (some (.accounts urls))) absent =
      (told, []) := fun absent => if_pos hproofs
  have hdone : (conclude env m domain other (some (.accounts urls))).2 =
      (accounts env told domain urls).map.regrade env.toMapEnv
        (domain.assetId :: ([] ++ (accounts env told domain urls).named)) := by
    unfold conclude
    simp only
    rw [if_neg fun hfailed => hproofs hfailed.1, hrecorded]
  obtain ⟨hregrade, hnothing⟩ :=
    MapState.grows_regrade env.toAssetEnv (accounts env told domain urls).map
    (domain.assetId :: ([] ++ (accounts env told domain urls).named))
  rw [hdone, htold.words_trans (hlisted.trans hregrade), hlisted.words_trans hregrade, hnothing,
    List.append_nil, MapState.words_record]
  rfl

theorem claims_told {m : MapState} {domain : AssetRow} {other : OtherProofs} {urls : List String}
    {key : String} :
    Claims env (m.record env.toMapEnv (verifiedWord domain other)) domain urls key ↔
    Claims env m domain urls key := by
  have hmay : ∀ ref, mayClaim (m.record env.toMapEnv (verifiedWord domain other)) domain ref =
      mayClaim m domain ref := fun ref =>
    mayClaim_congr (MapState.grows_record env.toAssetEnv m _) rfl
  simp only [Claims, hmay]

theorem conclude_same_iff {m : MapState} {domain : AssetRow} {other : OtherProofs}
    {urls urls' : List String} :
    (∀ w, w ∈ MapState.words m (conclude env m domain other (some (.accounts urls))).2 ↔
        w ∈ MapState.words m (conclude env m domain other (some (.accounts urls'))).2) ↔
      ∀ key, Claims env m domain urls key ↔ Claims env m domain urls' key := by
  have hclaim : ∀ urls key, claimWord domain key ∈
      MapState.words m (conclude env m domain other (some (.accounts urls))).2 ↔
          Claims env m domain urls key := by
    intro urls key
    have hne : claimWord domain key ≠ (verifiedWord domain other).said (m.keyOf domain.assetId) :=
      fun heq =>
      absurd (congrArg Word.sourceAssetId heq) nofun
    rw [conclude_words, List.mem_cons, or_iff_right hne, claimWord_mem, claims_told]
  constructor
  · intro h key
    rw [← hclaim, h, hclaim]
  · intro h w
    have hsame := @accounts_same_iff env (m.record env.toMapEnv (verifiedWord domain other)) domain urls
      urls'
    simp only [claims_told] at hsame
    rw [conclude_words, conclude_words, List.mem_cons, List.mem_cons, hsame.mpr h]

theorem wellKnown_unchanged (m : MapState) (domain : AssetRow) (token : String) {r : Remembered}
    {content : Option OwnerPayload} (hfound : r.found = if proves env token content then "verified" else
        "absent") :
    (wellKnown env m domain token (some r) .unchanged).1 =
      if proves env token content then
        some (.accounts (listedBefore m domain.assetId (fileChannel domain.host)))
      else some .absent := by
  have hasked : ¬(FileAnswer.unchanged.onHost = false ∨ FileAnswer.unchanged.outcome ∈ fileAbsent) := by
    decide
  have hsame : FileAnswer.unchanged.outcome = "not_modified" := rfl
  rw [wellKnown, if_neg hasked, if_pos hsame, Option.map_some, hfound]
  by_cases hproves : proves env token content = true
  · rw [if_pos hproves, if_pos hproves]
    rfl
  · rw [if_neg hproves, if_neg hproves]
    rfl

theorem wellKnown_full (m : MapState) (domain : AssetRow) (token : String) (before : Option Remembered)
    (content : Option OwnerPayload) : (wellKnown env m domain token before (.full content)).1 =
      match content with
      | none => some .absent
      | some p =>
          if tokenMatches env p.verification token then some (.accounts p.listed) else some .absent := by
  have hasked : ¬((FileAnswer.full content).onHost = false ∨
    (FileAnswer.full content).outcome ∈ fileAbsent) :=
    show ¬(true = false ∨ "ok" ∈ fileAbsent) by decide
  have hnew : ¬(FileAnswer.full content).outcome = "not_modified" := show ¬"ok" = "not_modified" by
    decide
  have hok : ¬(FileAnswer.full content).outcome ≠ "ok" := fun hne => hne rfl
  rw [wellKnown, if_neg hasked, if_neg hnew, if_neg hok]
  rcases content with _ | p
  · rfl
  · show (if tokenMatches env p.verification token = true then _ else
      _ : Option Listed × Option Remembered).1 =
      if tokenMatches env p.verification token = true then _ else _
    split_ifs
    · rfl
    · rfl

theorem Occasion.Valid.readsTheSame_iff {o : Occasion} (h : o.Valid env domainId) :
    o.ReadsTheSame env domainId ↔ o.Remembers env := by
  obtain ⟨r, hr, hfound⟩ := h.remembered
  have hsaid : ∀ answer, o.said env domainId answer = MapState.words o.state.map
      (conclude env o.state.map o.domain o.other
        (wellKnown env o.state.map o.domain o.token (o.state.remembered o.token) answer).1).2 := by
    intro answer
    unfold said ownerRun
    rw [h.checked]
    simp only
    rw [if_neg h.healthy]
  rw [ReadsTheSame, Remembers, hsaid, hsaid, hr, wellKnown_unchanged _ _ _ hfound, wellKnown_full]
  rcases o.content with _ | p
  · exact iff_of_true (fun w => Iff.rfl) nofun
  simp only [Option.some.injEq, forall_eq']
  by_cases hmatch : tokenMatches env p.verification o.token = true
  · have hproves : proves env o.token (some p) = true := hmatch
    rw [if_pos hproves, if_pos hmatch, conclude_same_iff]
    exact ⟨fun hsame _ => hsame, fun hsame => hsame hmatch⟩
  · have hproves : ¬proves env o.token (some p) = true := hmatch
    rw [if_neg hproves, if_neg hmatch]
    exact iff_of_true (fun w => Iff.rfl) fun hyes => absurd hyes hmatch

/-- **An unchanged file reads the same** over every history, at each check that is answered with 304, iff
the accounts that may be claimed then are the same ones in the file and in the owner's latest words. -/
theorem unchanged_file_iff (env : OwnerEnv) (domainId : String) (map : MapState) (epoch : Nat)
    (events : List OwnerEvent) :
    (∀ o ∈ occasions env domainId ⟨map, epoch, fun _ => none⟩ events, o.ReadsTheSame env domainId) ↔
      ∀ o ∈ occasions env domainId ⟨map, epoch, fun _ => none⟩ events, o.Remembers env := by
  have hstart : (⟨map, epoch, fun _ => none⟩ : OwnerState).Faithful env := fun _ _ _ hr =>
    absurd hr nofun
  have hvalid := @valid_of_mem env domainId _ hstart events
  exact forall₂_congr fun o ho => (hvalid o ho).readsTheSame_iff

end

/-! ## Files that do not -/

/-- Keys are URLs, a token is its host and a letter for each time the domain was lost. -/
def ownerSample : OwnerEnv where
  parse := fun _ => some 0
  now := 0
  stamp := fun rows => String.ofList (List.replicate (rows.length + 1) 'a')
  newId := fun rows => String.ofList (List.replicate (rows.length + 1) 'e')
  withoutNames := id
  round4 := id
  percent := fun _ => ""
  assetRef := fun url => some ⟨"x", "account", url, url, ""⟩
  newAssetId := longerId
  fresh := longerId_fresh
  unseen := longerId_unseen
  token := fun _ generation host => host ++ String.ofList (List.replicate generation 'g')
  strip := id

def siteRow (assetId key kind : String) (entityId : Option String) : AssetRow :=
  ⟨assetId, key, entityId, "x", kind, "unknown", .unknown, none, none, .unrated, [], none, none, none,
      none, none⟩

/-- A college with its site, and an account placed with a unit that is not known to be the college's. -/
def ownerMap : MapState where
  store := {
    assets := [siteRow "d" "web:h" "domain" (some "college"), siteRow "a" "k" "account" (some "unit")]
    evidence := [⟨"e0", "d", .configuredDomain, .supports, "", none, "", "", .owner, "a"⟩]
    gold := []
    lookalikes := []
    ids := by decide
    keys := by decide }
  texts := fun _ => ⟨"k", "k"⟩
  entities := [⟨"college", .institution, "college", [], [], ⟨none, ""⟩⟩,
      ⟨"unit", .unit, "unit", [], [], ⟨none, ""⟩⟩]
  suppressed := fun _ => false

/-- The homepage has no token, and the names are not asked. -/
def noOtherProof : OtherProofs := ⟨some .none, "ok", "unchecked", false⟩

def adoptUnit (m : MapState) : MapState :=
  { m with entities := m.entities.map fun e => { e with link := ⟨if e.entityId = "unit" then some "college" else none, ""⟩ } }

def moveAccount (m : MapState) : MapState :=
  { m with store := m.store.update "a" (fun r => { r with entityId := some "college" }) fun _ => ⟨rfl, rfl⟩ }

/-- The domain is lost: what its file lists is withdrawn, and its token is void. -/
def loseDomain (m : MapState) : MapState :=
  (withdrawOwnerListing ownerSample.toMapEnv m "d" "the listing domain no longer vouches (dead)"
      [] .live "").2.record
    ownerSample.toMapEnv ⟨"d", .other "owner_token_void", .refutes, "", none, "dead", "owner:h", .live⟩

/-- A file that lists the account is read before the unit is the college's, and is then unchanged. -/
def listedEarly : List OwnerEvent :=
  [.check noOtherProof (.full (some ⟨some "h", some [some "k"]⟩)), .change adoptUnit,
      .check noOtherProof .unchanged]

/-- The file lists the account, the domain is lost and comes back with a file that does not. -/
def listedOnce : List OwnerEvent :=
  [.change moveAccount, .check noOtherProof (.full (some ⟨some "h", some [some "k"]⟩)),
    .change loseDomain,
    .check noOtherProof (.full (some ⟨some "hg", some []⟩)), .check noOtherProof .unchanged]

/-- Whether the account is claimed at each 304 of a history, and by a reading of the same file. -/
def claimedAt (events : List OwnerEvent) : List (Bool × Bool) :=
  let claim := claimWord (siteRow "d" "web:h" "domain" (some "college")) "k"
  (occasions ownerSample "d" ⟨ownerMap, 0, fun _ => none⟩ events).map fun o =>
    (decide (claim ∈ o.said ownerSample "d" .unchanged),
        decide (claim ∈ o.said ownerSample "d" (.full o.content)))

theorem same_of_readsTheSame {events : List OwnerEvent}
    (h : ∀ o ∈ occasions ownerSample "d" ⟨ownerMap, 0, fun _ => none⟩ events,
        o.ReadsTheSame ownerSample "d") :
    ∀ pair ∈ claimedAt events, pair.1 = pair.2 := by
  intro pair hpair
  obtain ⟨o, ho, rfl⟩ := List.mem_map.mp hpair
  exact decide_eq_decide.mpr (h o ho _)

/-- An account that could not be claimed when the file was read is not claimed after a 304, and one that
an earlier file listed is claimed again. -/
theorem unchanged_file_drifts :
    ¬(∀ o ∈ occasions ownerSample "d" ⟨ownerMap, 0, fun _ => none⟩ listedEarly,
    o.ReadsTheSame ownerSample "d") ∧
    ¬(∀ o ∈ occasions ownerSample "d" ⟨ownerMap, 0, fun _ => none⟩ listedOnce,
    o.ReadsTheSame ownerSample "d") := by
  have hearly : claimedAt listedEarly = [(false, true)] := by decide +kernel
  have honce : claimedAt listedOnce = [(true, false)] := by decide +kernel
  refine ⟨fun h => ?_, fun h => ?_⟩
  · have hsame := same_of_readsTheSame h (false, true) (by rw [hearly]; exact List.mem_cons_self)
    cases hsame
  · have hsame := same_of_readsTheSame h (true, false) (by rw [honce]; exact List.mem_cons_self)
    cases hsame

end GuruJi.Map
