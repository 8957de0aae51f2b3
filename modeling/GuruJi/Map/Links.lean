import GuruJi.Lib.Fold
import GuruJi.Map.Held
import GuruJi.Map.Placement

/-!
# The links of a site

An official site vouches for the accounts that its pages link, for those of its own entity and of its
units only. Its links are read in three ways: from the pages themselves, from the log when the homepage
is answered with 304, and from an archived copy.

* `readLink_own`: reading a page never vouches for what is another's;
* **`vouches_own_iff`**: a reading vouches only for what is the site's own, iff what its path does not
  check holds: of a page nothing, of a 304 that no account it repeats is named after another entity, of
  an archived copy that no account it links is another's;
* `vouches_for_others`: an archived link to an account of another entity, and a repeated row.
-/

namespace GuruJi.Map

open GuruJi.Lib

/-- Where a link stands on a page. -/
inductive LinkPlace where
  | header | nav | footer | body | aside | hidden | head
  deriving DecidableEq

structure PageLink where
  href : String
  text : String
  place : LinkPlace
  deriving DecidableEq

/-- What the readers of links use of a parsed page. -/
structure PageStructure where
  url : String
  links : List PageLink
  sameAs : List String
  deriving DecidableEq

/-- How a page declares an account. -/
inductive LinkPosition where
  | header | nav | footer | relMe | contactPage | sameAs
  deriving DecidableEq

def LinkPosition.text : LinkPosition → String
  | .header => "header"
  | .nav => "nav"
  | .footer => "footer"
  | .relMe => "rel_me"
  | .contactPage => "contact_page"
  | .sameAs => "same_as"

/-- A link that declares identity. -/
structure IdentityLink where
  href : String
  position : LinkPosition
  text : String
  deriving DecidableEq

/-- What reading links takes from outside: which URLs are contact pages, and whether a handle or a text
names an entity. -/
structure LinkEnv extends AssetEnv where
  isContactPage : String → Bool
  namesEntity : MapEntity → String → String → Bool

/-! ## The links that declare identity -/

/-- The position of a visible link; the body counts on a contact page only. -/
def LinkPlace.position (contactPage : Bool) : LinkPlace → Option LinkPosition
  | .header => some .header
  | .nav => some .nav
  | .footer => some .footer
  | .head => some .relMe
  | .body => if contactPage then some .contactPage else none
  | .aside | .hidden => none

/-- `out.setdefault`: the first text of a link in a position stays. -/
def declareLink (out : List IdentityLink) (link : IdentityLink) : List IdentityLink :=
  if out.any fun known => known.href = link.href && known.position = link.position then out else out ++
    [link]

/-- `_identity_links`. -/
def identityLinks (env : LinkEnv) (page : PageStructure) (pageUrl : String) : List IdentityLink :=
  let visible := page.links.filterMap fun link =>
    (link.place.position (env.isContactPage pageUrl)).map fun position =>
      IdentityLink.mk link.href position link.text
  (visible ++ page.sameAs.map fun href => IdentityLink.mk href .sameAs "").foldl declareLink []

/-- `person_shaped`. -/
def personShaped (key : String) : Bool :=
  (["linkedin:in:", "reddit:u:", "whatsapp:"].any fun start => startsWith start key) &&
    !startsWith "whatsapp:group:" key

/-- `vouchable`. -/
def vouchable (env : LinkEnv) (entity : Option MapEntity) (ref : AssetRef) (position : LinkPosition)
    (text : String) : Bool :=
  if startsWith "whatsapp:" ref.key && !startsWith "whatsapp:group:" ref.key then false
  else if position = .contactPage || personShaped ref.key then
    entity.any fun e => env.namesEntity e ref.handle text
  else true

/-- The account of a link, if the link may vouch for it. -/
def accountOf (env : LinkEnv) (m : MapState) (entity : Option MapEntity) (link : IdentityLink) :
    Option AssetRef :=
  match env.assetRef link.href with
  | none => none
  | some ref =>
    if ref.platform = "website" then none
    else if ref.isAccount = false ∨ m.suppressed ref.key = true ∨
        vouchable env entity ref link.position link.text = false then none
    else some ref

/-! ## What a site may speak for -/

/-- `_Scope`. -/
structure Scope where
  home : Option MapEntity
  entities : List MapEntity
  foreign : List MapEntity

namespace Scope

/-- `entities.get`. -/
def lookup (entities : List MapEntity) (entityId : String) : Option MapEntity :=
  entities.find? (·.entityId = entityId)

/-- The links `authorities` and `within` follow. -/
def links (entities : List MapEntity) (entityId : String) : Option EntityLink :=
  (lookup entities entityId).map (·.link)

def sameChain (a b : List String) : Bool := a.all b.contains && b.all a.contains

/-- `load`. -/
def load (m : MapState) (homeId : Option String) : Scope :=
  let entities := m.entities.take 5000
  let homeChain := authorities (links entities) homeId
  ⟨(truthy homeId).bind (lookup entities), entities, entities.filter fun entity =>
    !within (links entities) (some entity.entityId) homeId &&
      !sameChain (authorities (links entities) (some entity.entityId)) homeChain⟩

/-- `foreign.get`. -/
def foreignEntity (scope : Scope) (entityId : Option String) : Option MapEntity :=
  entityId.bind (lookup scope.foreign)

/-- The other entity that a handle or a text names, unless it names the site's own. -/
def namedOther (env : LinkEnv) (scope : Scope) (handle text : String) : Option MapEntity :=
  if scope.home.any fun e => env.namesEntity e handle text then none
  else scope.foreign.find? fun e => env.namesEntity e handle text

/-- `owner`. -/
def owner (env : LinkEnv) (scope : Scope) (existing : Option AssetRow) (ref : AssetRef) (text : String) :
    Option MapEntity :=
  match scope.foreignEntity (existing.bind (·.entityId)) with
  | some entity => some entity
  | none => scope.namedOther env ref.handle text

end Scope

def MapState.entityOf (m : MapState) (domain : AssetRow) : Option MapEntity :=
  (truthy domain.entityId).bind m.getEntity

/-! ## Reading a page -/

/-- What a reading has found so far. -/
structure LinkReading where
  map : MapState
  seen : List (String × String)
  accounts : List String
  held : List String
  newAssets : List String
  touched : List String

/-- A site whose links are read, and what they are worth. -/
structure SiteReading where
  domain : AssetRow
  entity : Option MapEntity
  scope : Scope
  anchor : Grade
  inferred : Bool

def LinkReading.start (m : MapState) : LinkReading := ⟨m, [], [], [], [], []⟩

def SiteReading.load (m : MapState) (domain : AssetRow) (anchor : Grade) (inferred : Bool) :
    SiteReading :=
  ⟨domain, m.entityOf domain, Scope.load m domain.entityId, anchor, inferred⟩

def addNew (items : List String) (item : String) : List String := if item ∈ items then items else
    items ++ [item]

section
variable (env : LinkEnv)

def held (domain : AssetRow) (pageUrl : String) (position : LinkPosition) (other : MapEntity)
    (assetId : String) : Observation :=
  ⟨assetId, .hubLink, .supports, pageUrl, some domain.assetId,
    upTo 200 ("C:" ++ position.text ++ ":" ++ other.name), "", .live⟩

/-- `_hold`. -/
def hold (site : SiteReading) (s : LinkReading) (pageUrl : String) (ref : AssetRef)
    (position : LinkPosition)
    (other : MapEntity) : LinkReading :=
  let entityId := if other.kind = .lookalike then none else some other.entityId
  let asset := s.map.upsertAsset env.toAssetEnv ref entityId "unknown"
  { s with
    map := asset.2.record env.toMapEnv (held site.domain pageUrl position other asset.1.1)
    held := addNew s.held ref.key
    newAssets := if asset.1.2 then s.newAssets ++ [ref.key] else s.newAssets
    touched := s.touched ++ [asset.1.1] }

def vouching (site : SiteReading) (pageUrl : String) (position : LinkPosition) (assetId : String) :
    Observation :=
  ⟨assetId, if site.inferred then .hubLink else .officialLink, .supports, pageUrl,
    some site.domain.assetId,
    site.anchor.text ++ ":" ++ position.text, "site:" ++ site.domain.host, .live⟩

/-- A link of a page, from a link that is the site's own. -/
def vouch (site : SiteReading) (s : LinkReading) (pageUrl : String) (ref : AssetRef)
    (position : LinkPosition) : LinkReading :=
  let relation := if site.inferred then "unknown" else "official"
  let asset := s.map.upsertAsset env.toAssetEnv ref site.domain.entityId relation
  { s with
    map := asset.2.record env.toMapEnv (vouching site pageUrl position asset.1.1)
    seen := s.seen ++ [(pageUrl, ref.key)]
    accounts := addNew s.accounts ref.key
    newAssets := if asset.1.2 then s.newAssets ++ [ref.key] else s.newAssets
    touched := s.touched ++ [asset.1.1] }

def readLink (site : SiteReading) (s : LinkReading) (item : String × IdentityLink) : LinkReading :=
  match accountOf env s.map site.entity item.2 with
  | none => s
  | some ref =>
    match site.scope.owner env (s.map.store.findAsset ref.key) ref item.2.text with
    | some other => hold env site s item.1 ref item.2.position other
    | none => vouch env site s item.1 ref item.2.position

/-! ## Repeating what a page said -/

/-- The official links of a page, the latest of each account. -/
def latestLinks (m : MapState) (domainId pageUrl : String) : List Evidence :=
  latestBy (·.assetId) ((m.store.linksFrom domainId .officialLink).filter (·.sourceUrl = pageUrl))

def again (domain : AssetRow) (pageUrl : String) (row : Evidence) : Observation :=
  ⟨row.assetId, .officialLink, .supports, pageUrl, some domain.assetId, row.detail, row.channel, .live⟩

/-- Whether an account is placed with an entity that the site does not speak for. -/
def placedElsewhere (m : MapState) (scope : Scope) (row : Evidence) : Bool :=
  (scope.foreignEntity ((m.store.getAsset row.assetId).bind (·.entityId))).isSome

def repeated (m : MapState) (domain : AssetRow) (pageUrl : String) : List Evidence :=
  let scope := Scope.load m domain.entityId
  (latestLinks m domain.assetId pageUrl).filter fun row => row.supports && !placedElsewhere m scope row

def repeatRow (domain : AssetRow) (pageUrl : String) (s : LinkReading) (row : Evidence) : LinkReading :=
  { s with
    map := s.map.record env.toMapEnv (again domain pageUrl row)
    touched := s.touched ++ [row.assetId] }

/-- `_reconfirm`. -/
def reconfirm (m : MapState) (domain : AssetRow) (pageUrl : String) : LinkReading :=
  (repeated m domain pageUrl).foldl (repeatRow env domain pageUrl) (.start m)

/-! ## Reading an archived copy -/

def archivedLink (m : MapState) (domain : AssetRow) (anchor : Grade) (snapshot : String)
    (position : LinkPosition)
    (assetId : String) : Observation :=
  ⟨assetId, .officialLink, .supports, snapshot, some domain.assetId, anchor.text ++ ":" ++ position.text,
    "archive:" ++ (m.texts domain.assetId).handle, .archive⟩

/-- One link of an archived page, in `WaybackConnector._links`. -/
def readArchived (domain : AssetRow) (entity : Option MapEntity) (anchor : Grade) (snapshot : String)
    (s : LinkReading) (link : IdentityLink) : LinkReading :=
  match accountOf env s.map entity link with
  | none => s
  | some ref =>
    let asset := s.map.upsertAsset env.toAssetEnv ref domain.entityId "official"
    { s with
      map := asset.2.record env.toMapEnv
          (archivedLink s.map domain anchor snapshot link.position asset.1.1)
      newAssets := if asset.1.2 then s.newAssets ++ [ref.key] else s.newAssets
      touched := s.touched ++ [asset.1.1] }

end

/-! ## The three ways -/

/-- A way the links of a site are read: the links of pages read in full, each with its page's URL; the
rows of a page that is answered with 304, with the account and the text of the link each of them was read
from; the links of an archived copy. -/
inductive LinkPath where
  | full (anchor : Grade) (inferred : Bool) (items : List (String × IdentityLink))
  | unchanged (pageUrl : String) (readFrom : Evidence → AssetRef × String)
  | archived (anchor : Grade) (snapshot : String) (links : List IdentityLink)

/-- A turn of a reading: the maps before and after it, and what its link shows of an account. -/
structure Turn where
  before : MapState
  after : MapState
  shown : Option (AssetRef × String)

def shownBy (env : LinkEnv) (link : IdentityLink) : Option (AssetRef × String) :=
  (env.assetRef link.href).map fun ref => (ref, link.text)

section
variable (env : LinkEnv) (m : MapState) (domain : AssetRow)

namespace LinkPath

def result : LinkPath → MapState
  | full anchor inferred items =>
    (items.foldl (readLink env (.load m domain anchor inferred)) (.start m)).map
  | unchanged pageUrl _ => (reconfirm env m domain pageUrl).map
  | archived anchor snapshot links =>
    (links.foldl (readArchived env domain (m.entityOf domain) anchor snapshot) (.start m)).map

def turns : LinkPath → List Turn
  | full anchor inferred items =>
    (Lib.turns (readLink env (.load m domain anchor inferred)) (.start m) items).map fun t =>
      ⟨t.1.map, (readLink env (.load m domain anchor inferred) t.1 t.2).map, shownBy env t.2.2⟩
  | unchanged pageUrl readFrom =>
    (Lib.turns (repeatRow env domain pageUrl) (.start m) (repeated m domain pageUrl)).map fun t =>
      ⟨t.1.map, (repeatRow env domain pageUrl t.1 t.2).map, some (readFrom t.2)⟩
  | archived anchor snapshot links =>
    (Lib.turns (readArchived env domain (m.entityOf domain) anchor snapshot) (.start m) links).map
        fun t =>
      ⟨t.1.map, (readArchived env domain (m.entityOf domain) anchor snapshot t.1 t.2).map,
          shownBy env t.2⟩

/-- Every official link that is recorded is to an account that is the site's own: it is not placed with
another authority's entity, and what its link shows names no other. -/
def VouchesOwn (path : LinkPath) : Prop :=
  ∀ t ∈ path.turns env m domain, ∀ row ∈ MapState.added t.before t.after,
    row.kind = .officialLink → row.supports = true → ∃ shown, t.shown = some shown ∧
      (Scope.load m domain.entityId).owner env (t.before.store.getAsset row.assetId) shown.1 shown.2 =
      none

def InScope : LinkPath → Prop
  | full _ _ _ => True
  | unchanged pageUrl readFrom => ∀ row ∈ repeated m domain pageUrl,
      (Scope.load m domain.entityId).namedOther env (readFrom row).1.handle (readFrom row).2 = none
  | archived _ _ links => ∀ link ∈ links, ∀ ref, accountOf env m (m.entityOf domain) link = some ref →
      (Scope.load m domain.entityId).owner env (m.store.findAsset ref.key) ref link.text = none

end LinkPath

end

section
variable {env : LinkEnv} {m : MapState} {domain : AssetRow}

theorem shown_of_accountOf {entity : Option MapEntity} {link : IdentityLink} {ref : AssetRef}
    (h : accountOf env m entity link = some ref) : shownBy env link = some (ref, link.text) := by
  unfold accountOf at h
  rw [shownBy]
  rcases hlink : env.assetRef link.href with _ | found
  · rw [hlink] at h
    cases h
  · rw [hlink] at h
    simp only at h
    split_ifs at h
    rw [Option.some.inj h]
    rfl

/-- What one reading of a link adds: nothing, a row that holds it back, or one that vouches for an
account which is the site's own. -/
theorem added_readLink (site : SiteReading) (s : LinkReading) (item : String × IdentityLink)
    {row : Evidence}
    (h : row ∈ MapState.added s.map (readLink env site s item).map) (hkind : row.kind = .officialLink) :
    ∃ ref, accountOf env s.map site.entity item.2 = some ref ∧
      s.map.store.getAsset row.assetId = s.map.store.findAsset ref.key ∧
      site.scope.owner env (s.map.store.findAsset ref.key) ref item.2.text = none := by
  unfold readLink at h
  rcases haccount : accountOf env s.map site.entity item.2 with _ | ref
  · rw [haccount] at h
    have hnone : MapState.added s.map s.map = [] := List.drop_length
    rw [hnone] at h
    cases h
  rw [haccount] at h
  simp only at h
  rcases howner : site.scope.owner env (s.map.store.findAsset ref.key) ref item.2.text with _ | other
  · rw [howner] at h
    have hrow := List.mem_singleton.mp (MapState.added_upsert_record env.toAssetEnv s.map ref _ _ _ ▸ h)
    refine ⟨ref, rfl, ?_, howner⟩
    rw [hrow]
    exact MapStore.getAsset_upsertAsset env.toAssetEnv s.map.store ref _ _
  · rw [howner] at h
    have hrow := List.mem_singleton.mp (MapState.added_upsert_record env.toAssetEnv s.map ref _ _ _ ▸ h)
    rw [hrow] at hkind
    cases hkind

/-- **Reading a page** vouches only for what is the site's own. -/
theorem readLink_own (anchor : Grade) (inferred : Bool) (items : List (String × IdentityLink)) :
    (LinkPath.full anchor inferred items).VouchesOwn env m domain := by
  intro t ht row hrow hkind _
  obtain ⟨turn, -, rfl⟩ := List.mem_map.mp ht
  obtain ⟨ref, haccount, hasset, howner⟩ :=
    added_readLink (.load m domain anchor inferred) turn.1 turn.2 hrow hkind
  refine ⟨_, shown_of_accountOf haccount, ?_⟩
  rw [hasset]
  exact howner

/-! ## An account in its scope -/

theorem accountOf_congr {m' : MapState} (h : m'.suppressed = m.suppressed) (entity : Option MapEntity)
    (link : IdentityLink) : accountOf env m' entity link = accountOf env m entity link := by
  unfold accountOf
  rw [h]

namespace Scope

theorem owner_eq_none {scope : Scope} {existing : Option AssetRow} {ref : AssetRef} {text : String} :
    scope.owner env existing ref text = none ↔
      scope.foreignEntity (existing.bind (·.entityId)) = none ∧ scope.namedOther env ref.handle text =
      none := by
  unfold owner
  rcases scope.foreignEntity (existing.bind (·.entityId)) with _ | entity
  · exact ⟨fun h => ⟨rfl, h⟩, And.right⟩
  · exact ⟨nofun, fun h => absurd h.1 nofun⟩

theorem foreignEntity_home (m : MapState) (homeId : Option String) :
    (load m homeId).foreignEntity homeId = none := by
  rcases homeId with _ | id
  · rfl
  refine List.find?_eq_none.mpr fun entity hentity hid => ?_
  have hsame : entity.entityId = id := of_decide_eq_true hid
  have hkept := (List.mem_filter.mp hentity).2
  rw [hsame] at hkept
  have hrefl : ∀ chain : List String, sameChain chain chain = true := by
    intro chain
    rw [sameChain, Bool.and_self]
    exact List.all_eq_true.mpr fun id hmem => List.contains_iff_mem.mpr hmem
  rw [hrefl, Bool.not_true, Bool.and_false] at hkept
  cases hkept

end Scope

/-! ## Repeated rows -/

theorem assets_foldl_repeatRow (pageUrl : String) (rows : List Evidence) (s : LinkReading) :
    (rows.foldl (repeatRow env domain pageUrl) s).map.store.assets = s.map.store.assets :=
  foldl_keeps (P := fun s' : LinkReading => s'.map.store.assets = s.map.store.assets)
      (fun _ _ _ h => h) rfl

/-- **A 304** vouches only for what is the site's own, iff no row it repeats is named after another. -/
theorem repeated_own_iff (pageUrl : String) (readFrom : Evidence → AssetRef × String) :
    (LinkPath.unchanged pageUrl readFrom).VouchesOwn env m domain ↔
      (LinkPath.unchanged pageUrl readFrom).InScope env m domain := by
  have hadded : ∀ s row, MapState.added (s : LinkReading).map (repeatRow env domain pageUrl s row).map =
      [env.toMapEnv.row s.map.store.evidence (again domain pageUrl row)] := fun s row =>
    MapState.added_record env.toAssetEnv s.map (again domain pageUrl row)
  constructor
  · intro hown row hrow
    obtain ⟨before, after, hsplit⟩ := List.append_of_mem hrow
    have hturn := mem_turns (f := repeatRow env domain pageUrl) (s := LinkReading.start m)
      (t := (before.foldl (repeatRow env domain pageUrl) (.start m), row)) |>.mpr
          ⟨before, after, hsplit, rfl⟩
    obtain ⟨shown, hshown, howner⟩ := hown _ (List.mem_map_of_mem hturn) _
      (by rw [hadded]; exact List.mem_singleton.mpr rfl) rfl rfl
    cases hshown
    exact (Scope.owner_eq_none.mp howner).2
  · intro hscope t ht added hmem _ _
    obtain ⟨turn, hturn, rfl⟩ := List.mem_map.mp ht
    obtain ⟨before, after, hsplit, hs⟩ := mem_turns.mp hturn
    rw [hadded] at hmem
    rw [List.mem_singleton.mp hmem]
    have hrow : turn.2 ∈ repeated m domain pageUrl := by
      rw [hsplit]
      exact List.mem_append_right _ List.mem_cons_self
    refine ⟨_, rfl, Scope.owner_eq_none.mpr ⟨?_, hscope _ hrow⟩⟩
    have hassets : turn.1.map.store.assets = m.store.assets := by
      rw [hs]
      exact assets_foldl_repeatRow pageUrl before (.start m)
    have hget : turn.1.map.store.getAsset turn.2.assetId = m.store.getAsset turn.2.assetId := by
      rw [MapStore.getAsset, MapStore.getAsset, hassets]
    have hplaced := (List.mem_filter.mp hrow).2
    rw [Bool.and_eq_true, Bool.not_eq_true', placedElsewhere, Option.isSome_eq_false_iff,
      Option.isNone_iff_eq_none] at hplaced
    refine (congrArg (fun asset => Scope.foreignEntity _ (Option.bind asset _)) hget).trans hplaced.2

/-! ## Archived links -/

theorem foreignEntity_readArchived {scope : Scope} (hhome : scope.foreignEntity domain.entityId = none)
    (entity : Option MapEntity) (anchor : Grade) (snapshot : String) (s : LinkReading)
        (link : IdentityLink)
    (key : String) :
    scope.foreignEntity ((readArchived env domain entity anchor snapshot s link).map.store.placement
      key) = scope.foreignEntity (s.map.store.placement key) := by
  unfold readArchived
  rcases accountOf env s.map entity link with _ | ref
  · rfl
  have hplacement := MapStore.placement_upsertAsset env.toAssetEnv s.map.store ref domain.entityId
    "official" key
  refine (congrArg scope.foreignEntity hplacement).trans ?_
  split_ifs
  · rcases s.map.store.placement key with _ | id
    · exact hhome
    · rfl
  · rfl

variable (env m domain) in
/-- What the map has of each account, and what it has suppressed, when archived links have been read. -/
theorem foldl_readArchived (entity : Option MapEntity) (anchor : Grade) (snapshot : String)
    (links : List IdentityLink) :
    (links.foldl (readArchived env domain entity anchor snapshot) (.start m)).map.suppressed =
      m.suppressed ∧ ∀ key, (Scope.load m domain.entityId).foreignEntity
          ((links.foldl (readArchived env domain entity anchor snapshot) (.start m)).map.store.placement
              key) =
        (Scope.load m domain.entityId).foreignEntity (m.store.placement key) := by
  have hhome := Scope.foreignEntity_home m domain.entityId
  refine foldl_keeps (P := fun s : LinkReading => s.map.suppressed = m.suppressed ∧
    ∀ key, (Scope.load m domain.entityId).foreignEntity (s.map.store.placement key) =
      (Scope.load m domain.entityId).foreignEntity (m.store.placement key)) ?_ ⟨rfl, fun _ => rfl⟩
  rintro link - s ⟨hsuppressed, hplaced⟩
  refine ⟨?_, fun key => (foreignEntity_readArchived hhome entity anchor snapshot s link key).trans
    (hplaced key)⟩
  unfold readArchived
  rcases accountOf env s.map entity link with _ | ref
  · exact hsuppressed
  · exact hsuppressed

variable (env domain) in
theorem added_readArchived (entity : Option MapEntity) (anchor : Grade) (snapshot : String)
    (s : LinkReading)
    (link : IdentityLink) :
    (accountOf env s.map entity link = none ∧
        MapState.added s.map (readArchived env domain entity anchor snapshot s link).map = []) ∨
      ∃ ref row, accountOf env s.map entity link = some ref ∧
        MapState.added s.map (readArchived env domain entity anchor snapshot s link).map = [row] ∧
        row.kind = .officialLink ∧ row.supports = true ∧
        s.map.store.getAsset row.assetId = s.map.store.findAsset ref.key := by
  unfold readArchived
  rcases haccount : accountOf env s.map entity link with _ | ref
  · exact .inl ⟨rfl, List.drop_length⟩
  · right
    refine ⟨ref, _, rfl, MapState.added_upsert_record env.toAssetEnv s.map ref _ _ _, rfl, rfl, ?_⟩
    exact MapStore.getAsset_upsertAsset env.toAssetEnv s.map.store ref _ _

/-- **An archived copy** vouches only for what is the site's own, iff no account it links is
another's. -/
theorem archived_own_iff (anchor : Grade) (snapshot : String) (links : List IdentityLink) :
    (LinkPath.archived anchor snapshot links).VouchesOwn env m domain ↔
      (LinkPath.archived anchor snapshot links).InScope env m domain := by
  -- a turn meets the accounts where the map had them, or with the site's own entity
  have howner : ∀ before : List IdentityLink, ∀ ref text,
      (Scope.load m domain.entityId).owner env
          ((before.foldl (readArchived env domain (m.entityOf domain) anchor
          snapshot) (.start m)).map.store.findAsset ref.key) ref text = none ↔
        (Scope.load m domain.entityId).owner env (m.store.findAsset ref.key) ref text = none := by
    intro before ref text
    have hplaced := (foldl_readArchived env m domain (m.entityOf domain) anchor snapshot before).2
      ref.key
    rw [Scope.owner_eq_none, Scope.owner_eq_none]
    exact and_congr_left' (iff_of_eq (congrArg (· = none) hplaced))
  have haccount : ∀ before : List IdentityLink, ∀ link,
      accountOf env (before.foldl (readArchived env domain (m.entityOf domain) anchor snapshot)
      (.start m)).map
        (m.entityOf domain) link = accountOf env m (m.entityOf domain) link := fun before =>
    accountOf_congr (foldl_readArchived env m domain (m.entityOf domain) anchor snapshot before).1
        (m.entityOf domain)
  constructor
  · intro hown link hlink ref href
    obtain ⟨before, after, hsplit⟩ := List.append_of_mem hlink
    have hturn := (mem_turns (f := readArchived env domain (m.entityOf domain) anchor snapshot)
      (s := LinkReading.start m) (t := (_, link))).mpr ⟨before, after, hsplit, rfl⟩
    rcases added_readArchived env domain (m.entityOf domain) anchor snapshot _ link with
      ⟨hnone, -⟩ | ⟨ref', row, hsome, hadded, hkind, hsupports, hasset⟩
    · rw [haccount before, href] at hnone
      cases hnone
    obtain ⟨shown, hshown, hown⟩ := hown _ (List.mem_map_of_mem hturn) row
      (hadded ▸ List.mem_singleton.mpr rfl) hkind hsupports
    rw [haccount before, href] at hsome
    obtain rfl := Option.some.inj hsome
    have hlinked : shownBy env link = some shown := hshown
    rw [shown_of_accountOf href] at hlinked
    obtain rfl := Option.some.inj hlinked
    rw [← howner before]
    exact hasset ▸ hown
  · intro hscope t ht row hrow _ _
    obtain ⟨⟨s, link⟩, hturn, rfl⟩ := List.mem_map.mp ht
    obtain ⟨before, after, hsplit, rfl⟩ := mem_turns.mp hturn
    rcases added_readArchived env domain (m.entityOf domain) anchor snapshot _ link with
      ⟨-, hnil⟩ | ⟨ref, row', hsome, hadded, -, -, hasset⟩
    · rw [hnil] at hrow
      cases hrow
    rw [hadded] at hrow
    obtain rfl := List.mem_singleton.mp hrow
    rw [haccount before] at hsome
    refine ⟨_, shown_of_accountOf hsome, ?_⟩
    have hlink : link ∈ links := hsplit ▸ List.mem_append_right _ List.mem_cons_self
    rw [hasset, howner before]
    exact hscope link hlink ref hsome

/-! ## Every path -/

/-- **A site vouches only for its own entity**, on a path, iff what that path does not check holds. -/
theorem vouches_own_iff (env : LinkEnv) (m : MapState) (domain : AssetRow) (path : LinkPath) :
    path.VouchesOwn env m domain ↔ path.InScope env m domain := by
  cases path with
  | full anchor inferred items => exact iff_of_true (readLink_own anchor inferred items) trivial
  | unchanged pageUrl readFrom => exact repeated_own_iff pageUrl readFrom
  | archived anchor snapshot links => exact archived_own_iff anchor snapshot links

end

/-! ## Links of another's account -/

/-- Keys are URLs, and a text names the entity of that name. -/
def linkSample : LinkEnv where
  toMapEnv := stillClock
  assetRef := fun url => some ⟨"x", "account", url, url, ""⟩
  newAssetId := longerId
  fresh := longerId_fresh
  unseen := longerId_unseen
  isContactPage := fun _ => false
  namesEntity := fun entity _ text => text = entity.name

def linkedRow (assetId key kind : String) (entityId : Option String) : AssetRow :=
  ⟨assetId, key, entityId, "x", kind, "unknown", .unknown, none, none, .unrated, [], none, none, none,
      none, none⟩

def collegeSite : AssetRow := linkedRow "d" "web:h" "domain" (some "college")

def linkedOnce : Evidence :=
  ⟨"e0", "b", .officialLink, .supports, "https://h/", some "d", "A:footer", "site:h", .live, "a"⟩

/-- Another college has an account, and the site once linked an account of no one. -/
def linkedMap : MapState where
  store := {
    assets := [collegeSite, linkedRow "a" "k" "account" (some "other"), linkedRow "b" "l" "account" none]
    evidence := [linkedOnce]
    gold := []
    lookalikes := []
    ids := by decide
    keys := by decide }
  texts := fun _ => ⟨"", ""⟩
  entities := [⟨"college", .institution, "College", [], [], ⟨none, ""⟩⟩,
      ⟨"other", .institution, "Other", [], [], ⟨none, "affiliate"⟩⟩]
  suppressed := fun _ => false

/-- The archived page links the account of the other college; the page that is unchanged names the other
college at its link. -/
theorem vouches_for_others :
    ¬(LinkPath.archived .A "https://archive/" [⟨"k", .footer, ""⟩]).VouchesOwn linkSample linkedMap
      collegeSite ∧
      ¬(LinkPath.unchanged "https://h/" fun _ => (⟨"x", "account", "l", "l", ""⟩, "Other")).VouchesOwn
      linkSample
        linkedMap collegeSite := by
  refine ⟨fun h => ?_, fun h => ?_⟩
  · have hscope := (archived_own_iff .A "https://archive/" [⟨"k", .footer, ""⟩]).mp h
    have hnone := hscope ⟨"k", .footer, ""⟩ List.mem_cons_self ⟨"x", "account", "k", "k", ""⟩
      (by decide)
    exact absurd hnone (by decide)
  · have hscope := (repeated_own_iff "https://h/" fun _ => (⟨"x", "account", "l", "l", ""⟩, "Other")).mp
      h
    have hnone := hscope linkedOnce (by decide)
    exact absurd hnone (by decide)

end GuruJi.Map
