import GuruJi.Map.Assets
import GuruJi.Map.Authority
import Mathlib.Data.List.Infix

/-!
# Where accounts are placed

The map with its entities: an account is placed with an entity, and what others may say of it depends on
where that entity stands.

* `Observation`, `MapState.record`: a row of evidence without its id and time, and adding one;
* `Grows`: what no step takes back;
* `claimable`: whether the owner of an entity may confirm an account placed with another.
-/

namespace GuruJi.Map

open GuruJi.Lib

/-- `ENTITY_KINDS`. -/
inductive EntityKind where
  | organisation | trust | institution | unit | branch | role | lookalike
  deriving DecidableEq

/-- A row of `intel_entities`. -/
structure MapEntity where
  entityId : String
  kind : EntityKind
  name : String
  names : List String
  locations : List String
  link : EntityLink
  deriving DecidableEq

/-- `asset_key.removeprefix("web:")`. -/
def AssetRow.host (asset : AssetRow) : String :=
  if startsWith "web:" asset.assetKey then String.ofList (asset.assetKey.toList.drop 4) else
    asset.assetKey

/-- The kinds of asset a link or a file may name. -/
def AssetRef.isAccount (ref : AssetRef) : Bool := ref.kind = "account" || ref.kind = "group"

/-- The texts in an asset's row. -/
structure AssetText where
  url : String
  handle : String
  deriving DecidableEq

/-- The map of one institution: `entities` in the order `list_entities` gives them, and the keys that
`is_suppressed` knows. -/
structure MapState where
  store : MapStore
  texts : String → AssetText
  entities : List MapEntity
  suppressed : String → Bool

/-- The arguments of `add_evidence`. -/
structure Observation where
  assetId : String
  kind : Kind
  polarity : Polarity
  sourceUrl : String
  sourceAssetId : Option String
  detail : String
  channel : String
  observedVia : Via
  deriving DecidableEq

/-- The row of an observation, as its columns keep it. -/
def MapEnv.row (env : MapEnv) (rows : List Evidence) (o : Observation) : Evidence where
  evidenceId := env.newId rows
  assetId := o.assetId
  kind := o.kind
  polarity := o.polarity
  sourceUrl := upTo 1000 o.sourceUrl
  sourceAssetId := o.sourceAssetId
  detail := upTo 500 o.detail
  channel := upTo 100 o.channel
  observedVia := o.observedVia
  observedAt := env.stamp rows

/-- What a row says, and of which key. -/
structure Word where
  account : Option String
  kind : Kind
  polarity : Polarity
  sourceUrl : String
  sourceAssetId : Option String
  detail : String
  channel : String
  observedVia : Via
  deriving DecidableEq

def Observation.said (o : Observation) (account : Option String) : Word :=
  ⟨account, o.kind, o.polarity, upTo 1000 o.sourceUrl, o.sourceAssetId, upTo 500 o.detail,
    upTo 100 o.channel, o.observedVia⟩

namespace MapState

/-- `get_entity`. -/
def getEntity (m : MapState) (entityId : String) : Option MapEntity :=
  m.entities.find? (·.entityId = entityId)

/-- `add_evidence`. -/
def record (env : MapEnv) (m : MapState) (o : Observation) : MapState :=
  { m with store := m.store.addEvidence (env.row m.store.evidence o) }

/-- `upsert_asset`. -/
def upsertAsset (env : AssetEnv) (m : MapState) (ref : AssetRef) (entityId : Option String)
    (relation : String) : (String × Bool) × MapState :=
  let done := m.store.upsertAsset env ref entityId relation
  (done.1, { m with
    store := done.2
    texts := if done.1.2 then Function.update m.texts done.1.1 ⟨ref.url, upTo 200 ref.handle⟩ else m.texts })

/-- `regrade`, with nothing parked for a run. -/
def regrade (env : MapEnv) (m : MapState) (assetIds : List String) : MapState :=
  { m with store := m.store.regrade env ordinary (some assetIds) }

def keyOf (m : MapState) (assetId : String) : Option String :=
    (m.store.getAsset assetId).map (·.assetKey)

def word (m : MapState) (row : Evidence) : Word :=
  ⟨m.keyOf row.assetId, row.kind, row.polarity, row.sourceUrl, row.sourceAssetId, row.detail,
    row.channel, row.observedVia⟩

def added (before after : MapState) : List Evidence :=
  after.store.evidence.drop before.store.evidence.length

def words (before after : MapState) : List Word := (added before after).map after.word

end MapState

/-! ## Whose accounts an owner may confirm -/

/-- The loop of `claimable`: `fuel` is the number of entities that are left to see. -/
def claimableLoop (getEntity : String → Option MapEntity) (entityId : String)
    (ownerEntityId : Option String) : Nat → List String → Option String → Bool
  | 0, _, _ => false
  | fuel + 1, seen, current =>
    match truthy current with
    | none => false
    | some id =>
      if id ∈ seen then false
      else match getEntity id with
        | none => false
        | some entity =>
          if id = entityId ∧ (entity.kind = .lookalike ∨ entity.kind = .role) then false
          else if some id = ownerEntityId then true
          else claimableLoop getEntity entityId ownerEntityId fuel (id :: seen) entity.link.parentId

/-- `claimable`. -/
def claimable (m : MapState) (entityId ownerEntityId : Option String) : Bool :=
  match truthy entityId with
  | none => true
  | some id => claimableLoop m.getEntity id ownerEntityId m.entities.length [] (some id)

theorem claimable_congr {m m' : MapState} (h : m'.entities = m.entities)
    (entityId ownerEntityId : Option String) :
    claimable m' entityId ownerEntityId = claimable m entityId ownerEntityId := by
  have hget : m'.getEntity = m.getEntity := by
    funext id
    rw [MapState.getEntity, MapState.getEntity, h]
  rw [claimable, claimable, hget, h]

/-! ## No entity is seen twice -/

section
variable {m : MapState} {entityId : String} {ownerEntityId : Option String}

theorem entityId_mem {id : String} {entity : MapEntity} (h : m.getEntity id = some entity) :
    id ∈ m.entities.map (·.entityId) := by
  have hid : entity.entityId = id := by simpa using List.find?_some h
  exact List.mem_map.mpr ⟨entity, List.mem_of_find?_eq_some h, hid⟩

theorem claimableLoop_seen {seen : List String} (hall : m.entities.map (·.entityId) ⊆ seen) (fuel : Nat)
    (current : Option String) :
    claimableLoop m.getEntity entityId ownerEntityId fuel seen current = false := by
  rcases fuel with _ | fuel
  · rfl
  rw [claimableLoop]
  rcases truthy current with _ | id
  · rfl
  show (if id ∈ seen then false else _) = false
  by_cases hseen : id ∈ seen
  · exact if_pos hseen
  rw [if_neg hseen]
  rcases hentity : m.getEntity id with _ | entity
  · rfl
  · exact absurd (hall (entityId_mem hentity)) hseen

theorem claimableLoop_fuel (fuel more : Nat) (seen : List String) (current : Option String)
    (hnodup : seen.Nodup) (hseen : seen ⊆ m.entities.map (·.entityId))
    (hfuel : m.entities.length ≤ fuel + seen.length) (hmore : m.entities.length ≤ more + seen.length) :
    claimableLoop m.getEntity entityId ownerEntityId fuel seen current =
      claimableLoop m.getEntity entityId ownerEntityId more seen current := by
  have hall : m.entities.length ≤ seen.length → m.entities.map (·.entityId) ⊆ seen := by
    intro hle
    have hsub : seen.Subperm (m.entities.map (·.entityId)) := hnodup.subperm hseen
    exact (hsub.perm_of_length_le (by rwa [List.length_map])).symm.subset
  induction fuel generalizing more seen current with
  | zero =>
    have hle : m.entities.length ≤ seen.length := by omega
    rw [claimableLoop_seen (hall hle), claimableLoop_seen (hall hle)]
  | succ fuel ih =>
    rcases more with _ | more
    · have hle : m.entities.length ≤ seen.length := by omega
      rw [claimableLoop_seen (hall hle), claimableLoop_seen (hall hle)]
    rw [claimableLoop, claimableLoop]
    rcases truthy current with _ | id
    · rfl
    show (if id ∈ seen then false else _) = if id ∈ seen then false else _
    by_cases hid : id ∈ seen
    · rw [if_pos hid, if_pos hid]
    rw [if_neg hid, if_neg hid]
    rcases hentity : m.getEntity id with _ | entity
    · rfl
    simp only
    have hnext : ∀ current, claimableLoop m.getEntity entityId ownerEntityId fuel (id :: seen) current =
        claimableLoop m.getEntity entityId ownerEntityId more (id :: seen) current := by
      intro current
      have hnodup' : (id :: seen).Nodup := List.nodup_cons.mpr ⟨hid, hnodup⟩
      have hseen' : id :: seen ⊆ m.entities.map (·.entityId) :=
        List.cons_subset.mpr ⟨entityId_mem hentity, hseen⟩
      refine ih more (id :: seen) current hnodup' hseen' ?_ ?_ fun hle => ?_
      · rw [List.length_cons]
        omega
      · rw [List.length_cons]
        omega
      · have hsub : (id :: seen).Subperm (m.entities.map (·.entityId)) := hnodup'.subperm hseen'
        exact (hsub.perm_of_length_le (by rwa [List.length_map])).symm.subset
    rw [hnext]

theorem claimable_fuel {id : String} {fuel : Nat} (hid : id ≠ "") (hfuel : m.entities.length ≤ fuel) :
    claimable m (some id) ownerEntityId = claimableLoop m.getEntity id ownerEntityId fuel []
    (some id) := by
  have htruthy : truthy (some id) = some id := by simp [truthy, hid]
  rw [claimable, htruthy]
  refine claimableLoop_fuel _ _ [] _ List.nodup_nil (List.nil_subset _) ?_ ?_
  · exact Nat.le_add_right _ _
  · exact hfuel.trans (Nat.le_add_right _ _)

end

/-! ## What no step takes back -/

/-- Assets stay, placed where they were placed, and rows stay with what they are about. -/
structure Grows (before after : MapState) : Prop where
  asset : ∀ a ∈ before.store.assets, ∃ b ∈ after.store.assets,
    b.assetId = a.assetId ∧ b.assetKey = a.assetKey ∧ (a.entityId ≠ none → b.entityId = a.entityId)
  row : ∀ row ∈ before.store.evidence, before.keyOf row.assetId = none → after.keyOf row.assetId = none
  evidence : before.store.evidence <+: after.store.evidence
  entities : after.entities = before.entities
  suppressed : after.suppressed = before.suppressed

namespace Grows
variable {a b c : MapState}

theorem refl (m : MapState) : Grows m m :=
  ⟨fun a ha => ⟨a, ha, rfl, rfl, fun _ => rfl⟩, fun _ _ h => h, List.prefix_rfl, rfl, rfl⟩

theorem trans (h : Grows a b) (h' : Grows b c) : Grows a c where
  asset := by
    intro x hx
    obtain ⟨y, hy, hid, hkey, hplaced⟩ := h.asset x hx
    obtain ⟨z, hz, hid', hkey', hplaced'⟩ := h'.asset y hy
    refine ⟨z, hz, hid'.trans hid, hkey'.trans hkey, fun hsome => ?_⟩
    rw [hplaced' (by rwa [hplaced hsome]), hplaced hsome]
  row := fun row hrow hnone => h'.row row (h.evidence.subset hrow) (h.row row hrow hnone)
  evidence := h.evidence.trans h'.evidence
  entities := h'.entities.trans h.entities
  suppressed := h'.suppressed.trans h.suppressed

theorem keyOf_some (h : Grows a b) {assetId key : String} (hkey : a.keyOf assetId = some key) :
    b.keyOf assetId = some key := by
  obtain ⟨x, hx, rfl⟩ := Option.map_eq_some_iff.mp hkey
  obtain ⟨hmem, hid⟩ := MapStore.getAsset_eq_some.mp hx
  obtain ⟨y, hy, hid', hkey', -⟩ := h.asset x hmem
  rw [MapState.keyOf, MapStore.getAsset_eq_some.mpr ⟨hy, hid'.trans hid⟩, Option.map_some, hkey']

theorem keyOf (h : Grows a b) {row : Evidence} (hrow : row ∈ a.store.evidence) :
    b.keyOf row.assetId = a.keyOf row.assetId := by
  rcases hfound : a.keyOf row.assetId with _ | key
  · exact h.row row hrow hfound
  · exact h.keyOf_some hfound

theorem added_eq (h : Grows a b) : b.store.evidence = a.store.evidence ++ MapState.added a b := by
  obtain ⟨rows, hrows⟩ := h.evidence
  rw [MapState.added, ← hrows, List.drop_left]

theorem added_trans (h : Grows a b) (h' : Grows b c) :
    MapState.added a c = MapState.added a b ++ MapState.added b c := by
  have hsplit := (h.trans h').added_eq.symm.trans (h'.added_eq.trans (congrArg (· ++ _) h.added_eq))
  rw [List.append_assoc] at hsplit
  exact List.append_cancel_left hsplit

theorem words_trans (h : Grows a b) (h' : Grows b c) :
    MapState.words a c = MapState.words a b ++ MapState.words b c := by
  rw [MapState.words, h.added_trans h', List.map_append]
  congr 1
  refine List.map_congr_left fun row hrow => ?_
  have hmem : row ∈ b.store.evidence := h.added_eq ▸ List.mem_append_right _ hrow
  rw [MapState.word, MapState.word, h'.keyOf hmem]

end Grows

theorem perform_entityId (stamp : String) (ws : List Write) (asset : AssetRow) :
    (asset.perform stamp ws).entityId = asset.entityId := by
  induction ws generalizing asset with
  | nil => rfl
  | cons w ws ih =>
    refine (ih (w.act stamp asset)).trans ?_
    cases w with
    | status s via seenAt => cases via <;> rfl
    | restamp reasons => rfl
    | grade g reasons proposed runId => cases proposed <;> rfl

namespace MapState
variable (env : AssetEnv) (m : MapState)

theorem grows_record (o : Observation) : Grows m (m.record env.toMapEnv o) :=
  ⟨fun a ha => ⟨a, ha, rfl, rfl, fun _ => rfl⟩, fun _ _ h => h, List.prefix_append _ _, rfl, rfl⟩

theorem added_record (o : Observation) :
    added m (m.record env.toMapEnv o) = [env.row m.store.evidence o] :=
  List.drop_left

theorem grows_upsertAsset (ref : AssetRef) (entityId : Option String) (relation : String) :
    Grows m (m.upsertAsset env ref entityId relation).2 := by
  have hevidence := (MapStore.upsertAsset_spec env m.store ref entityId relation).2.2
  refine ⟨fun a ha => ?_, fun row hrow hnone => ?_, ?_, rfl, rfl⟩
  · have hfind := MapStore.findAsset_upsertAsset env m.store ref entityId relation a.assetKey
    rw [MapStore.findAsset_of_mem ha] at hfind
    by_cases hkey : a.assetKey = ref.key
    · rw [if_pos hkey] at hfind
      refine ⟨_, (MapStore.findAsset_spec hfind).1, rfl, rfl, fun hsome => ?_⟩
      obtain ⟨id, hid⟩ := Option.ne_none_iff_exists'.mp hsome
      show a.entityId.or entityId = a.entityId
      rw [hid, Option.some_or]
    · rw [if_neg hkey] at hfind
      exact ⟨a, (MapStore.findAsset_spec hfind).1, rfl, rfl, fun _ => rfl⟩
  · -- a new row has a new id
    rw [keyOf, Option.map_eq_none_iff] at hnone ⊢
    by_contra hsome
    obtain ⟨b, hb⟩ := Option.ne_none_iff_exists'.mp hsome
    obtain ⟨hmem, hid⟩ := MapStore.getAsset_eq_some.mp hb
    rcases MapStore.mem_upsertAsset env m.store ref entityId relation hmem with ⟨a, ha, hsame⟩ | hnew
    · exact absurd (MapStore.getAsset_eq_some.mpr ⟨ha, hsame.trans hid⟩) (by rw [hnone]; exact nofun)
    · exact env.unseen m.store row hrow (hid.symm.trans hnew)
  · show m.store.evidence <+: (m.store.upsertAsset env ref entityId relation).2.evidence
    rw [hevidence]

theorem words_record (o : Observation) :
    words m (m.record env.toMapEnv o) = [o.said (m.keyOf o.assetId)] := by
  rw [words, added_record]
  rfl

theorem added_upsertAsset (ref : AssetRef) (entityId : Option String) (relation : String) :
    added m (m.upsertAsset env ref entityId relation).2 = [] := by
  have hevidence := (MapStore.upsertAsset_spec env m.store ref entityId relation).2.2
  show List.drop _ (m.store.upsertAsset env ref entityId relation).2.evidence = []
  rw [hevidence, List.drop_length]

theorem keyOf_eq_some {assetId key : String} : m.keyOf assetId = some key ↔
    ∃ a, m.store.findAsset key = some a ∧ a.assetId = assetId := by
  constructor
  · intro h
    obtain ⟨a, ha, hkey⟩ := Option.map_eq_some_iff.mp h
    obtain ⟨hmem, hid⟩ := MapStore.getAsset_eq_some.mp ha
    exact ⟨a, hkey ▸ MapStore.findAsset_of_mem hmem, hid⟩
  · rintro ⟨a, ha, hid⟩
    obtain ⟨hmem, hkey⟩ := MapStore.findAsset_spec ha
    rw [keyOf, MapStore.getAsset_eq_some.mpr ⟨hmem, hid⟩, Option.map_some, hkey]

theorem foldl_record (os : List Observation) : Grows m (os.foldl (record env.toMapEnv) m) ∧
      (os.foldl (record env.toMapEnv) m).store.assets = m.store.assets ∧
      words m (os.foldl (record env.toMapEnv) m) = os.map fun o => o.said (m.keyOf o.assetId) := by
  induction os generalizing m with
  | nil => exact ⟨Grows.refl m, rfl, congrArg (List.map _) List.drop_length⟩
  | cons o os ih =>
    obtain ⟨hgrows, hassets, hwords⟩ := ih (m.record env.toMapEnv o)
    have hfirst := grows_record env m o
    refine ⟨hfirst.trans hgrows, hassets, ?_⟩
    rw [List.foldl_cons, hfirst.words_trans hgrows, hwords, words_record]
    rfl

theorem grows_regrade (assetIds : List String) :
    Grows m (m.regrade env.toMapEnv assetIds) ∧ words m (m.regrade env.toMapEnv assetIds) = [] := by
  have hassets : (m.regrade env.toMapEnv assetIds).store.assets = _ := MapStore.assets_regrade
  have hevidence : (m.regrade env.toMapEnv assetIds).store.evidence = m.store.evidence :=
    MapStore.regrade_fields.1
  have hkeys := fun a : AssetRow => perform_keys (env.stamp m.store.evidence)
    (ownUpdates a.assetId (m.store.regradeWrites env.toMapEnv ordinary (some assetIds))) a
  refine ⟨⟨fun a ha => ?_, fun row hrow hnone => ?_, ?_, rfl, rfl⟩, ?_⟩
  · refine ⟨_, hassets ▸ List.mem_map_of_mem ha, (hkeys a).1, (hkeys a).2, fun _ => ?_⟩
    exact perform_entityId _ _ a
  · rw [keyOf, Option.map_eq_none_iff] at hnone ⊢
    by_contra hsome
    obtain ⟨b, hb⟩ := Option.ne_none_iff_exists'.mp hsome
    obtain ⟨hmem, hid⟩ := MapStore.getAsset_eq_some.mp hb
    rw [hassets] at hmem
    obtain ⟨a, ha, rfl⟩ := List.mem_map.mp hmem
    have hget := MapStore.getAsset_eq_some.mpr ⟨ha, (hkeys a).1.symm.trans hid⟩
    rw [hnone] at hget
    cases hget
  · rw [hevidence]
  · rw [words, added, hevidence, List.drop_length, List.map_nil]

theorem added_upsert_record (ref : AssetRef) (entityId : Option String) (relation : String)
    (o : Observation) : added m ((m.upsertAsset env ref entityId relation).2.record env.toMapEnv o) =
      [env.row (m.upsertAsset env ref entityId relation).2.store.evidence o] := by
  have hupsert := grows_upsertAsset env m ref entityId relation
  rw [hupsert.added_trans (grows_record env _ o), added_upsertAsset, added_record, List.nil_append]

theorem grows_upsert_record (ref : AssetRef) (entityId : Option String) (relation : String)
    (o : Observation) : Grows m ((m.upsertAsset env ref entityId relation).2.record env.toMapEnv o) :=
  (grows_upsertAsset env m ref entityId relation).trans (grows_record env _ o)

end MapState

end GuruJi.Map
