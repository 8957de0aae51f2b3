import GuruJi.Map.Tick
import Mathlib.Algebra.Order.BigOperators.Group.List

/-!
# The assets of the map

`upsert_asset` finds the asset of a key and fills in what is not known of it, or adds a row under a new
id.

* `findAsset_upsertAsset`: what it does to each key;
* `upsertAsset_spec`: the id it returns, and what it leaves alone.
-/

namespace GuruJi.Map

open GuruJi.Lib

structure AssetRef where
  platform : String
  kind : String
  key : String
  url : String
  handle : String
  deriving DecidableEq

/-- What placing assets takes from outside: `asset_ref`, and the id of the next asset, which is new to
the assets and to their evidence. -/
structure AssetEnv extends MapEnv where
  assetRef : String → Option AssetRef
  newAssetId : MapStore → String
  fresh : ∀ store, newAssetId store ∉ store.assets.map (·.assetId)
  unseen : ∀ store, ∀ row ∈ store.evidence, row.assetId ≠ newAssetId store

namespace MapStore

/-- `get_asset`. -/
def getAsset (store : MapStore) (assetId : String) : Option AssetRow :=
  store.assets.find? (·.assetId = assetId)

def newAsset (assetId : String) (ref : AssetRef) (entityId : Option String) (relation : String) :
    AssetRow :=
  ⟨assetId, ref.key, entityId, ref.platform, ref.kind, relation, .unknown, none, none, .unrated, [],
    none, none, none, none, none⟩

def relink (entityId : Option String) (relation : String) (row : AssetRow) : AssetRow :=
  { row with
    entityId := row.entityId.or entityId
    relation := if row.relation = "unknown" then relation else row.relation }

theorem keepsKeys_relink (entityId : Option String) (relation : String) :
    KeepsKeys (relink entityId relation) :=
  fun _ => ⟨rfl, rfl⟩

/-- `upsert_asset`. -/
def upsertAsset (env : AssetEnv) (store : MapStore) (ref : AssetRef) (entityId : Option String)
    (relation : String) : (String × Bool) × MapStore :=
  match h : store.findAsset ref.key with
  | some existing =>
    ((existing.assetId, false),
      store.update existing.assetId (relink entityId relation) (keepsKeys_relink entityId relation))
  | none =>
    ((env.newAssetId store, true),
      { store with
        assets := store.assets ++ [newAsset (env.newAssetId store) ref entityId relation]
        ids := by
          rw [List.map_append, List.nodup_append_comm]
          exact List.nodup_cons.mpr ⟨env.fresh store, store.ids⟩
        keys := by
          rw [List.map_append, List.nodup_append_comm]
          refine List.nodup_cons.mpr ⟨fun hmem => ?_, store.keys⟩
          obtain ⟨row, hrow, hkey⟩ := List.mem_map.mp hmem
          exact ne_key_of_find? h row hrow hkey })

/-! ## Rows of a key -/

variable {store : MapStore} {key : String}

theorem assetId_ne {a b : AssetRow} (ha : a ∈ store.assets) (hb : b ∈ store.assets)
    (h : a.assetKey ≠ b.assetKey) : a.assetId ≠ b.assetId :=
  fun heq => h (congrArg _ (eq_of_assetId ha hb heq))

theorem findAsset_spec {asset : AssetRow} (h : store.findAsset key = some asset) :
    asset ∈ store.assets ∧ asset.assetKey = key :=
  ⟨List.mem_of_find?_eq_some h, by simpa using List.find?_some h⟩

theorem findAsset_of_mem {asset : AssetRow} (h : asset ∈ store.assets) :
    store.findAsset asset.assetKey = some asset := by
  rcases hfound : store.findAsset asset.assetKey with _ | found
  · exact absurd (decide_eq_true rfl) (List.find?_eq_none.mp hfound asset h)
  · obtain ⟨hmem, hkey⟩ := findAsset_spec hfound
    rw [eq_of_assetKey hmem h hkey]

theorem getAsset_eq_some {asset : AssetRow} {assetId : String} :
    store.getAsset assetId = some asset ↔ asset ∈ store.assets ∧ asset.assetId = assetId := by
  constructor
  · intro h
    exact ⟨List.mem_of_find?_eq_some h, by simpa using List.find?_some h⟩
  · rintro ⟨hmem, rfl⟩
    rcases hfound : store.getAsset asset.assetId with _ | found
    · exact absurd (decide_eq_true rfl) (List.find?_eq_none.mp hfound asset hmem)
    · have hid : found.assetId = asset.assetId := by simpa using List.find?_some hfound
      rw [eq_of_assetId (List.mem_of_find?_eq_some hfound) hmem hid]

/-! ## What an upsert does -/

variable (env : AssetEnv) (store : MapStore) (ref : AssetRef) (entityId : Option String)
    (relation : String)

/-- The asset of an upsert, and what it leaves of the others. -/
theorem upsertAsset_spec :
    (∃ asset ∈ (store.upsertAsset env ref entityId relation).2.assets, asset.assetKey = ref.key ∧
        asset.assetId = (store.upsertAsset env ref entityId relation).1.1) ∧
      (store.upsertAsset env ref entityId relation).2.gold = store.gold ∧
      (store.upsertAsset env ref entityId relation).2.evidence = store.evidence := by
  unfold upsertAsset
  split
  · rename_i existing hexisting
    obtain ⟨hmem, hkey⟩ := findAsset_spec hexisting
    refine ⟨⟨relink entityId relation existing, ?_, hkey, rfl⟩, rfl, rfl⟩
    exact List.mem_map.mpr ⟨existing, hmem, if_pos rfl⟩
  · exact ⟨⟨_, List.mem_append_right _ List.mem_cons_self, rfl, rfl⟩, rfl, rfl⟩

/-- The asset of the key learns what it did not know, and no other key is touched. -/
theorem findAsset_upsertAsset (key : String) :
    (store.upsertAsset env ref entityId relation).2.findAsset key =
      if key = ref.key then
        some ((store.findAsset key).elim (newAsset (env.newAssetId store) ref entityId relation)
          (relink entityId relation))
      else store.findAsset key := by
  unfold upsertAsset
  split
  · rename_i existing hexisting
    obtain ⟨hmem, hkey⟩ := findAsset_spec hexisting
    have hkeeps : ∀ row, (relink entityId relation row).assetKey = row.assetKey := fun _ => rfl
    refine (find?_updateAt hkeeps).trans ?_
    show (store.findAsset key).map _ = _
    by_cases hsame : key = ref.key
    · rw [if_pos hsame, hsame, hexisting, Option.map_some, if_pos rfl]
      rfl
    · rw [if_neg hsame]
      rcases hfound : store.findAsset key with _ | found
      · rfl
      · obtain ⟨hfoundMem, hfoundKey⟩ := findAsset_spec hfound
        have hother : found.assetId ≠ existing.assetId :=
          assetId_ne hfoundMem hmem (by rw [hfoundKey, hkey]; exact hsame)
        rw [Option.map_some, if_neg hother]
  · rename_i hnone
    unfold findAsset
    rw [List.find?_append, List.find?_singleton]
    by_cases hsame : key = ref.key
    · have hmissing : store.assets.find? (·.assetKey = key) = none := hsame ▸ hnone
      rw [if_pos hsame, hmissing, Option.none_or]
      exact if_pos (decide_eq_true hsame.symm)
    · rw [if_neg hsame, if_neg fun heq => hsame (of_decide_eq_true heq).symm, Option.or_none]

theorem getAsset_upsertAsset :
    store.getAsset (store.upsertAsset env ref entityId relation).1.1 = store.findAsset ref.key := by
  unfold upsertAsset
  split
  · rename_i existing hexisting
    refine Eq.trans ?_ hexisting.symm
    exact getAsset_eq_some.mpr ⟨(findAsset_spec hexisting).1, rfl⟩
  · rename_i hnone
    refine Eq.trans ?_ hnone.symm
    refine List.find?_eq_none.mpr fun row hrow hid => env.fresh store ?_
    exact List.mem_map.mpr ⟨row, hrow, of_decide_eq_true hid⟩

def placement (store : MapStore) (key : String) : Option String :=
    (store.findAsset key).bind (·.entityId)

theorem placement_upsertAsset (key : String) :
    (store.upsertAsset env ref entityId relation).2.placement key =
      if key = ref.key then (store.placement key).or entityId else store.placement key := by
  rw [placement, findAsset_upsertAsset, placement]
  split_ifs
  · rcases store.findAsset key with _ | row
    · rfl
    · rfl
  · rfl

theorem mem_upsertAsset {row : AssetRow}
    (h : row ∈ (store.upsertAsset env ref entityId relation).2.assets) :
    (∃ old ∈ store.assets, old.assetId = row.assetId) ∨ row.assetId = env.newAssetId store := by
  unfold upsertAsset at h
  split at h
  · obtain ⟨old, hold, heq⟩ := List.mem_map.mp h
    refine .inl ⟨old, hold, ?_⟩
    rw [← heq]
    split_ifs
    · rfl
    · rfl
  · rcases List.mem_append.mp h with hold | hnew
    · exact .inl ⟨row, hold, rfl⟩
    · right
      rw [List.mem_singleton.mp hnew]
      rfl

end MapStore

/-! ## Ids that are new -/

def longerId (store : MapStore) : String :=
  String.ofList (List.replicate ((store.assets.map (·.assetId.length)).sum +
    (store.evidence.map (·.assetId.length)).sum + 1) 'a')

theorem longerId_length (store : MapStore) : (longerId store).length =
    (store.assets.map (·.assetId.length)).sum + (store.evidence.map (·.assetId.length)).sum + 1 := by
  rw [longerId, String.length_ofList, List.length_replicate]

theorem longerId_fresh (store : MapStore) : longerId store ∉ store.assets.map (·.assetId) := by
  intro hmem
  obtain ⟨row, hrow, hid⟩ := List.mem_map.mp hmem
  have hle : row.assetId.length ≤ (store.assets.map (·.assetId.length)).sum :=
    List.single_le_sum (fun _ _ => Nat.zero_le _) _ (List.mem_map_of_mem hrow)
  rw [hid, longerId_length] at hle
  omega

theorem longerId_unseen (store : MapStore) : ∀ row ∈ store.evidence, row.assetId ≠ longerId store := by
  intro row hrow hid
  have hle : row.assetId.length ≤ (store.evidence.map (·.assetId.length)).sum :=
    List.single_le_sum (fun _ _ => Nat.zero_le _) _ (List.mem_map_of_mem hrow)
  rw [hid, longerId_length] at hle
  omega

end GuruJi.Map
