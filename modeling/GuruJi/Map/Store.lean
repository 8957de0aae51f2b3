import GuruJi.Lib.Rows
import GuruJi.Map.Proposals
import Mathlib.Algebra.Order.Field.Rat

/-!
# The store of the map, and regrading it

The assets, the evidence and the ground truth of one institution, and `regrade` over them: the
grades are computed from the evidence, disputes between accounts of one entity are found, and the
rows are updated one after the other. `assets_regrade` says what it does to each row.
-/

namespace GuruJi.Map

open GuruJi.Lib

/-- `SPLITS`. -/
inductive Split where
  | seed | holdout | canary
  deriving DecidableEq

/-- A ground-truth item. -/
structure GoldItem where
  assetKey : String
  entityName : String
  split : Split
  expectedMinGrade : Grade
  deriving DecidableEq

/-- The rows of one institution; the asset id and the asset key are unique. `lookalikes` are the
entities of kind look-alike. -/
structure MapStore where
  assets : List AssetRow
  evidence : List Evidence
  gold : List GoldItem
  lookalikes : List String
  ids : (assets.map (·.assetId)).Nodup
  keys : (assets.map (·.assetKey)).Nodup

/-- What the code takes from outside: how a time is read, the clock and the next id (when so much
evidence has been recorded), how names of persons are taken out of a text, and how floats are
rounded and printed. -/
structure MapEnv where
  parse : String → Option Int
  now : Int
  stamp : List Evidence → String
  newId : List Evidence → String
  withoutNames : String → String
  round4 : ℚ → ℚ
  percent : ℚ → String

def KeepsKeys (f : AssetRow → AssetRow) : Prop :=
  ∀ r, (f r).assetId = r.assetId ∧ (f r).assetKey = r.assetKey

theorem KeepsKeys.updateAt {f : AssetRow → AssetRow} (h : KeepsKeys f) (assetId : String)
    (rows : List AssetRow) :
    (updateAt (·.assetId) assetId f rows).map (·.assetId) = rows.map (·.assetId) ∧
      (updateAt (·.assetId) assetId f rows).map (·.assetKey) = rows.map (·.assetKey) := by
  rw [Lib.updateAt, List.map_map, List.map_map]
  constructor
  · refine List.map_congr_left fun r _ => ?_
    simp only [Function.comp_apply]
    split_ifs
    · exact (h r).1
    · rfl
  · refine List.map_congr_left fun r _ => ?_
    simp only [Function.comp_apply]
    split_ifs
    · exact (h r).2
    · rfl

theorem keepsKeys_act (stamp : String) (w : Write) : KeepsKeys (w.act stamp) := by
  intro r
  cases w with
  | status s via seenAt => cases via <;> exact ⟨rfl, rfl⟩
  | restamp reasons => exact ⟨rfl, rfl⟩
  | grade g reasons proposed runId => cases proposed <;> exact ⟨rfl, rfl⟩

theorem keepsKeys_holdChange (before : Published) (runId : String) (held : AssetRow) :
    KeepsKeys (AssetRow.holdChange before runId held) := fun _ => ⟨rfl, rfl⟩

namespace MapStore

/-- `UPDATE intel_assets SET ... WHERE asset_id = ?`. -/
def update (store : MapStore) (assetId : String) (f : AssetRow → AssetRow) (hf : KeepsKeys f) :
    MapStore :=
  { store with
    assets := updateAt (·.assetId) assetId f store.assets
    ids := by rw [(hf.updateAt assetId store.assets).1]; exact store.ids
    keys := by rw [(hf.updateAt assetId store.assets).2]; exact store.keys }

/-- `add_evidence`. -/
def addEvidence (store : MapStore) (row : Evidence) : MapStore :=
  { store with evidence := store.evidence ++ [row] }

/-- `find_asset`. -/
def findAsset (store : MapStore) (assetKey : String) : Option AssetRow :=
  store.assets.find? (·.assetKey = assetKey)

/-- `evidence_for`, for one asset. -/
def evidenceFor (store : MapStore) (assetId : String) : List Evidence :=
  store.evidence.filter (·.assetId = assetId)

/-! ## Regrading -/

/-- The assets a regrade is asked for; `none` is all of them. -/
def wanted (store : MapStore) (assetIds : Option (List String)) : List AssetRow :=
  match assetIds with
  | none => store.assets
  | some ids => store.assets.filter fun a => ids.contains a.assetId

/-- The hubs and sites that passed evidence on to the assets. -/
def sources (store : MapStore) (graded : List AssetRow) : List String :=
  ((graded.flatMap fun a => store.evidenceFor a.assetId).filter fun row =>
    (row.kind = .hubLink || row.kind = .backlink) && row.hasSource).map (·.source) |>.eraseDups

def foundBy (store : MapStore) (graded : List AssetRow) : Table String (List String) :=
  (store.sources graded).map fun source => (source,
    ((store.evidenceFor source).filter fun row => row.supports && row.channel ≠ "").map (·.channel))

def result (store : MapStore) (env : MapEnv) (graded : List AssetRow) (asset : AssetRow) :
    GradeResult :=
  Map.grade env.parse asset.toAsset (store.evidenceFor asset.assetId) env.now
    (some (store.foundBy graded))

end MapStore

def AssetRow.officialAccount (asset : AssetRow) : Bool :=
  asset.relation = "official" && asset.kind = "account" && named asset.entityId

def AssetRow.sameGroup (a b : AssetRow) : Bool := a.entityId = b.entityId && a.platform = b.platform

/-- The assets that disputes are looked for among: the graded ones, and the rest of their groups. -/
def MapStore.peers (store : MapStore) (graded : List AssetRow) : List AssetRow :=
  store.assets.filter fun a => (graded.map (·.assetId)).contains a.assetId ||
    (a.kind = "account" && a.relation = "official" && graded.any fun g => g.officialAccount &&
      g.entityId = a.entityId && (g.platform = "" || g.platform = a.platform))

/-- An account that can dispute another: a refuted one disputes nothing, nor does an app. -/
def disputes (gradeAt : AssetRow → Grade) (asset : AssetRow) : Bool :=
  gradeAt asset ≠ .D && asset.officialAccount && asset.platform ≠ "google_play"

/-- `apply_disputes`: the account is one of several that claim to be official, none of them
anchored. -/
def isDisputed (peers : List AssetRow) (gradeAt : AssetRow → Grade) (asset : AssetRow) : Bool :=
  let members := peers.filter fun b => disputes gradeAt b && b.sameGroup asset
  disputes gradeAt asset && decide (2 ≤ members.length) &&
    members.all (fun b => decide ((gradeAt b).rank < Grade.Aarch.rank)) &&
    decide (Grade.B.rank ≤ (gradeAt asset).rank)

/-- What a regrade writes of an account that it did not grade. -/
def peerWrites (asset : AssetRow) (disputed : Bool) : List Write :=
  if asset.status = .disputed ∧ disputed = false then [.status .unknown none none]
  else if disputed = true ∧ asset.status ≠ .disputed then [.status .disputed none none]
  else []

namespace MapStore

def gradeAt (store : MapStore) (env : MapEnv) (graded : List AssetRow) (asset : AssetRow) : Grade :=
  if (graded.map (·.assetId)).contains asset.assetId then (store.result env graded asset).grade
  else asset.grade

def disputed (store : MapStore) (env : MapEnv) (graded : List AssetRow) (asset : AssetRow) : Bool :=
  isDisputed (store.peers graded) (store.gradeAt env graded) asset

def regradeWrites (store : MapStore) (env : MapEnv) (o : RegradeOptions)
    (assetIds : Option (List String)) : List (String × Write) :=
  let graded := store.wanted assetIds
  ((store.peers graded).filter fun a => !(graded.map (·.assetId)).contains a.assetId).flatMap
      (fun a => (peerWrites a (store.disputed env graded a)).map (Prod.mk a.assetId)) ++
    graded.flatMap fun a =>
      (regradeAsset o a (store.result env graded a) (store.disputed env graded a)).map
        (Prod.mk a.assetId)

def perform (store : MapStore) (stamp : String) (ws : List (String × Write)) : MapStore :=
  ws.foldl (fun s w => s.update w.1 (w.2.act stamp) (keepsKeys_act stamp w.2)) store

/-- `regrade`. -/
def regrade (store : MapStore) (env : MapEnv) (o : RegradeOptions)
    (assetIds : Option (List String)) : MapStore :=
  store.perform (env.stamp store.evidence) (store.regradeWrites env o assetIds)

end MapStore

/-! ## What a regrade does to each row -/

namespace MapStore
variable {store : MapStore} {env : MapEnv} {o : RegradeOptions} {assetIds : Option (List String)}

theorem perform_fields (stamp : String) (ws : List (String × Write)) (store : MapStore) :
    (store.perform stamp ws).assets =
        ws.foldl (fun rows w => updateAt (·.assetId) w.1 (w.2.act stamp) rows) store.assets ∧
      (store.perform stamp ws).evidence = store.evidence ∧
      (store.perform stamp ws).gold = store.gold ∧
      (store.perform stamp ws).lookalikes = store.lookalikes := by
  induction ws generalizing store with
  | nil => exact ⟨rfl, rfl, rfl, rfl⟩
  | cons w ws ih => exact ih (store.update w.1 (w.2.act stamp) (keepsKeys_act stamp w.2))

theorem assets_perform (stamp : String) (ws : List (String × Write)) : (store.perform stamp ws).assets =
      store.assets.map fun a => a.perform stamp (ownUpdates a.assetId ws) := by
  rw [(perform_fields stamp ws store).1]
  exact foldl_updateAt _ _ (fun w r => (keepsKeys_act stamp w r).1) ws store.assets

theorem wanted_sublist : (store.wanted assetIds).Sublist store.assets := by
  cases assetIds with
  | none => exact List.Sublist.refl _
  | some ids => exact List.filter_sublist

theorem eq_of_assetId {a b : AssetRow} (ha : a ∈ store.assets) (hb : b ∈ store.assets)
    (h : a.assetId = b.assetId) : a = b := List.inj_on_of_nodup_map store.ids ha hb h

theorem eq_of_assetKey {a b : AssetRow} (ha : a ∈ store.assets) (hb : b ∈ store.assets)
    (h : a.assetKey = b.assetKey) : a = b := List.inj_on_of_nodup_map store.keys ha hb h

variable {a : AssetRow}

theorem contains_wanted (ha : a ∈ store.assets) :
    ((store.wanted assetIds).map (·.assetId)).contains a.assetId = true ↔
      a ∈ store.wanted assetIds := by
  rw [List.contains_iff_mem, List.mem_map]
  constructor
  · rintro ⟨b, hb, heq⟩
    rwa [← eq_of_assetId (wanted_sublist.subset hb) ha heq]
  · exact fun h => ⟨a, h, rfl⟩

theorem ownUpdates_graded (ha : a ∈ store.wanted assetIds) :
    ownUpdates a.assetId (store.regradeWrites env o assetIds) =
      regradeAsset o a (store.result env (store.wanted assetIds) a)
        (store.disputed env (store.wanted assetIds) a) := by
  have hasset := wanted_sublist.subset ha
  rw [regradeWrites, ownUpdates_append, ownUpdates_flatMap, ownUpdates_flatMap]
  simp only [ownUpdates_pairs]
  have hpeers : ∀ b ∈ (store.peers (store.wanted assetIds)).filter
      (fun b => !((store.wanted assetIds).map (·.assetId)).contains b.assetId),
      b.assetId ≠ a.assetId := by
    intro b hb heq
    have hout := (List.mem_filter.mp hb).2
    rw [heq, (contains_wanted hasset).mpr ha] at hout
    cases hout
  have hnil : ((store.peers (store.wanted assetIds)).filter
      (fun b => !((store.wanted assetIds).map (·.assetId)).contains b.assetId)).flatMap
        (fun b => if b.assetId = a.assetId then
          peerWrites b (store.disputed env (store.wanted assetIds) b) else []) = [] :=
    List.flatMap_eq_nil_iff.mpr fun b hb => if_neg (hpeers b hb)
  rw [hnil, List.nil_append]
  exact flatMap_of_key (store.ids.sublist (wanted_sublist.map _)) ha _

theorem ownUpdates_out (env : MapEnv) (o : RegradeOptions) (ha : a ∈ store.assets)
    (hout : a ∉ store.wanted assetIds) :
    ownUpdates a.assetId (store.regradeWrites env o assetIds) =
      if a ∈ store.peers (store.wanted assetIds) then
        peerWrites a (store.disputed env (store.wanted assetIds) a) else [] := by
  rw [regradeWrites, ownUpdates_append, ownUpdates_flatMap, ownUpdates_flatMap]
  simp only [ownUpdates_pairs]
  have hgraded : (store.wanted assetIds).flatMap (fun b => if b.assetId = a.assetId then
      regradeAsset o b (store.result env (store.wanted assetIds) b)
        (store.disputed env (store.wanted assetIds) b) else []) = [] := by
    refine List.flatMap_eq_nil_iff.mpr fun b hb => if_neg fun heq => hout ?_
    rwa [← eq_of_assetId (wanted_sublist.subset hb) ha heq]
  rw [hgraded, List.append_nil]
  have hpeers : (store.peers (store.wanted assetIds)).Sublist store.assets := List.filter_sublist
  split_ifs with hpeer
  · refine flatMap_of_key ?_ ?_ _
    · exact store.ids.sublist ((List.filter_sublist.trans hpeers).map _)
    · refine List.mem_filter.mpr ⟨hpeer, ?_⟩
      rw [Bool.not_eq_true', ← Bool.not_eq_true]
      exact mt (contains_wanted ha).mp hout
  · refine List.flatMap_eq_nil_iff.mpr fun b hb => if_neg fun heq => hpeer ?_
    have hb := (List.mem_filter.mp hb).1
    rwa [← eq_of_assetId (hpeers.subset hb) ha heq]

theorem ownUpdates_ungraded (env : MapEnv) (o : RegradeOptions) (ha : a ∈ store.assets)
    (hout : a ∉ store.wanted assetIds) :
    ownUpdates a.assetId (store.regradeWrites env o assetIds) = [] ∨
      ownUpdates a.assetId (store.regradeWrites env o assetIds) =
        peerWrites a (store.disputed env (store.wanted assetIds) a) := by
  rw [ownUpdates_out env o ha hout]
  split_ifs
  · exact .inr rfl
  · exact .inl rfl

theorem perform_graded (ha : a ∈ store.wanted assetIds) (stamp : String) :
    a.perform stamp (ownUpdates a.assetId (store.regradeWrites env o assetIds)) =
      a.regrade stamp o (store.result env (store.wanted assetIds) a)
        (store.disputed env (store.wanted assetIds) a) := by
  rw [ownUpdates_graded ha, AssetRow.regrade]

/-- Another row after a regrade: its status may change to or from disputed, and nothing else. -/
theorem perform_ungraded (ha : a ∈ store.assets) (hout : a ∉ store.wanted assetIds) (stamp : String) :
    a.perform stamp (ownUpdates a.assetId (store.regradeWrites env o assetIds)) = a ∨
      (a.status = .disputed ∧ a.perform stamp (ownUpdates a.assetId
        (store.regradeWrites env o assetIds)) = { a with status := .unknown }) ∨
      (store.disputed env (store.wanted assetIds) a = true ∧ a.perform stamp (ownUpdates a.assetId
        (store.regradeWrites env o assetIds)) = { a with status := .disputed }) := by
  rcases ownUpdates_ungraded env o ha hout with hnone | hpeer
  · rw [hnone]
    exact .inl rfl
  · rw [hpeer, peerWrites]
    split_ifs with hends hbegins
    · exact .inr (.inl ⟨hends.1, rfl⟩)
    · exact .inr (.inr ⟨hbegins.1, rfl⟩)
    · exact .inl rfl

theorem assets_regrade : (store.regrade env o assetIds).assets = store.assets.map fun a =>
    a.perform (env.stamp store.evidence)
      (ownUpdates a.assetId (store.regradeWrites env o assetIds)) := assets_perform _ _

theorem regrade_fields : (store.regrade env o assetIds).evidence = store.evidence ∧
    (store.regrade env o assetIds).gold = store.gold ∧
    (store.regrade env o assetIds).lookalikes = store.lookalikes :=
  (perform_fields _ _ store).2

end MapStore

end GuruJi.Map
