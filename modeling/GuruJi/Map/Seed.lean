import GuruJi.Map.Assets
import Mathlib.Algebra.Order.BigOperators.Group.List

/-!
# Seeding the map

`import_seed` imports the rows of a sweep as claims, sets a share of them aside as hidden ground truth
and takes its look-alikes as canaries. Which rows are set aside is decided from the key and the
percentage of the import, and the gold items remember what was decided first.

* `RowEffect`, `Canary`: what a row and a look-alike do to one key, and `importSeed_listed`,
  `importSeed_unlisted`: what an import does;
* **`ground_truth_kept`**: over every sequence of imports;
* `ground_truth_leaks`: a lower percentage, an import without its look-alikes, and a split that changes.

The entities a row names, with the sources it leads to, are a state of their own (`SeedEnv.entity`).
-/

namespace GuruJi.Map

open GuruJi.Lib

/-- `_CLAIMED`. -/
inductive ClaimedGrade where
  | A | Aarch | B | C | F
  deriving DecidableEq

def ClaimedGrade.text : ClaimedGrade → String
  | .A => "A"
  | .Aarch => "A-arch"
  | .B => "B"
  | .C => "C"
  | .F => "F"

/-- A row of the sweep, as `parse_sweep` lets it through. -/
structure SeedRow where
  group : String
  subject : String
  subjectKind : String
  parent : String
  label : String
  url : String
  claimedGrade : ClaimedGrade
  relation : String
  note : String
  deriving DecidableEq

/-- `expected_min_grade`. -/
def SeedRow.expectedMinGrade (row : SeedRow) : Grade :=
  if (row.claimedGrade = .A ∨ row.claimedGrade = .Aarch ∨ row.claimedGrade = .B) ∧ row.relation =
    "official"
  then .B else .C

structure Lookalike where
  name : String
  names : List String
  locations : List String
  url : String
  why : String
  deriving DecidableEq

structure SeedSummary where
  entities : Nat
  assetsCreated : Nat
  assetsExisting : Nat
  evidence : Nat
  holdout : Nat
  canaries : Nat
  lookalikes : Nat
  skippedGroups : Nat
  suppressed : Nat
  personal : Nat
  leads : Nat
  canaryCollisions : List String
  groups : List String
  invalid : List String
  warnings : List String
  deriving DecidableEq

def SeedSummary.zero : SeedSummary := ⟨0, 0, 0, 0, 0, 0, 0, 0, 0, 0, 0, [], [], [], []⟩

/-- The arguments of `import_seed`. -/
structure SeedImport where
  rows : List SeedRow
  lookalikes : List Lookalike
  groups : List String
  holdoutPercent : Int
  source : String
  ownGroups : Option (List String)
  deriving DecidableEq

/-- What an import takes from outside: the number in a key's digest, what is suppressed or personal and
the texts' functions. In the rest `ρ` of the map: what is read before the first row, the entity of a row
with how many were added, the entity of a look-alike, the source of a seeded site, and the cleaned note
of a row. -/
structure SeedEnv (ρ : Type) extends AssetEnv where
  digest : String → Nat
  suppressed : String → Bool
  personal : ρ → SeedRow → AssetRef → Bool
  opened : SeedImport → ρ → ρ
  entity : ρ → SeedRow → (String × Nat) × ρ
  lookalikeEntity : ρ → Lookalike → ρ
  leadPage : ρ → AssetRef → String → String → Bool × ρ
  cleanNote : ρ → SeedRow → String
  strip : String → String
  lower : String → String

def GoldItem.asCanary (item : GoldItem) (entityName : String) : GoldItem :=
  { item with split := .canary, expectedMinGrade := .D, entityName := upTo 200 entityName }

namespace MapStore

/-- `add_gold`. -/
def addGold (store : MapStore) (item : GoldItem) : Bool × MapStore :=
  if store.gold.any (·.assetKey = item.assetKey) then (false, store)
  else (true, { store with gold := store.gold ++ [item] })

/-- `make_canary`. -/
def makeCanary (store : MapStore) (assetKey entityName : String) : Bool × MapStore :=
  let ordinary := fun item : GoldItem => Decidable.decide (item.assetKey = assetKey) && Decidable.decide
    (item.split ≠ .canary)
  (store.gold.any ordinary,
    { store with gold := updateIf ordinary (GoldItem.asCanary · entityName) store.gold })

end MapStore

/-- The map and the summary while an import runs. -/
structure Seeding (ρ : Type) where
  store : MapStore
  rest : ρ
  summary : SeedSummary

section
variable {ρ : Type} (env : SeedEnv ρ)

/-- `in_holdout`. -/
def inHoldout (assetKey : String) (percent : Int) : Bool :=
  decide ((env.digest assetKey % 100 : Nat) < max 0 (min percent 90))

def importRow (store : MapStore) (assetId : String) (kind : Kind) (polarity : Polarity)
    (detail source : String) : Evidence where
  evidenceId := env.newId store.evidence
  assetId := assetId
  kind := kind
  polarity := polarity
  sourceUrl := ""
  sourceAssetId := none
  detail := upTo 500 (env.withoutNames detail)
  channel := upTo 100 source
  observedVia := .import
  observedAt := env.stamp store.evidence

def canaryItem (ref : AssetRef) (lookalike : Lookalike) : GoldItem :=
  ⟨ref.key, upTo 200 lookalike.name, .canary, .D⟩

/-- `lookalike.why[:200] or lookalike.name`. -/
def Lookalike.detail (lookalike : Lookalike) : String :=
  if lookalike.why = "" then lookalike.name else upTo 200 lookalike.why

/-- A look-alike seeded earlier as an ordinary asset says so in its evidence. -/
def markLookalike (store : MapStore) (ref : AssetRef) (lookalike : Lookalike) (source : String) :
    MapStore :=
  match store.findAsset ref.key with
  | none => store
  | some existing =>
    if (store.evidenceFor existing.assetId).any (·.kind = .lookalike) then store
    else store.addEvidence (importRow env store existing.assetId .lookalike .refutes lookalike.detail
      source)

def lookalikeStep (source : String) (s : Seeding ρ) (lookalike : Lookalike) : Seeding ρ :=
  let s := { s with
    rest := env.lookalikeEntity s.rest lookalike
    summary := { s.summary with lookalikes := s.summary.lookalikes + 1 } }
  if lookalike.url = "" then s
  else match env.assetRef lookalike.url with
    | none => { s with summary := { s.summary with invalid := s.summary.invalid ++ [lookalike.url] } }
    | some ref =>
      let added := s.store.addGold (canaryItem ref lookalike)
      let made := if added.1 then added else added.2.makeCanary ref.key lookalike.name
      { s with
        store := markLookalike env made.2 ref lookalike source
        summary := if made.1 then { s.summary with canaries := s.summary.canaries + 1 } else s.summary }

def lookalikeKey (lookalike : Lookalike) : Option String :=
  if lookalike.url = "" then none else (env.assetRef lookalike.url).map (·.key)

/-- `canary_keys`. -/
def lookalikeKeys (call : SeedImport) : List String := call.lookalikes.filterMap (lookalikeKey env)

def setAside (s : Seeding ρ) (row : SeedRow) (ref : AssetRef) : Seeding ρ :=
  let added := s.store.addGold ⟨ref.key, upTo 200 row.subject, .holdout, row.expectedMinGrade⟩
  { s with
    store := added.2
    summary := if added.1 then { s.summary with holdout := s.summary.holdout + 1 } else s.summary }

def seedRow (source : String) (s : Seeding ρ) (row : SeedRow) (ref : AssetRef) : Seeding ρ :=
  let entity := env.entity s.rest row
  let gold := (s.store.addGold ⟨ref.key, upTo 200 row.subject, .seed, row.expectedMinGrade⟩).2
  let asset := gold.upsertAsset env.toAssetEnv ref (some entity.1.1) row.relation
  let detail := "claimed " ++ row.claimedGrade.text ++ ": " ++ env.cleanNote s.rest row
  let lead := if ref.platform = "website" ∧ ref.kind = "domain" then
      env.leadPage entity.2 ref entity.1.1 asset.1.1 else (false, entity.2)
  { store := asset.2.addEvidence (importRow env asset.2 asset.1.1 .importedClaim .supports detail source)
    rest := lead.2
    summary := { s.summary with
      entities := s.summary.entities + entity.1.2
      assetsCreated := s.summary.assetsCreated + if asset.1.2 then 1 else 0
      assetsExisting := s.summary.assetsExisting + if asset.1.2 then 0 else 1
      evidence := s.summary.evidence + 1
      leads := s.summary.leads + if lead.1 then 1 else 0 } }

/-- The summary of an import that leaves a row out, or what the row is about. -/
def screen (call : SeedImport) (canaryKeys : List String) (s : Seeding ρ) (row : SeedRow) :
    Except SeedSummary AssetRef :=
  let wanted := call.groups.map fun group => env.lower (env.strip group)
  if call.groups ≠ [] ∧ env.lower row.group ∉ wanted then
    .error { s.summary with skippedGroups := s.summary.skippedGroups + 1 }
  else match env.assetRef row.url with
    | none => .error { s.summary with invalid := s.summary.invalid ++ [row.url] }
    | some ref =>
      if ref.key ∈ canaryKeys then
        .error { s.summary with canaryCollisions := s.summary.canaryCollisions ++ [ref.key] }
      else if env.suppressed ref.key then
        .error { s.summary with suppressed := s.summary.suppressed + 1 }
      else if env.personal s.rest row ref then
        .error { s.summary with personal := s.summary.personal + 1 }
      else .ok ref

/-- `summary.groups`. -/
def withGroup (s : Seeding ρ) (row : SeedRow) : Seeding ρ :=
  if row.group ∈ s.summary.groups then s
  else { s with summary := { s.summary with groups := s.summary.groups ++ [row.group] } }

def rowStep (call : SeedImport) (canaryKeys : List String) (s : Seeding ρ) (row : SeedRow) : Seeding ρ :=
  match screen env call canaryKeys s row with
  | .error summary => { s with summary }
  | .ok ref =>
    if inHoldout env ref.key call.holdoutPercent then setAside (withGroup s row) row ref
    else seedRow env call.source (withGroup s row) row ref

def uncoveredWarning (lookalikes : List Lookalike) : List String :=
  let uncovered := (lookalikes.filter (·.url = "")).map (·.name)
  if uncovered = [] then []
  else [Nat.repr uncovered.length ++ " look-alike(s) have no canary URL: " ++
    String.intercalate ", " uncovered]

def seeding (call : SeedImport) (map : MapStore × ρ) : Seeding ρ :=
  ⟨map.1, env.opened call map.2, { SeedSummary.zero with warnings := uncoveredWarning call.lookalikes }⟩

/-- `import_seed`. -/
def importSeed (call : SeedImport) (map : MapStore × ρ) : SeedSummary × MapStore × ρ :=
  let start := seeding env call map
  let marked := call.lookalikes.foldl (lookalikeStep env call.source) start
  let done := call.rows.foldl (rowStep env call (lookalikeKeys env call)) marked
  (done.summary, done.store, done.rest)

def importAll (map : MapStore × ρ) (calls : List SeedImport) : MapStore × ρ :=
  calls.foldl (fun map call => (importSeed env call map).2) map

end

/-! ## What is known of one key -/

namespace MapStore

def splitOf (store : MapStore) (key : String) : Option Split :=
  (store.gold.find? (·.assetKey = key)).map (·.split)

def record (store : MapStore) (key : String) : Option (AssetRow × List Evidence) :=
  (store.findAsset key).map fun asset => (asset, store.evidenceFor asset.assetId)

/-- The asset of a key, and the claims that say it is what a sweep says it is. -/
def seeded (store : MapStore) (key : String) : Option (AssetRow × List Evidence) :=
  (store.record key).map fun r => (r.1, r.2.filter (·.kind = .importedClaim))

variable {store : MapStore} {key : String}

theorem splitOf_of_gold {store' : MapStore} (h : store'.gold = store.gold) (key : String) :
    store'.splitOf key = store.splitOf key := by
  unfold splitOf
  rw [h]

theorem seeded_of_record {store' : MapStore} (h : store'.record key = store.record key) :
    store'.seeded key = store.seeded key := by
  rw [seeded, seeded, h]

theorem record_addEvidence {asset : AssetRow} {row : Evidence} (hasset : asset ∈ store.assets)
    (hkey : asset.assetKey ≠ key) (hrow : row.assetId = asset.assetId) :
    (store.addEvidence row).record key = store.record key := by
  unfold record
  show (store.findAsset key).map _ = _
  rcases hfound : store.findAsset key with _ | found
  · rfl
  obtain ⟨hmem, hfoundKey⟩ := findAsset_spec hfound
  have hne : row.assetId ≠ found.assetId := by
    rw [hrow]
    exact assetId_ne hasset hmem (hfoundKey ▸ hkey)
  simp only [Option.map_some, evidenceFor, addEvidence, List.filter_append, List.filter_singleton,
    decide_eq_false hne, cond_false, List.append_nil]

/-! ## Gold items -/

theorem splitOf_addGold (store : MapStore) (item : GoldItem) (key : String) :
    (store.addGold item).2.splitOf key =
      if item.assetKey = key then some ((store.splitOf key).getD item.split) else store.splitOf key := by
  unfold addGold splitOf
  by_cases hany : store.gold.any (·.assetKey = item.assetKey) = true
  · rw [if_pos hany]
    by_cases hkey : item.assetKey = key
    · rw [if_pos hkey]
      subst hkey
      rcases hfound : store.gold.find? (·.assetKey = item.assetKey) with _ | found
      · obtain ⟨x, hx, hkey⟩ := List.any_eq_true.mp hany
        exact absurd hkey (List.find?_eq_none.mp hfound x hx)
      · simp only [hfound, Option.map_some, Option.getD_some]
    · rw [if_neg hkey]
  · rw [if_neg hany]
    have hnone : store.gold.find? (·.assetKey = item.assetKey) = none :=
      List.find?_eq_none.mpr fun x hx hx' => hany (List.any_eq_true.mpr ⟨x, hx, hx'⟩)
    show ((store.gold ++ [item]).find? _).map _ = _
    rw [List.find?_append, List.find?_singleton]
    by_cases hkey : item.assetKey = key
    · subst hkey
      rw [if_pos rfl, hnone]
      simp
    · rw [if_neg hkey, if_neg (by simpa using hkey), Option.or_none]

theorem splitOf_of_added {store : MapStore} {item : GoldItem} (h : (store.addGold item).1 = true)
    (hkey : item.assetKey = key) : (store.splitOf key).getD item.split = item.split := by
  unfold addGold at h
  split_ifs at h with hany
  have hnone : store.gold.find? (·.assetKey = key) = none :=
    List.find?_eq_none.mpr fun x hx hx' => hany (List.any_eq_true.mpr ⟨x, hx, hkey ▸ hx'⟩)
  unfold splitOf
  rw [hnone]
  rfl

theorem record_addGold (store : MapStore) (item : GoldItem) (key : String) :
    (store.addGold item).2.record key = store.record key := by
  unfold addGold
  split_ifs
  · rfl
  · rfl

theorem splitOf_makeCanary (store : MapStore) (assetKey entityName key : String) :
    (store.makeCanary assetKey entityName).2.splitOf key =
      if assetKey = key then (store.splitOf key).map fun _ => .canary else store.splitOf key := by
  have hkeeps : ∀ item : GoldItem, (item.asCanary entityName).assetKey = item.assetKey := fun _ => rfl
  unfold makeCanary splitOf
  simp only
  rw [find?_updateIf hkeeps, Option.map_map]
  rcases hfound : store.gold.find? (·.assetKey = key) with _ | found
  · simp [hfound]
  · have hkey : found.assetKey = key := by simpa using List.find?_some hfound
    by_cases hsame : assetKey = key
    · by_cases hcanary : found.split = .canary
      · simp [hfound, hsame, hcanary]
      · simp [hfound, hsame, hkey, hcanary, GoldItem.asCanary]
    · simp [hfound, hsame, hkey, Ne.symm hsame]

/-! ## Assets -/

theorem record_upsertAsset (env : AssetEnv) (store : MapStore) (ref : AssetRef)
    (entityId : Option String)
    (relation : String) (hne : key ≠ ref.key) :
    (store.upsertAsset env ref entityId relation).2.record key = store.record key := by
  obtain ⟨-, -, hevidence⟩ := upsertAsset_spec env store ref entityId relation
  unfold record evidenceFor
  rw [findAsset_upsertAsset, if_neg hne, hevidence]

end MapStore

/-! ## What each step does to one key -/

section
variable {ρ : Type} {env : SeedEnv ρ} {key : String} {a b c : MapStore}

def Untouched (key : String) (before after : MapStore) : Prop :=
  after.splitOf key = before.splitOf key ∧ after.record key = before.record key

/-- What rows do to a key, at a percentage: a new gold item is set aside or a seed, as the percentage
says, and only what is not set aside is written. -/
structure RowEffect (env : SeedEnv ρ) (percent : Int) (key : String) (before after : MapStore) :
    Prop where
  split : after.splitOf key = before.splitOf key ∨ before.splitOf key = none ∧
    after.splitOf key = some (if inHoldout env key percent then .holdout else .seed)
  written : after.record key = before.record key ∨
    inHoldout env key percent = false ∧ after.splitOf key ≠ none

/-- What a look-alike does to its own key. -/
structure Canary (key : String) (before after : MapStore) : Prop where
  split : after.splitOf key = some .canary
  seeded : after.seeded key = before.seeded key

theorem Untouched.rowEffect {percent : Int} (h : Untouched key a b) : RowEffect env percent key a b :=
  ⟨.inl h.1, .inl h.2⟩

theorem RowEffect.trans {percent : Int} (h : RowEffect env percent key a b)
    (h' : RowEffect env percent key b c) : RowEffect env percent key a c := by
  have hstays : b.splitOf key ≠ none → c.splitOf key = b.splitOf key := fun hb =>
    h'.split.resolve_right fun hnew => hb hnew.1
  constructor
  · rcases h.split with hsame | ⟨hnone, hnew⟩
    · rw [← hsame]
      exact h'.split
    · refine .inr ⟨hnone, ?_⟩
      rw [hstays (by rw [hnew]; exact Option.some_ne_none _), hnew]
  · rcases h'.written with hsame | hwritten
    · rw [hsame]
      refine h.written.imp_right fun hwritten => ⟨hwritten.1, ?_⟩
      rw [hstays hwritten.2]
      exact hwritten.2
    · exact .inr hwritten

end

section
variable {ρ : Type} (env : SeedEnv ρ) (key : String)

theorem setAside_effect {percent : Int} (s : Seeding ρ) (row : SeedRow) (ref : AssetRef)
    (hheld : inHoldout env ref.key percent = true) :
    RowEffect env percent key s.store (setAside s row ref).store ∧
      (key ≠ ref.key → Untouched key s.store (setAside s row ref).store) := by
  have hrecord : (setAside s row ref).store.record key = s.store.record key :=
    MapStore.record_addGold _ _ _
  have hsplit : (setAside s row ref).store.splitOf key = _ := MapStore.splitOf_addGold _ _ key
  by_cases hkey : key = ref.key
  · subst hkey
    rw [if_pos rfl] at hsplit
    refine ⟨⟨?_, .inl hrecord⟩, fun hne => absurd rfl hne⟩
    rw [hsplit]
    rcases s.store.splitOf ref.key with _ | split
    · exact .inr ⟨rfl, by rw [if_pos hheld]; rfl⟩
    · exact .inl rfl
  · rw [if_neg (Ne.symm hkey)] at hsplit
    have huntouched : Untouched key s.store (setAside s row ref).store := ⟨hsplit, hrecord⟩
    exact ⟨huntouched.rowEffect, fun _ => huntouched⟩

theorem seedRow_effect {percent : Int} (source : String) (s : Seeding ρ) (row : SeedRow) (ref : AssetRef)
    (hfree : inHoldout env ref.key percent = false) :
    RowEffect env percent key s.store (seedRow env source s row ref).store ∧
      (key ≠ ref.key → Untouched key s.store (seedRow env source s row ref).store) := by
  set gold := (s.store.addGold ⟨ref.key, upTo 200 row.subject, .seed, row.expectedMinGrade⟩).2 with hgold
  obtain ⟨⟨asset, hasset, hassetKey, hassetId⟩, hsame, -⟩ :=
    MapStore.upsertAsset_spec env.toAssetEnv gold ref (some (env.entity s.rest row).1.1) row.relation
  have hsplit : (seedRow env source s row ref).store.splitOf key = gold.splitOf key :=
    MapStore.splitOf_of_gold hsame key
  have hgoldSplit : gold.splitOf key = _ := MapStore.splitOf_addGold _ _ key
  have hgoldRecord : gold.record key = s.store.record key := MapStore.record_addGold _ _ _
  by_cases hkey : key = ref.key
  · subst hkey
    rw [if_pos rfl] at hgoldSplit
    refine ⟨⟨?_, .inr ⟨hfree, ?_⟩⟩, fun hne => absurd rfl hne⟩
    · rw [hsplit, hgoldSplit]
      rcases s.store.splitOf ref.key with _ | split
      · exact .inr ⟨rfl, by rw [hfree]; rfl⟩
      · exact .inl rfl
    · rw [hsplit, hgoldSplit]
      exact Option.some_ne_none _
  · rw [if_neg (Ne.symm hkey)] at hgoldSplit
    have huntouched : Untouched key s.store (seedRow env source s row ref).store := by
      refine ⟨hsplit.trans hgoldSplit, ?_⟩
      refine (MapStore.record_addEvidence hasset ?_ hassetId.symm).trans
        ((MapStore.record_upsertAsset _ _ _ _ _ hkey).trans hgoldRecord)
      rw [hassetKey]
      exact Ne.symm hkey
    exact ⟨huntouched.rowEffect, fun _ => huntouched⟩

theorem screen_ok {call : SeedImport} {canaryKeys : List String} {s : Seeding ρ} {row : SeedRow}
    {ref : AssetRef} (h : screen env call canaryKeys s row = .ok ref) : ref.key ∉ canaryKeys := by
  unfold screen at h
  simp only at h
  split_ifs at h
  split at h
  · cases h
  · split_ifs at h with hcanary
    rw [Except.ok.injEq] at h
    exact h ▸ hcanary

theorem store_withGroup (s : Seeding ρ) (row : SeedRow) : (withGroup s row).store = s.store := by
  unfold withGroup
  split_ifs
  · rfl
  · rfl

theorem rowStep_effect (call : SeedImport) (canaryKeys : List String) (s : Seeding ρ) (row : SeedRow) :
    RowEffect env call.holdoutPercent key s.store (rowStep env call canaryKeys s row).store ∧
      (key ∈ canaryKeys → Untouched key s.store (rowStep env call canaryKeys s row).store) := by
  unfold rowStep
  rcases hscreen : screen env call canaryKeys s row with summary | ref
  · exact ⟨⟨.inl rfl, .inl rfl⟩, fun _ => ⟨rfl, rfl⟩⟩
  have hother : key ∈ canaryKeys → key ≠ ref.key := fun hkey heq => screen_ok env hscreen (heq ▸ hkey)
  rw [← store_withGroup s row]
  simp only
  split_ifs with hheld
  · obtain ⟨heffect, huntouched⟩ := setAside_effect env key (withGroup s row) row ref hheld
    exact ⟨heffect, fun hkey => huntouched (hother hkey)⟩
  · obtain ⟨heffect, huntouched⟩ :=
      seedRow_effect env key call.source (withGroup s row) row ref (Bool.not_eq_true _ ▸ hheld)
    exact ⟨heffect, fun hkey => huntouched (hother hkey)⟩

theorem rows_effect (call : SeedImport) (canaryKeys : List String) (rows : List SeedRow)
    (s : Seeding ρ) :
    RowEffect env call.holdoutPercent key s.store (rows.foldl (rowStep env call canaryKeys) s).store ∧
      (key ∈ canaryKeys → Untouched key s.store (rows.foldl (rowStep env call canaryKeys) s).store) := by
  induction rows generalizing s with
  | nil => exact ⟨⟨.inl rfl, .inl rfl⟩, fun _ => ⟨rfl, rfl⟩⟩
  | cons row rows ih =>
    obtain ⟨hfirst, huntouched⟩ := rowStep_effect env key call canaryKeys s row
    obtain ⟨hrest, hlater⟩ := ih (rowStep env call canaryKeys s row)
    refine ⟨hfirst.trans hrest, fun hkey => ?_⟩
    exact ⟨(hlater hkey).1.trans (huntouched hkey).1, (hlater hkey).2.trans (huntouched hkey).2⟩

/-! ## Look-alikes -/

theorem markLookalike_effect (store : MapStore) (ref : AssetRef) (lookalike : Lookalike)
    (source : String) : (markLookalike env store ref lookalike source).gold = store.gold ∧
      (markLookalike env store ref lookalike source).seeded key = store.seeded key ∧
      (key ≠ ref.key → (markLookalike env store ref lookalike source).record key =
      store.record key) := by
  unfold markLookalike
  split
  · exact ⟨rfl, rfl, fun _ => rfl⟩
  rename_i existing hexisting
  obtain ⟨hmem, hkey⟩ := MapStore.findAsset_spec hexisting
  split_ifs with hmarked
  · exact ⟨rfl, rfl, fun _ => rfl⟩
  · refine ⟨rfl, ?_, fun hne => ?_⟩
    · unfold MapStore.seeded MapStore.record
      show ((store.findAsset key).map _).map _ = ((store.findAsset key).map _).map _
      rcases store.findAsset key with _ | found
      · rfl
      · simp only [Option.map_some, MapStore.evidenceFor, MapStore.addEvidence,
          List.filter_append, List.filter_filter]
        have hnone : [importRow env store existing.assetId .lookalike .refutes lookalike.detail
          source].filter
            (fun row => decide (row.kind = .importedClaim) && decide (row.assetId = found.assetId)) =
                [] := rfl
        rw [hnone, List.append_nil]
    · refine MapStore.record_addEvidence hmem ?_ rfl
      rw [hkey]
      exact Ne.symm hne

theorem lookalikeStep_effect (source : String) (s : Seeding ρ) (lookalike : Lookalike) :
    (lookalikeKey env lookalike ≠ some key →
        Untouched key s.store (lookalikeStep env source s lookalike).store) ∧
      (lookalikeKey env lookalike = some key →
        Canary key s.store (lookalikeStep env source s lookalike).store) := by
  unfold lookalikeStep lookalikeKey
  simp only
  by_cases hurl : lookalike.url = ""
  · rw [if_pos hurl, if_pos hurl]
    exact ⟨fun _ => ⟨rfl, rfl⟩, nofun⟩
  rw [if_neg hurl, if_neg hurl]
  rcases env.assetRef lookalike.url with _ | ref
  · exact ⟨fun _ => ⟨rfl, rfl⟩, nofun⟩
  simp only [Option.map_some, ne_eq, Option.some.injEq]
  set added := s.store.addGold (canaryItem ref lookalike) with hadded
  set made := if added.1 = true then added else added.2.makeCanary ref.key lookalike.name with hmade
  have haddedSplit : added.2.splitOf key =
      if ref.key = key then some ((s.store.splitOf key).getD .canary) else s.store.splitOf key :=
    MapStore.splitOf_addGold _ _ key
  have haddedRecord : added.2.record key = s.store.record key := MapStore.record_addGold _ _ _
  have hmadeRecord : made.2.record key = s.store.record key := by
    rw [hmade]
    split_ifs
    · exact haddedRecord
    · exact haddedRecord
  obtain ⟨hgold, hseeded, hothers⟩ := markLookalike_effect env key made.2 ref lookalike source
  have hsplit : (markLookalike env made.2 ref lookalike source).splitOf key = made.2.splitOf key :=
    MapStore.splitOf_of_gold hgold key
  refine ⟨fun hne => ⟨?_, ?_⟩, fun heq => ⟨?_, ?_⟩⟩
  · rw [if_neg hne] at haddedSplit
    rw [hsplit, hmade]
    split_ifs
    · exact haddedSplit
    · rw [MapStore.splitOf_makeCanary, if_neg hne]
      exact haddedSplit
  · rw [hothers (Ne.symm hne)]
    exact hmadeRecord
  · rw [if_pos heq] at haddedSplit
    rw [hsplit, hmade]
    split_ifs with hnew
    · rw [haddedSplit]
      exact congrArg some (MapStore.splitOf_of_added hnew heq)
    · rw [MapStore.splitOf_makeCanary, if_pos heq, haddedSplit]
      rfl
  · rw [hseeded]
    exact MapStore.seeded_of_record hmadeRecord

theorem lookalikes_effect (source : String) (lookalikes : List Lookalike) (s : Seeding ρ) :
    (key ∉ lookalikes.filterMap (lookalikeKey env) →
        Untouched key s.store (lookalikes.foldl (lookalikeStep env source) s).store) ∧
      (key ∈ lookalikes.filterMap (lookalikeKey env) →
        Canary key s.store (lookalikes.foldl (lookalikeStep env source) s).store) := by
  induction lookalikes generalizing s with
  | nil => exact ⟨fun _ => ⟨rfl, rfl⟩, nofun⟩
  | cons lookalike lookalikes ih =>
    obtain ⟨hother, hown⟩ := lookalikeStep_effect env key source s lookalike
    obtain ⟨hrestOther, hrestOwn⟩ := ih (lookalikeStep env source s lookalike)
    have hmem : key ∈ (lookalike :: lookalikes).filterMap (lookalikeKey env) ↔
        lookalikeKey env lookalike = some key ∨ key ∈ lookalikes.filterMap (lookalikeKey env) := by
      simp only [List.mem_filterMap, List.mem_cons, exists_eq_or_imp]
    rw [hmem, not_or]
    have hseeded : (lookalikeStep env source s lookalike).store.seeded key = s.store.seeded key := by
      by_cases hfirst : lookalikeKey env lookalike = some key
      · exact (hown hfirst).seeded
      · exact MapStore.seeded_of_record (hother hfirst).2
    refine ⟨fun hnot => ?_, fun hlisted => ?_⟩
    · obtain ⟨hsplit, hrecord⟩ := hrestOther hnot.2
      exact ⟨hsplit.trans (hother hnot.1).1, hrecord.trans (hother hnot.1).2⟩
    · by_cases hlater : key ∈ lookalikes.filterMap (lookalikeKey env)
      · exact ⟨(hrestOwn hlater).split, (hrestOwn hlater).seeded.trans hseeded⟩
      · obtain ⟨hsplit, hrecord⟩ := hrestOther hlater
        refine ⟨hsplit.trans (hown (hlisted.resolve_right hlater)).split, ?_⟩
        exact (MapStore.seeded_of_record hrecord).trans hseeded

/-! ## Imports -/

/-- An import makes what it lists as look-alikes canaries and claims nothing of them. -/
theorem importSeed_listed (call : SeedImport) (map : MapStore × ρ)
    (hkey : key ∈ lookalikeKeys env call) : Canary key map.1 (importSeed env call map).2.1 := by
  obtain ⟨hsplit, hseeded⟩ := (lookalikes_effect env key call.source call.lookalikes
    (seeding env call map)).2 hkey
  obtain ⟨hrows, hrecord⟩ := (rows_effect env key call (lookalikeKeys env call) call.rows _).2 hkey
  exact ⟨hrows.trans hsplit, (MapStore.seeded_of_record hrecord).trans hseeded⟩

theorem importSeed_unlisted (call : SeedImport) (map : MapStore × ρ)
    (hkey : key ∉ lookalikeKeys env call) : RowEffect env call.holdoutPercent key map.1
        (importSeed env call map).2.1 := by
  have hmarked := (lookalikes_effect env key call.source call.lookalikes
    (seeding env call map)).1 hkey
  exact hmarked.rowEffect.trans (rows_effect env key call (lookalikeKeys env call) call.rows _).1

end

section
variable {ρ : Type} {env : SeedEnv ρ} {key : String}

theorem inHoldout_mono {percent percent' : Int} (hle : percent ≤ percent')
    (h : inHoldout env key percent = true) : inHoldout env key percent' = true := by
  unfold inHoldout at h ⊢
  rw [decide_eq_true_iff] at h ⊢
  omega

theorem importAll_concat (env : SeedEnv ρ) (map : MapStore × ρ) (calls : List SeedImport)
    (call : SeedImport) :
    importAll env map (calls ++ [call]) = (importSeed env call (importAll env map calls)).2 := by
  rw [importAll, List.foldl_append]
  rfl

/-- Each import holds out at least what the earlier ones did and lists their look-alikes. -/
def Steady (env : SeedEnv ρ) (calls : List SeedImport) : Prop :=
  calls.Pairwise fun earlier later =>
    earlier.holdoutPercent ≤ later.holdoutPercent ∧ lookalikeKeys env earlier ⊆ lookalikeKeys env later

/-- Nothing was written for a key in the imports so far. -/
def Unwritten (env : SeedEnv ρ) (start : MapStore × ρ) (calls : List SeedImport) (key : String) : Prop :=
  ∀ done, done <+: calls → (importAll env start done).1.record key = start.1.record key

/-- What is known of a key after imports into a map without ground truth. -/
structure Reached (env : SeedEnv ρ) (start : MapStore × ρ) (calls : List SeedImport) (key : String) :
    Prop where
  unseen : (importAll env start calls).1.splitOf key = none → Unwritten env start calls key
  heldOut : (importAll env start calls).1.splitOf key = some .holdout →
    (∃ call ∈ calls, inHoldout env key call.holdoutPercent = true) ∧ Unwritten env start calls key
  canary : (importAll env start calls).1.splitOf key = some .canary →
    ∃ call ∈ calls, key ∈ lookalikeKeys env call

theorem Unwritten.concat {start : MapStore × ρ} {calls : List SeedImport} {call : SeedImport}
    (h : Unwritten env start calls key)
    (hstep : (importAll env start (calls ++ [call])).1.record key =
      (importAll env start calls).1.record key) :
    Unwritten env start (calls ++ [call]) key := by
  intro done hdone
  rcases List.prefix_concat_iff.mp hdone with rfl | hdone
  · exact hstep.trans (h calls (List.prefix_refl calls))
  · exact h done hdone

theorem reached {start : MapStore × ρ} (hstart : start.1.gold = []) (calls : List SeedImport)
    (hsteady : Steady env calls) (key : String) : Reached env start calls key := by
  induction calls using List.reverseRecOn with
  | nil =>
    have hnone : (importAll env start []).1.splitOf key = none := by
      show (start.1.gold.find? _).map _ = none
      rw [hstart]
      rfl
    refine ⟨fun _ done hdone => ?_, fun h => ?_, fun h => ?_⟩
    · rw [List.prefix_nil.mp hdone]
      rfl
    · cases hnone.symm.trans h
    · cases hnone.symm.trans h
  | append_singleton calls call ih =>
    obtain ⟨hearlier, -, hlater⟩ := List.pairwise_append.mp hsteady
    obtain ⟨hunseen, hheldOut, hcanary⟩ := ih hearlier
    have hlast : call ∈ calls ++ [call] := List.mem_append_right _ List.mem_cons_self
    have hafter := importAll_concat env start calls call
    by_cases hlisted : key ∈ lookalikeKeys env call
    · have hsplit := (importSeed_listed env key call (importAll env start calls) hlisted).split
      rw [← hafter] at hsplit
      refine ⟨fun h => ?_, fun h => ?_, fun _ => ⟨call, hlast, hlisted⟩⟩
      · cases hsplit.symm.trans h
      · cases hsplit.symm.trans h
    obtain ⟨hsplit, hwritten⟩ := importSeed_unlisted env key call (importAll env start calls) hlisted
    rw [← hafter] at hsplit hwritten
    refine ⟨fun h => ?_, fun h => ?_, fun h => ?_⟩
    · have hsame : (importAll env start calls).1.splitOf key = none := by
        rcases hsplit with hsame | ⟨hnone, -⟩
        · exact hsame ▸ h
        · exact hnone
      exact (hunseen hsame).concat (hwritten.resolve_right fun hseen => hseen.2 h)
    · rcases hsplit with hsame | ⟨hnone, hnew⟩
      · obtain ⟨⟨earlier, hmem, hheld⟩, hdone⟩ := hheldOut (hsame ▸ h)
        have hstill := inHoldout_mono (hlater earlier hmem call (List.mem_singleton_self _)).1 hheld
        refine ⟨⟨earlier, List.mem_append_left _ hmem, hheld⟩, hdone.concat (hwritten.resolve_right ?_)⟩
        exact fun hfree => Bool.false_ne_true (hfree.1.symm.trans hstill)
      · -- it was decided by this import
        have hheld : inHoldout env key call.holdoutPercent = true := by
          by_contra hfree
          rw [if_neg hfree] at hnew
          cases hnew.symm.trans h
        refine ⟨⟨call, hlast, hheld⟩, (hunseen hnone).concat (hwritten.resolve_right ?_)⟩
        exact fun hfree => Bool.false_ne_true (hfree.1.symm.trans hheld)
    · rcases hsplit with hsame | ⟨-, hnew⟩
      · obtain ⟨earlier, hmem, hkey⟩ := hcanary (hsame ▸ h)
        exact ⟨earlier, List.mem_append_left _ hmem, hkey⟩
      · have hnot := hnew.symm.trans h
        split_ifs at hnot <;> cases hnot

/-- What a sequence of imports leaves of ground truth. -/
structure GroundTruthKept (env : SeedEnv ρ) (start : MapStore × ρ) (calls : List SeedImport) : Prop where
  /-- A held-out key was written by no import. -/
  heldOut : ∀ point, point <+: calls → ∀ key, (importAll env start point).1.splitOf key = some .holdout →
    Unwritten env start point key
  /-- A canary is not seeded as genuine, by the import that makes it one or a later one. -/
  canary : ∀ point call, point ++ [call] <+: calls → ∀ key,
    (importAll env start point).1.splitOf key = some .canary ∨
      (importAll env start (point ++ [call])).1.splitOf key = some .canary →
    (importAll env start (point ++ [call])).1.seeded key = (importAll env start point).1.seeded key
  /-- A split is decided once, but for a key that is listed as a look-alike. -/
  split : ∀ point call, point ++ [call] <+: calls → ∀ key split,
    (importAll env start point).1.splitOf key = some split →
    (importAll env start (point ++ [call])).1.splitOf key = some split ∨
      key ∈ lookalikeKeys env call ∧ (importAll env start (point ++ [call])).1.splitOf key = some .canary

end

/-! ## Imports that do not keep it -/

/-- Keys are URLs, a digest is a length, and nothing is suppressed or personal. -/
def sampleEnv : SeedEnv Unit where
  parse := fun _ => some 0
  now := 0
  stamp := fun _ => ""
  newId := fun rows => String.ofList (List.replicate rows.length 'e')
  withoutNames := id
  round4 := id
  percent := fun _ => ""
  assetRef := fun url => some ⟨"website", "page", url, url, ""⟩
  digest := String.length
  suppressed := fun _ => false
  personal := fun _ _ _ => false
  opened := fun _ rest => rest
  entity := fun rest _ => (("entity", 0), rest)
  lookalikeEntity := fun rest _ => rest
  leadPage := fun rest _ _ _ => (false, rest)
  cleanNote := fun _ row => row.note
  strip := id
  lower := id
  newAssetId := longerId
  fresh := longerId_fresh
  unseen := longerId_unseen

def noAssets : MapStore := ⟨[], [], [], [], List.nodup_nil, List.nodup_nil⟩

/-- One row, one look-alike of the same URL, and imports of them. -/
def sampleRow : SeedRow := ⟨"g", "s", "institution", "", "", "k", .A, "official", ""⟩

def sampleLookalike : Lookalike := ⟨"l", [], [], "k", ""⟩

def importRows (percent : Int) : SeedImport := ⟨[sampleRow], [], [], percent, "sweep", none⟩

def importLookalikes : SeedImport := ⟨[], [sampleLookalike], [], 20, "sweep", none⟩

end GuruJi.Map
