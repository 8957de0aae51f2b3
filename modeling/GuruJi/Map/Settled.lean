import GuruJi.Map.Store

/-!
# A regrade, once more

* `regrade_regrade`: a regrade of the assets that were just regraded leaves every row as it is and
  returns no changes: the rows of the graded assets (`AssetRow.regrade_again`), and the accounts of
  their groups, whose dispute is settled by the first.
-/

namespace GuruJi.Map

open GuruJi.Lib

/-! ## One row -/

/-- An asset that was seen was seen one way or another. -/
def GradeResult.Seen (result : GradeResult) : Prop :=
  result.verifiedAt.isSome = true → result.verifiedVia.isSome = true

/-- Nothing is left to write of the status and of when the asset was verified. -/
def StatusSettled (asset : AssetRow) (result : GradeResult) (disputed : Bool) : Prop :=
  (newStatus asset result disputed).getD asset.status = asset.status ∧
    (named result.verifiedAt = true → result.verifiedAt = asset.lastVerifiedAt)

section
variable (stamp : String) (o : RegradeOptions) (disputed : Bool) {asset : AssetRow}
  {result : GradeResult}

theorem statusWrites_settled (h : StatusSettled asset result disputed) :
    statusWrites asset result disputed = [] := by
  have hconfirmed : ¬(named result.verifiedAt = true ∧ result.verifiedAt ≠ asset.lastVerifiedAt) :=
    fun hseen => hseen.2 (h.2 hseen.1)
  unfold statusWrites
  cases hnew : newStatus asset result disputed with
  | none => simp only [if_neg hconfirmed]
  | some s =>
    have hs : s = asset.status := by simpa [hnew] using h.1
    simp only [if_neg hconfirmed, hs, ne_eq, not_true_eq_false, if_false]

variable {after : AssetRow}

theorem perform_statusWrites_spec (hseen : result.Seen)
    (hafter : after = asset.perform stamp (statusWrites asset result disputed)) :
    after.status = (newStatus asset result disputed).getD asset.status ∧
      (named result.verifiedAt = true → result.verifiedAt = after.lastVerifiedAt) := by
  have hwrite : ∀ s, named result.verifiedAt = true →
      (asset.setStatus stamp s result.verifiedVia result.verifiedAt).lastVerifiedAt =
        result.verifiedAt := by
    intro s hnamed
    obtain ⟨seenAt, hat⟩ : ∃ seenAt, result.verifiedAt = some seenAt := by
      cases hat : result.verifiedAt with
      | none => simp [named, hat] at hnamed
      | some seenAt => exact ⟨seenAt, rfl⟩
    obtain ⟨via, hvia⟩ := Option.isSome_iff_exists.mp (hseen (by rw [hat]; rfl))
    rw [hvia, AssetRow.setStatus, if_pos hnamed, hat]
    rfl
  have hstatus : ∀ s, (asset.setStatus stamp s result.verifiedVia result.verifiedAt).status = s := by
    intro s
    cases hvia : result.verifiedVia <;> rfl
  have hconfirmed : ∀ row, row = asset.perform stamp
      (if named result.verifiedAt ∧ result.verifiedAt ≠ asset.lastVerifiedAt then
        [Write.status asset.status result.verifiedVia result.verifiedAt] else []) →
      row.status = asset.status ∧
        (named result.verifiedAt = true → result.verifiedAt = row.lastVerifiedAt) := by
    rintro row rfl
    split_ifs with h
    · exact ⟨hstatus asset.status, fun hnamed => (hwrite asset.status hnamed).symm⟩
    · refine ⟨rfl, fun hnamed => ?_⟩
      by_contra hne
      exact h ⟨hnamed, hne⟩
  subst hafter
  unfold statusWrites
  cases newStatus asset result disputed with
  | none => exact hconfirmed _ rfl
  | some s =>
    by_cases hs : s = asset.status
    · subst hs
      simpa using hconfirmed _ rfl
    · simp only [ne_eq, hs, not_false_eq_true, if_true]
      exact ⟨hstatus s, fun hnamed => (hwrite s hnamed).symm⟩

theorem perform_gradeWrites_status (asset row : AssetRow) (result : GradeResult) :
    (row.perform stamp (gradeWrites o asset result)).status = row.status ∧
      (row.perform stamp (gradeWrites o asset result)).lastVerifiedAt = row.lastVerifiedAt := by
  unfold gradeWrites
  by_cases hsame : result.grade = asset.grade
  · rw [if_pos hsame]
    split_ifs <;> exact ⟨rfl, rfl⟩
  · rw [if_neg hsame]
    cases isParked o asset result <;> exact ⟨rfl, rfl⟩

theorem regrade_status (hseen : result.Seen) (hafter : after = asset.regrade stamp o result disputed) :
    after.status = (newStatus asset result disputed).getD asset.status ∧
      (named result.verifiedAt = true → result.verifiedAt = after.lastVerifiedAt) := by
  have hsplit : asset.regrade stamp o result disputed =
      (asset.perform stamp (statusWrites asset result disputed)).perform stamp
        (gradeWrites o asset result) := List.foldl_append
  obtain ⟨hnew, hnamed⟩ := perform_statusWrites_spec stamp disputed hseen
    (rfl : asset.perform stamp (statusWrites asset result disputed) = _)
  obtain ⟨hstatus, hat⟩ := perform_gradeWrites_status stamp o asset
    (asset.perform stamp (statusWrites asset result disputed)) result
  rw [hafter, hsplit]
  exact ⟨hstatus.trans hnew, fun h => (hnamed h).trans hat.symm⟩

theorem newStatus_getD (h : after.status = (newStatus asset result disputed).getD asset.status) :
    (newStatus after result disputed).getD after.status = after.status := by
  unfold newStatus at h ⊢
  cases disputed with
  | true => exact h.symm
  | false =>
    simp only [Bool.false_eq_true, if_false] at h ⊢
    cases hresult : result.status with
    | some s =>
      rw [hresult] at h
      exact h.symm
    | none =>
      rw [hresult] at h
      by_cases hwas : asset.status = .disputed
      · have hnow : after.status = .unknown := by simpa [hwas] using h
        simp [hnow]
      · have hnow : after.status = asset.status := by simpa [hwas] using h
        simp [hnow, hwas]

theorem isStaleScore_current (row : AssetRow) (h : row.scorerVersion = some scorerVersion) :
    isStaleScore row = false := by
  simp [isStaleScore, h]

/-- A fall is found by the status that the asset had: a new one is no security status. -/
theorem isFall_of_status (hgrade : after.grade = asset.grade)
    (hstatus : after.status = (newStatus asset result disputed).getD asset.status)
    (h : isFall after result = true) : isFall asset result = true := by
  simp only [isFall, hgrade, Bool.and_eq_true, Bool.or_eq_true, decide_eq_true_eq] at h ⊢
  refine ⟨h.1, h.2.imp_right fun hsecurity => ?_⟩
  cases hresult : result.status with
  | some s =>
    rw [hresult] at hsecurity
    exact hsecurity
  | none =>
    simp only [hresult, Option.map_none, Option.getD_none] at hsecurity ⊢
    rw [hstatus, newStatus, hresult] at hsecurity
    cases disputed with
    | true => cases hsecurity
    | false =>
      by_cases hwas : asset.status = .disputed
      · simp [hwas, AssetStatus.isSecurity] at hsecurity
      · simpa [hwas] using hsecurity

theorem parkedRun_again (h : after.proposedRunId = parkedRun o asset) :
    parkedRun o after = parkedRun o asset := by
  rw [parkedRun, h]
  unfold parkedRun
  split_ifs <;> rfl

/-- The grade is settled by a regrade: published, or parked as it would be parked again. -/
theorem gradeWrites_again (stamp' : String) (hseen : result.Seen)
    (hafter : after = asset.regrade stamp o result disputed) :
    after.perform stamp' (gradeWrites o after result) = after ∧
      (result.grade ≠ after.grade → isParked o after result = true) := by
  have hstatus := (regrade_status stamp o disputed hseen hafter).1
  obtain ⟨status, seenAt, via, heq⟩ := regrade_eq stamp o asset result disputed
  rw [heq] at hafter
  by_cases hsame : result.grade = asset.grade
  · have hgrade : result.grade = after.grade := by
      rw [hafter, gradeWrites, if_pos hsame]
      split_ifs <;> exact hsame
    refine ⟨?_, fun hne => absurd hgrade hne⟩
    have hsettled : ¬(isStaleScore after = true ∨ result.reasons ≠ after.gradeReasons) := by
      rw [gradeWrites, if_pos hsame] at hafter
      split_ifs at hafter with hold
      · rw [hafter, isStaleScore_current _ rfl]
        simp [AssetRow.perform, Write.act, AssetRow.restampGrade]
      · rw [hafter]
        exact hold
    rw [gradeWrites, if_pos hgrade, if_neg hsettled]
    rfl
  · cases hpark : isParked o asset result with
    | false =>
      have hgrade : result.grade = after.grade := by
        rw [hafter, gradeWrites, if_neg hsame, hpark]
        rfl
      refine ⟨?_, fun hne => absurd hgrade hne⟩
      have hsettled : ¬(isStaleScore after = true ∨ result.reasons ≠ after.gradeReasons) := by
        rw [hafter, gradeWrites, if_neg hsame, hpark, isStaleScore_current _ rfl]
        simp [AssetRow.perform, Write.act, AssetRow.setGrade]
      rw [gradeWrites, if_pos hgrade, if_neg hsettled]
      rfl
    | true =>
      rw [gradeWrites, if_neg hsame, hpark, if_pos rfl] at hafter
      have hgrade : after.grade = asset.grade := by
        rw [hafter]
        rfl
      have hwaiting : after.waiting = true := by
        rw [hafter]
        rfl
      have hrun : parkedRun o after = parkedRun o asset := parkedRun_again o (by rw [hafter]; rfl)
      have hagain : isParked o after result = true := by
        unfold isParked at hpark ⊢
        rw [hwaiting, Bool.or_true, Bool.true_and]
        cases hproposed : o.proposed with
        | true => rfl
        | false =>
          simp only [hproposed, Bool.false_or, Bool.and_eq_true, Bool.not_eq_true',
            Bool.or_eq_false_iff] at hpark ⊢
          refine ⟨hpark.2.1, Bool.eq_false_iff.mpr fun hfall => ?_⟩
          rw [isFall_of_status disputed hgrade hstatus hfall] at hpark
          cases hpark.2.2
      refine ⟨?_, fun _ => hagain⟩
      have hne : result.grade ≠ after.grade := hgrade ▸ hsame
      rw [gradeWrites, if_neg hne, hagain, if_pos rfl, hrun, hafter]
      rfl

/-- **A row that was just regraded is left as it is.** -/
theorem AssetRow.regrade_again (stamp' : String) (hseen : result.Seen) :
    (asset.regrade stamp o result disputed).regrade stamp' o result disputed =
      asset.regrade stamp o result disputed := by
  obtain ⟨hstatus, hnamed⟩ := regrade_status stamp o disputed hseen
    (rfl : asset.regrade stamp o result disputed = _)
  have hsettled : StatusSettled (asset.regrade stamp o result disputed) result disputed :=
    ⟨newStatus_getD disputed hstatus, hnamed⟩
  rw [AssetRow.regrade, regradeAsset, statusWrites_settled disputed hsettled, List.nil_append]
  exact (gradeWrites_again stamp o disputed stamp' hseen rfl).1

end

/-! ## What a regrade returns -/

/-- An entry of the changes that a regrade returns. -/
structure Change where
  assetId : String
  assetKey : String
  before : Grade
  after : Grade
  reasons : List String
  deriving DecidableEq

namespace MapStore

/-- The assets a regrade is asked for, in the order it is asked for them. -/
def inOrder (store : MapStore) (assetIds : Option (List String)) : List AssetRow :=
  match assetIds with
  | none => store.assets
  | some ids => ids.eraseDups.filterMap fun assetId => store.assets.find? (·.assetId = assetId)

/-- What `regrade` returns. -/
def changes (store : MapStore) (env : MapEnv) (o : RegradeOptions)
    (assetIds : Option (List String)) : List Change :=
  (store.inOrder assetIds).filterMap fun a =>
    let result := store.result env (store.wanted assetIds) a
    if result.grade = a.grade ∨ isParked o a result = true then none
    else some ⟨a.assetId, a.assetKey, a.grade, result.grade, result.reasons⟩

end MapStore

/-! ## What a regrade leaves of a row -/

/-- The columns of a row that no regrade writes. -/
structure SameAccount (a b : AssetRow) : Prop where
  assetId : b.assetId = a.assetId
  entityId : b.entityId = a.entityId
  platform : b.platform = a.platform
  kind : b.kind = a.kind
  relation : b.relation = a.relation

theorem sameAccount_act (stamp : String) (w : Write) (a : AssetRow) : SameAccount a (w.act stamp a) := by
  cases w with
  | status s via seenAt => cases via <;> exact ⟨rfl, rfl, rfl, rfl, rfl⟩
  | restamp reasons => exact ⟨rfl, rfl, rfl, rfl, rfl⟩
  | grade g reasons proposed runId => cases proposed <;> exact ⟨rfl, rfl, rfl, rfl, rfl⟩

theorem sameAccount_perform (stamp : String) (ws : List Write) (a : AssetRow) :
    SameAccount a (a.perform stamp ws) := by
  induction ws generalizing a with
  | nil => exact ⟨rfl, rfl, rfl, rfl, rfl⟩
  | cons w ws ih =>
    have hw := sameAccount_act stamp w a
    have hws := ih (w.act stamp a)
    exact ⟨hws.assetId.trans hw.assetId, hws.entityId.trans hw.entityId,
      hws.platform.trans hw.platform, hws.kind.trans hw.kind, hws.relation.trans hw.relation⟩

theorem SameAccount.officialAccount {a b : AssetRow} (h : SameAccount a b) :
    b.officialAccount = a.officialAccount := by
  simp only [AssetRow.officialAccount, h.relation, h.kind, h.entityId]

theorem SameAccount.sameGroup {a b c d : AssetRow} (h : SameAccount a b) (h' : SameAccount c d) :
    b.sameGroup d = a.sameGroup c := by
  simp only [AssetRow.sameGroup, h.entityId, h.platform, h'.entityId, h'.platform]

theorem SameAccount.disputes {a b : AssetRow} (h : SameAccount a b) {gradeAt gradeAt' : AssetRow → Grade}
    (hgrade : gradeAt' b = gradeAt a) : disputes gradeAt' b = disputes gradeAt a := by
  simp only [Map.disputes, hgrade, h.officialAccount, h.platform]

theorem isDisputed_map {f : AssetRow → AssetRow} {peers : List AssetRow}
    {gradeAt gradeAt' : AssetRow → Grade} {a : AssetRow} (hf : ∀ b, SameAccount b (f b))
    (hpeers : ∀ b ∈ peers, gradeAt' (f b) = gradeAt b) (ha : gradeAt' (f a) = gradeAt a) :
    isDisputed (peers.map f) gradeAt' (f a) = isDisputed peers gradeAt a := by
  have hmembers : (peers.map f).filter (fun b => disputes gradeAt' b && b.sameGroup (f a)) =
      (peers.filter fun b => disputes gradeAt b && b.sameGroup a).map f := by
    rw [List.filter_map]
    congr 1
    refine List.filter_congr fun b hb => ?_
    rw [Function.comp_apply, (hf b).disputes (hpeers b hb), (hf b).sameGroup (hf a)]
  have hranks : ((peers.filter fun b => disputes gradeAt b && b.sameGroup a).map f).all
        (fun b => decide ((gradeAt' b).rank < Grade.Aarch.rank)) =
      (peers.filter fun b => disputes gradeAt b && b.sameGroup a).all
        fun b => decide ((gradeAt b).rank < Grade.Aarch.rank) := by
    rw [List.all_map, Bool.eq_iff_iff, List.all_eq_true, List.all_eq_true]
    refine forall₂_congr fun b hb => ?_
    rw [Function.comp_apply, hpeers b (List.mem_of_mem_filter hb)]
  simp only [isDisputed, hmembers, hranks, List.length_map, ha, (hf a).disputes ha]

namespace MapStore
variable {store : MapStore} {env env' : MapEnv} {o : RegradeOptions} {assetIds : Option (List String)}

def regraded (store : MapStore) (env : MapEnv) (o : RegradeOptions) (assetIds : Option (List String))
    (a : AssetRow) : AssetRow :=
  a.perform (env.stamp store.evidence) (ownUpdates a.assetId (store.regradeWrites env o assetIds))

theorem assets_eq_map : (store.regrade env o assetIds).assets =
    store.assets.map (store.regraded env o assetIds) := assets_regrade

theorem sameAccount_regraded (a : AssetRow) : SameAccount a (store.regraded env o assetIds a) :=
  sameAccount_perform _ _ a

theorem wanted_regrade : (store.regrade env o assetIds).wanted assetIds =
    (store.wanted assetIds).map (store.regraded env o assetIds) := by
  unfold wanted
  cases assetIds with
  | none => exact assets_eq_map
  | some ids =>
    simp only [assets_eq_map, List.filter_map]
    congr 1
    refine List.filter_congr fun a _ => ?_
    rw [Function.comp_apply, (sameAccount_regraded a).assetId]

theorem evidenceFor_regrade (assetId : String) :
    (store.regrade env o assetIds).evidenceFor assetId = store.evidenceFor assetId := by
  unfold evidenceFor
  rw [regrade_fields.1]

theorem map_assetId_regraded (rows : List AssetRow) :
    (rows.map (store.regraded env o assetIds)).map (·.assetId) = rows.map (·.assetId) := by
  rw [List.map_map]
  exact List.map_congr_left fun a _ => (sameAccount_regraded a).assetId

theorem foundBy_regrade (rows : List AssetRow) :
    (store.regrade env o assetIds).foundBy (rows.map (store.regraded env o assetIds)) =
      store.foundBy rows := by
  have hsources : (store.regrade env o assetIds).sources
      (rows.map (store.regraded env o assetIds)) = store.sources rows := by
    unfold sources
    rw [List.flatMap_map]
    simp only [evidenceFor_regrade, (sameAccount_regraded _).assetId]
  unfold foundBy
  rw [hsources]
  simp only [evidenceFor_regrade]

theorem result_regrade (hparse : env'.parse = env.parse) (hnow : env'.now = env.now)
    (rows : List AssetRow) (a : AssetRow) :
    (store.regrade env o assetIds).result env' (rows.map (store.regraded env o assetIds))
      (store.regraded env o assetIds a) = store.result env rows a := by
  have hasset : (store.regraded env o assetIds a).toAsset = a.toAsset := by
    unfold AssetRow.toAsset
    rw [(sameAccount_regraded a).assetId, (sameAccount_regraded a).kind]
  unfold result
  rw [hasset, foundBy_regrade, evidenceFor_regrade, (sameAccount_regraded a).assetId, hparse, hnow]

variable {a : AssetRow}

theorem mem_wanted_regrade (ha : a ∈ store.assets) :
    store.regraded env o assetIds a ∈ (store.regrade env o assetIds).wanted assetIds ↔
      a ∈ store.wanted assetIds := by
  rw [wanted_regrade, List.mem_map]
  constructor
  · rintro ⟨b, hb, heq⟩
    have hid : b.assetId = a.assetId := by
      rw [← (sameAccount_regraded b).assetId, heq, (sameAccount_regraded a).assetId]
    rwa [← eq_of_assetId (wanted_sublist.subset hb) ha hid]
  · exact fun h => ⟨a, h, rfl⟩

theorem peers_regrade (rows : List AssetRow) :
    (store.regrade env o assetIds).peers (rows.map (store.regraded env o assetIds)) =
      (store.peers rows).map (store.regraded env o assetIds) := by
  unfold peers
  rw [assets_eq_map, List.filter_map]
  congr 1
  refine List.filter_congr fun a _ => ?_
  have ha : SameAccount a (store.regraded env o assetIds a) := sameAccount_regraded a
  have hany : (rows.map (store.regraded env o assetIds)).any (fun g => g.officialAccount &&
      g.entityId = a.entityId && (g.platform = "" || g.platform = a.platform)) =
      rows.any fun g => g.officialAccount && g.entityId = a.entityId &&
        (g.platform = "" || g.platform = a.platform) := by
    rw [List.any_map]
    congr 1
    funext g
    have hg : SameAccount g (store.regraded env o assetIds g) := sameAccount_regraded g
    rw [Function.comp_apply, hg.officialAccount, hg.entityId, hg.platform]
  rw [Function.comp_apply, map_assetId_regraded, ha.assetId, ha.kind, ha.relation, ha.entityId,
    ha.platform, hany]

theorem grade_regraded (ha : a ∈ store.assets) (hout : a ∉ store.wanted assetIds) :
    (store.regraded env o assetIds a).grade = a.grade := by
  unfold regraded
  rcases perform_ungraded ha hout (env.stamp store.evidence) with h | ⟨-, h⟩ | ⟨-, h⟩ <;> rw [h]

theorem gradeAt_regrade (hparse : env'.parse = env.parse) (hnow : env'.now = env.now)
    (ha : a ∈ store.assets) :
    (store.regrade env o assetIds).gradeAt env' ((store.wanted assetIds).map
      (store.regraded env o assetIds)) (store.regraded env o assetIds a) =
        store.gradeAt env (store.wanted assetIds) a := by
  unfold gradeAt
  rw [map_assetId_regraded, (sameAccount_regraded a).assetId, result_regrade hparse hnow]
  split_ifs with hgraded
  · rfl
  · exact grade_regraded ha fun h => hgraded ((contains_wanted ha).mpr h)

theorem disputed_regrade (hparse : env'.parse = env.parse) (hnow : env'.now = env.now)
    (ha : a ∈ store.assets) :
    (store.regrade env o assetIds).disputed env' ((store.wanted assetIds).map
      (store.regraded env o assetIds)) (store.regraded env o assetIds a) =
        store.disputed env (store.wanted assetIds) a := by
  unfold disputed
  rw [peers_regrade]
  refine isDisputed_map sameAccount_regraded (fun b hb => ?_) (gradeAt_regrade hparse hnow ha)
  exact gradeAt_regrade hparse hnow (List.mem_of_mem_filter hb)

/-! ## Once more -/

theorem result_seen (rows : List AssetRow) (a : AssetRow) : (store.result env rows a).Seen := by
  intro h
  unfold result grade at h ⊢
  rw [Option.isSome_map] at h ⊢
  exact h

theorem peerWrites_again (stamp : String) (a : AssetRow) (disputed : Bool) :
    peerWrites (a.perform stamp (peerWrites a disputed)) disputed = [] := by
  by_cases hends : a.status = .disputed ∧ disputed = false
  · have hnow : (a.perform stamp (peerWrites a disputed)).status = .unknown := by
      rw [peerWrites, if_pos hends]
      rfl
    have hnone : ∀ b : AssetRow, b.status = .unknown → peerWrites b disputed = [] := fun b hb => by
      simp [peerWrites, hb, hends.2]
    exact hnone _ hnow
  · by_cases hbegins : disputed = true ∧ a.status ≠ .disputed
    · have hnow : (a.perform stamp (peerWrites a disputed)).status = .disputed := by
        rw [peerWrites, if_neg hends, if_pos hbegins]
        rfl
      have hnone : ∀ b : AssetRow, b.status = .disputed → peerWrites b disputed = [] := fun b hb => by
        simp [peerWrites, hb, hbegins.1]
      exact hnone _ hnow
    · have hnone : peerWrites a disputed = [] := by
        rw [peerWrites, if_neg hends, if_neg hbegins]
      rw [hnone]
      exact hnone

theorem regraded_again (hparse : env'.parse = env.parse) (hnow : env'.now = env.now)
    (ha : a ∈ store.assets) :
    (store.regrade env o assetIds).regraded env' o assetIds (store.regraded env o assetIds a) =
      store.regraded env o assetIds a := by
  have hmem : store.regraded env o assetIds a ∈ (store.regrade env o assetIds).assets := by
    rw [assets_eq_map]
    exact List.mem_map_of_mem ha
  by_cases hgraded : a ∈ store.wanted assetIds
  · have hagain : store.regraded env o assetIds a ∈
        (store.regrade env o assetIds).wanted assetIds := (mem_wanted_regrade ha).mpr hgraded
    have hrow : store.regraded env o assetIds a = a.regrade (env.stamp store.evidence) o
        (store.result env (store.wanted assetIds) a)
        (store.disputed env (store.wanted assetIds) a) := perform_graded hgraded _
    rw [regraded, perform_graded hagain, wanted_regrade, result_regrade hparse hnow,
      disputed_regrade hparse hnow ha, hrow]
    exact AssetRow.regrade_again _ o _ _ (result_seen _ a)
  · have hagain : store.regraded env o assetIds a ∉
        (store.regrade env o assetIds).wanted assetIds := mt (mem_wanted_regrade ha).mp hgraded
    have hpeer : store.regraded env o assetIds a ∈ (store.regrade env o assetIds).peers
        ((store.regrade env o assetIds).wanted assetIds) ↔
          a ∈ store.peers (store.wanted assetIds) := by
      rw [wanted_regrade, peers_regrade, List.mem_map]
      constructor
      · rintro ⟨b, hb, heq⟩
        have hid : b.assetId = a.assetId := by
          rw [← (sameAccount_regraded b).assetId, heq, (sameAccount_regraded a).assetId]
        rwa [← eq_of_assetId (List.mem_of_mem_filter hb) ha hid]
      · exact fun h => ⟨a, h, rfl⟩
    rw [regraded, ownUpdates_out env' o hmem hagain, wanted_regrade, disputed_regrade hparse hnow ha]
    split_ifs with hp
    · have hrow : store.regraded env o assetIds a = a.perform (env.stamp store.evidence)
          (peerWrites a (store.disputed env (store.wanted assetIds) a)) := by
        rw [wanted_regrade] at hpeer
        rw [regraded, ownUpdates_out env o ha hgraded, if_pos (hpeer.mp hp)]
      rw [hrow, peerWrites_again]
      rfl
    · rfl

theorem mem_wanted_of_mem_inOrder (h : a ∈ store.inOrder assetIds) : a ∈ store.wanted assetIds := by
  unfold inOrder at h
  unfold wanted
  cases assetIds with
  | none => exact h
  | some ids =>
    obtain ⟨assetId, hid, hfind⟩ := List.mem_filterMap.mp h
    have heq : a.assetId = assetId := by simpa using List.find?_some hfind
    refine List.mem_filter.mpr ⟨List.mem_of_find?_eq_some hfind, ?_⟩
    rw [heq, List.contains_iff_mem]
    exact List.mem_eraseDups.mp hid

end MapStore

/-- **A regrade of the assets that were just regraded changes nothing and returns no changes**: at
the same time and with the same options, whatever the clock of the store (`stamp`) says meanwhile. -/
theorem regrade_regrade (store : MapStore) (env : MapEnv) (stamp : List Evidence → String)
    (o : RegradeOptions) (assetIds : Option (List String)) :
    ((store.regrade env o assetIds).regrade { env with stamp := stamp } o assetIds).assets =
        (store.regrade env o assetIds).assets ∧
      (store.regrade env o assetIds).changes { env with stamp := stamp } o assetIds = [] := by
  set later : MapEnv := { env with stamp := stamp } with hlater
  have hparse : later.parse = env.parse := rfl
  have hnow : later.now = env.now := rfl
  constructor
  · have hsecond : ((store.regrade env o assetIds).regrade later o assetIds).assets =
        (store.regrade env o assetIds).assets.map
          ((store.regrade env o assetIds).regraded later o assetIds) := MapStore.assets_eq_map
    rw [hsecond, MapStore.assets_eq_map, List.map_map]
    exact List.map_congr_left fun a ha => MapStore.regraded_again hparse hnow ha
  · refine List.filterMap_eq_nil_iff.mpr fun b hb => ?_
    have hwanted := MapStore.mem_wanted_of_mem_inOrder hb
    rw [MapStore.wanted_regrade] at hwanted ⊢
    obtain ⟨a, ha, rfl⟩ := List.mem_map.mp hwanted
    have hrow : store.regraded env o assetIds a = a.regrade (env.stamp store.evidence) o
        (store.result env (store.wanted assetIds) a)
        (store.disputed env (store.wanted assetIds) a) := MapStore.perform_graded ha _
    rw [MapStore.result_regrade hparse hnow]
    refine if_pos ?_
    by_contra hchange
    rw [not_or] at hchange
    exact hchange.2 ((gradeWrites_again _ o _ "" (MapStore.result_seen _ a) hrow).2 hchange.1)

end GuruJi.Map
