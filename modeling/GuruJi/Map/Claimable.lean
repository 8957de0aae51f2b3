import GuruJi.Map.Placement

/-!
# Whose accounts an owner may confirm

The owner of an entity may confirm the accounts placed with it or with what stands under it, found by
following the parents of the account's entity; parents may lead in a circle or to no entity.

* `claimableWalk_eq`: the walk ends, and says whether it met the owner's entity;
* **`claimable_iff`**: an account may be confirmed iff it is not placed, or its entity is no look-alike
  and no role and the owner's entity stands above it or is it;
* `claimable_lookalike`: a look-alike under the owner's own entity.
-/

namespace GuruJi.Map

open GuruJi.Lib

/-- The loop of `claimable`, with nothing for an answer if the fuel is spent before it ends. -/
def claimableWalk (getEntity : String → Option MapEntity) (entityId : String)
    (ownerEntityId : Option String) : Nat → List String → Option String → Option Bool
  | 0, _, _ => none
  | fuel + 1, seen, current =>
    match truthy current with
    | none => some false
    | some id =>
      if id ∈ seen then some false
      else match getEntity id with
        | none => some false
        | some entity =>
          if id = entityId ∧ (entity.kind = .lookalike ∨ entity.kind = .role) then some false
          else if some id = ownerEntityId then some true
          else claimableWalk getEntity entityId ownerEntityId fuel (id :: seen) entity.link.parentId

section
variable (m : MapState)

def parentIn (id : String) : Option String :=
  (m.getEntity id).bind fun entity => truthy entity.link.parentId

/-- An entity of the map is another or is reached from it by links to parents. -/
def StandsOver (owner id : String) : Prop :=
  (m.getEntity owner).isSome = true ∧ ∃ k, up (parentIn m) (some id) k = some owner

end

section
variable {m : MapState} {entityId : String} {ownerEntityId : Option String}

theorem claimableLoop_of_walk {getEntity : String → Option MapEntity} {fuel : Nat} {seen : List String}
    {current : Option String} {answer : Bool}
    (h : claimableWalk getEntity entityId ownerEntityId fuel seen current = some answer) :
    claimableLoop getEntity entityId ownerEntityId fuel seen current = answer := by
  induction fuel generalizing seen current with
  | zero => cases h
  | succ fuel ih =>
    rw [claimableWalk] at h
    rw [claimableLoop]
    cases hcurrent : truthy current with
    | none =>
      rw [hcurrent] at h
      exact Option.some.inj h
    | some id =>
      rw [hcurrent] at h
      dsimp only at h ⊢
      by_cases hmem : id ∈ seen
      · rw [if_pos hmem] at h ⊢
        exact Option.some.inj h
      · rw [if_neg hmem] at h ⊢
        cases hrow : getEntity id with
        | none =>
          rw [hrow] at h
          exact Option.some.inj h
        | some entity =>
          rw [hrow] at h
          dsimp only at h ⊢
          split_ifs at h ⊢
          · exact Option.some.inj h
          · exact Option.some.inj h
          · exact ih h

/-- **The walk ends**, and says whether it met the owner's entity. -/
theorem claimableWalk_eq (hkind : ∀ entity, m.getEntity entityId = some entity →
      ¬(entity.kind = .lookalike ∨ entity.kind = .role))
    {fuel : Nat} {seen : List String} (hnodup : seen.Nodup)
    (hseen : seen ⊆ m.entities.map (·.entityId)) (hfuel : m.entities.length < fuel + seen.length)
    (current : Option String) :
    claimableWalk m.getEntity entityId ownerEntityId fuel seen current =
      some (decide (∃ owner ∈ walk (parentIn m) fuel seen (truthy current),
        ownerEntityId = some owner ∧ (m.getEntity owner).isSome = true)) := by
  induction fuel generalizing seen current with
  | zero =>
    have hle := (hnodup.subperm hseen).length_le
    rw [List.length_map] at hle
    omega
  | succ fuel ih =>
    rw [claimableWalk]
    cases hcurrent : truthy current with
    | none => simp
    | some id =>
      dsimp only
      by_cases hmem : id ∈ seen
      · rw [if_pos hmem, walk_seen hmem]
        simp
      · rw [if_neg hmem, walk_new hmem]
        cases hrow : m.getEntity id with
        | none =>
          have hparent : parentIn m id = none := by rw [parentIn, hrow, Option.bind_none]
          rw [hparent, walk_none]
          simp [hrow]
        | some entity =>
          have hparent : parentIn m id = truthy entity.link.parentId := by
            rw [parentIn, hrow, Option.bind_some]
          have hkept : ¬(id = entityId ∧ (entity.kind = .lookalike ∨ entity.kind = .role)) := by
            rintro ⟨rfl, hout⟩
            exact hkind entity hrow hout
          dsimp only
          rw [if_neg hkept, hparent]
          by_cases howner : some id = ownerEntityId
          · rw [if_pos howner, eq_comm, Option.some.injEq, decide_eq_true_eq]
            exact ⟨id, List.mem_cons_self, howner.symm, by rw [hrow]; rfl⟩
          · have hin : id :: seen ⊆ m.entities.map (·.entityId) :=
              List.cons_subset.mpr ⟨entityId_mem hrow, hseen⟩
            rw [if_neg howner, ih (List.nodup_cons.mpr ⟨hmem, hnodup⟩) hin
              (by rw [List.length_cons]; omega)]
            congr 1
            refine decide_eq_decide.mpr ⟨?_, ?_⟩
            · rintro ⟨owner, hmet, hfound⟩
              exact ⟨owner, List.mem_cons_of_mem id hmet, hfound⟩
            · rintro ⟨owner, hmet, heq, hsome⟩
              rcases List.mem_cons.mp hmet with rfl | hmet
              · exact absurd heq.symm howner
              · exact ⟨owner, hmet, heq, hsome⟩

/-- What stands above an entity and has a row is met: all of it has rows but the last. -/
theorem mem_walk_parents {fuel k : Nat} (hfuel : m.entities.length < fuel) {start : Option String}
    {id : String} (hup : up (parentIn m) start k = some id) :
    id ∈ walk (parentIn m) fuel [] start := by
  have hrow : ∀ {k : Nat} {id next : String}, up (parentIn m) start k = some id →
      up (parentIn m) start (k + 1) = some next → id ∈ m.entities.map (·.entityId) := by
    intro k id next hid hnext
    rw [up_succ, hid, Option.bind_some] at hnext
    cases hget : m.getEntity id with
    | none =>
      rw [parentIn, hget] at hnext
      cases hnext
    | some entity => exact entityId_mem hget
  have hbefore : ∀ {j k : Nat} {id : String}, j < k → up (parentIn m) start k = some id →
      ∃ other, up (parentIn m) start j = some other ∧ other ∈ m.entities.map (·.entityId) := by
    intro j k id hlt hid
    induction k generalizing id with
    | zero => omega
    | succ k ih =>
      have hid' := hid
      rw [up_succ] at hid'
      obtain ⟨other, hother, -⟩ := Option.bind_eq_some_iff.mp hid'
      rcases Nat.lt_or_eq_of_le (Nat.le_of_lt_succ hlt) with hlt | rfl
      · exact ih hlt hother
      · exact ⟨other, hother, hrow hother hid⟩
  refine (walk_complete_iff fuel start).mpr ?_ k id hup
  by_cases hall : ∀ k id, up (parentIn m) start k = some id → id ∈ m.entities.map (·.entityId)
  · exact ⟨m.entities.map (·.entityId), by rw [List.length_map]; omega, hall⟩
  · push Not at hall
    obtain ⟨j, last, hlast, hout⟩ := hall
    refine ⟨last :: m.entities.map (·.entityId), ?_, fun k id hid => ?_⟩
    · rw [List.length_cons, List.length_map]
      exact hfuel
    · rcases Nat.lt_trichotomy k j with hlt | rfl | hlt
      · obtain ⟨other, hother, hin⟩ := hbefore hlt hlast
        obtain rfl := Option.some.inj (hid.symm.trans hother)
        exact List.mem_cons_of_mem last hin
      · exact Option.some.inj (hid.symm.trans hlast) ▸ List.mem_cons_self
      · obtain ⟨other, hother, hin⟩ := hbefore hlt hid
        obtain rfl := Option.some.inj (hlast.symm.trans hother)
        exact absurd hin hout

/-- **The owner may confirm an account** iff it is not placed, or its entity is no look-alike and no
role, and the owner's entity is it or stands above it; the walk ends whatever the links are. -/
theorem claimable_iff (m : MapState) (entityId ownerEntityId : Option String) :
    (claimable m entityId ownerEntityId = true ↔ truthy entityId = none ∨ ∃ id entity owner,
      truthy entityId = some id ∧ m.getEntity id = some entity ∧
        ¬(entity.kind = .lookalike ∨ entity.kind = .role) ∧ ownerEntityId = some owner ∧
          StandsOver m owner id) ∧
      ∀ id ∈ truthy entityId, ∀ fuel, m.entities.length < fuel →
        claimableWalk m.getEntity id ownerEntityId fuel [] (some id) =
          some (claimable m entityId ownerEntityId) := by
  cases hplaced : truthy entityId with
  | none =>
    refine ⟨iff_of_true ?_ (.inl rfl), by simp⟩
    unfold claimable
    rw [hplaced]
  | some id =>
    obtain ⟨hid, hne⟩ := Option.filter_eq_some_iff.mp hplaced
    have hne : id ≠ "" := of_decide_eq_true hne
    have htruthy : truthy (some id) = some id := hid ▸ hplaced
    have hwalk : ∀ {fuel : Nat}, m.entities.length < fuel → ∀ {answer : Bool},
        claimableWalk m.getEntity id ownerEntityId fuel [] (some id) = some answer →
          claimable m entityId ownerEntityId = answer := by
      intro fuel hfuel answer h
      rw [hid, claimable_fuel hne hfuel.le]
      exact claimableLoop_of_walk h
    by_cases hkind : ∀ entity, m.getEntity id = some entity →
        ¬(entity.kind = .lookalike ∨ entity.kind = .role)
    · have hends : ∀ {fuel : Nat}, m.entities.length < fuel → _ := fun {fuel} hfuel =>
        @claimableWalk_eq m id ownerEntityId hkind fuel [] List.nodup_nil (List.nil_subset _) hfuel
            (some id)
      refine ⟨?_, fun id' hid' fuel hfuel => ?_⟩
      · rw [hwalk (Nat.lt_succ_self _) (hends (Nat.lt_succ_self _)), decide_eq_true_eq, htruthy]
        constructor
        · rintro ⟨owner, hmet, howner, hsome⟩
          obtain ⟨k, hk⟩ := up_of_mem_walk hmet
          right
          cases hrow : m.getEntity id with
          | none =>
            have hself : owner = id := by
              have hparent : parentIn m id = none := by rw [parentIn, hrow, Option.bind_none]
              cases k with
              | zero => exact (Option.some.inj hk).symm
              | succ k =>
                rw [up_some_succ, hparent, up_none] at hk
                cases hk
            rw [hself, hrow] at hsome
            cases hsome
          | some entity => exact ⟨id, entity, owner, rfl, hrow, hkind entity hrow, howner, hsome, k, hk⟩
        · rintro (hnone | ⟨id', entity, owner, hid', -, -, howner, hsome, k, hk⟩)
          · cases hnone
          · obtain rfl := Option.some.inj hid'
            exact ⟨owner, mem_walk_parents (Nat.lt_succ_self _) hk, howner, hsome⟩
      · obtain rfl := Option.some.inj hid'
        rw [hends hfuel, hwalk hfuel (hends hfuel)]
    · push Not at hkind
      obtain ⟨entity, hrow, hout⟩ := hkind
      have hends : ∀ {fuel : Nat}, m.entities.length < fuel →
          claimableWalk m.getEntity id ownerEntityId fuel [] (some id) = some false := by
        intro fuel hfuel
        obtain ⟨steps, rfl⟩ : ∃ steps, fuel = steps + 1 := ⟨fuel - 1, by omega⟩
        rw [claimableWalk, htruthy]
        dsimp only
        rw [if_neg List.not_mem_nil, hrow]
        exact if_pos ⟨rfl, hout⟩
      have hfalse := hwalk (Nat.lt_succ_self _) (hends (Nat.lt_succ_self _))
      refine ⟨iff_of_false (by rw [hfalse]; decide) ?_, fun id' hid' fuel hfuel => ?_⟩
      · rintro (hnone | ⟨id', entity', owner, hid', hrow', hkept, -⟩)
        · cases hnone
        · obtain rfl := Option.some.inj hid'
          obtain rfl := Option.some.inj (hrow.symm.trans hrow')
          exact hkept hout
      · obtain rfl := Option.some.inj hid'
        rw [hends hfuel, hfalse]

end

/-! ## A look-alike -/

/-- The institution and a look-alike that is placed under it. -/
def copiedMap : MapState where
  store := {
    assets := []
    evidence := []
    gold := []
    lookalikes := []
    ids := List.nodup_nil
    keys := List.nodup_nil }
  texts := fun _ => ⟨"", ""⟩
  entities := [⟨"bgscet", .institution, "BGSCET", [], [], ⟨none, ""⟩⟩,
    ⟨"copy", .lookalike, "BGSCET Bengaluru", [], [], ⟨some "bgscet", ""⟩⟩]
  suppressed := fun _ => false

/-- The walk from the institution. -/
theorem claimable_iff_college :
    claimableWalk copiedMap.getEntity "bgscet" (some "bgscet") 3 [] (some "bgscet") =
      some (claimable copiedMap (some "bgscet") (some "bgscet")) :=
  (claimable_iff copiedMap (some "bgscet") (some "bgscet")).2 "bgscet" (by decide) 3 (by decide)

/-- **A look-alike may not be claimed**, though the owner's entity stands over it. -/
theorem claimable_lookalike :
    claimable copiedMap (some "copy") (some "bgscet") = false ∧ StandsOver copiedMap "bgscet" "copy" :=
  ⟨by decide, by decide, 1, by decide⟩

end GuruJi.Map
