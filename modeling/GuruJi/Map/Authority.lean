import GuruJi.Lib.Chains
import GuruJi.Lib.Text
import GuruJi.Records.Canonical

/-!
# The authorities above an entity

An entity comes under the authority of every entity on its parent chain, and a decision about it is
for their approvers. `authorities` and `within` follow that chain, and stop at a parent that was seen,
or after `maxDepth` entities.

* `authoritiesLoop_eq`, `withinLoop_eq`: both loops read the entities of one bounded walk;
* `authorityOver_ok`: whom `authority_over` lets through;
* **`heard_iff`**: no decision escapes an authority above the entity iff no more than `maxDepth`
  entities stand above it;
* `authority_escapes`: a chain of thirteen.
-/

namespace GuruJi.Map

open GuruJi.Lib GuruJi.Records

/-- What the walk reads of an entity. -/
structure EntityLink where
  parentId : Option String
  authority : String
  deriving DecidableEq

/-- `SELF`. -/
def selfAuthority : String := "self"

/-- `_MAX_DEPTH`. -/
def maxDepth : Nat := 12

def truthy (text : Option String) : Option String := text.filter (· ≠ "")

/-- `str(entity.get("authority") or SELF)`. -/
def EntityLink.authorityOrSelf (entity : EntityLink) : String :=
  if entity.authority = "" then selfAuthority else entity.authority

/-- The loop of `authorities`: `fuel` is `_MAX_DEPTH - len(seen)`. -/
def authoritiesLoop (lookup : String → Option EntityLink) :
    Nat → List String → List String → Option String → List String
  | 0, _, found, _ => found
  | fuel + 1, seen, found, current =>
    match truthy current with
    | none => found
    | some id =>
      if id ∈ seen then found
      else match lookup id with
        | none => found
        | some entity =>
          let authority := entity.authorityOrSelf
          let found := if authority ≠ selfAuthority ∧ authority ∉ found then found ++ [authority] else
            found
          authoritiesLoop lookup fuel (id :: seen) found entity.parentId

/-- `authorities`. -/
def authorities (lookup : String → Option EntityLink) (entityId : Option String) : List String :=
  authoritiesLoop lookup maxDepth [] [] entityId

/-- The loop of `within`. -/
def withinLoop (lookup : String → Option EntityLink) (ancestorId : Option String) :
    Nat → List String → Option String → Bool
  | 0, _, _ => false
  | fuel + 1, seen, current =>
    match truthy current with
    | none => false
    | some id =>
      if id ∈ seen then false
      else if some id = ancestorId then true
      else withinLoop lookup ancestorId fuel (id :: seen) ((lookup id).bind (·.parentId))

/-- `within`. -/
def within (lookup : String → Option EntityLink) (entityId ancestorId : Option String) : Bool :=
  withinLoop lookup ancestorId maxDepth [] entityId

section
variable (N : Type) [Python N]

/-- `members`. -/
def members (mapping : List (String × List String)) (authority : String) : List String :=
  let normal := fun text => Python.lower N (Lib.strip (Python.isSpace N) text)
  (mapping.filter fun entry => normal entry.1 = normal authority).flatMap (·.2)

/-- `approves`. -/
def approves (approvers : List (String × List String)) (chain : List String) (principalId : String) :
    Option String :=
  chain.find? fun authority => principalId ∈ members N approvers authority

/-- One entity of the loop of `authority_over`. -/
def overStep (approvers : List (String × List String)) (lookup : String → Option EntityLink)
    (principalId : String) (found : Option String) (entityId : String) : Except String (Option String) :=
  match authorities lookup (some entityId) with
  | [] => .ok found
  | first :: rest =>
    if approves N approvers (first :: rest) principalId = none then
      .error ("this concerns an entity under the authority of " ++ Python.repr N first ++
        "; only its approvers (SAFFRON_INTELLIGENCE_ENTITY_APPROVERS) can decide it, others can only dismiss it")
    else .ok (found.or (some first))

/-- `MapService.authority_over`; the error is a `PermissionError`. -/
def authorityOver (approvers : List (String × List String)) (lookup : String → Option EntityLink)
    (principalId : String) (entityIds : List (Option String)) : Except String (Option String) :=
  (firsts truthy entityIds).foldlM (overStep N approvers lookup principalId) none

/-- `DEFERRING`. -/
def deferring : List String := ["dismiss", "acknowledge"]

/-- The check of `decide` before anything is written. -/
def decideAuthority (approvers : List (String × List String)) (lookup : String → Option EntityLink)
    (principalId decision : String) (relation itemEntity assetEntity : Option String) :
    Except String (Option String) :=
  if decision ∈ deferring ∧ truthy relation = none then .ok none
  else authorityOver N approvers lookup principalId [itemEntity, assetEntity]

end

/-! ## What is meant -/

def parentOf (lookup : String → Option EntityLink) (id : String) : Option String :=
  (lookup id).bind fun entity => truthy entity.parentId

/-- The entity `k` links above, the entity itself at none. -/
def ancestor (lookup : String → Option EntityLink) (entityId : Option String) (k : Nat) :
    Option String :=
  up (parentOf lookup) (truthy entityId) k

def brings (lookup : String → Option EntityLink) (id : String) : Option String :=
  (lookup id).bind fun entity =>
    if entity.authorityOrSelf = selfAuthority then none else some entity.authorityOrSelf

/-- The entity `k` links above comes under `authority`. -/
def Above (lookup : String → Option EntityLink) (entityId : Option String) (k : Nat)
    (authority : String) : Prop :=
  ∃ id, ancestor lookup entityId k = some id ∧ brings lookup id = some authority

/-- No authority above the entity is left out, and none is passed over by a decision. -/
structure Heard (N : Type) [Python N] (lookup : String → Option EntityLink) (entityId : Option String) :
    Prop where
  once : (authorities lookup entityId).Nodup
  exact : ∀ authority, authority ∈ authorities lookup entityId ↔ ∃ k, Above lookup entityId k authority
  nearest : (authorities lookup entityId).Pairwise fun a b =>
    ∀ k, Above lookup entityId k b → ∃ j < k, Above lookup entityId j a
  reached : ∀ other, within lookup entityId other = true ↔ ∃ k, ∃ id, other = some id ∧
    ancestor lookup entityId k = some id
  decided : ∀ approvers principalId decision relation itemEntity assetEntity found,
    (decision ∉ deferring ∨ truthy relation ≠ none) → (entityId = itemEntity ∨ entityId = assetEntity) →
      decideAuthority N approvers lookup principalId decision relation itemEntity assetEntity =
        .ok found → (∀ k authority, ¬Above lookup entityId k authority) ∨
          ∃ k authority, Above lookup entityId k authority ∧ principalId ∈ members N approvers authority

/-! ## Both loops follow one walk -/

section
variable {lookup : String → Option EntityLink}

abbrev chain (lookup : String → Option EntityLink) (entityId : Option String) : List String :=
  walk (parentOf lookup) maxDepth [] (truthy entityId)

theorem authoritiesLoop_eq (fuel : Nat) (seen found : List String) (current : Option String) :
    authoritiesLoop lookup fuel seen found current =
      (walk (parentOf lookup) fuel seen (truthy current)).foldl (meet (brings lookup)) found := by
  induction fuel generalizing seen found current with
  | zero => rw [walk_zero, authoritiesLoop, List.foldl_nil]
  | succ fuel ih =>
    rw [authoritiesLoop]
    rcases truthy current with _ | id
    · rw [walk_none, List.foldl_nil]
    show (if id ∈ seen then found else _) = _
    by_cases hseen : id ∈ seen
    · rw [if_pos hseen, walk_seen hseen, List.foldl_nil]
    rw [if_neg hseen, walk_new hseen, List.foldl_cons]
    rcases hlookup : lookup id with _ | entity
    · have hparent : parentOf lookup id = none := by rw [parentOf, hlookup, Option.bind_none]
      have hbrings : brings lookup id = none := by rw [brings, hlookup, Option.bind_none]
      rw [hparent, walk_none, List.foldl_nil, meet, hbrings]
    · have hparent : parentOf lookup id = truthy entity.parentId := by
        rw [parentOf, hlookup, Option.bind_some]
      rw [hparent]
      show authoritiesLoop lookup fuel (id :: seen) _ entity.parentId = _
      rw [ih]
      congr 1
      rw [meet, brings, hlookup, Option.bind_some]
      by_cases hself : entity.authorityOrSelf = selfAuthority
      · rw [if_pos hself, if_neg fun h => h.1 hself]
      · rw [if_neg hself]
        by_cases hmem : entity.authorityOrSelf ∈ found
        · rw [if_neg fun h => h.2 hmem]
          exact (if_pos hmem).symm
        · rw [if_pos ⟨hself, hmem⟩]
          exact (if_neg hmem).symm

theorem authorities_eq (lookup : String → Option EntityLink) (entityId : Option String) :
    authorities lookup entityId = firsts (brings lookup) (chain lookup entityId) :=
  authoritiesLoop_eq maxDepth [] [] entityId

theorem withinLoop_eq (ancestorId : Option String) (fuel : Nat) (seen : List String)
    (current : Option String) :
    withinLoop lookup ancestorId fuel seen current = true ↔
      ∃ id ∈ walk (parentOf lookup) fuel seen (truthy current), some id = ancestorId := by
  induction fuel generalizing seen current with
  | zero => simp [withinLoop]
  | succ fuel ih =>
    rw [withinLoop]
    rcases truthy current with _ | id
    · simp
    show (if id ∈ seen then false else _) = true ↔ _
    by_cases hseen : id ∈ seen
    · simp [if_pos hseen, walk_seen hseen]
    rw [if_neg hseen, walk_new hseen]
    simp only [List.mem_cons, exists_eq_or_imp]
    by_cases hid : some id = ancestorId
    · rw [if_pos hid]
      exact iff_of_true rfl (.inl hid)
    · have hparent : truthy ((lookup id).bind (·.parentId)) = parentOf lookup id := by
        rw [parentOf]
        rcases lookup id with _ | entity <;> rfl
      rw [if_neg hid, ih, hparent, or_iff_right hid]

theorem within_iff {entityId other : Option String} :
    within lookup entityId other = true ↔ ∃ id ∈ chain lookup entityId, some id = other :=
  withinLoop_eq other maxDepth [] entityId

theorem above_of_mem {entityId : Option String} {authority : String}
    (h : authority ∈ authorities lookup entityId) : ∃ k, Above lookup entityId k authority := by
  rw [authorities_eq] at h
  obtain ⟨id, hid, hbrings⟩ := mem_firsts.mp h
  obtain ⟨k, hk⟩ := up_of_mem_walk hid
  exact ⟨k, id, hk, hbrings⟩

end

/-! ## Whom a decision lets through -/

section
variable {N : Type} [Python N] {approvers : List (String × List String)}
  {lookup : String → Option EntityLink} {principalId : String}

/-- Nobody is above the entity, or the principal approves for one who is. -/
def MayDecide (N : Type) [Python N] (approvers : List (String × List String))
    (lookup : String → Option EntityLink) (principalId entityId : String) : Prop :=
  authorities lookup (some entityId) = [] ∨
    ∃ authority ∈ authorities lookup (some entityId), principalId ∈ members N approvers authority

theorem overStep_ok {found found' : Option String} {entityId : String}
    (h : overStep N approvers lookup principalId found entityId = .ok found') :
    MayDecide N approvers lookup principalId entityId := by
  rw [overStep] at h
  rcases hchain : authorities lookup (some entityId) with _ | ⟨first, rest⟩
  · exact .inl hchain
  · rw [hchain] at h
    simp only at h
    by_cases hnone : approves N approvers (first :: rest) principalId = none
    · rw [if_pos hnone] at h
      cases h
    · obtain ⟨authority, happroves⟩ := Option.ne_none_iff_exists'.mp hnone
      rw [approves] at happroves
      refine .inr ⟨authority, hchain ▸ List.mem_of_find?_eq_some happroves, ?_⟩
      have hmember := List.find?_some happroves
      exact of_decide_eq_true hmember

theorem foldlM_overStep_ok {ids : List String} {found found' : Option String}
    (h : ids.foldlM (overStep N approvers lookup principalId) found = .ok found') :
    ∀ id ∈ ids, MayDecide N approvers lookup principalId id := by
  induction ids generalizing found with
  | nil => exact fun id hid => absurd hid List.not_mem_nil
  | cons first rest ih =>
    rw [List.foldlM_cons] at h
    rcases hstep : overStep N approvers lookup principalId found first with error | next
    · rw [hstep] at h
      cases h
    · rw [hstep] at h
      exact List.forall_mem_cons.mpr ⟨overStep_ok hstep, ih h⟩

theorem authorityOver_ok {entityIds : List (Option String)} {found : Option String} {id : String}
    (h : authorityOver N approvers lookup principalId entityIds = .ok found)
    (hid : ∃ entityId ∈ entityIds, truthy entityId = some id) :
    MayDecide N approvers lookup principalId id :=
  foldlM_overStep_ok h id (mem_firsts.mpr hid)

end

/-! ## Chains that are followed to their end -/

section
variable {N : Type} [Python N] {lookup : String → Option EntityLink} {entityId : Option String}

def Complete (lookup : String → Option EntityLink) (entityId : Option String) : Prop :=
  ∀ k id, ancestor lookup entityId k = some id → id ∈ chain lookup entityId

theorem mem_authorities_iff (h : Complete lookup entityId) (authority : String) :
    authority ∈ authorities lookup entityId ↔ ∃ k, Above lookup entityId k authority := by
  refine ⟨above_of_mem, ?_⟩
  rintro ⟨k, id, hid, hbrings⟩
  rw [authorities_eq]
  exact mem_firsts.mpr ⟨id, h k id hid, hbrings⟩

theorem above_of_metAt {k : Nat} {authority : String}
    (h : MetAt (brings lookup) (chain lookup entityId) k authority) :
    Above lookup entityId k authority := by
  obtain ⟨id, hid, hbrings⟩ := h
  exact ⟨id, up_of_getElem?_walk hid, hbrings⟩

theorem authorities_nearest (h : Complete lookup entityId) :
    (authorities lookup entityId).Pairwise fun a b =>
      ∀ k, Above lookup entityId k b → ∃ j < k, Above lookup entityId j a := by
  rw [authorities_eq]
  refine (firsts_pairwise _).imp fun {a b} hab k hk => ?_
  obtain ⟨id, hid, hbrings⟩ := hk
  by_cases hlt : k < (chain lookup entityId).length
  · -- the entity `k` links above is the one met at `k`
    have hmet : MetAt (brings lookup) (chain lookup entityId) k b := by
      have hget := List.getElem?_eq_getElem hlt
      have hup : ancestor lookup entityId k = some (chain lookup entityId)[k] :=
        up_of_getElem?_walk hget
      rw [hid, Option.some.injEq] at hup
      exact ⟨_, hget, hup ▸ hbrings⟩
    obtain ⟨j, hj, ha⟩ := hab k hmet
    exact ⟨j, hj, above_of_metAt ha⟩
  · obtain ⟨i, hi⟩ := List.mem_iff_getElem?.mp (h k id hid)
    have hmet : MetAt (brings lookup) (chain lookup entityId) i b := ⟨id, hi, hbrings⟩
    obtain ⟨j, hj, ha⟩ := hab i hmet
    exact ⟨j, hj.trans (hmet.lt.trans_le (not_lt.mp hlt)), above_of_metAt ha⟩

theorem within_iff_ancestor (h : Complete lookup entityId) (other : Option String) :
    within lookup entityId other = true ↔ ∃ k, ∃ id, other = some id ∧
      ancestor lookup entityId k = some id := by
  rw [within_iff]
  constructor
  · rintro ⟨id, hid, rfl⟩
    obtain ⟨k, hk⟩ := up_of_mem_walk hid
    exact ⟨k, id, rfl, hk⟩
  · rintro ⟨k, id, rfl, hid⟩
    exact ⟨id, h k id hid, rfl⟩

theorem truthy_eq_some {text : Option String} {id : String} (h : truthy text = some id) :
    text = some id := (Option.filter_eq_some_iff.mp h).1

theorem decideAuthority_ok (h : Complete lookup entityId) {approvers : List (String × List String)}
    {principalId decision : String} {relation itemEntity assetEntity found : Option String}
    (hsettles : decision ∉ deferring ∨ truthy relation ≠ none)
    (hentity : entityId = itemEntity ∨ entityId = assetEntity)
    (hok : decideAuthority N approvers lookup principalId decision relation itemEntity assetEntity =
      .ok found) :
    (∀ k authority, ¬Above lookup entityId k authority) ∨
      ∃ k authority, Above lookup entityId k authority ∧
      principalId ∈ members N approvers authority := by
  rw [decideAuthority, if_neg fun hdefer => hsettles.elim (· hdefer.1) (· hdefer.2)] at hok
  rcases hid : truthy entityId with _ | id
  · refine .inl ?_
    rintro k authority ⟨above, habove, -⟩
    rw [ancestor, hid, up_none] at habove
    cases habove
  have hmem : ∃ e ∈ [itemEntity, assetEntity], truthy e = some id := by
    rcases hentity with rfl | rfl
    · exact ⟨_, List.mem_cons_self, hid⟩
    · exact ⟨_, List.mem_cons_of_mem _ List.mem_cons_self, hid⟩
  have hmay := authorityOver_ok hok hmem
  rw [MayDecide, ← truthy_eq_some hid] at hmay
  rcases hmay with hnone | ⟨authority, hauthority, hmember⟩
  · refine .inl fun k authority habove => ?_
    have hfound := (mem_authorities_iff h authority).mpr ⟨k, habove⟩
    rw [hnone] at hfound
    exact absurd hfound List.not_mem_nil
  · obtain ⟨k, hk⟩ := above_of_mem hauthority
    exact .inr ⟨k, authority, hk, hmember⟩

theorem heard_of_complete (h : Complete lookup entityId) : Heard N lookup entityId where
  once := by
    rw [authorities_eq]
    exact firsts_nodup _
  exact := mem_authorities_iff h
  nearest := authorities_nearest h
  reached := within_iff_ancestor h
  decided _ _ _ _ _ _ _ := decideAuthority_ok h

/-- **No decision escapes an authority above an entity** iff no more than `maxDepth` entities stand above
it, itself among them. -/
theorem heard_iff (lookup : String → Option EntityLink) (entityId : Option String) :
    Heard N lookup entityId ↔
      ∃ l : List String, l.length ≤ maxDepth ∧ ∀ k id, ancestor lookup entityId k = some id →
      id ∈ l := by
  rw [show (∃ l : List String, l.length ≤ maxDepth ∧
      ∀ k id, ancestor lookup entityId k = some id → id ∈ l) ↔ Complete lookup entityId from
    (walk_complete_iff maxDepth (truthy entityId)).symm]
  refine ⟨fun h k id hid => ?_, heard_of_complete⟩
  obtain ⟨met, hmet, heq⟩ := within_iff.mp ((h.reached (some id)).mpr ⟨k, id, rfl, hid⟩)
  rw [Option.some.injEq] at heq
  exact heq ▸ hmet

end

/-! ## A chain of thirteen -/

/-- Departments, one under the other, the last under the trust. -/
def departments (id : String) : Option EntityLink :=
  List.lookup id [("d0", ⟨some "d1", "self"⟩), ("d1", ⟨some "d2", "self"⟩), ("d2", ⟨some "d3", "self"⟩),
    ("d3", ⟨some "d4", "self"⟩), ("d4", ⟨some "d5", "self"⟩), ("d5", ⟨some "d6", "self"⟩),
    ("d6", ⟨some "d7", "self"⟩), ("d7", ⟨some "d8", "self"⟩), ("d8", ⟨some "d9", "self"⟩),
    ("d9", ⟨some "d10", "self"⟩), ("d10", ⟨some "d11", "self"⟩), ("d11", ⟨some "trust", "self"⟩),
    ("trust", ⟨none, "Mutt & Swamiji"⟩)]

/-- The trust is not among the authorities of `d0`, which is not found to be within it, and anyone may
decide about `d0`. -/
theorem authority_escapes :
    ¬(∀ lookup entityId, Heard ℚ lookup entityId) ∧
      authorities departments (some "d0") = [] ∧
      within departments (some "d0") (some "trust") = false ∧
      decideAuthority ℚ [] departments "reviewer" "confirm" none (some "d0") none = .ok none ∧
      Above departments (some "d0") 12 "Mutt & Swamiji" := by
  have habove : Above departments (some "d0") 12 "Mutt & Swamiji" :=
    ⟨"trust", by decide, by decide⟩
  have hnone : authorities departments (some "d0") = [] := by decide
  refine ⟨fun h => ?_, hnone, by decide, by decide, habove⟩
  have hfound := ((h departments (some "d0")).exact _).mpr ⟨12, habove⟩
  rw [hnone] at hfound
  exact absurd hfound List.not_mem_nil

end GuruJi.Map
