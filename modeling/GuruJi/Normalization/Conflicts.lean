import GuruJi.Lib.Table
import Mathlib.Data.Rat.Defs
import Mathlib.Algebra.Order.Field.Rat
import Mathlib.Tactic.Linarith

/-!
# Conflicting headers

`MappingEngine._resolve_conflicts`: of the headers proposed for one canonical field the strongest
keeps it, and each other falls back to an alternative that nobody holds, or is left unmapped. The
two loops demote one header after the other; `resolve_run` is the rule of both, and with it

* `resolve_unshared`: no field is held twice at the end;
* `resolve_keeps`: a header that is stronger than all others of its field is left as it was;
* `resolve_each`: what holds of every proposal and of what it is demoted to holds at the end.

Confidences are rationals; what rounding does to them is left out.
-/

namespace GuruJi.Normalization

open GuruJi.Lib

def defaultConfidenceThreshold : ℚ := 4 / 5

def minCandidateConfidence : ℚ := 2 / 5

inductive Method where
  | unmapped | heuristic | conflict | modelSuggestion | approvedProfile
  deriving DecidableEq

structure FieldMapping where
  sourceHeader : String
  canonicalField : Option String
  confidence : ℚ
  method : Method
  reason : String
  alternatives : List (String × ℚ)
  deriving DecidableEq

/-- The field that a header holds: `item.canonical_field`, if it is one. -/
def FieldMapping.field (item : FieldMapping) : Option String := item.canonicalField.filter (· ≠ "")

theorem field_eq_some {item : FieldMapping} {name : String} :
    item.field = some name ↔ item.canonicalField = some name ∧ name ≠ "" := by
  rw [FieldMapping.field, Option.filter_eq_some_iff]
  simp

/-- The headers that hold a field, by their position. -/
def held (proposals : List FieldMapping) : List (String × Nat) :=
  proposals.zipIdx.filterMap fun (item, index) => item.field.map (·, index)

def byField (proposals : List FieldMapping) : Table String (List Nat) :=
  (held proposals).foldl (fun table entry => table.push entry.1 entry.2) []

def confidenceAt (proposals : List FieldMapping) (index : Nat) : ℚ :=
  (proposals[index]?.map (·.confidence)).getD 0

/-- `max(indexes, key=...)`, the earliest of those that are equally strong. -/
def strongest (proposals : List FieldMapping) : List Nat → Nat
  | [] => 0
  | first :: rest => rest.foldl
      (fun best index => if confidenceAt proposals best < confidenceAt proposals index then index else
          best)
      first

/-- Who has claimed a field, and the proposals as they stand. -/
structure Claims where
  claimed : Table String Nat
  proposals : List FieldMapping

namespace Claims

def fallback (claims : Claims) (item : FieldMapping) : Option (String × ℚ) :=
  item.alternatives.find? fun alt =>
    (claims.claimed.get alt.1).isNone && decide (minCandidateConfidence ≤ alt.2)

/-- What becomes of a header whose field is held by a stronger one. -/
def demoted (claims : Claims) (name : String) (winner : Nat) (item : FieldMapping) : FieldMapping :=
  match claims.fallback item with
  | some alt =>
    { sourceHeader := item.sourceHeader, canonicalField := some alt.1,
      confidence := min alt.2 (defaultConfidenceThreshold - 1 / 20), method := .heuristic,
      reason := name ++ " already claimed; fell back to " ++ alt.1, alternatives := item.alternatives }
  | none =>
    { sourceHeader := item.sourceHeader, canonicalField := none, confidence := 0, method := .conflict,
      reason := name ++ " is already mapped from " ++
        (claims.proposals[winner]?.map (·.sourceHeader)).getD "",
      alternatives := (name, item.confidence) :: item.alternatives }

/-- One header of a field that `winner` holds. -/
def demote (name : String) (winner : Nat) (claims : Claims) (index : Nat) : Claims :=
  if index = winner then claims
  else
    match claims.proposals[index]? with
    | none => claims
    | some item =>
      { claimed := (claims.fallback item).elim claims.claimed fun alt => claims.claimed.assign alt.1 index
        proposals := claims.proposals.set index (claims.demoted name winner item) }

def settle (claims : Claims) (row : String × List Nat) : Claims :=
  row.2.foldl (demote row.1 ((claims.claimed.get row.1).getD 0)) claims

end Claims

/-- The strongest header of each field claims it. -/
def claim (proposals : List FieldMapping) : Claims :=
  ⟨(byField proposals).map fun row => (row.1, strongest proposals row.2), proposals⟩

/-- `_resolve_conflicts`. -/
def resolveConflicts (proposals : List FieldMapping) : List FieldMapping :=
  ((byField proposals).foldl Claims.settle (claim proposals)).proposals

/-! ## Who holds what -/

variable {proposals : List FieldMapping} {name : String} {i j : Nat} {item : FieldMapping}

theorem mem_held :
    (name, i) ∈ held proposals ↔ ∃ item, proposals[i]? = some item ∧ item.field = some name := by
  rw [held, List.mem_filterMap]
  constructor
  · rintro ⟨⟨item, index⟩, hmem, hentry⟩
    obtain ⟨field, hfield, heq⟩ := Option.map_eq_some_iff.mp hentry
    obtain ⟨rfl, rfl⟩ := Prod.mk.inj heq
    exact ⟨item, List.mem_zipIdx_iff_getElem?.mp hmem, hfield⟩
  · rintro ⟨item, hitem, hfield⟩
    exact ⟨(item, i), List.mem_zipIdx_iff_getElem?.mpr hitem,
      Option.map_eq_some_iff.mpr ⟨name, hfield, rfl⟩⟩

theorem nodup_byField : ((byField proposals).map Prod.fst).Nodup :=
  Table.nodup_keys_foldl_push _ _ _ List.nodup_nil

theorem getD_byField (proposals : List FieldMapping) (name : String) :
    ((byField proposals).get name).getD [] =
    ((held proposals).filter (·.1 = name)).map Prod.snd := by
  rw [byField, Table.getD_foldl_push]
  rfl

theorem mem_byField {indexes : List Nat} (h : (name, indexes) ∈ byField proposals) (i : Nat) :
    i ∈ indexes ↔ (name, i) ∈ held proposals := by
  have hget := getD_byField proposals name
  rw [Table.get_of_mem nodup_byField h, Option.getD_some] at hget
  rw [hget, List.mem_map]
  constructor
  · rintro ⟨⟨name', index⟩, hentry, rfl⟩
    obtain ⟨hmem, hname⟩ := List.mem_filter.mp hentry
    obtain rfl : name' = name := by simpa using hname
    exact hmem
  · intro hmem
    exact ⟨(name, i), List.mem_filter.mpr ⟨hmem, by simp⟩, rfl⟩

theorem exists_byField (h : (name, i) ∈ held proposals) :
    ∃ indexes, (name, indexes) ∈ byField proposals ∧ i ∈ indexes := by
  have hmem : i ∈ ((byField proposals).get name).getD [] := by
    rw [getD_byField, List.mem_map]
    exact ⟨(name, i), List.mem_filter.mpr ⟨h, by simp⟩, rfl⟩
  cases hget : (byField proposals).get name with
  | none =>
    rw [hget] at hmem
    cases hmem
  | some indexes =>
    rw [hget] at hmem
    exact ⟨indexes, Table.mem_of_get hget, hmem⟩

/-! ## The rule of the loops -/

namespace Claims
variable {claims : Claims} {winner index : Nat} {alt : String × ℚ}

theorem fallback_spec (h : claims.fallback item = some alt) :
    alt ∈ item.alternatives ∧ claims.claimed.get alt.1 = none ∧ minCandidateConfidence ≤ alt.2 := by
  have hprop := List.find?_some h
  rw [Bool.and_eq_true, decide_eq_true_eq, Option.isNone_iff_eq_none] at hprop
  exact ⟨List.mem_of_find?_eq_some h, hprop.1, hprop.2⟩

theorem get_demote {other : String} {holder : Nat} (h : claims.claimed.get other = some holder) :
    (claims.demote name winner index).claimed.get other = some holder := by
  unfold demote
  split_ifs
  · exact h
  · split
    · exact h
    · rename_i item hitem
      cases hfallback : claims.fallback item with
      | none => exact h
      | some alt =>
        show (claims.claimed.assign alt.1 index).get other = some holder
        rw [Table.get_assign, if_neg, h]
        rintro rfl
        rw [(fallback_spec hfallback).2.1] at h
        cases h

theorem getElem_demote (hne : index ≠ winner) : (claims.demote name winner index).proposals[i]? =
      if i = index then claims.proposals[i]?.map (claims.demoted name winner)
      else claims.proposals[i]? := by
  rw [demote, if_neg hne]
  cases hitem : claims.proposals[index]? with
  | none =>
    by_cases hi : i = index
    · rw [if_pos hi, hi, hitem]
      rfl
    · rw [if_neg hi]
  | some item =>
    show (claims.proposals.set index (claims.demoted name winner item))[i]? = _
    rw [List.getElem?_set]
    by_cases hi : i = index
    · subst hi
      have hlt := (List.getElem?_eq_some_iff.mp hitem).1
      rw [if_pos rfl, if_pos rfl, if_pos hlt, hitem]
      rfl
    · rw [if_neg hi, if_neg (Ne.symm hi)]

/-- A demoted header holds the alternative that it has claimed, if it holds anything. -/
theorem field_demoted {field : String} (hne : index ≠ winner)
    (hitem : claims.proposals[index]? = some item)
    (h : (claims.demoted name winner item).field = some field) :
    (claims.demote name winner index).claimed.get field = some index := by
  rw [demote, if_neg hne, hitem]
  unfold demoted at h
  cases hfallback : claims.fallback item with
  | none =>
    rw [hfallback] at h
    cases h
  | some alt =>
    rw [hfallback] at h
    have hfield : alt.1 = field := (Option.filter_eq_some_iff.mp h).1 |> Option.some.inj
    show ((claims.fallback item).elim claims.claimed fun alt =>
      claims.claimed.assign alt.1 index).get field = some index
    rw [hfallback, Option.elim_some, Table.get_assign, if_pos hfield.symm]

variable {I : Claims → List (String × Nat) → Prop}

def Steps (I : Claims → List (String × Nat) → Prop) : Prop :=
  ∀ claims name winner index rest, claims.claimed.get name = some winner →
    I claims ((name, index) :: rest) → I (claims.demote name winner index) rest

theorem foldl_demote (hstep : Steps I) {indexes : List Nat} {rest : List (String × Nat)}
    (hwinner : claims.claimed.get name = some winner)
    (h : I claims (indexes.map (name, ·) ++ rest)) :
    I (indexes.foldl (demote name winner) claims) rest ∧
      ∀ other holder, claims.claimed.get other = some holder →
        (indexes.foldl (demote name winner) claims).claimed.get other = some holder := by
  induction indexes generalizing claims with
  | nil => exact ⟨h, fun _ _ hother => hother⟩
  | cons index indexes ih =>
    obtain ⟨hrest, hgets⟩ := ih (get_demote hwinner) (hstep claims name winner index _ hwinner h)
    exact ⟨hrest, fun other holder hother => hgets other holder (get_demote hother)⟩

theorem foldl_settle (hstep : Steps I) {rows : Table String (List Nat)}
    (hrows : ∀ row ∈ rows, (claims.claimed.get row.1).isSome)
    (h : I claims (rows.flatMap fun row => row.2.map (row.1, ·))) :
    I (rows.foldl settle claims) [] := by
  induction rows generalizing claims with
  | nil => exact h
  | cons row rows ih =>
    obtain ⟨winner, hwinner⟩ := Option.isSome_iff_exists.mp (hrows row List.mem_cons_self)
    have hsettle : claims.settle row = row.2.foldl (demote row.1 winner) claims := by
      rw [settle, hwinner, Option.getD_some]
    rw [List.flatMap_cons] at h
    obtain ⟨hrest, hgets⟩ := foldl_demote hstep hwinner h
    rw [List.foldl_cons, hsettle]
    refine ih (fun other hother => ?_) hrest
    obtain ⟨holder, hholder⟩ :=
      Option.isSome_iff_exists.mp (hrows other (List.mem_cons_of_mem row hother))
    rw [hgets other.1 holder hholder]
    rfl

end Claims

/-- The headers of all fields, in the order in which they are settled. -/
def pairs (proposals : List FieldMapping) : List (String × Nat) :=
  (byField proposals).flatMap fun row => row.2.map (row.1, ·)

theorem mem_pairs : (name, i) ∈ pairs proposals ↔ (name, i) ∈ held proposals := by
  rw [pairs, List.mem_flatMap]
  constructor
  · rintro ⟨⟨name', indexes⟩, hrow, hmem⟩
    obtain ⟨index, hindex, heq⟩ := List.mem_map.mp hmem
    obtain ⟨rfl, rfl⟩ := Prod.mk.inj heq
    exact (mem_byField hrow index).mp hindex
  · intro hmem
    obtain ⟨indexes, hrow, hindex⟩ := exists_byField hmem
    exact ⟨(name, indexes), hrow, List.mem_map.mpr ⟨i, hindex, rfl⟩⟩

theorem get_claim {indexes : List Nat} (h : (name, indexes) ∈ byField proposals) :
    (claim proposals).claimed.get name = some (strongest proposals indexes) := by
  refine Table.get_of_mem ?_ (List.mem_map.mpr ⟨(name, indexes), h, rfl⟩)
  rw [claim, List.map_map]
  exact nodup_byField

/-- What each demotion preserves holds at the end. -/
theorem resolve_run {I : Claims → List (String × Nat) → Prop} (hstep : Claims.Steps I)
    (h : I (claim proposals) (pairs proposals)) :
    ∃ claimed, I ⟨claimed, resolveConflicts proposals⟩ [] := by
  refine ⟨((byField proposals).foldl Claims.settle (claim proposals)).claimed, ?_⟩
  refine Claims.foldl_settle hstep (fun row hrow => ?_) h
  rw [get_claim hrow]
  rfl

/-! ## No field is held twice -/

/-- A header that holds a field has claimed it, or is still to be settled with the one that has. -/
def Settling (claims : Claims) (pending : List (String × Nat)) : Prop :=
  ∀ i item name, claims.proposals[i]? = some item → item.field = some name →
    ∃ holder, claims.claimed.get name = some holder ∧ (holder = i ∨ (name, i) ∈ pending)

theorem settling_step : Claims.Steps Settling := by
  intro claims name winner index rest hwinner h i item field hitem hfield
  by_cases hindex : index = winner
  · rw [Claims.demote, if_pos hindex] at hitem ⊢
    obtain ⟨holder, hholder, hpending⟩ := h i item field hitem hfield
    refine ⟨holder, hholder, ?_⟩
    rcases hpending with hself | hpending
    · exact .inl hself
    · rcases List.mem_cons.mp hpending with heq | hrest
      · obtain ⟨rfl, rfl⟩ := Prod.mk.inj heq
        left
        rw [hwinner] at hholder
        exact (Option.some.inj hholder).symm.trans hindex.symm
      · exact .inr hrest
  · rw [Claims.getElem_demote hindex] at hitem
    by_cases hi : i = index
    · subst hi
      rw [if_pos rfl] at hitem
      obtain ⟨old, hold, rfl⟩ := Option.map_eq_some_iff.mp hitem
      exact ⟨i, Claims.field_demoted hindex hold hfield, .inl rfl⟩
    · rw [if_neg hi] at hitem
      obtain ⟨holder, hholder, hpending⟩ := h i item field hitem hfield
      refine ⟨holder, Claims.get_demote hholder, hpending.imp_right fun hmem => ?_⟩
      rcases List.mem_cons.mp hmem with heq | hrest
      · exact absurd (Prod.mk.inj heq).2 hi
      · exact hrest

theorem settling_claim (proposals : List FieldMapping) : Settling (claim proposals)
    (pairs proposals) := by
  intro i item name hitem hfield
  have hheld : (name, i) ∈ held proposals := mem_held.mpr ⟨item, hitem, hfield⟩
  obtain ⟨indexes, hrow, -⟩ := exists_byField hheld
  exact ⟨_, get_claim hrow, .inr (mem_pairs.mpr hheld)⟩

/-- **No field is held by two headers.** -/
theorem resolve_unshared {a b : FieldMapping} (ha : (resolveConflicts proposals)[i]? = some a)
    (hb : (resolveConflicts proposals)[j]? = some b) (hai : a.field = some name)
    (hbj : b.field = some name) : i = j := by
  obtain ⟨claimed, hend⟩ := resolve_run settling_step (settling_claim proposals)
  obtain ⟨holder, hholder, hi⟩ := hend i a name ha hai
  obtain ⟨holder', hholder', hj⟩ := hend j b name hb hbj
  have heq : holder = holder' := Option.some.inj (hholder.symm.trans hholder')
  rw [← hi.resolve_right List.not_mem_nil, ← hj.resolve_right List.not_mem_nil, heq]

/-! ## The strongest header keeps its field -/

/-- The header at a position is as it was, and claims its field against those still to be settled. -/
def Kept (position : Nat) (item : FieldMapping) (field : String) (claims : Claims)
    (pending : List (String × Nat)) : Prop :=
  claims.proposals[position]? = some item ∧ claims.claimed.get field = some position ∧
    ∀ name, (name, position) ∈ pending → name = field

theorem kept_step {position : Nat} {field : String} : Claims.Steps (Kept position item field) := by
  rintro claims name winner index rest hwinner ⟨hitem, hclaimed, hpending⟩
  refine ⟨?_, Claims.get_demote hclaimed, fun other hother =>
    hpending other (List.mem_cons_of_mem _ hother)⟩
  by_cases hindex : index = winner
  · rw [Claims.demote, if_pos hindex]
    exact hitem
  · rw [Claims.getElem_demote hindex, if_neg, hitem]
    rintro rfl
    obtain rfl := hpending name List.mem_cons_self
    rw [hclaimed] at hwinner
    exact hindex (Option.some.inj hwinner)

theorem strongest_eq {indexes : List Nat} (hi : i ∈ indexes)
    (hlt : ∀ j ∈ indexes, j ≠ i → confidenceAt proposals j < confidenceAt proposals i) :
    strongest proposals indexes = i := by
  have hfold : ∀ (rest : List Nat) (best : Nat), (best = i ∨ i ∈ rest) →
      (∀ j ∈ best :: rest, j ≠ i → confidenceAt proposals j < confidenceAt proposals i) →
      rest.foldl (fun best index =>
        if confidenceAt proposals best < confidenceAt proposals index then index else best) best =
          i := by
    intro rest
    induction rest with
    | nil => exact fun best hbest _ => hbest.resolve_right List.not_mem_nil
    | cons index rest ih =>
      intro best hbest hall
      rw [List.foldl_cons]
      by_cases hself : best = i
      · subst hself
        by_cases hindex : index = best
        · rw [hindex, ite_self]
          exact ih best (.inl rfl) fun j hj => hall j (by
            rcases List.mem_cons.mp hj with rfl | hj
            · exact List.mem_cons_self
            · exact List.mem_cons_of_mem _ (List.mem_cons_of_mem _ hj))
        · have hlt := hall index (by simp) hindex
          rw [if_neg (not_lt.mpr hlt.le)]
          exact ih best (.inl rfl) fun j hj => hall j (by
            rcases List.mem_cons.mp hj with rfl | hj
            · exact List.mem_cons_self
            · exact List.mem_cons_of_mem _ (List.mem_cons_of_mem _ hj))
      · have hmem := List.mem_cons.mp (hbest.resolve_left hself)
        by_cases hindex : i = index
        · have hlt := hall best List.mem_cons_self hself
          rw [hindex] at hlt
          rw [if_pos hlt]
          exact ih index (.inl hindex.symm) fun j hj => hall j (List.mem_cons_of_mem _ hj)
        · have hrest := hmem.resolve_left hindex
          split_ifs
          · exact ih index (.inr hrest) fun j hj => hall j (List.mem_cons_of_mem _ hj)
          · exact ih best (.inr hrest) fun j hj => hall j (by
              rcases List.mem_cons.mp hj with rfl | hj
              · exact List.mem_cons_self
              · exact List.mem_cons_of_mem _ (List.mem_cons_of_mem _ hj))
  cases indexes with
  | nil => cases hi
  | cons first rest => exact hfold rest first ((List.mem_cons.mp hi).imp_left Eq.symm) hlt

/-- **A header stronger than all others of its field** is left as it was. -/
theorem resolve_keeps (hitem : proposals[i]? = some item) (hfield : item.field = some name)
    (hstrong : ∀ j other, j ≠ i → proposals[j]? = some other → other.field = some name →
      other.confidence < item.confidence) : (resolveConflicts proposals)[i]? = some item := by
  have hheld : (name, i) ∈ held proposals := mem_held.mpr ⟨item, hitem, hfield⟩
  obtain ⟨indexes, hrow, hi⟩ := exists_byField hheld
  have hwinner : strongest proposals indexes = i := by
    refine strongest_eq hi fun j hj hne => ?_
    obtain ⟨other, hother, hname⟩ := mem_held.mp ((mem_byField hrow j).mp hj)
    rw [confidenceAt, confidenceAt, hother, hitem]
    exact hstrong j other hne hother hname
  have hstart : Kept i item name (claim proposals) (pairs proposals) := by
    refine ⟨hitem, by rw [get_claim hrow, hwinner], fun other hother => ?_⟩
    obtain ⟨item', hitem', hfield'⟩ := mem_held.mp (mem_pairs.mp hother)
    obtain rfl : item = item' := Option.some.inj (hitem.symm.trans hitem')
    exact Option.some.inj (hfield'.symm.trans hfield)
  obtain ⟨claimed, hend⟩ := resolve_run kept_step hstart
  exact hend.1

/-! ## What each proposal becomes -/

theorem resolve_each (P : Nat → FieldMapping → Prop)
    (hP : ∀ claims name winner index item, (∃ i, (name, i) ∈ held proposals) → P index item →
      P index (Claims.demoted claims name winner item))
    (h : ∀ index item, proposals[index]? = some item → P index item) :
    ∀ index item, (resolveConflicts proposals)[index]? = some item → P index item := by
  have hstep : Claims.Steps fun claims pending =>
      (∀ index item, claims.proposals[index]? = some item → P index item) ∧
        ∀ entry ∈ pending, ∃ i, (entry.1, i) ∈ held proposals := by
    rintro claims name winner index rest - ⟨hall, hheld⟩
    refine ⟨fun i item hitem => ?_, fun entry hentry => hheld entry (List.mem_cons_of_mem _ hentry)⟩
    by_cases hindex : index = winner
    · rw [Claims.demote, if_pos hindex] at hitem
      exact hall i item hitem
    · rw [Claims.getElem_demote hindex] at hitem
      split_ifs at hitem
      · obtain ⟨old, hold, rfl⟩ := Option.map_eq_some_iff.mp hitem
        exact hP claims name winner i old (hheld _ List.mem_cons_self) (hall i old hold)
      · exact hall i item hitem
  obtain ⟨claimed, hend⟩ := resolve_run hstep
    ⟨h, fun entry hentry => ⟨entry.2, mem_pairs.mp hentry⟩⟩
  exact hend.1

end GuruJi.Normalization
