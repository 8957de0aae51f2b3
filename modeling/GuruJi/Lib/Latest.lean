import GuruJi.Lib.Table
import Mathlib.Data.List.Induction
import Mathlib.Data.List.Sort

/-!
# Chronological logs

Logs of entries with keys of a linear order, oldest first. `latest p` is the last entry with a
property, `latestBy k` the last entry of each group and `sinceLast p` what comes after the last
entry with a property. What each of them returns is said in terms of the keys alone, so that it can
be compared between a log and a part of it (`latest_filter`). `newest n` is what a query with a limit
yields; it can be filtered afterwards only where nothing buries what is kept (`newest_filter_iff`).
-/

namespace GuruJi.Lib

variable {α ι κ : Type*}

/-- Sorted by a key, entries of one key in the order they came. -/
def sortBy [LinearOrder κ] (key : α → κ) (l : List α) : List α :=
  l.insertionSort fun a b => key a ≤ key b

abbrev Chronological [LinearOrder κ] (key : α → κ) (l : List α) : Prop :=
  l.Pairwise fun a b => key a < key b

def latest (p : α → Bool) (l : List α) : Option α := (l.filter p).getLast?

/-- The entries after the last one with a property, newest first. -/
def sinceLast (p : α → Bool) (l : List α) : List α := l.reverse.takeWhile fun a => !p a

/-- The last entry of each group: the values of the dictionary `{k(a): a for a in l}`. -/
def latestBy [DecidableEq ι] (k : α → ι) (l : List α) : List α :=
  (l.foldl (fun t a => Table.assign t (k a) a) []).map Prod.snd

/-! ## Sorting -/

section
variable [LinearOrder κ] {key : α → κ} {l : List α}

theorem mem_sortBy {a : α} : a ∈ sortBy key l ↔ a ∈ l := List.mem_insertionSort _

theorem sortBy_pairwise (key : α → κ) (l : List α) :
    (sortBy key l).Pairwise fun a b => key a ≤ key b := by
  have : Std.Total fun a b => key a ≤ key b := ⟨fun a b => le_total _ _⟩
  have : IsTrans α fun a b => key a ≤ key b := ⟨fun _ _ _ => le_trans⟩
  exact List.pairwise_insertionSort _ l

theorem chronological_sortBy (h : (l.map key).Nodup) : Chronological key (sortBy key l) := by
  have hne : (sortBy key l).Pairwise fun a b => key a ≠ key b := by
    have hperm := (List.perm_insertionSort (fun a b => key a ≤ key b) l).map key
    exact List.pairwise_map.mp (hperm.nodup_iff.mpr h)
  exact (sortBy_pairwise key l).imp₂ (fun _ _ hle hne => lt_of_le_of_ne hle hne) hne

theorem orderedInsert_filter (p : α → Bool) (a : α) (h : l.Pairwise fun a b => key a ≤ key b) :
    (l.orderedInsert (fun a b => key a ≤ key b) a).filter p =
      if p a then (l.filter p).orderedInsert (fun a b => key a ≤ key b) a else l.filter p := by
  induction l with
  | nil => cases hp : p a <;> simp [hp]
  | cons b l ih =>
    obtain ⟨hb, hl⟩ := List.pairwise_cons.mp h
    rw [List.orderedInsert_cons]
    split_ifs with hab hp hp
    · -- `a` is the least of what is left as well
      rw [List.filter_cons_of_pos hp]
      cases hfilter : (b :: l).filter p with
      | nil => rfl
      | cons c cs =>
        have hc : c ∈ b :: l := List.mem_of_mem_filter (hfilter ▸ List.mem_cons_self)
        have hac : key a ≤ key c := by
          rcases List.mem_cons.mp hc with rfl | hc
          · exact hab
          · exact hab.trans (hb c hc)
        rw [List.orderedInsert_cons, if_pos hac]
    · rw [List.filter_cons_of_neg hp]
    · cases hpb : p b with
      | true =>
        rw [List.filter_cons_of_pos hpb, List.filter_cons_of_pos hpb, List.orderedInsert_cons,
          if_neg hab, ih hl, if_pos hp]
      | false =>
        rw [List.filter_cons_of_neg (by simp [hpb]), List.filter_cons_of_neg (by simp [hpb]), ih hl,
          if_pos hp]
    · cases hpb : p b with
      | true =>
        rw [List.filter_cons_of_pos hpb, List.filter_cons_of_pos hpb, ih hl, if_neg hp]
      | false =>
        rw [List.filter_cons_of_neg (by simp [hpb]), List.filter_cons_of_neg (by simp [hpb]), ih hl,
          if_neg hp]

theorem sortBy_filter (p : α → Bool) (l : List α) :
    sortBy key (l.filter p) = (sortBy key l).filter p := by
  induction l with
  | nil => rfl
  | cons a l ih =>
    have hinsert := orderedInsert_filter p a (sortBy_pairwise key l)
    rw [sortBy, sortBy, List.insertionSort_cons]
    rw [sortBy] at hinsert
    rw [hinsert]
    rw [sortBy, sortBy] at ih
    split_ifs with hp
    · rw [List.filter_cons_of_pos hp, List.insertionSort_cons, ih]
    · rw [List.filter_cons_of_neg hp, ih]

end

/-! ## The newest entries -/

section
variable [LinearOrder κ]

/-- `ORDER BY key DESC`. -/
def newestFirst (key : α → κ) (l : List α) : List α := sortBy (fun a => OrderDual.toDual (key a)) l

/-- `ORDER BY key DESC LIMIT n`. -/
def newest (key : α → κ) (n : Nat) (l : List α) : List α := (newestFirst key l).take n

/-- None of the newest `n` entries lacks a property that an older one has. -/
def Unburied (p : α → Bool) (key : α → κ) (n : Nat) (l : List α) : Prop :=
  (∀ a ∈ newest key n l, p a = true) ∨ ∀ a ∈ (newestFirst key l).drop n, p a = false

theorem map_filter_take_iff {β : Type*} (f : α → β) (p : α → Bool) (n : Nat) (l : List α) :
    ((l.take n).filter p).map f = ((l.filter p).take n).map f ↔
      (∀ a ∈ l.take n, p a = true) ∨ ∀ a ∈ l.drop n, p a = false := by
  have hle : ((l.take n).filter p).length ≤ n :=
    (List.length_filter_le _ _).trans (List.length_take_le _ _)
  have hsplit : (l.filter p).take n =
      (l.take n).filter p ++ ((l.drop n).filter p).take (n - ((l.take n).filter p).length) := by
    conv_lhs => rw [← List.take_append_drop n l, List.filter_append]
    rw [List.take_append, List.take_of_length_le hle]
  have hrest : (l.drop n).filter p = [] ↔ ∀ a ∈ l.drop n, p a = false := by
    simp [List.filter_eq_nil_iff]
  rw [hsplit, List.map_append, List.self_eq_append_right, List.map_eq_nil_iff,
    List.take_eq_nil_iff, hrest, Nat.sub_eq_zero_iff_le]
  constructor
  · rintro (hfull | hrest)
    · -- a full page keeps all of its entries
      refine .inl (List.length_filter_eq_length_iff.mp (le_antisymm ?_ ?_))
      · exact List.length_filter_le _ _
      · exact (List.length_take_le _ _).trans hfull
    · exact .inr hrest
  · rintro (hall | hrest)
    · rcases le_or_gt n l.length with hn | hn
      · left
        rw [List.filter_eq_self.mpr hall, List.length_take_of_le hn]
      · right
        rw [List.drop_of_length_le hn.le]
        simp
    · exact .inr hrest

/-- **Filtering after a limit**: what is left of the newest entries are the newest of those that are
kept, exactly when nothing buries one of these. -/
theorem newest_filter_iff {β : Type*} (f : α → β) (p : α → Bool) (key : α → κ) (n : Nat)
    (l : List α) : ((newest key n l).filter p).map f = (newest key n (l.filter p)).map f ↔
      Unburied p key n l := by
  rw [newest, newest, newestFirst, newestFirst, sortBy_filter, map_filter_take_iff]
  rfl

end

/-! ## The latest entries -/

theorem latest_snoc (p : α → Bool) (l : List α) (a : α) :
    latest p (l ++ [a]) = if p a then some a else latest p l := by
  rw [latest, List.filter_append]
  split_ifs with hp
  · rw [List.filter_cons_of_pos hp, List.filter_nil, List.getLast?_concat]
  · rw [List.filter_cons_of_neg hp, List.filter_nil, List.append_nil, latest]

theorem mem_of_mem_snoc {l : List α} {p : α → Bool} {a b : α} (ha : p a = false)
    (hb : b ∈ l ++ [a]) (hp : p b = true) : b ∈ l := by
  refine (List.mem_append.mp hb).resolve_right fun hlast => ?_
  rw [List.mem_singleton.mp hlast, ha] at hp
  cases hp

section
variable [LinearOrder κ] {key : α → κ} {l : List α}

theorem Chronological.snoc {a : α} (h : Chronological key (l ++ [a])) :
    Chronological key l ∧ ∀ b ∈ l, key b < key a := by
  obtain ⟨hl, -, hlast⟩ := List.pairwise_append.mp h
  exact ⟨hl, fun b hb => hlast b hb a List.mem_cons_self⟩

theorem Chronological.eq_of_key_eq (h : Chronological key l) {a b : α} (ha : a ∈ l) (hb : b ∈ l)
    (hkey : key a = key b) : a = b := by
  have hnodup : (l.map key).Nodup := List.pairwise_map.mpr (h.imp fun hlt => hlt.ne)
  exact List.inj_on_of_nodup_map hnodup ha hb hkey

theorem latest_eq_some (h : Chronological key l) {p : α → Bool} {x : α} :
    latest p l = some x ↔ x ∈ l ∧ p x = true ∧ ∀ y ∈ l, p y = true → key y ≤ key x := by
  induction l using List.reverseRecOn with
  | nil => simp [latest]
  | append_singleton l a ih =>
    obtain ⟨hl, hlast⟩ := h.snoc
    rw [latest_snoc]
    split_ifs with hp
    · constructor
      · rintro hx
        obtain rfl := Option.some.inj hx
        refine ⟨by simp, hp, fun y hy _ => ?_⟩
        rcases List.mem_append.mp hy with hy | hy
        · exact (hlast y hy).le
        · exact (congrArg key (List.mem_singleton.mp hy)).le
      · rintro ⟨hx, -, hmax⟩
        rcases List.mem_append.mp hx with hx | hx
        · exact absurd (hmax a (by simp) hp) (hlast x hx).not_ge
        · rw [List.mem_singleton.mp hx]
    · rw [ih hl]
      constructor
      · rintro ⟨hx, hpx, hmax⟩
        refine ⟨List.mem_append_left _ hx, hpx, fun y hy hpy => ?_⟩
        rcases List.mem_append.mp hy with hy | hy
        · exact hmax y hy hpy
        · exact absurd (List.mem_singleton.mp hy ▸ hpy) hp
      · rintro ⟨hx, hpx, hmax⟩
        rcases List.mem_append.mp hx with hx | hx
        · exact ⟨hx, hpx, fun y hy => hmax y (List.mem_append_left _ hy)⟩
        · exact absurd (List.mem_singleton.mp hx ▸ hpx) hp

theorem exists_newest (key : α → κ) {l : List α} {p : α → Bool} (h : ∃ x ∈ l, p x = true) :
    ∃ x ∈ l, p x = true ∧ ∀ y ∈ l, p y = true → key y ≤ key x := by
  induction l with
  | nil =>
    obtain ⟨x, hx, -⟩ := h
    cases hx
  | cons a l ih =>
    by_cases hrest : ∃ x ∈ l, p x = true
    · obtain ⟨x, hx, hpx, hmax⟩ := ih hrest
      by_cases ha : p a = true ∧ key x ≤ key a
      · refine ⟨a, List.mem_cons_self, ha.1, List.forall_mem_cons.mpr ⟨fun _ => le_rfl, ?_⟩⟩
        exact fun y hy hpy => (hmax y hy hpy).trans ha.2
      · refine ⟨x, List.mem_cons_of_mem a hx, hpx, List.forall_mem_cons.mpr ⟨fun hpa => ?_, hmax⟩⟩
        exact (not_le.mp fun hle => ha ⟨hpa, hle⟩).le
    · have hnone : ∀ y ∈ l, ¬p y = true := fun y hy hpy => hrest ⟨y, hy, hpy⟩
      obtain ⟨x, hx, hpx⟩ := h
      rcases List.mem_cons.mp hx with rfl | hx
      · exact ⟨x, List.mem_cons_self, hpx, List.forall_mem_cons.mpr
          ⟨fun _ => le_rfl, fun y hy hpy => absurd hpy (hnone y hy)⟩⟩
      · exact absurd hpx (hnone x hx)

theorem latest_eq_none {p : α → Bool} : latest p l = none ↔ ∀ y ∈ l, p y = false := by
  rw [latest, List.getLast?_eq_none_iff, List.filter_eq_nil_iff]
  simp

/-- **What a part of a log says last**: the last entry with a property is the last one of any part
that keeps it. -/
theorem latest_filter (h : Chronological key l) {p kept : α → Bool}
    (hkept : ∀ x ∈ l, p x = true → (∀ y ∈ l, p y = true → key y ≤ key x) → kept x = true) :
    latest p (l.filter kept) = latest p l := by
  cases hlast : latest p l with
  | none =>
    refine latest_eq_none.mpr fun y hy => ?_
    exact latest_eq_none.mp hlast y (List.mem_of_mem_filter hy)
  | some x =>
    obtain ⟨hx, hp, hmax⟩ := (latest_eq_some h).mp hlast
    refine (latest_eq_some (h.filter _)).mpr ⟨?_, hp, fun y hy => ?_⟩
    · exact List.mem_filter.mpr ⟨hx, hkept x hx hp hmax⟩
    · exact hmax y (List.mem_of_mem_filter hy)

theorem mem_sinceLast (h : Chronological key l) {p : α → Bool} {x : α} :
    x ∈ sinceLast p l ↔ x ∈ l ∧ ∀ y ∈ l, p y = true → key y < key x := by
  induction l using List.reverseRecOn with
  | nil => simp [sinceLast]
  | append_singleton l a ih =>
    obtain ⟨hl, hlast⟩ := h.snoc
    rw [sinceLast, List.reverse_append, List.reverse_singleton, List.singleton_append,
      List.takeWhile_cons]
    cases hp : p a with
    | true =>
      simp only [Bool.not_true, Bool.false_eq_true, if_false, List.not_mem_nil, false_iff, not_and]
      intro hx hall
      have hax := hall a (by simp) hp
      rcases List.mem_append.mp hx with hx | hx
      · exact lt_asymm hax (hlast x hx)
      · rw [List.mem_singleton.mp hx] at hax
        exact lt_irrefl _ hax
    | false =>
      rw [sinceLast] at ih
      simp only [Bool.not_false, if_true, List.mem_cons, ih hl, List.mem_append, List.not_mem_nil,
        or_false]
      constructor
      · rintro (rfl | ⟨hx, hall⟩)
        · refine ⟨.inr rfl, fun y hy hpy => ?_⟩
          rcases hy with hy | rfl
          · exact hlast y hy
          · simp [hp] at hpy
        · refine ⟨.inl hx, fun y hy hpy => ?_⟩
          rcases hy with hy | rfl
          · exact hall y hy hpy
          · simp [hp] at hpy
      · rintro ⟨hx | rfl, hall⟩
        · exact .inr ⟨hx, fun y hy => hall y (.inl hy)⟩
        · exact .inl rfl

theorem Chronological.exists_last (h : Chronological key l) {P : α → Prop} (hP : ∃ x ∈ l, P x) :
    ∃ x ∈ l, P x ∧ ∀ y ∈ l, P y → key y ≤ key x := by
  classical
  obtain ⟨x, hx, hp⟩ := hP
  cases hlast : latest (fun a => decide (P a)) l with
  | none => simpa [hp] using latest_eq_none.mp hlast x hx
  | some m =>
    obtain ⟨hm, hpm, hmax⟩ := (latest_eq_some h).mp hlast
    exact ⟨m, hm, by simpa using hpm, fun y hy hpy => hmax y hy (by simpa using hpy)⟩

theorem Chronological.exists_first (h : Chronological key l) {P : α → Prop} (hP : ∃ x ∈ l, P x) :
    ∃ x ∈ l, P x ∧ ∀ y ∈ l, P y → key x ≤ key y := by
  induction l with
  | nil => simp at hP
  | cons a l ih =>
    obtain ⟨ha, hl⟩ := List.pairwise_cons.mp h
    by_cases hp : P a
    · refine ⟨a, List.mem_cons_self, hp, fun y hy _ => ?_⟩
      rcases List.mem_cons.mp hy with rfl | hy
      · exact le_refl _
      · exact (ha y hy).le
    · obtain ⟨x, hx, hpx⟩ := hP
      have hxl : x ∈ l := (List.mem_cons.mp hx).resolve_left fun hxa => hp (hxa ▸ hpx)
      obtain ⟨m, hm, hpm, hmin⟩ := ih hl ⟨x, hxl, hpx⟩
      refine ⟨m, List.mem_cons_of_mem _ hm, hpm, fun y hy hpy => ?_⟩
      exact hmin y ((List.mem_cons.mp hy).resolve_left fun hya => hp (hya ▸ hpy)) hpy

theorem chronological_sinceLast (h : Chronological key l) (p : α → Bool) :
    Chronological key (sinceLast p l).reverse := by
  refine List.pairwise_reverse.mpr (List.Pairwise.sublist ?_ (List.pairwise_reverse.mpr h))
  exact (List.takeWhile_prefix _).sublist

theorem Chronological.getLast?_eq_some (h : Chronological key l) {a : α} :
    l.getLast? = some a ↔ a ∈ l ∧ ∀ x ∈ l, key x ≤ key a := by
  have hlast : l.getLast? = latest (fun _ => true) l := by rw [latest, List.filter_true]
  rw [hlast, latest_eq_some h]
  simp

theorem Chronological.head?_eq_some (h : Chronological key l) {a : α} :
    l.head? = some a ↔ a ∈ l ∧ ∀ x ∈ l, key a ≤ key x := by
  cases l with
  | nil => simp
  | cons b l =>
    obtain ⟨hb, -⟩ := List.pairwise_cons.mp h
    rw [List.head?_cons, Option.some.injEq]
    constructor
    · rintro rfl
      refine ⟨List.mem_cons_self, fun x hx => ?_⟩
      rcases List.mem_cons.mp hx with rfl | hx
      · exact le_refl _
      · exact (hb x hx).le
    · rintro ⟨ha, hmin⟩
      rcases List.mem_cons.mp ha with rfl | ha
      · rfl
      · exact absurd (hmin b List.mem_cons_self) (hb a ha).not_ge

end

/-! ## The latest entry of each group -/

section
variable [DecidableEq ι] {k : α → ι}

theorem mem_latest_table (l : List α) (j : ι) (x : α) :
    (j, x) ∈ l.foldl (fun t a => Table.assign t (k a) a) [] ↔
      latest (fun a => decide (k a = j)) l = some x := by
  have hkeys : ∀ l : List α,
      ((l.foldl (fun t a => Table.assign t (k a) a) []).map Prod.fst).Nodup := by
    intro l
    induction l using List.reverseRecOn with
    | nil => simp
    | append_singleton l a ih =>
      rw [List.foldl_append]
      exact Table.nodup_keys_assign ih _ _
  induction l using List.reverseRecOn with
  | nil => simp [latest]
  | append_singleton l a ih =>
    rw [List.foldl_append, List.foldl_cons, List.foldl_nil, Table.mem_assign (hkeys l), latest_snoc]
    by_cases hj : k a = j
    · subst hj
      simp [eq_comm]
    · simp [hj, Ne.symm hj, ih]

theorem mem_latestBy {l : List α} {x : α} :
    x ∈ latestBy k l ↔ latest (fun a => decide (k a = k x)) l = some x := by
  rw [latestBy, List.mem_map]
  constructor
  · rintro ⟨⟨j, y⟩, hmem, rfl⟩
    have hlast := (mem_latest_table l j y).mp hmem
    have hj : k y = j := by
      have hy := List.mem_of_getLast? hlast
      simpa using (List.mem_filter.mp hy).2
    rwa [hj]
  · intro hlast
    exact ⟨(k x, x), (mem_latest_table l _ x).mpr hlast, rfl⟩

end

end GuruJi.Lib
