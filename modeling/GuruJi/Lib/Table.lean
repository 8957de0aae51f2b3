import Mathlib.Algebra.GroupWithZero.Nat
import Mathlib.Tactic.Common

/-!
# Tables of keyed rows

A table is a list of keyed rows in insertion order. `get` reads the row of a key and `updateWhere`
is SQL's `UPDATE ... WHERE key = k AND cond`. `Selects p before limit rows keys` says that `keys`
is a possible answer of `SELECT key ... WHERE p ORDER BY before LIMIT limit`: SQL leaves the order
of ties open, so there may be several. `assign` and `push` are assignments of a dictionary, and
`bump` and `counts` those of a counter (`counts_spec`).
-/

namespace GuruJi.Lib

abbrev Table (κ ρ : Type*) := List (κ × ρ)

namespace Table
variable {κ ρ : Type*} [DecidableEq κ]

def get : Table κ ρ → κ → Option ρ
  | [], _ => none
  | (k', r) :: rows, k => if k' = k then some r else get rows k

/-- `UPDATE ... SET f WHERE key = k AND cond`. -/
def updateWhere (rows : Table κ ρ) (k : κ) (cond : ρ → Bool) (f : ρ → ρ) : Table κ ρ :=
  rows.map fun e => if e.1 = k ∧ cond e.2 then (e.1, f e.2) else e

def hits (rows : Table κ ρ) (k : κ) (cond : ρ → Bool) : Bool := (rows.get k).any cond

/-- `INSERT` of a row under a new key. -/
def insert (rows : Table κ ρ) (k : κ) (r : ρ) : Table κ ρ := rows ++ [(k, r)]

/-- Assignment to a key, as in a dictionary: in place, or at the end for a new key. -/
def assign : Table κ ρ → κ → ρ → Table κ ρ
  | [], k, r => [(k, r)]
  | (k', r') :: rows, k, r => if k' = k then (k, r) :: rows else (k', r') :: assign rows k r

theorem get_nil (k : κ) : get ([] : Table κ ρ) k = none := rfl

theorem get_cons (k' : κ) (r : ρ) (rows : Table κ ρ) (k : κ) :
    get ((k', r) :: rows) k = if k' = k then some r else get rows k := rfl

theorem assign_nil (k : κ) (r : ρ) : assign [] k r = [(k, r)] := rfl

theorem assign_cons (k' : κ) (r' : ρ) (rows : Table κ ρ) (k : κ) (r : ρ) :
    assign ((k', r') :: rows) k r = if k' = k then (k, r) :: rows else (k', r') :: assign rows k r :=
  rfl

theorem get_assign (rows : Table κ ρ) (k j : κ) (r : ρ) :
    (rows.assign k r).get j = if j = k then some r else rows.get j := by
  induction rows with
  | nil => simp [assign_nil, get_cons, get_nil, eq_comm]
  | cons e rows ih =>
    obtain ⟨k', r'⟩ := e
    rw [assign_cons]
    by_cases hk : k' = k
    · subst hk
      rw [if_pos rfl, get_cons, get_cons]
      by_cases hj : k' = j
      · rw [if_pos hj, if_pos hj.symm]
      · rw [if_neg hj, if_neg hj, if_neg (Ne.symm hj)]
    · rw [if_neg hk, get_cons, get_cons, ih]
      by_cases hj : k' = j
      · rw [if_pos hj, if_pos hj, if_neg (hj ▸ hk)]
      · rw [if_neg hj, if_neg hj]

variable {k : κ} {r : ρ} {rows : Table κ ρ} {p : κ × ρ → Bool} {α β : Type*}

theorem mem_assign (h : (rows.map Prod.fst).Nodup) {e : κ × ρ} :
    e ∈ rows.assign k r ↔ e = (k, r) ∨ e ∈ rows ∧ e.1 ≠ k := by
  induction rows with
  | nil => simp [assign_nil]
  | cons e' rows ih =>
    obtain ⟨k', r'⟩ := e'
    obtain ⟨hk', hrows⟩ := List.nodup_cons.mp h
    rw [assign_cons]
    by_cases hk : k' = k
    · subst hk
      have hne : e ∈ rows → e.1 ≠ k' := fun he heq =>
        hk' (List.mem_map.mpr ⟨e, he, heq⟩)
      rw [if_pos rfl, List.mem_cons, List.mem_cons]
      constructor
      · rintro (he | he)
        · exact .inl he
        · exact .inr ⟨.inr he, hne he⟩
      · rintro (he | ⟨rfl | he, hk⟩)
        · exact .inl he
        · exact absurd rfl hk
        · exact .inr he
    · rw [if_neg hk, List.mem_cons, ih hrows, List.mem_cons]
      constructor
      · rintro (rfl | he | he)
        · exact .inr ⟨.inl rfl, hk⟩
        · exact .inl he
        · exact .inr ⟨.inr he.1, he.2⟩
      · rintro (he | ⟨he | he, hne⟩)
        · exact .inr (.inl he)
        · exact .inl he
        · exact .inr (.inr ⟨he, hne⟩)

theorem nodup_keys_assign (h : (rows.map Prod.fst).Nodup) (k : κ) (r : ρ) :
    ((rows.assign k r).map Prod.fst).Nodup := by
  induction rows with
  | nil => simp [assign_nil]
  | cons e rows ih =>
    obtain ⟨k', r'⟩ := e
    obtain ⟨hk', hrows⟩ := List.nodup_cons.mp h
    rw [assign_cons]
    by_cases hk : k' = k
    · subst hk
      rw [if_pos rfl]
      exact h
    · rw [if_neg hk, List.map_cons, List.nodup_cons]
      refine ⟨fun hmem => ?_, ih hrows⟩
      obtain ⟨e, he, heq⟩ := List.mem_map.mp hmem
      rcases (mem_assign hrows).mp he with rfl | ⟨he, -⟩
      · exact hk heq.symm
      · exact hk' (List.mem_map.mpr ⟨e, he, heq⟩)

theorem get_of_mem (h : (rows.map Prod.fst).Nodup) (hmem : (k, r) ∈ rows) : rows.get k = some r := by
  induction rows with
  | nil => cases hmem
  | cons e rows ih =>
    obtain ⟨k', r'⟩ := e
    obtain ⟨hk', hrows⟩ := List.nodup_cons.mp h
    rw [get_cons]
    rcases List.mem_cons.mp hmem with heq | hmem
    · obtain ⟨rfl, rfl⟩ := Prod.mk.inj heq
      exact if_pos rfl
    · rw [if_neg fun heq : k' = k => hk' (List.mem_map.mpr ⟨_, hmem, heq.symm⟩)]
      exact ih hrows hmem

theorem mem_of_get (h : rows.get k = some r) : (k, r) ∈ rows := by
  induction rows with
  | nil => cases h
  | cons e rows ih =>
    obtain ⟨k', r'⟩ := e
    rw [get_cons] at h
    split_ifs at h with hk
    · rw [← hk, Option.some.inj h]
      exact List.mem_cons_self
    · exact List.mem_cons_of_mem _ (ih h)

theorem isSome_get : (rows.get k).isSome ↔ k ∈ rows.map Prod.fst := by
  induction rows with
  | nil => simp [get_nil]
  | cons e rows ih =>
    obtain ⟨k', r⟩ := e
    rw [get_cons, List.map_cons, List.mem_cons]
    split_ifs with hk
    · exact ⟨fun _ => .inl hk.symm, fun _ => rfl⟩
    · rw [ih, or_iff_right (Ne.symm hk)]

theorem eq_or_mem_of_mem_assign {e : κ × ρ} (h : e ∈ rows.assign k r) : e = (k, r) ∨ e ∈ rows := by
  induction rows with
  | nil => exact .inl (List.mem_singleton.mp h)
  | cons e' rows ih =>
    obtain ⟨k', r'⟩ := e'
    rw [assign_cons] at h
    split_ifs at h with hk
    · exact (List.mem_cons.mp h).imp_right (List.mem_cons_of_mem _)
    · rcases List.mem_cons.mp h with rfl | h
      · exact .inr List.mem_cons_self
      · exact (ih h).imp_right (List.mem_cons_of_mem _)

theorem get_of_get_filter (h : (rows.map Prod.fst).Nodup)
    (hget : get (rows.filter p) k = some r) : rows.get k = some r :=
  get_of_mem h (List.mem_filter.mp (mem_of_get hget)).1

theorem get_filter (h : ∀ r, p (k, r) = true) : get (rows.filter p) k = rows.get k := by
  induction rows with
  | nil => rfl
  | cons e rows ih =>
    obtain ⟨k', r⟩ := e
    rw [List.filter_cons]
    by_cases hk : k' = k
    · subst hk
      rw [if_pos (h r), get_cons, get_cons, if_pos rfl, if_pos rfl]
    · split_ifs
      · rw [get_cons, get_cons, if_neg hk, if_neg hk, ih]
      · rw [get_cons, if_neg hk, ih]

theorem get_map {κ' ρ' : Type*} [DecidableEq κ'] {f : κ → κ'} {g : ρ → ρ'}
    (h : ∀ e ∈ rows, f e.1 = f k → e.1 = k) :
    get (rows.map fun e => (f e.1, g e.2)) (f k) = (rows.get k).map g := by
  induction rows with
  | nil => rfl
  | cons e rows ih =>
    have ih := ih fun e' he' => h e' (List.mem_cons_of_mem e he')
    obtain ⟨k', r⟩ := e
    rw [List.map_cons, get_cons, get_cons, ih]
    by_cases hk : k' = k
    · rw [if_pos hk, if_pos (congrArg f hk)]
      rfl
    · rw [if_neg hk, if_neg fun heq => hk (h (k', r) List.mem_cons_self heq)]

theorem assign_map {κ' ρ' : Type*} [DecidableEq κ'] {f : κ → κ'} {g : ρ → ρ'}
    (h : ∀ e ∈ rows, f e.1 = f k → e.1 = k) (r : ρ) :
    assign (rows.map fun e => (f e.1, g e.2)) (f k) (g r) =
      (rows.assign k r).map fun e => (f e.1, g e.2) := by
  induction rows with
  | nil => rfl
  | cons e rows ih =>
    have ih := ih fun e' he' => h e' (List.mem_cons_of_mem e he')
    obtain ⟨k', r'⟩ := e
    rw [List.map_cons, assign_cons, assign_cons, ih]
    by_cases hk : k' = k
    · rw [if_pos hk, if_pos (congrArg f hk)]
      rfl
    · rw [if_neg hk, if_neg fun heq => hk (h (k', r') List.mem_cons_self heq)]
      rfl

theorem assign_of_not_mem (h : k ∉ rows.map Prod.fst) (r : ρ) : rows.assign k r = rows ++ [(k, r)] := by
  induction rows with
  | nil => rfl
  | cons e rows ih =>
    obtain ⟨hk, hrows⟩ := not_or.mp (mt List.mem_cons.mpr h)
    obtain ⟨k', r'⟩ := e
    rw [assign_cons, if_neg (Ne.symm hk), ih hrows]
    rfl

theorem assign_of_get (h : rows.get k = some r) : rows.assign k r = rows := by
  induction rows with
  | nil => cases h
  | cons e rows ih =>
    obtain ⟨k', r'⟩ := e
    rw [get_cons] at h
    rw [assign_cons]
    split_ifs at h ⊢ with hk
    · rw [← hk, Option.some.inj h]
    · rw [ih h]

theorem countP_assign_le {r r' : ρ} (h : rows.get k = some r) (hp : p (k, r') = true → p (k, r) = true) :
    (rows.assign k r').countP p ≤ rows.countP p := by
  induction rows with
  | nil => cases h
  | cons e rows ih =>
    obtain ⟨j, s⟩ := e
    rw [get_cons] at h
    rw [assign_cons]
    split_ifs at h ⊢ with hj
    · rw [← Option.some.inj h, ← hj] at hp
      rw [← hj, List.countP_cons, List.countP_cons]
      split_ifs with hnew hold
      · exact Nat.le_refl _
      · exact absurd (hp hnew) hold
      · omega
      · exact Nat.le_refl _
    · have hrest := ih h
      rw [List.countP_cons, List.countP_cons]
      omega

theorem countP_assign_new (h : rows.get k = none) :
    (rows.assign k r).countP p = rows.countP p + if p (k, r) then 1 else 0 := by
  induction rows with
  | nil => rw [assign_nil, List.countP_cons]
  | cons e rows ih =>
    obtain ⟨j, s⟩ := e
    rw [get_cons] at h
    split_ifs at h with hj
    rw [assign_cons, if_neg hj, List.countP_cons, List.countP_cons, ih h]
    exact Nat.add_right_comm _ _ _

theorem get_foldl_assign (rows : Table κ ρ) {l : Table κ ρ} (hl : (l.map Prod.fst).Nodup) (k : κ) :
    (∀ r, (k, r) ∈ l → (l.foldl (fun t e => t.assign e.1 e.2) rows).get k = some r) ∧
      ((∀ r, (k, r) ∉ l) → (l.foldl (fun t e => t.assign e.1 e.2) rows).get k = rows.get k) := by
  induction l generalizing rows with
  | nil => simp
  | cons e l ih =>
    obtain ⟨k', r'⟩ := e
    obtain ⟨hk', hl⟩ := List.nodup_cons.mp hl
    obtain ⟨hin, hout⟩ := ih (rows.assign k' r') hl
    rw [List.foldl_cons]
    constructor
    · intro r hr
      rcases List.mem_cons.mp hr with heq | hr
      · obtain ⟨rfl, rfl⟩ := Prod.mk.inj heq
        have hnot : ∀ r', (k, r') ∉ l := fun r' hmem => hk' (List.mem_map.mpr ⟨_, hmem, rfl⟩)
        rw [hout hnot, get_assign, if_pos rfl]
      · exact hin r hr
    · intro hnot
      have hne : k ≠ k' := fun heq => hnot r' (heq ▸ List.mem_cons_self)
      rw [hout fun r hr => hnot r (List.mem_cons_of_mem _ hr), get_assign, if_neg hne]

theorem get_foldl_assign_keys (rows : Table κ ρ) (keys : List κ) (f : κ → ρ) (k : κ) :
    (keys.foldl (fun t key => t.assign key (f key)) rows).get k =
      if k ∈ keys then some (f k) else rows.get k := by
  induction keys generalizing rows with
  | nil => simp
  | cons key keys ih =>
    rw [List.foldl_cons, ih, get_assign]
    by_cases hk : k = key
    · simp [hk]
    · simp [hk]

/-- `rows.setdefault(k, []).append(a)`. -/
def push {α : Type*} (rows : Table κ (List α)) (k : κ) (a : α) : Table κ (List α) :=
  rows.assign k ((rows.get k).getD [] ++ [a])

theorem nodup_keys_foldl_push (l : List α) (k : α → κ) (f : α → β)
    {rows : Table κ (List β)} (h : (rows.map Prod.fst).Nodup) :
    ((l.foldl (fun t a => t.push (k a) (f a)) rows).map Prod.fst).Nodup := by
  induction l generalizing rows with
  | nil => exact h
  | cons a l ih => exact ih (nodup_keys_assign h _ _)

theorem mem_keys_foldl_push {l : List α} {k : α → κ} {f : α → β} {rows : Table κ (List β)} {key : κ} :
    key ∈ (l.foldl (fun t a => t.push (k a) (f a)) rows).map Prod.fst ↔
      key ∈ rows.map Prod.fst ∨ ∃ a ∈ l, k a = key := by
  induction l generalizing rows with
  | nil => simp
  | cons a l ih =>
    rw [List.foldl_cons, ih, push, ← isSome_get, ← isSome_get, get_assign]
    by_cases hk : key = k a
    · simp [hk]
    · simp [hk, Ne.symm hk]

theorem getD_foldl_push (l : List α) (k : α → κ) (f : α → β) (rows : Table κ (List β)) (key : κ) :
    ((l.foldl (fun t a => t.push (k a) (f a)) rows).get key).getD [] =
      (rows.get key).getD [] ++ (l.filter fun a => k a = key).map f := by
  induction l generalizing rows with
  | nil => simp
  | cons a l ih =>
    rw [List.foldl_cons, ih, push, get_assign, List.filter_cons]
    by_cases hk : k a = key
    · simp [hk]
    · simp [hk, Ne.symm hk]

theorem flatMap_push_perm {α : Type*} (rows : Table κ (List α)) (k : κ) (a : α) :
    ((rows.push k a).flatMap Prod.snd).Perm (rows.flatMap Prod.snd ++ [a]) := by
  induction rows with
  | nil => simp [push, assign_nil, get_nil]
  | cons e rows ih =>
    obtain ⟨k', l⟩ := e
    rw [push, assign_cons, get_cons]
    split_ifs with hk
    · simp only [List.flatMap_cons, Option.getD_some, List.append_assoc]
      exact (List.perm_append_comm).append_left l
    · rw [List.flatMap_cons, List.flatMap_cons, List.append_assoc]
      exact ih.append_left l

theorem flatMap_foldl_push_perm (l : List α) (k : α → κ) (f : α → β) (rows : Table κ (List β)) :
    ((l.foldl (fun t a => t.push (k a) (f a)) rows).flatMap Prod.snd).Perm
      (rows.flatMap Prod.snd ++ l.map f) := by
  induction l generalizing rows with
  | nil => simp
  | cons a l ih =>
    have hpush := (flatMap_push_perm rows (k a) (f a)).append_right (l.map f)
    rw [List.append_assoc] at hpush
    exact (ih _).trans hpush

theorem get_updateWhere (rows : Table κ ρ) (k j : κ) (cond : ρ → Bool) (f : ρ → ρ) :
    (rows.updateWhere k cond f).get j =
      if j = k then (rows.get j).map (fun r => if cond r then f r else r) else rows.get j := by
  induction rows with
  | nil => simp [updateWhere, get_nil]
  | cons e rows ih =>
    obtain ⟨k', r⟩ := e
    have hmap : updateWhere ((k', r) :: rows) k cond f =
        (if k' = k ∧ cond r then (k', f r) else (k', r)) :: updateWhere rows k cond f := rfl
    rw [hmap]
    by_cases hj : k' = j
    · subst hj
      by_cases hk : k' = k <;> by_cases hc : cond r <;> simp [get_cons, hk, hc]
    · by_cases hk : k' = k ∧ cond r
      · rw [if_pos hk, get_cons, if_neg hj, ih, get_cons, if_neg hj]
      · rw [if_neg hk, get_cons, if_neg hj, ih, get_cons, if_neg hj]

theorem keys_updateWhere (rows : Table κ ρ) (k : κ) (cond : ρ → Bool) (f : ρ → ρ) :
    (rows.updateWhere k cond f).map Prod.fst = rows.map Prod.fst := by
  rw [updateWhere, List.map_map]
  refine List.map_congr_left fun e _ => ?_
  simp only [Function.comp_apply]
  split_ifs <;> rfl

theorem get_updateWhere_self (rows : Table κ ρ) (k : κ) (cond : ρ → Bool) (f : ρ → ρ) :
    (rows.updateWhere k cond f).get k = (rows.get k).map (fun r => if cond r then f r else r) := by
  rw [get_updateWhere, if_pos rfl]

theorem get_updateWhere_ne (rows : Table κ ρ) {k j : κ} (cond : ρ → Bool) (f : ρ → ρ) (h : j ≠ k) :
    (rows.updateWhere k cond f).get j = rows.get j := by
  rw [get_updateWhere, if_neg h]

theorem get_insert (rows : Table κ ρ) (r : ρ) (h : rows.get k = none) (j : κ) :
    (rows.insert k r).get j = if j = k then some r else rows.get j := by
  induction rows with
  | nil =>
    by_cases hj : j = k
    · simp [insert, get_cons, hj]
    · simp [insert, get_cons, hj, Ne.symm hj]
  | cons e rows ih =>
    obtain ⟨k', r'⟩ := e
    rw [get_cons] at h
    split_ifs at h with hk
    have hins : insert ((k', r') :: rows) k r = (k', r') :: insert rows k r := rfl
    rw [hins, get_cons, get_cons, ih h]
    by_cases hj : k' = j
    · rw [if_pos hj, if_pos hj, if_neg (hj ▸ hk)]
    · rw [if_neg hj, if_neg hj]

/-- A possible answer of `SELECT key FROM rows WHERE p ORDER BY time LIMIT limit`. -/
def Selects (rows : Table κ ρ) (p : ρ → Bool) (time : ρ → Nat) (limit : Nat) (keys : List κ) : Prop :=
  keys.Nodup ∧ keys.length ≤ limit ∧
    (∀ k ∈ keys, ∃ r ∈ rows.get k, p r = true) ∧
    keys.Pairwise (fun j k => ∀ r ∈ rows.get j, ∀ r' ∈ rows.get k, time r ≤ time r') ∧
    ∀ e ∈ rows, p e.2 = true → e.1 ∉ keys →
      keys.length = limit ∧ ∀ k ∈ keys, ∀ r ∈ rows.get k, time r ≤ time e.2

instance (rows : Table κ ρ) (p : ρ → Bool) (time : ρ → Nat) (limit : Nat) (keys : List κ) :
    Decidable (rows.Selects p time limit keys) := by unfold Selects; infer_instance

theorem Selects.sat {p : ρ → Bool} {time : ρ → Nat} {limit : Nat} {keys : List κ}
    (h : rows.Selects p time limit keys) (hk : k ∈ keys) :
    ∃ r, rows.get k = some r ∧ p r = true := by
  obtain ⟨r, hr, hp⟩ := h.2.2.1 k hk
  exact ⟨r, hr, hp⟩

/-! ## Counters -/

/-- `t[k] = t.get(k, 0) + n`. -/
def bump (t : Table κ Nat) (k : κ) (n : Nat) : Table κ Nat := t.assign k ((t.get k).getD 0 + n)

/-- `Counter(keys)`. -/
def counts (keys : List κ) : Table κ Nat := keys.foldl (fun t k => t.bump k 1) []

/-- `sum(t.values())`. -/
def total (t : Table κ Nat) : Nat := (t.map Prod.snd).sum

/-- `t.get(k, 0)`. -/
def countOf (t : Table κ Nat) (k : κ) : Nat := (t.get k).getD 0

theorem total_assign (t : Table κ Nat) (k : κ) (n : Nat) :
    (t.assign k n).total + t.countOf k = t.total + n := by
  induction t with
  | nil => simp [assign_nil, total, countOf, get_nil]
  | cons e t ih =>
    obtain ⟨k', n'⟩ := e
    rw [assign_cons, countOf, get_cons]
    split_ifs with hk
    · simp only [total, List.map_cons, List.sum_cons, Option.getD_some]
      omega
    · simp only [total, List.map_cons, List.sum_cons] at ih ⊢
      rw [countOf] at ih
      omega

theorem total_bump (t : Table κ Nat) (k : κ) (n : Nat) : (t.bump k n).total = t.total + n := by
  have h := total_assign t k (t.countOf k + n)
  change (t.assign k (t.countOf k + n)).total = _
  omega

theorem countOf_bump (t : Table κ Nat) (k j : κ) (n : Nat) :
    (t.bump k n).countOf j = t.countOf j + if j = k then n else 0 := by
  rw [countOf, bump, get_assign]
  split_ifs with h
  · rw [h]
    rfl
  · rfl

theorem foldl_bump (entries : Table κ Nat) (t : Table κ Nat) :
    (entries.foldl (fun t e => t.bump e.1 e.2) t).total = t.total + entries.total ∧
      ∀ k, (entries.foldl (fun t e => t.bump e.1 e.2) t).countOf k =
        t.countOf k + ((entries.map fun e => if k = e.1 then e.2 else 0)).sum := by
  induction entries generalizing t with
  | nil => simp [total]
  | cons e entries ih =>
    obtain ⟨htotal, hcount⟩ := ih (t.bump e.1 e.2)
    rw [total_bump] at htotal
    refine ⟨?_, fun k => ?_⟩
    · rw [List.foldl_cons, htotal]
      simp only [total, List.map_cons, List.sum_cons]
      omega
    · rw [List.foldl_cons, hcount k, countOf_bump, List.map_cons, List.sum_cons, Nat.add_assoc]

theorem foldl_count (keys : List κ) (t : Table κ Nat) :
    (keys.foldl (fun t k => t.bump k 1) t).total = t.total + keys.length ∧
      ∀ k, (keys.foldl (fun t k => t.bump k 1) t).countOf k = t.countOf k + keys.count k := by
  induction keys generalizing t with
  | nil => simp
  | cons key keys ih =>
    obtain ⟨htotal, hcount⟩ := ih (t.bump key 1)
    rw [total_bump] at htotal
    refine ⟨?_, fun k => ?_⟩
    · rw [List.foldl_cons, htotal, List.length_cons]
      omega
    · rw [List.foldl_cons, hcount k, countOf_bump, List.count_cons]
      simp only [beq_iff_eq, eq_comm (a := k)]
      omega

/-- A counter counts each key and no more. -/
theorem counts_spec (keys : List κ) :
    (counts keys).total = keys.length ∧ ∀ k, (counts keys).countOf k = keys.count k := by
  obtain ⟨htotal, hcount⟩ := foldl_count keys []
  exact ⟨by rw [counts, htotal, total, List.map_nil, List.sum_nil, Nat.zero_add],
    fun k => by rw [counts, hcount k, countOf, get_nil, Option.getD_none, Nat.zero_add]⟩

theorem sum_eq_countOf {t : Table κ Nat} (h : (t.map Prod.fst).Nodup) (k : κ) :
    (t.map fun e => if k = e.1 then e.2 else 0).sum = t.countOf k := by
  induction t with
  | nil => rfl
  | cons e t ih =>
    obtain ⟨k', n⟩ := e
    obtain ⟨hk', ht⟩ := List.nodup_cons.mp h
    rw [List.map_cons, List.sum_cons, ih ht, countOf, countOf, get_cons]
    by_cases hk : k' = k
    · have hnone : get t k = none := by
        rw [Option.eq_none_iff_forall_ne_some]
        exact fun m hm => hk' (List.mem_map.mpr ⟨_, mem_of_get hm, hk.symm⟩)
      rw [if_pos hk.symm, if_pos hk, hnone]
      rfl
    · rw [if_neg (Ne.symm hk), if_neg hk, Nat.zero_add]

theorem nodup_keys_counts (keys : List κ) : ((counts keys).map Prod.fst).Nodup := by
  suffices h : ∀ t : Table κ Nat, (t.map Prod.fst).Nodup →
      ((keys.foldl (fun t k => t.bump k 1) t).map Prod.fst).Nodup from h [] List.nodup_nil
  induction keys with
  | nil => exact fun _ => id
  | cons key keys ih => exact fun t ht => ih _ (nodup_keys_assign ht key _)

end Table

end GuruJi.Lib
