import GuruJi.Lib.Table
import Mathlib.Data.List.Nodup

/-!
# Updates of rows by a key

`updateAt key k f` is `UPDATE ... WHERE key = k`. A sequence of such updates does to each row what
the updates of its own key do to it, one after the other (`foldl_updateAt`). `updateIf p f` is
`UPDATE ... WHERE p`, with what it does to the number of rows that meet a condition.
-/

namespace GuruJi.Lib

variable {α κ ω : Type*} [DecidableEq κ]

def updateAt (key : α → κ) (k : κ) (f : α → α) (rows : List α) : List α :=
  rows.map fun r => if key r = k then f r else r

def ownUpdates (k : κ) (ws : List (κ × ω)) : List ω := (ws.filter (·.1 = k)).map (·.2)

theorem ownUpdates_append (k : κ) (ws ws' : List (κ × ω)) :
    ownUpdates k (ws ++ ws') = ownUpdates k ws ++ ownUpdates k ws' := by
  rw [ownUpdates, List.filter_append, List.map_append]
  rfl

theorem ownUpdates_flatMap {β : Type*} (k : κ) (l : List β) (f : β → List (κ × ω)) :
    ownUpdates k (l.flatMap f) = l.flatMap fun b => ownUpdates k (f b) := by
  induction l with
  | nil => rfl
  | cons b l ih => rw [List.flatMap_cons, List.flatMap_cons, ownUpdates_append, ih]

theorem ownUpdates_pairs (k j : κ) (ws : List ω) :
    ownUpdates k (ws.map (Prod.mk j)) = if j = k then ws else [] := by
  by_cases h : j = k
  · simp [ownUpdates, h, List.filter_map, Function.comp_def]
  · simp [ownUpdates, h, List.filter_map, Function.comp_def]

theorem foldl_updateAt (key : α → κ) (act : ω → α → α) (hkey : ∀ w r, key (act w r) = key r)
    (ws : List (κ × ω)) (rows : List α) :
    ws.foldl (fun rows w => updateAt key w.1 (act w.2) rows) rows =
      rows.map fun r => (ownUpdates (key r) ws).foldl (fun r w => act w r) r := by
  induction ws generalizing rows with
  | nil => simp [ownUpdates]
  | cons w ws ih =>
    rw [List.foldl_cons, ih, updateAt, List.map_map]
    refine List.map_congr_left fun r _ => ?_
    simp only [Function.comp_apply]
    by_cases h : key r = w.1
    · rw [if_pos h, hkey, ownUpdates, ownUpdates, List.filter_cons_of_pos (by simpa using h.symm)]
      rfl
    · rw [if_neg h, ownUpdates, ownUpdates,
        List.filter_cons_of_neg (by simpa using fun h' => h h'.symm)]

variable {rows : List α} {f : α → α} {p : α → Bool}

theorem flatMap_of_key {β : Type*} {key : α → κ} (h : (rows.map key).Nodup)
    {r : α} (hr : r ∈ rows) (f : α → List β) :
    (rows.flatMap fun s => if key s = key r then f s else []) = f r := by
  induction rows with
  | nil => cases hr
  | cons s rows ih =>
    rw [List.map_cons, List.nodup_cons] at h
    rw [List.flatMap_cons]
    have hrest : ∀ k, k ∉ rows.map key →
        (rows.flatMap fun s => if key s = k then f s else []) = [] := by
      intro k hk
      refine List.flatMap_eq_nil_iff.mpr fun t ht => if_neg fun heq => hk ?_
      exact List.mem_map.mpr ⟨t, ht, heq⟩
    rcases List.mem_cons.mp hr with rfl | hr
    · rw [if_pos rfl, hrest _ h.1, List.append_nil]
    · have hne : key s ≠ key r := fun heq => h.1 (List.mem_map.mpr ⟨r, hr, heq.symm⟩)
      rw [if_neg hne, List.nil_append]
      exact ih h.2 hr

/-! ## Updates of the rows that meet a condition -/

/-- `UPDATE ... SET f WHERE p`. -/
def updateIf (p : α → Bool) (f : α → α) (rows : List α) : List α :=
  rows.map fun r => if p r then f r else r

theorem map_updateIf {β : Type*} {g : α → β}
    (h : ∀ r, g (f r) = g r) (rows : List α) : (updateIf p f rows).map g = rows.map g := by
  rw [updateIf, List.map_map]
  refine List.map_congr_left fun r _ => ?_
  simp only [Function.comp_apply]
  split_ifs
  · exact h r
  · rfl

theorem mem_updateIf {r' : α} : r' ∈ updateIf p f rows ↔ ∃ r ∈ rows, r' = if p r then f r else r := by
  rw [updateIf, List.mem_map]
  exact exists_congr fun r => and_congr_right fun _ => eq_comm

theorem countP_updateIf_le_of_imp {p q : α → Bool}
    (h : ∀ r ∈ rows, p r = true → q (f r) = true → q r = true) :
    (updateIf p f rows).countP q ≤ rows.countP q := by
  rw [updateIf, List.countP_map]
  refine List.countP_mono_left fun r hmem hr => ?_
  by_cases hp : p r = true
  · simp only [Function.comp_apply, if_pos hp] at hr
    exact h r hmem hp hr
  · simpa only [Function.comp_apply, if_neg hp] using hr

theorem countP_updateIf_le (p q : α → Bool) (f : α → α) (rows : List α) :
    (updateIf p f rows).countP q ≤ rows.countP q + rows.countP p := by
  induction rows with
  | nil => simp [updateIf]
  | cons r rows ih =>
    simp only [updateIf, List.map_cons, List.countP_cons] at ih ⊢
    by_cases hp : p r = true
    · rw [if_pos hp, if_pos hp]
      split_ifs <;> omega
    · rw [if_neg hp, if_neg hp]
      omega

theorem countP_le_one_of_key {key : α → κ} (h : (rows.map key).Nodup) {k : κ}
    (hp : ∀ r, p r = true → key r = k) : rows.countP p ≤ 1 := by
  calc rows.countP p ≤ rows.countP fun r => key r == k :=
        List.countP_mono_left fun r _ hr => by simpa using hp r hr
    _ = (rows.map key).count k := by rw [List.count, List.countP_map]; rfl
    _ ≤ 1 := List.nodup_iff_count_le_one.mp h k

/-! ## Rows and dictionaries -/

section
variable {ρ : Type*} {key : α → κ} {val : α → ρ} {rows : List α} {k : κ} {r r' : α}

def entries (key : α → κ) (val : α → ρ) (rows : List α) : Table κ ρ := rows.map fun r => (key r, val r)

@[simp] theorem keys_entries : (entries key val rows).map Prod.fst = rows.map key := by
  simp [entries]

theorem get_entries : (entries key val rows).get k = (rows.find? fun r => key r = k).map val := by
  induction rows with
  | nil => rfl
  | cons r rows ih =>
    show (if key r = k then some (val r) else (entries key val rows).get k) = _
    rw [ih, List.find?_cons]
    split_ifs with h <;> simp [h]

theorem entries_filter {p : α → Bool} {q : κ × ρ → Bool} (h : ∀ r, q (key r, val r) = p r) :
    (entries key val rows).filter q = entries key val (rows.filter p) := by
  rw [entries, entries, List.filter_map]
  exact congrArg _ (List.filter_congr fun r _ => h r)

theorem entries_assign_new (key : α → κ) (val : α → ρ) (r : α) (h : ∀ s ∈ rows, key s ≠ key r) :
    (entries key val rows).assign (key r) (val r) = entries key val (rows ++ [r]) := by
  induction rows with
  | nil => rfl
  | cons s rows ih =>
    show (if key s = key r then _ else (key s, val s) :: (entries key val rows).assign (key r) (val r)) =
      _
    rw [if_neg (h s List.mem_cons_self), ih fun t ht => h t (List.mem_cons_of_mem s ht)]
    rfl

theorem ne_key_of_find? (h : rows.find? (fun r => key r = k) = none) : ∀ r ∈ rows, key r ≠ k := by
  simpa using List.find?_eq_none.mp h

variable {f : α → α}

theorem updateIf_absent (h : rows.find? (fun r => key r = k) = none) {q : α → Bool} :
    (rows.filter fun r => key r = k ∧ q r) = [] ∧ updateIf (fun r => key r = k ∧ q r) f rows = rows := by
  have hne := ne_key_of_find? h
  refine ⟨List.filter_eq_nil_iff.mpr fun r hr => by simp [hne r hr], ?_⟩
  rw [updateIf]
  refine (List.map_congr_left fun r hr => ?_).trans (List.map_id rows)
  simp [hne r hr]

theorem find?_updateIf {p : α → Bool} (hf : ∀ r, key (f r) = key r) :
    (updateIf p f rows).find? (fun r => key r = k) =
      (rows.find? fun r => key r = k).map fun r => if p r then f r else r := by
  rw [updateIf, List.find?_map]
  congr 1
  refine congrFun (congrArg _ (funext fun r => ?_)) rows
  simp only [Function.comp_apply]
  split_ifs
  · rw [hf]
  · rfl

/-- The row of a key after an update by another key that leaves the keys as they are. -/
theorem find?_updateAt {ι : Type*} [DecidableEq ι] {id : α → ι} {i : ι} (hf : ∀ r, key (f r) = key r) :
    (updateAt id i f rows).find? (fun r => key r = k) =
      (rows.find? fun r => key r = k).map fun r => if id r = i then f r else r := by
  rw [updateAt, List.find?_map]
  congr 1
  refine congrFun (congrArg _ (funext fun r => ?_)) rows
  simp only [Function.comp_apply]
  split_ifs
  · rw [hf]
  · rfl

theorem updateIf_cons (p : α → Bool) (f : α → α) (r : α) (rows : List α) :
    updateIf p f (r :: rows) = (if p r then f r else r) :: updateIf p f rows := rfl

theorem entries_cons (r : α) (rows : List α) :
    entries key val (r :: rows) = (key r, val r) :: entries key val rows := rfl

/-- The update of a row that is there: it is hit if it meets the condition, and then it is assigned
its new value. -/
theorem updateIf_present (val : α → ρ) (hkeys : (rows.map key).Nodup)
    (h : rows.find? (fun r => key r = k) = some r)
    {q : α → Bool} (hf : key (f r) = key r) :
    (rows.filter fun s => key s = k ∧ q s) = (if q r then [r] else []) ∧
      entries key val (updateIf (fun s => key s = k ∧ q s) f rows) =
        if q r then (entries key val rows).assign k (val (f r)) else entries key val rows := by
  induction rows with
  | nil => cases h
  | cons s rows ih =>
    obtain ⟨hs, hkeys⟩ := List.nodup_cons.mp hkeys
    rw [List.find?_cons] at h
    rw [List.filter_cons, updateIf_cons, entries_cons, entries_cons]
    by_cases hkey : key s = k
    · rw [decide_eq_true hkey] at h
      obtain rfl := Option.some.inj h
      have hnone : rows.find? (fun t => key t = k) = none := by
        refine List.find?_eq_none.mpr fun t ht => ?_
        have hne : key t ≠ k := fun heq => hs (List.mem_map.mpr ⟨t, ht, heq.trans hkey.symm⟩)
        simpa using hne
      obtain ⟨hfilter, hupdate⟩ := updateIf_absent hnone (q := q) (f := f)
      rw [hfilter, hupdate, Table.assign, if_pos hkey]
      by_cases hq : q s = true
      · simp [hkey, hq, hf]
      · simp [hkey, hq]
    · rw [decide_eq_false hkey] at h
      obtain ⟨hfilter, hupdate⟩ := ih hkeys h
      rw [hfilter, hupdate, Table.assign, if_neg hkey]
      refine ⟨by simp [hkey], ?_⟩
      simp only [hkey, false_and, decide_false, Bool.false_eq_true, if_false]
      split_ifs <;> rfl

end

end GuruJi.Lib
