import GuruJi.Lib.Places
import Mathlib.Data.List.Rotate
import Mathlib.Tactic.Common

/-!
# Taking turns

A list that does not fit is rotated further at each round, by as many places as fit: every element is
among the first ones in one of as many rounds as there are elements (`exists_turn`). Of elements that are
told apart by a key, only the first of each key is kept (`keepNew`): what is among the first elements of
a list has its key among as many that are kept (`mem_take_keepNew`).
-/

namespace GuruJi.Lib

variable {α κ : Type*}

/-! ## Rounds -/

/-- Rounds that follow one another reach every element. -/
theorem exists_turn {l : List α} {a : α} (ha : a ∈ l) {step : Nat} (hstep : 0 < step) (round : Nat) :
    ∃ k < l.length, a ∈ (l.rotate ((round + k) * step)).take step := by
  obtain ⟨i, hi, rfl⟩ := List.mem_iff_getElem.mp ha
  have hpos : 0 < l.length := Nat.zero_lt_of_lt hi
  rcases Nat.lt_or_ge step l.length with hlt | hge
  · -- the place after the start of the first round that is the element's, up to a whole turn
    obtain ⟨t, hlow, hhigh, hplace⟩ : ∃ t, round * step ≤ t ∧ t < round * step + l.length ∧
        t % l.length = i := by
      set start := round * step
      have hmod := Nat.mod_add_div start l.length
      have hmodlt := Nat.mod_lt start hpos
      rcases Nat.lt_or_ge i (start % l.length) with hi' | hi'
      · refine ⟨i + l.length * (start / l.length + 1), ?_, ?_, ?_⟩
        · rw [Nat.mul_add]
          omega
        · rw [Nat.mul_add]
          omega
        · rw [Nat.add_mul_mod_self_left, Nat.mod_eq_of_lt hi]
      · refine ⟨i + l.length * (start / l.length), by omega, by omega, ?_⟩
        rw [Nat.add_mul_mod_self_left, Nat.mod_eq_of_lt hi]
    have hround : round ≤ t / step := (Nat.le_div_iff_mul_le hstep).mpr hlow
    have hsplit := Nat.mod_add_div t step
    refine ⟨t / step - round, ?_, ?_⟩
    · have hle : l.length ≤ l.length * step := Nat.le_mul_of_pos_right _ hstep
      have hbound : t / step < round + l.length := by
        rw [Nat.div_lt_iff_lt_mul hstep, Nat.add_mul]
        omega
      omega
    · rw [Nat.add_sub_cancel' hround, List.mem_iff_getElem]
      have hfits : t % step < step := Nat.mod_lt _ hstep
      refine ⟨t % step, by simp; omega, ?_⟩
      rw [List.getElem_take, List.getElem_rotate]
      congr 1
      rw [Nat.mul_comm, hsplit, hplace]
  · refine ⟨0, hpos, ?_⟩
    rw [List.take_of_length_le (by rw [List.length_rotate]; exact hge), List.mem_rotate]
    exact ha

/-! ## The first of each key -/

section
variable [DecidableEq κ] (key : α → κ)

/-- The elements whose keys are not those of elements kept before. -/
def keepNew (l : List α) : List α :=
  l.foldl (fun kept a => if key a ∈ kept.map key then kept else kept ++ [a]) []

variable {key}

theorem keepNew_append (l m : List α) : keepNew key l <+: keepNew key (l ++ m) := by
  rw [keepNew, keepNew, List.foldl_append]
  generalize l.foldl (fun kept a => if key a ∈ kept.map key then kept else kept ++ [a]) [] = kept
  induction m generalizing kept with
  | nil => exact List.prefix_rfl
  | cons a m ih =>
    rw [List.foldl_cons]
    split_ifs
    · exact ih kept
    · exact (List.prefix_append kept [a]).trans (ih _)

theorem length_keepNew_le (l : List α) : (keepNew key l).length ≤ l.length := by
  induction l using List.reverseRecOn with
  | nil => exact le_rfl
  | append_singleton l a ih =>
    rw [keepNew, List.foldl_concat, ← keepNew, List.length_append, List.length_singleton]
    split_ifs
    · omega
    · rw [List.length_append, List.length_singleton]
      omega

theorem key_mem_keepNew {l : List α} {a : α} (ha : a ∈ l) : key a ∈ (keepNew key l).map key := by
  induction l using List.reverseRecOn with
  | nil => cases ha
  | append_singleton l b ih =>
    rw [keepNew, List.foldl_concat, ← keepNew]
    rcases List.mem_append.mp ha with ha | ha
    · split_ifs
      · exact ih ha
      · rw [List.map_append]
        exact List.mem_append_left _ (ih ha)
    · obtain rfl := List.mem_singleton.mp ha
      split_ifs with hknown
      · exact hknown
      · rw [List.map_append]
        exact List.mem_append_right _ (List.mem_singleton_self _)

/-- As many as are kept, the first elements are represented. -/
theorem mem_take_keepNew {l : List α} {a : α} {n : Nat} (ha : a ∈ l.take n) :
    ∃ b ∈ (keepNew key l).take n, key b = key a := by
  have hkept : key a ∈ (keepNew key (l.take n)).map key := key_mem_keepNew ha
  obtain ⟨b, hb, hkey⟩ := List.mem_map.mp hkept
  refine ⟨b, ?_, hkey⟩
  obtain ⟨rest, hrest⟩ : keepNew key (l.take n) <+: keepNew key l := by
    conv_rhs => rw [← List.take_append_drop n l]
    exact keepNew_append _ _
  have hlength : (keepNew key (l.take n)).length ≤ n :=
    (length_keepNew_le _).trans (List.length_take_le n l)
  rw [← hrest, List.take_append, List.take_of_length_le hlength]
  exact List.mem_append_left _ hb

end

end GuruJi.Lib
