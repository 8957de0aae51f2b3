import Mathlib.Data.List.Induction
import Mathlib.Data.List.Nodup
import Mathlib.Data.List.TakeWhile
import Mathlib.Tactic.Common

/-!
# Lists without repetitions

`list(dict.fromkeys(l))` keeps the first of what is equal. What is listed so can be mapped before or
after (`eraseDups_map_eraseDups`), and a cut list comes from the beginning of the one with repetitions
(`exists_take_eraseDups`). `map_take_eraseDups_iff` compares a cut list that is mapped with one that is
cut when it is mapped.
-/

namespace GuruJi.Lib

variable {α β : Type*} [DecidableEq α] [DecidableEq β]

theorem eraseDups_concat (l : List α) (a : α) :
    (l ++ [a]).eraseDups = if a ∈ l then l.eraseDups else l.eraseDups ++ [a] := by
  rw [List.eraseDups_append]
  split_ifs with h
  · simp [List.removeAll, h]
  · have hnew : [a].removeAll l = [a] := by simp [List.removeAll, h]
    rw [hnew, List.eraseDups_cons]
    rfl

theorem eraseDups_map_eraseDups (f : α → β) (l : List α) :
    (l.eraseDups.map f).eraseDups = (l.map f).eraseDups := by
  induction l using List.reverseRecOn with
  | nil => rfl
  | append_singleton l a ih =>
    rw [eraseDups_concat, List.map_append, List.map_singleton, eraseDups_concat]
    by_cases ha : a ∈ l
    · rw [if_pos ha, if_pos (List.mem_map_of_mem ha), ih]
    · have hmem : f a ∈ l.eraseDups.map f ↔ f a ∈ l.map f := by simp
      rw [if_neg ha, List.map_append, List.map_singleton, eraseDups_concat, ih]
      simp only [hmem]

theorem nodup_eraseDups (l : List α) : l.eraseDups.Nodup := by
  induction l using List.reverseRecOn with
  | nil => exact List.nodup_nil
  | append_singleton l a ih =>
    rw [eraseDups_concat]
    split_ifs with ha
    · exact ih
    · refine List.nodup_append.mpr ⟨ih, List.nodup_singleton a, fun b hb c hc heq => ha ?_⟩
      rw [← List.mem_singleton.mp hc, ← heq]
      exact List.mem_eraseDups.mp hb

theorem length_eraseDups_le (l : List α) : l.eraseDups.length ≤ l.length := by
  induction l using List.reverseRecOn with
  | nil => exact le_rfl
  | append_singleton l a ih =>
    rw [eraseDups_concat, List.length_append, List.length_singleton]
    split_ifs
    · omega
    · rw [List.length_append, List.length_singleton]
      omega

theorem length_eraseDups_congr {l l' : List α} (h : ∀ a, a ∈ l ↔ a ∈ l') :
    l.eraseDups.length = l'.eraseDups.length := by
  refine List.Perm.length_eq ((List.perm_ext_iff_of_nodup (nodup_eraseDups l) (nodup_eraseDups l')).mpr ?_)
  intro a
  rw [List.mem_eraseDups, List.mem_eraseDups, h]

theorem eraseDups_of_nodup {l : List α} (h : l.Nodup) : l.eraseDups = l := by
  induction l using List.reverseRecOn with
  | nil => rfl
  | append_singleton l a ih =>
    obtain ⟨hl, -, hdisjoint⟩ := List.nodup_append.mp h
    rw [eraseDups_concat, if_neg fun ha => hdisjoint a ha a (List.mem_singleton_self a) rfl, ih hl]

/-- The first entries that are listed come from the beginning. -/
theorem exists_take_eraseDups (l : List α) (n : Nat) :
    ∃ k ≤ l.length, (l.take k).eraseDups = l.eraseDups.take n := by
  induction l using List.reverseRecOn with
  | nil => exact ⟨0, le_rfl, by simp⟩
  | append_singleton l a ih =>
    obtain ⟨k, hk, htake⟩ := ih
    have hbefore : (l ++ [a]).take k = l.take k := List.take_append_of_le_length hk
    rw [eraseDups_concat, List.length_append]
    by_cases ha : a ∈ l
    · exact ⟨k, by omega, by rw [if_pos ha, hbefore, htake]⟩
    · rw [if_neg ha]
      by_cases hn : n ≤ l.eraseDups.length
      · exact ⟨k, by omega, by rw [hbefore, htake, List.take_append_of_le_length hn]⟩
      · refine ⟨l.length + 1, by simp, ?_⟩
        rw [List.take_of_length_le (by simp), eraseDups_concat, if_neg ha, List.take_of_length_le]
        rw [List.length_append, List.length_singleton]
        omega

/-- What is listed and cut, then mapped: the same as the mapped list that is cut, iff nothing
is missing. -/
theorem map_take_eraseDups_iff {l : List (α × β)} {g : α → β} {n : Nat}
    (h : ∀ t ∈ l, t.1 ∈ (l.map Prod.fst).eraseDups.take n → g t.1 = t.2) :
    (((l.map Prod.fst).eraseDups.take n).map g).eraseDups = (l.map Prod.snd).eraseDups.take n ↔
      (((l.map Prod.fst).eraseDups.take n).map g).eraseDups.length = n ∨
        ∀ t ∈ l, t.2 ∈ ((l.map Prod.fst).eraseDups.take n).map g := by
  obtain ⟨k, -, hk⟩ := exists_take_eraseDups (l.map Prod.fst) n
  have hlength := List.length_take_le n (l.map Prod.fst).eraseDups
  rw [← hk] at h hlength ⊢
  rw [← List.map_take] at h hlength ⊢
  have hfirst : (l.take k).map Prod.snd = ((l.take k).map Prod.fst).map g := by
    rw [List.map_map]
    refine List.map_congr_left fun t ht => (h t (List.mem_of_mem_take ht) ?_).symm
    exact List.mem_eraseDups.mpr (List.mem_map_of_mem ht)
  have hlisted : ((((l.take k).map Prod.fst).eraseDups).map g).eraseDups =
      ((l.take k).map Prod.snd).eraseDups := by
    rw [eraseDups_map_eraseDups, hfirst]
  have hmem : ∀ b, b ∈ (((l.take k).map Prod.fst).eraseDups).map g ↔ b ∈ (l.take k).map Prod.snd := by
    intro b
    rw [← List.mem_eraseDups, hlisted, List.mem_eraseDups]
  have hsplit : (l.map Prod.snd).eraseDups = ((l.take k).map Prod.snd).eraseDups ++
      (((l.drop k).map Prod.snd).removeAll ((l.take k).map Prod.snd)).eraseDups := by
    conv_lhs => rw [← List.take_append_drop k l, List.map_append, List.eraseDups_append]
  have hcount : ((l.take k).map Prod.snd).eraseDups.length ≤ n := by
    rw [← hlisted]
    exact (length_eraseDups_le _).trans (by rwa [List.length_map])
  rw [hlisted, hsplit, List.take_append, List.take_of_length_le hcount, List.self_eq_append_right,
    List.take_eq_nil_iff]
  refine or_congr (by omega) ?_
  have hnone : (((l.drop k).map Prod.snd).removeAll ((l.take k).map Prod.snd)).eraseDups = [] ↔
      ∀ b ∈ (l.drop k).map Prod.snd, b ∈ (l.take k).map Prod.snd := by
    rw [List.eq_nil_iff_forall_not_mem]
    simp only [List.mem_eraseDups, List.removeAll, List.mem_filter, not_and, Bool.not_eq_true',
      List.elem_eq_mem, decide_eq_false_iff_not, not_not]
  rw [hnone]
  constructor
  · intro hrest t ht
    rw [← List.take_append_drop k l, List.mem_append] at ht
    exact (hmem t.2).mpr (ht.elim (fun ht => List.mem_map_of_mem ht)
      fun ht => hrest t.2 (List.mem_map_of_mem ht))
  · intro hall b hb
    obtain ⟨t, ht, rfl⟩ := List.mem_map.mp hb
    exact (hmem t.2).mp (hall t (List.mem_of_mem_drop ht))

end GuruJi.Lib
