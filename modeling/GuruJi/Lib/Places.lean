import Mathlib.Data.List.Perm.Subperm
import Mathlib.Tactic.Common

/-!
# Places in a list

* `index_of_increasing`: elements that are found in their order are found where they stand;
* `mem_take_filter`: what is among the first stays among the first when others are left out.
-/

namespace GuruJi.Lib

/-- Elements that are found in the order in which they stand are found where they stand, when what is
found is among what is sought. -/
theorem index_of_increasing {α : Type*} {start : α → Nat} {l counted : List α} {sought own : α → Prop}
    [DecidablePred sought] (hl : l.Pairwise (start · < start ·)) (hcounted : counted.Sublist l)
    (hown : ∀ c ∈ counted, own c → sought c) {index : α → Nat}
    (hindex : ∀ c ∈ l, sought c → ∃ d, counted[index c]? = some d ∧ own d)
    (hmono : ∀ c ∈ l, ∀ c' ∈ l, sought c → sought c' → start c < start c' → index c < index c') :
    ∀ c ∈ l, sought c → counted[index c]? = some c := by
  let found (c : α) : α := (counted[index c]?).getD c
  have hfound : ∀ c ∈ l, sought c → counted[index c]? = some (found c) ∧ found c ∈ l.filter sought := by
    intro c hc hsought
    obtain ⟨d, hd, hd'⟩ := hindex c hc hsought
    have heq : found c = d := by
      show (counted[index c]?).getD c = d
      rw [hd]
      rfl
    have hmem := List.mem_of_getElem? hd
    rw [heq]
    exact ⟨hd, List.mem_filter.mpr ⟨hcounted.subset hmem, decide_eq_true (hown d hmem hd')⟩⟩
  have hpairwise := hl.filter sought
  have hincreasing : ((l.filter sought).map found).Pairwise (start · < start ·) := by
    rw [List.pairwise_map]
    refine (List.Pairwise.and_mem.mp hpairwise).imp fun {c c'} h => ?_
    obtain ⟨hc, hc', hlt⟩ := h
    obtain ⟨hc, hsought⟩ := List.mem_filter.mp hc
    obtain ⟨hc', hsought'⟩ := List.mem_filter.mp hc'
    have hsought := of_decide_eq_true hsought
    have hsought' := of_decide_eq_true hsought'
    obtain ⟨hi, heq⟩ := List.getElem?_eq_some_iff.mp (hfound c hc hsought).1
    obtain ⟨hj, heq'⟩ := List.getElem?_eq_some_iff.mp (hfound c' hc' hsought').1
    rw [← heq, ← heq']
    exact List.pairwise_iff_getElem.mp (hl.sublist hcounted) _ _ hi hj
      (hmono c hc c' hc' hsought hsought' hlt)
  have hnodup : ((l.filter sought).map found).Nodup := hincreasing.imp fun h heq => by
    rw [heq] at h
    exact absurd h (Nat.lt_irrefl _)
  have hsubset : (l.filter sought).map found ⊆ l.filter sought := by
    intro d hd
    obtain ⟨c, hc, rfl⟩ := List.mem_map.mp hd
    obtain ⟨hc, hsought⟩ := List.mem_filter.mp hc
    exact (hfound c hc (of_decide_eq_true hsought)).2
  have hperm := (hnodup.subperm hsubset).perm_of_length_le (Nat.le_of_eq (List.length_map found).symm)
  have heq : (l.filter sought).map found = (l.filter sought).map id := by
    rw [List.map_id]
    exact hperm.eq_of_pairwise (fun _ _ _ _ h h' => absurd h (Nat.lt_asymm h')) hincreasing hpairwise
  intro c hc hsought
  have hmem : c ∈ l.filter sought := List.mem_filter.mpr ⟨hc, decide_eq_true hsought⟩
  rw [(hfound c hc hsought).1, List.map_inj_left.mp heq c hmem]
  rfl

/-- What is among the first elements stays among them when others are left out. -/
theorem mem_take_filter {α : Type*} {p : α → Bool} {l : List α} {a : α} {n : Nat} (ha : a ∈ l.take n)
    (hp : p a = true) : a ∈ (l.filter p).take n := by
  have hlength : ((l.take n).filter p).length ≤ n :=
    Nat.le_trans (List.length_filter_le p _) (List.length_take_le n l)
  have hsplit : l.filter p = (l.take n).filter p ++ (l.drop n).filter p := by
    rw [← List.filter_append, List.take_append_drop]
  rw [hsplit, List.take_append, List.take_of_length_le hlength]
  exact List.mem_append_left _ (List.mem_filter.mpr ⟨ha, hp⟩)

end GuruJi.Lib
