import Mathlib.Algebra.BigOperators.Group.List.Basic
import Mathlib.Algebra.Order.Group.Defs
import Mathlib.Data.List.Perm.Basic

/-!
# Sums over the entries that meet a condition

`sumIf p f l` is SQL's `SUM(f) ... WHERE p`. When every group of entries has a sum that is not
negative, so has every union of groups (`sumIf_nonneg_of_groups`).
-/

namespace GuruJi.Lib

variable {α γ M : Type*}

/-- The sum of `f` over the entries that meet `p`. -/
def sumIf [AddCommMonoid M] (p : α → Bool) (f : α → M) (l : List α) : M :=
  (l.map fun a => if p a then f a else 0).sum

section
variable [AddCommMonoid M] (p : α → Bool) (f : α → M)

@[simp] theorem sumIf_nil : sumIf p f [] = 0 := rfl

@[simp] theorem sumIf_cons (a : α) (l : List α) :
    sumIf p f (a :: l) = (if p a then f a else 0) + sumIf p f l := by
  rw [sumIf, List.map_cons, List.sum_cons, sumIf]

@[simp] theorem sumIf_append (l l' : List α) : sumIf p f (l ++ l') = sumIf p f l + sumIf p f l' := by
  rw [sumIf, List.map_append, List.sum_append, sumIf, sumIf]

theorem sumIf_perm {l l' : List α} (h : l.Perm l') : sumIf p f l = sumIf p f l' :=
  (h.map _).sum_eq

theorem sumIf_congr {p q : α → Bool} {l : List α} (h : ∀ a ∈ l, p a = q a) :
    sumIf p f l = sumIf q f l := by
  refine congrArg List.sum (List.map_congr_left fun a ha => ?_)
  rw [h a ha]

theorem sumIf_split (q : α → Bool) (l : List α) :
    sumIf p f l = sumIf (fun a => p a && q a) f l + sumIf p f (l.filter fun a => !q a) := by
  induction l with
  | nil => simp
  | cons a l ih =>
    rw [sumIf_cons, ih, sumIf_cons]
    cases hq : q a with
    | true => simp [hq, add_assoc]
    | false => simp [hq, add_left_comm]

end

section
variable [AddCommGroup M] [LinearOrder M] [IsOrderedAddMonoid M] {f : α → M}

variable {l : List α} {p : α → Bool}

theorem sumIf_nonneg (h : ∀ a ∈ l, p a = true → 0 ≤ f a) : 0 ≤ sumIf p f l := by
  induction l with
  | nil => simp
  | cons a l ih =>
    rw [sumIf_cons]
    refine add_nonneg ?_ (ih fun b hb => h b (List.mem_cons_of_mem _ hb))
    split_ifs with hp
    · exact h a List.mem_cons_self hp
    · exact le_rfl

theorem sumIf_nonpos (h : ∀ a ∈ l, f a ≤ 0) : sumIf p f l ≤ 0 := by
  induction l with
  | nil => simp
  | cons a l ih =>
    rw [sumIf_cons]
    refine add_nonpos ?_ (ih fun b hb => h b (List.mem_cons_of_mem _ hb))
    split_ifs
    · exact h a List.mem_cons_self
    · exact le_rfl

theorem sumIf_map_le {β : Type*} {g g' : β → α} {l : List β}
    (h : ∀ b ∈ l, p (g b) = p (g' b) ∧ f (g b) ≤ f (g' b)) :
    sumIf p f (l.map g) ≤ sumIf p f (l.map g') := by
  induction l with
  | nil => simp
  | cons b l ih =>
    rw [List.map_cons, List.map_cons, sumIf_cons, sumIf_cons]
    obtain ⟨hp, hf⟩ := h b List.mem_cons_self
    refine add_le_add ?_ (ih fun c hc => h c (List.mem_cons_of_mem _ hc))
    rw [hp]
    split_ifs
    · exact hf
    · exact le_rfl

theorem sumIf_le {g : α → M} (h : ∀ a ∈ l, f a ≤ g a) : sumIf p f l ≤ sumIf p g l := by
  induction l with
  | nil => simp
  | cons a l ih =>
    rw [sumIf_cons, sumIf_cons]
    refine add_le_add ?_ (ih fun b hb => h b (List.mem_cons_of_mem _ hb))
    split_ifs
    · exact h a List.mem_cons_self
    · exact le_rfl

/-- Of two sums the one of which is entry by entry no larger, the sums are equal just when the
entries are. -/
theorem sumIf_eq_iff_of_le {g : α → M} (h : ∀ a ∈ l, f a ≤ g a) :
    sumIf p f l = sumIf p g l ↔ ∀ a ∈ l, p a = true → f a = g a := by
  induction l with
  | nil => simp
  | cons a l ih =>
    obtain ⟨ha, hl⟩ := List.forall_mem_cons.mp h
    rw [sumIf_cons, sumIf_cons, List.forall_mem_cons, ← ih hl]
    by_cases hp : p a = true
    · rw [if_pos hp, if_pos hp, add_eq_add_iff_eq_and_eq ha (sumIf_le hl)]
      exact and_congr_left fun _ => ⟨fun heq _ => heq, fun heq => heq hp⟩
    · rw [if_neg hp, if_neg hp, zero_add, zero_add]
      exact ⟨fun heq => ⟨fun h => absurd h hp, heq⟩, And.right⟩

/-- When the entries of every group have a sum that is not negative, so have the entries of any
set of groups. -/
theorem sumIf_nonneg_of_groups [DecidableEq γ] (g : α → γ) (l : List α)
    (h : ∀ c, 0 ≤ sumIf (fun a => g a = c) f l) (q : γ → Bool) :
    0 ≤ sumIf (fun a => q (g a)) f l := by
  induction hn : l.length using Nat.strong_induction_on generalizing l with
  | _ n ih =>
    cases l with
    | nil => simp
    | cons a l =>
      rw [sumIf_split (fun a => q (g a)) f fun b => g b = g a]
      refine add_nonneg ?_ (ih _ ?_ _ (fun c => ?_) rfl)
      · cases hq : q (g a) with
        | true =>
          rw [sumIf_congr f (q := fun b => g b = g a)]
          · exact h (g a)
          · intro b _
            by_cases hb : g b = g a <;> simp [hb, hq]
        | false =>
          refine sumIf_nonneg fun b _ hb => ?_
          simp only [Bool.and_eq_true, decide_eq_true_eq] at hb
          rw [hb.2, hq] at hb
          exact absurd hb.1 (by decide)
      · rw [← hn, List.filter_cons_of_neg (by simp)]
        exact Nat.lt_succ_of_le (List.length_filter_le _ _)
      · -- the group of `a` is gone, the others are as they were
        have hc := h c
        rw [sumIf_split _ f fun b => g b = g a] at hc
        by_cases hca : c = g a
        · subst hca
          refine sumIf_nonneg fun b hb hgb => ?_
          simp only [List.mem_filter, Bool.not_eq_true', decide_eq_false_iff_not] at hb
          exact absurd (by simpa using hgb) hb.2
        · refine hc.trans_eq ?_
          rw [add_eq_right]
          refine (sumIf_congr f (q := fun _ => false) fun b _ => ?_).trans ?_
          · by_cases hb : g b = c
            · simp [hb, hca]
            · simp [hb]
          · simp [sumIf]

end

end GuruJi.Lib
