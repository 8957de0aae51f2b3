import Mathlib.Data.List.Induction
import Mathlib.Data.List.Perm.Subperm
import Mathlib.Tactic.Common

/-!
# Chains

Following a partial function from a start, remembering what was seen, for a bounded number of steps.

* `up`: what stands `k` steps above the start, on a chain that may end or run into itself;
* `walk_complete_iff`: a bounded walk meets the whole chain iff the chain has no more members than the
  bound;
* `firsts`: the labels met on a list, each where it is first met (`firsts_nodup`, `mem_firsts`,
  `firsts_pairwise`).
-/

namespace GuruJi.Lib

section
variable {α : Type*} (next : α → Option α)

/-- What stands `k` steps above the start. -/
def up (start : Option α) : Nat → Option α
  | 0 => start
  | k + 1 => (up start k).bind next

/-- The next elements, until there is none, one was seen, or the fuel is spent. -/
def walk [DecidableEq α] : Nat → List α → Option α → List α
  | fuel + 1, seen, some a => if a ∈ seen then [] else a :: walk fuel (a :: seen) (next a)
  | _, _, _ => []

variable {next}

@[simp] theorem up_zero (start : Option α) : up next start 0 = start := rfl

theorem up_succ (start : Option α) (k : Nat) : up next start (k + 1) = (up next start k).bind next := rfl

theorem up_none (k : Nat) : up next none k = none := by
  induction k with
  | zero => rfl
  | succ k ih => rw [up_succ, ih, Option.bind_none]

theorem up_some_succ (a : α) (k : Nat) : up next (some a) (k + 1) = up next (next a) k := by
  induction k with
  | zero => rfl
  | succ k ih => rw [up_succ, ih, up_succ]

variable [DecidableEq α]

@[simp] theorem walk_zero (seen : List α) (start : Option α) : walk next 0 seen start = [] := by
  cases start <;> rfl

@[simp] theorem walk_none (fuel : Nat) (seen : List α) : walk next fuel seen none = [] := by
  cases fuel <;> rfl

variable {fuel : Nat} {seen : List α} {start : Option α}

theorem walk_seen {a : α} (h : a ∈ seen) : walk next fuel seen (some a) = [] := by
  cases fuel with
  | zero => rfl
  | succ fuel => exact if_pos h

theorem walk_new {a : α} (h : a ∉ seen) :
    walk next (fuel + 1) seen (some a) = a :: walk next fuel (a :: seen) (next a) := if_neg h

theorem walk_nodup (fuel : Nat) (seen : List α) (start : Option α) :
    (walk next fuel seen start).Nodup ∧ ∀ x ∈ walk next fuel seen start, x ∉ seen := by
  induction fuel generalizing seen start with
  | zero => simp
  | succ fuel ih =>
    rcases start with _ | a
    · simp
    by_cases ha : a ∈ seen
    · simp [walk_seen ha]
    obtain ⟨hnodup, hnew⟩ := ih (a :: seen) (next a)
    rw [walk_new ha]
    refine ⟨List.nodup_cons.mpr ⟨fun hmem => hnew a hmem List.mem_cons_self, hnodup⟩, ?_⟩
    refine List.forall_mem_cons.mpr ⟨ha, fun x hx hseen => ?_⟩
    exact hnew x hx (List.mem_cons_of_mem a hseen)

theorem length_walk_le (fuel : Nat) (seen : List α) (start : Option α) :
    (walk next fuel seen start).length ≤ fuel := by
  induction fuel generalizing seen start with
  | zero => simp
  | succ fuel ih =>
    rcases start with _ | a
    · simp
    by_cases ha : a ∈ seen
    · simp [walk_seen ha]
    · rw [walk_new ha, List.length_cons]
      exact Nat.succ_le_succ (ih _ _)

theorem up_of_getElem?_walk {fuel k : Nat} {b : α}
    (h : (walk next fuel seen start)[k]? = some b) : up next start k = some b := by
  induction fuel generalizing seen start k with
  | zero => simp at h
  | succ fuel ih =>
    rcases start with _ | a
    · simp at h
    by_cases ha : a ∈ seen
    · simp [walk_seen ha] at h
    rw [walk_new ha] at h
    cases k with
    | zero => exact h
    | succ k =>
      rw [List.getElem?_cons_succ] at h
      rw [up_some_succ]
      exact ih h

theorem up_of_mem_walk {b : α} (h : b ∈ walk next fuel seen start) : ∃ k, up next start k = some b := by
  obtain ⟨k, hk⟩ := List.mem_iff_getElem?.mp h
  exact ⟨k, up_of_getElem?_walk hk⟩

theorem walk_closed (h : (walk next fuel seen start).length < fuel) :
    (∀ a, start = some a → a ∈ seen ∨ a ∈ walk next fuel seen start) ∧
      ∀ x ∈ walk next fuel seen start, ∀ y, next x = some y →
        y ∈ seen ∨ y ∈ walk next fuel seen start := by
  induction fuel generalizing seen start with
  | zero => exact absurd h (Nat.not_lt_zero _)
  | succ fuel ih =>
    rcases start with _ | a
    · simp
    by_cases ha : a ∈ seen
    · simp [walk_seen ha, ha]
    rw [walk_new ha, List.length_cons] at h
    obtain ⟨hstart, hstep⟩ := ih (Nat.lt_of_succ_lt_succ h)
    have hwiden : ∀ y, y ∈ a :: seen ∨ y ∈ walk next fuel (a :: seen) (next a) →
        y ∈ seen ∨ y ∈ a :: walk next fuel (a :: seen) (next a) := by
      rintro y (hy | hy)
      · rcases List.mem_cons.mp hy with rfl | hy
        · exact .inr List.mem_cons_self
        · exact .inl hy
      · exact .inr (List.mem_cons_of_mem a hy)
    rw [walk_new ha]
    refine ⟨?_, List.forall_mem_cons.mpr ⟨fun y hy => hwiden y (hstart y hy), ?_⟩⟩
    · rintro b hb
      rw [Option.some.injEq] at hb
      exact .inr (hb ▸ List.mem_cons_self)
    · exact fun x hx y hy => hwiden y (hstep x hx y hy)

theorem mem_walk_of_short {fuel k : Nat} {b : α}
    (h : (walk next fuel [] start).length < fuel) (hb : up next start k = some b) :
    b ∈ walk next fuel [] start := by
  obtain ⟨hstart, hstep⟩ := walk_closed h
  induction k generalizing b with
  | zero => exact (hstart b hb).resolve_left List.not_mem_nil
  | succ k ih =>
    rw [up_succ] at hb
    obtain ⟨x, hx, hxb⟩ := Option.bind_eq_some_iff.mp hb
    exact (hstep x (ih hx) b hxb).resolve_left List.not_mem_nil

/-- A bounded walk meets the whole chain iff the chain has no more members than the bound. -/
theorem walk_complete_iff (fuel : Nat) (start : Option α) :
    (∀ k b, up next start k = some b → b ∈ walk next fuel [] start) ↔
      ∃ l : List α, l.length ≤ fuel ∧ ∀ k b, up next start k = some b → b ∈ l := by
  constructor
  · intro h
    exact ⟨walk next fuel [] start, length_walk_le fuel [] start, h⟩
  rintro ⟨l, hlen, hl⟩ k b hb
  rcases Nat.lt_or_eq_of_le (length_walk_le fuel [] start) with hshort | hfull
  · exact mem_walk_of_short hshort hb
  · -- as many were met as the chain can have
    have hsub : walk next fuel [] start ⊆ l := fun x hx => by
      obtain ⟨j, hj⟩ := up_of_mem_walk hx
      exact hl j x hj
    have hperm : (walk next fuel [] start).Perm l :=
      ((walk_nodup fuel [] start).1.subperm hsub).perm_of_length_le (by omega)
    exact hperm.mem_iff.mpr (hl k b hb)

end

/-! ## Labels in the order they are met -/

section
variable {α β : Type*} {label : α → Option β}

/-- The label `b` is met at `k`. -/
def MetAt (label : α → Option β) (l : List α) (k : Nat) (b : β) : Prop :=
  ∃ x, l[k]? = some x ∧ label x = some b

variable {b : β}

theorem MetAt.lt {l : List α} {k : Nat} (h : MetAt label l k b) : k < l.length := by
  obtain ⟨x, hx, -⟩ := h
  exact (List.getElem?_eq_some_iff.mp hx).1

theorem metAt_append {l s : List α} {k : Nat} (h : k < l.length) :
    MetAt label (l ++ s) k b ↔ MetAt label l k b := by
  rw [MetAt, MetAt, List.getElem?_append_left h]

variable (label) [DecidableEq β]

/-- `if label not in found: found.append(label)`. -/
def meet (found : List β) (x : α) : List β :=
  match label x with
  | some b => if b ∈ found then found else found ++ [b]
  | none => found

/-- The labels of a list, each where it is first met. -/
def firsts (l : List α) : List β := l.foldl (meet label) []

variable {label}

@[simp] theorem firsts_nil : firsts label ([] : List α) = [] := rfl

theorem firsts_concat (l : List α) (x : α) : firsts label (l ++ [x]) =
    meet label (firsts label l) x := by
  rw [firsts, List.foldl_concat]
  rfl

theorem mem_meet {found : List β} {x : α} : b ∈ meet label found x ↔ b ∈ found ∨ label x = some b := by
  rw [meet]
  rcases hx : label x with _ | c
  · simp
  · by_cases hc : c ∈ found
    · simp only [if_pos hc, Option.some.injEq]
      exact ⟨.inl, fun h => h.elim id fun heq => heq ▸ hc⟩
    · simp [hc, eq_comm]

theorem mem_firsts {l : List α} : b ∈ firsts label l ↔ ∃ x ∈ l, label x = some b := by
  induction l using List.reverseRecOn with
  | nil => simp
  | append_singleton l x ih =>
    rw [firsts_concat, mem_meet, ih]
    simp only [List.mem_append, List.mem_singleton, or_and_right, exists_or, exists_eq_left]

theorem firsts_nodup (l : List α) : (firsts label l).Nodup := by
  induction l using List.reverseRecOn with
  | nil => exact List.nodup_nil
  | append_singleton l x ih =>
    rw [firsts_concat, meet]
    rcases label x with _ | b
    · exact ih
    · show (if b ∈ firsts label l then firsts label l else firsts label l ++ [b]).Nodup
      by_cases hb : b ∈ firsts label l
      · rwa [if_pos hb]
      · rw [if_neg hb]
        exact List.nodup_append.mpr ⟨ih, List.pairwise_singleton _ b,
          fun a ha c hc heq => hb (List.mem_singleton.mp hc ▸ heq ▸ ha)⟩

theorem exists_metAt {l : List α} (h : b ∈ firsts label l) : ∃ k, MetAt label l k b := by
  obtain ⟨x, hx, hb⟩ := mem_firsts.mp h
  obtain ⟨k, hk⟩ := List.mem_iff_getElem?.mp hx
  exact ⟨k, x, hk, hb⟩

/-- Of two labels the first was met before any meeting of the second. -/
theorem firsts_pairwise (l : List α) : (firsts label l).Pairwise fun a b =>
    ∀ k, MetAt label l k b → ∃ j < k, MetAt label l j a := by
  induction l using List.reverseRecOn with
  | nil => exact List.Pairwise.nil
  | append_singleton l x ih =>
    have hold : ∀ a ∈ firsts label l, ∀ k, l.length ≤ k → ∃ j < k, MetAt label (l ++ [x]) j a := by
      intro a ha k hk
      obtain ⟨j, hj⟩ := exists_metAt ha
      exact ⟨j, Nat.lt_of_lt_of_le hj.lt hk, (metAt_append hj.lt).mpr hj⟩
    have hkept : (firsts label l).Pairwise fun a b =>
        ∀ k, MetAt label (l ++ [x]) k b → ∃ j < k, MetAt label (l ++ [x]) j a := by
      refine ih.imp_of_mem fun {a b} ha hb h k hk => ?_
      rcases Nat.lt_or_ge k l.length with hlt | hge
      · obtain ⟨j, hj, hmet⟩ := h k ((metAt_append hlt).mp hk)
        exact ⟨j, hj, (metAt_append (Nat.lt_trans hj hlt)).mpr hmet⟩
      · exact hold a ha k hge
    rw [firsts_concat, meet]
    rcases hx : label x with _ | c
    · exact hkept
    · show (if c ∈ firsts label l then firsts label l else firsts label l ++ [c]).Pairwise _
      by_cases hc : c ∈ firsts label l
      · rwa [if_pos hc]
      · rw [if_neg hc]
        refine List.pairwise_append.mpr ⟨hkept, List.pairwise_singleton _ c, ?_⟩
        rintro a ha b hb k hk
        rw [List.mem_singleton.mp hb] at hk
        refine hold a ha k (Nat.not_lt.mp fun hlt => hc ?_)
        obtain ⟨y, hy, hlabel⟩ := (metAt_append hlt).mp hk
        exact mem_firsts.mpr ⟨y, List.mem_of_getElem? hy, hlabel⟩

end

end GuruJi.Lib
