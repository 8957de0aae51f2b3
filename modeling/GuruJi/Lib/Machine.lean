import Mathlib.Tactic.Common

/-!
# Machines and guarded runs

A `Machine` is a step function driven by a schedule of actions: any interleaving of concurrent
callers is a list of actions. `Run ok` is a run whose every action meets the guard `ok` in the
state it is taken in; the unguarded runs are `Run Always`.

* `Run.invariant`: what every guarded step preserves, every guarded run preserves.
* `Reaches.invariant`: the same from the initial states.
* `run_of_exec`: running a schedule is a run, so a concrete schedule is a reachable state.
-/

namespace GuruJi.Lib

/-- A step function driven by actions; `none` when the action cannot be taken in that state. -/
structure Machine (σ α : Type*) where
  init : σ → Prop
  step : σ → α → Option σ

namespace Machine
variable {σ α : Type*} {M : Machine σ α} {ok ok' : σ → α → Prop}

def Always : σ → α → Prop := fun _ _ => True

/-- `M.Run ok s as t`: taking the actions `as` in order leads from `s` to `t`. -/
inductive Run (M : Machine σ α) (ok : σ → α → Prop) : σ → List α → σ → Prop
  | nil (s : σ) : Run M ok s [] s
  | cons {s t u : σ} {a : α} {as : List α} (hok : ok s a) (hstep : M.step s a = some t)
      (hrun : Run M ok t as u) : Run M ok s (a :: as) u

/-- `t` is reached by a guarded run from an initial state. -/
def Reaches (M : Machine σ α) (ok : σ → α → Prop) (t : σ) : Prop :=
  ∃ s as, M.init s ∧ M.Run ok s as t

/-- `P` is kept by every guarded step. -/
def Keeps (M : Machine σ α) (ok : σ → α → Prop) (P : σ → Prop) : Prop :=
  ∀ s a t, P s → ok s a → M.step s a = some t → P t

variable {as : List α} {s t : σ}

theorem Run.mono (h : ∀ s a, ok s a → ok' s a) (hr : M.Run ok s as t) : M.Run ok' s as t := by
  induction hr with
  | nil s => exact .nil s
  | cons hok hstep _ ih => exact .cons (h _ _ hok) hstep ih

theorem Run.append {s t u : σ} {as bs : List α} (h : M.Run ok s as t) (h' : M.Run ok t bs u) :
    M.Run ok s (as ++ bs) u := by
  induction h with
  | nil s => exact h'
  | cons hok hstep _ ih => exact .cons hok hstep (ih h')

theorem Run.snoc {s t u : σ} {a : α} (h : M.Run ok s as t) (hok : ok t a)
    (hstep : M.step t a = some u) : M.Run ok s (as ++ [a]) u :=
  h.append (.cons hok hstep (.nil u))

theorem Run.invariant {P : σ → Prop} (hr : M.Run ok s as t) (hP : M.Keeps ok P) (hs : P s) : P t := by
  induction hr with
  | nil s => exact hs
  | cons hok hstep _ ih => exact ih (hP _ _ _ hs hok hstep)

/-- What holds initially and is kept by every guarded step holds in every reached state. -/
theorem Reaches.invariant {P : σ → Prop} {t : σ} (h : M.Reaches ok t) (hP : M.Keeps ok P)
    (hinit : ∀ s, M.init s → P s) : P t := by
  obtain ⟨s, as, hs, hr⟩ := h
  exact hr.invariant hP (hinit s hs)

theorem Reaches.run (h : M.Reaches ok s) (hr : M.Run ok s as t) : M.Reaches ok t := by
  obtain ⟨s₀, bs, hs₀, hr₀⟩ := h
  exact ⟨s₀, bs ++ as, hs₀, hr₀.append hr⟩

theorem Reaches.step {a : α} (h : M.Reaches ok s) (hok : ok s a)
    (hstep : M.step s a = some t) : M.Reaches ok t :=
  h.run (.cons hok hstep (.nil t))

theorem Keeps.and {P Q : σ → Prop} (hP : M.Keeps ok P)
    (hQ : ∀ s a t, P s → Q s → ok s a → M.step s a = some t → Q t) :
    M.Keeps ok fun s => P s ∧ Q s :=
  fun s a t h hok hstep => ⟨hP s a t h.1 hok hstep, hQ s a t h.1 h.2 hok hstep⟩

/-! ## Running a schedule -/

/-- Take the actions of a schedule in order, as long as each meets the guard. -/
def exec (M : Machine σ α) (ok : σ → α → Prop) [∀ s a, Decidable (ok s a)] : σ → List α → Option σ
  | s, [] => some s
  | s, a :: as => if ok s a then (M.step s a).bind fun t => M.exec ok t as else none

instance : ∀ (s : σ) (a : α), Decidable (Always s a) := fun _ _ => .isTrue trivial

theorem run_of_exec [∀ s a, Decidable (ok s a)] (h : M.exec ok s as = some t) : M.Run ok s as t := by
  induction as generalizing s with
  | nil =>
    simp only [exec, Option.some.injEq] at h
    exact h ▸ .nil s
  | cons a as ih =>
    rw [exec] at h
    split_ifs at h with hok
    obtain ⟨u, hu, h⟩ := Option.bind_eq_some_iff.mp h
    exact .cons hok hu (ih h)

theorem reaches_of_exec (M : Machine σ α) (ok : σ → α → Prop) [∀ s a, Decidable (ok s a)] {s : σ}
    (as : List α) (p : σ → Bool) (hs : M.init s) (h : (M.exec ok s as).map p = some true) :
    ∃ t, M.Reaches ok t ∧ p t = true := by
  obtain ⟨t, ht, hp⟩ := Option.map_eq_some_iff.mp h
  exact ⟨t, ⟨s, as, hs, run_of_exec ht⟩, hp⟩

end Machine

end GuruJi.Lib
