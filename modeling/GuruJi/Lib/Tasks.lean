import GuruJi.Lib.Calls
import Mathlib.Order.Defs.PartialOrder

/-!
# Tasks on a shared state

A task is done or asks for an effect and goes on with its answer. Tasks share a state: between two
effects of one task the others may have theirs, and an answer is any the state admits. The state only
grows (`[Preorder σ]`), and what is known of it goes on to hold.

* `Safe`: every effect of the task keeps an invariant, whatever the others do that keep it, with the
  rules of the combinators;
* `Within`: what a task spends at most;
* `tasks_keep`, `spent_le`: any number of tasks together.

A task that may raise is an `ExceptT`; nothing is promised of what is raised.
-/

namespace GuruJi.Lib

variable {E : Type} {A : E → Type} {α β σ O ε : Type}

/-- A task that ends with a value. -/
inductive Task (E : Type) (A : E → Type) (α : Type) where
  | done (value : α)
  | call (effect : E) (next : A effect → Task E A α)

namespace Task

def bind : Task E A α → (α → Task E A β) → Task E A β
  | done value, f => f value
  | call effect next, f => call effect fun answer => (next answer).bind f

instance : Monad (Task E A) where
  pure := done
  bind := bind

def perform (effect : E) : Task E A (A effect) := call effect done

/-! ## Safety -/

variable [Preorder σ] (act : (effect : E) → A effect → σ → Option σ) (Inv : σ → Prop)

/-- Every effect keeps the invariant and only adds to the state; at the end the postcondition holds. -/
def Safe (Post : σ → α → Prop) : Task E A α → σ → Prop
  | done value, s => Post s value
  | call effect next, s => ∀ s', s ≤ s' → Inv s' → ∀ answer s'', act effect answer s' = some s'' →
      (Inv s'' ∧ s' ≤ s'') ∧ (next answer).Safe Post s''

variable {act Inv} {Post : σ → α → Prop} {Post' : σ → β → Prop}

variable {task : Task E A α}

theorem Safe.mono {Post₁ : σ → α → Prop} {s : σ} (h : Safe act Inv Post task s)
    (hpost : ∀ s' value, s ≤ s' → Post s' value → Post₁ s' value) : Safe act Inv Post₁ task s := by
  induction task generalizing s with
  | done value => exact hpost s value le_rfl h
  | call effect next ih =>
    intro s' hle hinv answer s'' hact
    obtain ⟨⟨hinv', hle'⟩, hnext⟩ := h s' hle hinv answer s'' hact
    exact ⟨⟨hinv', hle'⟩, ih answer hnext fun t value ht => hpost t value (hle.trans (hle'.trans ht))⟩

theorem Safe.later {s s' : σ} (h : Safe act Inv Post task s) (hle : s ≤ s')
    (hpost : ∀ value, Post s value → Post s' value) : Safe act Inv Post task s' := by
  cases task with
  | done value => exact hpost value h
  | call effect next => exact fun t ht => h t (hle.trans ht)

theorem Safe.bind {f : α → Task E A β} {s : σ} (h : Safe act Inv Post task s)
    (hf : ∀ s' value, s ≤ s' → Post s' value → Safe act Inv Post' (f value) s') :
    Safe act Inv Post' (task >>= f) s := by
  show Safe act Inv Post' (task.bind f) s
  induction task generalizing s with
  | done value => exact hf s value le_rfl h
  | call effect next ih =>
    intro s' hle hinv answer s'' hact
    obtain ⟨⟨hinv', hle'⟩, hnext⟩ := h s' hle hinv answer s'' hact
    exact ⟨⟨hinv', hle'⟩, ih answer hnext fun t value ht => hf t value (hle.trans (hle'.trans ht))⟩

/-! ## Spending -/

/-- The task spends at most `n`. -/
def Within (cost : E → Nat) : Task E A α → Nat → Prop
  | done _, _ => True
  | call effect next, n => cost effect ≤ n ∧ ∀ answer, (next answer).Within cost (n - cost effect)

variable {cost : E → Nat}

theorem Within.mono {m n : Nat} (h : task.Within cost m) (hle : m ≤ n) : task.Within cost n := by
  induction task generalizing m n with
  | done value => trivial
  | call effect next ih =>
      exact ⟨Nat.le_trans h.1 hle, fun answer => ih answer (h.2 answer) (Nat.sub_le_sub_right hle _)⟩

theorem Within.bind {f : α → Task E A β} {m n : Nat} (h : task.Within cost m)
    (hf : ∀ value, (f value).Within cost n) : (task >>= f).Within cost (m + n) := by
  show (task.bind f).Within cost (m + n)
  induction task generalizing m with
  | done value => exact (hf value).mono (Nat.le_add_left n m)
  | call effect next ih =>
    refine ⟨Nat.le_trans h.1 (Nat.le_add_right m n), fun answer => (ih answer (h.2 answer)).mono ?_⟩
    have := h.1
    omega

end Task

/-! ## Tasks that may raise -/

abbrev Attempt (E : Type) (A : E → Type) (ε α : Type) := ExceptT ε (Task E A) α

namespace Attempt

variable [Preorder σ] {act : (effect : E) → A effect → σ → Option σ} {Inv : σ → Prop}
    {Post : σ → α → Prop}
  {Post' : σ → β → Prop} {s : σ}

def ask (effect : E) : Attempt E A ε (A effect) := ExceptT.lift (Task.perform effect)

variable (act Inv) in
/-- The attempt is safe, and the postcondition holds of what it returns. -/
def Safe (Post : σ → α → Prop) (attempt : Attempt E A ε α) (s : σ) : Prop :=
  Task.Safe act Inv (fun s result => ∀ value, result = .ok value → Post s value) attempt.run s

theorem safe_pure {value : α} (h : Post s value) : Safe act Inv Post
    (pure value : Attempt E A ε α) s := by
  rintro _ ⟨⟩
  exact h

theorem safe_throw (e : ε) : Safe act Inv Post (throw e : Attempt E A ε α) s := nofun

theorem safe_ask {effect : E} {P : σ → A effect → Prop}
    (h : ∀ s', s ≤ s' → Inv s' → ∀ answer s'', act effect answer s' = some s'' →
      (Inv s'' ∧ s' ≤ s'') ∧ P s'' answer) : Safe act Inv P
      (ask effect : Attempt E A ε (A effect)) s := by
  intro s' hle hinv answer s'' hact
  obtain ⟨hkept, hanswer⟩ := h s' hle hinv answer s'' hact
  refine ⟨hkept, ?_⟩
  rintro _ ⟨⟩
  exact hanswer

variable {attempt : Attempt E A ε α}

theorem Safe.mono {Post₁ : σ → α → Prop} (h : Safe act Inv Post attempt s)
    (hpost : ∀ s' value, s ≤ s' → Post s' value → Post₁ s' value) : Safe act Inv Post₁ attempt s :=
  Task.Safe.mono h fun s' _ hle hresult value hvalue => hpost s' value hle (hresult value hvalue)

theorem Safe.bind {f : α → Attempt E A ε β} (h : Safe act Inv Post attempt s)
    (hf : ∀ s' value, s ≤ s' → Post s' value → Safe act Inv Post' (f value) s') :
    Safe act Inv Post' (attempt >>= f) s := by
  refine Task.Safe.bind h fun s' result hle hresult => ?_
  cases result with
  | ok value => exact hf s' value hle (hresult value rfl)
  | error e => exact nofun

theorem Safe.catch {handler : ε → Attempt E A ε α} (h : Safe act Inv Post attempt s)
    (hhandler : ∀ s' e, s ≤ s' → Safe act Inv Post (handler e) s') :
    Safe act Inv Post (tryCatch attempt handler) s := by
  refine Task.Safe.bind h fun s' result hle hresult => ?_
  cases result with
  | ok value => exact hresult
  | error e => exact hhandler s' e hle

theorem Safe.run (h : Safe act Inv Post attempt s) : Task.Safe act Inv (fun _ _ => True) attempt.run s :=
  Task.Safe.mono h fun _ _ _ _ => trivial

variable {cost : E → Nat} {m n : Nat}

/-- The attempt spends at most `n`. -/
def Within (cost : E → Nat) (attempt : Attempt E A ε α) (n : Nat) : Prop :=
    Task.Within cost attempt.run n

theorem within_pure (value : α) (n : Nat) : Within cost (pure value : Attempt E A ε α) n := trivial

theorem within_throw (e : ε) (n : Nat) : Within cost (throw e : Attempt E A ε α) n := trivial

theorem within_ask (effect : E) : Within cost (ask effect : Attempt E A ε (A effect)) (cost effect) :=
  ⟨Nat.le_refl _, fun _ => trivial⟩

theorem Within.mono (h : Within cost attempt m) (hle : m ≤ n) :
    Within cost attempt n := Task.Within.mono h hle

theorem Within.bind {f : α → Attempt E A ε β} (h : Within cost attempt m)
    (hf : ∀ value, Within cost (f value) n) : Within cost (attempt >>= f) (m + n) := by
  refine Task.Within.bind h fun result => ?_
  cases result with
  | ok value => exact hf value
  | error e => trivial

theorem Within.catch {handler : ε → Attempt E A ε α} (h : Within cost attempt m)
    (hhandler : ∀ e, Within cost (handler e) n) : Within cost (tryCatch attempt handler) (m + n) := by
  refine Task.Within.bind h fun result => ?_
  cases result with
  | ok value => trivial
  | error e => exact hhandler e

theorem Within.run (h : Within cost attempt n) : attempt.run.Within cost n :=
    h

-- an attempt is followed by the rules, not by running it
attribute [irreducible] Safe Within

end Attempt

/-! ## Tasks together -/

/-- A task that runs, and what it has spent; `none` before it begins. -/
structure Job (E : Type) (A : E → Type) (α : Type) where
  spent : Nat
  task : Option (Task E A α)

/-- The next effect of a task, with an answer the state admits. -/
def Job.advance (cost : E → Nat) (prog : O → Task E A α) (act : O → (effect : E) → A effect → σ →
    Option σ)
    (answers : (effect : E) → A effect) (op : O) (job : Job E A α) (s : σ) : Option (Job E A α × σ) :=
  match job.task with
  | none => some (⟨job.spent, some (prog op)⟩, s)
  | some (.done _) => none
  | some (.call effect next) =>
    (act op effect (answers effect) s).map fun s' =>
        (⟨job.spent + cost effect, some (next (answers effect))⟩, s')

def tasks (cost : E → Nat) (prog : O → Task E A α) (act : O → (effect : E) → A effect → σ → Option σ) :
    Machine (Pool σ O (Job E A α)) (Turn O ((effect : E) → A effect)) :=
  interleaved ⟨0, none⟩ (Job.advance cost prog act)

section
open Machine

variable {cost : E → Nat} {prog : O → Task E A α} {act : O → (effect : E) → A effect → σ → Option σ}
  {Inv : σ → Prop}

theorem Job.advance_cases {answers : (effect : E) → A effect} {op : O} {job job' : Job E A α} {s s' : σ}
    (h : job.advance cost prog act answers op s = some (job', s')) :
    (job.task = none ∧ job' = ⟨job.spent, some (prog op)⟩ ∧ s' = s) ∨
      ∃ effect next, job.task = some (.call effect next) ∧ act op effect (answers effect) s = some s' ∧
        job' = ⟨job.spent + cost effect, some (next (answers effect))⟩ := by
  unfold advance at h
  split at h
  · rename_i hnone
    cases h
    exact .inl ⟨hnone, rfl, rfl⟩
  · cases h
  · rename_i effect next hcall
    obtain ⟨t, ht, heq⟩ := Option.map_eq_some_iff.mp h
    cases heq
    exact .inr ⟨effect, next, hcall, ht, rfl⟩

variable [Preorder σ] in
/-- **Safe tasks keep the invariant together.** -/
theorem tasks_keep (hprog : ∀ op s, Inv s → (prog op).Safe (act op) Inv (fun _ _ => True) s) :
    (tasks cost prog act).Keeps Always fun pool => Inv pool.db ∧
      ∀ call ∈ pool.calls, ∀ task ∈ call.2.task,
      task.Safe (act call.1) Inv (fun _ _ => True) pool.db := by
  rintro pool turn pool' ⟨hinv, hsafe⟩ - hstep
  rcases Pool.step_cases hstep with ⟨op, -, rfl⟩ | ⟨i, answers, op, job, job', s', -, hcall, hadvance,
    rfl⟩
  · refine ⟨hinv, fun call hmem => ?_⟩
    rcases List.mem_append.mp hmem with hmem | hmem
    · exact hsafe call hmem
    · rw [List.mem_singleton.mp hmem]
      exact nofun
  have hmem := List.mem_of_getElem? hcall
  rcases Job.advance_cases hadvance with ⟨-, rfl, rfl⟩ | ⟨effect, next, htask, hact, rfl⟩
  · refine ⟨hinv, fun call hcall' => ?_⟩
    rcases List.mem_or_eq_of_mem_set hcall' with hcall' | rfl
    · exact hsafe call hcall'
    · rintro _ ⟨⟩
      exact hprog op pool.db hinv
  · obtain ⟨⟨hinv', hle⟩, hnext⟩ := hsafe _ hmem _ htask pool.db le_rfl hinv _ s' hact
    refine ⟨hinv', fun call hcall' => ?_⟩
    rcases List.mem_or_eq_of_mem_set hcall' with hcall' | rfl
    · exact fun task htask => (hsafe call hcall' task htask).later hle fun _ _ => trivial
    · rintro _ ⟨⟩
      exact hnext

/-- **A task spends no more than it is bound to**, whatever the others do. -/
theorem spent_le {bound : O → Nat} (hprog : ∀ op, (prog op).Within cost (bound op))
    {pool : Pool σ O (Job E A α)} (h : (tasks cost prog act).Reaches Always pool) :
    ∀ call ∈ pool.calls, call.2.spent ≤ bound call.1 := by
  have hkeeps : (tasks cost prog act).Keeps Always fun pool => ∀ call ∈ pool.calls,
      call.2.spent ≤ bound call.1 ∧ (call.2.task = none → call.2.spent = 0) ∧
        ∀ task ∈ call.2.task, task.Within cost (bound call.1 - call.2.spent) := by
    intro pool turn pool' hall _ hstep
    rcases Pool.step_cases hstep with ⟨op, -, rfl⟩ | ⟨i, answers, op, job, job', s', -, hcall, hadvance,
      rfl⟩
    · intro call hmem
      rcases List.mem_append.mp hmem with hmem | hmem
      · exact hall call hmem
      · rw [List.mem_singleton.mp hmem]
        exact ⟨Nat.zero_le _, fun _ => rfl, nofun⟩
    obtain ⟨hspent, hzero, hwithin⟩ := hall _ (List.mem_of_getElem? hcall)
    intro call hcall'
    rcases List.mem_or_eq_of_mem_set hcall' with hcall' | rfl
    · exact hall call hcall'
    rcases Job.advance_cases hadvance with ⟨hnone, rfl, -⟩ | ⟨effect, next, htask, -, rfl⟩
    · refine ⟨hspent, nofun, ?_⟩
      rintro _ ⟨⟩
      rw [hzero hnone]
      exact hprog op
    · obtain ⟨hcost, hnext⟩ := hwithin _ htask
      refine ⟨?_, nofun, ?_⟩
      · simp only at hspent hcost ⊢
        omega
      · rintro _ ⟨⟩
        rw [Nat.sub_add_eq]
        exact hnext (answers effect)
  intro call hmem
  refine (h.invariant hkeeps (fun start hstart call hmem => ?_) call hmem).1
  rw [show start.calls = [] from hstart] at hmem
  cases hmem

end

end GuruJi.Lib
