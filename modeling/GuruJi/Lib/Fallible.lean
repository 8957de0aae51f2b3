import Mathlib.Tactic.Common

/-!
# Programs whose calls can fail

A program over a state that returns or raises; what it wrote before it raised stays. A call of the
store works, or fails before or after its write, as the faults of the world say, in their order:
within a step. Outside of any step calls work.

* `Yields`: however the calls go, a program returns in `Q` or raises in `R`.
* `yields_bind`, `yields_call`, `yields_caught`, `yields_attempt`, `yields_forM`: its rules.
-/

namespace GuruJi.Lib

/-- How one call goes. -/
inductive Fault (φ : Type*) where
  | none
  | before (failure : φ)
  | after (failure : φ)
  deriving DecidableEq

/-- A state, the faults of the calls to come, and whether a step is running. -/
structure World (σ φ : Type*) where
  state : σ
  faults : List (Fault φ)
  stepping : Bool

abbrev Fallible (σ φ ε α : Type) := ExceptT ε (StateM (World σ φ)) α

namespace Fallible

variable {σ φ ε α β : Type}

def raise (e : ε) : Fallible σ φ ε α := fun w => (.error e, w)

/-- The outcome of `p` from a state, and the state it leaves. -/
def outcome (p : Fallible σ φ ε α) (s : σ) (faults : List (Fault φ)) : Except ε α × σ :=
  let (result, w) := p ⟨s, faults, false⟩
  (result, w.state)

def call [Coe φ ε] (write : σ → σ) (answer : σ → α) : Fallible σ φ ε α := fun w =>
  let written := write w.state
  if w.stepping then
    match w.faults with
    | .before failure :: faults => (.error failure, { w with faults })
    | .after failure :: faults => (.error failure, { w with state := written, faults })
    | faults => (.ok (answer written), { w with state := written, faults := faults.tail })
  else (.ok (answer written), { w with state := written })

/-- `try p`: what it raised is left to the caller. -/
def caught (p : Fallible σ φ ε α) : Fallible σ φ ε (Except ε α) := fun w =>
  let (result, w') := p w
  (.ok result, w')

/-- `try p` around a step. -/
def attempt (p : Fallible σ φ ε α) : Fallible σ φ ε (Except ε α) := fun w =>
  let (result, w') := p { w with stepping := true }
  (.ok result, { w' with stepping := w.stepping })

/-- From `s`, within a step or not, `p` returns in `Q` or raises in `R`. -/
def Yields (stepping : Bool) (s : σ) (p : Fallible σ φ ε α) (Q : α → σ → Prop)
    (R : ε → σ → Prop) : Prop :=
  ∀ faults, match p ⟨s, faults, stepping⟩ with
    | (.ok a, w) => w.stepping = stepping ∧ Q a w.state
    | (.error e, w) => w.stepping = stepping ∧ R e w.state

variable {stepping : Bool} {s : σ} {p : Fallible σ φ ε α} {Q Q' : α → σ → Prop}
  {R R' : ε → σ → Prop}

theorem yields_mono (h : Yields stepping s p Q R) (hQ : ∀ a t, Q a t → Q' a t)
    (hR : ∀ e t, R e t → R' e t) : Yields stepping s p Q' R' := by
  intro faults
  have hp := h faults
  cases hrun : p ⟨s, faults, stepping⟩ with
  | mk result w =>
    rw [hrun] at hp
    cases result with
    | ok a => exact ⟨hp.1, hQ _ _ hp.2⟩
    | error e => exact ⟨hp.1, hR _ _ hp.2⟩

theorem yields_pure {a : α} (h : Q a s) : Yields stepping s (pure a : Fallible σ φ ε α) Q R :=
  fun _ => ⟨rfl, h⟩

theorem yields_raise {e : ε} (h : R e s) : Yields stepping s (raise e : Fallible σ φ ε α) Q R :=
  fun _ => ⟨rfl, h⟩

theorem yields_bind {f : α → Fallible σ φ ε β} {Q : β → σ → Prop}
    (h : Yields stepping s p (fun a t => Yields stepping t (f a) Q R) R) :
    Yields stepping s (p >>= f) Q R := by
  intro faults
  have hp := h faults
  have hbind : (p >>= f) ⟨s, faults, stepping⟩ = match p ⟨s, faults, stepping⟩ with
      | (.ok a, w) => f a w
      | (.error e, w) => (.error e, w) := by
    change (match p ⟨s, faults, stepping⟩ with | (result, w) => ExceptT.bindCont f result w) = _
    rcases p ⟨s, faults, stepping⟩ with ⟨result | result, w⟩ <;> rfl
  rw [hbind]
  cases hrun : p ⟨s, faults, stepping⟩ with
  | mk result w =>
    rw [hrun] at hp
    cases result with
    | error e => exact hp
    | ok a =>
      obtain ⟨hstepping, hf⟩ := hp
      have := hf w.faults
      rwa [← hstepping] at this ⊢

theorem yields_map {f : α → β} {Q : β → σ → Prop}
    (h : Yields stepping s p (fun a t => Q (f a) t) R) : Yields stepping s (f <$> p) Q R := by
  have hmap : f <$> p = p >>= fun a => pure (f a) := by rw [bind_pure_comp]
  rw [hmap]
  exact yields_bind (yields_mono h (fun _ _ hQ => yields_pure hQ) fun _ _ hR => hR)

/-- A call may fail within a step only. -/
theorem yields_call [Coe φ ε] {write : σ → σ} {answer : σ → α} (hok : Q (answer (write s)) (write s))
    (herror : stepping = true → ∀ failure : φ, R failure s ∧ R failure (write s)) :
    Yields stepping s (call write answer : Fallible σ φ ε α) Q R := by
  intro faults
  cases stepping with
  | false => exact ⟨rfl, hok⟩
  | true =>
    rcases faults with _ | ⟨_ | failure | failure, faults⟩
    · exact ⟨rfl, hok⟩
    · exact ⟨rfl, hok⟩
    · exact ⟨rfl, (herror rfl failure).1⟩
    · exact ⟨rfl, (herror rfl failure).2⟩

theorem yields_read [Coe φ ε] {answer : σ → α} (hok : Q (answer s) s)
    (herror : stepping = true → ∀ failure : φ, R failure s) :
    Yields stepping s (call id answer : Fallible σ φ ε α) Q R :=
  yields_call hok fun h failure => ⟨herror h failure, herror h failure⟩

theorem yields_caught {Q : Except ε α → σ → Prop}
    (h : Yields stepping s p (fun a t => Q (.ok a) t) fun e t => Q (.error e) t) :
    Yields stepping s (caught p) Q R := by
  intro faults
  have hp := h faults
  unfold caught
  cases hrun : p ⟨s, faults, stepping⟩ with
  | mk result w =>
    rw [hrun] at hp
    cases result with
    | ok a => exact hp
    | error e => exact hp

theorem yields_attempt {Q : Except ε α → σ → Prop}
    (h : Yields true s p (fun a t => Q (.ok a) t) fun e t => Q (.error e) t) :
    Yields stepping s (attempt p) Q R := by
  intro faults
  have hp := h faults
  unfold attempt
  cases hrun : p ⟨s, faults, true⟩ with
  | mk result w =>
    rw [hrun] at hp
    cases result with
    | ok a => exact ⟨rfl, hp.2⟩
    | error e => exact ⟨rfl, hp.2⟩

/-- What every round keeps, a loop keeps. -/
theorem yields_forM {l : List α} {f : α → Fallible σ φ ε PUnit} {I : σ → Prop} (hs : I s)
    (hf : ∀ a ∈ l, ∀ t, I t → Yields stepping t (f a) (fun _ u => I u) R) :
    Yields stepping s (l.forM f) (fun _ u => I u) R := by
  induction l generalizing s with
  | nil => exact yields_pure hs
  | cons a l ih =>
    refine yields_bind (yields_mono (hf a List.mem_cons_self s hs) (fun _ t ht => ?_) fun _ _ h => h)
    exact ih ht fun b hb => hf b (List.mem_cons_of_mem _ hb)

theorem Yields.outcome {s : σ} (h : Yields false s p Q R) (faults : List (Fault φ)) :
    match p.outcome s faults with
    | (.ok a, t) => Q a t
    | (.error e, t) => R e t := by
  have hp := h faults
  unfold Fallible.outcome
  cases hrun : p ⟨s, faults, false⟩ with
  | mk result w =>
    rw [hrun] at hp
    cases result with
    | ok a => exact hp.2
    | error e => exact hp.2

end Fallible

end GuruJi.Lib
