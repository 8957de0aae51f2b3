import Mathlib.Tactic.Common

/-!
# Services

A service answers calls one after the other. Two services answer the same (`answers_eq_of_simulates`)
where each call that the guard lets through is answered the same in states that correspond, and leaves
states that correspond.
-/

namespace GuruJi.Lib

variable {σ τ C A : Type*}

def answers (serve : σ → C → A × σ) : σ → List C → List A
  | _, [] => []
  | s, c :: calls => (serve s c).1 :: answers serve (serve s c).2 calls

def served (serve : σ → C → A × σ) (s : σ) (calls : List C) : σ :=
  calls.foldl (fun s c => (serve s c).2) s

/-- Each call meets the guard in the state that it is made in. -/
def AllMeet (serve : σ → C → A × σ) (ok : σ → C → Prop) : σ → List C → Prop
  | _, [] => True
  | s, c :: calls => ok s c ∧ AllMeet serve ok (serve s c).2 calls

variable {serve : σ → C → A × σ} {serve' : τ → C → A × τ} {ok : σ → C → Prop} {R : σ → τ → Prop}

/-- **Services that correspond answer the same**, and still correspond afterwards. -/
theorem answers_eq_of_simulates (hstep : ∀ s t c, R s t → ok s c →
      (serve s c).1 = (serve' t c).1 ∧ R (serve s c).2 (serve' t c).2)
    {calls : List C} {s : σ} {t : τ} (hR : R s t) (hcalls : AllMeet serve ok s calls) :
    answers serve s calls = answers serve' t calls ∧
      R (served serve s calls) (served serve' t calls) := by
  induction calls generalizing s t with
  | nil => exact ⟨rfl, hR⟩
  | cons c calls ih =>
    obtain ⟨hok, hrest⟩ := hcalls
    obtain ⟨hanswer, hnext⟩ := hstep s t c hR hok
    obtain ⟨hanswers, hlast⟩ := ih hnext hrest
    refine ⟨?_, hlast⟩
    rw [answers, answers, hanswer, hanswers]

theorem AllMeet.and_calls {Q : C → Prop} {calls : List C} {s : σ} (h : AllMeet serve ok s calls)
    (hcalls : ∀ c ∈ calls, Q c) : AllMeet serve (fun s c => Q c ∧ ok s c) s calls := by
  induction calls generalizing s with
  | nil => trivial
  | cons c calls ih =>
    exact ⟨⟨hcalls c List.mem_cons_self, h.1⟩, ih h.2 fun d hd => hcalls d (List.mem_cons_of_mem c hd)⟩

instance decidableAllMeet (serve : σ → C → A × σ) (ok : σ → C → Prop) [∀ s c, Decidable (ok s c)] :
    ∀ s calls, Decidable (AllMeet serve ok s calls)
  | _, [] => isTrue trivial
  | s, c :: calls =>
    have := decidableAllMeet serve ok (serve s c).2 calls
    inferInstanceAs (Decidable (ok s c ∧ AllMeet serve ok (serve s c).2 calls))

end GuruJi.Lib
