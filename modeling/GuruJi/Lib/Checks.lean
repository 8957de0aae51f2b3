import Mathlib.Tactic.Common

/-!
# Checks that may raise

A check returns what it was given in the form the program works with, or raises. How a sequence of checks
ends (`bind_eq_ok`), and lists that are checked once more (`mapM_twice_iff`) or in a loop
(`foldlM_induct`).
-/

namespace GuruJi.Lib

variable {ε α β : Type}

variable {f : α → Except ε β} {l : List α} {out : List β}

theorem bind_eq_ok {x : Except ε α} {b : β} : x >>= f = .ok b ↔ ∃ a, x = .ok a ∧ f a = .ok b := by
  cases x with
  | error e =>
    refine iff_of_false (fun h => ?_) (fun ⟨a, ha, _⟩ => ?_)
    · cases h
    · cases ha
  | ok a =>
    constructor
    · intro h
      exact ⟨a, rfl, h⟩
    · rintro ⟨a', ha, h⟩
      cases ha
      exact h

theorem map_eq_ok {x : Except ε α} {f : α → β} {b : β} : f <$> x = .ok b ↔ ∃ a, x = .ok a ∧ f a = b := by
  cases x with
  | error e =>
    refine iff_of_false (fun h => ?_) (fun ⟨a, ha, _⟩ => ?_)
    · cases h
    · cases ha
  | ok a =>
    constructor
    · intro h
      exact ⟨a, rfl, Except.ok.inj h⟩
    · rintro ⟨a', ha, rfl⟩
      cases ha
      rfl

theorem mapM_cons_eq_ok {a : α} :
    (a :: l).mapM f = .ok out ↔ ∃ b rest, f a = .ok b ∧ l.mapM f = .ok rest ∧ out = b :: rest := by
  rw [List.mapM_cons]
  simp only [bind_eq_ok]
  constructor
  · rintro ⟨b, hb, rest, hrest, hout⟩
    exact ⟨b, rest, hb, hrest, (Except.ok.inj hout).symm⟩
  · rintro ⟨b, rest, hb, hrest, rfl⟩
    exact ⟨b, hb, rest, hrest, rfl⟩

theorem length_mapM (h : l.mapM f = .ok out) : out.length = l.length := by
  induction l generalizing out with
  | nil =>
    obtain rfl : [] = out := Except.ok.inj h
    rfl
  | cons a l ih =>
    obtain ⟨b, rest, -, hrest, rfl⟩ := mapM_cons_eq_ok.mp h
    rw [List.length_cons, List.length_cons, ih hrest]

theorem exists_of_mapM (h : l.mapM f = .ok out) {a : α} (ha : a ∈ l) : ∃ b, f a = .ok b := by
  induction l generalizing out with
  | nil => cases ha
  | cons a' l ih =>
    obtain ⟨b, rest, hb, hrest, -⟩ := mapM_cons_eq_ok.mp h
    rcases List.mem_cons.mp ha with rfl | ha
    · exact ⟨b, hb⟩
    · exact ih hrest ha

/-- A checked list passes once more, unchanged, when each of its checked items does. -/
theorem mapM_twice_iff {f : α → Except ε α} {l out : List α} (h : l.mapM f = .ok out) :
    out.mapM f = .ok out ↔ ∀ a ∈ l, ∀ b, f a = .ok b → f b = .ok b := by
  induction l generalizing out with
  | nil =>
    obtain rfl : [] = out := Except.ok.inj h
    exact iff_of_true rfl fun a ha => absurd ha List.not_mem_nil
  | cons a l ih =>
    obtain ⟨b, rest, hb, hrest, rfl⟩ := mapM_cons_eq_ok.mp h
    rw [mapM_cons_eq_ok, List.forall_mem_cons, ← ih hrest]
    constructor
    · rintro ⟨b', rest', hb', hrest', heq⟩
      obtain ⟨rfl, rfl⟩ := List.cons.inj heq
      refine ⟨fun c hc => ?_, hrest'⟩
      obtain rfl : b = c := Except.ok.inj (hb.symm.trans hc)
      exact hb'
    · rintro ⟨hhead, htail⟩
      exact ⟨b, rest, hhead b hb, htail, rfl⟩

/-- What each check of a loop preserves holds at its end. -/
theorem foldlM_induct {f : β → α → Except ε β} {P : β → Prop}
    (hstep : ∀ b a b', P b → f b a = .ok b' → P b') {b out : β} (hb : P b)
    (h : l.foldlM f b = .ok out) : P out := by
  induction l generalizing b with
  | nil =>
    obtain rfl : b = out := Except.ok.inj h
    exact hb
  | cons a l ih =>
    rw [List.foldlM_cons] at h
    obtain ⟨b', hb', hrest⟩ := bind_eq_ok.mp h
    exact ih (hstep b a b' hb hb') hrest

end GuruJi.Lib
