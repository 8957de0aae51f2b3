import Mathlib.Tactic.Common

/-!
# Folds that settle one entry after the other

A loop goes once through a list of entries, each with something of its own in the state. What holds
of an entry right after its turn holds at the end, when later turns keep it
(`foldl_settles`). A loop that may raise collects what each entry gave (`mem_of_mapM_ok`,
`mem_of_mapM_some`). The turns of a loop are its entries with the states they meet (`mem_turns`).
-/

namespace GuruJi.Lib

variable {α σ : Type*} {f : σ → α → σ} {l : List α} {s : σ}

theorem foldl_keeps {P : σ → Prop} (hkeep : ∀ a ∈ l, ∀ s, P s → P (f s a)) (hs : P s) :
    P (l.foldl f s) := by
  induction l generalizing s with
  | nil => exact hs
  | cons a l ih =>
    exact ih (fun b hb => hkeep b (List.mem_cons_of_mem a hb)) (hkeep a List.mem_cons_self s hs)

/-- `Q a` is what the turn of `a` needs and `P a` is what it establishes. -/
theorem foldl_settles {R : α → α → Prop} {Q P : α → σ → Prop} (hl : l.Pairwise R)
    (hsettle : ∀ a ∈ l, ∀ s, Q a s → P a (f s a))
    (hwait : ∀ a ∈ l, ∀ b ∈ l, R a b → ∀ s, Q b s → Q b (f s a))
    (hstay : ∀ a ∈ l, ∀ b ∈ l, R a b → ∀ s, P a s → P a (f s b))
    (hs : ∀ a ∈ l, Q a s) : ∀ a ∈ l, P a (l.foldl f s) := by
  induction l generalizing s with
  | nil => simp
  | cons a l ih =>
    obtain ⟨ha, hl⟩ := List.pairwise_cons.mp hl
    have hmem : ∀ {b}, b ∈ l → b ∈ a :: l := List.mem_cons_of_mem a
    have hself : a ∈ a :: l := List.mem_cons_self
    intro b hb
    rcases List.mem_cons.mp hb with rfl | hb
    · have hfirst : P b (f s b) := hsettle b hself s (hs b hself)
      rw [List.foldl_cons]
      exact foldl_keeps (fun c hc s => hstay b hself c (hmem hc) (ha c hc) s) hfirst
    · refine ih hl (fun c hc => hsettle c (hmem hc))
        (fun c hc d hd => hwait c (hmem hc) d (hmem hd))
        (fun c hc d hd => hstay c (hmem hc) d (hmem hd)) (fun c hc => ?_) b hb
      exact hwait a hself c (hmem hc) (ha c hc) s (hs c (hmem hc))

/-- The entries of a loop, each with the state it meets. -/
def turns (f : σ → α → σ) : σ → List α → List (σ × α)
  | _, [] => []
  | s, a :: l => (s, a) :: turns f (f s a) l

/-- A turn meets the state that the entries before it have left. -/
theorem mem_turns {t : σ × α} :
    t ∈ turns f s l ↔ ∃ before after, l = before ++ t.2 :: after ∧ t.1 = before.foldl f s := by
  induction l generalizing s with
  | nil => simp [turns]
  | cons a l ih =>
    rw [turns, List.mem_cons, ih]
    constructor
    · rintro (rfl | ⟨before, after, rfl, hs⟩)
      · exact ⟨[], l, rfl, rfl⟩
      · exact ⟨a :: before, after, rfl, hs⟩
    · rintro ⟨before, after, hl, hs⟩
      rcases before with _ | ⟨b, before⟩
      · obtain ⟨ha, -⟩ := List.cons.inj hl
        exact .inl (Prod.ext hs ha.symm)
      · obtain ⟨rfl, rfl⟩ := List.cons.inj hl
        exact .inr ⟨before, after, rfl, hs⟩

theorem mem_of_mapM_ok {ε β : Type*} {g : α → Except ε β} {bs : List β} (h : l.mapM g = .ok bs)
    {b : β} (hb : b ∈ bs) : ∃ a ∈ l, g a = .ok b := by
  induction l generalizing bs with
  | nil =>
    cases Except.ok.inj h
    cases hb
  | cons a l ih =>
    rw [List.mapM_cons] at h
    cases hfirst : g a with
    | error e =>
      rw [hfirst] at h
      cases h
    | ok b' =>
      rw [hfirst] at h
      cases hrest : l.mapM g with
      | error e =>
        rw [hrest] at h
        cases h
      | ok bs' =>
        rw [hrest] at h
        cases h
        rcases List.mem_cons.mp hb with rfl | hb
        · exact ⟨a, List.mem_cons_self, hfirst⟩
        · obtain ⟨a', ha', hg⟩ := ih hrest hb
          exact ⟨a', List.mem_cons_of_mem a ha', hg⟩

theorem mem_of_mapM_some {β : Type*} {g : α → Option β} {bs : List β} (h : l.mapM g = some bs)
    {b : β} (hb : b ∈ bs) : ∃ a ∈ l, g a = some b := by
  induction l generalizing bs with
  | nil =>
    rw [List.mapM_nil] at h
    rw [← Option.some.inj h] at hb
    cases hb
  | cons a l ih =>
    rw [List.mapM_cons] at h
    obtain ⟨b', hfirst, h⟩ := Option.bind_eq_some_iff.mp h
    obtain ⟨bs', hrest, h⟩ := Option.bind_eq_some_iff.mp h
    rw [← Option.some.inj h] at hb
    rcases List.mem_cons.mp hb with rfl | hb
    · exact ⟨a, List.mem_cons_self, hfirst⟩
    · obtain ⟨a', ha', hg⟩ := ih hrest hb
      exact ⟨a', List.mem_cons_of_mem a ha', hg⟩

end GuruJi.Lib
