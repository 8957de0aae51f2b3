import Mathlib.Tactic.Common

/-!
# Backtracking regular expressions

Patterns over character classes with the leftmost, greedy, backtracking meaning of Python's `re`.
A `Cursor` is a position in a text; `run` lists the positions a match may end at, the preferred one
first, and `findall` collects the preferred matches from left to right. `reads_of_mem_run`: what a
match consumes has the form of the pattern.
-/

namespace GuruJi.Lib

/-- A position in a text: what stands before it, last character first, and what stands after it. -/
structure Cursor where
  before : List Char
  after : List Char
  deriving DecidableEq

inductive Regex where
  | boundary (isWord : Char → Bool)
  | char (p : Char → Bool)
  | plus (p : Char → Bool)
  | seq (r t : Regex)
  | opt (r : Regex)

namespace Regex

/-- `[p]+`: the longest run first. -/
def runPlus (p : Char → Bool) (before : List Char) : List Char → List Cursor
  | [] => []
  | c :: after =>
    if p c then runPlus p (c :: before) after ++ [⟨c :: before, after⟩] else []

/-- Where a match that starts at the cursor may end, the preferred end first. -/
def run : Regex → Cursor → List Cursor
  | boundary isWord, s =>
    if s.before.head?.any isWord != s.after.head?.any isWord then [s] else []
  | char p, ⟨before, c :: after⟩ => if p c then [⟨c :: before, after⟩] else []
  | char _, ⟨_, []⟩ => []
  | plus p, s => runPlus p s.before s.after
  | seq r t, s => (r.run s).flatMap t.run
  | opt r, s => r.run s ++ [s]

/-- The matches from a cursor on; an empty match is passed over. -/
def findFrom (r : Regex) : Nat → Cursor → List (List Char)
  | 0, _ => []
  | n + 1, s =>
    let next := match s.after with
      | [] => []
      | c :: after => r.findFrom n ⟨c :: s.before, after⟩
    match (r.run s).head? with
    | none => next
    | some t =>
      if t.after.length < s.after.length then
        s.after.take (s.after.length - t.after.length) :: r.findFrom n t
      else next

/-- `re.findall` of a pattern without groups and without empty matches. -/
def findall (r : Regex) (text : List Char) : List (List Char) :=
  r.findFrom (text.length + 1) ⟨[], text⟩

/-! ## The form of a match -/

/-- The texts a pattern reads, wherever they stand. -/
def Reads : Regex → List Char → Prop
  | boundary _, w => w = []
  | char p, w => ∃ c, w = [c] ∧ p c = true
  | plus p, w => w ≠ [] ∧ ∀ c ∈ w, p c = true
  | seq r t, w => ∃ u v, w = u ++ v ∧ r.Reads u ∧ t.Reads v
  | opt r, w => w = [] ∨ r.Reads w

theorem reads_of_mem_runPlus {p : Char → Bool} {before after : List Char} {t : Cursor}
    (h : t ∈ runPlus p before after) : ∃ w, after = w ++ t.after ∧ w ≠ [] ∧ ∀ c ∈ w, p c = true := by
  induction after generalizing before with
  | nil => simp [runPlus] at h
  | cons c after ih =>
    rw [runPlus] at h
    split_ifs at h with hc
    · rcases List.mem_append.mp h with h | h
      · obtain ⟨w, hw, -, hp⟩ := ih h
        refine ⟨c :: w, by rw [hw, List.cons_append], by simp, ?_⟩
        simpa using ⟨hc, hp⟩
      · obtain rfl := List.mem_singleton.mp h
        exact ⟨[c], rfl, by simp, by simpa using hc⟩
    · simp at h

theorem reads_of_mem_run {r : Regex} {s t : Cursor} (h : t ∈ r.run s) :
    ∃ w, s.after = w ++ t.after ∧ r.Reads w := by
  induction r generalizing s t with
  | boundary isWord =>
    rw [run] at h
    split_ifs at h
    · obtain rfl := List.mem_singleton.mp h
      exact ⟨[], rfl, rfl⟩
    · simp at h
  | char p =>
    obtain ⟨before, after⟩ := s
    cases after with
    | nil => simp [run] at h
    | cons c after =>
      rw [run] at h
      split_ifs at h with hc
      · obtain rfl := List.mem_singleton.mp h
        exact ⟨[c], rfl, c, rfl, hc⟩
      · simp at h
  | plus p => exact reads_of_mem_runPlus h
  | seq r u ihr ihu =>
    obtain ⟨m, hm, ht⟩ := List.mem_flatMap.mp h
    obtain ⟨v, hv, hr⟩ := ihr hm
    obtain ⟨w, hw, hu⟩ := ihu ht
    exact ⟨v ++ w, by rw [hv, hw, List.append_assoc], v, w, rfl, hr, hu⟩
  | opt r ih =>
    rcases List.mem_append.mp h with h | h
    · obtain ⟨w, hw, hr⟩ := ih h
      exact ⟨w, hw, .inr hr⟩
    · obtain rfl := List.mem_singleton.mp h
      exact ⟨[], rfl, .inl rfl⟩

end Regex

end GuruJi.Lib
