import GuruJi.Lib.Text

/-!
# Words

`text.split()`: the runs of a text between its spaces. They do not depend on how much space stands
between them (`words_append`, `words_trim`), and a character put at the end of a text lengthens the
last word or is a new one (`words_concat`).
-/

namespace GuruJi.Lib

variable {α : Type*} {p : α → Bool} {a b s : List α} {c : α}

/-- `text.split()`. -/
def words (p : α → Bool) (l : List α) : List (List α) := (l.splitOnP p).filter fun word => !word.isEmpty

@[simp] theorem words_nil : words p [] = [] := rfl

theorem words_append_cons (hc : p c = true) : words p (a ++ c :: b) = words p a ++ words p b := by
  rw [words, List.splitOnP_append_cons a b hc, List.filter_append]
  rfl

theorem words_space_append (hs : ∀ x ∈ s, p x = true) : words p (s ++ a) = words p a := by
  induction s with
  | nil => rfl
  | cons x s ih =>
    have hx := words_append_cons (a := []) (b := s ++ a) (hs x List.mem_cons_self)
    rw [List.nil_append, words_nil, List.nil_append] at hx
    rw [List.cons_append, hx, ih fun y hy => hs y (List.mem_cons_of_mem x hy)]

/-- Words on both sides of some space. -/
theorem words_append (hs : ∀ x ∈ s, p x = true) (hne : s ≠ []) :
    words p (a ++ s ++ b) = words p a ++ words p b := by
  obtain ⟨x, t, rfl⟩ := List.exists_cons_of_ne_nil hne
  rw [List.append_assoc, List.cons_append, words_append_cons (hs x List.mem_cons_self),
    words_space_append fun y hy => hs y (List.mem_cons_of_mem x hy)]

theorem words_append_space (hs : ∀ x ∈ s, p x = true) : words p (a ++ s) = words p a := by
  by_cases hne : s = []
  · rw [hne, List.append_nil]
  · have h := words_append (a := a) (b := []) hs hne
    rwa [List.append_nil, words_nil, List.append_nil] at h

theorem words_trim : words p (trim p a) = words p a := by
  have hleft : words p (a.dropWhile p) = words p a := by
    conv_rhs => rw [← List.takeWhile_append_dropWhile (p := p) (l := a)]
    exact (words_space_append fun x hx => List.mem_takeWhile_imp hx).symm
  have hright : words p ((a.dropWhile p).rdropWhile p) = words p (a.dropWhile p) := by
    conv_rhs => rw [← List.rdropWhile_append_rtakeWhile (p := p) (l := a.dropWhile p)]
    exact (words_append_space fun x hx => List.mem_rtakeWhile_imp hx).symm
  rw [trim, hright, hleft]

theorem words_of_no_space (hne : a ≠ []) (h : ∀ x ∈ a, p x = false) : words p a = [a] := by
  have hsplit : a.splitOnP p = [a] := List.splitOnP_eq_singleton (by simpa using h)
  rw [words, hsplit]
  simp [hne]

theorem splitOnP_concat (hc : p c = false) :
    ∃ init last, a.splitOnP p = init ++ [last] ∧ (a ++ [c]).splitOnP p = init ++ [last ++ [c]] := by
  induction a with
  | nil => exact ⟨[], [], rfl, List.splitOnP_eq_singleton (by simpa using hc)⟩
  | cons x a ih =>
    obtain ⟨init, last, ha, hac⟩ := ih
    rw [List.cons_append, List.splitOnP_cons_eq_if_modifyHead, List.splitOnP_cons_eq_if_modifyHead, ha,
      hac]
    by_cases hx : p x = true
    · rw [if_pos hx, if_pos hx]
      exact ⟨[] :: init, last, rfl, rfl⟩
    · rw [if_neg hx, if_neg hx]
      cases init with
      | nil => exact ⟨[], x :: last, rfl, rfl⟩
      | cons first init => exact ⟨(x :: first) :: init, last, rfl, rfl⟩

/-- A character that is no space, at the end of a text. -/
theorem words_concat (hc : p c = false) : words p (a ++ [c]) = words p a ++ [[c]] ∨
      ∃ init last, words p a = init ++ [last] ∧ words p (a ++ [c]) = init ++ [last ++ [c]] := by
  obtain ⟨init, last, ha, hac⟩ := splitOnP_concat (a := a) hc
  rw [words, words, ha, hac, List.filter_append, List.filter_append]
  by_cases hlast : last = []
  · left
    simp [hlast]
  · right
    refine ⟨init.filter fun word => !word.isEmpty, last, ?_, ?_⟩
    · simp [hlast]
    · simp

end GuruJi.Lib
