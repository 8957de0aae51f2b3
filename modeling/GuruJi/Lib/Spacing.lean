import GuruJi.Lib.Words

/-!
# Single spacing

`" ".join(text.split())`: the words of a text with one separator between them, and none around them
(`spaced_collapse`). What is cut of it is so too unless the cut leaves a separator at its end
(`Spaced.take`).
-/

namespace GuruJi.Lib

variable {α : Type*} {p : α → Bool} {sep : α} {l : List α}

/-- `" ".join(text.split())`. -/
def collapse (p : α → Bool) (sep : α) (l : List α) : List α := [sep].intercalate (words p l)

/-- A text with one separator between its words and none around them. -/
structure Spaced (p : α → Bool) (sep : α) (l : List α) : Prop where
  head : ∀ x ∈ l.head?, p x = false
  last : ∀ x ∈ l.getLast?, p x = false
  gap : ∀ before x after, l = before ++ x :: after → p x = true →
    x = sep ∧ ∀ y ∈ after.head?, p y = false

theorem words_eq_nil (h : words p l = []) : ∀ x ∈ l, p x = true := by
  induction l with
  | nil => exact fun x hx => absurd hx List.not_mem_nil
  | cons a l ih =>
    by_cases ha : p a = true
    · have hsplit := words_append_cons (a := []) (b := l) ha
      rw [List.nil_append, words_nil, List.nil_append] at hsplit
      intro x hx
      rcases List.mem_cons.mp hx with rfl | hx
      · exact ha
      · exact ih (hsplit ▸ h) x hx
    · obtain ⟨first, rest, hsplit⟩ := List.exists_cons_of_ne_nil (List.splitOnP_ne_nil p l)
      rw [words, List.splitOnP_cons_eq_if_modifyHead, if_neg ha, hsplit, List.modifyHead_cons,
        List.filter_cons_of_pos rfl] at h
      cases h

theorem mem_words {word : List α} (h : word ∈ words p l) : word ≠ [] ∧ ∀ x ∈ word, p x = false := by
  obtain ⟨hmem, hne⟩ := List.mem_filter.mp h
  exact ⟨by simpa using hne, fun x hx => (mem_of_mem_splitOnP hmem hx).2⟩

theorem spaced_of_no_space (h : ∀ x ∈ l, p x = false) : Spaced p sep l where
  head x hx := h x (List.mem_of_mem_head? hx)
  last x hx := h x (List.mem_of_getLast? hx)
  gap before x after heq hx := by
    rw [h x (heq ▸ List.mem_append_right _ List.mem_cons_self)] at hx
    cases hx

theorem spaced_intercalate {parts : List (List α)} (hsep : p sep = true)
    (h : ∀ part ∈ parts, part ≠ [] ∧ ∀ x ∈ part, p x = false) :
    Spaced p sep ([sep].intercalate parts) ∧ (parts ≠ [] → [sep].intercalate parts ≠ []) := by
  induction parts with
  | nil =>
    refine ⟨spaced_of_no_space fun x hx => ?_, fun hne => absurd rfl hne⟩
    rw [List.intercalate_nil] at hx
    cases hx
  | cons part parts ih =>
    obtain ⟨hpart, hink⟩ := h part List.mem_cons_self
    cases parts with
    | nil =>
      rw [List.intercalate_singleton]
      exact ⟨spaced_of_no_space hink, fun _ => hpart⟩
    | cons next parts =>
      obtain ⟨hspaced, hne⟩ := ih fun other hother => h other (List.mem_cons_of_mem _ hother)
      have hne := hne (List.cons_ne_nil _ _)
      rw [List.intercalate_cons_cons]
      generalize [sep].intercalate (next :: parts) = rest at hspaced hne ⊢
      refine ⟨⟨fun x hx => ?_, fun x hx => ?_, fun before x after heq hx => ?_⟩, fun _ => by simp [hpart]⟩
      · rw [List.append_assoc, List.head?_append_of_ne_nil _ hpart] at hx
        exact hink x (List.mem_of_mem_head? hx)
      · rw [List.getLast?_append_of_ne_nil _ hne] at hx
        exact hspaced.last x hx
      · rw [List.append_assoc] at heq
        rcases List.append_eq_append_iff.mp heq with ⟨inner, rfl, hrest⟩ | ⟨inner, hbefore, hrest⟩
        · rcases inner with _ | ⟨y, inner⟩
          · obtain ⟨rfl, rfl⟩ := List.cons.inj hrest
            exact ⟨rfl, hspaced.head⟩
          · obtain ⟨-, hrest⟩ := List.cons.inj hrest
            exact hspaced.gap inner x after hrest hx
        · rcases inner with _ | ⟨y, inner⟩
          · obtain ⟨rfl, rfl⟩ := List.cons.inj hrest
            exact ⟨rfl, hspaced.head⟩
          · obtain ⟨rfl, -⟩ := List.cons.inj hrest
            rw [hink x (hbefore ▸ List.mem_append_right _ List.mem_cons_self)] at hx
            cases hx

theorem spaced_collapse (hsep : p sep = true) : Spaced p sep (collapse p sep l) :=
  (spaced_intercalate hsep fun _ => mem_words).1

theorem collapse_ne_nil (hsep : p sep = true) (h : ∃ x ∈ l, p x = false) : collapse p sep l ≠ [] := by
  refine (spaced_intercalate hsep fun _ => mem_words).2 fun hnil => ?_
  obtain ⟨x, hx, hink⟩ := h
  rw [words_eq_nil hnil x hx] at hink
  cases hink

theorem collapse_of_spaced (h : Spaced p sep l) : collapse p sep l = l := by
  induction hn : l.length using Nat.strong_induction_on generalizing l with
  | h n ih =>
    have hword : ∀ x ∈ l.takeWhile fun x => !p x, p x = false := fun x hx => by
      simpa using List.mem_takeWhile_imp hx
    cases hrest : l.dropWhile fun x => !p x with
    | nil =>
      have hwhole : l.takeWhile (fun x => !p x) = l := by
        have hsplit := List.takeWhile_append_dropWhile (p := fun x => !p x) (l := l)
        rwa [hrest, List.append_nil] at hsplit
      rw [hwhole] at hword
      by_cases hnil : l = []
      · rw [hnil]
        rfl
      · rw [collapse, words_of_no_space hnil hword, List.intercalate_singleton]
    | cons x after =>
      have hsplit : l = (l.takeWhile fun x => !p x) ++ x :: after := by
        rw [← hrest, List.takeWhile_append_dropWhile]
      generalize (l.takeWhile fun x => !p x) = word at hword hsplit
      have hx : p x = true := by
        have hhead := List.head_dropWhile_not (fun x => !p x) (l := l) (by rw [hrest]; simp)
        simp only [hrest, List.head_cons] at hhead
        simpa using hhead
      obtain ⟨rfl, hnext⟩ := h.gap word x after hsplit hx
      have hne : after ≠ [] := by
        rintro rfl
        have hlast := h.last x (by rw [hsplit, List.getLast?_concat]; rfl)
        rw [hx] at hlast
        cases hlast
      have hwordne : word ≠ [] := by
        rintro rfl
        have hhead := h.head x (by rw [hsplit]; rfl)
        rw [hx] at hhead
        cases hhead
      have hspaced : Spaced p x after := by
        refine ⟨hnext, fun y hy => h.last y ?_, fun before y rest heq hy =>
          h.gap (word ++ x :: before) y rest ?_ hy⟩
        · obtain ⟨hafter, rfl⟩ := List.mem_getLast?_eq_getLast hy
          rw [hsplit, List.getLast?_append_of_ne_nil _ (List.cons_ne_nil _ _),
            List.getLast?_cons_of_ne_nil hafter]
          exact List.getLast_mem_getLast? hafter
        · rw [hsplit, heq, List.append_assoc]
          rfl
      have hshort : after.length < n := by
        rw [← hn, hsplit, List.length_append, List.length_cons]
        omega
      have hih := ih after.length hshort hspaced rfl
      have hwords : words p after ≠ [] := by
        intro hnil
        rw [collapse, hnil, List.intercalate_nil] at hih
        exact hne hih.symm
      obtain ⟨first, others, hothers⟩ := List.exists_cons_of_ne_nil hwords
      rw [collapse, hothers] at hih
      rw [hsplit, collapse, words_append_cons hx, words_of_no_space hwordne hword, hothers,
        List.singleton_append, List.intercalate_cons_cons, hih, List.append_assoc]
      rfl

theorem collapse_collapse (hsep : p sep = true) : collapse p sep (collapse p sep l) = collapse p sep l :=
  collapse_of_spaced (spaced_collapse hsep)

/-- What is cut of a singly spaced text is singly spaced unless it ends in a separator. -/
theorem Spaced.take (h : Spaced p sep l) {n : Nat} :
    Spaced p sep (l.take n) ↔ ∀ x ∈ (l.take n).getLast?, p x = false := by
  refine ⟨fun hcut => hcut.last, fun hlast => ⟨fun x hx => ?_, hlast, fun before x after heq hx => ?_⟩⟩
  · obtain ⟨rest, hrest⟩ := List.take_prefix n l
    refine h.head x ?_
    rw [← hrest]
    exact List.mem_head?_append_of_mem_head? hx
  · have hwhole : l = before ++ x :: (after ++ l.drop n) := by
      rw [← List.cons_append, ← List.append_assoc, ← heq, List.take_append_drop]
    obtain ⟨hsep, hnext⟩ := h.gap before x _ hwhole hx
    exact ⟨hsep, fun y hy => hnext y (List.mem_head?_append_of_mem_head? hy)⟩

theorem Spaced.map {f : α → α} (hspace : ∀ x, p (f x) = p x) (hsame : ∀ x, p x = true → f x = x)
    (h : Spaced p sep l) : Spaced p sep (l.map f) := by
  refine ⟨fun x hx => ?_, fun x hx => ?_, fun before x after heq hx => ?_⟩
  · rw [List.head?_map] at hx
    obtain ⟨y, hy, rfl⟩ := Option.map_eq_some_iff.mp hx
    rw [hspace]
    exact h.head y hy
  · rw [List.getLast?_map] at hx
    obtain ⟨y, hy, rfl⟩ := Option.map_eq_some_iff.mp hx
    rw [hspace]
    exact h.last y hy
  · obtain ⟨left, tail, rfl, rfl, htail⟩ := List.map_eq_append_iff.mp heq
    obtain ⟨y, right, rfl, rfl, rfl⟩ := List.map_eq_cons_iff.mp htail
    rw [hspace] at hx
    obtain ⟨hy, hnext⟩ := h.gap left y right rfl hx
    refine ⟨(hsame y hx).trans hy, fun z hz => ?_⟩
    rw [List.head?_map] at hz
    obtain ⟨w, hw, rfl⟩ := Option.map_eq_some_iff.mp hz
    rw [hspace]
    exact hnext w hw

end GuruJi.Lib
