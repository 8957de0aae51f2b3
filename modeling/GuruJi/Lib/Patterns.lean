import Mathlib.Data.List.Infix
import Mathlib.Tactic.Common

/-!
# Patterns

The patterns of `LIKE`: letters, `_` for any one letter and `%` for any run of letters, with or
without a letter that takes the meaning of the one after it.

* `like_contains`: between two `%`, a text without letters that mean something is found where it
  occurs.
* `exists_like`: any other text is also found where it does not occur.
-/

namespace GuruJi.Lib

/-- A piece of a pattern. -/
inductive Piece (α : Type*) where
  | letter (a : α)
  | one
  | run
  deriving DecidableEq

section
variable {α : Type*} [DecidableEq α]

def accepts : List (Piece α) → List α → Bool
  | [], text => text.isEmpty
  | .letter _ :: _, [] => false
  | .letter a :: p, b :: text => a = b && accepts p text
  | .one :: _, [] => false
  | .one :: p, _ :: text => accepts p text
  | .run :: p, text => text.tails.any fun rest => accepts p rest

/-- A text of a pattern: its letters, with `x` for any one letter and nothing for a run. -/
def sample (x : α) (p : List (Piece α)) : List α :=
  p.flatMap fun
    | .letter a => [a]
    | .one => [x]
    | .run => []

variable {p : List (Piece α)} {w text : List α}

theorem accepts_run_iff : accepts (.run :: p) text = true ↔ ∃ rest, rest <:+ text ∧
    accepts p rest = true := by
  simp only [accepts, List.any_eq_true, List.mem_tails]

theorem accepts_run (h : accepts p text = true) : accepts (.run :: p) text = true :=
  accepts_run_iff.mpr ⟨text, List.suffix_refl text, h⟩

theorem accepts_any : accepts [.run] text = true :=
  accepts_run_iff.mpr ⟨[], List.nil_suffix, rfl⟩

theorem accepts_letters_iff : accepts (w.map Piece.letter ++ p) text = true ↔
    ∃ rest, text = w ++ rest ∧ accepts p rest = true := by
  induction w generalizing text with
  | nil => simp
  | cons a w ih =>
    cases text with
    | nil => simp [accepts]
    | cons b text =>
      simp only [List.map_cons, List.cons_append, accepts, Bool.and_eq_true, decide_eq_true_eq, ih,
        List.cons.injEq]
      constructor
      · rintro ⟨rfl, rest, htext, hrest⟩
        exact ⟨rest, ⟨rfl, htext⟩, hrest⟩
      · rintro ⟨rest, ⟨rfl, htext⟩, hrest⟩
        exact ⟨rfl, rest, htext, hrest⟩

theorem accepts_between_iff :
    accepts (.run :: (w.map Piece.letter ++ [.run])) text = true ↔ w <:+: text := by
  rw [accepts_run_iff]
  constructor
  · rintro ⟨rest, ⟨before, rfl⟩, hrest⟩
    obtain ⟨after, rfl, -⟩ := accepts_letters_iff.mp hrest
    exact ⟨before, after, by rw [List.append_assoc]⟩
  · rintro ⟨before, after, rfl⟩
    refine ⟨w ++ after, ⟨before, by rw [List.append_assoc]⟩, ?_⟩
    exact accepts_letters_iff.mpr ⟨after, rfl, accepts_any⟩

theorem accepts_sample (x : α) (p : List (Piece α)) : accepts p (sample x p) = true := by
  induction p with
  | nil => rfl
  | cons piece p ih =>
    cases piece with
    | letter a => simpa [sample, accepts] using ih
    | one => simpa [sample, accepts] using ih
    | run => exact accepts_run ih

end

/-! ## `LIKE` -/

def pieceOf (c : Char) : Piece Char :=
  if c = '%' then .run else if c = '_' then .one else .letter c

/-- The pieces of a pattern, in which `escape` takes the meaning of the letter after it. -/
def pieces (escape : Option Char) : List Char → List (Piece Char)
  | [] => []
  | [c] => [pieceOf c]
  | c :: d :: rest =>
    if some c = escape then .letter d :: pieces escape rest
    else pieceOf c :: pieces escape (d :: rest)

/-- `text LIKE pattern`. -/
def like (escape : Option Char) (text pattern : String) : Bool :=
  accepts (pieces escape pattern.toList) text.toList

/-- A letter that means something else in a pattern. -/
def Wild (escape : Option Char) (c : Char) : Prop := c = '%' ∨ c = '_' ∨ some c = escape

instance (escape : Option Char) (c : Char) : Decidable (Wild escape c) :=
  inferInstanceAs (Decidable (_ ∨ _ ∨ _))

section
variable {escape : Option Char} {w : List Char}

theorem pieces_cons_of_ne {c : Char} {rest : List Char} (hc : some c ≠ escape) :
    pieces escape (c :: rest) = pieceOf c :: pieces escape rest := by
  cases rest with
  | nil => rfl
  | cons d rest => rw [pieces, if_neg hc]

theorem pieces_plain (hw : ∀ c ∈ w, ¬Wild escape c) :
    pieces escape (w ++ ['%']) = w.map Piece.letter ++ [.run] := by
  induction w with
  | nil => rfl
  | cons c w ih =>
    have hc := hw c List.mem_cons_self
    simp only [Wild, not_or] at hc
    obtain ⟨hrun, hone, hescape⟩ := hc
    rw [List.cons_append, pieces_cons_of_ne hescape, pieceOf, if_neg hrun, if_neg hone,
      ih fun d hd => hw d (List.mem_cons_of_mem c hd)]
    rfl

/-- The letters between two `%`. -/
def between (w : String) : String := "%" ++ w ++ "%"

theorem like_between (hescape : escape ≠ some '%') (text w : String) : like escape text (between w) =
      accepts (.run :: pieces escape (w.toList ++ ['%'])) text.toList := by
  have hlist : (between w).toList = '%' :: (w.toList ++ ['%']) := by
    simp [between]
  rw [like, hlist, pieces_cons_of_ne hescape.symm]
  rfl

/-- **A text without letters that mean something is found where it occurs.** -/
theorem like_contains (hescape : escape ≠ some '%') {text w : String}
    (hw : ∀ c ∈ w.toList, ¬Wild escape c) :
    like escape text (between w) = true ↔ w.toList <:+: text.toList := by
  rw [like_between hescape, pieces_plain hw, accepts_between_iff]

theorem sample_cons_of_ne {c : Char} {rest : List Char} (hc : some c ≠ escape) :
    sample '%' (pieces escape (c :: rest)) =
      sample '%' [pieceOf c] ++ sample '%' (pieces escape rest) := by
  rw [pieces_cons_of_ne hc]
  simp [sample]

theorem mem_sample_pieces {c : Char} (hc : c ∈ sample '%' (pieces escape w)) : c ∈ w ∨ c = '%' := by
  induction w using pieces.induct escape with
  | case1 => simp [pieces, sample] at hc
  | case2 d =>
    simp only [pieces, pieceOf, sample] at hc
    split_ifs at hc <;> simp_all
  | case3 d e rest hd ih =>
    rw [pieces, if_pos hd] at hc
    rcases List.mem_cons.mp (show c ∈ e :: sample '%' (pieces escape rest) from hc) with rfl | hc
    · simp
    · rcases ih hc with h | h <;> simp [h]
  | case4 d e rest hd ih =>
    rw [sample_cons_of_ne hd, List.mem_append] at hc
    rcases hc with h | h
    · simp only [pieceOf, sample] at h
      split_ifs at h <;> simp_all
    · rcases ih h with h | h
      · exact .inl (List.mem_cons_of_mem d h)
      · exact .inr h

/-- The text of a letter is at most as long, and is the letter only if that means nothing else. -/
theorem sample_pieceOf {c : Char} (hc : some c ≠ escape) :
    (sample '%' [pieceOf c] = [c] ∧ ¬Wild escape c) ∨
      (∃ d, sample '%' [pieceOf c] = [d] ∧ d ≠ c) ∨ sample '%' [pieceOf c] = [] := by
  by_cases hrun : c = '%'
  · exact .inr (.inr (by simp [pieceOf, hrun, sample]))
  · by_cases hone : c = '_'
    · exact .inr (.inl ⟨'%', by simp [pieceOf, hone, sample], fun h => hrun h.symm⟩)
    · refine .inl ⟨by simp [pieceOf, hrun, hone, sample], ?_⟩
      rintro (h | h | h)
      exacts [hrun h, hone h, hc h]

/-- The sample of a text before a last `%` is shorter or another text, unless no letter of the text
means something. -/
theorem sample_spec (hescape : escape ≠ some '%') (w : List Char) :
    (sample '%' (pieces escape (w ++ ['%']))).length ≤ w.length ∧
      (sample '%' (pieces escape (w ++ ['%'])) = w → ∀ c ∈ w, ¬Wild escape c) := by
  induction w using pieces.induct escape with
  | case1 => simp [pieces, pieceOf, sample]
  | case2 c =>
    by_cases hc : some c = escape
    · have hpieces : pieces escape ([c] ++ ['%']) = [.letter '%'] := by simp [pieces, hc]
      rw [hpieces]
      refine ⟨Nat.le_refl 1, fun h => ?_⟩
      have hpercent : '%' = c := (List.cons.inj h).1
      exact absurd (hpercent ▸ hc).symm hescape
    · rw [List.singleton_append, sample_cons_of_ne hc]
      have hend : sample '%' (pieces escape ['%']) = [] := rfl
      rw [hend, List.append_nil]
      rcases sample_pieceOf hc with ⟨h, hplain⟩ | ⟨d, h, hne⟩ | h
      · rw [h]
        exact ⟨Nat.le_refl 1, fun _ => by simpa using hplain⟩
      · rw [h]
        exact ⟨Nat.le_refl 1, fun heq => absurd (List.cons.inj heq).1 hne⟩
      · rw [h]
        exact ⟨Nat.zero_le 1, fun heq => by cases heq⟩
  | case3 c d rest hc ih =>
    have hpieces : pieces escape (c :: d :: rest ++ ['%']) =
        .letter d :: pieces escape (rest ++ ['%']) := by
      rw [List.cons_append, List.cons_append, pieces, if_pos hc]
    have hsample : sample '%' (pieces escape (c :: d :: rest ++ ['%'])) =
        d :: sample '%' (pieces escape (rest ++ ['%'])) := by
      rw [hpieces]
      rfl
    have hlength := ih.1
    rw [hsample]
    refine ⟨by simp only [List.length_cons]; omega, fun heq => ?_⟩
    have := congrArg List.length heq
    simp only [List.length_cons] at this
    omega
  | case4 c d rest hc ih =>
    obtain ⟨hlength, hplain⟩ := ih
    rw [List.cons_append, sample_cons_of_ne hc]
    rcases sample_pieceOf hc with ⟨h, hletter⟩ | ⟨e, h, hne⟩ | h
    · rw [h, List.singleton_append]
      refine ⟨Nat.succ_le_succ hlength, fun heq => ?_⟩
      exact List.forall_mem_cons.mpr ⟨hletter, hplain (List.cons.inj heq).2⟩
    · rw [h, List.singleton_append]
      exact ⟨Nat.succ_le_succ hlength, fun heq => absurd (List.cons.inj heq).1 hne⟩
    · rw [h, List.nil_append]
      refine ⟨hlength.trans (Nat.le_succ _), fun heq => ?_⟩
      rw [heq] at hlength
      exact absurd hlength (Nat.not_succ_le_self _)

/-- **A text with a letter that means something is also found where it does not occur**: in a text
of its own letters and `%`. -/
theorem exists_like (hescape : escape ≠ some '%') {w : String} (hw : ∃ c ∈ w.toList, Wild escape c) :
    ∃ text, like escape text (between w) = true ∧ ¬w.toList <:+: text.toList ∧
      ∀ c ∈ text.toList, c ∈ w.toList ∨ c = '%' := by
  obtain ⟨hlength, hplain⟩ := sample_spec hescape w.toList
  refine ⟨String.ofList (sample '%' (pieces escape (w.toList ++ ['%']))), ?_, ?_, ?_⟩
  · rw [like_between hescape, String.toList_ofList]
    exact accepts_run (accepts_sample '%' _)
  · rw [String.toList_ofList]
    intro hwithin
    obtain ⟨c, hc, hwild⟩ := hw
    exact hplain (hwithin.eq_of_length_le hlength).symm c hc hwild
  · intro c hc
    rw [String.toList_ofList] at hc
    rcases mem_sample_pieces hc with h | h
    · rcases List.mem_append.mp h with h | h
      · exact .inl h
      · exact .inr (List.mem_singleton.mp h)
    · exact .inr h

end

end GuruJi.Lib
