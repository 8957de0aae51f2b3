import GuruJi.Lib.Fold
import GuruJi.Lib.Table
import Mathlib.Data.List.Induction
import Mathlib.Data.List.Nodup

/-!
# Numbering repeats

Names that come again are numbered: the first of a name stays, the `k`-th is marked with `k`. Where marks
tell names and numbers apart, the results are distinct iff none of the names is itself the mark of a
repeat (`nodup_number_iff`). A table that keeps the first entry of each key has the entries of a list,
where these are the same whenever their keys are (`foldl_note_perm`).
-/

namespace GuruJi.Lib

variable {α : Type*} [DecidableEq α] (mark : α → Nat → α)

/-- A name under the numbers that have been given so far. -/
def numberName (seen : Table α Nat) (a : α) : α :=
  match seen.get a with
  | some n => mark a (n + 1)
  | none => a

def number : Table α Nat → List α → List α
  | _, [] => []
  | seen, a :: l => numberName mark seen a :: number (seen.bump a 1) l

theorem length_number (seen : Table α Nat) (l : List α) : (number mark seen l).length = l.length := by
  induction l generalizing seen with
  | nil => rfl
  | cons a l ih => rw [number, List.length_cons, List.length_cons, ih]

theorem number_append (seen : Table α Nat) (l l' : List α) : number mark seen (l ++ l') =
      number mark seen l ++ number mark (l.foldl (fun t k => t.bump k 1) seen) l' := by
  induction l generalizing seen with
  | nil => rfl
  | cons a l ih => rw [List.cons_append, number, number, ih, List.foldl_cons, List.cons_append]

omit mark in
theorem mem_of_get_counts {l : List α} {a : α} {n : Nat} (h : (Table.counts l).get a = some n) :
    a ∈ l := by
  have hfold : ∀ t : Table α Nat, (l.foldl (fun t k => t.bump k 1) t).get a = some n → a ∈ l ∨
    t.get a = some n := by
    clear h
    induction l with
    | nil => exact fun t h => .inr h
    | cons b l ih =>
      intro t h
      rcases ih (t.bump b 1) h with hmem | hbump
      · exact .inl (List.mem_cons_of_mem b hmem)
      · rw [Table.bump, Table.get_assign] at hbump
        split_ifs at hbump with hab
        · exact .inl (hab ▸ List.mem_cons_self)
        · exact .inr hbump
  exact (hfold [] h).resolve_right fun h => by cases h

/-- A name after others: the one it is when it comes first, and a mark when it comes again. -/
theorem number_concat (l : List α) (a : α) :
    number mark [] (l ++ [a]) = number mark [] l ++ [if a ∈ l then mark a (l.count a + 1) else a] := by
  rw [number_append, number, number]
  congr 2
  have hcount : (Table.counts l).countOf a = l.count a := (Table.counts_spec l).2 a
  change numberName mark (Table.counts l) a = _
  rw [Table.countOf] at hcount
  unfold numberName
  cases hget : (Table.counts l).get a with
  | none =>
    rw [hget, Option.getD_none] at hcount
    exact (if_neg (List.count_eq_zero.mp hcount.symm)).symm
  | some n =>
    rw [hget, Option.getD_some] at hcount
    rw [hcount]
    exact (if_pos (mem_of_get_counts hget)).symm

/-- `a` comes a `k`-th time. -/
def Repeated (l : List α) (a : α) (k : Nat) : Prop := 2 ≤ k ∧ k ≤ l.count a

omit mark in
theorem repeated_concat {l : List α} {x a : α} {k : Nat} :
    Repeated (l ++ [x]) a k ↔ Repeated l a k ∨ x ∈ l ∧ a = x ∧ k = l.count x + 1 := by
  have hcount : (l ++ [x]).count a = l.count a + if x = a then 1 else 0 := by
    rw [List.count_append, List.count_singleton]
    simp
  rw [Repeated, Repeated, hcount, ← List.count_pos_iff]
  by_cases hxa : x = a
  · subst hxa
    rw [if_pos rfl]
    simp only [true_and]
    omega
  · rw [if_neg hxa]
    simp [Ne.symm hxa]

section
variable {mark} {l : List α}

theorem mem_number {z : α} : z ∈ number mark [] l ↔ z ∈ l ∨ ∃ a k, Repeated l a k ∧ z = mark a k := by
  induction l using List.reverseRecOn with
  | nil =>
    refine iff_of_false nofun ?_
    rintro (hmem | ⟨a, k, ⟨htwo, hcount⟩, -⟩)
    · cases hmem
    · rw [List.count_nil] at hcount
      omega
  | append_singleton l x ih =>
    simp only [number_concat, List.mem_append, List.mem_singleton, ih, repeated_concat]
    by_cases hx : x ∈ l
    · rw [if_pos hx]
      constructor
      · rintro ((hmem | ⟨a, k, hrepeated, rfl⟩) | rfl)
        · exact .inl (.inl hmem)
        · exact .inr ⟨a, k, .inl hrepeated, rfl⟩
        · exact .inr ⟨x, _, .inr ⟨hx, rfl, rfl⟩, rfl⟩
      · rintro ((hmem | rfl) | ⟨a, k, hrepeated | ⟨-, rfl, rfl⟩, rfl⟩)
        · exact .inl (.inl hmem)
        · exact .inl (.inl hx)
        · exact .inl (.inr ⟨a, k, hrepeated, rfl⟩)
        · exact .inr rfl
    · rw [if_neg hx]
      constructor
      · rintro ((hmem | ⟨a, k, hrepeated, rfl⟩) | rfl)
        · exact .inl (.inl hmem)
        · exact .inr ⟨a, k, .inl hrepeated, rfl⟩
        · exact .inl (.inr rfl)
      · rintro ((hmem | rfl) | ⟨a, k, hrepeated | ⟨hmem, -⟩, rfl⟩)
        · exact .inl (.inl hmem)
        · exact .inr rfl
        · exact .inl (.inr ⟨a, k, hrepeated, rfl⟩)
        · exact absurd hmem hx

/-- **Numbered names are distinct** iff no name is the mark of a repeat. -/
theorem nodup_number_iff (hmark : ∀ a k b j, mark a k = mark b j → a = b ∧ k = j) :
    (number mark [] l).Nodup ↔ ∀ a k, Repeated l a k → mark a k ∉ l := by
  induction l using List.reverseRecOn with
  | nil => exact iff_of_true List.nodup_nil fun _ _ _ => List.not_mem_nil
  | append_singleton l x ih =>
    rw [number_concat, List.nodup_append_comm, List.singleton_append, List.nodup_cons, ih, mem_number]
    simp only [repeated_concat, List.mem_append, List.mem_singleton]
    by_cases hx : x ∈ l
    · rw [if_pos hx]
      constructor
      · rintro ⟨hnew, hold⟩ a k (hrepeated | ⟨-, rfl, rfl⟩)
        · have hmem := hold a k hrepeated
          rintro (hin | hlast)
          · exact hmem hin
          · exact hmem (hlast ▸ hx)
        · rintro (hin | hlast)
          · exact hnew (.inl hin)
          · refine hnew (.inl ?_)
            rw [hlast]
            exact hx
      · intro h
        refine ⟨?_, fun a k hrepeated hin => h a k (.inl hrepeated) (.inl hin)⟩
        rintro (hin | ⟨a, k, hrepeated, heq⟩)
        · exact h x _ (.inr ⟨hx, rfl, rfl⟩) (.inl hin)
        · -- the mark of the last repeat is new
          obtain ⟨rfl, rfl⟩ := hmark _ _ _ _ heq
          exact absurd hrepeated.2 (by omega)
    · rw [if_neg hx]
      constructor
      · rintro ⟨hnew, hold⟩ a k (hrepeated | ⟨hmem, -⟩)
        · rintro (hin | hlast)
          · exact hold a k hrepeated hin
          · exact hnew (.inr ⟨a, k, hrepeated, hlast.symm⟩)
        · exact absurd hmem hx
      · intro h
        refine ⟨?_, fun a k hrepeated hin => h a k (.inl hrepeated) (.inl hin)⟩
        rintro (hin | ⟨a, k, hrepeated, heq⟩)
        · exact hx hin
        · exact h a k (.inl hrepeated) (.inr heq.symm)

end

/-! ## First entries -/

namespace Table

variable {κ ρ : Type*} [DecidableEq κ]

/-- `if key not in rows: rows[key] = value`. -/
def note (rows : Table κ ρ) (e : κ × ρ) : Table κ ρ :=
  if (rows.get e.1).isSome then rows else rows.assign e.1 e.2

theorem nodup_keys_foldl_note (l : Table κ ρ) {rows : Table κ ρ} (h : (rows.map Prod.fst).Nodup) :
    ((l.foldl note rows).map Prod.fst).Nodup := by
  refine foldl_keeps (P := fun t : Table κ ρ => (t.map Prod.fst).Nodup) (fun e _ t ht => ?_) h
  rw [note]
  split_ifs
  · exact ht
  · exact nodup_keys_assign ht e.1 e.2

theorem mem_foldl_note {l rows : Table κ ρ} (h : (rows.map Prod.fst).Nodup)
    (hsame : ∀ e ∈ rows ++ l, ∀ e' ∈ rows ++ l, e.1 = e'.1 → e = e') {e : κ × ρ} :
    e ∈ l.foldl note rows ↔ e ∈ rows ++ l := by
  induction l generalizing rows with
  | nil => rw [List.foldl_nil, List.append_nil]
  | cons a l ih =>
    have ha : a ∈ rows ++ a :: l := List.mem_append_right _ List.mem_cons_self
    have hnote : ∀ e', e' ∈ rows.note a ↔ e' = a ∨ e' ∈ rows := by
      intro e'
      rw [note]
      split_ifs with hknown
      · obtain ⟨r, hr⟩ := Option.isSome_iff_exists.mp hknown
        have hmem := mem_of_get hr
        have heq : a = (a.1, r) := hsame a ha _ (List.mem_append_left _ hmem) rfl
        refine (or_iff_right_of_imp ?_).symm
        rintro rfl
        exact heq ▸ hmem
      · rw [mem_assign h]
        refine or_congr_right (and_iff_left_of_imp fun hmem heq => hknown ?_)
        exact isSome_get.mpr (heq ▸ List.mem_map_of_mem hmem)
    have hnodup : ((rows.note a).map Prod.fst).Nodup := nodup_keys_foldl_note [a] h
    have hmem : ∀ e', e' ∈ rows.note a ++ l ↔ e' ∈ rows ++ a :: l := by
      intro e'
      rw [List.mem_append, hnote, List.mem_append, List.mem_cons, or_comm (a := e' = a), or_assoc]
    rw [List.foldl_cons, ih hnodup fun e he e' he' => hsame e ((hmem e).mp he) e' ((hmem e').mp he'),
      hmem]

/-- Noted one by one, the entries of a table with repetitions are those of the table. -/
theorem foldl_note_perm {l t : Table κ ρ} (ht : (t.map Prod.fst).Nodup) (h : ∀ e, e ∈ l ↔ e ∈ t) :
    (l.foldl note []).Perm t := by
  have hnil : (([] : Table κ ρ).map Prod.fst).Nodup := List.nodup_nil
  have hsame : ∀ e ∈ [] ++ l, ∀ e' ∈ [] ++ l, e.1 = e'.1 → e = e' := by
    intro e he e' he' hkey
    rw [List.nil_append, h] at he he'
    refine Prod.ext hkey (Option.some.inj ((get_of_mem ht he).symm.trans ?_))
    rw [hkey]
    exact get_of_mem ht he'
  refine (List.perm_ext_iff_of_nodup (.of_map _ (nodup_keys_foldl_note l hnil)) (.of_map _ ht)).mpr
    fun e => ?_
  rw [mem_foldl_note hnil hsame, List.nil_append, h]

end Table

end GuruJi.Lib
