import GuruJi.Lib.Regex
import Mathlib.Data.List.Infix

/-!
# Scanning for marks

A pattern whose matches end at the first closing letter is looked for from the left, and again after
each match. What it reads does not depend on what follows the match, so

* `marks_take`: a text that is cut has the marks that end before the cut;
* `found_append`: what is found in two texts one after the other is what is found in each, where the
  pattern reads the same of the ends of the first with the second after them;
* `findall_eq_found`: a regular expression without word boundaries whose matches end so is such a
  pattern.
-/

namespace GuruJi.Lib

/-- A pattern that reads a value at the beginning of a text, up to the first closing letter. -/
structure Pattern (α β : Type*) (close : α) where
  read : List α → Option (β × List α)
  own : ∀ {text : List α} {v : β} {rest : List α}, read text = some (v, rest) →
    ∃ body, close ∉ body ∧ text = body ++ close :: rest ∧
      ∀ rest', read (body ++ close :: rest') = some (v, rest')

namespace Pattern
variable {α β : Type*} {close : α} (p : Pattern α β close)

/-- The marks of a text that begins at `pos`, with where they end; the first `skip` letters belong to
the mark before. -/
def scan : Nat → Nat → List α → List (β × Nat)
  | _, _, [] => []
  | skip + 1, pos, _ :: text => scan skip (pos + 1) text
  | 0, pos, c :: text =>
    match p.read (c :: text) with
    | some (v, rest) =>
      (v, pos + 1 + (text.length - rest.length)) :: scan (text.length - rest.length) (pos + 1) text
    | none => scan 0 (pos + 1) text

def marks (text : List α) : List (β × Nat) := p.scan 0 0 text

def found (text : List α) : List β := (p.marks text).map Prod.fst

variable {p}

theorem scan_skip (skip pos : Nat) (text : List α) :
    p.scan skip pos text = p.scan 0 (pos + skip) (text.drop skip) := by
  induction text generalizing skip pos with
  | nil => simp [scan]
  | cons c text ih =>
    rcases skip with _ | skip
    · rfl
    · rw [scan, ih, List.drop_succ_cons, Nat.add_right_comm, Nat.add_assoc]

theorem scan_nil (pos : Nat) : p.scan 0 pos [] = [] := rfl

variable {text : List α}

theorem scan_of_none {c : α} (h : p.read (c :: text) = none) (pos : Nat) :
    p.scan 0 pos (c :: text) = p.scan 0 (pos + 1) text := by
  rw [scan, h]

theorem scan_of_read {body rest : List α} {v : β} (h : p.read (body ++ close :: rest) = some (v, rest))
    (pos : Nat) : p.scan 0 pos (body ++ close :: rest) =
      (v, pos + (body.length + 1)) :: p.scan 0 (pos + (body.length + 1)) rest := by
  obtain ⟨c, text, hcons⟩ : ∃ c text, body ++ close :: rest = c :: text := by
    rcases body with _ | ⟨c, body⟩
    · exact ⟨close, rest, rfl⟩
    · exact ⟨c, body ++ close :: rest, rfl⟩
  have hlength : text.length = body.length + rest.length := by
    have := congrArg List.length hcons
    simp only [List.length_append, List.length_cons] at this
    omega
  have hdrop : text.drop body.length = rest := by
    have := congrArg (List.drop (body.length + 1)) hcons
    simpa using this.symm
  have hskip : text.length - rest.length = body.length := by omega
  rw [hcons] at h ⊢
  rw [scan, h]
  show (v, pos + 1 + (text.length - rest.length)) :: p.scan (text.length - rest.length) (pos + 1) text = _
  rw [hskip, scan_skip, hdrop, Nat.add_assoc, Nat.add_comm 1]

/-- A text is read from the left: a letter that begins no mark, or a mark, and then the rest. -/
theorem induction {motive : List α → Prop} (nil : motive [])
    (skip : ∀ c text, p.read (c :: text) = none → motive text → motive (c :: text))
    (mark : ∀ body v rest, close ∉ body →
      (∀ rest', p.read (body ++ close :: rest') = some (v, rest')) → motive rest →
        motive (body ++ close :: rest)) (text : List α) : motive text := by
  suffices hall : ∀ n, ∀ text : List α, text.length ≤ n → motive text from hall _ text (le_refl _)
  intro n
  induction n with
  | zero =>
    intro text hlength
    rw [List.length_eq_zero_iff.mp (Nat.le_zero.mp hlength)]
    exact nil
  | succ n ih =>
    intro text hlength
    rcases text with _ | ⟨c, text⟩
    · exact nil
    · cases hread : p.read (c :: text) with
      | none => exact skip c text hread (ih text (Nat.le_of_succ_le_succ hlength))
      | some e =>
        obtain ⟨body, hbody, heq, hown⟩ := p.own hread
        rw [heq] at hlength ⊢
        refine mark body e.1 e.2 hbody hown (ih e.2 ?_)
        simp only [List.length_append, List.length_cons] at hlength
        omega

theorem map_scan (pos : Nat) (text : List α) : (p.scan 0 pos text).map Prod.fst = p.found text := by
  have hshift : ∀ pos pos', (p.scan 0 pos text).map Prod.fst = (p.scan 0 pos' text).map Prod.fst := by
    induction text using p.induction with
    | nil => exact fun pos pos' => rfl
    | skip c text hread ih =>
      intro pos pos'
      rw [scan_of_none hread, scan_of_none hread]
      exact ih _ _
    | mark body v rest hbody hown ih =>
      intro pos pos'
      rw [scan_of_read (hown rest), scan_of_read (hown rest), List.map_cons, List.map_cons,
        ih _ (pos' + (body.length + 1))]
  exact hshift pos 0

@[simp] theorem found_nil : p.found [] = [] := rfl

theorem found_of_none {c : α} (h : p.read (c :: text) = none) : p.found (c :: text) = p.found text := by
  rw [← map_scan 0, scan_of_none h, map_scan]

theorem found_of_read {body rest : List α} {v : β}
    (h : p.read (body ++ close :: rest) = some (v, rest)) :
    p.found (body ++ close :: rest) = v :: p.found rest := by
  rw [← map_scan 0, scan_of_read h, List.map_cons, map_scan]

theorem found_of_some {text rest : List α} {v : β} (h : p.read text = some (v, rest)) :
    p.found text = v :: p.found rest := by
  obtain ⟨body, -, rfl, hown⟩ := p.own h
  exact found_of_read (hown rest)

theorem read_eq_none (h : close ∉ text) : p.read text = none := by
  cases hread : p.read text with
  | none => rfl
  | some e =>
    obtain ⟨body, -, heq, -⟩ := p.own hread
    exact absurd (heq ▸ List.mem_append_right body List.mem_cons_self) h

theorem scan_eq_nil (h : close ∉ text) (pos : Nat) : p.scan 0 pos text = [] := by
  induction text generalizing pos with
  | nil => rfl
  | cons c text ih =>
    rw [scan_of_none (read_eq_none h)]
    exact ih (fun hmem => h (List.mem_cons_of_mem c hmem)) _

theorem lt_of_mem_scan {pos : Nat} {e : β × Nat} (h : e ∈ p.scan 0 pos text) : pos < e.2 := by
  induction text using p.induction generalizing pos with
  | nil => cases h
  | skip c text hread ih =>
    rw [scan_of_none hread] at h
    exact Nat.lt_of_succ_lt (ih h)
  | mark body v rest hbody hown ih =>
    rw [scan_of_read (hown rest)] at h
    rcases List.mem_cons.mp h with rfl | h
    · show pos < pos + (body.length + 1)
      omega
    · have := ih h
      omega

theorem read_take_of_none (h : p.read text = none) (n : Nat) : p.read (text.take n) = none := by
  cases hread : p.read (text.take n) with
  | none => rfl
  | some e =>
    obtain ⟨body, -, heq, hown⟩ := p.own hread
    have htext : text = body ++ close :: (e.2 ++ text.drop n) := by
      rw [← List.cons_append, ← List.append_assoc, ← heq, List.take_append_drop]
    rw [htext, hown] at h
    cases h

theorem scan_take (pos n : Nat) (text : List α) :
    p.scan 0 pos (text.take n) = (p.scan 0 pos text).filter (·.2 ≤ pos + n) := by
  induction text using p.induction generalizing pos n with
  | nil => simp [scan]
  | skip c text hread ih =>
    rcases n with _ | n
    · rw [List.take_zero, scan_nil, eq_comm, List.filter_eq_nil_iff]
      intro e he
      have := lt_of_mem_scan he
      simpa using this
    · have hcut := read_take_of_none hread (n + 1)
      rw [List.take_succ_cons] at hcut ⊢
      rw [scan_of_none hread, scan_of_none hcut, ih, Nat.add_assoc, Nat.add_comm 1]
  | mark body v rest hbody hown ih =>
    rw [scan_of_read (hown rest), List.take_append]
    by_cases hn : body.length + 1 ≤ n
    · obtain ⟨m, rfl⟩ := Nat.exists_eq_add_of_le hn
      have htake : body.take (body.length + 1 + m) = body := List.take_of_length_le (by omega)
      have hrest : body.length + 1 + m - body.length = m + 1 := by omega
      rw [htake, hrest, List.take_succ_cons, scan_of_read (hown _), ih, List.filter_cons,
        if_pos (by simp), Nat.add_assoc]
    · have hrest : n - body.length = 0 := by omega
      rw [hrest, List.take_zero, List.append_nil,
        scan_eq_nil fun hmem => hbody (List.mem_of_mem_take hmem), eq_comm, List.filter_eq_nil_iff]
      intro e he
      have hend : pos + n < e.2 := by
        rcases List.mem_cons.mp he with rfl | he
        · show pos + n < pos + (body.length + 1)
          omega
        · have := lt_of_mem_scan he
          omega
      simpa using hend

/-- **A text that is cut** has the marks that end before the cut. -/
theorem marks_take (n : Nat) (text : List α) :
    p.marks (text.take n) = (p.marks text).filter (·.2 ≤ n) := by
  rw [marks, scan_take, Nat.zero_add]
  rfl

/-- What is found in one text after another, where the pattern reads the same of the ends of the first
with the second after them. -/
theorem found_append {a b : List α}
    (h : ∀ end_, end_ <:+ a → end_ ≠ [] → p.read end_ = none → p.read (end_ ++ b) = none) :
    p.found (a ++ b) = p.found a ++ p.found b := by
  induction a using p.induction with
  | nil => rfl
  | skip c text hread ih =>
    have hwhole := h (c :: text) (List.suffix_refl _) (List.cons_ne_nil c text) hread
    rw [List.cons_append] at hwhole ⊢
    rw [found_of_none hwhole, found_of_none hread]
    exact ih fun end_ hend => h end_ (hend.trans (List.suffix_cons c text))
  | mark body v rest hbody hown ih =>
    rw [List.append_assoc, List.cons_append, found_of_read (hown _), found_of_read (hown _),
      List.cons_append]
    refine congrArg _ (ih fun end_ hend => h end_ (hend.trans ?_))
    exact (List.suffix_cons close rest).trans (List.suffix_append body _)

end Pattern

/-! ## Regular expressions -/

namespace Regex

def Plain : Regex → Prop
  | boundary _ => False
  | char _ => True
  | plus _ => True
  | seq r t => r.Plain ∧ t.Plain
  | opt r => r.Plain

/-- The texts that a pattern reads end with their first closing letter. -/
def EndsAt (close : Char) (r : Regex) : Prop :=
  ∀ w, r.Reads w → ∃ body, close ∉ body ∧ w = body ++ [close]

theorem mem_runPlus {p : Char → Bool} {w : List Char} (hne : w ≠ []) (hw : ∀ c ∈ w, p c = true)
    (before rest : List Char) : ⟨w.reverse ++ before, rest⟩ ∈ runPlus p before (w ++ rest) := by
  induction w generalizing before with
  | nil => exact absurd rfl hne
  | cons c w ih =>
    obtain ⟨hc, hw⟩ := List.forall_mem_cons.mp hw
    rw [List.cons_append, runPlus, if_pos hc, List.mem_append]
    rcases w with _ | ⟨d, w⟩
    · exact .inr (List.mem_singleton.mpr rfl)
    · left
      have := ih (List.cons_ne_nil d w) hw (c :: before)
      rwa [List.reverse_cons, List.append_assoc]

theorem mem_run_of_reads {r : Regex} (hplain : r.Plain) {w : List Char} (h : r.Reads w)
    (before rest : List Char) : ⟨w.reverse ++ before, rest⟩ ∈ r.run ⟨before, w ++ rest⟩ := by
  induction r generalizing w before rest with
  | boundary isWord => exact hplain.elim
  | char p =>
    obtain ⟨c, rfl, hc⟩ := h
    simp [run, hc]
  | plus p => exact mem_runPlus h.1 h.2 before rest
  | seq r t ihr iht =>
    obtain ⟨u, v, rfl, hu, hv⟩ := h
    refine List.mem_flatMap.mpr ⟨⟨u.reverse ++ before, v ++ rest⟩, ?_, ?_⟩
    · rw [List.append_assoc]
      exact ihr hplain.1 hu before (v ++ rest)
    · rw [List.reverse_append, List.append_assoc]
      exact iht hplain.2 hv (u.reverse ++ before) rest
  | opt r ih =>
    rw [run, List.mem_append]
    rcases h with rfl | h
    · exact .inr (List.mem_singleton.mpr rfl)
    · exact .inl (ih hplain h before rest)

theorem body_unique {close : Char} {body body' rest rest' : List Char} (h : close ∉ body)
    (h' : close ∉ body') (heq : body ++ close :: rest = body' ++ close :: rest') :
    body = body' ∧ rest = rest' := by
  induction body generalizing body' with
  | nil =>
    rcases body' with _ | ⟨c, body'⟩
    · exact ⟨rfl, (List.cons.inj heq).2⟩
    · exact absurd ((List.cons.inj heq).1 ▸ List.mem_cons_self) h'
  | cons c body ih =>
    rcases body' with _ | ⟨c', body'⟩
    · exact absurd ((List.cons.inj heq).1 ▸ List.mem_cons_self) h
    · obtain ⟨rfl, hrest⟩ := List.cons.inj heq
      obtain ⟨rfl, rfl⟩ := ih (fun hmem => h (List.mem_cons_of_mem c hmem))
        (fun hmem => h' (List.mem_cons_of_mem c hmem)) hrest
      exact ⟨rfl, rfl⟩

section
variable {r : Regex} {close : Char} (hplain : r.Plain) (hends : r.EndsAt close)

/-- What a pattern reads at the beginning of a text, and what is left. -/
def readAt (r : Regex) (text : List Char) : Option (List Char × List Char) :=
  (r.run ⟨[], text⟩).head?.map fun t => (text.take (text.length - t.after.length), t.after)

include hplain hends

theorem head_run (before : List Char) {text w rest : List Char} (hw : r.Reads w)
    (htext : text = w ++ rest) :
    ∃ t, (r.run ⟨before, text⟩).head? = some t ∧ t.after = rest := by
  subst htext
  have hmem := mem_run_of_reads hplain hw before rest
  cases hrun : r.run ⟨before, w ++ rest⟩ with
  | nil => rw [hrun] at hmem; cases hmem
  | cons t ts =>
    have ht : t ∈ r.run ⟨before, w ++ rest⟩ := hrun ▸ List.mem_cons_self
    obtain ⟨v, hv, hreads⟩ := reads_of_mem_run ht
    obtain ⟨body, hbody, rfl⟩ := hends w hw
    obtain ⟨body', hbody', rfl⟩ := hends v hreads
    simp only [List.append_assoc, List.singleton_append] at hv
    exact ⟨t, rfl, (body_unique hbody hbody' hv).2.symm⟩

theorem readAt_eq_some_iff {text w rest : List Char} :
    r.readAt text = some (w, rest) ↔ text = w ++ rest ∧ r.Reads w := by
  constructor
  · intro h
    obtain ⟨t, ht, heq⟩ := Option.map_eq_some_iff.mp h
    obtain ⟨v, hv, hreads⟩ := reads_of_mem_run (List.mem_of_head? ht)
    obtain ⟨rfl, rfl⟩ := Prod.mk.inj heq
    have htake : text.take (text.length - t.after.length) = v := by
      have hv' : text = v ++ t.after := hv
      rw [hv', List.length_append, Nat.add_sub_cancel, List.take_left]
    rw [htake]
    exact ⟨hv, hreads⟩
  · rintro ⟨rfl, hw⟩
    obtain ⟨t, ht, rfl⟩ := head_run hplain hends [] hw (rfl : w ++ rest = w ++ rest)
    rw [readAt, ht, Option.map_some, List.length_append, Nat.add_sub_cancel, List.take_left]

omit hplain hends in
/-- A regular expression without word boundaries, as a pattern. -/
def pattern (hplain : r.Plain) (hends : r.EndsAt close) : Pattern Char (List Char) close where
  read := r.readAt
  own {text} {v} {rest} h := by
    obtain ⟨rfl, hv⟩ := (readAt_eq_some_iff hplain hends).mp h
    obtain ⟨body, hbody, rfl⟩ := hends v hv
    refine ⟨body, hbody, by rw [List.append_assoc, List.singleton_append], fun rest' => ?_⟩
    refine (readAt_eq_some_iff hplain hends).mpr ⟨?_, hv⟩
    rw [List.append_assoc, List.singleton_append]

theorem findFrom_eq_found (text before : List Char) {n : Nat} (hn : text.length < n) :
    r.findFrom n ⟨before, text⟩ = (pattern hplain hends).found text := by
  induction text using (pattern hplain hends).induction generalizing before n with
  | nil =>
    obtain ⟨m, rfl⟩ := Nat.exists_eq_succ_of_ne_zero (Nat.ne_of_gt (Nat.zero_lt_of_lt hn))
    rw [findFrom]
    cases (r.run ⟨before, []⟩).head? with
    | none => rfl
    | some t => simp
  | skip c text hread ih =>
    obtain ⟨m, rfl⟩ := Nat.exists_eq_succ_of_ne_zero (Nat.ne_of_gt (Nat.zero_lt_of_lt hn))
    have hnone : (r.run ⟨before, c :: text⟩).head? = none := by
      rw [List.head?_eq_none_iff, List.eq_nil_iff_forall_not_mem]
      intro t ht
      obtain ⟨w, hw, hreads⟩ := reads_of_mem_run ht
      have := (readAt_eq_some_iff hplain hends).mpr ⟨hw, hreads⟩
      rw [show r.readAt (c :: text) = none from hread] at this
      cases this
    rw [findFrom, hnone, Pattern.found_of_none hread]
    exact ih _ (Nat.lt_of_succ_lt_succ hn)
  | mark body v rest hbody hown ih =>
    obtain ⟨m, rfl⟩ := Nat.exists_eq_succ_of_ne_zero (Nat.ne_of_gt (Nat.zero_lt_of_lt hn))
    obtain ⟨hv, hreads⟩ := (readAt_eq_some_iff hplain hends).mp (hown rest)
    obtain ⟨t, ht, rfl⟩ := head_run hplain hends before hreads hv
    have hlt : t.after.length < (body ++ close :: t.after).length := by
      rw [List.length_append, List.length_cons]
      omega
    have htake : (body ++ close :: t.after).take
        ((body ++ close :: t.after).length - t.after.length) = v := by
      rw [hv, List.length_append, Nat.add_sub_cancel, List.take_left]
    rw [findFrom, ht]
    show (if t.after.length < (body ++ close :: t.after).length then _ else _) = _
    rw [if_pos hlt, htake, Pattern.found_of_read (hown t.after)]
    exact congrArg _ (ih t.before (by omega))

/-- All matches of a regular expression are what its pattern finds. -/
theorem findall_eq_found (text : List Char) : r.findall text = (pattern hplain hends).found text :=
  findFrom_eq_found hplain hends text [] (Nat.lt_succ_self _)

end
end Regex
end GuruJi.Lib
