import Mathlib.Data.List.Perm.Basic
import Mathlib.Data.List.Nodup
import Mathlib.Tactic.Common

/-!
# Removing what rests on the rest

Names are taken out one after the other, each when it rests on the names that are still there beside
it. Which names are left can depend on the order they are taken in.

* `foldl_dropOne`: it does not where each name that rests on the others at first also rests on those
  that no such name is among.
* `length_foldl_dropOne`: then two orders leave equally many.
-/

namespace GuruJi.Lib

variable {κ ε : Type*} [DecidableEq κ]

def others (names : List κ) (k : κ) : List κ := names.filter (· ≠ k)

def dropOne (rests : ε → List κ → Bool) (key : ε → κ) (names : List κ) (e : ε) : List κ :=
  if rests e (others names (key e)) then others names (key e) else names

def resting (rests : ε → List κ → Bool) (key : ε → κ) (names : List κ) (entries : List ε) : List κ :=
  (entries.filter fun e => rests e (others names (key e))).map key

section
variable {rests : ε → List κ → Bool} {key : ε → κ} {names names' : List κ} {entries entries' : List ε}

theorem mem_resting {k : κ} : k ∈ resting rests key names entries ↔
    ∃ e ∈ entries, rests e (others names k) = true ∧ key e = k := by
  simp only [resting, List.mem_map, List.mem_filter]
  constructor
  · rintro ⟨e, ⟨he, hrests⟩, rfl⟩
    exact ⟨e, he, hrests, rfl⟩
  · rintro ⟨e, he, hrests, rfl⟩
    exact ⟨e, ⟨he, hrests⟩, rfl⟩

/-- **Taken one after the other, the names that rest on the others at first go**, where each of them
rests on those that stay. -/
theorem foldl_dropOne (hmono : ∀ e l l', l ⊆ l' → rests e l = true → rests e l' = true)
    (hstay : ∀ e ∈ entries, rests e (others names (key e)) = true →
      rests e (names.filter (· ∉ resting rests key names entries)) = true) :
    entries.foldl (dropOne rests key) names =
      names.filter (· ∉ resting rests key names entries) := by
  -- what is gone after some of the entries
  suffices h : ∀ later done, done ++ later = entries →
      later.foldl (dropOne rests key) (names.filter (· ∉ resting rests key names done)) =
        names.filter (· ∉ resting rests key names entries) by
    have hstart := h entries [] rfl
    simpa [resting] using hstart
  intro later
  induction later with
  | nil =>
    intro done hdone
    rw [List.append_nil] at hdone
    rw [hdone, List.foldl_nil]
  | cons e later ih =>
    intro done hdone
    have he : e ∈ entries := by simp [← hdone]
    have hnext := ih (done ++ [e]) (by simp [hdone])
    have hkept : others (names.filter (· ∉ resting rests key names done)) (key e) ⊆
        others names (key e) := fun k hk => by
      simp only [others, List.mem_filter] at hk ⊢
      exact ⟨hk.1.1, hk.2⟩
    have hresting : resting rests key names (done ++ [e]) = resting rests key names done ++
        if rests e (others names (key e)) then [key e] else [] := by
      rw [resting, List.filter_append, List.map_append, ← resting]
      congr 1
      cases hrests : rests e (others names (key e)) <;> simp [hrests]
    rw [List.foldl_cons, ← hnext]
    congr 1
    rw [hresting]
    cases hrests : rests e (others names (key e)) with
    | false =>
      have hnot : rests e (others (names.filter (· ∉ resting rests key names done)) (key e)) ≠
          true := fun h => by
        rw [hmono e _ _ hkept h] at hrests
        cases hrests
      rw [dropOne, if_neg hnot, if_neg Bool.false_ne_true, List.append_nil]
    | true =>
      have hstill : rests e (others (names.filter (· ∉ resting rests key names done)) (key e)) =
          true := by
        refine hmono e _ _ (fun k hk => ?_) (hstay e he hrests)
        rw [List.mem_filter, decide_eq_true_eq, mem_resting] at hk
        obtain ⟨hname, hout⟩ := hk
        simp only [others, List.mem_filter, decide_eq_true_eq, mem_resting]
        refine ⟨⟨hname, fun ⟨d, hd, hrest⟩ => hout ⟨d, ?_, hrest⟩⟩, fun hk => ?_⟩
        · rw [← hdone]
          exact List.mem_append_left _ hd
        · exact hout ⟨e, he, hk ▸ hrests, hk.symm⟩
      rw [dropOne, if_pos hstill, if_pos rfl, others, List.filter_filter]
      refine List.filter_congr fun k _ => ?_
      simp [and_comm]

theorem others_subset (h : ∀ k, k ∈ names ↔ k ∈ names') (k : κ) : others names k ⊆ others names' k := by
  intro j hj
  simp only [others, List.mem_filter] at hj ⊢
  exact ⟨(h j).mp hj.1, hj.2⟩

theorem rests_congr (hmono : ∀ e l l', l ⊆ l' → rests e l = true → rests e l' = true)
    (h : ∀ k, k ∈ names ↔ k ∈ names') (e : ε) (k : κ) :
    rests e (others names k) = rests e (others names' k) := by
  rw [Bool.eq_iff_iff]
  exact ⟨hmono e _ _ (others_subset h k), hmono e _ _ (others_subset (fun j => (h j).symm) k)⟩

/-- **Two orders leave equally many names**, where the entries are the same up to order. -/
theorem length_foldl_dropOne (hmono : ∀ e l l', l ⊆ l' → rests e l = true → rests e l' = true)
    (hnodup : names.Nodup) (hnodup' : names'.Nodup) (hnames : ∀ k, k ∈ names ↔ k ∈ names')
    (hto : ∀ e ∈ entries, ∃ e' ∈ entries', key e' = key e ∧ ∀ l, rests e' l = rests e l)
    (hfrom : ∀ e' ∈ entries', ∃ e ∈ entries, key e = key e' ∧ ∀ l, rests e l = rests e' l)
    (hstay : ∀ e ∈ entries, rests e (others names (key e)) = true →
      rests e (names.filter (· ∉ resting rests key names entries)) = true) :
    (entries.foldl (dropOne rests key) names).length =
      (entries'.foldl (dropOne rests key) names').length := by
  have hresting : ∀ k, k ∈ resting rests key names entries ↔
      k ∈ resting rests key names' entries' := by
    intro k
    rw [mem_resting, mem_resting]
    constructor
    · rintro ⟨e, he, hrests, rfl⟩
      obtain ⟨e', he', hkey, hsame⟩ := hto e he
      exact ⟨e', he', by rwa [hsame, ← rests_congr hmono hnames], hkey⟩
    · rintro ⟨e', he', hrests, rfl⟩
      obtain ⟨e, he, hkey, hsame⟩ := hfrom e' he'
      exact ⟨e, he, by rwa [hsame, rests_congr hmono hnames], hkey⟩
  have hleft : ∀ k, k ∈ names.filter (· ∉ resting rests key names entries) ↔
      k ∈ names'.filter (· ∉ resting rests key names' entries') := by
    intro k
    simp only [List.mem_filter, hnames k, hresting k]
  have hstay' : ∀ e' ∈ entries', rests e' (others names' (key e')) = true →
      rests e' (names'.filter (· ∉ resting rests key names' entries')) = true := by
    intro e' he' hrests
    obtain ⟨e, he, hkey, hsame⟩ := hfrom e' he'
    rw [← hsame, ← hkey, ← rests_congr hmono hnames] at hrests
    rw [← hsame]
    exact hmono e _ _ (fun k hk => (hleft k).mp hk) (hstay e he hrests)
  rw [foldl_dropOne hmono hstay, foldl_dropOne hmono hstay']
  exact ((List.perm_ext_iff_of_nodup (hnodup.filter _) (hnodup'.filter _)).mpr hleft).length_eq

end

end GuruJi.Lib
