import Mathlib.Data.List.DropRight
import Mathlib.Data.List.TakeWhile
import Mathlib.Tactic.Common

/-!
# Texts

Python's slices and splits of a text, as far as rules read them, and what is read back from joined
texts: `words_intercalate`, `intercalate_injective`. What is stripped twice: `trim_trim`,
`trim_take_trim_iff`.
-/

namespace GuruJi.Lib

/-- `text.startswith(start)`. -/
def startsWith (start text : String) : Bool := start.toList.isPrefixOf text.toList

/-- `text.split(":", 1)[0]`. -/
def beforeColon (text : String) : String := String.ofList (text.toList.takeWhile (· ≠ ':'))

/-- `text.partition(":")[2]`. -/
def afterColon (text : String) : String := String.ofList ((text.toList.dropWhile (· ≠ ':')).drop 1)

/-- `text[:n]`. -/
def upTo (n : Nat) (text : String) : String := String.ofList (text.toList.take n)

/-! ## Stripped lists -/

section
variable {α : Type*} {p : α → Bool} {l s : List α}

/-- `strip` on a list. -/
def trim (p : α → Bool) (l : List α) : List α := (l.dropWhile p).rdropWhile p

theorem rdropWhile_eq_self_iff_last : l.rdropWhile p = l ↔ ∀ x ∈ l.getLast?, p x = false := by
  rw [List.rdropWhile_eq_self_iff]
  constructor
  · intro h x hx
    obtain ⟨hne, rfl⟩ := List.mem_getLast?_eq_getLast hx
    exact Bool.eq_false_iff.mpr (h hne)
  · intro h hne
    exact Bool.eq_false_iff.mp (h _ (List.getLast_mem_getLast? hne))

theorem trim_eq_self_iff :
    trim p l = l ↔ (∀ x ∈ l.head?, p x = false) ∧ ∀ x ∈ l.getLast?, p x = false := by
  have hleft : (∀ x ∈ l.head?, p x = false) ↔ l.dropWhile p = l := by
    cases l with
    | nil => simp
    | cons a l => rw [List.dropWhile_eq_self_iff]; simp
  constructor
  · intro h
    have hdrop : l.dropWhile p = l := by
      refine (List.dropWhile_suffix p).eq_of_length_le ?_
      calc l.length = (trim p l).length := by rw [h]
        _ ≤ (l.dropWhile p).length := (List.rdropWhile_prefix p _).length_le
    refine ⟨hleft.mpr hdrop, rdropWhile_eq_self_iff_last.mp ?_⟩
    rwa [trim, hdrop] at h
  · rintro ⟨hhead, hlast⟩
    rw [trim, hleft.mp hhead, rdropWhile_eq_self_iff_last.mpr hlast]

theorem span_append (hl : ∀ x ∈ l, p x = true) (hs : ∀ x ∈ s.head?, p x = false) :
    (l ++ s).takeWhile p = l ∧ (l ++ s).dropWhile p = s := by
  rw [List.takeWhile_append_of_pos hl, List.dropWhile_append_of_pos hl]
  cases s with
  | nil => exact ⟨List.append_nil l, rfl⟩
  | cons x s =>
    have hx : ¬p x = true := Bool.eq_false_iff.mp (hs x rfl)
    rw [List.takeWhile_cons_of_neg hx, List.dropWhile_cons_of_neg hx, List.append_nil]
    exact ⟨rfl, rfl⟩

variable {x : α}

theorem mem_trim (hx : x ∈ l) (hp : p x = false) : x ∈ trim p l := by
  have hkeep : ∀ {l : List α}, x ∈ l → x ∈ l.dropWhile p := by
    intro l hl
    rw [← List.takeWhile_append_dropWhile (p := p) (l := l), List.mem_append] at hl
    refine hl.resolve_left fun htaken => ?_
    rw [List.mem_takeWhile_imp htaken] at hp
    cases hp
  rw [trim, List.rdropWhile, List.mem_reverse]
  exact hkeep (List.mem_reverse.mpr (hkeep hx))

theorem trim_append (hs : ∀ x ∈ s, p x = true) : trim p (s ++ l) = trim p l := by
  rw [trim, List.dropWhile_append_of_pos hs, trim]

theorem rtakeWhile_append_of_neg (hs : ∀ x ∈ s, p x = false) :
    (s ++ l).rtakeWhile p = l.rtakeWhile p ∧ (s ++ l).rdropWhile p = s ++ l.rdropWhile p := by
  induction l using List.reverseRecOn with
  | nil =>
    have hlast : ∀ hne : s ≠ [], ¬p (s.getLast hne) = true := fun hne => by
      simpa using hs _ (List.getLast_mem hne)
    rw [List.append_nil, List.rtakeWhile_nil, List.rdropWhile_nil, List.append_nil]
    exact ⟨List.rtakeWhile_eq_nil_iff.mpr hlast, List.rdropWhile_eq_self_iff.mpr hlast⟩
  | append_singleton l x ih =>
    rw [← List.append_assoc, List.rtakeWhile_concat, List.rtakeWhile_concat, List.rdropWhile_concat,
      List.rdropWhile_concat, ih.1, ih.2]
    split_ifs
    · exact ⟨rfl, rfl⟩
    · exact ⟨rfl, List.append_assoc s l [x]⟩

theorem rtakeWhile_append_of_pos (hs : s.rtakeWhile p = []) (hl : ∀ x ∈ l, p x = true) :
    (s ++ l).rtakeWhile p = l ∧ (s ++ l).rdropWhile p = s := by
  induction l using List.reverseRecOn with
  | nil =>
    have hsplit := List.rdropWhile_append_rtakeWhile (p := p) (l := s)
    rw [hs, List.append_nil] at hsplit
    rw [List.append_nil]
    exact ⟨hs, hsplit⟩
  | append_singleton l x ih =>
    obtain ⟨htake, hdrop⟩ := ih fun y hy => hl y (List.mem_append_left [x] hy)
    have hx : p x = true := hl x (by simp)
    rw [← List.append_assoc, List.rtakeWhile_concat_pos p _ x hx, List.rdropWhile_concat_pos p _ x hx,
      htake, hdrop]
    exact ⟨rfl, rfl⟩

theorem head_trim (h : x ∈ (trim p l).head?) : p x = false := by
  obtain ⟨rest, hrest⟩ := List.rdropWhile_prefix p (l.dropWhile p)
  have hhead : x ∈ (l.dropWhile p).head? := by
    rw [← hrest]
    exact List.mem_head?_append_of_mem_head? h
  have hne : l.dropWhile p ≠ [] := by
    intro hnil
    rw [hnil] at hhead
    cases hhead
  rw [List.head?_eq_some_head hne, Option.mem_some_iff] at hhead
  rw [← hhead]
  simpa using List.head_dropWhile_not p hne

theorem getLast_trim (h : x ∈ (trim p l).getLast?) : p x = false := by
  obtain ⟨hne, rfl⟩ := List.mem_getLast?_eq_getLast h
  exact Bool.eq_false_iff.mpr (List.rdropWhile_last_not p (l.dropWhile p) hne)

theorem length_trim_le : (trim p l).length ≤ l.length :=
  (List.rdropWhile_prefix p _).length_le.trans (List.dropWhile_suffix p).length_le

theorem trim_subset : trim p l ⊆ l := fun _ hx =>
  (List.dropWhile_sublist p).subset ((List.rdropWhile_prefix p _).subset hx)

theorem trim_trim : trim p (trim p l) = trim p l :=
  trim_eq_self_iff.mpr ⟨fun _ => head_trim, fun _ => getLast_trim⟩

theorem dropWhile_append_cons (hx : p x = false) :
    (l ++ x :: s).dropWhile p = l.dropWhile p ++ x :: s := by
  rw [List.dropWhile_append, List.dropWhile_cons_of_neg (Bool.eq_false_iff.mp hx)]
  split_ifs with hempty
  · rw [List.isEmpty_iff.mp hempty, List.nil_append]
  · rfl

theorem rdropWhile_append_cons (hx : p x = false) :
    (l ++ x :: s).rdropWhile p = l ++ x :: s.rdropWhile p := by
  have hreverse : (l ++ x :: s).reverse = s.reverse ++ x :: l.reverse := by simp
  rw [List.rdropWhile, hreverse, dropWhile_append_cons hx, List.rdropWhile]
  simp

theorem trim_append_cons (hx : p x = false) :
    trim p (l ++ x :: s) = l.dropWhile p ++ x :: s.rdropWhile p := by
  rw [trim, dropWhile_append_cons hx, rdropWhile_append_cons hx]

theorem exists_ink (h : ∃ x ∈ l, p x = false) :
    ∃ gap x more, l = gap ++ x :: more ∧ (∀ y ∈ gap, p y = true) ∧ p x = false := by
  obtain ⟨x, hx, hink⟩ := h
  have hne : l.dropWhile p ≠ [] := by
    intro hnil
    rw [List.dropWhile_eq_nil_iff] at hnil
    rw [hnil x hx] at hink
    cases hink
  obtain ⟨y, more, heq⟩ := List.exists_cons_of_ne_nil hne
  refine ⟨l.takeWhile p, y, more, ?_, fun z hz => List.mem_takeWhile_imp hz, ?_⟩
  · rw [← heq, List.takeWhile_append_dropWhile]
  · have hhead := List.head_dropWhile_not p hne
    simp only [heq, List.head_cons] at hhead
    simpa using hhead

theorem trim_blank (h : ∀ x ∈ l, p x = true) : trim p l = [] := by
  rw [trim, List.dropWhile_eq_nil_iff.mpr h, List.rdropWhile_nil]

theorem trim_rdropWhile (l : List α) : trim p (l.rdropWhile p) = trim p l := by
  by_cases hink : ∃ x ∈ l, p x = false
  · obtain ⟨gap, x, more, rfl, -, hx⟩ := exists_ink hink
    rw [rdropWhile_append_cons hx, trim_append_cons hx, trim_append_cons hx, List.rdropWhile_idempotent]
  · have hblank : ∀ x ∈ l, p x = true := by simpa using hink
    rw [List.rdropWhile_eq_nil_iff.mpr hblank, trim_blank hblank]
    rfl

/-- A stripped list, cut, is still stripped unless the cut leaves a space at its end. -/
theorem trim_take_trim_iff {n : Nat} : trim p ((trim p l).take (n + 1)) = (trim p l).take (n + 1) ↔
    ∀ x ∈ (trim p l)[n]?, p x = false := by
  rw [trim_eq_self_iff]
  have hhead : ∀ x ∈ ((trim p l).take (n + 1)).head?, p x = false := by
    intro x hx
    rw [List.head?_take, if_neg (Nat.succ_ne_zero n)] at hx
    exact head_trim hx
  rw [and_iff_right hhead, List.getLast?_take, if_neg (Nat.succ_ne_zero n), Nat.add_sub_cancel]
  cases hget : (trim p l)[n]? with
  | some x => simp
  | none =>
    rw [Option.none_or]
    refine iff_of_true (fun _ => getLast_trim) ?_
    intro x hx
    cases hx

end

/-! ## Stripped texts -/

/-- `text.strip()`. -/
def strip (isSpace : Char → Bool) (text : String) : String :=
  String.ofList (((text.toList.dropWhile isSpace).reverse.dropWhile isSpace).reverse)

variable {c : Char} {isSpace : Char → Bool} {text : String}

theorem not_isWhitespace_of_ink (h : '!' ≤ c) : c.isWhitespace = false := by
  rw [Bool.eq_false_iff]
  intro hspace
  simp only [Char.isWhitespace, Bool.or_eq_true, decide_eq_true_eq] at hspace
  rcases hspace with ((rfl | rfl) | rfl) | rfl
  · exact absurd h (by decide)
  · exact absurd h (by decide)
  · exact absurd h (by decide)
  · exact absurd h (by decide)

theorem mem_strip (hc : c ∈ text.toList)
    (hspace : isSpace c = false) : c ∈ (strip isSpace text).toList := by
  rw [strip, String.toList_ofList]
  exact mem_trim hc hspace

theorem strip_ne_empty : strip isSpace text ≠ "" ↔ ∃ c ∈ text.toList, isSpace c = false := by
  constructor
  · intro hne
    by_contra hnone
    push Not at hnone
    refine hne ?_
    have hall : text.toList.dropWhile isSpace = [] :=
      List.dropWhile_eq_nil_iff.mpr fun c hc => by simpa using hnone c hc
    rw [strip, hall]
    rfl
  · rintro ⟨c, hc, hspace⟩ hempty
    have hmem := mem_strip hc hspace
    rw [hempty] at hmem
    cases hmem

/-- A text that starts with a label and a colon has the label before its first colon. -/
theorem beforeColon_of_startsWith {label rest text : String} (hlabel : ':' ∉ label.toList)
    (h : startsWith (label ++ ":" ++ rest) text = true) : beforeColon text = label := by
  obtain ⟨tail, htail⟩ := List.isPrefixOf_iff_prefix.mp h
  have htake : text.toList.takeWhile (· ≠ ':') = label.toList := by
    rw [← htail, String.toList_append, String.toList_append, List.append_assoc, List.append_assoc,
      List.takeWhile_append_of_pos fun c hc => by
        simpa using fun heq : c = ':' => hlabel (heq ▸ hc)]
    simp
  rw [beforeColon, htake, String.ofList_toList]

/-! ## Split and joined texts -/

theorem mem_of_mem_splitOnP {α : Type*} {p : α → Bool} {l piece : List α}
    (h : piece ∈ l.splitOnP p) {x : α} (hx : x ∈ piece) : x ∈ l ∧ p x = false := by
  induction l generalizing piece with
  | nil =>
    rw [List.splitOnP_nil, List.mem_singleton] at h
    rw [h] at hx
    cases hx
  | cons a l ih =>
    rw [List.splitOnP_cons_eq_if_modifyHead] at h
    split_ifs at h with ha
    · rcases List.mem_cons.mp h with rfl | h
      · cases hx
      · exact (ih h hx).imp_left (List.mem_cons_of_mem a)
    · obtain ⟨first, rest, hsplit⟩ := List.exists_cons_of_ne_nil (List.splitOnP_ne_nil p l)
      rw [hsplit] at ih h
      rcases List.mem_cons.mp h with rfl | h
      · rcases List.mem_cons.mp hx with rfl | hx
        · exact ⟨List.mem_cons_self, by simpa using ha⟩
        · exact (ih List.mem_cons_self hx).imp_left (List.mem_cons_of_mem a)
      · exact (ih (List.mem_cons_of_mem first h) hx).imp_left (List.mem_cons_of_mem a)

theorem mem_intercalate {α : Type*} {sep x : α} {parts : List (List α)}
    (h : x ∈ [sep].intercalate parts) : x = sep ∨ ∃ part ∈ parts, x ∈ part := by
  induction parts with
  | nil => cases h
  | cons part parts ih =>
    cases parts with
    | nil => exact .inr ⟨part, List.mem_cons_self, by simpa using h⟩
    | cons next parts =>
      rw [List.intercalate_cons_cons, List.append_assoc, List.mem_append] at h
      rcases h with h | h
      · exact .inr ⟨part, List.mem_cons_self, h⟩
      · rcases List.mem_cons.mp h with rfl | h
        · exact .inl rfl
        · exact (ih h).imp_right fun ⟨part', hpart', hx⟩ =>
            ⟨part', List.mem_cons_of_mem _ hpart', hx⟩

theorem mem_intercalate_of_mem {α : Type*} {sep x : α} {parts : List (List α)} {part : List α}
    (hpart : part ∈ parts) (hx : x ∈ part) : x ∈ [sep].intercalate parts := by
  induction parts with
  | nil => cases hpart
  | cons first parts ih =>
    cases parts with
    | nil =>
      rw [List.intercalate_singleton, ← List.mem_singleton.mp hpart]
      exact hx
    | cons next parts =>
      rw [List.intercalate_cons_cons, List.mem_append, List.mem_append]
      rcases List.mem_cons.mp hpart with rfl | hpart
      · exact .inl (.inl hx)
      · exact .inr (ih hpart)

section
variable {α : Type*} [DecidableEq α] {sep : α}

/-- Words are read back from their joined text. -/
theorem words_intercalate {words : List (List α)} (h : ∀ word ∈ words, word ≠ [] ∧ sep ∉ word) :
    (([sep].intercalate words).splitOn sep).filter (· ≠ []) = words := by
  cases words with
  | nil => simp
  | cons word words =>
    rw [List.splitOn_intercalate sep (fun l hl => (h l hl).2) (List.cons_ne_nil word words)]
    exact List.filter_eq_self.mpr fun l hl => by simpa using (h l hl).1

theorem append_sep_inj {a b a' b' : List α} (ha : sep ∉ a) (ha' : sep ∉ a')
    (h : a ++ sep :: b = a' ++ sep :: b') : a = a' ∧ b = b' := by
  induction a generalizing a' with
  | nil =>
    rcases a' with _ | ⟨x, a'⟩
    · exact ⟨rfl, (List.cons.inj h).2⟩
    · exact absurd ((List.cons.inj h).1 ▸ List.mem_cons_self) ha'
  | cons x a ih =>
    rcases a' with _ | ⟨x', a'⟩
    · exact absurd ((List.cons.inj h).1 ▸ List.mem_cons_self) ha
    · obtain ⟨rfl, hrest⟩ := List.cons.inj h
      rw [List.mem_cons, not_or] at ha ha'
      obtain ⟨rfl, rfl⟩ := ih ha.2 ha'.2 hrest
      exact ⟨rfl, rfl⟩

/-- Parts are told apart by their joined text when no part but the last has the separator. -/
theorem intercalate_injective {parts parts' : List (List α)} (hlength : parts.length = parts'.length)
    (hparts : ∀ part ∈ parts.dropLast, sep ∉ part) (hparts' : ∀ part ∈ parts'.dropLast, sep ∉ part)
    (h : [sep].intercalate parts = [sep].intercalate parts') : parts = parts' := by
  induction parts generalizing parts' with
  | nil => exact (List.length_eq_zero_iff.mp hlength.symm).symm
  | cons part parts ih =>
    cases parts' with
    | nil => cases hlength
    | cons part' parts' =>
      have hrest : parts.length = parts'.length := Nat.succ.inj hlength
      cases parts with
      | nil =>
        obtain rfl := List.length_eq_zero_iff.mp hrest.symm
        simpa using h
      | cons next parts =>
        cases parts' with
        | nil => cases hrest
        | cons next' parts' =>
          rw [List.intercalate_cons_cons, List.intercalate_cons_cons] at h
          rw [List.dropLast_cons_cons] at hparts hparts'
          have hpart := hparts part List.mem_cons_self
          have hpart' := hparts' part' List.mem_cons_self
          have hsplit := congrArg (List.splitOn sep) h
          simp only [List.append_assoc, List.singleton_append] at hsplit
          rw [List.splitOn_append_cons_self_of_not_mem hpart,
            List.splitOn_append_cons_self_of_not_mem hpart'] at hsplit
          obtain ⟨rfl, htails⟩ := List.cons.inj hsplit
          have htail : [sep].intercalate (next :: parts) = [sep].intercalate (next' :: parts') := by
            have hback := congrArg [sep].intercalate htails
            rwa [List.intercalate_splitOn, List.intercalate_splitOn] at hback
          rw [ih hrest (fun l hl => hparts l (List.mem_cons_of_mem _ hl))
            (fun l hl => hparts' l (List.mem_cons_of_mem _ hl)) htail]

end

theorem strip_eq_trim : strip isSpace text = String.ofList (trim isSpace text.toList) := rfl

theorem strip_strip : strip isSpace (strip isSpace text) = strip isSpace text := by
  rw [strip_eq_trim, strip_eq_trim, String.toList_ofList, trim_trim]

theorem upTo_strip_twice_iff {n : Nat} :
    upTo (n + 1) (strip isSpace (upTo (n + 1) (strip isSpace text))) =
        upTo (n + 1) (strip isSpace text) ↔
      ∀ c ∈ (strip isSpace text).toList[n]?, isSpace c = false := by
  have hshort : (trim isSpace ((trim isSpace text.toList).take (n + 1))).length ≤ n + 1 :=
    length_trim_le.trans (List.length_take_le _ _)
  rw [strip_eq_trim, upTo, upTo, strip_eq_trim, String.toList_ofList, String.toList_ofList,
    String.toList_ofList, List.take_of_length_le hshort, String.ofList_inj, trim_take_trim_iff]

/-! ## Lower case -/

theorem toList_toLower (s : String) : s.toLower.toList = s.toList.map Char.toLower :=
  String.toList_map

theorem isLower_iff : c.isLower = true ↔ 'a'.val ≤ c.val ∧ c.val ≤ 'z'.val := by
  show (decide (c.val ≥ 'a'.val) && decide (c.val ≤ 'z'.val)) = true ↔ _
  rw [Bool.and_eq_true, decide_eq_true_eq, decide_eq_true_eq, ge_iff_le]

theorem toLower_cases (c : Char) : c.toLower = c ∨ c.toLower.isLower = true := by
  by_cases h : c.val ≥ 'A'.val ∧ c.val ≤ 'Z'.val
  · have hval : c.toLower.val = c.val + ('a'.val - 'A'.val) := congrArg Char.val (dif_pos h)
    refine .inr ?_
    rw [isLower_iff, hval]
    simp only [ge_iff_le, UInt32.le_iff_toNat_le, UInt32.toNat_add] at h ⊢
    simp at h ⊢
    omega
  · exact .inl (dif_neg h)

theorem toLower_of_isLower (h : c.isLower = true) : c.toLower = c := by
  refine dif_neg fun hupper => ?_
  simp only [isLower_iff, ge_iff_le, UInt32.le_iff_toNat_le] at h hupper
  have hz : 'Z'.val.toNat < 'a'.val.toNat := by decide
  omega

theorem toLower_toLower (c : Char) : c.toLower.toLower = c.toLower := by
  rcases toLower_cases c with h | h
  · rw [h, h]
  · exact toLower_of_isLower h

theorem toLower_singleton_iff : (String.singleton c).toLower = String.singleton c ↔ c.toLower = c := by
  rw [← String.toList_inj, toList_toLower]
  simp

theorem toLower_eq_self_iff : text.toLower = text ↔
    ∀ c ∈ text.toList, (String.singleton c).toLower = String.singleton c := by
  rw [← String.toList_inj, toList_toLower]
  constructor
  · intro h c hc
    have hall : text.toList.map Char.toLower = text.toList.map id := by rw [h, List.map_id]
    exact toLower_singleton_iff.mpr (List.map_inj_left.mp hall c hc)
  · intro h
    refine (List.map_congr_left fun c hc => ?_).trans (List.map_id _)
    exact toLower_singleton_iff.mp (h c hc)

end GuruJi.Lib
