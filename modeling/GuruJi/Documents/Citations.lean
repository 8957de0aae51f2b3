import GuruJi.Documents.Retrieval
import GuruJi.Lib.Scan

/-!
# Citation markers

What the markers of a text name, and which of them a text of quoted passages holds.

* `reads_citation`: a marker opens with a document and ends at the next `]`;
* **`named_append`**: a text with another one after it names passages only iff it leaves no marker
  open, each of its own names a passage, and so do those after it;
* **`named_quoted`**: quoted passages name passages only iff the question and each excerpt do so and
  leave no marker open.
-/

namespace GuruJi.Documents

open GuruJi.Lib GuruJi.Auth

/-! ## Markers -/

/-- `[0-9a-f]`. -/
def isHex (c : Char) : Bool := '0' ≤ c && c ≤ '9' || 'a' ≤ c && c ≤ 'f'

/-- `f"doc-{uuid4().hex}"`, and every text that the pattern takes for a document. -/
def IsDocumentId (documentId : String) : Prop :=
  ∃ digits, digits ≠ [] ∧ (∀ c ∈ digits, isHex c = true) ∧ documentId.toList = "doc-".toList ++ digits

/-- `[` and a document and `:`. -/
def Opening (text : List Char) : Prop :=
  ∃ documentId : String, IsDocumentId documentId ∧ text = '[' :: documentId.toList ++ [':']

def LeavesOpen (text : List Char) : Prop :=
  ∃ before opening after, text = before ++ (opening ++ after) ∧ Opening opening ∧ ']' ∉ after

/-- What a citation marker names. -/
structure Citation where
  document : String
  place : List Char
  deriving DecidableEq

section
variable (u : Language)

/-- `(?:page\s*)?([^\]]+)`: the second group, which is as much as the white space leaves of it. -/
def readPlace (written : List Char) : List Char :=
  match "page".toList.isPrefixOf? written with
  | none => written
  | some rest =>
    if rest.dropWhile u.isSpace ≠ [] then rest.dropWhile u.isSpace
    else if rest ≠ [] then rest.getLast?.toList
    else written

/-- The groups of a match of `_CITATION`. -/
def citationOf (marker : List Char) : Citation where
  document := String.ofList ((marker.drop 1).takeWhile (· ≠ ':'))
  place := readPlace u ((marker.dropWhile (· ≠ ':')).drop 1).dropLast

def citations (text : List Char) : List Citation := ((citation u).findall text).map (citationOf u)

def Names {K : Type} (passages : List (Ranked K)) (c : Citation) : Prop :=
  ∃ item ∈ passages, c = ⟨item.documentId, readPlace u item.locator.toList⟩

/-- A text leaves no marker open, and those that it holds name passages. -/
def Clean {K : Type} (passages : List (Ranked K)) (text : List Char) : Prop :=
  ¬LeavesOpen text ∧ ∀ c ∈ citations u text, Names u passages c

end

/-- The letters that the pattern gives a meaning are no white space. -/
def PlainMarks (u : Language) : Prop := ∀ c ∈ ['[', ']', '.'], u.isSpace c = false

/-! ## What the pattern reads -/

theorem not_hex {c : Char} (h : isHex c = true) : c ∉ ['[', ']', ':', '.', ' ', '\n'] := by
  have hall : ['[', ']', ':', '.', ' ', '\n'].all (fun d => !isHex d) = true := by decide
  intro hmem
  have hfalse := List.all_eq_true.mp hall c hmem
  rw [h] at hfalse
  cases hfalse

theorem mem_opening {opening : List Char} (h : Opening opening) {c : Char} (hc : c ∈ opening) :
    c ∉ [']', '.', ' ', '\n'] := by
  obtain ⟨documentId, ⟨digits, -, hdigits, hid⟩, rfl⟩ := h
  have hall : ("[doc-".toList ++ [':']).all (fun d => !([']', '.', ' ', '\n'].contains d)) = true := by
    decide
  by_cases hhex : isHex c = true
  · intro hmem
    refine not_hex hhex ?_
    simp only [List.mem_cons, List.not_mem_nil, or_false] at hmem ⊢
    tauto
  · have hfixed : c ∈ "[doc-".toList ++ [':'] := by
      rw [hid] at hc
      simp only [List.mem_cons, List.mem_append] at hc ⊢
      rcases hc with (hc | hc | hc) | hc
      · exact .inl (hc ▸ List.mem_cons_self)
      · exact .inl (List.mem_cons_of_mem '[' hc)
      · exact absurd (hdigits c hc) hhex
      · exact .inr hc
    have hplain := List.all_eq_true.mp hall c hfixed
    simpa using hplain

theorem not_colon_of_documentId {documentId : String} (h : IsDocumentId documentId) :
    ':' ∉ documentId.toList := by
  obtain ⟨digits, -, hdigits, hid⟩ := h
  rw [hid, List.mem_append]
  rintro (hmem | hmem)
  · exact absurd hmem (by decide)
  · exact not_hex (hdigits _ hmem) (by simp)

theorem head_opening {opening : List Char} (h : Opening opening) : opening.head? = some '[' := by
  obtain ⟨documentId, -, rfl⟩ := h
  rfl

section
variable {u : Language}

variable {c : Char} {item : Ranked K}

theorem reads_char {w : List Char} : (Regex.char (· == c)).Reads w ↔ w = [c] := by
  rw [Regex.Reads]
  constructor
  · rintro ⟨d, rfl, hd⟩
    rw [eq_of_beq hd]
  · rintro rfl
    exact ⟨c, rfl, beq_self_eq_true c⟩

/-- A marker opens with a document and goes on to its first `]`. -/
theorem reads_citation (hmarks : PlainMarks u) {w : List Char} : (citation u).Reads w ↔
    ∃ opening tail, w = opening ++ tail ++ [']'] ∧ Opening opening ∧ tail ≠ [] ∧ ']' ∉ tail := by
  constructor
  · rintro ⟨a, b, rfl, ha, d, e, rfl, ⟨d1, f1, rfl, hd1, d2, f2, rfl, hd2, d3, f3, rfl, hd3, d4, digits,
      rfl, hd4, hne, hdigits⟩, f, g, rfl, hf, page, i, rfl, hpage, j, k, rfl, ⟨hj, hall⟩, hk⟩
    rw [reads_char] at ha hd1 hd2 hd3 hd4 hf hk
    subst ha hd1 hd2 hd3 hd4 hf hk
    have hpage' : ']' ∉ page := by
      rcases hpage with rfl | ⟨p1, q1, rfl, hp1, p2, q2, rfl, hp2, p3, q3, rfl, hp3, p4, q4, rfl, hp4, hq⟩
      · exact List.not_mem_nil
      · rw [reads_char] at hp1 hp2 hp3 hp4
        subst hp1 hp2 hp3 hp4
        have hspaces : ']' ∉ q4 := by
          rcases hq with rfl | ⟨-, hspaces⟩
          · exact List.not_mem_nil
          · intro hmem
            have hfalse := hspaces _ hmem
            rw [hmarks ']' (by simp)] at hfalse
            cases hfalse
        simp [hspaces]
    refine ⟨'[' :: ("doc-".toList ++ digits) ++ [':'], page ++ j, by simp, ?_, by simp [hj], ?_⟩
    · refine ⟨String.ofList ("doc-".toList ++ digits), ⟨digits, hne, hdigits, ?_⟩, ?_⟩
      · exact String.toList_ofList
      · exact congrArg (fun l => '[' :: l ++ [':']) String.toList_ofList.symm
    · rw [List.mem_append]
      rintro (hmem | hmem)
      · exact hpage' hmem
      · simpa using hall _ hmem
  · rintro ⟨_, tail, rfl, ⟨documentId, ⟨digits, hne, hdigits, hid⟩, rfl⟩, htail, hclose⟩
    rw [hid]
    refine ⟨['['], "doc-".toList ++ (digits ++ (':' :: (tail ++ [']']))), by simp, reads_char.mpr rfl,
      "doc-".toList ++ digits, ':' :: (tail ++ [']']), by simp, ?_, [':'], tail ++ [']'], rfl,
      reads_char.mpr rfl, [], tail ++ [']'], rfl, .inl rfl, tail, [']'], rfl, ⟨htail, ?_⟩,
      reads_char.mpr rfl⟩
    · exact ⟨['d'], _, rfl, reads_char.mpr rfl, ['o'], _, rfl, reads_char.mpr rfl, ['c'], _, rfl,
        reads_char.mpr rfl, ['-'], digits, rfl, reads_char.mpr rfl, hne, hdigits⟩
    · intro c hc
      simpa using fun heq : c = ']' => hclose (heq ▸ hc)

theorem citation_plain : (citation u).Plain := by simp [citation, Regex.Plain]

theorem citation_endsAt (hmarks : PlainMarks u) : (citation u).EndsAt ']' := by
  intro w hw
  obtain ⟨opening, tail, rfl, hopening, -, htail⟩ := (reads_citation hmarks).mp hw
  refine ⟨opening ++ tail, ?_, rfl⟩
  rw [List.mem_append, not_or]
  exact ⟨fun hmem => mem_opening hopening hmem (by simp), htail⟩

/-- `_CITATION`. -/
def citationPattern (hmarks : PlainMarks u) : Pattern Char (List Char) ']' :=
  Regex.pattern citation_plain (citation_endsAt hmarks)

variable {hmarks : PlainMarks u}

theorem read_eq_some_iff {text w rest : List Char} :
    (citationPattern hmarks).read text = some (w, rest) ↔ text = w ++ rest ∧
      ∃ opening tail, w = opening ++ tail ++ [']'] ∧ Opening opening ∧ tail ≠ [] ∧ ']' ∉ tail :=
  (Regex.readAt_eq_some_iff citation_plain (citation_endsAt hmarks)).trans
    (and_congr_right fun _ => reads_citation hmarks)

variable (hmarks) in
theorem citations_eq (text : List Char) :
    citations u text = ((citationPattern hmarks).found text).map (citationOf u) :=
  congrArg _ (Regex.findall_eq_found citation_plain (citation_endsAt hmarks) text)

theorem citationOf_marker {documentId : String} (h : IsDocumentId documentId) (tail : List Char) :
    citationOf u ('[' :: documentId.toList ++ [':'] ++ tail ++ [']']) =
      ⟨documentId, readPlace u tail⟩ := by
  have hcolon := not_colon_of_documentId h
  have hbefore : ∀ c ∈ documentId.toList, decide (c ≠ ':') = true := by
    intro c hc
    simpa using fun heq : c = ':' => hcolon (heq ▸ hc)
  have htext : '[' :: documentId.toList ++ [':'] ++ tail ++ [']'] =
      '[' :: (documentId.toList ++ (':' :: (tail ++ [']']))) := by simp
  have htake : (documentId.toList ++ (':' :: (tail ++ [']']))).takeWhile (· ≠ ':') =
      documentId.toList := by
    rw [List.takeWhile_append_of_pos hbefore]
    simp
  have hdrop : (documentId.toList ++ (':' :: (tail ++ [']']))).dropWhile (· ≠ ':') =
      ':' :: (tail ++ [']']) := by
    rw [List.dropWhile_append_of_pos hbefore]
    simp
  rw [htext, citationOf, List.drop_succ_cons, List.drop_zero, htake, String.ofList_toList,
    List.dropWhile_cons_of_pos (by decide), hdrop, List.drop_succ_cons, List.drop_zero,
    List.dropLast_concat]

/-! ## Texts one after the other -/

theorem found_plain {a : List Char} (h : '[' ∉ a) (b : List Char) :
    (citationPattern hmarks).found (a ++ b) = (citationPattern hmarks).found b := by
  induction a with
  | nil => rfl
  | cons c a ih =>
    obtain ⟨hc, ha⟩ := not_or.mp (mt List.mem_cons.mpr h)
    have hread : (citationPattern hmarks).read (c :: (a ++ b)) = none := by
      rw [Option.eq_none_iff_forall_ne_some]
      rintro ⟨w, rest⟩ hread
      obtain ⟨heq, opening, tail, rfl, hopening, -, -⟩ := read_eq_some_iff.mp hread
      have hhead := congrArg List.head? heq
      simp only [List.append_assoc, List.head?_append, head_opening hopening] at hhead
      exact hc (Option.some.inj hhead).symm
    rw [List.cons_append, Pattern.found_of_none hread, ih ha]

/-- What is read of a text with another one after it: a marker of its own, one that it leaves open, or
none. -/
theorem read_append {text b w rest : List Char} (hc : c = ' ' ∨ c = '\n')
    (h : (citationPattern hmarks).read (text ++ c :: b) = some (w, rest)) (hne : text ≠ []) :
    (∃ rest', (citationPattern hmarks).read text = some (w, rest')) ∨
      ∃ opening after tail, text = opening ++ after ∧ Opening opening ∧ ']' ∉ after ++ tail ∧
        w = opening ++ (after ++ tail) ++ [']'] ∧ c :: b = tail ++ ']' :: rest := by
  obtain ⟨heq, opening, tail, rfl, hopening, htail, hclose⟩ := read_eq_some_iff.mp h
  have hblank : c ∉ opening := fun hmem => mem_opening hopening hmem (by rcases hc with rfl | rfl <;> simp)
  have hwhole : text ++ c :: b = opening ++ (tail ++ ']' :: rest) := by
    rw [heq]
    simp
  rcases List.append_eq_append_iff.mp hwhole with ⟨inside, hopen, hrest⟩ | ⟨after, rfl, hrest⟩
  · rcases inside with _ | ⟨d, inside⟩
    · rw [List.append_nil] at hopen
      refine .inr ⟨opening, [], tail, ?_, hopening, hclose, rfl, hrest⟩
      rw [hopen, List.append_nil]
    · refine absurd ?_ hblank
      rw [hopen, (List.cons.inj hrest).1]
      simp
  · by_cases hend : ']' ∈ after
    · obtain ⟨inside, rest', rfl, hinside⟩ := List.eq_append_cons_of_mem hend
      rw [List.append_assoc, List.cons_append] at hrest
      obtain ⟨rfl, -⟩ := Regex.body_unique hclose hinside hrest
      refine .inl ⟨rest', read_eq_some_iff.mpr ⟨by simp, opening, tail, rfl, hopening, htail, hclose⟩⟩
    · right
      rcases List.append_eq_append_iff.mp hrest with ⟨inside, rfl, hinside⟩ | ⟨more, rfl, hmore⟩
      · rcases inside with _ | ⟨d, inside⟩
        · have hclosed : ']' = c := (List.cons.inj hinside).1
          rcases hc with rfl | rfl <;> cases hclosed
        · obtain rfl := (List.cons.inj hinside).1
          exact absurd (List.mem_append_right tail List.mem_cons_self) hend
      · exact ⟨opening, after, more, rfl, hopening, hclose, rfl, hmore⟩

theorem found_append_closed {text : List Char} (h : ¬LeavesOpen text)
    (hc : c = ' ' ∨ c = '\n') (b : List Char) :
    (citationPattern hmarks).found (text ++ c :: b) =
      (citationPattern hmarks).found text ++ (citationPattern hmarks).found (c :: b) := by
  refine Pattern.found_append fun end_ hend hne hread => ?_
  cases happended : (citationPattern hmarks).read (end_ ++ c :: b) with
  | none => rfl
  | some e =>
    exfalso
    rcases read_append hc happended hne with ⟨rest', hown⟩ | ⟨opening, after, _, rfl, hopening, hclose, -⟩
    · rw [hread] at hown
      cases hown
    · obtain ⟨before, rfl⟩ := hend
      exact h ⟨before, opening, after, rfl, hopening, fun hmem => hclose (List.mem_append_left _ hmem)⟩

variable (hmarks) in
theorem found_open {text : List Char} (h : LeavesOpen text) {c bad : Char} (hc : c = ' ' ∨ c = '\n')
    {b : List Char} (hb : ']' ∉ c :: b) (hbad : bad ∈ c :: b) (rest : List Char) :
    ∃ opening tail, Opening opening ∧ bad ∈ tail ∧
      opening ++ tail ++ [']'] ∈ (citationPattern hmarks).found (text ++ c :: (b ++ ']' :: rest)) := by
  induction text using (citationPattern hmarks).induction with
  | nil =>
    obtain ⟨before, opening, after, heq, hopening, -⟩ := h
    obtain ⟨-, hnil⟩ := List.append_eq_nil_iff.mp heq.symm
    have hhead := head_opening hopening
    rw [(List.append_eq_nil_iff.mp hnil).1] at hhead
    cases hhead
  | skip d text hread ih =>
    cases happended : (citationPattern hmarks).read (d :: text ++ c :: (b ++ ']' :: rest)) with
    | some e =>
      -- The marker that begins here is one that the text leaves open.
      rcases read_append hc happended (List.cons_ne_nil d text) with
        ⟨rest', hown⟩ | ⟨opening, after, tail, -, hopening, hclose, hw, hmore⟩
      · rw [hread] at hown
        cases hown
      · have htail : ']' ∉ tail := fun hmem => hclose (List.mem_append_right after hmem)
        obtain ⟨rfl, -⟩ := Regex.body_unique hb htail (show c :: b ++ ']' :: rest = _ from hmore)
        refine ⟨opening, after ++ c :: b, hopening, List.mem_append_right after hbad, ?_⟩
        rw [Pattern.found_of_some happended, hw]
        exact List.mem_cons_self
    | none =>
      obtain ⟨before, opening, after, heq, hopening, hclose⟩ := h
      rcases before with _ | ⟨d', before⟩
      · have hread' : (citationPattern hmarks).read (d :: text ++ c :: (b ++ ']' :: rest)) =
            some (opening ++ (after ++ c :: b) ++ [']'], rest) := by
          refine read_eq_some_iff.mpr ⟨?_, opening, _, rfl, hopening, by simp, ?_⟩
          · rw [heq]
            simp
          · rw [List.mem_append]
            exact not_or.mpr ⟨hclose, hb⟩
        rw [happended] at hread'
        cases hread'
      · obtain ⟨rfl, rfl⟩ := List.cons.inj heq
        rw [List.cons_append] at happended ⊢
        rw [Pattern.found_of_none happended]
        exact ih ⟨before, opening, after, rfl, hopening, hclose⟩
  | mark body v rest' hbody hown ih =>
    rw [List.append_assoc, List.cons_append, Pattern.found_of_read (hown _)]
    have hlater : LeavesOpen rest' := by
      obtain ⟨before, opening, after, heq, hopening, hclose⟩ := h
      have hno : ']' ∉ opening ++ after := by
        rw [List.mem_append]
        exact not_or.mpr ⟨fun hmem => mem_opening hopening hmem (by simp), hclose⟩
      rcases List.append_eq_append_iff.mp heq with ⟨inside, rfl, hrest⟩ | ⟨inside, -, hrest⟩
      · rcases inside with _ | ⟨d, inside⟩
        · exact absurd (hrest ▸ List.mem_cons_self) hno
        · exact ⟨inside, opening, after, (List.cons.inj hrest).2, hopening, hclose⟩
      · exact absurd (hrest ▸ List.mem_append_right inside List.mem_cons_self) hno
    obtain ⟨opening, tail, hopening, htail, hfound⟩ := ih hlater
    exact ⟨opening, tail, hopening, htail, List.mem_cons_of_mem v hfound⟩

/-! ## What markers name -/

theorem mem_readPlace {written : List Char} (hc : c ∈ written) (hspace : u.isSpace c = false)
    (hpage : c ∉ "page".toList) : c ∈ readPlace u written := by
  unfold readPlace
  split
  · exact hc
  · rename_i rest hrest
    obtain rfl := List.isPrefixOf?_eq_some_iff_append_eq.mp hrest
    have hrest' : c ∈ rest := (List.mem_append.mp hc).resolve_left hpage
    have hplace : c ∈ rest.dropWhile u.isSpace := by
      rw [← List.takeWhile_append_dropWhile (p := u.isSpace) (l := rest), List.mem_append] at hrest'
      refine hrest'.resolve_left fun hmem => ?_
      rw [List.mem_takeWhile_imp hmem] at hspace
      cases hspace
    rw [if_pos (List.ne_nil_of_mem hplace)]
    exact hplace

theorem of_mem_readPlace {written : List Char} (hc : c ∈ readPlace u written) : c ∈ written := by
  unfold readPlace at hc
  split at hc
  · exact hc
  · rename_i rest hrest
    obtain rfl := List.isPrefixOf?_eq_some_iff_append_eq.mp hrest
    split_ifs at hc with hplace hne
    · exact List.mem_append_right _ ((List.dropWhile_sublist _).subset hc)
    · exact List.mem_append_right _ (List.mem_of_getLast? (Option.mem_toList.mp hc))
    · exact hc

omit u in
theorem isDigit_of_mem_toString {n : Nat} (h : c ∈ (toString n).toList) : c.isDigit = true := by
  rw [Nat.toString_eq_repr, Nat.repr, String.toList_ofList] at h
  exact Nat.isDigit_of_mem_toDigits (by omega) (by omega) h

omit u in
theorem mem_toString_int {n : Int} (h : c ∈ (toString n).toList) : c ∉ ['[', ']', '.'] := by
  have hdigit : ∀ m : Nat, c ∈ (toString m).toList → c ∉ ['[', ']', '.'] := by
    intro m hm hmem
    have hd := isDigit_of_mem_toString hm
    simp only [List.mem_cons, List.not_mem_nil, or_false] at hmem
    rcases hmem with rfl | rfl | rfl <;> cases hd
  cases n with
  | ofNat m => exact hdigit m h
  | negSucc m =>
    have htext : (toString (Int.negSucc m)).toList = '-' :: (toString (m + 1)).toList := by
      show ("-" ++ Nat.repr (m + 1)).toList = _
      rw [String.toList_append]
      rfl
    rw [htext] at h
    rcases List.mem_cons.mp h with rfl | h
    · simp
    · exact hdigit (m + 1) h

omit u in
theorem mem_locator {page : Option Int} {index : Int}
    (h : c ∈ (locator page index).toList) : c ∉ ['[', ']', '.'] := by
  have hfixed : ("section ".toList ++ "page ".toList).all
      (fun d => !(['[', ']', '.'].contains d)) = true := by decide
  have hplain : ∀ d ∈ "section ".toList ++ "page ".toList, d ∉ ['[', ']', '.'] := by
    intro d hd
    simpa using List.all_eq_true.mp hfixed d hd
  have hsection : ∀ n : Int, c ∈ ("section " ++ toString n).toList → c ∉ ['[', ']', '.'] := by
    intro n hn
    rw [String.toList_append, List.mem_append] at hn
    exact hn.elim (fun hc => hplain c (List.mem_append_left _ hc)) mem_toString_int
  unfold locator at h
  split at h
  · exact hsection _ h
  · split_ifs at h
    · exact hsection _ h
    · rw [String.toList_append, List.mem_append] at h
      exact h.elim (fun hc => hplain c (List.mem_append_right _ hc)) mem_toString_int

/-- A passage of a document that has been ingested. -/
def IsPassage {K : Type} (item : Ranked K) : Prop :=
  IsDocumentId item.documentId ∧ ∃ page index, item.locator = locator page index

variable {K : Type} {passages : List (Ranked K)}

theorem not_names (hmarks : PlainMarks u) (hpassages : ∀ item ∈ passages, IsPassage item)
    {opening tail : List Char} {bad : Char} (hopening : Opening opening) (hbad : bad ∈ tail)
    (hlist : bad = '[' ∨ bad = '.') : ¬Names u passages (citationOf u (opening ++ tail ++ [']'])) := by
  rintro ⟨item, hitem, heq⟩
  obtain ⟨documentId, hid, rfl⟩ := hopening
  rw [citationOf_marker hid] at heq
  obtain ⟨-, page, index, hlocator⟩ := hpassages item hitem
  have hplace : bad ∈ readPlace u tail := by
    refine mem_readPlace hbad (hmarks bad ?_) ?_
    · rcases hlist with rfl | rfl <;> simp
    · rcases hlist with rfl | rfl <;> decide
  rw [(Citation.mk.inj heq).2, hlocator] at hplace
  refine mem_locator (of_mem_readPlace hplace) ?_
  rcases hlist with rfl | rfl <;> simp

/-- **A text before other ones** names passages only iff it is clean and what follows names passages
only. -/
theorem named_append (hmarks : PlainMarks u) (hpassages : ∀ item ∈ passages, IsPassage item)
    {c bad : Char} (hc : c = ' ' ∨ c = '\n') {b rest : List Char} (hb : ']' ∉ c :: b)
    (hbad : bad ∈ c :: b) (hlist : bad = '[' ∨ bad = '.') (text : List Char) :
    (∀ m ∈ citations u (text ++ c :: (b ++ ']' :: rest)), Names u passages m) ↔
      Clean u passages text ∧ ∀ m ∈ citations u (c :: (b ++ ']' :: rest)), Names u passages m := by
  by_cases hopen : LeavesOpen text
  · refine iff_of_false (fun hall => ?_) fun h => h.1.1 hopen
    obtain ⟨opening, tail, hopening, htail, hfound⟩ :=
      found_open hmarks hopen hc hb hbad rest
    refine not_names hmarks hpassages hopening htail hlist (hall _ ?_)
    rw [citations_eq hmarks]
    exact List.mem_map_of_mem hfound
  · rw [Clean, citations_eq hmarks, citations_eq hmarks, citations_eq hmarks,
      found_append_closed hopen hc, List.map_append, List.forall_mem_append]
    exact ⟨fun h => ⟨⟨hopen, h.1⟩, h.2⟩, fun h => ⟨h.1.2, h.2⟩⟩

/-! ## Quoted passages -/

/-- `deterministic`. -/
def quotedPassages (question : String) (passages : List (Ranked K)) : String :=
  String.intercalate "\n"
    (("The following passages from institutional documents are relevant to: " ++ question) ::
      passages.mapIdx fragment)

/-- The marker of a passage up to its `]`. -/
def markerBody (item : Ranked K) : List Char :=
  '[' :: item.documentId.toList ++ [':'] ++ item.locator.toList

omit u in
theorem toList_fragment (i : Nat) (item : Ranked K) : (fragment i item).toList =
    ((toString (i + 1)).toList ++ ". ".toList) ++
      (item.text.toList.take 700 ++ ' ' :: (markerBody item ++ [']'])) := by
  have hspace : " [".toList = [' ', '['] := rfl
  have hcolon : ":".toList = [':'] := rfl
  have hclose : "]".toList = [']'] := rfl
  simp only [fragment, String.toList_append, upTo, String.toList_ofList, markerBody, hspace, hcolon,
    hclose]
  simp

omit u in
theorem locator_ne_nil (page : Option Int) (index : Int) : (locator page index).toList ≠ [] := by
  unfold locator
  split
  · rw [String.toList_append]
    exact List.append_ne_nil_of_left_ne_nil (by decide) _
  · split_ifs
    · rw [String.toList_append]
      exact List.append_ne_nil_of_left_ne_nil (by decide) _
    · rw [String.toList_append]
      exact List.append_ne_nil_of_left_ne_nil (by decide) _

omit u in
theorem opening_of_passage (h : IsPassage item) :
    Opening ('[' :: item.documentId.toList ++ [':']) := ⟨item.documentId, h.1, rfl⟩

omit u in
theorem not_mem_markerBody (h : IsPassage item) : ']' ∉ markerBody item := by
  obtain ⟨page, index, hlocator⟩ := h.2
  rw [markerBody, List.mem_append]
  rintro (hmem | hmem)
  · exact mem_opening (opening_of_passage h) hmem (by simp)
  · rw [hlocator] at hmem
    exact mem_locator hmem (by simp)

theorem citations_marker (hmarks : PlainMarks u) (h : IsPassage item)
    (rest : List Char) : citations u (markerBody item ++ ']' :: rest) =
      ⟨item.documentId, readPlace u item.locator.toList⟩ :: citations u rest := by
  obtain ⟨page, index, hlocator⟩ := h.2
  have hread : (citationPattern hmarks).read (markerBody item ++ ']' :: rest) =
      some (markerBody item ++ [']'], rest) := by
    refine read_eq_some_iff.mpr ⟨by simp, _, item.locator.toList, rfl, opening_of_passage h, ?_, ?_⟩
    · rw [hlocator]
      exact locator_ne_nil page index
    · rw [hlocator]
      exact fun hmem => mem_locator hmem (by simp)
  rw [citations_eq hmarks, citations_eq hmarks, Pattern.found_of_some hread, List.map_cons, markerBody,
    citationOf_marker h.1]

theorem citations_plain (hmarks : PlainMarks u) {a : List Char} (h : '[' ∉ a) (b : List Char) :
    citations u (a ++ b) = citations u b := by
  rw [citations_eq hmarks, citations_eq hmarks, found_plain h]

omit u in
theorem not_mem_number (n : Nat) : '[' ∉ (toString n).toList ++ ". ".toList := by
  rw [List.mem_append]
  rintro (hmem | hmem)
  · cases isDigit_of_mem_toString hmem
  · exact absurd hmem (by decide)

omit u in
theorem close_not_mem_number (n : Nat) : ']' ∉ (toString n).toList ++ ". ".toList := by
  rw [List.mem_append]
  rintro (hmem | hmem)
  · cases isDigit_of_mem_toString hmem
  · exact absurd hmem (by decide)

/-- The texts of fragments, each after a line break. -/
def fragmentLines (n : Nat) (items : List (Ranked K)) : List Char :=
  (items.mapIdx fun i => fragment (n + i)).flatMap fun s => '\n' :: s.toList

omit u in
theorem fragmentLines_cons (n : Nat) (item : Ranked K) (items : List (Ranked K)) :
    fragmentLines n (item :: items) = ('\n' :: ((toString (n + 1)).toList ++ ". ".toList)) ++
      (item.text.toList.take 700 ++ ' ' :: (markerBody item ++ ']' :: fragmentLines (n + 1) items)) := by
  have hnext : (fun i => fragment (K := K) (n + (i + 1))) = fun i => fragment (n + 1 + i) := by
    funext i
    rw [Nat.add_right_comm, Nat.add_assoc]
  rw [fragmentLines, List.mapIdx_cons, List.flatMap_cons, hnext, Nat.add_zero, toList_fragment]
  simp [fragmentLines]

theorem named_fragments (hmarks : PlainMarks u) (hpassages : ∀ item ∈ passages, IsPassage item)
    (n : Nat) {items : List (Ranked K)} (hitems : ∀ item ∈ items, item ∈ passages) :
    (∀ m ∈ citations u (fragmentLines n items), Names u passages m) ↔
      ∀ item ∈ items, Clean u passages (item.text.toList.take 700) := by
  induction items generalizing n with
  | nil =>
    have hnil : citations u (fragmentLines n ([] : List (Ranked K))) = [] := by
      rw [citations_eq hmarks]
      rfl
    rw [hnil]
    simp
  | cons item items ih =>
    obtain ⟨hitem, hrest⟩ := List.forall_mem_cons.mp hitems
    have hpassage := hpassages item hitem
    have hplain : '[' ∉ '\n' :: ((toString (n + 1)).toList ++ ". ".toList) := by
      rw [List.mem_cons, not_or]
      exact ⟨by decide, not_mem_number (n + 1)⟩
    have hbody : ']' ∉ ' ' :: markerBody item := by
      rw [List.mem_cons, not_or]
      exact ⟨by decide, not_mem_markerBody hpassage⟩
    have hblank : '[' ∉ [' '] := by decide
    rw [fragmentLines_cons, citations_plain hmarks hplain,
      named_append hmarks hpassages (.inl rfl) hbody (by simp [markerBody]) (.inl rfl),
      ← List.singleton_append, citations_plain hmarks hblank, citations_marker hmarks hpassage,
      List.forall_mem_cons, ih (n + 1) hrest, List.forall_mem_cons]
    exact and_congr_right fun _ => and_iff_right ⟨item, hitem, rfl⟩

omit u in
theorem toList_quotedPassages (question : String) : (quotedPassages question passages).toList =
    "The following passages from institutional documents are relevant to: ".toList ++
      (question.toList ++ fragmentLines 0 passages) := by
  have hjoin : ∀ (a : List Char) (l : List (List Char)),
      ['\n'].intercalate (a :: l) = a ++ l.flatMap fun b => '\n' :: b := by
    intro a l
    induction l generalizing a with
    | nil => simp
    | cons b l ih => rw [List.intercalate_cons_cons, ih, List.flatMap_cons]; simp
  rw [quotedPassages, String.toList_intercalate, List.map_cons]
  show ['\n'].intercalate _ = _
  rw [hjoin, String.toList_append, List.append_assoc, List.flatMap_map, fragmentLines]
  simp

/-- **The quoted passages** name passages only iff the question and each excerpt are clean. -/
theorem named_quoted (hmarks : PlainMarks u) (hpassages : ∀ item ∈ passages, IsPassage item)
    (hne : passages ≠ []) (question : String) :
    (∀ m ∈ citations u (quotedPassages question passages).toList, Names u passages m) ↔
      Clean u passages question.toList ∧
        ∀ item ∈ passages, Clean u passages (item.text.toList.take 700) := by
  have hplain : '[' ∉ "The following passages from institutional documents are relevant to: ".toList := by
    decide
  rw [toList_quotedPassages, citations_plain hmarks hplain,
    ← named_fragments hmarks hpassages 0 fun item hitem => hitem]
  obtain ⟨item, items, rfl⟩ := List.exists_cons_of_ne_nil hne
  obtain ⟨inside, rest, hsplit, hinside⟩ := List.eq_append_cons_of_mem
    (show ']' ∈ item.text.toList.take 700 ++ ' ' :: (markerBody item ++ ']' :: fragmentLines 1 items) by
      simp)
  have hlines : fragmentLines 0 (item :: items) =
      '\n' :: (((toString 1).toList ++ ". ".toList ++ inside) ++ ']' :: rest) := by
    rw [fragmentLines_cons, hsplit]
    simp
  rw [hlines]
  refine named_append hmarks hpassages (.inr rfl) ?_ (show '.' ∈ _ from ?_) (.inr rfl) question.toList
  · rw [List.mem_cons, List.mem_append]
    rintro (hmem | hmem | hmem)
    · cases hmem
    · exact close_not_mem_number 1 hmem
    · exact hinside hmem
  · simp

end

end GuruJi.Documents
