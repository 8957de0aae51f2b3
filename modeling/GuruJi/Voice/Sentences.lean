import GuruJi.Lib.Words

/-!
# Sentences of a reply

`split_sentences` and the loop of `SentenceStreamer._complete`: the matches of `_SENTENCE_END`, one
after the other, with what an abbreviation does not end. The two loops differ in one place: the
streamer stops at marks with nothing behind them, since the next piece may continue them.

Over them, `Reader` reads a text one character at a time; reading on from where it stopped is a fold,
so nothing depends on how the text arrived. `scan_reads` is the loop's refinement of it and
`splitSentences_eq` that of `split_sentences`.
-/

namespace GuruJi.Voice

open GuruJi.Lib

/-- Python's `str.isspace`, which is also the `\s` of its regular expressions. -/
def isSpace (c : Char) : Bool :=
  let n := c.toNat
  (9 ≤ n && n ≤ 13) || (28 ≤ n && n ≤ 32) || n == 0x85 || n == 0xA0 || n == 0x1680 ||
    (0x2000 ≤ n && n ≤ 0x200A) || n == 0x2028 || n == 0x2029 || n == 0x202F || n == 0x205F || n == 0x3000

/-- `[.!?।॥]`. -/
def isMark (c : Char) : Bool := c ∈ ['.', '!', '?', '।', '॥']

theorem isSpace_of_isMark {c : Char} (h : isMark c = true) : isSpace c = false := by
  simp only [isMark, List.mem_cons, List.not_mem_nil, or_false, decide_eq_true_eq] at h
  rcases h with rfl | rfl | rfl | rfl | rfl <;> decide

/-- What Python knows of letters. -/
structure Letters where
  lower : List Char → List Char
  isAlpha : Char → Bool

def abbreviations : List String := [
  "dr", "mr", "mrs", "ms", "prof", "st", "no", "vs", "sr", "jr", "smt", "shri", "sri", "dept", "govt",
  "approx", "e.g", "i.e", "etc", "b.tech", "m.tech", "b.e", "m.e", "b.sc", "m.sc", "b.com", "m.com",
  "ph.d", "u.s"]

namespace Letters
variable (letters : Letters)

/-- `before.rsplit(None, 1)[-1].lower().rstrip(".")`. -/
def lastWord (before : List Char) : List Char :=
  match (words isSpace before).getLast? with
  | some word => (letters.lower word).rdropWhile (· = '.')
  | none => []

/-- A single full stop that ends no sentence: after an abbreviation or an initial. -/
def unfinished (before marks : List Char) : Bool :=
  marks = ['.'] &&
    (String.ofList (letters.lastWord before) ∈ abbreviations ||
      match letters.lastWord before with
      | [c] => letters.isAlpha c
      | _ => false)

theorem unfinished_space {space before marks : List Char} (h : ∀ c ∈ space, isSpace c = true) :
    letters.unfinished (space ++ before) marks = letters.unfinished before marks := by
  rw [unfinished, unfinished, lastWord, lastWord, words_space_append h]

end Letters

/-- A match of `_SENTENCE_END`: what stands before it, its two groups and what stands behind it. -/
structure Match where
  before : List Char
  marks : List Char
  space : List Char
  rest : List Char

/-- `([.!?।॥]+)(\s+|$)` at the start of a text. -/
def matchHere (text : List Char) : Option Match :=
  let marks := text.takeWhile isMark
  let behind := text.dropWhile isMark
  let space := behind.takeWhile isSpace
  if marks ≠ [] ∧ (space ≠ [] ∨ behind = []) then some ⟨[], marks, space, behind.dropWhile isSpace⟩
  else none

def search : List Char → Option Match
  | [] => none
  | c :: text =>
    match matchHere (c :: text) with
    | some m => some m
    | none => (search text).map fun m => { m with before := c :: m.before }

theorem matchHere_spec {text : List Char} {m : Match} (h : matchHere text = some m) :
    m.before = [] ∧ text = m.marks ++ m.space ++ m.rest ∧ m.marks ≠ [] ∧
      (∀ c ∈ m.marks, isMark c = true) ∧ (∀ c ∈ m.space, isSpace c = true) ∧
      (m.space = [] → m.rest = []) := by
  simp only [matchHere] at h
  split_ifs at h with hmatch
  obtain rfl := Option.some.inj h
  refine ⟨rfl, ?_, hmatch.1, fun c hc => List.mem_takeWhile_imp hc, fun c hc =>
    List.mem_takeWhile_imp hc, ?_⟩
  · rw [List.append_assoc, List.takeWhile_append_dropWhile, List.takeWhile_append_dropWhile]
  · intro hspace
    rcases hmatch.2 with hne | hend
    · exact absurd hspace hne
    · show List.dropWhile isSpace (List.dropWhile isMark text) = []
      rw [hend]
      rfl

theorem search_spec {text : List Char} {m : Match} (h : search text = some m) :
    text = m.before ++ m.marks ++ m.space ++ m.rest ∧ m.marks ≠ [] ∧
      (∀ c ∈ m.marks, isMark c = true) ∧ (∀ c ∈ m.space, isSpace c = true) ∧
      (m.space = [] → m.rest = []) := by
  induction text generalizing m with
  | nil => cases h
  | cons c text ih =>
    unfold search at h
    split at h
    · rename_i m' hhere
      obtain rfl := Option.some.inj h
      obtain ⟨hbefore, htext, hrest⟩ := matchHere_spec hhere
      refine ⟨?_, hrest⟩
      rw [hbefore, List.nil_append]
      exact htext
    · obtain ⟨m', hm', rfl⟩ := Option.map_eq_some_iff.mp h
      obtain ⟨htext, hrest⟩ := ih hm'
      refine ⟨?_, hrest⟩
      rw [htext]
      rfl

/-- The loop over the matches of a text, and what is left behind the last sentence. `held` was read
since that sentence: it ends in an abbreviation. The sentence itself holds its marks, so it is never
empty. -/
def scan (letters : Letters) (whole : Bool) (held text : List Char) :
    List (List Char) × List Char :=
  match _h : search text with
  | none => ([], held ++ text)
  | some m =>
    if m.space = [] ∧ !whole then ([], held ++ text)
    else if letters.unfinished (held ++ m.before) m.marks then
      scan letters whole (held ++ m.before ++ m.marks ++ m.space) m.rest
    else
      let next := scan letters whole [] m.rest
      (trim isSpace (held ++ m.before ++ m.marks) :: next.1, next.2)
termination_by text.length
decreasing_by
  all_goals
    obtain ⟨htext, hmarks, -⟩ := search_spec _h
    have hlength := congrArg List.length htext
    have hpos := List.length_pos_of_ne_nil hmarks
    simp only [List.length_append] at hlength
    omega

theorem scan_none {letters : Letters} {whole : Bool} {held text : List Char}
    (h : search text = none) : scan letters whole held text = ([], held ++ text) := by
  rw [scan]
  split
  · rfl
  · rename_i hm
    rw [h] at hm
    cases hm

theorem scan_some {letters : Letters} {whole : Bool} {held text : List Char} {m : Match}
    (h : search text = some m) : scan letters whole held text =
      if m.space = [] ∧ !whole then ([], held ++ text)
      else if letters.unfinished (held ++ m.before) m.marks then
        scan letters whole (held ++ m.before ++ m.marks ++ m.space) m.rest
      else (trim isSpace (held ++ m.before ++ m.marks) :: (scan letters whole [] m.rest).1,
        (scan letters whole [] m.rest).2) := by
  rw [scan]
  split
  · rename_i hm
    rw [h] at hm
    cases hm
  · rename_i m' hm
    obtain rfl : m = m' := Option.some.inj (h.symm.trans hm)
    rfl

def nonblank (text : List Char) : List (List Char) := if trim isSpace text = [] then [] else
    [trim isSpace text]

/-- `split_sentences`. -/
def splitSentences (letters : Letters) (text : List Char) : List (List Char) :=
  (scan letters true [] text).1 ++ nonblank (scan letters true [] text).2

/-! ## Reading a character at a time -/

/-- The sentences that have ended, and what was read since. -/
structure Reader where
  said : List (List Char)
  held : List Char

namespace Reader

/-- A sentence ends with the first space behind its marks. -/
def read (letters : Letters) (r : Reader) (c : Char) : Reader :=
  if isSpace c = true ∧ r.held.rtakeWhile isMark ≠ [] ∧
      letters.unfinished (r.held.rdropWhile isMark) (r.held.rtakeWhile isMark) = false then
    ⟨r.said ++ [trim isSpace r.held], []⟩
  else ⟨r.said, r.held ++ [c]⟩

def reads (letters : Letters) (r : Reader) (text : List Char) : Reader := text.foldl (read letters) r

variable {letters : Letters} {r r' : Reader} {held held' text : List Char} {c : Char}

@[simp] theorem reads_nil : r.reads letters [] = r := rfl

@[simp] theorem reads_cons : r.reads letters (c :: text) = (r.read letters c).reads letters text :=
  List.foldl_cons ..

theorem reads_append {more : List Char} :
    r.reads letters (text ++ more) = (r.reads letters text).reads letters more :=
  List.foldl_append

theorem reads_said {earlier said : List (List Char)} :
    (⟨earlier ++ said, held⟩ : Reader).reads letters text =
      ⟨earlier ++ ((⟨said, held⟩ : Reader).reads letters text).said,
        ((⟨said, held⟩ : Reader).reads letters text).held⟩ := by
  induction text generalizing said held with
  | nil => rfl
  | cons c text ih =>
    simp only [reads_cons, read]
    split_ifs
    · rw [List.append_assoc]
      exact ih
    · exact ih

def Clear (held : List Char) : Prop := held.rtakeWhile isMark = []

theorem clear_nil : Clear [] := rfl

theorem clear_concat (hc : isMark c = false) : Clear (held ++ [c]) := by
  rw [Clear, List.rtakeWhile_concat, if_neg]
  simp [hc]

variable {space : List Char} {said : List (List Char)} {m : Match}

theorem clear_append (hspace : ∀ c ∈ space, isSpace c = true) (hne : space ≠ []) :
    Clear (held ++ space) := by
  obtain ⟨init, c, rfl⟩ : ∃ init c, space = init ++ [c] :=
    ⟨space.dropLast, space.getLast hne, (List.dropLast_append_getLast hne).symm⟩
  rw [← List.append_assoc]
  refine clear_concat ?_
  rw [Bool.eq_false_iff]
  intro hmark
  have hno := isSpace_of_isMark hmark
  rw [hspace c (by simp)] at hno
  cases hno

/-- Nothing ends at a character that is no space, or behind a text that does not end in a mark. -/
theorem read_quiet (h : isSpace c = false ∨ Clear held) :
    (⟨said, held⟩ : Reader).read letters c = ⟨said, held ++ [c]⟩ := by
  rw [read, if_neg]
  rintro ⟨hspace, hmarks, -⟩
  rcases h with h | h
  · rw [h] at hspace
    cases hspace
  · exact hmarks h

theorem reads_quiet (h : ∀ c ∈ text, isSpace c = false) :
    (⟨said, held⟩ : Reader).reads letters text = ⟨said, held ++ text⟩ := by
  induction text generalizing held with
  | nil => rw [reads_nil, List.append_nil]
  | cons c text ih =>
    rw [reads_cons, read_quiet (.inl (h c List.mem_cons_self)),
      ih fun d hd => h d (List.mem_cons_of_mem c hd), List.append_assoc]
    rfl

theorem reads_space (hclear : Clear held) (h : ∀ c ∈ text, isSpace c = true) :
    (⟨said, held⟩ : Reader).reads letters text = ⟨said, held ++ text⟩ := by
  induction text generalizing held with
  | nil => rw [reads_nil, List.append_nil]
  | cons c text ih =>
    have hnext : Clear (held ++ [c]) :=
      clear_append (by simpa using h c List.mem_cons_self) (List.cons_ne_nil c [])
    rw [reads_cons, read_quiet (.inr hclear), ih hnext fun d hd => h d (List.mem_cons_of_mem c hd),
      List.append_assoc]
    rfl

/-! ### Space at the start -/

/-- Two readers that differ in the space at the start of what they hold. -/
structure Like (r r' : Reader) : Prop where
  said : r.said = r'.said
  held : r.held.dropWhile isSpace = r'.held.dropWhile isSpace

theorem Like.refl : Like r r := ⟨rfl, rfl⟩

theorem Like.symm (h : Like r r') : Like r' r := ⟨h.said.symm, h.held.symm⟩

theorem Like.trans {r'' : Reader} (h : Like r r') (h' : Like r' r'') : Like r r'' :=
  ⟨h.said.trans h'.said, h.held.trans h'.held⟩

theorem like_space (h : ∀ c ∈ space, isSpace c = true) : Like ⟨said, space ++ held⟩ ⟨said, held⟩ := by
  refine ⟨rfl, ?_⟩
  exact List.dropWhile_append_of_pos h

theorem like_nil (h : ∀ c ∈ space, isSpace c = true) : Like ⟨said, space⟩ ⟨said, []⟩ := by
  rw [← List.append_nil space]
  exact like_space h

/-- What a reader does with its next character does not depend on the space at the start. -/
theorem read_space (h : ∀ c ∈ space, isSpace c = true) :
    Like ((⟨said, space ++ held⟩ : Reader).read letters c) ((⟨said, held⟩ : Reader).read letters c) := by
  have hmark : ∀ x ∈ space, isMark x = false := by
    intro x hx
    rw [Bool.eq_false_iff]
    intro hmark
    have hno := isSpace_of_isMark hmark
    rw [h x hx] at hno
    cases hno
  obtain ⟨htake, hdrop⟩ := rtakeWhile_append_of_neg (l := held) hmark
  rw [read, read]
  simp only [htake, hdrop, letters.unfinished_space h, trim_append h]
  split_ifs
  · exact Like.refl
  · rw [List.append_assoc]
    exact like_space h

theorem Like.read (h : Like r r') : Like (r.read letters c) (r'.read letters c) := by
  have hself : ∀ r : Reader, Like (r.read letters c)
      ((⟨r.said, r.held.dropWhile isSpace⟩ : Reader).read letters c) := by
    rintro ⟨said, held⟩
    have h : Like
        ((⟨said, held.takeWhile isSpace ++ held.dropWhile isSpace⟩ : Reader).read letters c)
        ((⟨said, held.dropWhile isSpace⟩ : Reader).read letters c) :=
      read_space fun x hx => List.mem_takeWhile_imp hx
    rwa [List.takeWhile_append_dropWhile] at h
  have hmid := (hself r').symm
  rw [← h.said, ← h.held] at hmid
  exact (hself r).trans hmid

theorem Like.reads (letters : Letters) (text : List Char) (h : Like r r') :
    Like (r.reads letters text) (r'.reads letters text) := by
  induction text generalizing r r' with
  | nil => exact h
  | cons c text ih => exact ih h.read

/-! ### The loop reads -/

/-- No match starts among the marks that a text ends in. -/
def Blocked (held text : List Char) : Prop :=
  Clear held ∨ (∀ c ∈ text.head?, isSpace c = false) ∧ matchHere text = none

theorem blocked_cons (hnone : matchHere (c :: text) = none) : Blocked (held ++ [c]) text := by
  by_cases hmark : isMark c = true
  · have hmarks : (c :: text).takeWhile isMark ≠ [] := by
      rw [List.takeWhile_cons_of_pos hmark]
      exact List.cons_ne_nil c _
    have hbehind : ¬(((c :: text).dropWhile isMark).takeWhile isSpace ≠ [] ∨
        (c :: text).dropWhile isMark = []) := by
      intro h
      rw [matchHere, if_pos ⟨hmarks, h⟩] at hnone
      cases hnone
    rw [List.dropWhile_cons_of_pos hmark] at hbehind
    right
    constructor
    · intro d hd
      obtain ⟨rest, rfl⟩ : ∃ rest, text = d :: rest := by
        cases text with
        | nil => cases hd
        | cons d' rest => exact ⟨rest, by rw [Option.some.inj hd]⟩
      rw [Bool.eq_false_iff]
      intro hspace
      have hnomark : ¬isMark d = true := fun h => by
        rw [isSpace_of_isMark h] at hspace
        cases hspace
      refine hbehind (.inl ?_)
      rw [List.dropWhile_cons_of_neg hnomark, List.takeWhile_cons_of_pos hspace]
      exact List.cons_ne_nil d _
    · rw [matchHere, if_neg fun h => hbehind h.2]
  · exact .inl (clear_concat (by simpa using hmark))

theorem read_blocked (h : Blocked held (c :: text)) :
    (⟨said, held⟩ : Reader).read letters c = ⟨said, held ++ [c]⟩ := by
  rcases h with hclear | ⟨hhead, -⟩
  · exact read_quiet (.inr hclear)
  · exact read_quiet (.inl (hhead c rfl))

theorem reads_none (h : search text = none) (hblocked : Blocked held text) :
    (⟨said, held⟩ : Reader).reads letters text = ⟨said, held ++ text⟩ := by
  induction text generalizing held with
  | nil => rw [reads_nil, List.append_nil]
  | cons c text ih =>
    unfold search at h
    split at h
    · cases h
    · rename_i hhere
      rw [reads_cons, read_blocked hblocked, ih (Option.map_eq_none_iff.mp h) (blocked_cons hhere),
        List.append_assoc]
      rfl

theorem reads_before (letters : Letters) (said : List (List Char)) (h : search text = some m)
    (hblocked : Blocked held text) :
    (⟨said, held⟩ : Reader).reads letters (m.before ++ m.marks) = ⟨said, held ++ m.before ++ m.marks⟩ ∧
      Clear (held ++ m.before) := by
  induction text generalizing held m with
  | nil => cases h
  | cons c text ih =>
    unfold search at h
    split at h
    · rename_i m' hhere
      obtain rfl := Option.some.inj h
      obtain ⟨hbefore, -, -, hmarks, -⟩ := matchHere_spec hhere
      rw [hbefore, List.nil_append, List.append_nil]
      refine ⟨reads_quiet fun d hd => isSpace_of_isMark (hmarks d hd), ?_⟩
      rcases hblocked with hclear | ⟨-, hnone⟩
      · exact hclear
      · rw [hhere] at hnone
        cases hnone
    · rename_i hhere
      obtain ⟨m', hm', rfl⟩ := Option.map_eq_some_iff.mp h
      have hnext : Blocked (held ++ [c]) text := blocked_cons hhere
      obtain ⟨hreads, hclear⟩ := ih hm' hnext
      rw [List.append_assoc held, List.singleton_append] at hreads hclear
      refine ⟨?_, hclear⟩
      rw [List.cons_append, reads_cons, read_blocked hblocked, hreads]

theorem reads_match (letters : Letters) (h : search text = some m) (hclear : Clear held)
    (hspace : m.space ≠ []) :
    Like ((⟨[], held⟩ : Reader).reads letters (m.before ++ m.marks ++ m.space))
      (if letters.unfinished (held ++ m.before) m.marks then
        ⟨[], held ++ m.before ++ m.marks ++ m.space⟩
      else ⟨[trim isSpace (held ++ m.before ++ m.marks)], []⟩) := by
  obtain ⟨hreads, hbefore⟩ := reads_before letters [] h (.inl hclear)
  obtain ⟨-, hne, hmarks, hall, -⟩ := search_spec h
  obtain ⟨c, space, hcons⟩ := List.exists_cons_of_ne_nil hspace
  have hc : isSpace c = true := hall c (by rw [hcons]; exact List.mem_cons_self)
  have hrest : ∀ d ∈ space, isSpace d = true :=
    fun d hd => hall d (by rw [hcons]; exact List.mem_cons_of_mem c hd)
  have htake : (held ++ m.before ++ m.marks).rtakeWhile isMark = m.marks ∧
      (held ++ m.before ++ m.marks).rdropWhile isMark = held ++ m.before :=
    rtakeWhile_append_of_pos hbefore hmarks
  have hnext : Clear (held ++ m.before ++ m.marks ++ [c]) :=
    clear_append (by simpa using hc) (List.cons_ne_nil c [])
  rw [reads_append, hreads, hcons, reads_cons, read]
  simp only [htake, hc, hne, ne_eq, not_false_eq_true, true_and]
  by_cases hunfinished : letters.unfinished (held ++ m.before) m.marks = true
  · rw [if_pos hunfinished, if_neg (by simp [hunfinished]),
      reads_space hnext hrest, List.append_assoc]
    exact Like.refl
  · rw [if_neg hunfinished, if_pos (by simpa using hunfinished),
      reads_space clear_nil hrest]
    exact like_nil hrest

theorem reads_end (letters : Letters) (said : List (List Char))
    (h : search text = some m) (hclear : Clear held) (hspace : m.space = []) :
    m.rest = [] ∧ text = m.before ++ m.marks ∧
      (⟨said, held⟩ : Reader).reads letters text = ⟨said, held ++ text⟩ := by
  obtain ⟨htext, -, -, -, hrest⟩ := search_spec h
  rw [hspace, hrest hspace, List.append_nil, List.append_nil] at htext
  refine ⟨hrest hspace, htext, ?_⟩
  have hreads := (reads_before letters said h (.inl hclear)).1
  rwa [← htext, List.append_assoc, ← htext] at hreads

theorem reads_through (letters : Letters) (h : search text = some m)
    (hclear : Clear held) (hspace : m.space ≠ []) :
    Like ((⟨[], held⟩ : Reader).reads letters text)
      (if letters.unfinished (held ++ m.before) m.marks then
        (⟨[], held ++ m.before ++ m.marks ++ m.space⟩ : Reader).reads letters m.rest
      else (⟨[trim isSpace (held ++ m.before ++ m.marks)], []⟩ : Reader).reads letters m.rest) := by
  have hlike := (reads_match letters h hclear hspace).reads letters m.rest
  rw [← reads_append, ← (search_spec h).1] at hlike
  rwa [apply_ite (fun r : Reader => r.reads letters m.rest)] at hlike

/-- **`_complete`'s loop** finds the sentences that have ended and leaves what is held. -/
theorem scan_reads (hclear : Clear held) : Like ((⟨[], held⟩ : Reader).reads letters text)
      ⟨(scan letters false held text).1, (scan letters false held text).2⟩ := by
  generalize hwhole : false = whole
  induction held, text using scan.induct letters whole with
  | case1 held text hnone =>
    rw [scan_none hnone, reads_none hnone (.inl hclear)]
    exact Like.refl
  | case2 held text m hm hbreak =>
    rw [scan_some hm, if_pos hbreak, (reads_end letters [] hm hclear hbreak.1).2.2]
    exact Like.refl
  | case3 held text m hm hgo hunfinished ih =>
    have hspace : m.space ≠ [] := fun h => hgo ⟨h, by rw [← hwhole]; rfl⟩
    have hthrough := reads_through letters hm hclear hspace
    rw [if_pos hunfinished] at hthrough
    rw [scan_some hm, if_neg hgo, if_pos hunfinished]
    exact hthrough.trans (ih (clear_append (search_spec hm).2.2.2.1 hspace))
  | case4 held text m hm hgo hunfinished ih =>
    have hspace : m.space ≠ [] := fun h => hgo ⟨h, by rw [← hwhole]; rfl⟩
    have hthrough := reads_through letters hm hclear hspace
    rw [if_neg hunfinished, ← List.append_nil [_], reads_said] at hthrough
    rw [scan_some hm, if_neg hgo, if_neg hunfinished]
    obtain ⟨hsaid, hheld⟩ := ih clear_nil
    refine hthrough.trans ⟨?_, hheld⟩
    show _ ++ _ = _
    rw [hsaid]
    rfl

theorem nonblank_congr (h : held.dropWhile isSpace = held'.dropWhile isSpace) :
    nonblank held = nonblank held' := by
  rw [nonblank, nonblank, trim, h, trim]

/-- **`split_sentences`** is what a reader says of the whole text, and what it holds at the end. -/
theorem scan_whole (hclear : Clear held) :
    (scan letters true held text).1 ++ nonblank (scan letters true held text).2 =
      ((⟨[], held⟩ : Reader).reads letters text).said ++
        nonblank ((⟨[], held⟩ : Reader).reads letters text).held := by
  generalize hwhole : true = whole
  induction held, text using scan.induct letters whole with
  | case1 held text hnone =>
    rw [scan_none hnone, reads_none hnone (.inl hclear)]
  | case2 held text m hm hbreak =>
    rw [scan_some hm, if_pos hbreak, (reads_end letters [] hm hclear hbreak.1).2.2]
  | case3 held text m hm hgo hunfinished ih =>
    rw [scan_some hm, if_neg hgo, if_pos hunfinished]
    by_cases hspace : m.space = []
    · obtain ⟨hrest, htext, hreads⟩ := reads_end letters [] hm hclear hspace
      rw [hrest, hspace, scan_none rfl, hreads, htext]
      simp
    · have hthrough := reads_through letters hm hclear hspace
      rw [if_pos hunfinished] at hthrough
      rw [ih (clear_append (search_spec hm).2.2.2.1 hspace), hthrough.said,
        nonblank_congr hthrough.held]
  | case4 held text m hm hgo hunfinished ih =>
    rw [scan_some hm, if_neg hgo, if_neg hunfinished]
    by_cases hspace : m.space = []
    · obtain ⟨hrest, htext, hreads⟩ := reads_end letters [] hm hclear hspace
      have hne : trim isSpace (held ++ text) ≠ [] := by
        obtain ⟨-, hmarks, hmark, -⟩ := search_spec hm
        obtain ⟨c, marks, hcons⟩ := List.exists_cons_of_ne_nil hmarks
        have hc : c ∈ m.marks := by
          rw [hcons]
          exact List.mem_cons_self
        refine List.ne_nil_of_mem (mem_trim (x := c) ?_ (isSpace_of_isMark (hmark c hc)))
        rw [htext]
        exact List.mem_append_right held (List.mem_append_right m.before hc)
      rw [hrest, scan_none rfl, hreads, nonblank, nonblank, if_neg hne, List.append_assoc, ← htext]
      rfl
    · have hthrough := reads_through letters hm hclear hspace
      rw [if_neg hunfinished, ← List.append_nil [_], reads_said] at hthrough
      rw [hthrough.said, nonblank_congr hthrough.held]
      exact congrArg (List.cons _) (ih clear_nil)

theorem splitSentences_eq : splitSentences letters text =
    ((⟨[], []⟩ : Reader).reads letters text).said ++
      nonblank ((⟨[], []⟩ : Reader).reads letters text).held :=
  scan_whole clear_nil

/-! ### Reading on -/

theorem reads_held : (⟨[], []⟩ : Reader).reads letters ((⟨[], []⟩ : Reader).reads letters text).held =
      ⟨[], ((⟨[], []⟩ : Reader).reads letters text).held⟩ := by
  induction text using List.reverseRecOn with
  | nil => rfl
  | append_singleton text c ih =>
    rw [reads_append, reads_cons, reads_nil]
    generalize (⟨[], []⟩ : Reader).reads letters text = r at ih ⊢
    obtain ⟨said, held⟩ := r
    rw [read]
    split_ifs with hends
    · rfl
    · show (⟨[], []⟩ : Reader).reads letters (held ++ [c]) = ⟨[], held ++ [c]⟩
      rw [reads_append, ih, reads_cons, reads_nil, read, if_neg hends]

theorem reads_congr {text' : List Char} (h : text.dropWhile isSpace = text'.dropWhile isSpace) :
    Like ((⟨[], []⟩ : Reader).reads letters text) ((⟨[], []⟩ : Reader).reads letters text') := by
  have hstart : ∀ text : List Char, Like ((⟨[], []⟩ : Reader).reads letters text)
      ((⟨[], []⟩ : Reader).reads letters (text.dropWhile isSpace)) := by
    intro text
    have hspace : ∀ x ∈ text.takeWhile isSpace, isSpace x = true := fun x hx =>
      List.mem_takeWhile_imp hx
    conv_lhs => rw [← List.takeWhile_append_dropWhile (p := isSpace) (l := text)]
    rw [reads_append, reads_space clear_nil hspace]
    exact (like_nil hspace).reads letters _
  have htext := hstart text
  rw [h] at htext
  exact htext.trans (hstart text').symm

theorem reads_resume (delta : List Char)
    (h : Like ((⟨[], []⟩ : Reader).reads letters text) ⟨said, held⟩) :
    Like ((⟨[], []⟩ : Reader).reads letters (text ++ delta))
      ⟨said ++ ((⟨[], []⟩ : Reader).reads letters (held ++ delta)).said,
        ((⟨[], []⟩ : Reader).reads letters (held ++ delta)).held⟩ := by
  have hquiet : Like ((⟨[], []⟩ : Reader).reads letters held) ⟨[], held⟩ := by
    refine (reads_congr h.held.symm).trans ?_
    rw [reads_held]
    exact ⟨rfl, h.held⟩
  have hdelta := (hquiet.reads letters delta).symm
  rw [← reads_append] at hdelta
  have htext := h.reads letters delta
  rw [← reads_append, ← List.append_nil said, reads_said] at htext
  refine htext.trans ⟨?_, hdelta.held⟩
  show said ++ _ = said ++ _
  rw [hdelta.said]

/-! ### Words -/

theorem words_congr {more : List Char} (h : held.dropWhile isSpace = held'.dropWhile isSpace) :
    words isSpace (held ++ more) = words isSpace (held' ++ more) := by
  have hstart : ∀ held : List Char,
      words isSpace (held ++ more) = words isSpace (held.dropWhile isSpace ++ more) := by
    intro held
    conv_lhs => rw [← List.takeWhile_append_dropWhile (p := isSpace) (l := held)]
    rw [List.append_assoc, words_space_append fun x hx => List.mem_takeWhile_imp hx]
  rw [hstart held, h, ← hstart held']

theorem words_reads (letters : Letters) (said : List (List Char)) (held text more : List Char) :
    (said.flatMap (words isSpace)) ++ words isSpace (held ++ text ++ more) =
      ((⟨said, held⟩ : Reader).reads letters text).said.flatMap (words isSpace) ++
        words isSpace (((⟨said, held⟩ : Reader).reads letters text).held ++ more) := by
  induction text generalizing said held with
  | nil => rw [reads_nil, List.append_nil]
  | cons c text ih =>
    rw [reads_cons, read]
    split_ifs with hends
    · rw [← ih, List.append_assoc held, List.cons_append, words_append_cons hends.1,
        List.flatMap_append, List.flatMap_singleton, words_trim, List.append_assoc, List.nil_append]
    · rw [← ih, List.append_assoc held [c] text]
      rfl

theorem words_nonblank : (nonblank text).flatMap (words isSpace) = words isSpace text := by
  rw [nonblank]
  split_ifs with hblank
  · rw [← words_trim, hblank]
    rfl
  · rw [List.flatMap_singleton, words_trim]

theorem words_splitSentences :
    (splitSentences letters text).flatMap (words isSpace) = words isSpace text := by
  have h := words_reads letters [] [] text []
  rw [List.append_nil, List.append_nil] at h
  rw [splitSentences_eq, List.flatMap_append, words_nonblank, ← h]
  rfl

/-! ### Sentences -/

def IsSentence (text : List Char) : Prop := trim isSpace text = text ∧ text ≠ []

theorem read_sentences (h : ∀ sentence ∈ r.said, IsSentence sentence) :
    ∀ sentence ∈ (r.read letters c).said, IsSentence sentence := by
  rw [read]
  split_ifs with hends
  · intro sentence hsentence
    rcases List.mem_append.mp hsentence with hsentence | hsentence
    · exact h sentence hsentence
    · obtain rfl := List.mem_singleton.mp hsentence
      refine ⟨trim_trim, ?_⟩
      obtain ⟨d, marks, hmarks⟩ := List.exists_cons_of_ne_nil hends.2.1
      have hd : d ∈ r.held.rtakeWhile isMark := by
        rw [hmarks]
        exact List.mem_cons_self
      have hheld : d ∈ r.held := (List.rtakeWhile_suffix isMark r.held).subset hd
      exact List.ne_nil_of_mem (mem_trim hheld (isSpace_of_isMark (List.mem_rtakeWhile_imp hd)))
  · exact h

theorem reads_sentences (h : ∀ sentence ∈ r.said, IsSentence sentence) :
    ∀ sentence ∈ (r.reads letters text).said, IsSentence sentence := by
  induction text generalizing r with
  | nil => exact h
  | cons c text ih => exact ih (read_sentences h)

theorem splitSentences_sentences : ∀ sentence ∈ splitSentences letters text, IsSentence sentence := by
  intro sentence hsentence
  rw [splitSentences_eq, List.mem_append] at hsentence
  rcases hsentence with hsentence | hsentence
  · exact reads_sentences (fun s hs => absurd hs List.not_mem_nil) sentence hsentence
  · unfold nonblank at hsentence
    split_ifs at hsentence with hblank
    · cases hsentence
    · obtain rfl := List.mem_singleton.mp hsentence
      exact ⟨trim_trim, hblank⟩

end Reader

end GuruJi.Voice
