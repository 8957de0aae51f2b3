import GuruJi.Voice.Sentences

/-!
# The search marker

`SEARCH_MARKER` and `split_search_request`: a reply that begins with `[[search: ...]]` asks for a web
search. Nothing of the marker before its closing brackets is a `]`, so the first `]` of a reply decides.

* `query_eq`: the query depends on what stands before the first `]` only, and on whether another one
  follows it.
* `query_append`: a query that a text asks for stays, whatever follows.
* `query_of_closed`: a text with `]]` in it asks for a query as soon as any longer one does.
-/

namespace GuruJi.Conversation

open GuruJi.Lib GuruJi.Voice

/-- The characters that a small letter stands for when the case is ignored. -/
def sameLetter (letter c : Char) : Bool := c = letter || c = letter.toUpper || (letter = 's' && c = 'ſ')

def after : List (Char → Bool) → List Char → Option (List Char)
  | [], text => some text
  | p :: ps, c :: text => if p c then after ps text else none
  | _ :: _, [] => none

/-- `\s*`, and then characters of these kinds. -/
def token (ps : List (Char → Bool)) (text : List Char) : Option (List Char) :=
    after ps (text.dropWhile isSpace)

/-- What follows the colon of `^\s*\[\[\s*search\s*:`. -/
def markerBody (text : List Char) : Option (List Char) :=
  (token [(· = '['), (· = '[')] text).bind fun inside =>
    (token (['s', 'e', 'a', 'r', 'c', 'h'].map sameLetter) inside).bind (token [(· = ':')])

/-- `[^\]\n]{2,300}`, for a text without `]`. -/
def isQuery (text : List Char) : Bool := text.all (· ≠ '\n') && 2 ≤ text.length && text.length ≤ 300

/-- `\s*(?P<query>...)` on the text before the first `]`: the white space is as long as a query can
follow. -/
def queryText (text : List Char) : Option (List Char) :=
  (((List.range ((text.takeWhile isSpace).length + 1)).reverse.map text.drop).find? isQuery)

/-- `" ".join(query.split())`. -/
def joinWords (text : List Char) : List Char := [' '].intercalate (words isSpace text)

def searchMarker (text : List Char) : Option (List Char × List Char) :=
  (markerBody text).bind fun body =>
    match body.dropWhile (· ≠ ']') with
    | ']' :: ']' :: rest => (queryText (body.takeWhile (· ≠ ']'))).map fun query => (query, rest)
    | _ => none

/-- `split_search_request`. -/
def splitSearchRequest (reply : List Char) : Option (List Char) × List Char :=
  match searchMarker reply with
  | some (query, rest) => (some (joinWords query), trim isSpace rest)
  | none => (none, trim isSpace reply)

def query (reply : List Char) : Option (List Char) := (splitSearchRequest reply).1

/-- `reply.lstrip()`. -/
def opening (reply : List Char) : List Char := reply.dropWhile isSpace

/-! ## The first bracket -/

/-- What stands before the first `]`, if it is followed by another one. -/
def closed (text : List Char) : Option (List Char) :=
  match text.dropWhile (· ≠ ']') with
  | ']' :: ']' :: _ => some (text.takeWhile (· ≠ ']'))
  | _ => none

theorem closed_eq_some {text head : List Char} :
    closed text = some head ↔ ']' ∉ head ∧ ∃ rest, text = head ++ ']' :: ']' :: rest := by
  have hfree : ∀ {l : List Char}, ']' ∉ l → ∀ c ∈ l, (decide (c ≠ ']')) = true := by
    intro l hl c hc
    exact decide_eq_true fun heq => hl (heq ▸ hc)
  constructor
  · intro h
    rw [closed] at h
    split at h
    case h_1 rest hrest =>
      obtain rfl := Option.some.inj h
      refine ⟨fun hmem => ?_, rest, ?_⟩
      · have hne := List.mem_takeWhile_imp hmem
        simp at hne
      · rw [← hrest]
        exact List.takeWhile_append_dropWhile.symm
    case h_2 => cases h
  · rintro ⟨hhead, rest, rfl⟩
    have hdrop : (head ++ ']' :: ']' :: rest).dropWhile (· ≠ ']') = ']' :: ']' :: rest := by
      rw [List.dropWhile_append_of_pos (hfree hhead)]
      exact List.dropWhile_cons_of_neg (by simp)
    have htake : (head ++ ']' :: ']' :: rest).takeWhile (· ≠ ']') = head := by
      rw [List.takeWhile_append_of_pos (hfree hhead)]
      simp
    simp only [closed, hdrop, htake]

theorem dropWhile_closed (head more : List Char) :
    (head ++ ']' :: more).dropWhile isSpace = head.dropWhile isSpace ++ ']' :: more := by
  induction head with
  | nil => exact List.dropWhile_cons_of_neg (by decide)
  | cons c head ih =>
    rw [List.cons_append]
    by_cases hc : isSpace c = true
    · rw [List.dropWhile_cons_of_pos hc, List.dropWhile_cons_of_pos hc, ih]
    · rw [List.dropWhile_cons_of_neg hc, List.dropWhile_cons_of_neg hc, List.cons_append]

theorem token_closed {ps : List (Char → Bool)} (hps : ∀ p ∈ ps, p ']' = false) (head more : List Char) :
    token ps (head ++ ']' :: more) = (token ps head).map (· ++ ']' :: more) := by
  rw [token, token, dropWhile_closed]
  generalize head.dropWhile isSpace = head
  induction ps generalizing head with
  | nil => rfl
  | cons p ps ih =>
    obtain ⟨hp, hps⟩ := List.forall_mem_cons.mp hps
    cases head with
    | nil =>
      rw [List.nil_append, after, hp]
      rfl
    | cons c head =>
      rw [List.cons_append, after, after, ih hps]
      split_ifs
      · rfl
      · rfl

theorem markerBody_closed (head more : List Char) :
    markerBody (head ++ ']' :: more) = (markerBody head).map (· ++ ']' :: more) := by
  have hbrackets : ∀ p ∈ [fun c : Char => decide (c = '['), fun c : Char => decide (c = '[')],
      p ']' = false := by simp
  have hword : ∀ p ∈ ['s', 'e', 'a', 'r', 'c', 'h'].map sameLetter, p ']' = false := by decide
  have hcolon : ∀ p ∈ [fun c : Char => decide (c = ':')], p ']' = false := by simp
  rw [markerBody, markerBody, token_closed hbrackets]
  rcases token _ head with _ | inside
  · rfl
  · show (token _ (inside ++ ']' :: more)).bind _ = _
    rw [token_closed hword, Option.bind_some]
    rcases token _ inside with _ | named
    · rfl
    · exact token_closed hcolon named more

theorem mem_of_token {ps : List (Char → Bool)} {text rest : List Char} (h : token ps text = some rest) :
    rest <:+ text := by
  have hafter : ∀ {ps : List (Char → Bool)} {text : List Char}, after ps text = some rest →
    rest <:+ text := by
    intro ps
    induction ps with
    | nil =>
      intro text h
      obtain rfl := Option.some.inj h
      exact List.suffix_rfl
    | cons p ps ih =>
      intro text h
      cases text with
      | nil => cases h
      | cons c text =>
        rw [after] at h
        split_ifs at h
        exact (ih h).trans (List.suffix_cons c text)
  exact (hafter h).trans (List.dropWhile_suffix _)

theorem suffix_of_markerBody {text body : List Char} (h : markerBody text = some body) :
    body <:+ text := by
  rw [markerBody, Option.bind_eq_some_iff] at h
  obtain ⟨inside, hinside, h⟩ := h
  obtain ⟨named, hnamed, h⟩ := Option.bind_eq_some_iff.mp h
  exact ((mem_of_token h).trans (mem_of_token hnamed)).trans (mem_of_token hinside)

theorem dropWhile_bracket {text : List Char} (h : ']' ∉ text) (more : List Char) :
    (text ++ ']' :: more).dropWhile (· ≠ ']') = ']' :: more ∧
      (text ++ ']' :: more).takeWhile (· ≠ ']') = text := by
  have hfree : ∀ c ∈ text, (decide (c ≠ ']')) = true := fun c hc => decide_eq_true fun heq =>
    h (heq ▸ hc)
  rw [List.dropWhile_append_of_pos hfree, List.takeWhile_append_of_pos hfree]
  exact ⟨List.dropWhile_cons_of_neg (by simp), by simp⟩

theorem dropWhile_free {text : List Char} (h : ']' ∉ text) : text.dropWhile (· ≠ ']') = [] := by
  refine List.dropWhile_eq_nil_iff.mpr fun c hc => ?_
  exact decide_eq_true fun heq => h (heq ▸ hc)

theorem query_eq_map (reply : List Char) : query reply = (searchMarker reply).map fun m =>
    joinWords m.1 := by
  rw [query, splitSearchRequest]
  split
  case h_1 hmarker => rw [hmarker, Option.map_some]
  case h_2 hmarker => rw [hmarker, Option.map_none]

/-- **The first `]` decides.** -/
theorem query_eq (reply : List Char) : query reply =
    (closed reply).bind fun head => ((markerBody head).bind queryText).map joinWords := by
  rw [query_eq_map, searchMarker]
  by_cases hmem : ']' ∈ reply
  · obtain ⟨head, more, rfl, hhead⟩ := List.eq_append_cons_of_mem hmem
    rw [markerBody_closed, closed, (dropWhile_bracket hhead more).1, (dropWhile_bracket hhead more).2]
    rcases hbody : markerBody head with _ | body
    · split <;> simp [hbody]
    · have hfree : ']' ∉ body := fun h => hhead ((suffix_of_markerBody hbody).subset h)
      rw [Option.map_some, Option.bind_some, (dropWhile_bracket hfree more).1,
        (dropWhile_bracket hfree more).2]
      split
      · rw [Option.bind_some, hbody, Option.bind_some, Option.map_map]
        rfl
      · rfl
  · have hclosed : closed reply = none := by rw [closed, dropWhile_free hmem]
    rw [hclosed, Option.bind_none]
    rcases hbody : markerBody reply with _ | body
    · rfl
    · have hfree : ']' ∉ body := fun h => hmem ((suffix_of_markerBody hbody).subset h)
      rw [Option.bind_some, dropWhile_free hfree]
      rfl

/-! ## Beginnings of a reply -/

variable {text more : List Char} {q : List Char}

theorem closed_append {head : List Char} (h : closed text = some head) : closed (text ++ more) =
    some head := by
  obtain ⟨hhead, rest, rfl⟩ := closed_eq_some.mp h
  exact closed_eq_some.mpr ⟨hhead, rest ++ more, by simp⟩

/-- **A query stays**, whatever follows. -/
theorem query_append (h : query text = some q) (more : List Char) : query (text ++ more) = some q := by
  rw [query_eq, Option.bind_eq_some_iff] at h
  obtain ⟨head, hclosed, h⟩ := h
  rw [query_eq, closed_append hclosed]
  exact h

/-- **A text with `]]` in it** asks for the query of any longer one. -/
theorem query_of_closed (h : query (text ++ more) = some q) (hpair : [']', ']'] <:+: text) :
    query text = some q := by
  rw [query_eq, Option.bind_eq_some_iff] at h
  obtain ⟨head, hclosed, h⟩ := h
  obtain ⟨hhead, rest, heq⟩ := closed_eq_some.mp hclosed
  have hlong : head ++ [']', ']'] <+: text := by
    have hwhole : (head ++ [']']) ++ [']'] <+: text ++ more := heq ▸ ⟨rest, by simp⟩
    have hsplit : head ++ [']', ']'] = (head ++ [']']) ++ [']'] := by simp
    rw [hsplit]
    rcases List.prefix_or_prefix_of_prefix (List.prefix_append text more) hwhole with hshort | hlong
    · rcases List.prefix_concat_iff.mp hshort with rfl | hshort
      · exact List.prefix_rfl
      · -- a text that ends before the second bracket has one at most
        have htwo : 2 ≤ text.count ']' := hpair.sublist.count_le ']'
        have hone := hshort.sublist.count_le ']'
        rw [List.count_append, List.count_eq_zero.mpr hhead] at hone
        exact absurd (htwo.trans hone) (by decide)
    · exact hlong
  obtain ⟨rest', rfl⟩ := hlong
  rw [query_eq, closed_eq_some.mpr ⟨hhead, rest', by simp⟩]
  exact h

/-- Once a text has more than white space, what follows does not change its opening. -/
theorem opening_append (h : opening text ≠ []) : opening (text ++ more) = opening text ++ more := by
  rw [opening, List.dropWhile_append, if_neg]
  · rfl
  · intro hnil
    exact h (List.isEmpty_iff.mp hnil)

theorem brackets_of_query (h : query text = some q) : ['[', '['] <+: opening text := by
  rw [query_eq_map, Option.map_eq_some_iff] at h
  obtain ⟨m, hm, -⟩ := h
  rw [searchMarker, Option.bind_eq_some_iff] at hm
  obtain ⟨body, hbody, -⟩ := hm
  rw [markerBody, Option.bind_eq_some_iff] at hbody
  obtain ⟨inside, hinside, -⟩ := hbody
  rw [token] at hinside
  rw [opening]
  generalize text.dropWhile isSpace = shown at hinside ⊢
  rcases shown with _ | ⟨a, _ | ⟨b, rest⟩⟩
  · cases hinside
  · rw [after] at hinside
    split_ifs at hinside
    cases hinside
  · rw [after, after] at hinside
    split_ifs at hinside with ha hb
    obtain rfl := of_decide_eq_true ha
    obtain rfl := of_decide_eq_true hb
    exact ⟨rest, rfl⟩

theorem query_opening : query (opening text) = query text := by
  have htoken : ∀ ps, token ps (opening text) = token ps text := by
    intro ps
    rw [token, token, opening, List.dropWhile_idempotent]
  rw [query_eq_map, query_eq_map, searchMarker, searchMarker, markerBody, markerBody, htoken]

end GuruJi.Conversation
