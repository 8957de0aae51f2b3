import GuruJi.Voice.Sentences
import Mathlib.Algebra.GroupWithZero.Nat

/-!
# A reply spoken as it arrives

`SentenceStreamer`: what has arrived waits in a buffer until its sentence has ended, or is cut at a
clause when it grows too long; short sentences wait for the next one; what is spoken is cleaned
(`to_speech`) and stops at `max_chars`. `cuts` counts the clause cuts and is read by nothing.

* `complete_words`, `joins_words`: one step neither loses nor repeats a word;
* `complete_reads`: without a clause cut it finds the sentences of the whole text;
* **`streamer_tells`**: for every text and every way it arrives, what is spoken is the speaking of
  texts that tell its words in order, and without a clause cut they are its sentences, a short one
  joined to the next.

How letters are lowered, the cleaning and the pointer to the screen are left open.
-/

namespace GuruJi.Voice

open GuruJi.Lib

structure Limits where
  firstChars : Nat := 120
  chunkChars : Nat := 300
  minChars : Nat := 25
  maxChars : Nat := 1500

/-- What one streamer is made with. -/
structure Streaming where
  letters : Letters
  limits : Limits
  toSpeech : List Char → List Char
  onScreen : List Char

/-- `_spoken_chars`, `_emitted` and `_capped`. -/
structure Spoken where
  chars : Nat := 0
  emitted : Nat := 0
  capped : Bool := false

structure Streamer where
  buffer : List Char := []
  pending : List Char := []
  spoken : Spoken := {}
  cuts : Nat := 0

/-! ## Clause breaks -/

/-- `[,;:—–]`. -/
def isSeparator (c : Char) : Bool := c ∈ [',', ';', ':', '—', '–']

/-- How long a match of `_CLAUSE_BREAK` at the start of a text is. -/
def clauseHere : List Char → Option Nat
  | [] => none
  | c :: rest =>
    if isSeparator c ∧ rest.takeWhile isSpace ≠ [] then some ((rest.takeWhile isSpace).length + 1)
    else if isSpace c then some ((rest.takeWhile isSpace).length + 1)
    else none

/-- The matches of `_CLAUSE_BREAK`, from where to where. -/
def clauseBreaks (start : Nat) : List Char → List (Nat × Nat)
  | [] => []
  | c :: rest =>
    match clauseHere (c :: rest) with
    | some n => (start, start + n) :: clauseBreaks (start + n) (rest.drop (n - 1))
    | none => clauseBreaks (start + 1) rest
termination_by text => text.length
decreasing_by
  all_goals simp only [List.length_drop, List.length_cons]; omega

/-- The last break of the first `limit + 40` characters, if it is not in their first half. -/
def clauseCut (limit : Nat) (buffer : List Char) : Option (Nat × Nat) :=
  ((clauseBreaks 0 (buffer.take (limit + 40))).filter fun cut => limit / 2 ≤ cut.1).getLast?

theorem isSpace_of_isSeparator {c : Char} (h : isSeparator c = true) : isSpace c = false := by
  simp only [isSeparator, List.mem_cons, List.not_mem_nil, or_false, decide_eq_true_eq] at h
  rcases h with rfl | rfl | rfl | rfl | rfl <;> decide

/-- A break drops a separator, if there is one, and the space behind it. -/
structure Break (sep space : List Char) : Prop where
  separator : sep = [] ∨ ∃ c, isSeparator c = true ∧ sep = [c]
  blank : ∀ c ∈ space, isSpace c = true
  ne_nil : space ≠ []

theorem clauseHere_spec {text : List Char} {n : Nat} (h : clauseHere text = some n) :
    ∃ sep space, Break sep space ∧ text = sep ++ space ++ text.drop n ∧
      n = sep.length + space.length := by
  cases text with
  | nil => cases h
  | cons c rest =>
    have hspace : ∀ x ∈ rest.takeWhile isSpace, isSpace x = true := fun x hx => List.mem_takeWhile_imp hx
    have hrest : rest.takeWhile isSpace ++ rest.drop (rest.takeWhile isSpace).length = rest :=
      List.prefix_iff_eq_append.mp (List.takeWhile_prefix isSpace)
    rw [clauseHere] at h
    split_ifs at h with hsep hblank
    · obtain rfl := Option.some.inj h
      refine ⟨[c], rest.takeWhile isSpace, ⟨.inr ⟨c, hsep.1, rfl⟩, hspace, hsep.2⟩, ?_, Nat.add_comm _ 1⟩
      rw [List.drop_succ_cons, List.append_assoc, hrest]
      rfl
    · obtain rfl := Option.some.inj h
      refine ⟨[], c :: rest.takeWhile isSpace, ⟨.inl rfl, ?_, List.cons_ne_nil c _⟩, ?_, ?_⟩
      · exact List.forall_mem_cons.mpr ⟨hblank, hspace⟩
      · rw [List.drop_succ_cons, List.nil_append, List.cons_append, hrest]
      · rw [List.length_cons, List.length_nil, Nat.zero_add]

theorem clauseBreaks_spec {start : Nat} {text : List Char} {cut : Nat × Nat}
    (h : cut ∈ clauseBreaks start text) :
    ∃ before sep space rest, Break sep space ∧ text = before ++ (sep ++ space ++ rest) ∧
      cut = (start + before.length, start + before.length + (sep.length + space.length)) := by
  fun_induction clauseBreaks start text with
  | case1 => cases h
  | case2 start c rest n hhere ih =>
    obtain ⟨sep, space, hbreak, htext, hn⟩ := clauseHere_spec hhere
    rcases List.mem_cons.mp h with rfl | h
    · exact ⟨[], sep, space, (c :: rest).drop n, hbreak, htext, by rw [hn]; rfl⟩
    · obtain ⟨before, sep', space', rest', hbreak', hrest, hcut⟩ := ih h
      have hdrop : (c :: rest).drop n = rest.drop (n - 1) := by
        have hpos := List.length_pos_of_ne_nil hbreak.ne_nil
        obtain ⟨k, rfl⟩ : ∃ k, n = k + 1 := ⟨n - 1, by omega⟩
        rfl
      refine ⟨sep ++ space ++ before, sep', space', rest', hbreak', ?_, ?_⟩
      · rw [htext, hdrop, hrest, List.append_assoc (sep ++ space)]
      · have hlength : start + n + before.length = start + (sep ++ space ++ before).length := by
          rw [List.length_append, List.length_append, ← hn, Nat.add_assoc]
        rw [hcut, hlength]
  | case3 start c rest hhere ih =>
    obtain ⟨before, sep, space, rest', hbreak, hrest, hcut⟩ := ih h
    refine ⟨c :: before, sep, space, rest', hbreak, ?_, ?_⟩
    · rw [hrest]
      rfl
    · rw [hcut, List.length_cons, Nat.add_assoc start 1, Nat.add_comm 1]

theorem clauseCut_spec {limit : Nat} {buffer : List Char} {cut : Nat × Nat}
    (h : clauseCut limit buffer = some cut) :
    ∃ sep space, Break sep space ∧
      buffer = buffer.take cut.1 ++ sep ++ space ++ buffer.drop cut.2 := by
  have hmem := (List.mem_filter.mp (List.mem_of_getLast? h)).1
  obtain ⟨before, sep, space, rest, hbreak, htext, rfl⟩ := clauseBreaks_spec hmem
  have hbuffer : buffer = before ++ sep ++ space ++ (rest ++ buffer.drop (limit + 40)) := by
    conv_lhs => rw [← List.take_append_drop (limit + 40) buffer, htext]
    simp only [List.append_assoc]
  refine ⟨sep, space, hbreak, ?_⟩
  have htake : buffer.take (0 + before.length) = before := by
    rw [hbuffer, Nat.zero_add, List.append_assoc, List.append_assoc, List.take_left]
  have hdrop : buffer.drop (0 + before.length + (sep.length + space.length)) =
      rest ++ buffer.drop (limit + 40) := by
    conv_lhs => rw [hbuffer]
    exact List.drop_left' (by simp only [List.length_append]; omega)
  rw [htake, hdrop]
  exact hbuffer

/-! ## Words that are told -/

/-- Words told in their order, `n` of them without the separator at their end. -/
inductive Told : Nat → List (List Char) → List (List Char) → Prop
  | nil : Told 0 [] []
  | word (w : List Char) {n : Nat} {ws told : List (List Char)} : Told n ws told →
    Told n (w :: ws) (w :: told)
  | cut (w : List Char) {c : Char} {n : Nat} {ws told : List (List Char)} : isSeparator c = true →
    Told n ws told → Told (n + 1) ((w ++ [c]) :: ws) (w :: told)
  | drop {c : Char} {n : Nat} {ws told : List (List Char)} : isSeparator c = true →
    Told n ws told → Told (n + 1) ([c] :: ws) told

theorem Told.refl (ws : List (List Char)) : Told 0 ws ws := by
  induction ws with
  | nil => exact .nil
  | cons w ws ih => exact ih.word w

theorem Told.append {n m : Nat} {ws told ws' told' : List (List Char)} (h : Told n ws told)
    (h' : Told m ws' told') : Told (n + m) (ws ++ ws') (told ++ told') := by
  induction h with
  | nil => rwa [Nat.zero_add]
  | word w _ ih => exact ih.word w
  | cut w hc _ ih =>
    rw [Nat.add_right_comm]
    exact ih.cut w hc
  | drop hc _ ih =>
    rw [Nat.add_right_comm]
    exact ih.drop hc

theorem told_break (clause : List Char) {sep space : List Char} (h : Break sep space) :
    ∃ n ≤ 1, Told n (words isSpace (clause ++ sep)) (words isSpace clause) := by
  rcases h.separator with rfl | ⟨c, hc, rfl⟩
  · rw [List.append_nil]
    exact ⟨0, Nat.zero_le 1, .refl _⟩
  · refine ⟨1, le_refl 1, ?_⟩
    rcases words_concat (a := clause) (isSpace_of_isSeparator hc) with hnew | ⟨init, last, hlast, hlong⟩
    · rw [hnew]
      have happend := (Told.refl (words isSpace clause)).append (Told.nil.drop hc)
      rwa [Nat.zero_add, List.append_nil] at happend
    · rw [hlast, hlong]
      have happend := (Told.refl init).append (Told.nil.cut last hc)
      rwa [Nat.zero_add] at happend

namespace Streaming
variable (cfg : Streaming)

/-! ## The streamer -/

/-- `_complete`. -/
def complete (s : Streamer) : Streamer × List (List Char) :=
  let next := scan cfg.letters false [] s.buffer
  let limit :=
    if s.spoken.emitted = 0 ∧ s.pending = [] then cfg.limits.firstChars else cfg.limits.chunkChars
  if next.1 = [] ∧ limit < next.2.length then
    match clauseCut limit next.2 with
    | some cut =>
      ({ s with buffer := next.2.drop cut.2, cuts := s.cuts + 1 }, [trim isSpace (next.2.take cut.1)])
    | none => ({ s with buffer := next.2 }, [])
  else ({ s with buffer := next.2 }, next.1)

/-- `_speak`. -/
def speak (s : Spoken) (text : List Char) : Spoken × List (List Char) :=
  if s.capped then (s, [])
  else
    let spoken := cfg.toSpeech text
    if spoken = [] then (s, [])
    else if s.chars ≠ 0 ∧ cfg.limits.maxChars < s.chars + spoken.length then
      ({ s with capped := true, emitted := s.emitted + 1 }, [cfg.onScreen])
    else ({ s with chars := s.chars + spoken.length, emitted := s.emitted + 1 }, [spoken])

/-- `_emit`. -/
def emit (final : Bool) (s : Streamer) : List (List Char) → Streamer × List (List Char)
  | [] =>
    if final ∧ s.pending ≠ [] then
      let said := cfg.speak s.spoken s.pending
      ({ s with spoken := said.1, pending := [] }, said.2)
    else (s, [])
  | piece :: pieces =>
    let pending := trim isSpace (s.pending ++ ' ' :: piece)
    if pending.length < cfg.limits.minChars ∧ !final then
      emit final { s with pending := pending } pieces
    else
      let said := cfg.speak s.spoken pending
      let next := emit final { s with spoken := said.1, pending := [] } pieces
      (next.1, said.2 ++ next.2)

def feed (s : Streamer) (delta : List Char) : Streamer × List (List Char) :=
  if s.spoken.capped ∨ delta = [] then (s, [])
  else
    let completed := cfg.complete { s with buffer := s.buffer ++ delta }
    cfg.emit false completed.1 completed.2

def flush (s : Streamer) : Streamer × List (List Char) :=
  if s.spoken.capped then (s, [])
  else
    let completed := cfg.complete s
    cfg.emit true { completed.1 with buffer := [] } (completed.2 ++ nonblank completed.1.buffer)

def feeds (s : Streamer) : List (List Char) → Streamer × List (List Char)
  | [] => (s, [])
  | delta :: deltas =>
    let fed := cfg.feed s delta
    let rest := feeds fed.1 deltas
    (rest.1, fed.2 ++ rest.2)

/-- A reply that arrives in pieces, and the flush at its end. -/
def reply (deltas : List (List Char)) : Streamer × List (List Char) :=
  let fed := cfg.feeds {} deltas
  let flushed := cfg.flush fed.1
  (flushed.1, fed.2 ++ flushed.2)

/-! ## What is spoken of some texts -/

def speakAll (s : Spoken) : List (List Char) → Spoken × List (List Char)
  | [] => (s, [])
  | text :: texts =>
    let said := cfg.speak s text
    let rest := speakAll said.1 texts
    (rest.1, said.2 ++ rest.2)

/-- `_emit` without its speaking: the texts it speaks, and what is pending then. -/
def joins (final : Bool) (pending : List Char) :
    List (List Char) → List (List Char) × List Char
  | [] => if final ∧ pending ≠ [] then ([pending], []) else ([], pending)
  | piece :: pieces =>
    let pending := trim isSpace (pending ++ ' ' :: piece)
    if pending.length < cfg.limits.minChars ∧ !final then joins final pending pieces
    else
      let rest := joins final [] pieces
      (pending :: rest.1, rest.2)

/-- Sentences, each joined to the next as long as it is short. -/
def joined (sentences : List (List Char)) : List (List Char) :=
  let texts := cfg.joins false [] sentences
  texts.1 ++ if texts.2 = [] then [] else [texts.2]

variable {cfg} {s : Streamer} {pieces texts : List (List Char)} {final : Bool} {pending : List Char}

theorem emit_eq : cfg.emit final s pieces =
    ({ s with spoken := (cfg.speakAll s.spoken (cfg.joins final s.pending pieces).1).1,
              pending := (cfg.joins final s.pending pieces).2 },
      (cfg.speakAll s.spoken (cfg.joins final s.pending pieces).1).2) := by
  induction pieces generalizing s with
  | nil =>
    unfold emit joins
    split_ifs with hfinal
    · simp [speakAll]
    · rfl
  | cons piece pieces ih =>
    unfold emit joins
    simp only
    split_ifs with hwait
    · rw [ih]
    · rw [ih]
      rfl

theorem speakAll_append {spoken : Spoken} {more : List (List Char)} :
    cfg.speakAll spoken (texts ++ more) =
      ((cfg.speakAll (cfg.speakAll spoken texts).1 more).1,
        (cfg.speakAll spoken texts).2 ++ (cfg.speakAll (cfg.speakAll spoken texts).1 more).2) := by
  induction texts generalizing spoken with
  | nil => rfl
  | cons text texts ih =>
    simp only [List.cons_append, speakAll, ih, List.append_assoc]

theorem speakAll_capped {spoken : Spoken} (h : spoken.capped = true) :
    cfg.speakAll spoken texts = (spoken, []) := by
  induction texts with
  | nil => rfl
  | cons text texts ih =>
    have hspeak : cfg.speak spoken text = (spoken, []) := by rw [speak, if_pos h]
    rw [speakAll, hspeak, ih]
    rfl

theorem joins_append {more : List (List Char)} : cfg.joins false pending (pieces ++ more) =
      ((cfg.joins false pending pieces).1 ++
          (cfg.joins false (cfg.joins false pending pieces).2 more).1,
        (cfg.joins false (cfg.joins false pending pieces).2 more).2) := by
  induction pieces generalizing pending with
  | nil => simp [joins]
  | cons piece pieces ih =>
    simp only [List.cons_append, joins]
    split_ifs
    · exact ih
    · rw [ih]
      rfl

theorem isSpace_blank : isSpace ' ' = true := by decide

/-- Joining neither loses nor repeats a word. -/
theorem joins_words (cfg : Streaming) (final : Bool) (pending : List Char) (pieces : List (List Char)) :
    (cfg.joins final pending pieces).1.flatMap (words isSpace) ++
        words isSpace (cfg.joins final pending pieces).2 =
      words isSpace pending ++ pieces.flatMap (words isSpace) := by
  induction pieces generalizing pending with
  | nil =>
    unfold joins
    split_ifs
    · simp
    · simp
  | cons piece pieces ih =>
    unfold joins
    simp only
    split_ifs
    · rw [ih, words_trim, words_append_cons isSpace_blank, List.flatMap_cons, List.append_assoc]
    · rw [List.flatMap_cons, List.append_assoc, ih, words_trim, words_append_cons isSpace_blank,
        words_nil, List.nil_append, List.flatMap_cons, List.append_assoc]

theorem joined_words {sentences : List (List Char)} :
    (cfg.joined sentences).flatMap (words isSpace) = sentences.flatMap (words isSpace) := by
  have h : _ = words isSpace [] ++ sentences.flatMap (words isSpace) :=
    joins_words cfg false [] sentences
  rw [words_nil, List.nil_append] at h
  rw [← h, joined, List.flatMap_append]
  refine congrArg _ ?_
  split_ifs with hpending
  · rw [hpending]
    rfl
  · rw [List.flatMap_singleton]

theorem joins_final : (cfg.joins true pending pieces).2 = [] := by
  induction pieces generalizing pending with
  | nil =>
    unfold joins
    split_ifs with hpending
    · rfl
    · simpa using hpending
  | cons piece pieces ih =>
    unfold joins
    simp only
    split_ifs
    · exact ih
    · exact ih

/-- The last sentence is spoken at once by the flush, and pending at the end otherwise. -/
theorem joins_flush {rest : List Char} : (cfg.joins true pending (nonblank rest)).1 =
    (cfg.joins false pending (nonblank rest)).1 ++
      if (cfg.joins false pending (nonblank rest)).2 = [] then []
      else [(cfg.joins false pending (nonblank rest)).2] := by
  by_cases hblank : trim isSpace rest = []
  · rw [nonblank, if_pos hblank, joins, joins]
    by_cases hpending : pending = []
    · simp [hpending]
    · simp [hpending]
  · have hne : trim isSpace (pending ++ ' ' :: trim isSpace rest) ≠ [] := by
      obtain ⟨c, t, ht⟩ := List.exists_cons_of_ne_nil hblank
      have hc : isSpace c = false := head_trim (l := rest) (by rw [ht]; rfl)
      refine List.ne_nil_of_mem (mem_trim (x := c) ?_ hc)
      rw [ht]
      simp
    rw [nonblank, if_neg hblank]
    simp only [joins]
    by_cases hshort : (trim isSpace (pending ++ ' ' :: trim isSpace rest)).length < cfg.limits.minChars
    · simp [hshort, hne]
    · simp [hshort]

/-! ## One step -/

/-- What `_complete` takes out of the buffer. -/
structure Completed (cfg : Streaming) (s s' : Streamer) (pieces : List (List Char)) : Prop where
  spoken : s'.spoken = s.spoken
  pending : s'.pending = s.pending
  told : ∃ n lead, s.cuts + n ≤ s'.cuts ∧
    (∀ more, words isSpace (s.buffer ++ more) = lead ++ words isSpace (s'.buffer ++ more)) ∧
      Told n lead (pieces.flatMap (words isSpace))
  uncut : s'.cuts = s.cuts →
    ((⟨[], []⟩ : Reader).reads cfg.letters s.buffer).Like ⟨pieces, s'.buffer⟩

theorem complete_spec (cfg : Streaming) (s : Streamer) :
    Completed cfg s (cfg.complete s).1 (cfg.complete s).2 := by
  have hscan : ((⟨[], []⟩ : Reader).reads cfg.letters s.buffer).Like
      ⟨(scan cfg.letters false [] s.buffer).1, (scan cfg.letters false [] s.buffer).2⟩ :=
    Reader.scan_reads Reader.clear_nil
  have hwords : ∀ more, words isSpace (s.buffer ++ more) =
      (scan cfg.letters false [] s.buffer).1.flatMap (words isSpace) ++
        words isSpace ((scan cfg.letters false [] s.buffer).2 ++ more) := by
    intro more
    have h := Reader.words_reads cfg.letters [] [] s.buffer more
    rw [hscan.said, Reader.words_congr hscan.held] at h
    exact h
  have hrest : Completed cfg s { s with buffer := (scan cfg.letters false [] s.buffer).2 }
      (scan cfg.letters false [] s.buffer).1 :=
    ⟨rfl, rfl, ⟨0, _, le_refl _, hwords, .refl _⟩, fun _ => hscan⟩
  unfold complete
  generalize scan cfg.letters false [] s.buffer = next at hscan hwords hrest ⊢
  obtain ⟨sentences, rest⟩ := next
  simp only
  generalize (if s.spoken.emitted = 0 ∧ s.pending = [] then cfg.limits.firstChars
    else cfg.limits.chunkChars) = limit
  split_ifs with hlong
  · obtain ⟨rfl, -⟩ := hlong
    split
    · rename_i cut hcut
      obtain ⟨sep, space, hbreak, hbuffer⟩ := clauseCut_spec hcut
      obtain ⟨n, hn, htold⟩ := told_break (rest.take cut.1) hbreak
      refine ⟨rfl, rfl, ⟨n, words isSpace (rest.take cut.1 ++ sep), ?_, ?_, ?_⟩, ?_⟩
      · exact Nat.add_le_add_left hn s.cuts
      · intro more
        rw [hwords, List.flatMap_nil, List.nil_append]
        conv_lhs => rw [hbuffer, List.append_assoc, words_append hbreak.blank hbreak.ne_nil]
      · rw [List.flatMap_singleton, words_trim]
        exact htold
      · intro hcuts
        simp at hcuts
    · exact hrest
  · exact hrest

/-! ## A run -/

/-- The texts told so far have the words of what has arrived, but for those still in the buffer and
pending; `extra` and `back` are what the cap leaves unsaid. -/
def Tells (text : List Char) (s : Streamer) (told : List (List Char)) : Prop :=
  ∃ n lead extra back, n ≤ s.cuts ∧
    (∀ more, words isSpace (text ++ more) = lead ++ words isSpace (back ++ more)) ∧
    Told n lead ((told ++ extra).flatMap (words isSpace)) ∧
    (s.spoken.capped = false → extra = [s.pending] ∧ back = s.buffer)

/-- Without a clause cut they are joined from the sentences that have ended. -/
def Uncut (cfg : Streaming) (text : List Char) (s : Streamer) (told : List (List Char)) : Prop :=
  s.cuts = 0 → ∃ said held extra pending,
    ((⟨[], []⟩ : Reader).reads cfg.letters text).Like ⟨said, held⟩ ∧
    cfg.joins false [] said = (told ++ extra, pending) ∧
    (s.spoken.capped = false → extra = [] ∧ pending = s.pending ∧ held = s.buffer)

/-- What holds of a streamer that `text` has been fed to. -/
structure Going (cfg : Streaming) (text : List Char) (s : Streamer) (told : List (List Char)) :
    Prop where
  spoken : s.spoken = (cfg.speakAll {} told).1
  tells : Tells text s told
  uncut : Uncut cfg text s told

variable {text delta : List Char} {told : List (List Char)}

theorem going_start (cfg : Streaming) : Going cfg [] {} [] :=
  ⟨rfl, ⟨0, [], [[]], [], le_refl 0, fun _ => rfl, .refl [], fun _ => ⟨rfl, rfl⟩⟩,
    fun _ => ⟨[], [], [], [], .refl, rfl, fun _ => ⟨rfl, rfl, rfl⟩⟩⟩

theorem Going.unsaid (h : Going cfg text s told) (hcapped : s.spoken.capped = true) :
    Going cfg (text ++ delta) s told := by
  obtain ⟨hspoken, ⟨n, lead, extra, back, hn, hwords, htold, -⟩, huncut⟩ := h
  refine ⟨hspoken, ⟨n, lead, extra, back ++ delta, hn, ?_, htold, ?_⟩, ?_⟩
  · intro more
    rw [List.append_assoc, hwords, List.append_assoc]
  · intro hgoing
    rw [hcapped] at hgoing
    cases hgoing
  · intro hcuts
    obtain ⟨said, held, extra, pending, hlike, hjoins, -⟩ := huncut hcuts
    have hresume := Reader.reads_resume delta hlike
    generalize (⟨[], []⟩ : Reader).reads cfg.letters (held ++ delta) = next at hresume
    refine ⟨said ++ next.said, next.held, extra ++ (cfg.joins false pending next.said).1,
      (cfg.joins false pending next.said).2, hresume, ?_, ?_⟩
    · rw [joins_append, hjoins, List.append_assoc]
    · intro hgoing
      rw [hcapped] at hgoing
      cases hgoing

theorem Going.complete {s' : Streamer} (h : Going cfg text s told) (hgoing : s.spoken.capped = false)
    (hdone : Completed cfg { s with buffer := s.buffer ++ delta } s' pieces) :
    Going cfg (text ++ delta) (cfg.emit false s' pieces).1
      (told ++ (cfg.joins false s.pending pieces).1) := by
  obtain ⟨hspoken, ⟨n, lead, extra, back, hn, hwords, htold, hback⟩, huncut⟩ := h
  obtain ⟨rfl, rfl⟩ := hback hgoing
  obtain ⟨m, lead', hm, hwords', htold'⟩ := hdone.told
  rw [emit_eq, hdone.pending, hdone.spoken]
  refine ⟨?_, ⟨n + m, lead ++ lead', [(cfg.joins false s.pending pieces).2], s'.buffer, ?_, ?_, ?_, ?_⟩,
    ?_⟩
  · show (cfg.speakAll s.spoken _).1 = _
    rw [speakAll_append, hspoken]
  · exact (Nat.add_le_add_right hn m).trans hm
  · intro more
    rw [List.append_assoc, hwords, ← List.append_assoc s.buffer, hwords', List.append_assoc]
  · have happend := htold.append htold'
    rw [List.flatMap_append, List.flatMap_singleton, List.append_assoc,
      ← joins_words cfg false] at happend
    rw [List.flatMap_append, List.flatMap_append, List.flatMap_singleton, List.append_assoc]
    exact happend
  · exact fun _ => ⟨rfl, rfl⟩
  · intro hcuts
    have hcuts' : s'.cuts = 0 := hcuts
    have hzero : s.cuts = 0 := Nat.eq_zero_of_le_zero (hcuts' ▸ (Nat.le_add_right s.cuts m).trans hm)
    obtain ⟨said, held, extra, pending, hlike, hjoins, hheld⟩ := huncut hzero
    obtain ⟨rfl, rfl, rfl⟩ := hheld hgoing
    rw [List.append_nil] at hjoins
    have hpieces := hdone.uncut (hcuts'.trans hzero.symm)
    have hresume := Reader.reads_resume delta hlike
    refine ⟨said ++ pieces, s'.buffer, [], (cfg.joins false s.pending pieces).2, ?_, ?_, ?_⟩
    · refine hresume.trans ⟨?_, hpieces.held⟩
      exact congrArg (said ++ ·) hpieces.said
    · rw [joins_append, hjoins, List.append_nil]
    · exact fun _ => ⟨rfl, rfl, rfl⟩

theorem feed_going (delta : List Char) (h : Going cfg text s told) :
    ∃ texts, Going cfg (text ++ delta) (cfg.feed s delta).1 (told ++ texts) ∧
      (cfg.feed s delta).2 = (cfg.speakAll s.spoken texts).2 := by
  unfold feed
  split_ifs with hskip
  · refine ⟨[], ?_, rfl⟩
    rw [List.append_nil]
    by_cases hcapped : s.spoken.capped = true
    · exact h.unsaid hcapped
    · obtain rfl : delta = [] := hskip.resolve_left hcapped
      rwa [List.append_nil]
  · rw [not_or, Bool.not_eq_true] at hskip
    have hdone := complete_spec cfg { s with buffer := s.buffer ++ delta }
    refine ⟨_, h.complete hskip.1 hdone, ?_⟩
    simp only
    rw [emit_eq, hdone.pending, hdone.spoken]

theorem feeds_going (deltas : List (List Char)) (h : Going cfg text s told) :
    ∃ texts, Going cfg (text ++ deltas.flatten) (cfg.feeds s deltas).1 (told ++ texts) ∧
      (cfg.feeds s deltas).2 = (cfg.speakAll s.spoken texts).2 := by
  induction deltas generalizing text s told with
  | nil =>
    refine ⟨[], ?_, rfl⟩
    rw [List.flatten_nil, List.append_nil, List.append_nil]
    exact h
  | cons delta deltas ih =>
    obtain ⟨texts, hnext, hsaid⟩ := feed_going delta h
    obtain ⟨more, hrest, hmore⟩ := ih hnext
    refine ⟨texts ++ more, ?_, ?_⟩
    · rw [List.flatten_cons, ← List.append_assoc, ← List.append_assoc]
      exact hrest
    · rw [speakAll_append, feeds]
      simp only
      rw [hsaid, hmore, hnext.spoken, h.spoken, speakAll_append]

/-- The texts of a whole reply: they have its words, and are its sentences if no clause was cut. -/
def Whole (cfg : Streaming) (text : List Char) (cuts : Nat) (told : List (List Char)) : Prop :=
  (∃ n ≤ cuts, Told n (words isSpace text) (told.flatMap (words isSpace))) ∧
    (cuts = 0 → told = cfg.joined (splitSentences cfg.letters text))

theorem Going.capped_whole (h : Going cfg text s told) (hcapped : s.spoken.capped = true) :
    ∃ texts, Whole cfg text s.cuts (told ++ texts) := by
  obtain ⟨-, ⟨n, lead, extra, back, hn, hwords, htold, -⟩, huncut⟩ := h
  by_cases hcuts : s.cuts = 0
  · obtain ⟨said, held, extra', pending, hlike, hjoins, -⟩ := huncut hcuts
    have hjoined : ∃ texts, cfg.joined (splitSentences cfg.letters text) = told ++ texts := by
      rw [Reader.splitSentences_eq, hlike.said, Reader.nonblank_congr hlike.held, joined, joins_append,
        hjoins, List.append_assoc, List.append_assoc]
      exact ⟨_, rfl⟩
    obtain ⟨texts, htexts⟩ := hjoined
    refine ⟨texts, ⟨0, Nat.zero_le _, ?_⟩, fun _ => htexts.symm⟩
    rw [← htexts, joined_words, Reader.words_splitSentences]
    exact .refl _
  · refine ⟨extra ++ [back], ⟨n, hn, ?_⟩, fun hzero => absurd hzero hcuts⟩
    have hall := hwords []
    rw [List.append_nil, List.append_nil] at hall
    have happend := htold.append (Told.refl (words isSpace back))
    rw [hall, ← List.append_assoc, List.flatMap_append, List.flatMap_singleton]
    exact happend

theorem Going.flush_whole {s' : Streamer} (h : Going cfg text s told)
    (hgoing : s.spoken.capped = false) (hdone : Completed cfg s s' pieces) :
    Whole cfg text s'.cuts
      (told ++ (cfg.joins true s.pending (pieces ++ nonblank s'.buffer)).1) := by
  obtain ⟨-, ⟨n, lead, extra, back, hn, hwords, htold, hback⟩, huncut⟩ := h
  obtain ⟨rfl, rfl⟩ := hback hgoing
  obtain ⟨m, lead', hm, hwords', htold'⟩ := hdone.told
  constructor
  · refine ⟨n + m, (Nat.add_le_add_right hn m).trans hm, ?_⟩
    have hall : words isSpace text = lead ++ (lead' ++ words isSpace s'.buffer) := by
      have htext := hwords []
      have hbuffer := hwords' []
      rw [List.append_nil, List.append_nil] at htext hbuffer
      rw [htext, hbuffer]
    have hflush := joins_words cfg true s.pending (pieces ++ nonblank s'.buffer)
    rw [joins_final, words_nil, List.append_nil, List.flatMap_append, Reader.words_nonblank] at hflush
    have happend := htold.append (htold'.append (Told.refl (words isSpace s'.buffer)))
    rw [List.flatMap_append, List.flatMap_singleton, List.append_assoc] at happend
    rw [hall, List.flatMap_append, hflush]
    exact happend
  · intro hcuts
    have hzero : s.cuts = 0 := Nat.eq_zero_of_le_zero (hcuts ▸ (Nat.le_add_right s.cuts m).trans hm)
    obtain ⟨said, held, extra, pending, hlike, hjoins, hheld⟩ := huncut hzero
    obtain ⟨rfl, rfl, rfl⟩ := hheld hgoing
    rw [List.append_nil] at hjoins
    -- the last feed left no sentence that has ended in the buffer
    have hpieces := hdone.uncut (hcuts.trans hzero.symm)
    have hresume := Reader.reads_resume [] hlike
    rw [List.append_nil, List.append_nil] at hresume
    have hnil : pieces = [] := by
      have hsaid := hresume.said
      rw [hlike.said, hpieces.said] at hsaid
      exact List.self_eq_append_right.mp hsaid
    have hrest : nonblank s'.buffer = nonblank s.buffer := by
      refine Reader.nonblank_congr ?_
      have h := hresume.held
      rw [hlike.held] at h
      exact (h.trans hpieces.held).symm
    rw [hnil, List.nil_append, hrest, joins_flush, Reader.splitSentences_eq, hlike.said,
      Reader.nonblank_congr hlike.held, joined, joins_append, hjoins, List.append_assoc]

theorem flush_whole (h : Going cfg text s told) :
    ∃ texts, Whole cfg text (cfg.flush s).1.cuts (told ++ texts) ∧
      (cfg.flush s).2 = (cfg.speakAll s.spoken texts).2 := by
  unfold flush
  split_ifs with hcapped
  · obtain ⟨texts, hwhole⟩ := h.capped_whole hcapped
    refine ⟨texts, hwhole, ?_⟩
    rw [speakAll_capped hcapped]
  · rw [Bool.not_eq_true] at hcapped
    have hdone := complete_spec cfg s
    refine ⟨(cfg.joins true s.pending ((cfg.complete s).2 ++ nonblank (cfg.complete s).1.buffer)).1,
      ?_, ?_⟩
    · simp only
      rw [emit_eq]
      exact h.flush_whole hcapped hdone
    · simp only
      rw [emit_eq, hdone.pending, hdone.spoken]

/-! ## What is heard -/

/-- What is left of some texts once they are cleaned. -/
def cleaned (cfg : Streaming) (texts : List (List Char)) : List (List Char) :=
  (texts.map cfg.toSpeech).filter (· ≠ [])

def total (texts : List (List Char)) : Nat := (texts.map List.length).sum

/-- All of the texts are heard, or those before the one that goes beyond the cap, and the pointer to
the screen. -/
def Heard (cfg : Streaming) (told out : List (List Char)) : Prop :=
  out = cfg.cleaned told ∨ ∃ before next after, told = before ++ next :: after ∧
    out = cfg.cleaned before ++ [cfg.onScreen] ∧ cfg.cleaned before ≠ [] ∧ cfg.toSpeech next ≠ [] ∧
      cfg.limits.maxChars < total (cfg.cleaned before) + (cfg.toSpeech next).length

theorem cleaned_concat {t : List Char} :
    cfg.cleaned (texts ++ [t]) = cfg.cleaned texts ++ if cfg.toSpeech t = [] then [] else
    [cfg.toSpeech t] := by
  rw [cleaned, List.map_append, List.filter_append]
  refine congrArg _ ?_
  by_cases ht : cfg.toSpeech t = []
  · simp [ht]
  · simp [ht]

theorem speakAll_heard (before : List (List Char)) (spoken : Spoken) (hcapped : spoken.capped = false)
    (hchars : spoken.chars = total (cfg.cleaned before)) :
    Heard cfg (before ++ texts) (cfg.cleaned before ++ (cfg.speakAll spoken texts).2) := by
  induction texts generalizing before spoken with
  | nil =>
    left
    rw [speakAll, List.append_nil, List.append_nil]
  | cons t texts ih =>
    rw [speakAll]
    simp only
    unfold speak
    rw [if_neg (by simp [hcapped])]
    simp only
    split_ifs with hblank hlong
    · have hcount : spoken.chars = total (cfg.cleaned (before ++ [t])) := by
        rw [cleaned_concat, if_pos hblank, List.append_nil, hchars]
      have hnext := ih (before ++ [t]) spoken hcapped hcount
      rw [cleaned_concat, if_pos hblank, List.append_nil, List.append_assoc] at hnext
      exact hnext
    · rw [speakAll_capped rfl, List.append_nil]
      refine .inr ⟨before, t, texts, rfl, rfl, ?_, hblank, ?_⟩
      · intro hnil
        rw [hnil] at hchars
        exact hlong.1 hchars
      · rw [← hchars]
        exact hlong.2
    · have hcount : spoken.chars + (cfg.toSpeech t).length = total (cfg.cleaned (before ++ [t])) := by
        rw [cleaned_concat, if_neg hblank, total, List.map_append, List.sum_append, hchars]
        rfl
      have hnext := ih (before ++ [t]) { spoken with
        chars := spoken.chars + (cfg.toSpeech t).length, emitted := spoken.emitted + 1 } hcapped hcount
      rw [cleaned_concat, if_neg hblank, List.append_assoc, List.append_assoc] at hnext
      exact hnext

theorem joined_eq_self {sentences : List (List Char)}
    (hsentences : ∀ sentence ∈ sentences, Reader.IsSentence sentence)
    (hlong : ∀ sentence ∈ sentences.dropLast, cfg.limits.minChars ≤ sentence.length) :
    cfg.joined sentences = sentences := by
  induction sentences with
  | nil => rfl
  | cons sentence sentences ih =>
    obtain ⟨htrim, hne⟩ := hsentences sentence List.mem_cons_self
    have hself : trim isSpace ([] ++ ' ' :: sentence) = sentence := by
      have hblank : ∀ c ∈ [' '], isSpace c = true := by simp [isSpace_blank]
      exact (trim_append hblank).trans htrim
    have hjoin : cfg.limits.minChars ≤ sentence.length →
        cfg.joined (sentence :: sentences) = sentence :: cfg.joined sentences := by
      intro hsentence
      rw [joined, joins, joined]
      simp only [hself]
      rw [if_neg (by omega)]
      rfl
    cases sentences with
    | nil =>
      by_cases hsentence : cfg.limits.minChars ≤ sentence.length
      · rw [hjoin hsentence, ih (fun s hs => absurd hs List.not_mem_nil)
          (fun s hs => absurd hs List.not_mem_nil)]
      · rw [joined, joins]
        simp only [hself]
        rw [if_pos ⟨by omega, rfl⟩, joins]
        simp [hne]
    | cons next rest =>
      rw [List.dropLast_cons_cons] at hlong
      rw [hjoin (hlong sentence List.mem_cons_self),
        ih (fun s hs => hsentences s (List.mem_cons_of_mem sentence hs))
          (fun s hs => hlong s (List.mem_cons_of_mem sentence hs))]

/-- **The streamer says everything once.** However a text arrives, what is heard is the speaking of
texts that tell its words in order, each as it is or, at a clause cut, without its separator. If no
clause is cut they are the sentences of the whole text, those shorter than `min_chars` joined to the
next; and just its sentences if none but the last is short. -/
theorem streamer_tells (cfg : Streaming) (deltas : List (List Char)) :
    ∃ told, Heard cfg told (cfg.reply deltas).2 ∧
      (∃ n ≤ (cfg.reply deltas).1.cuts,
        Told n (words isSpace deltas.flatten) (told.flatMap (words isSpace))) ∧
      ((cfg.reply deltas).1.cuts = 0 →
        told = cfg.joined (splitSentences cfg.letters deltas.flatten) ∧
        ((∀ sentence ∈ (splitSentences cfg.letters deltas.flatten).dropLast,
            cfg.limits.minChars ≤ sentence.length) →
          told = splitSentences cfg.letters deltas.flatten)) := by
  obtain ⟨texts, hgoing, hout⟩ := feeds_going deltas (going_start cfg)
  obtain ⟨last, hwhole, hlast⟩ := flush_whole hgoing
  refine ⟨[] ++ texts ++ last, ?_, hwhole.1, fun hcuts => ⟨hwhole.2 hcuts, fun hlong => ?_⟩⟩
  · have hheard : Heard cfg ([] ++ (texts ++ last))
        (cfg.cleaned [] ++ (cfg.speakAll {} (texts ++ last)).2) :=
      speakAll_heard [] {} rfl rfl
    rw [← List.append_assoc] at hheard
    have hreply : (cfg.reply deltas).2 = (cfg.speakAll {} (texts ++ last)).2 := by
      rw [speakAll_append, reply]
      simp only
      rw [hout, hlast, hgoing.spoken]
      rfl
    rw [hreply]
    exact hheard
  · exact (hwhole.2 hcuts).trans (joined_eq_self Reader.splitSentences_sentences hlong)

def plain (limits : Limits) : Streaming where
  letters := { lower := List.map Char.toLower, isAlpha := Char.isAlpha }
  limits := limits
  toSpeech := id
  onScreen := "The rest is on your screen.".toList

def register : List Char := "I will open the register of this semester now.".toList

/-- A short sentence is spoken with the next one, and what goes beyond the cap is not spoken. -/
theorem streamer_joins_short :
    ((plain {}).reply ["Sure. ".toList ++ register]).1.cuts = 0 ∧
      ((plain {}).reply ["Sure. ".toList ++ register]).2 = ["Sure. ".toList ++ register] ∧
      splitSentences (plain {}).letters ("Sure. ".toList ++ register) = ["Sure.".toList, register] ∧
      ((plain { maxChars := 60 }).reply [register ++ ' ' :: register]).2 =
        [register, "The rest is on your screen.".toList] := by
  decide +kernel

end Streaming

end GuruJi.Voice
