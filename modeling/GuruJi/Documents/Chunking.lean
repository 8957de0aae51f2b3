import GuruJi.Voice.Sentences
import Mathlib.Data.List.Chain

/-!
# Chunks of a document

`chunk_texts`: the text of each page is cleaned, split at the ends of sentences and paragraphs, and put
together again in overlapping chunks.

* `cuts_spec`: a buffer that is too long is cut until it fits, and what its windows add is the buffer;
* **`chunkTexts_covers`**: no chunk is too long, and what the chunks of a page add to each other is all
  of its text but white space;
* **`chunkTexts_length_iff`**: there are no more chunks than allowed iff each piece that is read
  completes no more than there is room for.
-/

namespace GuruJi.Documents

open GuruJi.Lib
open GuruJi.Voice (isSpace)

/-! ## Cleaned text -/

/-- `ParsedText`, as far as chunks are made of it. -/
structure ParsedText where
  locator : String
  text : List Char
  page : Option Nat
  deriving DecidableEq

structure TextChunk where
  chunkIndex : Nat
  text : List Char
  pageNumber : Option Nat
  locator : String
  deriving DecidableEq

def TextChunk.content (chunk : TextChunk) : List Char × Option Nat × String :=
  (chunk.text, chunk.pageNumber, chunk.locator)

/-- The characters at which `str.splitlines` ends a line. -/
def isBreak (c : Char) : Bool :=
  let n := c.toNat
  (10 ≤ n && n ≤ 13) || (28 ≤ n && n ≤ 30) || n == 0x85 || n == 0x2028 || n == 0x2029

/-- `text.splitlines()`; `line` is the line so far. -/
def splitLines (line : List Char) : List Char → List (List Char)
  | [] => if line = [] then [] else [line]
  | '\r' :: '\n' :: text => line :: splitLines [] text
  | c :: text => if isBreak c then line :: splitLines [] text else splitLines (line ++ [c]) text

/-- A line is added to the cleaned ones, with one blank line between paragraphs. -/
def cleanLine (cleaned : List (List Char)) (line : List Char) : List (List Char) :=
  let collapsed := [' '].intercalate (words isSpace line)
  if collapsed ≠ [] then cleaned ++ [collapsed]
  else if cleaned.getLast?.any (· ≠ []) then cleaned ++ [[]]
  else cleaned

/-- `_clean`. -/
def clean (text : List Char) : List Char :=
  trim isSpace (['\n'].intercalate ((splitLines [] text).foldl cleanLine []))

/-! ## Pieces -/

/-- What is being read: a piece, or the white space after a sentence, or the newlines after a
paragraph. -/
inductive Reading where
  | piece (sentenceEnds : Bool)
  | afterSentence
  | afterParagraph
  deriving DecidableEq

/-- `_SENTENCE_BOUNDARY.split(text)`; `piece` is the piece so far. -/
def splitPieces (reading : Reading) (piece : List Char) : List Char → List (List Char)
  | [] => [piece]
  | c :: text =>
    if reading = .afterSentence ∧ isSpace c then splitPieces .afterSentence piece text
    else if reading = .afterParagraph ∧ c = '\n' then splitPieces .afterParagraph piece text
    else if reading = .piece true ∧ isSpace c then piece :: splitPieces .afterSentence [] text
    else if c = '\n' ∧ text.head? = some '\n' then piece :: splitPieces .afterParagraph [] text
    else splitPieces (.piece (c = '.' || c = '!' || c = '?')) (piece ++ [c]) text

def pieces (text : List Char) : List (List Char) :=
  (splitPieces (.piece false) [] text).filter fun piece => !piece.all isSpace

/-! ## Chunks -/

/-- The parameters that are accepted. -/
structure Chunking where
  chunkChars : Nat
  overlapChars : Nat
  overlaps : overlapChars < chunkChars

/-- The check of the parameters; `none` for the `ValueError`. -/
def chunking (chunkChars overlapChars : Int) : Option Chunking :=
  if h : chunkChars ≤ 0 ∨ overlapChars < 0 ∨ overlapChars ≥ chunkChars then none
  else some ⟨chunkChars.toNat, overlapChars.toNat, by omega⟩

section
variable (p : Chunking)

def Chunking.stride : Nat := p.chunkChars - p.overlapChars

/-- `while len(buffer) > chunk_chars`, as long as there is fuel: the windows, and the buffer that is
left. -/
def cuts : Nat → List Char → List (List Char) × List Char
  | 0, buffer => ([], buffer)
  | fuel + 1, buffer =>
    if p.chunkChars < buffer.length then
      let rest := cuts fuel (buffer.drop p.stride)
      (buffer.take p.chunkChars :: rest.1, rest.2)
    else ([], buffer)

def candidate (buffer piece : List Char) : List Char :=
  if buffer ≠ [] then trim isSpace (buffer ++ ' ' :: piece) else trim isSpace piece

/-- The end of a buffer that the next one begins with. -/
def tail (buffer : List Char) : List Char :=
  if p.overlapChars ≠ 0 then buffer.drop (buffer.length - p.overlapChars) else []

/-- A piece goes to the buffer if it fits, or if the buffer is short, as headings are. -/
def joins (buffer piece : List Char) : Bool :=
  (candidate buffer piece).length ≤ p.chunkChars || buffer.length < 80

def filled (buffer piece : List Char) : List Char :=
  if joins p buffer piece then candidate buffer piece
  else trim isSpace (tail p buffer ++ ' ' :: piece)

/-- The chunks that a piece completes, and the buffer that is left. -/
def addPiece (buffer piece : List Char) : List (List Char) × List Char :=
  let cut := cuts p (filled p buffer piece).length (filled p buffer piece)
  ((if joins p buffer piece then [] else [buffer]) ++ cut.1, cut.2)

/-- The chunks of texts, numbered from those before. -/
def numbered (count : Nat) (section_ : ParsedText) (texts : List (List Char)) : List TextChunk :=
  (texts.zipIdx count).map fun t => ⟨t.2, t.1, section_.page, section_.locator⟩

def addTexts (chunks : List TextChunk) (section_ : ParsedText) (texts : List (List Char)) :
    List TextChunk :=
  chunks ++ numbered chunks.length section_ texts

variable (maxChunks : Int)

/-- The pieces of a page; `none` for the buffer where the limit is reached. -/
def addPieces (section_ : ParsedText) (chunks : List TextChunk) (buffer : List Char) :
    List (List Char) → List TextChunk × Option (List Char)
  | [] => (chunks, some buffer)
  | piece :: rest =>
    let added := addPiece p buffer piece
    let next := addTexts chunks section_ added.1
    if (next.length : Int) ≥ maxChunks then (next, none)
    else addPieces section_ next added.2 rest

def addSection (chunks : List TextChunk) (section_ : ParsedText) : List TextChunk × Bool :=
  let text := clean section_.text
  if text = [] then (chunks, false)
  else
    match addPieces p maxChunks section_ chunks [] (pieces text) with
    | (chunks, none) => (chunks, true)
    | (chunks, some buffer) =>
      let chunks := addTexts chunks section_ (if buffer = [] then [] else [buffer])
      (chunks, (chunks.length : Int) ≥ maxChunks)

/-- The loop of `chunk_texts`. -/
def addSections (chunks : List TextChunk) : List ParsedText → List TextChunk
  | [] => chunks
  | section_ :: sections =>
    let added := addSection p maxChunks chunks section_
    if added.2 then added.1 else addSections added.1 sections

end

/-- `chunk_texts`. -/
def chunkTexts (sections : List ParsedText) (chunkChars overlapChars maxChunks : Int) :
    Option (List TextChunk) :=
  (chunking chunkChars overlapChars).map fun p => addSections p maxChunks [] sections

/-! ## Ink -/

def ink (text : List Char) : List Char := text.filter fun c => !isSpace c

@[simp] theorem ink_nil : ink [] = [] := List.filter_nil

@[simp] theorem ink_append (a b : List Char) : ink (a ++ b) = ink a ++ ink b := List.filter_append a b

theorem ink_eq_nil_iff {text : List Char} : ink text = [] ↔ text.all isSpace = true := by
  simp [ink, List.filter_eq_nil_iff, List.all_eq_true]

theorem ink_cons_space {c : Char} (hc : isSpace c = true) (text : List Char) : ink (c :: text) =
    ink text := by
  simp [ink, hc]

theorem ink_trim (text : List Char) : ink (trim isSpace text) = ink text := by
  have hleft : ink (text.dropWhile isSpace) = ink text := by
    conv_rhs => rw [← List.takeWhile_append_dropWhile (p := isSpace) (l := text)]
    rw [ink_append, ink_eq_nil_iff.mpr (List.all_eq_true.mpr fun c hc => List.mem_takeWhile_imp hc),
      List.nil_append]
  have hright : ink ((text.dropWhile isSpace).rdropWhile isSpace) = ink (text.dropWhile isSpace) := by
    conv_rhs => rw [← List.rdropWhile_append_rtakeWhile (p := isSpace) (l := text.dropWhile isSpace)]
    rw [ink_append, ink_eq_nil_iff.mpr (List.all_eq_true.mpr fun c hc => List.mem_rtakeWhile_imp hc),
      List.append_nil]
  rw [trim, hright, hleft]

theorem ink_splitPieces (reading : Reading) (piece text : List Char) :
    ink (splitPieces reading piece text).flatten = ink piece ++ ink text := by
  induction text generalizing reading piece with
  | nil => simp [splitPieces]
  | cons c text ih =>
    unfold splitPieces
    split_ifs with hsentence hparagraph hend hbreak
    · rw [ih, ink_cons_space hsentence.2]
    · rw [ih, ink_cons_space (by rw [hparagraph.2]; rfl)]
    · rw [List.flatten_cons, ink_append, ih, ink_cons_space hend.2, ink_nil, List.nil_append]
    · rw [List.flatten_cons, ink_append, ih, ink_cons_space (by rw [hbreak.1]; rfl), ink_nil,
        List.nil_append]
    · rw [ih, ink_append, List.append_assoc, ← ink_append, List.singleton_append]

theorem ink_filter_blank (texts : List (List Char)) :
    ink (texts.filter fun text => !text.all isSpace).flatten = ink texts.flatten := by
  induction texts with
  | nil => rfl
  | cons text texts ih =>
    rw [List.flatten_cons, ink_append, ← ih]
    by_cases hblank : text.all isSpace = true
    · rw [List.filter_cons_of_neg (by simp [hblank]), ink_eq_nil_iff.mpr hblank, List.nil_append]
    · rw [List.filter_cons_of_pos (by simp [hblank]), List.flatten_cons, ink_append]

theorem ink_pieces (text : List Char) : ink (pieces text).flatten = ink text := by
  rw [pieces, ink_filter_blank, ink_splitPieces, ink_nil, List.nil_append]

variable {piece : List Char} {buffer : List Char}

theorem ink_of_mem_pieces (text : List Char) (h : piece ∈ pieces text) : ink piece ≠ [] := by
  have hblank := (List.mem_filter.mp h).2
  rw [Bool.not_eq_true'] at hblank
  rw [ne_eq, ink_eq_nil_iff, hblank]
  exact Bool.false_ne_true

/-- Stripping a text with ink in its second part takes nothing off the end of the first. -/
theorem trim_append_ink (a : List Char) {b : List Char} (hb : ink b ≠ []) :
    ∃ a' b', trim isSpace (a ++ b) = a' ++ b' ∧ a' <:+ a ∧ ink b' = ink b := by
  by_cases ha : a.all isSpace = true
  · refine ⟨[], trim isSpace b, ?_, List.nil_suffix, ink_trim b⟩
    rw [trim_append (List.all_eq_true.mp ha), List.nil_append]
  · have hdrop : a.dropWhile isSpace ≠ [] := by
      rw [ne_eq, List.dropWhile_eq_nil_iff, ← List.all_eq_true]
      exact ha
    refine ⟨a.dropWhile isSpace, b.rdropWhile isSpace, ?_, List.dropWhile_suffix isSpace, ?_⟩
    · have hreverse : b.reverse.dropWhile isSpace ≠ [] := by
        rw [ne_eq, List.dropWhile_eq_nil_iff]
        intro hall
        exact hb (ink_eq_nil_iff.mpr (List.all_eq_true.mpr fun c hc => hall c (List.mem_reverse.mpr hc)))
      rw [trim, List.dropWhile_append, if_neg (by simpa using hdrop), List.rdropWhile,
        List.reverse_append,
        List.dropWhile_append, if_neg (by simpa using hreverse), List.reverse_append,
        List.reverse_reverse, List.rdropWhile]
    · conv_rhs => rw [← List.rdropWhile_append_rtakeWhile (p := isSpace) (l := b)]
      rw [ink_append, ink_eq_nil_iff.mpr (List.all_eq_true.mpr fun c hc => List.mem_rtakeWhile_imp hc),
        List.append_nil]

/-! ## Parts -/

/-- A chunk's text: the end of the one before, and what it adds. -/
structure Part where
  overlap : List Char
  rest : List Char

namespace Part

def text (part : Part) : List Char := part.overlap ++ part.rest

def added (parts : List Part) : List Char := (parts.map rest).flatten

@[simp] theorem added_append (a b : List Part) : added (a ++ b) = added a ++ added b := by
  simp [added]

@[simp] theorem added_singleton (part : Part) : added [part] = part.rest := by
  simp [added]

end Part

/-- A part begins with an end of the one before it that is no longer than the overlap. -/
def Follows (p : Chunking) (before part : Part) : Prop :=
  part.overlap <:+ before.text ∧ part.overlap.length ≤ p.overlapChars

def Parts (p : Chunking) (parts : List Part) : Prop :=
  (∀ part ∈ parts.head?, part.overlap = []) ∧ parts.IsChain (Follows p)

/-- Parts of a page that are all of its text, white space aside. -/
def Covers (p : Chunking) (section_ : ParsedText) (parts : List Part) : Prop :=
  Parts p parts ∧ ink (Part.added parts) = ink (clean section_.text)

/-- The contents of the chunks of pages that have these parts. -/
def chunkedPages (sections : List ParsedText) (pages : List (List Part)) :
    List (List Char × Option Nat × String) :=
  (List.zipWith (fun section_ parts => parts.map fun part =>
    (part.text, section_.page, section_.locator)) sections pages).flatten

variable {p : Chunking} {parts : List Part} {last : Part}

theorem parts_concat : Parts p (parts ++ [last]) ↔
    Parts p parts ∧ (parts = [] → last.overlap = []) ∧ ∀ before ∈ parts.getLast?,
    Follows p before last := by
  have hchain : (parts ++ [last]).IsChain (Follows p) ↔
      parts.IsChain (Follows p) ∧ ∀ before ∈ parts.getLast?, Follows p before last := by
    rw [List.isChain_append]
    simp
  rw [Parts, Parts, hchain]
  cases parts with
  | nil => simp
  | cons first parts =>
    simp only [List.cons_append, List.head?_cons, reduceCtorEq, false_imp_iff, true_and]
    exact and_assoc.symm

theorem Parts.shorten (part : Part) (h : Parts p (parts ++ [last]))
    (hoverlap : part.overlap <:+ last.overlap) : Parts p (parts ++ [part]) := by
  rw [parts_concat] at h ⊢
  refine ⟨h.1, fun hnil => ?_, fun before hbefore => ?_⟩
  · rw [h.2.1 hnil, List.suffix_nil] at hoverlap
    exact hoverlap
  · obtain ⟨hsuffix, hlength⟩ := h.2.2 before hbefore
    exact ⟨hoverlap.trans hsuffix, hoverlap.length_le.trans hlength⟩

theorem Parts.push {part : Part} (h : Parts p (parts ++ [last])) (hfollows : Follows p last part) :
    Parts p (parts ++ [last] ++ [part]) := by
  refine parts_concat.mpr ⟨h, fun hnil => ?_, fun before hbefore => ?_⟩
  · exact absurd hnil (List.append_ne_nil_of_right_ne_nil parts (List.cons_ne_nil last []))
  · rw [List.getLast?_concat, Option.mem_some_iff] at hbefore
    rwa [← hbefore]

theorem Parts.overlap_le (h : Parts p (parts ++ [last])) : last.overlap.length ≤ p.overlapChars := by
  obtain ⟨-, hfirst, hfollows⟩ := parts_concat.mp h
  rcases List.eq_nil_or_concat' parts with rfl | ⟨before, part, rfl⟩
  · rw [hfirst rfl]
    exact Nat.zero_le p.overlapChars
  · exact (hfollows part (by rw [List.getLast?_concat]; rfl)).2

/-! ## Cut buffers -/

theorem Chunking.stride_pos (p : Chunking) : 0 < p.stride := Nat.sub_pos_of_lt p.overlaps

theorem Chunking.stride_le (p : Chunking) : p.stride ≤ p.chunkChars :=
    Nat.sub_le p.chunkChars p.overlapChars

theorem Chunking.stride_add (p : Chunking) : p.stride + p.overlapChars = p.chunkChars :=
  Nat.sub_add_cancel p.overlaps.le

/-- One cut: the window is a part, and the buffer that is left is one that follows it. -/
theorem cut_once (h : Parts p (parts ++ [last])) (hlong : p.chunkChars < last.text.length) :
    ∃ window next : Part, window.text = last.text.take p.chunkChars ∧
      next.text = last.text.drop p.stride ∧
      Parts p (parts ++ [window] ++ [next]) ∧ window.rest ++ next.rest = last.rest := by
  have hoverlap : last.overlap.length ≤ p.chunkChars := h.overlap_le.trans p.overlaps.le
  refine ⟨⟨last.overlap, last.rest.take (p.chunkChars - last.overlap.length)⟩,
    ⟨(last.text.take p.chunkChars).drop p.stride, last.text.drop p.chunkChars⟩, ?_, ?_, ?_, ?_⟩
  · show last.overlap ++ last.rest.take (p.chunkChars - last.overlap.length) =
      last.text.take p.chunkChars
    rw [Part.text, List.take_append, List.take_of_length_le hoverlap]
  · show (last.text.take p.chunkChars).drop p.stride ++ last.text.drop p.chunkChars =
      last.text.drop p.stride
    conv_rhs => rw [← List.take_append_drop p.chunkChars last.text]
    rw [List.drop_append_of_le_length (by rw [List.length_take]; have := p.stride_le; omega)]
  · refine (h.shorten ⟨last.overlap, last.rest.take (p.chunkChars - last.overlap.length)⟩
      List.suffix_rfl).push ⟨?_, ?_⟩
    · show (last.text.take p.chunkChars).drop p.stride <:+
        last.overlap ++ last.rest.take (p.chunkChars - last.overlap.length)
      rw [Part.text, List.take_append, List.take_of_length_le hoverlap]
      exact List.drop_suffix p.stride _
    · show ((last.text.take p.chunkChars).drop p.stride).length ≤ p.overlapChars
      rw [List.length_drop, List.length_take]
      have := p.stride_add
      omega
  · show last.rest.take (p.chunkChars - last.overlap.length) ++ last.text.drop p.chunkChars = last.rest
    rw [Part.text, List.drop_append, List.drop_eq_nil_of_le hoverlap, List.nil_append,
      List.take_append_drop]

/-- The windows of a buffer and what is left of it. -/
theorem cuts_spec (fuel : Nat) (h : Parts p (parts ++ [last])) :
    ∃ (windows : List Part) (next : Part), windows.map Part.text = (cuts p fuel last.text).1 ∧
      next.text = (cuts p fuel last.text).2 ∧ Parts p (parts ++ windows ++ [next]) ∧
      Part.added windows ++ next.rest = last.rest := by
  induction fuel generalizing parts last with
  | zero => exact ⟨[], last, rfl, rfl, by rwa [List.append_nil], rfl⟩
  | succ fuel ih =>
    unfold cuts
    split_ifs with hlong
    · obtain ⟨window, cut, hwindow, hcut, hparts, hrest⟩ := cut_once h hlong
      obtain ⟨windows, next, hwindows, hnext, hparts', hrest'⟩ := ih hparts
      rw [hcut] at hwindows hnext
      refine ⟨window :: windows, next, ?_, hnext, ?_, ?_⟩
      · rw [List.map_cons, hwindow, hwindows]
      · rwa [List.append_assoc parts, List.singleton_append] at hparts'
      · rw [← List.singleton_append, Part.added_append, Part.added_singleton, List.append_assoc, hrest',
          hrest]
    · exact ⟨[], last, rfl, rfl, by rwa [List.append_nil], rfl⟩

theorem length_cuts_le {fuel : Nat} (hfuel : buffer.length ≤ fuel) :
    (cuts p fuel buffer).2.length ≤ p.chunkChars := by
  induction fuel generalizing buffer with
  | zero =>
    show buffer.length ≤ p.chunkChars
    omega
  | succ fuel ih =>
    unfold cuts
    split_ifs with hlong
    · refine ih ?_
      rw [List.length_drop]
      have := p.stride_pos
      omega
    · exact Nat.not_lt.mp hlong

theorem length_of_mem_cuts {fuel : Nat} {buffer window : List Char}
    (h : window ∈ (cuts p fuel buffer).1) : window.length ≤ p.chunkChars := by
  induction fuel generalizing buffer with
  | zero => exact absurd h List.not_mem_nil
  | succ fuel ih =>
    unfold cuts at h
    split_ifs at h
    · rcases List.mem_cons.mp h with rfl | h
      · exact List.length_take_le p.chunkChars buffer
      · exact ih h
    · exact absurd h List.not_mem_nil

theorem cuts_of_short (fuel : Nat) (h : ¬p.chunkChars < buffer.length) :
    cuts p fuel buffer = ([], buffer) := by
  cases fuel with
  | zero => rfl
  | succ fuel => rw [cuts, if_neg h]

theorem cuts_congr {fuel fuel' : Nat} (hfuel : buffer.length ≤ fuel)
    (hfuel' : buffer.length ≤ fuel') : cuts p fuel buffer = cuts p fuel' buffer := by
  induction fuel generalizing fuel' buffer with
  | zero =>
    have hn : ¬p.chunkChars < buffer.length := by omega
    rw [cuts_of_short 0 hn, cuts_of_short fuel' hn]
  | succ fuel ih =>
    by_cases hlong : p.chunkChars < buffer.length
    · obtain ⟨fuel', rfl⟩ : ∃ n, fuel' = n + 1 := ⟨fuel' - 1, by omega⟩
      have hdrop : (buffer.drop p.stride).length + 1 ≤ buffer.length := by
        rw [List.length_drop]
        have := p.stride_pos
        omega
      have hrest : cuts p fuel (buffer.drop p.stride) = cuts p fuel' (buffer.drop p.stride) :=
        ih (by omega) (by omega)
      simp only [cuts, if_pos hlong, hrest]
    · rw [cuts_of_short (fuel + 1) hlong, cuts_of_short fuel' hlong]

/-! ## Buffers -/

theorem candidate_eq (buffer piece : List Char) : candidate buffer piece =
    trim isSpace (buffer ++ ' ' :: piece) := by
  unfold candidate
  split_ifs with hbuffer
  · rfl
  · rw [not_not.mp hbuffer, List.nil_append, ← List.singleton_append, trim_append]
    intro c hc
    rw [List.mem_singleton.mp hc]
    rfl

theorem tail_spec (p : Chunking) (buffer : List Char) :
    tail p buffer <:+ buffer ∧ (tail p buffer).length ≤ p.overlapChars := by
  unfold tail
  split_ifs
  · refine ⟨List.drop_suffix _ buffer, ?_⟩
    rw [List.length_drop]
    omega
  · exact ⟨List.nil_suffix, Nat.zero_le p.overlapChars⟩

/-- A piece after the last part, before it is cut: it lengthens the part, or begins another one. -/
theorem filled_spec (h : Parts p (parts ++ [last])) (hpiece : ink piece ≠ []) :
    ∃ (done : List Part) (next : Part),
      done.map Part.text = (if joins p last.text piece then [] else [last.text]) ∧
      next.text = filled p last.text piece ∧ Parts p (parts ++ done ++ [next]) ∧
      ink (Part.added done ++ next.rest) = ink last.rest ++ ink piece := by
  have hspace : ink (' ' :: piece) = ink piece := ink_cons_space rfl piece
  unfold filled
  split_ifs with hjoins
  · obtain ⟨overlap, rest, htext, hoverlap, hrest⟩ :=
      trim_append_ink last.overlap (b := last.rest ++ ' ' :: piece)
      (by rw [ink_append, hspace]; exact List.append_ne_nil_of_right_ne_nil _ hpiece)
    refine ⟨[], ⟨overlap, rest⟩, rfl, ?_, ?_, ?_⟩
    · rw [candidate_eq, Part.text, Part.text, List.append_assoc, htext]
    · rw [List.append_nil]
      exact h.shorten ⟨overlap, rest⟩ hoverlap
    · show ink rest = ink last.rest ++ ink piece
      rw [hrest, ink_append, hspace]
  · obtain ⟨overlap, rest, htext, hoverlap, hrest⟩ :=
      trim_append_ink (tail p last.text) (b := ' ' :: piece)
      (by rwa [hspace])
    obtain ⟨hsuffix, hlength⟩ := tail_spec p last.text
    refine ⟨[last], ⟨overlap, rest⟩, rfl, htext.symm, ?_, ?_⟩
    · exact h.push ⟨hoverlap.trans hsuffix, hoverlap.length_le.trans hlength⟩
    · rw [Part.added_singleton, ink_append, hrest, hspace]

theorem addPiece_spec (h : Parts p (parts ++ [last])) (hpiece : ink piece ≠ []) :
    ∃ (done : List Part) (next : Part), done.map Part.text = (addPiece p last.text piece).1 ∧
      next.text = (addPiece p last.text piece).2 ∧ Parts p (parts ++ done ++ [next]) ∧
      ink (Part.added done ++ next.rest) = ink last.rest ++ ink piece := by
  obtain ⟨flushed, full, hflushed, hfull, hparts, hink⟩ := filled_spec h hpiece
  obtain ⟨windows, next, hwindows, hnext, hparts', hrest⟩ :=
    cuts_spec (filled p last.text piece).length hparts
  rw [hfull] at hwindows hnext
  refine ⟨flushed ++ windows, next, ?_, hnext, ?_, ?_⟩
  · rw [List.map_append, hflushed, hwindows, addPiece]
  · rwa [List.append_assoc parts] at hparts'
  · rw [Part.added_append, List.append_assoc, hrest, hink]

theorem length_addPiece_le (p : Chunking) (buffer piece : List Char) :
    (addPiece p buffer piece).2.length ≤ p.chunkChars :=
  length_cuts_le le_rfl

theorem length_of_mem_addPiece {buffer piece text : List Char} (hbuffer : buffer.length ≤ p.chunkChars)
    (h : text ∈ (addPiece p buffer piece).1) : text.length ≤ p.chunkChars := by
  rcases List.mem_append.mp h with h | h
  · split_ifs at h
    · exact absurd h List.not_mem_nil
    · rwa [List.mem_singleton.mp h]
  · exact length_of_mem_cuts h

/-! ## Pages -/

theorem addTexts_addTexts (chunks : List TextChunk) (section_ : ParsedText) (a b : List (List Char)) :
    addTexts (addTexts chunks section_ a) section_ b = addTexts chunks section_ (a ++ b) := by
  simp [addTexts, numbered, List.zipIdx_append]

@[simp] theorem addTexts_nil (chunks : List TextChunk) (section_ : ParsedText) : addTexts chunks section_
    [] = chunks := by
  simp [addTexts, numbered]

@[simp] theorem length_addTexts (chunks : List TextChunk) (section_ : ParsedText)
    (texts : List (List Char)) :
    (addTexts chunks section_ texts).length = chunks.length + texts.length := by
  simp [addTexts, numbered]

variable {maxChunks : Int} {section_ : ParsedText} {chunks : List TextChunk}

variable (maxChunks section_ chunks) in
/-- The pieces of a page after the last part: what is completed is short, and if the limit is not reached
it is all of them. -/
theorem addPieces_spec {texts : List (List Char)} (h : Parts p (parts ++ [last]))
    (hlast : last.text.length ≤ p.chunkChars) (htexts : ∀ piece ∈ texts, ink piece ≠ []) :
    ∃ done : List (List Char),
      (addPieces p maxChunks section_ chunks last.text texts).1 = addTexts chunks section_ done ∧
      (∀ text ∈ done, text.length ≤ p.chunkChars) ∧
      ((addPieces p maxChunks section_ chunks last.text texts).2 = none →
        maxChunks ≤ (addPieces p maxChunks section_ chunks last.text texts).1.length) ∧
      ∀ buffer, (addPieces p maxChunks section_ chunks last.text texts).2 = some buffer →
        ∃ (more : List Part) (next : Part), more.map Part.text = done ∧ next.text = buffer ∧
          buffer.length ≤ p.chunkChars ∧ Parts p (parts ++ more ++ [next]) ∧
          ink (Part.added more ++ next.rest) = ink last.rest ++ ink texts.flatten := by
  induction texts generalizing parts last chunks with
  | nil =>
    refine ⟨[], (addTexts_nil chunks section_).symm, by simp, fun h => absurd h (by simp [addPieces]),
      ?_⟩
    intro buffer hbuffer
    rw [← Option.some.inj hbuffer]
    refine ⟨[], last, rfl, rfl, hlast, by rwa [List.append_nil], ?_⟩
    show ink last.rest = ink last.rest ++ []
    rw [List.append_nil]
  | cons piece texts ih =>
    obtain ⟨done, next, hdone, hnext, hparts, hink⟩ := addPiece_spec h (htexts piece List.mem_cons_self)
    have hshort : ∀ text ∈ (addPiece p last.text piece).1, text.length ≤ p.chunkChars :=
      fun text => length_of_mem_addPiece hlast
    unfold addPieces
    by_cases hlimit : ((addTexts chunks section_ (addPiece p last.text piece).1).length : Int) ≥
        maxChunks
    · rw [if_pos hlimit]
      exact ⟨_, rfl, hshort, fun _ => hlimit, fun buffer h => by cases h⟩
    · have hfits : next.text.length ≤ p.chunkChars := by
        rw [hnext]
        exact length_addPiece_le p last.text piece
      obtain ⟨done', hchunks, hshort', hstop, hall⟩ :=
        ih (addTexts chunks section_ (addPiece p last.text piece).1) hparts hfits fun text ht =>
          htexts text (List.mem_cons_of_mem piece ht)
      rw [hnext] at hchunks hstop hall
      rw [if_neg hlimit]
      refine ⟨(addPiece p last.text piece).1 ++ done', ?_, ?_, hstop, ?_⟩
      · rw [hchunks, addTexts_addTexts]
      · intro text ht
        exact (List.mem_append.mp ht).elim (hshort text) (hshort' text)
      · intro buffer hbuffer
        obtain ⟨more, final, hmore, hfinal, hlength, hparts', hink'⟩ := hall buffer hbuffer
        refine ⟨done ++ more, final, ?_, hfinal, hlength, ?_, ?_⟩
        · rw [List.map_append, hdone, hmore]
        · rwa [List.append_assoc parts] at hparts'
        · rw [Part.added_append, List.append_assoc, ink_append, hink', ← List.append_assoc, ← ink_append,
            hink, List.flatten_cons, ink_append, List.append_assoc]

/-- The chunks of a page: they are short, and if the limit is not reached they are all of its text. -/
theorem addSection_spec (p : Chunking) (maxChunks : Int) (chunks : List TextChunk)
    (section_ : ParsedText) :
    ∃ texts : List (List Char), (addSection p maxChunks chunks section_).1 =
      addTexts chunks section_ texts ∧ (∀ text ∈ texts, text.length ≤ p.chunkChars) ∧
      ((addSection p maxChunks chunks section_).2 = true →
        maxChunks ≤ (addSection p maxChunks chunks section_).1.length) ∧
      (((addSection p maxChunks chunks section_).1.length : Int) < maxChunks →
        ∃ parts, parts.map Part.text = texts ∧ Covers p section_ parts) := by
  have hstart : Parts p ([] ++ [⟨[], []⟩]) :=
    ⟨fun part hpart => by rw [← Option.some.inj hpart], by simp⟩
  obtain ⟨done, hchunks, hshort, hstop, hall⟩ :=
    addPieces_spec maxChunks section_ chunks hstart (Nat.zero_le p.chunkChars) fun piece =>
      ink_of_mem_pieces (clean section_.text)
  rw [show Part.text ⟨[], []⟩ = [] from rfl] at hchunks hstop hall
  unfold addSection
  by_cases htext : clean section_.text = []
  · refine ⟨[], ?_, by simp, ?_, fun _ =>
      ⟨[], rfl, ⟨by simp, List.isChain_nil⟩, ?_⟩⟩
    · simp [htext]
    · simp [htext]
    · rw [htext]
      rfl
  · simp only [htext, if_false]
    rcases hpieces : addPieces p maxChunks section_ chunks [] (pieces (clean section_.text)) with
      ⟨after, _ | buffer⟩
    · rw [hpieces] at hchunks hstop
      exact ⟨done, hchunks, hshort, fun _ => hstop rfl, fun hlt =>
        absurd (hstop rfl) (Int.not_le.mpr hlt)⟩
    · rw [hpieces] at hchunks hall
      obtain ⟨more, next, hmore, hnext, hlength, hparts, hink⟩ := hall buffer rfl
      rw [List.nil_append] at hparts
      rw [ink_pieces] at hink
      refine ⟨done ++ if buffer = [] then [] else [buffer], ?_, ?_, of_decide_eq_true, fun _ => ?_⟩
      · show addTexts after section_ _ = addTexts chunks section_ _
        rw [← addTexts_addTexts, ← hchunks]
      · intro text ht
        rcases List.mem_append.mp ht with ht | ht
        · exact hshort text ht
        · split_ifs at ht
          · exact absurd ht List.not_mem_nil
          · rwa [List.mem_singleton.mp ht]
      · by_cases hnil : buffer = []
        · rw [if_pos hnil]
          have hrest : next.rest = [] := by
            rw [hnil] at hnext
            exact (List.append_eq_nil_iff.mp hnext).2
          rw [hrest, List.append_nil] at hink
          exact ⟨more, by rw [hmore, List.append_nil], (parts_concat.mp hparts).1, hink⟩
        · rw [if_neg hnil]
          exact ⟨more ++ [next], by simp [hmore, hnext],
            hparts, by rw [Part.added_append, Part.added_singleton, hink]; rfl⟩

/-! ## Documents -/

theorem map_numbered (count : Nat) (section_ : ParsedText) (texts : List (List Char)) :
    (numbered count section_ texts).map TextChunk.chunkIndex = List.range' count texts.length ∧
      (numbered count section_ texts).map TextChunk.content =
        texts.map fun text => (text, section_.page, section_.locator) := by
  constructor
  · rw [numbered, List.map_map]
    exact List.zipIdx_map_snd count texts
  · rw [numbered, List.map_map]
    conv_rhs => rw [← List.zipIdx_map_fst count texts, List.map_map]
    rfl

/-- The pages from one on: their chunks are numbered from those before, they are short, and if the limit
is not reached they are all of the pages' text. -/
theorem addSections_spec (p : Chunking) (maxChunks : Int) (chunks : List TextChunk)
    (sections : List ParsedText) :
    ∃ more : List TextChunk, addSections p maxChunks chunks sections = chunks ++ more ∧
      more.map TextChunk.chunkIndex = List.range' chunks.length more.length ∧
      (∀ chunk ∈ more, chunk.text.length ≤ p.chunkChars) ∧
      (((addSections p maxChunks chunks sections).length : Int) < maxChunks →
        ∃ pages : List (List Part), List.Forall₂ (Covers p) sections pages ∧
          more.map TextChunk.content = chunkedPages sections pages) := by
  induction sections generalizing chunks with
  | nil => exact ⟨[], by simp [addSections], rfl, by simp, fun _ => ⟨[], .nil, rfl⟩⟩
  | cons section_ sections ih =>
    obtain ⟨texts, hchunks, hshort, hstop, hall⟩ := addSection_spec p maxChunks chunks section_
    obtain ⟨hindex, htexts⟩ := map_numbered chunks.length section_ texts
    have hlength : (numbered chunks.length section_ texts).length = texts.length := by simp [numbered]
    have hshort' : ∀ chunk ∈ numbered chunks.length section_ texts, chunk.text.length ≤
      p.chunkChars := by
      intro chunk hchunk
      have hmem := List.mem_map_of_mem (f := TextChunk.content) hchunk
      rw [htexts, List.mem_map] at hmem
      obtain ⟨text, ht, heq⟩ := hmem
      rw [← (Prod.mk.inj heq).1]
      exact hshort text ht
    unfold addSections
    by_cases hlimit : (addSection p maxChunks chunks section_).2 = true
    · rw [if_pos hlimit]
      refine ⟨numbered chunks.length section_ texts, hchunks, by rw [hindex, hlength], hshort',
        fun hlt => ?_⟩
      exact absurd (hstop hlimit) (Int.not_le.mpr hlt)
    · rw [if_neg hlimit]
      obtain ⟨more, hmore, hindex', hshort'', hall'⟩ := ih (addSection p maxChunks chunks section_).1
      refine ⟨numbered chunks.length section_ texts ++ more, ?_, ?_, ?_, fun hlt => ?_⟩
      · rw [hmore, hchunks, addTexts, List.append_assoc]
      · rw [List.map_append, hindex, hindex', hchunks, length_addTexts, List.length_append, hlength,
          List.range'_append_1]
      · intro chunk hchunk
        exact (List.mem_append.mp hchunk).elim (hshort' chunk) (hshort'' chunk)
      · obtain ⟨pages, hpages, hflat⟩ := hall' hlt
        have hbefore : ((addSection p maxChunks chunks section_).1.length : Int) < maxChunks := by
          rw [hmore, List.length_append] at hlt
          omega
        obtain ⟨parts, hparts, hcovers⟩ := hall hbefore
        refine ⟨parts :: pages, .cons hcovers hpages, ?_⟩
        rw [List.map_append, htexts, hflat, ← hparts, List.map_map]
        rfl

/-- **What chunks cover.** The loop that cuts ends, the chunks are numbered from zero and none is too
long; if the limit is not reached, each page's chunks begin with an end of the one before, and what they
add is its text, white space aside. -/
theorem chunkTexts_covers {sections : List ParsedText} {chunkChars overlapChars maxChunks : Int}
    {chunks : List TextChunk} {p : Chunking} (hparameters : chunking chunkChars overlapChars = some p)
    (hchunks : chunkTexts sections chunkChars overlapChars maxChunks = some chunks) :
    (∀ (buffer : List Char) (fuel : Nat), buffer.length ≤ fuel →
        cuts p fuel buffer = cuts p buffer.length buffer ∧ (cuts p fuel buffer).2.length ≤
        p.chunkChars) ∧
      chunks.map TextChunk.chunkIndex = List.range chunks.length ∧
      (∀ chunk ∈ chunks, (chunk.text.length : Int) ≤ chunkChars) ∧
      ((chunks.length : Int) < maxChunks →
        ∃ pages : List (List Part), List.Forall₂ (Covers p) sections pages ∧
          chunks.map TextChunk.content = chunkedPages sections pages) := by
  have hsize : (p.chunkChars : Int) = chunkChars := by
    unfold chunking at hparameters
    split_ifs at hparameters with hrefused
    rw [← Option.some.inj hparameters]
    show (chunkChars.toNat : Int) = chunkChars
    omega
  rw [chunkTexts, hparameters, Option.map_some, Option.some.injEq] at hchunks
  obtain ⟨more, hmore, hindex, hshort, hall⟩ := addSections_spec p maxChunks [] sections
  rw [List.nil_append, hchunks] at hmore
  subst hmore
  rw [hchunks] at hall
  refine ⟨fun buffer fuel hfuel => ⟨cuts_congr hfuel le_rfl, length_cuts_le hfuel⟩, ?_, ?_, hall⟩
  · rw [hindex, List.range_eq_range', List.length_nil]
  · intro chunk hchunk
    rw [← hsize]
    exact_mod_cast hshort chunk hchunk

def paragraphs : ParsedText := ⟨"page 1", "A.\n\nB.".toList, some 1⟩

theorem chunkTexts_paragraphs : chunkTexts [paragraphs] 900 150 5000 =
    some [⟨0, "A. B.".toList, some 1, "page 1"⟩] := by
  decide

theorem chunkTexts_covers_paragraphs : ∃ p : Chunking, chunking 900 150 = some p ∧
    ∃ pages : List (List Part), List.Forall₂ (Covers p) [paragraphs] pages ∧
      [("A. B.".toList, some 1, "page 1")] = chunkedPages [paragraphs] pages :=
  ⟨⟨900, 150, by decide⟩, rfl, (chunkTexts_covers rfl chunkTexts_paragraphs).2.2.2 (by decide)⟩

/-- A chunk has a space where the text has the end of a paragraph. -/
theorem paragraph_joined : ∃ p : Chunking, chunking 900 150 = some p ∧
    ∃ chunks, chunkTexts [paragraphs] 900 150 5000 = some chunks ∧ (chunks.length : Int) < 5000 ∧
      ¬∃ pages : List (List Part), List.Forall₂ (fun section_ parts => Parts p parts ∧
          Part.added parts = clean section_.text) [paragraphs] pages ∧
        chunks.map TextChunk.content =
          chunkedPages [paragraphs] pages := by
  refine ⟨⟨900, 150, by decide⟩, rfl, _, chunkTexts_paragraphs, by decide, ?_⟩
  rintro ⟨pages, hpages, htexts⟩
  obtain ⟨parts, rest, ⟨hparts, hadded⟩, hnil, hpages⟩ := List.forall₂_cons_left_iff.mp hpages
  rw [hpages, List.forall₂_nil_left_iff.mp hnil] at htexts
  have hflat : [("A. B.".toList, some 1, "page 1")] =
      parts.map fun part => (part.text, paragraphs.page, paragraphs.locator) := by
    simpa [chunkedPages, TextChunk.content] using htexts
  obtain ⟨part, hpart, htext⟩ := List.map_eq_singleton_iff.mp hflat.symm
  rw [hpart, Part.added_singleton] at hadded
  rw [hpart] at hparts
  have htext' : part.text = "A. B.".toList := (Prod.mk.inj htext).1
  rw [Part.text, hparts.1 part rfl, List.nil_append, hadded] at htext'
  exact absurd htext' (by decide)

/-! ## The limit -/

section
variable (p : Chunking)

/-- How many windows are cut off a buffer of a length. -/
def windows (length : Nat) : Nat := (length - p.chunkChars + (p.stride - 1)) / p.stride

/-- How many chunks a piece completes: the buffer before it, if it does not join that, and
the windows. -/
def completes (buffer piece : List Char) : Nat :=
  (if joins p buffer piece then 0 else 1) + windows p (filled p buffer piece).length

/-- A turn of the loop over pieces, with the number of chunks before it. -/
structure Turn where
  count : Nat
  buffer : List Char
  piece : List Char

variable (maxChunks : Int)

def pieceTurns (section_ : ParsedText) (chunks : List TextChunk) (buffer : List Char) :
    List (List Char) → List Turn
  | [] => []
  | piece :: rest =>
    let added := addPiece p buffer piece
    let next := addTexts chunks section_ added.1
    ⟨chunks.length, buffer, piece⟩ ::
      if (next.length : Int) ≥ maxChunks then [] else pieceTurns section_ next added.2 rest

def turns (chunks : List TextChunk) : List ParsedText → List Turn
  | [] => []
  | section_ :: sections =>
    let added := addSection p maxChunks chunks section_
    pieceTurns p maxChunks section_ chunks [] (pieces (clean section_.text)) ++
      if added.2 then [] else turns added.1 sections

end

/-- There is room for the chunks that a turn completes. -/
def Turn.Fits (p : Chunking) (maxChunks : Int) (turn : Turn) : Prop :=
  (turn.count : Int) + completes p turn.buffer turn.piece ≤ maxChunks

theorem windows_of_le {n : Nat} (h : n ≤ p.chunkChars) : windows p n = 0 := by
  rw [windows, Nat.sub_eq_zero_of_le h, Nat.zero_add]
  exact Nat.div_eq_of_lt (Nat.sub_one_lt p.stride_pos.ne')

theorem windows_of_lt {n : Nat} (h : p.chunkChars < n) : windows p n = windows p (n - p.stride) + 1 := by
  have hstride := p.stride_pos
  by_cases hlast : n - p.stride ≤ p.chunkChars
  · rw [windows_of_le hlast, windows]
    refine Nat.div_eq_of_lt_le ?_ ?_ <;> omega
  · rw [windows, windows, ← Nat.add_div_right _ hstride]
    congr 1
    omega

theorem length_cuts {fuel : Nat} (hfuel : buffer.length ≤ fuel) :
    (cuts p fuel buffer).1.length = windows p buffer.length := by
  induction fuel generalizing buffer with
  | zero =>
    rw [windows_of_le (by omega)]
    rfl
  | succ fuel ih =>
    by_cases hlong : p.chunkChars < buffer.length
    · have hstride := p.stride_pos
      have hfuel' : (buffer.drop p.stride).length ≤ fuel := by
        rw [List.length_drop]
        omega
      have hrest := ih hfuel'
      rw [cuts, if_pos hlong, windows_of_lt hlong, List.length_cons, hrest, List.length_drop]
    · rw [cuts_of_short (fuel + 1) hlong, windows_of_le (Nat.not_lt.mp hlong)]
      rfl

theorem length_addPiece (p : Chunking) (buffer piece : List Char) :
    (addPiece p buffer piece).1.length = completes p buffer piece := by
  rw [addPiece, List.length_append, length_cuts le_rfl, completes]
  split_ifs <;> rfl

/-- The state before a page or a piece: the limit is not reached, or nothing is made. -/
def Below (maxChunks : Int) (chunks : List TextChunk) : Prop :=
  (chunks.length : Int) < maxChunks ∨ chunks.length = 0 ∧ maxChunks = 0

theorem Below.le (h : Below maxChunks chunks) : (chunks.length : Int) ≤ maxChunks := by
  unfold Below at h
  omega

variable (p section_) in
theorem length_addPieces_iff (buffer : List Char) (texts : List (List Char))
    (h : Below maxChunks chunks) :
    ((addPieces p maxChunks section_ chunks buffer texts).1.length : Int) ≤ maxChunks ↔
      ∀ turn ∈ pieceTurns p maxChunks section_ chunks buffer texts, turn.Fits p maxChunks := by
  induction texts generalizing chunks buffer with
  | nil => exact iff_of_true h.le fun turn hturn => absurd hturn List.not_mem_nil
  | cons piece texts ih =>
    have hcount : ((addTexts chunks section_ (addPiece p buffer piece).1).length : Int) =
        chunks.length + completes p buffer piece := by
      rw [length_addTexts, length_addPiece, Int.natCast_add]
    simp only [addPieces, pieceTurns, List.forall_mem_cons]
    by_cases hlimit : ((addTexts chunks section_ (addPiece p buffer piece).1).length : Int) ≥ maxChunks
    · rw [if_pos hlimit, if_pos hlimit, hcount]
      exact (and_iff_left fun turn hturn => absurd hturn List.not_mem_nil).symm
    · rw [if_neg hlimit, if_neg hlimit, ih _ (Or.inl (Int.not_le.mp hlimit))]
      refine (and_iff_right ?_).symm
      show (chunks.length : Int) + completes p buffer piece ≤ maxChunks
      omega

theorem room_addPieces {buffer left : List Char} {texts : List (List Char)}
    (hleft : (addPieces p maxChunks section_ chunks buffer texts).2 = some left) :
    (addPieces p maxChunks section_ chunks buffer texts).1 = chunks ∧ left = buffer ∨
      ((addPieces p maxChunks section_ chunks buffer texts).1.length : Int) < maxChunks := by
  induction texts generalizing chunks buffer with
  | nil => exact Or.inl ⟨rfl, (Option.some.inj hleft).symm⟩
  | cons piece texts ih =>
    simp only [addPieces] at hleft ⊢
    by_cases hlimit : ((addTexts chunks section_ (addPiece p buffer piece).1).length : Int) ≥ maxChunks
    · rw [if_pos hlimit] at hleft
      cases hleft
    · rw [if_neg hlimit] at hleft ⊢
      refine (ih hleft).elim (fun hsame => Or.inr ?_) Or.inr
      rw [hsame.1]
      exact Int.not_le.mp hlimit

variable (p section_) in
theorem length_addSection_iff (h : Below maxChunks chunks) :
    ((addSection p maxChunks chunks section_).1.length : Int) ≤ maxChunks ↔
      ∀ turn ∈ pieceTurns p maxChunks section_ chunks [] (pieces (clean section_.text)),
      turn.Fits p maxChunks := by
  have hpieces := length_addPieces_iff p section_ [] (pieces (clean section_.text)) h
  unfold addSection
  by_cases htext : clean section_.text = []
  · rw [htext] at hpieces ⊢
    exact hpieces
  · simp only [htext, if_false]
    rw [← hpieces]
    rcases hadded : addPieces p maxChunks section_ chunks [] (pieces (clean section_.text)) with
      ⟨after, _ | left⟩
    · exact Iff.rfl
    · have hroom := room_addPieces (congrArg Prod.snd hadded)
      rw [hadded] at hroom
      show ((addTexts after section_ _).length : Int) ≤ maxChunks ↔ (after.length : Int) ≤ maxChunks
      rw [length_addTexts, Int.natCast_add]
      have hbelow := h.le
      rcases hroom with ⟨hsame, hleft⟩ | hroom
      · change after = chunks at hsame
        rw [hsame, if_pos hleft, List.length_nil]
        omega
      · change (after.length : Int) < maxChunks at hroom
        split_ifs
        · rw [List.length_nil]
          omega
        · rw [List.length_singleton]
          omega

theorem below_addSection (h : Below maxChunks chunks)
    (hgoes : ¬(addSection p maxChunks chunks section_).2 = true) :
    Below maxChunks (addSection p maxChunks chunks section_).1 := by
  revert hgoes
  unfold addSection
  by_cases htext : clean section_.text = []
  · simp only [htext, if_true]
    exact fun _ => h
  · simp only [htext, if_false]
    rcases addPieces p maxChunks section_ chunks [] (pieces (clean section_.text)) with ⟨after, _ | left⟩
    · exact fun hgoes => absurd rfl hgoes
    · intro hgoes
      exact Or.inl (Int.not_le.mp fun hlimit => hgoes (decide_eq_true hlimit))

theorem length_addSections_iff {sections : List ParsedText} (h : Below maxChunks chunks) :
    ((addSections p maxChunks chunks sections).length : Int) ≤ maxChunks ↔
      ∀ turn ∈ turns p maxChunks chunks sections, turn.Fits p maxChunks := by
  induction sections generalizing chunks with
  | nil => exact iff_of_true h.le fun turn hturn => absurd hturn List.not_mem_nil
  | cons section_ sections ih =>
    have hpage := length_addSection_iff p section_ h
    simp only [addSections, turns, List.forall_mem_append]
    rw [← hpage]
    split_ifs with hlimit
    · exact (and_iff_left fun turn hturn => absurd hturn List.not_mem_nil).symm
    · have hbelow := below_addSection h hlimit
      rw [ih hbelow, and_iff_right hbelow.le]

/-- **When the limit is kept.** It is not negative, and no piece completes more chunks than there is room
for: the buffer before it if it does not join that, and the windows that are cut off. -/
theorem chunkTexts_length_iff {sections : List ParsedText} {chunkChars overlapChars maxChunks : Int}
    {chunks : List TextChunk} {p : Chunking} (hparameters : chunking chunkChars overlapChars = some p)
    (hchunks : chunkTexts sections chunkChars overlapChars maxChunks = some chunks) :
    (chunks.length : Int) ≤ maxChunks ↔
      0 ≤ maxChunks ∧ ∀ turn ∈ turns p maxChunks [] sections,
        (turn.count : Int) + ((if joins p turn.buffer turn.piece then 0 else 1) +
          windows p (filled p turn.buffer turn.piece).length : Nat) ≤ maxChunks := by
  rw [chunkTexts, hparameters, Option.map_some, Option.some.injEq] at hchunks
  by_cases hnegative : maxChunks < 0
  · refine iff_of_false ?_ fun h => ?_
    · omega
    · omega
  · have hbelow : Below maxChunks ([] : List TextChunk) := by
      show ((0 : Nat) : Int) < maxChunks ∨ 0 = 0 ∧ maxChunks = 0
      omega
    rw [and_iff_right (Int.not_lt.mp hnegative), ← hchunks]
    exact length_addSections_iff hbelow

def letters : ParsedText := ⟨"page 1", "abcdef".toList, some 1⟩

theorem chunkTexts_letters : chunkTexts [letters] 2 0 1 =
    some [⟨0, "ab".toList, some 1, "page 1"⟩, ⟨1, "cd".toList, some 1, "page 1"⟩] := by
  decide

theorem chunkTexts_length_iff_letters : ∃ p : Chunking, chunking 2 0 = some p ∧
    ((2 : Int) ≤ 1 ↔ 0 ≤ (1 : Int) ∧ ∀ turn ∈ turns p 1 [] [letters],
      (turn.count : Int) + ((if joins p turn.buffer turn.piece then 0 else 1) +
        windows p (filled p turn.buffer turn.piece).length : Nat) ≤ 1) :=
  ⟨⟨2, 0, by decide⟩, rfl, chunkTexts_length_iff rfl chunkTexts_letters⟩

/-- One piece is cut into two chunks where one is allowed. -/
theorem limit_exceeded : ¬∀ (sections : List ParsedText) (chunkChars overlapChars maxChunks : Int)
    (chunks : List TextChunk), chunkTexts sections chunkChars overlapChars maxChunks = some chunks →
      (chunks.length : Int) ≤ maxChunks := by
  intro h
  exact absurd (h [letters] 2 0 1 _ chunkTexts_letters) (by decide)

end GuruJi.Documents
