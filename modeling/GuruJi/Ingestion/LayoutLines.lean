import GuruJi.Voice.Sentences
import Mathlib.Data.List.Infix

/-!
# Lines of plain text

A line of a text that may be a table is split at tabs, commas, spaced bars and wide gaps; its cells are
the pieces that are not blank, stripped.

* `readCells_tab`, `readCells_bar`: a field before a tab, or before a bar that stands clear, is read;
* `readCells_stray`: a bar that does not stand clear is read itself;
* **`read_iff`**: a line of fields is read as its texts iff each of its spaced bars stands clear.
-/

namespace GuruJi.Ingestion

open GuruJi.Lib
open GuruJi.Voice (isSpace)

/-! ## Separators -/

/-- A text begins with a bar between white space. -/
def spacedBar (text : List Char) : Bool :=
  text.head?.any isSpace && text[1]? = some '|' && (text[2]?).any isSpace

/-- How many characters `_SPLIT` matches at the beginning of a text. -/
def sepLength (text : List Char) : Nat :=
  let gap := (text.takeWhile isSpace).length
  if 2 ≤ gap then gap
  else if text.head? = some '\t' then 1
  else if spacedBar text then 3
  else if text.head? = some ',' then 1
  else 0

/-- `_SPLIT.split(text)`, after the rest of a match; `piece` is the piece so far. -/
def splitCells : Nat → List Char → List Char → List (List Char)
  | _, piece, [] => [piece]
  | skip + 1, piece, _ :: text => splitCells skip piece text
  | 0, piece, c :: text =>
    if sepLength (c :: text) = 0 then splitCells 0 (piece ++ [c]) text
    else piece :: splitCells (sepLength (c :: text) - 1) [] text

def readCells (text : List Char) : List (List Char) :=
  ((splitCells 0 [] text).map (trim isSpace)).filter (· ≠ [])

/-! ## Lines of fields -/

/-- What stands between two fields: a tab, or a bar between two characters. -/
inductive Separator where
  | tab
  | bar (left right : Char)

namespace Separator

def text : Separator → List Char
  | tab => ['\t']
  | bar left right => [left, '|', right]

def Spaced : Separator → Prop
  | tab => True
  | bar left right => isSpace left = true ∧ isSpace right = true

end Separator

/-- A bar of a text has nothing but white space, or nothing, beside it. -/
def LoneBar (text : List Char) : Prop :=
  ∃ before after, text = before ++ '|' :: after ∧ (∀ c ∈ before.getLast?, isSpace c = true) ∧
    ∀ c ∈ after.head?, isSpace c = true

/-- A field has no separator in it, also not when it is between two. -/
structure Plain (field : List Char) : Prop where
  whole : ∀ rest ∈ field.tails, sepLength rest = 0
  bars : ¬LoneBar field

def restText (rest : List (Separator × List Char)) : List Char := rest.flatMap fun e => e.1.text ++ e.2

/-- A line of fields. -/
structure SeparatedLine where
  first : List Char
  rest : List (Separator × List Char)
  spaced : ∀ e ∈ rest, e.1.Spaced
  plain : ∀ field ∈ first :: rest.map Prod.snd, Plain field

/-- Each spaced bar stands clear: its left is no tab, a text or another bar comes right
before it, and something comes after it. `pending` is for white space, or the beginning of
the line, before the field. -/
def Clear : Bool → List Char → List (Separator × List Char) → Prop
  | _, _, [] => True
  | _, _, (.tab, next) :: rest => Clear true next rest
  | pending, field, (.bar left _, next) :: rest =>
    left ≠ '\t' ∧ (∀ c ∈ field.getLast?, isSpace c = false) ∧ (field = [] → pending = false) ∧
      (∃ c ∈ next ++ restText rest, isSpace c = false) ∧ Clear false next rest

namespace SeparatedLine
variable (line : SeparatedLine)

def text : List Char := line.first ++ restText line.rest

def fields : List (List Char) := line.first :: line.rest.map Prod.snd

/-- The fields of a line that are not blank, stripped, with their positions. -/
def kept : List (List Char × Nat) := ((line.fields.map (trim isSpace)).zipIdx).filter (·.1 ≠ [])

def texts : List (List Char) := line.kept.map Prod.fst

/-- The positions of the fields that are not blank. -/
def columns : List Nat := line.kept.map Prod.snd

/-- The text of the field at a position, unless it is blank. -/
def field (k : Nat) : Option (List Char) := ((line.fields[k]?).map (trim isSpace)).filter (· ≠ [])

end SeparatedLine

/-! ## Splitting -/

theorem not_isSpace_bar : isSpace '|' = false := by decide

theorem splitCells_skip (piece : List Char) (matched text : List Char) :
    splitCells matched.length piece (matched ++ text) = splitCells 0 piece text := by
  induction matched with
  | nil => rfl
  | cons c matched ih => exact ih

theorem splitCells_sep {piece matched text : List Char} (hne : matched ≠ [])
    (h : sepLength (matched ++ text) = matched.length) :
    splitCells 0 piece (matched ++ text) = piece :: splitCells 0 [] text := by
  cases matched with
  | nil => exact absurd rfl hne
  | cons c more =>
    rw [List.cons_append, List.length_cons] at h
    rw [List.cons_append, splitCells, h, if_neg (Nat.succ_ne_zero _), Nat.add_sub_cancel,
      splitCells_skip]

theorem splitCells_ink {piece text : List Char} {c : Char} (h : sepLength (c :: text) = 0) :
    splitCells 0 piece (c :: text) = splitCells 0 (piece ++ [c]) text := by
  rw [splitCells, if_pos h]

theorem splitCells_gap {piece gap text : List Char} (hgap : ∀ c ∈ gap, isSpace c = true)
    (hwide : 2 ≤ gap.length ∨ gap = ['\t']) (htext : ∀ c ∈ text.head?, isSpace c = false) :
    splitCells 0 piece (gap ++ text) = piece :: splitCells 0 [] text := by
  have hspan := (span_append hgap htext).1
  rcases hwide with hwide | rfl
  · refine splitCells_sep ?_ ?_
    · intro hnil
      rw [hnil] at hwide
      exact absurd hwide (by decide)
    · rw [sepLength, hspan, if_pos hwide]
  · refine splitCells_sep (List.cons_ne_nil _ _) ?_
    rw [sepLength, hspan]
    rfl

theorem gap_before_bar {left : Char} (text : List Char) (h : isSpace left = true) :
    (left :: '|' :: text).takeWhile isSpace = [left] := by
  rw [List.takeWhile_cons_of_pos h, List.takeWhile_cons_of_neg (by decide)]

variable {left right : Char} {text : List Char} {field : List Char} {pending : Bool}

theorem splitCells_bar {piece text : List Char} (hleft : isSpace left = true)
    (hright : isSpace right = true) (htab : left ≠ '\t') :
    splitCells 0 piece (left :: '|' :: right :: text) = piece :: splitCells 0 [] text := by
  refine @splitCells_sep piece [left, '|', right] text (List.cons_ne_nil _ _) ?_
  show sepLength (left :: '|' :: right :: text) = 3
  rw [sepLength, gap_before_bar _ hleft]
  simp [spacedBar, hleft, hright, htab]

/-- What follows a text does not change what is matched at its beginning, unless the text ends in white
space or in a bar after it. -/
theorem sepLength_append {text more : List Char} (hne : text ≠ [])
    (hlast : ∀ c ∈ text.getLast?, isSpace c = false)
    (hbar : ∀ left, text = [left, '|'] → isSpace left = false) :
    sepLength (text ++ more) = sepLength text := by
  have hgap : (text ++ more).takeWhile isSpace = text.takeWhile isSpace := by
    rw [List.takeWhile_append, if_neg]
    intro hall
    have hspace := List.mem_takeWhile_imp (p := isSpace) (l := text) (x := text.getLast hne) (by
      rw [(List.takeWhile_prefix isSpace).eq_of_length hall]
      exact List.getLast_mem hne)
    rw [hlast _ (List.getLast_mem_getLast? hne)] at hspace
    cases hspace
  have hhead : (text ++ more).head? = text.head? := by
    rw [List.head?_append_of_ne_nil _ hne]
  have hspaced : spacedBar (text ++ more) = spacedBar text := by
    match text, hne, hlast, hbar with
    | [c], _, hlast, _ => simp [spacedBar, hlast c rfl]
    | [c, d], _, _, hbar =>
      by_cases hd : d = '|'
      · subst hd
        simp [spacedBar, hbar c rfl]
      · simp [spacedBar, hd]
    | c :: d :: e :: text, _, _, _ => rfl
  rw [sepLength, sepLength, hgap, hhead, hspaced]

/-- A text ends in no white space, and in no bar after white space. -/
structure EndsClear (text : List Char) : Prop where
  last : ∀ c ∈ text.getLast?, isSpace c = false
  bar : ∀ before left, text = before ++ [left, '|'] → isSpace left = false

theorem EndsClear.tail {c : Char} (h : EndsClear (c :: text)) : EndsClear text where
  last d hd := h.last d (by
    obtain ⟨hne, rfl⟩ := List.mem_getLast?_eq_getLast hd
    rw [List.getLast?_cons_of_ne_nil hne]
    exact List.getLast_mem_getLast? hne)
  bar before left heq := h.bar (c :: before) left (congrArg (List.cons c) heq)

theorem splitCells_field {piece field : List Char} (more : List Char)
    (hwhole : ∀ rest ∈ field.tails, sepLength rest = 0) (hend : EndsClear field) :
    splitCells 0 piece (field ++ more) = splitCells 0 (piece ++ field) more := by
  induction field generalizing piece with
  | nil => rw [List.nil_append, List.append_nil]
  | cons c field ih =>
    have hnone : sepLength (c :: (field ++ more)) = 0 := by
      rw [← List.cons_append, sepLength_append (List.cons_ne_nil _ _) hend.last]
      · exact hwhole _ (by simp)
      · exact fun left heq => hend.bar [] left heq
    rw [List.cons_append, splitCells_ink hnone, ih, List.append_assoc]
    · rfl
    · exact fun rest hrest => hwhole rest (by
        rw [List.mem_tails] at hrest ⊢
        exact hrest.trans (List.suffix_cons c field))
    · exact hend.tail

/-! ## Plain fields -/

theorem LoneBar.append {before text : List Char} (hbefore : ∀ c ∈ before, isSpace c = true)
    (h : LoneBar text) : LoneBar (before ++ text) := by
  obtain ⟨left, right, rfl, hleft, hright⟩ := h
  refine ⟨before ++ left, right, (List.append_assoc _ _ _).symm, fun c hc => ?_, hright⟩
  rw [List.getLast?_append, Option.mem_def, Option.or_eq_some_iff] at hc
  rcases hc with hc | ⟨-, hc⟩
  · exact hleft c hc
  · exact hbefore c (List.mem_of_getLast? hc)

theorem LoneBar.append_right {text after : List Char} (hafter : ∀ c ∈ after, isSpace c = true)
    (h : LoneBar text) : LoneBar (text ++ after) := by
  obtain ⟨left, right, rfl, hleft, hright⟩ := h
  refine ⟨left, right ++ after, List.append_assoc _ _ _, hleft, fun c hc => ?_⟩
  rw [List.head?_append, Option.mem_def, Option.or_eq_some_iff] at hc
  rcases hc with hc | ⟨-, hc⟩
  · exact hright c hc
  · exact hafter c (List.mem_of_mem_head? hc)

theorem LoneBar.trim (h : LoneBar text) : LoneBar (trim isSpace text) := by
  obtain ⟨left, right, rfl, hleft, hright⟩ := h
  refine ⟨_, _, trim_append_cons not_isSpace_bar, fun c hc => hleft c ?_, fun c hc => hright c ?_⟩
  · obtain ⟨start, hstart⟩ := List.dropWhile_suffix isSpace (l := left)
    rw [← hstart]
    exact List.mem_getLast?_append_of_mem_getLast? hc
  · obtain ⟨rest, hrest⟩ := List.rdropWhile_prefix isSpace right
    rw [← hrest]
    exact List.mem_head?_append_of_mem_head? hc

theorem Plain.dropWhile (h : Plain field) : Plain (field.dropWhile isSpace) where
  whole rest hrest := h.whole rest (by
    rw [List.mem_tails] at hrest ⊢
    exact hrest.trans (List.dropWhile_suffix isSpace))
  bars hbar := h.bars (by
    rw [← List.takeWhile_append_dropWhile (p := isSpace) (l := field)]
    exact hbar.append fun c hc => List.mem_takeWhile_imp hc)

theorem Plain.core (h : Plain field) : (∀ rest ∈ (field.rdropWhile isSpace).tails, sepLength rest = 0) ∧
      EndsClear (field.rdropWhile isSpace) := by
  have hsplit := List.rdropWhile_append_rtakeWhile (p := isSpace) (l := field)
  have hend : EndsClear (field.rdropWhile isSpace) := by
    refine ⟨fun c hc => ?_, fun before left heq => ?_⟩
    · obtain ⟨hne, rfl⟩ := List.mem_getLast?_eq_getLast hc
      exact Bool.eq_false_iff.mpr (List.rdropWhile_last_not isSpace field hne)
    · by_contra hspace
      refine h.bars ⟨before ++ [left], field.rtakeWhile isSpace, ?_, fun c hc => ?_, fun c hc => ?_⟩
      · calc field = (before ++ [left, '|']) ++ field.rtakeWhile isSpace := by rw [← heq, hsplit]
          _ = (before ++ [left]) ++ '|' :: field.rtakeWhile isSpace := by simp
      · rw [List.getLast?_concat] at hc
        rw [← Option.some.inj hc]
        exact eq_true_of_ne_false hspace
      · exact List.mem_rtakeWhile_imp (List.mem_of_mem_head? hc)
  refine ⟨fun rest hrest => ?_, hend⟩
  obtain ⟨before, hbefore⟩ := (List.mem_tails _ _).mp hrest
  by_cases hnil : rest = []
  · rw [hnil]
    rfl
  · rw [← @sepLength_append rest (field.rtakeWhile isSpace) hnil]
    · refine h.whole _ ((List.mem_tails _ _).mpr ⟨before, ?_⟩)
      rw [← List.append_assoc, hbefore, hsplit]
    · intro c hc
      refine hend.last c ?_
      rw [← hbefore, List.getLast?_append_of_ne_nil _ hnil]
      exact hc
    · exact fun left heq => hend.bar before left (by rw [← hbefore, heq])

/-! ## Lines are read -/

/-- A text without the white space after it, and, where some is pending, before it. -/
def stripped (pending : Bool) (text : List Char) : List Char :=
  (if pending then text.dropWhile isSpace else text).rdropWhile isSpace

def cellOf (piece : List Char) : List (List Char) := [trim isSpace piece].filter (· ≠ [])

theorem readCells_of {text piece more : List Char}
    (h : splitCells 0 [] text = piece :: splitCells 0 [] more) :
    readCells text = cellOf piece ++ readCells more := by
  rw [readCells, h, List.map_cons, ← List.singleton_append, List.filter_append]
  rfl

theorem readCells_core {core : List Char} (hwhole : ∀ rest ∈ core.tails, sepLength rest = 0)
    (hend : EndsClear core) : readCells core = cellOf core := by
  have hone := @splitCells_field [] core [] hwhole hend
  rw [List.append_nil, List.nil_append] at hone
  rw [readCells, hone]
  rfl

/-- A field is blank where white space is pending, or the text begins with its core, and a gap. -/
theorem stripped_field (pending : Bool) (h : Plain field) :
    (pending = true ∧ ∀ c ∈ field, isSpace c = true) ∨
      (field = [] → pending = false) ∧ ∃ core gap, (∀ rest ∈ core.tails, sepLength rest = 0) ∧
        EndsClear core ∧ (∀ c ∈ gap, isSpace c = true) ∧ cellOf core = cellOf field ∧
        (gap = [] ↔ ∀ c ∈ field.getLast?, isSpace c = false) ∧
        ∀ more, stripped pending (field ++ more) = (core ++ gap ++ more).rdropWhile isSpace := by
  by_cases hblank : pending = true ∧ ∀ c ∈ field, isSpace c = true
  · exact Or.inl hblank
  refine Or.inr ⟨fun hnil => ?_, ?_⟩
  · rw [hnil] at hblank
    simpa using hblank
  rcases pending with _ | _
  · refine ⟨field.rdropWhile isSpace, field.rtakeWhile isSpace, h.core.1, h.core.2,
      fun c hc => List.mem_rtakeWhile_imp hc, by
      rw [cellOf, cellOf, trim_rdropWhile], ?_, fun more => ?_⟩
    · rw [List.rtakeWhile_eq_nil_iff, ← List.rdropWhile_eq_self_iff, rdropWhile_eq_self_iff_last]
    · rw [List.rdropWhile_append_rtakeWhile]
      rfl
  · have hne : field.dropWhile isSpace ≠ [] := by
      rw [Ne, List.dropWhile_eq_nil_iff]
      exact fun hall => hblank ⟨rfl, hall⟩
    refine ⟨(field.dropWhile isSpace).rdropWhile isSpace, (field.dropWhile isSpace).rtakeWhile isSpace,
      h.dropWhile.core.1, h.dropWhile.core.2, fun c hc => List.mem_rtakeWhile_imp hc, ?_, ?_,
      fun more => ?_⟩
    · rw [cellOf, cellOf, ← trim, trim_trim]
    · rw [List.rtakeWhile_eq_nil_iff, ← List.rdropWhile_eq_self_iff, rdropWhile_eq_self_iff_last]
      obtain ⟨before, hbefore⟩ := List.dropWhile_suffix isSpace (l := field)
      have hlast : field.getLast? = (field.dropWhile isSpace).getLast? := by
        conv_lhs => rw [← hbefore]
        rw [List.getLast?_append_of_ne_nil _ hne]
      rw [hlast]
    · rw [List.rdropWhile_append_rtakeWhile, stripped, if_pos rfl, List.dropWhile_append,
        if_neg (by simpa using hne)]

/-- A field before a tab is read. -/
theorem readCells_tab (h : Plain field) (more : List Char) :
    readCells (stripped pending (field ++ '\t' :: more)) =
      cellOf field ++ readCells (stripped true more) := by
  have htab : isSpace '\t' = true := by decide
  rcases stripped_field pending h with ⟨rfl, hblank⟩ | ⟨-, core, gap, hwhole, hend, hgap, hcell, -, heq⟩
  · have hskip : stripped true (field ++ '\t' :: more) = stripped true more := by
      rw [stripped, if_pos rfl, List.dropWhile_append_of_pos hblank, List.dropWhile_cons_of_pos htab]
      rfl
    rw [hskip, cellOf, trim_blank hblank]
    rfl
  rw [heq, ← hcell]
  by_cases hink : ∃ c ∈ more, isSpace c = false
  · obtain ⟨gap', c, after, rfl, hgap', hc⟩ := exists_ink hink
    have hstripped : stripped true (gap' ++ c :: after) = c :: after.rdropWhile isSpace := by
      rw [stripped, if_pos rfl, ← trim, trim_append hgap', ← List.nil_append (c :: after),
        trim_append_cons hc]
      rfl
    have htext : (core ++ gap ++ '\t' :: (gap' ++ c :: after)).rdropWhile isSpace =
        core ++ ((gap ++ '\t' :: gap') ++ c :: after.rdropWhile isSpace) := by
      rw [show core ++ gap ++ '\t' :: (gap' ++ c :: after) =
        (core ++ (gap ++ '\t' :: gap')) ++ c :: after by simp, rdropWhile_append_cons hc,
        List.append_assoc]
    rw [htext, hstripped]
    refine readCells_of ?_
    rw [splitCells_field _ hwhole hend, List.nil_append]
    refine splitCells_gap ?_ ?_ ?_
    · intro d hd
      rw [List.mem_append, List.mem_cons] at hd
      rcases hd with hd | rfl | hd
      · exact hgap d hd
      · exact htab
      · exact hgap' d hd
    · by_cases hnil : gap = [] ∧ gap' = []
      · exact Or.inr (by rw [hnil.1, hnil.2]; rfl)
      · refine Or.inl ?_
        rw [List.length_append, List.length_cons]
        by_contra hshort
        exact hnil ⟨List.length_eq_zero_iff.mp (by omega), List.length_eq_zero_iff.mp (by omega)⟩
    · intro d hd
      rw [← Option.some.inj hd]
      exact hc
  · have hblank : ∀ c ∈ more, isSpace c = true := by simpa using hink
    have hcore : (core ++ gap ++ '\t' :: more).rdropWhile isSpace = core := by
      rw [List.append_assoc]
      refine (rtakeWhile_append_of_pos ?_ fun c hc => ?_).2
      · rw [List.rtakeWhile_eq_nil_iff, ← List.rdropWhile_eq_self_iff, rdropWhile_eq_self_iff_last]
        exact hend.last
      · rw [List.mem_append, List.mem_cons] at hc
        rcases hc with hc | rfl | hc
        · exact hgap c hc
        · exact htab
        · exact hblank c hc
    have hnone : stripped true more = [] := by rw [stripped, if_pos rfl, ← trim, trim_blank hblank]
    rw [hcore, hnone, readCells_core hwhole hend]
    exact (List.append_nil _).symm

/-- A field before a spaced bar that stands clear is read. -/
theorem readCells_bar (h : Plain field)
    {more : List Char} (hleft : isSpace left = true) (hright : isSpace right = true)
    (htab : left ≠ '\t') (hlast : ∀ c ∈ field.getLast?, isSpace c = false)
    (hpending : field = [] → pending = false) (hink : ∃ c ∈ more, isSpace c = false) :
    readCells (stripped pending (field ++ left :: '|' :: right :: more)) =
      cellOf field ++ readCells (stripped false more) := by
  rcases stripped_field pending h with ⟨hp, hblank⟩ | ⟨-, core, gap, hwhole, hend, -, hcell, hgap, heq⟩
  · have hnil : field = [] := by
      by_contra hne
      have hspace := hblank _ (List.getLast_mem hne)
      rw [hlast _ (List.getLast_mem_getLast? hne)] at hspace
      cases hspace
    rw [hpending hnil] at hp
    cases hp
  obtain rfl := hgap.mpr hlast
  obtain ⟨gap, c, after, rfl, -, hc⟩ := exists_ink hink
  have htext : (core ++ [] ++ left :: '|' :: right :: (gap ++ c :: after)).rdropWhile isSpace =
      core ++ left :: '|' :: right :: stripped false (gap ++ c :: after) := by
    have hstripped : stripped false (gap ++ c :: after) = gap ++ c :: after.rdropWhile isSpace :=
      rdropWhile_append_cons hc
    rw [hstripped, show core ++ [] ++ left :: '|' :: right :: (gap ++ c :: after) =
      (core ++ left :: '|' :: right :: gap) ++ c :: after by simp, rdropWhile_append_cons hc]
    simp
  rw [heq, htext, ← hcell]
  refine readCells_of ?_
  rw [splitCells_field _ hwhole hend, List.nil_append, splitCells_bar hleft hright htab]

theorem splitCells_first (skip : Nat) (piece text : List Char) :
    ∃ more rest, splitCells skip piece text = (piece ++ more) :: rest := by
  induction text generalizing skip piece with
  | nil => exact ⟨[], [], by rw [splitCells, List.append_nil]⟩
  | cons c text ih =>
    rcases skip with _ | skip
    · rw [splitCells]
      split_ifs
      · obtain ⟨more, rest, heq⟩ := ih 0 (piece ++ [c])
        exact ⟨c :: more, rest, by rw [heq, List.append_assoc]; rfl⟩
      · exact ⟨[], _, by rw [List.append_nil]⟩
    · exact ih skip piece

theorem lone_first (htext : ∀ c ∈ text.head?, isSpace c = true) :
    ∃ piece ∈ splitCells 0 [] ('|' :: text), LoneBar piece := by
  have hnone : sepLength ('|' :: text) = 0 := by
    rw [sepLength, List.takeWhile_cons_of_neg (by decide)]
    simp [spacedBar, not_isSpace_bar]
  have hlone : ∀ more, (∀ c ∈ more.head?, isSpace c = true) → LoneBar ('|' :: more) := by
    intro more hmore
    refine ⟨[], more, rfl, fun c hc => ?_, hmore⟩
    cases hc
  rw [splitCells_ink hnone, List.nil_append]
  cases text with
  | nil => exact ⟨['|'], List.mem_singleton_self _, hlone [] htext⟩
  | cons c text =>
    rw [splitCells]
    split_ifs
    · obtain ⟨more, rest, heq⟩ := splitCells_first 0 (['|'] ++ [c]) text
      rw [heq]
      exact ⟨_, List.mem_cons_self, hlone (c :: more) htext⟩
    · exact ⟨['|'], List.mem_cons_self, hlone [] fun c hc => by cases hc⟩

theorem readCells_lone (h : ∃ piece ∈ splitCells 0 [] text, LoneBar piece) :
    ∃ cell ∈ readCells text, LoneBar cell := by
  obtain ⟨piece, hpiece, hlone⟩ := h
  refine ⟨trim isSpace piece, List.mem_filter.mpr ⟨List.mem_map_of_mem hpiece, ?_⟩, hlone.trim⟩
  obtain ⟨before, after, heq, -⟩ := hlone.trim
  rw [decide_eq_true_eq, heq]
  exact List.append_ne_nil_of_right_ne_nil _ (List.cons_ne_nil _ _)

/-- A spaced bar that does not stand clear is read. -/
theorem readCells_stray (h : Plain field)
    {more : List Char} (hleft : isSpace left = true) (hright : isSpace right = true)
    (hstray : ¬(left ≠ '\t' ∧ (∀ c ∈ field.getLast?, isSpace c = false) ∧
      (field = [] → pending = false) ∧ ∃ c ∈ more, isSpace c = false)) :
    ∃ cell ∈ readCells (stripped pending (field ++ left :: '|' :: right :: more)), LoneBar cell := by
  have hafter : ∀ before : List Char, (before ++ '|' :: right :: more).rdropWhile isSpace =
      before ++ '|' :: (right :: more).rdropWhile isSpace := fun before =>
    rdropWhile_append_cons not_isSpace_bar
  have hspace : ∀ c ∈ ((right :: more).rdropWhile isSpace).head?, isSpace c = true := by
    intro c hc
    obtain ⟨rest, hrest⟩ := List.rdropWhile_prefix isSpace (right :: more)
    have hhead : c ∈ (right :: more).head? := by
      rw [← hrest]
      exact List.mem_head?_append_of_mem_head? hc
    rw [← Option.some.inj hhead]
    exact hright
  refine readCells_lone ?_
  rcases stripped_field pending h with ⟨rfl, hblank⟩ |
    ⟨hpending, core, gap, hwhole, hend, hspaces, -, hgap, heq⟩
  · have hskip : stripped true (field ++ left :: '|' :: right :: more) =
        '|' :: (right :: more).rdropWhile isSpace := by
      rw [stripped, if_pos rfl, List.dropWhile_append_of_pos hblank, List.dropWhile_cons_of_pos hleft,
        List.dropWhile_cons_of_neg (by decide)]
      exact hafter []
    rw [hskip]
    exact lone_first hspace
  have htext : (core ++ gap ++ left :: '|' :: right :: more).rdropWhile isSpace =
      core ++ ((gap ++ [left]) ++ '|' :: (right :: more).rdropWhile isSpace) := by
    rw [show core ++ gap ++ left :: '|' :: right :: more =
      (core ++ (gap ++ [left])) ++ '|' :: right :: more by simp, hafter, List.append_assoc]
  rw [heq, htext, splitCells_field _ hwhole hend, List.nil_append]
  by_cases hsep : gap = [] ∧ left ≠ '\t'
  · obtain ⟨rfl, htab⟩ := hsep
    have hblank : ∀ c ∈ right :: more, isSpace c = true := by
      intro c hc
      rcases List.mem_cons.mp hc with rfl | hc
      · exact hright
      · by_contra hink
        exact hstray ⟨htab, hgap.mp rfl, hpending, c, hc, Bool.eq_false_iff.mpr hink⟩
    have hnone : sepLength [left, '|'] = 0 := by
      have hcomma : left ≠ ',' := by
        rintro rfl
        exact absurd hleft (by decide)
      rw [sepLength, gap_before_bar _ hleft]
      simp [spacedBar, htab, hcomma]
    rw [List.rdropWhile_eq_nil_iff.mpr hblank]
    show ∃ piece ∈ splitCells 0 core [left, '|'], LoneBar piece
    rw [splitCells_ink hnone, splitCells_ink (by decide)]
    refine ⟨core ++ [left] ++ ['|'], List.mem_singleton_self _, core ++ [left], [], rfl, fun c hc => ?_,
      fun c hc => by cases hc⟩
    rw [List.getLast?_concat] at hc
    rw [← Option.some.inj hc]
    exact hleft
  · obtain ⟨piece, hpiece, hlone⟩ := lone_first hspace
    refine ⟨piece, ?_, hlone⟩
    rw [splitCells_gap]
    · exact List.mem_cons_of_mem _ hpiece
    · intro c hc
      rcases List.mem_append.mp hc with hc | hc
      · exact hspaces c hc
      · rw [List.mem_singleton.mp hc]
        exact hleft
    · by_cases hnil : gap = []
      · refine Or.inr ?_
        rw [hnil, not_ne_iff.mp fun htab => hsep ⟨hnil, htab⟩]
        rfl
      · refine Or.inl ?_
        have hpos := List.length_pos_iff.mpr hnil
        rw [List.length_append, List.length_singleton]
        omega
    · intro c hc
      rw [← Option.some.inj hc]
      exact not_isSpace_bar

/-- The rest of a line is read as the texts of its fields if its spaced bars stand clear; else a bar is
read. -/
theorem readCells_fields (pending : Bool) (field : List Char) (rest : List (Separator × List Char))
    (hspaced : ∀ e ∈ rest, e.1.Spaced) (hplain : ∀ f ∈ field :: rest.map Prod.snd, Plain f) :
    (Clear pending field rest → readCells (stripped pending (field ++ restText rest)) =
      ((field :: rest.map Prod.snd).map (trim isSpace)).filter (· ≠ [])) ∧
      (¬Clear pending field rest →
        ∃ cell ∈ readCells (stripped pending (field ++ restText rest)), LoneBar cell) := by
  induction rest generalizing pending field with
  | nil =>
    refine ⟨fun _ => ?_, fun hnot => absurd trivial hnot⟩
    rcases stripped_field pending (hplain field List.mem_cons_self) with ⟨rfl, hblank⟩ |
      ⟨-, core, gap, hwhole, hend, hgap, hcell, -, heq⟩
    · have hnone : stripped true (field ++ restText []) = [] := trim_blank (by
        rw [restText, List.flatMap_nil, List.append_nil]
        exact hblank)
      rw [hnone, List.map_cons, trim_blank hblank]
      rfl
    · have hcore : (core ++ gap ++ restText []).rdropWhile isSpace = core := by
        rw [restText, List.flatMap_nil, List.append_nil]
        refine (rtakeWhile_append_of_pos ?_ hgap).2
        rw [List.rtakeWhile_eq_nil_iff, ← List.rdropWhile_eq_self_iff, rdropWhile_eq_self_iff_last]
        exact hend.last
      rw [heq, hcore, readCells_core hwhole hend, hcell]
      rfl
  | cons next rest ih =>
    obtain ⟨separator, next⟩ := next
    have hfield := hplain field List.mem_cons_self
    have hrest : ∀ f ∈ next :: rest.map Prod.snd, Plain f := fun f hf =>
      hplain f (List.mem_cons_of_mem _ hf)
    have hspaced' : ∀ e ∈ rest, e.1.Spaced := fun e he => hspaced e (List.mem_cons_of_mem _ he)
    have hfilter : ((field :: next :: rest.map Prod.snd).map (trim isSpace)).filter (· ≠ []) =
        cellOf field ++ ((next :: rest.map Prod.snd).map (trim isSpace)).filter (· ≠ []) := by
      rw [List.map_cons, ← List.singleton_append, List.filter_append]
      rfl
    cases separator with
    | tab =>
      obtain ⟨hclear, hstray⟩ := ih true next hspaced' hrest
      have htext : field ++ restText ((.tab, next) :: rest) = field ++ '\t' :: (next ++ restText rest) :=
        rfl
      rw [htext, readCells_tab hfield]
      refine ⟨fun h => ?_, fun h => ?_⟩
      · rw [hclear h]
        exact hfilter.symm
      · obtain ⟨cell, hcell, hlone⟩ := hstray h
        exact ⟨cell, List.mem_append_right _ hcell, hlone⟩
    | bar left right =>
      obtain ⟨hclear, hstray⟩ := ih false next hspaced' hrest
      obtain ⟨hleft, hright⟩ : isSpace left = true ∧ isSpace right = true :=
        hspaced _ List.mem_cons_self
      have htext : field ++ restText ((.bar left right, next) :: rest) =
        field ++ left :: '|' :: right :: (next ++ restText rest) := rfl
      rw [htext]
      refine ⟨fun h => ?_, fun h => ?_⟩
      · obtain ⟨htab, hlast, hpending, hink, hnext⟩ := h
        rw [readCells_bar hfield hleft hright htab hlast hpending hink, hclear hnext]
        exact hfilter.symm
      · by_cases hstands : left ≠ '\t' ∧ (∀ c ∈ field.getLast?, isSpace c = false) ∧
            (field = [] → pending = false) ∧ ∃ c ∈ next ++ restText rest, isSpace c = false
        · obtain ⟨htab, hlast, hpending, hink⟩ := hstands
          obtain ⟨cell, hcell, hlone⟩ := hstray fun hnext => h ⟨htab, hlast, hpending, hink, hnext⟩
          rw [readCells_bar hfield hleft hright htab hlast hpending hink]
          exact ⟨cell, List.mem_append_right _ hcell, hlone⟩
        · exact readCells_stray hfield hleft hright hstands

theorem Plain.trim (h : Plain field) : ¬LoneBar (trim isSpace field) := by
  intro hlone
  have hafter : LoneBar (field.dropWhile isSpace) := by
    rw [← List.rdropWhile_append_rtakeWhile (p := isSpace) (l := field.dropWhile isSpace)]
    exact hlone.append_right fun c hc => List.mem_rtakeWhile_imp hc
  exact h.dropWhile.bars hafter

namespace SeparatedLine
variable {line : SeparatedLine}

theorem texts_eq : line.texts = (line.fields.map (trim isSpace)).filter (· ≠ []) := by
  have hfst : line.fields.map (trim isSpace) = (line.fields.map (trim isSpace)).zipIdx.map Prod.fst :=
    (List.zipIdx_map_fst 0 _).symm
  rw [texts, kept]
  conv_rhs => rw [hfst, List.filter_map]
  rfl

/-- **A line is read as its texts** iff its spaced bars stand clear. -/
theorem read_iff : readCells (trim isSpace line.text) = line.texts ↔
    Clear true line.first line.rest := by
  obtain ⟨hclear, hstray⟩ := readCells_fields true line.first line.rest line.spaced line.plain
  constructor
  · intro h
    by_contra hnot
    obtain ⟨cell, hcell, hlone⟩ := hstray hnot
    have hmem : cell ∈ line.texts := h ▸ hcell
    rw [texts_eq, List.mem_filter] at hmem
    obtain ⟨field, hfield, rfl⟩ := List.mem_map.mp hmem.1
    exact (line.plain field hfield).trim hlone
  · intro h
    rw [texts_eq]
    exact hclear h

end SeparatedLine

end GuruJi.Ingestion
