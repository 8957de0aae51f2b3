import GuruJi.Lib.Table
import GuruJi.Lib.Text

/-!
# Doubtful characters of an identifier

An identifier that was read from a scan is suspected when a letter stands where a digit is expected, and
a reading with digits in place of letters is suggested.

* `pattern_suggestion`: under a pattern of its length, only the letters that a digit is expected for are
  replaced;
* `run_suggestion`: without one, every letter that looks like a digit is;
* **`keepsOthers_iff`**: a suggestion changes only what is doubtful iff there is a pattern of that
  length, nothing is doubtful, or every letter that looks like a digit is;
* `letters_replaced`: the letters of a code before its number.
-/

namespace GuruJi.Normalization

open GuruJi.Lib

/-- `str.isdigit`, `str.isalpha` and `\d`. -/
structure CharEnv where
  isDigit : Char → Bool
  isAlpha : Char → Bool
  isDecimal : Char → Bool

/-- `IOLSBZ`. -/
def confusable : List Char := ['I', 'O', 'L', 'S', 'B', 'Z']

/-- `_CONFUSABLE`. -/
def asDigit (c : Char) : Char :=
  if c = 'I' then '1' else if c = 'L' then '1' else if c = 'O' then '0' else if c = 'S' then '5'
  else if c = 'B' then '8' else if c = 'Z' then '2' else c

/-- `_issue`, of a suspicion. -/
structure OcrIssue where
  field : String
  code : String
  severity : String
  value : String
  suggested : String
  deriving DecidableEq

def possibleOcrError (text suggested : List Char) : OcrIssue :=
  ⟨"student_id", "possible_ocr_error", "warning", String.ofList (text.take 60), String.ofList suggested⟩

section
variable (env : CharEnv)

def shapeOf (text : List Char) : List Char :=
  text.map fun c => if env.isDigit c then '9' else if env.isAlpha c then 'A' else c

/-- `shapes.most_common(1)`: of shapes that are as common the first. -/
def mostCommon : Table (List Char) Nat → Option (List Char × Nat)
  | [] => none
  | first :: shapes => some (shapes.foldl (fun best e => if best.2 < e.2 then e else best) first)

/-- `identifier_pattern`. -/
def identifierPattern (values : List String) : Option (List Char) :=
  let shapes := Table.counts ((values.filter (· ≠ "")).map fun value => shapeOf env value.toList)
  (mostCommon shapes).bind fun best =>
    if max 3 (shapes.total / 2) ≤ best.2 then some best.1 else none

/-- Whether a pattern is there and has the length of a text. -/
def sameLength (text : List Char) (expected : Option (List Char)) : Bool :=
  expected.any fun pattern => pattern ≠ [] && text.length = pattern.length

/-- The positions at which a pattern has a digit and a text a letter. -/
def mismatches (text pattern : List Char) : List Nat :=
  (((text.zip pattern).zipIdx).filter fun e => e.1.2 = '9' && env.isAlpha e.1.1).map (·.2)

/-- A match of `_LETTERS_IN_DIGIT_RUNS` at a position: between two digits, after a digit at the end of
the text, or before a digit at its start. A line feed may follow the end. -/
def inDigitRun (text : List Char) (i : Nat) : Bool :=
  let before := i ≠ 0 && (text[i - 1]?).any env.isDecimal
  let after := (text[i + 1]?).any env.isDecimal
  let atEnd := i + 1 = text.length || (i + 2 = text.length && text[i + 1]? = some '\n')
  (text[i]?).any (confusable.contains ·) && (before && after || before && atEnd || i = 0 && after)

/-- `ocr_suspicion`. -/
def ocrSuspicion (text : List Char) (expected : Option (List Char)) : Option OcrIssue :=
  if sameLength text expected then
    let found := mismatches env text (expected.getD [])
    if found ≠ [] ∧ found.all fun i => (text[i]?).any (confusable.contains ·) then
      some (possibleOcrError text
        (text.mapIdx fun i c => if i ∈ found then asDigit c else c))
    else none
  else if (List.range text.length).any (inDigitRun env text) then
    some (possibleOcrError text (text.map asDigit))
  else none

/-! ## What is doubtful -/

/-- A position that raises a doubt: a letter that looks like a digit, where the pattern has a digit, or
in a run of digits. -/
def Doubtful (text : List Char) (expected : Option (List Char)) (i : Nat) : Prop :=
  if sameLength text expected then
    (expected.getD [])[i]? = some '9' ∧ ∃ c ∈ confusable, text[i]? = some c
  else inDigitRun env text i = true

/-- A suggestion has the length of the text, and changes only what is doubtful. -/
def KeepsOthers (text : List Char) (expected : Option (List Char)) : Prop :=
  ∀ issue ∈ ocrSuspicion env text expected, issue.suggested.toList.length = text.length ∧
    ∀ i, issue.suggested.toList[i]? ≠ text[i]? → Doubtful env text expected i

end

/-! ## Suggestions -/

section
variable {env : CharEnv} {text : List Char} {expected : Option (List Char)}

theorem asDigit_ne_iff (c : Char) : asDigit c ≠ c ↔ c ∈ confusable := by
  unfold asDigit confusable
  split_ifs with hI hL hO hS hB hZ
  · subst hI
    decide
  · subst hL
    decide
  · subst hO
    decide
  · subst hS
    decide
  · subst hB
    decide
  · subst hZ
    decide
  · simp [hI, hL, hO, hS, hB, hZ]

theorem expected_of_mem_mismatches {pattern : List Char} {i : Nat}
    (h : i ∈ mismatches env text pattern) : pattern[i]? = some '9' := by
  obtain ⟨⟨⟨c, digit⟩, j⟩, hmem, rfl⟩ := List.mem_map.mp h
  obtain ⟨hmem, hkept⟩ := List.mem_filter.mp hmem
  rw [Bool.and_eq_true, decide_eq_true_eq] at hkept
  have hget := List.mem_zipIdx_iff_getElem?.mp hmem
  rw [List.getElem?_zip_eq_some] at hget
  exact hget.2.trans (congrArg some hkept.1)

/-- **Under a pattern of its length**, only letters that a digit is expected for are replaced. -/
theorem pattern_suggestion (hlength : sameLength text expected = true) :
    KeepsOthers env text expected := by
  intro issue hissue
  unfold ocrSuspicion at hissue
  rw [if_pos hlength] at hissue
  dsimp only at hissue
  split_ifs at hissue with hfound
  · obtain rfl := Option.some.inj hissue
    refine ⟨by simp [possibleOcrError], fun i hne => ?_⟩
    have hi : i ∈ mismatches env text (expected.getD []) := by
      by_contra hnot
      refine hne ?_
      show (String.ofList _).toList[i]? = _
      rw [String.toList_ofList, List.getElem?_mapIdx]
      cases text[i]? with
      | none => rfl
      | some c => exact congrArg some (if_neg hnot)
    obtain ⟨c, hc, hconfusable⟩ := (Option.any_eq_true _ _).mp (List.all_eq_true.mp hfound.2 i hi)
    unfold Doubtful
    rw [if_pos hlength]
    exact ⟨expected_of_mem_mismatches hi, c, by simpa using hconfusable, hc⟩
  · cases hissue

/-- **Without such a pattern** every letter that looks like a digit is replaced, if one is doubtful. -/
theorem run_suggestion (hlength : sameLength text expected = false) : KeepsOthers env text expected ↔
    (∀ i, ¬Doubtful env text expected i) ∨
      ∀ i, ∀ c ∈ confusable, text[i]? = some c → Doubtful env text expected i := by
  have hdoubtful : ∀ i, Doubtful env text expected i ↔ inDigitRun env text i = true := by
    intro i
    unfold Doubtful
    rw [if_neg (by rw [hlength]; decide)]
  have hinside : ∀ i, inDigitRun env text i = true → i ∈ List.range text.length := by
    intro i hi
    rw [inDigitRun, Bool.and_eq_true] at hi
    obtain ⟨c, hc, -⟩ := (Option.any_eq_true _ _).mp hi.1
    exact List.mem_range.mpr (List.getElem?_eq_some_iff.mp hc).1
  have hissue : ocrSuspicion env text expected =
      if (List.range text.length).any (inDigitRun env text) then
        some (possibleOcrError text (text.map asDigit)) else none := by
    unfold ocrSuspicion
    rw [if_neg (by rw [hlength]; decide)]
  by_cases hany : (List.range text.length).any (inDigitRun env text) = true
  · rw [if_pos hany] at hissue
    obtain ⟨j, -, hj⟩ := List.any_eq_true.mp hany
    have hchanged : ∀ i : Nat,
        (possibleOcrError text (text.map asDigit)).suggested.toList[i]? ≠ text[i]? ↔
        ∃ c ∈ confusable, text[i]? = some c := by
      intro i
      show (String.ofList _).toList[i]? ≠ _ ↔ _
      rw [String.toList_ofList, List.getElem?_map]
      cases text[i]? with
      | none => simp
      | some c => simp [asDigit_ne_iff]
    constructor
    · intro h
      obtain ⟨-, hkeeps⟩ := h _ hissue
      exact .inr fun i c hc hget => hkeeps i ((hchanged i).mpr ⟨c, hc, hget⟩)
    · rintro (hnone | hall) issue hin
      · exact absurd ((hdoubtful j).mpr hj) (hnone j)
      · obtain rfl := Option.some.inj (hissue.symm.trans hin)
        refine ⟨by simp [possibleOcrError], fun i hne => ?_⟩
        obtain ⟨c, hc, hget⟩ := (hchanged i).mp hne
        exact hall i c hc hget
  · rw [if_neg hany] at hissue
    refine iff_of_true (fun issue hin => ?_) (.inl fun i hi => hany ?_)
    · rw [hissue] at hin
      cases hin
    · have hrun := (hdoubtful i).mp hi
      exact List.any_eq_true.mpr ⟨i, hinside i hrun, hrun⟩

/-- **A suggestion changes only what is doubtful** iff there is a pattern of the length of the text,
nothing is doubtful, or every letter that looks like a digit is. -/
theorem keepsOthers_iff (env : CharEnv) (text : List Char) (expected : Option (List Char)) :
    KeepsOthers env text expected ↔ sameLength text expected = true ∨
      (∀ i, ¬Doubtful env text expected i) ∨
        ∀ i, ∀ c ∈ confusable, text[i]? = some c → Doubtful env text expected i := by
  cases hlength : sameLength text expected with
  | true => exact iff_of_true (pattern_suggestion hlength) (.inl rfl)
  | false => rw [run_suggestion hlength, or_iff_right Bool.false_ne_true]

end

/-! ## The letters of a code -/

def asciiChars : CharEnv := ⟨Char.isDigit, Char.isAlpha, Char.isDigit⟩

/-- **The letters before a number are replaced** with the one among its digits. -/
theorem letters_replaced :
    (ocrSuspicion asciiChars "SUB1O1".toList none).map (·.suggested) = some "5U8101" ∧
      inDigitRun asciiChars "SUB1O1".toList 0 = false ∧
        ¬KeepsOthers asciiChars "SUB1O1".toList none := by
  have hissue : ocrSuspicion asciiChars "SUB1O1".toList none =
      some ⟨"student_id", "possible_ocr_error", "warning", "SUB1O1", "5U8101"⟩ := by decide
  have hfirst : inDigitRun asciiChars "SUB1O1".toList 0 = false := by decide
  refine ⟨by rw [hissue]; rfl, hfirst, fun h => ?_⟩
  have hdoubtful := (h _ hissue).2 0 (by decide)
  have hrun : inDigitRun asciiChars "SUB1O1".toList 0 = true := hdoubtful
  rw [hfirst] at hrun
  cases hrun

end GuruJi.Normalization
