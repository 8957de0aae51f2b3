import GuruJi.Orchestration.Wording

/-!
# Figures in reworded answers

The guard rejects a candidate whose tokens are a strict part of the answer's. That is a partial
order: a candidate that drops one figure and adds another is neither below the answer nor above it,
and passes (`not_figuresKept`). `figuresKept_iff` says when the figures are kept: exactly when the
tokens of a candidate that gets as far as the guard are comparable with the answer's. Citations,
status, tool names and earlier warnings are kept in any case.
-/

namespace GuruJi.Orchestration

open GuruJi.Lib

variable {ρ : Type}

/-- Every numeric token of the approved answer occurs as often in the replacement. -/
def KeepsFigures (u : Unicode) (approved replacement : String) : Prop :=
  numericTokens u approved ≤ numericTokens u replacement

/-- The answer is the approved one, or a candidate that keeps its figures; the rest is as it was. -/
def WordingKept (u : Unicode) (answer : AssistantAnswer) (model : Option TextModel)
    (maxTokens : Nat) : Prop :=
  ∀ result, applyModelWording u answer model maxTokens = some result →
    (result.answer = answer.answer ∨ KeepsFigures u answer.answer result.answer) ∧
    result.citations = answer.citations ∧ result.status = answer.status ∧
    result.toolNames = answer.toolNames ∧ answer.warnings <+: result.warnings

def TranslationKept (u : Unicode) (manager : DialogueManager) (response : Response ρ)
    (language : DetectedLanguage) : Prop :=
  let result := localise u manager response language
  (result.answer = response.answer ∨ KeepsFigures u response.answer result.answer) ∧
    result = response.withAnswer result.answer

/-- One of the two texts has all the tokens of the other. -/
def Comparable (u : Unicode) (approved candidate : String) : Prop :=
  numericTokens u candidate ≤ numericTokens u approved ∨ KeepsFigures u approved candidate

/-- A candidate that gets as far as the comparison is comparable with the answer. -/
def CandidateComparable (u : Unicode) (approved : String) (candidate : Option String) : Prop :=
  ∀ text, candidate = some text → strip u text ≠ "" → (strip u text).length ≤ 12000 →
    Comparable u approved (strip u text)

/-- The condition on an answer and the model asked to reword it. -/
def WordingComparable (u : Unicode) (answer : AssistantAnswer) (model : Option TextModel)
    (maxTokens : Nat) : Prop :=
  ∀ m, model = some m → answer.status ≠ "refused" → strip u answer.answer ≠ "" →
    CandidateComparable u answer.answer
      (m.complete (wordingPrompt answer.answer) maxTokens).candidate

/-- The condition on a response and the model asked to translate it. -/
def TranslationComparable (u : Unicode) (manager : DialogueManager) (response : Response ρ)
    (language : DetectedLanguage) : Prop :=
  language.code ≠ "en-IN" → response.status ≠ "refused" → response.status ≠ "failed" →
    strip u response.answer ≠ "" →
    CandidateComparable u response.answer
      (modelText u manager manager.wordingModel (translationPrompt response.answer language))

/-! ## Tokens -/

/-! ## The guard -/

theorem validatedModelText_eq_some {u : Unicode} {approved : String} {candidate : Option String}
    {v : String} : validatedModelText u approved candidate = some v ↔
      ∃ text, candidate = some text ∧ strip u text = v ∧ v ≠ "" ∧ v.length ≤ 12000 ∧
        ¬ numericTokens u v < numericTokens u approved := by
  cases candidate with
  | none => simp [validatedModelText]
  | some text =>
    simp only [validatedModelText, Option.some.injEq, exists_eq_left']
    constructor
    · intro h
      split_ifs at h with hlen hlt
      obtain ⟨hne, hle⟩ := not_or.mp hlen
      obtain rfl := Option.some.inj h
      exact ⟨rfl, hne, not_lt.mp hle, fun h => hlt (lt_iff_le_and_ne.mp h)⟩
    · rintro ⟨rfl, hne, hle, hlt⟩
      rw [if_neg (not_or.mpr ⟨hne, not_lt.mpr hle⟩), if_neg (hlt ∘ lt_iff_le_and_ne.mpr)]

/-- Among the texts that are not a strict part of the answer, the comparable ones keep its figures. -/
theorem keepsFigures_iff_comparable {u : Unicode} {approved v : String}
    (h : ¬ numericTokens u v < numericTokens u approved) :
    KeepsFigures u approved v ↔ Comparable u approved v := by
  refine ⟨.inr, fun hc => hc.elim (fun hle => ?_) id⟩
  rcases eq_or_lt_of_le hle with heq | hlt
  · exact heq.ge
  · exact absurd hlt h

theorem candidateComparable_iff {u : Unicode} {approved : String} {candidate : Option String} :
    CandidateComparable u approved candidate ↔
      ∀ v, validatedModelText u approved candidate = some v →
        v = approved ∨ KeepsFigures u approved v := by
  constructor
  · intro h v hv
    obtain ⟨text, htext, rfl, hne, hle, hlt⟩ := validatedModelText_eq_some.mp hv
    exact .inr ((keepsFigures_iff_comparable hlt).mpr (h text htext hne hle))
  · intro h text htext hne hle
    by_cases hlt : numericTokens u (strip u text) < numericTokens u approved
    · exact .inl hlt.le
    · rcases h _ (validatedModelText_eq_some.mpr ⟨text, htext, rfl, hne, hle, hlt⟩) with heq | hkept
      · exact .inr (by rw [heq]; exact le_refl (numericTokens u approved))
      · exact (keepsFigures_iff_comparable hlt).mp hkept

/-! ## The callers -/

/-- The answer is replaced by a validated candidate, or returned with at most one warning more. -/
theorem applyModelWording_cases {u : Unicode} {answer result : AssistantAnswer}
    {model : Option TextModel} {maxTokens : Nat}
    (h : applyModelWording u answer model maxTokens = some result) :
    result = answer ∨ (∃ warning, result = answer.fallback warning) ∨
    ∃ m v, model = some m ∧ answer.status ≠ "refused" ∧ strip u answer.answer ≠ "" ∧
      validatedModelText u answer.answer
        (m.complete (wordingPrompt answer.answer) maxTokens).candidate = some v ∧
      result = { answer with answer := v, generationMode := m.providerId } := by
  cases model with
  | none => exact .inl (by simpa [applyModelWording] using h.symm)
  | some m =>
    simp only [applyModelWording] at h
    split_ifs at h with hskip
    · exact .inl (by simpa using h.symm)
    · obtain ⟨hstatus, hblank⟩ := not_or.mp hskip
      split at h
      · cases h
      · exact .inr (.inl ⟨_, (Option.some.inj h).symm⟩)
      · split at h
        · exact .inr (.inl ⟨_, (Option.some.inj h).symm⟩)
        · rename_i v hv
          exact .inr (.inr ⟨m, v, rfl, hstatus, hblank, hv, (Option.some.inj h).symm⟩)

theorem applyModelWording_of_validated {u : Unicode} {answer : AssistantAnswer} {m : TextModel}
    {maxTokens : Nat} {v : String} (hstatus : answer.status ≠ "refused")
    (hblank : strip u answer.answer ≠ "")
    (hv : validatedModelText u answer.answer
      (m.complete (wordingPrompt answer.answer) maxTokens).candidate = some v) :
    applyModelWording u answer (some m) maxTokens =
      some { answer with answer := v, generationMode := m.providerId } := by
  simp only [applyModelWording, if_neg (not_or.mpr ⟨hstatus, hblank⟩)]
  cases hc : m.complete (wordingPrompt answer.answer) maxTokens with
  | text s =>
    rw [hc] at hv
    simp only [hv]
  | other | unavailable | crashed => simp [hc, Completion.candidate, validatedModelText] at hv

theorem wordingKept_iff (u : Unicode) (answer : AssistantAnswer) (model : Option TextModel)
    (maxTokens : Nat) :
    WordingKept u answer model maxTokens ↔ WordingComparable u answer model maxTokens := by
  constructor
  · rintro h m rfl hstatus hblank
    refine candidateComparable_iff.mpr fun v hv => ?_
    exact (h _ (applyModelWording_of_validated hstatus hblank hv)).1
  · intro h result hresult
    rcases applyModelWording_cases hresult with rfl | ⟨warning, rfl⟩ |
      ⟨m, v, rfl, hstatus, hblank, hv, rfl⟩
    · exact ⟨.inl rfl, rfl, rfl, rfl, List.prefix_refl _⟩
    · exact ⟨.inl rfl, rfl, rfl, rfl, List.prefix_append _ _⟩
    · exact ⟨candidateComparable_iff.mp (h m rfl hstatus hblank) v hv, rfl, rfl, rfl,
        List.prefix_refl _⟩

theorem localise_cases (u : Unicode) (manager : DialogueManager) (response : Response ρ)
    (language : DetectedLanguage) :
    localise u manager response language = response ∨
    ∃ v, (language.code ≠ "en-IN" ∧ response.status ≠ "refused" ∧ response.status ≠ "failed" ∧
        strip u response.answer ≠ "") ∧
      validatedModelText u response.answer (modelText u manager manager.wordingModel
        (translationPrompt response.answer language)) = some v ∧
      localise u manager response language = response.withAnswer v := by
  rw [localise]
  split_ifs with hskip
  · exact .inl rfl
  · obtain ⟨hcode, -, hrefused, hfailed, hblank⟩ := by simpa only [not_or] using hskip
    simp only
    split
    · exact .inl rfl
    · rename_i v hv
      exact .inr ⟨v, ⟨hcode, hrefused, hfailed, hblank⟩, hv, rfl⟩

theorem translationKept_iff (u : Unicode) (manager : DialogueManager) (response : Response ρ)
    (language : DetectedLanguage) : TranslationKept u manager response language ↔
      TranslationComparable u manager response language := by
  constructor
  · intro h hcode hrefused hfailed hblank
    refine candidateComparable_iff.mpr fun v hv => ?_
    have hmodel : manager.wordingModel.isNone = false := by
      cases hm : manager.wordingModel with
      | none => simp [hm, modelText, validatedModelText] at hv
      | some m => rfl
    have hresult : localise u manager response language = response.withAnswer v := by
      simp [localise, hcode, hrefused, hfailed, hblank, hmodel, hv]
    simpa [TranslationKept, hresult] using h.1
  · intro h
    rcases localise_cases u manager response language with hr | ⟨v, hasked, hv, hr⟩
    · simp [TranslationKept, hr]
    · obtain ⟨hcode, hrefused, hfailed, hblank⟩ := hasked
      have hkept := candidateComparable_iff.mp (h hcode hrefused hfailed hblank) v hv
      simpa [TranslationKept, hr] using hkept

/-- **A reworded or translated answer keeps the figures exactly when the candidate that gets as far
as the guard is comparable with it; everything else about the answer is kept in any case.** -/
theorem figuresKept_iff (u : Unicode) :
    (∀ answer model maxTokens, WordingKept u answer model maxTokens ↔
      WordingComparable u answer model maxTokens) ∧
    ∀ (ρ : Type) (manager : DialogueManager) (response : Response ρ) (language : DetectedLanguage),
      TranslationKept u manager response language ↔
        TranslationComparable u manager response language :=
  ⟨wordingKept_iff u, fun _ => translationKept_iff u⟩

/-! ## One figure for another -/

def ascii : Unicode where
  isDecimal c := '0' ≤ c && c ≤ '9'
  isWord c := '0' ≤ c && c ≤ '9' || 'a' ≤ c && c ≤ 'z' || 'A' ≤ c && c ≤ 'Z' || c == '_'
  isSpace c := c == ' ' || c == '\n' || c == '\t'

def twoFigures : AssistantAnswer :=
  ⟨"r1", "complete", "120 students, 85.5% attendance", [], [], ["overview"], none, "deterministic"⟩

/-- A model that keeps one figure and changes the other. -/
def oneChanged : TextModel := ⟨"m1", fun _ _ => .text "120 students, 95.5% attendance"⟩

/-- A figure of the approved answer is replaced by another one. -/
theorem not_figuresKept :
    ¬ ∀ (u : Unicode) (answer : AssistantAnswer) (model : Option TextModel) (maxTokens : Nat),
      WordingKept u answer model maxTokens := by
  intro h
  have hresult : applyModelWording ascii twoFigures (some oneChanged) 800 = some { twoFigures with
      answer := "120 students, 95.5% attendance", generationMode := "m1" } := by decide
  obtain ⟨hanswer | hkept, -⟩ := h ascii twoFigures (some oneChanged) 800 _ hresult
  · exact absurd hanswer (by decide)
  · exact absurd hkept (by unfold KeepsFigures; decide)

end GuruJi.Orchestration
