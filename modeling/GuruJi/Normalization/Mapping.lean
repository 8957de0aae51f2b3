import GuruJi.Ingestion.Pipeline
import GuruJi.Lib.Checks
import GuruJi.Lib.Fold
import GuruJi.Normalization.Conflicts

/-!
# Proposing and applying a mapping

`MappingEngine.propose`: headers scored against the fields of an entity, the model's suggestions for
those left unresolved, a remembered profile instead of both; and `apply_mapping`, which splits a raw
row under the mapping. `approve_mapping` is the pipeline's.

* `propose_unshared`, `propose_valid`: whatever the scores, the model's reply and the profile are, no
  field is proposed for two headers, and only fields of the entity are;
* `propose_keeps`: a header that the scores map confidently stays mapped as it is;
* `approve_proposed`: no target of the proposed mapping is refused;
* **`proposal_sound`**: all of these, and when no raw value of a row is lost.

How a header is scored, and what Python's parsers make of a text, are parameters of the engine.
-/

namespace GuruJi.Normalization

open GuruJi.Lib GuruJi.Records

/-! ## The engine -/

/-- A Python float, as `float(value)` gives it. -/
inductive PyFloat where
  | nan | negInf | posInf
  | finite (q : ℚ)

/-- What `json.loads` gives; a key of an object stands once. -/
inductive Json where
  | null
  | bool (b : Bool)
  | int (i : Int)
  | float (x : PyFloat)
  | string (s : String)
  | array (items : List Json)
  | object (entries : List (String × Json))

inductive MappingError where
  | valueError (message : String)
  | typeError
  | overflowError
  deriving DecidableEq

structure MappingEngine (N : Type) where
  threshold : ℚ
  /-- `_score_header` of a header, a field and the values sampled of its column. -/
  scoreHeader : String → CanonicalField → List (Value N) → ℚ × String
  normalizeHeader : String → String
  /-- `detect_entity`. -/
  detectEntity : List String → Table String (List (Value N)) → CanonicalEntity × ℚ × List (String × ℚ)
  entities : List CanonicalEntity
  /-- `json.loads`, `none` where it raises. -/
  loads : String → Option Json
  /-- `float(text)`, `none` where it raises. -/
  floatOfText : String → Option PyFloat
  /-- `float(i)`, `none` where it raises. -/
  floatOfInt : Int → Option PyFloat

structure MappingProposal where
  entity : CanonicalEntity
  entityConfidence : ℚ
  mappings : List FieldMapping
  threshold : ℚ
  entityAlternatives : List (String × ℚ)
  profileApplied : Bool

abbrev Samples (N : Type) := Table String (List (Value N))

namespace MappingEngine
variable {N : Type} (engine : MappingEngine N)

/-- The candidates of a header, the strongest first. -/
def scored (entity : CanonicalEntity) (header : String) (sample : List (Value N)) :
    List (String × ℚ × String) :=
  (entity.fields.filterMap fun field =>
    let score := engine.scoreHeader header field sample
    if minCandidateConfidence ≤ score.1 then some (field.name, score.1, score.2) else none).mergeSort
      fun a b => b.2.1 ≤ a.2.1

/-- What is proposed for one header: its strongest candidate, in doubt if the next is close. -/
def candidate (header : String) : List (String × ℚ × String) → FieldMapping
  | [] => { sourceHeader := header, canonicalField := none, confidence := 0, method := .unmapped,
            reason := "no canonical field scored above the candidate floor", alternatives := [] }
  | (best, score, reason) :: rest =>
    let alternatives := (rest.take 3).map fun item => (item.1, item.2.1)
    match rest with
    | (next, nextScore, _) :: _ =>
      if score - 1 / 20 ≤ nextScore ∧ next ≠ best then
        { sourceHeader := header, canonicalField := some best,
          confidence := min score (engine.threshold - 1 / 20), method := .heuristic,
          reason := reason ++ "; ambiguous with " ++ next, alternatives }
      else { sourceHeader := header, canonicalField := some best, confidence := score,
             method := .heuristic, reason, alternatives }
    | [] => { sourceHeader := header, canonicalField := some best, confidence := score,
              method := .heuristic, reason, alternatives }

/-- `_deterministic`. -/
def deterministic (entity : CanonicalEntity) (headers : List String) (samples : Samples N) :
    List FieldMapping :=
  resolveConflicts (headers.map fun header =>
    engine.candidate header (engine.scored entity header ((samples.get header).getD [])))

/-! ### The model -/

/-- `float(value)`; a value that is no number counts as `0.0`. -/
def confidenceOf : Option Json → Except MappingError PyFloat
  | none => .ok (.finite 0)
  | some (.bool b) => .ok (.finite (if b then 1 else 0))
  | some (.int i) =>
    match engine.floatOfInt i with
    | some x => .ok x
    | none => .error .overflowError
  | some (.float x) => .ok x
  | some (.string text) => .ok ((engine.floatOfText text).getD (.finite 0))
  | some _ => .ok (.finite 0)

/-- `max(0.0, min(confidence, self.threshold - 0.01))`. -/
def clamp : PyFloat → ℚ
  | .nan => 0
  | .negInf => 0
  | .posInf => max 0 (engine.threshold - 1 / 100)
  | .finite q => max 0 (min q (engine.threshold - 1 / 100))

/-- One entry of the reply; a list or an object as the field cannot be looked up in a set. -/
def suggestion (entity : CanonicalEntity) (unresolved : List String)
    (result : Table String (Option String × ℚ)) :
    String × Json → Except MappingError (Table String (Option String × ℚ))
  | (header, .object entries) =>
    if header ∉ unresolved then .ok result
    else do
      let confidence ← engine.confidenceOf (Table.get entries "confidence")
      match Table.get entries "field" with
      | none | some .null => return result.assign header (none, engine.clamp confidence)
      | some (.string name) =>
        if name ∈ entity.fieldNames then return result.assign header (some name, engine.clamp confidence)
        else return result
      | some (.array _) | some (.object _) => throw .typeError
      | some _ => return result
  | _ => .ok result

/-- The reply from its first opening to its last closing brace. -/
def braced (raw : String) : String :=
  String.ofList ((raw.toList.dropWhile (· ≠ '{')).rdropWhile (· ≠ '}'))

/-- `_model_assist`; `reply` is what the model answers, `none` without one or if it fails. -/
def modelAssist (entity : CanonicalEntity) (unresolved : List FieldMapping) (reply : Option String) :
    Except MappingError (Table String (Option String × ℚ)) :=
  match reply with
  | none => .ok []
  | some raw =>
    if unresolved = [] ∨ braced raw = "" then .ok []
    else
      match engine.loads (braced raw) with
      | some (.object payload) =>
        payload.foldlM (engine.suggestion entity (unresolved.map (·.sourceHeader))) []
      | _ => .ok []

/-- A suggestion, where the scores have nothing or less. -/
def assist (assisted : Table String (Option String × ℚ)) (item : FieldMapping) : FieldMapping :=
  match assisted.get item.sourceHeader with
  | some (field, confidence) =>
    if item.canonicalField = none ∨ item.confidence < confidence then
      { sourceHeader := item.sourceHeader, canonicalField := field, confidence,
        method := .modelSuggestion, reason := "model proposed; requires review",
        alternatives := item.alternatives }
    else item
  | none => item

def unresolved (proposals : List FieldMapping) : List FieldMapping :=
  proposals.filter fun item => item.canonicalField = none ∨ item.confidence < engine.threshold

/-! ### A remembered profile -/

/-- The first valid target of each normalised header. -/
def byNormalized (valid : List String) (profile : Table String String) : Table String String :=
  profile.foldl (fun table entry =>
    if entry.2 ∈ valid ∧ (table.get (engine.normalizeHeader entry.1)).isNone then
      table.assign (engine.normalizeHeader entry.1) entry.2
    else table) []

def remembered (valid headers : List String) (profile : Table String String) (header : String) :
    Option String :=
  match profile.get header with
  | some target => if target ∈ valid then some target else none
  | none =>
    let named := (headers.filter fun other => (profile.get other).isSome).map engine.normalizeHeader
    if engine.normalizeHeader header ∈ named then none
    else (engine.byNormalized valid profile).get (engine.normalizeHeader header)

def fromProfile (valid headers : List String) (profile : Table String String) : List FieldMapping :=
  resolveConflicts (headers.map fun header =>
    let target := engine.remembered valid headers profile header
    { sourceHeader := header, canonicalField := target, confidence := if Ingestion.Pipeline.orNone target = none then 0 else 1,
      method := .approvedProfile, reason := "reused an approved mapping profile", alternatives := [] })

/-- The entity that is proposed for, with the confidence in it and the others that were considered. -/
def chooseEntity (headers : List String) (samples : Samples N) (hint : Option String) :
    Except MappingError (CanonicalEntity × ℚ × List (String × ℚ)) :=
  match Ingestion.Pipeline.orNone hint with
  | some name =>
    match engine.entities.find? (·.name = name) with
    | some entity => .ok (entity, 1, [])
    | none => .error (.valueError ("unknown entity: " ++ name))
  | none => .ok (engine.detectEntity headers samples)

/-- `propose`. -/
def propose (headers : List String) (samples : Samples N) (hint : Option String)
    (profile : Table String String) (reply : Option String) : Except MappingError MappingProposal := do
  let (entity, confidence, alternatives) ← engine.chooseEntity headers samples hint
  if profile ≠ [] then
    return { entity, entityConfidence := confidence,
             mappings := engine.fromProfile entity.fieldNames headers profile,
             threshold := engine.threshold, entityAlternatives := alternatives, profileApplied := true }
  else
    let proposals := engine.deterministic entity headers samples
    let assisted ← engine.modelAssist entity (engine.unresolved proposals) reply
    return { entity, entityConfidence := confidence,
             mappings := resolveConflicts (proposals.map (assist assisted)),
             threshold := engine.threshold, entityAlternatives := alternatives, profileApplied := false }

end MappingEngine

namespace MappingProposal

/-- `{item.source_header: item.canonical_field ...}`, as a reviewer is shown it. -/
def proposedMapping (proposal : MappingProposal) : Table String (Option String) :=
  proposal.mappings.foldl (fun table item => table.assign item.sourceHeader item.canonicalField) []

/-- `mapped`: header to field for every confident mapping. -/
def mapped (proposal : MappingProposal) : Table String String :=
  proposal.mappings.foldl (fun table item =>
    match item.field with
    | some field =>
      if proposal.threshold ≤ item.confidence then table.assign item.sourceHeader field else table
    | none => table) []

end MappingProposal

/-! ## A raw row -/

section
variable {N : Type} [Python N]

/-- `value in (None, "")`. -/
def empty : Value N → Bool
  | .null => true
  | .text s => s = ""
  | _ => false

def target (valid : List String) (mapping : Table String String) (header : String) : Option String :=
  (mapping.get header).filter (· ∈ valid)

/-- Each value goes to the field its header is mapped to, or to the row's attributes. -/
def split (valid : List String) (mapping : Table String String)
    (parts : Table String (Value N) × Table String (Value N)) (cell : String × Value N) :
    Table String (Value N) × Table String (Value N) :=
  match target valid mapping cell.1 with
  | some target => (parts.1.assign target cell.2, parts.2)
  | none => if empty cell.2 then parts else (parts.1, parts.2.assign cell.1 cell.2)

/-- `str(canonical.get(key, "")).strip()`. -/
def namePart (canonical : Table String (Value N)) (key : String) : String :=
  Lib.strip (Python.isSpace N) (((canonical.get key).map Value.str).getD "")

/-- First and last name, of what there is of them. -/
def combinedName (canonical : Table String (Value N)) : String :=
  " ".intercalate ((["first_name", "last_name"].map (namePart canonical)).filter (· ≠ ""))

/-- `apply_mapping`. -/
def applyMapping (entity : CanonicalEntity) (mapping : Table String String)
    (fields : Table String (Value N)) : Table String (Value N) × Table String (Value N) :=
  let parts := fields.foldl (split entity.fieldNames mapping) ([], [])
  if "name" ∈ entity.fieldNames ∧ ¬((parts.1.get "name").any Value.truthy) ∧
    combinedName parts.1 ≠ "" then
    (parts.1.assign "name" (.text (combinedName parts.1)), parts.2)
  else parts

end

/-! ## What is proposed -/

namespace MappingEngine
variable {N : Type} {engine : MappingEngine N} {entity : CanonicalEntity} {headers : List String}
  {samples : Samples N} {hint reply : Option String} {profile : Table String String}
  {proposal : MappingProposal} {assisted : Table String (Option String × ℚ)}

theorem propose_cases (h : engine.propose headers samples hint profile reply = .ok proposal) :
    proposal.threshold = engine.threshold ∧
      (profile ≠ [] ∧ proposal.mappings = engine.fromProfile proposal.entity.fieldNames headers profile ∨
        profile = [] ∧ ∃ assisted,
          engine.modelAssist proposal.entity
            (engine.unresolved (engine.deterministic proposal.entity headers samples)) reply =
              .ok assisted ∧
          proposal.mappings = resolveConflicts
            ((engine.deterministic proposal.entity headers samples).map (assist assisted))) := by
  obtain ⟨⟨entity, confidence, alternatives⟩, -, h⟩ := bind_eq_ok.mp (show (_ >>= _) = _ from h)
  simp only at h
  split_ifs at h with hprofile
  · obtain rfl := Except.ok.inj h
    exact ⟨rfl, .inl ⟨hprofile, rfl⟩⟩
  · obtain ⟨assisted, hassisted, h⟩ := bind_eq_ok.mp h
    obtain rfl := Except.ok.inj h
    exact ⟨rfl, .inr ⟨not_not.mp hprofile, assisted, hassisted, rfl⟩⟩

variable {name : String} {item : FieldMapping} {valid : List String} {header : String}

/-- No field is proposed for two headers. -/
theorem propose_unshared (h : engine.propose headers samples hint profile reply = .ok proposal)
    {i j : Nat} {a b : FieldMapping} (ha : proposal.mappings[i]? = some a)
    (hb : proposal.mappings[j]? = some b) (hai : a.field = some name) (hbj : b.field = some name) :
    i = j := by
  rcases (propose_cases h).2 with ⟨-, hmappings⟩ | ⟨-, assisted, -, hmappings⟩
  · rw [hmappings] at ha hb
    exact resolve_unshared ha hb hai hbj
  · rw [hmappings] at ha hb
    exact resolve_unshared ha hb hai hbj

/-! ### Valid fields -/

/-- A header mapped to fields of the entity only, also if it has to fall back. -/
def Valid (valid : List String) (item : FieldMapping) : Prop :=
  (∀ name, item.canonicalField = some name → name ∈ valid) ∧ ∀ alt ∈ item.alternatives, alt.1 ∈ valid

theorem valid_demoted {claims : Claims} {winner : Nat} (hname : name ∈ valid) (h : Valid valid item) :
    Valid valid (claims.demoted name winner item) := by
  unfold Claims.demoted
  cases hfallback : claims.fallback item with
  | none =>
    refine ⟨fun other hother => ?_, List.forall_mem_cons.mpr ⟨hname, h.2⟩⟩
    cases hother
  | some alt =>
    refine ⟨fun other hother => ?_, h.2⟩
    obtain rfl : alt.1 = other := Option.some.inj hother
    exact h.2 alt (Claims.fallback_spec hfallback).1

theorem valid_resolve {proposals : List FieldMapping}
    (h : ∀ item ∈ proposals, Valid valid item) : ∀ item ∈ resolveConflicts proposals,
        Valid valid item := by
  have heach : ∀ (index : Nat) (item : FieldMapping),
      (resolveConflicts proposals)[index]? = some item → Valid valid item := by
    refine resolve_each (fun _ item => Valid valid item) ?_ fun index item hitem =>
      h item (List.mem_of_getElem? hitem)
    rintro claims name winner index item ⟨i, hheld⟩ hitem
    obtain ⟨holder, hholder, hfield⟩ := mem_held.mp hheld
    exact valid_demoted ((h holder (List.mem_of_getElem? hholder)).1 name (field_eq_some.mp hfield).1)
      hitem
  intro item hitem
  obtain ⟨index, hindex⟩ := List.mem_iff_getElem?.mp hitem
  exact heach index item hindex

theorem mem_scored {sample : List (Value N)} {entry : String × ℚ × String}
    (h : entry ∈ engine.scored entity header sample) :
    entry.1 ∈ entity.fieldNames ∧ minCandidateConfidence ≤ entry.2.1 := by
  rw [scored, List.mem_mergeSort, List.mem_filterMap] at h
  obtain ⟨field, hfield, hentry⟩ := h
  simp only at hentry
  split_ifs at hentry with hscore
  obtain rfl := Option.some.inj hentry
  exact ⟨List.mem_map.mpr ⟨field, hfield, rfl⟩, hscore⟩

/-- A confident header is confident because of its score. -/
def Scored (threshold : ℚ) (item : FieldMapping) : Prop :=
  item.canonicalField ≠ none → threshold ≤ item.confidence → minCandidateConfidence ≤ item.confidence

theorem candidate_header {entries : List (String × ℚ × String)} :
    (engine.candidate header entries).sourceHeader = header := by
  unfold candidate
  split
  · rfl
  · split
    · split_ifs <;> rfl
    · rfl

theorem candidate_spec {entries : List (String × ℚ × String)}
    (h : ∀ entry ∈ entries, entry.1 ∈ valid ∧ minCandidateConfidence ≤ entry.2.1) :
    Valid valid (engine.candidate header entries) ∧
      Scored engine.threshold (engine.candidate header entries) := by
  unfold candidate
  split
  · refine ⟨⟨fun name hname => ?_, fun alt halt => absurd halt List.not_mem_nil⟩, fun hne =>
      absurd rfl hne⟩
    cases hname
  · rename_i best score reason rest
    obtain ⟨hbest, hrest⟩ := List.forall_mem_cons.mp h
    have halternatives : ∀ alt ∈ (rest.take 3).map fun item => (item.1, item.2.1), alt.1 ∈ valid := by
      intro alt halt
      obtain ⟨entry, hentry, rfl⟩ := List.mem_map.mp halt
      exact (hrest entry (List.mem_of_mem_take hentry)).1
    have hvalid : ∀ name, some best = some name → name ∈ valid := by
      rintro name ⟨⟩
      exact hbest.1
    split
    · split_ifs
      · refine ⟨⟨hvalid, halternatives⟩, fun _ hconfident => absurd hconfident (not_le.mpr ?_)⟩
        exact (min_le_right _ _).trans_lt (sub_lt_self _ (by norm_num))
      · exact ⟨⟨hvalid, halternatives⟩, fun _ _ => hbest.2⟩
    · exact ⟨⟨hvalid, halternatives⟩, fun _ _ => hbest.2⟩

theorem scored_demoted {threshold : ℚ} {claims : Claims} {winner : Nat}
    : Scored threshold (claims.demoted name winner item) := by
  unfold Claims.demoted
  cases hfallback : claims.fallback item with
  | none => exact fun hne => absurd rfl hne
  | some alt =>
    intro _ _
    refine le_min (Claims.fallback_spec hfallback).2.2 ?_
    norm_num [minCandidateConfidence, defaultConfidenceThreshold]

/-- What the scores propose: fields of the entity, and confidence only where they are. -/
theorem deterministic_spec (h : item ∈ engine.deterministic entity headers samples) :
    Valid entity.fieldNames item ∧ Scored engine.threshold item := by
  have hcandidates : ∀ item ∈ headers.map (fun header =>
      engine.candidate header (engine.scored entity header ((samples.get header).getD []))),
      Valid entity.fieldNames item ∧ Scored engine.threshold item := by
    intro item hitem
    obtain ⟨header, -, rfl⟩ := List.mem_map.mp hitem
    exact candidate_spec fun entry hentry => mem_scored hentry
  refine ⟨valid_resolve (fun item hitem => (hcandidates item hitem).1) item h, ?_⟩
  obtain ⟨index, hindex⟩ := List.mem_iff_getElem?.mp h
  refine resolve_each (fun _ item => Scored engine.threshold item)
    (fun _ _ _ _ _ _ _ => scored_demoted) (fun index item hitem => ?_) index item hindex
  exact (hcandidates item (List.mem_of_getElem? hitem)).2

/-! ### The model's suggestions -/

/-- A suggestion names a field of the entity, or none, and never crosses the threshold. -/
def Modest (engine : MappingEngine N) (valid : List String)
    (assisted : Table String (Option String × ℚ)) : Prop :=
  ∀ header field confidence, assisted.get header = some (field, confidence) →
    (∀ name, field = some name → name ∈ valid) ∧ confidence ≤ max 0 (engine.threshold - 1 / 100)

theorem clamp_le (x : PyFloat) : engine.clamp x ≤ max 0 (engine.threshold - 1 / 100) := by
  cases x with
  | nan => exact le_max_left _ _
  | negInf => exact le_max_left _ _
  | posInf => exact le_refl _
  | finite q => exact max_le_max (le_refl 0) (min_le_right _ _)

theorem modest_assign {field : Option String} {x : PyFloat}
    (h : Modest engine valid assisted) (hfield : ∀ name, field = some name → name ∈ valid) :
    Modest engine valid (assisted.assign header (field, engine.clamp x)) := by
  intro other field' confidence hget
  rw [Table.get_assign] at hget
  split_ifs at hget
  · obtain ⟨rfl, rfl⟩ := Prod.mk.inj (Option.some.inj hget)
    exact ⟨hfield, clamp_le x⟩
  · exact h other field' confidence hget

theorem suggestion_modest {unresolved : List String} {result : Table String (Option String × ℚ)}
    {entry : String × Json} (h : Modest engine entity.fieldNames assisted)
    (hresult : engine.suggestion entity unresolved assisted entry = .ok result) :
    Modest engine entity.fieldNames result := by
  unfold suggestion at hresult
  split at hresult
  · rename_i header entries
    by_cases hheader : header ∉ unresolved
    · rw [if_pos hheader] at hresult
      rwa [← Except.ok.inj hresult]
    · rw [if_neg hheader] at hresult
      obtain ⟨x, -, hresult⟩ := bind_eq_ok.mp hresult
      split at hresult
      · rw [← Except.ok.inj hresult]
        exact modest_assign h fun name hname => by cases hname
      · rw [← Except.ok.inj hresult]
        exact modest_assign h fun name hname => by cases hname
      · rename_i name _
        split_ifs at hresult with hvalid
        · rw [← Except.ok.inj hresult]
          refine modest_assign h ?_
          rintro other ⟨⟩
          exact hvalid
        · rwa [← Except.ok.inj hresult]
      · cases hresult
      · cases hresult
      · rwa [← Except.ok.inj hresult]
  · rwa [← Except.ok.inj hresult]

theorem modelAssist_modest {unresolved : List FieldMapping}
    (h : engine.modelAssist entity unresolved reply = .ok assisted) :
    Modest engine entity.fieldNames assisted := by
  have hnone : Modest engine entity.fieldNames [] := fun header field confidence hget => by cases hget
  unfold modelAssist at h
  split at h
  · rwa [← Except.ok.inj h]
  · split_ifs at h
    · rwa [← Except.ok.inj h]
    · split at h
      · exact foldlM_induct (fun _ _ _ => suggestion_modest) hnone h
      · rwa [← Except.ok.inj h]

theorem assist_confident (h : Modest engine valid assisted)
    (hscored : Scored engine.threshold item) (hfield : item.canonicalField ≠ none)
    (hconfident : engine.threshold ≤ item.confidence) :
    assist assisted item = item ∧ max 0 (engine.threshold - 1 / 100) < item.confidence := by
  have hstrong : max 0 (engine.threshold - 1 / 100) < item.confidence := by
    refine max_lt ?_ ((sub_lt_self _ (by norm_num)).trans_le hconfident)
    exact lt_of_lt_of_le (by norm_num [minCandidateConfidence]) (hscored hfield hconfident)
  refine ⟨?_, hstrong⟩
  unfold assist
  split
  · rename_i field confidence hget
    rw [if_neg]
    rintro (hnone | hlt)
    · exact hfield hnone
    · exact absurd ((h _ _ _ hget).2.trans_lt hstrong) (not_lt.mpr hlt.le)
  · rfl

theorem assist_cases (h : Modest engine valid assisted) (hvalid : Valid valid item) :
    Valid valid (assist assisted item) ∧ (assist assisted item).sourceHeader = item.sourceHeader ∧
      (assist assisted item = item ∨
        (assist assisted item).confidence ≤ max 0 (engine.threshold - 1 / 100)) := by
  unfold assist
  split
  · rename_i field confidence hget
    split_ifs
    · exact ⟨⟨(h _ _ _ hget).1, hvalid.2⟩, rfl, .inr (h _ _ _ hget).2⟩
    · exact ⟨hvalid, rfl, .inl rfl⟩
  · exact ⟨hvalid, rfl, .inl rfl⟩

/-- **A confident header stays mapped as it is.** -/
theorem propose_keeps (h : engine.propose headers samples hint [] reply = .ok proposal) {i : Nat}
    (hitem : (engine.deterministic proposal.entity headers samples)[i]? = some item)
    (hfield : item.field = some name) (hconfident : engine.threshold ≤ item.confidence) :
    proposal.mappings[i]? = some item := by
  rcases (propose_cases h).2 with ⟨hne, -⟩ | ⟨-, assisted, hassisted, hmappings⟩
  · exact absurd rfl hne
  have hmodest := modelAssist_modest hassisted
  have hcanonical : item.canonicalField ≠ none := by
    rw [(field_eq_some.mp hfield).1]
    exact Option.some_ne_none name
  obtain ⟨hsame, hstrong⟩ := assist_confident hmodest (deterministic_spec (List.mem_of_getElem? hitem)).2
    hcanonical hconfident
  rw [hmappings]
  refine resolve_keeps ?_ hfield ?_
  · rw [List.getElem?_map, hitem]
    exact congrArg some hsame
  · intro j other hne hother hname
    rw [List.getElem?_map] at hother
    obtain ⟨before, hbefore, rfl⟩ := Option.map_eq_some_iff.mp hother
    have hspec := deterministic_spec (List.mem_of_getElem? hbefore)
    rcases (assist_cases hmodest hspec.1).2.2 with hkept | hlow
    · rw [hkept] at hname
      exact absurd (resolve_unshared hbefore hitem hname hfield) hne
    · exact hlow.trans_lt hstrong

/-! ### Fields and headers of the proposal -/

theorem byNormalized_valid {key target : String}
    (h : (engine.byNormalized valid profile).get key = some target) : target ∈ valid := by
  refine foldl_keeps (P := fun table : Table String String =>
    ∀ key target, table.get key = some target → target ∈ valid) ?_ (fun _ _ h => by cases h) key target h
  intro entry _ table htable key target hget
  split_ifs at hget with hvalid
  · rw [Table.get_assign] at hget
    split_ifs at hget
    · rw [← Option.some.inj hget]
      exact hvalid.1
    · exact htable key target hget
  · exact htable key target hget

theorem remembered_valid {header target : String}
    (h : engine.remembered valid headers profile header = some target) : target ∈ valid := by
  unfold remembered at h
  split at h
  · split_ifs at h with hvalid
    rwa [← Option.some.inj h]
  · simp only at h
    split_ifs at h
    exact byNormalized_valid h

theorem fromProfile_valid : ∀ item ∈ engine.fromProfile valid headers profile, Valid valid item := by
  refine valid_resolve fun item hitem => ?_
  obtain ⟨header, -, rfl⟩ := List.mem_map.mp hitem
  exact ⟨fun name hname => remembered_valid hname, fun alt halt => absurd halt List.not_mem_nil⟩

/-- Only fields of the entity are proposed. -/
theorem propose_valid (h : engine.propose headers samples hint profile reply = .ok proposal) :
    ∀ item ∈ proposal.mappings, Valid proposal.entity.fieldNames item := by
  rcases (propose_cases h).2 with ⟨-, hmappings⟩ | ⟨-, assisted, hassisted, hmappings⟩
  · rw [hmappings]
    exact fromProfile_valid
  · rw [hmappings]
    refine valid_resolve fun item hitem => ?_
    obtain ⟨before, hbefore, rfl⟩ := List.mem_map.mp hitem
    exact (assist_cases (modelAssist_modest hassisted) (deterministic_spec hbefore).1).1

theorem resolve_headers {proposals : List FieldMapping}
    (h : ∀ item ∈ proposals, item.sourceHeader ∈ headers) :
    ∀ item ∈ resolveConflicts proposals, item.sourceHeader ∈ headers := by
  intro item hitem
  obtain ⟨index, hindex⟩ := List.mem_iff_getElem?.mp hitem
  refine resolve_each (fun _ item => item.sourceHeader ∈ headers)
    (fun claims name winner _ item _ hold => ?_)
    (fun index item hitem => h item (List.mem_of_getElem? hitem)) index item hindex
  unfold Claims.demoted
  split
  · exact hold
  · exact hold

theorem propose_headers (h : engine.propose headers samples hint profile reply = .ok proposal) :
    ∀ item ∈ proposal.mappings, item.sourceHeader ∈ headers := by
  rcases (propose_cases h).2 with ⟨-, hmappings⟩ | ⟨-, assisted, hassisted, hmappings⟩
  · rw [hmappings]
    refine resolve_headers fun item hitem => ?_
    obtain ⟨header, hheader, rfl⟩ := List.mem_map.mp hitem
    exact hheader
  · rw [hmappings]
    refine resolve_headers fun item hitem => ?_
    obtain ⟨before, hbefore, rfl⟩ := List.mem_map.mp hitem
    rw [(assist_cases (modelAssist_modest hassisted) (deterministic_spec hbefore).1).2.1]
    refine resolve_headers (fun item hitem => ?_) before hbefore
    obtain ⟨header, hheader, rfl⟩ := List.mem_map.mp hitem
    rwa [candidate_header]

end MappingEngine

/-! ## The mapping by header -/

/-- No two of the headers of a list hold one field. -/
def Unshared (mappings : List FieldMapping) : Prop :=
  ∀ (i j : Nat) (a b : FieldMapping) (name : String), mappings[i]? = some a → mappings[j]? = some b →
    a.field = some name → b.field = some name → i = j

namespace MappingProposal
variable {proposal : MappingProposal} {header header' name : String}

theorem nodup_proposed : (proposal.proposedMapping.map Prod.fst).Nodup := by
  refine foldl_keeps (P := fun table : Table String (Option String) => (table.map Prod.fst).Nodup)
    (fun item _ table htable => ?_) List.nodup_nil
  exact Table.nodup_keys_assign htable item.sourceHeader item.canonicalField

theorem mem_proposed {entry : String × Option String} (h : entry ∈ proposal.proposedMapping) :
    ∃ item ∈ proposal.mappings, item.sourceHeader = entry.1 ∧ item.canonicalField = entry.2 := by
  refine foldl_keeps (P := fun table : Table String (Option String) => ∀ entry ∈ table,
    ∃ item ∈ proposal.mappings, item.sourceHeader = entry.1 ∧ item.canonicalField = entry.2)
    ?_ (fun entry h => absurd h List.not_mem_nil) entry h
  intro item hitem table htable entry hentry
  rcases Table.eq_or_mem_of_mem_assign hentry with rfl | hentry
  · exact ⟨item, hitem, rfl, rfl⟩
  · exact htable entry hentry

theorem proposed_unshared (hunshared : Unshared proposal.mappings) (hname : name ≠ "")
    (h : (header, some name) ∈ proposal.proposedMapping)
    (h' : (header', some name) ∈ proposal.proposedMapping) : header = header' := by
  obtain ⟨a, ha, rfl, hafield⟩ := mem_proposed h
  obtain ⟨b, hb, rfl, hbfield⟩ := mem_proposed h'
  obtain ⟨i, hi⟩ := List.mem_iff_getElem?.mp ha
  obtain ⟨j, hj⟩ := List.mem_iff_getElem?.mp hb
  obtain rfl := hunshared i j a b name hi hj (field_eq_some.mpr ⟨hafield, hname⟩)
    (field_eq_some.mpr ⟨hbfield, hname⟩)
  rw [Option.some.inj (hi.symm.trans hj)]

theorem get_mapped {header name : String} (h : proposal.mapped.get header = some name) :
    ∃ item ∈ proposal.mappings, item.sourceHeader = header ∧ item.field = some name := by
  refine foldl_keeps (P := fun table : Table String String => ∀ header name,
    table.get header = some name →
      ∃ item ∈ proposal.mappings, item.sourceHeader = header ∧ item.field = some name)
    ?_ (fun header name h => by cases h) header name h
  intro item hitem table htable header name hget
  split at hget
  · rename_i field hfield
    split_ifs at hget
    · rw [Table.get_assign] at hget
      split_ifs at hget with heq
      · exact ⟨item, hitem, heq.symm, by rw [hfield, Option.some.inj hget]⟩
      · exact htable header name hget
    · exact htable header name hget
  · exact htable header name hget

theorem mapped_unshared (hunshared : Unshared proposal.mappings)
    (h : proposal.mapped.get header = some name) (h' : proposal.mapped.get header' = some name) :
    header = header' := by
  obtain ⟨a, ha, rfl, hafield⟩ := get_mapped h
  obtain ⟨b, hb, rfl, hbfield⟩ := get_mapped h'
  obtain ⟨i, hi⟩ := List.mem_iff_getElem?.mp ha
  obtain ⟨j, hj⟩ := List.mem_iff_getElem?.mp hb
  obtain rfl := hunshared i j a b name hi hj hafield hbfield
  rw [Option.some.inj (hi.symm.trans hj)]

end MappingProposal

/-! ## Approving the proposal -/

section
open Ingestion Ingestion.Pipeline
variable {N ν : Type} {service : IngestionService N ν} {entityName : String} {definition : EntityFields}
  {headers : List String} {approved out : Table String String} {mapping : Table String (Option String)}

theorem orNone_eq_some {text : Option String} {s : String} :
    orNone text = some s ↔ text = some s ∧ s ≠ "" := by
  rw [orNone, Option.filter_eq_some_iff]
  simp

theorem mem_approveTarget {entry : String × Option String}
    (h : approveTarget service entityName definition headers approved entry = .ok out)
    {e : String × String} (he : e ∈ out) : e ∈ approved ∨ entry = (e.1, some e.2) ∧ e.2 ≠ "" := by
  obtain ⟨header, target⟩ := entry
  simp only [approveTarget] at h
  cases htarget : orNone target with
  | none =>
    rw [htarget] at h
    rw [← Except.ok.inj h] at he
    exact .inl he
  | some name =>
    rw [htarget] at h
    simp only at h
    split_ifs at h
    split at h
    · cases h
    · rw [← Except.ok.inj h] at he
      rcases Table.eq_or_mem_of_mem_assign he with rfl | he
      · obtain ⟨rfl, hne⟩ := orNone_eq_some.mp htarget
        exact .inr ⟨rfl, hne⟩
      · exact .inl he

theorem mem_approved (h : mapping.foldlM (approveTarget service entityName definition headers) approved =
    .ok out) {e : String × String} (he : e ∈ out) :
    e ∈ approved ∨ (e.1, some e.2) ∈ mapping ∧ e.2 ≠ "" := by
  induction mapping generalizing approved with
  | nil =>
    obtain rfl : approved = out := Except.ok.inj h
    exact .inl he
  | cons entry mapping ih =>
    rw [List.foldlM_cons] at h
    obtain ⟨next, hnext, hrest⟩ := bind_eq_ok.mp h
    rcases ih hrest with hmem | ⟨hmem, hne⟩
    · rcases mem_approveTarget hnext hmem with hmem | ⟨heq, hne⟩
      · exact .inl hmem
      · exact .inr ⟨List.mem_cons.mpr (.inl heq.symm), hne⟩
    · exact .inr ⟨List.mem_cons_of_mem entry hmem, hne⟩

theorem not_doubled {proposal : MappingProposal} (hunshared : Unshared proposal.mappings)
    {before after : Table String (Option String)} {header target : String}
    (hsplit : proposal.proposedMapping = before ++ (header, some target) :: after)
        (htarget : target ≠ "")
    (h : before.foldlM (approveTarget service entityName definition headers) [] = .ok approved) :
    approved.find? (·.2 == target) = none := by
  rw [List.find?_eq_none]
  rintro ⟨holder, chosen⟩ hmem heq
  obtain rfl : chosen = target := by simpa using heq
  obtain ⟨hbefore, -⟩ := (mem_approved h hmem).resolve_left List.not_mem_nil
  have hholder : (holder, some chosen) ∈ proposal.proposedMapping := by
    rw [hsplit]
    exact List.mem_append_left _ hbefore
  have hheader : (header, some chosen) ∈ proposal.proposedMapping := by
    rw [hsplit]
    exact List.mem_append_right _ List.mem_cons_self
  obtain rfl := proposal.proposed_unshared hunshared htarget hholder hheader
  have hnodup := proposal.nodup_proposed
  rw [hsplit, List.map_append, List.nodup_append] at hnodup
  exact hnodup.2.2 holder (List.mem_map.mpr ⟨_, hbefore, rfl⟩) holder (by simp) rfl

/-- **The checks of `approve_mapping` pass** for every target of a proposed mapping. -/
theorem approve_proposed {proposal : MappingProposal} (hunshared : Unshared proposal.mappings)
    (hvalid : ∀ item ∈ proposal.mappings, ∀ name, item.field = some name → name ∈ definition.fieldNames)
    (hheaders : ∀ item ∈ proposal.mappings, item.sourceHeader ∈ headers) :
    ∃ out, proposal.proposedMapping.foldlM
      (approveTarget service entityName definition headers) [] = .ok out := by
  suffices hsuffix : ∀ after before approved, proposal.proposedMapping = before ++ after →
      before.foldlM (approveTarget service entityName definition headers) [] = .ok approved →
      ∃ out, after.foldlM (approveTarget service entityName definition headers) approved = .ok out from
    hsuffix _ [] [] rfl rfl
  intro after
  induction after with
  | nil => exact fun before approved _ _ => ⟨approved, rfl⟩
  | cons entry after ih =>
    intro before approved hsplit hbefore
    have hstep : ∃ next, approveTarget service entityName definition headers approved entry =
      .ok next := by
      obtain ⟨header, target⟩ := entry
      simp only [approveTarget]
      cases htarget : orNone target with
      | none => exact ⟨approved, rfl⟩
      | some name =>
        obtain ⟨rfl, hne⟩ := orNone_eq_some.mp htarget
        have hmem : (header, some name) ∈ proposal.proposedMapping := by
          rw [hsplit]
          exact List.mem_append_right before List.mem_cons_self
        obtain ⟨item, hitem, hheader, hfield⟩ := MappingProposal.mem_proposed hmem
        have hname : name ∈ definition.fieldNames :=
          hvalid item hitem name (field_eq_some.mpr ⟨hfield, hne⟩)
        have hknown : header ∈ headers := by
          rw [← show item.sourceHeader = header from hheader]
          exact hheaders item hitem
        have hfree := not_doubled hunshared hsplit hne hbefore
        refine ⟨approved.assign header name, ?_⟩
        simp only [List.contains_iff_mem.mpr hname, List.contains_iff_mem.mpr hknown, hfree,
          Bool.not_true, Bool.and_false, Bool.false_eq_true, if_false]
    obtain ⟨next, hnext⟩ := hstep
    have hsofar : (before ++ [entry]).foldlM (approveTarget service entityName definition headers) [] =
        .ok next := by
      rw [List.foldlM_append, hbefore]
      exact bind_eq_ok.mpr ⟨approved, rfl, bind_eq_ok.mpr ⟨next, hnext, rfl⟩⟩
    obtain ⟨out, hout⟩ := ih (before ++ [entry]) next (by rw [hsplit, List.append_assoc]; rfl) hsofar
    refine ⟨out, ?_⟩
    rw [List.foldlM_cons, hnext]
    exact hout

end

/-! ## A row under the mapping -/

section
variable {N : Type} {valid : List String} {mapping : Table String String}
  {fields : Table String (Value N)} {parts : Table String (Value N) × Table String (Value N)}
  {header name : String} {value : Value N}

def Injective (valid : List String) (mapping : Table String String) : Prop :=
  ∀ header other name, target valid mapping header = some name → target valid mapping other = some name →
    header = other

theorem split_field (cell : String × Value N) : (split valid mapping parts cell).1.get name =
    if target valid mapping cell.1 = some name then some cell.2 else parts.1.get name := by
  unfold split
  cases htarget : target valid mapping cell.1 with
  | none =>
    rw [if_neg (show ¬(none : Option String) = some name from nofun)]
    by_cases hempty : empty cell.2 <;> simp [hempty]
  | some field =>
    show (parts.1.assign field cell.2).get name = _
    rw [Table.get_assign]
    simp only [Option.some.injEq, eq_comm]

theorem split_attribute (cell : String × Value N) : (split valid mapping parts cell).2.get header =
    if cell.1 = header ∧ target valid mapping header = none ∧ empty cell.2 = false then some cell.2
    else parts.2.get header := by
  unfold split
  by_cases hheader : cell.1 = header
  · subst hheader
    cases htarget : target valid mapping cell.1 with
    | some field => simp
    | none =>
      cases hempty : empty cell.2 with
      | true => simp
      | false => simp [Table.get_assign]
  · rw [if_neg fun h : cell.1 = header ∧ _ => hheader h.1]
    cases htarget : target valid mapping cell.1 with
    | some field => rfl
    | none =>
      cases hempty : empty cell.2 with
      | true => simp
      | false => simp [Table.get_assign, Ne.symm hheader]

theorem splits_field_other (hother : ∀ cell ∈ fields, target valid mapping cell.1 ≠ some name) :
    (fields.foldl (split valid mapping) parts).1.get name = parts.1.get name := by
  refine foldl_keeps (P := fun now : Table String (Value N) × Table String (Value N) =>
    now.1.get name = parts.1.get name) ?_ rfl
  intro cell hcell now hnow
  rw [split_field, if_neg (hother cell hcell), hnow]

theorem splits_field (hmapping : Injective valid mapping) (hkeys : (fields.map Prod.fst).Nodup)
    (hcell : (header, value) ∈ fields) (htarget : target valid mapping header = some name) :
    (fields.foldl (split valid mapping) parts).1.get name = some value := by
  induction fields generalizing parts with
  | nil => cases hcell
  | cons cell fields ih =>
    obtain ⟨hcell', hkeys⟩ := List.nodup_cons.mp hkeys
    rw [List.foldl_cons]
    rcases List.mem_cons.mp hcell with rfl | hmem
    · rw [splits_field_other, split_field, if_pos htarget]
      intro other hother hsame
      obtain heq := hmapping _ _ _ hsame htarget
      exact hcell' (List.mem_map.mpr ⟨other, hother, heq⟩)
    · exact ih hkeys hmem

theorem field_splits (h : (fields.foldl (split valid mapping) ([], [])).1.get name = some value) :
    ∃ header, (header, value) ∈ fields ∧ target valid mapping header = some name := by
  refine foldl_keeps (P := fun now : Table String (Value N) × Table String (Value N) =>
    ∀ value, now.1.get name = some value →
      ∃ header, (header, value) ∈ fields ∧ target valid mapping header = some name)
    ?_ (fun value h => by cases h) value h
  intro cell hcell now hnow value hvalue
  rw [split_field] at hvalue
  split_ifs at hvalue with htarget
  · exact ⟨cell.1, Option.some.inj hvalue ▸ hcell, htarget⟩
  · exact hnow value hvalue

theorem splits_attribute (hkeys : (fields.map Prod.fst).Nodup) (hcell : (header, value) ∈ fields)
    (htarget : target valid mapping header = none) (hempty : empty value = false) :
    (fields.foldl (split valid mapping) parts).2.get header = some value := by
  induction fields generalizing parts with
  | nil => cases hcell
  | cons cell fields ih =>
    obtain ⟨hcell', hkeys⟩ := List.nodup_cons.mp hkeys
    rw [List.foldl_cons]
    rcases List.mem_cons.mp hcell with rfl | hmem
    · refine foldl_keeps (P := fun now : Table String (Value N) × Table String (Value N) =>
        now.2.get header = some value) ?_ (by rw [split_attribute, if_pos ⟨rfl, htarget, hempty⟩])
      intro other hother now hnow
      rw [split_attribute, if_neg, hnow]
      rintro ⟨heq, -⟩
      exact hcell' (List.mem_map.mpr ⟨other, hother, heq⟩)
    · exact ih hkeys hmem

theorem attribute_splits (h : (fields.foldl (split valid mapping) ([], [])).2.get header = some value) :
    target valid mapping header = none := by
  refine foldl_keeps (P := fun now : Table String (Value N) × Table String (Value N) =>
    ∀ value, now.2.get header = some value → target valid mapping header = none)
    ?_ (fun value h => by cases h) value h
  intro cell _ now hnow value hvalue
  rw [split_attribute] at hvalue
  split_ifs at hvalue with hcell
  · exact hcell.2.1
  · exact hnow value hvalue

variable [Python N] {entity : CanonicalEntity}

theorem applyMapping_attributes : (applyMapping entity mapping fields).2 =
    (fields.foldl (split entity.fieldNames mapping) ([], [])).2 := by
  unfold applyMapping
  simp only
  split_ifs <;> rfl

theorem combinedName_ne_empty {canonical : Table String (Value N)} :
    combinedName canonical ≠ "" ↔ ∃ key ∈ ["first_name", "last_name"], namePart canonical key ≠ "" := by
  by_cases hfirst : namePart canonical "first_name" = "" <;>
    by_cases hlast : namePart canonical "last_name" = "" <;>
    simp [combinedName, hfirst, hlast]

theorem namePart_ne_empty {canonical : Table String (Value N)} {key : String} :
    namePart canonical key ≠ "" ↔
      ∃ value, canonical.get key = some value ∧ Lib.strip (Python.isSpace N) value.str ≠ "" := by
  unfold namePart
  cases canonical.get key with
  | none => simp [Lib.strip]
  | some value => simp

/-- Each value that is not blank is in its field, or else in the attributes. -/
def Lossless (entity : CanonicalEntity) (mapping : Table String String)
    (fields : Table String (Value N)) : Prop :=
  ∀ cell ∈ fields, empty cell.2 = false →
    (∃ name, target entity.fieldNames mapping cell.1 = some name ∧
        (applyMapping entity mapping fields).1.get name = some cell.2) ∨
      (applyMapping entity mapping fields).2.get cell.1 = some cell.2

/-- The name column has a value that is falsy but not blank, and there is a first or a last name. -/
def NameCovered (entity : CanonicalEntity) (mapping : Table String String)
    (fields : Table String (Value N)) : Prop :=
  ∃ cell ∈ fields, target entity.fieldNames mapping cell.1 = some "name" ∧ empty cell.2 = false ∧
    cell.2.truthy = false ∧
    ∃ part ∈ fields, Lib.strip (Python.isSpace N) part.2.str ≠ "" ∧
      ∃ key ∈ ["first_name", "last_name"], target entity.fieldNames mapping part.1 = some key

instance : Decidable (NameCovered entity mapping fields) := by unfold NameCovered; infer_instance

/-- **A row loses nothing** but a falsy name that a first or last name is put over. -/
theorem lossless_iff (hmapping : Injective entity.fieldNames mapping)
    (hkeys : (fields.map Prod.fst).Nodup) :
    Lossless entity mapping fields ↔ ¬NameCovered entity mapping fields := by
  constructor
  · rintro hlossless ⟨cell, hcell, htarget, hempty, hfalsy, part, hpart, hstr, key, hkey, hkeyTarget⟩
    have hname : (fields.foldl (split entity.fieldNames mapping) ([], [])).1.get "name" = some cell.2 :=
      splits_field hmapping hkeys hcell htarget
    have hcombined : combinedName (fields.foldl (split entity.fieldNames mapping) ([], [])).1 ≠ "" :=
      combinedName_ne_empty.mpr ⟨key, hkey,
        namePart_ne_empty.mpr ⟨part.2, splits_field hmapping hkeys hpart hkeyTarget, hstr⟩⟩
    have hvalid : "name" ∈ entity.fieldNames := by
      simpa using (Option.filter_eq_some_iff.mp htarget).2
    rcases hlossless cell hcell hempty with ⟨name, hsame, hget⟩ | hattribute
    · obtain rfl := Option.some.inj (htarget.symm.trans hsame)
      simp only [applyMapping] at hget
      rw [if_pos ⟨hvalid, by simp [hname, hfalsy], hcombined⟩, Table.get_assign, if_pos rfl] at hget
      rw [← Option.some.inj hget] at hfalsy
      exact hcombined (by simpa [Value.truthy] using hfalsy)
    · rw [applyMapping_attributes] at hattribute
      rw [attribute_splits hattribute] at htarget
      cases htarget
  · intro hcovered cell hcell hempty
    cases htarget : target entity.fieldNames mapping cell.1 with
    | none =>
      right
      rw [applyMapping_attributes]
      exact splits_attribute hkeys hcell htarget hempty
    | some name =>
      have hfield : (fields.foldl (split entity.fieldNames mapping) ([], [])).1.get name = some cell.2 :=
        splits_field hmapping hkeys hcell htarget
      refine .inl ⟨name, rfl, ?_⟩
      simp only [applyMapping]
      split_ifs with hcond
      · rw [Table.get_assign]
        split_ifs with hname
        · subst hname
          obtain ⟨-, hfalsy, hcombined⟩ := hcond
          obtain ⟨key, hkey, hpart⟩ := combinedName_ne_empty.mp hcombined
          obtain ⟨value, hvalue, hstr⟩ := namePart_ne_empty.mp hpart
          obtain ⟨header, hmem, hkeyTarget⟩ := field_splits hvalue
          refine absurd ⟨cell, hcell, htarget, hempty, ?_, _, hmem, hstr, key, hkey, hkeyTarget⟩ hcovered
          simpa [hfield] using hfalsy
        · exact hfield
      · exact hfield

end

/-! ## Sound proposals -/

section
open Ingestion Ingestion.Pipeline
variable {N ν : Type} {service : IngestionService N ν} {entityName : String} {required : List String}
  {headers : List String} {proposal : MappingProposal} {mapping : Table String String}

/-- The confident part of a proposal, or what `approve_mapping` records of all of it. -/
def Adopted (service : IngestionService N ν) (entityName : String) (required headers : List String)
    (proposal : MappingProposal) (mapping : Table String String) : Prop :=
  mapping = proposal.mapped ∨ proposal.proposedMapping.foldlM
    (approveTarget service entityName ⟨proposal.entity.fieldNames, required⟩ headers) [] = .ok mapping

theorem target_eq_some {valid : List String} {header name : String} :
    target valid mapping header = some name ↔ mapping.get header = some name ∧ name ∈ valid := by
  rw [target, Option.filter_eq_some_iff]
  simp

theorem injective_adopted (hunshared : Unshared proposal.mappings)
    (h : Adopted service entityName required headers proposal mapping) :
    Injective proposal.entity.fieldNames mapping := by
  intro header other name hheader hother
  have hheader := (target_eq_some.mp hheader).1
  have hother := (target_eq_some.mp hother).1
  rcases h with rfl | happroved
  · exact proposal.mapped_unshared hunshared hheader hother
  · obtain ⟨hmem, hne⟩ := (mem_approved happroved (Table.mem_of_get hheader)).resolve_left
      List.not_mem_nil
    obtain ⟨hmem', -⟩ := (mem_approved happroved (Table.mem_of_get hother)).resolve_left List.not_mem_nil
    exact proposal.proposed_unshared hunshared hne hmem hmem'

variable [Python N]

/-- A proposal as it should be, with a mapping that was adopted of it and a row. -/
structure Sound (engine : MappingEngine N) (headers : List String) (samples : Samples N)
    (profile : Table String String) (proposal : MappingProposal) (service : IngestionService N ν)
    (mapping : Table String String) (fields : Table String (Value N)) : Prop where
  /-- No field is given to two headers. -/
  unshared : Unshared proposal.mappings
  /-- No suggestion displaces what the scores are confident of. -/
  kept : profile = [] → ∀ (i : Nat) (item : FieldMapping),
    (engine.deterministic proposal.entity headers samples)[i]? = some item → item.field ≠ none →
      engine.threshold ≤ item.confidence → proposal.mappings[i]? = some item
  /-- No target is refused as doubled, whatever the job's entity and its headers are. -/
  undoubled : ∀ (entityName : String) (definition : EntityFields) (known : List String)
    (before after : Table String (Option String)) (header name : String)
        (approved : Table String String),
    proposal.proposedMapping = before ++ (header, some name) :: after → name ≠ "" →
      before.foldlM (approveTarget service entityName definition known) [] = .ok approved →
        approved.find? (·.2 == name) = none
  /-- No target is refused at all for the entity and the headers that were asked for. -/
  approved : ∀ (entityName : String) (required : List String), ∃ out, proposal.proposedMapping.foldlM
    (approveTarget service entityName ⟨proposal.entity.fieldNames, required⟩ headers) [] = .ok out
  lossless : Lossless proposal.entity mapping fields

/-- **A proposal is sound** but for a falsy name that a first or last name is put over. -/
theorem proposal_sound (engine : MappingEngine N) {samples : Samples N} {hint reply : Option String}
    {profile : Table String String}
    (h : engine.propose headers samples hint profile reply = .ok proposal)
    (hadopted : Adopted service entityName required headers proposal mapping)
    {fields : Table String (Value N)} (hkeys : (fields.map Prod.fst).Nodup) :
    Sound engine headers samples profile proposal service mapping fields ↔
      ¬NameCovered proposal.entity mapping fields := by
  have hunshared : Unshared proposal.mappings := fun i j a b name => MappingEngine.propose_unshared h
  have hlossless := lossless_iff (injective_adopted hunshared hadopted) hkeys
  refine ⟨fun hsound => hlossless.mp hsound.lossless, fun hcovered => ?_⟩
  refine ⟨hunshared, ?_, ?_, ?_, hlossless.mpr hcovered⟩
  · rintro rfl i item hitem hfield hconfident
    obtain ⟨name, hname⟩ := Option.ne_none_iff_exists'.mp hfield
    exact MappingEngine.propose_keeps h hitem hname hconfident
  · intro entityName definition known before after header name approved hsplit hname hbefore
    exact not_doubled hunshared hsplit hname hbefore
  · intro entityName required
    refine approve_proposed hunshared ?_ (MappingEngine.propose_headers h)
    intro item hitem name hname
    exact (MappingEngine.propose_valid h item hitem).1 name (field_eq_some.mp hname).1

end

/-- An engine whose remembered headers stand as they are. -/
def exactEngine : MappingEngine ℚ where
  threshold := defaultConfidenceThreshold
  scoreHeader header field _ := if header = field.name then (1, "canonical_name") else (0, "no_match")
  normalizeHeader := String.map Char.toLower
  detectEntity _ _ := (student, 0, [])
  entities := [student, faculty, staff]
  loads _ := none
  floatOfText _ := none
  floatOfInt i := some (.finite i)

def nameProfile : Table String String := [("Name", "name"), ("First Name", "first_name")]

def nameProposal : MappingProposal where
  entity := student
  entityConfidence := 1
  mappings :=
    [⟨"Name", some "name", 1, .approvedProfile, "reused an approved mapping profile", []⟩,
      ⟨"First Name", some "first_name", 1, .approvedProfile, "reused an approved mapping profile", []⟩]
  threshold := defaultConfidenceThreshold
  entityAlternatives := []
  profileApplied := true

def nameService : Ingestion.Pipeline.IngestionService ℚ Unit where
  maxRows := 50000
  entities := [("student", ⟨student.fieldNames, ["student_id", "name"]⟩)]
  headerSignature := String.intercalate "|"
  nothingImportable _ := "nothing to import"
  repr text := "'" ++ text ++ "'"

theorem propose_names : exactEngine.propose ["Name", "First Name"] [] (some "student") nameProfile none =
    .ok nameProposal := by
  rfl

theorem proposal_sound_names :
    Sound exactEngine ["Name", "First Name"] [] nameProfile nameProposal nameService nameProposal.mapped
      [("Name", .text "Asha Rao"), ("First Name", .text "Asha")] := by
  have hadopted : Adopted nameService "student" ["name"] ["Name", "First Name"] nameProposal
      nameProposal.mapped := .inl rfl
  exact (proposal_sound exactEngine propose_names hadopted (by decide)).mpr (by decide +kernel)

/-- A name that was entered as `0` is in no field and no attribute. -/
theorem proposal_loses_zero :
    exactEngine.propose ["Name", "First Name"] [] (some "student") nameProfile none = .ok nameProposal ∧
      applyMapping nameProposal.entity nameProposal.mapped
          [("Name", .int 0), ("First Name", (.text "Asha" : Value ℚ))] =
        ([("name", .text "Asha"), ("first_name", .text "Asha")], []) ∧
      ¬Sound exactEngine ["Name", "First Name"]
      [] nameProfile nameProposal nameService nameProposal.mapped
        [("Name", .int 0), ("First Name", .text "Asha")] := by
  have happlied : applyMapping nameProposal.entity nameProposal.mapped
      [("Name", .int 0), ("First Name", (.text "Asha" : Value ℚ))] =
        ([("name", .text "Asha"), ("first_name", .text "Asha")], []) := by
    decide +kernel
  refine ⟨propose_names, happlied, fun hsound => ?_⟩
  have hzero := hsound.lossless ("Name", .int 0) (by decide) rfl
  rw [happlied] at hzero
  rcases hzero with ⟨name, -, hget⟩ | hget
  · simpa using Table.mem_of_get hget
  · cases hget

end GuruJi.Normalization
