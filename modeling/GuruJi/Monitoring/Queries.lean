import GuruJi.Lib.Chains
import GuruJi.Lib.Table
import GuruJi.Lib.Turns
import GuruJi.Lib.Words
import Mathlib.Data.List.Infix

/-!
# Search queries

`generate_queries`: a few queries for an institution, of which a third are for its names and keywords and
the others for topics. What does not fit takes turns: both lists are rotated by the number of the run,
and the first of them are asked.

* `identity_in_turn` and `topic_in_turn`: over as many rotations that follow one another as the list is
  long, each of its queries is asked in one.
-/

namespace GuruJi.Monitoring

open GuruJi.Lib

/-- `DEFAULT_TOPICS`. -/
def defaultTopics : List String :=
  ["news", "admission", "placement", "event", "ranking", "accreditation", "results", "faculty", "campus"]

/-- `_TOPIC_TERMS`. -/
def topicTerms : Table String String :=
  [("news", "news"), ("placement", "placement"), ("event", "event"), ("ranking", "ranking"),
    ("accreditation", "NAAC accreditation"), ("results", "results"), ("faculty", "faculty"),
    ("campus", "campus"), ("fees", "fees"), ("sports", "sports"), ("research", "research"),
    ("convocation", "convocation"), ("scholarship", "scholarship"), ("controversy", "complaint"),
    ("recruitment", "recruitment")]

/-- `MAX_IDENTITY_TERMS`. -/
def maxIdentityTerms : Nat := 10

/-- What is asked with, of a profile. -/
structure InstitutionProfile where
  name : String
  location : String
  aliases : List String
  programs : List String
  keywords : List String
  named : name ≠ ""

/-- Python's texts, and the terms of a question that is not empty. -/
structure QueryEnv where
  lower : String → String
  isSpace : Char → Bool
  terms : String → List String
  lower_topic : ∀ topic ∈ defaultTopics, lower topic = topic
  quote_not_space : isSpace '"' = false

/-- `all_names`. -/
def InstitutionProfile.allNames (profile : InstitutionProfile) : List String :=
  firsts some ((profile.name :: profile.aliases).filter (· ≠ ""))

/-- `topic_term`. -/
def topicTerm (topic : String) (year : Nat) : String :=
  if topic = "admission" then "admission " ++ Nat.repr year else (topicTerms.get topic).getD topic

/-- `_rotated`. -/
def rotated {α : Type} (items : List α) (rotation step : Nat) : List α :=
  if items = [] ∨ rotation = 0 then items
  else
    let shift := rotation * max 1 step % items.length
    items.drop shift ++ items.take shift

theorem rotated_eq {α : Type} (items : List α) (rotation step : Nat) :
    rotated items rotation step = items.rotate (rotation * max 1 step) := by
  rw [rotated]
  split_ifs with h
  · rcases h with rfl | rfl
    · rw [List.rotate_nil]
    · rw [Nat.zero_mul, List.rotate_zero]
  · rw [List.rotate_eq_drop_append_take_mod]

def quoted (text : String) : String := "\"" ++ text ++ "\""

namespace QueryEnv
variable (env : QueryEnv)

/-- `question_terms`. -/
def questionTerms : Option String → List String
  | none => []
  | some question => if question = "" then [] else env.terms question

def strip (text : String) : String := String.ofList (trim env.isSpace text.toList)

/-- `" ".join(query.split())`. -/
def cleaned (query : String) : String :=
  String.ofList (List.intercalate [' '] (words env.isSpace query.toList))

def withLocation (profile : InstitutionProfile) : String :=
  if profile.location ≠ "" then env.strip (profile.name ++ " " ++ profile.location) else profile.name

end QueryEnv

def aliasQuery (profile : InstitutionProfile) (name : String) : String :=
  quoted name ++ if profile.location ≠ "" then " " ++ profile.location else ""

def keywordQuery (profile : InstitutionProfile) (keyword : String) : String :=
  quoted profile.name ++ " " ++ keyword

def topicQuery (profile : InstitutionProfile) (year : Nat) (topic : String) : String :=
  quoted profile.name ++ " " ++ topicTerm topic year

variable (env : QueryEnv) (profile : InstitutionProfile)

/-- The names other than the first that take their turns. -/
def turnAliases : List String := (profile.allNames.take maxIdentityTerms).drop 1

def turnKeywords : List String := profile.keywords.take maxIdentityTerms

def identityQueries : List String :=
  quoted (env.withLocation profile) :: (turnAliases profile).map (aliasQuery profile) ++
    (turnKeywords profile).map (keywordQuery profile)

def askedQueries (terms : List String) : List String :=
  if terms = [] then []
  else
    (quoted profile.name ++ " " ++ String.intercalate " " (terms.take 4)) ::
      if profile.location ≠ "" then
        [quoted profile.name ++ " " ++ profile.location ++ " " ++ String.intercalate " " (terms.take 3)]
      else []

/-- `generate_queries`; the first of all names is the name itself. -/
def generateQueries (question : Option String) (topics : Option (List String))
    (maxQueries rotation : Nat)
    (year : Nat) : List String :=
  let limit := max 1 maxQueries
  let terms := env.questionTerms question
  let asked := askedQueries profile terms
  let given := ((topics.getD []).filter (· ≠ "")).map env.lower
  let chosen := if given ≠ [] then given else if terms ≠ [] then [] else defaultTopics.take 5
  let identity := identityQueries env profile
  let reserved := min identity.length (max 1 (limit / 3))
  let topicSlots := max 1 (limit - reserved - asked.length)
  let programs := (profile.programs.take 2).filter fun program =>
    terms ≠ [] ∧ terms.any fun term => (env.lower program).toList <:+: term.toList
  let focused := (rotated chosen rotation topicSlots).map (topicQuery profile year) ++
    programs.map fun program => quoted profile.name ++ " " ++ program
  let identity := rotated identity rotation reserved
  let ordered := asked ++ identity.take reserved ++ focused ++ identity.drop reserved
  (keepNew env.lower ((ordered.map env.cleaned).filter (· ≠ ""))).take limit

/-! ## What a run asks -/

/-- A query is asked, up to its case and its spaces. -/
def Occurs (queries : List String) (query : String) : Prop :=
  ∃ asked ∈ queries, env.lower asked = env.lower (env.cleaned query)

/-- How many of the queries for names and keywords are asked in one run. -/
def reservedSlots (maxQueries : Nat) : Nat :=
  min (identityQueries env profile).length (max 1 (maxQueries / 3))

/-- What the monitor asks, before repeats are left out and the limit cuts. -/
def monitorQueries (maxQueries rotation year : Nat) : List String :=
  let reserved := reservedSlots env profile maxQueries
  let identity := rotated (identityQueries env profile) rotation reserved
  identity.take reserved ++
      (rotated defaultTopics rotation (maxQueries - reserved)).map (topicQuery profile year) ++
    identity.drop reserved

theorem reservedSlots_pos (maxQueries : Nat) : 0 < reservedSlots env profile maxQueries := by
  rw [reservedSlots, identityQueries, List.cons_append, List.length_cons]
  omega

theorem reservedSlots_lt {maxQueries : Nat} (h : 2 ≤ maxQueries) :
    reservedSlots env profile maxQueries < maxQueries := by
  rw [reservedSlots]
  omega

variable {env profile}

theorem generateQueries_monitor {maxQueries : Nat} (h : 2 ≤ maxQueries) (rotation year : Nat) :
    generateQueries env profile none (some defaultTopics) maxQueries rotation year =
      (keepNew env.lower (((monitorQueries env profile maxQueries rotation year).map env.cleaned).filter
        (· ≠ ""))).take maxQueries := by
  have hreserved := reservedSlots_lt env profile h
  have hlimit : max 1 maxQueries = maxQueries := by omega
  have hasked : askedQueries profile [] = [] := if_pos rfl
  have hgiven : (defaultTopics.filter (· ≠ "")).map env.lower = defaultTopics := by
    have hfilter : defaultTopics.filter (· ≠ "") = defaultTopics := by decide
    rw [hfilter]
    exact (List.map_congr_left env.lower_topic).trans (List.map_id _)
  have hslots : max 1 (maxQueries - reservedSlots env profile maxQueries - 0) =
      maxQueries - reservedSlots env profile maxQueries := by omega
  have hprograms : ((profile.programs.take 2).filter fun program => decide (([] : List String) ≠ [] ∧
      ([] : List String).any (fun term => decide ((env.lower program).toList <:+: term.toList)) =
      true)) = [] :=
    List.filter_eq_nil_iff.mpr fun program _ => by simp
  unfold generateQueries monitorQueries
  dsimp only [QueryEnv.questionTerms]
  rw [hprograms, hlimit, hasked, Option.getD_some, hgiven, if_pos (by decide), List.length_nil,
    ← reservedSlots, hslots, List.map_nil, List.append_nil, List.nil_append]

variable {maxQueries rotation year : Nat} {query : String}

theorem occurs_of_mem_take (h : 2 ≤ maxQueries)
    (hquery : query ∈ (monitorQueries env profile maxQueries rotation year).take maxQueries)
    (hne : env.cleaned query ≠ "") :
    Occurs env (generateQueries env profile none (some defaultTopics) maxQueries rotation year)
    query := by
  rw [generateQueries_monitor h]
  refine mem_take_keepNew (mem_take_filter ?_ (decide_eq_true hne))
  rw [← List.map_take]
  exact List.mem_map_of_mem hquery

theorem cleaned_quoted (text rest : String) : env.cleaned (quoted text ++ rest) ≠ "" := by
  obtain ⟨tail, htail⟩ : ∃ tail, (quoted text ++ rest).toList = '"' :: tail :=
    ⟨text.toList ++ '"' :: rest.toList, by simp [quoted]⟩
  obtain ⟨word, others, hwords⟩ : ∃ word others,
      words env.isSpace (quoted text ++ rest).toList = ('"' :: word) :: others := by
    obtain ⟨word, others, hsplit⟩ := List.exists_cons_of_ne_nil (List.splitOnP_ne_nil env.isSpace tail)
    rw [htail, words, List.splitOnP_cons_eq_if_modifyHead, env.quote_not_space, hsplit]
    exact ⟨word, _, rfl⟩
  rw [QueryEnv.cleaned, hwords]
  cases others <;> simp [List.intercalate]

theorem quoted_of_mem_identity (h : query ∈ identityQueries env profile) :
    ∃ text rest, query = quoted text ++ rest := by
  rw [identityQueries, List.cons_append, List.mem_cons, List.mem_append, List.mem_map, List.mem_map] at h
  rcases h with rfl | ⟨name, -, rfl⟩ | ⟨keyword, -, rfl⟩
  · exact ⟨_, "", (String.append_empty).symm⟩
  · exact ⟨name, _, rfl⟩
  · exact ⟨profile.name, " " ++ keyword, String.append_assoc⟩

theorem identity_asked (h : 2 ≤ maxQueries)
    (hquery : query ∈ (rotated (identityQueries env profile) rotation
      (reservedSlots env profile maxQueries)).take (reservedSlots env profile maxQueries)) :
    query ∈ (monitorQueries env profile maxQueries rotation year).take maxQueries := by
  have hreserved := reservedSlots_lt env profile h
  rw [monitorQueries, List.append_assoc, List.take_append, List.take_take, min_eq_right hreserved.le]
  exact List.mem_append_left _ hquery

theorem topic_asked {topic : String} (htopic : topic ∈ (rotated defaultTopics rotation
      (maxQueries - reservedSlots env profile maxQueries)).take
        (maxQueries - reservedSlots env profile maxQueries)) :
    topicQuery profile year topic ∈
      (monitorQueries env profile maxQueries rotation year).take maxQueries := by
  have hlength : (rotated (identityQueries env profile) rotation
      (reservedSlots env profile maxQueries)).length = (identityQueries env profile).length := by
    rw [rotated_eq, List.length_rotate]
  have htaken : ((rotated (identityQueries env profile) rotation
      (reservedSlots env profile maxQueries)).take (reservedSlots env profile maxQueries)).length =
        reservedSlots env profile maxQueries := by
    rw [List.length_take, hlength, reservedSlots]
    omega
  rw [monitorQueries, List.append_assoc, List.take_append, htaken, List.take_append, ← List.map_take]
  refine List.mem_append_right _ (List.mem_append_left _ (List.mem_map_of_mem htopic))

/-- Each query for a name or a keyword has its turn. -/
theorem identity_in_turn {maxQueries : Nat} (h : 2 ≤ maxQueries)
    (hquery : query ∈ identityQueries env profile) (rotation : Nat) :
    ∃ k < (identityQueries env profile).length, ∀ year,
      Occurs env (generateQueries env profile none (some defaultTopics) maxQueries (rotation + k) year)
        query := by
  have hpos := reservedSlots_pos env profile maxQueries
  obtain ⟨k, hk, hturn⟩ := exists_turn hquery hpos rotation
  refine ⟨k, hk, fun year => occurs_of_mem_take h (identity_asked h ?_) ?_⟩
  · rw [rotated_eq, max_eq_right hpos]
    exact hturn
  · obtain ⟨text, rest, rfl⟩ := quoted_of_mem_identity hquery
    exact cleaned_quoted text rest

/-- Each topic has its turn. -/
theorem topic_in_turn {maxQueries : Nat} (h : 2 ≤ maxQueries) {topic : String}
    (htopic : topic ∈ defaultTopics) (rotation : Nat) :
    ∃ k < defaultTopics.length, ∀ year,
      Occurs env (generateQueries env profile none (some defaultTopics) maxQueries (rotation + k) year)
        (topicQuery profile year topic) := by
  have hpos : 0 < maxQueries - reservedSlots env profile maxQueries :=
    Nat.sub_pos_of_lt (reservedSlots_lt env profile h)
  obtain ⟨k, hk, hturn⟩ := exists_turn htopic hpos rotation
  refine ⟨k, hk, fun year => occurs_of_mem_take h (topic_asked ?_) ?_⟩
  · rw [rotated_eq, max_eq_right hpos]
    exact hturn
  · rw [topicQuery, String.append_assoc]
    exact cleaned_quoted _ _

end GuruJi.Monitoring
