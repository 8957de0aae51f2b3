import GuruJi.Crawl.Fetch
import GuruJi.Documents.Chunking
import GuruJi.Lib.Robots

/-!
# The crawler's names in robots files

A robots file is read for the crawler under its present name after versions are dropped from the names of
its groups and the groups of its former name are given the present one.

* `readLine_bindLegacyGroup`: of a line whose version is dropped, the new name is all that changes;
* `appliesTo_bound`: a group applies to the present name iff it did to the former one;
* **`robotsLines_narrows`**: if no group names the present one, what the crawler may fetch is what it was
  allowed under its former name, once versions are dropped;
* `version_binds`: a group with a version, which the original text does not apply to the former name.
-/

namespace GuruJi.Crawl

open GuruJi.Lib

/-- `USER_AGENT`. -/
def userAgent : String :=
  "AgenticSaffron-InstitutionIntelligence/1.0 (+https://example.invalid/robots-respecting)"

/-- `product_token(USER_AGENT)`. -/
def currentToken : String := "AgenticSaffron-InstitutionIntelligence"

/-- `LEGACY_PRODUCT_TOKEN`. -/
def legacyProductToken : String := "GuruJi-InstitutionIntelligence"

/-! ## Lines of names -/

/-- A letter of a text that a pattern is compared with in any case; the long s is an `s` too. -/
def plainLetter (c : Char) : Char := if c = 'ſ' then 's' else c.toLower

/-- `user-agent`, in any case. -/
def isAgentKey (text : List Char) : Bool := text.map plainLetter = "user-agent".toList

/-- A character of a name, which ends at a slash, a space or a comment. -/
def isNameChar (isSpace : Char → Bool) (c : Char) : Bool := c ≠ '/' && !isSpace c && c ≠ '#'

/-- A line that names a crawler, `^\s*user-agent\s*:\s*`, and what is after that. -/
def agentLine (isSpace : Char → Bool) (line : List Char) : Option (List Char × List Char) :=
  match line.dropWhile (· ≠ ':') with
  | [] => none
  | _ :: tail =>
    if isAgentKey (trim isSpace (line.takeWhile (· ≠ ':'))) then
      some (line.takeWhile (· ≠ ':') ++ ':' :: tail.takeWhile isSpace, tail.dropWhile isSpace)
    else none

/-- `_ROBOTS_AGENT_VERSION.sub`: of what is after a name, the comment stays. -/
def dropVersion (isSpace : Char → Bool) (line : List Char) : List Char :=
  match agentLine isSpace line with
  | some (start, rest) =>
    let name := rest.takeWhile (isNameChar isSpace)
    if name = [] then line
    else start ++ (name ++ (rest.dropWhile (isNameChar isSpace)).dropWhile (· ≠ '#'))
  | none => line

/-- Whether a name, in lower case, bound the crawler under its former name and not under its present. -/
def bindsLegacy (name : String) : Bool :=
  name ≠ "*" && decide (name.toList <:+: legacyProductToken.toLower.toList) &&
    !decide (name.toList <:+: currentToken.toLower.toList)

section
variable (env : RobotsEnv)

/-- `_ROBOTS_AGENT_NAME.sub(_bind_legacy_group, …)`. -/
def bindLegacyGroup (line : List Char) : List Char :=
  match agentLine env.isSpace line with
  | some (start, rest) =>
    let name := rest.takeWhile fun c => !env.isSpace c && c ≠ '#'
    if name ≠ [] ∧ bindsLegacy (env.unquote (String.ofList name)).toLower then
      start ++ (currentToken.toList ++ rest.dropWhile fun c => !env.isSpace c && c ≠ '#')
    else line
  | none => line

/-- `_groups_for`. -/
def groupsFor (lines : List (List Char)) (token : String) : Option (List RobotsEntry) :=
  (parseRobots env lines).map fun file => file.entries.filter (·.appliesTo token)

/-- The lines of a text, with the versions dropped. -/
def plainLines (text : String) : List (List Char) :=
  (Documents.splitLines [] text.toList).map (dropVersion env.isSpace)

/-- `robots_lines`; nothing if a `ValueError` is raised. -/
def robotsLines (text : String) : Option (List (List Char)) :=
  let lines := plainLines env text
  (groupsFor env lines currentToken).map fun groups =>
    if groups.any fun group => !group.appliesTo legacyProductToken then lines
    else lines.map (bindLegacyGroup env)

/-- A crawler may fetch a URL by the lines of a robots file. -/
def MayFetch (lines : List (List Char)) (token url : String) : Prop :=
  (parseRobots env lines).bind (·.canFetch env token url) = some true

end

/-! ## Names in lines -/

section
variable {env : RobotsEnv}

/-- The present name for a name that bound the crawler under its former one. -/
def bound (agent : String) : String := if bindsLegacy agent.toLower then currentToken else agent

theorem toList_toLower_legacy :
    legacyProductToken.toLower.toList = "guruji-institutionintelligence".toList := by
  rw [toList_toLower]
  decide

theorem toLower_star : "*".toLower = "*" := by
  rw [← String.toList_inj, toList_toLower]
  decide

theorem bound_eq_star_iff (agent : String) : bound agent = "*" ↔ agent = "*" := by
  unfold bound
  split_ifs with h
  · refine iff_of_false (by decide) fun heq => ?_
    rw [heq, toLower_star, bindsLegacy] at h
    exact absurd h (by simp)
  · exact Iff.rfl

theorem hash_of_isAgentKey {text : List Char} (h : isAgentKey text = true) : '#' ∉ text := by
  intro hmem
  have hkey : plainLetter '#' ∈ "user-agent".toList := by
    rw [← of_decide_eq_true h]
    exact List.mem_map_of_mem hmem
  exact absurd hkey (by decide)

theorem directiveOf_agentKey {text : List Char} (h : isAgentKey text = true) :
    directiveOf (String.ofList text).toLower = some .userAgent ∨
      directiveOf (String.ofList text).toLower = none := by
  have hlower : (String.ofList text).toLower.toList = text.map Char.toLower := by
    rw [toList_toLower, String.toList_ofList]
  by_cases hlong : 'ſ' ∈ text
  · right
    have hmem : 'ſ' ∈ (String.ofList text).toLower.toList := by
      rw [hlower]
      exact List.mem_map.mpr ⟨'ſ', hlong, by decide⟩
    have hother : ∀ key : String, 'ſ' ∉ key.toList → (String.ofList text).toLower ≠ key := by
      rintro key hkey rfl
      exact hkey hmem
    unfold directiveOf
    rw [if_neg (hother _ (by decide)), if_neg (hother _ (by decide)), if_neg (hother _ (by decide)),
      if_neg (hother _ (by decide)), if_neg (hother _ (by decide)), if_neg (hother _ (by decide))]
  · left
    have heq : text.map Char.toLower = text.map plainLetter := by
      refine List.map_congr_left fun c hc => ?_
      have hne : c ≠ 'ſ' := fun heq => hlong (heq ▸ hc)
      rw [plainLetter, if_neg hne]
    have hkey : (String.ofList text).toLower = "user-agent" := by
      refine String.toList_inj.mp ?_
      rw [hlower, heq]
      exact of_decide_eq_true h
    rw [hkey]
    rfl

theorem isAgentKey_of_directive {text : List Char}
    (h : directiveOf (String.ofList text).toLower = some .userAgent) : isAgentKey text = true := by
  have hkey : (String.ofList text).toLower = "user-agent" := by
    unfold directiveOf at h
    split_ifs at h with hkey
    · exact hkey
    all_goals cases h
  have hlower := congrArg String.toList hkey
  rw [toList_toLower, String.toList_ofList] at hlower
  refine decide_eq_true ?_
  rw [← hlower]
  refine List.map_congr_left fun c hc => ?_
  refine if_neg fun heq => ?_
  have hlong : Char.toLower 'ſ' ∈ "user-agent".toList := by
    rw [← hlower, ← heq]
    exact List.mem_map_of_mem hc
  exact absurd hlong (by decide)

theorem agentLine_eq_some {isSpace : Char → Bool} {line start rest : List Char} :
    agentLine isSpace line = some (start, rest) ↔ ∃ head blanks, line = head ++ ':' :: (blanks ++ rest) ∧
      start = head ++ ':' :: blanks ∧ ':' ∉ head ∧ isAgentKey (trim isSpace head) = true ∧
        (∀ c ∈ blanks, isSpace c = true) ∧ ∀ c ∈ rest.head?, isSpace c = false := by
  have hfirst : ∀ {c : Char} {rest : List Char}, line.dropWhile (· ≠ ':') = c :: rest → c = ':' := by
    intro c rest h
    have hhead := List.head?_dropWhile_not (fun c : Char => decide (c ≠ ':')) line
    rw [h] at hhead
    simpa using hhead
  constructor
  · intro h
    unfold agentLine at h
    split at h
    · cases h
    · rename_i c tail htail
      obtain rfl := hfirst htail
      split_ifs at h with hkey
      obtain ⟨rfl, rfl⟩ := Prod.mk.inj (Option.some.inj h)
      refine ⟨line.takeWhile (· ≠ ':'), tail.takeWhile isSpace, ?_, rfl, ?_, hkey, ?_, ?_⟩
      · rw [List.takeWhile_append_dropWhile, ← htail, List.takeWhile_append_dropWhile]
      · intro hmem
        exact absurd (List.mem_takeWhile_imp hmem) (by decide)
      · exact fun c hc => List.mem_takeWhile_imp hc
      · intro c hc
        have hhead := List.head?_dropWhile_not isSpace tail
        rw [hc] at hhead
        simpa using hhead
  · rintro ⟨head, blanks, rfl, rfl, hcolon, hkey, hblanks, hrest⟩
    have hhead : ∀ c ∈ head, decide (c ≠ ':') = true := fun c hc =>
      decide_eq_true fun heq => hcolon (heq ▸ hc)
    obtain ⟨htake, hdrop⟩ := @span_append _ (fun c : Char => decide (c ≠ ':')) head
      (':' :: (blanks ++ rest)) hhead (by simp)
    obtain ⟨htake', hdrop'⟩ := span_append hblanks hrest
    unfold agentLine
    rw [hdrop, htake]
    dsimp only
    rw [if_pos hkey, htake', hdrop']

theorem readLine_of_colon {head tail : List Char} (hcolon : ':' ∉ head) (hhash : '#' ∉ head) :
    readLine env (head ++ ':' :: tail) =
      ((directiveOf (String.ofList (trim env.isSpace head)).toLower).map fun kind =>
        RobotsLine.directive kind
        (env.unquote (String.ofList (trim env.isSpace (tail.takeWhile (· ≠ '#')))))).getD .other := by
  have hhead : ∀ c ∈ head, decide (c ≠ ':') = true := fun c hc =>
    decide_eq_true fun heq => hcolon (heq ▸ hc)
  have hplain : ∀ c ∈ head, decide (c ≠ '#') = true := fun c hc =>
    decide_eq_true fun heq => hhash (heq ▸ hc)
  have hcontent : (head ++ ':' :: tail).takeWhile (· ≠ '#') = head ++
    ':' :: tail.takeWhile (· ≠ '#') := by
    rw [List.takeWhile_append_of_pos hplain, List.takeWhile_cons_of_pos (by decide)]
  obtain ⟨htake, hdrop⟩ := @span_append _ (fun c : Char => decide (c ≠ ':')) head
    (':' :: tail.takeWhile (· ≠ '#')) hhead (by simp)
  unfold readLine
  rw [if_neg (by simp), hcontent]
  dsimp only
  rw [hdrop, htake]
  dsimp only
  cases directiveOf (String.ofList (trim env.isSpace head)).toLower with
  | none => rfl
  | some kind => rfl

theorem agentLine_of_directive {line : List Char} {agent : String}
    (h : readLine env line = .directive .userAgent agent) : (agentLine env.isSpace line).isSome =
        true := by
  unfold readLine at h
  split_ifs at h with hempty
  dsimp only at h
  split at h
  · cases h
  · rename_i c value hvalue
    have hcontent : line.takeWhile (· ≠ '#') <+: line := List.takeWhile_prefix _
    obtain ⟨comment, hcomment⟩ := hcontent
    have hsplit := List.takeWhile_append_dropWhile (p := fun c : Char => decide (c ≠ ':'))
      (l := line.takeWhile (· ≠ '#'))
    have hfirst : c = ':' := by
      have hhead := List.head?_dropWhile_not (fun c : Char => decide (c ≠ ':'))
        (line.takeWhile (· ≠ '#'))
      rw [hvalue] at hhead
      simpa using hhead
    subst hfirst
    have hkey : directiveOf (String.ofList (trim env.isSpace
        ((line.takeWhile (· ≠ '#')).takeWhile (· ≠ ':')))).toLower = some .userAgent := by
      split at h
      · rename_i kind hkind
        rw [hkind, (RobotsLine.directive.inj h).1]
      · cases h
    have hline : line = (line.takeWhile (· ≠ '#')).takeWhile (· ≠ ':') ++
        ':' :: ((value ++ comment).takeWhile env.isSpace ++
        (value ++ comment).dropWhile env.isSpace) := by
      rw [List.takeWhile_append_dropWhile, ← List.cons_append, ← List.append_assoc, ← hvalue, hsplit,
        hcomment]
    refine Option.isSome_iff_exists.mpr ⟨_, agentLine_eq_some.mpr ⟨_, _, hline, rfl, fun hmem => ?_,
      isAgentKey_of_directive hkey, fun c hc => List.mem_takeWhile_imp hc, fun c hc => ?_⟩⟩
    · exact absurd (List.mem_takeWhile_imp hmem) (by decide)
    · have hhead := List.head?_dropWhile_not env.isSpace (value ++ comment)
      rw [hc] at hhead
      simpa using hhead

theorem readLine_of_name (henv : env.Documented) {head blanks name comment : List Char}
    (hcolon : ':' ∉ head) (hkey : isAgentKey (trim env.isSpace head) = true)
    (hblanks : ∀ c ∈ blanks, env.isSpace c = true)
    (hname : ∀ c ∈ name, env.isSpace c = false ∧ c ≠ '#') (hcomment : ∀ c ∈ comment.head?, c = '#') :
    readLine env (head ++ ':' :: (blanks ++ (name ++ comment))) =
      ((directiveOf (String.ofList (trim env.isSpace head)).toLower).map fun kind =>
        RobotsLine.directive kind (env.unquote (String.ofList name))).getD .other := by
  have hhash : '#' ∉ head := fun hmem =>
    hash_of_isAgentKey hkey (mem_trim hmem (henv.ink '#' (by decide) (by decide)))
  have hplain : ∀ c ∈ blanks ++ name, decide (c ≠ '#') = true := by
    intro c hc
    rcases List.mem_append.mp hc with hc | hc
    · refine decide_eq_true ?_
      rintro rfl
      have hspace := hblanks _ hc
      rw [henv.ink '#' (by decide) (by decide)] at hspace
      cases hspace
    · exact decide_eq_true (hname c hc).2
  have hend : ∀ c ∈ comment.head?, decide (c ≠ '#') = false := fun c hc => by simp [hcomment c hc]
  have htrim : trim env.isSpace (blanks ++ name) = name := by
    rw [trim_append hblanks, trim_eq_self_iff]
    refine ⟨fun c hc => (hname c (List.mem_of_mem_head? hc)).1, fun c hc => (hname c ?_).1⟩
    exact List.mem_of_getLast? hc
  rw [readLine_of_colon hcolon hhash, ← List.append_assoc, (span_append hplain hend).1, htrim]

theorem bound_of_slash {agent : String} (h : '/' ∈ agent.toList) : bindsLegacy agent.toLower =
    false := by
  have hmem : '/' ∈ agent.toLower.toList := by
    rw [toList_toLower]
    exact List.mem_map.mpr ⟨'/', h, by decide⟩
  have hnot : ¬agent.toLower.toList <:+: legacyProductToken.toLower.toList := fun hpart =>
    absurd (toList_toLower_legacy ▸ hpart.subset hmem) (by decide)
  rw [bindsLegacy, decide_eq_false hnot, Bool.and_false, Bool.false_and]

section
variable {head blanks : List Char}

theorem bind_unnamed (henv : env.Documented) {rest : List Char} (hcolon : ':' ∉ head)
    (hkey : isAgentKey (trim env.isSpace head) = true) (hblanks : ∀ c ∈ blanks, env.isSpace c = true)
    (hrest : ∀ c ∈ rest.head?, c = '/' ∨ c = '#') :
    readLine env (bindLegacyGroup env (head ++ ':' :: (blanks ++ rest))) =
      (readLine env (head ++ ':' :: (blanks ++ rest))).rename bound := by
  have hslash : env.isSpace '/' = false := henv.ink '/' (by decide) (by decide)
  have hcomment : env.isSpace '#' = false := henv.ink '#' (by decide) (by decide)
  have hhash : '#' ∉ head := fun hmem => hash_of_isAgentKey hkey (mem_trim hmem hcomment)
  have hplain : ∀ c ∈ blanks, decide (c ≠ '#') = true := fun c hc => decide_eq_true fun heq => by
    rw [heq] at hc
    exact absurd (hblanks _ hc) (Bool.eq_false_iff.mp hcomment)
  have hline : agentLine env.isSpace (head ++ ':' :: (blanks ++ rest)) =
      some (head ++ ':' :: blanks, rest) := by
    refine agentLine_eq_some.mpr ⟨head, blanks, rfl, rfl, hcolon, hkey, hblanks, fun c hc => ?_⟩
    rcases hrest c hc with rfl | rfl
    · exact hslash
    · exact hcomment
  have hread := @readLine_of_colon env head (blanks ++ rest) hcolon hhash
  rw [List.takeWhile_append_of_pos hplain, trim_append hblanks] at hread
  -- Nothing that the crawler was named by is read of it.
  have hunbound : ∀ text : List Char, (text = [] ∨ '/' ∈ text) →
      bindsLegacy (env.unquote (String.ofList text)).toLower = true → text = [] := by
    intro text htext hbound
    rcases htext with rfl | hmem
    · rfl
    · have hmem : '/' ∈ (env.unquote (String.ofList text)).toList :=
        henv.slash _ (by rwa [String.toList_ofList])
      rw [bound_of_slash hmem] at hbound
      cases hbound
  have htaken : ∀ p : Char → Bool, p '/' = true → p '#' = false →
      rest.takeWhile p = [] ∨ '/' ∈ rest.takeWhile p := by
    intro p hp hp'
    cases rest with
    | nil => exact .inl rfl
    | cons c rest =>
      rcases hrest c rfl with rfl | rfl
      · right
        rw [List.takeWhile_cons_of_pos hp]
        exact List.mem_cons_self
      · left
        exact List.takeWhile_cons_of_neg (Bool.eq_false_iff.mp hp')
  have hbind : bindLegacyGroup env (head ++ ':' :: (blanks ++ rest)) =
      head ++ ':' :: (blanks ++ rest) := by
    unfold bindLegacyGroup
    rw [hline]
    refine if_neg fun hbound => hbound.1 (hunbound _ (htaken _ ?_ ?_) hbound.2)
    · simp [hslash]
    · simp
  rw [hbind, hread]
  rcases directiveOf_agentKey hkey with hdirective | hdirective
  · rw [hdirective]
    show RobotsLine.directive .userAgent _ = .directive .userAgent (bound _)
    have hvalue : trim env.isSpace (rest.takeWhile (· ≠ '#')) = [] ∨
        '/' ∈ trim env.isSpace (rest.takeWhile (· ≠ '#')) := by
      rcases htaken (fun c => decide (c ≠ '#')) (by decide) (by decide) with hnil | hmem
      · rw [hnil]
        exact .inl rfl
      · exact .inr (mem_trim hmem hslash)
    congr 1
    unfold bound
    split_ifs with hbound
    · have hnil := hunbound _ hvalue hbound
      have hempty : (String.ofList []).toLower.toList = [] := by rw [toList_toLower]; rfl
      rw [hnil, henv.plain _ (by decide), bindsLegacy, hempty] at hbound
      simp at hbound
    · rfl
  · rw [hdirective]
    rfl

theorem bind_named (henv : env.Documented) {name comment : List Char} (hcolon : ':' ∉ head)
    (hkey : isAgentKey (trim env.isSpace head) = true) (hblanks : ∀ c ∈ blanks, env.isSpace c = true)
    (hne : name ≠ []) (hname : ∀ c ∈ name, env.isSpace c = false ∧ c ≠ '#')
    (hcomment : ∀ c ∈ comment.head?, c = '#') :
    readLine env (bindLegacyGroup env (head ++ ':' :: (blanks ++ (name ++ comment)))) =
      (readLine env (head ++ ':' :: (blanks ++ (name ++ comment)))).rename bound := by
  have hline : agentLine env.isSpace (head ++ ':' :: (blanks ++ (name ++ comment))) =
      some (head ++ ':' :: blanks, name ++ comment) := by
    refine agentLine_eq_some.mpr ⟨head, blanks, rfl, rfl, hcolon, hkey, hblanks, fun c hc => ?_⟩
    rw [List.head?_append_of_ne_nil _ hne] at hc
    exact (hname c (List.mem_of_mem_head? hc)).1
  have hchars : ∀ c ∈ name, (!env.isSpace c && decide (c ≠ '#')) = true := fun c hc => by
    simp [hname c hc]
  have hend : ∀ c ∈ comment.head?, (!env.isSpace c && decide (c ≠ '#')) = false := fun c hc => by
    simp [hcomment c hc]
  obtain ⟨htake, hdrop⟩ := span_append hchars hend
  have hbind : bindLegacyGroup env (head ++ ':' :: (blanks ++ (name ++ comment))) =
      head ++ ':' :: (blanks ++ (if bindsLegacy (env.unquote (String.ofList name)).toLower then
        currentToken.toList else name) ++ comment) := by
    unfold bindLegacyGroup
    rw [hline]
    dsimp only
    rw [htake, hdrop]
    split_ifs with hbound hbinds hbinds
    · simp
    · exact absurd hbound.2 hbinds
    · exact absurd ⟨hne, hbinds⟩ hbound
    · simp
  have hnew : ∀ c ∈ (if bindsLegacy (env.unquote (String.ofList name)).toLower then
      currentToken.toList else name), env.isSpace c = false ∧ c ≠ '#' := by
    split_ifs
    · have hink : (currentToken.toList.all fun c => decide ('!' ≤ c) && decide (c ≤ '~') &&
          decide (c ≠ '#')) = true := by decide
      intro c hc
      have hc := List.all_eq_true.mp hink c hc
      rw [Bool.and_eq_true, Bool.and_eq_true] at hc
      exact ⟨henv.ink c (of_decide_eq_true hc.1.1) (of_decide_eq_true hc.1.2), of_decide_eq_true hc.2⟩
    · exact hname
  rw [hbind, List.append_assoc, readLine_of_name henv hcolon hkey hblanks hnew hcomment,
    readLine_of_name henv hcolon hkey hblanks hname hcomment]
  rcases directiveOf_agentKey hkey with hdirective | hdirective
  · rw [hdirective]
    show RobotsLine.directive .userAgent _ = .directive .userAgent (bound _)
    congr 1
    unfold bound
    split_ifs
    · rw [String.ofList_toList, henv.plain _ (by decide)]
    · rfl
  · rw [hdirective]
    rfl

end

/-- **Of a line whose version is dropped**, the new name is all that changes. -/
theorem readLine_bindLegacyGroup (henv : env.Documented) (line : List Char) :
    readLine env (bindLegacyGroup env (dropVersion env.isSpace line)) =
      (readLine env (dropVersion env.isSpace line)).rename bound := by
  cases hline : agentLine env.isSpace line with
  | none =>
    have hdrop : dropVersion env.isSpace line = line := by
      unfold dropVersion
      rw [hline]
    have hbind : bindLegacyGroup env line = line := by
      unfold bindLegacyGroup
      rw [hline]
    rw [hdrop, hbind]
    cases hread : readLine env line with
    | empty => rfl
    | other => rfl
    | directive kind value =>
      cases kind with
      | userAgent =>
        have hsome := agentLine_of_directive hread
        rw [hline] at hsome
        cases hsome
      | disallow => rfl
      | allow => rfl
      | crawlDelay => rfl
      | requestRate => rfl
      | sitemap => rfl
  | some parts =>
    obtain ⟨start, rest⟩ := parts
    have hparts := hline
    obtain ⟨head, blanks, rfl, rfl, hcolon, hkey, hblanks, hrest⟩ := agentLine_eq_some.mp hparts
    have hfirst : ∀ {l : List Char} {p : Char → Bool}, ∀ c ∈ (l.dropWhile p).head?, p c = false := by
      intro l p c hc
      have hhead := List.head?_dropWhile_not p l
      rw [hc] at hhead
      simpa using hhead
    unfold dropVersion
    rw [hline]
    dsimp only
    split_ifs with hname
    · refine bind_unnamed henv hcolon hkey hblanks fun c hc => ?_
      have hstop : isNameChar env.isSpace c = false := by
        have hdrop : rest.dropWhile (isNameChar env.isSpace) = rest := by
          conv_rhs => rw [← List.takeWhile_append_dropWhile (p := isNameChar env.isSpace) (l := rest),
            hname]
          rfl
        rw [← hdrop] at hc
        exact hfirst c hc
      have hblank := hrest c hc
      by_contra hother
      push Not at hother
      simp [isNameChar, hblank, hother.1, hother.2] at hstop
    · have hnamed := @bind_named env head blanks henv (rest.takeWhile (isNameChar env.isSpace))
        ((rest.dropWhile (isNameChar env.isSpace)).dropWhile (· ≠ '#')) hcolon hkey hblanks hname
        (fun c hc => ?_) fun c hc => ?_
      · rwa [List.append_assoc, List.cons_append]
      · have hchar := List.mem_takeWhile_imp hc
        simp only [isNameChar, Bool.and_eq_true, decide_eq_true_eq, Bool.not_eq_true'] at hchar
        exact ⟨hchar.1.2, hchar.2⟩
      · simpa using hfirst c hc

/-! ## The former name's groups -/

theorem appliesTo_iff {entry : RobotsEntry} {token : String} (htoken : '/' ∉ token.toList) :
    entry.appliesTo token = true ↔
      ∃ agent ∈ entry.useragents, agent = "*" ∨ agent.toLower.toList <:+: token.toLower.toList := by
  have hwhole : token.toList.takeWhile (· ≠ '/') = token.toList := by
    refine List.takeWhile_eq_self_iff.mpr fun c hc => decide_eq_true fun heq => ?_
    rw [heq] at hc
    exact htoken hc
  rw [RobotsEntry.appliesTo, hwhole, String.ofList_toList, List.any_eq_true]
  simp only [Bool.or_eq_true, decide_eq_true_eq]

/-- **A group applies to the present name** iff it did to the former one, when it does so
only if it did. -/
theorem appliesTo_bound {entry : RobotsEntry}
    (hboth : entry.appliesTo currentToken = true → entry.appliesTo legacyProductToken = true) :
    (entry.rename bound).appliesTo currentToken = entry.appliesTo legacyProductToken := by
  have hcurrent : '/' ∉ currentToken.toList := by decide
  have hlegacy : '/' ∉ legacyProductToken.toList := by decide
  rw [Bool.eq_iff_iff, appliesTo_iff hcurrent]
  constructor
  · rintro ⟨agent, hagent, happlies⟩
    obtain ⟨former, hformer, rfl⟩ := List.mem_map.mp hagent
    rcases happlies with hstar | hpart
    · exact (appliesTo_iff hlegacy).mpr ⟨former, hformer, .inl ((bound_eq_star_iff former).mp hstar)⟩
    · unfold bound at hpart
      split_ifs at hpart with hbinds
      · rw [bindsLegacy, Bool.and_eq_true, Bool.and_eq_true] at hbinds
        exact (appliesTo_iff hlegacy).mpr ⟨former, hformer, .inr (of_decide_eq_true hbinds.1.2)⟩
      · exact hboth ((appliesTo_iff hcurrent).mpr ⟨former, hformer, .inr hpart⟩)
  · intro happlies
    obtain ⟨former, hformer, happlies⟩ := (appliesTo_iff hlegacy).mp happlies
    refine ⟨bound former, List.mem_map_of_mem hformer, ?_⟩
    rcases happlies with rfl | hpart
    · exact .inl ((bound_eq_star_iff "*").mpr rfl)
    · right
      unfold bound
      split_ifs with hbinds
      · exact List.infix_rfl
      · have hstar : former.toLower ≠ "*" := by
          intro heq
          rw [heq, toList_toLower_legacy] at hpart
          exact absurd (hpart.subset List.mem_cons_self) (by decide)
        by_contra hother
        refine hbinds ?_
        rw [bindsLegacy, Bool.and_eq_true, Bool.and_eq_true, Bool.not_eq_true']
        exact ⟨⟨decide_eq_true hstar, decide_eq_true hpart⟩, decide_eq_false hother⟩

/-- The lines of the former name's groups are read as theirs, under the present name. -/
theorem parseRobots_bind (henv : env.Documented) (text : String) :
    parseRobots env ((plainLines env text).map (bindLegacyGroup env)) =
      (parseRobots env (plainLines env text)).map (·.rename bound) := by
  have hlines : ((plainLines env text).map (bindLegacyGroup env)).map (readLine env) =
      ((plainLines env text).map (readLine env)).map (·.rename bound) := by
    unfold plainLines
    simp only [List.map_map]
    exact List.map_congr_left fun line _ => readLine_bindLegacyGroup henv line
  unfold parseRobots
  rw [hlines, parseLines_rename bound_eq_star_iff]

/-- If each group that names the present name names the former one too, the crawler may fetch what it
might under its former name. -/
theorem mayFetch_bound_iff (henv : env.Documented) {text : String} {lines : List (List Char)}
    (hlines : robotsLines env text = some lines)
    (hboth : ∀ groups ∈ groupsFor env (plainLines env text) currentToken, ∀ group ∈ groups,
      group.appliesTo legacyProductToken = true) (url : String) :
    MayFetch env lines currentToken url ↔ MayFetch env (plainLines env text) legacyProductToken url := by
  unfold robotsLines groupsFor at hlines
  dsimp only at hlines
  cases hfile : parseRobots env (plainLines env text) with
  | none =>
    rw [hfile] at hlines
    cases hlines
  | some file =>
    have happlies : ∀ entry ∈ file.entries, entry.appliesTo currentToken = true →
        entry.appliesTo legacyProductToken = true := by
      intro entry hentry hcurrent
      have hgroups : file.entries.filter (·.appliesTo currentToken) ∈
          groupsFor env (plainLines env text) currentToken := by
        rw [groupsFor, hfile]
        rfl
      exact hboth _ hgroups entry (List.mem_filter.mpr ⟨hentry, hcurrent⟩)
    have hnone : ((file.entries.filter (·.appliesTo currentToken)).any
        fun group => !group.appliesTo legacyProductToken) = false := by
      refine List.any_eq_false.mpr fun group hgroup => ?_
      obtain ⟨hentry, hcurrent⟩ := List.mem_filter.mp hgroup
      rw [happlies group hentry hcurrent]
      decide
    rw [hfile, Option.map_some, Option.map_some, hnone] at hlines
    obtain rfl := Option.some.inj hlines
    have hparse := parseRobots_bind henv text
    rw [hfile] at hparse
    have hfetch : (file.rename bound).canFetch env currentToken url =
        file.canFetch env legacyProductToken url :=
      canFetch_rename (fun entry hentry => appliesTo_bound (happlies entry hentry)) url
    unfold MayFetch
    rw [if_neg Bool.false_ne_true, hparse, hfile]
    exact iff_of_eq (congrArg (· = some true) hfetch)

/-- **The new name widens nothing**: if no group names it, the crawler may fetch only what it might under
its former name, by the text without versions. -/
theorem robotsLines_narrows (henv : env.Documented) {text : String} {lines : List (List Char)}
    (hlines : robotsLines env text = some lines)
    (hnone : ∀ groups ∈ groupsFor env (plainLines env text) currentToken, groups = []) {url : String}
    (hallowed : MayFetch env lines currentToken url) :
    MayFetch env (plainLines env text) legacyProductToken url := by
  refine (mayFetch_bound_iff henv hlines (fun groups hgroups group hgroup => ?_) url).mp hallowed
  rw [hnone groups hgroups] at hgroup
  exact absurd hgroup List.not_mem_nil

end

/-! ## A group with a version -/

def plainRobots : RobotsEnv where
  isSpace := Char.isWhitespace
  unquote := id
  isDigits text := text ≠ "" && text.toList.all Char.isDigit
  readInt := String.toNat?
  rulePath := some
  urlPath := some

theorem plainRobots_documented : plainRobots.Documented where
  ink _ hlow _ := not_isWhitespace_of_ink hlow
  plain _ _ := rfl
  slash _ h := h

/-- Groups for the former name, the first with a version. -/
def versionedText : String :=
  "User-agent: GuruJi/1.0\nAllow: /\n\nUser-agent: GuruJi\nDisallow: /private\n"

/-- A file for the former name only. -/
theorem robotsLines_narrows_former : MayFetch plainRobots
    (plainLines plainRobots "User-agent: GuruJi\nDisallow: /private\n") legacyProductToken "/news" := by
  have hallowed : MayFetch plainRobots ["User-agent: AgenticSaffron-InstitutionIntelligence".toList,
      "Disallow: /private".toList] currentToken "/news" := by
    unfold MayFetch
    decide +kernel
  refine robotsLines_narrows plainRobots_documented (by decide +kernel) ?_ hallowed
  decide +kernel

/-- **A group with a version** is not applied to the former name by the text as it stands. -/
theorem version_binds :
    groupsFor plainRobots (Documents.splitLines [] versionedText.toList) currentToken = some [] ∧
      groupsFor plainRobots (plainLines plainRobots versionedText) currentToken = some [] ∧
        (∃ lines ∈ robotsLines plainRobots versionedText,
          MayFetch plainRobots lines currentToken "/private/x") ∧
          ¬MayFetch plainRobots (Documents.splitLines [] versionedText.toList) legacyProductToken
            "/private/x" := by
  refine ⟨by decide +kernel, by decide +kernel, ⟨["User-agent: AgenticSaffron-InstitutionIntelligence".toList,
    "Allow: /".toList, [], "User-agent: AgenticSaffron-InstitutionIntelligence".toList,
    "Disallow: /private".toList], by decide +kernel, ?_⟩, ?_⟩
  · unfold MayFetch
    decide +kernel
  · unfold MayFetch
    decide +kernel

end GuruJi.Crawl
