import GuruJi.Lib.Text
import Mathlib.Data.List.Find
import Mathlib.Data.List.Infix

/-!
# Robots files

The reading of the lines of a robots file into groups of rules, as `urllib.robotparser` does it, and what
a crawler may fetch by it.

* `parse_rename`: when the names of the groups are changed, the groups read are the same but for their
  names;
* `canFetch_rename`: and what a crawler may fetch is what another was allowed, if each group applies to
  the one as it did to the other.
-/

namespace GuruJi.Lib

/-- What a robots file is read with: white space, `unquote`, `str.isdigit`, `int`, and the paths of a rule
and of a URL, where there are such. -/
structure RobotsEnv where
  isSpace : Char → Bool
  unquote : String → String
  isDigits : String → Bool
  readInt : String → Option Nat
  rulePath : String → Option String
  urlPath : String → Option String

/-- What is known of these: ink is no white space, an escape is not in a text without `%`, and slashes
stay. -/
structure RobotsEnv.Documented (env : RobotsEnv) : Prop where
  ink : ∀ c, '!' ≤ c → c ≤ '~' → env.isSpace c = false
  plain : ∀ text : String, '%' ∉ text.toList → env.unquote text = text
  slash : ∀ text : String, '/' ∈ text.toList → '/' ∈ (env.unquote text).toList

/-- The directives that are known. -/
inductive Directive where
  | userAgent
  | disallow
  | allow
  | crawlDelay
  | requestRate
  | sitemap
  deriving DecidableEq

def directiveOf (key : String) : Option Directive :=
  if key = "user-agent" then some .userAgent
  else if key = "disallow" then some .disallow
  else if key = "allow" then some .allow
  else if key = "crawl-delay" then some .crawlDelay
  else if key = "request-rate" then some .requestRate
  else if key = "sitemap" then some .sitemap
  else none

/-- A line as it is read; `other` says nothing. -/
inductive RobotsLine where
  | empty
  | other
  | directive (kind : Directive) (value : String)
  deriving DecidableEq

/-- `RuleLine`. -/
structure RuleLine where
  path : String
  allowance : Bool
  deriving DecidableEq

/-- `RuleLine.applies_to`. -/
def RuleLine.appliesTo (rule : RuleLine) (path : String) : Bool :=
  rule.path = "*" || startsWith rule.path path

/-- `Entry`: a group of rules. -/
structure RobotsEntry where
  useragents : List String
  rulelines : List RuleLine
  delay : Option Nat
  reqRate : Option (Nat × Nat)
  deriving DecidableEq

namespace RobotsEntry

def fresh : RobotsEntry := ⟨[], [], none, none⟩

/-- Whether the group names a crawler; its names and the crawler's are compared in lower case, the
crawler's up to a slash. -/
def appliesTo (entry : RobotsEntry) (token : String) : Bool :=
  entry.useragents.any fun agent => agent = "*" || decide (agent.toLower.toList <:+:
    (String.ofList (token.toList.takeWhile (· ≠ '/'))).toLower.toList)

/-- `Entry.allowance`: of the first rule that applies. -/
def allowance (entry : RobotsEntry) (path : String) : Bool :=
  ((entry.rulelines.find? (·.appliesTo path)).map (·.allowance)).getD true

end RobotsEntry

/-- `RobotFileParser`, of a file that was read. -/
structure RobotFile where
  entries : List RobotsEntry
  defaultEntry : Option RobotsEntry
  sitemaps : List String
  deriving DecidableEq

/-- `_add_entry`. -/
def RobotFile.addEntry (file : RobotFile) (entry : RobotsEntry) : RobotFile :=
  if "*" ∈ entry.useragents then
    { file with defaultEntry := some (file.defaultEntry.getD entry) }
  else { file with entries := file.entries ++ [entry] }

/-- Where in a group the reading is: before it, at its names, at its rules. -/
inductive RobotsState where
  | start
  | agents
  | rules
  deriving DecidableEq

structure RobotsRead where
  state : RobotsState
  entry : RobotsEntry
  file : RobotFile
  deriving DecidableEq

section
variable (env : RobotsEnv)

def readLine (line : List Char) : RobotsLine :=
  if line = [] then .empty
  else
    let content := line.takeWhile (· ≠ '#')
    match content.dropWhile (· ≠ ':') with
    | [] => .other
    | _ :: value =>
      match directiveOf (String.ofList (trim env.isSpace (content.takeWhile (· ≠ ':')))).toLower with
      | some kind => .directive kind (env.unquote (String.ofList (trim env.isSpace value)))
      | none => .other

/-- A group with one more rule; an empty `Disallow` allows. -/
def addRule (path : String) (allowance : Bool) (entry : RobotsEntry) : Option RobotsEntry :=
  (env.rulePath path).map fun quoted =>
    { entry with rulelines := entry.rulelines ++ [⟨quoted, allowance || path = ""⟩] }

/-- The number of seconds that a group asks for, if its text is one. -/
def readDelay (value : String) (entry : RobotsEntry) : Option RobotsEntry :=
  if env.isDigits (strip env.isSpace value) then
    (env.readInt value).map fun seconds => { entry with delay := some seconds }
  else some entry

/-- The rate that a group asks for, if its text is one. -/
def readRate (value : String) (entry : RobotsEntry) : Option RobotsEntry :=
  match value.toList.splitOn '/' with
  | [requests, seconds] =>
    if env.isDigits (strip env.isSpace (String.ofList requests)) ∧
        env.isDigits (strip env.isSpace (String.ofList seconds)) then do
      let requests ← env.readInt (String.ofList requests)
      let seconds ← env.readInt (String.ofList seconds)
      pure { entry with reqRate := some (requests, seconds) }
    else some entry
  | _ => some entry

/-- A directive of a group; before a group it says nothing. -/
def inGroup (read : RobotsRead) (change : RobotsEntry → Option RobotsEntry) : Option RobotsRead :=
  if read.state = .start then some read
  else (change read.entry).map fun entry => { read with state := .rules, entry }

/-- `parse`, of one line; nothing if a `ValueError` is raised. -/
def robotsStep (read : RobotsRead) : RobotsLine → Option RobotsRead
  | .empty =>
    match read.state with
    | .start => some read
    | .agents => some { read with state := .start, entry := .fresh }
    | .rules => some ⟨.start, .fresh, read.file.addEntry read.entry⟩
  | .other => some read
  | .directive .userAgent agent =>
    if read.state = .rules then
      some ⟨.agents, { RobotsEntry.fresh with useragents := [agent] }, read.file.addEntry read.entry⟩
    else some { read with
      state := .agents, entry := { read.entry with useragents := read.entry.useragents ++ [agent] } }
  | .directive .disallow path => inGroup read fun entry => addRule env path false entry
  | .directive .allow path => inGroup read fun entry => addRule env path true entry
  | .directive .crawlDelay value => inGroup read fun entry => readDelay env value entry
  | .directive .requestRate value => inGroup read fun entry => readRate env value entry
  | .directive .sitemap url =>
    some { read with file := { read.file with sitemaps := read.file.sitemaps ++ [url] } }

def RobotsRead.close (read : RobotsRead) : RobotFile :=
  if read.state = .rules then read.file.addEntry read.entry else read.file

/-- `parse`, of lines as they are read. -/
def parseLines (lines : List RobotsLine) : Option RobotFile :=
  (lines.foldlM (robotsStep env) ⟨.start, .fresh, ⟨[], none, []⟩⟩).map RobotsRead.close

/-- `parse`. -/
def parseRobots (lines : List (List Char)) : Option RobotFile := parseLines env (lines.map (readLine env))

/-- `can_fetch`, of a file that was read: the first group that applies decides, then the default. -/
def RobotFile.canFetch (file : RobotFile) (token url : String) : Option Bool :=
  (env.urlPath url).map fun path =>
    (((file.entries.find? (·.appliesTo token)).or file.defaultEntry).map
      (·.allowance (if path = "" then "/" else path))).getD true

end

/-! ## Names are changed -/

section
variable {env : RobotsEnv} {f : String → String}

def RobotsLine.rename (f : String → String) : RobotsLine → RobotsLine
  | .directive .userAgent agent => .directive .userAgent (f agent)
  | line => line

def RobotsEntry.rename (f : String → String) (entry : RobotsEntry) : RobotsEntry :=
  { entry with useragents := entry.useragents.map f }

def RobotFile.rename (f : String → String) (file : RobotFile) : RobotFile :=
  { file with entries := file.entries.map (·.rename f), defaultEntry := file.defaultEntry.map (·.rename f) }

def RobotsRead.rename (f : String → String) (read : RobotsRead) : RobotsRead :=
  { read with entry := read.entry.rename f, file := read.file.rename f }

theorem rename_addEntry (hstar : ∀ agent, f agent = "*" ↔ agent = "*") (file : RobotFile)
    (entry : RobotsEntry) :
    (file.addEntry entry).rename f = (file.rename f).addEntry (entry.rename f) := by
  have hall : "*" ∈ (entry.rename f).useragents ↔ "*" ∈ entry.useragents := by
    constructor
    · intro h
      obtain ⟨agent, hagent, heq⟩ := List.mem_map.mp h
      exact (hstar agent).mp heq ▸ hagent
    · intro h
      exact List.mem_map.mpr ⟨"*", h, (hstar "*").mpr rfl⟩
  unfold RobotFile.addEntry
  by_cases hmem : "*" ∈ entry.useragents
  · rw [if_pos hmem, if_pos (hall.mpr hmem)]
    cases hdefault : file.defaultEntry with
    | none => simp [RobotFile.rename, hdefault]
    | some entry => simp [RobotFile.rename, hdefault]
  · rw [if_neg hmem, if_neg (mt hall.mp hmem)]
    simp [RobotFile.rename]

theorem rename_inGroup {change : RobotsEntry → Option RobotsEntry}
    (hchange : ∀ entry : RobotsEntry, change (entry.rename f) = (change entry).map (·.rename f))
    (read : RobotsRead) :
    inGroup (read.rename f) change = (inGroup read change).map (·.rename f) := by
  have hstate : (read.rename f).state = read.state := rfl
  have hentry : (read.rename f).entry = read.entry.rename f := rfl
  unfold inGroup
  rw [hstate, hentry, hchange]
  split_ifs
  · rfl
  · rw [Option.map_map, Option.map_map]
    rfl

theorem rename_addRule (path : String) (allowance : Bool) (entry : RobotsEntry) :
    addRule env path allowance (entry.rename f) = (addRule env path allowance entry).map (·.rename f) := by
  unfold addRule
  rw [Option.map_map]
  rfl

theorem rename_readDelay (value : String) (entry : RobotsEntry) :
    readDelay env value (entry.rename f) = (readDelay env value entry).map (·.rename f) := by
  unfold readDelay
  split_ifs
  · rw [Option.map_map]
    rfl
  · rfl

theorem rename_readRate (value : String) (entry : RobotsEntry) :
    readRate env value (entry.rename f) = (readRate env value entry).map (·.rename f) := by
  unfold readRate
  split
  · split_ifs
    · cases env.readInt _ with
      | none => rfl
      | some requests =>
        cases env.readInt _ with
        | none => rfl
        | some seconds => rfl
    · rfl
  · rfl

theorem robotsStep_rename (hstar : ∀ agent, f agent = "*" ↔ agent = "*") (read : RobotsRead)
    (line : RobotsLine) :
    robotsStep env (read.rename f) (line.rename f) = (robotsStep env read line).map (·.rename f) := by
  obtain ⟨state, entry, file⟩ := read
  cases line with
  | empty =>
    cases state with
    | start => rfl
    | agents => rfl
    | rules =>
      have hadd := rename_addEntry hstar file entry
      exact congrArg (fun file => some (RobotsRead.mk .start .fresh file)) hadd.symm
  | other => rfl
  | directive kind value =>
    cases kind with
    | userAgent =>
      cases state with
      | start =>
        show some _ = some _
        simp [RobotsRead.rename, RobotsEntry.rename]
      | agents =>
        show some _ = some _
        simp [RobotsRead.rename, RobotsEntry.rename]
      | rules =>
        have hadd := rename_addEntry hstar file entry
        exact congrArg (fun file => some
          (RobotsRead.mk .agents { RobotsEntry.fresh with useragents := [f value] } file)) hadd.symm
    | disallow => exact rename_inGroup (rename_addRule value false) _
    | allow => exact rename_inGroup (rename_addRule value true) _
    | crawlDelay => exact rename_inGroup (rename_readDelay value) _
    | requestRate => exact rename_inGroup (rename_readRate value) _
    | sitemap => rfl

/-- **When the names are changed**, and none is made the name of all or was, the groups are the same but
for their names. -/
theorem parseLines_rename (hstar : ∀ agent, f agent = "*" ↔ agent = "*") (lines : List RobotsLine) :
    parseLines env (lines.map (·.rename f)) = (parseLines env lines).map (·.rename f) := by
  have hfold : ∀ read : RobotsRead, (lines.map (·.rename f)).foldlM (robotsStep env) (read.rename f) =
      (lines.foldlM (robotsStep env) read).map (·.rename f) := by
    induction lines with
    | nil => exact fun read => rfl
    | cons line lines ih =>
      intro read
      rw [List.map_cons, List.foldlM_cons, List.foldlM_cons, robotsStep_rename hstar]
      cases robotsStep env read line with
      | none => rfl
      | some next => exact ih next
  have hclose : ∀ read : RobotsRead, (read.rename f).close = read.close.rename f := by
    intro read
    have hstate : (read.rename f).state = read.state := rfl
    unfold RobotsRead.close
    rw [hstate]
    split_ifs
    · exact (rename_addEntry hstar _ _).symm
    · rfl
  have hstart := hfold ⟨.start, .fresh, ⟨[], none, []⟩⟩
  unfold parseLines
  rw [Option.map_map]
  refine (congrArg (Option.map RobotsRead.close) hstart).trans ?_
  rw [Option.map_map]
  exact congrArg (fun close => Option.map close _) (funext hclose)

/-- What a crawler may fetch by the groups with their new names. -/
theorem canFetch_rename {file : RobotFile} {token token' : String}
    (happlies : ∀ entry ∈ file.entries, (entry.rename f).appliesTo token' = entry.appliesTo token)
    (url : String) : (file.rename f).canFetch env token' url = file.canFetch env token url := by
  have hallowance : ∀ (entry : RobotsEntry) (path : String),
      (entry.rename f).allowance path = entry.allowance path := fun _ _ => rfl
  have hfound : (file.rename f).entries.find? (·.appliesTo token') =
      (file.entries.find? (·.appliesTo token)).map (·.rename f) := by
    show (file.entries.map (·.rename f)).find? _ = _
    rw [List.find?_map]
    refine congrArg _ (List.find?_congr fun entry hentry => ?_)
    exact happlies entry hentry
  unfold RobotFile.canFetch
  rw [hfound]
  show Option.map (fun path => (((Option.map _ _).or (file.defaultEntry.map _)).map _).getD true) _ = _
  rw [← Option.map_or]
  simp only [Option.map_map, Function.comp_def, hallowance]

end
end GuruJi.Lib
