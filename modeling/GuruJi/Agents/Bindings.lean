import GuruJi.Lib.Table

/-!
# Bindings between steps

`"$step.path"` references let a later step consume what an earlier one returned. Tool data and
arguments are JSON values; `digit` gives the value of a decimal character, as `\d` and `int` read
it. `resolveArguments_congr`: resolution reads nothing of the completed steps but the ones that
the references name.
-/

namespace GuruJi.Agents

open GuruJi.Lib

inductive Json where
  | null
  | bool (b : Bool)
  | number (literal : String)
  | string (s : String)
  | array (items : List Json)
  | object (fields : List (String × Json))

/-- `dict[str, Any]` in insertion order. -/
abbrev Dict := Table String Json

inductive Segment where
  | key (name : String)
  | all
  | index (position : Nat)
  deriving DecidableEq

structure Reference where
  step : String
  path : List Segment
  deriving DecidableEq

/-! ## The grammar of references -/

def isNameChar (c : Char) : Bool :=
  'A' ≤ c && c ≤ 'Z' || 'a' ≤ c && c ≤ 'z' || '0' ≤ c && c ≤ '9' || c == '_'

def isStepChar (c : Char) : Bool := isNameChar c || c == '-'

/-- Where the reader of a path stands: between segments, in a name, after a bracket, after a star
or in an index. -/
inductive PathState where
  | ready
  | name (before : List Char)
  | bracket
  | star
  | index (value : Nat)

/-- `(?:\.[A-Za-z0-9_]+|\[\*\]|\[\d+\])*$`, where `$` also matches before a final line break. -/
def parsePath (digit : Char → Option Nat) : PathState → List Char → Option (List Segment)
  | .ready, [] => some []
  | .ready, ['\n'] => some []
  | .ready, '.' :: cs => parsePath digit (.name []) cs
  | .ready, '[' :: cs => parsePath digit .bracket cs
  | .ready, _ => none
  | .name before, [] =>
    if before = [] then none else some [.key (String.ofList before.reverse)]
  | .name before, c :: cs =>
    if isNameChar c then parsePath digit (.name (c :: before)) cs
    else if before = [] then none
    else
      let rest :=
        if c = '.' then parsePath digit (.name []) cs
        else if c = '[' then parsePath digit .bracket cs
        else if c = '\n' ∧ cs = [] then some []
        else none
      rest.map (.key (String.ofList before.reverse) :: ·)
  | .bracket, '*' :: cs => parsePath digit .star cs
  | .bracket, c :: cs =>
    match digit c with
    | some d => parsePath digit (.index d) cs
    | none => none
  | .bracket, [] => none
  | .star, ']' :: cs => (parsePath digit .ready cs).map (.all :: ·)
  | .star, _ => none
  | .index value, ']' :: cs => (parsePath digit .ready cs).map (.index value :: ·)
  | .index value, c :: cs =>
    match digit c with
    | some d => parsePath digit (.index (10 * value + d)) cs
    | none => none
  | .index _, [] => none

/-- `_REFERENCE.match`. -/
def parseReference (digit : Char → Option Nat) (text : String) : Option Reference :=
  match text.toList with
  | '$' :: cs =>
    let step := cs.takeWhile isStepChar
    if step = [] then none
    else (parsePath digit .ready (cs.dropWhile isStepChar)).map (⟨String.ofList step, ·⟩)
  | _ => none

/-! ## Resolution -/

def Json.get (key : String) : Json → Json
  | .object fields => (Table.get fields key).getD .null
  | _ => .null

def readSegment (reference : String) (current : Json) : Segment → Except String Json
  | .key key =>
    match current with
    | .array items => .ok (.array (items.map (Json.get key)))
    | .object fields => .ok (Json.get key (.object fields))
    | _ => .error ("cannot read " ++ key ++ " from a scalar in " ++ reference)
  | .all =>
    match current with
    | .array items => .ok (.array items)
    | .null => .ok (.array [])
    | value => .ok (.array [value])
  | .index position =>
    match current with
    | .array items => .ok (items.getD position .null)
    | _ => .error ("cannot index a non-list in " ++ reference)

def readPath (reference : String) (current : Json) : List Segment → Except String Json
  | [] => .ok current
  | segment :: path =>
    match readSegment reference current segment with
    | .error e => .error e
    | .ok next => readPath reference next path

variable (digit : Char → Option Nat)

def resolveReference (reference : String) (results : Dict) : Except String Json :=
  match parseReference digit reference with
  | none => .error ("invalid reference: " ++ reference)
  | some r =>
    match results.get r.step with
    | none => .error ("reference to unknown or incomplete step: " ++ r.step)
    | some current => readPath reference current r.path

/-- `[item for item in value if item is not None]`. -/
def dropNulls : Json → Json
  | .array items => .array (items.filter fun item => match item with
      | .null => false
      | _ => true)
  | value => value

def resolveArguments (arguments : Dict) (bindings : List (String × String)) (results : Dict) :
    Except String Dict :=
  match bindings with
  | [] => .ok arguments
  | (name, reference) :: bindings =>
    match resolveReference digit reference results with
    | .error e => .error e
    | .ok value => resolveArguments (arguments.assign name (dropNulls value)) bindings results

/-- The step a text refers to, if it is a reference. -/
def referencedStep (text : String) : Option String := (parseReference digit text).map (·.step)

/-! ## What resolution reads -/

theorem resolveReference_congr {reference : String} {results results' : Dict}
    (h : ∀ step ∈ referencedStep digit reference, results.get step = results'.get step) :
    resolveReference digit reference results = resolveReference digit reference results' := by
  cases hr : parseReference digit reference with
  | none => simp only [resolveReference, hr]
  | some r =>
    have hstep := h r.step (by simp [referencedStep, hr])
    simp only [resolveReference, hr, hstep]

theorem resolveArguments_congr {arguments : Dict} {bindings : List (String × String)}
    {results results' : Dict}
    (h : ∀ binding ∈ bindings, ∀ step ∈ referencedStep digit binding.2,
      results.get step = results'.get step) :
    resolveArguments digit arguments bindings results =
      resolveArguments digit arguments bindings results' := by
  induction bindings generalizing arguments with
  | nil => rfl
  | cons binding bindings ih =>
    obtain ⟨name, reference⟩ := binding
    have hone := resolveReference_congr digit (h (name, reference) List.mem_cons_self)
    simp only [resolveArguments, hone]
    cases resolveReference digit reference results' with
    | error e => rfl
    | ok value => exact ih fun b hb => h b (List.mem_cons_of_mem _ hb)

end GuruJi.Agents
