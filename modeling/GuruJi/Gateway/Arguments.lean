import GuruJi.Gateway.Approval
import GuruJi.Lib.Checks
import GuruJi.Lib.Text
import Mathlib.Data.List.Dedup
import Mathlib.Data.List.Nodup
import Mathlib.Data.Rat.Floor

/-!
# Validated arguments

`PlatformToolSpec.validate_arguments`: each parameter's value is taken from the call or from its
default, and coerced to the parameter's type. What it returns is stored with an approval and sent
again with the confirmation, so it is validated twice:

* `collect_ok`, `collect_congr`: the loop over the parameters, one parameter at a time;
* `coerce_twice_iff`: when coercing one value twice is coercing it once;
* **`validateArguments_twice_iff`**: when the arguments that were confirmed are accepted again and
  are the same.

Python's numbers are a type `F` of floats beside the integers; what Python does with texts, and the
conversions between texts and numbers, are a `Runtime` of which nothing is assumed.
-/

namespace GuruJi.Gateway

open GuruJi.Lib

/-- A number that is no `bool`. -/
inductive Number (F : Type) where
  | int (i : Int)
  | float (x : F)

/-- The values of a call's arguments; `object` is anything else. -/
inductive Value (F : Type) where
  | null
  | bool (b : Bool)
  | number (x : Number F)
  | str (text : String)
  | list (items : List (Value F))
  | tuple (items : List (Value F))
  | set (items : List (Value F))
  | mapping (entries : List (Value F × Value F))
  | object (id : Nat)

/-- A `dict` by name, in the order of its keys. -/
abbrev Arguments (F : Type) := List (String × Value F)

inductive ParameterType where
  | string | integer | number | boolean | array | object
  | other (name : String)
  deriving DecidableEq

inductive ItemsType where
  | string | object
  | other (name : String)
  deriving DecidableEq

structure ParameterSpec (F : Type) where
  name : String
  type : ParameterType
  required : Bool
  enum : List String
  minimum : Option (Number F)
  maximum : Option (Number F)
  maxLength : Int
  itemsType : ItemsType
  default : Value F

/-- A tool's parameters; two of one name are refused when the tool is made. -/
structure PlatformToolSpec (F : Type) where
  name : String
  parameters : List (ParameterSpec F)
  nodup : (parameters.map (·.name)).Nodup

/-- `supplied.get(spec.name, spec.default)`. -/
def ParameterSpec.valueOf {F : Type} (spec : ParameterSpec F) (supplied : Arguments F) : Value F :=
  (supplied.lookup spec.name).getD spec.default

/-- `sorted(set(supplied) - set(known))`. -/
def PlatformToolSpec.unknown {F : Type} (tool : PlatformToolSpec F) (supplied : Arguments F) :
    List String :=
  ((supplied.map Prod.fst).dedup.filter (· ∉ tool.parameters.map (·.name))).mergeSort

/-- What Python does with texts and numbers; `none` where it raises. -/
structure Runtime (F : Type) where
  isSpace : Char → Bool
  lower : String → String
  /-- `str(x)`; a `ValueError` for an integer of too many digits. -/
  str : Number F → Option String
  /-- `int(text)`. -/
  intOf : String → Option Int
  /-- `float(text)`. -/
  floatOf : String → Option F
  /-- `int(x)` of a float that `is_integer()`. -/
  whole : F → Option Int
  /-- `float(i)`; an `OverflowError` for an integer that is too large. -/
  ofInt : Int → Option F
  less : Number F → Number F → Bool

inductive ArgumentError where
  | toolArgumentError (message : String)
  | valueError
  | overflowError
  deriving DecidableEq

open ArgumentError

namespace Value
variable {F : Type}

/-- `value is None or value == ""`. -/
def isBlank : Value F → Bool
  | null => true
  | str text => text = ""
  | _ => false

end Value

namespace Runtime
variable {F : Type} (python : Runtime F)

/-- `str(x)`. -/
def textOf (x : Number F) : Except ArgumentError String :=
  match python.str x with
  | some text => .ok text
  | none => .error valueError

/-- `float(x)`. -/
def toFloat : Number F → Except ArgumentError F
  | .float x => .ok x
  | .int i =>
    match python.ofInt i with
    | some x => .ok x
    | none => .error overflowError

/-- `value.strip().rstrip("%")`. -/
def stripPercent (text : String) : String :=
  String.ofList ((strip python.isSpace text).toList.rdropWhile (· = '%'))

/-! ## Coercions -/

/-- `_check_bounds`. -/
def checkBounds (spec : ParameterSpec F) (value : Number F) : Except ArgumentError Unit := do
  match spec.minimum with
  | some minimum =>
    if python.less value minimum then
      let bound ← python.textOf minimum
      throw (toolArgumentError s!"{spec.name} must be at least {bound}")
  | none => pure ()
  match spec.maximum with
  | some maximum =>
    if python.less maximum value then
      let bound ← python.textOf maximum
      throw (toolArgumentError s!"{spec.name} must be at most {bound}")
  | none => pure ()

def checkText (spec : ParameterSpec F) (text : String) : Except ArgumentError (Value F) :=
  let value := strip python.isSpace text
  if (value.length : Int) > spec.maxLength then
    .error (toolArgumentError s!"{spec.name} exceeds {spec.maxLength} characters")
  else if spec.enum ≠ [] ∧ python.lower value ∉ spec.enum.map python.lower then
    let options := ", ".intercalate spec.enum
    .error (toolArgumentError s!"{spec.name} must be one of: {options}")
  else .ok (.str value)

def coerceString (spec : ParameterSpec F) : Value F → Except ArgumentError (Value F)
  | .number x => do python.checkText spec (← python.textOf x)
  | .str text => python.checkText spec text
  | _ => .error (toolArgumentError s!"{spec.name} must be a string")

def checkInteger (spec : ParameterSpec F) : Option Int → Except ArgumentError (Value F)
  | some i => do
    python.checkBounds spec (.int i)
    return .number (.int i)
  | none => .error (toolArgumentError s!"{spec.name} must be an integer")

def coerceInteger (spec : ParameterSpec F) : Value F → Except ArgumentError (Value F)
  | .number (.int i) => python.checkInteger spec (some i)
  | .number (.float x) => python.checkInteger spec (python.whole x)
  | .str text => python.checkInteger spec (python.intOf (python.stripPercent text))
  | _ => .error (toolArgumentError s!"{spec.name} must be an integer")

def checkNumber (spec : ParameterSpec F) (value : Number F) : Except ArgumentError (Value F) := do
  let x ← python.toFloat value
  python.checkBounds spec (.float x)
  return .number (.float x)

def coerceNumber (spec : ParameterSpec F) : Value F → Except ArgumentError (Value F)
  | .number x => python.checkNumber spec x
  | .str text =>
    match python.floatOf (python.stripPercent text) with
    | some x => python.checkNumber spec (.float x)
    | none => .error (toolArgumentError s!"{spec.name} must be a number")
  | _ => .error (toolArgumentError s!"{spec.name} must be a number")

def coerceBoolean (spec : ParameterSpec F) : Value F → Except ArgumentError (Value F)
  | .bool b => .ok (.bool b)
  | .str text =>
    if python.lower (strip python.isSpace text) ∈ ["true", "yes", "1"] then .ok (.bool true)
    else if python.lower (strip python.isSpace text) ∈ ["false", "no", "0"] then .ok (.bool false)
    else .error (toolArgumentError s!"{spec.name} must be a boolean")
  | _ => .error (toolArgumentError s!"{spec.name} must be a boolean")

def coerceItem (spec : ParameterSpec F) (item : Value F) : Except ArgumentError (Value F) :=
  match spec.itemsType, item with
  | .string, .str text => .ok (.str (upTo 500 (strip python.isSpace text)))
  | .string, .number x => do
    let text ← python.textOf x
    return .str (upTo 500 (strip python.isSpace text))
  | .string, _ => .error (toolArgumentError s!"{spec.name} items must be strings")
  | .object, .mapping entries => .ok (.mapping entries)
  | .object, _ => .error (toolArgumentError s!"{spec.name} items must be objects")
  | .other _, item => .ok item

/-- `[item.strip() for item in text.split(",") if item.strip()]`. -/
def pieces (text : String) : List String :=
  ((text.toList.splitOn ',').map fun piece => strip python.isSpace (String.ofList piece)).filter (· ≠ "")

def coerceItems (spec : ParameterSpec F) (items : List (Value F)) : Except ArgumentError (Value F) :=
  if (items.length : Int) > spec.maxLength then
    .error (toolArgumentError s!"{spec.name} exceeds {spec.maxLength} items")
  else do return .list (← items.mapM (python.coerceItem spec))

def coerceArray (spec : ParameterSpec F) : Value F → Except ArgumentError (Value F)
  | .str text => python.coerceItems spec ((python.pieces text).map .str)
  | .list items => python.coerceItems spec items
  | .tuple items => python.coerceItems spec items
  | _ => .error (toolArgumentError s!"{spec.name} must be an array")

def checkEntry (spec : ParameterSpec F) : Value F × Value F → Except ArgumentError Unit
  | (.str key, item) =>
    if strip python.isSpace key = "" then
      .error (toolArgumentError s!"{spec.name} keys must be non-empty strings")
    else
      match item with
      | .mapping _ | .list _ | .tuple _ | .set _ =>
        .error (toolArgumentError
            s!"{spec.name}.{key} must be a scalar value, not a nested object or list")
      | _ => .ok ()
  | _ => .error (toolArgumentError s!"{spec.name} keys must be non-empty strings")

/-- The keys of a mapping are different, so the copy has its entries in their order. -/
def coerceObject (spec : ParameterSpec F) : Value F → Except ArgumentError (Value F)
  | .mapping entries =>
    if (entries.length : Int) > spec.maxLength then
      .error (toolArgumentError s!"{spec.name} has too many keys")
    else do
      entries.forM (python.checkEntry spec)
      return .mapping entries
  | _ => .error (toolArgumentError s!"{spec.name} must be an object")

/-- `_coerce`. -/
def coerce (spec : ParameterSpec F) (value : Value F) : Except ArgumentError (Value F) :=
  match spec.type with
  | .string => python.coerceString spec value
  | .integer => python.coerceInteger spec value
  | .number => python.coerceNumber spec value
  | .boolean => python.coerceBoolean spec value
  | .array => python.coerceArray spec value
  | .object => python.coerceObject spec value
  | .other _ => .error (toolArgumentError s!"unsupported parameter type for {spec.name}")

/-! ## Validation -/

/-- What one parameter adds to the result; nothing for a blank that is not required. -/
def argument (tool : String) (supplied : Arguments F) (spec : ParameterSpec F) :
    Except ArgumentError (Option (Value F)) :=
  let value := spec.valueOf supplied
  if value.isBlank then
    if spec.required then .error (toolArgumentError s!"{tool} requires argument {spec.name}")
    else .ok none
  else some <$> python.coerce spec value

/-- The loop over the parameters; their names are different, so each adds at the end. -/
def collect (tool : String) (supplied : Arguments F) :
    List (ParameterSpec F) → Except ArgumentError (Arguments F)
  | [] => .ok []
  | spec :: specs => do
    match ← python.argument tool supplied spec with
    | some value => return (spec.name, value) :: (← collect tool supplied specs)
    | none => collect tool supplied specs

/-- `PlatformToolSpec.validate_arguments`. -/
def validateArguments (tool : PlatformToolSpec F) (arguments : Option (Arguments F)) :
    Except ArgumentError (Arguments F) :=
  let supplied := arguments.getD []
  if tool.unknown supplied ≠ [] then
    let names := ", ".intercalate (tool.unknown supplied)
    .error (toolArgumentError s!"unknown argument(s) for {tool.name}: {names}")
  else python.collect tool.name supplied tool.parameters

/-! ## Validated twice -/

def itemText : Value F → Option String
  | .str text => some text
  | .number x => python.str x
  | _ => none

/-- The items of an array, or of a text that is split into one. -/
def itemsOf : Value F → List (Value F)
  | .str text => (python.pieces text).map .str
  | .list items => items
  | .tuple items => items
  | _ => []

/-- An item of texts has no white space where it is cut: its character 500, if it is that long. -/
def CutClean (spec : ParameterSpec F) (item : Value F) : Prop :=
  spec.itemsType = .string → ∀ text ∈ python.itemText item,
    ∀ c ∈ (strip python.isSpace text).toList[499]?, python.isSpace c = false

/-- A value that is coerced to itself from then on: a text that is not white space alone, an array
whose items are cut cleanly, and any value of another type. -/
def Settled (spec : ParameterSpec F) (value : Value F) : Prop :=
  match spec.type with
  | .string => ∀ text ∈ python.itemText value, ∃ c ∈ text.toList, python.isSpace c = false
  | .array => ∀ item ∈ python.itemsOf value, python.CutClean spec item
  | _ => True

variable {python} {spec : ParameterSpec F} {value v : Value F}

theorem str_of_textOf {x : Number F} {text : String} (h : python.textOf x = .ok text) :
    python.str x = some text := by
  unfold textOf at h
  split at h
  · rename_i htext
    rw [htext, Except.ok.inj h]
  · cases h

theorem checkText_twice {text : String} (h : python.checkText spec text = .ok v) :
    v = .str (strip python.isSpace text) ∧ python.coerceString spec v = .ok v := by
  have hv : v = .str (strip python.isSpace text) := by
    rw [checkText] at h
    split_ifs at h
    exact (Except.ok.inj h).symm
  refine ⟨hv, ?_⟩
  rw [hv] at h ⊢
  rw [← h, coerceString, checkText, checkText, strip_strip]

theorem coerceString_twice (h : python.coerceString spec value = .ok v) :
    ∃ text ∈ python.itemText value, v = .str (strip python.isSpace text) ∧
      python.coerceString spec v = .ok v := by
  unfold coerceString at h
  split at h
  · obtain ⟨text, htext, h⟩ := bind_eq_ok.mp h
    exact ⟨text, str_of_textOf htext, checkText_twice h⟩
  · rename_i text
    exact ⟨text, rfl, checkText_twice h⟩
  · cases h

theorem checkInteger_twice {i : Option Int} (h : python.checkInteger spec i = .ok v) :
    v.isBlank = false ∧ python.coerceInteger spec v = .ok v := by
  cases i with
  | none => cases h
  | some i =>
    obtain ⟨u, -, hv⟩ := bind_eq_ok.mp (show (_ >>= _) = _ from h)
    obtain rfl : .number (.int i) = v := Except.ok.inj hv
    exact ⟨rfl, h⟩

theorem coerceInteger_twice (h : python.coerceInteger spec value = .ok v) :
    v.isBlank = false ∧ python.coerceInteger spec v = .ok v := by
  unfold coerceInteger at h
  split at h
  · exact checkInteger_twice h
  · exact checkInteger_twice h
  · exact checkInteger_twice h
  · cases h

theorem checkNumber_twice {x : Number F} (h : python.checkNumber spec x = .ok v) :
    v.isBlank = false ∧ python.coerceNumber spec v = .ok v := by
  obtain ⟨y, -, h⟩ := bind_eq_ok.mp (show (_ >>= _) = _ from h)
  obtain ⟨u, hbounds, hv⟩ := bind_eq_ok.mp h
  obtain rfl : .number (.float y) = v := Except.ok.inj hv
  exact ⟨rfl, h⟩

theorem coerceNumber_twice (h : python.coerceNumber spec value = .ok v) :
    v.isBlank = false ∧ python.coerceNumber spec v = .ok v := by
  unfold coerceNumber at h
  split at h
  · exact checkNumber_twice h
  · split at h
    · exact checkNumber_twice h
    · cases h
  · cases h

theorem coerceBoolean_twice (h : python.coerceBoolean spec value = .ok v) :
    v.isBlank = false ∧ python.coerceBoolean spec v = .ok v := by
  have hbool : ∀ b : Bool, .ok (.bool b) = (.ok v : Except ArgumentError (Value F)) →
      v.isBlank = false ∧ python.coerceBoolean spec v = .ok v := by
    rintro b hb
    obtain rfl := Except.ok.inj hb
    exact ⟨rfl, rfl⟩
  unfold coerceBoolean at h
  split at h
  · exact hbool _ h
  · split_ifs at h
    · exact hbool true h
    · exact hbool false h
  · cases h

theorem coerceObject_twice (h : python.coerceObject spec value = .ok v) :
    v.isBlank = false ∧ python.coerceObject spec v = .ok v := by
  have hcopy := h
  unfold coerceObject at h
  split at h
  · rename_i entries
    split_ifs at h
    obtain ⟨u, -, hv⟩ := bind_eq_ok.mp h
    obtain rfl : .mapping entries = v := Except.ok.inj hv
    exact ⟨rfl, hcopy⟩
  · cases h

theorem coerceItem_twice_iff {item : Value F} (h : python.coerceItem spec item = .ok v) :
    python.coerceItem spec v = .ok v ↔ python.CutClean spec item := by
  have hcut : ∀ {text : String}, spec.itemsType = .string → python.itemText item = some text →
      .ok (.str (upTo 500 (strip python.isSpace text))) = (.ok v : Except ArgumentError (Value F)) →
      (python.coerceItem spec v = .ok v ↔ python.CutClean spec item) := by
    intro text htype htext hv
    obtain rfl := Except.ok.inj hv
    rw [CutClean, htext, coerceItem.eq_1 python spec _ htype]
    simp only [htype, Except.ok.injEq, Value.str.injEq, forall_const, Option.mem_some_iff, forall_eq']
    exact upTo_strip_twice_iff
  have hkept : spec.itemsType ≠ .string → python.coerceItem spec v = .ok v →
      (python.coerceItem spec v = .ok v ↔ python.CutClean spec item) := by
    intro htype hv
    exact iff_of_true hv fun hstring => absurd hstring htype
  have hagain := h
  unfold coerceItem at h
  split at h
  · rename_i htype
    exact hcut htype rfl h
  · rename_i x htype
    obtain ⟨text, htext, hv⟩ := bind_eq_ok.mp h
    exact hcut htype (str_of_textOf htext) hv
  · cases h
  · rename_i entries htype
    obtain rfl := Except.ok.inj h
    exact hkept (by simp [htype]) hagain
  · cases h
  · rename_i name htype
    obtain rfl := Except.ok.inj h
    exact hkept (by simp [htype]) hagain

theorem coerceItems_twice_iff {items : List (Value F)} (h : python.coerceItems spec items = .ok v) :
    v.isBlank = false ∧ (python.coerceArray spec v = .ok v ↔
      ∀ item ∈ items, python.CutClean spec item) := by
  unfold coerceItems at h
  split_ifs at h with hlength
  obtain ⟨out, hout, hv⟩ := bind_eq_ok.mp h
  obtain rfl : .list out = v := Except.ok.inj hv
  refine ⟨rfl, ?_⟩
  have hagain : python.coerceArray spec (.list out) = .ok (.list out) ↔
      out.mapM (python.coerceItem spec) = .ok out := by
    rw [coerceArray, coerceItems, length_mapM hout, if_neg hlength, bind_eq_ok]
    constructor
    · rintro ⟨again, hmap, heq⟩
      rw [hmap, Value.list.inj (Except.ok.inj heq)]
    · intro hmap
      exact ⟨out, hmap, rfl⟩
  rw [hagain, mapM_twice_iff hout]
  constructor
  · intro htwice item hitem
    obtain ⟨w, hw⟩ := exists_of_mapM hout hitem
    exact (coerceItem_twice_iff hw).mp (htwice item hitem w hw)
  · intro hclean item hitem w hw
    exact (coerceItem_twice_iff hw).mpr (hclean item hitem)

theorem coerceArray_twice_iff (h : python.coerceArray spec value = .ok v) :
    v.isBlank = false ∧ (python.coerceArray spec v = .ok v ↔
      ∀ item ∈ python.itemsOf value, python.CutClean spec item) := by
  unfold coerceArray at h
  split at h
  · exact coerceItems_twice_iff h
  · exact coerceItems_twice_iff h
  · exact coerceItems_twice_iff h
  · cases h

/-- When a coerced value is not blank and is coerced to itself. -/
theorem coerce_twice_iff (h : python.coerce spec value = .ok v) :
    (v.isBlank = false ∧ python.coerce spec v = .ok v) ↔ python.Settled spec value := by
  unfold coerce at h ⊢
  unfold Settled
  split at h
  · rename_i htype
    simp only [htype]
    obtain ⟨text, htext, rfl, hagain⟩ := coerceString_twice h
    rw [and_iff_left hagain, Option.mem_def.mp htext]
    simp only [Option.mem_some_iff, forall_eq', Value.isBlank, decide_eq_false_iff_not]
    exact strip_ne_empty
  · rename_i htype
    simp only [htype, iff_true]
    exact coerceInteger_twice h
  · rename_i htype
    simp only [htype, iff_true]
    exact coerceNumber_twice h
  · rename_i htype
    simp only [htype, iff_true]
    exact coerceBoolean_twice h
  · rename_i htype
    simp only [htype]
    obtain ⟨hblank, hagain⟩ := coerceArray_twice_iff h
    rw [and_iff_right hblank, hagain]
  · rename_i htype
    simp only [htype, iff_true]
    exact coerceObject_twice h
  · cases h

/-! ## The loop over the parameters -/

/-- What a parameter is given again is what its first value was coerced to: a blank stays blank, and
anything else settles. -/
def Confirmable (spec : ParameterSpec F) (value : Value F) : Prop :=
  if value.isBlank then spec.default.isBlank = true else python.Settled spec value

variable {tool : String} {supplied again result : Arguments F}

theorem argument_none_iff : python.argument tool supplied spec = .ok none ↔
    (spec.valueOf supplied).isBlank = true ∧ spec.required = false := by
  unfold argument
  by_cases hblank : (spec.valueOf supplied).isBlank = true
  · cases hrequired : spec.required <;> simp [hblank]
  · rw [if_neg hblank, map_eq_ok]
    refine iff_of_false ?_ fun h => hblank h.1
    rintro ⟨v, -, hv⟩
    cases hv

theorem argument_some_iff : python.argument tool supplied spec = .ok (some v) ↔
    (spec.valueOf supplied).isBlank = false ∧ python.coerce spec (spec.valueOf supplied) = .ok v := by
  unfold argument
  by_cases hblank : (spec.valueOf supplied).isBlank = true
  · cases hrequired : spec.required <;> simp [hblank]
  · rw [if_neg hblank, map_eq_ok, Bool.eq_false_iff, and_iff_right hblank]
    constructor
    · rintro ⟨w, hw, heq⟩
      rw [hw, Option.some.inj heq]
    · intro hv
      exact ⟨v, hv, rfl⟩

/-- One parameter of the arguments that were accepted, when they are validated again. -/
theorem argument_twice_iff (h : python.argument tool supplied spec = .ok (result.lookup spec.name)) :
    python.argument tool result spec = .ok (result.lookup spec.name) ↔
      python.Confirmable spec (spec.valueOf supplied) := by
  unfold Confirmable
  cases hlookup : result.lookup spec.name with
  | none =>
    rw [hlookup, argument_none_iff] at h
    have hdefault : spec.valueOf result = spec.default := by
      rw [ParameterSpec.valueOf, hlookup, Option.getD_none]
    rw [argument_none_iff, hdefault, if_pos h.1, and_iff_left h.2]
  | some v =>
    rw [hlookup, argument_some_iff] at h
    have hvalue : spec.valueOf result = v := by
      rw [ParameterSpec.valueOf, hlookup, Option.getD_some]
    rw [argument_some_iff, hvalue, coerce_twice_iff h.2, h.1]
    simp

theorem collect_cons_eq_ok {specs : List (ParameterSpec F)}
    (h : python.collect tool supplied (spec :: specs) = .ok result) :
    ∃ o rest, python.argument tool supplied spec = .ok o ∧
      python.collect tool supplied specs = .ok rest ∧
      result = o.elim rest fun v => (spec.name, v) :: rest := by
  unfold collect at h
  obtain ⟨o, ho, h⟩ := bind_eq_ok.mp h
  cases o with
  | none => exact ⟨none, result, ho, h, rfl⟩
  | some v =>
    obtain ⟨rest, hrest, h⟩ := bind_eq_ok.mp h
    exact ⟨some v, rest, ho, hrest, (Except.ok.inj h).symm⟩

/-- The result holds what each parameter adds, under the parameters' names. -/
theorem collect_ok {specs : List (ParameterSpec F)} (hnodup : (specs.map (·.name)).Nodup)
    (h : python.collect tool supplied specs = .ok result) :
    (∀ spec ∈ specs, python.argument tool supplied spec = .ok (result.lookup spec.name)) ∧
      ∀ name ∈ result.map Prod.fst, name ∈ specs.map (·.name) := by
  induction specs generalizing result with
  | nil =>
    obtain rfl : [] = result := Except.ok.inj h
    exact ⟨fun spec hspec => absurd hspec List.not_mem_nil, fun name hname => hname⟩
  | cons spec specs ih =>
    obtain ⟨o, rest, ho, hrest, rfl⟩ := collect_cons_eq_ok h
    rw [List.map_cons, List.nodup_cons] at hnodup
    obtain ⟨hvalues, hnames⟩ := ih hnodup.2 hrest
    have hfresh : rest.lookup spec.name = none := by
      rw [List.lookup_eq_none_iff]
      intro entry hentry
      have hname := hnames entry.1 (List.mem_map_of_mem hentry)
      simpa using fun heq : spec.name = entry.1 => hnodup.1 (heq ▸ hname)
    constructor
    · intro p hp
      rcases List.mem_cons.mp hp with rfl | hp
      · rw [ho]
        cases o with
        | none => rw [Option.elim_none, hfresh]
        | some v => simp [List.lookup_cons]
      · have hne : p.name ≠ spec.name := fun heq =>
          hnodup.1 (heq ▸ List.mem_map_of_mem hp)
        rw [hvalues p hp]
        cases o with
        | none => rfl
        | some v => simp [List.lookup_cons, beq_false_of_ne hne]
    · intro name hname
      rw [List.map_cons, List.mem_cons]
      cases o with
      | none => exact .inr (hnames name hname)
      | some v =>
        rcases List.mem_cons.mp hname with rfl | hname
        · exact .inl rfl
        · exact .inr (hnames name hname)

theorem collect_congr {specs : List (ParameterSpec F)}
    (h : ∀ spec ∈ specs, python.argument tool result spec = python.argument tool supplied spec) :
    python.collect tool result specs = python.collect tool supplied specs := by
  induction specs with
  | nil => rfl
  | cons spec specs ih =>
    unfold collect
    rw [h spec List.mem_cons_self, ih fun p hp => h p (List.mem_cons_of_mem spec hp)]

end Runtime

/-! ## Confirmed arguments -/

variable {F : Type} {python : Runtime F} {tool : PlatformToolSpec F} {arguments : Option (Arguments F)}
  {result : Arguments F}

theorem PlatformToolSpec.unknown_eq_nil
    (h : ∀ name ∈ result.map Prod.fst, name ∈ tool.parameters.map (·.name)) :
    tool.unknown result = [] := by
  have hnone : (result.map Prod.fst).dedup.filter (· ∉ tool.parameters.map (·.name)) = [] := by
    rw [List.filter_eq_nil_iff]
    intro name hname
    simpa using h name (List.mem_dedup.mp hname)
  rw [unknown, hnone, List.mergeSort_nil]

/-- The arguments kept with an approval can be sent again with the confirmation: they are accepted,
they are the same, and the approval, if it is approved and has not expired, can be used. -/
def Usable (python : Runtime F) (tool : PlatformToolSpec F) (digest : Arguments F → String)
    (kept : Arguments F) : Prop :=
  ∃ again, python.validateArguments tool (some kept) = .ok again ∧ again = kept ∧
    ∀ (record : Approval) (now : Nat), record.toolName = tool.name →
      record.argumentsSha256 = digest kept → record.status = .approved → now ≤ record.expiresAt →
      approvalState (some record) now record.principalId tool.name (digest again) = .ok record

theorem usable_iff {digest : Arguments F → String} :
    Usable python tool digest result ↔ python.validateArguments tool (some result) = .ok result := by
  constructor
  · rintro ⟨again, hagain, rfl, -⟩
    exact hagain
  · intro h
    refine ⟨result, h, rfl, ?_⟩
    intro record now htool hdigest hstatus hnow
    simp [approvalState, htool, hdigest, hstatus, Nat.not_lt.mpr hnow]

/-- **Confirmed arguments** are a fixed point of validation exactly when each parameter's first value
settles: no required or optional text of white space alone, no array item with white space where it
is cut, and no blank given for a parameter with a default. -/
theorem validateArguments_twice_iff {digest : Arguments F → String}
    (h : python.validateArguments tool arguments = .ok result) :
    Usable python tool digest result ↔
      ∀ spec ∈ tool.parameters, python.Confirmable spec (spec.valueOf (arguments.getD [])) := by
  rw [usable_iff]
  have hcollect : python.collect tool.name (arguments.getD []) tool.parameters = .ok result := by
    simp only [Runtime.validateArguments] at h
    split_ifs at h
    exact h
  obtain ⟨hvalues, hnames⟩ := Runtime.collect_ok tool.nodup hcollect
  have hagain : python.validateArguments tool (some result) =
      python.collect tool.name result tool.parameters := by
    rw [Runtime.validateArguments, Option.getD_some, if_neg]
    rw [PlatformToolSpec.unknown_eq_nil hnames]
    exact fun hne => hne rfl
  rw [hagain]
  constructor
  · intro htwice spec hspec
    rw [← Runtime.argument_twice_iff (hvalues spec hspec)]
    exact (Runtime.collect_ok tool.nodup htwice).1 spec hspec
  · intro hsettled
    rw [← hcollect]
    refine Runtime.collect_congr fun spec hspec => ?_
    rw [hvalues spec hspec]
    exact (Runtime.argument_twice_iff (hvalues spec hspec)).mpr (hsettled spec hspec)

/-! ## One high-risk tool -/

def Number.toRat : Number ℚ → ℚ
  | .int i => i
  | .float x => x

/-- Numbers without rounding, to compute examples with. -/
def Runtime.exact : Runtime ℚ where
  isSpace := Char.isWhitespace
  lower := String.toLower
  str
    | .int i => some (toString i)
    | .float _ => none
  intOf := String.toInt?
  floatOf text := text.toInt?.map fun i => (i : ℚ)
  whole x := if x.den = 1 then some x.num else none
  ofInt i := some i
  less x y := x.toRat < y.toRat

/-- The parameters of `update_student_record`. -/
def updateStudentRecord : PlatformToolSpec ℚ where
  name := "update_student_record"
  parameters := [
    { name := "student_id", type := .string, required := true, enum := [], minimum := none,
      maximum := none, maxLength := 40, itemsType := .string, default := .null },
    { name := "changes", type := .object, required := true, enum := [], minimum := none,
      maximum := none, maxLength := 10, itemsType := .string, default := .null }]
  nodup := by decide

def sectionChange (studentId : String) : Arguments ℚ :=
  [("student_id", .str studentId), ("changes", .mapping [(.str "section", .str "B")])]

theorem validate_sectionChange {given kept : String} (hstrip : strip Char.isWhitespace given = kept)
    (hgiven : given ≠ "") (hshort : kept.length ≤ 40) :
    Runtime.exact.validateArguments updateStudentRecord (some (sectionChange given)) =
      .ok (sectionChange kept) := by
  have hunknown : updateStudentRecord.unknown (sectionChange given) = [] := by
    apply PlatformToolSpec.unknown_eq_nil
    simp [sectionChange, updateStudentRecord]
  have hkey : strip Runtime.exact.isSpace "section" ≠ "" := by decide
  have hkept : strip Runtime.exact.isSpace given = kept := hstrip
  have hlength : ¬(40 : Int) < kept.length := by omega
  rw [Runtime.validateArguments, Option.getD_some, hunknown]
  simp [Runtime.collect, updateStudentRecord, Runtime.argument, ParameterSpec.valueOf, sectionChange,
    Value.isBlank, hgiven, List.lookup_cons, Runtime.coerce, Runtime.coerceString, Runtime.checkText,
    hkept, hlength, Runtime.coerceObject, Runtime.checkEntry, hkey]
  rfl

theorem validateArguments_twice_section :
    Usable Runtime.exact updateStudentRecord (fun kept => ", ".intercalate (kept.map Prod.fst))
      (sectionChange "MBA001") := by
  have haccepted : Runtime.exact.validateArguments updateStudentRecord
      (some (sectionChange " MBA001 ")) = .ok (sectionChange "MBA001") :=
    validate_sectionChange (by decide) (by decide) (by decide)
  refine (validateArguments_twice_iff haccepted).mpr ?_
  simp only [updateStudentRecord, List.forall_mem_cons, List.not_mem_nil, false_imp_iff, implies_true,
    and_true]
  refine ⟨?_, trivial⟩
  rintro text ⟨rfl⟩
  exact ⟨'M', by decide, by decide⟩

/-- **A student identifier of spaces** is accepted as an empty one, and the confirmation that sends
it again is refused. -/
theorem validateArguments_twice_refused :
    Runtime.exact.validateArguments updateStudentRecord (some (sectionChange "  ")) =
        .ok (sectionChange "") ∧
      Runtime.exact.validateArguments updateStudentRecord (some (sectionChange "")) =
        .error (toolArgumentError "update_student_record requires argument student_id") ∧
      ¬Usable Runtime.exact updateStudentRecord (fun kept => ", ".intercalate (kept.map Prod.fst))
        (sectionChange "") := by
  have hrefused : Runtime.exact.validateArguments updateStudentRecord (some (sectionChange "")) =
      .error (toolArgumentError "update_student_record requires argument student_id") := by
    have hunknown : updateStudentRecord.unknown (sectionChange "") = [] := by
      apply PlatformToolSpec.unknown_eq_nil
      simp [sectionChange, updateStudentRecord]
    rw [Runtime.validateArguments, Option.getD_some, hunknown]
    rfl
  refine ⟨validate_sectionChange (by decide) (by decide) (by decide), hrefused, ?_⟩
  rw [usable_iff, hrefused]
  intro h
  cases h

end GuruJi.Gateway
