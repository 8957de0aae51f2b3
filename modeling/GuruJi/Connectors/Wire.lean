import GuruJi.Auth.Claims
import GuruJi.Lib.Checks

/-!
# What crosses the wire

Requests and replies between the connector client and the connector service, and the sizes of the texts
that JSON values are written as. A text with its non-ascii characters escaped is the longer one
(`wireSize_le_dumpsSize`), so a reply fits wherever the escaped one does.
-/

namespace GuruJi.Connectors

open GuruJi.Lib GuruJi.Auth
open GuruJi.Agents (Json Dict)

/-- The exceptions that the client tells apart. -/
inductive PyError where
  | timeoutException | httpError | responseTooLarge | valueError | typeError | overflowError
  deriving DecidableEq

/-- What both programs take from the language and its libraries: the header values that can be sent, the
dates with a time zone, `int(...)` and `str(...)` of a JSON value, and the values that a model reads as
true or false and as a number. -/
structure WireEnv (τ : Type) extends Language where
  carries : String → Bool
  fromIsoformat : String → Option τ
  isoformat : τ → String
  precedes : τ → τ → Bool
  newYear : τ → τ
  int : Json → Except PyError Int
  str : Json → String
  asBool : Json → Option Bool
  asInt : Json → Option Int
  plain : ∀ c : Char, c.isAlphanum = true → isSpace c = false
  carries_visible : ∀ s : String, (∀ c ∈ s.toList, 33 ≤ c.toNat ∧ c.toNat ≤ 126) → carries s = true
  carries_ascii : ∀ s : String, carries s = true → ∀ c ∈ s.toList, c.toNat < 128
  fromIsoformat_isoformat : ∀ t, fromIsoformat (isoformat t) = some t
  isoformat_plain : ∀ t, toLanguage.blank (isoformat t) = false ∧ 'Z' ∉ (isoformat t).toList
  newYear_le : ∀ t, precedes t (newYear t) = false
  int_number : ∀ n : Nat, int (.number (toString n)) = .ok n
  int_string : ∀ n : Nat, int (.string (toString n)) = .ok n
  str_string : ∀ s, str (.string s) = s
  asBool_bool : ∀ b, asBool (.bool b) = some b
  asInt_number : ∀ n : Nat, asInt (.number (toString n)) = some (n : Int)

/-- A text that is not blank. -/
structure Named (u : Language) where
  text : String
  named : u.blank text = false

/-- `_require_text`. -/
def requireText (u : Language) (text : String) : Except PyError (Named u) :=
  if h : u.blank text = false then .ok ⟨strip u.isSpace text, blank_strip h⟩ else .error .valueError

/-- `as_dict`. -/
def asDict (collegeId : String) (departmentId batchId : Option String) : Dict :=
  [("college_id", .string collegeId), ("department_id", (departmentId.map Json.string).getD .null),
    ("batch_id", (batchId.map Json.string).getD .null)]

/-! ## Requests and replies -/

/-- A request to execute a tool. -/
structure Request where
  headers : Table String String
  payload : Json

/-- How a request ends: not in time, in an error of the transport or a status that is no success, or in
a body, with the declared length, its size, and the value it is read as. -/
inductive Reply where
  | timeout
  | failed
  | body (contentLength : Option String) (size : Nat) (value : Option Json)

/-! ## Sizes -/

/-- The characters that are written as a backslash and a letter, or as themselves after one. -/
def isShortEscape (c : Char) : Bool := ['"', '\\', '\n', '\r', '\t', '\x08', '\x0c'].contains c

/-- The bytes of a character with everything but printable ascii escaped: a pair of escapes where
one unit of UTF-16 does not hold it. -/
def escapedSize (c : Char) : Nat :=
  if isShortEscape c then 2 else if 32 ≤ c.toNat ∧ c.toNat ≤ 126 then 1
  else if c.toNat < 65536 then 6 else 12

/-- The bytes of a character with only the control characters and quotes escaped. -/
def rawSize (c : Char) : Nat :=
  if isShortEscape c then 2 else if c.toNat < 32 then 6 else c.utf8Size

def quotedSize (size : Char → Nat) (s : String) : Nat := (s.toList.map size).sum + 2

mutual
def jsonSize (size : Char → Nat) : Json → Nat
  | .null => 4
  | .bool b => if b then 4 else 5
  | .number literal => literal.length
  | .string s => quotedSize size s
  | .array items => itemsSize size items + (items.length - 1) + 2
  | .object fields => fieldsSize size fields + (fields.length - 1) + 2

def itemsSize (size : Char → Nat) : List Json → Nat
  | [] => 0
  | item :: items => jsonSize size item + itemsSize size items

def fieldsSize (size : Char → Nat) : List (String × Json) → Nat
  | [] => 0
  | (name, value) :: fields => quotedSize size name + 1 + jsonSize size value + fieldsSize size fields
end

/-- `len(json.dumps(value, separators=(",", ":")).encode("utf-8"))`. -/
def dumpsSize : Json → Nat := jsonSize escapedSize

/-- The size of the body that a response with the value has. -/
def wireSize : Json → Nat := jsonSize rawSize

theorem rawSize_le_escapedSize (c : Char) : rawSize c ≤ escapedSize c := by
  have hone : c.toNat ≤ 126 → c.utf8Size = 1 := by
    intro h
    refine Char.utf8Size_eq_one_iff.mpr (UInt32.le_iff_toNat_le.mpr ?_)
    show c.toNat ≤ 127
    omega
  have hfour : c.utf8Size ≤ 4 := c.utf8Size_le_four
  rw [rawSize, escapedSize]
  split_ifs with hshort hcontrol hprintable hplane hprintable hplane
  · exact le_refl 2
  · omega
  · exact le_refl 6
  · omega
  · rw [hone hprintable.2]
  · omega
  · omega

theorem quotedSize_mono {size size' : Char → Nat} (h : ∀ c, size c ≤ size' c) (s : String) :
    quotedSize size s ≤ quotedSize size' s := by
  have hsum : (s.toList.map size).sum ≤ (s.toList.map size').sum := by
    induction s.toList with
    | nil => exact le_refl _
    | cons c cs ih =>
      simp only [List.map_cons, List.sum_cons]
      exact Nat.add_le_add (h c) ih
  exact Nat.add_le_add_right hsum 2

mutual
theorem jsonSize_mono {size size' : Char → Nat} (h : ∀ c, size c ≤ size' c) :
    ∀ value : Json, jsonSize size value ≤ jsonSize size' value
  | .null | .bool _ | .number _ => by simp only [jsonSize, le_refl]
  | .string s => by
    rw [jsonSize, jsonSize]
    exact quotedSize_mono h s
  | .array items => by
    have hitems := itemsSize_mono h items
    rw [jsonSize, jsonSize]
    omega
  | .object fields => by
    have hfields := fieldsSize_mono h fields
    rw [jsonSize, jsonSize]
    omega

theorem itemsSize_mono {size size' : Char → Nat} (h : ∀ c, size c ≤ size' c) :
    ∀ items : List Json, itemsSize size items ≤ itemsSize size' items
  | [] => le_refl _
  | item :: items => by
    rw [itemsSize, itemsSize]
    exact Nat.add_le_add (jsonSize_mono h item) (itemsSize_mono h items)

theorem fieldsSize_mono {size size' : Char → Nat} (h : ∀ c, size c ≤ size' c) :
    ∀ fields : List (String × Json), fieldsSize size fields ≤ fieldsSize size' fields
  | [] => le_refl _
  | (name, value) :: fields => by
    have hname := quotedSize_mono h name
    have hvalue := jsonSize_mono h value
    have hfields := fieldsSize_mono h fields
    rw [fieldsSize, fieldsSize]
    omega
end

/-- What fits with everything escaped fits on the wire. -/
theorem wireSize_le_dumpsSize (value : Json) : wireSize value ≤ dumpsSize value :=
  jsonSize_mono rawSize_le_escapedSize value

end GuruJi.Connectors
