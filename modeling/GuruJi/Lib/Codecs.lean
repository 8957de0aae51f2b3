import Mathlib.Tactic.Common

/-!
# Unicode encodings

UTF-8 and UTF-16 as maps between texts and bytes. What is written is read back (`decodeUtf8_eq_some`,
`decodeUtf16_encode`), and a text has at most one character for each two bytes of its UTF-16
(`length_of_decodeUtf16`).
-/

namespace GuruJi.Lib

/-! ## UTF-8 -/

def encodeUtf8 (text : List Char) : List UInt8 := text.flatMap String.utf8EncodeChar

/-- The text of valid UTF-8: no overlong form, no surrogate. -/
def decodeUtf8 (bytes : List UInt8) : Option (List Char) :=
    bytes.toByteArray.utf8Decode?.map Array.toList

theorem utf8Encode_eq (text : List Char) : text.utf8Encode = (encodeUtf8 text).toByteArray := rfl

theorem toByteArray_injective : Function.Injective (List.toByteArray : List UInt8 → ByteArray) := by
  intro bytes bytes' h
  simpa using congrArg (fun b : ByteArray => b.data.toList) h

variable {bytes : List UInt8} {text : List Char} {units : List Nat}

/-- **UTF-8 is read as it was written**, and only that is. -/
theorem decodeUtf8_eq_some : decodeUtf8 bytes = some text ↔ encodeUtf8 text = bytes := by
  constructor
  · intro h
    obtain ⟨chars, hchars, rfl⟩ := Option.map_eq_some_iff.mp h
    have hsome : (bytes.toByteArray.utf8Decode?).isSome := by rw [hchars]; rfl
    have hback := ByteArray.utf8Encode_get_utf8Decode? (b := bytes.toByteArray) (h := hsome)
    simp only [hchars, Option.get_some] at hback
    exact toByteArray_injective hback
  · rintro rfl
    rw [decodeUtf8, ← utf8Encode_eq, List.utf8Decode?_utf8Encode]
    rfl

theorem encodeUtf8_append (text more : List Char) :
    encodeUtf8 (text ++ more) = encodeUtf8 text ++ encodeUtf8 more := List.flatMap_append

theorem encodeUtf8_injective : Function.Injective encodeUtf8 := by
  intro text text' h
  exact Option.some.inj ((decodeUtf8_eq_some.mpr rfl).symm.trans (decodeUtf8_eq_some.mpr h.symm))

theorem prefix_of_encodeUtf8 {start text : List Char} (h : encodeUtf8 start <+: encodeUtf8 text) :
    start <+: text := by
  obtain ⟨rest, hrest⟩ := h
  refine List.isPrefix_of_utf8Encode_append_eq_utf8Encode rest.toByteArray ?_
  rw [utf8Encode_eq, utf8Encode_eq, ← hrest]
  simp

theorem decodeUtf8_of_first {b : UInt8} (hb : ¬b.IsUTF8FirstByte) (bytes : List UInt8) :
    decodeUtf8 (b :: bytes) = none := by
  by_contra hne
  obtain ⟨text, htext⟩ := Option.ne_none_iff_exists'.mp hne
  have hbytes := decodeUtf8_eq_some.mp htext
  cases text with
  | nil => cases hbytes
  | cons c text =>
    have hfirst := UInt8.isUTF8FirstByte_getElem_zero_utf8EncodeChar (c := c)
    rcases hc : String.utf8EncodeChar c with _ | ⟨first, rest⟩
    · exact String.utf8EncodeChar_ne_nil hc
    · rw [encodeUtf8, List.flatMap_cons, hc, List.cons_append] at hbytes
      simp only [hc, List.getElem_cons_zero] at hfirst
      exact hb ((List.cons.inj hbytes).1 ▸ hfirst)

/-! ## UTF-16 -/

inductive ByteOrder where
  | little
  | big
  deriving DecidableEq

/-- The units of a character: one, or a pair of surrogates. -/
def unitsOf (c : Char) : List Nat :=
  if c.toNat < 0x10000 then [c.toNat]
  else [0xD800 + (c.toNat - 0x10000) / 0x400, 0xDC00 + (c.toNat - 0x10000) % 0x400]

/-- The text of these units, if every surrogate is one of a pair. -/
def decodeUnits : List Nat → Option (List Char)
  | [] => some []
  | [u] => if 0xD800 ≤ u ∧ u < 0xE000 then none else some [Char.ofNat u]
  | u :: v :: units =>
    if 0xD800 ≤ u ∧ u < 0xDC00 then
      if 0xDC00 ≤ v ∧ v < 0xE000 then
        (decodeUnits units).map (Char.ofNat (0x10000 + (u - 0xD800) * 0x400 + (v - 0xDC00)) :: ·)
      else none
    else if 0xDC00 ≤ u ∧ u < 0xE000 then none
    else (decodeUnits (v :: units)).map (Char.ofNat u :: ·)

def unitBytes : ByteOrder → Nat → List UInt8
  | .little, u => [UInt8.ofNat (u % 256), UInt8.ofNat (u / 256)]
  | .big, u => [UInt8.ofNat (u / 256), UInt8.ofNat (u % 256)]

def unitOf : ByteOrder → UInt8 → UInt8 → Nat
  | .little, a, b => a.toNat + 256 * b.toNat
  | .big, a, b => 256 * a.toNat + b.toNat

/-- The units of bytes, if they are even in number. -/
def readUnits (order : ByteOrder) : List UInt8 → Option (List Nat)
  | [] => some []
  | [_] => none
  | a :: b :: bytes => (readUnits order bytes).map (unitOf order a b :: ·)

def encodeUtf16 (order : ByteOrder) (text : List Char) : List UInt8 :=
  (text.flatMap unitsOf).flatMap (unitBytes order)

def decodeUtf16 (order : ByteOrder) (bytes : List UInt8) : Option (List Char) :=
  (readUnits order bytes).bind decodeUnits

theorem unitOf_unitBytes (order : ByteOrder) {u : Nat} (hu : u < 0x10000) :
    ∃ a b, unitBytes order u = [a, b] ∧ unitOf order a b = u := by
  have hlow : (UInt8.ofNat (u % 256)).toNat = u % 256 := by
    rw [UInt8.toNat_ofNat']
    omega
  have hhigh : (UInt8.ofNat (u / 256)).toNat = u / 256 := by
    rw [UInt8.toNat_ofNat']
    omega
  cases order with
  | little =>
    refine ⟨_, _, rfl, ?_⟩
    rw [unitOf, hlow, hhigh]
    omega
  | big =>
    refine ⟨_, _, rfl, ?_⟩
    rw [unitOf, hlow, hhigh]
    omega

theorem readUnits_unitBytes (order : ByteOrder) (h : ∀ u ∈ units, u < 0x10000) :
    readUnits order (units.flatMap (unitBytes order)) = some units := by
  induction units with
  | nil => rfl
  | cons u units ih =>
    obtain ⟨hu, hunits⟩ := List.forall_mem_cons.mp h
    obtain ⟨a, b, hbytes, hunit⟩ := unitOf_unitBytes order hu
    rw [List.flatMap_cons, hbytes, List.cons_append, List.cons_append, List.nil_append, readUnits,
      ih hunits, hunit]
    rfl

theorem toNat_lt (c : Char) : c.toNat < 0x110000 := by
  rcases c.valid with h | h
  · have hlow : c.toNat < 0xD800 := h
    omega
  · exact h.2

theorem unitsOf_lt {c : Char} : ∀ u ∈ unitsOf c, u < 0x10000 := by
  have hc := toNat_lt c
  intro u hu
  rw [unitsOf] at hu
  split_ifs at hu with hsmall
  · rw [List.mem_singleton] at hu
    omega
  · simp only [List.mem_cons, List.not_mem_nil, or_false] at hu
    omega

theorem not_surrogate (c : Char) : ¬(0xD800 ≤ c.toNat ∧ c.toNat < 0xE000) := by
  have hvalid := c.valid
  rintro ⟨hlow, hhigh⟩
  rcases hvalid with h | h
  · have h' : c.toNat < 0xD800 := h
    omega
  · have h' : 0xDFFF < c.toNat := h.1
    omega

theorem decodeUnits_unitsOf (c : Char) (units : List Nat) :
    decodeUnits (unitsOf c ++ units) = (decodeUnits units).map (c :: ·) := by
  have hc := not_surrogate c
  have hlt := toNat_lt c
  rw [unitsOf]
  split_ifs with hsmall
  · cases units with
    | nil =>
      show decodeUnits [c.toNat] = some [c]
      rw [decodeUnits, if_neg hc, Char.ofNat_toNat]
    | cons v units =>
      rw [List.singleton_append, decodeUnits, if_neg (by omega), if_neg (by omega), Char.ofNat_toNat]
  · rw [List.cons_append, List.cons_append, List.nil_append, decodeUnits, if_pos (by omega),
      if_pos (by omega)]
    have hback : 0x10000 + (0xD800 + (c.toNat - 0x10000) / 0x400 - 0xD800) * 0x400 +
        (0xDC00 + (c.toNat - 0x10000) % 0x400 - 0xDC00) = c.toNat := by omega
    rw [hback, Char.ofNat_toNat]

theorem decodeUnits_flatMap (text : List Char) : decodeUnits (text.flatMap unitsOf) = some text := by
  induction text with
  | nil => rfl
  | cons c text ih =>
    rw [List.flatMap_cons, decodeUnits_unitsOf, ih]
    rfl

/-- **UTF-16 is read as it was written.** -/
theorem decodeUtf16_encode (order : ByteOrder) (text : List Char) :
    decodeUtf16 order (encodeUtf16 order text) = some text := by
  have hunits : ∀ u ∈ text.flatMap unitsOf, u < 0x10000 := by
    intro u hu
    obtain ⟨c, -, hc⟩ := List.mem_flatMap.mp hu
    exact unitsOf_lt u hc
  rw [decodeUtf16, encodeUtf16, readUnits_unitBytes order hunits]
  exact decodeUnits_flatMap text

theorem length_of_readUnits {order : ByteOrder}
    (h : readUnits order bytes = some units) : bytes.length = 2 * units.length := by
  induction bytes using readUnits.induct generalizing units with
  | case1 =>
    obtain rfl := Option.some.inj h
    rfl
  | case2 => cases h
  | case3 a b bytes ih =>
    rw [readUnits, Option.map_eq_some_iff] at h
    obtain ⟨rest, hrest, rfl⟩ := h
    have hlength := ih hrest
    simp only [List.length_cons]
    omega

theorem length_of_decodeUnits (h : decodeUnits units = some text) : text.length ≤ units.length := by
  induction units using decodeUnits.induct generalizing text with
  | case1 =>
    obtain rfl := Option.some.inj h
    exact Nat.le_refl _
  | case2 u hu =>
    rw [decodeUnits, if_pos hu] at h
    cases h
  | case3 u hu =>
    rw [decodeUnits, if_neg hu] at h
    obtain rfl := Option.some.inj h
    exact Nat.le_refl _
  | case4 u v units hhigh hlow ih =>
    rw [decodeUnits, if_pos hhigh, if_pos hlow, Option.map_eq_some_iff] at h
    obtain ⟨rest, hrest, rfl⟩ := h
    have hlength := ih hrest
    simp only [List.length_cons]
    omega
  | case5 u v units hhigh hlow =>
    rw [decodeUnits, if_pos hhigh, if_neg hlow] at h
    cases h
  | case6 u v units hhigh hlow =>
    rw [decodeUnits, if_neg hhigh, if_pos hlow] at h
    cases h
  | case7 u v units hhigh hlow ih =>
    rw [decodeUnits, if_neg hhigh, if_neg hlow, Option.map_eq_some_iff] at h
    obtain ⟨rest, hrest, rfl⟩ := h
    have hlength := ih hrest
    simp only [List.length_cons] at hlength ⊢
    omega

/-- **A text has at most one character for each two bytes** of its UTF-16. -/
theorem length_of_decodeUtf16 {order : ByteOrder}
    (h : decodeUtf16 order bytes = some text) : 2 * text.length ≤ bytes.length := by
  obtain ⟨units, hunits, htext⟩ := Option.bind_eq_some_iff.mp h
  have hbytes := length_of_readUnits hunits
  have hlength := length_of_decodeUnits htext
  omega

end GuruJi.Lib
