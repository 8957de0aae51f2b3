import GuruJi.Lib.Codecs
import Mathlib.Data.List.TakeWhile

/-!
# Percent encoding

Texts as parts of a URL: their bytes, with an escape for each that has a meaning there, and queries of
names and values. What is written is read back (`unquotePlus_quotePlus`, **`parseQsl_urlencode`**), and
it has no other characters than letters, digits and a few marks (`isQuoted_of_mem`).
-/

namespace GuruJi.Lib

/-! ## Escapes -/

def hexDigit (n : Nat) : Char := Char.ofNat (if n < 10 then 48 + n else 55 + n)

def hexValue (c : Char) : Option Nat :=
  if '0' ≤ c ∧ c ≤ '9' then some (c.toNat - 48)
  else if 'A' ≤ c ∧ c ≤ 'F' then some (c.toNat - 55)
  else if 'a' ≤ c ∧ c ≤ 'f' then some (c.toNat - 87) else none

def hexByte (high low : Char) : Option UInt8 :=
  (hexValue high).bind fun a => (hexValue low).map fun b => UInt8.ofNat (16 * a + b)

def isUnreserved (c : Char) : Bool := c.isAlphanum || ['_', '.', '-', '~'].elem c

def quoteByte (b : UInt8) : List Char :=
  if b = 32 then ['+']
  else if b < 128 ∧ isUnreserved (Char.ofNat b.toNat) then [Char.ofNat b.toNat]
  else ['%', hexDigit (b.toNat / 16), hexDigit (b.toNat % 16)]

/-- `quote_plus`. -/
def quotePlus (text : List Char) : List Char := (encodeUtf8 text).flatMap quoteByte

def plainBytes (c : Char) : List UInt8 := if c = '+' then [32] else String.utf8EncodeChar c

def unquoteBytes : List Char → List UInt8
  | c :: high :: low :: text =>
    match if c = '%' then hexByte high low else none with
    | some b => b :: unquoteBytes text
    | none => plainBytes c ++ unquoteBytes (high :: low :: text)
  | c :: text => plainBytes c ++ unquoteBytes text
  | [] => []

/-- `unquote_plus`; `decode` reads bytes, also such as are no text. -/
def unquotePlus (decode : List UInt8 → List Char) (text : List Char) : List Char :=
  decode (unquoteBytes text)

/-- A reading of bytes as UTF-8, of all bytes. -/
structure Decodes (decode : List UInt8 → List Char) : Prop where
  encoded : ∀ text, decode (encodeUtf8 text) = text
  empty : ∀ bytes, decode bytes = [] → bytes = []

def isQuoted (c : Char) : Bool := isUnreserved c || ['+', '%'].elem c

/-- What is to be known of each byte that is written. -/
def byteReads (b : UInt8) : Bool :=
  match quoteByte b with
  | [c] => c ≠ '%' && plainBytes c = [b] && isQuoted c
  | [c, high, low] => c = '%' && hexByte high low = some b && isQuoted high && isQuoted low
  | _ => false

theorem byteReads_all (b : UInt8) : byteReads b = true := by
  have hall : (List.range 256).all (fun n => byteReads (UInt8.ofNat n)) = true := by decide +kernel
  have hb := List.all_eq_true.mp hall b.toNat (List.mem_range.mpr b.toNat_lt)
  rwa [UInt8.ofNat_toNat] at hb

variable {c : Char} {text : List Char}

theorem unquoteBytes_cons (hc : c ≠ '%') (text : List Char) :
    unquoteBytes (c :: text) = plainBytes c ++ unquoteBytes text := by
  rcases text with _ | ⟨high, _ | ⟨low, text⟩⟩
  · rfl
  · rfl
  · rw [unquoteBytes, if_neg hc]

theorem unquoteBytes_quoteByte (b : UInt8) (text : List Char) :
    unquoteBytes (quoteByte b ++ text) = b :: unquoteBytes text := by
  have hb := byteReads_all b
  unfold byteReads at hb
  split at hb
  · rename_i c hquote
    simp only [Bool.and_eq_true, decide_eq_true_eq] at hb
    rw [hquote, List.singleton_append, unquoteBytes_cons hb.1.1, hb.1.2, List.singleton_append]
  · rename_i c high low hquote
    simp only [Bool.and_eq_true, decide_eq_true_eq] at hb
    show unquoteBytes (quoteByte b ++ text) = _
    rw [hquote, List.cons_append, List.cons_append, List.cons_append, List.nil_append, unquoteBytes,
      if_pos hb.1.1.1, hb.1.1.2]
  · exact absurd hb Bool.false_ne_true

theorem isQuoted_of_mem_quoteByte {b : UInt8} (h : c ∈ quoteByte b) : isQuoted c = true := by
  have hb := byteReads_all b
  unfold byteReads at hb
  split at hb
  · rename_i d hquote
    simp only [Bool.and_eq_true, decide_eq_true_eq] at hb
    rw [hquote, List.mem_singleton] at h
    exact h ▸ hb.2
  · rename_i d high low hquote
    simp only [Bool.and_eq_true, decide_eq_true_eq] at hb
    rw [hquote, List.mem_cons, List.mem_cons, List.mem_singleton] at h
    rcases h with rfl | rfl | rfl
    · rw [hb.1.1.1]
      rfl
    · exact hb.1.2
    · exact hb.2
  · exact absurd hb Bool.false_ne_true

theorem ink_of_isQuoted (h : isQuoted c = true) : '!' ≤ c ∧ c ≤ '~' := by
  have halpha : c.isAlpha = (decide (c.val ≥ 'A'.val ∧ c.val ≤ 'Z'.val) ||
      (c.val ≥ 'a'.val && c.val ≤ 'z'.val)) := rfl
  simp only [isQuoted, isUnreserved, Char.isAlphanum, halpha, Char.isDigit, Bool.or_eq_true,
    Bool.and_eq_true, decide_eq_true_eq, List.elem_eq_mem, List.mem_cons, List.not_mem_nil, or_false,
    ge_iff_le, UInt32.le_iff_toNat_le] at h
  rw [Char.le_def, Char.le_def, UInt32.le_iff_toNat_le, UInt32.le_iff_toNat_le]
  rcases h with ((((h | h) | h) | h) | h)
  · exact ⟨(by decide : 33 ≤ 65).trans h.1, h.2.trans (by decide : 90 ≤ 126)⟩
  · exact ⟨(by decide : 33 ≤ 97).trans h.1, h.2.trans (by decide : 122 ≤ 126)⟩
  · exact ⟨(by decide : 33 ≤ 48).trans h.1, h.2.trans (by decide : 57 ≤ 126)⟩
  · rcases h with rfl | rfl | rfl | rfl <;> decide
  · rcases h with rfl | rfl <;> decide

/-- A quoted text has plain characters only. -/
theorem isQuoted_of_mem (h : c ∈ quotePlus text) : isQuoted c = true := by
  obtain ⟨b, -, hc⟩ := List.mem_flatMap.mp h
  exact isQuoted_of_mem_quoteByte hc

theorem unquoteBytes_quotePlus (text : List Char) : unquoteBytes (quotePlus text) = encodeUtf8 text := by
  unfold quotePlus
  induction encodeUtf8 text with
  | nil => rfl
  | cons b bytes ih => rw [List.flatMap_cons, unquoteBytes_quoteByte, ih]

theorem unquoteBytes_ne_nil (h : text ≠ []) : unquoteBytes text ≠ [] := by
  have hplain : ∀ c, plainBytes c ≠ [] := by
    intro c
    unfold plainBytes
    split_ifs
    · exact List.cons_ne_nil _ _
    · exact String.utf8EncodeChar_ne_nil
  fun_cases unquoteBytes text with
  | case1 => exact List.cons_ne_nil _ _
  | case2 c => exact List.append_ne_nil_of_left_ne_nil (hplain c) _
  | case3 c => exact List.append_ne_nil_of_left_ne_nil (hplain c) _
  | case4 => exact absurd rfl h

section
variable {decode : List UInt8 → List Char}

/-- A text is read as it was quoted. -/
theorem unquotePlus_quotePlus (h : Decodes decode) (text : List Char) :
    unquotePlus decode (quotePlus text) = text := by
  rw [unquotePlus, unquoteBytes_quotePlus, h.encoded]

theorem unquotePlus_ne_nil (h : Decodes decode) {text : List Char} (hne : text ≠ []) :
    unquotePlus decode text ≠ [] := fun hnil => unquoteBytes_ne_nil hne (h.empty _ hnil)

end

theorem quotePlus_ne_nil (h : text ≠ []) : quotePlus text ≠ [] := by
  intro hnil
  have hbytes := unquoteBytes_quotePlus text
  rw [hnil] at hbytes
  exact h (encodeUtf8_injective hbytes.symm)

/-! ## Queries -/

/-- A field of a query: its name and value, unless the value is blank. -/
def readField (decode : List UInt8 → List Char) (field : List Char) : Option (String × String) :=
  let value := (field.dropWhile (· ≠ '=')).drop 1
  if value = [] then none
  else some (String.ofList (unquotePlus decode (field.takeWhile (· ≠ '='))),
    String.ofList (unquotePlus decode value))

/-- `parse_qsl`, without blank values. -/
def parseQsl (decode : List UInt8 → List Char) (query : List Char) : List (String × String) :=
  (query.splitOn '&').filterMap (readField decode)

def writeField (pair : String × String) : List Char :=
  quotePlus pair.1.toList ++ '=' :: quotePlus pair.2.toList

/-- `urlencode`. -/
def urlencode (pairs : List (String × String)) : List Char :=
  ['&'].intercalate (pairs.map writeField)

theorem isQuoted_of_mem_writeField {pair : String × String} (h : c ∈ writeField pair) :
    isQuoted c = true ∨ c = '=' := by
  rcases List.mem_append.mp h with h | h
  · exact .inl (isQuoted_of_mem h)
  · rcases List.mem_cons.mp h with h | h
    · exact .inr h
    · exact .inl (isQuoted_of_mem h)

section
variable {decode : List UInt8 → List Char}

theorem readField_writeField (h : Decodes decode) {pair : String × String} (hvalue : pair.2 ≠ "") :
    readField decode (writeField pair) = some pair := by
  have hname : ∀ c ∈ quotePlus pair.1.toList, decide (c ≠ '=') = true := by
    intro c hc
    refine decide_eq_true fun heq => ?_
    rw [heq] at hc
    exact absurd (isQuoted_of_mem hc) (by decide)
  have hne : quotePlus pair.2.toList ≠ [] := quotePlus_ne_nil (by simpa using hvalue)
  have hdrop : (writeField pair).dropWhile (· ≠ '=') = '=' :: quotePlus pair.2.toList := by
    rw [writeField, List.dropWhile_append_of_pos hname, List.dropWhile_cons_of_neg (by simp)]
  have htake : (writeField pair).takeWhile (· ≠ '=') = quotePlus pair.1.toList := by
    rw [writeField, List.takeWhile_append_of_pos hname, List.takeWhile_cons_of_neg (by simp),
      List.append_nil]
  rw [readField, hdrop, htake, List.drop_one, List.tail_cons, if_neg hne, unquotePlus_quotePlus h,
    unquotePlus_quotePlus h, String.ofList_toList, String.ofList_toList]

theorem ne_empty_of_mem_parseQsl (h : Decodes decode) {query : List Char} {pair : String × String}
    (hpair : pair ∈ parseQsl decode query) : pair.2 ≠ "" := by
  obtain ⟨field, -, hfield⟩ := List.mem_filterMap.mp hpair
  unfold readField at hfield
  dsimp only at hfield
  split_ifs at hfield with hvalue
  obtain rfl := Option.some.inj hfield
  intro hempty
  refine unquotePlus_ne_nil h hvalue ?_
  simpa using congrArg String.toList hempty

/-- **Pairs are read as they were written**, where no value is blank. -/
theorem parseQsl_urlencode (h : Decodes decode) {pairs : List (String × String)}
    (hpairs : ∀ pair ∈ pairs, pair.2 ≠ "") : parseQsl decode (urlencode pairs) = pairs := by
  rcases pairs with _ | ⟨first, rest⟩
  · rfl
  · have hfields : ∀ field ∈ (first :: rest).map writeField, '&' ∉ field := by
      intro field hfield hmem
      obtain ⟨pair, -, rfl⟩ := List.mem_map.mp hfield
      rcases isQuoted_of_mem_writeField hmem with hquoted | heq
      · exact absurd hquoted (by decide)
      · exact absurd heq (by decide)
    rw [parseQsl, urlencode, List.splitOn_intercalate _ hfields (List.cons_ne_nil _ _)]
    generalize first :: rest = pairs at hpairs
    clear hfields
    induction pairs with
    | nil => rfl
    | cons pair pairs ih =>
      rw [List.map_cons, List.filterMap_cons_some
        (readField_writeField h (hpairs pair List.mem_cons_self)),
        ih fun p hp => hpairs p (List.mem_cons_of_mem _ hp)]

end
end GuruJi.Lib
