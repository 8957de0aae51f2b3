import GuruJi.Lib.Codecs

/-!
# Text files

`decode_text` tries its encodings in order: UTF-8 with or without a mark, UTF-16, Windows-1252 and at
last Latin-1, which reads any bytes.

* `decodeText_isOk`: some encoding always reads a file.
* **`reads_back_iff`**: a file is read as it was written, iff UTF-8 without a mark does not begin with
  one, and Windows-1252 is no UTF-16 in the order of the machine.
* `garbled`: two letters of Windows-1252 that are one character of UTF-16.
-/

namespace GuruJi.Ingestion

open GuruJi.Lib

/-! ## Encodings -/

/-- `_ENCODINGS`. -/
inductive Encoding where
  | utf8Sig
  | utf8
  | utf16
  | cp1252
  | latin1
  deriving DecidableEq

def Encoding.name : Encoding → String
  | utf8Sig => "utf-8-sig"
  | utf8 => "utf-8"
  | utf16 => "utf-16"
  | cp1252 => "cp1252"
  | latin1 => "latin-1"

def utf8Mark : List UInt8 := [0xEF, 0xBB, 0xBF]

def utf16Mark : ByteOrder → List UInt8
  | .little => [0xFF, 0xFE]
  | .big => [0xFE, 0xFF]

/-- What Windows-1252 has from `0x80` to `0x9F`; five bytes mean nothing. -/
def cp1252Table : List (Option Char) :=
  [some '€', none, some '‚', some 'ƒ', some '„', some '…', some '†', some '‡',
    some 'ˆ', some '‰', some 'Š', some '‹', some 'Œ', none, some 'Ž', none,
    none, some '‘', some '’', some '“', some '”', some '•', some '–', some '—',
    some '˜', some '™', some 'š', some '›', some 'œ', none, some 'ž', some 'Ÿ']

def cp1252Char (b : UInt8) : Option Char :=
  if 0x80 ≤ b.toNat ∧ b.toNat < 0xA0 then (cp1252Table[b.toNat - 0x80]?).join else
    some (Char.ofNat b.toNat)

def cp1252Byte (c : Char) : Option UInt8 :=
  ((List.range 256).map UInt8.ofNat).find? fun b => cp1252Char b = some c

/-- `bytes.decode("utf-8-sig")`: a mark is left out. -/
def decodeUtf8Sig (bytes : List UInt8) : Option (List Char) :=
  if utf8Mark <+: bytes then decodeUtf8 (bytes.drop 3) else decodeUtf8 bytes

/-- `bytes.decode("utf-16")`: the order is that of the mark, else that of the machine. -/
def decodeUtf16Mark (native : ByteOrder) (bytes : List UInt8) : Option (List Char) :=
  if utf16Mark .little <+: bytes then decodeUtf16 .little (bytes.drop 2)
  else if utf16Mark .big <+: bytes then decodeUtf16 .big (bytes.drop 2)
  else decodeUtf16 native bytes

/-- `bytes.decode(encoding)`. -/
def Encoding.decode (native : ByteOrder) : Encoding → List UInt8 → Option (List Char)
  | utf8Sig, bytes => decodeUtf8Sig bytes
  | utf8, bytes => decodeUtf8 bytes
  | utf16, bytes => decodeUtf16Mark native bytes
  | cp1252, bytes => bytes.mapM cp1252Char
  | latin1, bytes => some (bytes.map fun b => Char.ofNat b.toNat)

def encodings : List Encoding := [.utf8Sig, .utf8, .utf16, .cp1252, .latin1]

/-- `decode_text`: the first encoding that reads the bytes. -/
def decodeText (native : ByteOrder) (content : List UInt8) : Except String (List Char × Encoding) :=
  match encodings.findSome? fun encoding => (encoding.decode native content).map fun text =>
    (text, encoding) with
  | some read => .ok read
  | none => .error "text file encoding could not be determined"

/-! ## What is written -/

/-- How a file may be written. -/
inductive Written where
  | utf8
  | utf8Mark
  | utf16 (order : ByteOrder)
  | cp1252
  deriving DecidableEq

/-- The bytes of a text, if it can be written so. -/
def Written.encode : Written → List Char → Option (List UInt8)
  | utf8, text => some (encodeUtf8 text)
  | utf8Mark, text => some (Ingestion.utf8Mark ++ encodeUtf8 text)
  | utf16 order, text => some (utf16Mark order ++ encodeUtf16 order text)
  | cp1252, text => text.mapM cp1252Byte

/-- Windows-1252 is for files that are no valid UTF-8 and have no mark of UTF-16. -/
def Written.Supports : Written → List UInt8 → Prop
  | cp1252, bytes => decodeUtf8 bytes = none ∧ ∀ order, ¬utf16Mark order <+: bytes
  | _, _ => True

def ReadsBack (native : ByteOrder) (written : Written) (text : List Char) : Prop :=
  ∀ bytes, written.encode text = some bytes → written.Supports bytes →
    ∃ encoding, decodeText native bytes = .ok (text, encoding)

/-- The file is not mistaken for one that is written otherwise. -/
def Unmistaken (native : ByteOrder) : Written → List Char → Prop
  | .utf8, text => ∀ c ∈ text.head?, c ≠ '\uFEFF'
  | .cp1252, text => ∀ bytes, Written.cp1252.encode text = some bytes → Written.cp1252.Supports bytes →
      decodeUtf16 native bytes = none
  | _, _ => True

/-! ## Marks -/

theorem utf8Mark_eq : utf8Mark = encodeUtf8 ['\uFEFF'] := by decide

theorem decodeUtf8_mark (bytes : List UInt8) :
    decodeUtf8 (utf8Mark ++ bytes) = (decodeUtf8 bytes).map ('\uFEFF' :: ·) := by
  rcases hbytes : decodeUtf8 bytes with _ | text
  · by_contra hne
    obtain ⟨text, htext⟩ := Option.ne_none_iff_exists'.mp hne
    rw [utf8Mark_eq, decodeUtf8_eq_some] at htext
    obtain ⟨rest, rfl⟩ := prefix_of_encodeUtf8 (htext ▸ List.prefix_append _ bytes)
    rw [encodeUtf8_append, List.append_cancel_left_eq] at htext
    exact absurd (hbytes.symm.trans (decodeUtf8_eq_some.mpr htext)) (by simp)
  · rw [Option.map_some, decodeUtf8_eq_some, ← List.singleton_append, encodeUtf8_append, ← utf8Mark_eq,
      decodeUtf8_eq_some.mp hbytes]

theorem decodeUtf8Sig_mark (bytes : List UInt8) : decodeUtf8Sig (utf8Mark ++ bytes) =
    decodeUtf8 bytes := by
  rw [decodeUtf8Sig, if_pos (List.prefix_append _ _)]
  rfl

theorem decodeUtf8Sig_eq_none {bytes : List UInt8} (h : decodeUtf8 bytes = none) :
    decodeUtf8Sig bytes = none := by
  by_cases hmark : utf8Mark <+: bytes
  · obtain ⟨rest, rfl⟩ := hmark
    rw [decodeUtf8_mark, Option.map_eq_none_iff] at h
    rw [decodeUtf8Sig_mark, h]
  · rw [decodeUtf8Sig, if_neg hmark, h]

theorem decodeUtf8_utf16Mark (order : ByteOrder) (bytes : List UInt8) :
    decodeUtf8 (utf16Mark order ++ bytes) = none := by
  cases order with
  | little => exact decodeUtf8_of_first (by decide) _
  | big => exact decodeUtf8_of_first (by decide) _

theorem decodeUtf16Mark_mark (native order : ByteOrder) (bytes : List UInt8) :
    decodeUtf16Mark native (utf16Mark order ++ bytes) = decodeUtf16 order bytes := by
  cases order with
  | little => rw [decodeUtf16Mark, if_pos (List.prefix_append _ _)]; rfl
  | big =>
    have hlittle : ¬utf16Mark .little <+: utf16Mark .big ++ bytes := by
      intro h
      exact absurd (List.cons_prefix_cons.mp h).1 (by decide)
    rw [decodeUtf16Mark, if_neg hlittle, if_pos (List.prefix_append _ _)]
    rfl

/-! ## The first encoding that reads -/

variable {native : ByteOrder} {bytes : List UInt8} {text : List Char}

theorem decodeText_utf8Sig (h : decodeUtf8Sig bytes = some text) :
    decodeText native bytes = .ok (text, .utf8Sig) := by
  simp only [decodeText, encodings, List.findSome?_cons, Encoding.decode, h, Option.map_some]

theorem decodeText_utf16 (hutf8 : decodeUtf8 bytes = none)
    (h : decodeUtf16Mark native bytes = some text) : decodeText native bytes = .ok (text, .utf16) := by
  simp only [decodeText, encodings, List.findSome?_cons, Encoding.decode, decodeUtf8Sig_eq_none hutf8,
    hutf8, h, Option.map_none, Option.map_some]

theorem decodeText_cp1252 (hutf8 : decodeUtf8 bytes = none)
    (hutf16 : decodeUtf16Mark native bytes = none)
    (h : bytes.mapM cp1252Char = some text) : decodeText native bytes = .ok (text, .cp1252) := by
  simp only [decodeText, encodings, List.findSome?_cons, Encoding.decode, decodeUtf8Sig_eq_none hutf8,
    hutf8, hutf16, h, Option.map_none, Option.map_some]

/-- **Every file is read**: no bytes are wrong in Latin-1. -/
theorem decodeText_isOk (native : ByteOrder) (bytes : List UInt8) :
    ∃ text encoding, decodeText native bytes = .ok (text, encoding) := by
  rw [decodeText]
  split
  case h_1 read hread => exact ⟨read.1, read.2, rfl⟩
  case h_2 hnone =>
    have hlast := List.findSome?_eq_none_iff.mp hnone .latin1 (by decide)
    cases hlast

/-! ## Windows-1252 -/

theorem cp1252Char_of_byte {c : Char} {b : UInt8} (h : cp1252Byte c = some b) : cp1252Char b =
    some c := by
  have hfound := List.find?_some h
  exact of_decide_eq_true hfound

/-- **Windows-1252 is read as it was written**, one byte for a character. -/
theorem decode_cp1252 (h : text.mapM cp1252Byte = some bytes) :
    bytes.mapM cp1252Char = some text ∧ bytes.length = text.length := by
  induction text generalizing bytes with
  | nil =>
    obtain rfl := Option.some.inj h
    exact ⟨rfl, rfl⟩
  | cons c text ih =>
    rw [List.mapM_cons] at h
    obtain ⟨b, hb, h⟩ := Option.bind_eq_some_iff.mp h
    obtain ⟨rest, hrest, h⟩ := Option.bind_eq_some_iff.mp h
    obtain rfl := Option.some.inj h
    obtain ⟨htext, hlength⟩ := ih hrest
    refine ⟨?_, congrArg Nat.succ hlength⟩
    rw [List.mapM_cons, cp1252Char_of_byte hb, htext]
    rfl

/-! ## What is read back -/

theorem eq_of_reads {read : List Char} {encoding : Encoding}
    (hread : decodeText native bytes = .ok (read, encoding)) :
    (∃ encoding, decodeText native bytes = .ok (text, encoding)) ↔ read = text := by
  constructor
  · rintro ⟨encoding', h⟩
    exact (Prod.mk.inj (Except.ok.inj (hread.symm.trans h))).1
  · rintro rfl
    exact ⟨encoding, hread⟩

theorem readsBack_utf8_iff : ReadsBack native .utf8 text ↔ ∀ c ∈ text.head?, c ≠ '\uFEFF' := by
  have hback : ReadsBack native .utf8 text ↔
      ∃ encoding, decodeText native (encodeUtf8 text) = .ok (text, encoding) := by
    refine ⟨fun h => h _ rfl trivial, fun h bytes hbytes _ => ?_⟩
    obtain rfl := Option.some.inj hbytes
    exact h
  rw [hback]
  by_cases hmark : utf8Mark <+: encodeUtf8 text
  · obtain ⟨rest, rfl⟩ := prefix_of_encodeUtf8 (utf8Mark_eq ▸ hmark)
    have hread : decodeUtf8Sig (encodeUtf8 (['\uFEFF'] ++ rest)) = some rest := by
      rw [encodeUtf8_append, ← utf8Mark_eq, decodeUtf8Sig_mark, decodeUtf8_eq_some]
    rw [eq_of_reads (decodeText_utf8Sig hread)]
    refine iff_of_false (fun heq => ?_) fun h => h _ rfl rfl
    have hlength := congrArg List.length heq
    simp at hlength
  · have hread : decodeUtf8Sig (encodeUtf8 text) = some text := by
      rw [decodeUtf8Sig, if_neg hmark, decodeUtf8_eq_some]
    refine iff_of_true ⟨_, decodeText_utf8Sig hread⟩ fun c hc heq => hmark ?_
    obtain ⟨rest, rfl⟩ := List.head?_eq_some_iff.mp hc
    rw [heq, ← List.singleton_append, encodeUtf8_append, ← utf8Mark_eq]
    exact List.prefix_append _ _

theorem readsBack_cp1252_iff : ReadsBack native .cp1252 text ↔ Unmistaken native .cp1252 text := by
  refine forall_congr' fun bytes => imp_congr_right fun hbytes => imp_congr_right fun hsupports => ?_
  obtain ⟨hutf8, hmark⟩ := hsupports
  obtain ⟨hdecode, hlength⟩ := decode_cp1252 hbytes
  have hmarked : decodeUtf16Mark native bytes = decodeUtf16 native bytes := by
    rw [decodeUtf16Mark, if_neg (hmark .little), if_neg (hmark .big)]
  rcases hutf16 : decodeUtf16 native bytes with _ | garbled
  · exact iff_of_true ⟨_, decodeText_cp1252 hutf8 (hmarked.trans hutf16) hdecode⟩ rfl
  · rw [eq_of_reads (decodeText_utf16 hutf8 (hmarked.trans hutf16))]
    refine iff_of_false ?_ fun h => by cases h
    rintro rfl
    -- half as many characters as bytes, and there are some
    have hhalf := length_of_decodeUtf16 hutf16
    have hnil : bytes = [] := List.length_eq_zero_iff.mp (by omega)
    rw [hnil] at hutf8
    exact absurd (hutf8.symm.trans (decodeUtf8_eq_some.mpr (rfl : encodeUtf8 [] = []))) (by simp)

/-- **A file is read as it was written** iff it is not mistaken: UTF-8 without a mark does not begin with
one, and Windows-1252 is no UTF-16 in the order of the machine. -/
theorem reads_back_iff (native : ByteOrder) (written : Written) (text : List Char) :
    ReadsBack native written text ↔ Unmistaken native written text := by
  cases written with
  | utf8 => exact readsBack_utf8_iff
  | utf8Mark =>
    refine iff_of_true (fun bytes hbytes _ => ?_) trivial
    obtain rfl := Option.some.inj hbytes
    refine ⟨_, decodeText_utf8Sig ?_⟩
    rw [decodeUtf8Sig_mark, decodeUtf8_eq_some]
  | utf16 order =>
    refine iff_of_true (fun bytes hbytes _ => ?_) trivial
    obtain rfl := Option.some.inj hbytes
    refine ⟨_, decodeText_utf16 (decodeUtf8_utf16Mark order _) ?_⟩
    rw [decodeUtf16Mark_mark, decodeUtf16_encode]
  | cp1252 => exact readsBack_cp1252_iff

/-- `ét` in Windows-1252 is one character of UTF-16. -/
theorem garbled : ¬ReadsBack .little .cp1252 ['é', 't'] := by
  intro h
  have hbytes : Written.cp1252.encode ['é', 't'] = some [0xE9, 0x74] := by decide
  have hsupports : Written.cp1252.Supports [0xE9, 0x74] := by
    refine ⟨by decide, fun order => ?_⟩
    cases order <;> decide
  obtain ⟨encoding, hread⟩ := h _ hbytes hsupports
  have hgarbled : decodeText .little [0xE9, 0x74] = .ok ([Char.ofNat 0x74E9], .utf16) := by
    decide
  rw [hgarbled] at hread
  cases (Prod.mk.inj (Except.ok.inj hread)).1

end GuruJi.Ingestion
