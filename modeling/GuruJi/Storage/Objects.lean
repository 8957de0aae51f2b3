import GuruJi.Lib.Checks
import GuruJi.Lib.Services
import GuruJi.Lib.Table
import GuruJi.Lib.Text
import GuruJi.Voice.Sentences
import Mathlib

/-!
# Object stores

Files are kept under keys "institution/category/object/name", in memory or on a disk. The disk writes a
file beside the one it replaces, under its name and ".part", and lists no names that end so.

* `parts_of_buildObjectKey`: the keys that are built have four parts, none of which steps up or aside;
* `serve_agrees`: one call;
* **`stores_agree`**: the stores answer the same as long as no call meets an object under a key that ends
  in ".part": one that it lists, or the place it writes through;
* `part_lost`: where one does.
-/

namespace GuruJi.Storage

open GuruJi.Lib
open GuruJi.Voice (isSpace)

abbrev Key := List Char

/-- `bytes`. -/
abbrev Content := List UInt8

/-- A `ValueError`, for a segment with its `repr` left out, an `ObjectStoreError`, or an `OSError`. -/
inductive ObjectError where
  | value (message : String)
  | unsafeSegment (segment : List Char)
  | store (message : String)
  | os
  deriving DecidableEq

/-! ## Keys -/

/-- `[A-Za-z0-9._-]`. -/
def isSegmentChar (c : Char) : Bool := c.isAlphanum || c = '.' || c = '_' || c = '-'

/-- `_SAFE_SEGMENT`. -/
def isSafeSegment : List Char → Bool
  | [] => false
  | c :: rest => c.isAlphanum && rest.length ≤ 127 && rest.all isSegmentChar

/-- `[A-Za-z0-9._ -]`. -/
def isNameChar (c : Char) : Bool := isSegmentChar c || c = ' '

/-- The parts of a path, without what stands for the same place. -/
def pathParts (text : List Char) : List (List Char) :=
  (text.splitOn '/').filter fun part => part ≠ [] && part ≠ ['.']

/-- `re.sub("[^...]+", "_", text)`, after a run of what is replaced or not. -/
def maskRuns (keep : Char → Bool) : Bool → List Char → List Char
  | _, [] => []
  | masked, c :: text =>
    if keep c then c :: maskRuns keep false text
    else if masked then maskRuns keep true text else '_' :: maskRuns keep true text

/-- `safe_file_name`. -/
def safeFileName (fileName : List Char) : Except ObjectError (List Char) :=
  let base := trim isSpace
    (((pathParts (fileName.map fun c => if c = '\\' then '/' else c)).getLast?).getD [])
  let cleaned := trim (fun c => c = ' ' || c = '.') (maskRuns isNameChar false base)
  if cleaned = [] then .error (.value "file name must contain at least one safe character")
  else .ok (cleaned.take 160)

/-- `build_object_key`. -/
def buildObjectKey (institutionId category objectId fileName : List Char) : Except ObjectError Key := do
  let safeName ← safeFileName fileName
  match [institutionId, category, objectId].find? fun segment => !isSafeSegment segment with
  | some segment => .error (.unsafeSegment segment)
  | none => .ok (institutionId ++ '/' :: category ++ '/' :: objectId ++ '/' :: safeName)

-- parts of keys are compared through their characters
local instance lawfulParts : LawfulBEq (List Char) := inferInstance

/-- `_validate_key`. -/
def validateKey (key : Key) : Except ObjectError Unit :=
  if key = [] ∨ key.head? = some '/' ∨ ['.', '.'] ∈ key.splitOn '/' ∨ '\\' ∈ key then
    .error (.value "object key must be a relative, traversal-free path")
  else if (key.splitOn '/').length < 2 then .error (.value "object key must be tenant-prefixed")
  else .ok ()

/-! ## Calls -/

/-- `StoredObject`, without the time and the backend. -/
structure StoredObject where
  key : Key
  sizeBytes : Nat
  sha256 : String
  contentType : String
  deriving DecidableEq

inductive Call where
  | put (key : Key) (content : Content) (contentType : String)
  | get (key : Key)
  | exists (key : Key)
  | delete (key : Key)
  | listKeys (pre : List Char)
  deriving DecidableEq

inductive Answer where
  | stored (object : StoredObject)
  | content (content : Content)
  | flag (value : Bool)
  | keys (keys : List Key)
  deriving DecidableEq

def Call.key? : Call → Option Key
  | .put key _ _ | .get key | .exists key | .delete key => some key
  | .listKeys _ => none

def notFound (key : Key) : ObjectError := .store ("object not found: " ++ String.ofList key)

section
variable (sha256 : Content → String)

def storedObject (key : Key) (content : Content) (contentType : String) : StoredObject :=
  ⟨key, content.length, sha256 content, contentType⟩

/-! ## In memory -/

/-- `InMemoryObjectStore`. -/
structure InMemoryObjectStore where
  maxBytes : Nat
  objects : Table Key (Content × StoredObject) := []
  deriving DecidableEq

namespace InMemoryObjectStore
variable (store : InMemoryObjectStore)

def total : Nat := (store.objects.map fun e => e.2.1.length).sum

def put (key : Key) (content : Content) (contentType : String) :
    Except ObjectError Answer × InMemoryObjectStore :=
  match validateKey key with
  | .error e => (.error e, store)
  | .ok _ =>
    if store.maxBytes < store.total + content.length then
      (.error (.store "in-memory object store capacity exceeded"), store)
    else
      let stored := storedObject sha256 key content contentType
      (.ok (.stored stored), { store with objects := store.objects.assign key (content, stored) })

def get (key : Key) : Except ObjectError Answer :=
  match Table.get store.objects key with
  | some object => .ok (.content object.1)
  | none => .error (notFound key)

def delete (key : Key) : Except ObjectError Answer × InMemoryObjectStore :=
  (.ok (.flag (Table.get store.objects key).isSome),
    { store with objects := store.objects.filter fun e => e.1 ≠ key })

def listKeys (pre : List Char) : List Key :=
  ((store.objects.map Prod.fst).filter fun key => pre.isPrefixOf key).mergeSort (· ≤ ·)

def serve : Call → Except ObjectError Answer × InMemoryObjectStore
  | .put key content contentType => store.put sha256 key content contentType
  | .get key => (store.get key, store)
  | .exists key => (.ok (.flag (Table.get store.objects key).isSome), store)
  | .delete key => store.delete key
  | .listKeys pre => (.ok (.keys (store.listKeys pre)), store)

end InMemoryObjectStore

/-! ## On a disk -/

abbrev Path := List (List Char)

/-- What is below the root: files with their bytes, and directories. -/
structure Disk where
  files : Table Path Content := []
  dirs : List Path := []
  deriving DecidableEq

namespace Disk
variable (disk : Disk)

def isFile (path : Path) : Bool := (Table.get disk.files path).isSome

/-- `path.mkdir(parents=True, exist_ok=True)`, nothing where one of these is a file. -/
def mkdir (path : Path) : Option Disk :=
  if path.inits.any disk.isFile then none
  else some { disk with dirs := disk.dirs ++ path.inits.filter fun dir => dir ∉ disk.dirs }

/-- `path.write_bytes(content)`. -/
def writeBytes (path : Path) (content : Content) : Option Disk :=
  if path ∈ disk.dirs then none else some { disk with files := disk.files.assign path content }

def unlink (path : Path) : Disk := { disk with files := disk.files.filter fun e => e.1 ≠ path }

/-- `temp.replace(path)`. -/
def replace (temp path : Path) (content : Content) : Option Disk :=
  (disk.unlink temp).writeBytes path content

end Disk

/-- `path.with_suffix(path.suffix + ".part")`. -/
def tempPath (path : Path) : Path := path.modifyLast fun name => name ++ ".part".toList

/-- `_path`, without symbolic links. -/
def localPath (key : Key) : Except ObjectError Path := do
  validateKey key
  if pathParts key = [] then .error (.value "object key escapes the storage root")
  else .ok (pathParts key)

/-- `LocalFileObjectStore`. -/
structure LocalFileObjectStore where
  disk : Disk := {}
  deriving DecidableEq

namespace LocalFileObjectStore
variable (store : LocalFileObjectStore)

def put (key : Key) (content : Content) (contentType : String) :
    Except ObjectError Answer × LocalFileObjectStore :=
  match localPath key with
  | .error e => (.error e, store)
  | .ok path =>
    match store.disk.mkdir path.dropLast with
    | none => (.error .os, store)
    | some made =>
      match made.writeBytes (tempPath path) content with
      | none => (.error .os, ⟨made⟩)
      | some written =>
        match written.replace (tempPath path) path content with
        | none => (.error .os, ⟨written⟩)
        | some replaced =>
          (.ok (.stored (storedObject sha256 key content contentType)), ⟨replaced⟩)

def get (key : Key) : Except ObjectError Answer :=
  match localPath key with
  | .error e => .error e
  | .ok path =>
    match Table.get store.disk.files path with
    | some content => .ok (.content content)
    | none =>
      -- a directory, or a place below a file, is another error than `FileNotFoundError`
      if path ∈ store.disk.dirs ∨ path.dropLast.inits.any store.disk.isFile then .error .os
      else .error (notFound key)

def delete (key : Key) : Except ObjectError Answer × LocalFileObjectStore :=
  match localPath key with
  | .error e => (.error e, store)
  | .ok path =>
    if store.disk.isFile path then (.ok (.flag true), ⟨store.disk.unlink path⟩)
    else (.ok (.flag false), store)

def listKeys (pre : List Char) : List Key :=
  ((((store.disk.files.map Prod.fst).filter fun path =>
    !".part".toList.isSuffixOf (path.getLast?.getD [])).map fun path => ['/'].intercalate path).filter
      fun key => pre.isPrefixOf key).mergeSort (· ≤ ·)

def serve : Call → Except ObjectError Answer × LocalFileObjectStore
  | .put key content contentType => store.put sha256 key content contentType
  | .get key => (store.get key, store)
  | .exists key => ((localPath key).map fun path => .flag (store.disk.isFile path), store)
  | .delete key => store.delete key
  | .listKeys pre => (.ok (.keys (store.listKeys pre)), store)

end LocalFileObjectStore

end

/-! ## The keys that are built -/

section
variable {key : Key} {a b c name : List Char}

/-- A part that is a name of its own. -/
structure Plain (part : List Char) : Prop where
  ne : part ≠ []
  head : part.head? ≠ some '.'
  slash : '/' ∉ part
  backslash : '\\' ∉ part

/-- A key of four parts. -/
structure Parts (key : Key) (a b c name : List Char) : Prop where
  key_eq : key = ['/'].intercalate [a, b, c, name]
  plain : ∀ part ∈ [a, b, c, name], Plain part

def IsKey (key : Key) : Prop := ∃ a b c name, Parts key a b c name

theorem segmentChar_spec {x : Char} (h : isNameChar x = true) : x ≠ '/' ∧ x ≠ '\\' := by
  constructor
  · rintro rfl
    exact absurd h (by decide)
  · rintro rfl
    exact absurd h (by decide)

theorem plain_of_nameChars {part : List Char} (hne : part ≠ []) (hhead : part.head? ≠ some '.')
    (h : ∀ x ∈ part, isNameChar x = true) : Plain part :=
  ⟨hne, hhead, fun hmem => (segmentChar_spec (h _ hmem)).1 rfl,
    fun hmem => (segmentChar_spec (h _ hmem)).2 rfl⟩

theorem plain_of_isSafeSegment {segment : List Char} (h : isSafeSegment segment = true) :
    Plain segment := by
  cases segment with
  | nil => cases h
  | cons x rest =>
    simp only [isSafeSegment, Bool.and_eq_true] at h
    obtain ⟨⟨hx, -⟩, hrest⟩ := h
    refine plain_of_nameChars (List.cons_ne_nil _ _) (fun heq => ?_) fun y hy => ?_
    · obtain rfl := Option.some.inj heq
      exact absurd hx (by decide)
    · rcases List.mem_cons.mp hy with rfl | hy
      · simp [isNameChar, isSegmentChar, hx]
      · simp [isNameChar, List.all_eq_true.mp hrest y hy]

theorem mem_maskRuns {keep : Char → Bool} (hkeep : keep '_' = true) {masked : Bool} {text : List Char}
    {x : Char} (h : x ∈ maskRuns keep masked text) : keep x = true := by
  induction text generalizing masked with
  | nil => cases h
  | cons y text ih =>
    rw [maskRuns] at h
    split_ifs at h with hy
    · rcases List.mem_cons.mp h with rfl | h
      · exact hy
      · exact ih h
    · exact ih h
    · rcases List.mem_cons.mp h with rfl | h
      · exact hkeep
      · exact ih h

theorem plain_safeFileName {fileName : List Char} (h : safeFileName fileName = .ok name) :
    Plain name := by
  rw [safeFileName] at h
  split_ifs at h with hne
  obtain rfl := Except.ok.inj h
  refine plain_of_nameChars (fun hnil => ?_) (fun hhead => ?_) fun x hx => ?_
  · rcases List.take_eq_nil_iff.mp hnil with h | h
    · cases h
    · exact hne h
  · rw [List.head?_take, if_neg (by decide)] at hhead
    exact absurd (head_trim hhead) (by decide)
  · exact mem_maskRuns (by decide) (trim_subset (List.take_subset _ _ hx))

/-- **The keys that are built have four parts**, each a name of its own. -/
theorem parts_of_buildObjectKey {institutionId category objectId fileName : List Char}
    (h : buildObjectKey institutionId category objectId fileName = .ok key) : IsKey key := by
  obtain ⟨safeName, hname, h⟩ := bind_eq_ok.mp h
  split at h
  · cases h
  · next hsafe =>
    obtain rfl := Except.ok.inj h
    refine ⟨institutionId, category, objectId, safeName, by simp [List.intercalate], ?_⟩
    intro part hpart
    have hsegment : ∀ segment ∈ [institutionId, category, objectId], Plain segment :=
      fun segment hsegment => plain_of_isSafeSegment (by
        simpa using List.find?_eq_none.mp hsafe segment hsegment)
    rcases List.mem_append.mp (show part ∈ [institutionId, category, objectId] ++ [safeName] from hpart)
      with hpart | hpart
    · exact hsegment part hpart
    · rw [List.mem_singleton.mp hpart]
      exact plain_safeFileName hname

namespace Parts
variable (h : Parts key a b c name)
include h

theorem splitOn_eq : key.splitOn '/' = [a, b, c, name] := by
  rw [h.key_eq]
  exact List.splitOn_intercalate _ (fun part hpart => (h.plain part hpart).slash) (List.cons_ne_nil _ _)

theorem pathParts_eq : pathParts key = [a, b, c, name] := by
  rw [pathParts, h.splitOn_eq]
  refine List.filter_eq_self.mpr fun part hpart => ?_
  have hplain := h.plain part hpart
  have hdot : part ≠ ['.'] := fun heq => hplain.head (by rw [heq]; rfl)
  simp [hplain.ne, hdot]

theorem validateKey_eq : validateKey key = .ok () := by
  have hpart : ∀ part ∈ [a, b, c, name], part ≠ ['.', '.'] := fun part hpart heq =>
    (h.plain part hpart).head (by rw [heq]; rfl)
  have hback : '\\' ∉ key := by
    rw [h.key_eq]
    intro hmem
    rcases mem_intercalate hmem with heq | ⟨part, hpart, hmem⟩
    · exact absurd heq (by decide)
    · exact (h.plain part hpart).backslash hmem
  have hfirst := h.plain a List.mem_cons_self
  obtain ⟨x, rest, ha⟩ := List.exists_cons_of_ne_nil hfirst.ne
  have hhead : key.head? = some x := by
    rw [h.key_eq, ha]
    rfl
  have hslash : x ≠ '/' := fun heq => hfirst.slash (by rw [ha, heq]; exact List.mem_cons_self)
  have hne : key ≠ [] := by
    rintro rfl
    cases hhead
  rw [validateKey, if_neg, h.splitOn_eq, if_neg (by simp)]
  rw [h.splitOn_eq, hhead]
  rintro (hnil | hx | hdots | hmem)
  · exact hne hnil
  · exact hslash (Option.some.inj hx)
  · exact hpart _ hdots rfl
  · exact hback hmem

theorem localPath_eq : localPath key = .ok [a, b, c, name] := by
  rw [localPath, h.validateKey_eq, h.pathParts_eq]
  rfl

theorem temp : Parts (key ++ ".part".toList) a b c (name ++ ".part".toList) := by
  have hname := h.plain name (by simp)
  obtain ⟨x, rest, heq⟩ := List.exists_cons_of_ne_nil hname.ne
  have hpart : Plain (name ++ ".part".toList) := by
    refine ⟨by simp [heq], fun hhead => hname.head ?_, fun hmem => ?_, fun hmem => ?_⟩
    · rw [heq] at hhead ⊢
      exact hhead
    · exact (List.mem_append.mp hmem).elim hname.slash fun hmem => absurd hmem (by decide)
    · exact (List.mem_append.mp hmem).elim hname.backslash fun hmem => absurd hmem (by decide)
  refine ⟨by rw [h.key_eq]; simp [List.intercalate], fun part hmem => ?_⟩
  rcases List.mem_append.mp (show part ∈ [a, b, c] ++ [name ++ ".part".toList] from hmem) with
    hmem | hmem
  · exact h.plain part (List.mem_append_left [name] hmem)
  · rw [List.mem_singleton.mp hmem]
    exact hpart

end Parts

theorem pathParts_injective {key' : Key} (h : IsKey key) (h' : IsKey key')
    (heq : pathParts key = pathParts key') : key = key' := by
  obtain ⟨a, b, c, name, hparts⟩ := h
  obtain ⟨a', b', c', name', hparts'⟩ := h'
  rw [hparts.pathParts_eq, hparts'.pathParts_eq] at heq
  rw [hparts.key_eq, heq, ← hparts'.key_eq]

theorem IsKey.localPath_eq (h : IsKey key) : localPath key = .ok (pathParts key) := by
  obtain ⟨a, b, c, name, hparts⟩ := h
  rw [hparts.localPath_eq, hparts.pathParts_eq]

theorem IsKey.intercalate_pathParts (h : IsKey key) : ['/'].intercalate (pathParts key) = key := by
  obtain ⟨a, b, c, name, hparts⟩ := h
  rw [hparts.pathParts_eq, hparts.key_eq]

theorem IsKey.name_suffix (h : IsKey key) : (pathParts key).getLast?.getD [] <:+ key := by
  obtain ⟨a, b, c, name, hparts⟩ := h
  rw [hparts.pathParts_eq]
  exact ⟨['/'].intercalate [a, b, c, []], by rw [hparts.key_eq]; simp [List.intercalate]⟩

theorem IsKey.length_pathParts (h : IsKey key) : (pathParts key).length = 4 := by
  obtain ⟨a, b, c, name, hparts⟩ := h
  rw [hparts.pathParts_eq]
  rfl

end

/-! ## The stores correspond -/

section
variable {sha256 : Content → String} {memory : InMemoryObjectStore} {onDisk : LocalFileObjectStore}
  {key : Key} {content : Content} {contentType : String}

/-- What is in memory is on the disk, each object at the place of its key, and nothing else. -/
structure Agrees (memory : InMemoryObjectStore) (onDisk : LocalFileObjectStore) : Prop where
  isKey : ∀ e ∈ memory.objects, IsKey e.1
  files : onDisk.disk.files = memory.objects.map fun e => (pathParts e.1, e.2.1)
  dirs : ∀ dir ∈ onDisk.disk.dirs, dir.length < 4

namespace Agrees
variable (h : Agrees memory onDisk)
include h

theorem inj (hkey : IsKey key) : ∀ e ∈ memory.objects, pathParts e.1 = pathParts key → e.1 = key :=
  fun e he heq => pathParts_injective (h.isKey e he) hkey heq

theorem get_files (hkey : IsKey key) :
    Table.get onDisk.disk.files (pathParts key) = (Table.get memory.objects key).map Prod.fst := by
  rw [h.files, Table.get_map (h.inj hkey)]

theorem isFile_eq (hkey : IsKey key) :
    onDisk.disk.isFile (pathParts key) = (Table.get memory.objects key).isSome := by
  rw [Disk.isFile, h.get_files hkey, Option.isSome_map]

theorem not_isFile {path : Path} (hpath : path.length < 4) : onDisk.disk.isFile path = false := by
  by_contra hfile
  obtain ⟨e, he, heq⟩ := List.mem_map.mp (Table.isSome_get.mp (eq_true_of_ne_false hfile))
  rw [h.files] at he
  obtain ⟨object, hobject, rfl⟩ := List.mem_map.mp he
  have hfour := (h.isKey object hobject).length_pathParts
  rw [show pathParts object.1 = path from heq] at hfour
  omega

theorem no_file_above {path : Path} (hpath : path.length = 4) :
    path.dropLast.inits.any onDisk.disk.isFile = false := by
  refine List.any_eq_false.mpr fun dir hdir => ?_
  have hle := ((List.mem_inits dir _).mp hdir).length_le
  rw [List.length_dropLast] at hle
  rw [h.not_isFile (by omega)]
  exact Bool.false_ne_true

theorem not_mem_dirs {path : Path} (hpath : path.length = 4) : path ∉ onDisk.disk.dirs := fun hmem => by
  have hlt := h.dirs path hmem
  omega

theorem mkdir_eq {path : Path} (hpath : path.length = 4) : ∃ dirs : List Path,
    onDisk.disk.mkdir path.dropLast = some { onDisk.disk with dirs := dirs } ∧
      ∀ dir ∈ dirs, dir.length < 4 := by
  refine ⟨onDisk.disk.dirs ++ path.dropLast.inits.filter fun dir => dir ∉ onDisk.disk.dirs, ?_,
    fun dir hdir => ?_⟩
  · rw [Disk.mkdir, h.no_file_above hpath]
    rfl
  · rcases List.mem_append.mp hdir with hdir | hdir
    · exact h.dirs dir hdir
    · have hle := ((List.mem_inits dir _).mp (List.mem_of_mem_filter hdir)).length_le
      rw [List.length_dropLast] at hle
      omega

end Agrees

/-! ## Calls -/

namespace InMemoryObjectStore
variable (store : InMemoryObjectStore)

def Fits : Call → Prop
  | .put _ content _ => store.total + content.length ≤ store.maxBytes
  | _ => True

/-- A call that meets no object under a key that ends in ".part": one that it lists, or one at the place
that it writes through. -/
def Clear : Call → Prop
  | .put key _ _ => key ++ ".part".toList ∉ store.objects.map Prod.fst
  | .listKeys pre => ∀ key ∈ store.objects.map Prod.fst, pre <+: key → ¬".part".toList <:+ key
  | _ => True

end InMemoryObjectStore

def Call.Built (call : Call) : Prop :=
  ∀ key ∈ call.key?, ∃ institutionId category objectId fileName,
    buildObjectKey institutionId category objectId fileName = .ok key

namespace Agrees
variable (h : Agrees memory onDisk)
include h

theorem put_agrees (hkey : IsKey key) (hfits : memory.total + content.length ≤ memory.maxBytes)
    (hclear : key ++ ".part".toList ∉ memory.objects.map Prod.fst) :
    (memory.put sha256 key content contentType).1 = (onDisk.put sha256 key content contentType).1 ∧
      Agrees (memory.put sha256 key content contentType).2
        (onDisk.put sha256 key content contentType).2 := by
  have hfour := hkey.length_pathParts
  obtain ⟨a, b, c, name, hparts⟩ := hkey
  have hplace := hparts.pathParts_eq
  have htemp : tempPath (pathParts key) = pathParts (key ++ ".part".toList) := by
    rw [hparts.temp.pathParts_eq, hplace]
    rfl
  have htempKey : IsKey (key ++ ".part".toList) := ⟨a, b, c, _, hparts.temp⟩
  have hnew : pathParts (key ++ ".part".toList) ∉ onDisk.disk.files.map Prod.fst := by
    rw [h.files, List.map_map]
    intro hmem
    obtain ⟨e, he, heq⟩ := List.mem_map.mp hmem
    exact hclear (List.mem_map.mpr ⟨e, he, h.inj htempKey e he heq⟩)
  obtain ⟨dirs, hmkdir, hdirs⟩ := h.mkdir_eq hfour
  have hlocal : localPath key = .ok (pathParts key) := IsKey.localPath_eq ⟨a, b, c, name, hparts⟩
  have hout : ∀ path : Path, path.length = 4 → path ∉ dirs := fun path hpath hmem => by
    have hlt := hdirs path hmem
    omega
  have hwrite : Disk.writeBytes { onDisk.disk with dirs := dirs } (tempPath (pathParts key)) content =
      some ⟨onDisk.disk.files ++ [(tempPath (pathParts key), content)], dirs⟩ := by
    rw [Disk.writeBytes, htemp, if_neg (hout _ htempKey.length_pathParts)]
    exact congrArg (fun files => some (Disk.mk files dirs)) (Table.assign_of_not_mem hnew content)
  have hreplace : Disk.replace ⟨onDisk.disk.files ++ [(tempPath (pathParts key), content)], dirs⟩
      (tempPath (pathParts key)) (pathParts key) content =
        some ⟨onDisk.disk.files.assign (pathParts key) content, dirs⟩ := by
    have hunlink : (onDisk.disk.files ++ [(tempPath (pathParts key), content)]).filter
        (fun e => e.1 ≠ tempPath (pathParts key)) = onDisk.disk.files := by
      rw [List.filter_append, List.filter_singleton, htemp]
      have hothers : onDisk.disk.files.filter (fun e => e.1 ≠ pathParts (key ++ ".part".toList)) =
          onDisk.disk.files := List.filter_eq_self.mpr fun e he =>
        decide_eq_true fun heq => hnew (List.mem_map.mpr ⟨e, he, heq⟩)
      rw [hothers]
      simp
    rw [Disk.replace, Disk.unlink, hunlink, Disk.writeBytes, if_neg (hout _ hfour)]
  rw [InMemoryObjectStore.put, hparts.validateKey_eq, LocalFileObjectStore.put, hlocal]
  simp only [if_neg (Nat.not_lt.mpr hfits), hmkdir, hwrite, hreplace]
  refine ⟨trivial, fun e he => ?_, ?_, hdirs⟩
  · rcases Table.eq_or_mem_of_mem_assign he with rfl | he
    · exact ⟨a, b, c, name, hparts⟩
    · exact h.isKey e he
  · rw [h.files]
    exact Table.assign_map (h.inj ⟨a, b, c, name, hparts⟩)
      (content, storedObject sha256 key content contentType)

theorem get_agrees (hkey : IsKey key) : memory.get key = onDisk.get key := by
  have hfour := hkey.length_pathParts
  have hfile := h.get_files hkey
  rw [InMemoryObjectStore.get, LocalFileObjectStore.get, hkey.localPath_eq]
  dsimp only
  rw [hfile]
  cases Table.get memory.objects key with
  | some object => rfl
  | none =>
    have habove := h.no_file_above hfour
    have hdir := h.not_mem_dirs hfour
    simp [habove, hdir]

theorem delete_agrees (hkey : IsKey key) : (memory.delete key).1 = (onDisk.delete key).1 ∧
    Agrees (memory.delete key).2 (onDisk.delete key).2 := by
  rw [InMemoryObjectStore.delete, LocalFileObjectStore.delete, hkey.localPath_eq]
  dsimp only
  rw [h.isFile_eq hkey]
  have hleft : ∀ e ∈ memory.objects.filter fun e => e.1 ≠ key, IsKey e.1 := fun e he =>
    h.isKey e (List.mem_of_mem_filter he)
  split_ifs with hstored
  · refine ⟨by rw [hstored], hleft, ?_, h.dirs⟩
    rw [Disk.unlink, h.files, List.filter_map]
    refine congrArg (List.map _) (List.filter_congr fun e he => ?_)
    exact decide_eq_decide.mpr (not_congr ⟨h.inj hkey e he, congrArg pathParts⟩)
  · refine ⟨by rw [eq_false_of_ne_true hstored], hleft, ?_, h.dirs⟩
    have hsame : memory.objects.filter (fun e => e.1 ≠ key) = memory.objects :=
      List.filter_eq_self.mpr fun e he => decide_eq_true fun heq =>
        hstored (Table.isSome_get.mpr (List.mem_map.mpr ⟨e, he, heq⟩))
    rw [hsame]
    exact h.files

theorem listKeys_agrees {pre : List Char}
    (hclear : ∀ key ∈ memory.objects.map Prod.fst, pre <+: key → ¬".part".toList <:+ key) :
    memory.listKeys pre = onDisk.listKeys pre := by
  have hkeys : ∀ key ∈ memory.objects.map Prod.fst, IsKey key := by
    intro key hkey
    obtain ⟨e, he, rfl⟩ := List.mem_map.mp hkey
    exact h.isKey e he
  have hfiles : onDisk.disk.files.map Prod.fst = (memory.objects.map Prod.fst).map pathParts := by
    rw [h.files, List.map_map, List.map_map]
    rfl
  rw [InMemoryObjectStore.listKeys, LocalFileObjectStore.listKeys, hfiles]
  generalize memory.objects.map Prod.fst = keys at hkeys hclear
  have hread : ∀ l : List Key, (∀ key ∈ l, IsKey key) →
      (l.map pathParts).map (fun path => ['/'].intercalate path) = l := fun l hl => by
    rw [List.map_map]
    exact (List.map_congr_left fun key hkey => (hl key hkey).intercalate_pathParts).trans (List.map_id l)
  rw [List.filter_map (f := pathParts), hread _ fun key hkey => hkeys key (List.mem_of_mem_filter hkey),
    List.filter_filter]
  refine congrArg (List.mergeSort · _) (List.filter_congr fun key hkey => ?_)
  rw [Bool.eq_self_and]
  intro hpre
  have hpart := hclear key hkey (List.isPrefixOf_iff_prefix.mp hpre)
  have hname : ¬".part".toList <:+ (pathParts key).getLast?.getD [] := fun hend =>
    hpart (hend.trans (hkeys key hkey).name_suffix)
  show (!".part".toList.isSuffixOf ((pathParts key).getLast?.getD [])) = true
  rw [Bool.not_eq_true', ← Bool.not_eq_true, List.isSuffixOf_iff_suffix]
  exact hname

/-- **One call**: what it answers, and what it leaves. -/
theorem serve_agrees {call : Call} (hbuilt : call.Built) (hfits : memory.Fits call)
    (hclear : memory.Clear call) : (memory.serve sha256 call).1 = (onDisk.serve sha256 call).1 ∧
      Agrees (memory.serve sha256 call).2 (onDisk.serve sha256 call).2 := by
  have hkey : ∀ key ∈ call.key?, IsKey key := by
    intro key hkey
    obtain ⟨institutionId, category, objectId, fileName, heq⟩ := hbuilt key hkey
    exact parts_of_buildObjectKey heq
  cases call with
  | put key content contentType => exact h.put_agrees (hkey key rfl) hfits hclear
  | get key => exact ⟨h.get_agrees (hkey key rfl), h⟩
  | «exists» key =>
    refine ⟨?_, h⟩
    rw [InMemoryObjectStore.serve, LocalFileObjectStore.serve, (hkey key rfl).localPath_eq]
    exact congrArg (fun flag => Except.ok (Answer.flag flag)) (h.isFile_eq (hkey key rfl)).symm
  | delete key => exact h.delete_agrees (hkey key rfl)
  | listKeys pre =>
    exact ⟨congrArg (fun keys => Except.ok (Answer.keys keys)) (h.listKeys_agrees hclear), h⟩

end Agrees

/-- **The stores answer the same**, call by call, in every run within the limit whose calls meet no
object under a key that ends in ".part", and hold the same objects afterwards. -/
theorem stores_agree {maxBytes : Nat} {calls : List Call} (hbuilt : ∀ call ∈ calls, call.Built)
    (hcalls : AllMeet (InMemoryObjectStore.serve sha256) (fun store call => store.Fits call ∧
      store.Clear call) ⟨maxBytes, []⟩ calls) :
    answers (InMemoryObjectStore.serve sha256) ⟨maxBytes, []⟩ calls =
        answers (LocalFileObjectStore.serve sha256) {} calls ∧
      Agrees (served (InMemoryObjectStore.serve sha256) ⟨maxBytes, []⟩ calls)
        (served (LocalFileObjectStore.serve sha256) {} calls) := by
  have hempty : Agrees ⟨maxBytes, []⟩ {} := by
    refine ⟨fun e he => ?_, rfl, fun dir hdir => ?_⟩
    · cases he
    · cases hdir
  refine answers_eq_of_simulates (fun memory onDisk call h hcall => ?_) hempty (hcalls.and_calls hbuilt)
  exact h.serve_agrees hcall.1 hcall.2.1 hcall.2.2

instance decidableFits (store : InMemoryObjectStore) : ∀ call, Decidable (store.Fits call)
  | .put _ content _ => inferInstanceAs (Decidable (store.total + content.length ≤ store.maxBytes))
  | .get _ | .exists _ | .delete _ | .listKeys _ => isTrue trivial

instance decidableClear (store : InMemoryObjectStore) : ∀ call, Decidable (store.Clear call)
  | .put key _ _ => inferInstanceAs (Decidable (key ++ ".part".toList ∉ store.objects.map Prod.fst))
  | .get _ | .exists _ | .delete _ => isTrue trivial
  | .listKeys pre => inferInstanceAs (Decidable (∀ key ∈ store.objects.map Prod.fst,
      pre <+: key → ¬".part".toList <:+ key))

def byteDigest (content : Content) : String :=
  if content = [1] then "4bf5122f344554c53bde2ebb8cd2b7e3d1600ad631c385a5d7cce23c7785459a"
  else "dbc1b4c900ffe48d575b5da5c638040125f65db0fe3e24494b76ea986457d986"

/-- A scan that is kept, listed, replaced and deleted. -/
def scanCalls : List Call :=
  [.put "inst/raw/f1/scan 1.pdf".toList [1] "application/pdf", .listKeys "inst/".toList,
    .put "inst/raw/f1/scan 1.pdf".toList [2] "application/pdf", .get "inst/raw/f1/scan 1.pdf".toList,
    .delete "inst/raw/f1/scan 1.pdf".toList, .exists "inst/raw/f1/scan 1.pdf".toList]

theorem scanCalls_built : ∀ call ∈ scanCalls, call.Built := by
  intro call hcall key hkey
  refine ⟨"inst".toList, "raw".toList, "f1".toList, "C:\\new\\scan 1.pdf".toList, ?_⟩
  have hscan : key = "inst/raw/f1/scan 1.pdf".toList := by
    simp only [scanCalls, List.mem_cons, List.not_mem_nil, or_false] at hcall
    rcases hcall with rfl | rfl | rfl | rfl | rfl | rfl
    all_goals simp_all [Call.key?]
  rw [hscan]
  decide +kernel

theorem scanCalls_agree : answers (InMemoryObjectStore.serve byteDigest) ⟨200, []⟩ scanCalls =
      answers (LocalFileObjectStore.serve byteDigest) {} scanCalls ∧
    Agrees (served (InMemoryObjectStore.serve byteDigest) ⟨200, []⟩ scanCalls)
      (served (LocalFileObjectStore.serve byteDigest) {} scanCalls) :=
  stores_agree scanCalls_built (by decide +kernel)

/-- A file that is named as another one is written through, and both. -/
def partCalls : List Call :=
  [.put "inst/raw/f1/scan.pdf.part".toList [1] "application/pdf", .listKeys "inst/".toList,
    .put "inst/raw/f1/scan.pdf".toList [2] "application/pdf",
    .exists "inst/raw/f1/scan.pdf.part".toList]

/-- **A file that ends in ".part"** is not listed on the disk, and is gone when the file it is named
after is written. -/
theorem part_lost : (∀ call ∈ partCalls, call.Built) ∧
    AllMeet (InMemoryObjectStore.serve byteDigest) InMemoryObjectStore.Fits ⟨200, []⟩ partCalls ∧
    answers (InMemoryObjectStore.serve byteDigest) ⟨200, []⟩ partCalls ≠
      answers (LocalFileObjectStore.serve byteDigest) {} partCalls ∧
    (LocalFileObjectStore.serve byteDigest
      (served (LocalFileObjectStore.serve byteDigest) {} partCalls)
      (.get "inst/raw/f1/scan.pdf.part".toList)).1 =
        .error (notFound "inst/raw/f1/scan.pdf.part".toList) := by
  refine ⟨?_, by decide +kernel, by decide +kernel, by decide +kernel⟩
  intro call hcall key hkey
  have hfile : key = "inst/raw/f1/scan.pdf.part".toList ∨ key = "inst/raw/f1/scan.pdf".toList := by
    simp only [partCalls, List.mem_cons, List.not_mem_nil, or_false] at hcall
    rcases hcall with rfl | rfl | rfl | rfl
    all_goals simp_all [Call.key?]
  rcases hfile with rfl | rfl
  · exact ⟨"inst".toList, "raw".toList, "f1".toList, "scan.pdf.part".toList, by decide +kernel⟩
  · exact ⟨"inst".toList, "raw".toList, "f1".toList, "scan.pdf".toList, by decide +kernel⟩

end

end GuruJi.Storage
