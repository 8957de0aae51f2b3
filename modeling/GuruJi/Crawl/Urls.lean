import GuruJi.Crawl.Fetch
import GuruJi.Lib.Percent
import Mathlib.Data.List.Sort
import Mathlib.Data.Prod.Lex
import Mathlib.Data.String.Basic

/-!
# Canonical URLs

The key under which a page is known: its URL without what is taken to say nothing of the page. A host
loses one `www.`, a path the slashes at its end, a query the parameters that begin like a tracking one.

* `splitUrl_urlunparse`: a URL is split as it was put together;
* `canonicalizeUrl_canonical`: what becomes of a canonical URL;
* `netlocSettled_iff`, `pathSettled_iff`: its network location and its path stay;
* **`canonicalizeUrl_iff`**: a canonical URL stays iff both do, and two pages have one canonical URL
  only for allowed differences iff what else is dropped of their URLs is the same;
* `not_settled`: a host with two `www.`.
-/

namespace GuruJi.Crawl

open GuruJi.Lib

/-! ## Splitting -/

/-- What canonical URLs ask of texts; `netlocOk` is that `_check_bracketed_host` and `_checknetloc`
accept a network location. -/
structure UrlEnv where
  isSpace : Char → Bool
  lower : String → String
  netlocOk : String → Bool
  decode : List UInt8 → List Char

/-- `SplitResult`. -/
structure SplitUrl where
  scheme : String
  netloc : String
  path : List Char
  query : List Char
  fragment : List Char
  deriving DecidableEq

/-- `ParseResult`. -/
structure ParsedUrl extends SplitUrl where
  params : List Char
  deriving DecidableEq

/-- `text.partition(mark)`, without the mark. -/
def partitionAt (mark : Char) (text : List Char) : List Char × List Char :=
  (text.takeWhile (· ≠ mark), (text.dropWhile (· ≠ mark)).drop 1)

def isSchemeChar (c : Char) : Bool := c.isAlphanum || ['+', '-', '.'].elem c

/-- Not one of `_UNSAFE_URL_BYTES_TO_REMOVE`. -/
def isUrlChar (c : Char) : Bool := !(['\t', '\r', '\n'].elem c)

/-- Not one of the characters that end a network location. -/
def isNetlocChar (c : Char) : Bool := !(['/', '?', '#'].elem c)

/-- The scheme in lower case, if there is one, and what follows it. -/
def splitScheme (url : List Char) : String × List Char :=
  let scheme := (partitionAt ':' url).1
  if ':' ∈ url ∧ scheme.head?.any Char.isAlpha ∧ scheme.all isSchemeChar then
    (String.ofList (scheme.map Char.toLower), (partitionAt ':' url).2)
  else ("", url)

/-- The network location after two slashes, and what follows it. -/
def splitNetloc (url : List Char) : String × List Char :=
  if url.take 2 = ['/', '/'] then
    (String.ofList ((url.drop 2).takeWhile isNetlocChar), (url.drop 2).dropWhile isNetlocChar)
  else ("", url)

def splitUrl (text : List Char) : SplitUrl :=
  let url := splitScheme ((text.dropWhile (· ≤ ' ')).filter isUrlChar)
  let rest := splitNetloc url.2
  let beforeFragment := partitionAt '#' rest.2
  let beforeQuery := partitionAt '?' beforeFragment.1
  ⟨url.1, rest.1, beforeQuery.1, beforeQuery.2, beforeFragment.2⟩

/-- `urlsplit` raises no error for a network location. -/
def UrlEnv.accepts (env : UrlEnv) (netloc : String) : Bool :=
  decide ('[' ∈ netloc.toList) = decide (']' ∈ netloc.toList) && env.netlocOk netloc

def lastSegment (path : List Char) : List Char := path.rtakeWhile (· ≠ '/')

/-- `_splitparams`. -/
def splitParams (path : List Char) : List Char × List Char :=
  (path.rdropWhile (· ≠ '/') ++ (partitionAt ';' (lastSegment path)).1,
    (partitionAt ';' (lastSegment path)).2)

/-- `urlparse`; the other schemes, of which some have no parameters, are refused after it. -/
def urlparse (env : UrlEnv) (text : List Char) : Option ParsedUrl :=
  let split := splitUrl text
  if env.accepts split.netloc then
    some { split with path := (splitParams split.path).1, params := (splitParams split.path).2 }
  else none

/-- `urlunparse`, of an HTTP(S) URL without parameters and fragment. -/
def urlunparse (scheme netloc : String) (path query : List Char) : List Char :=
  let path := if path ≠ [] ∧ path.head? ≠ some '/' then '/' :: path else path
  scheme.toList ++ [':', '/', '/'] ++ netloc.toList ++ path ++ if query = [] then [] else '?' :: query

/-! ## Canonical URLs -/

/-- `_TRACKING_PREFIXES`. -/
def trackingPrefixes : List String :=
  ["utm_", "fbclid", "gclid", "mc_cid", "mc_eid", "igshid", "ref", "_ga"]

def keptPort (scheme : String) : Option Nat → Option Nat
  | some port =>
    if port ≠ 0 ∧ ¬(scheme = "http" ∧ port = 80 ∨ scheme = "https" ∧ port = 443) then some port else none
  | none => none

section
variable (env : UrlEnv)

def UrlEnv.beginsLikeTracking (key : String) : Bool :=
  trackingPrefixes.any fun start => startsWith start (env.lower key)

/-- `(parsed.hostname or "").lower()`. -/
def UrlEnv.host (netloc : String) : String := env.lower ((hostname env.lower netloc).getD "")

/-- The host without `www.`, and its port; `none` where `parsed.port` raises. -/
def canonicalHost (scheme netloc : String) : Option String :=
  (port netloc).map fun port => withoutWww (env.host netloc) ++ portText (keptPort scheme port)

def canonicalPath (path : List Char) : List Char :=
  let path := if path = [] then ['/'] else path
  if path ≠ ['/'] ∧ path.getLast? = some '/' then path.rdropWhile (· = '/') else path

def UrlEnv.keptQuery (query : List Char) : List (String × String) :=
  (parseQsl env.decode query).filter fun pair => !env.beginsLikeTracking pair.1

/-- `sorted(query)`. -/
def sortQuery (pairs : List (String × String)) : List (String × String) :=
  pairs.insertionSort fun a b => toLex a ≤ toLex b

def canonicalQuery (query : List Char) : List Char := urlencode (sortQuery (env.keptQuery query))

/-- `canonicalize_url`. -/
def canonicalizeUrl (url : String) : Option String :=
  (urlparse env (trim env.isSpace url.toList)).bind fun parsed =>
    if parsed.scheme ∉ ["http", "https"] ∨ parsed.netloc = "" then none
    else (canonicalHost env parsed.scheme parsed.netloc).map fun host =>
      String.ofList (urlunparse parsed.scheme host (canonicalPath parsed.path)
        (canonicalQuery env parsed.query))

end

/-! ## What is put together is split -/

theorem partitionAt_append {mark : Char} {a : List Char} (h : mark ∉ a) (b : List Char) :
    partitionAt mark (a ++ mark :: b) = (a, b) := by
  have hall : ∀ c ∈ a, decide (c ≠ mark) = true := fun c hc => decide_eq_true fun heq => h (heq ▸ hc)
  rw [partitionAt, List.takeWhile_append_of_pos hall, List.dropWhile_append_of_pos hall,
    List.takeWhile_cons_of_neg (by simp), List.dropWhile_cons_of_neg (by simp), List.append_nil]
  rfl

theorem partitionAt_of_not_mem {mark : Char} {a : List Char} (h : mark ∉ a) :
    partitionAt mark a = (a, []) := by
  have hall : ∀ c ∈ a, decide (c ≠ mark) = true := fun c hc => decide_eq_true fun heq => h (heq ▸ hc)
  rw [partitionAt, List.takeWhile_eq_self_iff.mpr hall, List.dropWhile_eq_nil_iff.mpr hall]
  rfl

theorem not_mem_partitionAt (mark : Char) (text : List Char) : mark ∉ (partitionAt mark text).1 := by
  intro h
  simpa using List.mem_takeWhile_imp h

theorem partitionAt_subset (mark : Char) (text : List Char) :
    (∀ c ∈ (partitionAt mark text).1, c ∈ text) ∧ ∀ c ∈ (partitionAt mark text).2, c ∈ text :=
  ⟨fun _ hc => (List.takeWhile_prefix _).subset hc,
    fun _ hc => (List.dropWhile_suffix _).subset (List.mem_of_mem_drop hc)⟩

/-- The parts of an HTTP(S) URL. -/
structure Written (netloc : String) (path query : List Char) : Prop where
  netloc_chars : ∀ c ∈ netloc.toList, isNetlocChar c = true ∧ isUrlChar c = true
  path_chars : ∀ c ∈ path, c ≠ '?' ∧ c ≠ '#' ∧ isUrlChar c = true
  slash : ∀ c ∈ path.head?, c = '/'
  query_chars : ∀ c ∈ query, c ≠ '#' ∧ isUrlChar c = true

section
variable {scheme netloc : String} {path query : List Char}

theorem urlunparse_eq (h : Written netloc path query) : urlunparse scheme netloc path query =
    scheme.toList ++ ':' :: '/' :: '/' :: (netloc.toList ++ (path ++ if query = [] then [] else
      '?' :: query)) := by
  have hslash : ¬(path ≠ [] ∧ path.head? ≠ some '/') := by
    rintro ⟨hne, hhead⟩
    obtain ⟨c, rest, rfl⟩ := List.exists_cons_of_ne_nil hne
    exact hhead (congrArg some (h.slash c rfl))
  rw [urlunparse, if_neg hslash]
  simp only [List.append_assoc, List.cons_append, List.nil_append]

theorem splitScheme_of (hscheme : scheme ∈ ["http", "https"]) (rest : List Char) :
    splitScheme (scheme.toList ++ ':' :: rest) = (scheme, rest) := by
  have hword : ':' ∉ scheme.toList ∧ scheme.toList.head?.any Char.isAlpha = true ∧
      scheme.toList.all isSchemeChar = true ∧ scheme.toList.map Char.toLower = scheme.toList := by
    rcases List.mem_cons.mp hscheme with rfl | hscheme
    · decide
    · obtain rfl := List.mem_singleton.mp hscheme
      decide
  obtain ⟨hcolon, hhead, hall, hlower⟩ := hword
  have hmem : ':' ∈ scheme.toList ++ ':' :: rest := by simp
  rw [splitScheme, partitionAt_append hcolon]
  dsimp only
  rw [if_pos ⟨hmem, hhead, hall⟩, hlower, String.ofList_toList]

theorem splitNetloc_of (hnetloc : ∀ c ∈ netloc.toList, isNetlocChar c = true) {rest : List Char}
    (hrest : ∀ c ∈ rest.head?, isNetlocChar c = false) :
    splitNetloc ('/' :: '/' :: (netloc.toList ++ rest)) = (netloc, rest) := by
  have htake : rest.takeWhile isNetlocChar = [] := by
    cases rest with
    | nil => rfl
    | cons c rest => rw [List.takeWhile_cons_of_neg (by simp [hrest c rfl])]
  have hdrop : rest.dropWhile isNetlocChar = rest := by
    cases rest with
    | nil => rfl
    | cons c rest => rw [List.dropWhile_cons_of_neg (by simp [hrest c rfl])]
  show (String.ofList ((netloc.toList ++ rest).takeWhile isNetlocChar),
    (netloc.toList ++ rest).dropWhile isNetlocChar) = _
  rw [List.takeWhile_append_of_pos hnetloc, List.dropWhile_append_of_pos hnetloc, htake, hdrop,
    List.append_nil, String.ofList_toList]

/-- **A URL is split as it was put together.** -/
theorem splitUrl_urlunparse (hscheme : scheme ∈ ["http", "https"]) (h : Written netloc path query) :
    splitUrl (urlunparse scheme netloc path query) = ⟨scheme, netloc, path, query, []⟩ := by
  have hchars : ∀ c ∈ urlunparse scheme netloc path query, isUrlChar c = true := by
    have hword : scheme.toList.all isUrlChar = true := by
      rcases List.mem_cons.mp hscheme with rfl | hscheme
      · decide
      · obtain rfl := List.mem_singleton.mp hscheme
        decide
    intro c hc
    rw [urlunparse_eq h] at hc
    simp only [List.mem_append, List.mem_cons] at hc
    rcases hc with hc | rfl | rfl | rfl | hc | hc | hc
    · exact List.all_eq_true.mp hword c hc
    · decide
    · decide
    · decide
    · exact (h.netloc_chars c hc).2
    · exact (h.path_chars c hc).2.2
    · split_ifs at hc
      · cases hc
      · rcases List.mem_cons.mp hc with rfl | hc
        · decide
        · exact (h.query_chars c hc).2
  have hclean : ((urlunparse scheme netloc path query).dropWhile (· ≤ ' ')).filter isUrlChar =
      urlunparse scheme netloc path query := by
    have hhead : (urlunparse scheme netloc path query).dropWhile (· ≤ ' ') =
        urlunparse scheme netloc path query := by
      rw [urlunparse_eq h]
      rcases List.mem_cons.mp hscheme with rfl | hscheme
      · rfl
      · obtain rfl := List.mem_singleton.mp hscheme
        rfl
    rw [hhead, List.filter_eq_self]
    exact hchars
  have hrest : ∀ c ∈ (path ++ if query = [] then [] else '?' :: query).head?, isNetlocChar c =
    false := by
    intro c hc
    cases path with
    | nil =>
      rw [List.nil_append] at hc
      split_ifs at hc
      · cases hc
      · obtain rfl := Option.some.inj hc
        rfl
    | cons d path =>
      obtain rfl := Option.some.inj hc
      rw [h.slash d rfl]
      rfl
  have hfragment : partitionAt '#' (path ++ if query = [] then [] else '?' :: query) =
      (path ++ if query = [] then [] else '?' :: query, []) := by
    refine partitionAt_of_not_mem fun hmem => ?_
    rcases List.mem_append.mp hmem with hmem | hmem
    · exact (h.path_chars _ hmem).2.1 rfl
    · split_ifs at hmem
      · cases hmem
      · rcases List.mem_cons.mp hmem with heq | hmem
        · exact absurd heq (by decide)
        · exact (h.query_chars _ hmem).1 rfl
  have hquestion : '?' ∉ path := fun hmem => (h.path_chars _ hmem).1 rfl
  have hquery : partitionAt '?' (path ++ if query = [] then [] else '?' :: query) = (path, query) := by
    split_ifs with hnil
    · rw [List.append_nil, partitionAt_of_not_mem hquestion, hnil]
    · exact partitionAt_append hquestion query
  have hscheme' := splitScheme_of hscheme ('/' :: '/' :: (netloc.toList ++ (path ++ if query = [] then []
    else '?' :: query)))
  have hnetloc := splitNetloc_of (fun c hc => (h.netloc_chars c hc).1) hrest
  rw [splitUrl, hclean, urlunparse_eq h, hscheme']
  dsimp only
  rw [hnetloc]
  dsimp only
  rw [hfragment]
  dsimp only
  rw [hquery]

end

theorem urlunparse_injective {scheme scheme' netloc netloc' : String}
    {path path' query query' : List Char}
    (hscheme : scheme ∈ ["http", "https"]) (hscheme' : scheme' ∈ ["http", "https"])
    (h : Written netloc path query) (h' : Written netloc' path' query')
    (heq : urlunparse scheme netloc path query = urlunparse scheme' netloc' path' query') :
    scheme = scheme' ∧ netloc = netloc' ∧ path = path' ∧ query = query' := by
  have hsplit := congrArg splitUrl heq
  rw [splitUrl_urlunparse hscheme h, splitUrl_urlunparse hscheme' h'] at hsplit
  simpa using hsplit

/-! ## What is split -/

theorem splitNetloc_clean (url : List Char) :
    (∀ c ∈ (splitNetloc url).1.toList, isNetlocChar c = true ∧ c ∈ url) ∧
      (∀ c ∈ (splitNetloc url).2, c ∈ url) ∧
        ((splitNetloc url).1 ≠ "" → ∀ c ∈ (splitNetloc url).2.head?, isNetlocChar c = false) := by
  unfold splitNetloc
  split_ifs
  · refine ⟨fun c hc => ?_, fun c hc => ?_, fun _ c hc => ?_⟩
    · rw [String.toList_ofList] at hc
      exact ⟨List.mem_takeWhile_imp hc, List.mem_of_mem_drop ((List.takeWhile_prefix _).subset hc)⟩
    · exact List.mem_of_mem_drop ((List.dropWhile_suffix _).subset hc)
    · have hne : (url.drop 2).dropWhile isNetlocChar ≠ [] := by
        intro hnil
        rw [hnil] at hc
        cases hc
      rw [List.head?_eq_some_head hne, Option.mem_some_iff] at hc
      rw [← hc]
      simpa using List.head_dropWhile_not isNetlocChar hne
  · exact ⟨fun c hc => absurd hc List.not_mem_nil, fun c hc => hc, fun h => absurd rfl h⟩

theorem head?_partitionAt {mark c : Char} {text : List Char} (h : c ∈ (partitionAt mark text).1.head?) :
    c ∈ text.head? ∧ c ≠ mark := by
  cases text with
  | nil => cases h
  | cons d text =>
    by_cases hd : d = mark
    · rw [partitionAt, List.takeWhile_cons_of_neg (by simp [hd])] at h
      cases h
    · rw [partitionAt, List.takeWhile_cons_of_pos (by simp [hd])] at h
      obtain rfl := Option.some.inj h
      exact ⟨rfl, hd⟩

/-- The parts of a URL are without the marks that end them, and what follows a network location begins
with a slash. -/
theorem splitUrl_clean (text : List Char) :
    (∀ c ∈ (splitUrl text).netloc.toList, isNetlocChar c = true ∧ isUrlChar c = true) ∧
      (∀ c ∈ (splitUrl text).path, c ≠ '?' ∧ c ≠ '#' ∧ isUrlChar c = true) ∧
        ((splitUrl text).netloc ≠ "" → ∀ c ∈ (splitUrl text).path.head?, c = '/') := by
  have hscheme : ∀ c ∈ (splitScheme ((text.dropWhile (· ≤ ' ')).filter isUrlChar)).2,
      isUrlChar c = true := by
    intro c hc
    have hmem : c ∈ (text.dropWhile (· ≤ ' ')).filter isUrlChar := by
      unfold splitScheme at hc
      dsimp only at hc
      split_ifs at hc
      · exact (partitionAt_subset _ _).2 c hc
      · exact hc
    exact (List.mem_filter.mp hmem).2
  unfold splitUrl
  dsimp only
  generalize splitScheme ((text.dropWhile (· ≤ ' ')).filter isUrlChar) = url at hscheme
  obtain ⟨hnetloc, hrest, hhead⟩ := splitNetloc_clean url.2
  refine ⟨fun c hc => ⟨(hnetloc c hc).1, hscheme c (hnetloc c hc).2⟩, fun c hc => ?_, fun hne c hc => ?_⟩
  · have hfragment := (partitionAt_subset _ _).1 c hc
    refine ⟨fun heq => ?_, fun heq => ?_, hscheme c (hrest c ((partitionAt_subset _ _).1 c hfragment))⟩
    · exact not_mem_partitionAt '?' _ (heq ▸ hc)
    · exact not_mem_partitionAt '#' _ (heq ▸ hfragment)
  · obtain ⟨hfragment, hquestion⟩ := head?_partitionAt hc
    obtain ⟨hpath, hhash⟩ := head?_partitionAt hfragment
    have hmark := hhead hne c hpath
    simp only [isNetlocChar, Bool.not_eq_false', List.elem_eq_mem, decide_eq_true_eq, List.mem_cons,
      List.not_mem_nil, or_false] at hmark
    tauto

theorem splitParams_prefix (path : List Char) : (splitParams path).1 <+: path := by
  have hpath := List.rdropWhile_append_rtakeWhile (p := (· ≠ '/')) (l := path)
  conv_rhs => rw [← hpath]
  exact (List.prefix_append_right_inj _).mpr (List.takeWhile_prefix _)

theorem splitParams_eq_self_iff (path : List Char) :
    (splitParams path).1 = path ↔ ';' ∉ lastSegment path := by
  have hpath : path.rdropWhile (· ≠ '/') ++ lastSegment path = path :=
    List.rdropWhile_append_rtakeWhile (p := (· ≠ '/')) (l := path)
  constructor
  · intro h hmem
    have hsame : (partitionAt ';' (lastSegment path)).1 = lastSegment path :=
      List.append_cancel_left (h.trans hpath.symm)
    exact not_mem_partitionAt ';' _ (hsame.symm ▸ hmem)
  · intro h
    show path.rdropWhile (· ≠ '/') ++ (partitionAt ';' (lastSegment path)).1 = path
    rw [partitionAt_of_not_mem h, hpath]

variable {path : List Char}

theorem splitParams_ne_nil (h : path.head? = some '/') : (splitParams path).1 ≠ [] := by
  intro hnil
  have hkept : path.rdropWhile (· ≠ '/') = [] := (List.append_eq_nil_iff.mp hnil).1
  have hall := List.rdropWhile_eq_nil_iff.mp hkept '/' (List.mem_of_mem_head? h)
  simp at hall

/-! ## Network locations -/

def urlMarks : List Char := ['/', '?', '#', '@', '[', ']', ':', '\t', '\r', '\n']

/-- What is documented of texts: what has ink is no space, a text is in lower case iff its characters
are, and no mark comes from a letter. -/
structure UrlEnv.Documented (env : UrlEnv) : Prop where
  ink : ∀ c, '!' ≤ c → c ≤ '~' → env.isSpace c = false
  lower_lower : ∀ text, env.lower (env.lower text) = env.lower text
  lower_eq_self : ∀ text, env.lower text = text ↔
    ∀ c ∈ text.toList, env.lower (String.singleton c) = String.singleton c
  lower_marks : ∀ text, ∀ c ∈ (env.lower text).toList, c ∈ urlMarks → c ∈ text.toList
  decodes : Decodes env.decode

/-- The host in lower case, without one `www.`. -/
def UrlEnv.domain (env : UrlEnv) (netloc : String) : String := withoutWww (env.host netloc)

def UrlEnv.netlocText (env : UrlEnv) (scheme netloc : String) : String :=
  env.domain netloc ++ portText (keptPort scheme (port netloc).join)

theorem hostinfo_subset {netloc : String} {c : Char} (h : c ∈ (hostinfo netloc).1) :
    c ∈ netloc.toList ∧ c ≠ '@' := by
  have hinfo : c ∈ netloc.toList.rtakeWhile (· ≠ '@') := by
    unfold hostinfo at h
    dsimp only at h
    split_ifs at h
    · exact (List.dropWhile_suffix _).subset (List.mem_of_mem_drop ((List.takeWhile_prefix _).subset h))
    · exact (List.takeWhile_prefix _).subset h
  exact ⟨(List.rtakeWhile_suffix _ _).subset hinfo, by simpa using List.mem_rtakeWhile_imp hinfo⟩

theorem hostinfo_brackets {netloc : String} (hopen : '[' ∈ (hostinfo netloc).1) :
    ']' ∉ (hostinfo netloc).1 := by
  intro hclose
  unfold hostinfo at hopen hclose
  dsimp only at hopen hclose
  split_ifs at hopen hclose with hinfo
  · simpa using List.mem_takeWhile_imp hclose
  · exact hinfo ((List.takeWhile_prefix _).subset hopen)

section
variable {env : UrlEnv} {scheme netloc : String}

variable {c : Char} {o : Option Nat}

theorem withoutWww_subset {text : String} (h : c ∈ (withoutWww text).toList) : c ∈ text.toList := by
  unfold withoutWww at h
  split_ifs at h
  · rw [String.toList_ofList] at h
    exact List.mem_of_mem_drop h
  · exact h

theorem withoutWww_eq_self_iff {text : String} :
    withoutWww text = text ↔ startsWith "www." text = false := by
  unfold withoutWww
  split_ifs with h
  · refine iff_of_false (fun heq => ?_) (by simp [h])
    have hlength := congrArg (List.length ∘ String.toList) heq
    have hstart := (List.isPrefixOf_iff_prefix.mp h).length_le
    have hfour : "www.".toList.length = 4 := rfl
    simp only [Function.comp, String.toList_ofList, List.length_drop] at hlength
    omega
  · exact iff_of_true rfl (by simpa using h)

theorem mark_of_domain (henv : env.Documented) (h : c ∈ (env.domain netloc).toList)
    (hc : c ∈ urlMarks) : c ∈ (hostinfo netloc).1 := by
  have hhost := henv.lower_marks _ c (withoutWww_subset h) hc
  unfold hostname at hhost
  dsimp only at hhost
  split_ifs at hhost
  · cases hhost
  · rw [Option.getD_some, String.toList_append, List.mem_append, String.toList_ofList] at hhost
    rcases hhost with hhost | hhost
    · have hsmall := henv.lower_marks _ c hhost hc
      rw [String.toList_ofList] at hsmall
      exact (List.takeWhile_prefix _).subset hsmall
    · exact (List.dropWhile_suffix _).subset hhost

theorem small_of_domain (henv : env.Documented) (h : c ∈ (env.domain netloc).toList) :
    env.lower (String.singleton c) = String.singleton c :=
  (henv.lower_eq_self _).mp (henv.lower_lower _) c (withoutWww_subset h)

theorem mem_portText (h : c ∈ (portText o).toList) : c = ':' ∨ c.isDigit = true := by
  cases o with
  | none => cases h
  | some n =>
    rw [portText, String.toList_append, List.mem_append] at h
    rcases h with h | h
    · exact .inl (by simpa using h)
    · rw [Nat.repr, String.toList_ofList] at h
      exact .inr (@Nat.isDigit_of_mem_toDigits 10 n c (by decide) (by decide) h)

theorem hostinfo_plain (hat : '@' ∉ netloc.toList) (hopen : '[' ∉ netloc.toList) :
    hostinfo netloc = partitionAt ':' netloc.toList := by
  have hinfo : netloc.toList.rtakeWhile (· ≠ '@') = netloc.toList :=
    rtakeWhile_eq_self fun c hc => decide_eq_true fun heq => hat (heq ▸ hc)
  unfold hostinfo
  dsimp only
  rw [hinfo, if_neg hopen, partitionAt]

theorem host_plain (henv : env.Documented) {host rest : List Char}
    (hinfo : hostinfo netloc = (host, rest))
    (hsmall : ∀ c ∈ host, env.lower (String.singleton c) = String.singleton c) :
    env.host netloc = String.ofList host := by
  have hpart : ∀ {text : List Char}, (∀ c ∈ text, c ∈ host) →
      env.lower (String.ofList text) = String.ofList text := by
    intro text htext
    refine (henv.lower_eq_self _).mpr fun c hc => hsmall c (htext c ?_)
    rwa [String.toList_ofList] at hc
  have hname : (hostname env.lower netloc).getD "" = String.ofList host := by
    rw [hostname, hinfo]
    dsimp only
    split_ifs with hnil
    · rw [hnil]
      rfl
    · rw [hpart fun c hc => (List.takeWhile_prefix _).subset hc, Option.getD_some,
        ← String.ofList_append, List.takeWhile_append_dropWhile]
  rw [UrlEnv.host, hname, hpart fun c hc => hc]

theorem read_digits (n : Nat) : (Nat.repr n).toList ≠ [] ∧ (Nat.repr n).toList.all Char.isDigit = true ∧
    (Nat.repr n).toList.foldl (fun n c => 10 * n + (c.toNat - '0'.toNat)) 0 = n := by
  rw [Nat.repr, String.toList_ofList]
  refine ⟨Nat.toDigits_ne_nil, ?_, ?_⟩
  · exact List.all_eq_true.mpr fun c hc =>
      @Nat.isDigit_of_mem_toDigits 10 n c (by decide) (by decide) hc
  · rw [← Nat.ofDigitChars_eq_foldl]
    exact Nat.ofDigitChars_ten_toDigits

theorem toList_portText (n : Nat) : (portText (some n)).toList = ':' :: (Nat.repr n).toList := by
  rw [portText, String.toList_append]
  rfl

theorem port_of {host : List Char} (ho : ∀ n ∈ o, n ≤ 65535)
    (hinfo : hostinfo netloc = (host, (portText o).toList.drop 1)) : port netloc = some o := by
  cases o with
  | none =>
    rw [port, hinfo]
    rfl
  | some n =>
    obtain ⟨hne, hdigits, hvalue⟩ := read_digits n
    rw [port, hinfo, toList_portText]
    dsimp only
    rw [List.drop_one, List.tail_cons, hvalue, if_neg hne, if_pos ⟨hdigits, ho n rfl⟩]

theorem port_le (h : port netloc = some o) : ∀ n ∈ o, n ≤ 65535 := by
  unfold port at h
  dsimp only at h
  split_ifs at h with hnil hdigits
  · obtain rfl := Option.some.inj h
    exact fun n hn => absurd hn (Option.not_mem_none n)
  · obtain rfl := Option.some.inj h
    intro n hn
    obtain rfl := Option.some.inj hn
    exact hdigits.2

theorem keptPort_keptPort (o : Option Nat) : keptPort scheme (keptPort scheme o) =
    keptPort scheme o := by
  cases o with
  | none => rfl
  | some n =>
    rw [keptPort]
    split_ifs with h
    · exact if_pos h
    · rfl

theorem mem_keptPort {n : Nat} (h : n ∈ keptPort scheme o) : o = some n := by
  cases o with
  | none => cases h
  | some m =>
    rw [keptPort] at h
    split_ifs at h
    · exact h
    · cases h

theorem canonicalHost_plain (henv : env.Documented) {name : String} {o : Option Nat}
    (ho : ∀ n ∈ o, n ≤ 65535) (hat : '@' ∉ name.toList) (hopen : '[' ∉ name.toList)
    (hcolon : ':' ∉ name.toList)
    (hsmall : ∀ c ∈ name.toList, env.lower (String.singleton c) = String.singleton c) :
    canonicalHost env scheme (name ++ portText o) =
      some (withoutWww name ++ portText (keptPort scheme o)) := by
  have hfree : '@' ∉ (name ++ portText o).toList ∧ '[' ∉ (name ++ portText o).toList := by
    rw [String.toList_append, List.mem_append, List.mem_append]
    exact ⟨fun h => h.elim hat fun h => (portText_plain h).1 rfl,
      fun h => h.elim hopen fun h => (portText_plain h).2 rfl⟩
  have hinfo : hostinfo (name ++ portText o) = (name.toList, (portText o).toList.drop 1) := by
    rw [hostinfo_plain hfree.1 hfree.2, String.toList_append]
    cases o with
    | none =>
      show partitionAt ':' (name.toList ++ []) = (name.toList, [])
      rw [List.append_nil, partitionAt_of_not_mem hcolon]
    | some n => rw [toList_portText, partitionAt_append hcolon, List.drop_one, List.tail_cons]
  rw [canonicalHost, port_of ho hinfo, host_plain henv hinfo hsmall, String.ofList_toList]
  rfl

variable (env scheme netloc) in
/-- A network location stays once it is canonical: its host has not two `www.`, it is accepted without
a user, and it was in no brackets, unless these held a name and a port. -/
structure NetlocSettled : Prop where
  named : env.domain netloc ≠ "" ∨ (keptPort scheme (port netloc).join).isSome
  once : startsWith "www." (env.domain netloc) = false
  accepted : env.netlocOk (env.netlocText scheme netloc) = true
  bare : ∀ c ∈ ['[', ']'], c ∉ (env.domain netloc).toList
  colon : ':' ∉ (env.domain netloc).toList ∨ keptPort scheme (port netloc).join = none ∧
    ∃ name n, env.domain netloc = name ++ portText (some n) ∧ ':' ∉ name.toList ∧ n ≤ 65535 ∧
      keptPort scheme (some n) = some n

theorem startsWith_portText {name : String} (n : Nat) :
    startsWith "www." (name ++ portText (some n)) = startsWith "www." name := by
  rw [Bool.eq_iff_iff, startsWith, startsWith, List.isPrefixOf_iff_prefix, List.isPrefixOf_iff_prefix,
    String.toList_append, toList_portText]
  constructor
  · intro h
    rcases Nat.lt_or_ge name.toList.length "www.".toList.length with hshort | hlong
    · have hname : name.toList ++ [':'] <+: "www.".toList := by
        refine List.prefix_of_prefix_length_le ?_ h ?_
        · exact (List.prefix_append_right_inj _).mpr ⟨_, rfl⟩
        · rw [List.length_append]
          exact hshort
      exact absurd (hname.subset (List.mem_append_right _ List.mem_cons_self)) (by decide)
    · exact List.prefix_of_prefix_length_le h (List.prefix_append _ _) hlong
  · exact fun h => h.trans (List.prefix_append _ _)

theorem at_of_domain (henv : env.Documented) : '@' ∉ (env.domain netloc).toList := fun h =>
  (hostinfo_subset (mark_of_domain henv h (by decide))).2 rfl

theorem length_portText (n : Nat) : 0 < (portText (some n)).length := by
  rw [portText, String.length_append]
  exact Nat.lt_of_lt_of_le Nat.one_pos (Nat.le_add_right _ _)

theorem withoutWww_length_le (text : String) : (withoutWww text).length ≤ text.length := by
  unfold withoutWww
  split_ifs
  · rw [String.length_ofList, List.length_drop, String.length_toList]
    omega
  · exact le_rfl

theorem mem_netlocText_iff (hc : c ∈ ['[', ']']) :
    c ∈ (env.netlocText scheme netloc).toList ↔ c ∈ (env.domain netloc).toList := by
  rw [UrlEnv.netlocText, String.toList_append, List.mem_append, or_iff_left]
  intro h
  rcases mem_portText h with rfl | hdigit
  · exact absurd hc (by decide)
  · rcases List.mem_cons.mp hc with rfl | hc
    · exact absurd hdigit (by decide)
    · rw [List.mem_singleton.mp hc] at hdigit
      exact absurd hdigit (by decide)

theorem canonicalHost_colon (henv : env.Documented) {name : String} {rest : List Char}
    {text result : String} (htext : text.toList = name.toList ++ ':' :: rest)
    (hfree : '@' ∉ text.toList ∧ '[' ∉ text.toList) (hcolon : ':' ∉ name.toList)
    (hsmall : ∀ c ∈ name.toList, env.lower (String.singleton c) = String.singleton c)
    (h : canonicalHost env scheme text = some result) :
    ∃ o, result = withoutWww name ++ portText (keptPort scheme o) ∧ (∀ c ∈ rest, c.isDigit = true) ∧
      ∀ n ∈ o, n ≤ 65535 := by
  have hinfo : hostinfo text = (name.toList, rest) := by
    rw [hostinfo_plain hfree.1 hfree.2, htext, partitionAt_append hcolon]
  obtain ⟨o, ho, rfl⟩ := Option.map_eq_some_iff.mp h
  refine ⟨o, ?_, fun c hc => ?_, port_le ho⟩
  · rw [host_plain henv hinfo hsmall, String.ofList_toList]
  · rw [port, hinfo] at ho
    dsimp only at ho
    split_ifs at ho with hnil hdigits
    · rw [hnil] at hc
      cases hc
    · exact List.all_eq_true.mp hdigits.1 c hc

theorem stays_of_settled (henv : env.Documented) (h : NetlocSettled env scheme netloc)
    (hport : ∀ n ∈ keptPort scheme (port netloc).join, n ≤ 65535) :
    env.accepts (env.netlocText scheme netloc) = true ∧ env.netlocText scheme netloc ≠ "" ∧
      canonicalHost env scheme (env.netlocText scheme netloc) = some (env.netlocText scheme netloc) := by
  have hopen : '[' ∉ (env.domain netloc).toList := h.bare '[' (by decide)
  have hclose : ']' ∉ (env.domain netloc).toList := h.bare ']' (by decide)
  have hsmall : ∀ c ∈ (env.domain netloc).toList, env.lower (String.singleton c) = String.singleton c :=
    fun c => small_of_domain henv
  refine ⟨?_, fun hempty => ?_, ?_⟩
  · rw [UrlEnv.accepts, Bool.and_eq_true, decide_eq_true_eq, decide_eq_decide,
      mem_netlocText_iff (by decide), mem_netlocText_iff (by decide)]
    exact ⟨iff_of_false hopen hclose, h.accepted⟩
  · have hlength := congrArg String.length hempty
    rw [UrlEnv.netlocText, String.length_append] at hlength
    rcases h.named with hname | hkept
    · refine hname (String.length_eq_zero_iff.mp ?_)
      exact Nat.eq_zero_of_add_eq_zero_right hlength
    · obtain ⟨n, hn⟩ := Option.isSome_iff_exists.mp hkept
      rw [hn] at hlength
      exact absurd (Nat.eq_zero_of_add_eq_zero_left hlength) (length_portText n).ne'
  · rcases h.colon with hcolon | ⟨hnone, name, n, hname, hcolon, hle, hkept⟩
    · rw [UrlEnv.netlocText, canonicalHost_plain henv hport (at_of_domain henv) hopen hcolon hsmall,
        keptPort_keptPort, withoutWww_eq_self_iff.mpr h.once]
    · have hsub : ∀ c ∈ name.toList, c ∈ (env.domain netloc).toList := by
        intro c hc
        rw [hname, String.toList_append]
        exact List.mem_append_left _ hc
      have hsame : env.netlocText scheme netloc = name ++ portText (some n) := by
        rw [UrlEnv.netlocText, hnone, hname]
        exact String.append_empty
      have honce : startsWith "www." name = false := by
        rw [← startsWith_portText n, ← hname, h.once]
      rw [hsame, canonicalHost_plain henv (fun m hm => Option.some.inj hm ▸ hle)
        (fun hc => at_of_domain henv (hsub _ hc)) (fun hc => hopen (hsub _ hc)) hcolon
        (fun c hc => hsmall c (hsub c hc)), hkept, withoutWww_eq_self_iff.mpr honce]

/-- A network location that stays and has a colon in its host is a name and a port. -/
theorem colon_of_stays (henv : env.Documented) (hopen : '[' ∉ (env.domain netloc).toList)
    (hcolon : ':' ∈ (env.domain netloc).toList)
    (hfixed : canonicalHost env scheme (env.netlocText scheme netloc) =
      some (env.netlocText scheme netloc)) :
    startsWith "www." (env.domain netloc) = false ∧ keptPort scheme (port netloc).join = none ∧
      ∃ name n, env.domain netloc = name ++ portText (some n) ∧ ':' ∉ name.toList ∧ n ≤ 65535 ∧
        keptPort scheme (some n) = some n := by
  obtain ⟨a, b, hsplit, ha⟩ := List.eq_append_cons_of_mem hcolon
  have hname : (String.ofList a).toList = a := String.toList_ofList
  have htext : (env.netlocText scheme netloc).toList = (String.ofList a).toList ++
      ':' :: (b ++ (portText (keptPort scheme (port netloc).join)).toList) := by
    rw [UrlEnv.netlocText, String.toList_append, hsplit, hname, List.append_assoc, List.cons_append]
  have hfree : '@' ∉ (env.netlocText scheme netloc).toList ∧
      '[' ∉ (env.netlocText scheme netloc).toList := by
    refine ⟨fun h => ?_, fun h => hopen ((mem_netlocText_iff (by decide)).mp h)⟩
    rw [UrlEnv.netlocText, String.toList_append, List.mem_append] at h
    exact h.elim (at_of_domain henv) fun h => (portText_plain h).1 rfl
  have hsmall : ∀ c ∈ (String.ofList a).toList,
      env.lower (String.singleton c) = String.singleton c := by
    intro c hc
    refine @small_of_domain env netloc c henv ?_
    rw [hsplit]
    exact List.mem_append_left _ (hname ▸ hc)
  obtain ⟨o, hresult, hdigits, hle⟩ :=
    canonicalHost_colon henv htext hfree (by rwa [hname]) hsmall hfixed
  -- A second port would not be read.
  have hnone : keptPort scheme (port netloc).join = none := by
    cases hkept : keptPort scheme (port netloc).join with
    | none => rfl
    | some n =>
      rw [hkept, toList_portText] at hdigits
      exact absurd (hdigits ':' (List.mem_append_right _ List.mem_cons_self)) (by decide)
  have hdomain : env.domain netloc = withoutWww (String.ofList a) ++ portText (keptPort scheme o) := by
    rw [← hresult, UrlEnv.netlocText, hnone]
    exact String.append_empty.symm
  cases hkept : keptPort scheme o with
  | none =>
    have hlength := withoutWww_length_le (String.ofList a)
    rw [hkept] at hdomain
    have hsame : withoutWww (String.ofList a) = env.domain netloc := by
      rw [hdomain]
      exact String.append_empty.symm
    rw [hsame, ← String.length_toList, ← String.length_toList, hsplit, hname, List.length_append,
      List.length_cons] at hlength
    omega
  | some n =>
    obtain rfl := mem_keptPort hkept
    rw [hkept] at hdomain
    have hlist := congrArg String.toList hdomain
    rw [hsplit, String.toList_append, toList_portText] at hlist
    have hfirst : ':' ∉ (withoutWww (String.ofList a)).toList := fun h =>
      ha (hname ▸ withoutWww_subset h)
    obtain ⟨hwww, -⟩ := append_sep_inj ha hfirst hlist
    have hsame : withoutWww (String.ofList a) = String.ofList a := by
      rw [← String.toList_inj, hname, ← hwww]
    rw [hsame] at hdomain
    refine ⟨?_, hnone, String.ofList a, n, hdomain, by rwa [hname], hle n rfl, hkept⟩
    rw [hdomain, startsWith_portText]
    exact withoutWww_eq_self_iff.mp hsame

/-- **A network location stays** iff it is settled. -/
theorem netlocSettled_iff (henv : env.Documented) (hport : (port netloc).isSome = true) :
    (env.accepts (env.netlocText scheme netloc) = true ∧ env.netlocText scheme netloc ≠ "" ∧
      canonicalHost env scheme (env.netlocText scheme netloc) = some (env.netlocText scheme netloc)) ↔
        NetlocSettled env scheme netloc := by
  obtain ⟨o, ho⟩ := Option.isSome_iff_exists.mp hport
  have hjoin : (port netloc).join = o := by
    rw [ho]
    rfl
  have hkept : ∀ n ∈ keptPort scheme (port netloc).join, n ≤ 65535 := fun n hn =>
    port_le ho n (hjoin ▸ mem_keptPort hn)
  constructor
  · rintro ⟨haccepts, hne, hfixed⟩
    rw [UrlEnv.accepts, Bool.and_eq_true, decide_eq_true_eq, decide_eq_decide,
      mem_netlocText_iff (by decide), mem_netlocText_iff (by decide)] at haccepts
    have hopen : '[' ∉ (env.domain netloc).toList := by
      intro hopen
      refine hostinfo_brackets (mark_of_domain henv hopen (by decide)) ?_
      exact mark_of_domain henv (haccepts.1.mp hopen) (by decide)
    have hbare : ∀ c ∈ ['[', ']'], c ∉ (env.domain netloc).toList := by
      intro c hc
      rcases List.mem_cons.mp hc with rfl | hc
      · exact hopen
      · rw [List.mem_singleton.mp hc]
        exact fun hclose => hopen (haccepts.1.mpr hclose)
    have hnamed : env.domain netloc ≠ "" ∨ (keptPort scheme (port netloc).join).isSome := by
      by_contra hnone
      obtain ⟨hname, hport⟩ := not_or.mp hnone
      refine hne ?_
      rw [UrlEnv.netlocText, not_not.mp hname, Option.not_isSome_iff_eq_none.mp hport]
      rfl
    by_cases hcolon : ':' ∈ (env.domain netloc).toList
    · obtain ⟨honce, hnone, hname⟩ := colon_of_stays henv hopen hcolon hfixed
      exact ⟨hnamed, honce, haccepts.2, hbare, .inr ⟨hnone, hname⟩⟩
    · rw [UrlEnv.netlocText, canonicalHost_plain henv hkept (at_of_domain henv) hopen hcolon
        (fun c => small_of_domain henv), keptPort_keptPort, Option.some.injEq, String.append_left_inj]
        at hfixed
      exact ⟨hnamed, withoutWww_eq_self_iff.mp hfixed, haccepts.2, hbare, .inl hcolon⟩
  · exact fun h => stays_of_settled henv h hkept

end

/-! ## Paths -/

def barePath (path : List Char) : List Char := path.rdropWhile (· = '/')

/-- A path stays once it is canonical: it has not slashes alone, its last segment has no parameters
when a slash follows, and without a query it does not end in a space. -/
structure PathSettled (env : UrlEnv) (path query : List Char) : Prop where
  kept : path.length ≤ 1 ∨ barePath path ≠ []
  plain : ';' ∉ lastSegment (barePath path)
  inked : env.keptQuery query = [] → ∀ c ∈ (barePath path).getLast?, env.isSpace c = false

theorem slash_or_nil (h : ∀ c ∈ path.head?, c = '/') (hlength : path.length ≤ 1) :
    path = [] ∨ path = ['/'] := by
  rcases path with _ | ⟨c, _ | ⟨d, path⟩⟩
  · exact .inl rfl
  · rw [h c rfl]
    exact .inr rfl
  · exact absurd hlength (by simp)

theorem canonicalPath_eq (h : ∀ c ∈ path.head?, c = '/') :
    canonicalPath path = if path.length ≤ 1 then ['/'] else barePath path := by
  split_ifs with hlength
  · rcases slash_or_nil h hlength with rfl | rfl
    · rfl
    · rfl
  · have hne : path ≠ [] := by
      rintro rfl
      exact hlength (Nat.zero_le 1)
    have hroot : path ≠ ['/'] := by
      rintro rfl
      exact hlength le_rfl
    rw [canonicalPath, if_neg hne]
    split_ifs with hlast
    · rfl
    · refine (rdropWhile_eq_self_iff_last.mpr fun c hc => ?_).symm
      refine decide_eq_false fun heq => hlast ⟨hroot, ?_⟩
      rw [← heq]
      exact hc

theorem head_of_start {a b : List Char} (h : a <+: b) (hslash : ∀ c ∈ b.head?, c = '/') :
    ∀ c ∈ a.head?, c = '/' := by
  intro c hc
  obtain ⟨rest, rfl⟩ := h
  exact hslash c (List.mem_head?_append_of_mem_head? hc)

theorem canonicalPath_length_le (h : ∀ c ∈ path.head?, c = '/') (hne : path ≠ []) :
    (canonicalPath path).length ≤ path.length := by
  rw [canonicalPath_eq h]
  split_ifs
  · exact List.length_pos_iff.mpr hne
  · exact (List.rdropWhile_prefix _ _).length_le

theorem canonicalPath_clean {p : Char → Prop} (hslash : p '/')
    (h : ∀ c ∈ path, p c) : ∀ c ∈ canonicalPath path, p c := by
  have hroot : ∀ c ∈ if path = [] then ['/'] else path, p c := by
    split_ifs
    · intro c hc
      rwa [List.mem_singleton.mp hc]
    · exact h
  unfold canonicalPath
  generalize (if path = [] then ['/'] else path) = path at hroot
  dsimp only
  split_ifs
  · exact fun c hc => hroot c ((List.rdropWhile_prefix _ _).subset hc)
  · exact hroot

theorem barePath_length (h : ∀ c ∈ path.head?, c = '/') (hne : barePath path ≠ []) :
    1 < (barePath path).length := by
  by_contra hshort
  rcases slash_or_nil (head_of_start (List.rdropWhile_prefix _ _) h) (Nat.not_lt.mp hshort) with
    hnil | hroot
  · exact hne hnil
  · have hlast := List.rdropWhile_last_not (· = '/') path hne
    simp only [show path.rdropWhile (· = '/') = ['/'] from hroot] at hlast
    exact hlast (by simp)

section
variable {env : UrlEnv} {path query : List Char}

theorem canonicalQuery_eq_nil_iff : canonicalQuery env query = [] ↔ env.keptQuery query = [] := by
  have hsort : sortQuery (env.keptQuery query) = [] ↔ env.keptQuery query = [] := by
    rw [← List.length_eq_zero_iff, ← List.length_eq_zero_iff, sortQuery, List.length_insertionSort]
  rw [← hsort, canonicalQuery]
  constructor
  · intro h
    rcases hpairs : sortQuery (env.keptQuery query) with _ | ⟨pair, pairs⟩
    · rfl
    · rw [hpairs] at h
      have hmem : '=' ∈ urlencode (pair :: pairs) := by
        have hfield : '=' ∈ writeField pair := List.mem_append_right _ List.mem_cons_self
        cases pairs with
        | nil =>
          rw [urlencode, List.map_singleton, List.intercalate_singleton]
          exact hfield
        | cons next pairs =>
          rw [urlencode, List.map_cons, List.map_cons, List.intercalate_cons_cons]
          exact List.mem_append_left _ (List.mem_append_left _ hfield)
      rw [h] at hmem
      cases hmem
  · intro h
    rw [h]
    rfl

/-- The path of a canonical URL as it is read again: without spaces at its end, if no query follows. -/
def UrlEnv.pathRead (env : UrlEnv) (path query : List Char) : List Char :=
  if query = [] then path.rdropWhile env.isSpace else path

theorem pathRead_starts : env.pathRead path query <+: path := by
  unfold UrlEnv.pathRead
  split_ifs
  · exact List.rdropWhile_prefix _ _
  · exact List.prefix_rfl

theorem pathRead_ne_nil (henv : env.Documented) (h : path.head? = some '/') :
    env.pathRead path query ≠ [] := by
  unfold UrlEnv.pathRead
  split_ifs
  · intro hnil
    have hall := List.rdropWhile_eq_nil_iff.mp hnil '/' (List.mem_of_mem_head? h)
    rw [henv.ink '/' (by decide) (by decide)] at hall
    cases hall
  · rintro rfl
    cases h

theorem head?_of_ne_nil (hslash : ∀ c ∈ path.head?, c = '/') (hne : path ≠ []) :
    path.head? = some '/' := by
  obtain ⟨c, rest, rfl⟩ := List.exists_cons_of_ne_nil hne
  rw [List.head?_cons, hslash c rfl]

/-- **A path stays** iff it is settled. -/
theorem pathSettled_iff (henv : env.Documented) (hslash : ∀ c ∈ path.head?, c = '/') :
    (canonicalPath path ≠ [] ∧
      canonicalPath (splitParams (env.pathRead (canonicalPath path) (canonicalQuery env query))).1 =
        canonicalPath path) ↔ PathSettled env path query := by
  by_cases hlength : path.length ≤ 1
  · have hroot : canonicalPath path = ['/'] := by rw [canonicalPath_eq hslash, if_pos hlength]
    have hread : env.pathRead ['/'] (canonicalQuery env query) = ['/'] := by
      refine pathRead_starts.eq_of_length_le ?_
      exact List.length_pos_iff.mpr (pathRead_ne_nil henv rfl)
    have hbare : barePath path = [] := by
      rcases slash_or_nil hslash hlength with rfl | rfl
      · rfl
      · rfl
    rw [hroot, hread]
    refine iff_of_true ⟨List.cons_ne_nil _ _, rfl⟩ ⟨.inl hlength, ?_, fun _ c hc => ?_⟩
    · rw [hbare]
      exact List.not_mem_nil
    · rw [hbare] at hc
      cases hc
  · have hcanonical : canonicalPath path = barePath path := by
      rw [canonicalPath_eq hslash, if_neg hlength]
    have hhead : ∀ c ∈ (barePath path).head?, c = '/' :=
      head_of_start (List.rdropWhile_prefix _ _) hslash
    rw [hcanonical]
    constructor
    · rintro ⟨hne, hsame⟩
      have hread := @pathRead_starts env (barePath path) (canonicalQuery env query)
      have hread_ne := @pathRead_ne_nil env (barePath path) (canonicalQuery env query) henv
        (head?_of_ne_nil hhead hne)
      have hparams := splitParams_prefix (env.pathRead (barePath path) (canonicalQuery env query))
      have hparams_ne := splitParams_ne_nil (head?_of_ne_nil (head_of_start hread hhead) hread_ne)
      have hle := canonicalPath_length_le (head_of_start (hparams.trans hread) hhead) hparams_ne
      rw [hsame] at hle
      have hsplit := hparams.eq_of_length_le (hread.length_le.trans hle)
      have hwhole := hread.eq_of_length_le (hle.trans hparams.length_le)
      rw [hwhole, splitParams_eq_self_iff] at hsplit
      refine ⟨.inr hne, hsplit, fun hquery => ?_⟩
      rw [UrlEnv.pathRead, if_pos (canonicalQuery_eq_nil_iff.mpr hquery)] at hwhole
      exact rdropWhile_eq_self_iff_last.mp hwhole
    · intro h
      have hne : barePath path ≠ [] := h.kept.resolve_left hlength
      have hread : env.pathRead (barePath path) (canonicalQuery env query) = barePath path := by
        unfold UrlEnv.pathRead
        split_ifs with hquery
        · exact rdropWhile_eq_self_iff_last.mpr (h.inked (canonicalQuery_eq_nil_iff.mp hquery))
        · rfl
      refine ⟨hne, ?_⟩
      rw [hread, (splitParams_eq_self_iff _).mpr h.plain, canonicalPath_eq hhead,
        if_neg (Nat.not_le.mpr (barePath_length hslash hne))]
      exact List.rdropWhile_idempotent _ _

end

/-! ## Canonical again -/

section
variable {env : UrlEnv} {scheme netloc : String} {path query : List Char}

variable {c : Char}

theorem mem_urlencode {pairs : List (String × String)} (h : c ∈ urlencode pairs) :
    isQuoted c = true ∨ c ∈ ['=', '&'] := by
  rcases mem_intercalate h with heq | ⟨field, hfield, hc⟩
  · rw [heq]
    exact .inr (by decide)
  · obtain ⟨pair, -, rfl⟩ := List.mem_map.mp hfield
    rcases isQuoted_of_mem_writeField hc with hquoted | heq
    · exact .inl hquoted
    · rw [heq]
      exact .inr (by decide)

theorem ink_of_mem_urlencode {pairs : List (String × String)} (h : c ∈ urlencode pairs) :
    '!' ≤ c ∧ c ≤ '~' ∧ c ≠ '#' := by
  rcases mem_urlencode h with hquoted | hmark
  · refine ⟨(ink_of_isQuoted hquoted).1, (ink_of_isQuoted hquoted).2, ?_⟩
    rintro rfl
    exact absurd hquoted (by decide)
  · rcases List.mem_cons.mp hmark with rfl | hmark
    · decide
    · rw [List.mem_singleton.mp hmark]
      decide

theorem isUrlChar_of_ink (h : '!' ≤ c) : isUrlChar c = true := by
  by_contra hno
  simp only [isUrlChar, List.elem_eq_mem, Bool.not_eq_true', Bool.not_eq_false, decide_eq_true_eq,
    List.mem_cons, List.not_mem_nil, or_false] at hno
  rcases hno with rfl | rfl | rfl
  · exact absurd h (by decide)
  · exact absurd h (by decide)
  · exact absurd h (by decide)

theorem plain_of_not_mark (h : c ∉ urlMarks) : isNetlocChar c = true ∧ isUrlChar c = true := by
  simp only [urlMarks, List.mem_cons, List.not_mem_nil, or_false, not_or] at h
  simp [isNetlocChar, isUrlChar, h]

theorem written_canonical (henv : env.Documented)
    (hnetloc : ∀ c ∈ netloc.toList, isNetlocChar c = true ∧ isUrlChar c = true)
    (hpath : ∀ c ∈ path, c ≠ '?' ∧ c ≠ '#' ∧ isUrlChar c = true) (hslash : ∀ c ∈ path.head?, c = '/') :
    Written (env.netlocText scheme netloc) (canonicalPath path) (canonicalQuery env query) where
  netloc_chars := by
    intro c hc
    rw [UrlEnv.netlocText, String.toList_append, List.mem_append] at hc
    rcases hc with hc | hc
    · by_cases hmark : c ∈ urlMarks
      · exact hnetloc c (hostinfo_subset (mark_of_domain henv hc hmark)).1
      · exact plain_of_not_mark hmark
    · rcases mem_portText hc with rfl | hdigit
      · decide
      · refine plain_of_not_mark fun hmark => ?_
        have hnone : urlMarks.all (fun c => !c.isDigit) = true := by decide
        simpa [hdigit] using List.all_eq_true.mp hnone c hmark
  path_chars := canonicalPath_clean (by decide) hpath
  slash := by
    intro c hc
    rw [canonicalPath_eq hslash] at hc
    split_ifs at hc
    · exact (Option.some.inj hc).symm
    · exact head_of_start (List.rdropWhile_prefix _ _) hslash c hc
  query_chars := by
    intro c hc
    obtain ⟨hlow, -, hhash⟩ := ink_of_mem_urlencode hc
    exact ⟨hhash, isUrlChar_of_ink hlow⟩

theorem rdropWhile_append_of_ne {α : Type*} {p : α → Bool} {s l : List α} (h : l.rdropWhile p ≠ []) :
    (s ++ l).rdropWhile p = s ++ l.rdropWhile p := by
  have hne : (l.reverse.dropWhile p).isEmpty = false := by
    rw [Bool.eq_false_iff, Ne, List.isEmpty_iff]
    exact fun hnil => h (List.reverse_eq_nil_iff.mpr hnil)
  rw [List.rdropWhile, List.reverse_append, List.dropWhile_append, hne, if_neg Bool.false_ne_true,
    List.reverse_append, List.reverse_reverse, List.rdropWhile]

theorem trim_urlunparse (henv : env.Documented) (hscheme : scheme ∈ ["http", "https"])
    (h : Written netloc path query) (hquery : ∀ c ∈ query.getLast?, env.isSpace c = false) :
    ∃ netloc', trim env.isSpace (urlunparse scheme netloc path query) =
        urlunparse scheme netloc' (env.pathRead path query) query ∧
      Written netloc' (env.pathRead path query) query ∧ (path ≠ [] → netloc' = netloc) := by
  have hink : ∀ c ∈ scheme.toList ++ [':', '/', '/'], env.isSpace c = false := by
    have hall : (scheme.toList ++ [':', '/', '/']).all (fun c => '!' ≤ c && c ≤ '~') = true := by
      rcases List.mem_cons.mp hscheme with rfl | hscheme
      · decide
      · rw [List.mem_singleton.mp hscheme]
        decide
    intro c hc
    have hbounds := List.all_eq_true.mp hall c hc
    rw [Bool.and_eq_true, decide_eq_true_eq, decide_eq_true_eq] at hbounds
    exact henv.ink c hbounds.1 hbounds.2
  have hparts : ∀ {netloc : String} {path query : List Char}, Written netloc path query →
      urlunparse scheme netloc path query = (scheme.toList ++ [':', '/', '/']) ++ (netloc.toList ++
        (path ++ if query = [] then [] else '?' :: query)) := by
    intro netloc path query hwritten
    rw [urlunparse_eq hwritten, List.append_assoc, List.cons_append, List.cons_append, List.cons_append,
      List.nil_append]
  have hhead : (urlunparse scheme netloc path query).dropWhile env.isSpace =
      urlunparse scheme netloc path query := by
    rw [hparts h]
    obtain ⟨c, word, hword⟩ : ∃ c word, scheme.toList ++ [':', '/', '/'] = c :: word :=
      List.exists_cons_of_ne_nil (by simp)
    rw [hword, List.cons_append, List.dropWhile_cons_of_neg]
    rw [hink c (hword ▸ List.mem_cons_self)]
    exact Bool.false_ne_true
  have hslash : ∀ c ∈ (env.pathRead path query).head?, c = '/' := head_of_start pathRead_starts h.slash
  have hclean : ∀ c ∈ env.pathRead path query, c ≠ '?' ∧ c ≠ '#' ∧ isUrlChar c = true := fun c hc =>
    h.path_chars c (pathRead_starts.subset hc)
  rw [trim, hhead]
  by_cases hnil : query = []
  · subst hnil
    by_cases hpath : path = []
    · subst hpath
      have hwritten : Written (String.ofList (netloc.toList.rdropWhile env.isSpace)) [] [] := by
        refine ⟨fun c hc => h.netloc_chars c ?_, h.path_chars, h.slash, h.query_chars⟩
        rw [String.toList_ofList] at hc
        exact (List.rdropWhile_prefix _ _).subset hc
      refine ⟨String.ofList (netloc.toList.rdropWhile env.isSpace), ?_, hwritten, fun hne =>
        absurd rfl hne⟩
      show _ = urlunparse scheme _ [] []
      rw [hparts h, hparts hwritten, if_pos rfl, List.append_nil, List.append_nil, List.append_nil,
        String.toList_ofList]
      exact (rtakeWhile_append_of_neg hink).2
    · have hwritten : Written netloc (env.pathRead path []) [] :=
        ⟨h.netloc_chars, hclean, hslash, h.query_chars⟩
      refine ⟨netloc, ?_, hwritten, fun _ => rfl⟩
      have hread : env.pathRead path [] = path.rdropWhile env.isSpace := if_pos rfl
      rw [hparts h, hparts hwritten, if_pos rfl, List.append_nil, List.append_nil, hread,
        ← List.append_assoc, ← List.append_assoc]
      refine rdropWhile_append_of_ne ?_
      rw [← hread]
      exact pathRead_ne_nil henv (head?_of_ne_nil h.slash hpath)
  · have hread : env.pathRead path query = path := if_neg hnil
    rw [hread]
    refine ⟨netloc, rdropWhile_eq_self_iff_last.mpr fun c hc => hquery c ?_, h, fun _ => rfl⟩
    obtain ⟨d, rest, hd⟩ := List.exists_cons_of_ne_nil hnil
    rw [hparts h, if_neg hnil, ← List.append_assoc, ← List.append_assoc, hd] at hc
    rw [hd]
    rwa [List.getLast?_append_cons, List.getLast?_cons_cons] at hc

theorem canonicalQuery_spaceless (henv : env.Documented) :
    ∀ c ∈ (canonicalQuery env query).getLast?, env.isSpace c = false := by
  intro c hc
  obtain ⟨hlow, hhigh, -⟩ := ink_of_mem_urlencode (List.mem_of_mem_getLast? hc)
  exact henv.ink c hlow hhigh

theorem parseQsl_canonicalQuery (henv : env.Documented) :
    parseQsl env.decode (canonicalQuery env query) = sortQuery (env.keptQuery query) := by
  refine parseQsl_urlencode henv.decodes fun pair hpair => ?_
  have hkept : pair ∈ env.keptQuery query := (List.perm_insertionSort _ _).mem_iff.mp hpair
  exact ne_empty_of_mem_parseQsl henv.decodes (List.mem_of_mem_filter hkept)

theorem canonicalQuery_twice (henv : env.Documented) :
    canonicalQuery env (canonicalQuery env query) = canonicalQuery env query := by
  have hkept : env.keptQuery (canonicalQuery env query) = sortQuery (env.keptQuery query) := by
    rw [UrlEnv.keptQuery, parseQsl_canonicalQuery henv, List.filter_eq_self]
    intro pair hpair
    have hmem : pair ∈ env.keptQuery query := (List.perm_insertionSort _ _).mem_iff.mp hpair
    exact (List.mem_filter.mp hmem).2
  have hsorted : sortQuery (sortQuery (env.keptQuery query)) = sortQuery (env.keptQuery query) :=
    (List.pairwise_insertionSort _ _).insertionSort_eq
  rw [canonicalQuery, hkept, hsorted, canonicalQuery]

def parseUrl (env : UrlEnv) (url : String) : Option ParsedUrl :=
  urlparse env (trim env.isSpace url.toList)

theorem canonicalHost_eq_some {host : String} : canonicalHost env scheme netloc = some host ↔
    (port netloc).isSome = true ∧ host = env.netlocText scheme netloc := by
  unfold canonicalHost UrlEnv.netlocText UrlEnv.domain
  cases port netloc with
  | none => simp
  | some o =>
    rw [Option.map_some, Option.some.injEq, Option.isSome_some, eq_self, true_and]
    exact eq_comm

theorem canonicalizeUrl_eq_some {url c : String} : canonicalizeUrl env url = some c ↔
    ∃ a, parseUrl env url = some a ∧ a.scheme ∈ ["http", "https"] ∧ a.netloc ≠ "" ∧
      (port a.netloc).isSome = true ∧ c = String.ofList (urlunparse a.scheme
        (env.netlocText a.scheme a.netloc) (canonicalPath a.path) (canonicalQuery env a.query)) := by
  unfold canonicalizeUrl
  rw [Option.bind_eq_some_iff]
  refine exists_congr fun a => and_congr_right fun _ => ?_
  split_ifs with hrefused
  · refine iff_of_false (by simp) ?_
    rintro ⟨hscheme, hnetloc, -⟩
    exact hrefused.elim (fun h => h hscheme) hnetloc
  · rw [not_or, not_not] at hrefused
    rw [Option.map_eq_some_iff]
    constructor
    · rintro ⟨host, hfound, rfl⟩
      obtain ⟨hport, rfl⟩ := canonicalHost_eq_some.mp hfound
      exact ⟨hrefused.1, hrefused.2, hport, rfl⟩
    · rintro ⟨-, -, hport, rfl⟩
      exact ⟨_, canonicalHost_eq_some.mpr ⟨hport, rfl⟩, rfl⟩

theorem parseUrl_clean {url : String} {a : ParsedUrl} (h : parseUrl env url = some a)
    (hne : a.netloc ≠ "") :
    (∀ c ∈ a.netloc.toList, isNetlocChar c = true ∧ isUrlChar c = true) ∧
      (∀ c ∈ a.path, c ≠ '?' ∧ c ≠ '#' ∧ isUrlChar c = true) ∧ ∀ c ∈ a.path.head?, c = '/' := by
  obtain ⟨hnetloc, hpath, hslash⟩ := splitUrl_clean (trim env.isSpace url.toList)
  unfold parseUrl urlparse at h
  dsimp only at h
  split_ifs at h
  obtain rfl := Option.some.inj h
  have hprefixed := splitParams_prefix (splitUrl (trim env.isSpace url.toList)).path
  exact ⟨hnetloc, fun c hc => hpath c (hprefixed.subset hc), head_of_start hprefixed (hslash hne)⟩

theorem parseUrl_written {text : List Char} (hscheme : scheme ∈ ["http", "https"])
    (h : Written netloc path query)
        (htext : trim env.isSpace text = urlunparse scheme netloc path query) :
    parseUrl env (String.ofList text) = if env.accepts netloc then
      some ⟨⟨scheme, netloc, (splitParams path).1, query, []⟩, (splitParams path).2⟩ else none := by
  rw [parseUrl, String.toList_ofList, htext, urlparse, splitUrl_urlunparse hscheme h]

/-- **A canonical URL stays** iff its network location and its path do. -/
theorem canonicalizeUrl_canonical (henv : env.Documented) {url : String} {a : ParsedUrl}
    (ha : parseUrl env url = some a) (hscheme : a.scheme ∈ ["http", "https"]) (hne : a.netloc ≠ "")
    (hport : (port a.netloc).isSome = true) :
    canonicalizeUrl env (String.ofList (urlunparse a.scheme (env.netlocText a.scheme a.netloc)
        (canonicalPath a.path) (canonicalQuery env a.query))) =
      some (String.ofList (urlunparse a.scheme (env.netlocText a.scheme a.netloc)
        (canonicalPath a.path) (canonicalQuery env a.query))) ↔
      NetlocSettled env a.scheme a.netloc ∧ PathSettled env a.path a.query := by
  obtain ⟨hnetloc, hpath, hslash⟩ := parseUrl_clean ha hne
  have hwritten := @written_canonical env a.scheme a.netloc a.path a.query henv hnetloc hpath hslash
  obtain ⟨netloc', htrim, hwritten', hsame⟩ :=
    trim_urlunparse henv hscheme hwritten (canonicalQuery_spaceless henv)
  have hparse := @parseUrl_written env _ _ _ _ _ hscheme hwritten' htrim
  have hagain : Written (env.netlocText a.scheme netloc')
      (canonicalPath (splitParams (env.pathRead (canonicalPath a.path) (canonicalQuery env a.query))).1)
      (canonicalQuery env (canonicalQuery env a.query)) := by
    have hprefixed := splitParams_prefix (env.pathRead (canonicalPath a.path) (canonicalQuery env a.query))
    exact written_canonical henv hwritten'.netloc_chars
      (fun c hc => hwritten'.path_chars c (hprefixed.subset hc)) (head_of_start hprefixed hwritten'.slash)
  rw [canonicalizeUrl_eq_some, ← netlocSettled_iff henv hport, ← pathSettled_iff henv hslash, hparse]
  constructor
  · rintro ⟨b, hb, -, hne', hport', htext⟩
    split_ifs at hb with haccepts
    obtain rfl := Option.some.inj hb
    obtain ⟨-, hhost, hpath', -⟩ := urlunparse_injective hscheme hscheme hwritten hagain
      (String.ofList_injective htext)
    have hroot : canonicalPath a.path ≠ [] := by
      intro hnil
      have hnone : env.pathRead (canonicalPath a.path) (canonicalQuery env a.query) = [] :=
        List.prefix_nil.mp (hnil ▸ pathRead_starts)
      rw [hnone, hnil] at hpath'
      exact absurd hpath' (by decide)
    obtain rfl := hsame hroot
    exact ⟨⟨haccepts, hne', canonicalHost_eq_some.mpr ⟨hport', hhost⟩⟩, hroot, hpath'.symm⟩
  · rintro ⟨⟨haccepts, hne', hhost⟩, hroot, hpath'⟩
    obtain ⟨hport', hhost⟩ := canonicalHost_eq_some.mp hhost
    obtain rfl := hsame hroot
    refine ⟨_, if_pos haccepts, hscheme, hne', hport', ?_⟩
    dsimp only
    rw [← hhost, hpath', canonicalQuery_twice henv]

end

/-! ## Pages with one canonical URL -/

/-- What stands around the host and the port: the user, and what is outside the brackets. -/
def netlocFrame (netloc : String) : Option (List Char) × Option (List Char × List Char) :=
  let info := netloc.toList.rtakeWhile (· ≠ '@')
  (userinfo netloc, if '[' ∈ info then
    some (info.takeWhile (· ≠ '['), (((info.dropWhile (· ≠ '[')).dropWhile (· ≠ ']')).drop 1).takeWhile
      (· ≠ ':')) else none)

def effectivePort (scheme netloc : String) : Nat :=
  (port netloc).join.getD (if scheme = "http" then 80 else 443)

section
variable (env : UrlEnv) (tracking : String → Bool)

/-- The parameters that say something of the page. -/
def UrlEnv.telling (query : List Char) : List (String × String) :=
  (parseQsl env.decode query).filter fun pair => !tracking pair.1

/-- The parameters that are dropped for how they begin. -/
def UrlEnv.dropped (query : List Char) : List (String × String) :=
  (parseQsl env.decode query).filter fun pair => env.beginsLikeTracking pair.1 && !tracking pair.1

/-- Two URLs differ only in the letter case of scheme and host, a `www.`, a default port, the slashes at
the end, the order of the query, its blank values and tracking parameters, parameters of the path or the
fragment. -/
structure AlikeUrls (a b : ParsedUrl) : Prop where
  scheme : a.scheme = b.scheme
  frame : netlocFrame a.netloc = netlocFrame b.netloc
  host : env.domain a.netloc = env.domain b.netloc
  port : effectivePort a.scheme a.netloc = effectivePort b.scheme b.netloc
  path : barePath a.path = barePath b.path
  query : (env.telling tracking a.query).Perm (env.telling tracking b.query)

/-- What a canonical URL is without is the same of two URLs: the user and the brackets, a port zero, and
the parameters that only begin like a tracking one. -/
structure SameUnseen (a b : ParsedUrl) : Prop where
  frame : netlocFrame a.netloc = netlocFrame b.netloc
  port : effectivePort a.scheme a.netloc = effectivePort b.scheme b.netloc
  query : (env.dropped tracking a.query).Perm (env.dropped tracking b.query)

variable {env tracking}

theorem keptPort_eq {scheme netloc : String} (hscheme : scheme ∈ ["http", "https"]) :
    keptPort scheme (port netloc).join =
      if effectivePort scheme netloc ≠ 0 ∧
        effectivePort scheme netloc ≠ (if scheme = "http" then 80 else 443) then
        some (effectivePort scheme netloc) else none := by
  unfold effectivePort
  rcases List.mem_cons.mp hscheme with rfl | hscheme
  · cases (port netloc).join with
    | none => simp [keptPort]
    | some n => simp [keptPort]
  · obtain rfl := List.mem_singleton.mp hscheme
    cases (port netloc).join with
    | none => simp [keptPort]
    | some n => simp [keptPort]

/-- The parameters that tell are those that are kept and those that are dropped without cause. -/
theorem telling_perm (htracking : ∀ key, tracking key = true → env.beginsLikeTracking key = true)
    (query : List Char) :
    (env.keptQuery query ++ env.dropped tracking query).Perm (env.telling tracking query) := by
  refine (List.Perm.of_eq ?_).trans
    (List.filter_append_perm (fun pair => !env.beginsLikeTracking pair.1) (env.telling tracking query))
  rw [UrlEnv.telling, List.filter_filter, List.filter_filter]
  congr 1
  · refine List.filter_congr fun pair _ => ?_
    cases htrack : tracking pair.1 with
    | false => simp
    | true => simp [htracking _ htrack]
  · refine List.filter_congr fun pair _ => ?_
    rw [Bool.not_not]

theorem dropped_eq (query : List Char) : env.dropped tracking query =
    (env.telling tracking query).filter fun pair => env.beginsLikeTracking pair.1 := by
  rw [UrlEnv.telling, List.filter_filter]
  rfl

theorem barePath_canonicalPath {path : List Char} (h : ∀ c ∈ path.head?, c = '/') :
    barePath (canonicalPath path) = barePath path := by
  rw [canonicalPath_eq h]
  split_ifs with hlength
  · rcases slash_or_nil h hlength with rfl | rfl
    · rfl
    · rfl
  · exact List.rdropWhile_idempotent _ _

/-- **Canonical URLs stay, and are the same for the same page**: one stays iff its network location and
its path are settled, and two URLs that have the same differ in nothing else than what may differ iff
what else is dropped of them is the same. -/
theorem canonicalizeUrl_iff (henv : env.Documented)
    (htracking : ∀ key, tracking key = true → env.beginsLikeTracking key = true)
    {url c : String} {a : ParsedUrl} (hc : canonicalizeUrl env url = some c)
    (ha : parseUrl env url = some a) :
    (canonicalizeUrl env c = some c ↔
      NetlocSettled env a.scheme a.netloc ∧ PathSettled env a.path a.query) ∧
    ∀ {other : String} {b : ParsedUrl}, canonicalizeUrl env other = some c →
      parseUrl env other = some b → (AlikeUrls env tracking a b ↔ SameUnseen env tracking a b) := by
  obtain ⟨a', ha', hscheme, hne, hport, rfl⟩ := canonicalizeUrl_eq_some.mp hc
  obtain rfl := Option.some.inj (ha.symm.trans ha')
  refine ⟨canonicalizeUrl_canonical henv ha hscheme hne hport, fun {other b} hother hb => ?_⟩
  obtain ⟨b', hb', hscheme', hne', -, htext⟩ := canonicalizeUrl_eq_some.mp hother
  obtain rfl := Option.some.inj (hb.symm.trans hb')
  obtain ⟨hnetloc, hpath, hslash⟩ := parseUrl_clean ha hne
  obtain ⟨hnetloc', hpath', hslash'⟩ := parseUrl_clean hb hne'
  obtain ⟨hsame, hhost, hpaths, hquery⟩ := urlunparse_injective hscheme hscheme'
    (written_canonical henv hnetloc hpath hslash) (written_canonical henv hnetloc' hpath' hslash')
    (String.ofList_injective htext)
  have hkept : (env.keptQuery a.query).Perm (env.keptQuery b.query) := by
    have hsorted := congrArg (parseQsl env.decode) hquery
    rw [parseQsl_canonicalQuery henv, parseQsl_canonicalQuery henv] at hsorted
    have hfirst : (sortQuery (env.keptQuery a.query)).Perm (env.keptQuery a.query) :=
      List.perm_insertionSort _ _
    rw [hsorted] at hfirst
    exact hfirst.symm.trans (List.perm_insertionSort _ _)
  constructor
  · intro h
    refine ⟨h.frame, h.port, ?_⟩
    rw [dropped_eq, dropped_eq]
    exact h.query.filter _
  · intro h
    refine ⟨hsame, h.frame, ?_, h.port, ?_, ?_⟩
    · rw [UrlEnv.netlocText, UrlEnv.netlocText, keptPort_eq hscheme, keptPort_eq hscheme', h.port, hsame]
        at hhost
      exact (String.append_left_inj _).mp hhost
    · rw [← barePath_canonicalPath hslash, hpaths, barePath_canonicalPath hslash']
    · exact (telling_perm htracking _).symm.trans
        ((hkept.append h.query).trans (telling_perm htracking _))

end

/-! ## Two pages -/

def plainUrls : UrlEnv where
  isSpace := Char.isWhitespace
  lower := String.toLower
  netlocOk _ := true
  decode bytes := (decodeUtf8 bytes).getD ['\uFFFD']

theorem plainUrls_documented : plainUrls.Documented where
  ink _ hlow _ := not_isWhitespace_of_ink hlow
  lower_lower text := by
    refine toLower_eq_self_iff.mpr fun c hc => ?_
    have hmap : c ∈ text.toList.map Char.toLower := toList_toLower text ▸ hc
    obtain ⟨b, -, rfl⟩ := List.mem_map.mp hmap
    exact toLower_singleton_iff.mpr (toLower_toLower b)
  lower_eq_self _ := toLower_eq_self_iff
  lower_marks text c hc hmark := by
    have hmap : c ∈ text.toList.map Char.toLower := toList_toLower text ▸ hc
    obtain ⟨b, hb, rfl⟩ := List.mem_map.mp hmap
    rcases toLower_cases b with hsame | hletter
    · rwa [hsame]
    · have hnone : urlMarks.all (fun c => !c.isLower) = true := by decide
      simpa [hletter] using List.all_eq_true.mp hnone _ hmark
  decodes := by
    refine ⟨fun text => ?_, fun bytes hnil => ?_⟩
    · show (decodeUtf8 (encodeUtf8 text)).getD _ = text
      rw [decodeUtf8_eq_some.mpr rfl]
      rfl
    · cases hdecoded : decodeUtf8 bytes with
      | none => simp [plainUrls, hdecoded] at hnil
      | some text =>
        obtain rfl : text = [] := by simpa [plainUrls, hdecoded] using hnil
        exact (decodeUtf8_eq_some.mp hdecoded).symm

def meantTracking (key : String) : Bool :=
  startsWith "utm_" key.toLower ||
    ["fbclid", "gclid", "mc_cid", "mc_eid", "igshid", "ref", "_ga"].elem key.toLower

theorem begins_of_meant {key : String} (h : meantTracking key = true) :
    plainUrls.beginsLikeTracking key = true := by
  rw [meantTracking, Bool.or_eq_true, List.elem_eq_mem, decide_eq_true_eq] at h
  rw [UrlEnv.beginsLikeTracking, List.any_eq_true]
  rcases h with h | h
  · exact ⟨"utm_", by decide, h⟩
  · refine ⟨key.toLower, ?_, ?_⟩
    · simp only [List.mem_cons, List.not_mem_nil, or_false] at h
      simp only [trackingPrefixes, List.mem_cons, List.not_mem_nil, or_false]
      tauto
    · exact List.isPrefixOf_iff_prefix.mpr List.prefix_rfl

/-- The page of the fees, under its canonical URL. -/
theorem canonicalizeUrl_iff_fees :
    canonicalizeUrl plainUrls "HTTPS://WWW.Sjce.ac.in:443/fees/?year=2&year=1&utm_id=a#top" =
        some "https://sjce.ac.in/fees?year=1&year=2" ∧
      canonicalizeUrl plainUrls "https://sjce.ac.in/fees?year=1&year=2" =
        some "https://sjce.ac.in/fees?year=1&year=2" := by
  have hfees : canonicalizeUrl plainUrls "HTTPS://WWW.Sjce.ac.in:443/fees/?year=2&year=1&utm_id=a#top" =
      some "https://sjce.ac.in/fees?year=1&year=2" := by decide +kernel
  have hread : parseUrl plainUrls "HTTPS://WWW.Sjce.ac.in:443/fees/?year=2&year=1&utm_id=a#top" =
      some ⟨⟨"https", "WWW.Sjce.ac.in:443", "/fees/".toList, "year=2&year=1&utm_id=a".toList,
        "top".toList⟩, []⟩ := by decide
  refine ⟨hfees, (canonicalizeUrl_iff plainUrls_documented
    (fun _ => begins_of_meant) hfees hread).1.mpr ⟨?_, ?_⟩⟩
  · refine ⟨.inl ?_, ?_, rfl, ?_, .inl ?_⟩
    · decide +kernel
    · decide +kernel
    · rw [List.forall_mem_cons, List.forall_mem_singleton]
      decide +kernel
    · decide +kernel
  · refine ⟨.inr ?_, ?_, fun _ c hc => ?_⟩
    · decide
    · decide
    · obtain rfl : 's' = c := by
        have hlast : (barePath "/fees/".toList).getLast? = some 's' := by decide
        rw [hlast] at hc
        exact Option.some.inj hc
      rfl

/-- A host with two `www.` keeps one at first, and two refunds have one canonical URL. -/
theorem not_settled :
    (canonicalizeUrl plainUrls "http://www.www.sjce.ac.in/" = some "http://www.sjce.ac.in/" ∧
      canonicalizeUrl plainUrls "http://www.sjce.ac.in/" = some "http://sjce.ac.in/") ∧
    ∃ a b, parseUrl plainUrls "https://sjce.ac.in/pay?refund=1" = some a ∧
      parseUrl plainUrls "https://sjce.ac.in/pay?refund=2" = some b ∧
      canonicalizeUrl plainUrls "https://sjce.ac.in/pay?refund=1" = some "https://sjce.ac.in/pay" ∧
      canonicalizeUrl plainUrls "https://sjce.ac.in/pay?refund=2" = some "https://sjce.ac.in/pay" ∧
      ¬AlikeUrls plainUrls meantTracking a b := by
  refine ⟨⟨by decide +kernel, by decide +kernel⟩,
    ⟨⟨"https", "sjce.ac.in", "/pay".toList, "refund=1".toList, []⟩, []⟩,
    ⟨⟨"https", "sjce.ac.in", "/pay".toList, "refund=2".toList, []⟩, []⟩,
    by decide +kernel, by decide +kernel, by decide +kernel, by decide +kernel, fun h => ?_⟩
  have hpairs : plainUrls.telling meantTracking "refund=1".toList = [("refund", "1")] ∧
      plainUrls.telling meantTracking "refund=2".toList = [("refund", "2")] := by decide +kernel
  have hquery := h.query
  dsimp only at hquery
  rw [hpairs.1, hpairs.2, List.perm_singleton] at hquery
  exact absurd hquery (by decide)

end GuruJi.Crawl
