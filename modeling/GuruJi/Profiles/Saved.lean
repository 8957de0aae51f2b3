import GuruJi.Lib.Checks
import GuruJi.Lib.Fold
import GuruJi.Lib.Spacing
import GuruJi.Voice.Sentences
import Mathlib.Data.List.Dedup
import Mathlib.Data.List.Infix
import Mathlib.Data.List.Perm.Subperm

/-!
# Saved profiles

A profile cleans what it is given: texts are spaced singly and cut, lists lose what comes twice, and
domains their scheme, their slash and one "www.". What is saved of it is cleaned once more when it is
read.

* `cleanList_again_iff`: a cleaned list stays when it is cleaned again iff no text that is cut ends in
  white space or is another's beginning;
* `domainOf_domain`: a domain stays unless it still begins with "www.";
* `fromDict_asDict_accepted`: what is saved is accepted;
* **`fromDict_asDict_iff`**: a saved profile reads back iff its location, its lists and its domains stay;
* `domain_widened`: "www.www.".
-/

namespace GuruJi.Profiles

open GuruJi.Lib
open GuruJi.Voice (isSpace)

/-! ## Lists -/

/-- `_MAX_LIST`. -/
def maxList : Nat := 50

/-- A list as it is given: a text, the texts of the items of a list, a tuple or a set, or something
else. -/
inductive ListValue where
  | text (s : List Char)
  | items (texts : List (List Char))
  | other

/-- The items: a text is split at commas, line feeds and semicolons. -/
def ListValue.texts : ListValue → List (List Char)
  | text s => s.splitOnP fun c => c = ',' || c = '\n' || c = ';'
  | items texts => texts
  | other => []

/-- Python's texts: `str.lower`, and `urlparse(text).hostname` or the message of its `ValueError`. -/
structure ProfileEnv where
  lower : List Char → List Char
  hostname : List Char → Except String (Option (List Char))

def addClean (cleaned : List (List Char)) (text : List Char) : List (List Char) :=
  if text ≠ [] ∧ text ∉ cleaned then cleaned ++ [text.take 200] else cleaned

section
variable (env : ProfileEnv)

def itemText (lower : Bool) (item : List Char) : List Char :=
  let text := trim isSpace (collapse isSpace ' ' item)
  if lower then env.lower text else text

/-- `_clean_list`. -/
def cleanList (lower : Bool) (limit : Nat) (values : ListValue) : List (List Char) :=
  ((values.texts.map (itemText env lower)).foldl addClean []).take limit

/-! ## Domains -/

/-- `[a-z]`. -/
def isLetter (c : Char) : Bool := 'a' ≤ c && c ≤ 'z'

/-- `[a-z0-9.-]`. -/
def isDomainChar (c : Char) : Bool := isLetter c || c.isDigit || c = '.' || c = '-'

/-- `re.fullmatch(r"[a-z0-9.-]+\.[a-z]{2,}", text)`. -/
def isDomain (text : List Char) : Bool :=
  let ending := text.rtakeWhile (· ≠ '.')
  text.all isDomainChar && 2 ≤ ending.length && ending.all isLetter &&
    2 ≤ (text.rdropWhile (· ≠ '.')).length

/-- `text.removeprefix("www.")`. -/
def removeWww (text : List Char) : List Char :=
  if "www.".toList.isPrefixOf text then text.drop 4 else text

/-- The host of a text with a scheme, or the text. -/
def hostText (text : List Char) : Except String (List Char) :=
  if "://".toList <:+: text then (env.hostname text).map fun host => host.getD [] else .ok text

def hostDomain (host : List Char) : List Char :=
  let text := removeWww (host.rdropWhile (· = '/'))
  if isDomain text then text else []

/-- `_domain`. -/
def domainOf (value : List Char) : Except String (List Char) :=
  (hostText env (env.lower (trim isSpace value))).map hostDomain

def domainsOf (values : List (List Char)) : Except String (List (List Char)) :=
  (values.mapM (domainOf env)).map fun domains => domains.filter (· ≠ [])

/-- `_EMAIL.fullmatch(item)`. -/
def isEmail (text : List Char) : Bool :=
  let domain := (text.dropWhile (· ≠ '@')).drop 1
  let ending := domain.rtakeWhile (· ≠ '.')
  text.all (fun c => !isSpace c) && text.takeWhile (· ≠ '@') ≠ [] && '@' ∉ domain &&
    2 ≤ ending.length && ending.all isLetter && 2 ≤ (domain.rdropWhile (· ≠ '.')).length

/-! ## Profiles -/

/-- `InstitutionProfile`. -/
structure InstitutionProfile where
  institutionId : List Char
  name : List Char
  location : List Char
  aliases : List (List Char)
  officialDomains : List (List Char)
  programs : List (List Char)
  socialAccounts : List (List Char)
  keywords : List (List Char)
  exclusions : List (List Char)
  monitoringEnabled : Bool
  alertRecipients : List (List Char)
  securityContacts : List (List Char)
  deriving DecidableEq

/-- What a profile is read from: texts as `str` gives them, empty for what is not there. -/
structure Payload where
  name : List Char
  location : List Char
  aliases : ListValue
  officialDomains : ListValue
  programs : ListValue
  socialAccounts : ListValue
  keywords : ListValue
  exclusions : ListValue
  monitoringEnabled : Bool
  alertRecipients : ListValue
  securityContacts : ListValue

/-- The fields as `__post_init__` leaves them. -/
def profileOf (institutionId : List Char) (payload : Payload) (domains : List (List Char)) :
    InstitutionProfile where
  institutionId := institutionId
  name := collapse isSpace ' ' payload.name
  location := (trim isSpace payload.location).take 120
  aliases := cleanList env false maxList payload.aliases
  officialDomains := domains
  programs := cleanList env false maxList payload.programs
  socialAccounts := cleanList env true maxList payload.socialAccounts
  keywords := cleanList env true maxList payload.keywords
  exclusions := cleanList env true maxList payload.exclusions
  monitoringEnabled := payload.monitoringEnabled
  alertRecipients := cleanList env false maxList payload.alertRecipients
  securityContacts := cleanList env true 10 payload.securityContacts

/-- `InstitutionProfile.from_dict`, with `__post_init__`; an error is a `ValueError`. -/
def fromDict (institutionId : List Char) (payload : Payload) : Except String InstitutionProfile :=
  if trim isSpace institutionId = [] ∨ trim isSpace payload.name = [] then
    .error "institution profile requires an institution_id and a name"
  else
    match domainsOf env (cleanList env false maxList payload.officialDomains) with
    | .error message => .error message
    | .ok domains =>
      let contacts := cleanList env true 10 payload.securityContacts
      match contacts.find? (fun item => !isEmail item) with
      | some item => .error ("security contacts must be email addresses: " ++ String.ofList item)
      | none => .ok (profileOf env institutionId payload domains)

/-- `as_dict`. -/
def InstitutionProfile.asDict (p : InstitutionProfile) : Payload where
  name := p.name
  location := p.location
  aliases := .items p.aliases
  officialDomains := .items p.officialDomains
  programs := .items p.programs
  socialAccounts := .items p.socialAccounts
  keywords := .items p.keywords
  exclusions := .items p.exclusions
  monitoringEnabled := p.monitoringEnabled
  alertRecipients := .items p.alertRecipients
  securityContacts := .items p.securityContacts

/-- `is_official_url`, of a host. -/
def InstitutionProfile.isOfficialHost (p : InstitutionProfile) (host : List Char) : Bool :=
  let host := removeWww (env.lower host)
  p.officialDomains.any fun domain => host = domain || ('.' :: domain).isSuffixOf host

/-! ## What stays -/

/-- What is known of `str.lower`: it leaves single spaces, what is cut of its result, and domains. -/
structure Lowers : Prop where
  spaced : ∀ text, Spaced isSpace ' ' text → Spaced isSpace ' ' (env.lower text)
  cut : ∀ text n, env.lower ((env.lower text).take n) = (env.lower text).take n
  domain : ∀ text, (∀ c ∈ text, isDomainChar c = true) → env.lower text = text

/-- Of the texts of a list that are not blank, as far as they are read, none of more than 200 characters
has white space as its 200th, or the first 200 characters of one before it. -/
def ListStays (lower : Bool) (limit : Nat) (values : ListValue) : Prop :=
  ∀ before text after,
    (values.texts.map (itemText env lower)).filter (· ≠ []) = before ++ text :: after →
      200 < text.length → ((before.map (·.take 200)).dedup).length < limit →
        (∀ c ∈ text[199]?, isSpace c = false) ∧ text.take 200 ∉ before.map (·.take 200)

/-- No two of the domains of a list are the same, and none still begins with "www." or is longer than
an item. -/
def DomainsStay (values : ListValue) : Prop :=
  ∀ domains, domainsOf env (cleanList env false maxList values) = .ok domains →
    domains.Nodup ∧ ∀ domain ∈ domains, ¬"www.".toList <+: domain ∧ domain.length ≤ 200

/-- What a profile is read from stays: the location is not cut after white space, and the lists and the
domains stay. -/
structure Stays (payload : Payload) : Prop where
  location : ∀ c ∈ (trim isSpace payload.location)[119]?, isSpace c = false
  aliases : ListStays env false maxList payload.aliases
  officialDomains : DomainsStay env payload.officialDomains
  programs : ListStays env false maxList payload.programs
  socialAccounts : ListStays env true maxList payload.socialAccounts
  keywords : ListStays env true maxList payload.keywords
  exclusions : ListStays env true maxList payload.exclusions
  alertRecipients : ListStays env false maxList payload.alertRecipients
  securityContacts : ListStays env true 10 payload.securityContacts

end

/-! ## Cleaning -/

section
variable {texts l : List (List Char)} {limit : Nat}

theorem length_addClean_le (cleaned : List (List Char)) (text : List Char) :
    (addClean cleaned text).length ≤ cleaned.length + 1 := by
  rw [addClean]
  split_ifs
  · rw [List.length_append, List.length_singleton]
  · exact Nat.le_succ _

theorem collect_concat (texts : List (List Char)) (text : List Char) :
    (texts ++ [text]).foldl addClean [] = addClean (texts.foldl addClean []) text := by
  rw [List.foldl_append]
  rfl

theorem collect_filter (texts : List (List Char)) :
    (texts.filter (· ≠ [])).foldl addClean [] = texts.foldl addClean [] := by
  induction texts using List.reverseRecOn with
  | nil => rfl
  | append_singleton texts text ih =>
    rw [List.filter_append, collect_concat]
    by_cases htext : text = []
    · have hblank : [text].filter (· ≠ []) = [] := by simp [htext]
      rw [hblank, List.append_nil, ih, addClean, if_neg fun h => h.1 htext]
    · have hkept : [text].filter (· ≠ []) = [text] := by simp [htext]
      rw [hkept, collect_concat, ih]

theorem length_collect_le (texts : List (List Char)) :
    (texts.foldl addClean []).length ≤ texts.length := by
  induction texts using List.reverseRecOn with
  | nil => exact le_rfl
  | append_singleton texts text ih =>
    rw [collect_concat, List.length_append, List.length_singleton]
    exact (length_addClean_le _ _).trans (Nat.succ_le_succ ih)

theorem collect_eq_map (h : texts.length ≤ (texts.foldl addClean []).length) :
    texts.foldl addClean [] = texts.map (·.take 200) := by
  induction texts using List.reverseRecOn with
  | nil => rfl
  | append_singleton texts text ih =>
    rw [collect_concat] at h ⊢
    have hle := length_collect_le texts
    have hnext := length_addClean_le (texts.foldl addClean []) text
    rw [List.length_append, List.length_singleton] at h
    have hall := ih (by omega)
    rw [addClean] at h ⊢
    split_ifs at h ⊢ with hnew
    · rw [hall, List.map_append]
      rfl
    · omega

theorem length_of_mem_collect {text : List Char} (h : text ∈ texts.foldl addClean []) :
    text.length ≤ 200 := by
  induction texts using List.reverseRecOn with
  | nil => cases h
  | append_singleton texts last ih =>
    rw [collect_concat, addClean] at h
    split_ifs at h
    · rcases List.mem_append.mp h with h | h
      · exact ih h
      · rw [List.mem_singleton.mp h]
        exact List.length_take_le 200 last
    · exact ih h

theorem mem_collect (hne : ∀ text ∈ texts, text ≠ []) {text : List Char} :
    text ∈ texts.foldl addClean [] ↔ text ∈ texts.map (·.take 200) := by
  induction texts using List.reverseRecOn with
  | nil => exact Iff.rfl
  | append_singleton texts last ih =>
    have ih := ih fun other hother => hne other (List.mem_append_left _ hother)
    rw [collect_concat, List.map_append, List.mem_append, List.map_singleton, List.mem_singleton, ← ih,
      addClean]
    by_cases hmem : last ∈ texts.foldl addClean []
    · rw [if_neg fun h => h.2 hmem, List.take_of_length_le (length_of_mem_collect hmem)]
      exact ⟨Or.inl, fun h => h.elim id fun heq => heq ▸ hmem⟩
    · rw [if_pos ⟨hne last (List.mem_append_right _ (List.mem_singleton_self _)), hmem⟩, List.mem_append,
        List.mem_singleton]

theorem nodup_collect_short (h : ∀ text ∈ texts, text.length ≤ 200) :
    (texts.foldl addClean []).Nodup := by
  induction texts using List.reverseRecOn with
  | nil => exact List.nodup_nil
  | append_singleton texts last ih =>
    have ih := ih fun other hother => h other (List.mem_append_left _ hother)
    have hshort := h last (List.mem_append_right _ (List.mem_singleton_self _))
    rw [collect_concat, addClean, List.take_of_length_le hshort]
    split_ifs with hnew
    · rw [List.nodup_append_comm]
      exact List.nodup_cons.mpr ⟨hnew.2, ih⟩
    · exact ih

theorem collect_of_nodup (h : ∀ text ∈ texts, text ≠ [] ∧ text.length ≤ 200) (hnodup : texts.Nodup) :
    texts.foldl addClean [] = texts := by
  induction texts using List.reverseRecOn with
  | nil => rfl
  | append_singleton texts last ih =>
    obtain ⟨htexts, -, hdisjoint⟩ := List.nodup_append.mp hnodup
    have ih := ih (fun other hother => h other (List.mem_append_left _ hother)) htexts
    obtain ⟨hne, hshort⟩ := h last (List.mem_append_right _ (List.mem_singleton_self _))
    have hnew : last ∉ texts := fun hold => hdisjoint last hold last (List.mem_singleton_self _) rfl
    rw [collect_concat, ih, addClean, List.take_of_length_le hshort, if_pos ⟨hne, hnew⟩]

/-! ## Lists that stay -/

/-- Texts that are distinct and end in no white space. -/
structure Settled (l : List (List Char)) : Prop where
  nodup : l.Nodup
  last : ∀ text ∈ l, ∀ c ∈ text.getLast?, isSpace c = false

theorem settled_concat {text : List Char} : Settled (l ++ [text]) ↔
    Settled l ∧ text ∉ l ∧ ∀ c ∈ text.getLast?, isSpace c = false := by
  constructor
  · intro h
    obtain ⟨hnodup, -, hdisjoint⟩ := List.nodup_append.mp h.nodup
    refine ⟨⟨hnodup, fun other hother => h.last other (List.mem_append_left _ hother)⟩, fun hmem => ?_,
      h.last text (List.mem_append_right _ (List.mem_singleton_self _))⟩
    exact hdisjoint text hmem text (List.mem_singleton_self _) rfl
  · rintro ⟨h, hnew, hlast⟩
    refine ⟨?_, fun other hother => ?_⟩
    · rw [List.nodup_append_comm]
      exact List.nodup_cons.mpr ⟨hnew, h.nodup⟩
    · rcases List.mem_append.mp hother with hother | hother
      · exact h.last other hother
      · rw [List.mem_singleton.mp hother]
        exact hlast

/-- The condition on a text that comes after others. -/
def TextStays (limit : Nat) (before : List (List Char)) (text : List Char) : Prop :=
  200 < text.length → ((before.map (·.take 200)).dedup).length < limit →
    (∀ c ∈ text[199]?, isSpace c = false) ∧ text.take 200 ∉ before.map (·.take 200)

theorem textStays_concat (limit : Nat) (texts : List (List Char)) (last : List Char) :
    (∀ before text after, texts ++ [last] = before ++ text :: after → TextStays limit before text) ↔
      (∀ before text after, texts = before ++ text :: after → TextStays limit before text) ∧
        TextStays limit texts last := by
  constructor
  · intro h
    refine ⟨fun before text after heq => h before text (after ++ [last]) ?_, h texts last [] rfl⟩
    rw [heq, List.append_assoc]
    rfl
  · rintro ⟨h, hlast⟩ before text after heq
    rcases List.eq_nil_or_concat' after with rfl | ⟨after, other, rfl⟩
    · obtain ⟨rfl, hsame⟩ := List.append_inj' heq rfl
      obtain rfl := List.singleton_inj.mp hsame
      exact hlast
    · have hsplit : texts ++ [last] = (before ++ text :: after) ++ [other] := by
        rw [heq, List.append_assoc]
        rfl
      exact h before text after (List.append_inj' hsplit rfl).1

theorem settled_collect_iff (h : ∀ text ∈ texts, text ≠ [] ∧ Spaced isSpace ' ' text) :
    Settled ((texts.foldl addClean []).take limit) ↔
      ∀ before text after, texts = before ++ text :: after → TextStays limit before text := by
  induction texts using List.reverseRecOn with
  | nil =>
    rw [List.foldl_nil, List.take_nil]
    refine iff_of_true ⟨List.nodup_nil, fun text htext => by cases htext⟩ fun before text after heq => ?_
    exact absurd heq.symm (List.append_ne_nil_of_right_ne_nil _ (List.cons_ne_nil _ _))
  | append_singleton texts last ih =>
    have hbefore : ∀ text ∈ texts, text ≠ [] ∧ Spaced isSpace ' ' text := fun text htext =>
      h text (List.mem_append_left _ htext)
    obtain ⟨hne, hspaced⟩ := h last (List.mem_append_right _ (List.mem_singleton_self _))
    have hmem := fun text : List Char =>
      @mem_collect texts (fun text htext => (hbefore text htext).1) text
    rw [textStays_concat, ← ih hbefore, collect_concat, addClean]
    -- How many different cut texts there are, when no text is collected twice.
    have hcount : (texts.foldl addClean []).Nodup →
        ((texts.map (·.take 200)).dedup).length = (texts.foldl addClean []).length := by
      intro hnodup
      refine List.Perm.length_eq ((List.perm_ext_iff_of_nodup (List.nodup_dedup _) hnodup).mpr ?_)
      intro text
      rw [List.mem_dedup, hmem]
    by_cases hold : last ∈ texts.foldl addClean []
    · rw [if_neg fun hnew => hnew.2 hold]
      refine (and_iff_left_of_imp fun _ hlong => ?_).symm
      exact absurd (length_of_mem_collect hold) (Nat.not_le_of_lt hlong)
    rw [if_pos ⟨hne, hold⟩]
    by_cases hfull : limit ≤ (texts.foldl addClean []).length
    · rw [List.take_append_of_le_length hfull]
      refine (and_iff_left_of_imp fun hsettled _ hlt => ?_).symm
      have hsub : (texts.foldl addClean []).take limit ⊆ (texts.map (·.take 200)).dedup := by
        intro text htext
        exact List.mem_dedup.mpr ((hmem text).mp (List.mem_of_mem_take htext))
      have hle := (List.Nodup.subperm hsettled.nodup hsub).length_le
      rw [List.length_take_of_le hfull] at hle
      omega
    · have hroom : (texts.foldl addClean []).length < limit := Nat.lt_of_not_le hfull
      have hroom' : (texts.foldl addClean [] ++ [last.take 200]).length ≤ limit := by
        rw [List.length_append, List.length_singleton]
        exact hroom
      rw [List.take_of_length_le hroom', List.take_of_length_le (Nat.le_of_lt hroom), settled_concat]
      refine and_congr_right fun hsettled => ?_
      by_cases hlong : 200 < last.length
      · have hlast : (last.take 200).getLast? = last[199]? := by
          rw [List.getLast?_take, if_neg (by decide), List.getElem?_eq_getElem (by omega)]
          rfl
        rw [TextStays, hcount hsettled.nodup, forall_prop_of_true hlong, forall_prop_of_true hroom, hmem,
          and_comm, hlast]
      · rw [List.take_of_length_le (Nat.le_of_not_lt hlong)]
        exact iff_of_true ⟨hold, hspaced.last⟩ fun h => absurd h hlong

end

/-! ## Lists are cleaned again -/

section
variable {env : ProfileEnv} {lower : Bool} {limit : Nat} {values : ListValue}

theorem itemText_spaced (hlower : Lowers env) (item : List Char) :
    Spaced isSpace ' ' (itemText env lower item) := by
  have hspaced : Spaced isSpace ' ' (collapse isSpace ' ' item) := spaced_collapse (by decide)
  have htrim : trim isSpace (collapse isSpace ' ' item) = collapse isSpace ' ' item :=
    trim_eq_self_iff.mpr ⟨hspaced.head, hspaced.last⟩
  rw [itemText, htrim]
  cases lower with
  | false => exact hspaced
  | true => exact hlower.spaced _ hspaced

/-- What is cut of the text of an item. -/
structure CutText (env : ProfileEnv) (lower : Bool) (text : List Char) : Prop where
  ne : text ≠ []
  short : text.length ≤ 200
  cut : ∃ item, text = (itemText env lower item).take 200

theorem cutText_of_mem {text : List Char} (h : text ∈ cleanList env lower limit values) :
    CutText env lower text := by
  rw [cleanList, ← collect_filter] at h
  have hmem := (mem_collect fun text htext => of_decide_eq_true (List.mem_filter.mp htext).2).mp
    (List.mem_of_mem_take h)
  obtain ⟨whole, hwhole, rfl⟩ := List.mem_map.mp hmem
  obtain ⟨hitem, hne⟩ := List.mem_filter.mp hwhole
  obtain ⟨item, -, rfl⟩ := List.mem_map.mp hitem
  refine ⟨fun hnil => ?_, List.length_take_le _ _, item, rfl⟩
  rcases List.take_eq_nil_iff.mp hnil with h | h
  · cases h
  · exact of_decide_eq_true hne h

theorem itemText_of_spaced (hlower : Lowers env) {text : List Char} (h : CutText env lower text)
    (hspaced : Spaced isSpace ' ' text) : itemText env lower text = text := by
  have htrim := trim_eq_self_iff.mpr ⟨hspaced.head, hspaced.last⟩
  rw [itemText, collapse_of_spaced hspaced, htrim]
  cases lower with
  | false => rfl
  | true =>
    obtain ⟨item, rfl⟩ := h.cut
    exact hlower.cut _ 200

theorem spaced_before {text before rest : List Char} {c : Char} (h : Spaced isSpace ' ' text)
    (heq : text = before ++ c :: rest) (hc : isSpace c = true) : Spaced isSpace ' ' before := by
  have htake : text.take before.length = before := by rw [heq, List.take_left]
  rw [← htake]
  refine h.take.mpr fun d hd => ?_
  rw [htake] at hd
  by_contra hspace
  obtain ⟨hne, rfl⟩ := List.mem_getLast?_eq_getLast hd
  have hsplit : text = before.dropLast ++ before.getLast hne :: (c :: rest) := by
    rw [heq, ← List.singleton_append (x := before.getLast hne), ← List.append_assoc,
      List.dropLast_append_getLast]
  have hnext := (h.gap _ _ _ hsplit (eq_true_of_ne_false hspace)).2 c rfl
  rw [hc] at hnext
  cases hnext

/-- A text that is cut stays iff it ends in no white space; else it becomes shorter. -/
theorem itemText_cut (hlower : Lowers env) {text : List Char} (h : CutText env lower text) :
    ((∀ c ∈ text.getLast?, isSpace c = false) → itemText env lower text = text) ∧
      (∀ c ∈ text.getLast?, isSpace c = true → (itemText env lower text).length < text.length) := by
  obtain ⟨item, hcut⟩ := h.cut
  refine ⟨fun hlast => itemText_of_spaced hlower h ?_, fun c hc hspace => ?_⟩
  · rw [hcut] at hlast ⊢
    exact (itemText_spaced hlower item).take.mpr hlast
  · obtain ⟨hne, rfl⟩ := List.mem_getLast?_eq_getLast hc
    have htext := List.dropLast_append_getLast hne
    have hspaced : Spaced isSpace ' ' text.dropLast := by
      have hsplit : itemText env lower item =
          text.dropLast ++ text.getLast hne :: (itemText env lower item).drop 200 := by
        rw [← List.singleton_append (x := text.getLast hne), ← List.append_assoc, htext]
        conv_rhs => rw [hcut, List.take_append_drop]
      exact spaced_before (itemText_spaced hlower item) hsplit hspace
    have hcollapse : collapse isSpace ' ' text = text.dropLast := by
      conv_lhs => rw [← htext, collapse, words_append_space (by simpa using hspace)]
      exact collapse_of_spaced hspaced
    have htrim := trim_eq_self_iff.mpr ⟨hspaced.head, hspaced.last⟩
    have hsame : itemText env lower text = text.dropLast := by
      rw [itemText, hcollapse, htrim]
      cases hcase : lower with
      | false => rfl
      | true =>
        rw [hcase] at hcut
        have hprefixed : text.dropLast =
            (env.lower (trim isSpace (collapse isSpace ' ' item))).take (text.length - 1) := by
          have hle : text.length - 1 ≤ 200 := (Nat.sub_le _ 1).trans h.short
          have hshorter : text.take (text.length - 1) =
              (itemText env true item).take (min (text.length - 1) 200) := by
            rw [← List.take_take, ← hcut]
          rw [List.dropLast_eq_take, hshorter, Nat.min_eq_left hle]
          rfl
        rw [hprefixed]
        exact hlower.cut _ _
    rw [hsame, List.length_dropLast]
    have hpos := List.length_pos_iff.mpr hne
    omega

theorem settled_iff (hlower : Lowers env) :
    Settled (cleanList env lower limit values) ↔ ListStays env lower limit values := by
  rw [cleanList, ← collect_filter]
  refine settled_collect_iff fun text htext => ?_
  obtain ⟨hitem, hne⟩ := List.mem_filter.mp htext
  obtain ⟨item, -, rfl⟩ := List.mem_map.mp hitem
  exact ⟨of_decide_eq_true hne, itemText_spaced hlower item⟩

/-- **A cleaned list stays** when it is cleaned again iff the texts of its items do. -/
theorem cleanList_again_iff (hlower : Lowers env) :
    cleanList env lower limit (.items (cleanList env lower limit values)) =
      cleanList env lower limit values ↔ ListStays env lower limit values := by
  rw [← settled_iff hlower]
  have hcut : ∀ text ∈ cleanList env lower limit values, CutText env lower text := fun text htext =>
    cutText_of_mem htext
  have hlimit : (cleanList env lower limit values).length ≤ limit := List.length_take_le _ _
  generalize cleanList env lower limit values = l at hcut hlimit
  have hagain : cleanList env lower limit (.items l) =
    ((l.map (itemText env lower)).foldl addClean []).take limit := rfl
  rw [hagain]
  have hsame : (∀ text ∈ l, ∀ c ∈ text.getLast?, isSpace c = false) →
      l.map (itemText env lower) = l := fun hlast =>
    (List.map_congr_left fun text htext => (itemText_cut hlower (hcut text htext)).1
      (hlast text htext)).trans (List.map_id l)
  constructor
  · intro heq
    have hall : (l.map (itemText env lower)).foldl addClean [] =
        (l.map (itemText env lower)).map (·.take 200) := collect_eq_map (by
      rw [List.length_map]
      conv_lhs => rw [← heq]
      exact List.length_take_le' _ _)
    rw [hall, List.map_map, List.take_of_length_le (by rwa [List.length_map])] at heq
    have hlast : ∀ text ∈ l, ∀ c ∈ text.getLast?, isSpace c = false := by
      intro text htext c hc
      by_contra hspace
      have hshort := (itemText_cut hlower (hcut text htext)).2 c hc (eq_true_of_ne_false hspace)
      have hself : (itemText env lower text).take 200 = text :=
        List.map_inj_left.mp (heq.trans (List.map_id l).symm) text htext
      have hle := List.length_take_le' 200 (itemText env lower text)
      rw [hself] at hle
      omega
    refine ⟨?_, hlast⟩
    rw [hsame hlast] at hall
    have hnodup := nodup_collect_short fun text htext => (hcut text htext).short
    rw [hall, List.map_congr_left fun text htext => List.take_of_length_le (hcut text htext).short,
      List.map_id'] at hnodup
    exact hnodup
  · intro h
    rw [hsame h.last, collect_of_nodup
      (fun text htext => ⟨(hcut text htext).ne, (hcut text htext).short⟩)
      h.nodup, List.take_of_length_le hlimit]

end

/-! ## Domains are read again -/

section
variable {env : ProfileEnv} {values : ListValue} {domain : List Char} {domains : List (List Char)}

theorem not_isSpace_of_range {c : Char} (h : 33 ≤ c.toNat ∧ c.toNat ≤ 126) : isSpace c = false := by
  simp only [isSpace, Bool.or_eq_false_iff, Bool.and_eq_false_iff, decide_eq_false_iff_not,
    beq_eq_false_iff_ne]
  omega

theorem domainChar_range {c : Char} (h : isDomainChar c = true) : (97 ≤ c.toNat ∧ c.toNat ≤ 122) ∨
    (48 ≤ c.toNat ∧ c.toNat ≤ 57) ∨ c = '.' ∨ c = '-' := by
  simp only [isDomainChar, isLetter, Char.isDigit, Bool.or_eq_true, Bool.and_eq_true,
    decide_eq_true_eq] at h
  rcases h with ((h | h) | h) | h
  · exact Or.inl ⟨h.1, h.2⟩
  · exact Or.inr (Or.inl ⟨h.1, h.2⟩)
  · exact Or.inr (Or.inr (Or.inl h))
  · exact Or.inr (Or.inr (Or.inr h))

theorem domainChar_spec {c : Char} (h : isDomainChar c = true) :
    isSpace c = false ∧ c ≠ ':' ∧ c ≠ '/' := by
  rcases domainChar_range h with h | h | rfl | rfl
  · refine ⟨not_isSpace_of_range ⟨by omega, by omega⟩, ?_, ?_⟩
    · rintro rfl
      exact absurd h.1 (by decide)
    · rintro rfl
      exact absurd h.1 (by decide)
  · refine ⟨not_isSpace_of_range ⟨by omega, by omega⟩, ?_, ?_⟩
    · rintro rfl
      exact absurd h.2 (by decide)
    · rintro rfl
      exact absurd h.1 (by decide)
  · decide
  · decide

theorem domainChar_of_isDomain (h : isDomain domain = true) : ∀ c ∈ domain, isDomainChar c = true := by
  simp only [isDomain, Bool.and_eq_true] at h
  exact fun c hc => List.all_eq_true.mp h.1.1.1 c hc

theorem hostDomain_eq (h : ∀ c ∈ domain, isDomainChar c = true) :
    hostDomain domain = if isDomain (removeWww domain) then removeWww domain else [] := by
  have hslash : domain.rdropWhile (· = '/') = domain := by
    refine List.rdropWhile_eq_self_iff.mpr fun hne => ?_
    simpa using (domainChar_spec (h _ (List.getLast_mem hne))).2.2
  rw [hostDomain, hslash]

theorem length_hostDomain_le (h : ∀ c ∈ domain, isDomainChar c = true) :
    (hostDomain domain).length ≤ (removeWww domain).length := by
  rw [hostDomain_eq h]
  split_ifs
  · exact le_rfl
  · exact Nat.zero_le _

theorem length_removeWww (text : List Char) : (removeWww text).length ≤ text.length ∧
    ("www.".toList <+: text → (removeWww text).length < text.length) := by
  rw [removeWww]
  split_ifs with hprefixed
  · have hlong := (List.isPrefixOf_iff_prefix.mp hprefixed).length_le
    have hfour : "www.".toList.length = 4 := rfl
    rw [List.length_drop]
    exact ⟨Nat.sub_le _ _, fun _ => by omega⟩
  · exact ⟨le_rfl, fun h => absurd (List.isPrefixOf_iff_prefix.mpr h) hprefixed⟩

theorem domainOf_domain (hlower : Lowers env) (h : ∀ c ∈ domain, isDomainChar c = true) :
    domainOf env domain = .ok (hostDomain domain) := by
  have htrim : trim isSpace domain = domain := trim_eq_self_iff.mpr
    ⟨fun c hc => (domainChar_spec (h c (List.mem_of_mem_head? hc))).1,
      fun c hc => (domainChar_spec (h c (List.mem_of_getLast? hc))).1⟩
  have hscheme : ¬"://".toList <:+: domain := fun hin =>
    (domainChar_spec (h ':' (hin.subset (List.mem_cons_self)))).2.1 rfl
  rw [domainOf, htrim, hlower.domain domain h, hostText, if_neg hscheme]
  rfl

theorem mapM_eq_map {α β : Type} {f : α → Except String β} {g : α → β} {l : List α}
    (h : ∀ a ∈ l, f a = .ok (g a)) : l.mapM f = .ok (l.map g) := by
  induction l with
  | nil => rfl
  | cons a l ih =>
    exact mapM_cons_eq_ok.mpr ⟨g a, l.map g, h a List.mem_cons_self,
      ih fun b hb => h b (List.mem_cons_of_mem a hb), rfl⟩

theorem domains_spec {texts : List (List Char)} (h : domainsOf env texts = .ok domains) :
    domains.length ≤ texts.length ∧ ∀ domain ∈ domains, domain ≠ [] ∧ isDomain domain = true := by
  rw [domainsOf] at h
  cases hall : texts.mapM (domainOf env) with
  | error message =>
    rw [hall] at h
    cases h
  | ok found =>
    rw [hall] at h
    obtain rfl := Except.ok.inj h
    refine ⟨(List.length_filter_le _ _).trans (length_mapM hall).le, fun domain hdomain => ?_⟩
    obtain ⟨hmem, hne⟩ := List.mem_filter.mp hdomain
    have hne := of_decide_eq_true hne
    obtain ⟨text, -, htext⟩ := mem_of_mapM_ok hall hmem
    refine ⟨hne, ?_⟩
    rw [domainOf] at htext
    obtain ⟨host, -, hhost⟩ := map_eq_ok.mp htext
    rw [hostDomain] at hhost
    by_cases hvalid : isDomain (removeWww (host.rdropWhile (· = '/'))) = true
    · rw [if_pos hvalid] at hhost
      rwa [← hhost]
    · rw [if_neg hvalid] at hhost
      exact absurd hhost.symm hne

theorem itemText_domain (h : ∀ c ∈ domain, isDomainChar c = true) :
    itemText env false domain = domain := by
  have hink : ∀ c ∈ domain, isSpace c = false := fun c hc => (domainChar_spec (h c hc)).1
  have hspaced : Spaced isSpace ' ' domain := spaced_of_no_space hink
  rw [itemText, collapse_of_spaced hspaced]
  exact trim_eq_self_iff.mpr ⟨hspaced.head, hspaced.last⟩

theorem hostDomain_of_clean (hdomain : isDomain domain = true) (hwww : ¬"www.".toList <+: domain) :
    hostDomain domain = domain := by
  have hremove : removeWww domain = domain := by
    rw [removeWww, if_neg fun h => hwww (List.isPrefixOf_iff_prefix.mp h)]
  rw [hostDomain_eq (domainChar_of_isDomain hdomain), hremove, if_pos hdomain]

theorem domain_of_cut (hdomain : isDomain domain = true) (h : hostDomain (domain.take 200) = domain) :
    ¬"www.".toList <+: domain ∧ domain.length ≤ 200 := by
  have hcut := length_hostDomain_le fun c hc =>
    domainChar_of_isDomain hdomain c (List.take_subset 200 domain hc)
  rw [h] at hcut
  have hremove := length_removeWww (domain.take 200)
  have hshort : domain.length ≤ 200 := (hcut.trans hremove.1).trans (List.length_take_le _ _)
  rw [List.take_of_length_le hshort] at hcut hremove
  exact ⟨fun hwww => absurd (hremove.2 hwww) (Nat.not_lt.mpr hcut), hshort⟩

theorem domainsOf_again (hlower : Lowers env) (hshort : domains.length ≤ maxList)
    (h : ∀ domain ∈ domains, domain ≠ [] ∧ isDomain domain = true) :
    domainsOf env (cleanList env false maxList (.items domains)) =
      .ok (((domains.foldl addClean []).map hostDomain).filter (· ≠ [])) := by
  have hitems : domains.map (itemText env false) = domains :=
    (List.map_congr_left fun domain hdomain =>
      itemText_domain (domainChar_of_isDomain (h domain hdomain).2)).trans (List.map_id domains)
  have hlist : cleanList env false maxList (.items domains) = domains.foldl addClean [] := by
    rw [cleanList, ListValue.texts, hitems]
    exact List.take_of_length_le ((length_collect_le domains).trans hshort)
  rw [hlist, domainsOf, mapM_eq_map (g := hostDomain)]
  · rfl
  · intro text htext
    obtain ⟨domain, hdomain, rfl⟩ :=
      List.mem_map.mp ((mem_collect fun domain hdomain => (h domain hdomain).1).mp htext)
    exact domainOf_domain hlower fun c hc =>
      domainChar_of_isDomain (h domain hdomain).2 c (List.mem_of_mem_take hc)

/-- **The domains of a profile stay** when they are read again iff they are distinct, of at most 200
characters, and have no "www." left. -/
theorem domainsOf_again_iff (hlower : Lowers env)
    (h : domainsOf env (cleanList env false maxList values) = .ok domains) :
    domainsOf env (cleanList env false maxList (.items domains)) = .ok domains ↔
      DomainsStay env values := by
  obtain ⟨hle, hdomains⟩ := domains_spec h
  have hshort : domains.length ≤ maxList := hle.trans (List.length_take_le _ _)
  have hstay : DomainsStay env values ↔
      domains.Nodup ∧ ∀ domain ∈ domains, ¬"www.".toList <+: domain ∧ domain.length ≤ 200 := by
    refine ⟨fun hstay => hstay domains h, fun hstay other hother => ?_⟩
    obtain rfl := Except.ok.inj (h.symm.trans hother)
    exact hstay
  rw [domainsOf_again hlower hshort hdomains, hstay]
  constructor
  · intro heq
    have heq := Except.ok.inj heq
    have hcount := congrArg List.length heq
    have hfilter := List.length_filter_le (· ≠ []) ((domains.foldl addClean []).map hostDomain)
    rw [List.length_map] at hfilter
    have hall : domains.foldl addClean [] = domains.map (·.take 200) :=
      collect_eq_map (hcount.ge.trans hfilter)
    have hwhole : ((domains.foldl addClean []).map hostDomain).filter (· ≠ []) =
        (domains.foldl addClean []).map hostDomain := by
      refine List.filter_sublist.eq_of_length_le ?_
      rw [hcount, List.length_map]
      exact length_collect_le domains
    rw [hwhole, hall, List.map_map] at heq
    have hclean : ∀ domain ∈ domains, ¬"www.".toList <+: domain ∧ domain.length ≤ 200 :=
      fun domain hdomain => domain_of_cut (hdomains domain hdomain).2
        (List.map_inj_left.mp (heq.trans (List.map_id domains).symm) domain hdomain)
    refine ⟨?_, hclean⟩
    have hnodup := nodup_collect_short fun domain hdomain => (hclean domain hdomain).2
    rwa [hall, List.map_congr_left fun domain hdomain =>
      List.take_of_length_le (hclean domain hdomain).2, List.map_id'] at hnodup
  · rintro ⟨hnodup, hclean⟩
    have hsame : domains.map hostDomain = domains :=
      (List.map_congr_left fun domain hdomain => hostDomain_of_clean (hdomains domain hdomain).2
        (hclean domain hdomain).1).trans (List.map_id domains)
    rw [collect_of_nodup (fun domain hdomain => ⟨(hdomains domain hdomain).1,
      (hclean domain hdomain).2⟩) hnodup, hsame, List.filter_eq_self.mpr]
    exact fun domain hdomain => decide_eq_true (hdomains domain hdomain).1

/-! ## Contacts are read again -/

theorem not_isSpace_of_isEmail {text : List Char} (h : isEmail text = true) :
    ∀ c ∈ text, isSpace c = false := by
  simp only [isEmail, Bool.and_eq_true] at h
  exact fun c hc => by simpa using List.all_eq_true.mp h.1.1.1.1.1 c hc

theorem contacts_again (hlower : Lowers env) {limit : Nat}
    (h : ∀ contact ∈ cleanList env true limit values, isEmail contact = true) :
    ∀ contact ∈ cleanList env true limit (.items (cleanList env true limit values)),
      isEmail contact = true := by
  have hcut : ∀ contact ∈ cleanList env true limit values, CutText env true contact :=
    fun contact hcontact => cutText_of_mem hcontact
  generalize cleanList env true limit values = contacts at h hcut
  have hitems : contacts.map (itemText env true) = contacts :=
    (List.map_congr_left fun contact hcontact => itemText_of_spaced hlower (hcut contact hcontact)
      (spaced_of_no_space (not_isSpace_of_isEmail (h contact hcontact)))).trans (List.map_id contacts)
  intro contact hcontact
  rw [cleanList, ListValue.texts, hitems] at hcontact
  obtain ⟨whole, hwhole, rfl⟩ := List.mem_map.mp
    ((mem_collect fun contact hcontact => (hcut contact hcontact).ne).mp (List.mem_of_mem_take hcontact))
  rw [List.take_of_length_le (hcut whole hwhole).short]
  exact h whole hwhole

end

/-! ## Profiles are read again -/

section
variable {env : ProfileEnv} {id : List Char} {payload : Payload} {p : InstitutionProfile}

/-- What is accepted, and as what. -/
structure Accepted (env : ProfileEnv) (id : List Char) (payload : Payload) (p : InstitutionProfile) :
    Prop where
  named : trim isSpace id ≠ [] ∧ trim isSpace payload.name ≠ []
  contacts : ∀ contact ∈ cleanList env true 10 payload.securityContacts, isEmail contact = true
  domains : domainsOf env (cleanList env false maxList payload.officialDomains) = .ok p.officialDomains
  fields : p = profileOf env id payload p.officialDomains

theorem fromDict_eq_ok : fromDict env id payload = .ok p ↔ Accepted env id payload p := by
  rw [fromDict]
  constructor
  · intro h
    split at h
    · cases h
    · next hnamed =>
      split at h
      · cases h
      · next domains hdomains =>
        dsimp only at h
        split at h
        · cases h
        · next hcontacts =>
          obtain rfl := Except.ok.inj h
          refine ⟨not_or.mp hnamed, fun contact hcontact => ?_, hdomains, rfl⟩
          simpa using List.find?_eq_none.mp hcontacts contact hcontact
  · intro h
    have hcontacts : (cleanList env true 10 payload.securityContacts).find?
        (fun item => !isEmail item) = none :=
      List.find?_eq_none.mpr fun contact hcontact => by simp [h.contacts contact hcontact]
    rw [if_neg (not_or.mpr h.named), h.domains]
    simp only [hcontacts]
    exact congrArg Except.ok h.fields.symm

/-- **What is saved is accepted** when it is read. -/
theorem fromDict_asDict_accepted (hlower : Lowers env) (h : Accepted env id payload p) :
    ∃ again, fromDict env id p.asDict = .ok again := by
  obtain ⟨hle, hdomains⟩ := domains_spec h.domains
  have hshort : p.officialDomains.length ≤ maxList := hle.trans (List.length_take_le _ _)
  have hname : trim isSpace p.name ≠ [] := by
    have hspaced : Spaced isSpace ' ' p.name := by
      rw [h.fields]
      exact spaced_collapse (by decide)
    rw [trim_eq_self_iff.mpr ⟨hspaced.head, hspaced.last⟩, h.fields]
    refine collapse_ne_nil (by decide) ?_
    by_contra hblank
    push Not at hblank
    exact h.named.2 (trim_blank fun c hc => eq_true_of_ne_false (hblank c hc))
  have hcontacts : ∀ contact ∈ cleanList env true 10 p.asDict.securityContacts,
      isEmail contact = true := by
    rw [h.fields]
    exact contacts_again hlower h.contacts
  exact ⟨profileOf env id p.asDict _, fromDict_eq_ok.mpr
    ⟨⟨h.named.1, hname⟩, hcontacts, domainsOf_again hlower hshort hdomains, rfl⟩⟩

theorem profileOf_again_iff (hlower : Lowers env) {domains : List (List Char)}
    (hp : p = profileOf env id payload domains) : p = profileOf env id p.asDict domains ↔
      (∀ c ∈ (trim isSpace payload.location)[119]?, isSpace c = false) ∧
        ListStays env false maxList payload.aliases ∧ ListStays env false maxList payload.programs ∧
        ListStays env true maxList payload.socialAccounts ∧
        ListStays env true maxList payload.keywords ∧ ListStays env true maxList payload.exclusions ∧
        ListStays env false maxList payload.alertRecipients ∧
        ListStays env true 10 payload.securityContacts := by
  have hname : collapse isSpace ' ' (collapse isSpace ' ' payload.name) =
      collapse isSpace ' ' payload.name := collapse_collapse (by decide)
  have hlocation : (trim isSpace ((trim isSpace payload.location).take 120)).take 120 =
      (trim isSpace payload.location).take 120 ↔
        ∀ c ∈ (trim isSpace payload.location)[119]?, isSpace c = false := by
    rw [List.take_of_length_le (length_trim_le.trans (List.length_take_le _ _)), ← trim_take_trim_iff]
  subst hp
  rw [eq_comm]
  simp only [profileOf, InstitutionProfile.asDict, InstitutionProfile.mk.injEq, true_and, hname,
    hlocation, cleanList_again_iff hlower]

/-- **A saved profile reads back** iff its location, its lists and its domains stay. -/
theorem fromDict_asDict_iff (hlower : Lowers env) (h : fromDict env id payload = .ok p) :
    fromDict env id p.asDict = .ok p ↔ Stays env payload := by
  have hp := fromDict_eq_ok.mp h
  have hdomains : domainsOf env (cleanList env false maxList p.asDict.officialDomains) =
      .ok p.officialDomains ↔ DomainsStay env payload.officialDomains :=
    domainsOf_again_iff hlower hp.domains
  have hfields := profileOf_again_iff hlower hp.fields
  constructor
  · intro hagain
    have hread := fromDict_eq_ok.mp hagain
    obtain ⟨hlocation, haliases, hprograms, haccounts, hkeywords, hexclusions, hrecipients, hcontacts⟩ :=
      hfields.mp hread.fields
    exact ⟨hlocation, haliases, hdomains.mp hread.domains, hprograms, haccounts, hkeywords, hexclusions,
      hrecipients, hcontacts⟩
  · intro hstays
    obtain ⟨again, hagain⟩ := fromDict_asDict_accepted hlower hp
    have hread := fromDict_eq_ok.mp hagain
    refine fromDict_eq_ok.mpr ⟨hread.named, hread.contacts, hdomains.mpr hstays.officialDomains, ?_⟩
    exact hfields.mpr ⟨hstays.location, hstays.aliases, hstays.programs, hstays.socialAccounts,
      hstays.keywords, hstays.exclusions, hstays.alertRecipients, hstays.securityContacts⟩

end

/-! ## A profile -/

/-- The host of "https://host/path", and `str.lower` on such texts. -/
def plainEnv : ProfileEnv where
  lower := List.map Char.toLower
  hostname text := .ok (some (((text.dropWhile (· ≠ '/')).drop 2).takeWhile (· ≠ '/')))

theorem toLower_range (c : Char) : c.toLower = c ∨
    (65 ≤ c.toNat ∧ c.toNat ≤ 90) ∧ 97 ≤ c.toLower.toNat ∧ c.toLower.toNat ≤ 122 := by
  rcases toLower_cases c with h | h
  · exact Or.inl h
  · by_cases hupper : c.val ≥ 'A'.val ∧ c.val ≤ 'Z'.val
    · obtain ⟨hlow, hhigh⟩ := isLower_iff.mp h
      exact Or.inr ⟨⟨hupper.1, hupper.2⟩, hlow, hhigh⟩
    · exact Or.inl (dif_neg hupper)

theorem lowers_plainEnv : Lowers plainEnv where
  spaced text h := by
    refine h.map (fun c => ?_) fun c hc => ?_
    · rcases toLower_range c with heq | ⟨hc, hlow⟩
      · rw [heq]
      · rw [not_isSpace_of_range ⟨by omega, by omega⟩, not_isSpace_of_range ⟨by omega, by omega⟩]
    · rcases toLower_range c with heq | ⟨hrange, -⟩
      · exact heq
      · rw [not_isSpace_of_range ⟨by omega, by omega⟩] at hc
        cases hc
  cut text n := by
    show ((text.map Char.toLower).take n).map Char.toLower = (text.map Char.toLower).take n
    rw [← List.map_take, List.map_map]
    exact List.map_congr_left fun c _ => toLower_toLower c
  domain text h := by
    refine (List.map_congr_left fun c hc => ?_).trans (List.map_id text)
    rcases toLower_range c with heq | ⟨hrange, -⟩
    · exact heq
    · have hnot : ¬(65 ≤ c.toNat ∧ c.toNat ≤ 90) := by
        rcases domainChar_range (h c hc) with hchar | hchar | rfl | rfl
        · omega
        · omega
        · decide
        · decide
      exact absurd hrange hnot

def namedPayload (name : String) (domains : List String) : Payload where
  name := name.toList
  location := []
  aliases := .items []
  officialDomains := .items (domains.map String.toList)
  programs := .items []
  socialAccounts := .items []
  keywords := .items []
  exclusions := .items []
  monitoringEnabled := true
  alertRecipients := .items []
  securityContacts := .text "Head@X.edu, it@x.edu".toList

def labPayload : Payload := namedPayload " Guru  Ji" ["https://www.x.edu/about", "lab.x.edu"]

def labProfile : InstitutionProfile :=
  profileOf plainEnv "x".toList labPayload ["x.edu".toList, "lab.x.edu".toList]

theorem labProfile_reads_back : Stays plainEnv labPayload :=
  (fromDict_asDict_iff lowers_plainEnv (by decide : fromDict plainEnv "x".toList labPayload =
    .ok labProfile)).mp (by decide)

/-- **The host of a domain that begins with "www." twice is official**, and so are the hosts beside it
when the profile is read again. -/
theorem domain_widened : ∃ p again, fromDict plainEnv "x".toList (namedPayload "X" ["www.www.x.edu"]) =
    .ok p ∧ fromDict plainEnv "x".toList p.asDict = .ok again ∧ again ≠ p ∧
    p.isOfficialHost plainEnv "other.x.edu".toList = false ∧
    again.isOfficialHost plainEnv "other.x.edu".toList = true :=
  ⟨profileOf plainEnv "x".toList (namedPayload "X" ["www.www.x.edu"]) ["www.x.edu".toList],
    profileOf plainEnv "x".toList (namedPayload "X" ["www.www.x.edu"]) ["x.edu".toList],
    by decide⟩

end GuruJi.Profiles
