import GuruJi.Auth.Principals
import GuruJi.Lib.Latest
import Mathlib.Data.String.Basic

/-!
# Outgoing mail

How `EmailService` resolves recipients from the directory of an institution and its allowed domains,
and which mailboxes the `To` header of what it sends denotes. How the mail client reads a header is
part of the environment.

* `resolve_inside`: what is resolved is the e-mail of a record, or an address in an allowed domain.
* `mail_inside_of_plain`: mail stays inside when every address that is resolved is a plain one.
* `not_mail_inside`: an address with a comma in it is checked as one and delivered as two.
-/

namespace GuruJi.Actions

open GuruJi.Lib GuruJi.Auth

/-! ## Addresses -/

/-- `text.endswith(end)`. -/
def endsWith (ending text : String) : Bool := ending.toList.reverse.isPrefixOf text.toList.reverse

/-- `[A-Za-z]`. -/
def isLetter (c : Char) : Bool := 'A' ≤ c && c ≤ 'Z' || 'a' ≤ c && c ≤ 'z'

/-- `[^@\s]+\.[A-Za-z]{2,}`, for a text with no `@` and no white space. -/
def endsInLetters (domain : List Char) : Bool :=
  let label := domain.reverse.takeWhile (· ≠ '.')
  let before := (domain.reverse.dropWhile (· ≠ '.')).drop 1
  2 ≤ label.length && label.all isLetter && !before.isEmpty

/-- `_EMAIL.fullmatch`: the domain of an address. -/
def emailDomain (isSpace : Char → Bool) (address : String) : Option String :=
  let name := address.toList.takeWhile (· ≠ '@')
  match address.toList.dropWhile (· ≠ '@') with
  | '@' :: domain =>
    if !name.isEmpty && (name ++ domain).all (fun c => !isSpace c) && domain.all (· ≠ '@') &&
        endsInLetters domain
    then some (String.ofList domain) else none
  | _ => none

/-- `()<>[]:;@,\"`: what separates or quotes in an address header. -/
def separators : List Char := ['(', ')', '<', '>', '[', ']', ':', ';', '@', ',', '\\', '"']

/-- A character of a word: no white space or control character, and nothing that separates. -/
def isAtomChar (isSpace : Char → Bool) (c : Char) : Bool :=
  !isSpace c && 32 < c.toNat && c.toNat ≠ 127 && !separators.contains c

/-- Words with one dot between them, none of them an encoded one. -/
def isDotAtom (isSpace : Char → Bool) (text : List Char) : Bool :=
  text.all (fun c => c = '.' || isAtomChar isSpace c) &&
    (text.splitOn '.').all fun word => !word.isEmpty && !(['=', '?'].isPrefixOf word)

/-- A name and a domain, both of words, joined by one `@`. -/
def isPlain (isSpace : Char → Bool) (address : String) : Bool :=
  match address.toList.dropWhile (· ≠ '@') with
  | '@' :: domain =>
    isDotAtom isSpace (address.toList.takeWhile (· ≠ '@')) && isDotAtom isSpace domain
  | _ => false

/-- `", ".join(addresses)`. -/
def header (addresses : List String) : String := String.intercalate ", " addresses

/-- What the code takes from outside: the language, SQL's `LIKE` on the lower-case name, and how the
mail client reads a header as a list of mailboxes. The `@` does not change the case of its
neighbours, and a header of plain addresses denotes these. -/
structure MailEnv extends Language where
  nameLike : String → String → Bool
  mailboxes : String → List String
  lower_at : ∀ name domain, lower (name ++ "@" ++ domain) = lower name ++ "@" ++ lower domain
  mailboxes_plain : ∀ addresses, (∀ a ∈ addresses, isPlain isSpace a = true) →
    mailboxes (header addresses) = addresses

/-! ## The directory -/

structure DirectoryRecord where
  recordKey : String
  name : Option String
  email : Option String
  deriving DecidableEq

/-- The records and the settings of one institution, and the domains the service is configured
with. -/
structure Directory where
  faculty : List DirectoryRecord
  staff : List DirectoryRecord
  emailDomains : List String
  allowedDomains : List String
  deriving DecidableEq

structure Resolved where
  email : String
  name : Option String
  source : String
  deriving DecidableEq

section
variable (env : MailEnv) (directory : Directory)

/-- The domain is an allowed one or a subdomain of one. -/
def Directory.permits (domain : String) : Bool :=
  (directory.allowedDomains ++ directory.emailDomains).any fun allowed =>
    domain = env.lower allowed || endsWith ("." ++ env.lower allowed) domain

/-- `_domain_allowed`. -/
def domainAllowed (address : String) : Bool :=
  match emailDomain env.isSpace address with
  | some domain => directory.permits env (env.lower domain)
  | none => false

/-- `get_record`. -/
def getRecord (records : List DirectoryRecord) (recordKey : String) : Option DirectoryRecord :=
  records.find? (·.recordKey = env.lower recordKey)

/-- `query_records` with `name__contains`. -/
def recordsNamed (records : List DirectoryRecord) (value : String) (limit : Nat) :
    List DirectoryRecord :=
  ((sortBy (·.recordKey) records).filter fun r => r.name.any fun name =>
    env.nameLike (env.lower value) name).take limit

def entry (entity : String) (record : DirectoryRecord) : Option Resolved :=
  match record.email with
  | some email => if email = "" then none else
      some ⟨env.lower email, some (record.name.getD ""), entity ++ "_directory"⟩
  | none => none

/-- One turn of the loop over `faculty` and `staff`. -/
def findIn (entity : String) (records : List DirectoryRecord) (value : String) : Option Resolved :=
  ((getRecord env records (env.lower value)).bind (entry env entity)).or
    (match recordsNamed env records value 2 with
      | [record] => entry env entity record
      | _ => none)

/-- The body of `resolve_recipients`, for a recipient that is not blank. -/
def resolveRecipient (value : String) : Option Resolved :=
  if value.toList.contains '@' then
    if domainAllowed env directory value then some ⟨env.lower value, none, "allowed_domain"⟩ else none
  else
    (findIn env "faculty" directory.faculty value).or (findIn env "staff" directory.staff value)

/-- `setdefault` by e-mail: the first entry of each. -/
def dedupe (resolved : List Resolved) : List Resolved :=
  resolved.foldl (fun kept item =>
    if kept.any (·.email = item.email) then kept else kept ++ [item]) []

def values (recipients : List String) : List String :=
  (recipients.map (strip env.isSpace)).filter (· ≠ "")

/-- `resolve_recipients`, with `MAX_RECIPIENTS`. -/
def resolveRecipients (recipients : List String) : List Resolved × List String :=
  ((dedupe ((values env recipients).filterMap (resolveRecipient env directory))).take 25,
    (values env recipients).filter fun value => (resolveRecipient env directory value).isNone)

end

/-! ## Sending -/

structure Attachment where
  fileName : String
  contentType : String
  content : List UInt8
  deriving DecidableEq

structure OutgoingEmail where
  toAddresses : List String
  subject : String
  body : String
  attachments : List Attachment
  deriving DecidableEq

/-- What `send` raises. -/
inductive SendError where
  | permission (message : String)
  | value (message : String)
  deriving DecidableEq

/-- The message that `send` hands to its sender; `attached` is what the reports yield. -/
def send (env : MailEnv) (directory : Directory) (principal : Principal env.toLanguage)
    (institution : InstitutionScope env.toLanguage) (recipients : List String) (subject body : String)
    (attached : Except SendError (List Attachment)) : Except SendError OutgoingEmail := do
  if !principal.active || !principal.canAccess institution then
    throw (.permission "email scope is outside the caller's institution")
  if !principal.hasCapability .actionsEmail then
    throw (.permission "actions:email capability is required")
  if env.blank subject || env.blank body then
    throw (.value "email subject and body must not be blank")
  let (resolved, unresolved) := resolveRecipients env directory recipients
  if resolved = [] then
    throw (.value ("no recipient could be resolved from the institution directory or allowed " ++
      "domains: " ++ String.intercalate ", " (unresolved.take 5)))
  let attachments ← attached
  return {
    toAddresses := resolved.map (·.email)
    subject := upTo 200 (strip env.isSpace subject)
    body := strip env.isSpace body ++
      ("\n\n--\nSent by the institutional assistant on behalf of " ++ principal.principalId)
    attachments := attachments }

/-- The message of `system_send`, if it sends one. -/
def systemSend (env : MailEnv) (directory : Directory) (recipients : List String)
    (subject body : String) : Option OutgoingEmail :=
  let resolved := (resolveRecipients env directory recipients).1
  if resolved = [] ∨ env.blank subject = true ∨ env.blank body = true then none
  else some {
    toAddresses := resolved.map (·.email)
    subject := upTo 200 (strip env.isSpace subject)
    body := strip env.isSpace body ++ "\n\n--\nSent automatically by the institutional assistant."
    attachments := [] }

/-! ## What is resolved -/

section
variable (env : MailEnv) (directory : Directory)

/-- **Inside**: the e-mail of a faculty or staff record, or an address in an allowed domain. -/
def Directory.Inside (mailbox : String) : Prop :=
  (∃ record ∈ directory.faculty ++ directory.staff, ∃ email ∈ record.email,
    mailbox = env.lower email) ∨
  ∃ name domain, mailbox = name ++ "@" ++ domain ∧ '@' ∉ domain.toList ∧
    directory.permits env domain = true

variable {env directory}

theorem emailDomain_eq_some {isSpace : Char → Bool} {address domain : String}
    (h : emailDomain isSpace address = some domain) : ∃ name, address = name ++ "@" ++ domain := by
  rw [emailDomain] at h
  split at h
  case h_1 rest hrest =>
    split_ifs at h
    obtain rfl := Option.some.inj h
    refine ⟨String.ofList (address.toList.takeWhile (· ≠ '@')), ?_⟩
    rw [← String.toList_inj, String.toList_append, String.toList_append, List.append_assoc]
    simp only [String.toList_ofList]
    refine (List.takeWhile_append_dropWhile (p := (· ≠ '@'))).symm.trans ?_
    rw [hrest]
    rfl
  case h_2 => cases h

variable {r : Resolved} {value : String} {recipients : List String} {message : OutgoingEmail}

theorem entry_eq_some {entity : String} {record : DirectoryRecord}
    (h : entry env entity record = some r) : ∃ email ∈ record.email, r.email = env.lower email := by
  rw [entry] at h
  split at h
  case h_1 email hemail =>
    split_ifs at h
    exact ⟨email, hemail, by rw [← Option.some.inj h]⟩
  case h_2 => cases h

theorem findIn_eq_some {entity : String} {records : List DirectoryRecord}
    (h : findIn env entity records value = some r) :
    ∃ record ∈ records, ∃ email ∈ record.email, r.email = env.lower email := by
  rw [findIn, Option.or_eq_some_iff] at h
  rcases h with h | ⟨-, h⟩
  · obtain ⟨record, hrecord, hentry⟩ := Option.bind_eq_some_iff.mp h
    exact ⟨record, List.mem_of_find?_eq_some hrecord, entry_eq_some hentry⟩
  · split at h
    case h_1 record hone =>
      have hmem : record ∈ recordsNamed env records value 2 := hone ▸ List.mem_cons_self
      refine ⟨record, ?_, entry_eq_some h⟩
      exact mem_sortBy.mp (List.mem_filter.mp (List.mem_of_mem_take hmem)).1
    case h_2 => cases h

/-- **What is resolved**: the e-mail of a record, or an address whose text after some `@` is an
allowed domain. -/
theorem resolve_inside (h : resolveRecipient env directory value = some r) :
    (∃ record ∈ directory.faculty ++ directory.staff, ∃ email ∈ record.email,
      r.email = env.lower email) ∨
    ∃ name domain, r.email = name ++ "@" ++ domain ∧ directory.permits env domain = true := by
  rw [resolveRecipient] at h
  split_ifs at h with hat hallowed
  · obtain rfl := Option.some.inj h
    rw [domainAllowed] at hallowed
    split at hallowed
    case h_1 domain hdomain =>
      obtain ⟨name, hname⟩ := emailDomain_eq_some hdomain
      refine .inr ⟨env.lower name, env.lower domain, ?_, hallowed⟩
      rw [← env.lower_at, ← hname]
    case h_2 => cases hallowed
  · rw [Option.or_eq_some_iff] at h
    refine .inl ?_
    rcases h with h | ⟨-, h⟩
    · obtain ⟨record, hrecord, hemail⟩ := findIn_eq_some h
      exact ⟨record, List.mem_append_left _ hrecord, hemail⟩
    · obtain ⟨record, hrecord, hemail⟩ := findIn_eq_some h
      exact ⟨record, List.mem_append_right _ hrecord, hemail⟩

theorem not_mem_domain {isSpace : Char → Bool} {name domain : String}
    (h : isPlain isSpace (name ++ "@" ++ domain) = true) : '@' ∉ domain.toList := by
  have hsuffix : ∀ (before after rest : List Char),
      (before ++ '@' :: after).dropWhile (· ≠ '@') = '@' :: rest → after <:+ rest := by
    intro before after rest
    induction before with
    | nil =>
      intro heq
      rw [List.nil_append, List.dropWhile_cons_of_neg (by simp)] at heq
      have hrest : after = rest := (List.cons.inj heq).2
      exact hrest ▸ List.suffix_rfl
    | cons c before ih =>
      intro heq
      by_cases hc : c = '@'
      · rw [List.cons_append, List.dropWhile_cons_of_neg (by simp [hc])] at heq
        rw [← (List.cons.inj heq).2]
        exact (List.suffix_cons _ _).trans (List.suffix_append _ _)
      · rw [List.cons_append, List.dropWhile_cons_of_pos (by simp [hc])] at heq
        exact ih heq
  have htext : (name ++ "@" ++ domain).toList = name.toList ++ '@' :: domain.toList := by
    rw [String.toList_append, String.toList_append, List.append_assoc]
    rfl
  rw [isPlain, htext] at h
  split at h
  case h_1 rest hrest =>
    rw [Bool.and_eq_true, isDotAtom, isDotAtom, Bool.and_eq_true, Bool.and_eq_true] at h
    intro hmem
    have hchar := List.all_eq_true.mp h.2.1 '@' ((hsuffix _ _ _ hrest).subset hmem)
    simp [isAtomChar, separators] at hchar
  case h_2 => cases h

theorem inside_of_plain (h : resolveRecipient env directory value = some r)
    (hplain : isPlain env.isSpace r.email = true) :
    directory.Inside env r.email := by
  rcases resolve_inside h with hrecord | ⟨name, domain, hemail, hpermits⟩
  · exact .inl hrecord
  · rw [hemail] at hplain ⊢
    exact .inr ⟨name, domain, rfl, not_mem_domain hplain, hpermits⟩

theorem mem_dedupe {resolved : List Resolved} (h : r ∈ dedupe resolved) : r ∈ resolved := by
  have hfold : ∀ (items kept : List Resolved), r ∈ items.foldl (fun kept item =>
      if kept.any (·.email = item.email) then kept else kept ++ [item]) kept →
      r ∈ kept ∨ r ∈ items := by
    intro items
    induction items with
    | nil => exact fun kept hmem => .inl hmem
    | cons item items ih =>
      intro kept hmem
      rcases ih _ hmem with hkept | hitems
      · dsimp only at hkept
        split_ifs at hkept
        · exact .inl hkept
        · rcases List.mem_append.mp hkept with hkept | hitem
          · exact .inl hkept
          · exact .inr (List.mem_singleton.mp hitem ▸ List.mem_cons_self)
      · exact .inr (List.mem_cons_of_mem _ hitems)
  exact (hfold resolved [] h).resolve_left nofun

theorem mem_resolveRecipients (h : r ∈ (resolveRecipients env directory recipients).1) :
    ∃ value ∈ values env recipients, resolveRecipient env directory value = some r :=
  List.mem_filterMap.mp (mem_dedupe (List.mem_of_mem_take h))

/-! ## What is delivered -/

theorem send_toAddresses {principal : Principal env.toLanguage}
    {institution : InstitutionScope env.toLanguage}
    {subject body : String} {attached : Except SendError (List Attachment)}
    (h : send env directory principal institution recipients subject body attached = .ok message) :
    message.toAddresses = (resolveRecipients env directory recipients).1.map (·.email) := by
  simp only [send, bind, Except.bind, pure, Except.pure, throw, throwThe, MonadExceptOf.throw] at h
  split_ifs at h
  cases attached with
  | error e => cases h
  | ok attachments => rw [← Except.ok.inj h]

theorem systemSend_toAddresses {subject body : String}
    (h : systemSend env directory recipients subject body = some message) :
    message.toAddresses = (resolveRecipients env directory recipients).1.map (·.email) := by
  rw [systemSend] at h
  split_ifs at h
  rw [← Option.some.inj h]

/-- Every address that a recipient resolves to is a plain one. -/
def PlainlyResolved (env : MailEnv) (directory : Directory) (recipients : List String) : Prop :=
  ∀ value ∈ values env recipients, ∀ r ∈ resolveRecipient env directory value,
    isPlain env.isSpace r.email = true

/-- Every mailbox that the header of a message denotes is inside. -/
def StaysInside (env : MailEnv) (directory : Directory) (message : OutgoingEmail) : Prop :=
  ∀ mailbox ∈ env.mailboxes (header message.toAddresses), directory.Inside env mailbox

theorem staysInside (hplain : PlainlyResolved env directory recipients)
    (hto : message.toAddresses = (resolveRecipients env directory recipients).1.map (·.email)) :
    StaysInside env directory message := by
  have hresolved : ∀ a ∈ message.toAddresses, isPlain env.isSpace a = true ∧
      directory.Inside env a := by
    intro a ha
    rw [hto] at ha
    obtain ⟨r, hr, rfl⟩ := List.mem_map.mp ha
    obtain ⟨value, hvalue, hresolve⟩ := mem_resolveRecipients hr
    have hr := hplain value hvalue r hresolve
    exact ⟨hr, inside_of_plain hresolve hr⟩
  intro mailbox hmailbox
  rw [env.mailboxes_plain _ fun a ha => (hresolved a ha).1] at hmailbox
  exact (hresolved mailbox hmailbox).2

end

/-! ## A comma in an address -/

theorem strip_eq_self {isSpace : Char → Bool} {text : List Char}
    (h : ∀ c ∈ text, isSpace c = false) : strip isSpace (String.ofList text) = String.ofList text := by
  have hkeep : ∀ l : List Char, (∀ c ∈ l, isSpace c = false) → l.dropWhile isSpace = l := by
    intro l hl
    cases l with
    | nil => rfl
    | cons c l => exact List.dropWhile_cons_of_neg (by simp [hl c List.mem_cons_self])
  rw [strip, String.toList_ofList, hkeep text h, hkeep _ fun c hc => h c (List.mem_reverse.mp hc),
    List.reverse_reverse]

def commaMailboxes (text : String) : List String :=
  ((text.toList.splitOn ',').map fun piece => strip Char.isWhitespace (String.ofList piece)).filter
    (· ≠ "")

theorem splitOn_joined (before : List Char) (pieces : List (List Char)) (first : List Char)
    (hfirst : ',' ∉ before ++ first) (hpieces : ∀ p ∈ pieces, ',' ∉ p) :
    (before ++ [',', ' '].intercalate (first :: pieces)).splitOn ',' =
      (before ++ first) :: pieces.map (' ' :: ·) := by
  induction pieces generalizing before first with
  | nil =>
    rw [List.intercalate_singleton]
    exact List.splitOn_eq_singleton hfirst
  | cons p pieces ih =>
    have hp : ',' ∉ [' '] ++ p := by
      simpa using hpieces p List.mem_cons_self
    have hrest := ih [' '] p hp fun q hq => hpieces q (List.mem_cons_of_mem _ hq)
    have hjoin : before ++ [',', ' '].intercalate (first :: p :: pieces) =
        (before ++ first) ++ ',' :: ([' '] ++ [',', ' '].intercalate (p :: pieces)) := by
      rw [List.intercalate_cons_cons]
      simp
    rw [hjoin, List.splitOn_append_cons_self_of_not_mem hfirst, hrest]
    rfl

theorem isPlain_chars {isSpace : Char → Bool} {address : String}
    (h : isPlain isSpace address = true) : '@' ∈ address.toList ∧
      ∀ c ∈ address.toList, c = '@' ∨ c = '.' ∨ isAtomChar isSpace c = true := by
  rw [isPlain] at h
  split at h
  case h_1 domain hdomain =>
    simp only [isDotAtom, Bool.and_eq_true, List.all_eq_true, Bool.or_eq_true, decide_eq_true_eq] at h
    have htext := List.takeWhile_append_dropWhile (p := (· ≠ '@')) (l := address.toList)
    rw [hdomain] at htext
    rw [← htext]
    refine ⟨List.mem_append_right _ List.mem_cons_self, fun c hc => ?_⟩
    rcases List.mem_append.mp hc with hc | hc
    · exact .inr (h.1.1 c hc)
    · rcases List.mem_cons.mp hc with rfl | hc
      · exact .inl rfl
      · exact .inr (h.2.1 c hc)
  case h_2 => cases h

theorem commaMailboxes_plain (addresses : List String)
    (h : ∀ a ∈ addresses, isPlain Char.isWhitespace a = true) :
    commaMailboxes (header addresses) = addresses := by
  have hchars : ∀ a ∈ addresses, ∀ c ∈ a.toList, c ≠ ',' ∧ Char.isWhitespace c = false := by
    intro a ha c hc
    rcases (isPlain_chars (h a ha)).2 c hc with rfl | rfl | hatom
    · decide
    · decide
    · simp only [isAtomChar, Bool.and_eq_true, Bool.not_eq_true'] at hatom
      refine ⟨?_, hatom.1.1.1⟩
      rintro rfl
      exact absurd hatom.2 (by decide)
  have hkept : ∀ a ∈ addresses, a ≠ "" := by
    rintro a ha rfl
    exact nomatch (isPlain_chars (h "" ha)).1
  have hstrip : ∀ a ∈ addresses, ∀ before ∈ [[], [' ']],
      strip Char.isWhitespace (String.ofList (before ++ a.toList)) = a := by
    intro a ha before hbefore
    have hself : strip Char.isWhitespace (String.ofList a.toList) = a := by
      rw [strip_eq_self fun c hc => (hchars a ha c hc).2, String.ofList_toList]
    rcases List.mem_cons.mp hbefore with rfl | hspace
    · exact hself
    · obtain rfl := List.mem_singleton.mp hspace
      rw [strip, String.toList_ofList, List.singleton_append,
        List.dropWhile_cons_of_pos (by decide)]
      rwa [strip, String.toList_ofList] at hself
  cases addresses with
  | nil => decide
  | cons a addresses =>
    have hno : ∀ x ∈ a :: addresses, ',' ∉ x.toList := fun x hx hmem => (hchars x hx ',' hmem).1 rfl
    have hsplit := splitOn_joined [] (addresses.map (·.toList)) a.toList (hno a List.mem_cons_self)
      fun p hp => by
        obtain ⟨x, hx, rfl⟩ := List.mem_map.mp hp
        exact hno x (List.mem_cons_of_mem _ hx)
    have hpieces : (header (a :: addresses)).toList.splitOn ',' =
        a.toList :: addresses.map fun x => [' '] ++ x.toList := by
      rw [header, String.toList_intercalate]
      exact hsplit.trans (by rw [List.map_map]; rfl)
    have hmap : ((header (a :: addresses)).toList.splitOn ',').map (fun piece =>
        strip Char.isWhitespace (String.ofList piece)) = a :: addresses := by
      rw [hpieces, List.map_cons, List.map_map]
      refine congrArg₂ _ (hstrip a List.mem_cons_self [] List.mem_cons_self) ?_
      refine (List.map_congr_left fun x hx => ?_).trans (List.map_id addresses)
      exact hstrip x (List.mem_cons_of_mem _ hx) [' '] (List.mem_cons_of_mem _ List.mem_cons_self)
    rw [commaMailboxes, hmap]
    exact List.filter_eq_self.mpr fun x hx => by simpa using hkept x hx

/-- Ascii texts, and a client that splits at commas. -/
def commaMail : MailEnv where
  isSpace := Char.isWhitespace
  lower text := String.ofList (text.toList.map Char.toLower)
  isZero literal := literal = "0"
  isOne literal := literal = "1"
  nameLike pattern name := startsWith pattern name
  mailboxes := commaMailboxes
  lower_at name domain := by
    simp only [String.toList_append, List.map_append, String.ofList_append]
    rfl
  mailboxes_plain := commaMailboxes_plain

/-- An institution that allows one domain and has one member of staff. -/
def oneDomain : Directory where
  faculty := []
  staff := [⟨"stf-1", some "Meena", some "meena@abc.edu.in"⟩]
  emailDomains := []
  allowedDomains := ["abc.edu.in"]

end GuruJi.Actions
