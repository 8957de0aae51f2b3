import GuruJi.Crawl.Addresses
import GuruJi.Lib.Tasks
import Mathlib.Algebra.Order.Field.Rat
import Mathlib.Data.List.Infix

/-!
# Fetching public pages

`retrieve` follows redirects; every hop is checked, resolved, pinned to an address of the answer and
allowed by the robots.txt of its origin, which is read in the same way and remembered. Any number of
retrievals share the robots cache. The resolver answers as it likes at every look-up, the servers as they
like at every request, and another worker may keep a host.

The crawler notes beside the cache what was resolved, what was sent and which robots.txt was found.

* **`retrievals_vetted`**: what is behind every request of every run, and how many pages a retrieval asks
  for.

The parser of robots.txt (`ρ`), `urljoin`, the pattern of login pages and `ipaddress` are the
environment's; the waiting in `_turn` is a module of its own.
-/

namespace GuruJi.Crawl

open GuruJi.Lib

/-! ## Requests and answers -/

/-- A vetted request: the logical URL plus the pinned address it is sent to. -/
structure Target where
  url : Url
  pinnedUrl : Url
  hostHeader : String
  sniHostname : Option String
  userAgent : String
  deriving DecidableEq

def Target.headers (target : Target) : List (String × String) :=
  [("User-Agent", target.userAgent), ("Host", target.hostHeader)]

inductive Raised where
  | unfetchable (outcome : String)
  | hostBusy
  /-- The deadline of a request. -/
  | timeout
  /-- `httpx.ConnectError`, and whether the host refused. -/
  | connect (refused : Bool)
  | httpTimeout
  | http
  | tooLarge
  | value
  | other
  deriving DecidableEq

/-- What a server answers; `read` is `read_bounded`. -/
structure Response where
  status : Nat
  location : Option String
  etag : Option String
  lastModified : Option String
  contentType : String
  read : Nat → Except Raised (List UInt8)

/-- What the resolver answers: addresses, none of which means no such name, or that it fails. -/
inductive Resolution where
  | addresses (answer : List Address)
  | timeout
  | failed

structure Origin where
  scheme : String
  netloc : String
  deriving DecidableEq

def Url.origin (url : Url) : Origin := ⟨url.scheme, url.netloc⟩

/-- `f"{origin}/robots.txt"`. -/
def Origin.robotsUrl (origin : Origin) : Url := ⟨origin.scheme, origin.netloc, "/robots.txt", ""⟩

/-- What a request is for: a page, or the robots.txt of an origin. -/
inductive Purpose where
  | page
  | robots (origin : Origin)
  deriving DecidableEq

inductive Effect (ρ : Type) where
  | resolve (host : String)
  | clock
  | cached (origin : Origin)
  | store (origin : Origin) (entry : ℚ × Option ρ)
  | turn (url : Url)
  | send (purpose : Purpose) (target : Target) (headers : List (String × String))

/-- `turn` says whether the host was given. -/
def Answer (ρ : Type) : Effect ρ → Type
  | .resolve _ => Resolution
  | .clock => ℚ
  | .cached _ => Option (ℚ × Option ρ)
  | .store .. => Unit
  | .turn _ => Bool
  | .send .. => Except Raised Response

abbrev Fetch (ρ α : Type) := Attempt (Effect ρ) (Answer ρ) Raised α

section
variable {ρ : Type}

/-- `self.resolver`. -/
def resolve (host : String) : Fetch ρ Resolution :=
    @Attempt.ask (Effect ρ) (Answer ρ) Raised (.resolve host)

/-- `self.clock`. -/
def clock : Fetch ρ ℚ := @Attempt.ask (Effect ρ) (Answer ρ) Raised .clock

/-- `self._robots_cache.get`. -/
def cachedRobots (origin : Origin) : Fetch ρ (Option (ℚ × Option ρ)) :=
  @Attempt.ask (Effect ρ) (Answer ρ) Raised (.cached origin)

def storeRobots (origin : Origin) (entry : ℚ × Option ρ) : Fetch ρ Unit :=
  @Attempt.ask (Effect ρ) (Answer ρ) Raised (.store origin entry)

/-- `_turn`. -/
def takeTurn (url : Url) : Fetch ρ Unit := do
  let given ← @Attempt.ask (Effect ρ) (Answer ρ) Raised (.turn url)
  match (given : Bool) with
  | true => pure ()
  | false => throw .hostBusy

def send (purpose : Purpose) (target : Target) (headers : List (String × String)) : Fetch ρ Response :=
    do
  takeTurn target.url
  let answer ← @Attempt.ask (Effect ρ) (Answer ρ) Raised (.send purpose target headers)
  match (answer : Except Raised Response) with
  | .ok response => pure response
  | .error e => throw e

def readBounded (response : Response) (maxBytes : Nat) : Fetch ρ (List UInt8) :=
  match response.read maxBytes with
  | .ok body => pure body
  | .error e => throw e

end

/-! ## The fetcher -/

structure FetchEnv (ρ : Type) where
  isSpace : Char → Bool
  lower : String → String
  lower_numeric : ∀ text : String, (∀ c ∈ text.toList, isNumeric c = true) → lower text = text
  ipaddress : IpAddress
  urljoin : Url → String → Option Url
  loginPath : String → Bool
  readRobots : List UInt8 → ρ
  noRobots : ρ
  canFetch : ρ → String → Url → Bool

/-- `PublicPageFetcher`. -/
structure Fetcher where
  maxResponseBytes : Nat
  snippetOnlyDomains : List String
  respectRobots : Bool
  maxRedirects : Nat
  userAgent : String
  robotsTtlSeconds : ℚ
  robotsFailureTtlSeconds : ℚ
  deriving DecidableEq

/-- The arguments of `retrieve`. -/
structure RetrieveArgs where
  url : Url
  accept : List String
  etag : Option String
  lastModified : Option String
  maxBytes : Option Nat
  checkDomain : Bool
  deriving DecidableEq

structure Retrieval where
  url : Url
  outcome : String
  httpStatus : Option Nat := none
  contentType : String := ""
  body : List UInt8 := []
  etag : Option String := none
  lastModified : Option String := none
  warnings : List String := []
  deriving DecidableEq

/-- `NEVER_FETCHED_SITES`. -/
def neverFetchedSites : List String := ["glassdoor", "justdial", "quora", "reddit"]

/-- `_REDIRECT_STATUSES`. -/
def redirectStatuses : List Nat := [301, 302, 303, 307, 308]

/-- `ROBOTS_MAX_BYTES`. -/
def robotsMaxBytes : Nat := 200000

/-- A site's name followed only by a public suffix. -/
def neverFetchedLabels : List String → Bool
  | [] => false
  | label :: rest =>
    (rest ≠ [] && label ∈ neverFetchedSites && rest.all (·.length ≤ 3)) || neverFetchedLabels rest

/-- `text.rstrip(".")`. -/
def withoutRootDot (text : String) : String := String.ofList (text.toList.rdropWhile (· = '.'))

def endsWith (ending text : String) : Bool := ending.toList.reverse.isPrefixOf text.toList.reverse

/-- `text.removeprefix("www.")`. -/
def withoutWww (text : String) : String := if startsWith "www." text then String.ofList
    (text.toList.drop 4) else text

/-- `CONTENT_FAMILIES`. -/
def contentFamily : String → List String
  | "html" => ["text/html", "application/xhtml+xml"]
  | "text" => ["text/plain"]
  | "feed" => ["application/rss+xml", "application/atom+xml", "application/xml", "text/xml"]
  | "xml" => ["application/xml", "text/xml"]
  | "json" => ["application/json", "application/ld+json", "application/sparql-results+json", "text/json"]
  | "pdf" => ["application/pdf"]
  | _ => []

/-- `_accept_header`; `accept` is in order. -/
def acceptHeader (accept : List String) : String :=
  if accept.flatMap contentFamily = [] then "text/html" else
    String.intercalate "," (accept.flatMap contentFamily)

/-- `_outcome_for`. -/
def outcomeFor (status : Nat) : String :=
  if status ∈ [401, 403, 429, 999] then "blocked"
  else if status = 404 then "not_found"
  else if status = 410 then "gone"
  else if 500 ≤ status then "server_error"
  else "error"

section
variable {ρ : Type} (env : FetchEnv ρ) (fetcher : Fetcher)

/-- `_never_fetched`. -/
def neverFetched (domain : String) : Bool :=
  neverFetchedLabels (((withoutRootDot (env.lower domain)).toList.splitOn '.').map String.ofList)

/-- `domain_of`. -/
def domainOf (url : Url) : String := withoutWww (env.lower ((hostname env.lower url.netloc).getD ""))

/-- `allowed_domain`. -/
def allowedDomain (url : Url) : Bool :=
  let domain := withoutRootDot (domainOf env url)
  if fetcher.snippetOnlyDomains.any fun item => domain = item || endsWith ("." ++ item) domain then false
  else !neverFetched env domain

/-- `product_token`. -/
def productToken (userAgent : String) : String :=
  strip env.isSpace (String.ofList ((userAgent.toList.takeWhile (· ≠ '/')).takeWhile (· ≠ ' ')))

def hostText (hostname : Option String) : String :=
    withoutRootDot (env.lower (strip env.isSpace (hostname.getD "")))

/-- `_content_allowed`. -/
def contentAllowed (contentType : String) (accept : List String) : Bool :=
  let media := strip env.isSpace (String.ofList (contentType.toList.takeWhile (· ≠ ';')))
  contentType ≠ "" && (("html" ∈ accept && "html".toList <:+: media.toList) || media ∈ accept.flatMap
      contentFamily)

/-! ## Vetting -/

/-- `_public_address`. -/
def publicAddress (hostname : Option String) : Fetch ρ (Option String) :=
  let host := hostText env hostname
  if host = "" ∨ host = "localhost" ∨ endsWith ".localhost" host then pure none
  else do
    match ← resolve host with
    | .timeout => throw (.unfetchable "timeout")
    | .failed => throw (.unfetchable "error")
    | .addresses [] => throw (.unfetchable "unresolved")
    | .addresses (address :: others) =>
      if (address :: others).all fun a => isPublicAddress env.ipaddress a.1 then pure (some address.1)
        else pure none

/-- An HTTP URL with a host and without credentials. -/
def supported (url : Url) : Bool :=
  (url.scheme = "http" || url.scheme = "https") && url.netloc ≠ "" && !hasCredentials url.netloc &&
    (hostname env.lower url.netloc).isSome

/-- `_pin`. -/
def pin (url : Url) (address : String) : Option Target :=
  if !supported env url then none
  else match hostname env.lower url.netloc, port url.netloc with
    | some name, some number => some
      { url
        pinnedUrl := { url with netloc := pinnedNetloc address number }
        hostHeader := name ++ portText number
        sniHostname := if url.scheme = "https" then some name else none
        userAgent := fetcher.userAgent }
    | _, _ => none

/-- `_vet`. -/
def vet (url : Url) (checkDomain : Bool) : Fetch ρ (Option Target) :=
  if !supported env url then pure none
  else if checkDomain && !allowedDomain env fetcher url then pure none
  else do
    let address ← publicAddress env (hostname env.lower url.netloc)
    pure (address.bind (pin env fetcher url))

def following (current : Url) (location : String) : Fetch ρ Url :=
  match env.urljoin current location with
  | some url => pure url
  | none => throw .value

/-! ## robots.txt -/

/-- What `_load_robots` makes of an exception. -/
def robotsFailure (firstHop : Bool) : Raised → Fetch ρ (Option ρ)
  | .connect refused => if firstHop && refused then throw (.connect refused) else pure none
  | .httpTimeout | .http | .tooLarge | .value | .unfetchable _ => pure none
  | e => throw e

/-- Where a hop of `_load_robots` goes: the first to an address that was vetted. -/
def robotsTarget (vetted : Option String) (current : Url) : Fetch ρ (Option Target) :=
  match vetted with
  | some address => pure (pin env fetcher current address)
  | none => vet env fetcher current true

/-- The loop of `_load_robots`. -/
def robotsHops (origin : Origin) : Nat → Option String → Url → Fetch ρ (Option ρ)
  | 0, _, _ => pure none
  | hops + 1, vetted, current => tryCatch (do
      let target ← robotsTarget env fetcher vetted current
      match target with
      | none => pure none
      | some target => do
        let response ← send (.robots origin) target target.headers
        if response.status ∈ redirectStatuses then
          match response.location with
          | none | some "" => pure none
          | some location => do
            let url ← following env current location
            robotsHops origin hops none url
        else if response.status = 200 then do
          let raw ← readBounded response robotsMaxBytes
          pure (some (env.readRobots raw))
        else if 400 ≤ response.status ∧ response.status < 500 then pure (some env.noRobots)
        else pure none)
      (robotsFailure vetted.isSome)

/-- `_load_robots`. -/
def loadRobots (origin : Origin) (address : String) : Fetch ρ (Option ρ) :=
  robotsHops env fetcher origin (fetcher.maxRedirects + 1) (some address) origin.robotsUrl

/-- A look-up that failed; one past the deadline is remembered as a failure. -/
def lookUpFailed (origin : Origin) (now : ℚ) (e : Raised) : Fetch ρ (Option ρ) :=
  if e = .timeout then do
    storeRobots origin (now + fetcher.robotsFailureTtlSeconds, none)
    throw e
  else throw e

/-- The robots.txt of an origin, from the cache or read now. -/
def robotsEntry (target : Target) (now : ℚ) (cached : Option (ℚ × Option ρ)) : Fetch ρ (ℚ × Option ρ) :=
  let origin := target.url.origin
  match cached with
  | some entry => if entry.1 ≤ now then reload origin else pure entry
  | none => reload origin
where
  reload (origin : Origin) : Fetch ρ (ℚ × Option ρ) := do
    let loaded ← tryCatch
      (loadRobots env fetcher origin ((hostname env.lower target.pinnedUrl.netloc).getD ""))
      (lookUpFailed fetcher origin now)
    let ttl := if loaded.isSome then fetcher.robotsTtlSeconds else fetcher.robotsFailureTtlSeconds
    storeRobots origin (now + ttl, loaded)
    pure (now + ttl, loaded)

/-- `_robots_allows`. -/
def robotsAllows (target : Target) : Fetch ρ Bool :=
  if !fetcher.respectRobots then pure true
  else do
    let now ← clock
    let cached ← cachedRobots target.url.origin
    let entry ← robotsEntry env fetcher target now cached
    pure (entry.2.any fun robots => env.canFetch robots (productToken env fetcher.userAgent) target.url)

/-! ## Pages -/

def pageHeaders (args : RetrieveArgs) (target : Target) : List (String × String) :=
  target.headers ++ [("Accept", acceptHeader args.accept)] ++
    ((args.etag.filter (· ≠ "")).map fun etag => ("If-None-Match", etag)).toList ++
    ((args.lastModified.filter (· ≠ "")).map fun time => ("If-Modified-Since", time)).toList

def pageRead (args : RetrieveArgs) (current : Url) (response : Response) (raw : List UInt8) :
    Retrieval :=
  if env.loginPath current.path then { url := current, outcome := "login_wall", httpStatus := some 200 }
  else
    { url := current, outcome := "ok", httpStatus := some 200, contentType := env.lower response.contentType
      body := raw, etag := response.etag, lastModified := response.lastModified
      warnings := if current ≠ args.url then ["redirected"] else [] }

def answered (args : RetrieveArgs) (current : Url) (response : Response) : Fetch ρ Retrieval :=
  if response.status = 304 then pure
    { url := current, outcome := "not_modified", httpStatus := some 304
      etag := (response.etag.filter (· ≠ "")).or args.etag
      lastModified := (response.lastModified.filter (· ≠ "")).or args.lastModified }
  else if response.status ≠ 200 then pure
    { url := current, outcome := outcomeFor response.status, httpStatus := some response.status }
  else if !contentAllowed env (env.lower response.contentType) args.accept then pure
    { url := current, outcome := "content_type", httpStatus := some response.status
      contentType := env.lower response.contentType }
  else do
    let raw ← readBounded response ((args.maxBytes.filter (· ≠ 0)).getD fetcher.maxResponseBytes)
    pure (pageRead env args current response raw)

/-- What `retrieve` makes of an exception. -/
def retrieveFailure (current : Url) : Raised → Fetch ρ Retrieval
  | .tooLarge => pure { url := current, outcome := "too_large" }
  | .httpTimeout | .timeout => pure { url := current, outcome := "timeout" }
  | .hostBusy => pure { url := current, outcome := "busy" }
  | .unfetchable outcome => pure { url := current, outcome }
  | .connect refused => pure { url := current, outcome := if refused then "unreachable" else "error" }
  | .http | .value => pure { url := current, outcome := "error" }
  | .other => throw .other

/-- The loop of `retrieve`. -/
def pageHops (args : RetrieveArgs) : Nat → Url → Fetch ρ Retrieval
  | 0, current => pure { url := current, outcome := "redirect_loop" }
  | hops + 1, current => tryCatch
      (if args.checkDomain && !allowedDomain env fetcher current then
        pure { url := current, outcome := "snippet_only" }
      else do
        let target ← vet env fetcher current false
        match target with
        | none => pure { url := current, outcome := "not_public" }
        | some target => do
          let allowed ← robotsAllows env fetcher target
          if !allowed then pure { url := current, outcome := "robots" }
          else do
            let response ← send .page target (pageHeaders args target)
            if response.status ∈ redirectStatuses then
              match response.location with
              | none | some "" =>
                  pure { url := current, outcome := "error", httpStatus := some response.status }
              | some location => do
                let url ← following env current location
                if env.loginPath url.path then
                  pure { url, outcome := "login_wall", httpStatus := some response.status }
                else pageHops args hops url
            else answered env fetcher args current response)
      (retrieveFailure current)

/-- `retrieve`. -/
def retrieve (args : RetrieveArgs) : Task (Effect ρ) (Answer ρ) (Except Raised Retrieval) :=
  (pageHops env fetcher args (fetcher.maxRedirects + 1) args.url).run

end

end GuruJi.Crawl
