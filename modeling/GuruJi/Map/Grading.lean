import GuruJi.Map.Evidence

/-!
# The grading rule and what retention deletes

`grade` weighs the evidence of an asset, oldest first, and `supersededObservations` selects the
liveness and integrity rows that it no longer reads.
-/

namespace GuruJi.Map

open GuruJi.Lib

inductive Grade where
  | O | A | Aarch | B | C | D | unrated
  deriving DecidableEq

def Grade.text : Grade → String
  | .O => "O"
  | .A => "A"
  | .Aarch => "A-arch"
  | .B => "B"
  | .C => "C"
  | .D => "D"
  | .unrated => "unrated"

/-- `GRADE_RANK`. -/
def Grade.rank : Grade → Nat
  | .O => 6
  | .A => 5
  | .Aarch => 4
  | .B => 3
  | .C => 2
  | .unrated => 1
  | .D => 0

/-- `_ONE_STEP_DOWN`, with `C` for every other text. -/
def oneStepDown (text : String) : Grade :=
  if text = "O" then .A else if text = "A" then .B else .C

inductive Status where
  | live | blocked | dead | parked | hijacked | compromised | redirected
  deriving DecidableEq

def Status.text : Status → String
  | .live => "live"
  | .blocked => "blocked"
  | .dead => "dead"
  | .parked => "parked"
  | .hijacked => "hijacked"
  | .compromised => "compromised"
  | .redirected => "redirected"

structure GradeResult where
  grade : Grade
  reasons : List String
  status : Option Status
  verifiedAt : Option String
  verifiedVia : Option Via
  deriving DecidableEq

structure Asset where
  assetId : String
  isDomain : Bool
  deriving DecidableEq

/-- `DEAD_CONFIRMATION`: 24 hours. -/
def deadConfirmation : Int := 86400000000

variable (parse : String → Option Int)

/-! ## The status -/

def latestIntegrity (ordered : List Evidence) : Option Evidence :=
  latest (fun item => item.kind = .integrity) ordered

def latestIntegrityByChannel (ordered : List Evidence) : List Evidence :=
  latestBy (fun item => item.channel) (ordered.filter fun item => item.kind = .integrity)

/-- A reviewer confirmed the asset after `moment`. -/
def confirmedAfter (ordered : List Evidence) (moment : Int) : Bool :=
  ordered.any fun item => item.supports && item.kind = .reviewerConfirm &&
    item.observedVia = .reviewer && moment < when parse item

def standing (text : String) (ordered : List Evidence) : Bool :=
  ordered.any fun item => item.verdict text && item.refutes &&
    !confirmedAfter parse ordered (when parse item)

/-- The run of lookup failures, and when the name last lapsed. -/
def lapseStep (s : List Int × Option Int) (item : Evidence) : List Int × Option Int :=
  if item.kind ≠ .liveness then s
  else if item.supports then ([], s.2)
  else if item.unresolved then
    let run := s.1 ++ [when parse item]
    (run, if when parse item - run.headD 0 ≥ deadConfirmation then some (when parse item) else s.2)
  else s

def lapsedAt (ordered : List Evidence) : Option Int := (ordered.foldl (lapseStep parse) ([], none)).2

def takeover (ordered : List Evidence) : Option Status :=
  if standing parse "hijacked" ordered then some .hijacked
  else if standing parse "parked" ordered then some .parked
  else
    match lapsedAt parse ordered with
    | some lapsed => if confirmedAfter parse ordered lapsed then none else some .dead
    | none => none

/-- Some channel's newest integrity verdict is this one. -/
def latestVerdict (text : String) (ordered : List Evidence) : Bool :=
  (latestIntegrityByChannel ordered).any fun item => item.refutes && beforeColon item.detail = text

/-- The not-found failures of the unbroken run of failures at the end, newest first. -/
def endFailures (liveness : List Evidence) : List Evidence :=
  (sinceLast (·.supports) liveness).filter (·.notFound)

def livenessStatus (liveness : List Evidence) (last : Evidence) : Option Status :=
  if last.supports then some .live
  else if ["blocked", "login_wall", "robots", "snippet_only"].contains (beforeColon last.detail) then
    some .blocked
  else if last.notFound then
    match (endFailures liveness).head?, (endFailures liveness).getLast? with
    | some newest, some oldest =>
      if (endFailures liveness).length ≥ 2 ∧
          when parse newest - when parse oldest ≥ deadConfirmation then some .dead
      else none
    | _, _ => none
  else none

def status (ordered : List Evidence) (_now : Int) : Option Status :=
  match takeover parse ordered with
  | some s => some s
  | none =>
    if latestVerdict "compromised" ordered then some .compromised
    else if latestVerdict "redirects_offsite" ordered then some .redirected
    else
      match latest (fun item => item.kind = .liveness) ordered with
      | none => (latestIntegrity ordered).map fun _ => .live
      | some last =>
        livenessStatus parse (ordered.filter fun item => item.kind = .liveness) last

/-! ## The evidence that counts -/

def refutedSources (ordered : List Evidence) : List String :=
  (ordered.filter fun item => item.refutes && item.kind = .sourceRefuted && item.hasSource).map
    (·.source)

/-- Whether the domain was taken out of the profile: the latest word on it. -/
def unconfigured (ordered : List Evidence) : Bool :=
  (latest (fun item => item.kind = .configuredDomain) ordered).any (·.refutes)

def reassignedAt (ordered : List Evidence) : Option Int :=
  ((ordered.filter fun item => item.refutes && item.kind = .identityChanged).map (when parse)).max?

/-- Whether supporting evidence still speaks for the asset. -/
def counts (ordered : List Evidence) (item : Evidence) : Bool :=
  item.supports &&
    !([Kind.officialLink, .hubLink, .subdomain, .backlink].contains item.kind &&
      (refutedSources ordered).contains item.source) &&
    !(unconfigured ordered && item.kind = .configuredDomain) &&
    (reassignedAt parse ordered).all fun moment => moment < when parse item

/-- The newest evidence that says when the asset was last seen. -/
def verified (ordered : List Evidence) : Option Evidence :=
  latest (fun item => counts parse ordered item &&
    [Via.live, .owner, .reviewer].contains item.observedVia) ordered

/-- The newest rejection that no reviewer's confirmation has lifted. -/
def rejection (ordered : List Evidence) : Option Evidence :=
  latest (fun item => item.refutes &&
    [Kind.reviewerReject, .lookalike, .impersonation].contains item.kind &&
      !confirmedAfter parse ordered (when parse item)) ordered

/-! ## Weighing it -/

/-- What the refuting evidence took away: links withdrawn by page, sources that no longer vouch,
owner confirmations taken back by channel, and the host the domain redirects to. -/
structure Losses where
  withdrawn : Table String Int
  anchorLost : Table String Int
  ownerWithdrawn : Table String Int
  redirectedTo : String

/-- `{key(item): when(item) for item in items}`. -/
def momentsBy (key : Evidence → String) (items : List Evidence) : Table String Int :=
  items.foldl (fun t item => t.assign (key item) (when parse item)) []

def redirectedTo (latestIntegrity : Option Evidence) : String :=
  match latestIntegrity with
  | none => ""
  | some item =>
    if item.refutes ∧ startsWith "redirects_offsite:" item.detail then
      if afterColon item.detail = "" then "another host" else afterColon item.detail
    else ""

def losses (ordered : List Evidence) : Losses where
  withdrawn := momentsBy parse (·.sourceUrl)
    (ordered.filter fun item => item.refutes && item.kind = .officialLink)
  anchorLost := momentsBy parse (·.source)
    (ordered.filter fun item => item.refutes && item.kind = .anchorLost && item.hasSource)
  ownerWithdrawn := momentsBy parse (·.channel)
    (ordered.filter fun item => item.refutes && item.kind = .ownerClaim)
  redirectedTo := redirectedTo (latestIntegrity ordered)

/-- The candidate grades with their reasons, the channels that count, and the sources that a hub's
or a backlink's channel came through. -/
structure Tally where
  candidates : List (Grade × String)
  channels : Table String String
  cameThrough : Table String (List String)

/-- `kind.replace("_", " ")`. -/
def Kind.words (k : Kind) : String :=
  String.ofList (k.text.toList.map fun c => if c = '_' then ' ' else c)

/-- An official link that a later clean fetch of the page no longer found. -/
def isWithdrawn (l : Losses) (item : Evidence) : Bool :=
  item.kind = .officialLink &&
    (l.withdrawn.get item.sourceUrl).any fun moment => when parse item < moment

def isStale (l : Losses) (item : Evidence) : Bool :=
  (l.anchorLost.get item.source).any fun moment => when parse item < moment

/-- The grade of an official link by the anchor it hangs on. -/
def officialLinkGrade (via : Via) (anchor : String) : Grade :=
  match via with
  | .live => if anchor = "O" ∨ anchor = "A" then .A else if anchor = "B" then .B else .C
  | .archive => if anchor = "O" ∨ anchor = "A" ∨ anchor = "A-arch" then .Aarch else .C
  | _ => .C

/-- The grade that one piece of supporting evidence is worth, and why. -/
def candidate (asset : Asset) (l : Losses) (item : Evidence) : Option (Grade × String) :=
  let detail := item.detail
  match item.kind with
  | .ownerClaim =>
    if item.observedVia = .owner ∧
        (l.ownerWithdrawn.get item.channel).getD minTime < when parse item then
      some (.O, "owner confirmed (" ++ upTo 80 detail ++ ")")
    else none
  | .officialLink =>
    let via := if isStale parse l item ∧ item.observedVia = .live then .archive
      else item.observedVia
    let position := if afterColon detail = "" then detail else afterColon detail
    some (officialLinkGrade via (beforeColon detail),
      "official link (" ++ position ++ ") on " ++ upTo 120 item.sourceUrl)
  | .configuredDomain =>
    if l.redirectedTo = "" then some (.A, "official domain configured by the institution")
    else some (.B, "official domain configured by the institution, now redirecting to " ++
      upTo 80 l.redirectedTo)
  | .hubLink =>
    let sourceGrade := if detail.toList.contains ':' then beforeColon detail else "C"
    some (oneStepDown sourceGrade,
      "linked from a " ++ sourceGrade ++ "-graded page (" ++ upTo 80 detail ++ ")")
  | .subdomain =>
    if item.observedVia = .live then
      some (oneStepDown (beforeColon detail), "live subdomain of a " ++ beforeColon detail ++
        "-graded domain (" ++ upTo 80 detail ++ ")")
    else none
  | .directoryRecord =>
    if startsWith "authority:" detail ∧ asset.isDomain then
      some (.A, "authoritative directory record (" ++ upTo 80 detail ++ ")")
    else some (.B, "directory record (" ++ upTo 80 detail ++ ")")
  | .reviewerConfirm => some (.B, "confirmed by a reviewer (" ++ upTo 80 detail ++ ")")
  | .apiIdentity => some (.C, "platform API identity (" ++ upTo 80 detail ++ ")")
  | .searchSnippet | .backlink | .communityRecord =>
    some (.C, item.kind.words ++ " (" ++ upTo 80 detail ++ ")")
  | .importedClaim => some (.C, "unverified imported claim")
  | _ => none

/-- `_CORROBORATING`. -/
def Kind.corroborates (k : Kind) : Bool :=
  [Kind.searchSnippet, .directoryRecord, .communityRecord, .hubLink, .reviewerConfirm, .backlink,
    .apiIdentity].contains k

/-- `channels.setdefault(name, kind)`. -/
def setDefault (channels : Table String String) (name kind : String) : Table String String :=
  if (channels.get name).isSome then channels else channels.insert name kind

/-- The channel of a corroborating piece of evidence; all editable by anyone are one. -/
def countChannel (t : Tally) (item : Evidence) : Tally :=
  if item.kind.corroborates ∧ item.channel ≠ "" then
    { t with
      channels := setDefault t.channels
        (if item.kind = .communityRecord then "community" else item.channel) item.kind.text
      cameThrough :=
        if (item.kind = .hubLink ∨ item.kind = .backlink) ∧ item.hasSource then
          t.cameThrough.assign item.channel
            ((t.cameThrough.get item.channel).getD [] ++ [item.source])
        else t.cameThrough }
  else t

/-- The body of the loop over the supporting evidence. -/
def weighItem (asset : Asset) (l : Losses) (t : Tally) (item : Evidence) : Tally :=
  if isWithdrawn parse l item then t
  else if isStale parse l item ∧ (item.kind = .hubLink ∨ item.kind = .subdomain) then
    { t with candidates := t.candidates ++ [(.C, item.kind.words ++
      " from a source that no longer vouches (" ++ upTo 80 item.detail ++ ")")] }
  else
    countChannel { t with candidates := t.candidates ++ (candidate parse asset l item).toList } item

/-- A channel counts only if some source it came through stands on a channel that is not counted
already. -/
def dropDependent (foundBy : Option (Table String (List String))) (channels : Table String String)
    (entry : String × List String) : Table String String :=
  let others := (channels.map (·.1)).filter (· ≠ entry.1)
  let dependent := foundBy.any fun found => entry.2.all fun source =>
    (found.get source).any fun stands => stands.all (others.contains ·)
  if dependent then channels.filter (·.1 ≠ entry.1) else channels

/-- `", ".join(sorted(channels))`. -/
def channelNames (channels : Table String String) : String :=
  String.intercalate ", " (sortBy (fun name : String => name) (channels.map (·.1)))

/-- `O`, `A`, `A-arch`, `B`, `C` or unrated, from the supporting evidence. -/
def weigh (asset : Asset) (ordered : List Evidence)
    (foundBy : Option (Table String (List String))) : Grade × List String :=
  let tally := (ordered.filter (counts parse ordered)).foldl
    (weighItem parse asset (losses parse ordered)) ⟨[], [], []⟩
  let channels := tally.cameThrough.foldl (dropDependent foundBy) tally.channels
  let candidates := tally.candidates ++
    if channels.length ≥ 2 then [(.B, Nat.repr channels.length ++ " independent channels agree (" ++
      upTo 120 (channelNames channels) ++ ")")]
    else []
  let bestRank := (candidates.map (·.1.rank)).foldl max 0
  match candidates.find? (·.1.rank = bestRank) with
  | none => (.unrated, ["no supporting evidence yet"])
  | some (best, _) =>
    let reasons := ((candidates.filter (·.1 = best)).map (·.2)).eraseDups
    let compromised := (latestIntegrity ordered).any fun item => startsWith "compromised" item.detail
    (best, (reasons ++ if compromised ∧ (best = .A ∨ best = .O) then
      ["the official site is compromised; it cannot vouch for new accounts until cleaned"]
      else []).take 6)

/-- The grade and its reasons, refutations first. -/
def judge (asset : Asset) (ordered : List Evidence) (status : Option Status)
    (foundBy : Option (Table String (List String))) : Grade × List String :=
  match rejection parse ordered, takeover parse ordered with
  | some item, _ => (.D, [item.kind.text ++ ": " ++ upTo 120 item.detail])
  | none, some taken => (.D, ["domain " ++ taken.text])
  | none, none =>
    if status = some .dead then (.D, ["dead on two checks at least a day apart"])
    else weigh parse asset ordered foundBy

/-- `grade`. -/
def grade (asset : Asset) (evidence : List Evidence) (now : Int)
    (foundBy : Option (Table String (List String))) : GradeResult :=
  let ordered := ordered parse evidence
  let status := status parse ordered now
  let judged := judge parse asset ordered status foundBy
  { grade := judged.1
    reasons := judged.2
    status := status
    verifiedAt := (verified parse ordered).map (·.observedAt)
    verifiedVia := (verified parse ordered).map (·.observedVia) }

/-! ## What retention deletes -/

/-- The rows of one asset, oldest first, that the rule may still read. -/
def keep (items : List Evidence) : List Evidence :=
  let failures := (endFailures (items.filter fun item => item.kind = .liveness)).reverse
  latestBy (fun item => (item.kind, item.channel)) items ++
    latestBy (fun item => (item.kind, item.observedVia)) (items.filter (·.supports)) ++
    items.filter (fun item => item.verdict "hijacked" || item.verdict "parked") ++
    items.filter (·.unresolved) ++
    (failures.take 1 ++ failures.getLast?.toList)

def doomed (before : Int) (rows : List Evidence) : List String :=
  let items := ordered parse rows
  let keepIds := (keep items).map (·.evidenceId)
  (items.filter fun item => !keepIds.contains item.evidenceId && when parse item < before).map
    (·.evidenceId)

def byAsset (rows : List Evidence) : List (List Evidence) :=
  let observations := rows.filter (·.isObservation)
  (observations.map (·.assetId)).eraseDups.map fun assetId =>
    observations.filter (·.assetId = assetId)

/-- `superseded_observations`. -/
def supersededObservations (rows : List Evidence) (before : Int) : List String :=
  (byAsset rows).flatMap (doomed parse before)

/-- The log without the rows that retention deletes. -/
def EvidenceLog.prune {assetId : String} (log : EvidenceLog assetId) (before : Int) :
    EvidenceLog assetId where
  rows := log.rows.filter fun item =>
    !(supersededObservations parse log.rows before).contains item.evidenceId
  unique := log.unique.sublist (List.filter_sublist.map _)
  ofAsset item hitem := log.ofAsset item (List.mem_of_mem_filter hitem)

end GuruJi.Map
