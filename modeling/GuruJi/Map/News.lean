import GuruJi.Lib.Text
import Mathlib.Algebra.GroupWithZero.Nat
import Mathlib.Data.Option.Basic
import Mathlib.Order.Lattice

/-!
# News mentions

A publisher's feed is read by conditional requests. An item that names an entity and is not sensitive is
a mention, and is counted when it was published after the last fetch of the feed. Every run that asks the
publisher notes its time as that of the last fetch, whatever came of it.

* `mentions_eq`: what the runs count, as items;
* **`counted_once_iff`**: over every history, an item that the feed lists is counted exactly once iff the
  first feed that lists it has it among the items that are read, and no fetch came before or the item was
  published after the last one;
* `mention_missed`: an item published before a timeout.
-/

namespace GuruJi.Map

open GuruJi.Lib

/-- `FAILED_OUTCOMES`. -/
def failedOutcomes : List String :=
  ["blocked", "server_error", "timeout", "busy", "too_large", "error", "robots", "login_wall",
    "not_public", "unresolved", "unreachable", "content_type", "redirect_loop"]

/-- `FEED_TYPES`. -/
def feedTypes : List String := ["feed", "xml"]

structure NewsFeed where
  publisher : String
  language : String
  url : String
  deriving DecidableEq

structure FeedItem (τ : Type) where
  link : String
  title : String
  publishedAt : Option τ
  summary : String
  deriving DecidableEq

/-- The entity that an item names, with the score as a note shows it. -/
structure EntityHit where
  entityId : String
  name : String
  score : String
  deriving DecidableEq

structure NewsRequest where
  url : String
  accept : List String
  etag : Option String
  lastModified : Option String
  maxBytes : Nat
  deriving DecidableEq

structure NewsAnswer where
  outcome : String
  body : List UInt8
  etag : Option String
  lastModified : Option String
  deriving DecidableEq

/-- The row of a URL in `intel_fetch_validators`. -/
structure FetchState (τ : Type) where
  etag : Option String
  lastModified : Option String
  outcome : String
  contentSha256 : Option String
  fetchedAt : τ
  deriving DecidableEq

structure NewsReview where
  kind : String
  entityId : String
  title : String
  url : String
  detail : String
  deriving DecidableEq

structure NewsResult where
  outcome : String
  failed : Bool := false
  review : List NewsReview := []
  etag : Option String := none
  lastModified : Option String := none
  prune : Bool := false
  notes : List String := []
  mentions : Nat := 0
  deriving DecidableEq

structure NewsSource where
  target : String
  origin : String
  deriving DecidableEq

/-- What reading a feed needs of the rest: the XML of a feed, the entities of the map with their
look-alikes, the words of court and controversy, and the day of a time. -/
structure NewsEnv (τ : Type) where
  parse : List UInt8 → Option (String × List (FeedItem τ))
  matchEntity : String → String → String → Option EntityHit
  sensitiveMention : String → String → Bool
  day : τ → String

/-- The connector's `max_bytes`. -/
def newsMaxBytes : Nat := 3000000

/-- The connector's `max_items`. -/
def newsMaxItems : Nat := 100

variable {τ : Type}

def newsRequest (source : NewsSource) (row : Option (FetchState τ)) : NewsRequest where
  url := source.target
  accept := feedTypes
  etag := row.bind (·.etag)
  lastModified := row.bind (·.lastModified)
  maxBytes := newsMaxBytes

/-- `record_fetch`, of the row of one URL. -/
def recordFetch (row : Option (FetchState τ)) (now : τ) (outcome : String)
    (etag lastModified contentSha256 : Option String) : FetchState τ :=
  { etag, lastModified
    outcome := upTo 40 outcome
    contentSha256 := contentSha256.or (row.bind (·.contentSha256))
    fetchedAt := now }

variable [LinearOrder τ]

/-- `last_read is None or (item.published_at is not None and item.published_at > last_read)`. -/
def afterLastRead (lastRead publishedAt : Option τ) : Bool :=
  match lastRead, publishedAt with
  | none, _ => true
  | some _, none => false
  | some read, some published => read < published

def readItem (env : NewsEnv τ) (publisher : String) (lastRead : Option τ) (result : NewsResult)
    (item : FeedItem τ) : NewsResult :=
  match env.matchEntity item.link item.title item.summary with
  | none => result
  | some hit =>
    let notes := result.notes ++
      ["mention of " ++ upTo 80 hit.name ++ " (" ++ hit.score ++ "): " ++ upTo 160 item.title]
    if env.sensitiveMention item.title item.summary then
      let day := (item.publishedAt.map fun published => " " ++ env.day published).getD ""
      { result with
        notes
        review := result.review ++ [
          { kind := "news_mention"
            entityId := hit.entityId
            title := if upTo 300 item.title = "" then publisher ++ " mentions " ++ hit.name
              else upTo 300 item.title
            url := item.link
            detail := upTo 80 publisher ++ day ++ ": " ++ upTo 500 item.summary }] }
    else if afterLastRead lastRead item.publishedAt then
      { result with notes, mentions := result.mentions + 1 }
    else { result with notes }

/-- `NewsFeedConnector.run` with the row of its URL, the request's answer and the time after it. -/
def newsRun (env : NewsEnv τ) (feeds : List NewsFeed) (source : NewsSource)
    (row : Option (FetchState τ)) (fetch : Option (NewsRequest → NewsAnswer)) (now : τ) :
    NewsResult × Option (FetchState τ) :=
  match fetch with
  | none => ({ outcome := "fetching_disabled", failed := true }, row)
  | some fetch =>
    let answer := fetch (newsRequest source row)
    let keep := answer.outcome = "ok" ∨ answer.outcome = "not_modified"
    let recorded := recordFetch row now answer.outcome (if keep then answer.etag else none)
      (if keep then answer.lastModified else none) none
    let result : NewsResult :=
      { outcome := answer.outcome
        failed := failedOutcomes.contains answer.outcome
        etag := answer.etag
        lastModified := answer.lastModified }
    let isLead : Bool := source.origin = "lead"
    if answer.outcome ≠ "ok" then
      ({ result with
        prune := (answer.outcome = "not_found" || answer.outcome = "gone") && isLead }, some recorded)
    else
      match env.parse answer.body with
      | none => ({ outcome := "not_a_feed", prune := isLead }, some recorded)
      | some (title, all) =>
        let items := all.take newsMaxItems
        let publisher := ((feeds.find? (·.url = source.target)).map (·.publisher)).getD
          (if title = "" then source.target else title)
        let read := items.foldl (readItem env publisher (row.map (·.fetchedAt))) result
        ({ read with notes := read.notes ++ [Nat.repr items.length ++ " items"] }, some recorded)

/-! ## Histories -/

/-- A run: the publisher, when fetching is on, and the time once it has answered. -/
structure NewsRun (τ : Type) where
  now : τ
  fetch : Option (NewsRequest → NewsAnswer)

/-- What a run meets: the time, if it asks, and the items of the feed that it is given. -/
structure Visit (τ : Type) where
  asked : Option τ
  listed : List (FeedItem τ)
  deriving DecidableEq

variable (env : NewsEnv τ) (feeds : List NewsFeed) (source : NewsSource)

/-- The results of runs that come one after the other. -/
def newsRuns : Option (FetchState τ) → List (NewsRun τ) → List NewsResult
  | _, [] => []
  | row, run :: runs =>
    let done := newsRun env feeds source row run.fetch run.now
    done.1 :: newsRuns done.2 runs

omit [LinearOrder τ] in
def visit (row : Option (FetchState τ)) (run : NewsRun τ) : Visit τ :=
  match run.fetch with
  | none => ⟨none, []⟩
  | some fetch =>
    let answer := fetch (newsRequest source row)
    ⟨some run.now, if answer.outcome = "ok" then ((env.parse answer.body).map Prod.snd).getD [] else []⟩

def visits : Option (FetchState τ) → List (NewsRun τ) → List (Visit τ)
  | _, [] => []
  | row, run :: runs =>
    visit env source row run :: visits (newsRun env feeds source row run.fetch run.now).2 runs

/-- An item that names an entity, is not sensitive and came after the last read. -/
def isCounted (lastRead : Option τ) (item : FeedItem τ) : Bool :=
  (env.matchEntity item.link item.title item.summary).isSome &&
    !env.sensitiveMention item.title item.summary && afterLastRead lastRead item.publishedAt

/-- What visits count, the first of them with a last read. -/
def countedItems : Option τ → List (Visit τ) → List (FeedItem τ)
  | _, [] => []
  | lastRead, v :: vs => (v.listed.take newsMaxItems).filter (isCounted env lastRead) ++
      countedItems (v.asked.or lastRead) vs

def lastFetch (vs : List (Visit τ)) : Option τ := vs.foldl (fun lastRead v => v.asked.or lastRead) none

/-! ## What the runs count -/

variable {env feeds source}

theorem mentions_foldl_readItem (publisher : String) (lastRead : Option τ) (items : List (FeedItem τ))
    (result : NewsResult) : (items.foldl (readItem env publisher lastRead) result).mentions =
      result.mentions + (items.filter (isCounted env lastRead)).length := by
  induction items generalizing result with
  | nil => rfl
  | cons item items ih =>
    have hitem : (readItem env publisher lastRead result item).mentions =
        result.mentions + if isCounted env lastRead item then 1 else 0 := by
      rw [readItem, isCounted]
      cases env.matchEntity item.link item.title item.summary with
      | none => rfl
      | some hit =>
        cases env.sensitiveMention item.title item.summary with
        | true => rfl
        | false => cases afterLastRead lastRead item.publishedAt <;> rfl
    rw [List.foldl_cons, ih, hitem, List.filter_cons]
    split_ifs
    · rw [List.length_cons]
      omega
    · rfl

theorem newsRun_mentions (row : Option (FetchState τ)) (run : NewsRun τ) :
    (newsRun env feeds source row run.fetch run.now).1.mentions =
      (((visit env source row run).listed.take newsMaxItems).filter
        (isCounted env (row.map (·.fetchedAt)))).length := by
  unfold newsRun visit
  cases run.fetch with
  | none => rfl
  | some fetch =>
    dsimp only
    by_cases hok : (fetch (newsRequest source row)).outcome = "ok"
    · rw [if_neg (not_not.mpr hok), if_pos hok]
      cases env.parse (fetch (newsRequest source row)).body with
      | none => rfl
      | some parsed =>
        dsimp only [Option.map_some, Option.getD_some]
        rw [mentions_foldl_readItem]
        exact Nat.zero_add _
    · rw [if_pos hok, if_neg hok]
      rfl

theorem newsRun_fetchedAt (row : Option (FetchState τ)) (run : NewsRun τ) :
    (newsRun env feeds source row run.fetch run.now).2.map (·.fetchedAt) =
      (visit env source row run).asked.or (row.map (·.fetchedAt)) := by
  unfold newsRun visit
  cases run.fetch with
  | none => rfl
  | some fetch =>
    dsimp only
    cases env.parse (fetch (newsRequest source row)).body <;> split_ifs <;> rfl

theorem mentions_eq (row : Option (FetchState τ)) (runs : List (NewsRun τ)) :
    ((newsRuns env feeds source row runs).map (·.mentions)).sum =
      (countedItems env (row.map (·.fetchedAt)) (visits env feeds source row runs)).length := by
  induction runs generalizing row with
  | nil => rfl
  | cons run runs ih =>
    rw [newsRuns, visits, countedItems, List.map_cons, List.sum_cons, List.length_append, ih,
      newsRun_mentions, newsRun_fetchedAt]

theorem asked_sublist (row : Option (FetchState τ)) (runs : List (NewsRun τ)) :
    ((visits env feeds source row runs).filterMap (·.asked)).Sublist (runs.map (·.now)) := by
  induction runs generalizing row with
  | nil => exact List.nil_sublist _
  | cons run runs ih =>
    have hnow : (visit env source row run).asked = none ∨
        (visit env source row run).asked = some run.now := by
      rw [visit]
      cases run.fetch with
      | none => exact .inl rfl
      | some fetch => exact .inr rfl
    rw [visits, List.map_cons]
    rcases hnow with hnow | hnow
    · rw [List.filterMap_cons_none hnow]
      exact (ih _).cons _
    · rw [List.filterMap_cons_some hnow]
      exact (ih _).cons_cons _

/-! ## One item -/

theorem countedItems_append (lastRead : Option τ) (vs ws : List (Visit τ)) :
    countedItems env lastRead (vs ++ ws) = countedItems env lastRead vs ++
      countedItems env (vs.foldl (fun lastRead v => v.asked.or lastRead) lastRead) ws := by
  induction vs generalizing lastRead with
  | nil => rfl
  | cons v vs ih =>
    rw [List.cons_append, countedItems, countedItems, ih, List.append_assoc, List.foldl_cons]

variable {item : FeedItem τ}

theorem count_before {vs : List (Visit τ)} (h : ∀ v ∈ vs, item ∉ v.listed) (lastRead : Option τ) :
    (countedItems env lastRead vs).count item = 0 := by
  induction vs generalizing lastRead with
  | nil => rfl
  | cons v vs ih =>
    rw [countedItems, List.count_append, ih fun w hw => h w (List.mem_cons_of_mem v hw), Nat.add_zero,
      List.count_eq_zero]
    exact fun hmem => h v List.mem_cons_self (List.mem_of_mem_take (List.mem_of_mem_filter hmem))

theorem count_after {lastRead : τ} {vs : List (Visit τ)}
    (h : ∀ published ∈ item.publishedAt, ∀ t ∈ lastRead :: vs.filterMap (·.asked), published ≤ t) :
    (countedItems env (some lastRead) vs).count item = 0 := by
  induction vs generalizing lastRead with
  | nil => rfl
  | cons v vs ih =>
    have hold : afterLastRead (some lastRead) item.publishedAt = false := by
      cases hpublished : item.publishedAt with
      | none => rfl
      | some published =>
        exact decide_eq_false (not_lt.mpr (h published hpublished lastRead List.mem_cons_self))
    have hhere : ((v.listed.take newsMaxItems).filter (isCounted env (some lastRead))).count item =
      0 := by
      refine List.count_eq_zero.mpr fun hmem => ?_
      have hcounted := List.of_mem_filter hmem
      rw [isCounted, hold, Bool.and_false] at hcounted
      cases hcounted
    rw [countedItems, List.count_append, hhere, Nat.zero_add]
    cases hasked : v.asked with
    | none =>
      rw [List.filterMap_cons_none hasked] at h
      exact ih h
    | some t =>
      rw [List.filterMap_cons_some hasked] at h
      exact ih fun published hpublished t' ht' =>
        h published hpublished t' (List.mem_cons_of_mem lastRead ht')

/-- The item is among those that are read of the feed, once, and was published after the last fetch, when
a fetch came before. -/
def ReadInTime (before : List (Visit τ)) (v : Visit τ) (item : FeedItem τ) : Prop :=
  (v.listed.take newsMaxItems).count item = 1 ∧
    ∀ t ∈ lastFetch before, ∃ published ∈ item.publishedAt, t < published

omit [LinearOrder τ] in
theorem asked_of_mem_listed {row : Option (FetchState τ)} {run : NewsRun τ}
    (h : item ∈ (visit env source row run).listed) :
    (visit env source row run).asked = some run.now := by
  unfold visit at h ⊢
  cases hfetch : run.fetch with
  | none =>
    rw [hfetch] at h
    cases h
  | some fetch => rfl

theorem asked_of_listed {row : Option (FetchState τ)} {runs : List (NewsRun τ)} {v : Visit τ}
    (hv : v ∈ visits env feeds source row runs) (h : item ∈ v.listed) : ∃ t, v.asked = some t := by
  induction runs generalizing row with
  | nil => cases hv
  | cons run runs ih =>
    rw [visits] at hv
    rcases List.mem_cons.mp hv with rfl | hv
    · exact ⟨run.now, asked_of_mem_listed h⟩
    · exact ih hv

theorem afterLastRead_iff {lastRead publishedAt : Option τ} : afterLastRead lastRead publishedAt = true ↔
      ∀ t ∈ lastRead, ∃ published ∈ publishedAt, t < published := by
  cases lastRead <;> cases publishedAt <;> simp [afterLastRead]

/-- **An item that a feed lists is counted exactly once** over a history iff it is read in time, where it
names an entity, is not sensitive and was published when the first feed that lists it is read. -/
theorem counted_once_iff {runs : List (NewsRun τ)} (hclock : (runs.map (·.now)).Pairwise (· ≤ ·))
    {before after : List (Visit τ)} {v : Visit τ}
    (hvisits : visits env feeds source none runs = before ++ v :: after)
    (hnamed : (env.matchEntity item.link item.title item.summary).isSome = true)
    (hpublic : env.sensitiveMention item.title item.summary = false)
    (hlisted : item ∈ v.listed) (hfirst : ∀ u ∈ before, item ∉ u.listed)
    (hpublished : ∀ published ∈ item.publishedAt, ∀ t ∈ v.asked, published ≤ t) :
    ((newsRuns env feeds source none runs).map (·.mentions)).sum =
        (countedItems env none (visits env feeds source none runs)).length ∧
      ((countedItems env none (visits env feeds source none runs)).count item = 1 ↔
        ReadInTime before v item) := by
  refine ⟨mentions_eq none runs, ?_⟩
  obtain ⟨t, ht⟩ : ∃ t, v.asked = some t :=
    asked_of_listed (hvisits ▸ List.mem_append_right before List.mem_cons_self) hlisted
  have hlater : ∀ t' ∈ after.filterMap (·.asked), t ≤ t' := by
    have hsub : ((visits env feeds source none runs).filterMap (·.asked)).Sublist (runs.map (·.now)) :=
      asked_sublist none runs
    have htimes := hclock.sublist hsub
    rw [hvisits, List.filterMap_append, List.filterMap_cons_some ht] at htimes
    exact (List.pairwise_cons.mp (List.pairwise_append.mp htimes).2.1).1
  have hafter : (countedItems env (some t) after).count item = 0 := by
    refine count_after fun published hp t' ht' => ?_
    have hle := hpublished published hp t ht
    rcases List.mem_cons.mp ht' with rfl | ht'
    · exact hle
    · exact hle.trans (hlater t' ht')
  have hcounted : isCounted env (lastFetch before) item =
      afterLastRead (lastFetch before) item.publishedAt := by
    rw [isCounted, hnamed, hpublic, Bool.not_false, Bool.and_self, Bool.true_and]
  rw [hvisits, countedItems_append, List.count_append, count_before hfirst, Nat.zero_add, countedItems,
    List.count_append, ht, Option.some_or, hafter, Nat.add_zero, ReadInTime, ← afterLastRead_iff,
    ← hcounted]
  change ((v.listed.take newsMaxItems).filter (isCounted env (lastFetch before))).count item = 1 ↔ _
  cases hc : isCounted env (lastFetch before) item with
  | true => rw [List.count_filter hc, and_iff_left rfl]
  | false =>
    rw [List.count_eq_zero.mpr fun hmem => Bool.false_ne_true (hc.symm.trans (List.of_mem_filter hmem))]
    simp

/-! ## An item published before a timeout -/

def openDay : FeedItem Nat :=
    ⟨"https://news.example/1", "Open day at BGSCET", some 2, "Visitors are welcome."⟩

def openDayNews : NewsEnv Nat where
  parse body := some ("Karnataka", if body = [] then [] else [openDay])
  matchEntity _ _ _ := some ⟨"bgscet", "BGSCET", "0.90"⟩
  sensitiveMention _ _ := false
  day published := Nat.repr published

def karnataka : NewsSource := ⟨"https://news.example/karnataka.rss", "recurring"⟩

/-- A run that is answered alike whatever it asks. -/
def answered (now : Nat) (outcome : String) (body : List UInt8) : NewsRun Nat :=
  ⟨now, some fun _ => ⟨outcome, body, none, none⟩⟩

/-- The item is published between the first run and a timeout, and is in the feed that is read next. -/
def timeoutRuns : List (NewsRun Nat) :=
    [answered 1 "ok" [], answered 3 "timeout" [], answered 4 "ok" [1]]

/-- No run counts it: the timeout is taken for a read. -/
theorem mention_missed :
    visits openDayNews [] karnataka none timeoutRuns =
      [⟨some 1, []⟩, ⟨some 3, []⟩, ⟨some 4, [openDay]⟩] ∧
      ((newsRuns openDayNews [] karnataka none timeoutRuns).map (·.mentions)).sum = 0 ∧
      (countedItems openDayNews none (visits openDayNews [] karnataka none timeoutRuns)).count openDay ≠
      1 := by
  decide

def openDayRuns : List (NewsRun Nat) := [answered 1 "ok" [], answered 3 "ok" [1]]

/-- Read before anything fails, it is counted once. -/
theorem counted_once_iff_openDay :
    ((newsRuns openDayNews [] karnataka none openDayRuns).map (·.mentions)).sum =
        (countedItems openDayNews none (visits openDayNews [] karnataka none openDayRuns)).length ∧
      ((countedItems openDayNews none
          (visits openDayNews [] karnataka none openDayRuns)).count openDay = 1 ↔
        ReadInTime [⟨some 1, []⟩] ⟨some 3, [openDay]⟩ openDay) := by
  have hclock : (openDayRuns.map (·.now)).Pairwise (· ≤ ·) := by decide
  have hvisits : visits openDayNews [] karnataka none openDayRuns =
      [⟨some 1, []⟩] ++ ⟨some 3, [openDay]⟩ :: [] := rfl
  exact counted_once_iff hclock hvisits rfl rfl List.mem_cons_self (by decide) (by decide)

end GuruJi.Map
