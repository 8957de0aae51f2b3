import GuruJi.Map.Official
import GuruJi.Lib.Removal

/-!
# Channels that corroborate, whatever their order

* `channels_exchanged`: when the times of hub links and backlinks are exchanged, as many independent
  channels count and the grade is the same, where each row still stands as it did before what was
  lost and no channel that rests on the others rests on such a channel.
-/

namespace GuruJi.Map

open GuruJi.Lib

def Evidence.isLink (item : Evidence) : Bool := item.kind = .hubLink || item.kind = .backlink

variable (parse : String → Option Int)

/-- What a piece of counted evidence adds to the candidates. -/
def worthOf (asset : Asset) (l : Losses) (item : Evidence) : List (Grade × String) :=
  if isWithdrawn parse l item then []
  else if isStale parse l item ∧ (item.kind = .hubLink ∨ item.kind = .subdomain) then
    [(.C, item.kind.words ++ " from a source that no longer vouches (" ++ upTo 80 item.detail ++ ")")]
  else (candidate parse asset l item).toList

/-- Whether a piece of counted evidence has a channel. -/
def hasChannel (l : Losses) (item : Evidence) : Bool :=
  !isWithdrawn parse l item &&
    !(isStale parse l item && (item.kind = .hubLink || item.kind = .subdomain)) &&
      (item.kind.corroborates && item.channel ≠ "")

def channelName (item : Evidence) : String :=
  if item.kind = .communityRecord then "community" else item.channel

def comesThrough (l : Losses) (item : Evidence) : Bool :=
  hasChannel parse l item && (item.isLink && item.hasSource)

variable {parse}

/-! ## The tally, part by part -/

theorem weighItem_eq (asset : Asset) (l : Losses) (t : Tally) (item : Evidence) :
    weighItem parse asset l t item =
      { candidates := t.candidates ++ worthOf parse asset l item
        channels := if hasChannel parse l item then
          setDefault t.channels (channelName item) item.kind.text else t.channels
        cameThrough := if comesThrough parse l item then
          t.cameThrough.push item.channel item.source else t.cameThrough } := by
  unfold weighItem worthOf comesThrough hasChannel
  cases hwithdrawn : isWithdrawn parse l item with
  | true => simp
  | false =>
    by_cases hstale : isStale parse l item = true ∧ (item.kind = .hubLink ∨ item.kind = .subdomain)
    · have hlost : (isStale parse l item && (decide (item.kind = .hubLink) ||
          decide (item.kind = .subdomain))) = true := by
        simpa using hstale
      simp only [hlost, if_pos hstale, Bool.false_eq_true, if_false, Bool.not_true, Bool.and_false,
        Bool.false_and]
    · have hfresh : (isStale parse l item && (decide (item.kind = .hubLink) ||
          decide (item.kind = .subdomain))) = false := by
        simpa using hstale
      simp only [Bool.false_eq_true, if_false, if_neg hstale, hfresh, Bool.not_false, Bool.true_and]
      unfold countChannel
      by_cases hcounts : item.kind.corroborates = true ∧ item.channel ≠ ""
      · have hhas : (item.kind.corroborates && decide (item.channel ≠ "")) = true := by
          simpa using hcounts
        simp only [if_pos hcounts, hhas, if_true, Bool.true_and, Evidence.isLink, Bool.and_eq_true,
          Bool.or_eq_true, decide_eq_true_eq]
        rfl
      · have hnot : (item.kind.corroborates && decide (item.channel ≠ "")) = false := by
          simpa using hcounts
        simp only [if_neg hcounts, hnot, Bool.false_eq_true, if_false, Bool.false_and]

theorem candidates_foldl (asset : Asset) (l : Losses) (items : List Evidence) (t : Tally) :
    (items.foldl (weighItem parse asset l) t).candidates =
      t.candidates ++ items.flatMap (worthOf parse asset l) := by
  induction items generalizing t with
  | nil => simp
  | cons item items ih =>
    rw [List.foldl_cons, ih, weighItem_eq, List.flatMap_cons, List.append_assoc]

theorem cameThrough_foldl (asset : Asset) (l : Losses) (items : List Evidence) (t : Tally) :
    (items.foldl (weighItem parse asset l) t).cameThrough =
      (items.filter (comesThrough parse l)).foldl
        (fun table item => table.push item.channel item.source) t.cameThrough := by
  induction items generalizing t with
  | nil => rfl
  | cons item items ih =>
    rw [List.foldl_cons, ih, weighItem_eq, List.filter_cons]
    cases comesThrough parse l item <;> rfl

theorem keys_setDefault {channels : Table String String} {name kind : String} :
    (setDefault channels name kind).map Prod.fst =
      if name ∈ channels.map Prod.fst then channels.map Prod.fst else channels.map Prod.fst ++ [name] := by
  unfold setDefault
  simp only [Table.isSome_get]
  split_ifs <;> simp [Table.insert]

theorem channels_foldl (asset : Asset) (l : Losses) (items : List Evidence) (t : Tally)
    (h : (t.channels.map Prod.fst).Nodup) :
    let channels := (items.foldl (weighItem parse asset l) t).channels
    (channels.map Prod.fst).Nodup ∧ ∀ name, name ∈ channels.map Prod.fst ↔
      name ∈ t.channels.map Prod.fst ∨
        ∃ item ∈ items, hasChannel parse l item = true ∧ channelName item = name := by
  induction items generalizing t with
  | nil => exact ⟨h, fun name => by simp⟩
  | cons item items ih =>
    have hstep : ((weighItem parse asset l t item).channels.map Prod.fst).Nodup ∧
        ∀ name, name ∈ (weighItem parse asset l t item).channels.map Prod.fst ↔
          name ∈ t.channels.map Prod.fst ∨
            (hasChannel parse l item = true ∧ channelName item = name) := by
      rw [weighItem_eq]
      cases hhas : hasChannel parse l item with
      | false => exact ⟨h, fun name => by simp⟩
      | true =>
        simp only [if_true, keys_setDefault]
        split_ifs with hmem
        · refine ⟨h, fun name => ⟨.inl, ?_⟩⟩
          rintro (hname | ⟨-, rfl⟩)
          exacts [hname, hmem]
        · refine ⟨List.nodup_append.mpr ⟨h, List.nodup_singleton _, ?_⟩, fun name => ?_⟩
          · intro a ha b hb hab
            rw [List.mem_singleton] at hb
            exact hmem (hb ▸ hab ▸ ha)
          · simp [eq_comm]
    obtain ⟨hnodup, hmem⟩ := ih _ hstep.1
    refine ⟨hnodup, fun name => (hmem name).trans ?_⟩
    simp only [hstep.2, List.mem_cons, exists_eq_or_imp, or_assoc]

/-! ## The channels that are independent -/

variable (parse) in
/-- The channels that are independent of one another. -/
def independentChannels (asset : Asset) (ordered : List Evidence)
    (foundBy : Option (Table String (List String))) : Table String String :=
  (tally parse asset ordered).cameThrough.foldl (dropDependent foundBy)
    (tally parse asset ordered).channels

/-- All sources that a channel came through stand on the names. -/
def standsOn (foundBy : Option (Table String (List String))) (entry : String × List String)
    (names : List String) : Bool :=
  foundBy.any fun found => entry.2.all fun source =>
    (found.get source).any fun stands => stands.all (names.contains ·)

theorem map_dropDependent (foundBy : Option (Table String (List String)))
    (channels : Table String String) (entry : String × List String) :
    (dropDependent foundBy channels entry).map Prod.fst =
      dropOne (standsOn foundBy) Prod.fst (channels.map Prod.fst) entry := by
  have hnames : (channels.filter (·.1 ≠ entry.1)).map Prod.fst =
      others (channels.map Prod.fst) entry.1 := by
    rw [others, List.filter_map]
    rfl
  unfold dropDependent dropOne
  rw [apply_ite (List.map Prod.fst), hnames]
  rfl

theorem map_independentChannels (asset : Asset) (ordered : List Evidence)
    (foundBy : Option (Table String (List String))) :
    (independentChannels parse asset ordered foundBy).map Prod.fst =
      (tally parse asset ordered).cameThrough.foldl (dropOne (standsOn foundBy) Prod.fst)
        ((tally parse asset ordered).channels.map Prod.fst) := by
  have hfold : ∀ (entries : Table String (List String)) (channels : Table String String),
      (entries.foldl (dropDependent foundBy) channels).map Prod.fst =
        entries.foldl (dropOne (standsOn foundBy) Prod.fst) (channels.map Prod.fst) := by
    intro entries
    induction entries with
    | nil => exact fun _ => rfl
    | cons entry entries ih =>
      intro channels
      rw [List.foldl_cons, ih, map_dropDependent, List.foldl_cons]
  exact hfold _ _

theorem standsOn_mono (foundBy : Option (Table String (List String))) (entry : String × List String)
    (names names' : List String) (h : names ⊆ names') (hstands : standsOn foundBy entry names = true) :
    standsOn foundBy entry names' = true := by
  simp only [standsOn, Option.any_eq_true, List.all_eq_true, List.contains_iff_mem] at hstands ⊢
  obtain ⟨found, hfound, hall⟩ := hstands
  refine ⟨found, hfound, fun source hsource => ?_⟩
  obtain ⟨stands, hget, hin⟩ := hall source hsource
  exact ⟨stands, hget, fun name hname => h (hin name hname)⟩

theorem standsOn_congr (foundBy : Option (Table String (List String))) {entry entry' : String × List String}
    (h : ∀ source, source ∈ entry.2 ↔ source ∈ entry'.2) (names : List String) :
    standsOn foundBy entry names = standsOn foundBy entry' names := by
  unfold standsOn
  congr 1
  funext found
  rw [Bool.eq_iff_iff, List.all_eq_true, List.all_eq_true]
  exact ⟨fun hall source hsource => hall source ((h source).mpr hsource),
    fun hall source hsource => hall source ((h source).mp hsource)⟩

/-! ## What the other rows say -/

/-- Two logs of the same rows, hub links and backlinks apart. -/
def SameOthers (l l' : List Evidence) : Prop := l.filter (!·.isLink) = l'.filter (!·.isLink)

section
variable {l l' : List Evidence}

theorem isLink_eq_false {item : Evidence} {k : Kind} (h : item.kind = k) (hhub : k ≠ .hubLink)
    (hback : k ≠ .backlink) : (!item.isLink) = true := by
  subst h
  simp [Evidence.isLink, hhub, hback]

theorem SameOthers.any_eq (h : SameOthers l l') {p : Evidence → Bool}
    (hp : ∀ x, p x = true → (!x.isLink) = true) : l'.any p = l.any p := by
  rw [← any_filter_of_imp (l := l) fun x _ => hp x, ← any_filter_of_imp (l := l') fun x _ => hp x]
  exact congrArg (List.any · p) (Eq.symm h)

theorem SameOthers.filter_eq (h : SameOthers l l') {p : Evidence → Bool}
    (hp : ∀ x, p x = true → (!x.isLink) = true) : l'.filter p = l.filter p := by
  rw [← filter_filter_of_imp (l := l) fun x _ => hp x,
    ← filter_filter_of_imp (l := l') fun x _ => hp x]
  exact congrArg (List.filter p) (Eq.symm h)

theorem SameOthers.confirmedAfter_eq (h : SameOthers l l') (moment : Int) :
    confirmedAfter parse l' moment = confirmedAfter parse l moment := by
  refine h.any_eq fun x hx => ?_
  simp only [Bool.and_eq_true, decide_eq_true_eq] at hx
  exact isLink_eq_false hx.1.1.2 (by simp) (by simp)

theorem SameOthers.standing_eq (h : SameOthers l l') (text : String) :
    standing parse text l' = standing parse text l := by
  unfold standing
  simp only [h.confirmedAfter_eq]
  refine h.any_eq fun x hx => ?_
  simp only [Evidence.verdict, Bool.and_eq_true, decide_eq_true_eq] at hx
  exact isLink_eq_false hx.1.1.1 (by simp) (by simp)

theorem SameOthers.lapsedAt_eq (h : SameOthers l l') : lapsedAt parse l' = lapsedAt parse l := by
  have hothers : ∀ items : List Evidence, ∀ s, (items.filter (!·.isLink)).foldl (lapseStep parse) s =
      items.foldl (lapseStep parse) s := by
    intro items
    induction items with
    | nil => exact fun _ => rfl
    | cons x items ih =>
      intro s
      cases hlink : x.isLink with
      | false => rw [List.filter_cons_of_pos (by simp [hlink]), List.foldl_cons, ih, List.foldl_cons]
      | true =>
        have hkind : x.kind ≠ .liveness := fun hkind => by simp [Evidence.isLink, hkind] at hlink
        rw [List.filter_cons_of_neg (by simp [hlink]), ih, List.foldl_cons, lapseStep, if_pos hkind]
  rw [lapsedAt, lapsedAt, ← hothers l, ← hothers l', h]

theorem SameOthers.takeover_eq (h : SameOthers l l') : takeover parse l' = takeover parse l := by
  simp only [takeover, h.standing_eq, h.lapsedAt_eq, h.confirmedAfter_eq]

theorem SameOthers.filter_kind (h : SameOthers l l') {k : Kind} (hhub : k ≠ .hubLink)
    (hback : k ≠ .backlink) :
    l'.filter (fun item => item.kind = k) = l.filter fun item => item.kind = k :=
  h.filter_eq fun _ hx => isLink_eq_false (of_decide_eq_true hx) hhub hback

theorem SameOthers.status_eq (h : SameOthers l l') (now : Int) :
    status parse l' now = status parse l now := by
  have hintegrity := h.filter_kind (k := .integrity) (by simp) (by simp)
  have hliveness := h.filter_kind (k := .liveness) (by simp) (by simp)
  have hverdict : ∀ text, latestVerdict text l' = latestVerdict text l := by
    intro text
    rw [latestVerdict, latestIntegrityByChannel, hintegrity, latestVerdict, latestIntegrityByChannel]
  have hlatest : latestIntegrity l' = latestIntegrity l := by
    rw [latestIntegrity, latest, hintegrity, latestIntegrity, latest]
  rw [status, status, h.takeover_eq, hverdict, hverdict, hlatest, latest, latest, hliveness]

theorem SameOthers.rejection_eq (h : SameOthers l l') : rejection parse l' = rejection parse l := by
  unfold rejection latest
  simp only [h.confirmedAfter_eq]
  rw [h.filter_eq fun x hx => ?_]
  simp only [Bool.and_eq_true, List.contains_iff_mem] at hx
  have hkind := hx.1.2
  simp only [List.mem_cons, List.not_mem_nil, or_false] at hkind
  rcases hkind with hkind | hkind | hkind <;> exact isLink_eq_false hkind (by simp) (by simp)

theorem SameOthers.losses_eq (h : SameOthers l l') : losses parse l' = losses parse l := by
  have hintegrity := h.filter_kind (k := .integrity) (by simp) (by simp)
  unfold losses latestIntegrity latest
  rw [hintegrity, h.filter_eq, h.filter_eq, h.filter_eq]
  · intro x hx
    simp only [Bool.and_eq_true, decide_eq_true_eq] at hx
    exact isLink_eq_false hx.2 (by simp) (by simp)
  · intro x hx
    simp only [Bool.and_eq_true, decide_eq_true_eq] at hx
    exact isLink_eq_false hx.1.2 (by simp) (by simp)
  · intro x hx
    simp only [Bool.and_eq_true, decide_eq_true_eq] at hx
    exact isLink_eq_false hx.2 (by simp) (by simp)

theorem SameOthers.reassignedAt_eq (h : SameOthers l l') :
    reassignedAt parse l' = reassignedAt parse l := by
  unfold reassignedAt
  rw [h.filter_eq]
  intro x hx
  simp only [Bool.and_eq_true, decide_eq_true_eq] at hx
  exact isLink_eq_false hx.2 (by simp) (by simp)

theorem SameOthers.refutedSources_eq (h : SameOthers l l') : refutedSources l' = refutedSources l := by
  unfold refutedSources
  rw [h.filter_eq]
  intro x hx
  simp only [Bool.and_eq_true, decide_eq_true_eq] at hx
  exact isLink_eq_false hx.1.2 (by simp) (by simp)

theorem SameOthers.unconfigured_eq (h : SameOthers l l') : unconfigured l' = unconfigured l := by
  unfold unconfigured latest
  rw [h.filter_kind (by simp) (by simp)]

end

/-! ## Other times -/

/-- A hub's link or a backlink, observed at another time; any other row is as it was. -/
def Retimed (x y : Evidence) : Prop :=
  y = { x with observedAt := y.observedAt } ∧ (x.isLink = false → y = x)

variable (parse) in
/-- A row stands as it did before what was lost: the account of the handle, and the sources of hub
links. -/
def StandsAlike (l : List Evidence) (x y : Evidence) : Prop :=
  (∀ moment, reassignedAt parse (ordered parse l) = some moment →
    (moment < when parse x ↔ moment < when parse y)) ∧
  (x.kind = .hubLink → ∀ moment,
    (losses parse (ordered parse l)).anchorLost.get x.source = some moment →
      (when parse x < moment ↔ when parse y < moment))

variable (parse) in
/-- No channel that stands on the others came through a source that stands on such a channel. -/
def StandsClear (asset : Asset) (ordered : List Evidence)
    (foundBy : Option (Table String (List String))) : Prop :=
  let t := tally parse asset ordered
  ∀ entry ∈ t.cameThrough, standsOn foundBy entry (others (t.channels.map Prod.fst) entry.1) = true →
    ∀ found, foundBy = some found → ∀ source ∈ entry.2, ∀ stands, found.get source = some stands →
      ∀ name ∈ stands,
        name ∉ resting (standsOn foundBy) Prod.fst (t.channels.map Prod.fst) t.cameThrough

section
variable {l l' : List Evidence}

theorem sameOthers_of_retimed (h : List.Forall₂ Retimed l l') : SameOthers l l' := by
  induction h with
  | nil => rfl
  | @cons x y l l' hxy _ ih =>
    have hkind : y.isLink = x.isLink := by
      rw [hxy.1]
      rfl
    unfold SameOthers
    rw [List.filter_cons, List.filter_cons, hkind, ih]
    cases hlink : x.isLink with
    | true => rfl
    | false => rw [hxy.2 hlink]

theorem sameOthers_ordered (h : List.Forall₂ Retimed l l') :
    SameOthers (ordered parse l) (ordered parse l') := by
  unfold SameOthers
  rw [← ordered_filter, ← ordered_filter, sameOthers_of_retimed h]

variable {x y : Evidence} {asset : Asset} {o : List Evidence} {entry : String × List String}
  {foundBy : Option (Table String (List String))}

/-- A row that is observed at another time counts, weighs and comes through as it did. -/
theorem counts_retimed {o o' : List Evidence} (h : SameOthers o o')
    (hxy : Retimed x y) (halike : ∀ moment, reassignedAt parse o = some moment →
      (moment < when parse x ↔ moment < when parse y)) :
    counts parse o' y = counts parse o x := by
  have hwhen : ((reassignedAt parse o).all fun moment => decide (moment < when parse y)) =
      (reassignedAt parse o).all fun moment => decide (moment < when parse x) := by
    cases hmoment : reassignedAt parse o with
    | none => rfl
    | some moment => simp [halike moment hmoment]
  unfold counts
  rw [h.refutedSources_eq, h.unconfigured_eq, h.reassignedAt_eq, hwhen, hxy.1]
  rfl

theorem weighs_retimed (asset : Asset) {lost : Losses} (hxy : Retimed x y)
    (halike : x.kind = .hubLink → ∀ moment, lost.anchorLost.get x.source = some moment →
      (when parse x < moment ↔ when parse y < moment)) :
    worthOf parse asset lost y = worthOf parse asset lost x ∧
      hasChannel parse lost y = hasChannel parse lost x ∧
      comesThrough parse lost y = comesThrough parse lost x := by
  obtain ⟨hy, hother⟩ := hxy
  cases hlink : x.isLink with
  | false =>
    rw [hother hlink]
    exact ⟨rfl, rfl, rfl⟩
  | true =>
    have hkind : y.kind = x.kind := by rw [hy]
    have hsource : y.source = x.source := by rw [hy]; rfl
    have hdetail : y.detail = x.detail := by rw [hy]
    have hchannel : y.channel = x.channel := by rw [hy]
    have hhas : y.hasSource = x.hasSource := by rw [hy]; rfl
    have hlinks : y.isLink = x.isLink := by rw [hy]; rfl
    simp only [Evidence.isLink, Bool.or_eq_true, decide_eq_true_eq] at hlink
    rcases hlink with hhub | hback
    · have hstale : isStale parse lost y = isStale parse lost x := by
        unfold isStale
        rw [hsource]
        cases hmoment : lost.anchorLost.get x.source with
        | none => rfl
        | some moment => simp [halike hhub moment hmoment]
      have hlasts : ∀ z : Evidence, z.kind = .hubLink → isWithdrawn parse lost z = false :=
        fun z hz => by simp [isWithdrawn, hz]
      have hworth : candidate parse asset lost y = candidate parse asset lost x := by
        simp only [candidate, hkind, hhub, hdetail]
      simp only [worthOf, comesThrough, hasChannel, hlasts x hhub, hlasts y (hkind.trans hhub), hstale,
        hkind, hdetail, hchannel, hhas, hlinks, hworth, and_self]
    · have hlasts : ∀ z : Evidence, z.kind = .backlink → isWithdrawn parse lost z = false :=
        fun z hz => by simp [isWithdrawn, hz]
      have hworth : candidate parse asset lost y = candidate parse asset lost x := by
        simp only [candidate, hkind, hback, hdetail]
      simp [worthOf, comesThrough, hasChannel, hlasts x hback, hlasts y (hkind.trans hback), hkind, hback,
        hchannel, hhas, hlinks, hworth]

/-! ## The channels and what they came through -/

theorem mem_channels {name : String} :
    name ∈ (tally parse asset o).channels.map Prod.fst ↔ ∃ x ∈ o.filter (counts parse o),
      hasChannel parse (losses parse o) x = true ∧ channelName x = name := by
  rw [tally, (channels_foldl asset (losses parse o) (o.filter (counts parse o)) ⟨[], [], []⟩
    List.nodup_nil).2 name]
  simp

theorem nodup_channels (asset : Asset) (o : List Evidence) :
    ((tally parse asset o).channels.map Prod.fst).Nodup :=
  (channels_foldl asset (losses parse o) _ ⟨[], [], []⟩ List.nodup_nil).1

theorem mem_keys_cameThrough {channel : String} :
    channel ∈ (tally parse asset o).cameThrough.map Prod.fst ↔ ∃ x ∈ o.filter (counts parse o),
      comesThrough parse (losses parse o) x = true ∧ x.channel = channel := by
  rw [tally, cameThrough_foldl, Table.mem_keys_foldl_push]
  simp only [List.map_nil, List.not_mem_nil, false_or, List.mem_filter (p := comesThrough parse _),
    and_assoc]

theorem mem_sources (h : entry ∈ (tally parse asset o).cameThrough) {source : String} :
    source ∈ entry.2 ↔ ∃ x ∈ o.filter (counts parse o), comesThrough parse (losses parse o) x = true ∧
      x.channel = entry.1 ∧ x.source = source := by
  rw [tally, cameThrough_foldl] at h
  have hnil : (([] : Table String (List String)).map Prod.fst).Nodup := List.nodup_nil
  have hnodup := Table.nodup_keys_foldl_push
    ((o.filter (counts parse o)).filter (comesThrough parse (losses parse o)))
    (fun x => x.channel) (fun x => x.source) hnil
  have hget := Table.getD_foldl_push
    ((o.filter (counts parse o)).filter (comesThrough parse (losses parse o)))
    (fun x => x.channel) (fun x => x.source) [] entry.1
  rw [Table.get_of_mem hnodup h] at hget
  have hentry : entry.2 = _ := hget
  rw [hentry]
  simp only [Table.get, Option.getD_none, List.nil_append, List.mem_map,
    List.mem_filter (p := fun x : Evidence => decide (x.channel = entry.1)),
    List.mem_filter (p := comesThrough parse _), decide_eq_true_eq, and_assoc]

theorem exists_iff_of_forall₂ {R : Evidence → Evidence → Prop} (h : List.Forall₂ R l l')
    {P P' : Evidence → Prop} (hP : ∀ x y, R x y → (P x ↔ P' y)) :
    (∃ x ∈ l, P x) ↔ ∃ y ∈ l', P' y := by
  induction h with
  | nil => simp
  | @cons x y l l' hxy _ ih =>
    simp only [List.mem_cons, exists_eq_or_imp]
    exact or_congr (hP x y hxy) ih

/-! ## Exchanged times -/

variable (parse) in
/-- Hub links and backlinks are observed at other times and stand as they did. -/
def StandsRetimed (l l' : List Evidence) : Prop :=
  List.Forall₂ (fun x y => Retimed x y ∧ StandsAlike parse l x y) l l'

theorem StandsRetimed.sameOthers (h : StandsRetimed parse l l') :
    SameOthers (ordered parse l) (ordered parse l') :=
  sameOthers_ordered (h.imp fun _ _ hxy => hxy.1)

theorem StandsRetimed.exists_iff (h : StandsRetimed parse l l') (asset : Asset)
    {P : List (Grade × String) → Bool → Bool → Evidence → Prop}
    (hP : ∀ worths has through, ∀ x y, Retimed x y → (P worths has through x ↔ P worths has through y)) :
    let o := ordered parse l
    let o' := ordered parse l'
    (∃ x ∈ o.filter (counts parse o), P (worthOf parse asset (losses parse o) x)
        (hasChannel parse (losses parse o) x) (comesThrough parse (losses parse o) x) x) ↔
      ∃ y ∈ o'.filter (counts parse o'), P (worthOf parse asset (losses parse o') y)
        (hasChannel parse (losses parse o') y) (comesThrough parse (losses parse o') y) y := by
  intro o o'
  simp only [List.mem_filter, o, o', mem_ordered, and_assoc]
  refine exists_iff_of_forall₂ h fun x y hxy => ?_
  obtain ⟨hretimed, halike⟩ := hxy
  rw [counts_retimed h.sameOthers hretimed halike.1, h.sameOthers.losses_eq,
    (weighs_retimed asset hretimed halike.2).1, (weighs_retimed asset hretimed halike.2).2.1,
    (weighs_retimed asset hretimed halike.2).2.2]
  exact and_congr_right fun _ => hP _ _ _ x y hretimed

theorem Retimed.channel_eq (h : Retimed x y) : y.channel = x.channel := by rw [h.1]

theorem Retimed.channelName_eq (h : Retimed x y) : channelName y = channelName x := by
  rw [h.1]
  rfl

theorem Retimed.source_eq (h : Retimed x y) : y.source = x.source := by
  rw [h.1]
  rfl

theorem StandsRetimed.mem_channels_iff (h : StandsRetimed parse l l') (asset : Asset) (name : String) :
    name ∈ (tally parse asset (ordered parse l)).channels.map Prod.fst ↔
      name ∈ (tally parse asset (ordered parse l')).channels.map Prod.fst := by
  rw [mem_channels, mem_channels]
  refine h.exists_iff asset (P := fun _ has _ x => has = true ∧ channelName x = name) ?_
  intro _ _ _ x y hxy
  rw [hxy.channelName_eq]

theorem StandsRetimed.mem_keys_iff (h : StandsRetimed parse l l') (asset : Asset) (channel : String) :
    channel ∈ (tally parse asset (ordered parse l)).cameThrough.map Prod.fst ↔
      channel ∈ (tally parse asset (ordered parse l')).cameThrough.map Prod.fst := by
  rw [mem_keys_cameThrough, mem_keys_cameThrough]
  refine h.exists_iff asset (P := fun _ _ through x => through = true ∧ x.channel = channel) ?_
  intro _ _ _ x y hxy
  rw [hxy.channel_eq]

theorem StandsRetimed.mem_sources_iff (h : StandsRetimed parse l l')
    {entry entry' : String × List String}
    (hentry : entry ∈ (tally parse asset (ordered parse l)).cameThrough)
    (hentry' : entry' ∈ (tally parse asset (ordered parse l')).cameThrough)
    (hkey : entry'.1 = entry.1) (source : String) : source ∈ entry.2 ↔ source ∈ entry'.2 := by
  rw [mem_sources hentry, mem_sources hentry', hkey]
  refine h.exists_iff asset
    (P := fun _ _ through x => through = true ∧ x.channel = entry.1 ∧ x.source = source) ?_
  intro _ _ _ x y hxy
  rw [hxy.channel_eq, hxy.source_eq]

theorem StandsRetimed.mem_candidates_iff (h : StandsRetimed parse l l') (asset : Asset) (g : Grade) :
    g ∈ (tally parse asset (ordered parse l)).candidates.map (·.1) ↔
      g ∈ (tally parse asset (ordered parse l')).candidates.map (·.1) := by
  have hmem : ∀ o : List Evidence, g ∈ (tally parse asset o).candidates.map (·.1) ↔
      ∃ x ∈ o.filter (counts parse o), g ∈ (worthOf parse asset (losses parse o) x).map (·.1) := by
    intro o
    rw [tally, candidates_foldl, List.nil_append, List.map_flatMap, List.mem_flatMap]
  rw [hmem, hmem]
  exact h.exists_iff asset (P := fun worths _ _ _ => g ∈ worths.map (·.1)) fun _ _ _ _ _ _ => Iff.rfl

theorem standsOn_of_standsClear (h : StandsClear parse asset o foundBy)
    (hentry : entry ∈ (tally parse asset o).cameThrough)
    (hstands : standsOn foundBy entry
      (others ((tally parse asset o).channels.map Prod.fst) entry.1) = true) :
    standsOn foundBy entry (((tally parse asset o).channels.map Prod.fst).filter
      (· ∉ resting (standsOn foundBy) Prod.fst ((tally parse asset o).channels.map Prod.fst)
        (tally parse asset o).cameThrough)) = true := by
  have hclear := h entry hentry hstands
  simp only [standsOn, Option.any_eq_true, List.all_eq_true, List.contains_iff_mem] at hstands ⊢
  obtain ⟨found, hfound, hall⟩ := hstands
  refine ⟨found, hfound, fun source hsource => ?_⟩
  obtain ⟨stands, hget, hin⟩ := hall source hsource
  refine ⟨stands, hget, fun name hname => List.mem_filter.mpr ⟨?_, ?_⟩⟩
  · exact List.mem_of_mem_filter (hin name hname)
  · exact decide_eq_true (hclear found hfound source hsource stands hget name hname)

theorem StandsRetimed.exists_entry (h : StandsRetimed parse l l') (asset : Asset)
    (foundBy : Option (Table String (List String)))
    (hentry : entry ∈ (tally parse asset (ordered parse l)).cameThrough) :
    ∃ entry' ∈ (tally parse asset (ordered parse l')).cameThrough, entry'.1 = entry.1 ∧
      ∀ names, standsOn foundBy entry' names = standsOn foundBy entry names := by
  have hkey := (h.mem_keys_iff asset entry.1).mp (List.mem_map_of_mem hentry)
  obtain ⟨entry', hentry', hname⟩ := List.mem_map.mp hkey
  refine ⟨entry', hentry', hname, standsOn_congr foundBy fun source => ?_⟩
  exact (h.mem_sources_iff hentry hentry' hname source).symm

theorem StandsRetimed.exists_entry' (h : StandsRetimed parse l l') (asset : Asset)
    (foundBy : Option (Table String (List String))) {entry' : String × List String}
    (hentry' : entry' ∈ (tally parse asset (ordered parse l')).cameThrough) :
    ∃ entry ∈ (tally parse asset (ordered parse l)).cameThrough, entry.1 = entry'.1 ∧
      ∀ names, standsOn foundBy entry names = standsOn foundBy entry' names := by
  have hkey := (h.mem_keys_iff asset entry'.1).mpr (List.mem_map_of_mem hentry')
  obtain ⟨entry, hentry, hname⟩ := List.mem_map.mp hkey
  refine ⟨entry, hentry, hname, standsOn_congr foundBy fun source => ?_⟩
  exact h.mem_sources_iff hentry hentry' hname.symm source

theorem length_independentChannels (h : StandsRetimed parse l l') (asset : Asset)
    (hclear : StandsClear parse asset (ordered parse l) foundBy) :
    (independentChannels parse asset (ordered parse l) foundBy).length =
      (independentChannels parse asset (ordered parse l') foundBy).length := by
  have hlength := length_foldl_dropOne (standsOn_mono foundBy)
    (nodup_channels asset (ordered parse l)) (nodup_channels asset (ordered parse l'))
    (h.mem_channels_iff asset) (fun _ hentry => h.exists_entry asset foundBy hentry)
    (fun _ hentry' => h.exists_entry' asset foundBy hentry')
    (fun _ hentry hstands => standsOn_of_standsClear hclear hentry hstands)
  rw [← map_independentChannels, ← map_independentChannels, List.length_map, List.length_map]
    at hlength
  exact hlength

theorem bestOf_congr {candidates candidates' : List (Grade × String)}
    (h : ∀ g, g ∈ candidates.map (·.1) ↔ g ∈ candidates'.map (·.1)) :
    bestOf candidates = bestOf candidates' := by
  refine Option.ext fun best => ?_
  rw [bestOf_eq_some, bestOf_eq_some, h best]
  simp only [h]

theorem agreeing_congr {channels channels' : Table String String}
    (h : channels.length = channels'.length) (g : Grade) :
    g ∈ (agreeing channels).map (·.1) ↔ g ∈ (agreeing channels').map (·.1) := by
  unfold agreeing
  rw [h]
  split_ifs <;> simp

theorem weigh_retimed (h : StandsRetimed parse l l') (asset : Asset)
    (hclear : StandsClear parse asset (ordered parse l) foundBy) :
    (weigh parse asset (ordered parse l') foundBy).1 =
      (weigh parse asset (ordered parse l) foundBy).1 := by
  have hlength := length_independentChannels h asset hclear
  rw [weigh_fst, weigh_fst]
  congr 1
  refine bestOf_congr fun g => ?_
  rw [List.map_append, List.map_append, List.mem_append, List.mem_append,
    ← h.mem_candidates_iff asset g]
  exact or_congr_right (agreeing_congr hlength.symm g)

end

/-! ## Two links to a channel -/

/-- A link of a hub that stopped vouching the day after and a backlink of the day after that, or the
other way about. -/
def twoLinks (hubAt backAt : String) : List Evidence := [
  ⟨"ievd-1", "ast-1", .hubLink, .supports, "https://hub.in/", some "ast-2", "C:list", "hub", .live,
    hubAt⟩,
  ⟨"ievd-2", "ast-1", .backlink, .supports, "https://blog.in/", some "ast-3", "blog", "backlinks",
    .live, backAt⟩,
  ⟨"ievd-3", "ast-1", .anchorLost, .refutes, "https://hub.in/", some "ast-2", "dead", "map", .live,
    "2026-01-02T00:00:00+00:00"⟩]

theorem retimed_twoLinks (hubAt backAt hubAt' backAt' : String) :
    List.Forall₂ Retimed (twoLinks hubAt backAt) (twoLinks hubAt' backAt') :=
  .cons ⟨rfl, fun h => by cases h⟩ (.cons ⟨rfl, fun h => by cases h⟩ (.cons ⟨rfl, fun _ => rfl⟩ .nil))

def hubFound : Option (Table String (List String)) := some [("ast-2", ["backlinks"])]

theorem standsRetimed_twoLinks : StandsRetimed january
    (twoLinks "2026-01-03T00:00:00+00:00" "2026-01-04T00:00:00+00:00")
    (twoLinks "2026-01-04T00:00:00+00:00" "2026-01-03T00:00:00+00:00") := by
  have hreassigned : reassignedAt january (ordered january
      (twoLinks "2026-01-03T00:00:00+00:00" "2026-01-04T00:00:00+00:00")) = none := by
    decide
  have hlost : (losses january (ordered january
      (twoLinks "2026-01-03T00:00:00+00:00" "2026-01-04T00:00:00+00:00"))).anchorLost =
      [("ast-2", 1767312000000000)] := by
    decide
  have halike : ∀ x y : Evidence, 1767312000000000 ≤ when january x →
      1767312000000000 ≤ when january y → StandsAlike january
        (twoLinks "2026-01-03T00:00:00+00:00" "2026-01-04T00:00:00+00:00") x y := by
    intro x y hx hy
    refine ⟨fun moment hmoment => ?_, fun _ moment hmoment => ?_⟩
    · rw [hreassigned] at hmoment
      cases hmoment
    · rw [hlost] at hmoment
      have hget := Table.mem_of_get hmoment
      simp only [List.mem_singleton, Prod.mk.injEq] at hget
      omega
  refine .cons ⟨⟨rfl, fun h => ?_⟩, halike _ _ ?_ ?_⟩
    (.cons ⟨⟨rfl, fun h => ?_⟩, halike _ _ ?_ ?_⟩
      (.cons ⟨⟨rfl, fun _ => rfl⟩, halike _ _ ?_ ?_⟩ .nil))
  · cases h
  · decide
  · decide
  · cases h
  · decide
  · decide
  · decide
  · decide

end GuruJi.Map
