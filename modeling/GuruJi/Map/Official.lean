import GuruJi.Map.Refutation

/-!
# What makes an asset official

Which rows let the rule say O or A. `weigh_eq_O` and `weigh_eq_A` read the outcome of the weighing
off the rows that count (`Gives`), and `Gives` is then said of the log as a set of rows: an owner's
standing confirmation, a live link on an official page, a configured domain, a regulator's record,
or a link from an asset of grade O. `firstHand_iff`: nothing else does, unless a domain that
redirects is overlooked because another channel reported later.
-/

namespace GuruJi.Map

open GuruJi.Lib

/-! ## The best candidate -/

theorem Grade.rank_injective : Function.Injective Grade.rank := by
  intro a b h
  cases a <;> cases b <;> simp_all [Grade.rank]

/-- The grade that the weighing picks from its candidates. -/
def bestOf (candidates : List (Grade × String)) : Option Grade :=
  (candidates.find? (·.1.rank = (candidates.map (·.1.rank)).foldl max 0)).map (·.1)

theorem bestOf_eq_some {candidates : List (Grade × String)} {best : Grade} :
    bestOf candidates = some best ↔
      best ∈ candidates.map (·.1) ∧ ∀ g ∈ candidates.map (·.1), g.rank ≤ best.rank := by
  cases hmax : (candidates.map (·.1.rank)).max? with
  | none =>
    obtain rfl : candidates = [] := by simpa using hmax
    simp [bestOf]
  | some m =>
    obtain ⟨hm, hle⟩ := List.max?_eq_some_iff.mp hmax
    have hfold : (candidates.map (·.1.rank)).foldl max 0 = m := by
      rw [List.foldl_max, hmax, Option.getD_some, Nat.zero_max]
    obtain ⟨c, hc, hcm⟩ := List.mem_map.mp hm
    -- the rank is reached, so the search succeeds, and only one grade has it
    obtain ⟨d, hd⟩ : ∃ d, candidates.find? (·.1.rank = m) = some d := by
      refine Option.isSome_iff_exists.mp (List.find?_isSome.mpr ⟨c, hc, ?_⟩)
      simpa using hcm
    have hdm : d.1.rank = m := by simpa using List.find?_some hd
    have hall : ∀ g ∈ candidates.map (·.1), g.rank ≤ m := by
      intro g hg
      obtain ⟨e, he, rfl⟩ := List.mem_map.mp hg
      exact hle _ (List.mem_map.mpr ⟨e, he, rfl⟩)
    rw [bestOf, hfold, hd, Option.map_some, Option.some.injEq]
    constructor
    · rintro rfl
      exact ⟨List.mem_map.mpr ⟨d, List.mem_of_find?_eq_some hd, rfl⟩, hdm.symm ▸ hall⟩
    · rintro ⟨hbest, htop⟩
      refine Grade.rank_injective (le_antisymm ?_ ?_)
      · exact htop _ (List.mem_map.mpr ⟨d, List.mem_of_find?_eq_some hd, rfl⟩)
      · exact hdm.symm ▸ hall best hbest

/-! ## What a row is worth -/

variable (parse : String → Option Int)

/-- A row that counts puts this grade among the candidates (C apart, which a stale link does). -/
def Gives (asset : Asset) (losses : Losses) (x : Evidence) (g : Grade) : Prop :=
  isWithdrawn parse losses x = false ∧
    ¬ (isStale parse losses x = true ∧ (x.kind = .hubLink ∨ x.kind = .subdomain)) ∧
    ∃ reason, candidate parse asset losses x = some (g, reason)

def tally (asset : Asset) (l : List Evidence) : Tally :=
  (l.filter (counts parse l)).foldl (weighItem parse asset (losses parse l)) ⟨[], [], []⟩

variable {parse} {l : List Evidence} {asset : Asset}

theorem countChannel_candidates (t : Tally) (x : Evidence) :
    (countChannel t x).candidates = t.candidates := by
  rw [countChannel]
  split_ifs <;> rfl

variable {g : Grade} {x : Evidence}

theorem mem_weighItem {losses : Losses} {t : Tally} (hg : g ≠ .C) :
    g ∈ (weighItem parse asset losses t x).candidates.map (·.1) ↔
      g ∈ t.candidates.map (·.1) ∨ Gives parse asset losses x g := by
  rw [weighItem]
  split_ifs with hwithdrawn hstale
  · simp [Gives, hwithdrawn]
  · simp [Gives, hstale, hg]
  · rw [countChannel_candidates]
    simp only [List.map_append, List.mem_append, Gives, hwithdrawn, hstale, not_false_iff, true_and]
    refine or_congr_right ?_
    cases hc : candidate parse asset losses x with
    | none => simp
    | some c => simp [Prod.ext_iff, eq_comm]

theorem mem_foldl_weighItem {losses : Losses} (hg : g ≠ .C) (items : List Evidence) (t : Tally) :
    g ∈ (items.foldl (weighItem parse asset losses) t).candidates.map (·.1) ↔
      g ∈ t.candidates.map (·.1) ∨ ∃ x ∈ items, Gives parse asset losses x g := by
  induction items generalizing t with
  | nil => simp
  | cons x items ih =>
    rw [List.foldl_cons, ih, mem_weighItem hg, or_assoc]
    simp only [List.mem_cons, exists_eq_or_imp]

theorem mem_tally (hg : g ≠ .C) : g ∈ (tally parse asset l).candidates.map (·.1) ↔
      ∃ x ∈ l, counts parse l x = true ∧ Gives parse asset (losses parse l) x g := by
  rw [tally, mem_foldl_weighItem hg]
  simp only [List.map_nil, List.not_mem_nil, false_or, List.mem_filter, and_assoc]

/-- The one candidate beside the tally: channels that agree. -/
def agreeing (channels : Table String String) : List (Grade × String) :=
  if channels.length ≥ 2 then [(.B, Nat.repr channels.length ++ " independent channels agree (" ++
    upTo 120 (channelNames channels) ++ ")")]
  else []

theorem agreeing_fst {channels : Table String String}
    (h : g ∈ (agreeing channels).map (·.1)) : g = .B := by
  rw [agreeing] at h
  split_ifs at h with hmany
  · simpa using h
  · simp at h

theorem fst_of_best (found : Option (Grade × String)) (none' : List String)
    (reasons : Grade → List String) :
    (match found with
      | none => (Grade.unrated, none')
      | some (best, _) => (best, reasons best)).1 = (found.map (·.1)).getD .unrated := by
  cases found <;> rfl

theorem weigh_fst (foundBy : Option (Table String (List String))) : (weigh parse asset l foundBy).1 =
    (bestOf ((tally parse asset l).candidates ++ agreeing ((tally parse asset l).cameThrough.foldl
      (dropDependent foundBy) (tally parse asset l).channels))).getD .unrated :=
  fst_of_best _ _ _

/-- The weighing says O or A only for a row that gives it, and no row that counts gives more. -/
theorem weigh_eq_iff (hg : g = .O ∨ g = .A) (foundBy : Option (Table String (List String))) :
    (weigh parse asset l foundBy).1 = g ↔
      g ∈ (tally parse asset l).candidates.map (·.1) ∧
        ∀ g' ∈ (tally parse asset l).candidates.map (·.1), g'.rank ≤ g.rank := by
  have hne : g ≠ .unrated ∧ g ≠ .B := by rcases hg with rfl | rfl <;> simp
  have hB : Grade.B.rank ≤ g.rank := by rcases hg with rfl | rfl <;> decide
  rw [weigh_fst]
  set channels := agreeing _ with hchannels
  have hagree : ∀ g' ∈ channels.map (·.1), g' = .B := fun g' h => agreeing_fst h
  have hsome : (bestOf ((tally parse asset l).candidates ++ channels)).getD .unrated = g ↔
      bestOf ((tally parse asset l).candidates ++ channels) = some g := by
    cases bestOf ((tally parse asset l).candidates ++ channels) with
    | none => simp [hne.1.symm]
    | some best => simp
  rw [hsome, bestOf_eq_some, List.map_append]
  simp only [List.mem_append]
  constructor
  · rintro ⟨hmem | hmem, hall⟩
    · exact ⟨hmem, fun g' h => hall g' (.inl h)⟩
    · exact absurd (hagree g hmem) hne.2
  · rintro ⟨hmem, hall⟩
    refine ⟨.inl hmem, fun g' h => ?_⟩
    rcases h with h | h
    · exact hall g' h
    · exact hagree g' h ▸ hB

theorem weigh_eq_O (foundBy : Option (Table String (List String))) :
    (weigh parse asset l foundBy).1 = .O ↔
      ∃ x ∈ l, counts parse l x = true ∧ Gives parse asset (losses parse l) x .O := by
  rw [weigh_eq_iff (.inl rfl), mem_tally (by simp)]
  refine and_iff_left fun g' _ => ?_
  cases g' <;> decide

theorem weigh_eq_A (foundBy : Option (Table String (List String))) :
    (weigh parse asset l foundBy).1 = .A ↔
      (∃ x ∈ l, counts parse l x = true ∧ Gives parse asset (losses parse l) x .A) ∧
        ¬ ∃ x ∈ l, counts parse l x = true ∧ Gives parse asset (losses parse l) x .O := by
  have howner : Grade.O ∈ (tally parse asset l).candidates.map (·.1) ↔
      ∃ x ∈ l, counts parse l x = true ∧ Gives parse asset (losses parse l) x .O :=
    mem_tally (by simp)
  rw [weigh_eq_iff (.inr rfl), mem_tally (by simp), ← howner]
  refine and_congr_right fun _ => ⟨fun hall hO => ?_, fun hO g' hg' => ?_⟩
  · exact absurd (hall .O hO) (by decide)
  · cases g' with
    | O => exact absurd hg' hO
    | _ => decide

/-! ## What was taken away -/

theorem get_momentsBy (key : Evidence → String) (items : List Evidence) (k : String) :
    (momentsBy parse key items).get k =
      (latest (fun x => decide (key x = k)) items).map (when parse) := by
  induction items using List.reverseRecOn with
  | nil => rfl
  | append_singleton items x ih =>
    rw [momentsBy, List.foldl_append, List.foldl_cons, List.foldl_nil, ← momentsBy,
      Table.get_assign, ih, latest_snoc]
    by_cases hk : key x = k
    · simp [hk]
    · simp [hk, Ne.symm hk]

theorem any_momentsBy {key : Evidence → String} {items : List Evidence} {k : String} {t : Int}
    (h : Chronological (order parse) items) :
    ((momentsBy parse key items).get k).any (fun moment => decide (t < moment)) = true ↔
      ∃ w ∈ items, key w = k ∧ t < when parse w := by
  rw [get_momentsBy]
  cases hlast : latest (fun x => decide (key x = k)) items with
  | none =>
    simp only [Option.map_none, Option.any_none, Bool.false_eq_true, false_iff, not_exists, not_and]
    intro w hw hk
    simpa [hk] using latest_eq_none.mp hlast w hw
  | some m =>
    obtain ⟨hm, hkm, hmax⟩ := (latest_eq_some h).mp hlast
    simp only [decide_eq_true_eq] at hkm hmax
    simp only [Option.map_some, Option.any_some, decide_eq_true_eq]
    constructor
    · exact fun ht => ⟨m, hm, hkm, ht⟩
    · rintro ⟨w, hw, hk, ht⟩
      exact ht.trans_le (when_mono (hmax w hw hk))

section
variable (parse)

/-- A later clean fetch of its page no longer found the link. -/
def Withdrawn (rows : List Evidence) (x : Evidence) : Prop :=
  ∃ w ∈ rows, w.refutes = true ∧ w.kind = .officialLink ∧ w.sourceUrl = x.sourceUrl ∧
    when parse x < when parse w

def SourceLost (rows : List Evidence) (x : Evidence) : Prop :=
  ∃ w ∈ rows, w.refutes = true ∧ w.kind = .anchorLost ∧ w.hasSource = true ∧
    w.source = x.source ∧ when parse x < when parse w

def SourceRefuted (rows : List Evidence) (x : Evidence) : Prop :=
  ∃ w ∈ rows, w.refutes = true ∧ w.kind = .sourceRefuted ∧ w.hasSource = true ∧ w.source = x.source

/-- The latest word of the profile on the domain takes it out. -/
def TakenOut (rows : List Evidence) : Prop :=
  ∃ w ∈ rows, w.kind = .configuredDomain ∧ w.refutes = true ∧
    ∀ y ∈ rows, y.kind = .configuredDomain → order parse y ≤ order parse w

/-- The row still speaks for the asset: its source stands, the profile still names the domain, and
the handle has not changed hands since. -/
def Counts (rows : List Evidence) (x : Evidence) : Prop :=
  x.supports = true ∧
    (x.kind ∈ [Kind.officialLink, .hubLink, .subdomain, .backlink] → ¬ SourceRefuted rows x) ∧
    (x.kind = .configuredDomain → ¬ TakenOut parse rows) ∧
    ∀ w ∈ rows, w.refutes = true → w.kind = .identityChanged → when parse w < when parse x

/-- A withdrawal of the owner's confirmation on the channel of the row. -/
def Evidence.withdraws (w x : Evidence) : Bool :=
  w.refutes && w.kind = .ownerClaim && w.channel = x.channel

/-- An owner's confirmation that no withdrawal on its channel follows. -/
def OwnerStands (rows : List Evidence) (x : Evidence) : Prop :=
  x.kind = .ownerClaim ∧ x.observedVia = .owner ∧
    (∀ w ∈ rows, w.withdraws x = true → when parse w < when parse x) ∧
    ((∃ w ∈ rows, w.withdraws x = true) ∨ minTime < when parse x)

end

theorem isWithdrawn_iff (h : Chronological (order parse) l) (hkind : x.kind = .officialLink) :
    isWithdrawn parse (losses parse l) x = true ↔ Withdrawn parse l x := by
  simp only [isWithdrawn, hkind, decide_true, Bool.true_and, losses, any_momentsBy (h.filter _),
    List.mem_filter, Bool.and_eq_true, decide_eq_true_eq, Withdrawn, and_assoc]

theorem isStale_iff (h : Chronological (order parse) l) :
    isStale parse (losses parse l) x = true ↔ SourceLost parse l x := by
  simp only [isStale, losses, any_momentsBy (h.filter _), List.mem_filter, Bool.and_eq_true,
    decide_eq_true_eq, SourceLost, and_assoc]

theorem unconfigured_iff (h : Chronological (order parse) l) :
    unconfigured l = true ↔ TakenOut parse l := by
  rw [unconfigured, Option.any_eq_true]
  simp only [latest_eq_some h, decide_eq_true_eq, TakenOut, and_assoc]
  refine exists_congr fun w => and_congr_right fun _ => and_congr_right fun _ => ?_
  exact and_comm

theorem ownerWithdrawn_lt_iff (h : Chronological (order parse) l) :
    ((losses parse l).ownerWithdrawn.get x.channel).getD minTime < when parse x ↔
      (∀ w ∈ l, w.withdraws x = true → when parse w < when parse x) ∧
        ((∃ w ∈ l, w.withdraws x = true) ∨ minTime < when parse x) := by
  have hmem : ∀ w, (w ∈ l.filter (fun item => item.refutes && item.kind = .ownerClaim) ∧
      w.channel = x.channel) ↔ w ∈ l ∧ w.withdraws x = true := by
    intro w
    simp only [List.mem_filter, Evidence.withdraws, Bool.and_eq_true, decide_eq_true_eq, and_assoc]
  rw [losses, get_momentsBy]
  cases hlast : latest (fun w => decide (w.channel = x.channel))
      (l.filter fun item => item.refutes && item.kind = .ownerClaim) with
  | none =>
    have hnone : ∀ w ∈ l, ¬ w.withdraws x = true := by
      intro w hw hx
      obtain ⟨hmem, hchannel⟩ := (hmem w).mpr ⟨hw, hx⟩
      simpa [hchannel] using latest_eq_none.mp hlast w hmem
    simp only [Option.map_none, Option.getD_none]
    constructor
    · exact fun ht => ⟨fun w hw hx => absurd hx (hnone w hw), .inr ht⟩
    · rintro ⟨-, ⟨w, hw, hx⟩ | ht⟩
      · exact absurd hx (hnone w hw)
      · exact ht
  | some m =>
    obtain ⟨hm, hchannel, hmax⟩ := (latest_eq_some (h.filter _)).mp hlast
    simp only [decide_eq_true_eq] at hchannel hmax
    obtain ⟨hml, hmx⟩ := (hmem m).mp ⟨hm, hchannel⟩
    simp only [Option.map_some, Option.getD_some]
    constructor
    · intro ht
      refine ⟨fun w hw hx => ?_, .inl ⟨m, hml, hmx⟩⟩
      obtain ⟨hw', hchannel'⟩ := (hmem w).mpr ⟨hw, hx⟩
      exact (when_mono (hmax w hw' hchannel')).trans_lt ht
    · exact fun hall => hall.1 m hml hmx

/-! ## Grounds -/

section
variable (parse)

/-- A live identity link on a page of grade O or A. -/
def LiveLink (rows : List Evidence) (x : Evidence) : Prop :=
  x.kind = .officialLink ∧ x.observedVia = .live ∧
    (beforeColon x.detail = "O" ∨ beforeColon x.detail = "A") ∧
    ¬ Withdrawn parse rows x ∧ ¬ SourceLost parse rows x ∧ ¬ SourceRefuted rows x

/-- A live subdomain, or a link, of an asset of grade O. -/
def FromOwned (rows : List Evidence) (x : Evidence) : Prop :=
  (x.kind = .subdomain ∧ x.observedVia = .live ∨ x.kind = .hubLink ∧ ':' ∈ x.detail.toList) ∧
    beforeColon x.detail = "O" ∧ ¬ SourceLost parse rows x

/-- A domain of the profile that sends its visitors nowhere else. -/
def ConfiguredOnSite (rows : List Evidence) (x : Evidence) : Prop :=
  x.kind = .configuredDomain ∧ ¬ TakenOut parse rows ∧ ¬ SaysLast parse "redirects_offsite" rows

end

def Authoritative (asset : Asset) (x : Evidence) : Prop :=
  x.kind = .directoryRecord ∧ startsWith "authority:" x.detail = true ∧ asset.isDomain = true

theorem oneStepDown_eq_A {text : String} : oneStepDown text = .A ↔ text = "O" := by
  rw [oneStepDown]
  split_ifs with hO hA
  · simp [hO]
  · simp [hA]
  · simp [hO]

theorem oneStepDown_ne_O (text : String) : oneStepDown text ≠ .O := by
  rw [oneStepDown]
  split_ifs <;> simp

theorem officialLinkGrade_eq_A {via : Via} {anchor : String} :
    officialLinkGrade via anchor = .A ↔ via = .live ∧ (anchor = "O" ∨ anchor = "A") := by
  cases via <;> rw [officialLinkGrade]
  case live => split_ifs with hA hB <;> simp [hA]
  case archive => split_ifs <;> simp
  all_goals simp

theorem officialLinkGrade_ne_O (via : Via) (anchor : String) : officialLinkGrade via anchor ≠ .O := by
  cases via <;> rw [officialLinkGrade] <;> (try split_ifs) <;> simp

theorem candidate_O {L : Losses} : (∃ reason, candidate parse asset L x = some (.O, reason)) ↔
      x.kind = .ownerClaim ∧ x.observedVia = .owner ∧
        (L.ownerWithdrawn.get x.channel).getD minTime < when parse x := by
  unfold candidate
  cases x.kind
  case ownerClaim =>
    dsimp only
    split_ifs with h
    · simpa using h
    · simpa using h
  case officialLink => simp [officialLinkGrade_ne_O]
  case hubLink => simp [oneStepDown_ne_O]
  case configuredDomain =>
    dsimp only
    split_ifs <;> simp
  case subdomain =>
    dsimp only
    split_ifs <;> simp [oneStepDown_ne_O]
  case directoryRecord =>
    dsimp only
    split_ifs <;> simp
  all_goals simp

theorem candidate_A {L : Losses} : (∃ reason, candidate parse asset L x = some (.A, reason)) ↔
      (x.kind = .officialLink ∧ (isStale parse L x = false ∧ x.observedVia = .live) ∧
        (beforeColon x.detail = "O" ∨ beforeColon x.detail = "A")) ∨
      (x.kind = .configuredDomain ∧ L.redirectedTo = "") ∨ Authoritative asset x ∨
      (x.kind = .subdomain ∧ x.observedVia = .live ∨ x.kind = .hubLink ∧ ':' ∈ x.detail.toList) ∧
        beforeColon x.detail = "O" := by
  unfold candidate Authoritative
  cases x.kind
  case officialLink =>
    by_cases hstale : isStale parse L x = true ∧ x.observedVia = .live
    · simp [hstale, officialLinkGrade_eq_A]
    · cases hs : isStale parse L x <;> simp_all [officialLinkGrade_eq_A]
  case configuredDomain =>
    dsimp only
    split_ifs with h <;> simp [h]
  case subdomain =>
    dsimp only
    split_ifs with h <;> simp [h, oneStepDown_eq_A]
  case hubLink =>
    by_cases hcolon : ':' ∈ x.detail.toList
    · simp [hcolon, oneStepDown_eq_A]
    · simp [hcolon, oneStepDown_eq_A]
  case directoryRecord =>
    dsimp only
    split_ifs with h <;> simpa using h
  case ownerClaim =>
    dsimp only
    split_ifs <;> simp
  all_goals simp

section
variable {x : Evidence}

theorem gives_O_iff (h : Chronological (order parse) l) :
    Gives parse asset (losses parse l) x .O ↔ OwnerStands parse l x := by
  rw [Gives, candidate_O, ownerWithdrawn_lt_iff h, OwnerStands]
  constructor
  · rintro ⟨-, -, hstands⟩
    exact hstands
  · intro hstands
    refine ⟨by simp [isWithdrawn, hstands.1], ?_, hstands⟩
    simp [hstands.1]

theorem counts_iff (h : Chronological (order parse) l) : counts parse l x = true ↔ Counts parse l x := by
  have hsource : (refutedSources l).contains x.source = true ↔ SourceRefuted l x := by
    simp only [refutedSources, List.contains_iff_mem, List.mem_map, List.mem_filter,
      Bool.and_eq_true, decide_eq_true_eq, SourceRefuted, and_assoc]
  have hreassigned : (reassignedAt parse l).all (fun moment => decide (moment < when parse x)) =
      true ↔ ∀ w ∈ l, w.refutes = true → w.kind = .identityChanged → when parse w < when parse x := by
    have hmem : ∀ t, t ∈ ((l.filter fun item => item.refutes && item.kind = .identityChanged).map
        (when parse)) ↔ ∃ w ∈ l, w.refutes = true ∧ w.kind = .identityChanged ∧ when parse w = t := by
      simp only [List.mem_map, List.mem_filter, Bool.and_eq_true, decide_eq_true_eq, and_assoc,
        implies_true]
    rw [reassignedAt]
    cases hmax : ((l.filter fun item => item.refutes && item.kind = .identityChanged).map
        (when parse)).max? with
    | none =>
      refine iff_of_true rfl fun w hw hrefutes hk => ?_
      have hw := (hmem _).mpr ⟨w, hw, hrefutes, hk, rfl⟩
      rw [List.max?_eq_none_iff.mp hmax] at hw
      cases hw
    | some m =>
      obtain ⟨hm, hle⟩ := List.max?_eq_some_iff.mp hmax
      simp only [Option.all_some, decide_eq_true_eq]
      constructor
      · exact fun hlt w hw hrefutes hk => (hle _ ((hmem _).mpr ⟨w, hw, hrefutes, hk, rfl⟩)).trans_lt hlt
      · intro hall
        obtain ⟨w, hw, hrefutes, hk, rfl⟩ := (hmem m).mp hm
        exact hall w hw hrefutes hk
  simp only [counts, Bool.and_eq_true, hreassigned, Counts, Bool.not_eq_true', ← Bool.not_eq_true,
    hsource, unconfigured_iff h, decide_eq_true_eq, List.contains_iff_mem, not_and]
  constructor
  · rintro ⟨⟨⟨hs, hsource⟩, hout⟩, hafter⟩
    exact ⟨hs, hsource, fun hk ht => hout ht hk, hafter⟩
  · rintro ⟨hs, hsource, hout, hafter⟩
    exact ⟨⟨⟨hs, hsource⟩, fun ht hk => hout hk ht⟩, hafter⟩

theorem gives_A_iff (h : Chronological (order parse) l) (hcounts : Counts parse l x) :
    Gives parse asset (losses parse l) x .A ↔
      LiveLink parse l x ∨ (x.kind = .configuredDomain ∧ (losses parse l).redirectedTo = "") ∨
        Authoritative asset x ∨ FromOwned parse l x := by
  have hstale : isStale parse (losses parse l) x = false ↔ ¬ SourceLost parse l x := by
    rw [← isStale_iff h, Bool.not_eq_true]
  rw [Gives, candidate_A, hstale, ← isStale_iff h, isStale_iff h]
  constructor
  · rintro ⟨hwithdrawn, hlost, ⟨hk, ⟨hfresh, hvia⟩, hanchor⟩ | hconf | hauth | hfrom⟩
    · refine .inl ⟨hk, hvia, hanchor, ?_, hfresh, hcounts.2.1 (by simp [hk])⟩
      rw [← isWithdrawn_iff h hk, hwithdrawn]
      exact Bool.false_ne_true
    · exact .inr (.inl hconf)
    · exact .inr (.inr (.inl hauth))
    · refine .inr (.inr (.inr ⟨hfrom.1, hfrom.2, fun hsource => hlost ⟨hsource, ?_⟩⟩))
      exact hfrom.1.symm.imp And.left And.left
  · have hother : x.kind ≠ .officialLink → isWithdrawn parse (losses parse l) x = false := by
      intro hk
      simp [isWithdrawn, hk]
    rintro (⟨hk, hvia, hanchor, hfresh, hlost, -⟩ | ⟨hk, hto⟩ | hauth | ⟨hk, hO, hlost⟩)
    · refine ⟨?_, by simp [hk], .inl ⟨hk, ⟨hlost, hvia⟩, hanchor⟩⟩
      rwa [← Bool.not_eq_true, isWithdrawn_iff h hk]
    · exact ⟨hother (by simp [hk]), by simp [hk], .inr (.inl ⟨hk, hto⟩)⟩
    · exact ⟨hother (by simp [hauth.1]), by simp [hauth.1], .inr (.inr (.inl hauth))⟩
    · refine ⟨hother ?_, fun hs => hlost hs.1, .inr (.inr (.inr ⟨hk, hO⟩))⟩
      rcases hk with ⟨hk, -⟩ | ⟨hk, -⟩ <;> simp [hk]

end

/-- The newest integrity row of all says that the domain redirects. -/
def RedirectsNewest (parse : String → Option Int) (rows : List Evidence) : Prop :=
  ∃ v ∈ rows, v.kind = .integrity ∧ (∀ y ∈ rows, y.kind = .integrity → order parse y ≤ order parse v) ∧
    v.refutes = true ∧ startsWith "redirects_offsite:" v.detail = true

theorem redirectedTo_eq_empty (h : Chronological (order parse) l) :
    (losses parse l).redirectedTo = "" ↔ ¬ RedirectsNewest parse l := by
  show redirectedTo (latestIntegrity l) = "" ↔ _
  unfold redirectedTo
  cases hlast : latestIntegrity l with
  | none =>
    refine iff_of_true rfl ?_
    rintro ⟨v, hv, hk, -⟩
    simpa [hk] using latest_eq_none.mp hlast v hv
  | some m =>
    obtain ⟨hm, hkm, hmax⟩ := (latest_eq_some h).mp hlast
    simp only [decide_eq_true_eq] at hkm hmax
    have hnewest : RedirectsNewest parse l ↔
        m.refutes = true ∧ startsWith "redirects_offsite:" m.detail = true := by
      constructor
      · rintro ⟨v, hv, hkv, hall, hsaid⟩
        obtain rfl : v = m := h.eq_of_key_eq hv hm (le_antisymm (hmax v hv hkv) (hall m hm hkm))
        exact hsaid
      · exact fun hsaid => ⟨m, hm, hkm, hmax, hsaid⟩
    rw [hnewest]
    dsimp only
    split_ifs with hsaid hempty
    · simp [hsaid]
    · simp [hsaid, hempty]
    · simp [hsaid]

/-! ## Nothing becomes official second-hand -/

/-- Evidence that vouches for nothing by itself: links, snippets, community records and claims of
sources graded A or below. -/
def Evidence.secondHand (asset : Asset) (x : Evidence) : Bool :=
  match x.kind with
  | .ownerClaim | .configuredDomain => false
  | .officialLink => x.observedVia ≠ .live
  | .hubLink | .subdomain => beforeColon x.detail ≠ "O"
  | .directoryRecord => !(startsWith "authority:" x.detail && asset.isDomain)
  | _ => true

section
variable (parse)

def Anchors (asset : Asset) (rows : List Evidence) (x : Evidence) : Prop :=
  x.supports = true ∧ (LiveLink parse rows x ∨ ConfiguredOnSite parse rows x ∨
    Authoritative asset x ∨ FromOwned parse rows x)

/-- O is the owner's word, A has an anchor, and second-hand evidence makes neither. -/
def FirstHand (asset : Asset) (rows : List Evidence) (g : Grade) : Prop :=
  (g = .O → ∃ x ∈ rows, x.supports = true ∧ OwnerStands parse rows x) ∧
    (g = .A → ∃ x ∈ rows, Anchors parse asset rows x) ∧
    ((∀ x ∈ rows, x.supports = true → x.secondHand asset = true) → g ≠ .O ∧ g ≠ .A)

/-- A domain whose only anchor is the profile redirects by the newest report of one channel, but not
by the newest report of all. -/
structure Overlooked (asset : Asset) (rows : List Evidence) : Prop where
  redirects : SaysLast parse "redirects_offsite" rows
  newest : ¬ RedirectsNewest parse rows
  configured : ∃ x ∈ rows, Counts parse rows x ∧ x.kind = .configuredDomain
  unowned : ∀ x ∈ rows, Counts parse rows x → ¬ OwnerStands parse rows x
  alone : ∀ x ∈ rows, x.supports = true →
    ¬ (LiveLink parse rows x ∨ Authoritative asset x ∨ FromOwned parse rows x)
  standing : ¬ Refuted parse rows ∧ ¬ EndsDead parse rows

end

theorem not_anchors_of_secondHand {rows : List Evidence} (hx : x.secondHand asset = true) :
    ¬ OwnerStands parse rows x ∧ ¬ Anchors parse asset rows x := by
  unfold Evidence.secondHand at hx
  constructor
  · rintro ⟨hk, -⟩
    simp [hk] at hx
  · rintro ⟨-, ⟨hk, hvia, -⟩ | ⟨hk, -⟩ | ⟨hk, hauth, hdomain⟩ | ⟨⟨hk, -⟩ | ⟨hk, -⟩, hO, -⟩⟩
    · simp [hk, hvia] at hx
    · simp [hk] at hx
    · simp [hk, hauth, hdomain] at hx
    · simp [hk, hO] at hx
    · simp [hk, hO] at hx

theorem judge_eq_iff (h : Chronological (order parse) l) {now : Int} (hg : g ≠ .D)
    (foundBy : Option (Table String (List String))) :
    (judge parse asset l (status parse l now) foundBy).1 = g ↔
      (¬ Refuted parse l ∧ ¬ EndsDead parse l) ∧ (weigh parse asset l foundBy).1 = g := by
  by_cases hrefuted : Refuted parse l
  · rw [judge_refuted h hrefuted]
    simp [hrefuted, hg.symm]
  · have hnone := mt (refuted_iff h).mpr hrefuted
    rw [not_or, Option.not_isSome_iff_eq_none, Option.not_isSome_iff_eq_none] at hnone
    have hdead : status parse l now = some .dead ↔ EndsDead parse l := endsDead_iff h hnone.2
    simp only [judge, hnone, hrefuted, not_false_iff, true_and]
    split_ifs with hs
    · simp [hdead.mp hs, hg.symm]
    · simp [mt hdead.mpr hs]

theorem firstHand_iff_of_chronological (h : Chronological (order parse) l) (now : Int)
    (foundBy : Option (Table String (List String))) :
    FirstHand parse asset l (judge parse asset l (status parse l now) foundBy).1 ↔
      ¬ Overlooked parse asset l := by
  have hO : (judge parse asset l (status parse l now) foundBy).1 = .O ↔
      (¬ Refuted parse l ∧ ¬ EndsDead parse l) ∧
        ∃ x ∈ l, Counts parse l x ∧ OwnerStands parse l x := by
    rw [judge_eq_iff h (by simp), weigh_eq_O]
    simp only [gives_O_iff h, counts_iff h]
  have hA : (judge parse asset l (status parse l now) foundBy).1 = .A ↔
      (¬ Refuted parse l ∧ ¬ EndsDead parse l) ∧
        (∃ x ∈ l, Counts parse l x ∧ Gives parse asset (losses parse l) x .A) ∧
          ¬ ∃ x ∈ l, Counts parse l x ∧ OwnerStands parse l x := by
    rw [judge_eq_iff h (by simp), weigh_eq_A]
    simp only [gives_O_iff h, counts_iff h]
  constructor
  · rintro ⟨-, hanchor, -⟩ hover
    obtain ⟨x, hx, hcounts, hk⟩ := hover.configured
    have hgives : Gives parse asset (losses parse l) x .A := (gives_A_iff h hcounts).mpr
      (.inr (.inl ⟨hk, (redirectedTo_eq_empty h).mpr hover.newest⟩))
    obtain ⟨y, hy, hsupports, hground⟩ := hanchor (hA.mpr ⟨hover.standing, ⟨x, hx, hcounts, hgives⟩,
      fun ⟨y, hy, hc, ho⟩ => hover.unowned y hy hc ho⟩)
    have halone := hover.alone y hy hsupports
    rcases hground with hlink | hsite | hauth | hfrom
    · exact halone (.inl hlink)
    · exact hsite.2.2 hover.redirects
    · exact halone (.inr (.inl hauth))
    · exact halone (.inr (.inr hfrom))
  · intro hover
    have howner : (judge parse asset l (status parse l now) foundBy).1 = .O →
        ∃ x ∈ l, x.supports = true ∧ OwnerStands parse l x := by
      intro hg
      obtain ⟨-, x, hx, hcounts, hstands⟩ := hO.mp hg
      exact ⟨x, hx, hcounts.1, hstands⟩
    have hanchor : (judge parse asset l (status parse l now) foundBy).1 = .A →
        ∃ x ∈ l, Anchors parse asset l x := by
      intro hg
      obtain ⟨hstanding, ⟨x, hx, hcounts, hgives⟩, hunowned⟩ := hA.mp hg
      by_contra hnone
      have halone : ∀ y ∈ l, y.supports = true →
          ¬ (LiveLink parse l y ∨ Authoritative asset y ∨ FromOwned parse l y) := by
        rintro y hy hsupports (hlink | hauth | hfrom)
        · exact hnone ⟨y, hy, hsupports, .inl hlink⟩
        · exact hnone ⟨y, hy, hsupports, .inr (.inr (.inl hauth))⟩
        · exact hnone ⟨y, hy, hsupports, .inr (.inr (.inr hfrom))⟩
      -- only a configured domain is left, and it is no anchor: its redirect was overlooked
      rcases (gives_A_iff h hcounts).mp hgives with hlink | ⟨hk, hto⟩ | hauth | hfrom
      · exact halone x hx hcounts.1 (.inl hlink)
      · refine hover ⟨?_, (redirectedTo_eq_empty h).mp hto, ⟨x, hx, hcounts, hk⟩,
          fun y hy hc ho => hunowned ⟨y, hy, hc, ho⟩, halone, hstanding⟩
        by_contra hclean
        exact hnone ⟨x, hx, hcounts.1, .inr (.inl ⟨hk, hcounts.2.2.1 hk, hclean⟩)⟩
      · exact halone x hx hcounts.1 (.inr (.inl hauth))
      · exact halone x hx hcounts.1 (.inr (.inr hfrom))
    refine ⟨howner, hanchor, fun hsecond => ⟨fun hg => ?_, fun hg => ?_⟩⟩
    · obtain ⟨x, hx, hsupports, hstands⟩ := howner hg
      exact (not_anchors_of_secondHand (hsecond x hx hsupports)).1 hstands
    · obtain ⟨x, hx, hground⟩ := hanchor hg
      exact (not_anchors_of_secondHand (hsecond x hx hground.1)).2 hground

theorem FirstHand.congr {rows rows' : List Evidence} (h : ∀ x, x ∈ rows ↔ x ∈ rows')
    (hfirst : FirstHand parse asset rows g) : FirstHand parse asset rows' g := by
  simpa only [FirstHand, Anchors, OwnerStands, LiveLink, ConfiguredOnSite, FromOwned, Withdrawn,
    SourceLost, SourceRefuted, TakenOut, SaysLast, NewestOnChannel, h] using hfirst

theorem Overlooked.congr {rows rows' : List Evidence} (h : ∀ x, x ∈ rows ↔ x ∈ rows')
    (hover : Overlooked parse asset rows) : Overlooked parse asset rows' where
  redirects := by simpa only [SaysLast, NewestOnChannel, h] using hover.redirects
  newest := by simpa only [RedirectsNewest, h] using hover.newest
  configured := by
    simpa only [Counts, SourceRefuted, TakenOut, h] using hover.configured
  unowned := by
    simpa only [Counts, SourceRefuted, TakenOut, OwnerStands, h] using hover.unowned
  alone := by
    simpa only [LiveLink, FromOwned, Withdrawn, SourceLost, SourceRefuted, h] using hover.alone
  standing := by
    simpa only [refuted_congr h, EndsDead, SaysLast, NewestOnChannel, EndFailure, h]
      using hover.standing

/-- **Nothing becomes official second-hand**, except where the redirect of a configured domain is
overlooked. -/
theorem firstHand_iff (parse : String → Option Int) (asset : Asset) (log : EvidenceLog asset.assetId)
    (now : Int) (foundBy : Option (Table String (List String))) :
    FirstHand parse asset log.rows (grade parse asset log.rows now foundBy).grade ↔
      ¬ Overlooked parse asset log.rows := by
  have hsame : ∀ x, x ∈ ordered parse log.rows ↔ x ∈ log.rows := fun x => mem_ordered
  have hchron : Chronological (order parse) (ordered parse log.rows) :=
    chronological_ordered log.unique
  have hiff : FirstHand parse asset (ordered parse log.rows)
        (judge parse asset (ordered parse log.rows) (status parse (ordered parse log.rows) now)
          foundBy).1 ↔
      ¬ Overlooked parse asset (ordered parse log.rows) :=
    firstHand_iff_of_chronological hchron now foundBy
  constructor
  · intro hfirst hover
    exact hiff.mp (hfirst.congr fun x => (hsame x).symm) (hover.congr fun x => (hsame x).symm)
  · intro hover
    exact (hiff.mpr fun hover' => hover (hover'.congr hsame)).congr hsame

/-- A configured domain that redirects: its name servers were parked after the last visit, and a
reviewer then confirmed it. -/
def redirecting : EvidenceLog "dom-1" where
  rows := [
    ⟨"ievd-1", "dom-1", .configuredDomain, .supports, "", none, "profile of X", "profile", .reviewer,
      "2026-01-01T00:00:00+00:00"⟩,
    ⟨"ievd-2", "dom-1", .integrity, .refutes, "https://other.in/", none,
      "redirects_offsite:other.in", "site:x.in", .live, "2026-01-02T00:00:00+00:00"⟩,
    ⟨"ievd-3", "dom-1", .integrity, .refutes, "dns:x.in", none,
      "parked:name servers ns1.parkingcrew.net", "dns", .live, "2026-01-03T00:00:00+00:00"⟩,
    ⟨"ievd-4", "dom-1", .reviewerConfirm, .supports, "", none, "the name is ours", "reviewer",
      .reviewer, "2026-01-04T00:00:00+00:00"⟩]
  unique := by decide
  ofAsset := by decide

/-- The domain is graded A as configured, though its status says that it redirects. -/
theorem not_firstHand :
    ¬ ∀ (parse : String → Option Int) (asset : Asset) (log : EvidenceLog asset.assetId) (now : Int)
      (foundBy : Option (Table String (List String))),
      FirstHand parse asset log.rows (grade parse asset log.rows now foundBy).grade := by
  intro h
  obtain ⟨x, hx, -, hground⟩ := (h january ⟨"dom-1", true⟩ redirecting 0 none).2.1 (by decide)
  have hredirects : SaysLast january "redirects_offsite" redirecting.rows := by
    refine ⟨_, List.mem_cons_of_mem _ List.mem_cons_self, rfl, ?_, rfl, by decide⟩
    unfold NewestOnChannel
    decide
  have hkinds : ∀ y ∈ redirecting.rows,
      y.kind ∈ [Kind.configuredDomain, .integrity, .reviewerConfirm] := by decide
  have hkind := hkinds x hx
  rcases hground with hlink | hsite | hauth | ⟨⟨hk, -⟩ | ⟨hk, -⟩, -⟩
  · simp [hlink.1] at hkind
  · exact hsite.2.2 hredirects
  · simp [hauth.1] at hkind
  · simp [hk] at hkind
  · simp [hk] at hkind

end GuruJi.Map
