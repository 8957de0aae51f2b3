import GuruJi.Map.Grading

/-!
# When the rule counts an asset as dead

The runs of failures that `lapsedAt` and `livenessStatus` walk, said of the log as a set of rows:
`lapsed_iff` for a name that stopped resolving, `endsDead_iff` for the checks at the end, and
`status_dead_iff` for the status.
-/

namespace GuruJi.Map

open GuruJi.Lib

def Evidence.failedLookup (item : Evidence) : Bool := item.unresolved && !item.supports

variable (parse : String → Option Int)

/-- Two lookup failures a day or more apart, that no reviewer has answered, with only `ignored`
successes between them. -/
def LapseBut (ignored : Evidence → Prop) (rows : List Evidence) : Prop :=
  ∃ f ∈ rows, ∃ g ∈ rows, f.failedLookup ∧ g.failedLookup ∧
    deadConfirmation ≤ when parse g - when parse f ∧
    (∀ s ∈ rows, s.succeeded → order parse f < order parse s → order parse s < order parse g →
      ignored s) ∧
    confirmedAfter parse rows (when parse g) = false

/-- The name lapsed, and no reviewer has confirmed the asset since. -/
def Lapsed (rows : List Evidence) : Prop := LapseBut parse (fun _ => False) rows

/-- The row is the newest one of its kind on its channel. -/
def NewestOnChannel (rows : List Evidence) (x : Evidence) : Prop :=
  ∀ y ∈ rows, y.kind = x.kind → y.channel = x.channel → order parse y ≤ order parse x

def EndFailure (rows : List Evidence) (x : Evidence) : Prop :=
  x.kind = .liveness ∧ x.notFound ∧ ∀ s ∈ rows, s.succeeded → order parse s < order parse x

/-- Some channel's newest integrity verdict says `text`. -/
def SaysLast (text : String) (rows : List Evidence) : Prop :=
  ∃ v ∈ rows, v.kind = .integrity ∧ NewestOnChannel parse rows v ∧ v.refutes ∧
    beforeColon v.detail = text

/-- The checks end with not-found failures a day or more apart. -/
def EndsDead (rows : List Evidence) : Prop :=
  ¬ SaysLast parse "compromised" rows ∧ ¬ SaysLast parse "redirects_offsite" rows ∧
    (∃ l ∈ rows, l.kind = .liveness ∧ l.notFound ∧
      ∀ y ∈ rows, y.kind = .liveness → order parse y ≤ order parse l) ∧
    ∃ f ∈ rows, ∃ g ∈ rows, EndFailure parse rows f ∧ EndFailure parse rows g ∧
      deadConfirmation ≤ when parse g - when parse f

variable {parse} {l : List Evidence}

theorem confirmedAfter_congr {rows rows' : List Evidence} (h : ∀ item, item ∈ rows ↔ item ∈ rows')
    (moment : Int) : confirmedAfter parse rows moment = confirmedAfter parse rows' moment := by
  rw [Bool.eq_iff_iff]
  simp only [confirmedAfter, List.any_eq_true, h]

theorem confirmedAfter_anti {rows : List Evidence} {m m' : Int} (hle : m ≤ m')
    (h : confirmedAfter parse rows m' = true) : confirmedAfter parse rows m = true := by
  obtain ⟨c, hc, hp⟩ := List.any_eq_true.mp h
  simp only [Bool.and_eq_true, decide_eq_true_eq] at hp
  exact List.any_eq_true.mpr ⟨c, hc, by simpa [hp] using lt_of_le_of_lt hle hp.2⟩

theorem standing_congr {text : String} {rows rows' : List Evidence}
    (h : ∀ item, item ∈ rows ↔ item ∈ rows') :
    standing parse text rows = standing parse text rows' := by
  rw [Bool.eq_iff_iff]
  simp only [standing, List.any_eq_true, confirmedAfter_congr h, h]

/-! ## Lapses -/

/-- What the walk over the liveness rows knows: the first failure of its run is the oldest one since
the last success, and its lapse is the latest one. -/
structure Walked (parse : String → Option Int) (l : List Evidence) (s : List Int × Option Int) :
    Prop where
  run : ∀ t ∈ s.1.head?, ∃ f ∈ l, f.failedLookup ∧ when parse f = t ∧
    ∀ x ∈ l, x.succeeded → order parse x < order parse f
  first : ∀ f ∈ l, f.failedLookup → (∀ x ∈ l, x.succeeded → order parse x < order parse f) →
    ∃ t ∈ s.1.head?, t ≤ when parse f
  lapse : ∀ t ∈ s.2, ∃ f ∈ l, ∃ g ∈ l, f.failedLookup ∧ g.failedLookup ∧ when parse g = t ∧
    deadConfirmation ≤ when parse g - when parse f ∧
    ∀ x ∈ l, x.succeeded → order parse f < order parse x → ¬ order parse x < order parse g
  latest : ∀ f ∈ l, ∀ g ∈ l, f.failedLookup → g.failedLookup →
    deadConfirmation ≤ when parse g - when parse f →
    (∀ x ∈ l, x.succeeded → order parse f < order parse x → ¬ order parse x < order parse g) →
    ∃ t ∈ s.2, when parse g ≤ t

theorem order_lt_of_apart {f g : Evidence} (h : deadConfirmation ≤ when parse g - when parse f) :
    order parse f < order parse g := by
  refine order_lt_of_when ?_
  unfold deadConfirmation at h
  omega

theorem Evidence.succeeded_iff {item : Evidence} :
    item.succeeded = true ↔ item.kind = .liveness ∧ item.supports = true := by
  simp [Evidence.succeeded]

theorem Evidence.not_failedLookup {item : Evidence} (h : item.succeeded = true) :
    item.failedLookup = false := by
  simp [Evidence.failedLookup, (Evidence.succeeded_iff.mp h).2]

theorem Evidence.not_succeeded {item : Evidence} (h : item.failedLookup = true) :
    item.succeeded = false := by
  simp only [Evidence.failedLookup, Bool.and_eq_true, Bool.not_eq_true'] at h
  simp [Evidence.succeeded, h.2]

theorem Walked.succeeded {x : Evidence} {s : List Int × Option Int} (h : Walked parse l s)
    (hlast : ∀ y ∈ l, order parse y < order parse x) (hx : x.succeeded = true) :
    Walked parse (l ++ [x]) ([], s.2) := by
  have hmem : ∀ f ∈ l ++ [x], f.failedLookup = true → f ∈ l := fun f =>
    mem_of_mem_snoc (Evidence.not_failedLookup hx)
  refine ⟨by simp, fun f hf hfail hall => ?_, fun t ht => ?_, ?_⟩
  · have hxf := hall x (by simp) hx
    exact absurd hxf (hlast f (hmem f hf hfail)).not_gt
  · obtain ⟨f, hf, g, hg, hff, hgf, hwhen, hday, hall⟩ := h.lapse t ht
    refine ⟨f, List.mem_append_left _ hf, g, List.mem_append_left _ hg, hff, hgf, hwhen, hday, ?_⟩
    intro y hy hys hfy
    rcases List.mem_append.mp hy with hy | hy
    · exact hall y hy hys hfy
    · rw [List.mem_singleton.mp hy]
      exact (hlast g hg).not_gt
  · intro f hf g hg hff hgf hday hall
    exact h.latest f (hmem f hf hff) g (hmem g hg hgf) hff hgf hday fun y hy =>
      hall y (List.mem_append_left _ hy)

theorem Walked.lapse_snoc {x : Evidence} {s : List Int × Option Int} (h : Walked parse l s)
    (hx : x.succeeded = false) {t : Int} (ht : t ∈ s.2) : ∃ f ∈ l ++ [x], ∃ g ∈ l ++ [x],
      f.failedLookup ∧ g.failedLookup ∧ when parse g = t ∧
        deadConfirmation ≤ when parse g - when parse f ∧
          ∀ y ∈ l ++ [x], y.succeeded → order parse f < order parse y →
            ¬ order parse y < order parse g := by
  obtain ⟨f, hf, g, hg, hff, hgf, hwhen, hday, hall⟩ := h.lapse t ht
  exact ⟨f, List.mem_append_left _ hf, g, List.mem_append_left _ hg, hff, hgf, hwhen, hday,
    fun y hy hys => hall y (mem_of_mem_snoc hx hy hys) hys⟩

theorem Walked.other {x : Evidence} {s : List Int × Option Int} (h : Walked parse l s)
    (hs : x.succeeded = false) (hf : x.failedLookup = false) : Walked parse (l ++ [x]) s := by
  have hmem : ∀ f ∈ l ++ [x], f.failedLookup = true → f ∈ l := fun f => mem_of_mem_snoc hf
  refine ⟨fun t ht => ?_, fun f hfx hfail hall => ?_, fun t ht => h.lapse_snoc hs ht, ?_⟩
  · obtain ⟨f, hfl, hfail, hwhen, hall⟩ := h.run t ht
    exact ⟨f, List.mem_append_left _ hfl, hfail, hwhen,
      fun y hy hys => hall y (mem_of_mem_snoc hs hy hys) hys⟩
  · exact h.first f (hmem f hfx hfail) hfail fun y hy => hall y (List.mem_append_left _ hy)
  · intro f hfx g hg hff hgf hday hall
    exact h.latest f (hmem f hfx hff) g (hmem g hg hgf) hff hgf hday fun y hy =>
      hall y (List.mem_append_left _ hy)

def failStep (parse : String → Option Int) (s : List Int × Option Int) (x : Evidence) :
    List Int × Option Int :=
  (s.1 ++ [when parse x],
    if when parse x - (s.1 ++ [when parse x]).headD 0 ≥ deadConfirmation then some (when parse x)
    else s.2)

/-- The time of the first failed lookup after the last success. -/
def RunStart (parse : String → Option Int) (l : List Evidence) (t : Int) : Prop :=
  (∃ f ∈ l, f.failedLookup ∧ when parse f = t ∧
    ∀ y ∈ l, y.succeeded → order parse y < order parse f) ∧
  ∀ f ∈ l, f.failedLookup → (∀ y ∈ l, y.succeeded → order parse y < order parse f) →
    t ≤ when parse f

/-- The run that one more failed lookup leaves starts at that lookup, or where it did before. -/
theorem Walked.runStart {x : Evidence} {s : List Int × Option Int} (h : Walked parse l s)
    (hlast : ∀ y ∈ l, order parse y < order parse x) (hx : x.failedLookup = true) :
    ∃ t ∈ (failStep parse s x).1.head?, RunStart parse (l ++ [x]) t := by
  have hsuccess : ∀ y ∈ l ++ [x], y.succeeded = true → y ∈ l := fun y =>
    mem_of_mem_snoc (Evidence.not_succeeded hx)
  rw [failStep]
  cases hs : s.1 with
  | nil =>
    refine ⟨when parse x, rfl, ⟨x, by simp, hx, rfl, fun y hy hys => hlast y (hsuccess y hy hys)⟩,
      fun f hf hfail hall => ?_⟩
    rcases List.mem_append.mp hf with hf | hf
    · obtain ⟨t, ht, -⟩ := h.first f hf hfail fun y hy => hall y (List.mem_append_left _ hy)
      simp [hs] at ht
    · rw [List.mem_singleton.mp hf]
  | cons t₀ ts =>
    obtain ⟨f₀, hf₀, hfail₀, hwhen₀, hall₀⟩ := h.run t₀ (by rw [hs]; rfl)
    refine ⟨t₀, rfl, ⟨f₀, List.mem_append_left _ hf₀, hfail₀, hwhen₀,
      fun y hy hys => hall₀ y (hsuccess y hy hys) hys⟩, fun f hf hfail hall => ?_⟩
    rcases List.mem_append.mp hf with hf | hf
    · obtain ⟨t, ht, hle⟩ := h.first f hf hfail fun y hy => hall y (List.mem_append_left _ hy)
      rw [hs] at ht
      exact Option.mem_unique ht rfl ▸ hle
    · rw [List.mem_singleton.mp hf, ← hwhen₀]
      exact when_mono (hlast f₀ hf₀).le

theorem RunStart.le {x f : Evidence} {t : Int} (h : RunStart parse (l ++ [x]) t)
    (hl : Chronological (order parse) (l ++ [x])) (hx : x.failedLookup = true) (hf : f ∈ l ++ [x])
    (hfail : f.failedLookup = true)
    (hall : ∀ y ∈ l ++ [x], y.succeeded → order parse f < order parse y →
      ¬ order parse y < order parse x) : t ≤ when parse f := by
  refine h.2 f hf hfail fun y hy hys => ?_
  have hylast : order parse y < order parse x :=
    hl.snoc.2 y (mem_of_mem_snoc (Evidence.not_succeeded hx) hy hys)
  have hle : order parse y ≤ order parse f := not_lt.mp fun hfy => hall y hy hys hfy hylast
  refine lt_of_le_of_ne hle fun heq => ?_
  rw [hl.eq_of_key_eq hy hf heq, Evidence.not_succeeded hfail] at hys
  cases hys

theorem Walked.failed {x : Evidence} {s : List Int × Option Int} (h : Walked parse l s)
    (hl : Chronological (order parse) (l ++ [x])) (hx : x.failedLookup = true) :
    Walked parse (l ++ [x]) (failStep parse s x) := by
  obtain ⟨-, hlast⟩ := hl.snoc
  obtain ⟨t₀, ht₀, hstart⟩ := h.runStart hlast hx
  have hhead : (s.1 ++ [when parse x]).headD 0 = t₀ := by
    rw [List.headD_eq_head?_getD, show (s.1 ++ [when parse x]).head? = some t₀ from ht₀,
      Option.getD_some]
  refine ⟨fun t ht => Option.mem_unique ht₀ ht ▸ hstart.1,
    fun f hf hfail hall => ⟨t₀, ht₀, hstart.2 f hf hfail hall⟩, ?_, ?_⟩
  · intro t ht
    rw [failStep, hhead] at ht
    simp only at ht
    split_ifs at ht with hday
    · obtain rfl := Option.some.inj ht
      obtain ⟨f, hf, hfail, hwhen, hall⟩ := hstart.1
      refine ⟨f, hf, x, by simp, hfail, hx, rfl, hwhen ▸ hday, fun y hy hys hfy => ?_⟩
      exact absurd (hall y hy hys) hfy.not_gt
    · exact h.lapse_snoc (Evidence.not_succeeded hx) ht
  · intro f hf g hg hff hgf hday hall
    rw [failStep, hhead]
    simp only
    split_ifs with hlong
    · refine ⟨_, rfl, ?_⟩
      rcases List.mem_append.mp hg with hg | hg
      · exact when_mono (hlast g hg).le
      · rw [List.mem_singleton.mp hg]
    · rcases List.mem_append.mp hg with hg | hg
      · rcases List.mem_append.mp hf with hf | hf
        · exact h.latest f hf g hg hff hgf hday fun y hy => hall y (List.mem_append_left _ hy)
        · have hfg := order_lt_of_apart hday
          rw [List.mem_singleton.mp hf] at hfg
          exact absurd hfg (hlast g hg).not_gt
      · rw [List.mem_singleton.mp hg] at hday hall
        have hle := hstart.le hl hx hf hff hall
        omega

theorem walked (h : Chronological (order parse) l) :
    Walked parse l (l.foldl (lapseStep parse) ([], none)) := by
  induction l using List.reverseRecOn with
  | nil => exact ⟨by simp, by simp, by simp, by simp⟩
  | append_singleton l x ih =>
    obtain ⟨hl, hlast⟩ := h.snoc
    rw [List.foldl_append, List.foldl_cons, List.foldl_nil, lapseStep]
    split_ifs with hkind hs hu
    · exact (ih hl).other (by simp [Evidence.succeeded, hkind])
        (by simp [Evidence.failedLookup, Evidence.unresolved, hkind])
    · exact (ih hl).succeeded hlast (Evidence.succeeded_iff.mpr ⟨by simpa using hkind, hs⟩)
    · exact (ih hl).failed h (by simp [Evidence.failedLookup, hu, hs])
    · exact (ih hl).other (by simp [Evidence.succeeded, hs]) (by simp [Evidence.failedLookup, hu])

/-- **A lapse no reviewer has answered**, as the walk finds it. -/
theorem lapsed_iff (h : Chronological (order parse) l) :
    (∃ t, lapsedAt parse l = some t ∧ confirmedAfter parse l t = false) ↔ Lapsed parse l := by
  have hwalked := walked h
  constructor
  · rintro ⟨t, ht, hconfirmed⟩
    obtain ⟨f, hf, g, hg, hff, hgf, hwhen, hday, hall⟩ := hwalked.lapse t ht
    exact ⟨f, hf, g, hg, hff, hgf, hday, hall, hwhen ▸ hconfirmed⟩
  · rintro ⟨f, hf, g, hg, hff, hgf, hday, hall, hconfirmed⟩
    obtain ⟨t, ht, hle⟩ := hwalked.latest f hf g hg hff hgf hday hall
    refine ⟨t, ht, Bool.eq_false_iff.mpr fun hc => ?_⟩
    rw [confirmedAfter_anti hle hc] at hconfirmed
    cases hconfirmed

theorem takeover_eq (h : Chronological (order parse) l) [Decidable (Lapsed parse l)] : takeover parse l =
      if standing parse "hijacked" l then some .hijacked
      else if standing parse "parked" l then some .parked
      else if Lapsed parse l then some .dead else none := by
  rw [takeover]
  refine if_congr Iff.rfl rfl (if_congr Iff.rfl rfl ?_)
  split_ifs with hlapsed
  · obtain ⟨t, ht, hconfirmed⟩ := (lapsed_iff h).mpr hlapsed
    simp [ht, hconfirmed]
  · cases ht : lapsedAt parse l with
    | none => rfl
    | some t =>
      have hconfirmed : confirmedAfter parse l t = true := by
        by_contra hc
        exact hlapsed ((lapsed_iff h).mp ⟨t, ht, Bool.eq_false_iff.mpr hc⟩)
      simp [hconfirmed]

/-! ## The checks at the end -/

theorem latestVerdict_iff (h : Chronological (order parse) l) {text : String} :
    latestVerdict text l = true ↔ SaysLast parse text l := by
  have hnewest : ∀ v, v ∈ latestIntegrityByChannel l ↔
      v ∈ l ∧ v.kind = .integrity ∧ NewestOnChannel parse l v := by
    intro v
    rw [latestIntegrityByChannel, mem_latestBy, latest_eq_some (h.filter _)]
    simp only [List.mem_filter, decide_eq_true_eq, true_and, NewestOnChannel]
    constructor
    · rintro ⟨⟨hv, hkind⟩, hmax⟩
      exact ⟨hv, hkind, fun y hy hk hc => hmax y ⟨hy, hk.trans hkind⟩ hc⟩
    · rintro ⟨hv, hkind, hmax⟩
      exact ⟨⟨hv, hkind⟩, fun y hy hc => hmax y hy.1 (hy.2.trans hkind.symm) hc⟩
  simp only [latestVerdict, List.any_eq_true, hnewest, Bool.and_eq_true, decide_eq_true_eq,
    SaysLast, and_assoc]

theorem mem_endFailures (h : Chronological (order parse) l) {x : Evidence} :
    x ∈ endFailures (l.filter fun item => item.kind = .liveness) ↔
      x ∈ l ∧ EndFailure parse l x := by
  rw [endFailures, List.mem_filter, mem_sinceLast (h.filter _)]
  simp only [List.mem_filter, decide_eq_true_eq, EndFailure]
  constructor
  · rintro ⟨⟨⟨hx, hkind⟩, hall⟩, hfound⟩
    refine ⟨hx, hkind, hfound, fun s hs hss => ?_⟩
    rw [Evidence.succeeded_iff] at hss
    exact hall s ⟨hs, hss.1⟩ hss.2
  · rintro ⟨hx, hkind, hfound, hall⟩
    exact ⟨⟨⟨hx, hkind⟩, fun s hs hss => hall s hs.1 (Evidence.succeeded_iff.mpr ⟨hs.2, hss⟩)⟩,
      hfound⟩

theorem chronological_endFailures (h : Chronological (order parse) l) : Chronological (order parse)
      (endFailures (l.filter fun item => item.kind = .liveness)).reverse := by
  rw [endFailures, ← List.filter_reverse]
  exact (chronological_sinceLast (h.filter _) _).filter _

theorem livenessStatus_dead_iff (h : Chronological (order parse) l) {last : Evidence} :
    livenessStatus parse (l.filter fun item => item.kind = .liveness) last = some .dead ↔
      last.supports = false ∧ last.notFound = true ∧
        ∃ f ∈ l, ∃ g ∈ l, EndFailure parse l f ∧ EndFailure parse l g ∧
          deadConfirmation ≤ when parse g - when parse f := by
  have hchron := chronological_endFailures h
  have hmem := @mem_endFailures parse l h
  obtain ⟨failures, hfailures⟩ : ∃ failures, failures =
      endFailures (l.filter fun item => item.kind = .liveness) := ⟨_, rfl⟩
  rw [← hfailures] at hchron hmem
  rw [livenessStatus, ← hfailures]
  have hblocked : last.notFound = true →
      ["blocked", "login_wall", "robots", "snippet_only"].contains (beforeColon last.detail) =
        false := by
    intro hfound
    have hmem := List.mem_of_elem_eq_true hfound
    simp only [List.mem_cons, List.not_mem_nil, or_false] at hmem
    rcases hmem with heq | heq | heq | heq <;> rw [heq] <;> decide
  cases hs : last.supports with
  | true => simp
  | false =>
    cases hfound : last.notFound with
    | false => simp
    | true =>
      simp only [hblocked hfound, Bool.false_eq_true, if_false, if_true, true_and]
      constructor
      · split
        · rename_i newest oldest hhead hlast
          split_ifs with hday
          · intro _
            have hnewest := (hmem (x := newest)).mp (List.mem_of_mem_head? hhead)
            have holdest := (hmem (x := oldest)).mp (List.mem_of_getLast? hlast)
            exact ⟨oldest, holdest.1, newest, hnewest.1, holdest.2, hnewest.2, hday.2⟩
          · simp
        · simp
      · rintro ⟨f, hf, g, hg, hfe, hge, hday⟩
        have hf := List.mem_reverse.mpr ((hmem (x := f)).mpr ⟨hf, hfe⟩)
        have hg := List.mem_reverse.mpr ((hmem (x := g)).mpr ⟨hg, hge⟩)
        cases hhead : failures.head? with
        | none => simp [List.head?_eq_none_iff.mp hhead] at hf
        | some newest =>
          cases hlast : failures.getLast? with
          | none => simp [List.getLast?_eq_none_iff.mp hlast] at hf
          | some oldest =>
            have hgn := when_mono ((hchron.getLast?_eq_some.mp (by rwa [List.getLast?_reverse])).2 g hg)
            have hof := when_mono ((hchron.head?_eq_some.mp (by rwa [List.head?_reverse])).2 f hf)
            have hapart : when parse newest - when parse oldest ≥ deadConfirmation := by omega
            have hlength : failures.length ≥ 2 := by
              match failures, hhead, hlast with
              | [a], hhead, hlast =>
                obtain rfl : a = newest := by simpa using hhead
                obtain rfl : a = oldest := by simpa using hlast
                unfold deadConfirmation at hapart
                omega
              | _ :: _ :: _, _, _ => simp
            simp [hlength, hapart]

theorem livenessStatus_congr {liveness liveness' : List Evidence} {last : Evidence}
    (h : livenessStatus parse liveness last = some .dead ↔
      livenessStatus parse liveness' last = some .dead) :
    livenessStatus parse liveness last = livenessStatus parse liveness' last := by
  have hcases : ∀ liveness, livenessStatus parse liveness last = some .dead ∨
      livenessStatus parse liveness last =
        if last.supports then some .live
        else if ["blocked", "login_wall", "robots", "snippet_only"].contains
          (beforeColon last.detail) then some .blocked else none := by
    intro liveness
    rw [livenessStatus]
    split_ifs with hs hblocked hfound
    · exact .inr rfl
    · exact .inr rfl
    · split
      · split_ifs
        · exact .inl rfl
        · exact .inr rfl
      · exact .inr rfl
    · exact .inr rfl
  rcases hcases liveness with hdead | hrest
  · rw [hdead, h.mp hdead]
  · rcases hcases liveness' with hdead' | hrest'
    · rw [hdead', h.mpr hdead']
    · rw [hrest, hrest']

theorem endsDead_iff (h : Chronological (order parse) l) {now : Int} (hfree : takeover parse l = none) :
    status parse l now = some .dead ↔ EndsDead parse l := by
  rw [status, hfree, EndsDead, ← latestVerdict_iff h, ← latestVerdict_iff h]
  simp only
  split_ifs with hcompromised hredirects
  · simp [hcompromised]
  · simp [hredirects]
  · simp only [hcompromised, hredirects, Bool.false_eq_true, not_false_iff, true_and]
    cases hlast : latest (fun item => decide (item.kind = .liveness)) l with
    | none =>
      -- nobody has checked it
      have hnone : ¬ ∃ x ∈ l, x.kind = .liveness := by
        rintro ⟨x, hx, hkind⟩
        simpa [hkind] using latest_eq_none.mp hlast x hx
      constructor
      · intro hlive
        obtain ⟨-, -, heq⟩ := Option.map_eq_some_iff.mp hlive
        cases heq
      · rintro ⟨⟨x, hx, hkind, -⟩, -⟩
        exact absurd ⟨x, hx, hkind⟩ hnone
    | some last =>
      obtain ⟨hmem, hkind, hmax⟩ := (latest_eq_some h).mp hlast
      simp only [decide_eq_true_eq] at hkind hmax
      rw [livenessStatus_dead_iff h]
      constructor
      · rintro ⟨-, hfound, hpair⟩
        exact ⟨⟨last, hmem, hkind, hfound, hmax⟩, hpair⟩
      · rintro ⟨⟨x, hx, hxkind, hfound, hxmax⟩, f, hf, g, hg, hfe, hge, hday⟩
        obtain rfl : x = last :=
          h.eq_of_key_eq hx hmem (le_antisymm (hmax x hx hxkind) (hxmax last hmem hkind))
        refine ⟨Bool.eq_false_iff.mpr fun hs => ?_, hfound, f, hf, g, hg, hfe, hge, hday⟩
        have hlt := hfe.2.2 x hx (Evidence.succeeded_iff.mpr ⟨hkind, hs⟩)
        exact absurd hlt (hxmax f hf hfe.1).not_gt

/-- **An asset counts as dead** when its name lapsed or its checks end dead, and no standing verdict
says worse. -/
theorem status_dead_iff (h : Chronological (order parse) l) {now : Int} :
    status parse l now = some .dead ↔
      (standing parse "hijacked" l = false ∧ standing parse "parked" l = false) ∧
        (Lapsed parse l ∨ EndsDead parse l) := by
  classical
  have htakeover := takeover_eq h
  cases hh : standing parse "hijacked" l with
  | true => simp [status, htakeover, hh]
  | false =>
    cases hp : standing parse "parked" l with
    | true => simp [status, htakeover, hh, hp]
    | false =>
      by_cases hlapsed : Lapsed parse l
      · simp [status, htakeover, hh, hp, hlapsed]
      · have hfree : takeover parse l = none := by simp [htakeover, hh, hp, hlapsed]
        simp [endsDead_iff h hfree, hlapsed]

def missedOn (day : String) : Evidence :=
  ⟨day, "acc-1", .liveness, .refutes, "", none, "not_found", "http", .live, day⟩

def daily (text : String) : Option Int := some (if text = "2" then deadConfirmation else 0)

theorem dead_twice : status daily [missedOn "1", missedOn "2"] 0 = some .dead := by
  have hlt : order daily (missedOn "1") < order daily (missedOn "2") := order_lt_iff.mpr (.inl (by decide))
  refine (status_dead_iff (List.pairwise_pair.mpr hlt)).mpr ⟨by decide, .inr ⟨?_, ?_, ⟨missedOn "2", by simp,
    rfl, by decide, by simp [hlt.le]⟩, missedOn "1", by simp, missedOn "2", by simp, ⟨rfl, by decide, ?_⟩,
    ⟨rfl, by decide, ?_⟩, by decide⟩⟩
  all_goals simp [SaysLast, missedOn, Evidence.succeeded, Evidence.supports]

end GuruJi.Map
