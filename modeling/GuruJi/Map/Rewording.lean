import GuruJi.Lib.Dedupe
import GuruJi.Map.Expiry

/-!
# Reworded reasons

When the free text of old evidence is blanked (`_expire_free_text`), the quotes of it in the stored
reasons are blanked too (`expire_quotes`). The reasons were listed once each and cut to six before they
were stored; on the blanked log they are worded first.

* `reword_eq`: a stored reason that ends like no other quote is reworded as the next judgement words it;
* **`reasons_reworded_iff`**: then the stored reasons are those of the blanked log iff the cut loses none
  of them.
-/

namespace GuruJi.Map

open GuruJi.Lib

/-! ## Expired quotes -/

/-- `text.endswith(end)`. -/
def endsWith (end_ text : String) : Bool := end_.toList.isSuffixOf text.toList

def quotes (detail : String) : List (String × String) := [
  ("(" ++ upTo 80 detail ++ ")", "(" ++ expiredDetail ++ ")"),
  (": " ++ upTo 120 detail, ": " ++ expiredDetail)]

/-- `reason[: -len(quote)] + blank`. -/
def requote (reason : String) (quote : String × String) : String :=
  String.ofList (reason.toList.take (reason.toList.length - quote.1.toList.length)) ++ quote.2

/-- A reason without its quote of one of the details; `expired` of `expire_quotes`. -/
def expireQuote (details : List String) (reason : String) : String :=
  match ((details.eraseDups.filter (· ≠ "")).flatMap quotes).find? (endsWith ·.1 reason) with
  | some quote => requote reason quote
  | none => reason

/-- `expire_quotes`. -/
def expireQuotes (reasons details : List String) : List String :=
    (reasons.map (expireQuote details)).eraseDups

/-! ## Expired rows -/

/-- What is stored of an asset: its evidence and the reasons of its grade. -/
structure Stored where
  rows : List Evidence
  reasons : List String

def expires (cutoff : String) (item : Evidence) : Bool :=
  item.observedAt < cutoff && item.kind.isFreeText && item.detail ≠ "" && item.detail ≠ expiredDetail

/-- One turn of the loop of `_expire_free_text`, as far as an asset is concerned: the rows of the page
that are its own are blanked, and if there are any, so are the quotes of them. -/
def expirePage (s : Stored) (page : List Evidence) : Stored where
  rows := s.rows.map fun item =>
    if (page.map (·.evidenceId)).contains item.evidenceId then { item with detail := expiredDetail } else
      item
  reasons := if page = [] then s.reasons else expireQuotes s.reasons (page.map (·.detail))

/-- `_expire_free_text`. -/
def expireFreeText (s : Stored) (pages : List (List Evidence)) : Stored := pages.foldl expirePage s

/-- The pages of the loop: together they are the rows that expire, in any order. -/
def Pages (cutoff : String) (rows : List Evidence) (pages : List (List Evidence)) : Prop :=
  pages.flatten.Perm (rows.filter (expires cutoff))

variable {parse : String → Option Int} {cutoff : String} {pages : List (List Evidence)}

def reword (pages : List (List Evidence)) (reason : String) : String :=
  pages.foldl (fun reason page => expireQuote (page.map (·.detail)) reason) reason

theorem reasons_expireFreeText {s : Stored} (h : s.reasons.Nodup) :
    (expireFreeText s pages).reasons = (s.reasons.map (reword pages)).eraseDups := by
  induction pages generalizing s with
  | nil =>
    show s.reasons = (s.reasons.map fun reason => reason).eraseDups
    rw [List.map_id', eraseDups_of_nodup h]
  | cons page pages ih =>
    show (expireFreeText (expirePage s page) pages).reasons = _
    by_cases hpage : page = []
    · have hreasons : (expirePage s page).reasons = s.reasons := if_pos hpage
      rw [ih (by rwa [hreasons]), hreasons, hpage]
      rfl
    · have hreasons : (expirePage s page).reasons = expireQuotes s.reasons (page.map (·.detail)) :=
        if_neg hpage
      rw [ih (by rw [hreasons]; exact nodup_eraseDups _), hreasons, expireQuotes,
        eraseDups_map_eraseDups, List.map_map]
      rfl

theorem rows_expireFreeText_eq (s : Stored) : (expireFreeText s pages).rows = s.rows.map fun item =>
    if (pages.flatten.map (·.evidenceId)).contains item.evidenceId then
      { item with detail := expiredDetail }
    else item := by
  induction pages generalizing s with
  | nil => simp [expireFreeText]
  | cons page pages ih =>
    show (expireFreeText (expirePage s page) pages).rows = _
    rw [ih, expirePage, List.map_map]
    refine List.map_congr_left fun item _ => ?_
    by_cases hpage : (page.map (·.evidenceId)).contains item.evidenceId = true
    · have hall : ((page :: pages).flatten.map (·.evidenceId)).contains item.evidenceId = true := by
        rw [List.contains_iff_mem] at hpage ⊢
        rw [List.flatten_cons, List.map_append]
        exact List.mem_append_left _ hpage
      rw [Function.comp_apply, if_pos hpage, if_pos hall]
      split_ifs <;> rfl
    · have hall : ((page :: pages).flatten.map (·.evidenceId)).contains item.evidenceId =
          (pages.flatten.map (·.evidenceId)).contains item.evidenceId := by
        rw [Bool.eq_iff_iff, List.contains_iff_mem, List.contains_iff_mem, List.flatten_cons,
          List.map_append, List.mem_append]
        rw [List.contains_iff_mem] at hpage
        exact or_iff_right hpage
      rw [Function.comp_apply, if_neg hpage, hall]

theorem rows_expireFreeText {assetId : String} (log : EvidenceLog assetId) (reasons : List String)
    (h : Pages cutoff log.rows pages) :
    (expireFreeText ⟨log.rows, reasons⟩ pages).rows = log.rows.map (blank (expires cutoff)) := by
  rw [rows_expireFreeText_eq]
  refine List.map_congr_left fun item hitem => ?_
  have hids : (pages.flatten.map (·.evidenceId)).contains item.evidenceId = expires cutoff item := by
    rw [Bool.eq_iff_iff, List.contains_iff_mem, List.mem_map]
    constructor
    · rintro ⟨x, hx, heq⟩
      obtain ⟨hx, hexpires⟩ := List.mem_filter.mp (h.mem_iff.mp hx)
      rwa [← List.inj_on_of_nodup_map log.unique hx hitem heq]
    · intro hexpires
      exact ⟨item, h.mem_iff.mpr (List.mem_filter.mpr ⟨hitem, hexpires⟩), rfl⟩
  have hfree : expires cutoff item = true → item.kind.isFreeText = true := by
    intro hexpires
    simp only [expires, Bool.and_eq_true] at hexpires
    exact hexpires.1.1.2
  rw [hids, blank]
  by_cases hexpires : expires cutoff item = true
  · rw [if_pos hexpires, if_pos (by rw [hexpires, hfree hexpires]; rfl)]
  · rw [if_neg hexpires, if_neg (by simp [hexpires])]

/-! ## What is said of a grade -/

/-- The reasons of a judgement, before they are listed once each and cut. -/
def said (parse : String → Option Int) (asset : Asset) (ordered : List Evidence) (status : Option Status)
    (foundBy : Option (Table String (List String))) : List String :=
  match rejection parse ordered, takeover parse ordered with
  | some item, _ => [item.kind.text ++ ": " ++ upTo 120 item.detail]
  | none, some taken => ["domain " ++ taken.text]
  | none, none =>
    if status = some .dead then ["dead on two checks at least a day apart"]
    else
      match bestGrade (worths parse asset ordered foundBy) with
      | none => ["no supporting evidence yet"]
      | some best =>
        let wordings := wordings (worths parse asset ordered foundBy)
          ((latestIntegrity ordered).any fun item => startsWith "compromised" item.detail) best
        wordings.1 ++ wordings.2

theorem head_append {a b : String} {c : Char} (h : a.toList.head? = some c) :
    (a ++ b).toList.head? = some c := by
  rw [String.toList_append, List.head?_append, h]
  rfl

/-- A reason that says something else than that the site is compromised. -/
def Says (reason : String) : Prop := ∃ c, reason.toList.head? = some c ∧ c ≠ 't'

theorem says_append {c : Char} {label rest : String} (h : label.toList.head? = some c) (hc : c ≠ 't') :
    Says (label ++ rest) :=
  ⟨c, head_append h, hc⟩

theorem Says.append {reason : String} (h : Says reason) (rest : String) : Says (reason ++ rest) := by
  obtain ⟨c, hhead, hc⟩ := h
  exact says_append hhead hc

theorem says_candidate {asset : Asset} {losses : Losses} {x : Evidence} {worth : Grade × String}
    (h : candidate parse asset losses x = some worth) : Says worth.2 := by
  unfold candidate at h
  cases hkind : x.kind with
  | ownerClaim =>
    simp only [hkind] at h
    split_ifs at h
    obtain rfl := Option.some.inj h
    exact (says_append rfl (by decide)).append ")"
  | officialLink =>
    simp only [hkind] at h
    obtain rfl := Option.some.inj h
    exact ((says_append rfl (by decide)).append _).append _
  | configuredDomain =>
    simp only [hkind] at h
    split_ifs at h
    · obtain rfl := Option.some.inj h
      exact ⟨'o', rfl, by decide⟩
    · obtain rfl := Option.some.inj h
      exact says_append rfl (by decide)
  | hubLink =>
    simp only [hkind] at h
    obtain rfl := Option.some.inj h
    exact (((says_append rfl (by decide)).append _).append _).append _
  | subdomain =>
    simp only [hkind] at h
    split_ifs at h
    obtain rfl := Option.some.inj h
    exact (((says_append rfl (by decide)).append _).append _).append _
  | directoryRecord =>
    simp only [hkind] at h
    split_ifs at h
    · obtain rfl := Option.some.inj h
      exact (says_append rfl (by decide)).append _
    · obtain rfl := Option.some.inj h
      exact (says_append rfl (by decide)).append _
  | reviewerConfirm | apiIdentity =>
    simp only [hkind] at h
    obtain rfl := Option.some.inj h
    exact (says_append rfl (by decide)).append _
  | searchSnippet | backlink | communityRecord =>
    simp only [hkind] at h
    obtain rfl := Option.some.inj h
    exact ((says_append rfl (by decide)).append _).append _
  | importedClaim =>
    simp only [hkind] at h
    obtain rfl := Option.some.inj h
    exact ⟨'u', rfl, by decide⟩
  | reviewerReject | lookalike | impersonation | identityChanged | sourceRefuted | anchorLost | liveness
  | integrity | other name =>
    simp only [hkind] at h
    cases h

theorem says_weighItem {asset : Asset} {losses : Losses} {t : Tally} (h : ∀ worth ∈ t.candidates,
    Says worth.2)
    (x : Evidence) : ∀ worth ∈ (weighItem parse asset losses t x).candidates, Says worth.2 := by
  unfold weighItem countChannel
  split_ifs with hgone hlost hcounts
  · exact h
  · intro worth hworth
    rcases List.mem_append.mp hworth with hworth | hworth
    · exact h worth hworth
    · rw [List.mem_singleton.mp hworth]
      rcases hlost.2 with hkind | hkind
      · rw [hkind]
        exact ((says_append (c := 'h') rfl (by decide)).append _).append _
      · rw [hkind]
        exact ((says_append (c := 's') rfl (by decide)).append _).append _
  all_goals
    intro worth hworth
    rcases List.mem_append.mp hworth with hworth | hworth
    · exact h worth hworth
    · exact says_candidate (Option.mem_toList.mp hworth)

theorem says_worths {asset : Asset} {ordered : List Evidence}
    {foundBy : Option (Table String (List String))}
    {worth : Grade × String} (h : worth ∈ worths parse asset ordered foundBy) (hbest : worth.1 ≠ .B) :
    Says worth.2 := by
  have hfold : ∀ (items : List Evidence) (t : Tally), (∀ worth ∈ t.candidates, Says worth.2) →
      ∀ worth ∈ (items.foldl (weighItem parse asset (losses parse ordered)) t).candidates,
      Says worth.2 := by
    intro items
    induction items with
    | nil => exact fun t ht => ht
    | cons x items ih => exact fun t ht => ih _ (says_weighItem ht x)
  rcases List.mem_append.mp h with h | h
  · exact hfold _ ⟨[], [], []⟩ (fun worth hworth => absurd hworth List.not_mem_nil) worth h
  · split_ifs at h
    · rw [List.mem_singleton.mp h] at hbest
      exact absurd rfl hbest
    · exact absurd h List.not_mem_nil

theorem reasons_weigh (asset : Asset) (ordered : List Evidence)
    (foundBy : Option (Table String (List String)))
    {best : Grade} (compromised : Bool) :
    ((wordings (worths parse asset ordered foundBy) compromised best).1.eraseDups ++
        (wordings (worths parse asset ordered foundBy) compromised best).2) =
      ((wordings (worths parse asset ordered foundBy) compromised best).1 ++
        (wordings (worths parse asset ordered foundBy) compromised best).2).eraseDups := by
  unfold wordings
  split_ifs with hcompromised
  · rw [eraseDups_concat, if_neg]
    intro hmem
    obtain ⟨worth, hworth, hreason⟩ := List.mem_map.mp hmem
    obtain ⟨hworth, hgrade⟩ := List.mem_filter.mp hworth
    have hnotB : worth.1 ≠ .B := by
      rw [of_decide_eq_true hgrade]
      rcases hcompromised.2 with hbest | hbest <;> rw [hbest] <;> decide
    obtain ⟨c, hhead, hc⟩ := says_worths hworth hnotB
    rw [hreason] at hhead
    exact hc (Option.some.inj hhead).symm
  · rw [List.append_nil, List.append_nil]

theorem reasons_judge (asset : Asset) (ordered : List Evidence) (status : Option Status)
    (foundBy : Option (Table String (List String))) :
    (judge parse asset ordered status foundBy).2 =
      (said parse asset ordered status foundBy).eraseDups.take 6 := by
  unfold judge said
  cases rejection parse ordered with
  | some item => rfl
  | none =>
    cases takeover parse ordered with
    | some taken => rfl
    | none =>
      by_cases hdead : status = some .dead
      · simp only [hdead, if_true]
        rfl
      · simp only [hdead, if_false, weigh_eq]
        cases bestGrade (worths parse asset ordered foundBy) with
        | none => rfl
        | some best => exact congrArg (List.take 6) (reasons_weigh asset ordered foundBy _)

/-! ## Rewording -/

theorem expireQuote_cases (details : List String) (reason : String) :
    (expireQuote details reason = reason ∧
        ∀ detail ∈ details, detail ≠ "" → ∀ quote ∈ quotes detail, ¬endsWith quote.1 reason = true) ∨
      ∃ detail ∈ details, ∃ quote ∈ quotes detail, endsWith quote.1 reason = true ∧
        expireQuote details reason = requote reason quote := by
  unfold expireQuote
  cases hfound : ((details.eraseDups.filter (· ≠ "")).flatMap quotes).find? (endsWith ·.1 reason) with
  | none =>
    refine Or.inl ⟨rfl, fun detail hdetail hne quote hquote => ?_⟩
    refine List.find?_eq_none.mp hfound quote (List.mem_flatMap.mpr ⟨detail, ?_, hquote⟩)
    exact List.mem_filter.mpr ⟨List.mem_eraseDups.mpr hdetail, decide_eq_true hne⟩
  | some quote =>
    obtain ⟨detail, hdetail, hquote⟩ := List.mem_flatMap.mp (List.mem_of_find?_eq_some hfound)
    exact Or.inr ⟨detail, List.mem_eraseDups.mp (List.mem_of_mem_filter hdetail), quote, hquote,
      List.find?_some (p := fun q : String × String => endsWith q.1 reason) hfound, rfl⟩

theorem reword_fixed {reason : String}
    (h : ∀ page ∈ pages, expireQuote (page.map (·.detail)) reason = reason) : reword pages reason =
        reason := by
  induction pages with
  | nil => rfl
  | cons page pages ih =>
    show reword pages (expireQuote (page.map (·.detail)) reason) = reason
    rw [h page List.mem_cons_self]
    exact ih fun page' hpage => h page' (List.mem_cons_of_mem page hpage)

/-- A reason whose quotes are its own is reworded by the page of the row it quotes. -/
theorem reword_eq {reason reason' : String}
    (hquotes : ∀ x ∈ pages.flatten, ∀ quote ∈ quotes x.detail, endsWith quote.1 reason = true →
      reason' = requote reason quote)
    (hexpired : reason = reason' ∨ (∀ x ∈ pages.flatten, ∀ quote ∈ quotes x.detail,
        ¬endsWith quote.1 reason' = true) ∧
      ∃ x ∈ pages.flatten, x.detail ≠ "" ∧ ∃ quote ∈ quotes x.detail, endsWith quote.1 reason = true) :
    reword pages reason = reason' := by
  have hpage : ∀ page ∈ pages, expireQuote (page.map (·.detail)) reason = reason ∧
      (∀ detail ∈ page.map (·.detail), detail ≠ "" → ∀ quote ∈ quotes detail,
        ¬endsWith quote.1 reason = true) ∨
      expireQuote (page.map (·.detail)) reason = reason' := by
    intro page hpage
    rcases expireQuote_cases (page.map (·.detail)) reason with
      hkeeps | ⟨detail, hdetail, quote, hquote, hends, heq⟩
    · exact Or.inl hkeeps
    · obtain ⟨x, hx, rfl⟩ := List.mem_map.mp hdetail
      right
      rw [heq, hquotes x (List.mem_flatten.mpr ⟨page, hpage, hx⟩) quote hquote hends]
  rcases hexpired with rfl | ⟨hfinal, hown⟩
  · exact reword_fixed fun page hp => (hpage page hp).elim (fun hkeeps => hkeeps.1) fun hsame => hsame
  · have hstays : ∀ page ∈ pages, expireQuote (page.map (·.detail)) reason' = reason' := by
      intro page hp
      rcases expireQuote_cases (page.map (·.detail)) reason' with
        hkeeps | ⟨detail, hdetail, quote, hquote, hends, -⟩
      · exact hkeeps.1
      · obtain ⟨x, hx, rfl⟩ := List.mem_map.mp hdetail
        exact absurd hends (hfinal x (List.mem_flatten.mpr ⟨page, hp, hx⟩) quote hquote)
    clear hquotes hfinal
    induction pages with
    | nil =>
      obtain ⟨x, hx, -⟩ := hown
      exact absurd hx List.not_mem_nil
    | cons page pages ih =>
      show reword pages (expireQuote (page.map (·.detail)) reason) = reason'
      have hrest : ∀ page' ∈ pages, expireQuote (page'.map (·.detail)) reason' = reason' :=
        fun page' hp => hstays page' (List.mem_cons_of_mem page hp)
      rcases hpage page List.mem_cons_self with ⟨hsame, hnone⟩ | hdone
      · rw [hsame]
        refine ih (fun page' hp => hpage page' (List.mem_cons_of_mem page hp)) ?_ hrest
        obtain ⟨x, hx, hne, quote, hquote, hends⟩ := hown
        refine ⟨x, ?_, hne, quote, hquote, hends⟩
        rw [List.flatten_cons, List.mem_append] at hx
        refine hx.resolve_left fun hx => ?_
        exact hnone x.detail (List.mem_map_of_mem hx) hne quote hquote hends
      · rw [hdone]
        exact reword_fixed hrest

/-! ## Blanked quotes -/

theorem eq_of_suffix {c : Char} {before after rest : List Char} (hbefore : c ∉ before)
    (hafter : c ∉ after)
    (h : c :: rest <:+ before ++ c :: after) : rest = after := by
  obtain ⟨front, heq⟩ := h
  have hcount := congrArg (List.count c) heq
  rw [List.count_append, List.count_append, List.count_cons_self, List.count_cons_self,
    List.count_eq_zero_of_not_mem hbefore, List.count_eq_zero_of_not_mem hafter] at hcount
  have hfront : c ∉ front := List.count_eq_zero.mp (by omega)
  exact (append_sep_inj hfront hbefore heq).2

theorem upTo_eq_expired {n : Nat} {detail : String} (hn : 9 < n) (h : upTo n detail = expiredDetail) :
    detail = expiredDetail := by
  have htake : detail.toList.take n = expiredDetail.toList := by
    rw [← h, upTo, String.toList_ofList]
  have hlength : (detail.toList.take n).length = 9 := by
    rw [htake]
    rfl
  rw [List.length_take] at hlength
  rw [List.take_of_length_le (by omega)] at htake
  exact String.toList_injective htake

theorem not_endsWith_quoting {label detail : String} (hlabel : label ∈ quoteLabels)
    (hne : detail ≠ expiredDetail) :
    ∀ quote ∈ quotes detail, ¬endsWith quote.1 (quoting label expiredDetail) = true := by
  have hlabels : ∀ label ∈ quoteLabels, '(' ∉ label.toList ∧ ':' ∉ label.toList := by decide
  obtain ⟨hopen, hcolon⟩ := hlabels label hlabel
  have hwording : (quoting label expiredDetail).toList =
      (label.toList ++ [' ']) ++ '(' :: "[expired])".toList := by
    show (label ++ " (" ++ upTo 80 expiredDetail ++ ")").toList = _
    simp only [String.toList_append, upTo, List.append_assoc]
    rfl
  intro quote hquote hends
  rw [endsWith, List.isSuffixOf_iff_suffix, hwording] at hends
  rcases List.mem_cons.mp hquote with rfl | hquote
  · simp only [String.toList_append] at hends
    have hbefore : '(' ∉ label.toList ++ [' '] := by
      rw [List.mem_append, not_or]
      exact ⟨hopen, by decide⟩
    have hrest : (upTo 80 detail).toList ++ ")".toList = expiredDetail.toList ++ ")".toList :=
      eq_of_suffix hbefore (by decide) hends
    have hexpired : (upTo 80 detail).toList = expiredDetail.toList := List.append_cancel_right hrest
    exact hne (upTo_eq_expired (by decide) (String.toList_injective hexpired))
  · rw [List.mem_singleton.mp hquote] at hends
    have hmem := hends.subset (a := ':') (by simp [String.toList_append])
    rw [List.mem_append, List.mem_append] at hmem
    rcases hmem with (hmem | hmem) | hmem
    · exact hcolon hmem
    · exact absurd hmem (by decide)
    · exact absurd hmem (by decide)

/-- The wording of a refutation, which names its kind. -/
def naming (label detail : String) : String := label ++ ": " ++ upTo 120 detail

def refutationLabels : List String := ["reviewer_reject", "lookalike", "impersonation"]

theorem not_endsWith_naming {label detail : String} (hlabel : label ∈ refutationLabels)
    (hne : detail ≠ expiredDetail) :
    ∀ quote ∈ quotes detail, ¬endsWith quote.1 (naming label expiredDetail) = true := by
  have hlabels : ∀ label ∈ refutationLabels, '(' ∉ label.toList ∧ ':' ∉ label.toList := by decide
  obtain ⟨hopen, hcolon⟩ := hlabels label hlabel
  have hwording : (naming label expiredDetail).toList = label.toList ++ ':' :: " [expired]".toList := by
    show (label ++ ": " ++ upTo 120 expiredDetail).toList = _
    simp only [String.toList_append, upTo, List.append_assoc]
    rfl
  intro quote hquote hends
  rw [endsWith, List.isSuffixOf_iff_suffix, hwording] at hends
  rcases List.mem_cons.mp hquote with rfl | hquote
  · have hmem : '(' ∈ label.toList ++ ':' :: " [expired]".toList :=
      hends.subset (by simp [String.toList_append])
    rw [List.mem_append] at hmem
    rcases hmem with hmem | hmem
    · exact hopen hmem
    · exact absurd hmem (by decide)
  · rw [List.mem_singleton.mp hquote, String.toList_append] at hends
    have hrest : " ".toList ++ (upTo 120 detail).toList = " ".toList ++ expiredDetail.toList :=
      eq_of_suffix hcolon (by decide) hends
    have hexpired : (upTo 120 detail).toList = expiredDetail.toList := List.append_cancel_left hrest
    exact hne (upTo_eq_expired (by decide) (String.toList_injective hexpired))

/-- What is said, and how the blanked log says it. -/
def Resaid (chosen : Evidence → Bool) (l : List Evidence) (reason reason' : String) : Prop :=
  Reworded chosen l reason reason' ∨ ∃ x ∈ l, chosen x = true ∧ x.kind.isFreeText = true ∧
    ∃ label ∈ refutationLabels, reason = naming label x.detail ∧ reason' = naming label expiredDetail

variable {chosen : Evidence → Bool} {l : List Evidence}

theorem forall₂_filter_best {worths worths' : List (Grade × String)} (best : Grade)
    (h : List.Forall₂ (SameWorth chosen l) worths worths') :
    List.Forall₂ (Resaid chosen l) ((worths.filter (·.1 = best)).map (·.2))
      ((worths'.filter (·.1 = best)).map (·.2)) := by
  induction h with
  | nil => exact .nil
  | @cons worth worth' worths worths' hworth _ ih =>
    by_cases hbest : worth.1 = best
    · have hbest' : worth'.1 = best := hworth.1 ▸ hbest
      simp only [List.filter_cons, hbest, hbest', decide_true, if_true, List.map_cons]
      exact .cons (Or.inl hworth.2) ih
    · have hbest' : ¬worth'.1 = best := hworth.1 ▸ hbest
      simp only [List.filter_cons, hbest, hbest', decide_false, Bool.false_eq_true, if_false]
      exact ih

theorem forall₂_wordings {worths worths' : List (Grade × String)} (compromised : Bool) (best : Grade)
    (h : List.Forall₂ (SameWorth chosen l) worths worths') :
    List.Forall₂ (Resaid chosen l)
      ((wordings worths compromised best).1 ++ (wordings worths compromised best).2)
      ((wordings worths' compromised best).1 ++ (wordings worths' compromised best).2) :=
  List.rel_append (forall₂_filter_best best h) (List.forall₂_same.mpr fun _ _ => Or.inl (Or.inl rfl))

variable (parse) (chosen) (l) in
theorem said_blank (asset : Asset) (status : Option Status)
    (foundBy : Option (Table String (List String))) :
    List.Forall₂ (Resaid chosen l) (said parse asset l status foundBy)
      (said parse asset (l.map (blank chosen)) status foundBy) := by
  have hsame : ∀ reasons : List String, List.Forall₂ (Resaid chosen l) reasons reasons :=
    fun reasons => List.forall₂_same.mpr fun _ _ => Or.inl (Or.inl rfl)
  unfold said
  rw [rejection_blank, takeover_blank, bestGrade_worths_blank, latestIntegrity_blank]
  cases hrejection : rejection parse l with
  | some item =>
    have hitem := List.mem_filter.mp (List.mem_of_getLast? hrejection)
    refine .cons ?_ .nil
    show Resaid chosen l (item.kind.text ++ ": " ++ upTo 120 item.detail)
      ((blank chosen item).kind.text ++ ": " ++ upTo 120 (blank chosen item).detail)
    by_cases hblanked : (chosen item && item.kind.isFreeText) = true
    · obtain ⟨hchosen, hfree⟩ := Bool.and_eq_true_iff.mp hblanked
      have hlabel : item.kind.text ∈ refutationLabels := by
        have hkind := hitem.2
        simp only [Bool.and_eq_true, List.contains_iff_mem, List.mem_cons, List.not_mem_nil,
          or_false] at hkind
        rcases hkind.1.2 with hkind | hkind | hkind <;> rw [hkind] <;> decide
      refine Or.inr ⟨item, hitem.1, hchosen, hfree, item.kind.text, hlabel, rfl, ?_⟩
      rw [kind_blank, blank, if_pos hblanked]
      rfl
    · rw [blank, if_neg hblanked]
      exact Or.inl (Or.inl rfl)
  | none =>
    cases takeover parse l with
    | some taken => exact hsame _
    | none =>
      by_cases hdead : status = some .dead
      · simp only [hdead, if_true]
        exact hsame _
      · simp only [hdead, if_false]
        cases bestGrade (worths parse asset l foundBy) with
        | none => exact hsame _
        | some best => exact forall₂_wordings _ best (worths_blank asset foundBy)

/-! ## The stored reasons -/

section
variable (parse) (asset : Asset) (log : EvidenceLog asset.assetId) (cutoff : String) (now : Int)
  (foundBy : Option (Table String (List String)))

/-- What is said of the grade, each with how the blanked log says it. -/
def rewordings : List (String × String) :=
  let before := ordered parse log.rows
  let after := ordered parse (log.rows.map (blank (expires cutoff)))
  (said parse asset before (status parse before now) foundBy).zip
    (said parse asset after (status parse after now) foundBy)

def storedRewordings : List (String × String) :=
  (rewordings parse asset log cutoff now foundBy).filter fun t =>
    (grade parse asset log.rows now foundBy).reasons.contains t.1

/-- A stored reason that ends like a quote of a row that expires is worded anew there. -/
def QuotesApart : Prop :=
  ∀ t ∈ storedRewordings parse asset log cutoff now foundBy, ∀ x ∈ log.rows, expires cutoff x = true →
    ∀ quote ∈ quotes x.detail, endsWith quote.1 t.1 = true → t.2 = requote t.1 quote

/-- The cut to six reasons loses nothing: six of them are left, or every other one is worded like one of
them. -/
def CutKeeps : Prop :=
  ((storedRewordings parse asset log cutoff now foundBy).map Prod.snd).eraseDups.length = 6 ∨
    ∀ t ∈ rewordings parse asset log cutoff now foundBy,
      t.2 ∈ (storedRewordings parse asset log cutoff now foundBy).map Prod.snd

end

theorem mem_pages {rows : List Evidence} (h : Pages cutoff rows pages) {x : Evidence} :
    x ∈ pages.flatten ↔ x ∈ rows ∧ expires cutoff x = true := by
  rw [h.mem_iff, List.mem_filter]

theorem detail_of_expires {x : Evidence} (h : expires cutoff x = true) :
    x.detail ≠ "" ∧ x.detail ≠ expiredDetail := by
  simp only [expires, Bool.and_eq_true, decide_eq_true_eq] at h
  exact ⟨h.1.2, h.2⟩

/-- A stored reason whose quotes are its own is worded as the blanked log words it. -/
theorem reword_of_quotesApart {asset : Asset} {log : EvidenceLog asset.assetId} {now : Int}
    {foundBy : Option (Table String (List String))} (hpages : Pages cutoff log.rows pages)
    (hquotes : QuotesApart parse asset log cutoff now foundBy) {t : String × String}
    (ht : t ∈ storedRewordings parse asset log cutoff now foundBy) : reword pages t.1 = t.2 := by
  have hsaid := said_blank parse (expires cutoff)
    (ordered parse log.rows) asset
    (status parse (ordered parse log.rows) now) foundBy
  have hresaid : Resaid (expires cutoff) (ordered parse log.rows) t.1 t.2 := by
    have hzip := List.mem_of_mem_filter ht
    rw [rewordings, ordered_map_blank, status_blank] at hzip
    exact (List.forall₂_iff_zip.mp hsaid).2 hzip
  refine reword_eq (fun x hx => ?_) ?_
  · obtain ⟨hrow, hexpires⟩ := (mem_pages hpages).mp hx
    exact hquotes t ht x hrow hexpires
  · rcases hresaid with (hsame | ⟨x, hx, hexpires, -, label, hlabel, hreason, hreason'⟩) |
      ⟨x, hx, hexpires, -, label, hlabel, hreason, hreason'⟩
    · exact Or.inl hsame
    · refine Or.inr ⟨fun y hy => ?_, x, (mem_pages hpages).mpr ⟨mem_ordered.mp hx, hexpires⟩,
        (detail_of_expires hexpires).1, _, List.mem_cons_self, ?_⟩
      · rw [hreason']
        exact not_endsWith_quoting hlabel (detail_of_expires ((mem_pages hpages).mp hy).2).2
      · rw [hreason, endsWith, List.isSuffixOf_iff_suffix]
        refine ⟨(label ++ " ").toList, ?_⟩
        simp [quoting, String.toList_append]
    · refine Or.inr ⟨fun y hy => ?_, x, (mem_pages hpages).mpr ⟨mem_ordered.mp hx, hexpires⟩,
        (detail_of_expires hexpires).1, _, List.mem_cons_of_mem _ (List.mem_singleton_self _), ?_⟩
      · rw [hreason']
        exact not_endsWith_naming hlabel (detail_of_expires ((mem_pages hpages).mp hy).2).2
      · rw [hreason, endsWith, List.isSuffixOf_iff_suffix]
        refine ⟨label.toList, ?_⟩
        simp [naming, String.toList_append]

/-- **When the stored reasons read as the next judgement words them.** If no stored reason ends like a
quote that is not its own, the reasons after `_expire_free_text` are those of the blanked log iff the cut
to six loses none. -/
theorem reasons_reworded_iff (parse : String → Option Int) (asset : Asset)
    (log : EvidenceLog asset.assetId)
    (cutoff : String) (now : Int) (foundBy : Option (Table String (List String)))
    (pages : List (List Evidence)) (hpages : Pages cutoff log.rows pages)
    (hquotes : QuotesApart parse asset log cutoff now foundBy) :
    let s := expireFreeText ⟨log.rows, (grade parse asset log.rows now foundBy).reasons⟩ pages
    s.reasons = (grade parse asset s.rows now foundBy).reasons ↔
        CutKeeps parse asset log cutoff now foundBy := by
  intro s
  have hrows : s.rows = log.rows.map (blank (expires cutoff)) := rows_expireFreeText log _ hpages
  have hlength : (said parse asset (ordered parse log.rows) (status parse (ordered parse log.rows) now)
      foundBy).length = (said parse asset (ordered parse (log.rows.map (blank (expires cutoff))))
        (status parse (ordered parse (log.rows.map (blank (expires cutoff)))) now) foundBy).length := by
    rw [ordered_map_blank, status_blank]
    exact (said_blank parse (expires cutoff) (ordered parse log.rows) asset _ foundBy).length_eq
  have hfirst : (rewordings parse asset log cutoff now foundBy).map Prod.fst =
      said parse asset (ordered parse log.rows) (status parse (ordered parse log.rows) now) foundBy :=
    List.map_fst_zip hlength.le
  have hsecond : (rewordings parse asset log cutoff now foundBy).map Prod.snd =
      said parse asset (ordered parse (log.rows.map (blank (expires cutoff))))
        (status parse (ordered parse (log.rows.map (blank (expires cutoff)))) now) foundBy :=
    List.map_snd_zip hlength.ge
  have hbefore : (grade parse asset log.rows now foundBy).reasons =
      ((rewordings parse asset log cutoff now foundBy).map Prod.fst).eraseDups.take 6 := by
    rw [hfirst]
    exact reasons_judge asset _ _ foundBy
  have hafter : (grade parse asset s.rows now foundBy).reasons =
      ((rewordings parse asset log cutoff now foundBy).map Prod.snd).eraseDups.take 6 := by
    rw [hsecond, hrows]
    exact reasons_judge asset _ _ foundBy
  have hstored : s.reasons =
      (((rewordings parse asset log cutoff now foundBy).map Prod.fst).eraseDups.take 6
      |>.map (reword pages)).eraseDups := by
    rw [← hbefore]
    refine reasons_expireFreeText ?_
    rw [hbefore]
    exact (nodup_eraseDups _).sublist (List.take_sublist 6 _)
  have hstoredOf : ∀ t ∈ rewordings parse asset log cutoff now foundBy,
      t.1 ∈ ((rewordings parse asset log cutoff now foundBy).map Prod.fst).eraseDups.take 6 →
        t ∈ storedRewordings parse asset log cutoff now foundBy := by
    intro t ht hmem
    rw [← hbefore] at hmem
    exact List.mem_filter.mpr ⟨ht, List.contains_iff_mem.mpr hmem⟩
  have hmem : ∀ reason, reason ∈
      (((rewordings parse asset log cutoff now foundBy).map Prod.fst).eraseDups.take
      6).map (reword pages) ↔ reason ∈ (storedRewordings parse asset log cutoff now foundBy).map
          Prod.snd := by
    intro reason
    rw [List.mem_map, List.mem_map]
    constructor
    · rintro ⟨r, hr, rfl⟩
      obtain ⟨t, ht, rfl⟩ := List.mem_map.mp (List.mem_eraseDups.mp (List.mem_of_mem_take hr))
      exact ⟨t, hstoredOf t ht hr, (reword_of_quotesApart hpages hquotes (hstoredOf t ht hr)).symm⟩
    · rintro ⟨t, ht, rfl⟩
      have hreason := List.contains_iff_mem.mp (List.mem_filter.mp ht).2
      rw [hbefore] at hreason
      exact ⟨t.1, hreason, reword_of_quotesApart hpages hquotes ht⟩
  rw [hstored, hafter, map_take_eraseDups_iff fun t ht hreason =>
    reword_of_quotesApart hpages hquotes (hstoredOf t ht hreason), CutKeeps]
  refine or_congr ?_ (forall₂_congr fun t _ => hmem t.2)
  rw [length_eraseDups_congr hmem]

/-! ## A title found again -/

def firstFound : Evidence :=
  ⟨"ievd-1", "acc-1", .searchSnippet, .supports, "https://s.in/1", none, "Title", "search", .index,
      "2026-01-01"⟩

def foundAgain : Evidence :=
  ⟨"ievd-2", "acc-1", .searchSnippet, .supports, "https://s.in/2", none, "Title", "search", .index,
      "2026-06-01"⟩

def halfYear (text : String) : Option Int :=
  if text = "2026-01-01" then some 1767225600000000 else if text =
    "2026-06-01" then some 1780272000000000 else none

def foundOnce : EvidenceLog "acc-1" where
  rows := [firstFound]
  unique := by simp
  ofAsset := by simp [firstFound]

def foundTwice : EvidenceLog "acc-1" where
  rows := [firstFound, foundAgain]
  unique := by simp [firstFound, foundAgain]
  ofAsset := by simp [firstFound, foundAgain]

theorem reasons_foundTwice : (grade halfYear ⟨"acc-1", false⟩ foundTwice.rows 0 none).reasons =
    ["search snippet (Title)"] := by
  decide

theorem expireQuotes_title : expireQuotes ["search snippet (Title)"] ["Title"] =
    ["search snippet ([expired])"] := by
  decide

theorem pages_foundTwice : Pages "2026-02-01" foundTwice.rows [[firstFound]] := by
  have hrows : foundTwice.rows.filter (expires "2026-02-01") = [firstFound] := by decide
  rw [Pages, hrows]
  exact List.Perm.refl [firstFound]

theorem pages_foundOnce : Pages "2026-02-01" foundOnce.rows [[firstFound]] := by
  have hrows : foundOnce.rows.filter (expires "2026-02-01") = [firstFound] := by decide
  rw [Pages, hrows]
  exact List.Perm.refl [firstFound]

theorem quotesApart_foundOnce : QuotesApart halfYear ⟨"acc-1", false⟩ foundOnce "2026-02-01" 0 none := by
  have hstored : storedRewordings halfYear ⟨"acc-1", false⟩ foundOnce "2026-02-01" 0 none =
      [("search snippet (Title)", "search snippet ([expired])")] := by
    decide
  have hquotes : ∀ quote ∈ quotes "Title", endsWith quote.1 "search snippet (Title)" = true →
      "search snippet ([expired])" = requote "search snippet (Title)" quote := by
    decide
  intro t ht x hx _ quote hquote hends
  rw [hstored, List.mem_singleton] at ht
  rw [List.mem_singleton.mp hx] at hquote
  rw [ht] at hends ⊢
  exact hquotes quote hquote hends

theorem reasons_reworded_iff_foundOnce :
    let s := expireFreeText ⟨foundOnce.rows,
      (grade halfYear ⟨"acc-1", false⟩ foundOnce.rows 0 none).reasons⟩ [[firstFound]]
    s.reasons = (grade halfYear ⟨"acc-1", false⟩ s.rows 0 none).reasons ↔
      CutKeeps halfYear ⟨"acc-1", false⟩ foundOnce "2026-02-01" 0 none :=
  reasons_reworded_iff halfYear ⟨"acc-1", false⟩ foundOnce "2026-02-01" 0 none [[firstFound]]
    pages_foundOnce quotesApart_foundOnce

/-- The reason that the later row gives as well is blanked with the earlier one. -/
theorem later_quote_blanked :
    ¬∀ (parse : String → Option Int) (asset : Asset) (log : EvidenceLog asset.assetId)
    (cutoff : String) (now : Int) (foundBy : Option (Table String (List String)))
    (pages : List (List Evidence)), Pages cutoff log.rows pages →
      let s := expireFreeText ⟨log.rows, (grade parse asset log.rows now foundBy).reasons⟩ pages
      s.reasons = (grade parse asset s.rows now foundBy).reasons := by
  intro h
  have hsame := h halfYear ⟨"acc-1", false⟩ foundTwice "2026-02-01" 0 none
    [[firstFound]] pages_foundTwice
  have hstored : (expireFreeText ⟨foundTwice.rows,
      (grade halfYear ⟨"acc-1", false⟩ foundTwice.rows 0 none).reasons⟩ [[firstFound]]).reasons =
        ["search snippet ([expired])"] := by
    rw [reasons_foundTwice]
    exact expireQuotes_title
  have hregraded : (grade halfYear ⟨"acc-1", false⟩ [{ firstFound with detail := "[expired]" },
      foundAgain] 0 none).reasons = ["search snippet ([expired])", "search snippet (Title)"] := by
    decide
  have hrows : (expireFreeText ⟨foundTwice.rows,
      (grade halfYear ⟨"acc-1", false⟩ foundTwice.rows 0 none).reasons⟩ [[firstFound]]).rows =
        [{ firstFound with detail := "[expired]" }, foundAgain] := by
    decide
  dsimp only at hsame
  rw [hstored, hrows, hregraded] at hsame
  exact absurd hsame (by decide)

end GuruJi.Map
