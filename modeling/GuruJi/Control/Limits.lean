import GuruJi.Control.Sharing

/-!
# Live sessions

How many sessions of a control store are live at a time, as `active_voice_sessions` counts them, and
what becomes of that number: time and closing can only lower it (`live_antitone`, `live_close_le`), a
claim raises it only if the ticket had run out (`live_perform_le`), and a new session raises it by one
(`live_create_le`).
-/

namespace GuruJi.Control

open GuruJi.Lib

variable {τ : Type} [LinearOrder τ]

/-- A control store as its callers see it: each call answers and leaves what the store in memory
does. -/
structure Backing (τ : Type) [LinearOrder τ] (D Ω : Type) where
  perform : Ω → D → Operation τ → Result τ × D
  view : D → InMemoryControlStore τ
  same : ∀ choice db op, ((view db).perform op).1.Same (perform choice db op).1
  leaves : ∀ choice db op, view (perform choice db op).2 = ((view db).perform op).2
  keyed : ∀ db, Keyed (view db)
  named : ∀ db, ∀ entry ∈ (view db).voiceSessions, entry.1 = entry.2.sessionId

def SqlControlStore.backing (store : SqlControlStore) : Backing τ (ControlDb τ) (RowOrder τ) where
  perform order db op := store.perform order db op
  view := ControlDb.image
  same order db op := (perform_agrees db store order op).1
  leaves order db op := (perform_agrees db store order op).2.symm
  keyed := keyed_image
  named db entry hentry := by
    obtain ⟨row, -, rfl⟩ := List.mem_map.mp hentry
    rfl

/-- The keys are distinct, and are the ids of the sessions. -/
structure WellKept (memory : InMemoryControlStore τ) : Prop where
  keyed : Keyed memory
  named : ∀ entry ∈ memory.voiceSessions, entry.1 = entry.2.sessionId

theorem named_assign {memory : InMemoryControlStore τ} (h : WellKept memory) {sessionId : String}
    {row : VoiceSession τ} (hid : row.sessionId = sessionId) :
    ∀ entry ∈ memory.voiceSessions.assign sessionId row, entry.1 = entry.2.sessionId := by
  intro entry hentry
  rcases Table.eq_or_mem_of_mem_assign hentry with rfl | hentry
  · exact hid.symm
  · exact h.named entry hentry

theorem WellKept.perform {memory : InMemoryControlStore τ} (h : WellKept memory) (op : Operation τ) :
    WellKept (memory.perform op).2 where
  keyed := keyed_perform h.keyed op
  named := by
    have hrows := perform_rows memory op
    generalize memory.perform op = out at hrows ⊢
    cases hrows with
    | created hop hnew => exact named_assign h rfl
    | claimed hop hrow hclaim => exact named_assign h (h.named _ (Table.mem_of_get hrow)).symm
    | closed hop hrow hclose => exact named_assign h (h.named _ (Table.mem_of_get hrow)).symm
    | pruned hop => exact fun entry hentry => h.named entry (List.mem_filter.mp hentry).1
    | missed hop hmiss => exact h.named
    | kept hop => exact h.named

def InMemoryControlStore.backing :
    Backing τ {memory : InMemoryControlStore τ // WellKept memory} (RowOrder τ) where
  perform _ db op := ((db.1.perform op).1, ⟨(db.1.perform op).2, db.2.perform op⟩)
  view := Subtype.val
  same _ _ _ := .refl _
  leaves _ _ _ := rfl
  keyed db := db.2.keyed
  named db := db.2.named

/-- The sessions at `now` that `q` holds of, by their id and their person. -/
def live (memory : InMemoryControlStore τ) (now : τ) (q : String → String → Bool) : Nat :=
  memory.voiceSessions.countP fun entry => isActive entry.2 now && q entry.1 entry.2.principalId

section
variable {memory : InMemoryControlStore τ} {now later : τ} {q : String → String → Bool}

theorem isActive_antitone {row : VoiceSession τ} (hle : now ≤ later) (h : isActive row later = true) :
    isActive row now = true := by
  unfold isActive at h ⊢
  split_ifs at h ⊢ with hclosed hclaimed
  · rw [Bool.and_eq_true, decide_eq_true_eq, decide_eq_true_eq] at h ⊢
    exact ⟨hle.trans_lt h.1, hle.trans_lt h.2⟩
  · rw [decide_eq_true_eq] at h ⊢
    exact hle.trans_lt h

/-- As time goes by sessions run out. -/
theorem live_antitone (memory : InMemoryControlStore τ) (q : String → String → Bool)
    (hle : now ≤ later) : live memory later q ≤ live memory now q := by
  refine List.countP_mono_left fun entry _ h => ?_
  rw [Bool.and_eq_true] at h ⊢
  exact ⟨isActive_antitone hle h.1, h.2⟩

theorem length_activeVoiceSessions (memory : InMemoryControlStore τ) (now : τ)
    (principalId : Option String) : (memory.activeVoiceSessions now principalId).length =
      live memory now fun _ person => principalId.isNone || decide (principalId = some person) := by
  unfold InMemoryControlStore.activeVoiceSessions live
  rw [sortBy, List.length_insertionSort, ← List.countP_eq_length_filter, List.countP_map]
  rfl

/-! ## What an operation does to them -/

/-- A claim of a session whose ticket is good at `now`. -/
def claimsInTime (memory : InMemoryControlStore τ) (now : τ) : Operation τ → Bool
  | .claimVoiceSession sessionId ticketSha256 stamp =>
      (memory.voiceSessions.get sessionId).all fun row =>
    !ControlDb.claimable ticketSha256 stamp row || decide (now < row.ticketExpiresAt)
  | _ => true

/-- Nothing but a new session, or a claim that comes too late, makes one live. -/
theorem live_perform_le {op : Operation τ} (hcreate : ∀ id, createsSession id op = false)
    (htime : claimsInTime memory later op = true) (hle : now ≤ later) :
    live (memory.perform op).2 now q ≤ live memory now q := by
  have hrows := perform_rows memory op
  generalize memory.perform op = out at hrows ⊢
  cases hrows with
  | @created record usage hop hnew =>
    have hnot := hcreate record.sessionId
    rw [hop, createsSession, decide_eq_false_iff_not] at hnot
    exact absurd rfl hnot
  | @claimed sessionId ticketSha256 stamp row usage hop hrow hclaim =>
    rw [hop, claimsInTime, hrow, Option.all_some, hclaim, Bool.not_true, Bool.false_or,
      decide_eq_true_eq] at htime
    obtain ⟨-, hunclaimed, hopen, -, hexpires⟩ := claimable_spec.mp hclaim
    refine Table.countP_assign_le hrow fun h => ?_
    rw [Bool.and_eq_true] at h ⊢
    refine ⟨?_, h.2⟩
    have hactive := h.1
    simp only [isActive, hopen, Option.isSome_none, Bool.false_eq_true, if_false, Option.isNone_some,
      decide_eq_true_eq] at hactive
    simp only [isActive, hopen, hunclaimed, Option.isSome_none, Bool.false_eq_true, if_false,
      Option.isNone_none, if_true, Bool.and_eq_true, decide_eq_true_eq]
    exact ⟨hle.trans_lt htime, hactive⟩
  | @closed sessionId principalId stamp row usage hop hrow hclose =>
    refine Table.countP_assign_le hrow fun h => ?_
    simp [isActive] at h
  | pruned hop => exact List.filter_sublist.countP_le
  | missed hop hmiss => exact le_rfl
  | kept hop => exact le_rfl

/-- A new session is one more. -/
theorem live_create_le (record : VoiceSession τ) :
    live (memory.perform (.createVoiceSession record)).2 now q ≤
      live memory now q + if q record.sessionId record.principalId then 1 else 0 := by
  simp only [InMemoryControlStore.perform, InMemoryControlStore.createVoiceSession]
  by_cases hknown : (memory.voiceSessions.get record.sessionId).isSome = true
  · rw [if_pos hknown]
    exact Nat.le_add_right _ _
  · rw [if_neg hknown]
    refine (Table.countP_assign_new (Option.not_isSome_iff_eq_none.mp hknown)).le.trans ?_
    refine Nat.add_le_add_left ?_ _
    rcases isActive record now with _ | _
    · exact Nat.zero_le _
    · exact le_rfl

theorem not_live_of_close (hkeyed : Keyed memory) {sessionId person : String} {stamp : τ}
    {entry : String × VoiceSession τ}
    (hentry : entry ∈ (memory.perform
        (.closeVoiceSession sessionId (some person) stamp)).2.voiceSessions)
    (hid : entry.1 = sessionId) (hperson : entry.2.principalId = person) : isActive entry.2 now =
        false := by
  have hget : (memory.perform (.closeVoiceSession sessionId (some person) stamp)).2.voiceSessions.get
      sessionId = some entry.2 := by
    refine Table.get_of_mem (keyed_perform hkeyed _) ?_
    rw [← hid] at hentry ⊢
    exact hentry
  simp only [InMemoryControlStore.perform, InMemoryControlStore.closeVoiceSession] at hget
  rcases hrow : memory.voiceSessions.get sessionId with _ | row
  · rw [hrow] at hget
    simp only [hrow] at hget
    cases hget
  · simp only [hrow, not_closable_iff] at hget
    by_cases hclose : closable (some person) row = true
    · rw [if_neg (not_not.mpr hclose)] at hget
      simp only [Table.get_assign, if_true, Option.some.injEq] at hget
      rw [← hget]
      rfl
    · rw [if_pos hclose] at hget
      simp only [hrow, Option.some.injEq] at hget
      subst hget
      have hclosed : entry.2.closedAt.isSome = true := by
        simpa [closable, hperson, Option.isSome_iff_ne_none] using hclose
      simp [isActive, hclosed]

/-- A person's sessions that are not among the ones to be closed. -/
def kept (person : String) (stale : List String) (id other : String) : Bool :=
  decide (other = person) && decide (id ∉ stale)

/-- Closing one of the sessions that are still to be closed leaves the others. -/
theorem live_close_le (hkeyed : Keyed memory) {sessionId person : String} {stamp : τ}
    (rest : List String) :
    live (memory.perform (.closeVoiceSession sessionId (some person) stamp)).2 now (kept person rest) ≤
      live memory now (kept person (sessionId :: rest)) := by
  refine le_trans ?_ (@live_perform_le _ _ memory now now _
    (.closeVoiceSession sessionId (some person) stamp) (fun _ => rfl) rfl le_rfl)
  refine List.countP_mono_left fun entry hentry h => ?_
  simp only [kept, Bool.and_eq_true, decide_eq_true_eq, List.mem_cons, not_or] at h ⊢
  refine ⟨h.1, h.2.1, fun hid => ?_, h.2.2⟩
  rw [not_live_of_close hkeyed hentry hid h.2.1] at h
  exact Bool.false_ne_true h.1

theorem live_kept_lt (hnamed : ∀ entry ∈ memory.voiceSessions, entry.1 = entry.2.sessionId)
    {person : String} {own : List (VoiceSession τ)}
        (hown : (memory.activeVoiceSessions now (some person)).Perm own)
    {most : Nat} (hmost : 0 < most) :
    live memory now (kept person ((own.take (own.length + 1 - most)).map (·.sessionId))) < most := by
  set stale := own.take (own.length + 1 - most) with hstale
  have hcount : live memory now (kept person (stale.map (·.sessionId))) =
        own.countP fun row => decide (row.sessionId ∉ stale.map (·.sessionId)) := by
    rw [← hown.countP_eq, InMemoryControlStore.activeVoiceSessions, sortBy,
      (List.perm_insertionSort _ _).countP_eq, List.countP_filter, List.countP_map]
    refine List.countP_congr fun entry hentry => ?_
    simp only [kept, Function.comp_apply, hnamed entry hentry, Bool.and_eq_true, decide_eq_true_eq,
      Option.isNone_some, Bool.false_or, Option.some.injEq, eq_comm (a := person)]
    tauto
  have hsplit : own.countP (fun row => decide (row.sessionId ∉ stale.map (·.sessionId))) ≤
      (own.drop (own.length + 1 - most)).length := by
    conv_lhs => rw [← List.take_append_drop (own.length + 1 - most) own]
    rw [List.countP_append, ← hstale]
    have hnone : stale.countP (fun row => decide (row.sessionId ∉ stale.map (·.sessionId))) = 0 := by
      refine List.countP_eq_zero.mpr fun row hrow => ?_
      rw [decide_eq_true_eq]
      exact not_not.mpr (List.mem_map.mpr ⟨row, hrow, rfl⟩)
    rw [hnone, Nat.zero_add]
    exact List.countP_le_length
  rw [hcount]
  rw [List.length_drop] at hsplit
  omega

end

end GuruJi.Control
