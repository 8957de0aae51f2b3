import GuruJi.Records.Refine

/-!
# Importing the same records again

A row that an import wrote is a fixed point of merging its record (`Stable`): nothing is changed, so
the columns that follow from others stay settled, and the hash stays the same. A second run of the
same import therefore finds every record of the first unchanged (`reimport_unchanged`).
-/

namespace GuruJi.Records

open GuruJi.Lib

variable {N D : Type} [Python N] {entity : CanonicalEntity} {record : CanonicalRecord N entity}
variable {digest : List (String × Value N) → List (String × Value N) → D}
variable {row : Row N D} {columns kept : List String} {stamp name : String}
variable {d : String × List String}

theorem not_replaces_self (v : Value N) : replaces v v = false := by
  rw [replaces, Value.same_self]
  rfl

/-! ## Settled columns -/

/-- Looking at the column again, when nothing changed, replaces nothing. -/
def Settled (entity : String) (written : String → Bool) (d : String × List String)
    (fields : Fields N) (notes : List String) : Prop :=
  written d.1 = false → d.2.any written = true →
    (fields d.1).blank = true ∨ derivedNote notes d.1 = true →
    replaces (worked entity fields d.1) (fields d.1) = false

theorem settled_rederive {w : Working N} (hd : d ∈ derivedFields entity.name)
    (hw : Untouched row record columns d w) :
    let w' := rederive (overlay row record columns) w d
    Settled entity.name (record.written columns) d w'.fields w'.notes := by
  intro w' hwritten hinputs hlook
  obtain ⟨hfields, hnotes, -⟩ := rederive_spec (overlay row record columns) w d
  by_cases hacts : acts (overlay row record columns) w d = true
  · have hvalue : w'.fields d.1 = worked entity.name w.fields d.1 := (rederive_of_acts hd hacts).1
    have hworked : worked entity.name w'.fields d.1 = worked entity.name w.fields d.1 := by
      rw [if_pos hacts] at hfields
      exact hfields ▸ worked_update_self w.fields _
    rw [hvalue, hworked]
    exact not_replaces_self _
  · rw [if_neg hacts] at hfields hnotes
    have hstored : w.fields d.1 = storedFields entity row d.1 :=
      hw.1.trans (if_neg (by rw [hwritten]; exact Bool.false_ne_true))
    have hnoted : derivedNote w.notes d.1 = derivedNote row.normalizations d.1 := by
      rw [hw.2, hwritten, Bool.not_false, Bool.true_and]
    rw [hfields, hnotes, hstored, hnoted] at hlook
    rw [hfields, hstored]
    -- the turn looked at the column and did not keep a stated value: it found nothing to replace
    have hlooks : looksAgain (overlay row record columns) d = true := by
      simp only [looksAgain, overlay, hwritten, hinputs, Bool.not_false, Bool.true_and,
        Bool.or_eq_true]
      rcases hlook with hblank | hnote
      · exact .inl (.inr hblank)
      · exact .inr hnote
    have hkeeps : keepsStated (overlay row record columns)
        (worked entity.name w.fields d.1) d.1 = false := by
      simp only [keepsStated, overlay]
      rcases hlook with hblank | hnote
      · rw [hblank, Bool.not_true, Bool.false_and]
      · rw [hnote, Bool.not_true, Bool.and_false, Bool.true_or, Bool.not_true, Bool.or_false,
          Bool.and_false]
    rw [acts, hlooks, Bool.true_and] at hacts
    change ¬(!keepsStated (overlay row record columns) (worked entity.name w.fields d.1) d.1 &&
      replaces (worked entity.name w.fields d.1) (storedFields entity row d.1)) = true at hacts
    simpa [hkeeps] using hacts

theorem Settled.rederive {o : Overlay N} {w : Working N} {e : String × List String}
    {written : String → Bool} (hd : d ∈ derivedFields o.entity) (he : e.1 ≠ d.1 ∧ e.1 ∉ d.2)
    (h : Settled o.entity written d w.fields w.notes) :
    Settled o.entity written d (Records.rederive o w e).fields (Records.rederive o w e).notes := by
  have hworked : worked o.entity (Records.rederive o w e).fields d.1 =
      worked o.entity w.fields d.1 :=
    (worked_congr hd fun i hi => rederive_fields_of_ne fun heq => he.2 (heq ▸ hi)).1
  have hfield : (Records.rederive o w e).fields d.1 = w.fields d.1 :=
    rederive_fields_of_ne he.1.symm
  rw [Settled, hworked, hfield, derivedNote_rederive_of_ne hd he.1]
  exact h

/-- **The merge settles every column that follows from others.** -/
theorem settled_mergeStored (hd : d ∈ derivedFields entity.name) :
    Settled entity.name (record.written columns) d
      (mergeStored digest row record columns kept).fields
      (mergeStored digest row record columns kept).notes := by
  refine foldl_settles (Q := Untouched row record columns)
    (P := fun d (w : Working N) =>
      Settled entity.name (record.written columns) d w.fields w.notes)
    (derivedFields_ordered entity.name) ?_ ?_ ?_ (fun a ha => untouched_overlaid ha) d hd
  · exact fun a ha w hw => settled_rederive ha hw
  · exact fun a _ b hb hab w hw => hw.rederive hb hab.1.symm
  · exact fun a ha b _ hab w hw => Settled.rederive (o := overlay row record columns) ha hab hw

/-! ## Attributes -/

theorem overlayAttributes_of_get {N : Type} {stored attributes : Table String (Value N)}
    (h : ∀ e ∈ attributes, (!kept.contains e.1 || (stored.get e.1).isNone) = true →
      stored.get e.1 = some e.2) :
    overlayAttributes stored attributes kept = stored := by
  refine foldl_keeps (P := fun t => t = stored) (fun e he t ht => ?_) rfl
  obtain ⟨hmem, hfilter⟩ := List.mem_filter.mp he
  rw [ht]
  exact Table.assign_of_get (h e hmem hfilter)

theorem overlayAttributes_idem (stored : Table String (Value N)) (record : CanonicalRecord N entity)
    (kept : List String) :
    overlayAttributes (overlayAttributes stored record.attributes kept) record.attributes kept =
      overlayAttributes stored record.attributes kept := by
  refine overlayAttributes_of_get fun e he hfilter => ?_
  have hnodup : ((record.attributes.filter fun e =>
      !kept.contains e.1 || (stored.get e.1).isNone).map Prod.fst).Nodup :=
    (List.filter_sublist.map Prod.fst).nodup record.keys
  obtain ⟨hin, hout⟩ := Table.get_foldl_assign stored hnodup e.1
  by_cases hfirst : (!kept.contains e.1 || (stored.get e.1).isNone) = true
  · exact hin e.2 (List.mem_filter.mpr ⟨he, hfirst⟩)
  · -- a kept attribute that was there is still there
    have hnot : ∀ r, (e.1, r) ∉ record.attributes.filter fun e =>
        !kept.contains e.1 || (stored.get e.1).isNone :=
      fun r hr => hfirst (List.mem_filter.mp hr).2
    rw [overlayAttributes, hout hnot] at hfilter
    exact absurd hfilter hfirst

/-! ## Fixed points -/

/-- A row that a record was laid over, or that was inserted for it. -/
structure Stable (digest : List (String × Value N) → List (String × Value N) → D)
    (record : CanonicalRecord N entity) (columns kept : List String) (row : Row N D) : Prop where
  fields : ∀ name, record.written columns name = true →
    storedFields entity row name = record.fields name
  settled : ∀ d ∈ derivedFields entity.name, Settled entity.name (record.written columns) d
    (storedFields entity row) row.normalizations
  attributes : overlayAttributes row.attributes record.attributes kept = row.attributes
  hash : row.contentHash = rowHash digest entity (storedFields entity row) row.attributes

/-- **A stable row is a fixed point of the merge.** -/
theorem Stable.mergeStored (h : Stable digest record columns kept row) :
    (Records.mergeStored digest row record columns kept).fields = storedFields entity row ∧
      (Records.mergeStored digest row record columns kept).contentHash = row.contentHash := by
  have hstart : (overlaid row record columns).fields = storedFields entity row := by
    funext name
    by_cases hwritten : record.written columns name = true
    · exact (if_pos hwritten).trans (h.fields name hwritten).symm
    · exact if_neg hwritten
  have hchanged : ∀ name, (overlay row record columns).changed name = false := by
    intro name
    cases hwritten : record.written columns name
    · simp [overlay, hwritten]
    · simp [overlay, h.fields name hwritten, Value.same_self]
  have hloop : ((derivedFields entity.name).foldl (rederive (overlay row record columns))
      (overlaid row record columns)).fields = storedFields entity row := by
    refine foldl_keeps (P := fun w : Working N => w.fields = storedFields entity row)
      (fun d hd w hw => ?_) hstart
    have hquiet : d.2.any (overlay row record columns).changed = false :=
      List.any_eq_false.mpr fun name _ => by rw [hchanged name]; exact Bool.false_ne_true
    rw [(rederive_spec _ w d).1]
    split_ifs with hacts
    · -- nothing changed, so the turn looks at a settled column
      obtain ⟨hlooks, hreplaces⟩ := Bool.and_eq_true_iff.mp hacts
      simp only [looksAgain, hquiet, Bool.false_or, Bool.and_eq_true, Bool.not_eq_true',
        Bool.or_eq_true] at hlooks
      obtain ⟨⟨⟨hwritten, hinputs⟩, hlook⟩, -⟩ := hlooks
      have hsettled := h.settled d hd hwritten hinputs hlook
      rw [hw] at hreplaces
      exact absurd (hsettled.symm.trans hreplaces) Bool.false_ne_true
    · exact hw
  have hattributes := h.attributes
  refine ⟨hloop, ?_⟩
  rw [h.hash]
  simp only [Records.mergeStored, hloop, hattributes]

theorem stable_updatedRow (row : Row N D) (record : CanonicalRecord N entity)
    (columns kept : List String) (stamp : String) :
    Stable digest record columns kept (updatedRow columns stamp
      (overwrite row record (mergeStored digest row record columns kept)) row) := by
  have hfields := storedFields_updatedRow digest row record columns kept stamp
  refine ⟨fun name hwritten => ?_, fun d hd => ?_, overlayAttributes_idem _ _ _, ?_⟩ <;>
    rw [hfields]
  · exact mergeStored_fields_written hwritten
  · exact settled_mergeStored hd
  · rfl

theorem storedFields_insertedRow_ruled (digest : List (String × Value N) → List (String × Value N) → D)
    (record : CanonicalRecord N entity) (stamp : String) :
    ∀ column ∈ ruledFields entity.name,
      storedFields entity (insertedRow stamp (insertion digest record)) column =
        record.fields column := by
  intro column hcolumn
  obtain ⟨item, hitem, rfl, -, htype⟩ := entity.ruled column hcolumn
  rw [storedFields_insertedRow]
  split_ifs with hb
  · exact (record.blanks item hitem htype hb).symm
  · rfl

theorem stable_insertedRow (record : CanonicalRecord N entity) (columns kept : List String)
    (stamp : String) :
    Stable digest record columns kept (insertedRow stamp (insertion digest record)) := by
  have hfields := storedFields_insertedRow digest record stamp
  have hfull : ∀ name, (record.fields name).blank = false →
      storedFields entity (insertedRow stamp (insertion digest record)) name =
        record.fields name := fun name hb => by rw [hfields, hb, if_neg Bool.false_ne_true]
  have hruled := storedFields_insertedRow_ruled digest record stamp
  refine ⟨fun name hwritten => ?_, fun d hd _ _ hlook => ?_, ?_, ?_⟩
  · simp only [CanonicalRecord.written, Bool.and_eq_true, Bool.not_eq_true'] at hwritten
    exact hfull name hwritten.2
  · have hworked : worked entity.name
        (storedFields entity (insertedRow stamp (insertion digest record))) d.1 =
          worked entity.name record.fields d.1 :=
      (worked_congr hd fun i hi => hruled i (mem_ruledFields hd (.inr hi))).1
    rw [hruled d.1 (mem_ruledFields hd (.inl rfl))] at hlook ⊢
    rw [hworked]
    rcases hlook with hblank | hnote
    · obtain ⟨item, hitem, hname, -, htype⟩ := entity.ruled d.1 (mem_ruledFields hd (.inl rfl))
      rw [← hname] at hblank
      have hnull := hname ▸ record.blanks item hitem htype hblank
      rw [record.underived d hd hnull, hnull]
      exact not_replaces_self _
    · rw [← (record.derived d hd hnote).2]
      exact not_replaces_self _
  · exact overlayAttributes_of_get fun e he _ => Table.get_of_mem record.keys he
  · refine rowHash_congr (fun name => ?_) fun name hb => (hfull name hb).symm
    rw [hfields]
    split_ifs with hb
    · exact hb
    · rfl

/-! ## The second run -/

section
variable [DecidableEq D] {mode : ImportMode} {rows rows' : Rows N D} {seen : List String}
variable {records : List (CanonicalRecord N entity)} {summary : ImportSummary}

/-- What a second run does with a record, given what the first did. -/
def Decision.again {N D : Type} : Decision N D → Decision N D
  | .write _ => .unchanged
  | d => d

theorem consider_stable (h : Stable digest record (mergeColumns entity mode) mode.keptAttributes row)
    (hpass : (mode.skipBlocking && (crossFieldIssues entity.name (storedFields entity row)).any
      (·.severity = .error)) = false) :
    consider digest mode record (some row) = .unchanged := by
  obtain ⟨hfields, hhash⟩ := h.mergeStored
  have hblocking : (mergeStored digest row record (mergeColumns entity mode)
      mode.keptAttributes).blocking = (crossFieldIssues entity.name (storedFields entity row)).any
        (·.severity = .error) := by
    rw [← hfields]
    rfl
  rw [consider, hblocking, hpass, if_neg Bool.false_ne_true, if_pos hhash.symm]

/-- **What was written is found unchanged.** -/
theorem consider_again {p : Pending N D} {row : Option (Row N D)}
    (hskip : skipReason mode seen record = none)
    (hwrite : consider digest mode record row = .write p) (stamp : String) :
    consider digest mode record
      (some (upsertedRow (mergeColumns entity mode) stamp p row)) = .unchanged := by
  cases row with
  | none =>
    cases hwrite
    refine consider_stable (stable_insertedRow record _ _ _) ?_
    cases hblocking : mode.skipBlocking
    · rfl
    · -- what fails a check across columns is an issue of the record, and blocked it
      have hissues : record.hasBlockingIssues = false := by
        rw [skipReason, hblocking] at hskip
        split_ifs at hskip with _ hno
        simpa using hno
      rw [Bool.true_and, upsertedRow,
        crossFieldIssues_congr (storedFields_insertedRow_ruled digest record stamp)]
      exact List.any_eq_false.mpr fun issue hissue =>
        List.any_eq_false.mp hissues issue (record.checked issue hissue)
  | some row =>
    rw [consider] at hwrite
    split_ifs at hwrite with hblocking
    cases hwrite
    refine consider_stable (stable_updatedRow row record _ _ _) ?_
    rw [upsertedRow, storedFields_updatedRow]
    simpa [mergeStored] using hblocking

/-- **A second run** decides as the first did, but writes nothing. -/
theorem decisions_again (stamp : String)
    (hwritten : ∀ p, .write p ∈ decisions digest mode rows seen records → rows'.get p.key =
      some (upsertedRow (mergeColumns entity mode) mode.stamp p (rows.get p.key)))
    (hothers : ∀ k ∉ seen, (∀ p, .write p ∈ decisions digest mode rows seen records → p.key ≠ k) →
      rows'.get k = rows.get k) :
    decisions digest { mode with stamp } rows' seen records =
      (decisions digest mode rows seen records).map Decision.again := by
  induction records generalizing seen with
  | nil => rfl
  | cons record records ih =>
    have hsame : skipReason { mode with stamp } seen record = skipReason mode seen record := rfl
    have hconsider : ∀ row : Option (Row N D),
        consider digest { mode with stamp } record row = consider digest mode record row := fun _ => rfl
    rw [decisions, decisions, hsame]
    rw [decisions] at hwritten hothers
    cases hskip : skipReason mode seen record with
    | some reason =>
      rw [hskip] at hwritten hothers
      dsimp only at hwritten hothers ⊢
      rw [List.map_cons, ih (fun p hp => hwritten p (List.mem_cons_of_mem _ hp))
        fun k hk hnot => hothers k hk fun p hp => hnot p (by simpa using hp)]
      rfl
    | none =>
      rw [hskip] at hwritten hothers
      dsimp only at hwritten hothers ⊢
      have hlater := (pending_decisions digest mode rows
        (record.recordKey :: seen) records).2
      rw [List.map_cons, hconsider]
      congr 1
      · cases hdecision : consider digest mode record (rows.get record.recordKey) with
        | write p =>
          have hkey := (consider_write hdecision).1
          rw [← hkey, hwritten p (by rw [hdecision]; exact List.mem_cons_self)]
          rw [← hkey] at hdecision
          exact consider_again hskip hdecision mode.stamp
        | _ =>
          rw [hothers record.recordKey (not_mem_of_skipReason hskip) fun p hp heq => ?_, hdecision]
          · rfl
          · rcases List.mem_cons.mp hp with hp | hp
            · rw [hdecision] at hp
              cases hp
            · exact hlater p hp (heq ▸ List.mem_cons_self)
      · refine ih (fun p hp => hwritten p (List.mem_cons_of_mem _ hp)) fun k hk hnot => ?_
        refine hothers k (fun hmem => hk (List.mem_cons_of_mem _ hmem)) fun p hp => ?_
        rcases List.mem_cons.mp hp with hp | hp
        · rw [(consider_write hp.symm).1]
          exact fun heq => hk (heq ▸ List.mem_cons_self)
        · exact hnot p hp

theorem pending_again {N D : Type} (ds : List (Decision N D)) :
    (ds.map Decision.again).filterMap Decision.pending = [] := by
  rw [List.filterMap_eq_nil_iff]
  intro d hd
  obtain ⟨d', -, rfl⟩ := List.mem_map.mp hd
  cases d' <;> rfl

theorem skips_again {N D : Type} (ds : List (Decision N D)) :
    skips (ds.map Decision.again) = skips ds := by
  rw [skips, skips, List.filterMap_map]
  congr 1
  funext d
  cases d <;> rfl

theorem countP_again {N D : Type} (ds : List (Decision N D)) :
    (ds.map Decision.again).countP Decision.isUnchanged =
      ds.countP Decision.isUnchanged + (ds.filterMap Decision.pending).length := by
  induction ds with
  | nil => rfl
  | cons d ds ih =>
    rw [List.map_cons, List.countP_cons, List.countP_cons, ih]
    cases d with
    | write p =>
      rw [List.filterMap_cons_some (mem_pending.mpr rfl), List.length_cons]
      simp only [Decision.again, Decision.isUnchanged, if_true, Bool.false_eq_true, if_false]
      omega
    | _ =>
      rw [List.filterMap_cons_none (f := Decision.pending) rfl]
      simp only [Decision.again, Decision.isUnchanged, if_true, Bool.false_eq_true, if_false]
      omega

theorem summarize_again {N D : Type} (ds : List (Decision N D)) :
    (summarize (ds.map Decision.again)).inserted = 0 ∧
      (summarize (ds.map Decision.again)).updated = 0 ∧
      (summarize (ds.map Decision.again)).skipped = (summarize ds).skipped ∧
      (summarize (ds.map Decision.again)).unchanged =
        (summarize ds).inserted + (summarize ds).updated + (summarize ds).unchanged := by
  have hsplit : ∀ ps : List (Pending N D), (ps.filter (·.previous.isNone)).length +
      (ps.filter (·.previous.isSome)).length = ps.length := by
    intro ps
    induction ps with
    | nil => rfl
    | cons p ps ih =>
      cases hp : p.previous <;> simp [hp] <;> omega
  simp only [summarize, pending_again, skips_again, countP_again, hsplit]
  exact ⟨rfl, rfl, trivial, Nat.add_comm _ _⟩

end

/-- A fee of 100 of which 40 are paid: cleaning works out the balance and the status. -/
def feePaid : CanonicalRecord ℚ fee :=
  cleanRecord
    { fields := fun name =>
        if name = "student_id" then .text "S1" else if name = "amount_due" then .number 100
        else if name = "amount_paid" then .number 40 else .null
      notes := []
      columns := fun name hname => by
        split_ifs with hid hdue hpaid
        · exact absurd (hid ▸ by decide) hname
        · exact absurd (hdue ▸ by decide) hname
        · exact absurd (hpaid ▸ by decide) hname
        · rfl
      booleans := by decide
      blanks := by decide
      underived := by decide }
    [] [] ⟨none, none, none, none⟩ List.nodup_nil

def feeSheet : ImportMode :=
  ⟨["student_id", "amount_due", "amount_paid", "balance", "status"], [], true, "2025-06-01"⟩

end GuruJi.Records
