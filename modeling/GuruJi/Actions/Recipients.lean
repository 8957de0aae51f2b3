import GuruJi.Actions.Email
import Mathlib.Data.Finset.Card

/-!
# Recipients

What becomes of the entries of a recipient list: addresses, ids of records, and parts of names, which are
looked up in the faculty and then in the staff of an institution.

* `byName_eq_some`: a directory yields an address by name only when one of its records matches.
* **`resolve_accounts_iff`**: every entry is accounted for, and is the right person, iff no name that one
  record of a directory has is in the other one too, and at most 25 different addresses are asked for.
* `wrong_namesake`: a name of the faculty that a member of staff has too.
-/

namespace GuruJi.Actions

open GuruJi.Lib

section
variable (env : MailEnv) (directory : Directory)

def matching (records : List DirectoryRecord) (value : String) : List DirectoryRecord :=
  records.filter fun r => r.name.any fun name => env.nameLike (env.lower value) name

def byId (entity : String) (records : List DirectoryRecord) (value : String) : Option Resolved :=
  (getRecord env records (env.lower value)).bind (entry env entity)

def byName (entity : String) (records : List DirectoryRecord) (value : String) : Option Resolved :=
  match recordsNamed env records value 2 with
  | [record] => entry env entity record
  | _ => none

def requested (recipients : List String) : List String :=
  ((values env recipients).filterMap (resolveRecipient env directory)).map (·.email)

def addressed (recipients : List String) : List String :=
  (resolveRecipients env directory recipients).1.map (·.email)

/-- An entry that is no address yields that of the record whose id it is, or of the only one that it
matches in the faculty and the staff together. -/
def RightPerson (value : String) : Prop :=
  '@' ∉ value.toList → ∀ r, resolveRecipient env directory value = some r →
    (byId env "faculty" directory.faculty value = some r ∨ byId env "staff" directory.staff value =
      some r) ∨ ∃ record, matching env (directory.faculty ++ directory.staff) value = [record] ∧
        ∃ email ∈ record.email, r.email = env.lower email

/-- **Every entry is accounted for**, and is the right person. -/
structure Accounted (recipients : List String) : Prop where
  conserved : ∀ value ∈ values env recipients,
    (∃ r, resolveRecipient env directory value = some r ∧ r.email ∈ addressed env directory recipients) ∨
      value ∈ (resolveRecipients env directory recipients).2
  distinct : (addressed env directory recipients).Nodup
  right : ∀ value ∈ values env recipients, RightPerson env directory value

/-- When one directory yields an address for a name, and none for it as an id, no record of the other one
has the name. -/
def Unshared (value : String) : Prop :=
  '@' ∉ value.toList → byId env "faculty" directory.faculty value = none →
    (∀ r, byName env "faculty" directory.faculty value = some r → matching env directory.staff value =
      []) ∧
      (byName env "faculty" directory.faculty value = none → byId env "staff" directory.staff value =
        none →
        ∀ r, byName env "staff" directory.staff value = some r → matching env directory.faculty value =
        [])

end

/-! ## Names -/

section
variable {env : MailEnv} {directory : Directory}

theorem take_two_eq_singleton {α : Type*} {l : List α} {a : α} : l.take 2 = [a] ↔ l = [a] := by
  rcases l with _ | ⟨b, _ | ⟨c, l⟩⟩
  · exact Iff.rfl
  · exact Iff.rfl
  · exact iff_of_false (fun h => absurd (congrArg List.length h) (by simp))
      fun h => absurd (congrArg List.length h) (by simp)

variable {records : List DirectoryRecord} {value : String} {entity : String} {r : Resolved}
  {recipients : List String}

theorem recordsNamed_eq_singleton {record : DirectoryRecord} :
    recordsNamed env records value 2 = [record] ↔ matching env records value = [record] := by
  have hperm : ((sortBy (·.recordKey) records).filter fun r => r.name.any fun name =>
      env.nameLike (env.lower value) name).Perm (matching env records value) :=
    (List.perm_insertionSort _ records).filter _
  rw [recordsNamed, take_two_eq_singleton]
  constructor
  · intro h
    exact List.perm_singleton.mp ((h ▸ hperm).symm)
  · intro h
    exact List.perm_singleton.mp (h ▸ hperm)

/-- **By name** only the address of the one record that matches. -/
theorem byName_eq_some : byName env entity records value = some r ↔
      ∃ record, matching env records value = [record] ∧ entry env entity record = some r := by
  rw [byName]
  split
  case h_1 record hone =>
    have hmatching := recordsNamed_eq_singleton.mp hone
    constructor
    · exact fun h => ⟨record, hmatching, h⟩
    · rintro ⟨record', hrecord', h⟩
      rw [hmatching] at hrecord'
      exact (List.cons.inj hrecord').1 ▸ h
  case h_2 hnone =>
    refine iff_of_false (fun h => by cases h) ?_
    rintro ⟨record, hrecord, -⟩
    exact hnone record (recordsNamed_eq_singleton.mpr hrecord)

theorem source_entry {record : DirectoryRecord}
    (h : entry env entity record = some r) : r.source = entity ++ "_directory" := by
  rw [entry] at h
  split at h
  · split_ifs at h
    rw [← Option.some.inj h]
  · cases h

theorem byId_ne_some
    (h : r.source ≠ entity ++ "_directory") : byId env entity records value ≠ some r := by
  intro hsome
  obtain ⟨record, -, hentry⟩ := Option.bind_eq_some_iff.mp hsome
  exact h (source_entry hentry)

theorem matching_append (records records' : List DirectoryRecord) (value : String) :
    matching env (records ++ records') value = matching env records value ++
    matching env records' value := by
  simp only [matching, List.filter_append]

theorem resolveRecipient_eq (h : '@' ∉ value.toList) : resolveRecipient env directory value =
      ((byId env "faculty" directory.faculty value).or (byName env "faculty" directory.faculty value)).or
        ((byId env "staff" directory.staff value).or (byName env "staff" directory.staff value)) := by
  rw [resolveRecipient, if_neg (by simpa using h)]
  rfl

/-- The address that one directory yields by name is that of the only match iff the other one
has none. -/
theorem only_match_iff {records others : List DirectoryRecord}
    (hboth : (directory.faculty ++ directory.staff).Perm (records ++ others))
    (h : byName env entity records value = some r) :
    (∃ record, matching env (directory.faculty ++ directory.staff) value = [record] ∧
      ∃ email ∈ record.email, r.email = env.lower email) ↔ matching env others value = [] := by
  obtain ⟨record, hrecord, hentry⟩ := byName_eq_some.mp h
  have hperm : (matching env (directory.faculty ++ directory.staff) value).Perm
      ([record] ++ matching env others value) := by
    rw [← hrecord, ← matching_append]
    exact hboth.filter _
  constructor
  · rintro ⟨record', hrecord', -⟩
    have hlength := hperm.length_eq
    rw [hrecord', List.length_append] at hlength
    exact List.length_eq_zero_iff.mp (by simpa using hlength)
  · intro hothers
    rw [hothers, List.append_nil] at hperm
    exact ⟨record, List.perm_singleton.mp hperm, entry_eq_some hentry⟩

/-- **The right person** is found iff no name is shared by the directories. -/
theorem rightPerson_iff : RightPerson env directory value ↔ Unshared env directory value := by
  refine imp_congr_right fun hat => ?_
  rw [resolveRecipient_eq hat]
  rcases hfaculty : byId env "faculty" directory.faculty value with _ | found
  · rcases hname : byName env "faculty" directory.faculty value with _ | found
    · rcases hstaff : byId env "staff" directory.staff value with _ | found
      · rcases hstaffName : byName env "staff" directory.staff value with _ | found
        · refine iff_of_true (fun r hr => ?_) fun _ => ⟨fun r hr => ?_, fun _ _ r hr => ?_⟩ <;> cases hr
        · have hiff := only_match_iff List.perm_append_comm hstaffName
          constructor
          · intro h _
            refine ⟨fun r hr => (by cases hr), fun _ _ r _ => ?_⟩
            rcases h found rfl with (hid | hid) | hone
            · cases hid
            · cases hid
            · exact hiff.mp hone
          · intro h r hr
            obtain rfl := Option.some.inj hr
            exact .inr (hiff.mpr ((h rfl).2 rfl rfl found rfl))
      · refine iff_of_true (fun r hr => .inl (.inr hr)) fun _ => ⟨fun r hr => ?_, fun _ hnone => ?_⟩
        · cases hr
        · cases hnone
    · -- the faculty is asked first, and the staff only where the faculty yields nothing
      have hiff := only_match_iff (List.Perm.refl _) hname
      have hsource : found.source ≠ "staff" ++ "_directory" := by
        obtain ⟨record, -, hentry⟩ := byName_eq_some.mp hname
        rw [source_entry hentry]
        decide
      constructor
      · intro h _
        refine ⟨fun r _ => ?_, fun hnone => (by cases hnone)⟩
        rcases h found rfl with (hid | hid) | hone
        · cases hid
        · exact absurd hid (byId_ne_some hsource)
        · exact hiff.mp hone
      · intro h r hr
        obtain rfl := Option.some.inj hr
        exact .inr (hiff.mpr ((h rfl).1 found rfl))
  · exact iff_of_true (fun r hr => .inl (.inl hr)) fun h => by cases h

/-! ## Addresses -/

theorem dedupe_spec (resolved : List Resolved) : ((dedupe resolved).map (·.email)).Nodup ∧
    ∀ address, address ∈ (dedupe resolved).map (·.email) ↔ address ∈ resolved.map (·.email) := by
  induction resolved using List.reverseRecOn with
  | nil => exact ⟨List.nodup_nil, fun _ => Iff.rfl⟩
  | append_singleton resolved item ih =>
    obtain ⟨hnodup, hmem⟩ := ih
    have hstep : dedupe (resolved ++ [item]) = if (dedupe resolved).any (·.email = item.email) then
      dedupe resolved
        else dedupe resolved ++ [item] := by
      rw [dedupe, List.foldl_append]
      rfl
    have hany : (dedupe resolved).any (·.email = item.email) = true ↔
        item.email ∈ (dedupe resolved).map (·.email) := by
      simp only [List.any_eq_true, decide_eq_true_eq, List.mem_map]
    rw [hstep]
    split_ifs with hknown
    · refine ⟨hnodup, fun address => ?_⟩
      rw [List.map_append, List.mem_append, ← hmem]
      refine ⟨Or.inl, fun h => h.elim id fun hlast => ?_⟩
      obtain rfl := List.mem_singleton.mp hlast
      exact hany.mp hknown
    · rw [List.map_append]
      refine ⟨List.nodup_append.mpr ⟨hnodup, List.nodup_singleton _, fun a ha b hb hab => ?_⟩,
        fun address => ?_⟩
      · obtain rfl := List.mem_singleton.mp hb
        subst hab
        exact hknown (hany.mpr ha)
      · rw [List.map_append, List.mem_append, List.mem_append, hmem]

theorem length_dedupe (resolved : List Resolved) :
    (dedupe resolved).length = (resolved.map (·.email)).toFinset.card := by
  obtain ⟨hnodup, hmem⟩ := dedupe_spec resolved
  rw [← List.length_map (·.email), ← List.toFinset_card_of_nodup hnodup]
  congr 1
  ext address
  rw [List.mem_toFinset, List.mem_toFinset, hmem]

theorem addressed_eq (recipients : List String) : addressed env directory recipients =
    ((dedupe ((values env recipients).filterMap (resolveRecipient env directory))).map (·.email)).take
    25 :=
  List.map_take

theorem mem_requested {address : String} : address ∈ requested env directory recipients ↔
      ∃ value ∈ values env recipients, ∃ r, resolveRecipient env directory value = some r ∧
      r.email = address := by
  simp only [requested, List.mem_map, List.mem_filterMap]
  constructor
  · rintro ⟨r, ⟨value, hvalue, hr⟩, rfl⟩
    exact ⟨value, hvalue, r, hr, rfl⟩
  · rintro ⟨value, hvalue, r, hr, rfl⟩
    exact ⟨r, ⟨value, hvalue, hr⟩, rfl⟩

theorem requested_subset_iff : requested env directory recipients ⊆ addressed env directory recipients ↔
      (requested env directory recipients).toFinset.card ≤ 25 := by
  obtain ⟨hnodup, hmem⟩ := dedupe_spec
    ((values env recipients).filterMap (resolveRecipient env directory))
  rw [requested, ← length_dedupe, addressed_eq]
  generalize hkept : dedupe ((values env recipients).filterMap (resolveRecipient env directory)) =
      kept at *
  constructor
  · intro h
    have hall : kept.map (·.email) ⊆ (kept.map (·.email)).take 25 := fun a ha => h ((hmem a).mp ha)
    have hlength := (hnodup.subperm hall).length_le
    rw [List.length_take, List.length_map] at hlength
    omega
  · intro h a ha
    rw [List.take_of_length_le (by rwa [List.length_map])]
    exact (hmem a).mpr ha

theorem mem_unresolved : value ∈ (resolveRecipients env directory recipients).2 ↔
      value ∈ values env recipients ∧ resolveRecipient env directory value = none := by
  rw [resolveRecipients, List.mem_filter, Option.isNone_iff_eq_none]

theorem conserved_iff : (∀ value ∈ values env recipients,
      (∃ r, resolveRecipient env directory value = some r ∧
        r.email ∈ addressed env directory recipients) ∨
        value ∈ (resolveRecipients env directory recipients).2) ↔
      requested env directory recipients ⊆ addressed env directory recipients := by
  constructor
  · intro h address haddress
    obtain ⟨value, hvalue, r, hr, rfl⟩ := mem_requested.mp haddress
    rcases h value hvalue with ⟨r', hr', hmem⟩ | hunresolved
    · exact Option.some.inj (hr.symm.trans hr') ▸ hmem
    · exact absurd ((mem_unresolved.mp hunresolved).2.symm.trans hr) (by simp)
  · intro h value hvalue
    rcases hr : resolveRecipient env directory value with _ | r
    · exact .inr (mem_unresolved.mpr ⟨hvalue, hr⟩)
    · exact .inl ⟨r, rfl, h (mem_requested.mpr ⟨value, hvalue, r, hr, rfl⟩)⟩

/-- **Every recipient is accounted for, and is the right person**, iff no name that one directory yields
an address for is also in the other, and at most 25 different addresses are asked for. -/
theorem resolve_accounts_iff (env : MailEnv) (directory : Directory) (recipients : List String) :
    Accounted env directory recipients ↔
      (∀ value ∈ values env recipients, Unshared env directory value) ∧
        (requested env directory recipients).toFinset.card ≤ 25 := by
  have hdistinct : (addressed env directory recipients).Nodup := by
    rw [addressed_eq]
    exact (dedupe_spec _).1.sublist (List.take_sublist _ _)
  rw [← requested_subset_iff, ← conserved_iff]
  constructor
  · exact fun h => ⟨fun value hvalue => rightPerson_iff.mp (h.right value hvalue), h.conserved⟩
  · exact fun h => ⟨h.2, hdistinct, fun value hvalue => rightPerson_iff.mpr (h.1 value hvalue)⟩

end

/-! ## A shared name -/

def partMail : MailEnv :=
  { commaMail with
    nameLike := fun part name =>
      (commaMail.lower name).toList.tails.any fun rest => part.toList.isPrefixOf rest }

/-- A teacher and a member of staff with the same first name. -/
def namesakes : Directory where
  faculty := [⟨"fac-1", some "Meena Rao", some "rao@abc.edu.in"⟩]
  staff := [⟨"stf-1", some "Meena Das", some "das@abc.edu.in"⟩]
  emailDomains := []
  allowedDomains := ["abc.edu.in"]

/-- The mail to Meena goes to the teacher, and nobody is told that there are two. -/
theorem wrong_namesake : ¬Accounted partMail namesakes ["Meena"] := by
  intro h
  have hright := h.right "Meena" (by decide) (by decide)
    ⟨"rao@abc.edu.in", some "Meena Rao", "faculty_directory"⟩ (by decide)
  rcases hright with (hid | hid) | ⟨record, hone, -⟩
  · exact absurd hid (by decide)
  · exact absurd hid (by decide)
  · have htwo : (matching partMail (namesakes.faculty ++ namesakes.staff) "Meena").length = 2 := by
      decide
    rw [hone] at htwo
    cases htwo

end GuruJi.Actions
