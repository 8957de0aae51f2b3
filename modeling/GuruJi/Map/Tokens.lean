import GuruJi.Crawl.Fetch

/-!
# Ownership tokens

An institution proves a domain with a token that is keyed to the institution, the domain, and how often
its tokens were rotated and the domain was lost. The four are joined with `:` before they are hashed, and
nothing keeps the institution and the domain from having one.

* `ownershipMessage_eq_iff`: the messages of two proofs are equal only if the proofs are, or one reads
  into its institution or its domain what the other has after it;
* **`token_proves_iff`**: two proofs with one token are one proof iff neither is read into the other;
* `token_reused`: an IPv6 domain after a rotation and another one before any, and two institutions.
-/

namespace GuruJi.Map

open GuruJi.Lib
open GuruJi.Crawl (withoutWww)

/-- How Python reads a host: its white space and its small letters. -/
structure HostText where
  isSpace : Char → Bool
  lower : String → String

/-- What a token is for. -/
structure Ownership where
  institutionId : String
  host : String
  epoch : Nat
  generation : Nat
  deriving DecidableEq

section
variable (u : HostText)

/-- `domain`. -/
def Ownership.domain (o : Ownership) : String := withoutWww (u.lower (strip u.isSpace o.host))

/-- The counters of a proof, each when it is not zero. -/
def counters (epoch generation : Nat) : String :=
  (if epoch ≠ 0 then ":" ++ Nat.repr epoch else "") ++
    (if generation ≠ 0 then ":g" ++ Nat.repr generation else "")

/-- `message`. -/
def ownershipMessage (o : Ownership) : String :=
  "ownership:" ++ o.institutionId ++ ":" ++ o.domain u ++ counters o.epoch o.generation

/-- `verification_token`, with the keyed hash as the hexadecimal text of a message. -/
def verificationToken (hexdigest : String → String) (o : Ownership) : String :=
  "gj-" ++ upTo 32 (hexdigest (ownershipMessage u o))

/-- Two proofs are of one domain of one institution at one time. -/
structure Ownership.Same (o o' : Ownership) : Prop where
  institution : o.institutionId = o'.institutionId
  domain : o.domain u = o'.domain u
  epoch : o.epoch = o'.epoch
  generation : o.generation = o'.generation

/-- The second proof reads counters of the first into its domain. -/
def Ownership.DomainTakes (o o' : Ownership) : Prop :=
  o'.institutionId = o.institutionId ∧ o'.domain u ≠ o.domain u ∧ o'.epoch = 0 ∧
    (o'.generation = 0 ∧ o'.domain u = o.domain u ++ counters o.epoch o.generation ∨
      o'.generation = o.generation ∧ o'.domain u = o.domain u ++ counters o.epoch 0)

/-- The second proof reads some of what follows the institution of the first into its own. -/
def Ownership.InstitutionTakes (o o' : Ownership) : Prop :=
  ∃ taken, o'.institutionId = o.institutionId ++ ":" ++ taken ∧
    o.domain u ++ counters o.epoch o.generation =
      taken ++ ":" ++ o'.domain u ++ counters o'.epoch o'.generation

def Ownership.Takes (o o' : Ownership) : Prop := o.DomainTakes u o' ∨ o.InstitutionTakes u o'

end

/-! ## Counters -/

theorem colon_not_mem_repr (n : Nat) : ':' ∉ (Nat.repr n).toList := by
  intro h
  rw [Nat.repr, String.toList_ofList] at h
  have hdigit := Nat.isDigit_of_mem_toDigits (by omega) (by omega) h
  cases hdigit

theorem g_not_mem_repr (n : Nat) : 'g' ∉ (Nat.repr n).toList := by
  intro h
  rw [Nat.repr, String.toList_ofList] at h
  have hdigit := Nat.isDigit_of_mem_toDigits (by omega) (by omega) h
  cases hdigit

theorem repr_inj {m n : Nat} (h : (Nat.repr m).toList = (Nat.repr n).toList) : m = n := by
  rw [Nat.repr, Nat.repr, String.toList_ofList, String.toList_ofList] at h
  have hvalue := congrArg (fun ds => Nat.ofDigitChars 10 ds 0) h
  simpa using hvalue

theorem last_unique {α : Type*} {c : α} {a a' b b' : List α} (hb : c ∉ b) (hb' : c ∉ b')
    (h : a ++ c :: b = a' ++ c :: b') : a = a' ∧ b = b' := by
  rcases List.append_eq_append_iff.mp h with ⟨x, rfl, hx⟩ | ⟨x, rfl, hx⟩
  · rcases x with _ | ⟨d, x⟩
    · exact ⟨(List.append_nil a).symm, (List.cons.inj hx).2⟩
    · obtain ⟨rfl, rfl⟩ := List.cons.inj hx
      exact absurd (List.mem_append_right x List.mem_cons_self) hb
  · rcases x with _ | ⟨d, x⟩
    · exact ⟨List.append_nil a', (List.cons.inj hx).2.symm⟩
    · obtain ⟨rfl, rfl⟩ := List.cons.inj hx
      exact absurd (List.mem_append_right x List.mem_cons_self) hb'

theorem toList_counters (epoch generation : Nat) : (counters epoch generation).toList =
    (if epoch ≠ 0 then ':' :: (Nat.repr epoch).toList else []) ++
      (if generation ≠ 0 then ':' :: ('g' :: (Nat.repr generation).toList) else []) := by
  have hcolon : (":" ++ Nat.repr epoch).toList = ':' :: (Nat.repr epoch).toList := String.toList_append
  have hg : (":g" ++ Nat.repr generation).toList = ':' :: ('g' :: (Nat.repr generation).toList) :=
    String.toList_append
  rw [counters, String.toList_append, apply_ite String.toList, apply_ite String.toList, hcolon, hg]
  rfl

/-- Counters that end with others: they are these, or these are the second of them or none. -/
theorem counters_split {epoch generation epoch' generation' : Nat} {u : List Char}
    (h : (counters epoch generation).toList = u ++ (counters epoch' generation').toList) :
    epoch' = epoch ∧ generation' = generation ∧ u = [] ∨
      epoch' = 0 ∧ (generation' = 0 ∧ u = (counters epoch generation).toList ∨
        generation' = generation ∧ u = (counters epoch 0).toList) := by
  have hg : ∀ n, ':' ∉ 'g' :: (Nat.repr n).toList := by
    intro n hmem
    rcases List.mem_cons.mp hmem with hmem | hmem
    · cases hmem
    · exact colon_not_mem_repr n hmem
  have hne : ∀ m n, (Nat.repr m).toList ≠ 'g' :: (Nat.repr n).toList := by
    intro m n heq
    exact g_not_mem_repr m (heq ▸ List.mem_cons_self)
  by_cases hgeneration' : generation' = 0
  · by_cases hepoch' : epoch' = 0
    · subst hgeneration' hepoch'
      refine .inr ⟨rfl, .inl ⟨rfl, ?_⟩⟩
      rw [h]
      exact (List.append_nil u).symm
    · -- The last counter of the second is its epoch.
      rw [toList_counters, toList_counters, if_pos hepoch', if_neg (not_not.mpr hgeneration'),
        List.append_nil] at h
      by_cases hgeneration : generation = 0
      · by_cases hepoch : epoch = 0
        · simp [hgeneration, hepoch] at h
        · rw [if_pos hepoch, if_neg (not_not.mpr hgeneration), List.append_nil,
            ← List.nil_append (':' :: _)] at h
          obtain ⟨hu, he⟩ := last_unique (colon_not_mem_repr _) (colon_not_mem_repr _) h
          exact .inl ⟨(repr_inj he).symm, by rw [hgeneration, hgeneration'], hu.symm⟩
      · rw [if_pos hgeneration] at h
        exact absurd (last_unique (hg _) (colon_not_mem_repr _) h).2.symm (hne _ _)
  · -- The last counter of the second is its generation.
    rw [toList_counters, toList_counters, if_pos hgeneration', ← List.append_assoc] at h
    by_cases hgeneration : generation = 0
    · rw [if_neg (not_not.mpr hgeneration), List.append_nil] at h
      by_cases hepoch : epoch = 0
      · simp [hepoch] at h
      · rw [if_pos hepoch, ← List.nil_append (':' :: (Nat.repr epoch).toList)] at h
        exact absurd (last_unique (colon_not_mem_repr _) (hg _) h).2 (hne _ _)
    · rw [if_pos hgeneration] at h
      obtain ⟨hfirst, hlast⟩ := last_unique (hg _) (hg _) h
      have hsame : generation' = generation := (repr_inj (List.cons.inj hlast).2).symm
      by_cases hepoch' : epoch' = 0
      · refine .inr ⟨hepoch', .inr ⟨hsame, ?_⟩⟩
        rw [if_neg (not_not.mpr hepoch'), List.append_nil] at hfirst
        rw [toList_counters, ← hfirst]
        simp
      · rw [if_pos hepoch'] at hfirst
        by_cases hepoch : epoch = 0
        · simp [hepoch] at hfirst
        · rw [if_pos hepoch, ← List.nil_append (':' :: (Nat.repr epoch).toList)] at hfirst
          obtain ⟨hu, he⟩ := last_unique (colon_not_mem_repr _) (colon_not_mem_repr _) hfirst
          exact .inl ⟨(repr_inj he).symm, hsame, hu.symm⟩

/-! ## Messages -/

section
variable {u : HostText} {o o' : Ownership}

theorem counters_zero : counters 0 0 = "" := rfl

theorem toList_message (o : Ownership) : (ownershipMessage u o).toList =
    "ownership:".toList ++ (o.institutionId.toList ++
      ':' :: ((o.domain u).toList ++ (counters o.epoch o.generation).toList)) := by
  have hcolon : ":".toList = [':'] := rfl
  simp only [ownershipMessage, String.toList_append, hcolon]
  simp

theorem message_eq_iff : ownershipMessage u o = ownershipMessage u o' ↔
    o.institutionId.toList ++ ':' :: ((o.domain u).toList ++ (counters o.epoch o.generation).toList) =
      o'.institutionId.toList ++
        ':' :: ((o'.domain u).toList ++ (counters o'.epoch o'.generation).toList) := by
  rw [← String.toList_inj, toList_message, toList_message, List.append_cancel_left_eq]

theorem message_of_takes (h : o.Takes u o') : ownershipMessage u o = ownershipMessage u o' := by
  rcases h with ⟨hinstitution, -, hepoch, hrest⟩ | ⟨taken, hinstitution, hrest⟩
  · rcases hrest with ⟨hgeneration, hdomain⟩ | ⟨hgeneration, hdomain⟩
    · rw [ownershipMessage, ownershipMessage, hinstitution, hepoch, hgeneration, hdomain, counters_zero,
        String.append_empty, String.append_assoc]
    · have hcounters : counters o.epoch o.generation = counters o.epoch 0 ++ counters 0 o.generation := by
        simp [counters]
      rw [ownershipMessage, ownershipMessage, hinstitution, hepoch, hgeneration, hdomain, hcounters]
      simp only [String.append_assoc]
  · rw [ownershipMessage, ownershipMessage, hinstitution, String.append_assoc, hrest]
    simp only [String.append_assoc]

theorem not_same_of_takes (h : o.Takes u o') : ¬o.Same u o' := by
  rintro ⟨hinstitution, hdomain, -, -⟩
  rcases h with ⟨-, hne, -, -⟩ | ⟨taken, htaken, -⟩
  · exact hne hdomain.symm
  · have hlength := congrArg (fun text => text.toList.length) (hinstitution.trans htaken)
    simp at hlength

/-- Of two different proofs of an institution with one message, the domain of one takes counters of the
other. -/
theorem domainTakes_of_eq {x : List Char} (hinstitution : o'.institutionId = o.institutionId)
    (hdomain : (o'.domain u).toList = (o.domain u).toList ++ x)
    (hcounters : (counters o.epoch o.generation).toList = x ++ (counters o'.epoch o'.generation).toList) :
    o.Same u o' ∨ o.DomainTakes u o' := by
  by_cases hsame : o'.domain u = o.domain u
  · left
    have hx : x = [] := by simpa [hsame] using hdomain
    rcases counters_split hcounters with ⟨he, hg, -⟩ | ⟨he, ⟨hg, hempty⟩ | ⟨hg, hempty⟩⟩
    · exact ⟨hinstitution.symm, hsame.symm, he.symm, hg.symm⟩
    · rw [hx, toList_counters] at hempty
      obtain ⟨hfirst, hlast⟩ := List.append_eq_nil_iff.mp hempty.symm
      have hepoch : o.epoch = 0 := by
        by_contra hne
        simp [hne] at hfirst
      have hgeneration : o.generation = 0 := by
        by_contra hne
        simp [hne] at hlast
      exact ⟨hinstitution.symm, hsame.symm, by rw [hepoch, he], by rw [hgeneration, hg]⟩
    · rw [hx, toList_counters] at hempty
      have hepoch : o.epoch = 0 := by
        by_contra hne
        simp [hne] at hempty
      exact ⟨hinstitution.symm, hsame.symm, by rw [hepoch, he], hg.symm⟩
  · right
    rcases counters_split hcounters with ⟨-, -, rfl⟩ | ⟨he, ⟨hg, rfl⟩ | ⟨hg, rfl⟩⟩
    · rw [List.append_nil] at hdomain
      exact absurd (String.toList_inj.mp hdomain) hsame
    · refine ⟨hinstitution, hsame, he, .inl ⟨hg, ?_⟩⟩
      rw [← String.toList_inj, hdomain, String.toList_append]
    · refine ⟨hinstitution, hsame, he, .inr ⟨hg, ?_⟩⟩
      rw [← String.toList_inj, hdomain, String.toList_append]

/-- The longer institution of two proofs with one message takes what follows the other. -/
theorem institutionTakes_of_eq {x : List Char}
    (hinstitution : o'.institutionId.toList = o.institutionId.toList ++ ':' :: x)
    (hrest : (o.domain u).toList ++ (counters o.epoch o.generation).toList =
      x ++ ':' :: ((o'.domain u).toList ++ (counters o'.epoch o'.generation).toList)) :
    o.InstitutionTakes u o' := by
  have hcolon : ":".toList = [':'] := rfl
  refine ⟨String.ofList x, ?_, ?_⟩
  · rw [← String.toList_inj, hinstitution]
    simp only [String.toList_append, String.toList_ofList, hcolon]
    simp
  · rw [← String.toList_inj]
    simp only [String.toList_append, String.toList_ofList, hcolon]
    rw [hrest]
    simp

theorem Ownership.Same.symm (h : o.Same u o') : o'.Same u o :=
  ⟨h.institution.symm, h.domain.symm, h.epoch.symm, h.generation.symm⟩

theorem same_or_takes (hinstitution : o.institutionId = o'.institutionId)
    (h : (o.domain u).toList ++ (counters o.epoch o.generation).toList =
      (o'.domain u).toList ++ (counters o'.epoch o'.generation).toList) :
    o.Same u o' ∨ o.Takes u o' ∨ o'.Takes u o := by
  rcases List.append_eq_append_iff.mp h with ⟨x, hdomain, hcounters⟩ | ⟨x, hdomain, hcounters⟩
  · rcases domainTakes_of_eq hinstitution.symm hdomain hcounters with hsame | htakes
    · exact .inl hsame
    · exact .inr (.inl (.inl htakes))
  · rcases domainTakes_of_eq hinstitution hdomain hcounters with hsame | htakes
    · exact .inl hsame.symm
    · exact .inr (.inr (.inl htakes))

/-- **Two proofs have one message** iff they are the same or one is read into the other. -/
theorem ownershipMessage_eq_iff : ownershipMessage u o = ownershipMessage u o' ↔
    o.Same u o' ∨ o.Takes u o' ∨ o'.Takes u o := by
  constructor
  · intro h
    rcases List.append_eq_append_iff.mp (message_eq_iff.mp h) with ⟨x, hinst, hx⟩ | ⟨x, hinst, hx⟩
    · rcases x with _ | ⟨c, x⟩
      · rw [List.append_nil] at hinst
        exact same_or_takes (String.toList_inj.mp hinst.symm) (List.cons.inj hx).2
      · obtain ⟨rfl, hrest⟩ := List.cons.inj hx
        exact .inr (.inl (.inr (institutionTakes_of_eq hinst hrest)))
    · rcases x with _ | ⟨c, x⟩
      · rw [List.append_nil] at hinst
        exact same_or_takes (String.toList_inj.mp hinst) (List.cons.inj hx).2.symm
      · obtain ⟨rfl, hrest⟩ := List.cons.inj hx
        exact .inr (.inr (.inr (institutionTakes_of_eq hinst hrest)))
  · rintro (⟨hinstitution, hdomain, hepoch, hgeneration⟩ | h | h)
    · rw [ownershipMessage, ownershipMessage, hinstitution, hdomain, hepoch, hgeneration]
    · exact message_of_takes h
    · exact (message_of_takes h).symm

/-! ## Tokens -/

variable {hexdigest : String → String}

/-- **A token belongs to one proof** iff none of two proofs is read into the other, if the hash tells
their messages apart. -/
theorem token_proves_iff (hfree : upTo 32 (hexdigest (ownershipMessage u o)) =
    upTo 32 (hexdigest (ownershipMessage u o')) → ownershipMessage u o = ownershipMessage u o') :
    (verificationToken u hexdigest o = verificationToken u hexdigest o' → o.Same u o') ↔
      ¬o.Takes u o' ∧ ¬o'.Takes u o := by
  constructor
  · intro h
    refine ⟨fun htakes => ?_, fun htakes => ?_⟩
    · refine not_same_of_takes htakes (h ?_)
      rw [verificationToken, verificationToken, message_of_takes htakes]
    · refine not_same_of_takes htakes (h ?_).symm
      rw [verificationToken, verificationToken, message_of_takes htakes]
  · rintro ⟨hnot, hnot'⟩ htoken
    have hdigest := (String.append_right_inj "gj-").mp htoken
    rcases ownershipMessage_eq_iff.mp (hfree hdigest) with hsame | htakes | htakes
    · exact hsame
    · exact absurd htakes hnot
    · exact absurd htakes hnot'

end

/-! ## Tokens that are used again -/

def plainHosts : HostText := ⟨fun c => c = ' ', id⟩

/-- A college proves its domain before any rotation, and after one. -/
def collegeProof (epoch : Nat) : Ownership := ⟨"college", "www.college.in", epoch, 0⟩

def sampleDigest (message : String) : String :=
  if message = "ownership:college:college.in" then
    "9b1c7f2e5d80a4c36e0f1b92d7a85c43f6e21d0b7c94a85e3f10d6b2c7e9a481"
  else "04ad53c1f7e29b806d3c5a1e8f72b4d90c6e1a5b3f8d7042e9c1b6a5d4f3027e"

theorem token_proves_iff_college :
    (verificationToken plainHosts sampleDigest (collegeProof 0) =
        verificationToken plainHosts sampleDigest (collegeProof 1) →
      (collegeProof 0).Same plainHosts (collegeProof 1)) ↔
      ¬(collegeProof 0).Takes plainHosts (collegeProof 1) ∧
        ¬(collegeProof 1).Takes plainHosts (collegeProof 0) := by
  refine token_proves_iff fun h => ?_
  have hzero : ownershipMessage plainHosts (collegeProof 0) = "ownership:college:college.in" := by
    decide
  have hone : ownershipMessage plainHosts (collegeProof 1) = "ownership:college:college.in:1" := by
    decide
  rw [hzero, hone] at h
  exact absurd h (by decide)

/-- Whatever the hash, an IPv6 domain has after two rotations the token that another one of the same
institution had before any, and two institutions share one. -/
theorem token_reused :
    ((∀ hexdigest, verificationToken plainHosts hexdigest ⟨"college", "2001:db8::1", 2, 0⟩ =
        verificationToken plainHosts hexdigest ⟨"college", "2001:db8::1:2", 0, 0⟩) ∧
      ¬(⟨"college", "2001:db8::1", 2, 0⟩ : Ownership).Same plainHosts
        ⟨"college", "2001:db8::1:2", 0, 0⟩) ∧
    (∀ hexdigest, verificationToken plainHosts hexdigest ⟨"college", "2001:db8::1", 0, 0⟩ =
        verificationToken plainHosts hexdigest ⟨"college:2001", "db8::1", 0, 0⟩) ∧
      ¬(⟨"college", "2001:db8::1", 0, 0⟩ : Ownership).Same plainHosts
        ⟨"college:2001", "db8::1", 0, 0⟩ := by
  have hdomain : ownershipMessage plainHosts ⟨"college", "2001:db8::1", 2, 0⟩ =
      ownershipMessage plainHosts ⟨"college", "2001:db8::1:2", 0, 0⟩ := by decide
  have hinstitution : ownershipMessage plainHosts ⟨"college", "2001:db8::1", 0, 0⟩ =
      ownershipMessage plainHosts ⟨"college:2001", "db8::1", 0, 0⟩ := by decide
  refine ⟨⟨fun hexdigest => ?_, fun h => ?_⟩, fun hexdigest => ?_, fun h => ?_⟩
  · rw [verificationToken, verificationToken, hdomain]
  · exact absurd h.epoch (by decide)
  · rw [verificationToken, verificationToken, hinstitution]
  · exact absurd h.institution (by decide)

end GuruJi.Map
