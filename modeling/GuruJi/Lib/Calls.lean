import GuruJi.Lib.Machine
import Mathlib.Algebra.BigOperators.Group.List.Basic
import Mathlib.Algebra.GroupWithZero.Nat

/-!
# Interleaved calls

Any number of calls on one database, each a sequence of atomic statements: between two statements of
a call, the others may take theirs. A call is its operation and the phase it is in; `advance` is its
next statement, `none` when it has returned. What a database leaves open about the answer is a choice
of the schedule.

Accounts of what calls have won: the database has a supply, and a call holds what it has taken of it.

* `Pool.spends`: if no statement makes something of nothing, then what all calls hold and what is left
  is at most what there was and what the calls that were started brought with them;
* `Pool.saves`: if no statement loses anything, then it is at least what there was;
* `Pool.each`: what each call knows of the database, while the others go on.
-/

namespace GuruJi.Lib

variable {D O F Ω : Type*}

structure Pool (D O F : Type*) where
  db : D
  calls : List (O × F)
  deriving DecidableEq

/-- A turn of the schedule. -/
inductive Turn (O Ω : Type*) where
  | start (op : O)
  | advance (i : Nat) (choice : Ω)

def Turn.started : Turn O Ω → Option O
  | .start op => some op
  | .advance _ _ => none

def startedBy (turns : List (Turn O Ω)) : List O := turns.filterMap Turn.started

/-- Calls on one database, each statement of one between any statements of the others. -/
def interleaved (ready : F) (advance : Ω → O → F → D → Option (F × D)) :
    Machine (Pool D O F) (Turn O Ω) where
  init pool := pool.calls = []
  step pool
    | .start op => some { pool with calls := pool.calls ++ [(op, ready)] }
    | .advance i choice =>
      match pool.calls[i]? with
      | some (op, phase) => (advance choice op phase pool.db).map fun out =>
          ⟨out.2, pool.calls.set i (op, out.1)⟩
      | none => none

namespace Pool
open Machine

variable {ready : F} {advance : Ω → O → F → D → Option (F × D)} {pool pool' : Pool D O F}
  {turns : List (Turn O Ω)} {ok : Pool D O F → Turn O Ω → Prop}

theorem step_cases {turn : Turn O Ω} (h : (interleaved ready advance).step pool turn = some pool') :
    (∃ op, turn = .start op ∧ pool' = { pool with calls := pool.calls ++ [(op, ready)] }) ∨
      ∃ i choice op phase phase' db', turn = .advance i choice ∧ pool.calls[i]? = some (op, phase) ∧
        advance choice op phase pool.db = some (phase', db') ∧
        pool' = ⟨db', pool.calls.set i (op, phase')⟩ := by
  cases turn with
  | start op => exact .inl ⟨op, rfl, (Option.some.inj h).symm⟩
  | advance i choice =>
    simp only [interleaved] at h
    split at h
    · rename_i op phase hcall
      obtain ⟨⟨phase', db'⟩, hadvance, rfl⟩ := Option.map_eq_some_iff.mp h
      exact .inr ⟨i, choice, op, phase, phase', db', rfl, hcall, hadvance, rfl⟩
    · cases h

def held (weight : O → F → Nat) (pool : Pool D O F) : Nat :=
  (pool.calls.map fun call => weight call.1 call.2).sum

theorem sum_map_set {α : Type*} (f : α → Nat) {l : List α} {i : Nat} {a : α} (h : l[i]? = some a)
    (b : α) : ((l.set i b).map f).sum + f a = (l.map f).sum + f b := by
  induction l generalizing i with
  | nil => cases h
  | cons c l ih =>
    cases i with
    | zero =>
      obtain rfl : c = a := Option.some.inj h
      simp only [List.set_cons_zero, List.map_cons, List.sum_cons]
      omega
    | succ i =>
      have hrest := ih (i := i) h
      simp only [List.set_cons_succ, List.map_cons, List.sum_cons]
      omega

theorem countP_le_sum {α : Type*} {p : α → Bool} {f : α → Nat} {l : List α}
    (h : ∀ a ∈ l, p a = true → 1 ≤ f a) : l.countP p ≤ (l.map f).sum := by
  induction l with
  | nil => exact Nat.le_refl _
  | cons a l ih =>
    have hrest := ih fun b hb => h b (List.mem_cons_of_mem a hb)
    have hhead := h a List.mem_cons_self
    rw [List.countP_cons, List.map_cons, List.sum_cons]
    split_ifs with hp
    · have := hhead hp
      omega
    · omega

theorem sum_le_countP {α : Type*} {p : α → Bool} {f : α → Nat} {l : List α}
    (h : ∀ a ∈ l, f a ≤ if p a then 1 else 0) : (l.map f).sum ≤ l.countP p := by
  induction l with
  | nil => exact Nat.le_refl _
  | cons a l ih =>
    have hrest := ih fun b hb => h b (List.mem_cons_of_mem a hb)
    have hhead := h a List.mem_cons_self
    rw [List.countP_cons, List.map_cons, List.sum_cons]
    omega

theorem held_start (weight : O → F → Nat) (pool : Pool D O F) (op : O) :
    held weight { pool with calls := pool.calls ++ [(op, ready)] } =
    pool.held weight + weight op ready := by
  simp [held]

theorem held_advance (weight : O → F → Nat) {i : Nat} {op : O} {phase : F}
    (hcall : pool.calls[i]? = some (op, phase)) (db' : D) (phase' : F) :
    held weight ⟨db', pool.calls.set i (op, phase')⟩ + weight op phase =
      pool.held weight + weight op phase' :=
  sum_map_set (fun call : O × F => weight call.1 call.2) hcall (op, phase')

section
variable {Admit : O → Prop} {Holds : D → Prop} {supply : D → Nat} {weight : O → F → Nat}

/-- What holds of the operations of all calls, and of those that are started, goes on to hold. -/
theorem admitted_step {turn : Turn O Ω} (h : (interleaved ready advance).step pool turn = some pool')
    (hcalls : ∀ call ∈ pool.calls, Admit call.1) (hturn : ∀ op ∈ turn.started, Admit op) :
    ∀ call ∈ pool'.calls, Admit call.1 := by
  rcases step_cases h with ⟨op, rfl, rfl⟩ | ⟨i, choice, op, phase, phase', db', -, hcall, -, rfl⟩
  · intro call hmem
    rcases List.mem_append.mp hmem with hmem | hmem
    · exact hcalls call hmem
    · rw [List.mem_singleton.mp hmem]
      exact hturn op rfl
  · intro call hmem
    rcases List.mem_or_eq_of_mem_set hmem with hmem | rfl
    · exact hcalls call hmem
    · exact hcalls (op, phase) (List.mem_of_getElem? hcall)

theorem startedBy_cons (turn : Turn O Ω) (turns : List (Turn O Ω)) :
    startedBy (turn :: turns) = turn.started.toList ++ startedBy turns := by
  cases turn <;> rfl

/-- **What is won was there**: the supply and what the started calls brought. -/
theorem spends (Admit : O → Prop) (Holds : D → Prop) (supply : D → Nat) (weight : O → F → Nat)
    (price : O → Nat) (hready : ∀ op, Admit op → weight op ready ≤ price op)
    (hkeeps : ∀ choice op phase db phase' db', Admit op → Holds db →
      advance choice op phase db = some (phase', db') → Holds db')
    (hstep : ∀ choice op phase db phase' db', Admit op → Holds db →
      advance choice op phase db = some (phase', db') →
        supply db' + weight op phase' ≤ supply db + weight op phase)
    (hrun : (interleaved ready advance).Run ok pool turns pool')
    (hcalls : ∀ call ∈ pool.calls, Admit call.1) (hstarted : ∀ op ∈ startedBy turns, Admit op)
    (hholds : Holds pool.db) :
    supply pool'.db + pool'.held weight ≤
      supply pool.db + pool.held weight + ((startedBy turns).map price).sum := by
  induction hrun with
  | nil pool => simp
  | @cons pool next _ turn turns _ hturn _ ih =>
    rw [startedBy_cons] at hstarted ⊢
    have hadmitted := admitted_step hturn hcalls fun op hop =>
      hstarted op (List.mem_append_left _ (by simpa using hop))
    have hlater : ∀ op ∈ startedBy turns, Admit op :=
      fun op hop => hstarted op (List.mem_append_right _ hop)
    rw [List.map_append, List.sum_append]
    rcases step_cases hturn with ⟨op, rfl, rfl⟩ | ⟨i, choice, op, phase, phase', db', rfl, hcall,
      hadvance, rfl⟩
    · have hnext := ih hadmitted hlater hholds
      have hprice := hready op (hstarted op (by simp [Turn.started]))
      rw [held_start] at hnext
      simp only [Turn.started, Option.toList_some, List.map_cons, List.map_nil, List.sum_cons,
        List.sum_nil] at hnext ⊢
      omega
    · have hop := hcalls _ (List.mem_of_getElem? hcall)
      have hpaid := hstep choice op phase pool.db phase' db' hop hholds hadvance
      have hnext := ih hadmitted hlater (hkeeps choice op phase pool.db phase' db' hop hholds hadvance)
      have hset := held_advance weight hcall db' phase'
      simp only [Turn.started, Option.toList_none, List.map_nil, List.sum_nil] at hnext ⊢
      omega

/-- **What was there is won or left**, if no statement loses anything. -/
theorem saves (Admit : O → Prop) (Holds : D → Prop) (supply : D → Nat) (weight : O → F → Nat)
    (hkeeps : ∀ choice op phase db phase' db', Admit op → Holds db →
      advance choice op phase db = some (phase', db') → Holds db')
    (hstep : ∀ choice op phase db phase' db', Admit op → Holds db →
      advance choice op phase db = some (phase', db') →
        supply db + weight op phase ≤ supply db' + weight op phase')
    (hrun : (interleaved ready advance).Run ok pool turns pool')
    (hcalls : ∀ call ∈ pool.calls, Admit call.1) (hstarted : ∀ op ∈ startedBy turns, Admit op)
    (hholds : Holds pool.db) :
    supply pool.db + pool.held weight ≤ supply pool'.db + pool'.held weight := by
  induction hrun with
  | nil pool => exact Nat.le_refl _
  | @cons pool next _ turn turns _ hturn _ ih =>
    rw [startedBy_cons] at hstarted
    have hadmitted := admitted_step hturn hcalls fun op hop =>
      hstarted op (List.mem_append_left _ (by simpa using hop))
    have hlater : ∀ op ∈ startedBy turns, Admit op :=
      fun op hop => hstarted op (List.mem_append_right _ hop)
    rcases step_cases hturn with ⟨op, rfl, rfl⟩ | ⟨i, choice, op, phase, phase', db', rfl, hcall,
      hadvance, rfl⟩
    · have hnext := ih hadmitted hlater hholds
      rw [held_start] at hnext
      simp only at hnext
      omega
    · have hop := hcalls _ (List.mem_of_getElem? hcall)
      have hpaid := hstep choice op phase pool.db phase' db' hop hholds hadvance
      have hnext := ih hadmitted hlater (hkeeps choice op phase pool.db phase' db' hop hholds hadvance)
      have hset := held_advance weight hcall db' phase'
      simp only at hnext
      omega

/-- **What each call knows of the database**: it holds of a call when it is started, its own statements
keep it and so do those of the others. -/
theorem each {P : D → O → F → Prop} (hready : ∀ db op, Admit op → P db op ready)
    (hkeeps : ∀ choice op phase db phase' db', Admit op → Holds db →
      advance choice op phase db = some (phase', db') → Holds db')
    (hown : ∀ choice op phase db phase' db', Admit op → Holds db →
      advance choice op phase db = some (phase', db') → P db op phase → P db' op phase')
    (hothers : ∀ choice op phase db phase' db', Admit op → Holds db →
      advance choice op phase db = some (phase', db') →
        ∀ other otherPhase, P db other otherPhase → P db' other otherPhase)
    (hrun : (interleaved ready advance).Run ok pool turns pool')
    (hcalls : ∀ call ∈ pool.calls, Admit call.1) (hstarted : ∀ op ∈ startedBy turns, Admit op)
    (hholds : Holds pool.db) (hP : ∀ call ∈ pool.calls, P pool.db call.1 call.2) :
    ∀ call ∈ pool'.calls, P pool'.db call.1 call.2 := by
  induction hrun with
  | nil pool => exact hP
  | @cons pool next _ turn turns _ hturn _ ih =>
    rw [startedBy_cons] at hstarted
    have hadmitted := admitted_step hturn hcalls fun op hop =>
      hstarted op (List.mem_append_left _ (by simpa using hop))
    have hlater : ∀ op ∈ startedBy turns, Admit op :=
      fun op hop => hstarted op (List.mem_append_right _ hop)
    rcases step_cases hturn with ⟨op, rfl, rfl⟩ | ⟨i, choice, op, phase, phase', db', rfl, hcall,
      hadvance, rfl⟩
    · refine ih hadmitted hlater hholds fun call hmem => ?_
      rcases List.mem_append.mp hmem with hmem | hmem
      · exact hP call hmem
      · rw [List.mem_singleton.mp hmem]
        exact hready pool.db op (hstarted op (by simp [Turn.started]))
    · have hmem := List.mem_of_getElem? hcall
      have hop := hcalls _ hmem
      refine ih hadmitted hlater (hkeeps choice op phase pool.db phase' db' hop hholds hadvance) ?_
      intro call hcall'
      rcases List.mem_or_eq_of_mem_set hcall' with hcall' | rfl
      · exact hothers choice op phase pool.db phase' db' hop hholds hadvance _ _ (hP call hcall')
      · exact hown choice op phase pool.db phase' db' hop hholds hadvance (hP _ hmem)

end

end Pool

end GuruJi.Lib
