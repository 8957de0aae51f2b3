import Mathlib.Data.List.Basic
import Mathlib.Logic.Function.Basic
import Mathlib.Tactic.Common

/-!
# Tables shared by tenants

Databases whose rows each belong to a tenant, the statements that read and write them, and
transactions made of such statements. A statement's condition is over all of a row: nothing but the
condition keeps a statement to the rows of one tenant.

* `Isolated`: a transaction answers and leaves a tenant's rows as those rows say, whatever rows the
  other tenants have, and leaves the rows of the others.
* `isolated_select`, `isolated_leftJoin`, `isolated_insert` ...: the statements that are, and why.
* `runAll_isolated`: so are sequences of isolated transactions.
-/

namespace GuruJi.Lib

/-- A row of a table, with the tenant it belongs to and its primary key. -/
structure Owned (τ κ ρ : Type) where
  tenant : τ
  id : κ
  row : ρ
  deriving DecidableEq

abbrev Database (τ κ : Type) {T : Type} (R : T → Type) := (t : T) → List (Owned τ κ (R t))

/-- A transaction; when it raises, nothing is written. -/
abbrev Transaction (τ κ : Type) {T : Type} (R : T → Type) (ε α : Type) :=
  StateT (Database τ κ R) (Except ε) α

namespace Database

variable {τ κ T ε α β : Type} {R : T → Type}

/-! ## Statements -/

section
variable [DecidableEq κ] [DecidableEq T]

def select (t : T) (p : Owned τ κ (R t) → Bool) : Transaction τ κ R ε (List (Owned τ κ (R t))) :=
  fun d => .ok ((d t).filter p, d)

def joined {ρ ρ' : Type} (rows : List ρ) (rows' : List ρ') (on : ρ → ρ' → Bool) : List (ρ × ρ') :=
  rows.flatMap fun r => (rows'.filter (on r)).map (Prod.mk r)

/-- `LEFT JOIN`: a row that no other belongs to stands alone. -/
def leftJoined {ρ ρ' : Type} (rows : List ρ) (rows' : List ρ') (on : ρ → ρ' → Bool) :
    List (ρ × Option ρ') :=
  rows.flatMap fun r =>
    match rows'.filter (on r) with
    | [] => [(r, none)]
    | found => found.map fun r' => (r, some r')

def join (t u : T) (on : Owned τ κ (R t) → Owned τ κ (R u) → Bool)
    (p : Owned τ κ (R t) × Owned τ κ (R u) → Bool) :
    Transaction τ κ R ε (List (Owned τ κ (R t) × Owned τ κ (R u))) :=
  fun d => .ok ((joined (d t) (d u) on).filter p, d)

def leftJoin (t u : T) (on : Owned τ κ (R t) → Owned τ κ (R u) → Bool)
    (p : Owned τ κ (R t) × Option (Owned τ κ (R u)) → Bool) :
    Transaction τ κ R ε (List (Owned τ κ (R t) × Option (Owned τ κ (R u)))) :=
  fun d => .ok ((leftJoined (d t) (d u) on).filter p, d)

def delete (t : T) (p : Owned τ κ (R t) → Bool) : Transaction τ κ R ε Nat :=
  fun d => .ok ((d t).countP p, Function.update d t ((d t).filter fun r => !p r))

def updated {ρ : Type} (p : Owned τ κ ρ → Bool) (f : ρ → ρ) (rows : List (Owned τ κ ρ)) :
    List (Owned τ κ ρ) :=
  rows.map fun r => if p r then { r with row := f r.row } else r

def update (t : T) (p : Owned τ κ (R t) → Bool) (f : R t → R t) : Transaction τ κ R ε Unit :=
  fun d => .ok ((), Function.update d t (updated p f (d t)))

/-- A primary key is taken once, whoever took it. -/
def insert (taken : ε) (t : T) (r : Owned τ κ (R t)) : Transaction τ κ R ε Unit :=
  fun d => if (d t).any (·.id = r.id) then .error taken
    else .ok ((), Function.update d t (d t ++ [r]))

/-- `INSERT ... ON CONFLICT ... DO UPDATE`. -/
def upsert (taken : ε) (t : T) (r : Owned τ κ (R t)) (conflicts : Owned τ κ (R t) → Bool)
    (f : R t → R t) : Transaction τ κ R ε Unit :=
  fun d => if (d t).any conflicts then update t conflicts f d else insert taken t r d

end

/-! ## One tenant's rows -/

theorem bind_ok {p : Transaction τ κ R ε α} {f : α → Transaction τ κ R ε β} {d e : Database τ κ R}
    {x : α}
    (h : p d = .ok (x, e)) : (p >>= f) d = f x e := by
  change (p d >>= fun r => f r.1 r.2) = _
  rw [h]
  rfl

theorem bind_error {p : Transaction τ κ R ε α} {f : α → Transaction τ κ R ε β} {d : Database τ κ R}
    {error : ε}
    (h : p d = .error error) : (p >>= f) d = .error error := by
  change (p d >>= fun r => f r.1 r.2) = _
  rw [h]
  rfl

theorem filter_updated {ρ : Type} (q : τ → Bool) (p : Owned τ κ ρ → Bool) (f : ρ → ρ)
    (rows : List (Owned τ κ ρ)) :
    (updated p f rows).filter (fun r => q r.tenant) =
      updated p f (rows.filter fun r => q r.tenant) := by
  unfold updated
  rw [List.filter_map]
  congr 1
  refine List.filter_congr fun r _ => ?_
  simp only [Function.comp_apply]
  split_ifs <;> rfl

section
variable [DecidableEq τ]

def own (a : τ) (d : Database τ κ R) : Database τ κ R := fun t => (d t).filter (·.tenant = a)

def rest (a : τ) (d : Database τ κ R) : Database τ κ R := fun t => (d t).filter (·.tenant ≠ a)

variable {a : τ} {ρ ρ' : Type}

def Within (a : τ) (p : Owned τ κ ρ → Bool) : Prop := ∀ r, p r = true → r.tenant = a

variable {p : Owned τ κ ρ → Bool} {t : T}

theorem filter_own (h : Within a p) (rows : List (Owned τ κ ρ)) :
    (rows.filter (·.tenant = a)).filter p = rows.filter p := by
  rw [List.filter_filter]
  refine List.filter_congr fun r _ => ?_
  cases hp : p r with
  | false => rfl
  | true => simp [h r hp]

theorem filter_rest (h : Within a p) (rows : List (Owned τ κ ρ)) :
    (rows.filter fun r => !p r).filter (·.tenant ≠ a) = rows.filter (·.tenant ≠ a) := by
  rw [List.filter_filter]
  refine List.filter_congr fun r _ => ?_
  cases hp : p r with
  | false => simp
  | true => simp [h r hp]

theorem countP_own (h : Within a p) (rows : List (Owned τ κ ρ)) :
    (rows.filter (·.tenant = a)).countP p = rows.countP p := by
  rw [List.countP_eq_length_filter, filter_own h, List.countP_eq_length_filter]

theorem any_own (h : Within a p) (rows : List (Owned τ κ ρ)) :
    (rows.filter (·.tenant = a)).any p = rows.any p := by
  rw [Bool.eq_iff_iff, List.any_eq_true, List.any_eq_true]
  constructor
  · rintro ⟨r, hr, hp⟩
    exact ⟨r, (List.mem_filter.mp hr).1, hp⟩
  · rintro ⟨r, hr, hp⟩
    exact ⟨r, List.mem_filter.mpr ⟨hr, decide_eq_true (h r hp)⟩, hp⟩

theorem updated_rest (h : Within a p) (f : ρ → ρ) (rows : List (Owned τ κ ρ)) :
    (updated p f rows).filter (·.tenant ≠ a) = rows.filter (·.tenant ≠ a) := by
  rw [filter_updated (fun t => decide (t ≠ a))]
  unfold updated
  refine (List.map_congr_left fun r hr => ?_).trans (List.map_id _)
  have hne : r.tenant ≠ a := of_decide_eq_true (List.mem_filter.mp hr).2
  rw [if_neg fun hp => hne (h r hp), id]

theorem filter_joined {on : Owned τ κ ρ → Owned τ κ ρ' → Bool}
    {p : Owned τ κ ρ × Owned τ κ ρ' → Bool} (hp : ∀ r, p r = true → r.1.tenant = a)
    (hon : ∀ r r', on r r' = true → r'.tenant = r.tenant) (rows : List (Owned τ κ ρ))
    (rows' : List (Owned τ κ ρ')) :
    (joined (rows.filter (·.tenant = a)) (rows'.filter (·.tenant = a)) on).filter p =
      (joined rows rows' on).filter p := by
  unfold joined
  rw [List.filter_flatMap, List.filter_flatMap]
  induction rows with
  | nil => rfl
  | cons r rows ih =>
    by_cases hr : r.tenant = a
    · rw [List.filter_cons_of_pos (by simpa using hr), List.flatMap_cons, List.flatMap_cons, ih,
        filter_own fun r' hr' => (hon r r' hr').trans hr]
    · rw [List.filter_cons_of_neg (by simpa using hr), List.flatMap_cons, ih]
      have hnone : ((rows'.filter (on r)).map (Prod.mk r)).filter p = [] := by
        refine List.filter_eq_nil_iff.mpr fun e he hpe => hr ?_
        obtain ⟨r', -, rfl⟩ := List.mem_map.mp he
        exact hp _ hpe
      rw [hnone, List.nil_append]

theorem filter_leftJoined {on : Owned τ κ ρ → Owned τ κ ρ' → Bool}
    {p : Owned τ κ ρ × Option (Owned τ κ ρ') → Bool} (hp : ∀ r, p r = true → r.1.tenant = a)
    (hon : ∀ r r', on r r' = true → r'.tenant = r.tenant) (rows : List (Owned τ κ ρ))
    (rows' : List (Owned τ κ ρ')) :
    (leftJoined (rows.filter (·.tenant = a)) (rows'.filter (·.tenant = a)) on).filter p =
      (leftJoined rows rows' on).filter p := by
  unfold leftJoined
  rw [List.filter_flatMap, List.filter_flatMap]
  induction rows with
  | nil => rfl
  | cons r rows ih =>
    by_cases hr : r.tenant = a
    · rw [List.filter_cons_of_pos (by simpa using hr), List.flatMap_cons, List.flatMap_cons, ih,
        filter_own fun r' hr' => (hon r r' hr').trans hr]
    · rw [List.filter_cons_of_neg (by simpa using hr), List.flatMap_cons, ih]
      have hnone : ∀ l : List (Owned τ κ ρ × Option (Owned τ κ ρ')), (∀ e ∈ l, e.1 = r) →
          l.filter p = [] := fun l hl =>
        List.filter_eq_nil_iff.mpr fun e he hpe => hr (hl e he ▸ hp e hpe)
      rw [hnone, List.nil_append]
      intro e he
      split at he
      · exact List.mem_singleton.mp he ▸ rfl
      · obtain ⟨r', -, rfl⟩ := List.mem_map.mp he
        rfl

/-! ## Isolated transactions -/

/-- What a tenant sees of an outcome: the answer and its own rows, or the exception. -/
def view (a : τ) (result : Except ε (α × Database τ κ R)) : Except ε (α × Database τ κ R) :=
  result.map fun r => (r.1, own a r.2)

/-- Where the rows of the others are as in `ok`, a transaction answers and leaves the tenant's rows
as those rows say; the rows of the others stay as they are, in any case. -/
structure Isolated (a : τ) (ok : Database τ κ R → Prop) (p : Transaction τ κ R ε α) : Prop where
  rest : ∀ d x e, p d = .ok (x, e) → rest a e = rest a d
  view : ∀ d d', own a d = own a d' → ok (Database.rest a d) → ok (Database.rest a d') →
    view a (p d) = view a (p d')

variable {ok : Database τ κ R → Prop} {p : Transaction τ κ R ε α}

theorem isolated_pure (x : α) : Isolated a ok (pure x : Transaction τ κ R ε α) where
  rest d y e h := by
    obtain ⟨-, rfl⟩ := Prod.mk.inj (Except.ok.inj h)
    rfl
  view d d' h _ _ := congrArg (fun e => Except.ok (x, e)) h

theorem isolated_throw (error : ε) : Isolated a ok (throw error : Transaction τ κ R ε α) where
  rest d y e h := by cases h
  view d d' _ _ _ := rfl

/-- What the tenant sees of two outcomes alike: both raise the same, or both answer the same. -/
theorem view_eq_iff {result result' : Except ε (α × Database τ κ R)} :
    Database.view a result = Database.view a result' ↔
      (∃ error, result = .error error ∧ result' = .error error) ∨
        ∃ x e e', result = .ok (x, e) ∧ result' = .ok (x, e') ∧ own a e = own a e' := by
  constructor
  · intro h
    rcases result with error | ⟨x, e⟩ <;> rcases result' with error' | ⟨x', e'⟩
    · exact .inl ⟨error, rfl, congrArg _ (Except.error.inj h).symm⟩
    · cases h
    · cases h
    · obtain ⟨hx, he⟩ := Prod.mk.inj (Except.ok.inj h)
      exact .inr ⟨x, e, e', rfl, congrArg (fun y => Except.ok (y, e')) hx.symm, he⟩
  · rintro (⟨error, rfl, rfl⟩ | ⟨x, e, e', rfl, rfl, h⟩)
    · rfl
    · exact congrArg (fun e => Except.ok (x, e)) h

theorem isolated_bind {f : α → Transaction τ κ R ε β} (hp : Isolated a ok p)
    (hf : ∀ x, Isolated a ok (f x)) : Isolated a ok (p >>= f) where
  rest d y u h := by
    cases hrun : p d with
    | error error =>
      rw [bind_error hrun] at h
      cases h
    | ok r =>
      rw [bind_ok hrun] at h
      exact ((hf r.1).rest r.2 y u h).trans (hp.rest d r.1 r.2 hrun)
  view d d' hown hok hok' := by
    rcases view_eq_iff.mp (hp.view d d' hown hok hok') with
      ⟨error, hrun, hrun'⟩ | ⟨x, e, e', hrun, hrun', he⟩
    · rw [bind_error hrun, bind_error hrun']
    · rw [bind_ok hrun, bind_ok hrun']
      refine (hf x).view e e' he ?_ ?_
      · rwa [hp.rest d x e hrun]
      · rwa [hp.rest d' x e' hrun']

theorem isolated_map {f : α → β} (hp : Isolated a ok p) : Isolated a ok (f <$> p) := by
  rw [← bind_pure_comp]
  exact isolated_bind hp fun x => isolated_pure (f x)

theorem isolated_ite {c : Prop} [Decidable c] {q : Transaction τ κ R ε α} (hp : Isolated a ok p)
    (hq : Isolated a ok q) : Isolated a ok (if c then p else q) := by
  split_ifs
  · exact hp
  · exact hq

theorem isolated_forM {l : List α} {f : α → Transaction τ κ R ε PUnit}
    (hf : ∀ x ∈ l, Isolated a ok (f x)) : Isolated a ok (l.forM f) := by
  induction l with
  | nil => exact isolated_pure _
  | cons x l ih =>
    exact isolated_bind (hf x List.mem_cons_self) fun _ =>
      ih fun y hy => hf y (List.mem_cons_of_mem _ hy)

theorem isolated_mapM {l : List β} {f : β → Transaction τ κ R ε α}
    (hf : ∀ x ∈ l, Isolated a ok (f x)) : Isolated a ok (l.mapM f) := by
  induction l with
  | nil =>
    rw [List.mapM_nil]
    exact isolated_pure _
  | cons x l ih =>
    rw [List.mapM_cons]
    refine isolated_bind (hf x List.mem_cons_self) fun y => ?_
    exact isolated_bind (ih fun z hz => hf z (List.mem_cons_of_mem _ hz)) fun ys => isolated_pure _

theorem isolated_query {f : Database τ κ R → α} (h : ∀ d, f d = f (own a d)) :
    Isolated a ok (fun d => .ok (f d, d) : Transaction τ κ R ε α) where
  rest d x e hrun := by
    obtain ⟨-, rfl⟩ := Prod.mk.inj (Except.ok.inj hrun)
    rfl
  view d d' hown _ _ := view_eq_iff.mpr (.inr ⟨f d, d, d', rfl, by rw [h d, h d', hown], hown⟩)

theorem isolated_select {p : Owned τ κ (R t) → Bool} (h : Within a p) :
    Isolated a ok (select t p : Transaction τ κ R ε _) :=
  isolated_query fun d => (filter_own h (d t)).symm

/-- A join is isolated when its condition is within the tenant and pairs rows of one tenant. -/
theorem isolated_join {t u : T} {on : Owned τ κ (R t) → Owned τ κ (R u) → Bool}
    {p : Owned τ κ (R t) × Owned τ κ (R u) → Bool} (hp : ∀ r, p r = true → r.1.tenant = a)
    (hon : ∀ r r', on r r' = true → r'.tenant = r.tenant) :
    Isolated a ok (join t u on p : Transaction τ κ R ε _) :=
  isolated_query fun d => (filter_joined hp hon (d t) (d u)).symm

theorem isolated_leftJoin {t u : T} {on : Owned τ κ (R t) → Owned τ κ (R u) → Bool}
    {p : Owned τ κ (R t) × Option (Owned τ κ (R u)) → Bool}
    (hp : ∀ r, p r = true → r.1.tenant = a)
    (hon : ∀ r r', on r r' = true → r'.tenant = r.tenant) :
    Isolated a ok (leftJoin t u on p : Transaction τ κ R ε _) :=
  isolated_query fun d => (filter_leftJoined hp hon (d t) (d u)).symm

variable [DecidableEq T]

theorem own_update (d : Database τ κ R) (t : T) (rows : List (Owned τ κ (R t))) :
    own a (Function.update d t rows) =
      Function.update (own a d) t (rows.filter (·.tenant = a)) := by
  funext u
  by_cases hu : u = t
  · subst hu
    simp [own]
  · simp [own, Function.update_of_ne hu]

theorem rest_update {d : Database τ κ R} {rows : List (Owned τ κ (R t))}
    (h : rows.filter (·.tenant ≠ a) = (d t).filter (·.tenant ≠ a)) :
    rest a (Function.update d t rows) = rest a d := by
  funext u
  by_cases hu : u = t
  · subst hu
    simpa [rest] using h
  · simp [rest, Function.update_of_ne hu]

/-- A statement that writes one table: what it leaves of the tenant's rows follows from them, and
the rows of the others stay. -/
theorem isolated_write {f : Database τ κ R → α}
    (write : List (Owned τ κ (R t)) → List (Owned τ κ (R t))) (hf : ∀ d, f d = f (own a d))
    (hown : ∀ rows, (write rows).filter (·.tenant = a) = write (rows.filter (·.tenant = a)))
    (hrest : ∀ rows, (write rows).filter (·.tenant ≠ a) = rows.filter (·.tenant ≠ a)) :
    Isolated a ok
      (fun d => .ok (f d, Function.update d t (write (d t))) : Transaction τ κ R ε α) where
  rest d x e hrun := by
    obtain ⟨-, rfl⟩ := Prod.mk.inj (Except.ok.inj hrun)
    exact rest_update (hrest _)
  view d d' h _ _ := by
    refine view_eq_iff.mpr (.inr ⟨f d, _, _, rfl, by rw [hf d, hf d', h], ?_⟩)
    rw [own_update, own_update, hown, hown, h, show (d t).filter (·.tenant = a) = own a d t from rfl,
      show (d' t).filter (·.tenant = a) = own a d' t from rfl, h]

theorem isolated_delete {p : Owned τ κ (R t) → Bool} (h : Within a p) :
    Isolated a ok (delete t p : Transaction τ κ R ε Nat) := by
  refine isolated_write (fun rows => rows.filter fun r => !p r)
    (fun d => (countP_own h (d t)).symm) (fun rows => ?_) fun rows => filter_rest h rows
  rw [List.filter_filter, List.filter_filter]
  exact List.filter_congr fun r _ => Bool.and_comm _ _

theorem isolated_update {p : Owned τ κ (R t) → Bool} (h : Within a p) (f : R t → R t) :
    Isolated a ok (update t p f : Transaction τ κ R ε Unit) :=
  isolated_write (updated p f) (fun _ => rfl)
    (fun rows => filter_updated (fun t => decide (t = a)) p f rows) fun rows => updated_rest h f rows

variable [DecidableEq κ]

/-- Where no other tenant has taken its primary key, a row is inserted or refused by the tenant's
own rows. -/
theorem isolated_insert {taken : ε} {r : Owned τ κ (R t)} (hr : r.tenant = a)
    (hok : ∀ d, ok d → ∀ r' ∈ d t, r'.id ≠ r.id) :
    Isolated a ok (insert taken t r : Transaction τ κ R ε Unit) where
  rest d x e hrun := by
    unfold insert at hrun
    split_ifs at hrun
    obtain ⟨-, rfl⟩ := Prod.mk.inj (Except.ok.inj hrun)
    refine rest_update ?_
    rw [List.filter_append, List.filter_cons_of_neg (by simp [hr]), List.filter_nil,
      List.append_nil]
  view d d' h hd hd' := by
    have hany : ∀ d : Database τ κ R, ok (rest a d) →
        (d t).any (·.id = r.id) = (own a d t).any (·.id = r.id) := by
      intro d hd
      rw [Bool.eq_iff_iff, List.any_eq_true, List.any_eq_true]
      constructor
      · rintro ⟨r', hr', hid⟩
        refine ⟨r', List.mem_filter.mpr ⟨hr', ?_⟩, hid⟩
        by_contra hne
        exact hok _ hd r' (List.mem_filter.mpr ⟨hr', by simpa using hne⟩) (of_decide_eq_true hid)
      · rintro ⟨r', hr', hid⟩
        exact ⟨r', (List.mem_filter.mp hr').1, hid⟩
    unfold insert
    rw [hany d hd, hany d' hd', h]
    split_ifs
    · rfl
    · refine view_eq_iff.mpr (.inr ⟨(), _, _, rfl, rfl, ?_⟩)
      rw [own_update, own_update, List.filter_append, List.filter_append, h]
      exact congrArg (fun rows => Function.update (own a d') t (rows ++ _)) (congrFun h t)

theorem isolated_upsert {taken : ε} {r : Owned τ κ (R t)}
    {conflicts : Owned τ κ (R t) → Bool} {f : R t → R t} (hr : r.tenant = a)
    (hconflicts : Within a conflicts) (hok : ∀ d, ok d → ∀ r' ∈ d t, r'.id ≠ r.id) :
    Isolated a ok (upsert taken t r conflicts f : Transaction τ κ R ε Unit) where
  rest d x e hrun := by
    unfold upsert at hrun
    split_ifs at hrun
    · have hupdate : Isolated a ok (update t conflicts f : Transaction τ κ R ε Unit) :=
        isolated_update hconflicts f
      exact hupdate.rest d x e hrun
    · exact (isolated_insert hr hok).rest d x e hrun
  view d d' h hd hd' := by
    have hany : (d t).any conflicts = (d' t).any conflicts := by
      rw [← any_own hconflicts (d t), ← any_own hconflicts (d' t)]
      exact congrArg (fun rows : List (Owned τ κ (R t)) => rows.any conflicts) (congrFun h t)
    unfold upsert
    rw [hany]
    split_ifs
    · exact (isolated_update hconflicts f).view d d' h hd hd'
    · exact (isolated_insert hr hok).view d d' h hd hd'

end

/-! ## Sequences of transactions -/

section
variable [DecidableEq τ] {a : τ} {ok : Database τ κ R → Prop}

/-- What each transaction answers or raises, and the database after all of them. -/
def runAll : List (Transaction τ κ R ε α) → Database τ κ R → List (Except ε α) × Database τ κ R
  | [], d => ([], d)
  | p :: ps, d =>
    match p d with
    | .ok (x, e) => (.ok x :: (runAll ps e).1, (runAll ps e).2)
    | .error error => (.error error :: (runAll ps d).1, (runAll ps d).2)

theorem runAll_rest {ps : List (Transaction τ κ R ε α)}
    (h : ∀ p ∈ ps, Isolated a ok p) (d : Database τ κ R) :
    rest a (runAll ps d).2 = rest a d := by
  induction ps generalizing d with
  | nil => rfl
  | cons p ps ih =>
    have htail := ih fun q hq => h q (List.mem_cons_of_mem _ hq)
    unfold runAll
    cases hrun : p d with
    | error error => exact htail d
    | ok r => exact (htail r.2).trans ((h p List.mem_cons_self).rest d r.1 r.2 hrun)

/-- **Isolated transactions, one after the other, are isolated.** -/
theorem runAll_isolated {ps : List (Transaction τ κ R ε α)}
    (h : ∀ p ∈ ps, Isolated a ok p) {d d' : Database τ κ R} (hown : own a d = own a d')
    (hok : ok (rest a d)) (hok' : ok (rest a d')) :
    (runAll ps d).1 = (runAll ps d').1 ∧ own a (runAll ps d).2 = own a (runAll ps d').2 := by
  induction ps generalizing d d' with
  | nil => exact ⟨rfl, hown⟩
  | cons p ps ih =>
    have hp := h p List.mem_cons_self
    have htail := @ih fun q hq => h q (List.mem_cons_of_mem _ hq)
    unfold runAll
    rcases view_eq_iff.mp (hp.view d d' hown hok hok') with
      ⟨error, hrun, hrun'⟩ | ⟨x, e, e', hrun, hrun', he⟩
    · rw [hrun, hrun']
      obtain ⟨hresults, hfinal⟩ := htail hown hok hok'
      exact ⟨congrArg (List.cons _) hresults, hfinal⟩
    · rw [hrun, hrun']
      obtain ⟨hresults, hfinal⟩ := htail he (by rwa [hp.rest d x e hrun])
        (by rwa [hp.rest d' x e' hrun'])
      exact ⟨congrArg (List.cons _) hresults, hfinal⟩

end

end Database

end GuruJi.Lib
