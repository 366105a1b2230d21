/-
# Tables

A database is a row under each key and the list of the keys it ever wrote.
Everything a program of `Programs` does to it is a list of writes, newest
first: `Db.apply` is what a transaction sees of the database under its own
writes, and what its commit publishes.

Counting is by key (`Db.count`): a count depends on the rows only
(`count_congr`), and one write moves it by the row it takes away and the row
it puts there (`count_set`). A `SUM` moves the same way (`total_of_ne`).

Key definitions: `Db`, `Db.set`, `Db.apply`, `Db.select`, `Db.count`, `Db.total`.
Key theorems: `Db.mem_select`, `Db.count_set`, `Db.count_congr`, `Db.total_of_ne`.
-/
import Mathlib

set_option linter.unusedSectionVars false

namespace Transactions

variable {K : Type} {Row : K → Type}

/-- An `ORDER BY` that decides between any two rows does not depend on the
order they come in. -/
theorem insertionSort_congr {α : Type} {r : α → α → Prop} [DecidableRel r] [Std.Total r] [IsTrans α r]
    {l l' : List α} (h : l.Perm l') (hr : ∀ a ∈ l, ∀ b ∈ l, r a b → r b a → a = b) :
    l.insertionSort r = l'.insertionSort r := by
  refine List.Perm.eq_of_pairwise (fun a b ha hb => ?_) (List.pairwise_insertionSort r l)
    (List.pairwise_insertionSort r l') ?_
  · rw [List.mem_insertionSort] at ha hb
    exact hr a ha b (h.mem_iff.mpr hb)
  · exact ((List.perm_insertionSort r l).trans h).trans (List.perm_insertionSort r l').symm

/-- A database: the row under each key, and the keys that were ever written. -/
structure Db (Row : K → Type) where
  row : (k : K) → Option (Row k)
  keys : List K
  nodup : keys.Nodup
  cover : ∀ k, (row k).isSome → k ∈ keys

/-- Writes, newest first; `none` deletes the row. -/
abbrev Writes (Row : K → Type) := List ((k : K) × Option (Row k))

namespace Db

/-! ### Selecting and counting rows -/

/-- The row under `k` exists and meets `p`. -/
def holds (db : Db Row) (p : (k : K) → Row k → Bool) (k : K) : Bool := (db.row k).any (p k)

/-- The keys of the rows that meet `p`. -/
def select (db : Db Row) (p : (k : K) → Row k → Bool) : List K := db.keys.filter (db.holds p)

/-- What `f` reads off each row, where it reads anything. -/
def collect {α : Type} (db : Db Row) (f : (k : K) → Row k → Option α) : List α :=
  db.keys.filterMap fun k => (db.row k).bind (f k)

/-- The number of rows that meet `p`. -/
def count (db : Db Row) (p : (k : K) → Row k → Bool) : ℕ := (db.select p).length

theorem holds_iff (db : Db Row) (p : (k : K) → Row k → Bool) (k : K) :
    db.holds p k = true ↔ ∃ r, db.row k = some r ∧ p k r = true := by
  unfold holds
  cases db.row k <;> simp

theorem mem_select (db : Db Row) (p : (k : K) → Row k → Bool) (k : K) :
    k ∈ db.select p ↔ ∃ r, db.row k = some r ∧ p k r = true := by
  rw [select, List.mem_filter, holds_iff]
  refine ⟨fun h => h.2, fun h => ⟨?_, h⟩⟩
  obtain ⟨r, hr, -⟩ := h
  exact db.cover k (by simp [hr])

theorem mem_collect {α : Type} (db : Db Row) (f : (k : K) → Row k → Option α) (x : α) :
    x ∈ db.collect f ↔ ∃ k r, db.row k = some r ∧ f k r = some x := by
  simp only [collect, List.mem_filterMap, Option.bind_eq_some_iff]
  refine ⟨fun ⟨k, _, r, hr, hx⟩ => ⟨k, r, hr, hx⟩, fun ⟨k, r, hr, hx⟩ => ⟨k, ?_, r, hr, hx⟩⟩
  exact db.cover k (by simp [hr])

/-- Where only one row is read off, that is what is collected. -/
theorem collect_eq_toList [DecidableEq K] {α : Type} {db : Db Row} {f : (k : K) → Row k → Option α} (k₀ : K)
    (h : ∀ k r, db.row k = some r → k ≠ k₀ → f k r = none) :
    db.collect f = ((db.row k₀).bind (f k₀)).toList := by
  have hlist : ∀ l : List K, l.Nodup → (l.filterMap fun k => (db.row k).bind (f k)) =
      if k₀ ∈ l then ((db.row k₀).bind (f k₀)).toList else [] := by
    intro l hl
    induction l with
    | nil => simp
    | cons k l ih =>
      obtain ⟨hk, hl⟩ := List.nodup_cons.mp hl
      by_cases hk₀ : k = k₀
      · subst hk₀
        rw [List.filterMap_cons, ih hl, if_neg hk, if_pos List.mem_cons_self]
        rcases (db.row k).bind (f k) with _ | a <;> rfl
      · have hnone : (db.row k).bind (f k) = none := by
          rcases hr : db.row k with _ | r
          · rfl
          · exact h k r hr hk₀
        rw [List.filterMap_cons, hnone, ih hl]
        simp [Ne.symm hk₀]
  unfold collect
  rw [hlist db.keys db.nodup]
  by_cases hk₀ : k₀ ∈ db.keys
  · rw [if_pos hk₀]
  · have hnone : db.row k₀ = none := by
      by_contra hne
      exact hk₀ (db.cover k₀ (Option.isSome_iff_ne_none.mpr hne))
    rw [if_neg hk₀, hnone]
    rfl

/-- Databases with the same rows to read off give the same, in some order. -/
theorem collect_perm [DecidableEq K] {α : Type} {db db' : Db Row} {f : (k : K) → Row k → Option α}
    (h : ∀ k, (db'.row k).bind (f k) = (db.row k).bind (f k)) : (db'.collect f).Perm (db.collect f) := by
  have hread : ∀ d : Db Row, (∀ k, (d.row k).bind (f k) = (db.row k).bind (f k)) →
      d.collect f = (d.keys.filter fun k => ((db.row k).bind (f k)).isSome).filterMap
        fun k => (db.row k).bind (f k) := by
    intro d hd
    rw [collect, List.filterMap_filter]
    refine List.filterMap_congr fun k _ => ?_
    rw [hd]
    cases (db.row k).bind (f k) <;> rfl
  have hmem : ∀ d : Db Row, (∀ k, (d.row k).bind (f k) = (db.row k).bind (f k)) → ∀ k,
      k ∈ d.keys.filter (fun k => ((db.row k).bind (f k)).isSome) ↔ ((db.row k).bind (f k)).isSome := by
    intro d hd k
    rw [List.mem_filter]
    refine ⟨fun hk => hk.2, fun hk => ⟨d.cover k ?_, hk⟩⟩
    rw [← hd k] at hk
    cases hrow : d.row k with
    | none =>
      rw [hrow] at hk
      cases hk
    | some r => rfl
  rw [hread db' h, hread db fun _ => rfl]
  refine List.Perm.filterMap _ ((List.perm_ext_iff_of_nodup (db'.nodup.filter _) (db.nodup.filter _)).mpr fun k => ?_)
  rw [hmem db' h, hmem db fun _ => rfl]

/-- What is read off under different keys is different, if it tells its key. -/
theorem collect_nodup {α β : Type} (db : Db Row) {f : (k : K) → Row k → Option α} (g : α → β)
    (hg : ∀ k r x k' r' x', f k r = some x → f k' r' = some x' → g x = g x' → k = k') :
    ((db.collect f).map g).Nodup := by
  unfold collect
  rw [List.map_filterMap]
  refine db.nodup.filterMap fun k k' y hy hy' => ?_
  obtain ⟨x, hx, hgx⟩ := Option.map_eq_some_iff.mp hy
  obtain ⟨x', hx', hgx'⟩ := Option.map_eq_some_iff.mp hy'
  obtain ⟨r, -, hr⟩ := Option.bind_eq_some_iff.mp hx
  obtain ⟨r', -, hr'⟩ := Option.bind_eq_some_iff.mp hx'
  exact hg _ _ _ _ _ _ hr hr' (hgx.trans hgx'.symm)
/-- As many as there are rows to read something off. -/
theorem length_collect {α : Type} (db : Db Row) {f : (k : K) → Row k → Option α} {p : (k : K) → Row k → Bool}
    (h : ∀ k r, (f k r).isSome = p k r) : (db.collect f).length = db.count p := by
  unfold collect count select
  induction db.keys with
  | nil => rfl
  | cons k keys ih =>
    rw [List.filterMap_cons, List.filter_cons, holds]
    cases hr : db.row k with
    | none => simpa using ih
    | some r =>
      rw [Option.bind_some, Option.any_some, ← h]
      cases hf : f k r with
      | none => simpa using ih
      | some x => simpa using ih

/-- There is always a free key. -/
theorem exists_free (db : Db Row) {f : ℕ → K} (hf : Function.Injective f) : ∃ n, db.row (f n) = none := by
  by_contra hall
  have hmem : Set.range f ⊆ {k | k ∈ db.keys} := by
    rintro k ⟨n, rfl⟩
    refine db.cover _ (Option.isSome_iff_ne_none.mpr fun hnone => hall ⟨n, hnone⟩)
  exact Set.infinite_range_of_injective hf ((List.finite_toSet db.keys).subset hmem)

theorem select_nodup (db : Db Row) (p : (k : K) → Row k → Bool) : (db.select p).Nodup :=
  db.nodup.filter _

/-- Two databases select the same keys, in some order, when the same rows
meet `p`. -/
theorem select_perm [DecidableEq K] {db db' : Db Row} {p : (k : K) → Row k → Bool}
    (h : ∀ k, db.holds p k = db'.holds p k) : (db.select p).Perm (db'.select p) := by
  rw [List.perm_ext_iff_of_nodup (db.select_nodup p) (db'.select_nodup p)]
  intro k
  rw [mem_select, mem_select, ← holds_iff, ← holds_iff, h k]

/-- A count depends on which rows meet `p` only. -/
theorem count_congr [DecidableEq K] {db db' : Db Row} {p : (k : K) → Row k → Bool}
    (h : ∀ k, db.holds p k = db'.holds p k) : db.count p = db'.count p :=
  (select_perm h).length_eq

theorem count_eq_zero {db : Db Row} {p : (k : K) → Row k → Bool}
    (h : ∀ k r, db.row k = some r → p k r = false) : db.count p = 0 := by
  rw [count, List.length_eq_zero_iff, List.eq_nil_iff_forall_not_mem]
  intro k hk
  obtain ⟨r, hr, hp⟩ := (mem_select db p k).mp hk
  simp [h k r hr] at hp

theorem count_eq_one_iff [DecidableEq K] {db : Db Row} {p : (k : K) → Row k → Bool} :
    db.count p = 1 ↔ ∃ k, db.holds p k = true ∧ ∀ k', db.holds p k' = true → k' = k := by
  rw [count, List.length_eq_one_iff]
  refine ⟨fun ⟨k, hk⟩ => ⟨k, ?_, fun k' h => ?_⟩, fun ⟨k, hk, huniq⟩ => ⟨k, ?_⟩⟩
  · rw [holds_iff, ← mem_select, hk]
    exact List.mem_singleton_self k
  · rw [holds_iff, ← mem_select, hk] at h
    exact List.mem_singleton.mp h
  · refine List.perm_singleton.mp
      ((List.perm_ext_iff_of_nodup (db.select_nodup p) (List.nodup_singleton k)).mpr fun k' => ?_)
    rw [mem_select, ← holds_iff, List.mem_singleton]
    exact ⟨huniq k', fun h => h ▸ hk⟩

theorem count_le_one [DecidableEq K] {db : Db Row} {p : (k : K) → Row k → Bool}
    (h : ∀ k k', db.holds p k = true → db.holds p k' = true → k = k') : db.count p ≤ 1 := by
  rcases Nat.eq_zero_or_pos (db.count p) with h0 | hpos
  · omega
  · obtain ⟨k, hk⟩ := List.exists_mem_of_length_pos hpos
    have hk' : db.holds p k = true := by rwa [holds_iff, ← mem_select]
    exact Nat.le_of_eq (count_eq_one_iff.mpr ⟨k, hk', fun k' h' => h k' k h' hk'⟩)

/-! ### Writing rows -/

/-- The database with no row. -/
def empty : Db Row := ⟨fun _ => none, [], List.nodup_nil, fun _ h => by simp at h⟩

instance : Inhabited (Db Row) := ⟨empty⟩

@[simp] theorem empty_row (k : K) : (empty : Db Row).row k = none := rfl

variable [DecidableEq K]

/-- One write. -/
def set (db : Db Row) (k : K) (r : Option (Row k)) : Db Row where
  row := Function.update db.row k r
  keys := db.keys.insert k
  nodup := db.nodup.insert
  cover := fun k' h => by
    by_cases hk : k' = k
    · exact List.mem_insert_iff.mpr (Or.inl hk)
    · rw [Function.update_of_ne hk] at h
      exact List.mem_insert_iff.mpr (Or.inr (db.cover k' h))

/-- The database under the writes `w`. -/
def apply (db : Db Row) : Writes Row → Db Row
  | [] => db
  | ⟨k, r⟩ :: w => (db.apply w).set k r

@[simp] theorem set_row_self (db : Db Row) (k : K) (r : Option (Row k)) : (db.set k r).row k = r := by
  simp [set]

@[simp] theorem set_row_ne (db : Db Row) {k k' : K} (r : Option (Row k)) (h : ¬ k' = k) :
    (db.set k r).row k' = db.row k' := by
  simp [set, h]

@[simp] theorem apply_nil (db : Db Row) : db.apply [] = db := rfl

@[simp] theorem apply_cons (db : Db Row) (k : K) (r : Option (Row k)) (w : Writes Row) :
    db.apply (⟨k, r⟩ :: w) = (db.apply w).set k r := rfl

theorem apply_append (db : Db Row) : ∀ w w' : Writes Row, db.apply (w ++ w') = (db.apply w').apply w
  | [], _ => rfl
  | ⟨k, r⟩ :: w, w' => by simp [apply_append db w w']

/-- A key none of the writes names keeps its row. -/
theorem apply_row_of_notMem (db : Db Row) (k : K) :
    ∀ w : Writes Row, (∀ e ∈ w, e.1 ≠ k) → (db.apply w).row k = db.row k
  | [], _ => rfl
  | ⟨k', r⟩ :: w, h => by
    have hk : ¬ k = k' := fun he => h ⟨k', r⟩ (by simp) he.symm
    rw [apply_cons, set_row_ne _ _ hk]
    exact apply_row_of_notMem db k w fun e he => h e (by simp [he])

/-- A row under writes is the database's own, or what one of them wrote. -/
theorem apply_row_cases (db : Db Row) (k : K) : ∀ w : Writes Row,
    (db.apply w).row k = db.row k ∨ ⟨k, (db.apply w).row k⟩ ∈ w
  | [] => Or.inl rfl
  | ⟨k', r⟩ :: w => by
    by_cases hk : k = k'
    · subst hk
      exact Or.inr (by simp)
    · rw [apply_cons, set_row_ne _ _ hk]
      exact (apply_row_cases db k w).imp_right fun h => List.mem_cons_of_mem _ h

/-- What the writes make of a row depends on that row only. -/
theorem apply_row_congr {db db' : Db Row} {k : K} (h : db'.row k = db.row k) :
    ∀ w : Writes Row, (db'.apply w).row k = (db.apply w).row k
  | [] => h
  | ⟨k', r⟩ :: w => by
    by_cases hk : k = k'
    · subst hk
      simp
    · simpa [hk] using apply_row_congr h w

theorem holds_set_self (db : Db Row) (p : (k : K) → Row k → Bool) (k : K) (r : Option (Row k)) :
    (db.set k r).holds p k = r.any (p k) := by simp [holds]

theorem holds_set_ne (db : Db Row) (p : (k : K) → Row k → Bool) {k k' : K} (r : Option (Row k))
    (h : ¬ k' = k) : (db.set k r).holds p k' = db.holds p k' := by simp [holds, h]

/-! ### Writes of some rows only -/

/-- All the writes are under keys that meet `p`. -/
def Only (p : K → Bool) (w : Writes Row) : Prop := ∀ e ∈ w, p e.1 = true

theorem Only.nil {p : K → Bool} : Only p ([] : Writes Row) := fun _ h => by simp at h

theorem Only.cons {p : K → Bool} {k : K} {r : Option (Row k)} {w : Writes Row} (hk : p k = true)
    (h : Only p w) : Only p (⟨k, r⟩ :: w) := fun e he => by
  rcases List.mem_cons.mp he with rfl | he
  · exact hk
  · exact h e he

theorem Only.append {p : K → Bool} {w w' : Writes Row} (h : Only p w) (h' : Only p w') :
    Only p (w ++ w') := fun e he => by
  rcases List.mem_append.mp he with he | he
  · exact h e he
  · exact h' e he

theorem Only.mono {p p' : K → Bool} (hp : ∀ k, p k = true → p' k = true) {w : Writes Row}
    (h : Only p w) : Only p' w := fun e he => hp _ (h e he)

theorem Only.apply_row {p : K → Bool} {w : Writes Row} (h : Only p w) (db : Db Row) {k : K}
    (hk : p k = false) : (db.apply w).row k = db.row k :=
  apply_row_of_notMem db k w fun e he heq => by
    have := h e he
    rw [heq, hk] at this
    cases this

/-- Rows under keys that meet `p` move no count of other rows. -/
theorem Only.count {p : K → Bool} {w : Writes Row} (h : Only p w) (db : Db Row)
    {c : (k : K) → Row k → Bool} (hc : ∀ k r, p k = true → c k r = false) :
    (db.apply w).count c = db.count c := by
  refine count_congr fun k => ?_
  by_cases hk : p k = true
  · simp only [holds]
    cases (db.apply w).row k <;> cases db.row k <;> simp [hc k _ hk]
  · simp only [holds, h.apply_row db (by simpa using hk)]

/-- A write of a row that `f` reads nothing off. -/
theorem collect_set {α : Type} {db : Db Row} {k : K} {f : (k : K) → Row k → Option α} (hf : ∀ r, f k r = none)
    (r : Option (Row k)) : (db.set k r).collect f = db.collect f := by
  have hrow : ∀ x, ((db.set k r).row x).bind (f x) = (db.row x).bind (f x) := fun x => by
    by_cases hx : x = k
    · subst hx
      have hnone : ∀ o : Option (Row x), o.bind (f x) = none := fun o => by
        cases o with
        | none => rfl
        | some y => exact hf y
      rw [hnone, hnone]
    · rw [set_row_ne _ _ hx]
  have hnew : db.row k = none → (db.row k).bind (f k) = none := fun h => by rw [h]; rfl
  have hkeys : (db.keys.insert k).filterMap (fun x => (db.row x).bind (f x)) =
      db.keys.filterMap fun x => (db.row x).bind (f x) := by
    by_cases hmem : k ∈ db.keys
    · rw [List.insert_of_mem hmem]
    · have hnone : db.row k = none := by
        by_contra hne
        exact hmem (db.cover k (Option.isSome_iff_ne_none.mpr hne))
      rw [List.insert_of_not_mem hmem, List.filterMap_cons, hnew hnone]
  calc (db.set k r).collect f = (db.keys.insert k).filterMap fun x => ((db.set k r).row x).bind (f x) := rfl
    _ = (db.keys.insert k).filterMap fun x => (db.row x).bind (f x) := by simp only [hrow]
    _ = db.collect f := hkeys

/-- Rows under keys that meet `p` change nothing that is read off others. -/
theorem Only.collect {α : Type} {p : K → Bool} {f : (k : K) → Row k → Option α} (hf : ∀ k r, p k = true → f k r = none)
    (db : Db Row) : ∀ {w : Writes Row}, Only p w → (db.apply w).collect f = db.collect f
  | [], _ => rfl
  | ⟨k, r⟩ :: w, h => by
    rw [apply_cons, collect_set fun x => hf k x (h ⟨k, r⟩ List.mem_cons_self)]
    exact Only.collect hf db fun e he => h e (List.mem_cons_of_mem _ he)

/-! ### What one write does to a count -/

private theorem countP_of_eq_off (l : List K) (hl : l.Nodup) (k : K) (f g : K → Bool)
    (hfg : ∀ x, x ≠ k → f x = g x) (hk : k ∈ l) :
    l.countP f + (if g k then 1 else 0) = l.countP g + (if f k then 1 else 0) := by
  induction l with
  | nil => simp at hk
  | cons x xs ih =>
    rw [List.nodup_cons] at hl
    by_cases hx : x = k
    · subst hx
      have hrest : xs.countP f = xs.countP g :=
        List.countP_congr fun y hy => by rw [hfg y fun he => hl.1 (he ▸ hy)]
      rw [List.countP_cons, List.countP_cons, hrest]
      omega
    · have hmem : k ∈ xs := by
        rcases List.mem_cons.mp hk with h | h
        · exact absurd h.symm hx
        · exact h
      have hrest := ih hl.2 hmem
      rw [List.countP_cons, List.countP_cons, hfg x hx]
      omega

/-- A count over any list of keys that covers the rows. -/
theorem count_eq_countP (db : Db Row) (p : (k : K) → Row k → Bool) {l : List K} (hl : l.Nodup)
    (hc : ∀ k, (db.row k).isSome → k ∈ l) : db.count p = l.countP (db.holds p) := by
  rw [List.countP_eq_length_filter]
  refine List.Perm.length_eq ?_
  rw [select, List.perm_ext_iff_of_nodup (db.nodup.filter _) (hl.filter _)]
  intro k
  have hsome : db.holds p k = true → (db.row k).isSome = true := fun h => by
    obtain ⟨r, hr, -⟩ := (holds_iff db p k).mp h
    simp [hr]
  simp only [List.mem_filter]
  exact ⟨fun h => ⟨hc k (hsome h.2), h.2⟩, fun h => ⟨db.cover k (hsome h.2), h.2⟩⟩

/-- **One write moves a count** by the row it puts there and the row it takes
away. -/
theorem count_set (db : Db Row) (p : (k : K) → Row k → Bool) (k : K) (r : Option (Row k)) :
    (db.set k r).count p + (if (db.row k).any (p k) then 1 else 0) =
      db.count p + (if r.any (p k) then 1 else 0) := by
  have hl : (db.keys.insert k).Nodup := db.nodup.insert
  have h1 : (db.set k r).count p = (db.keys.insert k).countP ((db.set k r).holds p) :=
    count_eq_countP _ p hl (db.set k r).cover
  have h2 : db.count p = (db.keys.insert k).countP (db.holds p) :=
    count_eq_countP _ p hl fun k' h => List.mem_insert_iff.mpr (Or.inr (db.cover k' h))
  have h := countP_of_eq_off _ hl k ((db.set k r).holds p) (db.holds p)
    (fun x hx => holds_set_ne db p r hx) (List.mem_insert_iff.mpr (Or.inl rfl))
  rw [holds_set_self] at h
  rw [h1, h2]
  exact h

/-- A write under a key whose rows never meet `p` moves no count. -/
theorem count_set_of_false (db : Db Row) (p : (k : K) → Row k → Bool) (k : K) (r : Option (Row k))
    (h : ∀ x, p k x = false) : (db.set k r).count p = db.count p := by
  have hs := count_set db p k r
  have h1 : (db.row k).any (p k) = false := by cases db.row k <;> simp [h]
  have h2 : r.any (p k) = false := by cases r <;> simp [h]
  simpa [h1, h2] using hs

/-! ### Sums over rows -/

/-- What `f` reads off the row under `k`, nothing where it reads nothing. -/
def weight (db : Db Row) (f : (k : K) → Row k → Option ℕ) (k : K) : ℕ := ((db.row k).bind (f k)).getD 0

/-- `SUM` over the rows `f` reads something off. -/
def total (db : Db Row) (f : (k : K) → Row k → Option ℕ) : ℕ := (db.collect f).sum

/-- A total over any set of keys that covers the rows. -/
theorem total_eq_sum (db : Db Row) (f : (k : K) → Row k → Option ℕ) {s : Finset K}
    (hs : ∀ k, (db.row k).isSome → k ∈ s) : db.total f = ∑ k ∈ s, db.weight f k := by
  have hkeys : db.total f = ∑ k ∈ db.keys.toFinset, db.weight f k := by
    rw [List.sum_toFinset _ db.nodup, total, collect]
    induction db.keys with
    | nil => rfl
    | cons k keys ih =>
      rw [List.filterMap_cons, List.map_cons, List.sum_cons, ← ih, weight]
      rcases (db.row k).bind (f k) with _ | n
      · simp
      · simp
  have hzero : ∀ k, db.row k = none → db.weight f k = 0 := fun k hk => by simp [weight, hk]
  have hun : ∀ t : Finset K, (∀ k, (db.row k).isSome → k ∈ t) →
      ∑ k ∈ t, db.weight f k = ∑ k ∈ s ∪ db.keys.toFinset ∪ t, db.weight f k := fun t ht => by
    refine Finset.sum_subset Finset.subset_union_right fun k _ hk => hzero k ?_
    by_contra hne
    exact hk (ht k (Option.isSome_iff_ne_none.mpr hne))
  rw [hkeys, hun s hs, hun _ fun k hk => List.mem_toFinset.mpr (db.cover k hk)]
  congr 1
  ext k
  simp only [Finset.mem_union]
  tauto

/-- A total grows with what is read off each row. -/
theorem total_le {db db' : Db Row} {f f' : (k : K) → Row k → Option ℕ}
    (h : ∀ k, db'.weight f' k ≤ db.weight f k) : db'.total f' ≤ db.total f := by
  have hcover : ∀ d : Db Row, (d = db ∨ d = db') → ∀ k, (d.row k).isSome → k ∈ db.keys.toFinset ∪ db'.keys.toFinset := by
    rintro d (rfl | rfl) k hk
    · exact Finset.mem_union_left _ (List.mem_toFinset.mpr (d.cover k hk))
    · exact Finset.mem_union_right _ (List.mem_toFinset.mpr (d.cover k hk))
  rw [total_eq_sum db f (hcover db (Or.inl rfl)), total_eq_sum db' f' (hcover db' (Or.inr rfl))]
  exact Finset.sum_le_sum fun k _ => h k

/-- A total depends on what is read off each row only. -/
theorem total_congr {db db' : Db Row} {f : (k : K) → Row k → Option ℕ} (h : ∀ k, db'.weight f k = db.weight f k) :
    db'.total f = db.total f :=
  Nat.le_antisymm (total_le fun k => (h k).le) (total_le fun k => (h k).ge)

/-- A total of what adds up on each row adds up. -/
theorem total_add {db : Db Row} {f g h : (k : K) → Row k → Option ℕ}
    (hadd : ∀ k, db.weight f k = db.weight g k + db.weight h k) : db.total f = db.total g + db.total h := by
  have hcover : ∀ k, (db.row k).isSome → k ∈ db.keys.toFinset := fun k hk => List.mem_toFinset.mpr (db.cover k hk)
  rw [total_eq_sum db f hcover, total_eq_sum db g hcover, total_eq_sum db h hcover, ← Finset.sum_add_distrib]
  exact Finset.sum_congr rfl fun k _ => hadd k

/-- **Where one row changes, a total moves** by what is read off it before and
after. -/
theorem total_of_ne {db db' : Db Row} {f : (k : K) → Row k → Option ℕ} (k : K)
    (h : ∀ k', k' ≠ k → db'.weight f k' = db.weight f k') :
    db'.total f + db.weight f k = db.total f + db'.weight f k := by
  have hcover : ∀ d : Db Row, (d = db ∨ d = db') → ∀ x, (d.row x).isSome →
      x ∈ insert k (db.keys.toFinset ∪ db'.keys.toFinset) := by
    rintro d (rfl | rfl) x hx
    · exact Finset.mem_insert_of_mem (Finset.mem_union_left _ (List.mem_toFinset.mpr (d.cover x hx)))
    · exact Finset.mem_insert_of_mem (Finset.mem_union_right _ (List.mem_toFinset.mpr (d.cover x hx)))
  have hk : k ∈ insert k (db.keys.toFinset ∪ db'.keys.toFinset) := Finset.mem_insert_self _ _
  have hrest : ∑ x ∈ (insert k (db.keys.toFinset ∪ db'.keys.toFinset)).erase k, db'.weight f x =
      ∑ x ∈ (insert k (db.keys.toFinset ∪ db'.keys.toFinset)).erase k, db.weight f x :=
    Finset.sum_congr rfl fun x hx => h x (Finset.ne_of_mem_erase hx)
  rw [total_eq_sum db f (hcover db (Or.inl rfl)), total_eq_sum db' f (hcover db' (Or.inr rfl)),
    ← Finset.add_sum_erase _ _ hk, ← Finset.add_sum_erase _ _ hk, hrest]
  omega

end Db

end Transactions
