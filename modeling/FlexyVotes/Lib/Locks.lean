/-
# Lock orders of transaction programs

When may two threads of `Programs` wait for each other? `Climbs J p own` is the
obligation of a program alone: whenever it waits for the lock of a row, `J`
allows that row after the rows `own` it already holds. A thread notes a row it
locks as it was then; nobody else can change it before the thread is done
(`Holds`), so what two threads that wait for each other noted is one and the
same (`crossed`): a lock order is a `J` that no two threads can be in so.

`Goes` is for programs that keep to it from any rows held of a kind: its rules
are those of the statements.

Key definitions: `Waits`, `Climbs`, `Holds`, `Goes`.
Key theorems: `Holds.init`, `Holds.step`, `crossed`, `Goes.lock`.
-/
import FlexyVotes.Lib.Programs

set_option linter.unusedSectionVars false

namespace Transactions
namespace Locks

variable {K : Type} [DecidableEq K] {Row : K → Type} {N : Type}

/-- The rows a thread holds, newest first, each as it was committed when the
thread took it. -/
abbrev Taken {K : Type} (Row : K → Type) : Type := List (Σ k : K, Option (Row k))

/-- The thread holds `k`. -/
def Taken.has (own : Taken Row) (k : K) : Prop := ∃ e ∈ own, e.1 = k

/-- What may be locked after what: the rows held, the row waited for. -/
abbrev Order {K : Type} (Row : K → Type) : Type := Taken Row → (k : K) → Row k → Prop

/-- Thread `t` waits for the lock of `k`, which thread `u` holds. -/
structure WaitsOn (s : State Row N) (t u : ℕ) (k : K) (r : Row k) : Prop where
  lock : ∃ q f, (s.thr t).prog = .lock k q f ∧ q r = true
  row : (s.db.apply (s.thr t).pend).row k = some r
  owner : s.owner k = some u
  other : u ≠ t

/-- Thread `t` waits for thread `u`. -/
def Waits (s : State Row N) (t u : ℕ) : Prop := ∃ k r, WaitsOn s t u k r

/-- Whoever waits is blocked. -/
theorem Waits.blocked {s : State Row N} {t u : ℕ} (h : Waits s t u) : fire s t = none := by
  obtain ⟨k, r, ⟨q, f, hprog, hq⟩, hrow, howner, hne⟩ := h
  have hheld : s.free t k = false := by
    rw [← Bool.not_eq_true, State.free_iff, howner]
    simp [hne]
  unfold fire
  simp only [hprog, hrow, hq, hheld, if_true]
  rfl

variable (J : Order Row)

/-- The program waits for rows in the order `J`. -/
def Climbs : Prog Row N → Taken Row → Prop
  | .halt, _ => True
  | .read f, own => ∀ view, Climbs (f view) own
  | .lock k q f, own =>
    (∀ r, q r = true → (own.has k → Climbs (f (some r)) own) ∧
      (¬ own.has k → J own k r ∧ Climbs (f (some r)) (⟨k, some r⟩ :: own))) ∧
    Climbs (f none) own
  | .insert k _ f, own =>
    (own.has k → Climbs (f true) own) ∧ (¬ own.has k → Climbs (f true) (⟨k, none⟩ :: own)) ∧ Climbs (f false) own
  | .put k _ p, own => (own.has k → Climbs p own) ∧
    (¬ own.has k → ∀ o : Option (Row k), Climbs p (⟨k, o⟩ :: own))
  | .commit p, _ => Climbs p []
  | .rollback p, _ => Climbs p []
  | .note _ p, own => Climbs p own

variable {J}

theorem Taken.has_cons {own : Taken Row} {e : Σ k : K, Option (Row k)} {k : K} :
    Taken.has (e :: own) k ↔ e.1 = k ∨ own.has k := by
  simp [Taken.has]

theorem Climbs.settle : ∀ {p : Prog Row N} {own : Taken Row} (log : List N), Climbs J p own →
    Climbs J (p.settle log).1 own
  | .note n p, own, log, h => by
    have hp : Climbs J p own := h
    exact hp.settle (n :: log)
  | .halt, _, _, h | .read _, _, _, h | .lock _ _ _, _, _, h | .insert _ _ _, _, _, h | .put _ _ _, _, _, h
  | .commit _, _, _, h | .rollback _, _, _, h => h

/-- What thread `t` holds: as it is committed, and with an order for the rest of
its program. -/
structure Holding (J : Order Row) (s : State Row N) (t : ℕ) (own : Taken Row) : Prop where
  owner : ∀ k, s.owner k = some t ↔ own.has k
  row : ∀ e ∈ own, s.db.row e.1 = e.2
  pend : ∀ e ∈ (s.thr t).pend, own.has e.1
  climbs : Climbs J (s.thr t).prog own

/-- Every thread holds its rows in its order. -/
def Holds (J : ℕ → Order Row) (s : State Row N) : Prop := ∀ t, ∃ own, Holding (J t) s t own

theorem Holds.init {J : ℕ → Order Row} {db : Db Row} {progs : ℕ → Prog Row N}
    (h : ∀ t, Climbs (J t) (progs t) []) : Holds J (.init db progs) := fun t =>
  ⟨[], fun k => by simp [State.init, Taken.has], fun _ h => absurd h (by simp),
    fun _ h => absurd h (by simp [State.init]), (h t).settle _⟩

section Steps

variable {s s' : State Row N} {t : ℕ} {own : Taken Row}

/-- The thread goes on with the rows it holds. -/
theorem Holding.goto (h : Holding J s t own) {p : Prog Row N} {w : Writes Row} {log : List N}
    (hw : ∀ e ∈ w, own.has e.1) (hp : Climbs J p own) : Holding J (s.goto t p w log) t own where
  owner := h.owner
  row := h.row
  pend := fun e he => by
    rw [State.goto_thr_self] at he
    exact hw e he
  climbs := by
    rw [State.goto_thr_self]
    exact hp.settle _

/-- The thread takes a row, and goes on. -/
theorem Holding.take (h : Holding J s t own) {e : Σ k : K, Option (Row k)}
    (hrow : s.db.row e.1 = e.2) {p : Prog Row N} {w : Writes Row}
    {log : List N} (hw : ∀ x ∈ w, Taken.has (e :: own) x.1) (hp : Climbs J p (e :: own)) :
    Holding J ((s.take t e.1).goto t p w log) t (e :: own) where
  owner := fun k => by
    rw [State.goto_owner, State.take_owner, Taken.has_cons, ← h.owner]
    by_cases hk : k = e.1
    · simp [hk]
    · simp [hk, Ne.symm hk]
  row := fun x hx => by
    rcases List.mem_cons.mp hx with rfl | hx
    · exact hrow
    · exact h.row x hx
  pend := fun x hx => by
    rw [State.goto_thr_self] at hx
    exact hw x hx
  climbs := by
    rw [State.goto_thr_self]
    exact hp.settle _

/-- The thread takes a row it already holds, and goes on. -/
theorem Holding.retake (h : Holding J s t own) {k : K} (hk : own.has k) {p : Prog Row N} {w : Writes Row}
    {log : List N} (hw : ∀ e ∈ w, own.has e.1) (hp : Climbs J p own) :
    Holding J ((s.take t k).goto t p w log) t own where
  owner := fun k' => by
    rw [State.goto_owner, State.take_owner, ← h.owner]
    by_cases hk' : k' = k
    · subst hk'
      simp [(h.owner k').mpr hk]
    · simp [hk']
  row := h.row
  pend := fun x hx => by
    rw [State.goto_thr_self] at hx
    exact hw x hx
  climbs := by
    rw [State.goto_thr_self]
    exact hp.settle _

/-- The thread ends a transaction, and goes on with nothing. -/
theorem Holding.done {s₁ : State Row N} (hfree : ∀ k, s₁.owner k ≠ some t) {p : Prog Row N} {log : List N}
    (hp : Climbs J p []) : Holding J (s₁.goto t p [] log) t [] where
  owner := fun k => by simp [Taken.has, hfree k]
  row := fun e he => absurd he (by simp)
  pend := fun e he => by
    rw [State.goto_thr_self] at he
    cases he
  climbs := by
    rw [State.goto_thr_self]
    exact hp.settle _

theorem release_free (s : State Row N) (t : ℕ) (k : K) : (s.release t).owner k ≠ some t := by
  unfold State.release
  dsimp only
  split_ifs with h
  · simp
  · exact h

theorem release_other (s : State Row N) {t u : ℕ} (hu : u ≠ t) (k : K) :
    (s.release t).owner k = some u ↔ s.owner k = some u := by
  unfold State.release
  dsimp only
  by_cases h : s.owner k = some t
  · rw [if_pos h, h]
    simp [Ne.symm hu]
  · rw [if_neg h]

/-- A lock that is free is nobody else's. -/
theorem take_other {u : ℕ} (hu : u ≠ t) {k : K} (hfree : s.free t k = true) (k' : K) :
    (s.take t k).owner k' = some u ↔ s.owner k' = some u := by
  rw [State.take_owner]
  by_cases hk : k' = k
  · subst hk
    rw [if_pos rfl]
    rcases (State.free_iff s t k').mp hfree with h | h
    · simp [h, Ne.symm hu]
    · simp [h]
  · rw [if_neg hk]

/-- What a row is to a thread that does not hold it: as it is committed. -/
theorem Holding.view (h : Holding J s t own) {k : K} (hk : ¬ own.has k) :
    (s.db.apply (s.thr t).pend).row k = s.db.row k :=
  Db.apply_row_of_notMem _ _ _ fun e he heq => hk (heq ▸ h.pend e he)

/-- More rows held hold no less. -/
theorem has_more {e : Σ k : K, Option (Row k)} {w : Writes Row} (h : ∀ x ∈ w, own.has x.1) :
    ∀ x ∈ w, Taken.has (e :: own) x.1 := fun x hx => Taken.has_cons.mpr (Or.inr (h x hx))

/-- **A thread's own statement** leaves it with rows in its order. -/
theorem Holding.fire (h : Holding J s t own) (hf : Transactions.fire s t = some s') :
    ∃ own', Holding J s' t own' := by
  have hclimbs := h.climbs
  unfold Transactions.fire at hf
  rcases hprog : (s.thr t).prog with _ | f | ⟨k, q, f⟩ | ⟨k, r, f⟩ | ⟨k, r, p⟩ | p | p | ⟨n, p⟩
  · simp only [hprog] at hf
    cases hf
  · simp only [hprog, Option.some.injEq] at hf
    rw [hprog] at hclimbs
    subst hf
    exact ⟨own, h.goto h.pend (hclimbs _)⟩
  · simp only [hprog] at hf
    rw [hprog] at hclimbs
    obtain ⟨hsome, hnone⟩ := hclimbs
    rcases hview : (s.db.apply (s.thr t).pend).row k with _ | r
    · simp only [hview, Option.some.injEq] at hf
      subst hf
      exact ⟨own, h.goto h.pend hnone⟩
    simp only [hview] at hf
    by_cases hq : q r = true
    swap
    · rw [if_neg hq] at hf
      cases hf
      exact ⟨own, h.goto h.pend hnone⟩
    rw [if_pos hq] at hf
    by_cases hfree : s.free t k = true
    swap
    · rw [if_neg hfree] at hf
      cases hf
    rw [if_pos hfree] at hf
    cases hf
    by_cases hk : own.has k
    · exact ⟨own, h.retake hk h.pend ((hsome r hq).1 hk)⟩
    · obtain ⟨-, hp⟩ := (hsome r hq).2 hk
      have hrow : s.db.row k = some r := (h.view hk).symm.trans hview
      exact ⟨_, h.take (e := ⟨k, some r⟩) hrow (has_more h.pend) hp⟩
  · simp only [hprog] at hf
    rw [hprog] at hclimbs
    obtain ⟨hheld, hnew, hfalse⟩ := hclimbs
    rcases hview : (s.db.apply (s.thr t).pend).row k with _ | r'
    swap
    · simp only [hview, Option.some.injEq] at hf
      subst hf
      exact ⟨own, h.goto h.pend hfalse⟩
    simp only [hview] at hf
    by_cases hfree : s.free t k = true
    swap
    · rw [if_neg hfree] at hf
      cases hf
    rw [if_pos hfree] at hf
    cases hf
    by_cases hk : own.has k
    · refine ⟨own, h.retake hk (fun x hx => ?_) (hheld hk)⟩
      rcases List.mem_cons.mp hx with rfl | hx
      · exact hk
      · exact h.pend x hx
    · have hrow : s.db.row k = none := (h.view hk).symm.trans hview
      refine ⟨_, h.take (e := ⟨k, none⟩) hrow (fun x hx => ?_) (hnew hk)⟩
      rcases List.mem_cons.mp hx with rfl | hx
      · exact Taken.has_cons.mpr (Or.inl rfl)
      · exact has_more h.pend x hx
  · simp only [hprog] at hf
    rw [hprog] at hclimbs
    obtain ⟨hheld, hnew⟩ := hclimbs
    by_cases hfree : s.free t k = true
    swap
    · rw [if_neg hfree] at hf
      cases hf
    rw [if_pos hfree] at hf
    cases hf
    by_cases hk : own.has k
    · refine ⟨own, h.retake hk (fun x hx => ?_) (hheld hk)⟩
      rcases List.mem_cons.mp hx with rfl | hx
      · exact hk
      · exact h.pend x hx
    · refine ⟨_, h.take (e := ⟨k, s.db.row k⟩) rfl (fun x hx => ?_) (hnew hk (s.db.row k))⟩
      rcases List.mem_cons.mp hx with rfl | hx
      · exact Taken.has_cons.mpr (Or.inl rfl)
      · exact has_more h.pend x hx
  · simp only [hprog, Option.some.injEq] at hf
    rw [hprog] at hclimbs
    subst hf
    exact ⟨[], .done (release_free _ t) hclimbs⟩
  · simp only [hprog, Option.some.injEq] at hf
    rw [hprog] at hclimbs
    subst hf
    exact ⟨[], .done (release_free _ t) hclimbs⟩
  · simp only [hprog, Option.some.injEq] at hf
    rw [hprog] at hclimbs
    subst hf
    exact ⟨own, h.goto h.pend hclimbs⟩

/-- What a statement of `t` leaves to another thread: the rows it holds, as they
were. -/
structure Leaves (s s' : State Row N) (u : ℕ) : Prop where
  thr : s'.thr u = s.thr u
  owner : ∀ k, s'.owner k = some u ↔ s.owner k = some u
  row : ∀ k, s.owner k = some u → s'.db.row k = s.db.row k

theorem Leaves.holding {u : ℕ} (h : Leaves s s' u) (hu : Holding J s u own) : Holding J s' u own where
  owner := fun k => (h.owner k).trans (hu.owner k)
  row := fun e he => (h.row _ ((hu.owner _).mpr ⟨e, he, rfl⟩)).trans (hu.row e he)
  pend := fun e he => hu.pend e (h.thr ▸ he)
  climbs := h.thr ▸ hu.climbs

/-- **A statement leaves the rows of the others**: what is committed, its thread
holds. -/
theorem leaves_of_fire (h : Holding J s t own) {u : ℕ} (hu : u ≠ t) (hf : Transactions.fire s t = some s') :
    Leaves s s' u := by
  have hthr := fire_thr_ne hf hu
  have hpend : ∀ k, s.owner k = some u → (s.db.apply (s.thr t).pend).row k = s.db.row k := fun k hk =>
    h.view fun hhas => by
      rw [(h.owner k).mpr hhas] at hk
      exact hu (Option.some.inj hk).symm
  unfold Transactions.fire at hf
  rcases hprog : (s.thr t).prog with _ | f | ⟨k, q, f⟩ | ⟨k, r, f⟩ | ⟨k, r, p⟩ | p | p | ⟨n, p⟩
  all_goals simp only [hprog] at hf
  · cases hf
  · cases hf
    exact ⟨hthr, fun _ => Iff.rfl, fun _ _ => rfl⟩
  · rcases hview : (s.db.apply (s.thr t).pend).row k with _ | r
    · simp only [hview] at hf
      cases hf
      exact ⟨hthr, fun _ => Iff.rfl, fun _ _ => rfl⟩
    simp only [hview] at hf
    split_ifs at hf with hq hfree
    · cases hf
      exact ⟨hthr, take_other hu hfree, fun _ _ => rfl⟩
    · cases hf
      exact ⟨hthr, fun _ => Iff.rfl, fun _ _ => rfl⟩
  · rcases hview : (s.db.apply (s.thr t).pend).row k with _ | r'
    · simp only [hview] at hf
      split_ifs at hf with hfree
      cases hf
      exact ⟨hthr, take_other hu hfree, fun _ _ => rfl⟩
    · simp only [hview] at hf
      cases hf
      exact ⟨hthr, fun _ => Iff.rfl, fun _ _ => rfl⟩
  · split_ifs at hf with hfree
    cases hf
    exact ⟨hthr, take_other hu hfree, fun _ _ => rfl⟩
  · cases hf
    exact ⟨hthr, release_other _ hu, hpend⟩
  · cases hf
    exact ⟨hthr, release_other _ hu, fun _ _ => rfl⟩
  · cases hf
    exact ⟨hthr, fun _ => Iff.rfl, fun _ _ => rfl⟩

end Steps

theorem Holds.leaves {J : ℕ → Order Row} {s s' : State Row N} {t u : ℕ} (h : Holds J s) (hs : Step s t s')
    (hu : u ≠ t) : Leaves s s' u := by
  obtain ⟨ownt, ht⟩ := h t
  rcases hs with hf | rfl
  · exact leaves_of_fire ht hu hf
  · exact ⟨State.goto_thr_ne _ _ _ _ _ _ hu, release_other s hu, fun _ _ => rfl⟩

/-- **Every step keeps the orders.** -/
theorem Holds.step {J : ℕ → Order Row} {s s' : State Row N} {t : ℕ} (h : Holds J s) (hs : Step s t s') :
    Holds J s' := by
  intro u
  obtain ⟨own, hown⟩ := h u
  by_cases hu : u = t
  · subst hu
    rcases hs with hf | rfl
    · exact hown.fire hf
    · exact ⟨[], .done (release_free s u) trivial⟩
  · exact ⟨own, (h.leaves hs hu).holding hown⟩

theorem Holds.run {J : ℕ → Order Row} {C : State Row N → ℕ → State Row N → Prop} {s s' : State Row N}
    (h : Holds J s) (hr : Run C s s') : Holds J s' := by
  induction hr with
  | refl => exact h
  | step _ hs _ ih => exact ih.step hs

/-- Thread `t` holds the rows `own` in order, and waits for a row that is next in
its order. -/
structure Waiting (J : Order Row) (s : State Row N) (t : ℕ) (own : Taken Row) (k : K) (r : Row k) : Prop where
  holding : Holding J s t own
  next : J own k r
  row : s.db.row k = some r

/-- **Two threads that wait for each other** have histories that cross: each waits
for a row the other noted, as the other noted it. -/
theorem crossed {J : ℕ → Order Row} {s : State Row N} {t u : ℕ} (h : Holds J s) (htu : Waits s t u)
    (hut : Waits s u t) : ∃ own own' k k' r r', Waiting (J t) s t own k r ∧ Waiting (J u) s u own' k' r' ∧
      ⟨k, some r⟩ ∈ own' ∧ ⟨k', some r'⟩ ∈ own ∧ ∀ x, own.has x → ¬ Taken.has own' x := by
  obtain ⟨own, hown⟩ := h t
  obtain ⟨own', hown'⟩ := h u
  obtain ⟨k, r, hk⟩ := htu
  obtain ⟨k', r', hk'⟩ := hut
  have hwaits : ∀ {t u : ℕ} {own : Taken Row} {k : K} {r : Row k}, Holding (J t) s t own → WaitsOn s t u k r →
      Waiting (J t) s t own k r := by
    intro t u own k r hown hk
    have hnot : ¬ own.has k := fun hhas => by
      have howner := (hown.owner k).mpr hhas
      rw [hk.owner] at howner
      exact hk.other (Option.some.inj howner)
    have hclimbs := hown.climbs
    obtain ⟨q, f, hprog, hq⟩ := hk.lock
    rw [hprog] at hclimbs
    exact ⟨hown, ((hclimbs.1 r hq).2 hnot).1, (hown.view hnot).symm.trans hk.row⟩
  have hnoted : ∀ {t : ℕ} {own : Taken Row} {k : K} {r : Row k}, Holding (J t) s t own → s.owner k = some t →
      s.db.row k = some r → ⟨k, some r⟩ ∈ own := by
    intro t own k r hown howner hrow
    obtain ⟨⟨k₀, o⟩, he, heq⟩ := (hown.owner k).mp howner
    dsimp only at heq
    subst heq
    have hsame : o = some r := (hown.row _ he).symm.trans hrow
    exact hsame ▸ he
  have hw := hwaits hown hk
  have hw' := hwaits hown' hk'
  refine ⟨own, own', k, k', r, r', hw, hw', hnoted hown' hk.owner hw.row, hnoted hown hk'.owner hw'.row,
    fun x hx hx' => ?_⟩
  have howner := (hown.owner x).mpr hx
  rw [(hown'.owner x).mpr hx'] at howner
  exact hk.other (Option.some.inj howner)

/-- The thread that `t` waits for, to be computed. -/
def waitsFor (s : State Row N) (t : ℕ) : Option ℕ :=
  match (s.thr t).prog with
  | .lock k q _ =>
    match (s.db.apply (s.thr t).pend).row k with
    | some r => if q r then (s.owner k).filter (· ≠ t) else none
    | none => none
  | _ => none

theorem waits_of_waitsFor {s : State Row N} {t u : ℕ} (h : waitsFor s t = some u) : Waits s t u := by
  unfold waitsFor at h
  split at h
  · rename_i k q f hprog
    split at h
    · rename_i r hrow
      split at h
      · rename_i hq
        obtain ⟨howner, hne⟩ := Option.filter_eq_some_iff.mp h
        exact ⟨k, r, ⟨q, f, hprog, hq⟩, hrow, howner, by simpa using hne⟩
      · cases h
    · cases h
  · cases h

/-! ### Programs put together -/

/-- While `P` holds of the rows held, rows of `A` may be locked next, and rows of
`F` written. -/
structure Allows (J : Order Row) (P : Taken Row → Prop) (A : (k : K) → Row k → Prop)
    (F : (k : K) → Option (Row k) → Prop) : Prop where
  next : ∀ own k r, P own → ¬ own.has k → A k r → J own k r
  lock : ∀ own k r, P own → A k r → P (⟨k, some r⟩ :: own)
  write : ∀ own k o, P own → F k o → P (⟨k, o⟩ :: own)

/-- The program waits in the order from any rows held of which `P` holds. -/
def Goes (J : Order Row) (P : Taken Row → Prop) (p : Prog Row N) : Prop := ∀ own, P own → Climbs J p own

section Rules

variable {J : Order Row} {P Q : Taken Row → Prop} {A : (k : K) → Row k → Prop} {F : (k : K) → Option (Row k) → Prop}
  {k : K} {p failure : Prog Row N}

/-- A row that is held stays held. -/
theorem Allows.has (h : Allows J P A F) (k : K) : Allows J (fun own => P own ∧ own.has k) A F where
  next := fun own k' r ho => h.next own k' r ho.1
  lock := fun own k' r ho hr => ⟨h.lock own k' r ho.1 hr, Taken.has_cons.mpr (Or.inr ho.2)⟩
  write := fun own k' o ho hk => ⟨h.write own k' o ho.1 hk, Taken.has_cons.mpr (Or.inr ho.2)⟩

theorem Goes.mono (h : Goes J P p) (hQ : ∀ own, Q own → P own) : Goes J Q p := fun own ho => h own (hQ own ho)

theorem Goes.halt : Goes J P (.halt : Prog Row N) := fun _ _ => trivial

theorem Goes.read {f : Db Row → Prog Row N} (h : ∀ v, Goes J P (f v)) : Goes J P (.read f) := fun own ho v => h v own ho

theorem Goes.note {n : N} (h : Goes J P p) : Goes J P (.note n p) := h

theorem Goes.commit (h : Climbs J p []) : Goes J P (.commit p) := fun _ _ => h

theorem Goes.rollback (h : Climbs J p []) : Goes J P (.rollback p) := fun _ _ => h

/-- A row that is held is written. -/
theorem Goes.put {r : Option (Row k)} (hk : ∀ own, P own → own.has k) (h : Goes J P p) : Goes J P (.put k r p) :=
  fun own ho => ⟨fun _ => h own ho, fun hnot => absurd (hk own ho) hnot⟩

section Allowed

variable (hP : Allows J P A F)

include hP

/-- A row is locked, and held from then on. -/
theorem Goes.lock {q : Row k → Bool} {f : Option (Row k) → Prog Row N} (hq : ∀ r, q r = true → A k r)
    (hnone : Goes J P (f none)) (hsome : ∀ r, q r = true → Goes J (fun own => P own ∧ own.has k) (f (some r))) :
    Goes J P (.lock k q f) := fun own ho =>
  ⟨fun r hr => ⟨fun hk => hsome r hr own ⟨ho, hk⟩, fun hnot => ⟨hP.next own k r ho hnot (hq r hr),
    hsome r hr _ ⟨hP.lock own k r ho (hq r hr), Taken.has_cons.mpr (Or.inl rfl)⟩⟩⟩, hnone own ho⟩

theorem Goes.lockRow {f : Option (Row k) → Prog Row N} (hk : ∀ r, A k r) (hnone : Goes J P (f none))
    (hsome : ∀ r, Goes J (fun own => P own ∧ own.has k) (f (some r))) : Goes J P (.lockRow k f) :=
  .lock hP (fun r _ => hk r) hnone fun r _ => hsome r

/-- A row that may not be held yet is written. -/
theorem Goes.write {r : Option (Row k)} (hk : ∀ o, F k o) (h : Goes J P p) : Goes J P (.put k r p) :=
  fun own ho => ⟨fun _ => h own ho, fun _ o => h _ (hP.write own k o ho (hk o))⟩

theorem Goes.insertOr {r : Row k} (hk : F k none) (hf : Goes J P failure) (h : Goes J P p) :
    Goes J P (.insertOr k r failure p) := fun own ho =>
  ⟨fun _ => h own ho, fun _ => h _ (hP.write own k none ho hk), hf own ho⟩

theorem Goes.update {q : Row k → Bool} {g : Row k → Row k} {f : Bool → Prog Row N} (hq : ∀ r, q r = true → A k r)
    (hf : ∀ b, Goes J P (f b)) : Goes J P (.update k q g f) :=
  .lock hP hq (hf false) fun _ _ => .put (fun _ ho => ho.2) ((hf true).mono fun _ ho => ho.1)

theorem Goes.updateEach {q : (k : K) → Row k → Bool} {g : (k : K) → Row k → Row k}
    (hq : ∀ k r, q k r = true → A k r) (h : Goes J P p) : ∀ ks : List K, Goes J P (.updateEach q g ks p)
  | [] => h
  | k :: ks => .update hP (hq k) fun _ => Goes.updateEach hq h ks

/-- `UPDATE … WHERE` locks the rows that meet its condition. -/
theorem Goes.updateWhere {q : (k : K) → Row k → Bool} {g : (k : K) → Row k → Row k}
    (hq : ∀ k r, q k r = true → A k r) (h : Goes J P p) : Goes J P (.updateWhere q g p) :=
  .read fun _ => .updateEach hP hq h _

end Allowed

end Rules

end Locks
end Transactions
