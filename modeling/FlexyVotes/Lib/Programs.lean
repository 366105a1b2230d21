/-
# Transaction programs

A program is a list of statements against the tables (`Prog`): a read, a row
lock, an insert under a unique key, a write of a locked row, and the ends of a
transaction. Programs run beside each other as READ COMMITTED transactions
do: a plain read sees what is committed and the transaction's own writes, a
lock waits for the transaction that holds the row and then looks at the row
again, and an insert under a taken key fails. `fire` is one statement of one
thread; `Run C` are the runs whose steps all meet `C`.

`note` writes a thread's log at once with the statement before it. The log is
no part of the database: it is what the thread told its caller, and what
theorems about the order of things speak of.

Key definitions: `Prog`, `State`, `fire`, `Step`, `Run`, `Prog.exec`.
-/
import FlexyVotes.Lib.Tables

set_option linter.unusedSectionVars false

namespace Transactions

/-- A program over the rows `Row` with log entries `N`. -/
inductive Prog {K : Type} (Row : K → Type) (N : Type) : Type
  /-- Nothing more to do. -/
  | halt : Prog Row N
  /-- A plain read: what is committed, under the transaction's own writes. -/
  | read : (Db Row → Prog Row N) → Prog Row N
  /-- The row under a key locked for writing if it meets the condition. -/
  | lock : (k : K) → (Row k → Bool) → (Option (Row k) → Prog Row N) → Prog Row N
  /-- A new row under a unique key; `false` when the key is taken. -/
  | insert : (k : K) → Row k → (Bool → Prog Row N) → Prog Row N
  /-- A locked row written, or deleted (`none`). -/
  | put : (k : K) → Option (Row k) → Prog Row N → Prog Row N
  | commit : Prog Row N → Prog Row N
  | rollback : Prog Row N → Prog Row N
  /-- A log entry, made at once with the statement before it. -/
  | note : N → Prog Row N → Prog Row N

variable {K : Type} [DecidableEq K] {Row : K → Type} {N : Type}

namespace Prog

/-- The lock of a row whatever it holds. -/
def lockRow (k : K) (f : Option (Row k) → Prog Row N) : Prog Row N := .lock k (fun _ => true) f

/-- A new row, or `failure` when its key is taken. -/
def insertOr (k : K) (r : Row k) (failure p : Prog Row N) : Prog Row N :=
  .insert k r fun
    | true => p
    | false => failure

/-- `UPDATE … WHERE`: the row under `k`, if it meets `q`, is locked and becomes
`g` of itself. -/
def update (k : K) (q : Row k → Bool) (g : Row k → Row k) (f : Bool → Prog Row N) : Prog Row N :=
  .lock k q fun
    | none => f false
    | some r => .put k (some (g r)) (f true)

/-- `UPDATE … WHERE` over the keys `ks`, one row after the other. -/
def updateEach (q : (k : K) → Row k → Bool) (g : (k : K) → Row k → Row k) :
    List K → Prog Row N → Prog Row N
  | [], p => p
  | k :: ks, p => update k (q k) (g k) fun _ => updateEach q g ks p

/-- `UPDATE … WHERE` over all rows that meet `q`: the keys as one read finds
them, then each row that still meets it. -/
def updateWhere (q : (k : K) → Row k → Bool) (g : (k : K) → Row k → Row k) (p : Prog Row N) : Prog Row N :=
  .read fun db => updateEach q g (db.select q) p

/-- `DELETE … WHERE` over the keys `ks`, one row after the other. -/
def deleteEach (q : (k : K) → Row k → Bool) : List K → Prog Row N → Prog Row N
  | [], p => p
  | k :: ks, p => .lock k (q k) fun
    | none => deleteEach q ks p
    | some _ => .put k none (deleteEach q ks p)

/-- `DELETE … WHERE` over all rows that meet `q`. -/
def deleteWhere (q : (k : K) → Row k → Bool) (p : Prog Row N) : Prog Row N :=
  .read fun db => deleteEach q (db.select q) p

/-- The log entries `ns`, in order. -/
def noteAll (ns : List N) (p : Prog Row N) : Prog Row N := ns.foldr .note p

/-- The program is at its end. -/
def ended : Prog Row N → Bool
  | .halt => true
  | _ => false

theorem ended_iff {p : Prog Row N} : p.ended = true ↔ p = .halt := by
  cases p <;> simp [ended]

/-- The entries a program logs before its next statement, and what is left. -/
def settle : Prog Row N → List N → Prog Row N × List N
  | .note n p, log => settle p (n :: log)
  | p, log => (p, log)

/-- A program at a statement, not at a log entry. -/
def AtStatement : Prog Row N → Prop
  | .note _ _ => False
  | _ => True

theorem settle_atStatement : ∀ (p : Prog Row N) (log : List N), (p.settle log).1.AtStatement
  | .note n p, log => settle_atStatement p (n :: log)
  | .halt, _ | .read _, _ | .lock _ _ _, _ | .insert _ _ _, _ | .put _ _ _, _ | .commit _, _
  | .rollback _, _ => trivial

theorem settle_suffix : ∀ (p : Prog Row N) (log : List N), log <:+ (p.settle log).2
  | .note n p, log => (List.suffix_cons n log).trans (settle_suffix p (n :: log))
  | .halt, _ | .read _, _ | .lock _ _ _, _ | .insert _ _ _, _ | .put _ _ _, _ | .commit _, _
  | .rollback _, _ => List.suffix_rfl

end Prog

/-- A thread: what it has left to do, what it wrote and did not commit, and
its log, newest first. -/
structure Thread {K : Type} (Row : K → Type) (N : Type) where
  prog : Prog Row N
  pend : Writes Row
  log : List N

/-- A thread at the next statement of `p`. -/
def Thread.at (p : Prog Row N) (pend : Writes Row) (log : List N) : Thread Row N :=
  ⟨(p.settle log).1, pend, (p.settle log).2⟩

@[simp] theorem Thread.at_prog (p : Prog Row N) (w : Writes Row) (l : List N) :
    (Thread.at p w l).prog = (p.settle l).1 := rfl

@[simp] theorem Thread.at_pend (p : Prog Row N) (w : Writes Row) (l : List N) :
    (Thread.at p w l).pend = w := rfl

@[simp] theorem Thread.at_log (p : Prog Row N) (w : Writes Row) (l : List N) :
    (Thread.at p w l).log = (p.settle l).2 := rfl

/-- The committed database, who holds which row, and the threads. -/
structure State {K : Type} (Row : K → Type) (N : Type) where
  db : Db Row
  owner : K → Option ℕ
  thr : ℕ → Thread Row N

namespace State

/-- All programs before their first statement. -/
def init (db : Db Row) (progs : ℕ → Prog Row N) : State Row N where
  db := db
  owner := fun _ => none
  thr := fun t => .at (progs t) [] []

/-- No other thread holds `k`. -/
def free (s : State Row N) (t : ℕ) (k : K) : Bool := s.owner k == none || s.owner k == some t

/-- Thread `t` goes on with `p`. -/
def goto (s : State Row N) (t : ℕ) (p : Prog Row N) (pend : Writes Row) (log : List N) : State Row N :=
  { s with thr := Function.update s.thr t (.at p pend log) }

/-- Thread `t` takes the lock of `k`. -/
def take (s : State Row N) (t : ℕ) (k : K) : State Row N :=
  { s with owner := Function.update s.owner k (some t) }

/-- The locks of `t` are gone. -/
def release (s : State Row N) (t : ℕ) : State Row N :=
  { s with owner := fun k => if s.owner k = some t then none else s.owner k }

/-- Thread `t` is stopped, its transaction rolled back: a crash, a lost
connection, the victim of a deadlock. -/
def abort (s : State Row N) (t : ℕ) : State Row N :=
  (s.release t).goto t .halt [] (s.thr t).log

end State

/-- The next statement of thread `t`, if nothing blocks it. -/
def fire (s : State Row N) (t : ℕ) : Option (State Row N) :=
  let th := s.thr t
  let view := s.db.apply th.pend
  match th.prog with
  | .halt => none
  | .read f => some (s.goto t (f view) th.pend th.log)
  | .lock k q f =>
    match view.row k with
    | none => some (s.goto t (f none) th.pend th.log)
    | some r =>
      if q r then
        if s.free t k then some ((s.take t k).goto t (f (some r)) th.pend th.log) else none
      else some (s.goto t (f none) th.pend th.log)
  | .insert k r f =>
    match view.row k with
    | some _ => some (s.goto t (f false) th.pend th.log)
    | none =>
      if s.free t k then
        some ((s.take t k).goto t (f true) (⟨k, some r⟩ :: th.pend) th.log)
      else none
  | .put k r p =>
    if s.free t k then some ((s.take t k).goto t p (⟨k, r⟩ :: th.pend) th.log) else none
  | .commit p => some (({ s with db := view }.release t).goto t p [] th.log)
  | .rollback p => some ((s.release t).goto t p [] th.log)
  | .note n p => some (s.goto t p th.pend (n :: th.log))

/-- One statement of thread `t`, or its end. -/
def Step (s : State Row N) (t : ℕ) (s' : State Row N) : Prop :=
  fire s t = some s' ∨ s' = s.abort t

/-- The runs whose steps all meet `C`. -/
inductive Run (C : State Row N → ℕ → State Row N → Prop) (s : State Row N) : State Row N → Prop
  | refl : Run C s s
  | step {s₁ s₂ : State Row N} {t : ℕ} : Run C s s₁ → Step s₁ t s₂ → C s₁ t s₂ → Run C s s₂

/-- Any step. -/
def Any : State Row N → ℕ → State Row N → Prop := fun _ _ _ => True

/-- The state after the threads of a schedule fired one after the other. -/
def replay (s : State Row N) : List ℕ → Option (State Row N)
  | [] => some s
  | t :: ts => (fire s t).bind fun s' => replay s' ts

/-- The same, for the first `n` threads and while every step passes a check. -/
def replayIf (n : ℕ) (c : State Row N → ℕ → State Row N → Bool) (s : State Row N) :
    List ℕ → Option (State Row N)
  | [] => some s
  | t :: ts => (fire s t).bind fun s' => if t < n && c s t s' then replayIf n c s' ts else none

theorem Run.trans {C : State Row N → ℕ → State Row N → Prop} {s s₁ s₂ : State Row N}
    (h₁ : Run C s s₁) (h₂ : Run C s₁ s₂) : Run C s s₂ := by
  induction h₂ with
  | refl => exact h₁
  | step _ hs hc ih => exact .step ih hs hc

theorem Run.mono {C C' : State Row N → ℕ → State Row N → Prop} (h : ∀ s t s', C s t s' → C' s t s')
    {s s' : State Row N} (hr : Run C s s') : Run C' s s' := by
  induction hr with
  | refl => exact .refl
  | step _ hs hc ih => exact .step ih hs (h _ _ _ hc)

/-- A run to a state that meets `D` is a run through such states, if a step only
leaves them. -/
theorem Run.backward {D : State Row N → Prop} (hD : ∀ s t s', Step s t s' → D s' → D s)
    {C : State Row N → ℕ → State Row N → Prop} {s s' : State Row N} (h : Run C s s') (hd : D s') :
    Run (fun _ _ s₂ => D s₂) s s' := by
  induction h with
  | refl => exact .refl
  | step _ hs _ ih => exact .step (ih (hD _ _ _ hs hd)) hs hd

/-- A schedule that fires is a run. -/
theorem Run.of_replay {s : State Row N} : ∀ {s₁ s₂ : State Row N} (ts : List ℕ),
    Run Any s s₁ → replay s₁ ts = some s₂ → Run Any s s₂
  | s₁, s₂, [], hr, h => by
    simp only [replay, Option.some.injEq] at h
    exact h ▸ hr
  | s₁, s₂, t :: ts, hr, h => by
    simp only [replay] at h
    cases hf : fire s₁ t with
    | none => simp [hf] at h
    | some s' =>
      rw [hf] at h
      exact Run.of_replay ts (.step hr (Or.inl hf) trivial) h

/-! ### What a step changes -/

@[simp] theorem State.goto_db (s : State Row N) (t : ℕ) (p : Prog Row N) (w : Writes Row)
    (l : List N) : (s.goto t p w l).db = s.db := rfl

@[simp] theorem State.goto_owner (s : State Row N) (t : ℕ) (p : Prog Row N) (w : Writes Row)
    (l : List N) : (s.goto t p w l).owner = s.owner := rfl

@[simp] theorem State.goto_thr_self (s : State Row N) (t : ℕ) (p : Prog Row N) (w : Writes Row)
    (l : List N) : (s.goto t p w l).thr t = .at p w l := by simp [State.goto]

@[simp] theorem State.goto_thr_ne (s : State Row N) (t u : ℕ) (p : Prog Row N) (w : Writes Row)
    (l : List N) (h : ¬ u = t) : (s.goto t p w l).thr u = s.thr u := by simp [State.goto, h]

@[simp] theorem State.take_db (s : State Row N) (t : ℕ) (k : K) : (s.take t k).db = s.db := rfl

@[simp] theorem State.take_thr (s : State Row N) (t : ℕ) (k : K) : (s.take t k).thr = s.thr := rfl

@[simp] theorem State.release_db (s : State Row N) (t : ℕ) : (s.release t).db = s.db := rfl

@[simp] theorem State.release_thr (s : State Row N) (t : ℕ) : (s.release t).thr = s.thr := rfl

theorem State.free_iff (s : State Row N) (t : ℕ) (k : K) :
    s.free t k = true ↔ s.owner k = none ∨ s.owner k = some t := by simp [State.free]

theorem State.take_owner (s : State Row N) (t : ℕ) (k k' : K) :
    (s.take t k).owner k' = if k' = k then some t else s.owner k' := by
  simp [State.take, Function.update_apply]

/-- A statement of `t` leaves the other threads where they are. -/
theorem fire_thr_ne {s s' : State Row N} {t u : ℕ} (h : fire s t = some s') (hu : u ≠ t) :
    s'.thr u = s.thr u := by
  have hgoto : ∀ (s₁ : State Row N) p w l, s₁.thr = s.thr → (s₁.goto t p w l).thr u = s.thr u :=
    fun s₁ p w l hthr => by rw [State.goto_thr_ne _ _ _ _ _ _ hu, hthr]
  unfold fire at h
  simp only at h
  split at h
  · cases h
  · cases h
    exact hgoto _ _ _ _ rfl
  · split at h
    · cases h
      exact hgoto _ _ _ _ rfl
    · split at h
      · split at h
        · cases h
          exact hgoto _ _ _ _ rfl
        · cases h
      · cases h
        exact hgoto _ _ _ _ rfl
  · split at h
    · cases h
      exact hgoto _ _ _ _ rfl
    · split at h
      · cases h
        exact hgoto _ _ _ _ rfl
      · cases h
  · split at h
    · cases h
      exact hgoto _ _ _ _ rfl
    · cases h
  · cases h
    exact hgoto _ _ _ _ rfl
  · cases h
    exact hgoto _ _ _ _ rfl
  · cases h
    exact hgoto _ _ _ _ rfl

/-- The threads from `n` on have logged nothing. -/
def Silent (n : ℕ) (s : State Row N) : Prop := ∀ u, n ≤ u → (s.thr u).log = []

/-- A schedule of the first `n` threads whose steps all pass the check `c` is a
run of `C`, if the check is enough while the other threads are silent. -/
theorem Run.of_replayIf {C : State Row N → ℕ → State Row N → Prop} {c : State Row N → ℕ → State Row N → Bool}
    {n : ℕ} (hc : ∀ s t s', Silent n s → c s t s' = true → C s t s') {s : State Row N} :
    ∀ {s₁ s₂ : State Row N} (ts : List ℕ), Silent n s₁ → Run C s s₁ →
      replayIf n c s₁ ts = some s₂ → Run C s s₂
  | s₁, s₂, [], _, hr, h => by
    simp only [replayIf, Option.some.injEq] at h
    exact h ▸ hr
  | s₁, s₂, t :: ts, hn, hr, h => by
    simp only [replayIf, Option.bind_eq_some_iff] at h
    obtain ⟨s', hf, h⟩ := h
    split at h
    · rename_i hcheck
      simp only [Bool.and_eq_true, decide_eq_true_eq] at hcheck
      refine Run.of_replayIf hc ts (fun u hu => ?_) (.step hr (Or.inl hf) (hc _ _ _ hn hcheck.2)) h
      rw [fire_thr_ne hf (by omega)]
      exact hn u hu
    · cases h

/-- A schedule of the first `n` threads leaves the others silent. -/
theorem Silent.replayIf {c : State Row N → ℕ → State Row N → Bool} {n : ℕ} :
    ∀ {s s' : State Row N} (ts : List ℕ), Silent n s → Transactions.replayIf n c s ts = some s' → Silent n s'
  | s, s', [], hn, h => by
    simp only [Transactions.replayIf, Option.some.injEq] at h
    exact h ▸ hn
  | s, s', t :: ts, hn, h => by
    simp only [Transactions.replayIf, Option.bind_eq_some_iff] at h
    obtain ⟨s₁, hf, h⟩ := h
    split at h
    · rename_i hcheck
      simp only [Bool.and_eq_true, decide_eq_true_eq] at hcheck
      refine Silent.replayIf ts (fun u hu => ?_) h
      rw [fire_thr_ne hf (by omega)]
      exact hn u hu
    · cases h

/-- A step of one thread leaves the others. -/
theorem Step.thr_ne {s s' : State Row N} {t u : ℕ} (h : Step s t s') (hu : u ≠ t) : s'.thr u = s.thr u := by
  rcases h with h | rfl
  · exact fire_thr_ne h hu
  · simp [State.abort, hu]

/-- A thread forgets nothing it logged. -/
theorem Step.log_suffix {s s' : State Row N} {t : ℕ} (h : Step s t s') (u : ℕ) :
    (s.thr u).log <:+ (s'.thr u).log := by
  have hgoto : ∀ (s₁ : State Row N) p w l, s₁.thr = s.thr → (s.thr t).log <:+ l →
      (s.thr u).log <:+ ((s₁.goto t p w l).thr u).log := fun s₁ p w l hthr hl => by
    by_cases hu : u = t
    · subst hu
      simpa using hl.trans (Prog.settle_suffix p l)
    · simp [hu, hthr]
  rcases h with h | rfl
  · unfold fire at h
    simp only at h
    split at h
    · cases h
    · cases h
      exact hgoto _ _ _ _ rfl List.suffix_rfl
    · split at h
      · cases h
        exact hgoto _ _ _ _ rfl List.suffix_rfl
      · split at h
        · split at h
          · cases h
            exact hgoto _ _ _ _ rfl List.suffix_rfl
          · cases h
        · cases h
          exact hgoto _ _ _ _ rfl List.suffix_rfl
    · split at h
      · cases h
        exact hgoto _ _ _ _ rfl List.suffix_rfl
      · split at h
        · cases h
          exact hgoto _ _ _ _ rfl List.suffix_rfl
        · cases h
    · split at h
      · cases h
        exact hgoto _ _ _ _ rfl List.suffix_rfl
      · cases h
    · cases h
      exact hgoto _ _ _ _ rfl List.suffix_rfl
    · cases h
      exact hgoto _ _ _ _ rfl List.suffix_rfl
    · cases h
      exact hgoto _ _ _ _ rfl (List.suffix_cons _ _)
  · exact hgoto _ _ _ _ rfl List.suffix_rfl

theorem Run.log_suffix {C : State Row N → ℕ → State Row N → Prop} {s s' : State Row N}
    (h : Run C s s') (u : ℕ) : (s.thr u).log <:+ (s'.thr u).log := by
  induction h with
  | refl => exact List.suffix_rfl
  | step _ hs _ ih => exact ih.trans (hs.log_suffix u)

/-! ### A program alone

`Prog.exec` runs a program to its end with no thread beside it. -/

/-- What a program leaves when it runs alone: the database and its log. -/
structure Outcome {K : Type} (Row : K → Type) (N : Type) where
  db : Db Row
  log : List N

/-- The run of a program alone, from the database `db` and the writes `w`. -/
def Prog.exec : Prog Row N → Db Row → Writes Row → List N → Outcome Row N
  | .halt, db, _, log => ⟨db, log⟩
  | .read f, db, w, log => (f (db.apply w)).exec db w log
  | .lock k q f, db, w, log =>
    match (db.apply w).row k with
    | none => (f none).exec db w log
    | some r => if q r then (f (some r)).exec db w log else (f none).exec db w log
  | .insert k r f, db, w, log =>
    match (db.apply w).row k with
    | some _ => (f false).exec db w log
    | none => (f true).exec db (⟨k, some r⟩ :: w) log
  | .put k r p, db, w, log => p.exec db (⟨k, r⟩ :: w) log
  | .commit p, db, w, log => p.exec (db.apply w) [] log
  | .rollback p, db, _, log => p.exec db [] log
  | .note n p, db, w, log => p.exec db w (n :: log)

end Transactions
