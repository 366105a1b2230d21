/-
# What a thread does, seen from outside

A `Conduct` looks at a part of the database and at a part of each thread (its
uncommitted writes and its log), and says which moves a thread may make between
what is seen. `Prog.Conducts` is the proof obligation of a program alone,
statement by statement; in a run of such programs every step is such a move of
one thread, or stops it (`Conducting.step`). What a run keeps is then proved of
the moves, with no program in sight.

A piece of a program that writes and notes nothing of what is seen
(`Prog.Apart`) is passed over at once (`Conducts.of_apart`); and alone it keeps
to what ignores the rows it writes (`Apart.keepsAll`).

Key definitions: `Conduct`, `Prog.Conducts`, `Conducting`, `Prog.Apart`.
Key theorems: `Conducting.step`, `Conducting.run`, `Conducts.of_apart`, `Apart.keepsAll`.
-/
import FlexyVotes.Lib.Serial

set_option linter.unusedSectionVars false

namespace Transactions

variable {K : Type} [DecidableEq K] {Row : K → Type} {N D L : Type}

/-- What is seen of a database (`D`) and of a thread (`L`), what always holds of
the database, and the moves of one thread. -/
structure Conduct {K : Type} [DecidableEq K] (Row : K → Type) (N D L : Type) where
  see : Db Row → D
  here : Writes Row → List N → L
  holds : D → Prop
  move : D → L → D → L → Prop

namespace Prog

/-- The obligations of a program with the writes `w` and the log `log`: every
statement is a move, whatever the others have committed before it. -/
def Conducts (C : Conduct Row N D L) : Prog Row N → Writes Row → List N → Prop
  | .halt, _, _ => True
  | .read f, w, log => ∀ db, C.holds (C.see db) →
    C.move (C.see db) (C.here w log) (C.see db) (C.here w ((f (db.apply w)).settle log).2) ∧
      Conducts C (f (db.apply w)) w log
  | .lock k q f, w, log => ∀ db, C.holds (C.see db) →
    (∀ r, (db.apply w).row k = some r → q r = true →
      C.move (C.see db) (C.here w log) (C.see db) (C.here w ((f (some r)).settle log).2) ∧ Conducts C (f (some r)) w log) ∧
    ((∀ r, (db.apply w).row k = some r → q r = false) →
      C.move (C.see db) (C.here w log) (C.see db) (C.here w ((f none).settle log).2) ∧ Conducts C (f none) w log)
  | .insert k r f, w, log => ∀ db, C.holds (C.see db) →
    ((db.apply w).row k = none →
      C.move (C.see db) (C.here w log) (C.see db) (C.here (⟨k, some r⟩ :: w) ((f true).settle log).2) ∧
        Conducts C (f true) (⟨k, some r⟩ :: w) log) ∧
    ((db.apply w).row k ≠ none →
      C.move (C.see db) (C.here w log) (C.see db) (C.here w ((f false).settle log).2) ∧ Conducts C (f false) w log)
  | .put k r p, w, log => ∀ db, C.holds (C.see db) →
    C.move (C.see db) (C.here w log) (C.see db) (C.here (⟨k, r⟩ :: w) (p.settle log).2) ∧ Conducts C p (⟨k, r⟩ :: w) log
  | .commit p, w, log => ∀ db, C.holds (C.see db) →
    C.move (C.see db) (C.here w log) (C.see (db.apply w)) (C.here [] (p.settle log).2) ∧ Conducts C p [] log
  | .rollback p, w, log => ∀ db, C.holds (C.see db) →
    C.move (C.see db) (C.here w log) (C.see db) (C.here [] (p.settle log).2) ∧ Conducts C p [] log
  | .note n p, w, log => Conducts C p w (n :: log)

/-- A piece of a program: up to the ends `out` it writes rows of `p` and notes
entries of `n` only. -/
inductive Apart (p : K → Bool) (n : N → Bool) (out : Prog Row N → Prop) : Prog Row N → Prop
  | out {q : Prog Row N} : out q → Apart p n out q
  | halt : Apart p n out .halt
  | read {f : Db Row → Prog Row N} : (∀ db, Apart p n out (f db)) → Apart p n out (.read f)
  | lock {k : K} {q : Row k → Bool} {f : Option (Row k) → Prog Row N} : (∀ r, Apart p n out (f r)) →
    Apart p n out (.lock k q f)
  | insert {k : K} {r : Row k} {f : Bool → Prog Row N} : p k = true → (∀ b, Apart p n out (f b)) →
    Apart p n out (.insert k r f)
  | put {k : K} {r : Option (Row k)} {q : Prog Row N} : p k = true → Apart p n out q → Apart p n out (.put k r q)
  | commit {q : Prog Row N} : Apart p n out q → Apart p n out (.commit q)
  | rollback {q : Prog Row N} : Apart p n out q → Apart p n out (.rollback q)
  | note {x : N} {q : Prog Row N} : n x = true → Apart p n out q → Apart p n out (.note x q)

end Prog

open Prog

/-! ### Runs -/

variable {C : Conduct Row N D L}

theorem Prog.Conducts.settle : ∀ {p : Prog Row N} {w : Writes Row} {log : List N},
    Conducts C p w log → Conducts C (p.settle log).1 w (p.settle log).2
  | .note n p, w, log, h => by
    have hp : Conducts C p w (n :: log) := h
    exact hp.settle
  | .halt, _, _, h | .read _, _, _, h | .lock _ _ _, _, _, h | .insert _ _ _, _, _, h | .put _ _ _, _, _, h
  | .commit _, _, _, h | .rollback _, _, _, h => h

/-- A state of a run of such programs. -/
structure Conducting (C : Conduct Row N D L) (s : State Row N) : Prop where
  holds : C.holds (C.see s.db)
  conducts : ∀ t, (s.thr t).prog.Conducts C (s.thr t).pend (s.thr t).log
  statement : ∀ t, (s.thr t).prog.AtStatement

theorem Conducting.init {db : Db Row} {progs : ℕ → Prog Row N} (hi : C.holds (C.see db))
    (h : ∀ t, (progs t).Conducts C [] []) : Conducting C (State.init db progs) :=
  ⟨hi, fun t => (h t).settle, fun _ => Prog.settle_atStatement _ _⟩

/-- What is seen of a thread. -/
def Conduct.at (C : Conduct Row N D L) (th : Thread Row N) : L := C.here th.pend th.log

/-- What a step does to the database and its thread: a move, or the end of the
thread, which wrote nothing. -/
def Moved (C : Conduct Row N D L) (s : State Row N) (t : ℕ) (s' : State Row N) : Prop :=
  ((s.thr t).prog ≠ .halt ∧ C.move (C.see s.db) (C.at (s.thr t)) (C.see s'.db) (C.at (s'.thr t))) ∨
    (s'.db = s.db ∧ s'.thr t = ⟨.halt, [], (s.thr t).log⟩)

/-- The thread `t` goes on at `p`. -/
private theorem Conducting.goto {s : State Row N} (s₁ : State Row N) {t : ℕ} {p : Prog Row N} {w : Writes Row} {log : List N}
    (h : Conducting C s) (hthr : s₁.thr = s.thr) (hlive : (s.thr t).prog ≠ .halt)
    (hp : C.move (C.see s.db) (C.at (s.thr t)) (C.see s₁.db) (C.here w (p.settle log).2) ∧ p.Conducts C w log)
    (hkeep : ∀ d l d' l', C.holds d → C.move d l d' l' → C.holds d') :
    Conducting C (s₁.goto t p w log) ∧ Moved C s t (s₁.goto t p w log) := by
  refine ⟨⟨?_, fun u => ?_, fun u => ?_⟩, Or.inl ⟨hlive, ?_⟩⟩
  · exact hkeep _ _ _ _ h.holds hp.1
  · by_cases hu : u = t
    · subst hu
      simpa using hp.2.settle
    · simpa [hu, hthr] using h.conducts u
  · by_cases hu : u = t
    · subst hu
      simpa using Prog.settle_atStatement _ _
    · simpa [hu, hthr] using h.statement u
  · simpa [Conduct.at] using hp.1

/-- **A step of a run is a move** of its thread, or stops it. -/
theorem Conducting.step (hkeep : ∀ d l d' l', C.holds d → C.move d l d' l' → C.holds d') {s s' : State Row N} {t : ℕ}
    (h : Conducting C s) (hs : Step s t s') : Conducting C s' ∧ Moved C s t s' := by
  have hp := h.conducts t
  rcases hs with hf | rfl
  · have hlive : (s.thr t).prog ≠ .halt := fun hhalt => by
      unfold fire at hf
      simp only [hhalt] at hf
      cases hf
    unfold fire at hf
    simp only at hf
    split at hf <;> rename_i hprog <;> rw [hprog] at hp
    · cases hf
    · -- a read
      cases hf
      exact h.goto s rfl hlive (hp _ h.holds) hkeep
    · -- a lock
      obtain ⟨hsome, hnone⟩ := hp _ h.holds
      split at hf
      · rename_i hrow
        cases hf
        refine h.goto s rfl hlive (hnone fun r hr => ?_) hkeep
        rw [hrow] at hr
        cases hr
      · rename_i r hrow
        split at hf
        · rename_i hq
          split at hf
          · cases hf
            exact h.goto (s.take t _) rfl hlive (hsome r hrow hq) hkeep
          · cases hf
        · rename_i hq
          cases hf
          refine h.goto s rfl hlive (hnone fun r' hr' => ?_) hkeep
          rw [hrow] at hr'
          cases hr'
          simpa using hq
    · -- an insert
      obtain ⟨htrue, hfalse⟩ := hp _ h.holds
      split at hf
      · rename_i r' hrow
        cases hf
        exact h.goto s rfl hlive (hfalse (by simp [hrow])) hkeep
      · rename_i hrow
        split at hf
        · cases hf
          exact h.goto (s.take t _) rfl hlive (htrue hrow) hkeep
        · cases hf
    · -- a write
      split at hf
      · cases hf
        exact h.goto (s.take t _) rfl hlive (hp _ h.holds) hkeep
      · cases hf
    · -- a commit
      cases hf
      exact h.goto (State.release { s with db := s.db.apply (s.thr t).pend } t) rfl hlive (hp _ h.holds) hkeep
    · -- a rollback
      cases hf
      exact h.goto (s.release t) rfl hlive (hp _ h.holds) hkeep
    · -- a log entry is never next
      have hstatement := h.statement t
      rw [hprog] at hstatement
      exact hstatement.elim
  · refine ⟨⟨h.holds, fun u => ?_, fun u => ?_⟩, Or.inr ⟨rfl, ?_⟩⟩
    · by_cases hu : u = t
      · subst hu
        have hthr : (s.abort u).thr u = ⟨.halt, [], (s.thr u).log⟩ := by simp [State.abort, Thread.at, settle]
        rw [hthr]
        trivial
      · simpa [State.abort, hu] using h.conducts u
    · by_cases hu : u = t
      · subst hu
        simp [State.abort, settle, AtStatement]
      · simpa [State.abort, hu] using h.statement u
    · simp [State.abort, Thread.at, settle]

/-- **What every move keeps, a run keeps.** -/
theorem Conducting.run (hkeep : ∀ d l d' l', C.holds d → C.move d l d' l' → C.holds d')
    {A : State Row N → ℕ → State Row N → Prop} {I : State Row N → Prop}
    (hI : ∀ s t s', Step s t s' → A s t s' → Moved C s t s' → I s → I s') {s s' : State Row N} (hr : Run A s s')
    (h : Conducting C s) (hs : I s) : Conducting C s' ∧ I s' := by
  induction hr with
  | refl => exact ⟨h, hs⟩
  | step _ hstep hA ih =>
    obtain ⟨hc, hmoved⟩ := ih.1.step hkeep hstep
    exact ⟨hc, hI _ _ _ hstep hA hmoved ih.2⟩

/-! ### Pieces that are not seen -/

/-- Rows of `p` and notes of `n` are not seen. -/
structure Conduct.Unseen (C : Conduct Row N D L) (p : K → Bool) (n : N → Bool) : Prop where
  stay : ∀ d l, C.move d l d l
  writes : ∀ w log, Db.Only p w → C.here w log = C.here [] log
  rows : ∀ db w, Db.Only p w → C.see (db.apply w) = C.see db
  notes : ∀ w x log, n x = true → C.here w (x :: log) = C.here w log

variable {p : K → Bool} {n : N → Bool} {out : Prog Row N → Prop}

theorem Prog.AtStatement.settle {q : Prog Row N} (h : q.AtStatement) (log : List N) : (q.settle log).2 = log := by
  cases q <;> first
    | rfl
    | exact h.elim

theorem Conduct.Unseen.settle (hC : C.Unseen p n) (hout : ∀ q, out q → q.AtStatement) {q : Prog Row N}
    (h : Apart p n out q) : ∀ (w : Writes Row) (log : List N), C.here w (q.settle log).2 = C.here w log := by
  induction h with
  | out hq =>
    intro w log
    rw [(hout _ hq).settle]
  | note hx _ ih =>
    intro w log
    exact (ih w _).trans (hC.notes w _ log hx)
  | _ => exact fun _ _ => rfl

/-- **A piece that is not seen** is passed over: the ends are met with nothing
seen of the writes, and the log seen as before. -/
theorem Conducts.of_apart (hC : C.Unseen p n) (hout : ∀ q, out q → q.AtStatement) {q : Prog Row N} (h : Apart p n out q) :
    ∀ {w : Writes Row} {log : List N}, Db.Only p w → (∀ q' w' log', out q' → Db.Only p w' →
      C.here [] log' = C.here [] log → q'.Conducts C w' log') → q.Conducts C w log := by
  have hstays : ∀ {d : D} {q' : Prog Row N} {w w' : Writes Row} {log : List N}, Apart p n out q' → Db.Only p w →
      Db.Only p w' → C.move d (C.here w log) d (C.here w' (q'.settle log).2) := by
    intro d q' w w' log hq' hw hw'
    rw [hC.settle hout hq', hC.writes w _ hw, hC.writes w' _ hw']
    exact hC.stay _ _
  induction h with
  | out hq => exact fun hw hk => hk _ _ _ hq hw rfl
  | halt => exact fun _ _ => trivial
  | read hf ih => exact fun hw hk db _ => ⟨hstays (hf _) hw hw, ih _ hw hk⟩
  | lock hf ih =>
    exact fun hw hk db _ => ⟨fun r _ _ => ⟨hstays (hf _) hw hw, ih _ hw hk⟩, fun _ => ⟨hstays (hf _) hw hw, ih _ hw hk⟩⟩
  | insert hk' hf ih =>
    exact fun hw hk db _ => ⟨fun _ => ⟨hstays (hf _) hw (.cons hk' hw), ih _ (.cons hk' hw) hk⟩,
      fun _ => ⟨hstays (hf _) hw hw, ih _ hw hk⟩⟩
  | put hk' hq ih => exact fun hw hk db _ => ⟨hstays hq hw (.cons hk' hw), ih (.cons hk' hw) hk⟩
  | commit hq ih =>
    intro w log hw hk db _
    rw [hC.rows db w hw]
    exact ⟨hstays hq hw .nil, ih .nil hk⟩
  | rollback hq ih => exact fun hw hk db _ => ⟨hstays hq hw .nil, ih .nil hk⟩
  | note hx hq ih =>
    intro w log hw hk
    refine ih hw fun q' w' log' hq' hw' hlog => hk q' w' log' hq' hw' ?_
    exact hlog.trans (hC.notes [] _ log hx)

/-! ### Pieces put together -/

theorem Prog.Apart.mono {p' : K → Bool} {n' : N → Bool} {out' : Prog Row N → Prop} {q : Prog Row N} (h : Apart p n out q)
    (hp : ∀ k, p k = true → p' k = true) (hn : ∀ x, n x = true → n' x = true)
    (hout : ∀ q, out q → Apart p' n' out' q) : Apart p' n' out' q := by
  induction h with
  | out hq => exact hout _ hq
  | halt => exact .halt
  | read _ ih => exact .read ih
  | lock _ ih => exact .lock ih
  | insert hk _ ih => exact .insert (hp _ hk) ih
  | put hk _ ih => exact .put (hp _ hk) ih
  | commit _ ih => exact .commit ih
  | rollback _ ih => exact .rollback ih
  | note hx _ ih => exact .note (hn _ hx) ih

theorem Prog.Apart.lockRow {k : K} {f : Option (Row k) → Prog Row N} (hnone : Apart p n out (f none))
    (hsome : ∀ r, Apart p n out (f (some r))) : Apart p n out (.lockRow k f) :=
  .lock fun
    | none => hnone
    | some r => hsome r

theorem Prog.Apart.insertOr {k : K} {r : Row k} {failure q : Prog Row N} (hk : p k = true) (hf : Apart p n out failure)
    (hq : Apart p n out q) : Apart p n out (.insertOr k r failure q) :=
  .insert hk fun
    | true => hq
    | false => hf

theorem Prog.Apart.update {k : K} {q : Row k → Bool} {g : Row k → Row k} {f : Bool → Prog Row N} (hk : p k = true)
    (hf : ∀ b, Apart p n out (f b)) : Apart p n out (.update k q g f) :=
  .lock fun
    | none => hf false
    | some _ => .put hk (hf true)

theorem Prog.Apart.updateEach {q : (k : K) → Row k → Bool} {g : (k : K) → Row k → Row k} {f : Prog Row N}
    (hf : Apart p n out f) : ∀ {ks : List K}, (∀ k ∈ ks, p k = true) → Apart p n out (.updateEach q g ks f)
  | [], _ => hf
  | _ :: _, hk => .update (hk _ (by simp)) fun _ => updateEach hf fun k h => hk k (List.mem_cons_of_mem _ h)

theorem Prog.Apart.updateWhere {q : (k : K) → Row k → Bool} {g : (k : K) → Row k → Row k} {f : Prog Row N}
    (hf : Apart p n out f) (hq : ∀ k r, q k r = true → p k = true) : Apart p n out (.updateWhere q g f) :=
  .read fun db => .updateEach hf fun k hk => by
    obtain ⟨r, -, hr⟩ := (db.mem_select q k).mp hk
    exact hq k r hr

/-! ### Pieces that run alone -/

/-- **A piece whose rows do not matter** to `R` keeps to it, if its ends do. -/
theorem Prog.Apart.keepsAll {R : Db Row → Db Row → Prop} (hrefl : ∀ v, R v v)
    (htrans : ∀ v v' v'', R v v' → R v' v'' → R v v'') (hR : Ignores R p) {q : Prog Row N} (h : Apart p n out q)
    (hout : ∀ q, out q → q.KeepsAll R) : q.KeepsAll R := by
  induction h with
  | out hq => exact hout _ hq
  | halt => exact fun _ => .halt hrefl
  | read _ ih => exact fun v => .read (ih v v)
  | @lock k c f _ ih =>
    intro v db w log hv hw
    unfold Prog.exec
    split
    · exact ih none v db w log hv hw
    · rename_i r _
      split
      · exact ih (some r) v db w log hv hw
      · exact ih none v db w log hv hw
  | insert hk _ ih =>
    exact fun v => .insert htrans (fun _ => hR _ _ _ hk) (fun _ => ih true _) fun _ => ih false _
  | put hk _ ih => exact fun v => .put htrans (hR _ _ _ hk) (ih _)
  | commit _ ih => exact fun v => .commit htrans hrefl (ih v)
  | rollback _ ih => exact fun v => .rollback hrefl ih
  | note _ _ ih => exact fun v => .note (ih v)

end Transactions
