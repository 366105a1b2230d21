/-
# What threads tell

A thread tells its caller what it notes. `Prog.Tells φ τ` is an obligation on a
program alone: every row it writes is one of `φ`, and what it notes right after a
statement is something that statement may tell of what it sees (`τ`). In a run
of such programs every row is one of `φ` (`Telling.step`), and what is noted was
told by a statement the thread had come to (`Telling.noted`).

Key definitions: `Prog.news`, `Prog.Tells`, `Telling`.
Key theorems: `Telling.step`, `Telling.noted`.
-/
import FlexyVotes.Lib.Programs

set_option linter.unusedSectionVars false

namespace Transactions

variable {K : Type} [DecidableEq K] {Row : K → Type} {N : Type}

namespace Prog

/-- What is noted before the next statement. -/
def news (p : Prog Row N) : List N := (p.settle []).2

theorem settle_news : ∀ (p : Prog Row N) (log : List N), (p.settle log).2 = p.news ++ log
  | .note n p, log => by
    have hrest : ∀ l, (p.settle l).2 = p.news ++ l := settle_news p
    have hnews : (Prog.note n p : Prog Row N).news = p.news ++ [n] := hrest [n]
    rw [hnews, List.append_assoc]
    exact hrest (n :: log)
  | .halt, _ | .read _, _ | .lock _ _ _, _ | .insert _ _ _, _ | .put _ _ _, _ | .commit _, _ | .rollback _, _ => rfl

theorem news_note (n : N) (p : Prog Row N) : (Prog.note n p).news = p.news ++ [n] := settle_news p [n]

theorem news_atStatement : ∀ {p : Prog Row N}, p.AtStatement → p.news = []
  | .note _ _, h => h.elim
  | .halt, _ | .read _, _ | .lock _ _ _, _ | .insert _ _ _, _ | .put _ _ _, _ | .commit _, _ | .rollback _, _ => rfl

/-- The rows the program writes are of `φ`, and each statement notes what it may
tell. -/
def Tells (φ : (k : K) → Option (Row k) → Prop) (τ : Prog Row N → Db Row → N → Prop) : Prog Row N → Prop
  | .halt => True
  | .read f => ∀ v, (∀ n ∈ (f v).news, τ (.read f) v n) ∧ Tells φ τ (f v)
  | .lock k q f => ∀ o, (∀ v, ∀ n ∈ (f o).news, τ (.lock k q f) v n) ∧ Tells φ τ (f o)
  | .insert k r f => φ k (some r) ∧ ∀ b, (∀ v, ∀ n ∈ (f b).news, τ (.insert k r f) v n) ∧ Tells φ τ (f b)
  | .put k r p => φ k r ∧ (∀ v, ∀ n ∈ p.news, τ (.put k r p) v n) ∧ Tells φ τ p
  | .commit p => (∀ v, ∀ n ∈ p.news, τ (.commit p) v n) ∧ Tells φ τ p
  | .rollback p => (∀ v, ∀ n ∈ p.news, τ (.rollback p) v n) ∧ Tells φ τ p
  | .note _ p => Tells φ τ p

section Tells

variable {φ : (k : K) → Option (Row k) → Prop} {τ : Prog Row N → Db Row → N → Prop}

/-- The obligations are those of the next statement. -/
theorem Tells.settle : ∀ {p : Prog Row N} {log : List N}, p.Tells φ τ → (p.settle log).1.Tells φ τ
  | .note _ p, _, h => by
    have h' : p.Tells φ τ := h
    exact h'.settle
  | .halt, _, h | .read _, _, h | .lock _ _ _, _, h | .insert _ _ _, _, h | .put _ _ _, _, h | .commit _, _, h
  | .rollback _, _, h => h

/-- What is noted before the next statement may be told by any. -/
def TellsFrom (φ : (k : K) → Option (Row k) → Prop) (τ : Prog Row N → Db Row → N → Prop) (p : Prog Row N) : Prop :=
  (∀ q v, ∀ n ∈ p.news, τ q v n) ∧ p.Tells φ τ

theorem TellsFrom.start {p : Prog Row N} (hp : p.AtStatement) (h : p.Tells φ τ) : p.TellsFrom φ τ := by
  refine ⟨fun _ _ n hn => ?_, h⟩
  rw [news_atStatement hp] at hn
  exact absurd hn List.not_mem_nil

theorem TellsFrom.here {p q : Prog Row N} {v : Db Row} (h : p.TellsFrom φ τ) :
    (∀ n ∈ p.news, τ q v n) ∧ p.Tells φ τ := ⟨h.1 q v, h.2⟩

theorem TellsFrom.note {n : N} {p : Prog Row N} (hn : ∀ q v, τ q v n) (h : p.TellsFrom φ τ) :
    (Prog.note n p).TellsFrom φ τ := by
  refine ⟨fun q v m hm => ?_, h.2⟩
  rw [news_note, List.mem_append, List.mem_singleton] at hm
  rcases hm with hm | rfl
  · exact h.1 q v m hm
  · exact hn q v

theorem TellsFrom.halt : (Prog.halt : Prog Row N).TellsFrom φ τ := .start trivial trivial

theorem TellsFrom.read {f : Db Row → Prog Row N} (h : ∀ v, (f v).TellsFrom φ τ) : (Prog.read f).TellsFrom φ τ :=
  .start trivial fun v => (h v).here

theorem TellsFrom.put {k : K} {r : Option (Row k)} {p : Prog Row N} (hr : φ k r) (h : p.TellsFrom φ τ) :
    (Prog.put k r p).TellsFrom φ τ := .start trivial ⟨hr, h.1 _, h.2⟩

theorem TellsFrom.commit {p : Prog Row N} (h : p.TellsFrom φ τ) : (Prog.commit p).TellsFrom φ τ :=
  .start trivial ⟨h.1 _, h.2⟩

theorem TellsFrom.rollback {p : Prog Row N} (h : p.TellsFrom φ τ) : (Prog.rollback p).TellsFrom φ τ :=
  .start trivial ⟨h.1 _, h.2⟩

theorem TellsFrom.insertOr {k : K} {r : Row k} {failure p : Prog Row N} (hr : φ k (some r))
    (hf : failure.TellsFrom φ τ) (h : p.TellsFrom φ τ) : (Prog.insertOr k r failure p).TellsFrom φ τ :=
  .start trivial ⟨hr, fun
    | true => ⟨h.1 _, h.2⟩
    | false => ⟨hf.1 _, hf.2⟩⟩

theorem TellsFrom.update {k : K} {c : Row k → Bool} {g : Row k → Row k} {f : Bool → Prog Row N}
    (hg : ∀ r, φ k (some (g r))) (h : ∀ b, (f b).TellsFrom φ τ) : (Prog.update k c g f).TellsFrom φ τ :=
  .start trivial fun
    | none => ⟨(h false).1 _, (h false).2⟩
    | some r => ⟨((h true).put (hg r)).1 _, ((h true).put (hg r)).2⟩

end Tells

end Prog

/-- Rows and uncommitted rows are of `φ`, and every thread is at a statement and
has still to tell by `τ`. -/
structure Telling (φ : (k : K) → Option (Row k) → Prop) (τ : ℕ → Prog Row N → Db Row → N → Prop) (s : State Row N) :
    Prop where
  rows : ∀ k, φ k (s.db.row k)
  tells : ∀ t, (s.thr t).prog.Tells φ (τ t)
  pend : ∀ t, ∀ e ∈ (s.thr t).pend, φ e.1 e.2
  statement : ∀ t, (s.thr t).prog.AtStatement

section Runs

variable {φ : (k : K) → Option (Row k) → Prop} {τ : ℕ → Prog Row N → Db Row → N → Prop} {s s' : State Row N} {t : ℕ}

theorem Telling.init {db : Db Row} {progs : ℕ → Prog Row N} (hrows : ∀ k, φ k (db.row k))
    (h : ∀ t, (progs t).Tells φ (τ t)) : Telling φ τ (.init db progs) :=
  ⟨hrows, fun t => (h t).settle, fun _ _ he => absurd he List.not_mem_nil, fun _ => Prog.settle_atStatement _ _⟩

/-- What a thread sees is of `φ`. -/
theorem apply_rows {db : Db Row} {w : Writes Row} (hrows : ∀ k, φ k (db.row k)) (hw : ∀ e ∈ w, φ e.1 e.2) :
    ∀ k, φ k ((db.apply w).row k) := by
  induction w with
  | nil => exact hrows
  | cons e w ih =>
    intro k
    rw [Db.apply_cons]
    by_cases hk : k = e.1
    · subst hk
      rw [Db.set_row_self]
      exact hw e List.mem_cons_self
    · rw [Db.set_row_ne _ _ hk]
      exact ih (fun e' he' => hw e' (List.mem_cons_of_mem _ he')) k

/-- The thread goes on with `p`, and `w` written. -/
theorem Telling.goto {s₁ : State Row N} {p : Prog Row N} {w : Writes Row} (h : Telling φ τ s) (hthr : s₁.thr = s.thr)
    (hrows : ∀ k, φ k (s₁.db.row k)) (hp : p.Tells φ (τ t)) (hw : ∀ e ∈ w, φ e.1 e.2) :
    Telling φ τ (s₁.goto t p w (s.thr t).log) := by
  refine ⟨hrows, fun u => ?_, fun u => ?_, fun u => ?_⟩
  · by_cases hu : u = t
    · subst hu
      rw [State.goto_thr_self]
      exact hp.settle
    · rw [State.goto_thr_ne _ _ _ _ _ _ hu, hthr]
      exact h.tells u
  · by_cases hu : u = t
    · subst hu
      rw [State.goto_thr_self]
      exact hw
    · rw [State.goto_thr_ne _ _ _ _ _ _ hu, hthr]
      exact h.pend u
  · by_cases hu : u = t
    · subst hu
      rw [State.goto_thr_self]
      exact Prog.settle_atStatement _ _
    · rw [State.goto_thr_ne _ _ _ _ _ _ hu, hthr]
      exact h.statement u

theorem mem_goto {s₁ : State Row N} {p : Prog Row N} {w : Writes Row} {u : ℕ} {n : N} (hthr : s₁.thr = s.thr)
    (hn : n ∈ ((s₁.goto t p w (s.thr t).log).thr u).log) : n ∈ (s.thr u).log ∨ u = t ∧ n ∈ p.news := by
  by_cases hu : u = t
  · subst hu
    rw [State.goto_thr_self, Thread.at_log, Prog.settle_news, List.mem_append] at hn
    exact hn.symm.imp_right fun hnews => ⟨rfl, hnews⟩
  · rw [State.goto_thr_ne _ _ _ _ _ _ hu, hthr] at hn
    exact Or.inl hn

/-- **A step** keeps the rows, and what is noted in it is told by its statement. -/
theorem Telling.step (h : Telling φ τ s) (hs : Step s t s') : Telling φ τ s' ∧ ∀ u n, n ∈ (s'.thr u).log →
    n ∈ (s.thr u).log ∨ u = t ∧ τ t (s.thr t).prog (s.db.apply (s.thr t).pend) n := by
  have hview := apply_rows h.rows (h.pend t)
  have htells := h.tells t
  have hat := h.statement t
  -- the statement goes on with `p`, which tells what it notes
  have hgo : ∀ {s₁ : State Row N} {p : Prog Row N} {w : Writes Row}, s₁.thr = s.thr → (∀ k, φ k (s₁.db.row k)) →
      p.Tells φ (τ t) → (∀ n ∈ p.news, τ t (s.thr t).prog (s.db.apply (s.thr t).pend) n) → (∀ e ∈ w, φ e.1 e.2) →
      Telling φ τ (s₁.goto t p w (s.thr t).log) ∧ ∀ u n, n ∈ ((s₁.goto t p w (s.thr t).log).thr u).log →
        n ∈ (s.thr u).log ∨ u = t ∧ τ t (s.thr t).prog (s.db.apply (s.thr t).pend) n :=
    fun hthr hrows hp hnews hw => ⟨h.goto hthr hrows hp hw, fun u n hn =>
      (mem_goto hthr hn).imp_right fun ⟨hu, hn⟩ => ⟨hu, hnews n hn⟩⟩
  have hadd : ∀ {k : K} {r : Option (Row k)}, φ k r → ∀ e ∈ (⟨k, r⟩ :: (s.thr t).pend : Writes Row), φ e.1 e.2 := by
    intro k r hr e he
    rcases List.mem_cons.mp he with rfl | he
    · exact hr
    · exact h.pend t e he
  have hnone : ∀ e ∈ ([] : Writes Row), φ e.1 e.2 := fun _ he => absurd he List.not_mem_nil
  rcases hs with hs | rfl
  swap
  · exact hgo rfl h.rows trivial (fun _ hn => absurd hn List.not_mem_nil) hnone
  unfold fire at hs
  dsimp only at hs
  rcases hprog : (s.thr t).prog with _ | f | ⟨k, q, f⟩ | ⟨k, r, f⟩ | ⟨k, r, p⟩ | p | p | ⟨n, p⟩ <;>
    rw [hprog] at hs htells hat hgo <;> dsimp only at hs
  · cases hs
  · cases hs
    exact hgo rfl h.rows (htells _).2 (htells _).1 (h.pend t)
  · split at hs
    · cases hs
      exact hgo rfl h.rows (htells none).2 ((htells none).1 _) (h.pend t)
    · rename_i r _
      split at hs
      · split at hs
        · cases hs
          exact hgo rfl h.rows (htells (some r)).2 ((htells (some r)).1 _) (h.pend t)
        · cases hs
      · cases hs
        exact hgo rfl h.rows (htells none).2 ((htells none).1 _) (h.pend t)
  · split at hs
    · cases hs
      exact hgo rfl h.rows (htells.2 false).2 ((htells.2 false).1 _) (h.pend t)
    · split at hs
      · cases hs
        exact hgo rfl h.rows (htells.2 true).2 ((htells.2 true).1 _) (hadd htells.1)
      · cases hs
  · split at hs
    · cases hs
      exact hgo rfl h.rows htells.2.2 (htells.2.1 _) (hadd htells.1)
    · cases hs
  · cases hs
    exact hgo rfl hview htells.2 (htells.1 _) hnone
  · cases hs
    exact hgo rfl h.rows htells.2 (htells.1 _) hnone
  · cases hat

/-- **What is noted in a run** is `P`, if `P` is what a statement tells in the
states its steps come to. -/
theorem Telling.noted {C : State Row N → ℕ → State Row N → Prop} {P : ℕ → N → Prop} (h : Telling φ τ s)
    (hlog : ∀ u, ∀ n ∈ (s.thr u).log, P u n) (hP : ∀ s₁ t s₂, Telling φ τ s₁ → C s₁ t s₂ →
      ∀ n, τ t (s₁.thr t).prog (s₁.db.apply (s₁.thr t).pend) n → P t n) (hr : Run C s s') :
    Telling φ τ s' ∧ ∀ u, ∀ n ∈ (s'.thr u).log, P u n := by
  induction hr with
  | refl => exact ⟨h, hlog⟩
  | step _ hs hc ih =>
    obtain ⟨hnext, hnew⟩ := ih.1.step hs
    refine ⟨hnext, fun u n hn => ?_⟩
    rcases hnew u n hn with hold | ⟨rfl, htold⟩
    · exact ih.2 u n hold
    · exact hP _ _ _ ih.1 hc n htold

end Runs

end Transactions
