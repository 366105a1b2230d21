/-
# Rely and guarantee for transaction programs

A `Spec` says what the committed database always meets (`inv`), what the
commits of other threads may do to what a thread relies on (`rely`, by the
rows it holds and its log so far), what each of its own commits does (`guar`, by
the log with what the thread notes at the commit), and what each log entry
tells of the database (`fact`). `Ok S p db own w log` is the
proof obligation of a program alone: at every statement the others may have
moved the database, but no row the thread holds (`Stable`); a commit must
keep the invariant and be within the guarantee.

`Meets.step` is the soundness: if all threads are `Ok` and the commits that
the run's condition allows are within what the others rely on, every step
keeps the invariant, all threads and all facts, and either leaves the
database or is a commit within the guarantee of its thread.

Key definitions: `Spec`, `Stable`, `Ok`, `Rest`, `Meets`.
Key theorems: `Meets.init`, `Meets.step`, `Meets.run`, `Meets.trail`.
-/
import FlexyVotes.Lib.Programs

set_option linter.unusedSectionVars false

namespace Transactions

variable {K : Type} [DecidableEq K] {Row : K → Type} {N : Type}

/-- What the threads of a run keep to. -/
structure Spec {K : Type} (Row : K → Type) (N : Type) where
  inv : Db Row → Prop
  rely : List K → List N → Db Row → Db Row → Prop
  guar : List K → List N → Db Row → Db Row → Prop
  fact : N → Db Row → Prop

variable (S : Spec Row N)

/-- What other threads may have done since `db`, to a thread that holds `own`. -/
structure Stable (own : List K) (log : List N) (db db' : Db Row) : Prop where
  held : ∀ k ∈ own, db'.row k = db.row k
  rely : S.rely own log db db'
  inv : S.inv db'

/-- The obligations of a program, from the database `db`, with the locks
`own`, the writes `w` and the log `log`. -/
def Ok : Prog Row N → Db Row → List K → Writes Row → List N → Prop
  | .halt, _, _, _, _ => True
  | .read f, db, own, w, log => ∀ db', Stable S own log db db' → Ok (f (db'.apply w)) db' own w log
  | .lock k q f, db, own, w, log => ∀ db', Stable S own log db db' →
    (∀ r, (db'.apply w).row k = some r → q r = true → Ok (f (some r)) db' (k :: own) w log) ∧
    ((∀ r, (db'.apply w).row k = some r → q r = false) → Ok (f none) db' own w log)
  | .insert k r f, db, own, w, log => ∀ db', Stable S own log db db' →
    ((db'.apply w).row k = none → Ok (f true) db' (k :: own) (⟨k, some r⟩ :: w) log) ∧
    ((db'.apply w).row k ≠ none → Ok (f false) db' own w log)
  | .put k r p, db, own, w, log => k ∈ own ∧
    ∀ db', Stable S own log db db' → Ok p db' own (⟨k, r⟩ :: w) log
  | .commit p, db, own, w, log => ∀ db', Stable S own log db db' →
    S.inv (db'.apply w) ∧ S.guar own (p.settle log).2 db' (db'.apply w) ∧ Ok p (db'.apply w) [] [] log
  | .rollback p, db, own, _, log => ∀ db', Stable S own log db db' → Ok p db' [] [] log
  | .note n p, db, own, w, log => S.fact n db ∧ Ok p db own w (n :: log)

/-- A spec whose parts fit: relying is a preorder, less with fewer rows held,
and a commit keeps facts. -/
structure Spec.Sound : Prop where
  refl : ∀ own log db, S.rely own log db db
  trans : ∀ own log db db' db'', S.rely own log db db' → S.rely own log db' db'' → S.rely own log db db''
  sub : ∀ own own' log db db', (∀ k ∈ own', k ∈ own) → S.rely own log db db' → S.rely own' log db db'
  fact : ∀ own log n db db', S.inv db → S.inv db' → S.guar own log db db' → S.fact n db → S.fact n db'

/-- In the runs of `C`, a commit within the guarantee of its thread is within
what every other thread relies on, if that thread still has something to do. -/
def Spec.Fits (C : State Row N → ℕ → State Row N → Prop) : Prop :=
  ∀ s t s' own, C s t s' → S.inv s.db → S.inv s'.db → S.guar own (s'.thr t).log s.db s'.db →
    ∀ u own', u ≠ t → (s.thr u).prog ≠ .halt → (∀ k ∈ own', s.owner k = some u) → (∀ k ∈ own, k ∉ own') →
      S.rely own' (s.thr u).log s.db s'.db

/-- A state of a run that meets the spec. -/
structure Meets (s : State Row N) : Prop where
  inv : S.inv s.db
  ok : ∀ t, ∃ own, (∀ k ∈ own, s.owner k = some t) ∧ (∀ e ∈ (s.thr t).pend, e.1 ∈ own) ∧
    Ok S (s.thr t).prog s.db own (s.thr t).pend (s.thr t).log
  statement : ∀ t, (s.thr t).prog.AtStatement
  pend : ∀ t, ∀ e ∈ (s.thr t).pend, s.owner e.1 = some t
  fact : ∀ t, ∀ n ∈ (s.thr t).log, S.fact n s.db

variable {S}

theorem Stable.refl (hS : S.Sound) {own : List K} {log : List N} {db : Db Row} (h : S.inv db) :
    Stable S own log db db :=
  ⟨fun _ _ => rfl, hS.refl own log db, h⟩

theorem Stable.trans (hS : S.Sound) {own : List K} {log : List N} {db db' db'' : Db Row}
    (h : Stable S own log db db') (h' : Stable S own log db' db'') : Stable S own log db db'' :=
  ⟨fun k hk => (h'.held k hk).trans (h.held k hk), hS.trans _ _ _ _ _ h.rely h'.rely, h'.inv⟩

theorem Stable.sub (hS : S.Sound) {own own' : List K} {log : List N} {db db' : Db Row}
    (h : Stable S own log db db') (hs : ∀ k ∈ own', k ∈ own) : Stable S own' log db db' :=
  ⟨fun k hk => h.held k (hs k hk), hS.sub own own' log db db' hs h.rely, h.inv⟩

/-- The obligations of a program at a statement hold whatever the others do
within what it relies on. -/
theorem Ok.stable (hS : S.Sound) {p : Prog Row N} {db db' : Db Row} {own : List K} {w : Writes Row}
    {log : List N} (hp : p.AtStatement) (h : Ok S p db own w log)
    (hst : Stable S own log db db') : Ok S p db' own w log := by
  cases p with
  | halt => trivial
  | read f => exact fun db'' h'' => h db'' (hst.trans hS h'')
  | lock k q f => exact fun db'' h'' => h db'' (hst.trans hS h'')
  | insert k r f => exact fun db'' h'' => h db'' (hst.trans hS h'')
  | put k r p => exact ⟨h.1, fun db'' h'' => h.2 db'' (hst.trans hS h'')⟩
  | commit p => exact fun db'' h'' => h db'' (hst.trans hS h'')
  | rollback p => exact fun db'' h'' => h db'' (hst.trans hS h'')
  | note n p => exact hp.elim

/-- A write of a held row, followed by a statement, asks nothing new. -/
theorem Ok.put (hS : S.Sound) {k : K} {r : Option (Row k)} {p : Prog Row N} {db : Db Row}
    {own : List K} {w : Writes Row} {log : List N} (hk : k ∈ own) (hp : p.AtStatement)
    (h : Ok S p db own (⟨k, r⟩ :: w) log) : Ok S (.put k r p) db own w log :=
  ⟨hk, fun _ hst => h.stable hS hp hst⟩

theorem Ok.lockRow {k : K} {f : Option (Row k) → Prog Row N} {db : Db Row} {own : List K}
    {w : Writes Row} {log : List N}
    (hsome : ∀ db' r, Stable S own log db db' → (db'.apply w).row k = some r →
      Ok S (f (some r)) db' (k :: own) w log)
    (hnone : ∀ db', Stable S own log db db' → Ok S (f none) db' own w log) :
    Ok S (.lockRow k f) db own w log :=
  fun db' hst => ⟨fun r hr _ => hsome db' r hst hr, fun _ => hnone db' hst⟩

theorem Ok.insertOr {k : K} {r : Row k} {failure p : Prog Row N} {db : Db Row} {own : List K}
    {w : Writes Row} {log : List N}
    (hp : ∀ db', Stable S own log db db' → (db'.apply w).row k = none →
      Ok S p db' (k :: own) (⟨k, some r⟩ :: w) log)
    (hfail : ∀ db', Stable S own log db db' → Ok S failure db' own w log) :
    Ok S (.insertOr k r failure p) db own w log :=
  fun db' hst => ⟨hp db' hst, fun _ => hfail db' hst⟩

/-- `UPDATE … WHERE` of one row: it is written and held, or no row was there. -/
theorem Ok.update (hS : S.Sound) {k : K} {q : Row k → Bool} {g : Row k → Row k} {f : Bool → Prog Row N}
    {db : Db Row} {own : List K} {w : Writes Row} {log : List N}
    (hsome : ∀ db' r, Stable S own log db db' → (db'.apply w).row k = some r → q r = true →
      Ok S (f true) db' (k :: own) (⟨k, some (g r)⟩ :: w) log)
    (hnone : ∀ db', Stable S own log db db' → (∀ r, (db'.apply w).row k = some r → q r = false) →
      Ok S (f false) db' own w log) : Ok S (.update k q g f) db own w log := by
  intro db₁ h₁
  refine ⟨fun r hr hq => ⟨by simp, fun db₂ h₂ => ?_⟩, hnone db₁ h₁⟩
  refine hsome db₂ r (h₁.trans hS (h₂.sub hS fun x hx => List.mem_cons_of_mem _ hx)) ?_ hq
  rw [Db.apply_row_congr (h₂.held _ (by simp)) w]
  exact hr

/-- After a rollback the thread holds nothing. -/
theorem Ok.rollback (hS : S.Sound) {p : Prog Row N} {db : Db Row} {own : List K} {w : Writes Row}
    {log : List N} (hp : p.AtStatement) (h : Ok S p db [] [] log) :
    Ok S (.rollback p) db own w log :=
  fun _ hst => h.stable hS hp (hst.sub hS (by simp))

/-- Log entries before a statement: their facts hold, and what is left is `Ok`. -/
theorem Ok.settle : ∀ {p : Prog Row N} {db : Db Row} {own : List K} {w : Writes Row} {log : List N},
    Ok S p db own w log → (∀ n ∈ log, S.fact n db) →
    Ok S (p.settle log).1 db own w (p.settle log).2 ∧ ∀ n ∈ (p.settle log).2, S.fact n db
  | .note n p, _, _, _, log, h, hf => by
    obtain ⟨h1, h2⟩ := h
    refine Ok.settle (p := p) h2 fun m hm => ?_
    rcases List.mem_cons.mp hm with rfl | hm
    · exact h1
    · exact hf m hm
  | .halt, _, _, _, _, h, hf | .read _, _, _, _, _, h, hf | .lock _ _ _, _, _, _, _, h, hf
  | .insert _ _ _, _, _, _, _, h, hf | .put _ _ _, _, _, _, _, h, hf | .commit _, _, _, _, _, h, hf
  | .rollback _, _, _, _, _, h, hf => ⟨h, hf⟩

/-- `UPDATE … WHERE` over the keys `ks`: what `P` says with `ks` left to do
lasts while the others move, and is passed on by a row that is written and by
a row that no longer meets the condition. -/
theorem Ok.updateEach {q : (k : K) → Row k → Bool} {g : (k : K) → Row k → Row k} {p : Prog Row N}
    {log : List N} {P : List K → Db Row → List K → Writes Row → Prop}
    (hstable : ∀ ks db own w db', P ks db own w → Stable S own log db db' → P ks db' own w)
    (hlock : ∀ k ks db own w, P (k :: ks) db own w → P (k :: ks) db (k :: own) w)
    (hput : ∀ k ks db own w r, P (k :: ks) db own w → k ∈ own → (db.apply w).row k = some r →
      q k r = true → P ks db own (⟨k, some (g k r)⟩ :: w))
    (hskip : ∀ k ks db own w, P (k :: ks) db own w →
      (∀ r, (db.apply w).row k = some r → q k r = false) → P ks db own w)
    (hp : ∀ db own w, P [] db own w → Ok S p db own w log) :
    ∀ (ks : List K) (db : Db Row) (own : List K) (w : Writes Row), P ks db own w →
      Ok S (.updateEach q g ks p) db own w log
  | [], db, own, w, h => hp db own w h
  | k :: ks, db, own, w, h => fun db' hst => by
    have h' := hstable _ _ _ _ _ h hst
    refine ⟨fun r hr hq => ⟨List.mem_cons_self, fun db'' hst' => ?_⟩, fun hno => ?_⟩
    · have hrow : (db''.apply w).row k = some r :=
        (Db.apply_row_congr (hst'.held k List.mem_cons_self) w).trans hr
      have h'' := hstable _ _ _ _ _ (hlock _ _ _ _ _ h') hst'
      exact Ok.updateEach hstable hlock hput hskip hp ks _ _ _
        (hput _ _ _ _ _ _ h'' List.mem_cons_self hrow hq)
    · exact Ok.updateEach hstable hlock hput hskip hp ks _ _ _ (hskip _ _ _ _ _ h' hno)

/-! ### Pieces of a transaction -/

/-- The failure exits of a piece are `Ok` wherever it stops. -/
def FailsFrom {α : Type} (S : Spec Row N) (fail : α → Prog Row N) (db : Db Row) (own : List K)
    (log : List N) : Prop :=
  ∀ a db' own' w', Stable S own log db db' → (∀ k ∈ own, k ∈ own') → Ok S (fail a) db' own' w' log

/-- One failure exit. -/
def ExitsTo (S : Spec Row N) (out : Prog Row N) (db : Db Row) (own : List K) (log : List N) : Prop :=
  ∀ db' own' w', Stable S own log db db' → (∀ k ∈ own, k ∈ own') → Ok S out db' own' w' log

/-- The rest of a transaction is `Ok` after a piece that writes rows of `p`
only. -/
def GoesOn (S : Spec Row N) (p : K → Bool) (rest : Prog Row N) (db : Db Row) (own : List K)
    (w : Writes Row) (log : List N) : Prop :=
  ∀ db' own' w', Stable S own log db db' → (∀ k ∈ own, k ∈ own') → Db.Only p w' →
    Ok S rest db' own' (w' ++ w) log

/-- A commit of rows of `p` alone is within every guarantee. -/
def Quiet (S : Spec Row N) (p : K → Bool) : Prop :=
  ∀ own log db w, S.inv db → Db.Only p w → S.inv (db.apply w) ∧ S.guar own log db (db.apply w)

/-- What a thread knows of the database outlasts what the others do, and its
own commits of rows of `p`. -/
structure Lasts (S : Spec Row N) (p : K → Bool) (log : List N) (P : Db Row → Prop) : Prop where
  stable : ∀ own db db', Stable S own log db db' → P db → P db'
  own : ∀ db w, S.inv db → Db.Only p w → P db → P (db.apply w)

theorem Quiet.mono {p p' : K → Bool} (hp : ∀ k, p' k = true → p k = true) (h : Quiet S p) : Quiet S p' :=
  fun own log db w hi hw => h own log db w hi (hw.mono hp)

theorem Lasts.mono {p p' : K → Bool} {log : List N} {P : Db Row → Prop}
    (hp : ∀ k, p' k = true → p k = true) (h : Lasts S p log P) : Lasts S p' log P :=
  ⟨h.stable, fun db w hi hw => h.own db w hi (hw.mono hp)⟩

theorem Lasts.trivial {p : K → Bool} {log : List N} : Lasts S p log fun _ => True :=
  ⟨fun _ _ _ _ _ => True.intro, fun _ _ _ _ _ => True.intro⟩

/-- A commit of rows of `p` alone: what is known beside them lasts. -/
theorem Quiet.commit {p : K → Bool} {P : Db Row → Prop} {k : Prog Row N} {db : Db Row} {own : List K}
    {w : Writes Row} {log : List N} (hq : Quiet S p) (hP : Lasts S p log P) (hw : Db.Only p w) (hp : P db)
    (hk : ∀ db, S.inv db → P db → Ok S k db [] [] log) : Ok S (.commit k) db own w log := by
  intro db₁ h₁
  obtain ⟨hinv, hguar⟩ := hq own (k.settle log).2 db₁ w h₁.inv hw
  exact ⟨hinv, hguar, hk _ hinv (hP.own _ _ h₁.inv hw (hP.stable _ _ _ h₁ hp))⟩

section Pieces

variable {α : Type} {fail : α → Prog Row N} {p : K → Bool} {rest piece out : Prog Row N} {db db' : Db Row}
  {own own' : List K} {w w' : Writes Row} {log : List N}

theorem FailsFrom.mono (hS : S.Sound) (h : FailsFrom S fail db own log) (hst : Stable S own log db db')
    (hsub : ∀ k ∈ own, k ∈ own') : FailsFrom S fail db' own' log :=
  fun a db'' own'' w'' hst' hsub' =>
    h a db'' own'' w'' (hst.trans hS (hst'.sub hS hsub)) fun k hk => hsub' k (hsub k hk)

theorem FailsFrom.to (h : FailsFrom S fail db own log) (a : α) : ExitsTo S (fail a) db own log := h a

theorem ExitsTo.mono (hS : S.Sound) (h : ExitsTo S out db own log) (hst : Stable S own log db db')
    (hsub : ∀ k ∈ own, k ∈ own') : ExitsTo S out db' own' log :=
  fun db'' own'' w'' hst' hsub' =>
    h db'' own'' w'' (hst.trans hS (hst'.sub hS hsub)) fun k hk => hsub' k (hsub k hk)

theorem GoesOn.mono (hS : S.Sound) (h : GoesOn S p rest db own w log) (hst : Stable S own log db db')
    (hsub : ∀ k ∈ own, k ∈ own') (hw : Db.Only p w') : GoesOn S p rest db' own' (w' ++ w) log :=
  fun db'' own'' w'' hst' hsub' hw' => by
    rw [← List.append_assoc]
    exact h db'' own'' (w'' ++ w') (hst.trans hS (hst'.sub hS hsub)) (fun k hk => hsub' k (hsub k hk))
      (hw'.append hw)

theorem GoesOn.weaken {p' : K → Bool} (hp : ∀ k, p' k = true → p k = true)
    (h : GoesOn S p rest db own w log) : GoesOn S p' rest db own w log :=
  fun db' own' w' hst hsub hw => h db' own' w' hst hsub (hw.mono hp)

/-- Where nothing is written or locked the rest goes on. -/
theorem GoesOn.at (h : GoesOn S p rest db own w log) (hst : Stable S own log db db') :
    Ok S rest db' own w log :=
  h db' own [] hst (fun _ h => h) .nil

/-- A piece before a rest that goes on. -/
theorem GoesOn.through (hS : S.Sound) (hf : FailsFrom S fail db own log)
    (h : GoesOn S p rest db own w log)
    (hpiece : ∀ db own w, FailsFrom S fail db own log → GoesOn S p rest db own w log →
      Ok S piece db own w log) : GoesOn S p piece db own w log :=
  fun db' own' w' hst hsub hw =>
    hpiece db' own' (w' ++ w) (hf.mono hS hst hsub) (h.mono hS hst hsub hw)

/-- An insert under a key of `p`. -/
theorem GoesOn.insertOr {k : K} {r : Row k} (hp : p k = true) (hf : ExitsTo S out db own log)
    (h : GoesOn S p rest db own w log) : Ok S (.insertOr k r out rest) db own w log :=
  Ok.insertOr
    (fun db₁ hst _ => h db₁ _ [⟨k, some r⟩] hst (fun _ hx => List.mem_cons_of_mem _ hx) (.cons hp .nil))
    fun db₁ hst => hf db₁ own w hst fun _ hx => hx

/-- An update of one row under a key of `p`. -/
theorem GoesOn.update (hS : S.Sound) {k : K} {q : Row k → Bool} {g : Row k → Row k} (hp : p k = true)
    (h : GoesOn S p rest db own w log) : Ok S (.update k q g fun _ => rest) db own w log := by
  intro db₁ h₁
  refine ⟨fun r _ _ => ⟨by simp, fun db₂ h₂ => ?_⟩, fun _ => h.at h₁⟩
  have hsub : ∀ x ∈ own, x ∈ k :: own := fun x hx => List.mem_cons_of_mem _ hx
  exact h db₂ _ [⟨_, _⟩] (h₁.trans hS (h₂.sub hS hsub)) hsub (.cons hp .nil)

end Pieces

/-- A row as an update of the rows that meet `q` leaves it. -/
def updated (q : (k : K) → Row k → Bool) (g : (k : K) → Row k → Row k) (k : K) (r : Row k) : Row k :=
  if q k r then g k r else r

/-- The writes `w` are the update of all rows of `db` that meet `q`. -/
structure Updated (q : (k : K) → Row k → Bool) (g : (k : K) → Row k → Row k) (own : List K)
    (w : Writes Row) (db : Db Row) : Prop where
  held : ∀ e ∈ w, e.1 ∈ own
  meets : ∀ e ∈ w, ∃ r, db.row e.1 = some r ∧ q e.1 r = true
  rows : ∀ k, (db.apply w).row k = (db.row k).map (updated q g k)

/-- A thread that holds `own` sees no row begin to meet `q`. -/
def NoneBegins (S : Spec Row N) (q : (k : K) → Row k → Bool) (own : List K) (log : List N) : Prop :=
  ∀ own' db db', (∀ k ∈ own, k ∈ own') → Stable S own' log db db' →
    ∀ k r, db'.row k = some r → q k r = true → db.row k = some r

/-- The update of the keys done so far: each row is updated, or still to do. -/
private structure Updating (q : (k : K) → Row k → Bool) (g : (k : K) → Row k → Row k)
    (own₀ ks : List K) (db : Db Row) (own : List K) (w : Writes Row) : Prop where
  sub : ∀ k ∈ own₀, k ∈ own
  held : ∀ e ∈ w, e.1 ∈ own
  meets : ∀ e ∈ w, ∃ r, db.row e.1 = some r ∧ q e.1 r = true
  rows : ∀ k, (db.apply w).row k = (db.row k).map (updated q g k) ∨
    (k ∈ ks ∧ (db.apply w).row k = db.row k)

private theorem Updating.stable {q : (k : K) → Row k → Bool} {g : (k : K) → Row k → Row k}
    {own₀ ks : List K} {db db' : Db Row} {own : List K} {w : Writes Row} {log : List N}
    (hq : NoneBegins S q own₀ log) (h : Updating q g own₀ ks db own w)
    (hst : Stable S own log db db') : Updating q g own₀ ks db' own w := by
  refine ⟨h.sub, h.held, fun e he => ?_, fun k => ?_⟩
  · rw [hst.held _ (h.held e he)]
    exact h.meets e he
  · by_cases hk : k ∈ own
    · rw [Db.apply_row_congr (hst.held k hk) w, hst.held k hk]
      exact h.rows k
    · have hw : ∀ e ∈ w, e.1 ≠ k := fun e he heq => hk (heq ▸ h.held e he)
      have hrow := h.rows k
      rw [Db.apply_row_of_notMem _ k w hw] at hrow ⊢
      rcases hrow with hrow | ⟨hks, -⟩
      · refine Or.inl ?_
        cases hr : db'.row k with
        | none => rfl
        | some r =>
          by_cases hm : q k r = true
          · have := hq own db db' h.sub hst k r hr hm
            rw [this, Option.map_some] at hrow
            rw [Option.map_some, ← hrow]
          · simp [updated, hm]
      · exact Or.inr ⟨hks, rfl⟩

/-- Writes under keys whose rows never meet `q` do not show in an update by it. -/
private theorem row_over {q : (k : K) → Row k → Bool} {db : Db Row} {u w : Writes Row} {k : K} {r : Row k}
    (hw : ∀ e ∈ w, ∀ r, q e.1 r = false) (hr : q k r = true) :
    (db.apply (u ++ w)).row k = (db.apply u).row k := by
  rw [Db.apply_append]
  refine Db.apply_row_congr (Db.apply_row_of_notMem _ k w fun e he hek => ?_) u
  subst hek
  rw [hw e he r] at hr
  cases hr

private theorem skip_over {q : (k : K) → Row k → Bool} {db : Db Row} {u w : Writes Row} {k : K}
    (hw : ∀ e ∈ w, ∀ r, q e.1 r = false) (hno : ∀ r, (db.apply (u ++ w)).row k = some r → q k r = false) (r : Row k)
    (hr : (db.apply u).row k = some r) : q k r = false := by
  by_contra hq
  have hq' : q k r = true := by simpa using hq
  rw [hno r ((row_over hw hq').trans hr)] at hq'
  cases hq'

private theorem select_over {q : (k : K) → Row k → Bool} {db : Db Row} {w : Writes Row} {k : K} {r : Row k}
    (hw : ∀ e ∈ w, ∀ r, q e.1 r = false) (hr : db.row k = some r) (hq : q k r = true) :
    k ∈ (db.apply w).select q := by
  rw [Db.mem_select]
  exact ⟨r, (row_over (u := []) hw hq).trans hr, hq⟩

/-- **`UPDATE … WHERE` updates every row that meets its condition**, over
earlier writes of other rows, if the thread holds what keeps rows from
beginning to meet it. -/
theorem Ok.updateWhere_over (hS : S.Sound) {q : (k : K) → Row k → Bool} {g : (k : K) → Row k → Row k}
    {p : Prog Row N} {log : List N} {db : Db Row} {own : List K} {w₀ : Writes Row}
    (hw₀ : ∀ e ∈ w₀, ∀ r, q e.1 r = false) (hq : NoneBegins S q own log)
    (hg : ∀ k r, q k r = true → q k (g k r) = false)
    (hp : ∀ db' own' u, Stable S own log db db' → (∀ k ∈ own, k ∈ own') → Updated q g own' u db' →
      Ok S p db' own' (u ++ w₀) log) : Ok S (.updateWhere q g p) db own w₀ log := by
  intro db₁ h₁
  refine Ok.updateEach (P := fun ks db' own' w => ∃ u, w = u ++ w₀ ∧ Updating q g own ks db' own' u ∧
    Stable S own log db db') ?_ ?_ ?_ ?_ ?_ _ db₁ own w₀ ⟨[], rfl, ⟨fun _ h => h, by simp, by simp, fun k => ?_⟩, h₁⟩
  · rintro ks db' own' w db'' ⟨u, rfl, hu, hst⟩ hst'
    exact ⟨u, rfl, hu.stable hq hst', hst.trans hS (hst'.sub hS hu.sub)⟩
  · rintro k ks db' own' w ⟨u, rfl, hu, hst⟩
    exact ⟨u, rfl, ⟨fun x hx => List.mem_cons_of_mem _ (hu.sub x hx),
      fun e he => List.mem_cons_of_mem _ (hu.held e he), hu.meets, hu.rows⟩, hst⟩
  · rintro k ks db' own' w r ⟨u, rfl, hu, hst⟩ hk hr hm
    rw [row_over hw₀ hm] at hr
    have hrow : db'.row k = some r := by
      rcases hu.rows k with h | ⟨-, h⟩
      · rw [hr] at h
        obtain ⟨r₀, hr₀, h⟩ := Option.map_eq_some_iff.mp h.symm
        by_cases hm₀ : q k r₀ = true
        · rw [updated, if_pos hm₀] at h
          rw [← h, hg k r₀ hm₀] at hm
          cases hm
        · rw [updated, if_neg hm₀] at h
          rw [hr₀, h]
      · rw [← h, hr]
    refine ⟨⟨k, some (g k r)⟩ :: u, rfl, ⟨hu.sub, fun e he => ?_, fun e he => ?_, fun k' => ?_⟩, hst⟩
    · rcases List.mem_cons.mp he with rfl | he
      · exact hk
      · exact hu.held e he
    · rcases List.mem_cons.mp he with rfl | he
      · exact ⟨r, hrow, hm⟩
      · exact hu.meets e he
    · by_cases hk' : k' = k
      · subst hk'
        exact Or.inl (by simp [hrow, updated, hm])
      · rw [Db.apply_cons, Db.set_row_ne _ _ hk']
        refine (hu.rows k').imp_right fun h => ⟨?_, h.2⟩
        exact (List.mem_cons.mp h.1).resolve_left hk'
  · rintro k ks db' own' w ⟨u, rfl, hu, hst⟩ hno
    refine ⟨u, rfl, ⟨hu.sub, hu.held, hu.meets, fun k' => ?_⟩, hst⟩
    rcases hu.rows k' with h | ⟨hks, h⟩
    · exact Or.inl h
    · rcases List.mem_cons.mp hks with rfl | hks
      · refine Or.inl ?_
        rw [h]
        cases hr : db'.row k' with
        | none => rfl
        | some r => simp [updated, skip_over hw₀ hno r (h.trans hr)]
      · exact Or.inr ⟨hks, h⟩
  · rintro db' own' w ⟨u, rfl, hu, hst⟩
    exact hp db' own' u hst hu.sub ⟨hu.held, hu.meets, fun k => by simpa using hu.rows k⟩
  · by_cases hk : k ∈ (db₁.apply w₀).select q
    · exact Or.inr ⟨hk, rfl⟩
    · refine Or.inl ?_
      cases hr : db₁.row k with
      | none => simp [hr]
      | some r =>
        have hm : ¬ q k r = true := fun hm => hk (select_over hw₀ hr hm)
        simp [hr, updated, hm]

/-- The same, before any other write. -/
theorem Ok.updateWhere (hS : S.Sound) {q : (k : K) → Row k → Bool} {g : (k : K) → Row k → Row k}
    {p : Prog Row N} {log : List N} {db : Db Row} {own : List K} (hq : NoneBegins S q own log)
    (hg : ∀ k r, q k r = true → q k (g k r) = false)
    (hp : ∀ db' own' w, Stable S own log db db' → (∀ k ∈ own, k ∈ own') → Updated q g own' w db' →
      Ok S p db' own' w log) : Ok S (.updateWhere q g p) db own [] log :=
  Ok.updateWhere_over hS (by simp) hq hg fun db' own' u hst hsub hu => by
    rw [List.append_nil]
    exact hp db' own' u hst hsub hu

/-- An update writes under keys of `p` only, if only their rows can meet `q`. -/
theorem GoesOn.updateWhere (hS : S.Sound) {q : (k : K) → Row k → Bool} {g : (k : K) → Row k → Row k}
    {p : K → Bool} {rest : Prog Row N} {log : List N} {db : Db Row} {own : List K} {w : Writes Row}
    (hp : ∀ k r, q k r = true → p k = true) (h : GoesOn S p rest db own w log) :
    Ok S (.updateWhere q g rest) db own w log := by
  intro db₁ h₁
  refine Ok.updateEach (P := fun _ db' own' w' => ∃ u, w' = u ++ w ∧ Db.Only p u ∧
    Stable S own log db db' ∧ ∀ k ∈ own, k ∈ own') ?_ ?_ ?_ ?_ ?_ _ db₁ own w
    ⟨[], rfl, .nil, h₁, fun _ hk => hk⟩
  · rintro _ db' own' w' db'' ⟨u, rfl, hu, hst, hsub⟩ hst'
    exact ⟨u, rfl, hu, hst.trans hS (hst'.sub hS hsub), hsub⟩
  · rintro k _ db' own' w' ⟨u, rfl, hu, hst, hsub⟩
    exact ⟨u, rfl, hu, hst, fun x hx => List.mem_cons_of_mem _ (hsub x hx)⟩
  · rintro k _ db' own' w' r ⟨u, rfl, hu, hst, hsub⟩ _ _ hr
    exact ⟨⟨k, _⟩ :: u, rfl, .cons (hp k r hr) hu, hst, hsub⟩
  · rintro k _ db' own' w' ⟨u, rfl, hu, hst, hsub⟩ _
    exact ⟨u, rfl, hu, hst, hsub⟩
  · rintro db' own' w' ⟨u, rfl, hu, hst, hsub⟩
    exact h db' own' u hst hsub hu

/-- What an update has done in any case: the rows it holds are updated, no other. -/
structure PartlyUpdated (q : (k : K) → Row k → Bool) (g : (k : K) → Row k → Row k) (own : List K)
    (w : Writes Row) (db : Db Row) : Prop where
  held : ∀ e ∈ w, e.1 ∈ own
  meets : ∀ e ∈ w, ∃ r, db.row e.1 = some r ∧ q e.1 r = true
  rows : ∀ k, (db.apply w).row k = db.row k ∨ (db.apply w).row k = (db.row k).map (updated q g k)

/-- It depends on the rows that are held only. -/
theorem PartlyUpdated.of_held {q : (k : K) → Row k → Bool} {g : (k : K) → Row k → Row k} {own : List K}
    {w : Writes Row} {db db' : Db Row} (h : PartlyUpdated q g own w db) (hheld : ∀ k ∈ own, db'.row k = db.row k) :
    PartlyUpdated q g own w db' := by
  refine ⟨h.held, fun e he => ?_, fun k => ?_⟩
  · rw [hheld _ (h.held e he)]
    exact h.meets e he
  · by_cases hk : k ∈ own
    · rw [Db.apply_row_congr (hheld k hk) w, hheld k hk]
      exact h.rows k
    · exact Or.inl (Db.apply_row_of_notMem _ k w fun e he heq => hk (heq ▸ h.held e he))

theorem PartlyUpdated.stable {q : (k : K) → Row k → Bool} {g : (k : K) → Row k → Row k} {own own' : List K}
    {w : Writes Row} {db db' : Db Row} {log : List N} (hsub : ∀ k ∈ own, k ∈ own')
    (h : PartlyUpdated q g own w db) (hst : Stable S own' log db db') : PartlyUpdated q g own' w db' := by
  have h' := h.of_held fun k hk => hst.held k (hsub k hk)
  exact ⟨fun e he => hsub _ (h'.held e he), h'.meets, h'.rows⟩

/-- No row goes. -/
theorem PartlyUpdated.isSome {q : (k : K) → Row k → Bool} {g : (k : K) → Row k → Row k} {own : List K} {w : Writes Row}
    {db : Db Row} (h : PartlyUpdated q g own w db) {k : K} (hk : (db.row k).isSome = true) :
    ((db.apply w).row k).isSome = true := by
  rcases h.rows k with hrow | hrow
  · rwa [hrow]
  · rwa [hrow, Option.isSome_map]

/-- **`UPDATE … WHERE` updates rows that meet its condition**, and all of them if
no row begins to meet it; over earlier writes of other rows. -/
theorem Ok.updateWhere_if_over (hS : S.Sound) {q : (k : K) → Row k → Bool} {g : (k : K) → Row k → Row k}
    {rest : Prog Row N} {log : List N} {db : Db Row} {own : List K} {w₀ : Writes Row}
    (hw₀ : ∀ e ∈ w₀, ∀ r, q e.1 r = false) (hg : ∀ k r, q k r = true → q k (g k r) = false)
    (hrest : ∀ db' own' u, Stable S own log db db' → (∀ k ∈ own, k ∈ own') →
      PartlyUpdated q g own' u db' → (NoneBegins S q own log → Updated q g own' u db') →
      Ok S rest db' own' (u ++ w₀) log) :
    Ok S (.updateWhere q g rest) db own w₀ log := by
  by_cases hq : NoneBegins S q own log
  · exact Ok.updateWhere_over hS hw₀ hq hg fun db' own' u hst hsub hu =>
      hrest db' own' u hst hsub ⟨hu.held, hu.meets, fun k => Or.inr (hu.rows k)⟩ fun _ => hu
  · intro db₁ h₁
    refine Ok.updateEach (P := fun _ db' own' w => ∃ u, w = u ++ w₀ ∧ PartlyUpdated q g own' u db' ∧
      Stable S own log db db' ∧ ∀ k ∈ own, k ∈ own') ?_ ?_ ?_ ?_ ?_ _ db₁ own w₀
      ⟨[], rfl, ⟨by simp, by simp, fun _ => Or.inl rfl⟩, h₁, fun _ hk => hk⟩
    · rintro _ db' own' w db'' ⟨u, rfl, hu, hst, hsub⟩ hst'
      exact ⟨u, rfl, hu.stable (fun _ h => h) hst', hst.trans hS (hst'.sub hS hsub), hsub⟩
    · rintro k _ db' own' w ⟨u, rfl, hu, hst, hsub⟩
      exact ⟨u, rfl, ⟨fun e he => List.mem_cons_of_mem _ (hu.held e he), hu.meets, hu.rows⟩, hst,
        fun x hx => List.mem_cons_of_mem _ (hsub x hx)⟩
    · rintro k _ db' own' w r ⟨u, rfl, hu, hst, hsub⟩ hk hr hm
      rw [row_over hw₀ hm] at hr
      have hrow : db'.row k = some r := by
        rcases hu.rows k with h | h <;> rw [hr] at h
        · exact h.symm
        · obtain ⟨r₀, hr₀, h⟩ := Option.map_eq_some_iff.mp h.symm
          by_cases hm₀ : q k r₀ = true
          · rw [updated, if_pos hm₀] at h
            rw [← h, hg k r₀ hm₀] at hm
            cases hm
          · rw [updated, if_neg hm₀] at h
            rw [hr₀, h]
      refine ⟨⟨k, some (g k r)⟩ :: u, rfl, ⟨fun e he => ?_, fun e he => ?_, fun k' => ?_⟩, hst, hsub⟩
      · rcases List.mem_cons.mp he with rfl | he
        · exact hk
        · exact hu.held e he
      · rcases List.mem_cons.mp he with rfl | he
        · exact ⟨r, hrow, hm⟩
        · exact hu.meets e he
      · by_cases hk' : k' = k
        · subst hk'
          exact Or.inr (by simp [hrow, updated, hm])
        · rw [Db.apply_cons, Db.set_row_ne _ _ hk']
          exact hu.rows k'
    · rintro k _ db' own' w ⟨u, rfl, hu, hst, hsub⟩ _
      exact ⟨u, rfl, hu, hst, hsub⟩
    · rintro db' own' w ⟨u, rfl, hu, hst, hsub⟩
      exact hrest db' own' u hst hsub hu fun h => absurd h hq

/-- The same, before any other write. -/
theorem Ok.updateWhere_if (hS : S.Sound) {q : (k : K) → Row k → Bool} {g : (k : K) → Row k → Row k}
    {rest : Prog Row N} {log : List N} {db : Db Row} {own : List K}
    (hg : ∀ k r, q k r = true → q k (g k r) = false)
    (hrest : ∀ db' own' w, Stable S own log db db' → (∀ k ∈ own, k ∈ own') →
      PartlyUpdated q g own' w db' → (NoneBegins S q own log → Updated q g own' w db') →
      Ok S rest db' own' w log) :
    Ok S (.updateWhere q g rest) db own [] log :=
  Ok.updateWhere_if_over hS (by simp) hg fun db' own' u hst hsub hu hall => by
    rw [List.append_nil]
    exact hrest db' own' u hst hsub hu hall

/-- **`DELETE … WHERE`** deletes rows under the keys it is given. -/
theorem Ok.deleteEach (hS : S.Sound) {q : (k : K) → Row k → Bool} {p : Prog Row N} {log : List N} :
    ∀ (ks : List K) {db : Db Row} {own : List K} {w : Writes Row},
      (∀ db' own' u, Stable S own log db db' → (∀ k ∈ own, k ∈ own') →
        (∀ e ∈ u, e.1 ∈ ks ∧ e.2 = none) → Ok S p db' own' (u ++ w) log) → S.inv db →
      Ok S (.deleteEach q ks p) db own w log
  | [], db, own, w, hp, hi => hp db own [] (.refl hS hi) (fun _ h => h) (by simp)
  | k :: ks, db, own, w, hp, hi => by
    have hskip : ∀ {e : (k : K) × Option (Row k)}, e.1 ∈ ks ∧ e.2 = none → e.1 ∈ k :: ks ∧ e.2 = none :=
      fun h => ⟨List.mem_cons_of_mem _ h.1, h.2⟩
    intro db₁ h₁
    refine ⟨fun r _ _ => ⟨by simp, fun db₂ h₂ => ?_⟩, fun _ => ?_⟩
    · have hsub : ∀ x ∈ own, x ∈ k :: own := fun x hx => List.mem_cons_of_mem _ hx
      refine Ok.deleteEach hS ks (fun db' own' u hst hsub' hu => ?_) h₂.inv
      have hst' := h₁.trans hS ((h₂.trans hS hst).sub hS hsub)
      have hlast := hp db' own' (u ++ [⟨k, none⟩]) hst' (fun x hx => hsub' x (hsub x hx)) fun e he => ?_
      · simpa using hlast
      · rcases List.mem_append.mp he with he | he
        · exact hskip (hu e he)
        · rw [List.mem_singleton.mp he]
          exact ⟨by simp, rfl⟩
    · exact Ok.deleteEach hS ks (fun db' own' u hst hsub hu =>
        hp db' own' u (h₁.trans hS hst) hsub fun e he => hskip (hu e he)) h₁.inv

/-- Log entries, in order. -/
theorem Ok.noteAll {p : Prog Row N} {db : Db Row} {own : List K} {w : Writes Row} :
    ∀ (ns : List N) {log : List N}, (∀ n ∈ ns, S.fact n db) → Ok S p db own w (ns.reverse ++ log) →
      Ok S (.noteAll ns p) db own w log
  | [], _, _, h => h
  | n :: ns, log, hf, h => by
    refine ⟨hf n (by simp), Ok.noteAll ns (fun m hm => hf m (by simp [hm])) ?_⟩
    simpa using h

/-- The update stays one while the thread holds what it did. -/
theorem Updated.stable {q : (k : K) → Row k → Bool} {g : (k : K) → Row k → Row k}
    {db db' : Db Row} {own₀ own : List K} {w : Writes Row} {log : List N}
    (hq : NoneBegins S q own₀ log) (hsub : ∀ k ∈ own₀, k ∈ own) (h : Updated q g own w db)
    (hst : Stable S own log db db') : Updated q g own w db' := by
  have h₀ : Updating q g own₀ [] db own w := ⟨hsub, h.held, h.meets, fun k => Or.inl (h.rows k)⟩
  have h' := h₀.stable hq hst
  exact ⟨h'.held, h'.meets, fun k => by simpa using h'.rows k⟩

/-! ### Between transactions -/

/-- What a thread that holds nothing has left to do is `Ok`, whatever it has
logged. -/
def Rest (S : Spec Row N) (k : Prog Row N) : Prop := ∀ db log, Ok S k db [] [] log

section Rest

variable {p : K → Bool} {k : Prog Row N} {db : Db Row} {own : List K} {w : Writes Row} {log : List N}

theorem Rest.halt : Rest S (.halt : Prog Row N) := fun _ _ => True.intro

theorem Rest.note {n : N} (hn : ∀ db, S.fact n db) (hk : Rest S k) : Rest S (.note n k) := fun db log =>
  ⟨hn db, hk db (n :: log)⟩

theorem Rest.rollback (hk : Rest S k) : Ok S (.rollback k) db own w log := fun db' _ => hk db' log

/-- A commit that is quiet. -/
theorem Rest.commit (hk : Rest S k) (hq : Quiet S p) (hw : Db.Only p w) : Ok S (.commit k) db own w log := by
  intro db₁ h₁
  obtain ⟨hinv, hguar⟩ := hq own (k.settle log).2 db₁ w h₁.inv hw
  exact ⟨hinv, hguar, hk _ _⟩

/-- A read before the next transaction. -/
theorem Rest.read {f : Db Row → Prog Row N} (hk : ∀ db, S.inv db → Rest S (f db)) : Rest S (.read f) :=
  fun _ _ db' h' => hk db' h'.inv db' _

/-- An update of one row, in a transaction of its own. -/
theorem Rest.update (hS : S.Sound) {x : K} {q : Row x → Bool} {g : Row x → Row x} (hk : Rest S k) (hq : Quiet S p)
    (hx : p x = true) : Rest S (.update x q g fun _ => .commit k) := by
  intro db log
  refine Ok.update hS (fun db₁ r h₁ _ _ => ?_) fun db₁ h₁ _ => hk.commit hq .nil
  exact hk.commit hq (.cons hx .nil)

/-- A new row, in a transaction of its own. -/
theorem Rest.insertOr {x : K} {r : Row x} {failure : Prog Row N} (hk : Rest S k) (hf : Rest S failure)
    (hq : Quiet S p) (hx : p x = true) : Rest S (.insertOr x r (.rollback failure) (.commit k)) := by
  intro db log
  exact Ok.insertOr (fun db₁ _ _ => hk.commit hq (.cons hx .nil)) fun db₁ _ => hf.rollback

end Rest

/-! ### Soundness -/

/-- The programs of a run before their first statement. -/
theorem Meets.init {db : Db Row} {progs : ℕ → Prog Row N} (hi : S.inv db)
    (h : ∀ t, Ok S (progs t) db [] [] []) : Meets S (State.init db progs) where
  inv := hi
  ok := fun t => ⟨[], by simp, by simp [State.init], (Ok.settle (h t) (by simp)).1⟩
  statement := fun t => Prog.settle_atStatement _ _
  pend := fun t => by simp [State.init]
  fact := fun t => (Ok.settle (h t) (by simp)).2

/-- Thread `t` goes on at `p` over the database `s₁.db`, and the others are
left alone. -/
private theorem Meets.move (hS : S.Sound) {s : State Row N} (s₁ : State Row N) (hm : Meets S s) {t : ℕ}
    {p : Prog Row N} {w : Writes Row} {own : List K} {log : List N} (hthr : s₁.thr = s.thr)
    (hinv : S.inv s₁.db) (hfact : ∀ n, S.fact n s.db → S.fact n s₁.db)
    (howner : ∀ u, u ≠ t → ∀ k, s.owner k = some u → s₁.owner k = some u)
    (hrows : ∀ u, u ≠ t → ∀ k, s.owner k = some u → s₁.db.row k = s.db.row k)
    (hrely : ∀ u own', u ≠ t → (s.thr u).prog ≠ .halt → (∀ k ∈ own', s.owner k = some u) →
      S.rely own' (s.thr u).log s.db s₁.db)
    (hown : ∀ k ∈ own, s₁.owner k = some t) (hpend : ∀ e ∈ w, e.1 ∈ own)
    (hlog : ∀ n ∈ log, S.fact n s₁.db) (hp : Ok S p s₁.db own w log) :
    Meets S (s₁.goto t p w log) := by
  have hs := Ok.settle hp hlog
  refine ⟨hinv, fun u => ?_, fun u => ?_, fun u => ?_, fun u => ?_⟩
  · by_cases hu : u = t
    · subst hu
      exact ⟨own, hown, by simpa using hpend, by simpa using hs.1⟩
    · obtain ⟨own', h1, h3, h2⟩ := hm.ok u
      refine ⟨own', fun k hk => howner u hu k (h1 k hk), ?_⟩
      simp only [State.goto_thr_ne _ _ _ _ _ _ hu, hthr, State.goto_db]
      refine ⟨h3, ?_⟩
      by_cases hh : (s.thr u).prog = .halt
      · rw [hh]
        trivial
      · exact h2.stable hS (hm.statement u)
          ⟨fun k hk => hrows u hu k (h1 k hk), hrely u own' hu hh h1, hinv⟩
  · by_cases hu : u = t
    · subst hu
      simpa using Prog.settle_atStatement _ _
    · simpa [hu, hthr] using hm.statement u
  · by_cases hu : u = t
    · subst hu
      simpa using fun e he => hown e.1 (hpend e he)
    · simp only [State.goto_thr_ne _ _ _ _ _ _ hu, hthr, State.goto_owner]
      exact fun e he => howner u hu _ (hm.pend u e he)
  · by_cases hu : u = t
    · subst hu
      simpa using hs.2
    · simp only [State.goto_thr_ne _ _ _ _ _ _ hu, hthr, State.goto_db]
      exact fun n hn => hfact n (hm.fact u n hn)

/-- The move of a thread that commits nothing. -/
private theorem Meets.stay (hS : S.Sound) {s : State Row N} (s₁ : State Row N) (hm : Meets S s) {t : ℕ}
    {p : Prog Row N} {w : Writes Row} {own : List K} {log : List N} (hthr : s₁.thr = s.thr)
    (hdb : s₁.db = s.db) (howner : ∀ u, u ≠ t → ∀ k, s.owner k = some u → s₁.owner k = some u)
    (hown : ∀ k ∈ own, s₁.owner k = some t) (hpend : ∀ e ∈ w, e.1 ∈ own)
    (hlog : ∀ n ∈ log, S.fact n s.db) (hp : Ok S p s.db own w log) :
    Meets S (s₁.goto t p w log) :=
  hm.move hS s₁ hthr (hdb ▸ hm.inv) (fun _ h => hdb ▸ h) howner (fun _ _ _ _ => by rw [hdb])
    (fun _ _ _ _ _ => by rw [hdb]; exact hS.refl _ _ _) hown hpend (by rwa [hdb]) (by rwa [hdb])

/-- A lock taken by `t` leaves the locks of the others. -/
private theorem take_owner_of_ne {s : State Row N} {t : ℕ} {k : K} (hfree : s.free t k = true) (u : ℕ)
    (hu : u ≠ t) (k' : K) (h : s.owner k' = some u) : (s.take t k).owner k' = some u := by
  rw [State.take_owner]
  split
  · rename_i he
    subst he
    rcases (State.free_iff s t k').mp hfree with h' | h' <;> rw [h] at h'
    · cases h'
    · exact absurd (Option.some.inj h') hu
  · exact h

private theorem take_owner_self {s : State Row N} {t : ℕ} {k k' : K} (h : s.owner k' = some t) :
    (s.take t k).owner k' = some t := by
  rw [State.take_owner]
  split
  · rfl
  · exact h

private theorem release_owner_of_ne {s : State Row N} {t : ℕ} (u : ℕ) (hu : u ≠ t) (k : K)
    (h : s.owner k = some u) : (s.release t).owner k = some u := by
  simp only [State.release]
  rw [if_neg (by rw [h]; simpa using hu), h]

/-- **One step keeps the spec**, and changes the database only by a commit
within the guarantee of its thread. -/
theorem Meets.step (hS : S.Sound) {C : State Row N → ℕ → State Row N → Prop} (hC : S.Fits C)
    {s s' : State Row N} {t : ℕ} (hm : Meets S s) (hs : Step s t s') (hc : C s t s') :
    Meets S s' ∧ (s'.db = s.db ∨ ∃ own, (∀ k ∈ own, s.owner k = some t) ∧ (∀ e ∈ (s.thr t).pend, e.1 ∈ own) ∧
      S.guar own (s'.thr t).log s.db s'.db) := by
  obtain ⟨own, hown, hpend, hok⟩ := hm.ok t
  have hfact := hm.fact t
  have hrefl : Stable S own (s.thr t).log s.db s.db := .refl hS hm.inv
  rcases hs with hf | rfl
  · unfold fire at hf
    simp only at hf
    split at hf <;> rename_i hp <;> rw [hp] at hok
    · cases hf
    · -- a read
      cases hf
      exact ⟨hm.stay hS s rfl rfl (fun _ _ _ h => h) hown hpend hfact (hok _ hrefl), Or.inl rfl⟩
    · -- a lock
      rename_i k q f
      obtain ⟨hsome, hnone⟩ := hok _ hrefl
      split at hf
      · rename_i hrow
        cases hf
        refine ⟨hm.stay hS s rfl rfl (fun _ _ _ h => h) hown hpend hfact (hnone fun r hr => ?_), Or.inl rfl⟩
        rw [hrow] at hr
        cases hr
      · rename_i r hrow
        split at hf
        · rename_i hq
          split at hf
          · rename_i hfree
            cases hf
            refine ⟨hm.stay hS (s.take t k) rfl rfl (take_owner_of_ne hfree) (fun k' hk' => ?_)
              (fun e he => List.mem_cons_of_mem _ (hpend e he)) hfact (hsome r hrow hq), Or.inl rfl⟩
            rcases List.mem_cons.mp hk' with rfl | hk'
            · simp [State.take_owner]
            · exact take_owner_self (hown k' hk')
          · cases hf
        · rename_i hq
          cases hf
          refine ⟨hm.stay hS s rfl rfl (fun _ _ _ h => h) hown hpend hfact (hnone fun r' hr' => ?_), Or.inl rfl⟩
          rw [hrow] at hr'
          cases hr'
          simpa using hq
    · -- an insert
      rename_i k r f
      obtain ⟨htrue, hfalse⟩ := hok _ hrefl
      split at hf
      · rename_i r' hrow
        cases hf
        exact ⟨hm.stay hS s rfl rfl (fun _ _ _ h => h) hown hpend hfact (hfalse (by simp [hrow])), Or.inl rfl⟩
      · rename_i hrow
        split at hf
        · rename_i hfree
          cases hf
          refine ⟨hm.stay hS (s.take t k) rfl rfl (take_owner_of_ne hfree) (fun k' hk' => ?_)
            (fun e he => ?_) hfact (htrue hrow), Or.inl rfl⟩
          · rcases List.mem_cons.mp hk' with rfl | hk'
            · simp [State.take_owner]
            · exact take_owner_self (hown k' hk')
          · rcases List.mem_cons.mp he with rfl | he
            · simp
            · exact List.mem_cons_of_mem _ (hpend e he)
        · cases hf
    · -- a write
      rename_i k r p
      obtain ⟨hk, hrest⟩ := hok
      split at hf
      · rename_i hfree
        cases hf
        refine ⟨hm.stay hS (s.take t k) rfl rfl (take_owner_of_ne hfree)
          (fun k' hk' => take_owner_self (hown k' hk')) (fun e he => ?_) hfact (hrest _ hrefl), Or.inl rfl⟩
        rcases List.mem_cons.mp he with rfl | he
        · exact hk
        · exact hpend e he
      · cases hf
    · -- a commit
      cases hf
      rename_i p
      obtain ⟨hinv, hguar, hrest⟩ := hok _ hrefl
      have hlog : S.guar own (((State.release { s with db := s.db.apply (s.thr t).pend } t).goto t p []
          (s.thr t).log).thr t).log s.db (s.db.apply (s.thr t).pend) := by simpa using hguar
      refine ⟨hm.move hS (State.release { s with db := s.db.apply (s.thr t).pend } t) rfl hinv
        (fun n hn => hS.fact _ _ n _ _ hm.inv hinv hguar hn) (fun u hu k h => ?_) (fun u hu k h => ?_)
        (fun u own' hu hh h' => hC s t _ own hc hm.inv hinv hlog u own' hu hh h' fun k hk hk' => hu ?_)
        (by simp) (by simp) (fun n hn => hS.fact _ _ n _ _ hm.inv hinv hguar (hfact n hn)) hrest,
        Or.inr ⟨own, hown, hpend, hlog⟩⟩
      · exact release_owner_of_ne (s := { s with db := s.db.apply (s.thr t).pend }) u hu k h
      · refine Db.apply_row_of_notMem _ _ _ fun e he hek => hu ?_
        have := hown e.1 (hpend e he)
        rw [hek, h] at this
        exact Option.some.inj this
      · have := hown k hk
        rw [h' k hk'] at this
        exact Option.some.inj this
    · -- a rollback
      cases hf
      exact ⟨hm.stay hS (s.release t) rfl rfl release_owner_of_ne (by simp) (by simp) hfact
        (hok _ hrefl), Or.inl rfl⟩
    · -- a log entry is never next
      have := hm.statement t
      rw [hp] at this
      exact this.elim
  · exact ⟨hm.stay hS (s.release t) rfl rfl release_owner_of_ne (by simp) (by simp) hfact
      (show Ok S .halt s.db [] [] _ from trivial), Or.inl rfl⟩

/-- **Every state of a run meets the spec.** -/
theorem Meets.run (hS : S.Sound) {C : State Row N → ℕ → State Row N → Prop} (hC : S.Fits C)
    {s s' : State Row N} (hm : Meets S s) (hr : Run C s s') : Meets S s' := by
  induction hr with
  | refl => exact hm
  | step _ hs hc ih => exact (ih.step hS hC hs hc).1

/-- What every commit of the run does, the run does. -/
theorem Meets.trail_of (hS : S.Sound) {C : State Row N → ℕ → State Row N → Prop} (hC : S.Fits C)
    {R : Db Row → Db Row → Prop} (hrefl : ∀ db, R db db)
    (htrans : ∀ db db' db'', R db db' → R db' db'' → R db db'')
    (hguar : ∀ s t s' own, C s t s' → S.inv s.db → S.guar own (s'.thr t).log s.db s'.db → R s.db s'.db)
    {s s' : State Row N} (hm : Meets S s) (hr : Run C s s') : R s.db s'.db := by
  induction hr with
  | refl => exact hrefl _
  | step hr hs hc ih =>
    have hm' := hm.run hS hC hr
    rcases (hm'.step hS hC hs hc).2 with h | ⟨own, -, -, h⟩
    · rwa [h]
    · exact htrans _ _ _ ih (hguar _ _ _ own hc hm'.inv h)

/-- The same, where the guarantee says it of any two databases. -/
theorem Meets.trail (hS : S.Sound) {C : State Row N → ℕ → State Row N → Prop} (hC : S.Fits C)
    {R : Db Row → Db Row → Prop} (hrefl : ∀ db, R db db)
    (htrans : ∀ db db' db'', R db db' → R db' db'' → R db db'')
    (hguar : ∀ own log db db', S.inv db → S.guar own log db db' → R db db')
    {s s' : State Row N} (hm : Meets S s) (hr : Run C s s') : R s.db s'.db :=
  hm.trail_of hS hC hrefl htrans (fun _ _ _ own _ hi hg => hguar own _ _ _ hi hg) hr

end Transactions
