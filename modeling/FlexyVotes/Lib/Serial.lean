/-
# Programs one after the other

`Prog.exec` of `Programs` runs a program alone; `execAll` runs a list of
programs, each to its end before the next starts. `Ok.exec` is the sequential
use of a program's obligations: nobody else moves the database, so a program
that is `Ok` keeps the invariant, and what each of its commits does, its whole
run does. `execAll_induct` carries that over a list of programs.

`Spec.serial` is the spec to show such programs `Ok` for: others leave
everything as it is. What a program does for sure, and not only if it commits,
is read off its statements (`Prog.exec_update`, `Prog.exec_updateWhere`), and
what it leaves alone off the keys it writes (`Prog.Only`). `Prog.Keeps` is for
what the writes of one transaction do together: each write is related to the
view before it, and so is every committed database to the one before it.

Key definitions: `execAll`, `Spec.serial`, `Prog.Only`, `Prog.Keeps`.
Key theorems: `Ok.exec`, `execAll_induct`, `Prog.exec_updateWhere`, `Prog.Only.exec_row`, `Prog.Keeps.after`.
-/
import FlexyVotes.Lib.Rely

set_option linter.unusedSectionVars false

namespace Transactions

variable {K : Type} [DecidableEq K] {Row : K → Type} {N : Type}

/-- The database a program leaves when it runs alone. -/
def Prog.after (p : Prog Row N) (db : Db Row) : Db Row := (p.exec db [] []).db

/-- The programs of a list, one after the other. -/
def execAll (db : Db Row) (ps : List (Prog Row N)) : Db Row := ps.foldl (fun db p => p.after db) db

@[simp] theorem execAll_nil (db : Db Row) : execAll db ([] : List (Prog Row N)) = db := rfl

@[simp] theorem execAll_cons (db : Db Row) (p : Prog Row N) (ps : List (Prog Row N)) :
    execAll db (p :: ps) = execAll (p.after db) ps := rfl

theorem execAll_append (db : Db Row) (ps ps' : List (Prog Row N)) :
    execAll db (ps ++ ps') = execAll (execAll db ps) ps' := by
  rw [execAll, List.foldl_append]
  rfl

/-- The spec of programs that run alone: nothing moves beside them. -/
def Spec.serial (inv : Db Row → Prop) (guar : Db Row → Db Row → Prop) : Spec Row N where
  inv := inv
  rely := fun _ _ db db' => db' = db
  guar := fun _ _ db db' => guar db db'
  fact := fun _ _ => True

theorem Spec.serial_sound (inv : Db Row → Prop) (guar : Db Row → Db Row → Prop) :
    (Spec.serial inv guar : Spec Row N).Sound where
  refl := fun _ _ _ => rfl
  trans := fun _ _ _ _ _ h h' => h'.trans h
  sub := fun _ _ _ _ _ _ h => h
  fact := fun _ _ _ _ _ _ _ _ _ => trivial

/-- Beside a program that runs alone the database stays as it is. -/
theorem Stable.serial {inv : Db Row → Prop} {guar : Db Row → Db Row → Prop} {own : List K}
    {log : List N} {db db' : Db Row} (h : Stable (Spec.serial inv guar) own log db db') : db' = db := h.rely

/-- Alone, a thread sees no row begin to meet a condition. -/
theorem NoneBegins.serial {inv : Db Row → Prop} {guar : Db Row → Db Row → Prop}
    (q : (k : K) → Row k → Bool) (own : List K) (log : List N) :
    NoneBegins (Spec.serial inv guar) q own log := fun _ _ _ _ hst _ _ hr _ => by
  rwa [← hst.serial]

/-- **A program alone keeps the invariant**, and does what its commits do. -/
theorem Ok.exec {S : Spec Row N} (hS : S.Sound) {R : Db Row → Db Row → Prop} (hrefl : ∀ db, R db db)
    (htrans : ∀ db db' db'', R db db' → R db' db'' → R db db'')
    (hguar : ∀ own log db db', S.inv db → S.guar own log db db' → R db db') :
    ∀ (p : Prog Row N) {db : Db Row} {own : List K} {w : Writes Row} {log : List N}, Ok S p db own w log →
      S.inv db → S.inv (p.exec db w log).db ∧ R db (p.exec db w log).db
  | .halt, _, _, _, _, _, hi => ⟨hi, hrefl _⟩
  | .read f, db, own, w, log, h, hi =>
    Ok.exec hS hrefl htrans hguar (f (db.apply w)) (h db (.refl hS hi)) hi
  | .lock k q f, db, own, w, log, h, hi => by
    obtain ⟨hsome, hnone⟩ := h db (.refl hS hi)
    unfold Prog.exec
    split
    · rename_i hrow
      refine Ok.exec hS hrefl htrans hguar (f none) (hnone fun r hr => ?_) hi
      rw [hrow] at hr
      cases hr
    · rename_i r hrow
      split
      · rename_i hq
        exact Ok.exec hS hrefl htrans hguar (f (some r)) (hsome r hrow hq) hi
      · rename_i hq
        refine Ok.exec hS hrefl htrans hguar (f none) (hnone fun r' hr => ?_) hi
        rw [hrow] at hr
        cases hr
        simpa using hq
  | .insert k r f, db, own, w, log, h, hi => by
    obtain ⟨htrue, hfalse⟩ := h db (.refl hS hi)
    unfold Prog.exec
    split
    · rename_i hrow
      exact Ok.exec hS hrefl htrans hguar (f false) (hfalse (by simp [hrow])) hi
    · rename_i hrow
      exact Ok.exec hS hrefl htrans hguar (f true) (htrue hrow) hi
  | .put k r p, db, own, w, log, h, hi =>
    Ok.exec hS hrefl htrans hguar p (h.2 db (.refl hS hi)) hi
  | .commit p, db, own, w, log, h, hi => by
    obtain ⟨hinv, hg, hrest⟩ := h db (.refl hS hi)
    have hp := Ok.exec hS hrefl htrans hguar p hrest hinv
    exact ⟨hp.1, htrans _ _ _ (hguar _ _ _ _ hi hg) hp.2⟩
  | .rollback p, db, own, w, log, h, hi =>
    Ok.exec hS hrefl htrans hguar p (h db (.refl hS hi)) hi
  | .note n p, db, own, w, log, h, hi => Ok.exec hS hrefl htrans hguar p h.2 hi

/-- **A run of programs one after the other** keeps an invariant that each of
them keeps, and does what they do. -/
theorem execAll_induct {I : Db Row → Prop} {R : Db Row → Db Row → Prop} (hrefl : ∀ db, R db db)
    (htrans : ∀ db db' db'', R db db' → R db' db'' → R db db'') :
    ∀ {ps : List (Prog Row N)} {db : Db Row}, (∀ p ∈ ps, ∀ db, I db → I (p.after db) ∧ R db (p.after db)) →
      I db → I (execAll db ps) ∧ R db (execAll db ps)
  | [], db, _, hi => ⟨hi, hrefl db⟩
  | p :: ps, db, h, hi => by
    obtain ⟨hi', hr⟩ := h p (by simp) db hi
    obtain ⟨hi'', hr'⟩ := execAll_induct hrefl htrans (fun p' hp => h p' (List.mem_cons_of_mem _ hp)) hi'
    exact ⟨hi'', htrans _ _ _ hr hr'⟩

/-! ### What statements do alone -/

section Statements

variable {k : K} {p failure : Prog Row N} {db : Db Row} {w : Writes Row} {log : List N}

theorem Prog.exec_read {f : Db Row → Prog Row N} :
    (Prog.read f).exec db w log = (f (db.apply w)).exec db w log := rfl

theorem Prog.exec_commit : (Prog.commit p).exec db w log = p.exec (db.apply w) [] log := rfl

theorem Prog.exec_rollback : (Prog.rollback p).exec db w log = p.exec db [] log := rfl

theorem Prog.exec_put {r : Option (Row k)} : (Prog.put k r p).exec db w log = p.exec db (⟨k, r⟩ :: w) log := rfl

theorem Prog.exec_note {n : N} : (Prog.note n p).exec db w log = p.exec db w (n :: log) := rfl

theorem Prog.exec_lockRow {f : Option (Row k) → Prog Row N} {r : Row k} (h : (db.apply w).row k = some r) :
    (Prog.lockRow k f).exec db w log = (f (some r)).exec db w log := by simp [Prog.lockRow, Prog.exec, h]

theorem Prog.exec_lockRow_none {f : Option (Row k) → Prog Row N} (h : (db.apply w).row k = none) :
    (Prog.lockRow k f).exec db w log = (f none).exec db w log := by simp [Prog.lockRow, Prog.exec, h]

theorem Prog.exec_insert {r : Row k} {f : Bool → Prog Row N} (h : (db.apply w).row k = none) :
    (Prog.insert k r f).exec db w log = (f true).exec db (⟨k, some r⟩ :: w) log := by simp [Prog.exec, h]

theorem Prog.exec_insert_taken {r : Row k} {f : Bool → Prog Row N} (h : (db.apply w).row k ≠ none) :
    (Prog.insert k r f).exec db w log = (f false).exec db w log := by
  obtain ⟨r', hr'⟩ := Option.ne_none_iff_exists'.mp h
  simp [Prog.exec, hr']

theorem Prog.exec_insertOr {r : Row k} (h : (db.apply w).row k = none) :
    (Prog.insertOr k r failure p).exec db w log = p.exec db (⟨k, some r⟩ :: w) log := by
  simp [Prog.insertOr, Prog.exec, h]

theorem Prog.exec_insertOr_taken {r : Row k} (h : (db.apply w).row k ≠ none) :
    (Prog.insertOr k r failure p).exec db w log = failure.exec db w log := by
  obtain ⟨r', hr'⟩ := Option.ne_none_iff_exists'.mp h
  simp [Prog.insertOr, Prog.exec, hr']

theorem Prog.exec_update {q : Row k → Bool} {g : Row k → Row k} {f : Bool → Prog Row N} {r : Row k}
    (h : (db.apply w).row k = some r) (hq : q r = true) :
    (Prog.update k q g f).exec db w log = (f true).exec db (⟨k, some (g r)⟩ :: w) log := by
  simp [Prog.update, Prog.exec, h, hq]

theorem Prog.exec_update_none {q : Row k → Bool} {g : Row k → Row k} {f : Bool → Prog Row N}
    (h : ∀ r, (db.apply w).row k = some r → q r = false) :
    (Prog.update k q g f).exec db w log = (f false).exec db w log := by
  rcases hr : (db.apply w).row k with _ | r
  · simp [Prog.update, Prog.exec, hr]
  · simp [Prog.update, Prog.exec, hr, h r hr]

/-- `UPDATE … WHERE` over the keys `ks` updates their rows. -/
theorem Prog.exec_updateEach {q : (k : K) → Row k → Bool} {g : (k : K) → Row k → Row k} :
    ∀ (ks : List K) {w : Writes Row}, ks.Nodup → ∃ u : Writes Row,
      (Prog.updateEach q g ks p).exec db w log = p.exec db u log ∧
      ∀ k, (db.apply u).row k = if k ∈ ks then ((db.apply w).row k).map (updated q g k) else (db.apply w).row k
  | [], w, _ => ⟨w, rfl, fun _ => by simp⟩
  | k :: ks, w, hnd => by
    obtain ⟨hk, hnd⟩ := List.nodup_cons.mp hnd
    have hrest : ∀ w' : Writes Row, (∀ x, (db.apply w').row x =
        if x = k then ((db.apply w).row x).map (updated q g x) else (db.apply w).row x) →
        ∃ u : Writes Row, (Prog.updateEach q g ks p).exec db w' log = p.exec db u log ∧ ∀ x, (db.apply u).row x =
          if x ∈ k :: ks then ((db.apply w).row x).map (updated q g x) else (db.apply w).row x := by
      intro w' hw'
      obtain ⟨u, hu, hrows⟩ := Prog.exec_updateEach ks (w := w') hnd
      refine ⟨u, hu, fun x => ?_⟩
      rw [hrows x, hw' x]
      by_cases hx : x = k
      · subst hx
        simp [hk]
      · simp [hx]
    unfold Prog.updateEach
    by_cases hq : ∃ r, (db.apply w).row k = some r ∧ q k r = true
    · obtain ⟨r, hr, hq⟩ := hq
      rw [Prog.exec_update hr hq]
      refine hrest _ fun x => ?_
      by_cases hx : x = k
      · subst hx
        simp [hr, updated, hq]
      · rw [if_neg hx, Db.apply_cons, Db.set_row_ne _ _ hx]
    · have hno : ∀ r, (db.apply w).row k = some r → q k r = false := fun r hr => by
        by_contra hne
        exact hq ⟨r, hr, by simpa using hne⟩
      rw [Prog.exec_update_none hno]
      refine hrest _ fun x => ?_
      by_cases hx : x = k
      · subst hx
        rw [if_pos rfl]
        rcases hr : (db.apply w).row x with _ | r
        · rfl
        · simp [updated, hno r hr]
      · rw [if_neg hx]

/-- `UPDATE … WHERE` alone updates every row that meets its condition. -/
theorem Prog.exec_updateWhere {q : (k : K) → Row k → Bool} {g : (k : K) → Row k → Row k} : ∃ u : Writes Row,
    (Prog.updateWhere q g p).exec db w log = p.exec db u log ∧
    ∀ k, (db.apply u).row k = ((db.apply w).row k).map (updated q g k) := by
  obtain ⟨u, hu, hrows⟩ : ∃ u : Writes Row,
      (Prog.updateEach q g ((db.apply w).select q) p).exec db w log = p.exec db u log ∧ _ :=
    Prog.exec_updateEach _ (Db.select_nodup _ _)
  refine ⟨u, hu, fun k => ?_⟩
  rw [hrows k]
  by_cases hk : k ∈ (db.apply w).select q
  · rw [if_pos hk]
  · rw [if_neg hk]
    rcases hr : (db.apply w).row k with _ | r
    · rfl
    · have hq : ¬ q k r = true := fun hq => hk ((Db.mem_select _ _ _).mpr ⟨r, hr, hq⟩)
      simp [updated, hq]

/-- `DELETE … WHERE` over the keys `ks` deletes their rows. -/
theorem Prog.exec_deleteEach {q : (k : K) → Row k → Bool} :
    ∀ (ks : List K) {w : Writes Row}, ks.Nodup → ∃ u : Writes Row,
      (Prog.deleteEach q ks p).exec db w log = p.exec db u log ∧
      ∀ k, (db.apply u).row k = if k ∈ ks then ((db.apply w).row k).filter (!q k ·) else (db.apply w).row k
  | [], w, _ => ⟨w, rfl, fun _ => by simp⟩
  | k :: ks, w, hnd => by
    obtain ⟨hk, hnd⟩ := List.nodup_cons.mp hnd
    have hrest : ∀ w' : Writes Row, (∀ x, (db.apply w').row x =
        if x = k then ((db.apply w).row x).filter (!q x ·) else (db.apply w).row x) →
        ∃ u : Writes Row, (Prog.deleteEach q ks p).exec db w' log = p.exec db u log ∧ ∀ x, (db.apply u).row x =
          if x ∈ k :: ks then ((db.apply w).row x).filter (!q x ·) else (db.apply w).row x := by
      intro w' hw'
      obtain ⟨u, hu, hrows⟩ := Prog.exec_deleteEach ks (w := w') hnd
      refine ⟨u, hu, fun x => ?_⟩
      rw [hrows x, hw' x]
      by_cases hx : x = k
      · subst hx
        simp [hk]
      · simp [hx]
    unfold Prog.deleteEach
    rcases hr : (db.apply w).row k with _ | r
    · rw [show (Prog.lock k (q k) _ : Prog Row N).exec db w log = (Prog.deleteEach q ks p).exec db w log by
        simp [Prog.exec, hr]]
      refine hrest _ fun x => ?_
      by_cases hx : x = k
      · subst hx
        simp [hr]
      · rw [if_neg hx]
    by_cases hq : q k r = true
    · rw [show (Prog.lock k (q k) _ : Prog Row N).exec db w log =
          (Prog.deleteEach q ks p).exec db (⟨k, none⟩ :: w) log by simp [Prog.exec, hr, hq]]
      refine hrest _ fun x => ?_
      by_cases hx : x = k
      · subst hx
        simp [hr, Option.filter, hq]
      · rw [if_neg hx, Db.apply_cons, Db.set_row_ne _ _ hx]
    · rw [show (Prog.lock k (q k) _ : Prog Row N).exec db w log = (Prog.deleteEach q ks p).exec db w log by
        simp [Prog.exec, hr, hq]]
      refine hrest _ fun x => ?_
      by_cases hx : x = k
      · subst hx
        simp [hr, Option.filter, hq]
      · rw [if_neg hx]

/-- `DELETE … WHERE` alone deletes every row that meets its condition. -/
theorem Prog.exec_deleteWhere {q : (k : K) → Row k → Bool} : ∃ u : Writes Row,
    (Prog.deleteWhere q p).exec db w log = p.exec db u log ∧
    ∀ k, (db.apply u).row k = ((db.apply w).row k).filter (!q k ·) := by
  obtain ⟨u, hu, hrows⟩ : ∃ u : Writes Row,
      (Prog.deleteEach q ((db.apply w).select q) p).exec db w log = p.exec db u log ∧ _ :=
    Prog.exec_deleteEach _ (Db.select_nodup _ _)
  refine ⟨u, hu, fun k => ?_⟩
  rw [hrows k]
  by_cases hk : k ∈ (db.apply w).select q
  · rw [if_pos hk]
  · rw [if_neg hk]
    rcases hr : (db.apply w).row k with _ | r
    · rfl
    · have hq : ¬ q k r = true := fun hq => hk ((Db.mem_select _ _ _).mpr ⟨r, hr, hq⟩)
      simp [Option.filter, hq]

end Statements

/-! ### What a program leaves alone -/

/-- The program writes under keys of `p` only. -/
def Prog.Only (p : K → Bool) : Prog Row N → Prop
  | .halt => True
  | .read f => ∀ db, (f db).Only p
  | .lock _ _ f => ∀ r, (f r).Only p
  | .insert k _ f => p k = true ∧ ∀ b, (f b).Only p
  | .put k _ q => p k = true ∧ q.Only p
  | .commit q | .rollback q | .note _ q => q.Only p

section Frame

variable {p : K → Bool} {q failure : Prog Row N} {k : K}

theorem Prog.Only.lockRow {f : Option (Row k) → Prog Row N} (hnone : (f none).Only p) (hsome : ∀ r, (f (some r)).Only p) :
    (Prog.lockRow k f).Only p := fun
  | none => hnone
  | some r => hsome r

theorem Prog.Only.insertOr {r : Row k} (hk : p k = true) (hf : failure.Only p) (hq : q.Only p) :
    (Prog.insertOr k r failure q).Only p :=
  ⟨hk, fun
    | true => hq
    | false => hf⟩

theorem Prog.Only.update {c : Row k → Bool} {g : Row k → Row k} {f : Bool → Prog Row N} (hk : p k = true)
    (hf : ∀ b, (f b).Only p) : (Prog.update k c g f).Only p := fun
  | none => hf false
  | some _ => ⟨hk, hf true⟩

theorem Prog.Only.updateEach {c : (k : K) → Row k → Bool} {g : (k : K) → Row k → Row k} (hq : q.Only p) :
    ∀ ks : List K, (∀ k ∈ ks, p k = true) → (Prog.updateEach c g ks q).Only p
  | [], _ => hq
  | k :: ks, h => .update (h k List.mem_cons_self) fun _ =>
    .updateEach hq ks fun x hx => h x (List.mem_cons_of_mem _ hx)

/-- `UPDATE … WHERE` writes the rows that can meet its condition. -/
theorem Prog.Only.updateWhere {c : (k : K) → Row k → Bool} {g : (k : K) → Row k → Row k}
    (hc : ∀ k r, c k r = true → p k = true) (hq : q.Only p) : (Prog.updateWhere c g q).Only p := fun db =>
  .updateEach hq _ fun k hk => by
    obtain ⟨r, -, hr⟩ := (db.mem_select _ _).mp hk
    exact hc k r hr

/-- **The frame of a program**: alone, it leaves the rows of other keys. -/
theorem Prog.Only.exec_row : ∀ {q : Prog Row N} {db : Db Row} {w : Writes Row} {log : List N}, q.Only p → Db.Only p w →
    ∀ {k : K}, p k = false → (q.exec db w log).db.row k = db.row k
  | .halt, _, _, _, _, _, _, _ => rfl
  | .read _, _, _, _, hq, hw, _, hk => (hq _).exec_row hw hk
  | .lock k₀ c f, db, w, log, hq, hw, k, hk => by
    unfold Prog.exec
    rcases (db.apply w).row k₀ with _ | r
    · exact (hq none).exec_row hw hk
    · dsimp only
      split_ifs
      · exact (hq (some r)).exec_row hw hk
      · exact (hq none).exec_row hw hk
  | .insert k₀ r f, db, w, log, hq, hw, k, hk => by
    unfold Prog.exec
    rcases (db.apply w).row k₀ with _ | r'
    · exact (hq.2 true).exec_row (hw.cons hq.1) hk
    · exact (hq.2 false).exec_row hw hk
  | .put _ _ _, _, _, _, hq, hw, _, hk => hq.2.exec_row (hw.cons hq.1) hk
  | .commit q, db, w, log, hq, hw, k, hk => by
    have hq' : q.Only p := hq
    exact (hq'.exec_row .nil hk).trans (hw.apply_row db hk)
  | .rollback q, _, _, _, hq, _, _, hk => by
    have hq' : q.Only p := hq
    exact hq'.exec_row .nil hk
  | .note _ q, _, _, _, hq, hw, _, hk => by
    have hq' : q.Only p := hq
    exact hq'.exec_row hw hk

end Frame

/-! ### What a program keeps to -/

/-- Alone from the view `v`, in which it may already have written, the program
stays within `R` if `v` does. -/
def Prog.Keeps (R : Db Row → Db Row → Prop) (v : Db Row) (q : Prog Row N) : Prop :=
  ∀ db w log, db.apply w = v → R db v → R db (q.exec db w log).db

/-- From every view. -/
def Prog.KeepsAll (R : Db Row → Db Row → Prop) (q : Prog Row N) : Prop := ∀ v, q.Keeps R v

/-- Rows under keys of `p` do not matter to `R`. -/
def Ignores (R : Db Row → Db Row → Prop) (p : K → Bool) : Prop := ∀ v k r, p k = true → R v (v.set k r)

/-- The databases differ under keys of `p` only. -/
def Off (p : K → Bool) (v v' : Db Row) : Prop := ∀ k, p k = false → v'.row k = v.row k

theorem Off.refl {p : K → Bool} (v : Db Row) : Off p v v := fun _ _ => rfl

theorem Off.set {p : K → Bool} {v v' : Db Row} {k : K} {r : Option (Row k)} (h : Off p v v') (hk : p k = true) :
    Off p v (v'.set k r) := fun x hx => by
  rw [Db.set_row_ne _ _ fun heq => by rw [heq, hk] at hx; cases hx]
  exact h x hx

section Keeps

variable {R : Db Row → Db Row → Prop} {p : K → Bool} {v : Db Row} {q failure : Prog Row N} {k : K}

/-- What a whole program keeps to. -/
theorem Prog.Keeps.after (hrefl : ∀ v, R v v) {db : Db Row} (h : q.Keeps R db) : R db (q.after db) :=
  h db [] [] rfl (hrefl db)

theorem Prog.Keeps.halt (hrefl : ∀ v, R v v) : (Prog.halt : Prog Row N).Keeps R v := fun db _ _ _ _ => hrefl db

theorem Prog.Keeps.read {f : Db Row → Prog Row N} (h : (f v).Keeps R v) : (Prog.read f).Keeps R v := by
  intro db w log hv hR
  rw [Prog.exec_read, hv]
  exact h db w log hv hR

theorem Prog.Keeps.lockRow {f : Option (Row k) → Prog Row N} (hnone : v.row k = none → (f none).Keeps R v)
    (hsome : ∀ r, v.row k = some r → (f (some r)).Keeps R v) : (Prog.lockRow k f).Keeps R v := by
  intro db w log hv hR
  rcases hr : v.row k with _ | r
  · rw [Prog.exec_lockRow_none (hv ▸ hr)]
    exact hnone hr db w log hv hR
  · rw [Prog.exec_lockRow (hv ▸ hr)]
    exact hsome r hr db w log hv hR

section Writes

variable (htrans : ∀ v v' v'', R v v' → R v' v'' → R v v'')

include htrans

theorem Prog.Keeps.put {r : Option (Row k)} (hr : R v (v.set k r)) (h : q.Keeps R (v.set k r)) :
    (Prog.put k r q).Keeps R v := by
  intro db w log hv hR
  rw [Prog.exec_put]
  exact h db _ log (by rw [Db.apply_cons, hv]) (htrans _ _ _ hR hr)

theorem Prog.Keeps.insert {r : Row k} {f : Bool → Prog Row N} (hr : v.row k = none → R v (v.set k (some r)))
    (h : v.row k = none → (f true).Keeps R (v.set k (some r))) (hf : v.row k ≠ none → (f false).Keeps R v) :
    (Prog.insert k r f).Keeps R v := by
  intro db w log hv hR
  rcases hfree : v.row k with _ | r'
  · have hexec : (Prog.insert k r f).exec db w log = (f true).exec db (⟨k, some r⟩ :: w) log := by
      simp [Prog.exec, hv, hfree]
    rw [hexec]
    exact h hfree db _ log (by rw [Db.apply_cons, hv]) (htrans _ _ _ hR (hr hfree))
  · have hexec : (Prog.insert k r f).exec db w log = (f false).exec db w log := by simp [Prog.exec, hv, hfree]
    rw [hexec]
    exact hf (by simp [hfree]) db w log hv hR

theorem Prog.Keeps.insertOr {r : Row k} (hr : v.row k = none → R v (v.set k (some r)))
    (h : v.row k = none → q.Keeps R (v.set k (some r))) (hf : failure.Keeps R v) :
    (Prog.insertOr k r failure q).Keeps R v := .insert htrans hr h fun _ => hf

theorem Prog.Keeps.update {c : Row k → Bool} {g : Row k → Row k} {f : Bool → Prog Row N}
    (hr : ∀ r, v.row k = some r → c r = true → R v (v.set k (some (g r))))
    (h : ∀ r, v.row k = some r → c r = true → (f true).Keeps R (v.set k (some (g r))))
    (hf : (f false).Keeps R v) : (Prog.update k c g f).Keeps R v := by
  intro db w log hv hR
  by_cases hrow : ∃ r, v.row k = some r ∧ c r = true
  · obtain ⟨r, hrow, hc⟩ := hrow
    rw [Prog.exec_update (hv ▸ hrow) hc]
    exact h r hrow hc db _ log (by rw [Db.apply_cons, hv]) (htrans _ _ _ hR (hr r hrow hc))
  · rw [Prog.exec_update_none fun r hr => ?_]
    · exact hf db w log hv hR
    · by_contra hc
      exact hrow ⟨r, hv ▸ hr, by simpa using hc⟩

theorem Prog.Keeps.commit (hrefl : ∀ v, R v v) (h : q.Keeps R v) : (Prog.commit q).Keeps R v := by
  intro db w log hv hR
  rw [Prog.exec_commit, hv]
  exact htrans _ _ _ hR (h v [] log rfl (hrefl v))

/-- Several writes at once: what they come to is within `R`. -/
theorem Prog.Keeps.of_exec {q' : Prog Row N} (h : ∀ (db : Db Row) (w : Writes Row) (log : List N), db.apply w = v →
    ∃ w', q.exec db w log = q'.exec db w' log ∧ R v (db.apply w') ∧ q'.Keeps R (db.apply w')) : q.Keeps R v := by
  intro db w log hv hR
  obtain ⟨w', heq, hwritten, hq'⟩ := h db w log hv
  rw [heq]
  exact hq' db w' log rfl (htrans _ _ _ hR hwritten)

/-- The same, for what starts at the commit. -/
theorem Prog.Keeps.commit_exec (h : ∀ log, R v (q.exec v [] log).db) : (Prog.commit q).Keeps R v := by
  intro db w log hv hR
  rw [Prog.exec_commit, hv]
  exact htrans _ _ _ hR (h log)

/-- Rows that do not matter are updated one after the other. -/
theorem Prog.Keeps.updateEach {c : (k : K) → Row k → Bool} {g : (k : K) → Row k → Row k} (hp : Ignores R p)
    (h : q.KeepsAll R) : ∀ (ks : List K), (∀ k ∈ ks, p k = true) → (Prog.updateEach c g ks q).KeepsAll R
  | [], _ => h
  | k :: ks, hks => fun _ =>
    have hrest : (Prog.updateEach c g ks q).KeepsAll R :=
      updateEach hp h ks fun x hx => hks x (List.mem_cons_of_mem _ hx)
    .update htrans (fun _ _ _ => hp _ _ _ (hks k List.mem_cons_self)) (fun _ _ _ => hrest _) (hrest _)

theorem Prog.Keeps.updateWhere {c : (k : K) → Row k → Bool} {g : (k : K) → Row k → Row k} (hp : Ignores R p)
    (hc : ∀ k r, c k r = true → p k = true) (h : q.KeepsAll R) : (Prog.updateWhere c g q).Keeps R v :=
  .read (.updateEach htrans hp h _ (fun k hk => by
    obtain ⟨r, -, hr⟩ := (v.mem_select _ _).mp hk
    exact hc k r hr) v)

end Writes

/-- `DELETE … WHERE` alone: what follows sees the rows that are left. -/
theorem Prog.Keeps.deleteWhere (htrans : ∀ v v' v'', R v v' → R v' v'' → R v v'') {c : (k : K) → Row k → Bool}
    (h : ∀ v', (∀ k, v'.row k = (v.row k).filter (!c k ·)) → R v v' ∧ q.Keeps R v') :
    (Prog.deleteWhere c q).Keeps R v := by
  intro db w log hv hR
  have hdelete : ∃ u : Writes Row, (Prog.deleteWhere c q).exec db w log = q.exec db u log ∧
      ∀ k, (db.apply u).row k = ((db.apply w).row k).filter (!c k ·) := Prog.exec_deleteWhere
  obtain ⟨u, hu, hrows⟩ := hdelete
  rw [hv] at hrows
  obtain ⟨hr, hq⟩ := h _ hrows
  rw [hu]
  exact hq db u log rfl (htrans _ _ _ hR hr)

theorem Prog.Keeps.rollback (hrefl : ∀ v, R v v) (h : q.KeepsAll R) : (Prog.rollback q).Keeps R v := by
  intro db w log _ _
  rw [Prog.exec_rollback]
  exact h db db [] log rfl (hrefl db)

theorem Prog.Keeps.note {n : N} (h : q.Keeps R v) : (Prog.note n q).Keeps R v := by
  intro db w log hv hR
  rw [Prog.exec_note]
  exact h db w (n :: log) hv hR

/-- An invariant is not lost. -/
def Preserves (I : Db Row → Prop) (v v' : Db Row) : Prop := I v → I v'

theorem Preserves.refl {I : Db Row → Prop} (v : Db Row) : Preserves I v v := fun h => h

theorem Preserves.trans {I : Db Row → Prop} (v v' v'' : Db Row) (h : Preserves I v v') (h' : Preserves I v' v'') :
    Preserves I v v'' := fun hi => h' (h hi)

/-- What a program does from a view may use the invariant there. -/
theorem Prog.Keeps.given {I : Db Row → Prop} (h : I v → q.Keeps (Preserves I) v) : q.Keeps (Preserves I) v :=
  fun db w log hv hR hi => h (hR hi) db w log hv hR hi

end Keeps

end Transactions
