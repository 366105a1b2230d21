/-
# Refunds in runs

The refunds keep `spec`. An approval runs statement by statement or inside the
transaction of the request it executes; what is known between its statements is
the same in both (`Part`), and what ends a statement is either a commit or
nothing (`Ends`). With them all calls about payments are within `spec`
(`Call.spec`).

Key definitions: `Part`, `Ends`, `Call`.
Key theorems: `completeRefund_ok`, `approveRefund_ok`, `Call.spec`.
-/
import FlexyVotes.Payments.Runs

namespace FlexyVotes
namespace Runs

open Transactions Audit Payments Tickets Integrity

variable {W : Watch}

/-! ### What a refund's commit does -/

/-- What a transaction makes of a refund it does not complete. -/
def Drafts (W : Watch) (r₀ r : RefundRow) : Prop :=
  r = r₀ ∨ r.amount = r₀.amount ∧ r.payment = r₀.payment ∧ r.status ≠ .PROCESSED ∧ r.status ≠ .REQUESTED ∧
    (W.settling → r₀.status ≠ .PROCESSED)

/-- What a refund adds to the sum of those with a status of `c`. -/
def share (c : RefundStatus → Bool) (reference : String) (r : RefundRow) : ℕ :=
  if r.payment = reference ∧ c r.status then r.amount else 0

section Steps

variable {own : List Key} {log : List Note} {db db' : Database} {id : String} {r₀ r : RefundRow}

theorem weight_refund {c : RefundStatus → Bool} {reference : String} (hr : db.row (.refund id) = some r) :
    db.weight (amountOf c reference) (.refund id) = share c reference r := by
  unfold Db.weight share
  rw [hr]
  by_cases h : r.payment = reference ∧ c r.status = true
  · simp [amountOf, h]
  · simp [amountOf, h]

theorem weight_none {c : RefundStatus → Bool} {reference : String} (hr : db.row (.refund id) = none) :
    db.weight (amountOf c reference) (.refund id) = 0 := by
  unfold Db.weight
  rw [hr]
  rfl

/-- Where one refund changes, a sum moves by its share. -/
theorem refundSum_moves (c : RefundStatus → Bool) (reference : String)
    (hother : ∀ id', id' ≠ id → db'.row (.refund id') = db.row (.refund id')) :
    refundSum c db' reference + db.weight (amountOf c reference) (.refund id) =
      refundSum c db reference + db'.weight (amountOf c reference) (.refund id) := by
  refine Db.total_of_ne (Key.refund id) fun x hx => ?_
  unfold Db.weight
  cases x with
  | refund id' => rw [hother id' (by simpa using hx)]
  | _ =>
    rcases db'.row _ with _ | r'
    · rcases db.row _ with _ | r <;> rfl
    · rcases db.row _ with _ | r <;> rfl

/-- What the guarantee and the books tell is about the watched rows. -/
theorem Committed.congr {d : Database} (h : Committed W own log db db')
    (hrow : ∀ x, isWatched x = true → d.row x = db'.row x) : Committed W own log db d := by
  refine ⟨fun reference => ?_, fun reference => ⟨fun pk v hv hc => ?_, fun p' hp' hc => ?_⟩, fun id => ?_,
    fun e => (hrow _ rfl).trans (h.events e), ?_⟩
  · rw [hrow _ rfl]
    exact h.payments reference
  · rw [hrow _ rfl] at hv
    rw [hrow _ rfl]
    exact (h.ledger reference).counted pk v hv hc
  · rw [hrow _ rfl] at hp'
    refine ((h.ledger reference).closed p' hp' hc).imp_right (Or.imp_left fun hall hW pk v hv => ?_)
    rw [hrow _ rfl] at hv
    exact hall hW pk v hv
  · rw [hrow _ rfl]
    exact h.refunds id
  · obtain ⟨id, hone⟩ := h.one
    refine ⟨id, fun id' hne => ?_⟩
    rw [hrow _ rfl]
    exact hone id' hne

/-- A commit of one refund. -/
theorem Committed.of_refund (hr₀ : db.row (.refund id) = some r₀) (hr : db'.row (.refund id) = some r)
    (hd : Drafts W r₀ r) (hother : ∀ x, x ≠ .refund id → isWatched x = true → db'.row x = db.row x) :
    Committed W own log db db' := by
  have hne : ∀ id', id' ≠ id → db'.row (.refund id') = db.row (.refund id') := fun id' h =>
    hother _ (by simpa using h) rfl
  refine ⟨fun reference => .same (hother _ (by simp) rfl), fun reference => .same (hother _ (by simp) rfl)
    fun pk => hother _ (by simp) rfl, fun id' => ?_, fun e => hother _ (by simp) rfl, id, hne⟩
  by_cases h : id' = id
  · subst h
    rw [hr₀, hr]
    rcases hd with rfl | ⟨hamount, hpayment, hp, hq, hs⟩
    · exact ⟨rfl, rfl, fun _ => rfl, fun _ h => h⟩
    · exact ⟨hamount, hpayment, fun h => absurd h hq, fun hW h => absurd h (hs hW)⟩
  · exact .same (hne id' h)

theorem Books.of_refund (hb : Books W db) (hr₀ : db.row (.refund id) = some r₀)
    (hr : db'.row (.refund id) = some r) (hd : Drafts W r₀ r)
    (hother : ∀ x, x ≠ .refund id → isWatched x = true → db'.row x = db.row x) : Books W db' := by
  have hsum : ∀ reference, processedSum db' reference + share (· = .PROCESSED) reference r₀ =
      processedSum db reference + share (· = .PROCESSED) reference r := fun reference => by
    have hne : ∀ id', id' ≠ id → db'.row (.refund id') = db.row (.refund id') := fun id' h =>
      hother _ (by simpa using h) rfl
    have hmoves := refundSum_moves (· = .PROCESSED) reference hne
    rw [weight_refund hr₀, weight_refund hr] at hmoves
    exact hmoves
  have hshare : ∀ reference, share (· = .PROCESSED) reference r ≤ share (· = .PROCESSED) reference r₀ ∧
      (W.settling → share (· = .PROCESSED) reference r = share (· = .PROCESSED) reference r₀) := by
    intro reference
    rcases hd with rfl | ⟨-, -, hp, -, hs⟩
    · exact ⟨le_refl _, fun _ => rfl⟩
    · have hzero : share (· = .PROCESSED) reference r = 0 := by simp [share, hp]
      rw [hzero]
      exact ⟨Nat.zero_le _, fun hW => by simp [share, hs hW]⟩
  have hpayment : ∀ reference, db'.row (.payment reference) = db.row (.payment reference) := fun reference =>
    hother _ (by simp) rfl
  refine ⟨fun hW reference p hp => ?_, fun hW reference p hp => ?_, fun hW id' x hx => ?_⟩
  · have h := hb.covered hW reference p ((hpayment _).symm.trans hp)
    have h₁ := hsum reference
    have h₂ := (hshare reference).1
    omega
  · have h := hb.exact hW reference p ((hpayment _).symm.trans hp)
    have h₁ := hsum reference
    have h₂ := (hshare reference).2 hW
    omega
  · rw [hpayment]
    by_cases h : id' = id
    · subst h
      obtain rfl := Option.some.inj (hr.symm.trans hx)
      have hsame : r.payment = r₀.payment := by
        rcases hd with rfl | ⟨-, h, -⟩
        · rfl
        · exact h
      rw [hsame]
      exact hb.absent hW id' r₀ hr₀
    · exact hb.absent hW id' x ((hother _ (by simpa using h) rfl).symm.trans hx)

/-- The refund is processed, and its amount added to what is refunded. -/
structure Completes (W : Watch) (id : String) (r₀ r : RefundRow) (p₀ p : PaymentRow) (db db' : Database) : Prop where
  before : db.row (.refund id) = some r₀
  after : db'.row (.refund id) = some r
  amount : r.amount = r₀.amount
  payment : r.payment = r₀.payment
  processed : r.status = .PROCESSED
  wasOpen : W.settling → r₀.status ≠ .PROCESSED
  paid : db.row (.payment r₀.payment) = some p₀
  paid' : db'.row (.payment r₀.payment) = some p
  lasting : Lasting p₀ p
  moves : Moves p₀ p
  passed : Passed p → Passed p₀
  closed : Closed p.status → Closed p₀.status
  refunded : p.refundedAmount = p₀.refundedAmount + r₀.amount
  /-- Ledger rows are at most reversed. -/
  ledger : ∀ pk v reference, db'.row (.voteTransaction pk) = some v →
    countedOf reference (.voteTransaction pk) v = true → db.row (.voteTransaction pk) = some v
  payments : ∀ reference, reference ≠ r₀.payment → db'.row (.payment reference) = db.row (.payment reference)
  refunds : ∀ id', id' ≠ id → db'.row (.refund id') = db.row (.refund id')
  events : ∀ e, db'.row (.event e) = db.row (.event e)

variable {p₀ p : PaymentRow}

theorem Completes.committed (h : Completes W id r₀ r p₀ p db db') : Committed W own log db db' := by
  refine ⟨fun reference => ?_, fun reference => ⟨fun pk v hv hc => Or.inl (h.ledger pk v reference hv hc),
    fun p' hp' hc => Or.inl ?_⟩, fun id' => ?_, h.events, id, h.refunds⟩
  · by_cases hr : reference = r₀.payment
    · subst hr
      rw [h.paid, h.paid']
      exact ⟨h.lasting, fun _ => h.moves, fun _ => h.passed⟩
    · exact .same (h.payments reference hr)
  · by_cases hr : reference = r₀.payment
    · subst hr
      obtain rfl := Option.some.inj (h.paid'.symm.trans hp')
      exact ⟨p₀, h.paid, h.closed hc⟩
    · exact ⟨p', (h.payments reference hr).symm.trans hp', hc⟩
  · by_cases hid : id' = id
    · subst hid
      rw [h.before, h.after]
      exact ⟨h.amount, h.payment, fun hq => absurd (hq.symm.trans h.processed) (by simp), fun _ _ => h.processed⟩
    · exact .same (h.refunds id' hid)

theorem Completes.books (h : Completes W id r₀ r p₀ p db db') (hb : Books W db) : Books W db' := by
  have hsum : ∀ reference, processedSum db' reference + share (· = .PROCESSED) reference r₀ =
      processedSum db reference + share (· = .PROCESSED) reference r := fun reference => by
    have hmoves := refundSum_moves (· = .PROCESSED) reference h.refunds
    rw [weight_refund h.before, weight_refund h.after] at hmoves
    exact hmoves
  have hother : ∀ reference, reference ≠ r₀.payment → processedSum db' reference = processedSum db reference := by
    intro reference hne
    have hs := hsum reference
    simp only [share, h.payment, Ne.symm hne, false_and, if_false] at hs
    exact hs
  have hown : processedSum db' r₀.payment + share (· = .PROCESSED) r₀.payment r₀ =
      processedSum db r₀.payment + r₀.amount := by
    rw [hsum]
    simp [share, h.payment, h.processed, h.amount]
  have hfrom : ∀ reference q, db'.row (.payment reference) = some q → reference ≠ r₀.payment →
      db.row (.payment reference) = some q := fun reference q hq hne => (h.payments reference hne).symm.trans hq
  refine ⟨fun hW reference q hq => ?_, fun hW reference q hq => ?_, fun hW id' x hx => ?_⟩
  · by_cases hr : reference = r₀.payment
    · subst hr
      obtain rfl := Option.some.inj (h.paid'.symm.trans hq)
      have hcovered := hb.covered hW _ _ h.paid
      rw [h.refunded]
      omega
    · rw [hother reference hr]
      exact hb.covered hW reference q (hfrom reference q hq hr)
  · by_cases hr : reference = r₀.payment
    · subst hr
      obtain rfl := Option.some.inj (h.paid'.symm.trans hq)
      have hexact := hb.exact hW _ _ h.paid
      have hzero : share (· = .PROCESSED) r₀.payment r₀ = 0 := by simp [share, h.wasOpen hW]
      rw [h.refunded]
      omega
    · rw [hother reference hr]
      exact hb.exact hW reference q (hfrom reference q hq hr)
  · have hne : db.row (.payment x.payment) ≠ none := by
      by_cases hid : id' = id
      · subst hid
        obtain rfl := Option.some.inj (h.after.symm.trans hx)
        rw [h.payment, h.paid]
        simp
      · exact hb.absent hW id' x ((h.refunds id' hid).symm.trans hx)
    by_cases hr : x.payment = r₀.payment
    · rw [hr, h.paid']
      simp
    · rw [h.payments _ hr]
      exact hne

end Steps

/-! ### What is known between the statements -/

/-- Committing now is within the spec. -/
def Commits (W : Watch) (own : List Key) (w : Writes Row) (db : Database) : Prop :=
  ∀ db', Held own db db' → (spec W).inv db' →
    (spec W).inv (db'.apply w) ∧ ∀ own' log, Committed W own' log db' (db'.apply w)

/-- The transaction has written the refund, without completing it, and rows that
are not watched. -/
structure Part (W : Watch) (id : String) (own : List Key) (w : Writes Row) (db : Database) : Prop where
  only : ∀ e ∈ w, e.1 = .refund id ∨ isWatched e.1 = false
  rows : (∀ db' : Database, (db'.apply w).row (.refund id) = db'.row (.refund id)) ∨
    .refund id ∈ own ∧ ∃ r₀ r, db.row (.refund id) = some r₀ ∧
      (∀ db' : Database, (db'.apply w).row (.refund id) = some r) ∧ Drafts W r₀ r

section Part

variable {id : String} {own own' : List Key} {w u : Writes Row} {db db' : Database}

theorem Part.nil : Part W id [] [] db := ⟨by simp, Or.inl fun _ => rfl⟩

/-- It lasts while the rows are held and others are written. -/
theorem Part.mono (h : Part W id own w db) (hheld : Held own db db') (hsub : ∀ k ∈ own, k ∈ own')
    (hu : Db.Only (fun k => !isWatched k) u) : Part W id own' (u ++ w) db' := by
  have hrow : ∀ d : Database, (d.apply (u ++ w)).row (.refund id) = (d.apply w).row (.refund id) := fun d => by
    rw [Db.apply_append]
    exact hu.apply_row _ rfl
  refine ⟨fun e he => ?_, ?_⟩
  · rcases List.mem_append.mp he with he | he
    · exact Or.inr (by simpa using hu e he)
    · exact h.only e he
  · rcases h.rows with hsame | ⟨hown, r₀, r, hr₀, hr, hd⟩
    · exact Or.inl fun d => (hrow d).trans (hsame d)
    · exact Or.inr ⟨hsub _ hown, r₀, r, (hheld _ hown).trans hr₀, fun d => (hrow d).trans (hr d), hd⟩

/-- The refund as the transaction sees it, and as it is committed. -/
theorem Part.view (h : Part W id own w db) (hheld : Held own db db') {r : RefundRow}
    (hr : (db'.apply w).row (.refund id) = some r) : ∃ r₀, db'.row (.refund id) = some r₀ ∧ Drafts W r₀ r := by
  rcases h.rows with hsame | ⟨hown, r₀, r', hr₀, hr', hd⟩
  · exact ⟨r, (hsame db').symm.trans hr, Or.inl rfl⟩
  · obtain rfl := Option.some.inj ((hr' db').symm.trans hr)
    exact ⟨r₀, (hheld _ hown).trans hr₀, hd⟩

theorem Part.other (h : Part W id own w db) {x : Key} (hx : isWatched x = true) (hne : x ≠ .refund id)
    (d : Database) : (d.apply w).row x = d.row x := by
  refine Db.apply_row_of_notMem _ _ _ fun e he heq => ?_
  rcases h.only e he with h | h
  · exact hne (heq.symm.trans h)
  · rw [heq, hx] at h
    cases h

theorem Part.commits (h : Part W id own w db) : Commits W own w db := by
  intro db' hheld hinv
  have hother : ∀ x, x ≠ .refund id → isWatched x = true → (db'.apply w).row x = db'.row x := fun x hne hx =>
    h.other hx hne db'
  rcases hr : (db'.apply w).row (.refund id) with _ | r
  · have hrow : ∀ x, isWatched x = true → (db'.apply w).row x = db'.row x := fun x hx => by
      by_cases hne : x = .refund id
      · subst hne
        rcases h.rows with hsame | ⟨-, -, r', -, hr', -⟩
        · exact hsame db'
        · rw [hr'] at hr
          cases hr
      · exact hother x hne hx
    exact ⟨Books.of_rows hinv (fun _ => hrow _ rfl) fun _ => hrow _ rfl, fun _ _ => .of_rows hrow⟩
  · obtain ⟨r₀, hr₀, hd⟩ := h.view hheld hr
    exact ⟨Books.of_refund hinv hr₀ hr hd hother, fun _ _ => .of_refund hr₀ hr hd hother⟩

/-- Rows that are not watched may be written besides. -/
theorem Commits.mono (h : Commits W own w db) (hheld : Held own db db') (hsub : ∀ k ∈ own, k ∈ own')
    (hu : Db.Only (fun k => !isWatched k) u) : Commits W own' (u ++ w) db' := by
  intro d hd hinv
  obtain ⟨hinv', hcommitted⟩ := h d (fun x hx => (hd x (hsub x hx)).trans (hheld x hx)) hinv
  have hrow : ∀ x, isWatched x = true → (d.apply (u ++ w)).row x = (d.apply w).row x := fun x hx => by
    rw [Db.apply_append]
    exact hu.apply_row _ (by simp [hx])
  exact ⟨Books.of_rows hinv' (fun _ => hrow _ rfl) fun _ => hrow _ rfl, fun own' log => (hcommitted own' log).congr hrow⟩

/-- A refund that the transaction sees open was open before. -/
theorem Part.isOpen (h : Part W id own w db) (hW : W.settling)
    (hr : ∀ r, (db.apply w).row (.refund id) = some r → r.status ≠ .PROCESSED) : Open db id := by
  intro r₀ hr₀
  rcases h.rows with hsame | ⟨-, r₁, r, hr₁, hr', hd⟩
  · exact hr r₀ ((hsame db).trans hr₀)
  · obtain rfl := Option.some.inj (hr₁.symm.trans hr₀)
    rcases hd with rfl | ⟨-, -, -, -, hopen⟩
    · exact hr r (hr' db)
    · exact hopen hW

end Part

/-- What ends a statement: after it the program is where `At` tells, with what
was written either committed or still to be. -/
structure Ends (W : Watch) (id : String) (sep : Program → Program)
    (At : List Key → Writes Row → Database → Prop) : Prop where
  start : ∀ db, At [] [] db
  commits : ∀ {own w db}, At own w db → Commits W own w db
  done : ∀ {p own w db log}, Commits W own w db →
    (∀ own' w' db', At own' w' db' → Ok (spec W) p db' own' w' log) → Ok (spec W) (sep p) db own w log
  part : ∀ {p own w db log}, Part W id own w db →
    (∀ own' w' db', At own' w' db' → Part W id own' w' db' →
      (.refund id ∈ own → (db'.apply w').row (.refund id) = (db.apply w).row (.refund id)) →
      Ok (spec W) p db' own' w' log) → Ok (spec W) (sep p) db own w log

/-- Statement by statement. -/
theorem ends_commit (id : String) : Ends W id .commit fun own w _ => own = [] ∧ w = [] where
  start := fun _ => ⟨rfl, rfl⟩
  commits := fun h => by
    obtain ⟨rfl, rfl⟩ := h
    exact (Part.nil : Part W id [] [] _).commits
  done := fun hc hp db' h' => by
    obtain ⟨hinv, hcommitted⟩ := hc db' h'.held h'.inv
    exact ⟨hinv, hcommitted _ _, hp [] [] _ ⟨rfl, rfl⟩⟩
  part := fun {_ own w db _} hpart hp db' h' => by
    obtain ⟨hinv, hcommitted⟩ := (hpart.commits : Commits W own w db) db' h'.held h'.inv
    refine ⟨hinv, hcommitted _ _, hp [] [] _ ⟨rfl, rfl⟩ .nil fun hown => ?_⟩
    exact Db.apply_row_congr (h'.held _ hown) w

/-- Inside a transaction. -/
theorem ends_nested (id : String) : Ends W id (fun p => p) (Commits W) where
  start := fun _ => (Part.nil : Part W id [] [] _).commits
  commits := fun h => h
  done := fun hc hp => hp _ _ _ hc
  part := fun hpart hp => hp _ _ _ hpart.commits hpart fun _ => rfl

section Programs

variable {E : Env} {A : Adapters} {id : String} {sep : Program → Program} {fail : Failure → Program}
  {At : List Key → Writes Row → Database → Prop} {own : List Key} {w : Writes Row} {db : Database} {log : List Note}

theorem audit_unwatched : ∀ x, isAudit x = true → (!isWatched x) = true := fun x hx => by
  cases x <;> first
    | rfl
    | cases hx

/-- A record between the statements. -/
theorem recordRefund_ok {a : Option ℕ → Entry} {event : Option ℕ} {out k : Program}
    (hout : ∀ db own w log, Ok (spec W) out db own w log)
    (hk : ∀ own' u db', Held own db db' → (∀ x ∈ own, x ∈ own') → Db.Only (fun k => !isWatched k) u →
      Ok (spec W) k db' own' (u ++ w) log) : Ok (spec W) (recordRefund E a event out k) db own w log := by
  intro db₁ h₁
  refine record_ok spec_sound (fun _ _ _ _ _ => hout _ _ _ _) fun db₂ own₂ u h₂ hsub hu => ?_
  have hheld : Held own db db₂ := fun x hx => (h₂.held x hx).trans (h₁.held x hx)
  exact hk own₂ u db₂ hheld hsub (hu.mono audit_unwatched)

/-- A refund saved on the way: it stays open. -/
theorem saveRefund_ok {g : RefundRow → RefundRow} {k : Program} (hpart : Part W id own w db)
    (hopen : W.settling → Open db id) (hlog : Settling log id)
    (hg : ∀ r, (g r).amount = r.amount ∧ (g r).payment = r.payment ∧ (g r).status ≠ .PROCESSED ∧
      (g r).status ≠ .REQUESTED) (hfail : ∀ db own w log, Ok (spec W) (fail (.crash "DatabaseError")) db own w log)
    (hk : ∀ own' w' db', .refund id ∈ own' → Part W id own' w' db' →
      (∀ r, (db'.apply w').row (.refund id) = some r → r.status ≠ .PROCESSED) → Ok (spec W) k db' own' w' log) :
    Ok (spec W) (saveRefund id g fail k) db own w log := by
  refine Ok.update spec_sound (fun db₁ r h₁ hr _ => ?_) fun db₁ _ _ => hfail _ _ _ _
  obtain ⟨r₀, hr₀, hd⟩ := hpart.view h₁.held hr
  obtain ⟨hamount, hpayment, hp, hq⟩ := hg r
  have hview : ∀ d : Database, (d.apply (⟨.refund id, some (g r)⟩ :: w)).row (.refund id) = some (g r) := fun d => by simp
  refine hk _ _ _ (by simp) ⟨fun e he => ?_, Or.inr ⟨by simp, r₀, g r, hr₀, hview, Or.inr ?_⟩⟩ fun r' hr' => ?_
  · rcases List.mem_cons.mp he with rfl | he
    · exact Or.inl rfl
    · exact hpart.only e he
  · have hsame : r.amount = r₀.amount ∧ r.payment = r₀.payment := by
      rcases hd with rfl | ⟨h₁, h₂, -⟩
      · exact ⟨rfl, rfl⟩
      · exact ⟨h₁, h₂⟩
    exact ⟨hamount.trans hsame.1, hpayment.trans hsame.2, hp, hq, fun hW =>
      h₁.rely.settling hW id hlog (hopen hW) r₀ hr₀⟩
  · rw [hview db₁] at hr'
    obtain rfl := Option.some.inj hr'
    exact hp

/-- The refund and the payment are written, ledger rows are not. -/
structure Written (id reference : String) (r : RefundRow) (p : PaymentRow) (w : Writes Row) : Prop where
  refund : ∀ d : Database, (d.apply w).row (.refund id) = some r
  payment : ∀ d : Database, (d.apply w).row (.payment reference) = some p
  other : ∀ (d : Database) x, isWatched x = true → x ≠ .refund id → x ≠ .payment reference →
    (d.apply w).row x = d.row x
  ledger : ∀ e ∈ w, ∀ v, countedOf reference e.1 v = false

/-- The rest of a completion: the votes are reversed or not, and it ends. -/
theorem reverseRefund_ok (he : Ends W id sep At) {r₀ r : RefundRow} {p₀ p : PaymentRow} {reverse : Bool}
    {k : Program} (hown : .refund id ∈ own) (hown' : .payment r₀.payment ∈ own)
    (hr₀ : db.row (.refund id) = some r₀) (hp₀ : db.row (.payment r₀.payment) = some p₀)
    (hw : Written id r₀.payment r p w) (hamount : r.amount = r₀.amount) (hpayment : r.payment = r₀.payment)
    (hprocessed : r.status = .PROCESSED) (hopen : W.settling → r₀.status ≠ .PROCESSED) (hlasting : Lasting p₀ p)
    (hmoves : Moves p₀ p) (hpassed : Passed p → Passed p₀) (hclosed : Closed p.status → Closed p₀.status)
    (hrefunded : p.refundedAmount = p₀.refundedAmount + r₀.amount)
    (hk : ∀ own' w' db', At own' w' db' → Ok (spec W) k db' own' w' log) :
    Ok (spec W) (if reverse then reverseVotes r₀.payment (sep k) else sep k) db own w log := by
  have hcommits : ∀ own' u db', Held own db db' → (∀ x ∈ own, x ∈ own') →
      PartlyUpdated (countedOf r₀.payment) Payments.reverse own' u db' → Commits W own' (u ++ w) db' := by
    intro own' u db' hheld hsub hu d hd hinv
    have hu' := hu.of_held hd
    have hkeys : ∀ x, (∀ v, countedOf r₀.payment x v = false) → (d.apply (u ++ w)).row x = (d.apply w).row x := by
      intro x hx
      rw [Db.apply_append]
      refine Db.apply_row_of_notMem _ x u fun e he heq => ?_
      obtain ⟨v, -, hv⟩ := hu'.meets e he
      subst heq
      rw [hx v] at hv
      cases hv
    have hcompletes : Completes W id r₀ r p₀ p d (d.apply (u ++ w)) := by
      refine ⟨(hd _ (hsub _ hown)).trans ((hheld _ hown).trans hr₀), (hkeys _ fun _ => rfl).trans (hw.refund d), hamount,
        hpayment, hprocessed, hopen, (hd _ (hsub _ hown')).trans ((hheld _ hown').trans hp₀),
        (hkeys _ fun _ => rfl).trans (hw.payment d), hlasting, hmoves, hpassed, hclosed, hrefunded, fun pk v reference hv hc => ?_,
        fun reference hne => ?_, fun id' hne => ?_, fun e => (hkeys _ fun _ => rfl).trans (hw.other d _ rfl (by simp) (by simp))⟩
      · have hsame : (d.apply (u ++ w)).row (.voteTransaction pk) = (d.apply u).row (.voteTransaction pk) := by
          rw [Db.apply_append]
          exact Db.apply_row_congr (hw.other d _ rfl (by simp) (by simp)) u
        rw [hsame] at hv
        rcases hu'.rows (.voteTransaction pk) with h | h
        · exact h.symm.trans hv
        · rw [hv] at h
          obtain ⟨v₀, hv₀, h⟩ := Option.map_eq_some_iff.mp h.symm
          unfold updated at h
          by_cases hcount : countedOf r₀.payment (.voteTransaction pk) v₀ = true
          · rw [if_pos hcount] at h
            subst h
            simp [countedOf, Payments.reverse] at hc
          · rw [if_neg hcount] at h
            exact h ▸ hv₀
      · exact (hkeys _ fun _ => rfl).trans (hw.other d _ rfl (by simp) (by simpa using hne))
      · exact (hkeys _ fun _ => rfl).trans (hw.other d _ rfl (by simpa using hne) (by simp))
    exact ⟨hcompletes.books hinv, fun _ _ => hcompletes.committed⟩
  by_cases hrev : reverse = true
  · rw [if_pos hrev]
    refine Ok.updateWhere_if_over spec_sound hw.ledger reverse_uncounts fun db₁ own₁ u h₁ hsub hu _ => ?_
    exact he.done (hcommits own₁ u db₁ h₁.held hsub hu) hk
  · rw [if_neg hrev]
    exact he.done (hcommits own [] db (fun _ _ => rfl) (fun _ h => h) ⟨by simp, by simp, fun _ => Or.inl rfl⟩) hk

/-- **Completing a refund** keeps the spec. -/
theorem completeRefund_ok (he : Ends W id sep At) {now : ℕ → Time} {k : Program}
    (hfail : ∀ e db own w log, Ok (spec W) (fail e) db own w log)
    (hk : ∀ own w db, At own w db → Ok (spec W) k db own w log) (hpart : Part W id own w db) :
    Ok (spec W) (completeRefund sep fail E id now k) db own w log := by
  unfold completeRefund
  refine Ok.lockRow (fun db₁ r h₁ hr => ?_) fun db₁ _ => hfail _ _ _ _ _
  have hpart₁ : Part W id (.refund id :: own) ([] ++ w) db₁ :=
    hpart.mono h₁.held (fun x hx => List.mem_cons_of_mem _ hx) .nil
  obtain ⟨r₀, hr₀, hd⟩ := hpart.view h₁.held hr
  dsimp only
  by_cases hdone : r.status = .PROCESSED
  · rw [if_pos hdone]
    exact he.done hpart₁.commits fun own' w' db' hAt => hk own' w' db' hAt
  rw [if_neg hdone]
  have hsame : r.amount = r₀.amount ∧ r.payment = r₀.payment ∧ (W.settling → r₀.status ≠ .PROCESSED) := by
    rcases hd with rfl | ⟨hamount, hpayment, -, -, hopen⟩
    · exact ⟨rfl, rfl, fun _ => hdone⟩
    · exact ⟨hamount, hpayment, hopen⟩
  obtain ⟨hamount, hpayment, hopen⟩ := hsame
  refine Ok.lockRow (fun db₂ p h₂ hp => ?_) fun db₂ _ => hfail _ _ _ _ _
  have hp₂ : db₂.row (.payment r₀.payment) = some p := by
    rw [hpayment] at hp
    exact (hpart.other rfl (by simp) db₂).symm.trans hp
  have hr₂ : db₂.row (.refund id) = some r₀ := (h₂.held _ (by simp)).trans hr₀
  rw [hpayment, hamount]
  refine ⟨by simp, fun db₃ h₃ => ⟨by simp, fun db₄ h₄ => ?_⟩⟩
  have hr₄ : db₄.row (.refund id) = some r₀ := (h₄.held _ (by simp)).trans ((h₃.held _ (by simp)).trans hr₂)
  have hp₄ : db₄.row (.payment r₀.payment) = some p := (h₄.held _ (by simp)).trans ((h₃.held _ (by simp)).trans hp₂)
  have hmoved : Moved (refunded p r₀.amount) (Payments.transition (refunded p r₀.amount)
      (refundTarget (refunded p r₀.amount)) (now 1)) (refundTarget (refunded p r₀.amount)) :=
    (Alike.refl _).transition _ _
  have htarget : ¬ Closed (refundTarget (refunded p r₀.amount)) := by
    unfold refundTarget
    split_ifs <;> simp [Closed]
  have hledger : ∀ e ∈ (⟨.payment r₀.payment, some (refunded p r₀.amount)⟩ :: ⟨.refund id, some (processed r (now 0))⟩ :: w :
      Writes Row), ∀ v, countedOf r₀.payment e.1 v = false := by
    rintro ⟨x, o⟩ he v
    rcases List.mem_cons.mp he with h | he
    · cases h
      rfl
    rcases List.mem_cons.mp he with h | he
    · cases h
      rfl
    rcases hpart.only _ he with h | h
    · subst h
      rfl
    · cases x <;> first
        | rfl
        | cases h
  have hwritten : Written id r₀.payment (processed r (now 0)) (refunded p r₀.amount)
      (⟨.payment r₀.payment, some (refunded p r₀.amount)⟩ :: ⟨.refund id, some (processed r (now 0))⟩ :: w) :=
    ⟨fun d => by simp, fun d => by simp, fun d x hx hne hne' => by simp [hne, hne', hpart.other hx hne d], hledger⟩
  have hafter : ∀ own' w' db', At own' w' db' → Ok (spec W)
      (recordRefund E (fun o => refundEntry "REFUND_PROCESSED" none none p.event o id
        ("Refund " ++ money r₀.amount ++ " processed") "" (now 2)) p.event (fail (.crash "DatabaseError")) (sep k))
      db' own' w' log := fun own' w' db' hAt =>
    recordRefund_ok (hfail _) fun _ _ _ hheld hsub hu =>
      he.done ((he.commits hAt).mono hheld hsub hu) fun own w db hAt => hk own w db hAt
  have hfinish : ∀ q w' db', Written id r₀.payment (processed r (now 0)) q w' →
      Moved (refunded p r₀.amount) q (refundTarget (refunded p r₀.amount)) →
      db'.row (.refund id) = some r₀ → db'.row (.payment r₀.payment) = some p →
      Ok (spec W) (if r.reverseVotes = true then
          reverseVotes r₀.payment (sep (recordRefund E (fun o => refundEntry "REFUND_PROCESSED" none none p.event o id
            ("Refund " ++ money r₀.amount ++ " processed") "" (now 2)) p.event (fail (.crash "DatabaseError")) (sep k)))
        else sep (recordRefund E (fun o => refundEntry "REFUND_PROCESSED" none none p.event o id
            ("Refund " ++ money r₀.amount ++ " processed") "" (now 2)) p.event (fail (.crash "DatabaseError")) (sep k)))
        db' (.payment r₀.payment :: .refund id :: own) w' log := by
    intro q w' db' hw hq hr' hp'
    have hrefunded : Lasting p (refunded p r₀.amount) := ⟨rfl, rfl, rfl, rfl, rfl, rfl, rfl⟩
    refine reverseRefund_ok he (by simp) (by simp) hr' hp' hw hamount hpayment rfl hopen
      (hrefunded.trans hq.lasting) hq.moves hq.passed (fun hc => ?_) hq.refunded hafter
    rcases hq.status with h | h
    · exact h ▸ hc
    · exact absurd (h ▸ hc) htarget
  unfold saveTransition
  by_cases hc : changes (refunded p r₀.amount) (refundTarget (refunded p r₀.amount)) = true
  · rw [if_pos hc]
    refine ⟨by simp, fun db₅ h₅ => ?_⟩
    refine hfinish _ _ _ ⟨fun d => by simp, fun d => by simp, fun d x hx hne hne' => ?_, fun e he v => ?_⟩ hmoved
      ((h₅.held _ (by simp)).trans hr₄) ((h₅.held _ (by simp)).trans hp₄)
    · rw [Db.apply_cons, Db.set_row_ne _ _ hne']
      exact hwritten.other d x hx hne hne'
    · rcases List.mem_cons.mp he with h | he
      · subst h
        rfl
      · exact hledger e he v
  · have hsame : Payments.transition (refunded p r₀.amount) (refundTarget (refunded p r₀.amount)) (now 1) =
        refunded p r₀.amount := if_neg hc
    rw [if_neg hc]
    rw [hsame] at hmoved
    exact hfinish _ _ _ hwritten hmoved hr₄ hp₄

/-- **Approving a refund** keeps the spec, statement by statement or inside a
transaction. -/
theorem approveRefund_ok {q : ApproveCall} {k : RefundRow → Program} (he : Ends W q.refund sep At)
    (hfail : ∀ e db own w log, Ok (spec W) (fail e) db own w log)
    (hk : ∀ r own w db log, At own w db → Ok (spec W) (k r) db own w log) :
    Ok (spec W) (approveRefund sep fail E q k) db [] [] log := by
  intro db₁ h₁
  dsimp only
  rw [Db.apply_nil]
  rcases hr : db₁.row (.refund q.refund) with _ | r
  · exact hfail _ _ _ _ _
  dsimp only
  by_cases hperm : (!q.viaApproval) = true ∧
      (!q.approver.may "refund.approve" ((db₁.row (.payment r.payment)).bind (·.event))) = true
  · rw [if_pos hperm]
    exact hfail _ _ _ _ _
  rw [if_neg hperm]
  by_cases hduty : (!q.viaApproval) = true ∧ q.approver.pk = r.requestedBy
  · rw [if_pos hduty]
    exact hfail _ _ _ _ _
  rw [if_neg hduty]
  by_cases hrequested : r.status ≠ .REQUESTED
  · rw [if_pos hrequested]
    exact hk _ _ _ _ _ (he.start _)
  rw [if_neg hrequested]
  refine ⟨trivial, ?_⟩
  have hopen : W.settling → Open db₁ q.refund := fun _ r' hr' => by
    obtain rfl := Option.some.inj (hr.symm.trans hr')
    rw [not_not.mp hrequested]
    simp
  have hlog : Settling (.approving q.refund :: log) q.refund := Or.inl (by simp [approving])
  refine saveRefund_ok .nil hopen hlog (fun r => ⟨rfl, rfl, by simp [approved], by simp [approved]⟩) (hfail _)
    fun own₂ w₂ db₂ hown₂ hpart₂ hview₂ => ?_
  refine he.part hpart₂ fun own₃ w₃ db₃ _ hpart₃ hsame => ?_
  have hopen₃ : W.settling → Open db₃ q.refund := fun hW => hpart₃.isOpen hW fun r' hr' => by
    rw [hsame hown₂] at hr'
    exact hview₂ r' hr'
  rcases q.answer with e | gatewayId
  · refine saveRefund_ok hpart₃ hopen₃ hlog (fun r => ⟨rfl, rfl, by simp [refusedRefund], by simp [refusedRefund]⟩)
      (hfail _) fun own₄ w₄ db₄ _ hpart₄ _ => ?_
    exact he.part hpart₄ fun own₅ w₅ db₅ hAt _ _ => ⟨trivial, hk _ _ _ _ _ hAt⟩
  · refine saveRefund_ok hpart₃ hopen₃ hlog (fun r => ⟨rfl, rfl, by simp [processing], by simp [processing]⟩)
      (hfail _) fun own₄ w₄ db₄ _ hpart₄ _ => ?_
    refine he.part hpart₄ fun own₅ w₅ db₅ _ hpart₅ _ => ⟨trivial, ?_⟩
    refine recordRefund_ok (hfail _) fun own₆ u db₆ hheld hsub hu => ?_
    refine he.part (hpart₅.mono hheld hsub hu) fun own₇ w₇ db₇ hAt hpart₇ _ => ?_
    by_cases hfake : q.fake = true
    · rw [if_pos hfake]
      exact completeRefund_ok he hfail (fun own w db hAt => hk _ own w db _ hAt) hpart₇
    · rw [if_neg hfake]
      exact hk _ _ _ _ _ hAt

/-- Statement by statement. -/
theorem failing_anywhere {α : Type} {k : Except Failure α → Program} (hk : ∀ r, Rest (spec W) (k r)) (e : Failure)
    (db : Database) (own : List Key) (w : Writes Row) (log : List Note) :
    Ok (spec W) (failing k e) db own w log := (hk _).rollback

theorem approveRefund_rest {α : Type} {q : ApproveCall} {k : Except Failure α → Program} {next : RefundRow → Program}
    (hk : ∀ r, Rest (spec W) (k r)) (hnext : ∀ r, Rest (spec W) (next r)) :
    Rest (spec W) (approveRefund .commit (failing k) E q next) := fun db log => by
  refine approveRefund_ok (ends_commit q.refund) (failing_anywhere hk) fun r own w db log hAt => ?_
  obtain ⟨rfl, rfl⟩ := hAt
  exact hnext _ _ _

/-- The executor of refunds keeps the spec. -/
theorem executes {answer : Except String String} {fake : Bool} {now : ℕ → Time} :
    Executes (spec W) (refundExecutor E answer fake now) := by
  intro row u fail k hf hk
  have hfail : ∀ e db own w log, Ok (spec W) (.rollback (fail e)) db own w log := fun e _ _ _ _ => (hf e).rollback
  have hkey : Rest (spec W) (.rollback (fail (.crash "KeyError"))) := fun _ _ => hfail _ _ _ _ _
  unfold refundExecutor
  split
  · split
    · intro db log
      refine approveRefund_ok (ends_nested _) hfail fun r own w db log hcommits db' h' => ?_
      obtain ⟨hinv, hcommitted⟩ := hcommits db' h'.held h'.inv
      exact ⟨hinv, hcommitted _ _, hk _ _ _⟩
    · exact hkey
  · exact hkey

/-- **The gateway's report of a refund** keeps the spec. -/
theorem webhookRefund_rest {q : WebhookCall} {k : Except Failure Unit → Program}
    (hk : ∀ r, Rest (spec W) (k r)) : Rest (spec W) (webhookRefund E q k) := by
  unfold webhookRefund
  rcases refundReference E q.data with e | reference
  · exact hk _
  intro db log db₁ h₁
  dsimp only
  rw [Db.apply_nil]
  rcases hfound : (openRefunds db₁ reference).head? with _ | ⟨id, r⟩
  · exact hk _ _ _
  dsimp only
  by_cases hprocessed : q.eventType = "refund.processed"
  · rw [if_pos hprocessed]
    refine completeRefund_ok (ends_commit id) (failing_anywhere hk) (fun own w db hAt => ?_) .nil
    obtain ⟨rfl, rfl⟩ := hAt
    exact hk _ _ _
  rw [if_neg hprocessed]
  by_cases hfailed : q.eventType = "refund.failed"
  swap
  · rw [if_neg hfailed]
    exact hk _ _ _
  rw [if_pos hfailed]
  have hopen : Open db₁ id := by
    have hmem := List.mem_of_head? hfound
    unfold openRefunds at hmem
    rw [List.mem_insertionSort, Db.mem_collect] at hmem
    obtain ⟨x, v, hv, hx⟩ := hmem
    cases x with
    | refund id' =>
      dsimp only at hx
      split_ifs at hx with hc
      obtain ⟨rfl, rfl⟩ := Prod.mk.inj (Option.some.inj hx)
      intro r' hr'
      obtain rfl := Option.some.inj (hv.symm.trans hr')
      exact hc.2.1
    | _ => cases hx
  refine ⟨trivial, Ok.update spec_sound (fun db₂ r₂ h₂ hr _ => ?_) fun db₂ _ _ => (hk _).commit spec_quiet .nil⟩
  have hr₂ : db₂.row (.refund id) = some r₂ := by simpa using hr
  have hopen₂ : W.settling → r₂.status ≠ .PROCESSED := fun hW =>
    h₂.rely.settling hW id (Or.inr (by simp)) hopen r₂ hr₂
  have hpart : Part W id [.refund id] [⟨.refund id, some (failedRefund E q.data r₂)⟩] db₂ :=
    ⟨by simp, Or.inr ⟨by simp, r₂, failedRefund E q.data r₂, hr₂, fun d => by simp,
      Or.inr ⟨rfl, rfl, by simp [failedRefund], by simp [failedRefund], hopen₂⟩⟩⟩
  intro db₃ h₃
  obtain ⟨hinv, hcommitted⟩ := (hpart.commits : Commits W _ _ db₂) db₃ h₃.held h₃.inv
  exact ⟨hinv, hcommitted _ _, hk _ _ _⟩

/-- **Asking for a refund** keeps the spec. -/
theorem requestRefund_rest {q : RefundCall} {k : Except Failure Unit → Program} (hk : ∀ r, Rest (spec W) (k r)) :
    Rest (spec W) (requestRefund E q k) := by
  have happroval : Quiet (spec W) isApproval := spec_quiet.mono fun x hx => by
    cases x <;> first
      | rfl
      | cases hx
  intro db log db₁ h₁
  dsimp only
  rw [Db.apply_nil]
  rcases hp : db₁.row (.payment q.reference) with _ | p
  · exact hk _ _ _
  dsimp only
  rcases hwrong : q.wrong p with _ | e
  swap
  · exact hk _ _ _
  refine ⟨trivial, ?_⟩
  refine Ok.insertOr (fun db₂ h₂ hfree => ?_) fun db₂ _ => (hk _).rollback
  have hfree₂ : db₂.row (.refund q.refund) = none := by simpa using hfree
  intro db₃ h₃
  have hfree₃ : db₃.row (.refund q.refund) = none := (h₃.held _ (by simp)).trans hfree₂
  have hrow : (db₃.apply [⟨.refund q.refund, some q.row⟩]).row (.refund q.refund) = some q.row := by simp
  have hother : ∀ x, x ≠ .refund q.refund → (db₃.apply [⟨.refund q.refund, some q.row⟩]).row x = db₃.row x :=
    fun x hx => by simp [hx]
  have hne : ∀ id, id ≠ q.refund → (db₃.apply [⟨.refund q.refund, some q.row⟩]).row (.refund id) = db₃.row (.refund id) :=
    fun id hid => hother _ (by simpa using hid)
  obtain ⟨p₂, hp₂, hl₂⟩ := h₂.rely.kept _ _ hp
  obtain ⟨p₃, hp₃, hl₃⟩ := h₃.rely.kept _ _ hp₂
  have hamount : (0 : ℤ) < q.amount ∧ q.amount ≤ refundable p := by
    unfold RefundCall.wrong at hwrong
    split_ifs at hwrong with h₁ h₂ h₃
    omega
  have hcommitted : ∀ own log', Committed W own log' db₃ (db₃.apply [⟨.refund q.refund, some q.row⟩]) := fun own log' => by
    refine ⟨fun r => .same (hother _ (by simp)), fun r => .same (hother _ (by simp)) fun pk => hother _ (by simp),
      fun id => ?_, fun e => hother _ (by simp), q.refund, hne⟩
    by_cases hid : id = q.refund
    · subst hid
      rw [hfree₃, hrow]
      refine ⟨rfl, fun hW => ⟨p₃, hp₃, ?_⟩⟩
      have h₁₂ := h₂.rely.asking hW q.reference (by simp [asking]) p p₂ hp hp₂
      have h₂₃ := h₃.rely.asking hW q.reference (by simp [asking]) p₂ p₃ hp₂ hp₃
      have hsame : p₃.amountMinor = p.amountMinor := hl₃.amount.trans hl₂.amount
      unfold refundable at hamount
      have hn : q.row.amount = q.amount.toNat := rfl
      omega
    · exact .same (hne id hid)
  have hbooks : Books W (db₃.apply [⟨.refund q.refund, some q.row⟩]) := by
    have hsum : ∀ r, processedSum (db₃.apply [⟨.refund q.refund, some q.row⟩]) r = processedSum db₃ r := fun r => by
      have h := refundSum_moves (· = .PROCESSED) r hne
      rw [weight_none hfree₃, weight_refund hrow] at h
      have hzero : share (· = .PROCESSED) r q.row = 0 := by simp [share, RefundCall.row]
      rw [hzero] at h
      exact h
    have hpayment : ∀ r, (db₃.apply [⟨.refund q.refund, some q.row⟩]).row (.payment r) = db₃.row (.payment r) :=
      fun r => hother _ (by simp)
    refine ⟨fun hW r p hp => ?_, fun hW r p hp => ?_, fun hW id x hx => ?_⟩
    · rw [hsum]
      exact h₃.inv.covered hW r p ((hpayment r).symm.trans hp)
    · rw [hsum]
      exact h₃.inv.exact hW r p ((hpayment r).symm.trans hp)
    · rw [hpayment]
      by_cases hid : id = q.refund
      · subst hid
        obtain rfl := Option.some.inj (hrow.symm.trans hx)
        show db₃.row (.payment q.reference) ≠ none
        rw [hp₃]
        simp
      · exact h₃.inv.absent hW id x ((hne id hid).symm.trans hx)
  refine ⟨hbooks, hcommitted _ _, trivial, ?_⟩
  have hlast : Rest (spec W) (if (q.threshold : ℤ) < q.amount then
      requestApproval E (refundExecutor E q.answer q.fake fun n => q.now (n + 2))
        { event := p.event.bind fun e => (db₁.row (.event e)).map fun ev => (e, ev), action := .REFUND,
          payload := .obj [("refund_id", .str q.refund)], reason := q.reason, requester := q.actor,
          request := q.request, approval := q.approval, now := q.now 1 } k
    else if q.actor.may "refund.approve" p.event then
      approveRefund .commit (failing k) E
        { refund := q.refund, approver := q.actor, viaApproval := true, answer := q.answer, fake := q.fake,
          now := fun n => q.now (n + 1) } fun _ => k (.ok ())
    else k (.ok ())) := by
    split_ifs
    · exact requestApproval_ok spec_sound happroval (fun _ _ _ => trivial) executes hk
    · exact approveRefund_rest hk fun _ => hk _
    · exact hk _
  exact Rest.read (fun db _ => Rest.recordNow spec_sound quiet_audit (hk _) hlast) _ _

/-! ### The calls -/

/-- The calls that touch payments and refunds. -/
inductive Call
  | webhook (q : WebhookCall) (credit : CreditCall)
  | verifyAndApply (q : GatewayCall) (answer : Option (List (String × Json)))
  | reconcileListed (q : GatewayCall)
  | reconcileUncredited (reference : String) (c : CreditCall)
  | releaseHeldPayment (q : ReleaseCall)
  | initiateVotePayment (q : InitiateCall)
  | expirePayment (q : GatewayCall) (answer : Option (List (String × Json))) (now : Time)
  | requestRefund (q : RefundCall)
  | approveRefund (q : ApproveCall)
  | decideApproval (answer : Except String String) (fake : Bool) (now : ℕ → Time) (q : DecideCall)

/-- The program of a call. -/
def Call.prog (E : Env) (A : Adapters) : Call → Program
  | .webhook q credit => dispatchWebhook E A q credit fun _ => .halt
  | .verifyAndApply q answer => Tickets.verifyAndApply E A q answer fun _ => .halt
  | .reconcileListed q => Payments.reconcileListed E A q fun _ => .halt
  | .reconcileUncredited reference c => Payments.reconcileUncredited reference c
  | .releaseHeldPayment q => Payments.releaseHeldPayment E q fun _ => .halt
  | .initiateVotePayment q => Payments.initiateVotePayment E q fun _ => .halt
  | .expirePayment q answer now => Payments.expirePayment E A q answer now fun _ => .halt
  | .requestRefund q => Payments.requestRefund E q fun _ => .halt
  | .approveRefund q => Payments.approveRefund .commit (failing fun _ : Except Failure Unit => .halt) E q fun _ => .halt
  | .decideApproval answer fake now q => Integrity.decideApproval E (refundExecutor E answer fake now) q fun _ => .halt

/-- **Every call is within the spec.** -/
theorem Call.spec (hbilled : Billed E A) (hholds : ¬ W.holds) (hopening : W.opening) (call : Call) : Rest (Runs.spec W) (call.prog E A) := by
  have hhalt : ∀ {α : Type} (r : α), Rest (Runs.spec W) ((fun _ : α => (.halt : Program)) r) := fun _ => Rest.halt
  rcases call with ⟨q, credit⟩ | ⟨q, answer⟩ | q | ⟨reference, c⟩ | q | q | ⟨q, answer, now⟩ | q | q |
    ⟨answer, fake, now, q⟩
  · exact dispatchWebhook_rest hbilled (webhookRefund_rest hhalt) hhalt
  · exact verifyAndApply_rest hbilled hhalt
  · exact reconcileListed_rest hbilled hhalt
  · exact reconcileUncredited_rest hholds
  · exact releaseHeldPayment_rest hholds hhalt
  · exact initiateVotePayment_rest hopening hhalt
  · exact expirePayment_rest hbilled hhalt
  · exact requestRefund_rest hhalt
  · exact approveRefund_rest (hhalt : ∀ r : Except Failure Unit, _) hhalt
  · refine decideApproval_ok spec_sound (spec_quiet.mono fun x hx => ?_) (fun _ _ _ => trivial) executes hhalt
    cases x <;> first
      | rfl
      | cases hx

/-- A run of the calls meets the spec from the start. -/
theorem Call.meets {calls : ℕ → Call} {db : Database} (hbilled : Billed E A) (hholds : ¬ W.holds)
    (hopening : W.opening) (hbooks : Books W db) :
    Meets (Runs.spec W) (.init db fun t => (calls t).prog E A) :=
  .init hbooks fun t => (calls t).spec hbilled hholds hopening db []

end Programs

end Runs
end FlexyVotes
