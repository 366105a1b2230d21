/-
# What runs of the payment calls keep

Checkouts, the gateway's reports, refunds with their approvals, holds,
reconciliation and expiry, in any interleaving. `spec` says what every commit of
any of them does (`Committed`), row by row: how a payment moves, which ledger
rows begin to count, how a refund moves. What needs that others keep out of a
thread's way is asked for one concern at a time (`Watch`); which runs keep out
of the way is for the theorems over the runs to say (`Spec.Fits`).

Key definitions: `Watch`, `spec`, `Committed`.
-/
import FlexyVotes.Payments.Checkout
import FlexyVotes.Payments.Credit
import FlexyVotes.Payments.Webhooks

namespace FlexyVotes
namespace Runs

open Transactions Audit Payments Tickets Integrity

/-! ### What a commit does -/

/-- The concerns a run is watched for. -/
structure Watch where
  /-- What is refunded of a payment does not grow while a refund is asked for. -/
  asking : Prop
  /-- No refund is completed while its approval, or the report of its failure, is under way. -/
  settling : Prop
  /-- No payment is paid while its refused checkout is under way. -/
  refused : Prop
  /-- No ledger row begins to count while its payment is held. -/
  ledger : Prop
  /-- No hold is released. -/
  holds : Prop
  /-- Payments are opened. -/
  opening : Prop

/-- The amount of a refund of the payment, if its status is one of `c`. -/
def amountOf (c : RefundStatus → Bool) (reference : String) : (k : Key) → Row k → Option ℕ
  | .refund _ => fun r => if r.payment = reference ∧ c r.status then some r.amount else none
  | _ => fun _ => none

/-- The sum of the refunds of the payment with a status of `c`. -/
def refundSum (c : RefundStatus → Bool) (db : Database) (reference : String) : ℕ := db.total (amountOf c reference)

/-- The sum of the processed refunds. -/
def processedSum (db : Database) (reference : String) : ℕ := refundSum (· = .PROCESSED) db reference

/-- What nothing changes about a payment. -/
structure Lasting (p p' : PaymentRow) : Prop where
  purpose : p'.purpose = p.purpose
  amount : p'.amountMinor = p.amountMinor
  event : p'.event = p.event
  email : p'.payerEmailIndex = p.payerEmailIndex
  phone : p'.payerPhoneIndex = p.payerPhoneIndex
  votes : p'.votes = p.votes
  bonus : p'.bonusVotes = p.bonusVotes

/-- A payment that was never successful. -/
def Unpaid (s : PaymentStatus) : Prop := s = .INITIALIZED ∨ s = .PENDING ∨ s = .ABANDONED ∨ s = .FAILED

/-- Disputed or reversed. -/
def Closed (s : PaymentStatus) : Prop := s = .DISPUTED ∨ s = .REVERSED

/-- The votes are credited, or no hold is in their way. -/
def Passed (p : PaymentRow) : Prop := p.votesCredited = true ∨ p.held = false

/-- The payment keeps its status, or moves along `ALLOWED_TRANSITIONS`. -/
def Moves (p p' : PaymentRow) : Prop := p'.status = p.status ∨ p'.status ∈ ALLOWED_TRANSITIONS p.status

/-- A commit leaves a payment, moves it or creates it. -/
def PaymentStep (W : Watch) : Option PaymentRow → Option PaymentRow → Prop
  | none, none => True
  | none, some p' => W.opening ∧ p'.status = .INITIALIZED
  | some _, none => False
  | some p, some p' => Lasting p p' ∧ (W.refused → Moves p p') ∧ (W.holds → Passed p' → Passed p)

/-- Which ledger rows of a payment count after a commit, and how it comes to be
disputed or reversed. -/
structure LedgerStep (W : Watch) (own : List Key) (log : List Note) (reference : String) (db db' : Database) : Prop where
  counted : ∀ pk v, db'.row (.voteTransaction pk) = some v → countedOf reference (.voteTransaction pk) v = true →
    db.row (.voteTransaction pk) = some v ∨
    .payment reference ∈ own ∧ (∃ p', db'.row (.payment reference) = some p' ∧ p'.status = .SUCCESS) ∨
    .uncredited reference ∈ log ∧ db'.row (.payment reference) = db.row (.payment reference)
  closed : ∀ p', db'.row (.payment reference) = some p' → Closed p'.status →
    (∃ p, db.row (.payment reference) = some p ∧ Closed p.status) ∨
    (W.ledger → ∀ pk v, db'.row (.voteTransaction pk) = some v →
      countedOf reference (.voteTransaction pk) v = false) ∨
    .lost reference ∈ log ∧ ∃ p, db.row (.payment reference) = some p ∧ ¬ Closed p.status

/-- A commit leaves a refund, moves it or creates it. -/
def RefundStep (W : Watch) (db : Database) : Option RefundRow → Option RefundRow → Prop
  | none, none => True
  | none, some r' => r'.status = .REQUESTED ∧ (W.asking → ∃ p, db.row (.payment r'.payment) = some p ∧
      r'.amount + p.refundedAmount ≤ p.amountMinor)
  | some _, none => False
  | some r, some r' => r'.amount = r.amount ∧ r'.payment = r.payment ∧ (r'.status = .REQUESTED → r' = r) ∧
      (W.settling → r.status = .PROCESSED → r'.status = .PROCESSED)

/-- What every commit does. -/
structure Committed (W : Watch) (own : List Key) (log : List Note) (db db' : Database) : Prop where
  payments : ∀ reference, PaymentStep W (db.row (.payment reference)) (db'.row (.payment reference))
  ledger : ∀ reference, LedgerStep W own log reference db db'
  refunds : ∀ id, RefundStep W db (db.row (.refund id)) (db'.row (.refund id))
  events : ∀ e, db'.row (.event e) = db.row (.event e)
  one : ∃ id, ∀ id', id' ≠ id → db'.row (.refund id') = db.row (.refund id')

/-! ### What a thread relies on -/

/-- The last the log tells of a refund of the payment is that it is asked for. -/
def asking (reference : String) : List Note → Bool
  | [] => false
  | .asking r :: log => r = reference || asking reference log
  | .asked r :: log => r ≠ reference && asking reference log
  | _ :: log => asking reference log

/-- The last the log tells of the refund's approval is that it began. -/
def approving (id : String) : List Note → Bool
  | [] => false
  | .approving i :: log => i = id || approving id log
  | .submitted i :: log => i ≠ id && approving id log
  | _ :: log => approving id log

/-- A refund the thread is about to settle: it is approving it, or was told it failed. -/
def Settling (log : List Note) (id : String) : Prop := approving id log = true ∨ .failing id ∈ log

/-- The refund is not processed. -/
def Open (db : Database) (id : String) : Prop := ∀ r, db.row (.refund id) = some r → r.status ≠ .PROCESSED

/-- What the others leave a thread with. -/
structure Relied (W : Watch) (own : List Key) (log : List Note) (db db' : Database) : Prop where
  kept : ∀ reference p, db.row (.payment reference) = some p →
    ∃ p', db'.row (.payment reference) = some p' ∧ Lasting p p'
  asking : W.asking → ∀ reference, Runs.asking reference log = true → ∀ p p', db.row (.payment reference) = some p →
    db'.row (.payment reference) = some p' → p'.refundedAmount ≤ p.refundedAmount
  settling : W.settling → ∀ id, Settling log id → Open db id → Open db' id
  refused : W.refused → ∀ reference, .refused reference ∈ log →
    (∀ p, db.row (.payment reference) = some p → Unpaid p.status) →
    ∀ p, db'.row (.payment reference) = some p → Unpaid p.status
  ledger : W.ledger → ∀ reference, .payment reference ∈ own → ∀ pk v, db'.row (.voteTransaction pk) = some v →
    countedOf reference (.voteTransaction pk) v = true → db.row (.voteTransaction pk) = some v

/-- The books: what is refunded of a payment covers its processed refunds. -/
structure Books (W : Watch) (db : Database) : Prop where
  covered : W.asking → ∀ reference p, db.row (.payment reference) = some p → processedSum db reference ≤ p.refundedAmount
  exact : W.settling → ∀ reference p, db.row (.payment reference) = some p →
    p.refundedAmount = processedSum db reference
  /-- Nothing is refunded of what is not there. -/
  absent : W.asking ∨ W.settling → ∀ id r, db.row (.refund id) = some r → db.row (.payment r.payment) ≠ none

/-- The books stay right. -/
def spec (W : Watch) : Spec Row Note where
  inv := Books W
  rely := Relied W
  guar := Committed W
  fact := fun _ _ => True

variable {W : Watch}

theorem Lasting.refl (p : PaymentRow) : Lasting p p := ⟨rfl, rfl, rfl, rfl, rfl, rfl, rfl⟩

theorem Lasting.trans {p p' p'' : PaymentRow} (h : Lasting p p') (h' : Lasting p' p'') : Lasting p p'' :=
  ⟨h'.purpose.trans h.purpose, h'.amount.trans h.amount, h'.event.trans h.event, h'.email.trans h.email,
    h'.phone.trans h.phone, h'.votes.trans h.votes, h'.bonus.trans h.bonus⟩

theorem spec_sound : (spec W).Sound where
  refl := fun _ _ _ => ⟨fun _ p hp => ⟨p, hp, .refl p⟩,
    fun _ _ _ p p' hp hp' => by rw [hp] at hp'; rw [Option.some.inj hp'],
    fun _ _ _ h => h, fun _ _ _ h => h, fun _ _ _ _ _ h _ => h⟩
  trans := fun own log db db' db'' h h' => by
    refine ⟨fun reference p hp => ?_, fun hW reference hlog p p'' hp hp'' => ?_,
      fun hW _ hid hopen => h'.settling hW _ hid (h.settling hW _ hid hopen),
      fun hW _ hlog hopen => h'.refused hW _ hlog (h.refused hW _ hlog hopen), fun hW _ hown _ _ hv hc => ?_⟩
    · obtain ⟨p', hp', hl⟩ := h.kept reference p hp
      obtain ⟨p'', hp'', hl'⟩ := h'.kept reference p' hp'
      exact ⟨p'', hp'', hl.trans hl'⟩
    · obtain ⟨p', hp', -⟩ := h.kept reference p hp
      exact (h'.asking hW reference hlog p' p'' hp' hp'').trans (h.asking hW reference hlog p p' hp hp')
    · exact h.ledger hW _ hown _ _ (h'.ledger hW _ hown _ _ hv hc) hc
  sub := fun own own' log db db' hs h =>
    ⟨h.kept, h.asking, h.settling, h.refused, fun hW reference hown => h.ledger hW reference (hs _ hown)⟩
  fact := fun _ _ _ _ _ _ _ _ _ => trivial

/-- Whoever holds a payment sees no ledger row of it begin to count. -/
theorem spec_alone (hW : W.ledger) (reference : String) : Alone (spec W) reference := by
  intro own log hown own' db db' hsub hst k r hr hc
  cases k with
  | voteTransaction pk => exact hst.rely.ledger hW reference (hsub _ hown) pk r hr hc
  | _ => cases hc

/-! ### Commits that touch one thing -/

/-- A payment, a ledger row, a refund or an event. -/
def isWatched : Key → Bool
  | .event _ => true
  | .payment _ => true
  | .voteTransaction _ => true
  | .refund _ => true
  | _ => false

section Steps

variable {own : List Key} {log : List Note} {db db' : Database}

theorem PaymentStep.same {o o' : Option PaymentRow} (h : o' = o) : PaymentStep W o o' := by
  subst h
  rcases o' with _ | p
  · trivial
  · exact ⟨.refl p, fun _ => Or.inl rfl, fun _ h => h⟩

theorem RefundStep.same {o o' : Option RefundRow} (h : o' = o) : RefundStep W db o o' := by
  subst h
  rcases o' with _ | r
  · trivial
  · exact ⟨rfl, rfl, fun _ => rfl, fun _ h => h⟩

/-- Ledger rows and the payment as they were. -/
theorem LedgerStep.same {reference : String} (hpayment : db'.row (.payment reference) = db.row (.payment reference))
    (hledger : ∀ pk, db'.row (.voteTransaction pk) = db.row (.voteTransaction pk)) :
    LedgerStep W own log reference db db' :=
  ⟨fun pk _ hv _ => Or.inl ((hledger pk).symm.trans hv),
    fun p' hp' hc => Or.inl ⟨p', hpayment.symm.trans hp', hc⟩⟩

/-- A commit of rows that are not watched. -/
theorem Committed.of_rows (h : ∀ x, isWatched x = true → db'.row x = db.row x) : Committed W own log db db' where
  payments := fun _ => .same (h _ rfl)
  ledger := fun _ => .same (h _ rfl) fun _ => h _ rfl
  refunds := fun _ => .same (h _ rfl)
  events := fun _ => h _ rfl
  one := ⟨"", fun _ _ => h _ rfl⟩

/-- The sums depend on the refunds only. -/
theorem refundSum_congr {c : RefundStatus → Bool} {reference : String}
    (h : ∀ id, db'.row (.refund id) = db.row (.refund id)) : refundSum c db' reference = refundSum c db reference := by
  refine Db.total_congr fun x => ?_
  unfold Db.weight
  cases x with
  | refund id => rw [h]
  | _ =>
    rcases db'.row _ with _ | r'
    · rcases db.row _ with _ | r <;> rfl
    · rcases db.row _ with _ | r <;> rfl

theorem Books.of_rows (hb : Books W db) (hpayment : ∀ r, db'.row (.payment r) = db.row (.payment r))
    (hrefund : ∀ id, db'.row (.refund id) = db.row (.refund id)) : Books W db' := by
  have hsum : ∀ reference, processedSum db' reference = processedSum db reference := fun _ => refundSum_congr hrefund
  refine ⟨fun hW reference p hp => ?_, fun hW reference p hp => ?_, fun hW id r hr => ?_⟩
  · rw [hsum]
    exact hb.covered hW reference p ((hpayment _).symm.trans hp)
  · rw [hsum]
    exact hb.exact hW reference p ((hpayment _).symm.trans hp)
  · rw [hpayment]
    exact hb.absent hW id r ((hrefund id).symm.trans hr)

theorem spec_quiet : Quiet (spec W) fun k => !isWatched k := by
  intro own log db w hinv hw
  have hrow : ∀ x, isWatched x = true → (db.apply w).row x = db.row x := fun x hx =>
    hw.apply_row db (by simp [hx])
  exact ⟨Books.of_rows hinv (fun _ => hrow _ rfl) fun _ => hrow _ rfl, .of_rows hrow⟩

/-- A commit of one payment, and of ledger rows. -/
theorem Committed.of_payment {reference : String} {p p' : PaymentRow}
    (hp : db.row (.payment reference) = some p) (hp' : db'.row (.payment reference) = some p')
    (hlasting : Lasting p p') (hmoves : W.refused → Moves p p') (hpassed : W.holds → Passed p' → Passed p)
    (hother : ∀ r, r ≠ reference → db'.row (.payment r) = db.row (.payment r))
    (hledger : ∀ r, LedgerStep W own log r db db') (hrefund : ∀ id, db'.row (.refund id) = db.row (.refund id))
    (hevent : ∀ e, db'.row (.event e) = db.row (.event e)) : Committed W own log db db' where
  payments := fun r => by
    by_cases hr : r = reference
    · subst hr
      rw [hp, hp']
      exact ⟨hlasting, hmoves, hpassed⟩
    · exact .same (hother r hr)
  ledger := hledger
  refunds := fun id => .same (hrefund id)
  events := hevent
  one := ⟨"", fun _ _ => hrefund _⟩

/-- The books stay right where one payment is saved with what was refunded. -/
theorem Books.of_payment (hb : Books W db) {reference : String} {p p' : PaymentRow}
    (hp : db.row (.payment reference) = some p) (hp' : db'.row (.payment reference) = some p')
    (hrefunded : p'.refundedAmount = p.refundedAmount)
    (hother : ∀ r, r ≠ reference → db'.row (.payment r) = db.row (.payment r))
    (hrefund : ∀ id, db'.row (.refund id) = db.row (.refund id)) : Books W db' := by
  have hsum : ∀ reference, processedSum db' reference = processedSum db reference := fun _ => refundSum_congr hrefund
  have hfrom : ∀ r q', db'.row (.payment r) = some q' →
      ∃ q, db.row (.payment r) = some q ∧ q'.refundedAmount = q.refundedAmount := by
    intro r q' hq'
    by_cases hr : r = reference
    · subst hr
      obtain rfl := Option.some.inj (hp'.symm.trans hq')
      exact ⟨p, hp, hrefunded⟩
    · exact ⟨q', (hother r hr).symm.trans hq', rfl⟩
  refine ⟨fun hW r q' hq' => ?_, fun hW r q' hq' => ?_, fun hW id x hx => ?_⟩
  · obtain ⟨q, hq, hsame⟩ := hfrom r q' hq'
    rw [hsum, hsame]
    exact hb.covered hW r q hq
  · obtain ⟨q, hq, hsame⟩ := hfrom r q' hq'
    rw [hsum, hsame]
    exact hb.exact hW r q hq
  · have hne := hb.absent hW id x ((hrefund id).symm.trans hx)
    by_cases hr : x.payment = reference
    · rw [hr, hp']
      simp
    · rw [hother _ hr]
      exact hne

/-- Ledger rows as they were, and the payment not closed. -/
theorem LedgerStep.of_open {reference : String}
    (hclosed : ∀ p', db'.row (.payment reference) = some p' → Closed p'.status →
      ∃ p, db.row (.payment reference) = some p ∧ Closed p.status)
    (hledger : ∀ pk, db'.row (.voteTransaction pk) = db.row (.voteTransaction pk)) :
    LedgerStep W own log reference db db' :=
  ⟨fun pk _ hv _ => Or.inl ((hledger pk).symm.trans hv), fun p' hp' hc => Or.inl (hclosed p' hp' hc)⟩

/-- A commit that saves one payment, and does not close it. -/
theorem Committed.of_saved {reference : String} {p p' : PaymentRow} (hp : db.row (.payment reference) = some p)
    (hp' : db'.row (.payment reference) = some p') (hlasting : Lasting p p') (hmoves : W.refused → Moves p p')
    (hpassed : W.holds → Passed p' → Passed p) (hclosed : Closed p'.status → Closed p.status)
    (hother : ∀ x, x ≠ .payment reference → isWatched x = true → db'.row x = db.row x) :
    Committed W own log db db' := by
  have hne : ∀ r, r ≠ reference → db'.row (.payment r) = db.row (.payment r) := fun r hr =>
    hother _ (by simpa using hr) rfl
  refine .of_payment hp hp' hlasting hmoves hpassed hne (fun r => .of_open (fun p₁ hp₁ hc => ?_)
    fun pk => hother _ (by simp) rfl) (fun id => hother _ (by simp) rfl) fun e => hother _ (by simp) rfl
  by_cases hr : r = reference
  · subst hr
    obtain rfl := Option.some.inj (hp'.symm.trans hp₁)
    exact ⟨p, hp, hclosed hc⟩
  · exact ⟨p₁, (hne r hr).symm.trans hp₁, hc⟩

end Steps

/-- What a commit leaves the others with: it keeps the payments, and the rest is for
the run to see to. -/
theorem Relied.of_committed {own own' : List Key} {log log' : List Note} {db db' : Database}
    (h : Committed W own' log' db db')
    (hasking : W.asking → ∀ reference, Runs.asking reference log = true → ∀ p p', db.row (.payment reference) = some p →
      db'.row (.payment reference) = some p' → p'.refundedAmount ≤ p.refundedAmount)
    (hsettling : W.settling → ∀ id, Settling log id → Open db id → Open db' id)
    (hrefused : W.refused → ∀ reference, .refused reference ∈ log →
      (∀ p, db.row (.payment reference) = some p → Unpaid p.status) →
      ∀ p, db'.row (.payment reference) = some p → Unpaid p.status)
    (hledger : W.ledger → ∀ reference, .payment reference ∈ own → ∀ pk v, db'.row (.voteTransaction pk) = some v →
      countedOf reference (.voteTransaction pk) v = true → db.row (.voteTransaction pk) = some v) :
    Relied W own log db db' := by
  refine ⟨fun reference p hp => ?_, hasking, hsettling, hrefused, hledger⟩
  have hstep := h.payments reference
  rw [hp] at hstep
  rcases hp' : db'.row (.payment reference) with _ | p'
  · rw [hp'] at hstep
    exact hstep.elim
  · rw [hp'] at hstep
    exact ⟨p', rfl, hstep.1⟩

/-! ### How the calls move a payment -/

/-- The same payment, in the same status, with as much refunded. -/
structure Alike (p p' : PaymentRow) : Prop where
  lasting : Lasting p p'
  refunded : p'.refundedAmount = p.refundedAmount
  passed : Passed p' → Passed p
  status : p'.status = p.status

/-- The payment has moved, by at most one transition, and not by itself into
dispute. -/
structure Moved (p p' : PaymentRow) (target : PaymentStatus) : Prop where
  lasting : Lasting p p'
  refunded : p'.refundedAmount = p.refundedAmount
  passed : Passed p' → Passed p
  moves : Moves p p'
  status : p'.status = p.status ∨ p'.status = target

theorem Alike.refl (p : PaymentRow) : Alike p p := ⟨.refl p, rfl, fun h => h, rfl⟩

/-- A hold is in the way of the votes. -/
theorem alike_mismatched (E : Env) (data : List (String × Json)) (p : PaymentRow) : Alike p (mismatched E data p) :=
  ⟨⟨rfl, rfl, rfl, rfl, rfl, rfl, rfl⟩, rfl, fun h => h.imp_right fun hheld => absurd hheld (by simp [mismatched]), rfl⟩

theorem alike_assessed (p : PaymentRow) (risk : Assessment) : Alike p (assessed p risk) := by
  refine ⟨⟨rfl, rfl, rfl, rfl, rfl, rfl, rfl⟩, rfl, fun h => h.imp_right fun hheld => ?_, rfl⟩
  simp only [assessed, Bool.or_eq_false_iff] at hheld
  exact hheld.1

/-- `transition` of a payment that is still as it was. -/
theorem Alike.transition {p₀ p : PaymentRow} (h : Alike p₀ p) (target : PaymentStatus) (now : Time) :
    Moved p₀ (Payments.transition p target now) target := by
  unfold Payments.transition
  by_cases hc : changes p target = true
  · rw [if_pos hc]
    unfold changes at hc
    simp only [decide_eq_true_eq] at hc
    refine ⟨h.lasting.trans ⟨rfl, rfl, rfl, rfl, rfl, rfl, rfl⟩, h.refunded, h.passed, Or.inr ?_, Or.inr rfl⟩
    rw [← h.status]
    exact hc.2
  · rw [if_neg hc]
    exact ⟨h.lasting, h.refunded, h.passed, Or.inl h.status, Or.inl h.status⟩

theorem Moved.alike {p₀ p p' : PaymentRow} {target : PaymentStatus} (h : Moved p₀ p target) (h' : Alike p p') :
    Moved p₀ p' target := by
  refine ⟨h.lasting.trans h'.lasting, h'.refunded.trans h.refunded, fun hp => h.passed (h'.passed hp), ?_, ?_⟩
  · unfold Moves
    rw [h'.status]
    exact h.moves
  · rw [h'.status]
    exact h.status

/-- What a decision makes of the payment. -/
structure Decided (W : Watch) (p : PaymentRow) (d : Decision) : Prop where
  lasting : Lasting p d.payment
  refunded : d.payment.refundedAmount = p.refundedAmount
  passed : W.holds → Passed d.payment → Passed p
  moves : Moves p d.payment
  closed : Closed d.payment.status → Closed p.status ∨ d.effect = .reverse

/-- A decision that reverses the votes. -/
theorem Decided.of_reversal {p p' : PaymentRow} {target : PaymentStatus} (h : Moved p p' target) :
    Decided W p ⟨p', .reverse, none⟩ :=
  ⟨h.lasting, h.refunded, fun _ => h.passed, h.moves, fun _ => Or.inr rfl⟩

/-- A decision for another target than those of disputes. -/
theorem Decided.of_moved {p p' : PaymentRow} {target : PaymentStatus} {effect : Effect} {report : Option (ℤ × String)}
    (h : Moved p p' target) (ht : ¬ Closed target) : Decided W p ⟨p', effect, report⟩ := by
  refine ⟨h.lasting, h.refunded, fun _ => h.passed, h.moves, fun hc => Or.inl ?_⟩
  rcases h.status with hs | hs
  · rw [← hs]
    exact hc
  · exact absurd (hs ▸ hc) ht

section Decide

variable {E : Env} {A : Adapters} {q : GatewayCall} {risk : PaymentRow → Assessment} {p₀ p : PaymentRow} {d : Decision}

theorem decideSuccess_decided (hp : Alike p₀ p) (h : decideSuccess E q risk p = .ok d) : Decided W p₀ d := by
  have hopen : ¬ Closed .SUCCESS := by simp [Closed]
  have hmoved := hp.transition .SUCCESS (q.now 1)
  rcases hm : amountsOf E q.data p with e | ⟨amount, currency⟩
  · unfold decideSuccess at h
    rw [hm] at h
    cases h
  by_cases hs : Succeeds q p
  swap
  · rw [decideSuccess_stays hm hs] at h
    cases h
    exact .of_moved hmoved hopen
  rcases hmatch : amountsMatch E p amount currency with _ | _
  · rw [decideSuccess_mismatched hm hs hmatch] at h
    cases h
    exact .of_moved (hmoved.alike (alike_mismatched _ _ _)) hopen
  · rw [decideSuccess_matching hm hs hmatch] at h
    cases h
    refine .of_moved (hmoved.alike ?_) hopen
    unfold looked
    by_cases ha : toAssess (Payments.transition p .SUCCESS (q.now 1)) = true
    · rw [if_pos ha]
      exact alike_assessed _ _
    · rw [if_neg ha]
      exact .refl _

/-- **A report moves the payment along the transitions**, and closes it only by
reversing its votes. -/
theorem decideReport_decided (h : decideReport E A q risk p = .ok d) : Decided W p d := by
  rcases hs : gatewayStatus E q.data with e | status
  · unfold decideReport at h
    rw [hs] at h
    cases h
  by_cases hsucc : status = "success"
  · subst hsucc
    rcases hcols : A.details q.data p with e | columns
    · unfold decideReport at h
      rw [hs] at h
      simp [hcols] at h
    · rw [decide_success hs hcols] at h
      have halike : Alike p (reported p "success" columns (q.now 0)) := ⟨⟨rfl, rfl, rfl, rfl, rfl, rfl, rfl⟩, rfl, fun h => h, rfl⟩
      exact decideSuccess_decided halike h
  by_cases hfail : status = "failed"
  · subst hfail
    rw [decide_failed hs] at h
    cases h
    exact .of_moved ((Alike.refl p).transition _ _) (by simp [Closed])
  by_cases haban : status = "abandoned"
  · subst haban
    rw [decide_abandoned hs] at h
    cases h
    exact .of_moved ((Alike.refl p).transition _ _) (by simp [Closed])
  by_cases hrev : status = "reversed"
  · subst hrev
    rw [decide_reversed hs] at h
    cases h
    have hmoved := (Alike.refl p).transition .REVERSED (q.now 0)
    refine ⟨hmoved.lasting, hmoved.refunded, fun _ => hmoved.passed, hmoved.moves, fun hc => ?_⟩
    by_cases hchanges : changes p .REVERSED = true
    · exact Or.inr (if_pos hchanges)
    · have hsame : Payments.transition p .REVERSED (q.now 0) = p := if_neg hchanges
      dsimp only at hc
      rw [hsame] at hc
      exact Or.inl hc
  · rw [decide_pending hs hsucc hfail haban hrev] at h
    cases h
    have hstatus : Alike p { p with gatewayStatus := truncate 30 status } := ⟨⟨rfl, rfl, rfl, rfl, rfl, rfl, rfl⟩, rfl, fun h => h, rfl⟩
    exact .of_moved (hstatus.transition _ _) (by simp [Closed])

end Decide

/-! ### Reports and holds -/

section Ok

variable {E : Env} {A : Adapters} {log : List Note}

/-- After a decision's effect the payment is as decided. -/
theorem made_paid {c : CreditCall} {reference : String} {d : Decision} {taken alone : Prop} {db db' : Database}
    (h : Made c reference d taken alone (saved db reference d.payment) db') :
    ∃ p', db'.row (.payment reference) = some p' ∧ Alike d.payment p' := by
  have hsaved : (saved db reference d.payment).row (.payment reference) = some d.payment := by simp [saved]
  rcases h with ⟨-, hrows⟩ | ⟨-, hrows, -⟩ | ⟨-, hcredit⟩ | ⟨-, hrows, -⟩
  · exact ⟨d.payment, (hrows _).trans hsaved, .refl _⟩
  · exact ⟨d.payment, (hrows _).trans hsaved, .refl _⟩
  · have hrow := hcredit.payment
    have hready := hcredit.ready
    rw [hsaved] at hrow
    unfold creditable at hready
    simp only [Bool.and_eq_true, Bool.not_eq_true'] at hready
    exact ⟨_, hrow, ⟨rfl, rfl, rfl, rfl, rfl, rfl, rfl⟩, rfl, fun _ => Or.inr hready.2, rfl⟩
  · refine ⟨d.payment, ?_, .refl _⟩
    rcases hrows (.payment reference) with hrow | hrow
    · exact hrow.trans hsaved
    · rw [hrow, hsaved]
      rfl

/-- **The commit of a decision.** -/
theorem made_committed {c : CreditCall} {reference : String} {p : PaymentRow} {d : Decision} {taken : Prop}
    {db db' : Database} {own : List Key} (hp : db.row (.payment reference) = some p) (hd : Decided W p d)
    (hown : .payment reference ∈ own)
    (h : Made c reference d taken (Alone (spec W) reference) (saved db reference d.payment) db') :
    Committed W own log db db' := by
  obtain ⟨p', hp', halike⟩ := made_paid h
  have hother : ∀ r, r ≠ reference → db'.row (.payment r) = db.row (.payment r) := fun r hr =>
    (h.row (by simp [isCredit, hr]) fun _ => rfl).trans (by simp [saved, hr])
  have hmoved : Lasting p p' := hd.lasting.trans halike.lasting
  have hmoves : Moves p p' := by
    unfold Moves
    rw [halike.status]
    exact hd.moves
  have hledger : ∀ r pk v, db'.row (.voteTransaction pk) = some v → countedOf r (.voteTransaction pk) v = true →
      db.row (.voteTransaction pk) = some v ∨ r = reference ∧ p'.status = .SUCCESS := by
    intro r pk v hv hc
    unfold countedOf at hc
    simp only [Bool.and_eq_true, decide_eq_true_eq] at hc
    rcases h.ledger hv hc.2 with hrow | ⟨hpay, hready, -⟩
    · exact Or.inl ((by simp [saved] : db.row (.voteTransaction pk) = _).trans hrow)
    · refine Or.inr ⟨Option.some.inj (hc.1.symm.trans hpay), ?_⟩
      unfold creditable at hready
      simp only [Bool.and_eq_true, decide_eq_true_eq] at hready
      rw [halike.status]
      exact hready.1.2
  refine .of_payment hp hp' hmoved (fun _ => hmoves) (fun hW h => hd.passed hW (halike.passed h)) hother
    (fun r => ⟨fun pk v hv hc => ?_, fun p₁ hp₁ hc => ?_⟩) (fun id => (h.row rfl fun _ => rfl).trans (by simp [saved]))
    fun e => (h.row rfl fun _ => rfl).trans (by simp [saved])
  · rcases hledger r pk v hv hc with hrow | ⟨rfl, hs⟩
    · exact Or.inl hrow
    · exact Or.inr (Or.inl ⟨hown, p', hp', hs⟩)
  · by_cases hr : r = reference
    swap
    · exact Or.inl ⟨p₁, (hother r hr).symm.trans hp₁, hc⟩
    subst hr
    obtain rfl := Option.some.inj (hp'.symm.trans hp₁)
    rw [halike.status] at hc
    rcases hd.closed hc with hclosed | hreverse
    · exact Or.inl ⟨p, hp, hclosed⟩
    · refine Or.inr (Or.inl fun hW pk v hv => ?_)
      rcases h with ⟨he, -⟩ | ⟨he, -, -⟩ | ⟨he, -⟩ | ⟨-, -, hall⟩
      · rw [hreverse] at he
        cases he
      · rw [hreverse] at he
        cases he
      · rw [hreverse] at he
        cases he
      · rw [hall (spec_alone hW r)] at hv
        obtain ⟨v₀, -, rfl⟩ := Option.map_eq_some_iff.mp hv
        unfold updated
        by_cases hcount : countedOf r (.voteTransaction pk) v₀ = true
        · rw [if_pos hcount]
          exact reverse_uncounts _ _ hcount
        · rw [if_neg hcount]
          simpa using hcount

theorem inv_of_made {c : CreditCall} {reference : String} {p : PaymentRow} {d : Decision} {taken : Prop}
    {db db' : Database} (hinv : (spec W).inv db) (hp : db.row (.payment reference) = some p) (hd : Decided W p d)
    (h : Made c reference d taken (Alone (spec W) reference) (saved db reference d.payment) db') :
    (spec W).inv db' := by
  obtain ⟨p', hp', halike⟩ := made_paid h
  refine Books.of_payment hinv hp hp' (halike.refunded.trans hd.refunded) (fun r hr => ?_) fun id => ?_
  · exact (h.row (by simp [isCredit, hr]) fun _ => rfl).trans (by simp [saved, hr])
  · exact (h.row rfl fun _ => rfl).trans (by simp [saved])

theorem quiet_audit : Quiet (spec W) isAudit := spec_quiet.mono fun k hk => by
  cases k <;> first
    | rfl
    | cases hk

/-- A commit of nothing. -/
theorem committed_refl {own : List Key} {db : Database} : Committed W own log db db := .of_rows fun _ _ => rfl

/-- The commit of a payment that is saved, and not closed, and of rows that are not
watched. -/
theorem commit_saved_with {reference : String} {p p' : PaymentRow} {k : Program} (hk : Rest (spec W) k)
    {db : Database} {own : List Key} {u w : Writes Row} (hown : .payment reference ∈ own)
    (hp : db.row (.payment reference) = some p) (hw : Saves reference p' w db) (hlasting : Lasting p p')
    (hmoves : W.refused → Moves p p') (hpassed : Passed p' → Passed p) (hrefunded : p'.refundedAmount = p.refundedAmount)
    (hclosed : Closed p'.status → Closed p.status) (hu : Db.Only (fun k => !isWatched k) u) :
    Ok (spec W) (.commit k) db own (u ++ w) log := by
  intro db₁ h₁
  have hp₁ : db₁.row (.payment reference) = some p := (h₁.held _ hown).trans hp
  have hview : ∀ x, isWatched x = true → (db₁.apply (u ++ w)).row x = (saved db₁ reference p').row x := fun x hx => by
    rw [Db.apply_append, ← hw db₁ (h₁.held _ hown) x]
    exact hu.apply_row _ (by simp [hx])
  have hrow : (db₁.apply (u ++ w)).row (.payment reference) = some p' := by
    rw [hview _ rfl]
    simp [saved]
  have hother : ∀ x, x ≠ .payment reference → isWatched x = true → (db₁.apply (u ++ w)).row x = db₁.row x :=
    fun x hne hx => by
      rw [hview x hx]
      simp [saved, hne]
  have hcommitted : ∀ log', Committed W own log' db₁ (db₁.apply (u ++ w)) := fun log' =>
    .of_saved hp₁ hrow hlasting hmoves (fun _ => hpassed) hclosed hother
  refine ⟨?_, hcommitted _, hk _ _⟩
  exact Books.of_payment h₁.inv hp₁ hrow hrefunded (fun r hr => hother _ (by simpa using hr) rfl)
    fun id => hother _ (by simp) rfl

/-- The same, of the payment alone. -/
theorem commit_saved {reference : String} {p p' : PaymentRow} {k : Program} (hk : Rest (spec W) k)
    {db : Database} {own : List Key} {w : Writes Row} (hown : .payment reference ∈ own)
    (hp : db.row (.payment reference) = some p) (hw : Saves reference p' w db) (hlasting : Lasting p p')
    (hmoves : W.refused → Moves p p') (hpassed : Passed p' → Passed p) (hrefunded : p'.refundedAmount = p.refundedAmount)
    (hclosed : Closed p'.status → Closed p.status) : Ok (spec W) (.commit k) db own w log :=
  (commit_saved_with hk hown hp hw hlasting hmoves hpassed hrefunded hclosed .nil : Ok (spec W) (.commit k) db own ([] ++ w) log)

/-- Invoices are marked paid as the billing service does it. -/
def Billed (E : Env) (A : Adapters) : Prop := ∃ c, A.markInvoicePaid = markInvoicePaid E c (.rollback .halt)

/-- What a payment for something else than votes brings about. -/
theorem fulfil_rest {q : GatewayCall} {p₀ p : PaymentRow} {matching : Bool} {k : Program} (hbilled : Billed E A)
    (hk : Rest (spec W) k) (hvote : p.purpose ≠ .VOTE) (hmoved : Moved p₀ p .SUCCESS) {db : Database}
    {own : List Key} {w : Writes Row} (hown : .payment q.reference ∈ own)
    (hp : db.row (.payment q.reference) = some p₀) (hw : Saves q.reference p w db) (hinv : (spec W).inv db) :
    Ok (spec W) (fulfil A q p matching (.commit k)) db own w log := by
  have hclosed : Closed p.status → Closed p₀.status := fun hc => by
    rcases hmoved.status with h | h
    · exact h ▸ hc
    · rw [h] at hc
      simp [Closed] at hc
  have hcommit : GoesOn (spec W) (fun k => !isWatched k) (.commit k) db own w log := fun db' own' u h' hsub hu =>
    commit_saved_with hk (hsub _ hown) ((h'.held _ hown).trans hp) (hw.held (h'.held _ hown)) hmoved.lasting
      (fun _ => hmoved.moves) hmoved.passed hmoved.refunded hclosed hu
  have hplain : Ok (spec W) (.commit k) db own w log := hcommit.at (.refl spec_sound hinv)
  unfold fulfil
  rw [if_neg fun h => hvote h.1]
  rcases hpurpose : p.purpose with _ | _
  · exact absurd hpurpose hvote
  rcases p.invoice with _ | i
  · exact hplain
  dsimp only
  by_cases hm : matching = true
  · rw [if_pos hm]
    obtain ⟨c, hc⟩ := hbilled
    rw [hc]
    refine markInvoicePaid_ok spec_sound (fun x hx => ?_) (fun _ _ _ _ _ => Rest.halt.rollback) hcommit
    cases x <;> first
      | rfl
      | cases hx
  · rw [if_neg hm]
    exact hplain

/-- A report of a success of such a payment. -/
theorem confirm_rest {q : GatewayCall} {p₀ p : PaymentRow} {k : Except Failure (Option PaymentRow) → Program}
    (hbilled : Billed E A) (hk : ∀ r, Rest (spec W) (k r)) (hvote : p.purpose ≠ .VOTE) (halike : Alike p₀ p)
    {db : Database} {own : List Key} (hown : .payment q.reference ∈ own)
    (hp : db.row (.payment q.reference) = some p₀) : Ok (spec W) (confirm E A q p k) db own [] log := by
  refine ⟨hown, fun db₁ h₁ => ?_⟩
  have hp₁ := (h₁.held _ hown).trans hp
  rcases amountsOf E q.data p with e | ⟨amount, currency⟩
  · exact (hk _).rollback
  have hdone : ∀ p', Rest (spec W) (.note (.succeeded q.reference amount currency) (k (.ok (some p')))) :=
    fun _ _ _ => ⟨trivial, hk _ _ _⟩
  dsimp only
  refine saveTransition_ok spec_sound h₁.inv hown (Saves.nil hp₁).put (fun db₂ w₂ h₂ hw₂ _ _ => ?_) (by simp)
  have hp₂ := (h₂.held _ hown).trans hp₁
  have hmoved := halike.transition .SUCCESS (q.now 1)
  have hvote₂ : (Payments.transition p .SUCCESS (q.now 1)).purpose ≠ .VOTE := by
    rw [transition_purpose]
    exact hvote
  have hclosed : Closed (Payments.transition p .SUCCESS (q.now 1)).status → Closed p₀.status := fun hc => by
    rcases hmoved.status with h | h
    · exact h ▸ hc
    · rw [h] at hc
      simp [Closed] at hc
  by_cases hs : (Payments.transition p .SUCCESS (q.now 1)).status ≠ .SUCCESS
  · rw [if_pos hs]
    exact commit_saved (hdone _) hown hp₂ hw₂ hmoved.lasting (fun _ => hmoved.moves) hmoved.passed hmoved.refunded hclosed
  rw [if_neg hs]
  by_cases hmatch : (!amountsMatch E p amount currency) = true
  · rw [if_pos hmatch]
    refine ⟨hown, fun db₃ h₃ => ?_⟩
    have hmismatched : Moved p₀ (mismatched E q.data (Payments.transition p .SUCCESS (q.now 1))) .SUCCESS :=
      hmoved.alike (alike_mismatched _ _ _)
    have hvote₃ : (mismatched E q.data (Payments.transition p .SUCCESS (q.now 1))).purpose ≠ .VOTE := hvote₂
    exact fulfil_rest hbilled (hdone _) hvote₃ hmismatched hown
      ((h₃.held _ hown).trans hp₂) (hw₂.held (h₃.held _ hown)).put h₃.inv
  rw [if_neg hmatch]
  have hassess : ¬ toAssess (Payments.transition p .SUCCESS (q.now 1)) = true := fun h => by
    unfold toAssess at h
    simp only [Bool.and_eq_true, decide_eq_true_eq] at h
    exact hvote₂ h.1.1
  rw [if_neg hassess]
  exact fulfil_rest hbilled (hdone _) hvote₂ hmoved hown hp₂ hw₂ h₂.inv

/-- **Applying a report** keeps the spec. -/
theorem applyGatewayResult_rest {q : GatewayCall} {k : Except Failure (Option PaymentRow) → Program}
    (hbilled : Billed E A) (hk : ∀ r, Rest (spec W) (k r)) : Rest (spec W) (applyGatewayResult E A q k) := by
  intro db log
  have hfail : FailsOk (spec W) k log := fun db e => hk _ db log
  have hdone : ReportCommits (spec W) E A q k log := by
    intro own db db' db₀ p d hinv hown hp hd hmade
    have hdecided : Decided W p d := decideReport_decided hd
    refine ⟨inv_of_made hinv hp hdecided hmade, made_committed hp hdecided hown hmade, ?_⟩
    unfold afterReport
    rcases d.report with _ | ⟨amount, currency⟩
    · exact hk _ _ _
    · exact ⟨trivial, hk _ _ _⟩
  refine applyGatewayResult_of spec_sound hfail hdone (fun db p d hinv hp hs hcols => ?_)
    fun own db _ => ⟨committed_refl, hk _ db log⟩
  by_cases hvote : p.purpose = .VOTE
  · exact confirm_ok spec_sound hfail hdone List.mem_cons_self hp hvote fun _ => decide_success hs hcols
  · have hvote' : (reported p "success" d (q.now 0)).purpose ≠ .VOTE := hvote
    have halike : Alike p (reported p "success" d (q.now 0)) := ⟨⟨rfl, rfl, rfl, rfl, rfl, rfl, rfl⟩, rfl, fun h => h, rfl⟩
    exact confirm_rest hbilled hk hvote' halike List.mem_cons_self hp

/-- **Releasing a hold** keeps the spec. -/
theorem releaseHeldPayment_rest {q : ReleaseCall} {k : Except Failure Unit → Program} (hholds : ¬ W.holds)
    (hk : ∀ r, Rest (spec W) (k r)) : Rest (spec W) (releaseHeldPayment E q k) := by
  intro db log
  refine releaseHeldPayment_ok spec_sound quiet_audit (fun log' db e => hk _ db log') (fun log' db _ => hk _ db log')
    ⟨fun own db db' p hinv hown hp hrows => ?_⟩
  have hmade : ∃ d : Decision, d.payment = unheld p ∧ d.effect ≠ .reverse ∧
      Made q.credit q.reference d True (Alone (spec W) q.reference) (saved db q.reference d.payment) db' := by
    rcases hrows with h | h
    · exact ⟨⟨unheld p, .nothing, none⟩, rfl, by simp, .nothing rfl h⟩
    · exact ⟨⟨unheld p, .credit, none⟩, rfl, by simp, .credited rfl h⟩
  obtain ⟨d, hpayment, -, hmade⟩ := hmade
  have hdecided : Decided W p d := by
    refine ⟨?_, ?_, fun hW => absurd hW hholds, Or.inl ?_, fun hc => Or.inl ?_⟩
    · rw [hpayment]
      exact ⟨rfl, rfl, rfl, rfl, rfl, rfl, rfl⟩
    · rw [hpayment]
      rfl
    · rw [hpayment]
      rfl
    · rw [hpayment] at hc
      exact hc
  exact ⟨inv_of_made hinv hp hdecided hmade, made_committed hp hdecided hown hmade, fun _ => trivial⟩

/-- **Crediting by reconciliation** keeps the spec. -/
theorem reconcileUncredited_rest {reference : String} {c : CreditCall} (hholds : ¬ W.holds) :
    Rest (spec W) (reconcileUncredited reference c) := by
  intro db log
  refine reconcileUncredited_ok spec_sound ⟨fun _ _ _ _ _ => trivial, ?_, ?_, spec_quiet.mono fun k hk => ?_⟩
  · intro own db₀ db p candidate hinv₀ hp _ _ hinv hfree
    have hrow : ∀ x, isCredit c reference x = false →
        (db.apply (ledgerWrites c reference p candidate [])).row x = db.row x := fun x hx => by
      refine Db.apply_row_of_notMem _ _ _ fun e he heq => ?_
      subst heq
      simp only [ledgerWrites, List.mem_cons, List.not_mem_nil, or_false] at he
      rcases he with rfl | rfl | rfl <;> simp [isCredit] at hx
    have hpayment : ∀ r, (db.apply (ledgerWrites c reference p candidate [])).row (.payment r) = db.row (.payment r) :=
      fun r => by simp [ledgerWrites]
    refine ⟨Books.of_rows hinv hpayment fun id => hrow _ rfl, fun r => .same (hpayment r), fun r => ⟨fun pk v hv hc => ?_, ?_⟩,
      fun id => .same (hrow _ rfl), fun _ => hrow _ rfl, "", fun _ _ => hrow _ rfl⟩
    · by_cases hpk : pk = c.ledgerId
      · subst hpk
        have hv' : (db.apply (ledgerWrites c reference p candidate [])).row (.voteTransaction c.ledgerId) =
          some (ledgerRow reference p candidate) := by simp [ledgerWrites]
        obtain rfl := Option.some.inj (hv.symm.trans hv')
        simp only [countedOf, ledgerRow, Bool.and_eq_true, decide_eq_true_eq, Option.some.injEq] at hc
        obtain ⟨rfl, -⟩ := hc
        exact Or.inr (Or.inr ⟨by simp, hpayment _⟩)
      · exact Or.inl ((hrow _ (by simpa [isCredit] using hpk)).symm.trans hv)
    · exact fun p' hp' hc => Or.inl ⟨p', (hpayment r).symm.trans hp', hc⟩
  · intro own db p hinv hp
    have hp' : (saved db reference (credited p c.now)).row (.payment reference) = some (credited p c.now) := by
      simp [saved]
    have hcommitted : Committed W own (.uncredited reference :: log) db (saved db reference (credited p c.now)) :=
      .of_saved hp hp' ⟨rfl, rfl, rfl, rfl, rfl, rfl, rfl⟩ (fun _ => Or.inl rfl) (fun hW => absurd hW hholds)
        (fun h => h) fun x hx _ => Db.set_row_ne _ _ hx
    exact ⟨Books.of_payment hinv hp hp' rfl (fun r hr => by simp [saved, hr]) fun id => by simp [saved], hcommitted⟩
  · cases k <;> first
      | rfl
      | cases hk

/-- **The result of a ticket purchase** is nothing to the payments. -/
theorem applyTicketResult_rest {reference : String} {data : List (String × Json)}
    {k : Except Failure (Option PurchaseRow) → Program} (hk : ∀ r, Rest (spec W) (k r)) :
    Rest (spec W) (applyTicketResult E reference data k) := by
  intro db log
  unfold applyTicketResult
  refine Ok.lockRow (fun db₁ p _ _ => ?_) fun db₁ _ => (hk _).commit spec_quiet .nil
  refine Ok.lockRow (fun db₂ t _ _ => ?_) fun db₂ _ => (hk _).commit spec_quiet .nil
  dsimp only
  have hsave : ∀ status : PurchaseStatus, Ok (spec W)
      (.put (.purchase reference) (some { p with status := status }) <|
        .commit (k (.ok (some { p with status := status })))) db₂ [.ticket p.ticket, .purchase reference] [] log :=
    fun status => ⟨by simp, fun db₃ _ => (hk _).commit spec_quiet (.cons rfl .nil)⟩
  by_cases hpending : p.status ≠ .Pending
  · rw [if_pos hpending]
    exact (hk _).commit spec_quiet .nil
  rw [if_neg hpending]
  rcases gatewayStatus E data with e | status
  · exact (hk _).rollback
  dsimp only
  by_cases hsucc : status = "success"
  · rw [if_pos hsucc]
    rcases Payments.amountOf E data with e | amount
    · exact (hk _).rollback
    dsimp only
    split_ifs
    · exact (hk _).commit spec_quiet .nil
    · exact hsave _
  · rw [if_neg hsucc]
    split_ifs
    · exact hsave _
    · exact (hk _).commit spec_quiet .nil

/-- **Verifying a reference** keeps the spec. -/
theorem verifyAndApply_rest {q : GatewayCall} {answer : Option (List (String × Json))}
    {k : Except Failure Verified → Program} (hbilled : Billed E A) (hk : ∀ r, Rest (spec W) (k r)) :
    Rest (spec W) (verifyAndApply E A q answer k) := by
  unfold verifyAndApply
  rcases answer with _ | data
  · exact hk _
  refine Rest.read fun db _ => ?_
  split_ifs
  · exact applyGatewayResult_rest (q := { q with data := data }) hbilled fun _ => hk _
  · refine Rest.read fun db' _ => ?_
    split_ifs
    · exact applyTicketResult_rest fun _ => hk _
    · exact hk _

/-- A transition saved over a payment that is as it was. -/
theorem saveTransition_rest {reference : String} {p₀ p : PaymentRow} {target : PaymentStatus} {now : Time}
    {k : Program} (hk : Rest (spec W) k) (ht : ¬ Closed target) {db : Database} {own : List Key}
    {w : Writes Row} (hown : .payment reference ∈ own) (hp : db.row (.payment reference) = some p₀)
    (hw : Saves reference p w db) (halike : Alike p₀ p) :
    Ok (spec W) (saveTransition reference p target now (.commit k)) db own w log := by
  have hmoved := halike.transition target now
  have hclosed : Closed (Payments.transition p target now).status → Closed p₀.status := fun hc => by
    rcases hmoved.status with h | h
    · exact h ▸ hc
    · exact absurd (h ▸ hc) ht
  unfold saveTransition
  by_cases hc : changes p target = true
  · rw [if_pos hc]
    refine ⟨hown, fun db₁ h₁ => ?_⟩
    exact commit_saved hk hown ((h₁.held _ hown).trans hp) (hw.held (h₁.held _ hown)).put hmoved.lasting
      (fun _ => hmoved.moves) hmoved.passed hmoved.refunded hclosed
  · have hsame : Payments.transition p target now = p := if_neg hc
    rw [if_neg hc]
    rw [hsame] at hmoved hclosed
    exact commit_saved hk hown hp hw hmoved.lasting (fun _ => hmoved.moves) hmoved.passed hmoved.refunded hclosed

/-- **A dispute** keeps the spec: one that is opened reverses the votes, and one
that is lost is noted. -/
theorem webhookDispute_rest {q : WebhookCall} {reference : String} {k : Except Failure Unit → Program}
    (hk : ∀ r, Rest (spec W) (k r)) : Rest (spec W) (webhookDispute E q reference k) := by
  unfold webhookDispute
  rcases disputeReference E q.data reference with e | reference
  · exact hk _
  refine Rest.read fun db _ => ?_
  rcases db.row (.payment reference) with _ | found
  · exact hk _
  intro db₀ log
  refine Ok.lockRow (fun db₁ p h₁ hp => ?_) fun db₁ _ => (hk _).rollback
  have hown : Key.payment reference ∈ [Key.payment reference] := by simp
  have hp₁ : db₁.row (.payment reference) = some p := by simpa using hp
  have haudit : ∀ a : Database → Entry, Rest (spec W) (.read fun db =>
      recordNow E (a db) (k (.error (.crash "DatabaseError"))) (k (.ok ()))) := fun a =>
    Rest.read fun _ _ => Rest.recordNow spec_sound quiet_audit (hk _) (hk _)
  dsimp only
  by_cases hcreate : q.eventType = "charge.dispute.create"
  · -- the votes go with the payment
    rw [if_pos hcreate]
    have hmoved := (Alike.refl p).transition .DISPUTED (q.now 0)
    unfold saveTransition
    by_cases hc : changes p .DISPUTED = true
    · rw [if_pos hc, if_pos hc]
      refine ⟨hown, fun db₂ h₂ => ?_⟩
      have hp₂ := (h₂.held _ hown).trans hp₁
      refine reverseVotes_ok spec_sound hown (Saves.nil hp₂).put (by simp) fun db₃ own₃ w₃ h₃ hsub hview => ?_
      intro db₄ h₄
      have hp₄ := ((h₄.held _ (hsub _ hown)).trans (h₃.held _ hown)).trans hp₂
      obtain ⟨hrows, hall⟩ := hview db₄ h₄
      have hmade : Made ⟨0, 0⟩ reference ⟨Payments.transition p .DISPUTED (q.now 0), .reverse, none⟩ True
          (Alone (spec W) reference) (saved db₄ reference (Payments.transition p .DISPUTED (q.now 0)))
          (db₄.apply w₃) := .reversed rfl hrows hall
      exact ⟨inv_of_made h₄.inv hp₄ (.of_reversal hmoved) hmade,
        made_committed hp₄ (.of_reversal hmoved) (hsub _ hown) hmade, haudit _ _ _⟩
    · rw [if_neg hc, if_neg hc]
      exact Rest.commit (haudit _) spec_quiet .nil
  rw [if_neg hcreate]
  by_cases hresolve : q.eventType = "charge.dispute.resolve"
  swap
  · rw [if_neg hresolve]
    exact Rest.commit (haudit _) spec_quiet .nil
  rw [if_pos hresolve]
  by_cases hwon : merchantWon E q.data = true
  · rw [if_pos hwon]
    exact saveTransition_rest (haudit _) (by simp [Closed]) hown hp₁ (.nil hp₁) (.refl p)
  rw [if_neg hwon]
  have hmoved := (Alike.refl p).transition .REVERSED (q.now 0)
  unfold saveTransition
  by_cases hc : changes p .REVERSED = true
  · -- lost: the payment moves by itself
    rw [if_pos hc, if_pos hc]
    refine ⟨hown, fun db₂ h₂ db₃ h₃ => ?_⟩
    have hp₃ : db₃.row (.payment reference) = some p := ((h₃.held _ hown).trans (h₂.held _ hown)).trans hp₁
    have hrow : (db₃.apply [⟨.payment reference, some (Payments.transition p .REVERSED (q.now 0))⟩]).row
        (.payment reference) = some (Payments.transition p .REVERSED (q.now 0)) := by simp
    have hother : ∀ x, x ≠ .payment reference →
        (db₃.apply [⟨.payment reference, some (Payments.transition p .REVERSED (q.now 0))⟩]).row x = db₃.row x :=
      fun x hx => by simp [hx]
    have hne : ∀ r, r ≠ reference → (db₃.apply [⟨.payment reference,
        some (Payments.transition p .REVERSED (q.now 0))⟩]).row (.payment r) = db₃.row (.payment r) :=
      fun r hr => hother _ (by simpa using hr)
    have hcommitted : Committed W [Key.payment reference] (.lost reference :: log) db₃
        (db₃.apply [⟨.payment reference, some (Payments.transition p .REVERSED (q.now 0))⟩]) := by
      refine .of_payment hp₃ hrow hmoved.lasting (fun _ => hmoved.moves) (fun _ => hmoved.passed) hne
        (fun r => ⟨fun pk v hv _ => Or.inl ((hother _ (by simp)).symm.trans hv), fun p' hp' hclosed => ?_⟩)
        (fun id => hother _ (by simp)) fun e => hother _ (by simp)
      by_cases hr : r = reference
      · subst hr
        by_cases hwas : Closed p.status
        · exact Or.inl ⟨p, hp₃, hwas⟩
        · exact Or.inr (Or.inr ⟨by simp, p, hp₃, hwas⟩)
      · exact Or.inl ⟨p', (hne r hr).symm.trans hp', hclosed⟩
    refine ⟨?_, hcommitted, trivial, haudit _ _ _⟩
    exact Books.of_payment h₃.inv hp₃ hrow hmoved.refunded hne fun id => hother _ (by simp)
  · rw [if_neg hc, if_neg hc]
    exact Rest.commit (haudit _) spec_quiet .nil

/-- **A report of the gateway** keeps the spec, but for the refunds'. -/
theorem dispatchWebhook_rest {q : WebhookCall} {credit : CreditCall} {k : Except Failure Unit → Program}
    (hbilled : Billed E A) (hrefund : Rest (spec W) (webhookRefund E q k)) (hk : ∀ r, Rest (spec W) (k r)) :
    Rest (spec W) (dispatchWebhook E A q credit k) := by
  unfold dispatchWebhook
  rcases hr : webhookReference E q.data with e | reference
  · exact hk _
  have hcharge : ∀ data, Rest (spec W)
      (applyGatewayResult E A { reference := reference, data := data, credit := credit, now := q.now }
        fun r => k (r.map fun _ => ())) := fun data =>
    applyGatewayResult_rest (q := { reference := reference, data := data, credit := credit, now := q.now })
      hbilled fun _ => hk _
  dsimp only
  split_ifs
  · refine Rest.read fun db _ => ?_
    split_ifs
    · exact hcharge _
    · refine Rest.read fun db' _ => ?_
      split_ifs
      · exact applyTicketResult_rest fun _ => hk _
      · exact hk _
  · refine Rest.read fun db _ => ?_
    split_ifs
    · exact hcharge _
    · exact hk _
  · exact hrefund
  · exact webhookDispute_rest hk
  · exact hk _

/-! ### Checkout and housekeeping -/

/-- No refunds of a payment that is not there. -/
theorem Books.sum_absent {reference : String} {db : Database} (hb : Books W db) (hW : W.asking ∨ W.settling)
    (hp : db.row (.payment reference) = none) (c : RefundStatus → Bool) : refundSum c db reference = 0 := by
  have hle : ∀ x, db.weight (amountOf c reference) x ≤ (Db.empty : Database).weight (amountOf c reference) x := fun x => by
    refine Nat.le_zero.mpr ?_
    unfold Db.weight
    rcases hr : db.row x with _ | r
    · rfl
    cases x with
    | refund id =>
      have hne : r.payment ≠ reference := fun h => hb.absent hW id r hr (h ▸ hp)
      simp [amountOf, hne]
    | _ => rfl
  exact Nat.le_zero.mp (Db.total_le hle)

/-- A payment that has no refunds adds to the books. -/
theorem Books.of_new {reference : String} {p' : PaymentRow} {db db' : Database} (hb : Books W db)
    (hp : db.row (.payment reference) = none) (hp' : db'.row (.payment reference) = some p')
    (hzero : p'.refundedAmount = 0) (hother : ∀ r, r ≠ reference → db'.row (.payment r) = db.row (.payment r))
    (hrefund : ∀ id, db'.row (.refund id) = db.row (.refund id)) : Books W db' := by
  have hsum : ∀ r, processedSum db' r = processedSum db r := fun _ => refundSum_congr hrefund
  have hnone : W.asking ∨ W.settling → processedSum db reference = 0 := fun hW => hb.sum_absent hW hp _
  refine ⟨fun hW r p hr => ?_, fun hW r p hr => ?_, fun hW id x hx => ?_⟩
  · rw [hsum]
    by_cases h : r = reference
    · subst h
      rw [hnone (Or.inl hW)]
      exact Nat.zero_le _
    · exact hb.covered hW r p ((hother r h).symm.trans hr)
  · rw [hsum]
    by_cases h : r = reference
    · subst h
      obtain rfl := Option.some.inj (hp'.symm.trans hr)
      rw [hnone (Or.inr hW), hzero]
    · exact hb.exact hW r p ((hother r h).symm.trans hr)
  · have hne := hb.absent hW id x ((hrefund id).symm.trans hx)
    by_cases h : x.payment = reference
    · rw [h, hp']
      simp
    · rw [hother _ h]
      exact hne

/-- The gateway is asked about a payment that is recorded. -/
theorem askGateway_ok {q : InitiateCall} {k : Except Failure String → Program} {row : PaymentRow}
    (hopening : W.opening) (hrow : row.status = .INITIALIZED) (hzero : row.refundedAmount = 0)
    (hk : ∀ r, Rest (spec W) (k r)) {db : Database} {own : List Key} {w : Writes Row}
    (hown : .payment q.reference ∈ own) (hnone : db.row (.payment q.reference) = none)
    (hpayment : ∀ db' : Database, (db'.apply w).row (.payment q.reference) = some row)
    (hother : ∀ db' : Database, ∀ x, isWatched x = true → x ≠ .payment q.reference →
      (db'.apply w).row x = db'.row x) : Ok (spec W) (askGateway q k) db own w log := by
  have hcommit : ∀ next, (∀ db', db'.row (.payment q.reference) = some row → Ok (spec W) next db' [] [] log) →
      Ok (spec W) (.commit next) db own w log := by
    intro next hnext db₁ h₁
    have hp₁ : db₁.row (.payment q.reference) = none := (h₁.held _ hown).trans hnone
    have hne : ∀ r, r ≠ q.reference → (db₁.apply w).row (.payment r) = db₁.row (.payment r) := fun r hr =>
      hother db₁ _ rfl (by simpa using hr)
    have hcommitted : ∀ log', Committed W own log' db₁ (db₁.apply w) := fun log' => by
      refine ⟨fun r => ?_, fun r => .of_open (fun p' hp' hc => ?_) fun pk => hother db₁ _ rfl (by simp),
        fun id => .same (hother db₁ _ rfl (by simp)), fun e => hother db₁ _ rfl (by simp), "", fun _ _ => hother db₁ _ rfl (by simp)⟩
      · by_cases hr : r = q.reference
        · subst hr
          rw [hp₁, hpayment db₁]
          exact ⟨hopening, hrow⟩
        · exact .same (hne r hr)
      · by_cases hr : r = q.reference
        · subst hr
          obtain rfl := Option.some.inj ((hpayment db₁).symm.trans hp')
          rw [hrow] at hc
          simp [Closed] at hc
        · exact ⟨p', (hne r hr).symm.trans hp', hc⟩
    refine ⟨?_, hcommitted _, hnext _ (hpayment db₁)⟩
    exact Books.of_new h₁.inv hp₁ (hpayment db₁) hzero hne fun id => hother db₁ _ rfl (by simp)
  unfold askGateway
  rcases q.answer with e | page
  · -- refused: nobody has paid meanwhile
    refine hcommit _ fun db₁ hrow₁ => ⟨trivial, ?_⟩
    refine Ok.update spec_sound (fun db₂ p h₂ hp _ => ?_) fun db₂ _ _ => (hk _).commit spec_quiet .nil
    have hp₂ : db₂.row (.payment q.reference) = some p := by simpa using hp
    refine commit_saved (hk _) (by simp) hp₂ (Saves.nil hp₂).put ⟨rfl, rfl, rfl, rfl, rfl, rfl, rfl⟩ (fun hW => ?_)
      (fun h => h) rfl ?_
    · have hunpaid := h₂.rely.refused hW q.reference (by simp) (fun p₁ hp₁ => ?_) p hp₂
      · rcases hunpaid with h | h | h | h
        · exact Or.inr (by rw [h]; simp [refusedPayment, ALLOWED_TRANSITIONS])
        · exact Or.inr (by rw [h]; simp [refusedPayment, ALLOWED_TRANSITIONS])
        · exact Or.inr (by rw [h]; simp [refusedPayment, ALLOWED_TRANSITIONS])
        · exact Or.inl h.symm
      · obtain rfl := Option.some.inj (hrow₁.symm.trans hp₁)
        exact Or.inl hrow
    · intro hc
      simp [Closed, refusedPayment] at hc
  · refine hcommit _ fun db₁ hrow₁ => ?_
    have hthere : ∀ db₂, Stable (spec W) [] log db₁ db₂ → ∃ p, db₂.row (.payment q.reference) = some p :=
      fun db₂ h₂ => (h₂.rely.kept _ _ hrow₁).imp fun _ h => h.1
    refine Ok.update spec_sound (fun db₂ p h₂ hp _ => ?_) fun db₂ h₂ hno => ?_
    swap
    · obtain ⟨p, hp⟩ := hthere db₂ h₂
      exact absurd (hno p hp) (by simp)
    have hp₂ : db₂.row (.payment q.reference) = some p := by simpa using hp
    intro db₃ h₃
    have hp₃ : db₃.row (.payment q.reference) = some p := (h₃.held _ (by simp)).trans hp₂
    have hview : (db₃.apply [⟨.payment q.reference, some (withCheckout page p)⟩]).row (.payment q.reference) =
        some (withCheckout page p) := by simp
    dsimp only
    rw [hview]
    exact saveTransition_rest (hk _) (by simp [Closed]) (by simp) hp₃ (Saves.nil hp₃).put ⟨⟨rfl, rfl, rfl, rfl, rfl, rfl, rfl⟩, rfl, fun h => h, rfl⟩

/-- The checkout of a key that was taken meanwhile. -/
theorem keyTaken_rest {q : InitiateCall} {k : Except Failure String → Program} (hk : ∀ r, Rest (spec W) (k r))
    {db' : Database} {own : List Key} {w : Writes Row} {log : List Note} :
    Ok (spec W) (.rollback <| .read fun db =>
      match db.row (.paymentKey q.idempotencyKey) with
      | some reference => k (.ok reference)
      | none => k (.error (.crash "IntegrityError"))) db' own w log :=
  Rest.rollback <| Rest.read fun db _ => by
    rcases db.row (.paymentKey q.idempotencyKey) with _ | reference
    · exact hk _
    · exact hk _

/-- **A checkout** keeps the spec. -/
theorem initiateVotePayment_rest {q : InitiateCall} {k : Except Failure String → Program} (hopening : W.opening)
    (hk : ∀ r, Rest (spec W) (k r)) : Rest (spec W) (initiateVotePayment E q k) := by
  have hrecord : ∀ row : PaymentRow, row.status = .INITIALIZED → row.refundedAmount = 0 →
      Rest (spec W) (recordPayment q row k) := by
    intro row hrow hzero db log
    refine Ok.insertOr (fun db₁ h₁ hfree => ?_) fun db₁ _ => keyTaken_rest hk
    have hfree₁ : db₁.row (.payment q.reference) = none := by simpa using hfree
    split_ifs
    · exact askGateway_ok hopening hrow hzero hk (by simp) hfree₁ (fun db' => by simp) fun db' x _ hx => by simp [hx]
    · refine Ok.insertOr (fun db₂ h₂ _ => ?_) fun db₂ _ => keyTaken_rest hk
      have hfree₂ : db₂.row (.payment q.reference) = none := (h₂.held _ (by simp)).trans hfree₁
      refine askGateway_ok hopening hrow hzero hk (by simp) hfree₂ (fun db' => by simp) fun db' x hx hne => ?_
      have hkey : x ≠ .paymentKey q.idempotencyKey := fun h => by
        rw [h] at hx
        cases hx
      simp [hkey, hne]
  refine Rest.read fun db _ => ?_
  rcases db.row (.event q.event) with _ | ev
  · exact hk _
  rcases db.row (.candidate q.candidate) with _ | c
  · exact hk _
  dsimp only
  by_cases hconf : (!q.configured) = true
  · rw [if_pos hconf]
    exact hk _
  rw [if_neg hconf]
  refine Rest.read fun db₁ _ => ?_
  rcases (if q.idempotencyKey = "" then none else db₁.row (.paymentKey q.idempotencyKey)) with _ | reference
  · refine Rest.read fun db₂ _ => ?_
    rcases (quote E db₂ q.event ev _ _ _).errors with _ | ⟨e, es⟩
    · dsimp only
      split_ifs
      · exact hk _
      · exact hk _
      · exact hrecord _ rfl rfl
    · exact hk _
  · dsimp only
    rcases db₁.row (.payment reference) with _ | p
    · exact hk _
    · dsimp only
      split_ifs
      · exact hk _
      · exact hk _

/-- **An expiry** keeps the spec. -/
theorem expirePayment_rest {q : GatewayCall} {answer : Option (List (String × Json))} {now : Time}
    {k : Except Failure Unit → Program} (hbilled : Billed E A) (hk : ∀ r, Rest (spec W) (k r)) :
    Rest (spec W) (expirePayment E A q answer now k) := by
  refine verifyAndApply_rest hbilled fun r => ?_
  rcases r with e | v
  · exact hk _
  refine Rest.read fun db _ => ?_
  rcases db.row (.payment q.reference) with _ | p
  · exact hk _
  dsimp only
  split_ifs
  · intro db₀ log
    refine Ok.lockRow (fun db₁ locked h₁ hp => ?_) fun db₁ _ => (hk _).rollback
    have hp₁ : db₁.row (.payment q.reference) = some locked := by simpa using hp
    exact saveTransition_rest (hk _) (by simp [Closed]) (by simp) hp₁ (.nil hp₁) (.refl locked)
  · exact hk _

/-- **Reconciliation** of what the gateway lists keeps the spec. -/
theorem reconcileListed_rest {q : GatewayCall} {k : Except Failure Unit → Program} (hbilled : Billed E A)
    (hk : ∀ r, Rest (spec W) (k r)) : Rest (spec W) (reconcileListed E A q k) := by
  refine Rest.read fun db _ => ?_
  rcases db.row (.payment q.reference) with _ | p
  · refine Rest.read fun db₁ _ => ?_
    rcases db₁.row (.purchase q.reference) with _ | t
    · exact hk _
    · dsimp only
      split_ifs
      · exact applyTicketResult_rest fun _ => hk _
      · exact hk _
  · dsimp only
    split_ifs
    · exact applyGatewayResult_rest hbilled fun _ => hk _
    · exact hk _

end Ok

end Runs
end FlexyVotes
