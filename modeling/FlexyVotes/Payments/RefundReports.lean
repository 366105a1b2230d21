/-
# Which refund a report is about

The gateway's report of a refund names the payment, and the code takes the
latest refund of it that is neither processed nor rejected, whichever refund the
gateway means and whether it was ever submitted. So the reports hit the right
refund exactly where that one is the gateway's (`Addressed`).

Key definitions: `RefundReport`, `Hits`, `Addressed`.
Key theorems: `completeRefund_after`, `reports_hit`.
-/
import FlexyVotes.Payments.RefundLimits

namespace FlexyVotes
namespace RefundReports

open Transactions Audit Payments Transitions Reversals RefundLimits

/-- A report about the refund the gateway knows as `gateway`. -/
structure RefundReport where
  call : WebhookCall
  gateway : String
  named : gateway ≠ ""

/-- The database after the report. -/
def RefundReport.after (E : Env) (q : RefundReport) (db : Database) : Database :=
  (webhookRefund E q.call fun _ => .halt).after db

/-- **The report hits the right refund**: only the refund of the gateway's
changes, and the totals by its amount; none that was never submitted is
processed or failed. -/
structure Hits (gateway : String) (db db' : Database) : Prop where
  only : ∀ id r, db.row (.refund id) = some r → r.gatewayRefundId ≠ gateway → db'.row (.refund id) = some r
  totals : ∀ reference p, db.row (.payment reference) = some p → ∃ p', db'.row (.payment reference) = some p' ∧
    (p'.refundedAmount = p.refundedAmount ∨ ∃ id r r', db.row (.refund id) = some r ∧ r.gatewayRefundId = gateway ∧
      r.payment = reference ∧ db'.row (.refund id) = some r' ∧ r'.status = .PROCESSED ∧
      p'.refundedAmount = p.refundedAmount + r.amount)
  submitted : ∀ id r r', db.row (.refund id) = some r → r.gatewayRefundId = "" → db'.row (.refund id) = some r' →
    r'.status = r.status

/-- Each report of the sequence hits. -/
def AllHit (E : Env) : Database → List RefundReport → Prop
  | _, [] => True
  | db, q :: qs => Hits q.gateway db (q.after E db) ∧ AllHit E (q.after E db) qs

/-- The refund that is looked up for the report. -/
def RefundReport.latest (E : Env) (q : RefundReport) (db : Database) : Option (String × RefundRow) :=
  match refundReference E q.call.data with
  | .error _ => none
  | .ok reference => (openRefunds db reference).head?

/-- The report has something to change in that refund. -/
def RefundReport.moves (E : Env) (q : RefundReport) (db : Database) (r : RefundRow) : Prop :=
  (q.call.eventType = "refund.processed" ∧ db.row (.payment r.payment) ≠ none) ∨
    (q.call.eventType = "refund.failed" ∧ failedRefund E q.call.data r ≠ r)

/-- The latest open refund of the payment is the one the gateway means, or stays
as it is. -/
def Addressed (E : Env) (q : RefundReport) (db : Database) : Prop :=
  ∀ id r, q.latest E db = some (id, r) → q.moves E db r → r.gatewayRefundId = q.gateway

/-- Each report of the sequence is addressed. -/
def AllAddressed (E : Env) : Database → List RefundReport → Prop
  | _, [] => True
  | db, q :: qs => Addressed E q db ∧ AllAddressed E (q.after E db) qs

/-! ### A report alone -/

section Report

variable {E : Env} {db : Database} {id reference : String} {r : RefundRow} {p : PaymentRow}

/-- What is open is a refund of the payment that is not processed. -/
theorem mem_openRefunds (h : (id, r) ∈ openRefunds db reference) :
    db.row (.refund id) = some r ∧ r.payment = reference ∧ r.status ≠ .PROCESSED := by
  unfold openRefunds at h
  rw [List.mem_insertionSort, Db.mem_collect] at h
  obtain ⟨x, v, hv, hx⟩ := h
  cases x with
  | refund id' =>
    dsimp only at hx
    split_ifs at hx with hc
    obtain ⟨rfl, rfl⟩ := Prod.mk.inj (Option.some.inj hx)
    exact ⟨hv, hc.1, hc.2.1⟩
  | _ => cases hx

/-- The refund `id` is completed: its row, and what its payment has refunded. -/
structure Completed (id : String) (r : RefundRow) (p : PaymentRow) (now : Time) (db db' : Database) : Prop where
  refund : db'.row (.refund id) = some (processed r now)
  payment : ∃ p', db'.row (.payment r.payment) = some p' ∧ p'.refundedAmount = p.refundedAmount + r.amount
  otherRefunds : ∀ id', id' ≠ id → db'.row (.refund id') = db.row (.refund id')
  otherPayments : ∀ reference, reference ≠ r.payment → db'.row (.payment reference) = db.row (.payment reference)

theorem Completed.congr {now : Time} {db' db'' : Database} (h : Completed id r p now db db')
    (hrefunds : ∀ id', db''.row (.refund id') = db'.row (.refund id'))
    (hpayments : ∀ reference, db''.row (.payment reference) = db'.row (.payment reference)) :
    Completed id r p now db db'' := by
  refine ⟨(hrefunds id).trans h.refund, ?_, fun id' hid => (hrefunds id').trans (h.otherRefunds id' hid),
    fun r' hr => (hpayments r').trans (h.otherPayments r' hr)⟩
  rw [hpayments]
  exact h.payment

theorem transition_refundedAmount (p : PaymentRow) (target : PaymentStatus) (now : Time) :
    (transition p target now).refundedAmount = p.refundedAmount := by
  unfold transition
  split_ifs <;> rfl

/-- The payment once the refund is completed. -/
def settled (p : PaymentRow) (r : RefundRow) (now : Time) : PaymentRow :=
  transition (refunded p r.amount) (refundTarget (refunded p r.amount)) now

/-- What a completion makes of the rows: the refund and its payment are saved,
and the counted rows of the ledger reversed where that was asked for. -/
def settledRow (db : Database) (id : String) (r : RefundRow) (p : PaymentRow) (now : ℕ → Time) (x : Key) : Option (Row x) :=
  (((db.set (.refund id) (some (processed r (now 0)))).set (.payment r.payment) (some (settled p r (now 1)))).row x).map
    fun v => if r.reverseVotes then updated (countedOf r.payment) reverse x v else v

/-- **The completion of a refund**, alone, but for the audit log. -/
theorem completeRefund_row {now : ℕ → Time} (hr : db.row (.refund id) = some r) (hopen : r.status ≠ .PROCESSED)
    (hp : db.row (.payment r.payment) = some p) {x : Key} (hx : isAudit x = false) :
    ((completeRefund .commit (failing fun _ : Except Failure Unit => .halt) E id now .halt).after db).row x =
      settledRow db id r p now x := by
  have hr₀ : (db.apply []).row (.refund id) = some r := hr
  have hp₀ : (db.apply []).row (.payment r.payment) = some p := hp
  unfold Prog.after completeRefund
  rw [Prog.exec_lockRow hr₀]
  dsimp only
  rw [if_neg hopen, Prog.exec_lockRow hp₀]
  dsimp only
  rw [Prog.exec_put, Prog.exec_put]
  -- the writes, after the transition
  have hdone : ∀ (w : Writes Row) (rest : Program), rest.Only isAudit →
      (∀ x, (db.apply w).row x = ((db.set (.refund id) (some (processed r (now 0)))).set (.payment r.payment)
        (some (settled p r (now 1)))).row x) →
      ((if r.reverseVotes = true then reverseVotes r.payment (.commit rest)
        else .commit rest : Program).exec db w []).db.row x = settledRow db id r p now x := by
    intro w rest hrest hview
    have hrows : ∀ w' : Writes Row, ((Prog.commit rest : Program).exec db w' []).db.row x = (db.apply w').row x := fun w' =>
      hrest.exec_row .nil hx
    unfold settledRow
    by_cases hreverse : r.reverseVotes = true
    · rw [if_pos hreverse]
      obtain ⟨u, hu, hmap⟩ : ∃ u : Writes Row, (reverseVotes r.payment (.commit rest)).exec db w [] =
          (Prog.commit rest : Program).exec db u [] ∧ _ := Prog.exec_updateWhere
      rw [hu, hrows u, hmap, hview]
      simp only [if_pos hreverse]
    · rw [if_neg hreverse, hrows w, hview]
      simp [hreverse]
  have hrest : (recordRefund E (fun o => refundEntry "REFUND_PROCESSED" none none p.event o id
      ("Refund " ++ money r.amount ++ " processed") "" (now 2)) p.event
      (failing (fun _ : Except Failure Unit => .halt) (.crash "DatabaseError")) (.commit .halt)).Only isAudit :=
    fun _ => record_only trivial trivial
  unfold saveTransition
  by_cases hc : changes (refunded p r.amount) (refundTarget (refunded p r.amount)) = true
  · rw [if_pos hc, Prog.exec_put]
    refine hdone _ _ hrest fun y => ?_
    rw [Db.apply_cons, Db.apply_cons, Db.apply_cons, Db.apply_nil]
    unfold settled
    by_cases hy : y = .payment r.payment
    · subst hy
      rw [Db.set_row_self, Db.set_row_self]
    · rw [Db.set_row_ne _ _ hy, Db.set_row_ne _ _ hy, Db.set_row_ne _ _ hy]
  · have hsame : settled p r (now 1) = refunded p r.amount := if_neg hc
    rw [if_neg hc]
    refine hdone _ _ hrest fun y => ?_
    rw [hsame]
    rfl

/-- What it does to refunds and to what is refunded. -/
theorem completeRefund_after {now : ℕ → Time} (hr : db.row (.refund id) = some r) (hopen : r.status ≠ .PROCESSED)
    (hp : db.row (.payment r.payment) = some p) : Completed id r p (now 0) db
      ((completeRefund .commit (failing fun _ : Except Failure Unit => .halt) E id now .halt).after db) := by
  have hkept : ∀ {x : Key} (v : Row x), countedOf r.payment x v = false →
      (if r.reverseVotes then updated (countedOf r.payment) reverse x v else v) = v := fun v hv => by
    split_ifs
    · simp [updated, hv]
    · rfl
  refine ⟨?_, ⟨settled p r (now 1), ?_, transition_refundedAmount _ _ _⟩, fun id' hid => ?_, fun r' hr' => ?_⟩
  · rw [completeRefund_row hr hopen hp rfl, settledRow, Db.set_row_ne _ _ (by simp), Db.set_row_self, Option.map_some,
      hkept _ rfl]
  · rw [completeRefund_row hr hopen hp rfl, settledRow, Db.set_row_self, Option.map_some, hkept _ rfl]
  · rw [completeRefund_row hr hopen hp rfl, settledRow, Db.set_row_ne _ _ (by simp), Db.set_row_ne _ _ (by simpa using hid)]
    rcases db.row (.refund id') with _ | v
    · rfl
    · rw [Option.map_some, hkept v rfl]
  · rw [completeRefund_row hr hopen hp rfl, settledRow, Db.set_row_ne _ _ (by simpa using hr'), Db.set_row_ne _ _ (by simp)]
    rcases db.row (.payment r') with _ | v
    · rfl
    · rw [Option.map_some, hkept v rfl]

/-- A report that changes nothing hits. -/
theorem Hits.refl (gateway : String) (db : Database) : Hits gateway db db := by
  refine ⟨fun _ _ hr _ => hr, fun _ p hp => ⟨p, hp, Or.inl rfl⟩, fun id r r' hr _ hr' => ?_⟩
  obtain rfl := Option.some.inj (hr.symm.trans hr')
  rfl

theorem Hits.congr {gateway : String} {db' db'' : Database} (h : Hits gateway db db') (hrow : ∀ x, db''.row x = db'.row x) :
    Hits gateway db db'' := by
  refine ⟨fun id r hr hne => (hrow _).trans (h.only id r hr hne), fun reference p hp => ?_, fun id r r' hr hempty hr' => ?_⟩
  · obtain ⟨p', hp', htotals⟩ := h.totals reference p hp
    refine ⟨p', (hrow _).trans hp', htotals.imp_right ?_⟩
    rintro ⟨id, r, r', hr, hmeant, hpayment, hr', hrest⟩
    exact ⟨id, r, r', hr, hmeant, hpayment, (hrow _).trans hr', hrest⟩
  · exact h.submitted id r r' hr hempty ((hrow _).symm.trans hr')

/-- A failure hits, if the refund is the one the gateway means. -/
theorem hits_failed {gateway : String} {r' : RefundRow} (hr : db.row (.refund id) = some r) (hnamed : gateway ≠ "")
    (hmeant : r.gatewayRefundId = gateway) : Hits gateway db (db.set (.refund id) (some r')) := by
  have hother : ∀ id' r₁, db.row (.refund id') = some r₁ → r₁.gatewayRefundId ≠ gateway →
      (db.set (.refund id) (some r')).row (.refund id') = some r₁ := by
    intro id' r₁ hr₁ hne
    have hid : id' ≠ id := by
      rintro rfl
      obtain rfl := Option.some.inj (hr.symm.trans hr₁)
      exact hne hmeant
    rw [Db.set_row_ne _ _ (by simpa using hid), hr₁]
  refine ⟨hother, fun reference p hp => ⟨p, ?_, Or.inl rfl⟩, fun id' r₁ r₂ hr₁ hempty hr₂ => ?_⟩
  · rw [Db.set_row_ne _ _ (by simp), hp]
  · have hsame := hother id' r₁ hr₁ fun heq => hnamed (heq.symm.trans hempty)
    obtain rfl := Option.some.inj (hsame.symm.trans hr₂)
    rfl

/-- A completion hits, if the refund is the one the gateway means. -/
theorem Completed.hits {now : Time} {db' : Database} {gateway : String} (h : Completed id r p now db db')
    (hr : db.row (.refund id) = some r) (hp : db.row (.payment r.payment) = some p) (hnamed : gateway ≠ "")
    (hmeant : r.gatewayRefundId = gateway) : Hits gateway db db' := by
  have hother : ∀ id' r₁, db.row (.refund id') = some r₁ → r₁.gatewayRefundId ≠ gateway →
      db'.row (.refund id') = some r₁ := by
    intro id' r₁ hr₁ hne
    have hid : id' ≠ id := by
      rintro rfl
      obtain rfl := Option.some.inj (hr.symm.trans hr₁)
      exact hne hmeant
    rw [h.otherRefunds id' hid, hr₁]
  refine ⟨hother, fun reference p₁ hp₁ => ?_, fun id' r₁ r' hr₁ hempty hr' => ?_⟩
  · by_cases hreference : reference = r.payment
    · subst hreference
      obtain rfl := Option.some.inj (hp.symm.trans hp₁)
      obtain ⟨p', hp', hamount⟩ := h.payment
      exact ⟨p', hp', Or.inr ⟨id, r, _, hr, hmeant, rfl, h.refund, rfl, hamount⟩⟩
    · exact ⟨p₁, (h.otherPayments _ hreference).trans hp₁, Or.inl rfl⟩
  · have hsame := hother id' r₁ hr₁ fun heq => hnamed (heq.symm.trans hempty)
    obtain rfl := Option.some.inj (hsame.symm.trans hr')
    rfl

/-- **A report hits** exactly where it is addressed. -/
theorem RefundReport.hits (E : Env) (q : RefundReport) (db : Database) :
    Hits q.gateway db (q.after E db) ↔ Addressed E q db := by
  have hstays : ∀ p : Program, p.after db = db → q.after E db = p.after db → Hits q.gateway db (q.after E db) :=
    fun p hp hq => by
      rw [hq, hp]
      exact .refl _ _
  have hafter : q.after E db = (webhookRefund E q.call fun _ => .halt).after db := rfl
  unfold webhookRefund at hafter
  rcases hreference : refundReference E q.call.data with e | reference
  · rw [hreference] at hafter
    refine ⟨fun _ id r hlatest => ?_, fun _ => hstays .halt rfl hafter⟩
    unfold latest at hlatest
    rw [hreference] at hlatest
    cases hlatest
  have hlatest : q.latest E db = (openRefunds db reference).head? := by
    unfold latest
    rw [hreference]
  rw [hreference] at hafter
  dsimp only at hafter
  unfold Prog.after at hafter
  rw [Prog.exec_read, Db.apply_nil] at hafter
  rcases hfound : (openRefunds db reference).head? with _ | ⟨id, r⟩
  · rw [hfound] at hafter hlatest
    refine ⟨fun _ id r hsome => ?_, fun _ => hstays .halt rfl hafter⟩
    rw [hlatest] at hsome
    cases hsome
  rw [hfound] at hafter hlatest
  dsimp only at hafter
  obtain ⟨hr, hpayment, hopen⟩ := mem_openRefunds (List.mem_of_head? hfound)
  subst hpayment
  have haddressed : Addressed E q db ↔ (q.moves E db r → r.gatewayRefundId = q.gateway) := by
    refine ⟨fun h => h id r hlatest, fun h id' r' hsome => ?_⟩
    rw [hlatest] at hsome
    obtain ⟨rfl, rfl⟩ := Prod.mk.inj (Option.some.inj hsome)
    exact h
  rw [haddressed]
  by_cases hprocessed : q.call.eventType = "refund.processed"
  · rw [if_pos hprocessed] at hafter
    rcases hp : db.row (.payment r.payment) with _ | p
    · -- no payment: the completion fails
      have hmoves : ¬ q.moves E db r := by
        rintro (⟨-, h⟩ | ⟨h, -⟩)
        · exact h hp
        · rw [hprocessed] at h
          exact absurd h (by decide)
      refine ⟨fun _ h => absurd h hmoves, fun _ => hstays .halt rfl ?_⟩
      have hr₀ : (db.apply []).row (.refund id) = some r := hr
      have hp₀ : (db.apply []).row (.payment r.payment) = none := hp
      unfold completeRefund at hafter
      rw [Prog.exec_lockRow hr₀] at hafter
      dsimp only at hafter
      rw [if_neg hopen, Prog.exec_lockRow_none hp₀] at hafter
      exact hafter
    have hdone : Completed id r p (q.call.now 0) db (q.after E db) := by
      rw [hafter]
      exact completeRefund_after hr hopen hp
    have hmoves : q.moves E db r := Or.inl ⟨hprocessed, by simp [hp]⟩
    refine ⟨fun h _ => ?_, fun h => hdone.hits hr hp q.named (h hmoves)⟩
    by_contra hne
    have hsame := h.only id r hr hne
    rw [hdone.refund] at hsame
    have hstatus : (processed r (q.call.now 0)).status = r.status := by rw [Option.some.inj hsame]
    exact hopen hstatus.symm
  rw [if_neg hprocessed] at hafter
  by_cases hfailed : q.call.eventType = "refund.failed"
  swap
  · rw [if_neg hfailed] at hafter
    refine ⟨fun _ h => ?_, fun _ => hstays .halt rfl hafter⟩
    rcases h with ⟨h, -⟩ | ⟨h, -⟩
    · exact absurd h hprocessed
    · exact absurd h hfailed
  rw [if_pos hfailed, Prog.exec_note] at hafter
  have hr₀ : (db.apply []).row (.refund id) = some r := hr
  rw [Prog.exec_update hr₀ rfl] at hafter
  have hafter : q.after E db = db.set (.refund id) (some (failedRefund E q.call.data r)) := hafter
  by_cases hsame : failedRefund E q.call.data r = r
  · -- the refund has failed so before
    refine ⟨fun _ h => ?_, fun _ => ?_⟩
    · rcases h with ⟨h, -⟩ | ⟨-, h⟩
      · exact absurd h hprocessed
      · exact absurd hsame h
    · rw [hafter, hsame]
      have hrow : ∀ x, (db.set (.refund id) (some r)).row x = db.row x := fun x => by
        by_cases hx : x = .refund id
        · subst hx
          rw [Db.set_row_self, hr]
        · rw [Db.set_row_ne _ _ hx]
      exact (Hits.refl q.gateway db).congr hrow
  have hmoves : q.moves E db r := Or.inr ⟨hfailed, hsame⟩
  refine ⟨fun h _ => ?_, fun h => ?_⟩
  · by_contra hne
    have hkept := h.only id r hr hne
    rw [hafter, Db.set_row_self] at hkept
    exact hsame (Option.some.inj hkept)
  · rw [hafter]
    exact hits_failed hr q.named (h hmoves)

end Report

/-- **The reports hit the right refunds**, in whatever order they come, exactly
where each finds the refund it is about the latest that is open. -/
theorem reports_hit (E : Env) : ∀ (qs : List RefundReport) (db : Database), AllHit E db qs ↔ AllAddressed E db qs
  | [], _ => Iff.rfl
  | q :: qs, db => and_congr (q.hits E db) (reports_hit E qs (q.after E db))

/-! ### A report that finds another refund -/

/-- A payment with a refund the gateway is processing, and a later one that
nobody has approved. -/
def twoRefunds : Database :=
  (counted.set (.refund "a") (some { (ask "a" 50).row with
    status := .PROCESSING, gatewayRefundId := "g", requestedAt := 1 })).set
    (.refund "b") (some { (ask "b" 50).row with requestedAt := 2 })

/-- The gateway has processed its refund "g". -/
def processedAtGateway : RefundReport where
  call := { eventType := "refund.processed", data := [("transaction_reference", .str "ref")], now := fun _ => 5 }
  gateway := "g"
  named := by decide

/-- The refund that was never submitted is processed. -/
theorem not_reports_hit : ¬ ∀ (E : Env) (db : Database) (qs : List RefundReport), AllHit E db qs := by
  intro h
  obtain ⟨hhits, -⟩ := h .plain twoRefunds [processedAtGateway]
  have hb : twoRefunds.row (.refund "b") = some { (ask "b" 50).row with requestedAt := 2 } := by decide +kernel
  have hb' : ((processedAtGateway.after .plain twoRefunds).row (.refund "b")).map (·.status) = some .PROCESSED := by
    decide +kernel
  obtain ⟨r', hr', hstatus⟩ := Option.map_eq_some_iff.mp hb'
  have hsame := hhits.submitted "b" _ r' hb rfl hr'
  rw [hstatus] at hsame
  cases hsame

end RefundReports
end FlexyVotes
