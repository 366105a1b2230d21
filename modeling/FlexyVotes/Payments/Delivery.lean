/-
# The delivery of paid tickets

A success report settles a purchase that is `Pending` if its amount is the price
of the ticket times the quantity, at the price the ticket has when the report is
processed. What was charged is the price when the purchase was started. So a
purchase that is paid for is not delivered where the price has been edited
meanwhile, where the purchase has expired or failed, and where it is gone with its
ticket (`Deliverable` says when it is); what is delivered stays so, since a ticket
with sales is hidden and not deleted.

The calls run one after the other, in any order.

Key definitions: `deleteTicket`, `Delivered`, `Deliverable`, `Paid`.
Key theorems: `Call.keeps`, `reported_iff`, `paid_delivered`.
-/
import FlexyVotes.Elections.Lifecycle
import FlexyVotes.Payments.Transitions
import FlexyVotes.Payments.Assessments

namespace FlexyVotes
namespace Delivery

open Transactions Audit Payments Lifecycle Tickets Runs

/-! ### Deleting a ticket -/

/-- One call of `delete_ticket`. -/
structure DeleteTicket where
  ticket : ℕ
  request : Request
  now : Time

def DeleteTicket.entry (q : DeleteTicket) (t : TicketRow) (organization : Option ℕ) : Entry where
  eventType := "TICKET_TYPE_DELETED"
  request := some q.request
  event := some (t.event, organization)
  targetType := "voting.Ticket"
  targetId := toString q.ticket
  summary := "Ticket \"" ++ t.name ++ "\" deleted"
  createdAt := q.now

/-- `ticket.purchases.filter(status='Success')`. -/
def soldOf (ticket : ℕ) : (k : Key) → Row k → Bool
  | .purchase _ => fun r => r.ticket = ticket && r.status = .Success
  | _ => fun _ => false

/-- `ticket.purchases`. -/
def purchasesOf (ticket : ℕ) : (k : Key) → Row k → Bool
  | .purchase _ => fun r => r.ticket = ticket
  | _ => fun _ => false

/-- The ticket is no longer on sale. -/
def hidden (t : TicketRow) : TicketRow := { t with isActive := false }

/-- `delete_ticket`: the purchases are deleted with the ticket. -/
def deleteTicket (E : Env) (q : DeleteTicket) (k : Except Failure Unit → Program) : Program :=
  .read fun db =>
    match db.row (.ticket q.ticket) with
    | none => k (.error (.crash "Http404"))
    | some t =>
      if !permitted q.request.user "ticket.manage" t.event then k (.error .permission)
      else
        .read fun db =>
          if db.select (soldOf q.ticket) ≠ [] then
            .update (.ticket q.ticket) (fun _ => true) hidden fun
              | true => .commit (k (.ok ()))
              | false => .rollback (k (.error (.crash "DatabaseError")))
          else
            recordNow E (q.entry t (organizationOf db (some t.event))) (k (.error (.crash "DatabaseError"))) <|
            .deleteWhere (purchasesOf q.ticket) <|
            .lockRow (.ticket q.ticket) fun
              | none => .commit (k (.ok ()))
              | some _ => .put (.ticket q.ticket) none <| .commit (k (.ok ()))

/-- A call about tickets, or the deletion of one. -/
inductive Call
  | ticket (c : Tickets.Call)
  | deleteTicket (q : DeleteTicket)

def Call.prog (E : Env) (A : Adapters) : Call → Program
  | .ticket c => c.prog E A
  | .deleteTicket q => Delivery.deleteTicket E q fun _ => .halt

/-! ### What a payment leaves alone -/

/-- Rows that are neither tickets nor purchases. -/
def isAside : Key → Bool
  | .ticket _ => false
  | .purchase _ => false
  | _ => true

theorem isAside_of_audit {x : Key} (hx : isAudit x = true) : isAside x = true := by
  cases x <;> first
    | rfl
    | cases hx

theorem isAside_of_report {reference : String} {x : Key} (hx : Assessments.isReport reference x = true) :
    isAside x = true := by
  cases x <;> first
    | rfl
    | cases hx

/-- **A payment's report** leaves tickets and purchases alone. -/
theorem report_apart {E : Env} {A : Adapters} {q : GatewayCall} {k : Except Failure (Option PaymentRow) → Program}
    (hbilled : Billed E A) :
    (applyGatewayResult E A q k).Apart isAside (fun _ => true) fun p => ∃ r, p = k r :=
  (Assessments.applyGatewayResult_apart hbilled).mono (fun _ hx => isAside_of_report hx) (fun _ hx => hx) fun _ hq => .out hq

/-! ### What is delivered stays -/

/-- The purchase exists and is in status `Success`. -/
def Delivered (reference : String) (db : Database) : Prop :=
  ∃ p, db.row (.purchase reference) = some p ∧ p.status = .Success

section Keeps

variable {E : Env} {A : Adapters} {reference : String} {v : Database}

theorem Delivered.set {k : Key} {r : Option (Row k)} (hk : k ≠ .purchase reference) (h : Delivered reference v) :
    Delivered reference (v.set k r) := by
  obtain ⟨p, hp, hs⟩ := h
  exact ⟨p, (Db.set_row_ne _ _ hk.symm).trans hp, hs⟩

theorem ignores_aside : Ignores (Preserves (Delivered reference)) isAside := fun v k r hk h =>
  h.set fun heq => by
    rw [heq] at hk
    cases hk

/-- A purchase that is not there, or not delivered, is another one. -/
theorem Delivered.ne {reference' : String} (h : Delivered reference v)
    (hno : ∀ p, v.row (.purchase reference') = some p → p.status ≠ .Success) : Key.purchase reference' ≠ .purchase reference := by
  obtain ⟨p, hp, hs⟩ := h
  intro heq
  obtain rfl := Key.purchase.inj heq
  exact hno p hp hs

theorem commits_keeps {k : Program} (hk : k.KeepsAll (Preserves (Delivered reference))) :
    (Prog.commit k).KeepsAll (Preserves (Delivered reference)) := fun v => .commit Preserves.trans .refl (hk v)

/-- A purchase that was just recorded is given up. -/
theorem failPurchase_keeps {reference' : String} {k : Program} (hne : Key.purchase reference' ≠ .purchase reference)
    (hk : k.KeepsAll (Preserves (Delivered reference))) :
    (failPurchase reference' k).KeepsAll (Preserves (Delivered reference)) := fun _ =>
  .update Preserves.trans (fun _ _ _ h => h.set hne) (fun _ _ _ => commits_keeps hk _) (commits_keeps hk _)

theorem reserve_keeps {ticket : ℕ} {reference' : String} {row : PurchaseRow} {soldOut k : Program}
    {fail : Failure → Program} (hsold : soldOut.KeepsAll (Preserves (Delivered reference)))
    (hfail : ∀ e, (fail e).KeepsAll (Preserves (Delivered reference)))
    (hk : Key.purchase reference' ≠ .purchase reference → k.KeepsAll (Preserves (Delivered reference))) :
    (reserve ticket reference' row soldOut fail k).KeepsAll (Preserves (Delivered reference)) := by
  intro v
  refine .given fun hv => ?_
  refine .lockRow (fun _ => .rollback .refl (hfail _)) fun locked _ => .read ?_
  split
  · exact commits_keeps hsold v
  have hfree : v.row (.purchase reference') = none → Key.purchase reference' ≠ .purchase reference := fun hnone =>
    hv.ne fun p hp => by
      rw [hnone] at hp
      cases hp
  exact .insertOr Preserves.trans (fun hnone h => h.set (hfree hnone)) (fun hnone => commits_keeps (hk (hfree hnone)) _)
    (.rollback .refl (hfail _))

theorem buyTicket_keeps {q : BuyRequest} {k : Except Failure Reply → Program}
    (hk : ∀ r, (k r).KeepsAll (Preserves (Delivered reference))) :
    (buyTicket E q k).KeepsAll (Preserves (Delivered reference)) := by
  intro v
  refine .read ?_
  rcases v.row (.ticket q.ticket) with _ | t
  · exact hk _ v
  dsimp only
  split
  · exact hk _ v
  rcases q.order E with text | quantity
  · exact hk _ v
  dsimp only
  split
  · exact hk _ v
  refine reserve_keeps (hk _) (fun _ => hk _) (fun hne v => .note ?_) v
  rcases q.refused with _ | e
  · exact hk _ v
  · exact failPurchase_keeps hne (hk _) v

theorem ussdOrder_keeps {q : UssdRequest} {event : ℕ × EventRow} {t : ℕ × TicketRow}
    {k : Except Failure Reply → Program} (hk : ∀ r, (k r).KeepsAll (Preserves (Delivered reference))) :
    (ussdOrder E q event t k).KeepsAll (Preserves (Delivered reference)) := by
  intro v
  unfold ussdOrder
  dsimp only
  rcases q.inputs.drop 3 with _ | ⟨raw, rest⟩
  · exact hk _ v
  dsimp only
  rcases E.parseInt raw with _ | n
  · exact hk _ v
  dsimp only
  split
  · exact hk _ v
  rcases rest with _ | ⟨name, _ | ⟨confirm, _⟩⟩
  · exact hk _ v
  · exact hk _ v
  dsimp only
  split
  · exact hk _ v
  split
  · exact hk _ v
  refine reserve_keeps (hk _) (fun _ => hk _) (fun hne v => .note ?_) v
  split
  · exact failPurchase_keeps hne (hk _) v
  · exact hk _ v

theorem ussdTicket_keeps {q : UssdRequest} {k : Except Failure Reply → Program}
    (hk : ∀ r, (k r).KeepsAll (Preserves (Delivered reference))) :
    (ussdTicket E q k).KeepsAll (Preserves (Delivered reference)) := by
  intro v
  refine .read ?_
  dsimp only
  rcases q.inputs.drop 1 with _ | ⟨raw, rest⟩
  · exact hk _ v
  dsimp only
  rcases (E.parseInt raw).bind _ with _ | event
  · exact hk _ v
  refine .read ?_
  rcases rest with _ | ⟨raw, _⟩
  · exact hk _ v
  dsimp only
  rcases (E.parseInt raw).bind _ with _ | t
  · exact hk _ v
  · exact ussdOrder_keeps hk v

/-- A result changes a `Pending` purchase only. -/
theorem applyTicketResult_keeps {reference' : String} {data : List (String × Json)}
    {k : Except Failure (Option PurchaseRow) → Program}
    (hk : ∀ r, (k r).KeepsAll (Preserves (Delivered reference))) :
    (applyTicketResult E reference' data k).KeepsAll (Preserves (Delivered reference)) := by
  intro v
  refine .given fun hv => ?_
  refine .lockRow (fun _ => commits_keeps (hk _) v) fun p hp => .lockRow (fun _ => commits_keeps (hk _) v) fun t _ => ?_
  dsimp only
  by_cases hpending : p.status ≠ .Pending
  · rw [if_pos hpending]
    exact commits_keeps (hk _) v
  rw [if_neg hpending]
  have hne : Key.purchase reference' ≠ .purchase reference := hv.ne fun p' hp' hs => by
    obtain rfl := Option.some.inj (hp.symm.trans hp')
    rw [hs] at hpending
    exact hpending (by decide)
  have hsave : ∀ status : PurchaseStatus, (Prog.put (.purchase reference') (some { p with status := status }) <|
      .commit (k (.ok (some { p with status := status }))) : Program).Keeps (Preserves (Delivered reference)) v :=
    fun _ => .put Preserves.trans (fun h => h.set hne) (commits_keeps (hk _) _)
  rcases gatewayStatus E data with e | status
  · exact .rollback .refl (hk _)
  dsimp only
  split_ifs
  · rcases amountOf E data with e | amount
    · exact .rollback .refl (hk _)
    dsimp only
    split
    · exact commits_keeps (hk _) v
    · exact hsave _
  · exact hsave _
  · exact commits_keeps (hk _) v

theorem verifyAndApply_keeps {q : GatewayCall} {answer : Option (List (String × Json))}
    {k : Except Failure Verified → Program} (hbilled : Billed E A)
    (hk : ∀ r, (k r).KeepsAll (Preserves (Delivered reference))) :
    (verifyAndApply E A q answer k).KeepsAll (Preserves (Delivered reference)) := by
  intro v
  unfold verifyAndApply
  rcases answer with _ | data
  · exact hk _ v
  refine .read ?_
  split
  · refine (report_apart (q := { q with data := data }) hbilled).keepsAll .refl Preserves.trans ignores_aside ?_ v
    rintro p ⟨r, rfl⟩
    exact hk _
  refine .read ?_
  split
  · exact applyTicketResult_keeps (fun _ => hk _) v
  · exact hk _ v

theorem expirePurchase_keeps {q : GatewayCall} {answer : Option (List (String × Json))}
    {k : Except Failure Unit → Program} (hbilled : Billed E A)
    (hk : ∀ r, (k r).KeepsAll (Preserves (Delivered reference))) :
    (expirePurchase E A q answer k).KeepsAll (Preserves (Delivered reference)) := by
  refine verifyAndApply_keeps hbilled fun r => ?_
  rcases r with e | r
  · exact hk _
  intro v
  refine .given fun hv => ?_
  have hne : ∀ p, v.row (.purchase q.reference) = some p → decide (p.status = .Pending) = true →
      Key.purchase q.reference ≠ .purchase reference := fun p hp hpending => hv.ne fun p' hp' hs => by
    obtain rfl := Option.some.inj (hp.symm.trans hp')
    rw [hs] at hpending
    exact absurd hpending (by decide)
  exact .update Preserves.trans (fun p hp hpending h => h.set (hne p hp hpending))
    (fun _ _ _ => commits_keeps (hk _) _) (commits_keeps (hk _) v)

theorem editTicket_keeps {q : EditTicket} {k : Program} (hk : k.KeepsAll (Preserves (Delivered reference))) :
    (editTicket E q k).KeepsAll (Preserves (Delivered reference)) := by
  intro v
  refine .read ?_
  rcases v.row (.ticket q.ticket) with _ | t
  · exact hk v
  exact .update Preserves.trans (fun _ _ _ h => h.set (by simp)) (fun _ _ _ => commits_keeps hk _) (commits_keeps hk v)

/-- A ticket that was sold is not deleted. -/
theorem Delivered.unsold {ticket : ℕ} (h : Delivered reference v) (hnone : v.select (soldOf ticket) = [])
    {p : PurchaseRow} (hp : v.row (.purchase reference) = some p) : p.ticket ≠ ticket := by
  obtain ⟨p', hp', hs⟩ := h
  obtain rfl := Option.some.inj (hp.symm.trans hp')
  intro heq
  have hmem : Key.purchase reference ∈ v.select (soldOf ticket) :=
    (v.mem_select _ _).mpr ⟨p, hp, by simp [soldOf, heq, hs]⟩
  rw [hnone] at hmem
  cases hmem

theorem deleteTicket_keeps {q : DeleteTicket} {k : Except Failure Unit → Program}
    (hk : ∀ r, (k r).KeepsAll (Preserves (Delivered reference))) :
    (deleteTicket E q k).KeepsAll (Preserves (Delivered reference)) := by
  intro v
  refine .read ?_
  rcases v.row (.ticket q.ticket) with _ | t
  · exact hk _ v
  dsimp only
  split
  · exact hk _ v
  refine .read ?_
  by_cases hsold : v.select (soldOf q.ticket) ≠ []
  · rw [if_pos hsold]
    exact .update Preserves.trans (fun _ _ _ h => h.set (by simp)) (fun _ _ _ => commits_keeps (hk _) _)
      (.rollback .refl (hk _))
  rw [if_neg hsold]
  refine .given fun hv => ?_
  -- the audit log is written and committed first
  refine record_keeps Preserves.trans (fun v k r hr => ignores_aside v k r (isAside_of_audit hr))
    (fun _ _ => .rollback .refl (hk _)) fun v₁ hoff => .commit Preserves.trans .refl (.deleteWhere Preserves.trans ?_)
  intro v₂ hrows
  refine ⟨fun h => ?_, ?_⟩
  · obtain ⟨p, hp, hs⟩ := h
    have hp₀ : v.row (.purchase reference) = some p := (hoff _ rfl).symm.trans hp
    have hother : p.ticket ≠ q.ticket := hv.unsold (not_not.mp hsold) hp₀
    refine ⟨p, ?_, hs⟩
    rw [hrows, hp]
    simp [purchasesOf, Option.filter, hother]
  · exact .lockRow (fun _ => commits_keeps (hk _) _) fun _ _ =>
      .put Preserves.trans (fun h => h.set (by simp)) (commits_keeps (hk _) _)

theorem halts_keeps {α : Type} (r : α) : ((fun _ => .halt : α → Program) r).KeepsAll (Preserves (Delivered reference)) :=
  fun _ => .halt .refl

/-- **No call takes a delivered purchase back.** -/
theorem Call.keeps (hbilled : Billed E A) (c : Call) : (c.prog E A).KeepsAll (Preserves (Delivered reference)) := by
  rcases c with (q | q | ⟨reference', data⟩ | ⟨q, answer⟩ | ⟨q, answer⟩ | q) | q
  · exact buyTicket_keeps halts_keeps
  · exact ussdTicket_keeps halts_keeps
  · exact applyTicketResult_keeps halts_keeps
  · exact verifyAndApply_keeps hbilled halts_keeps
  · exact expirePurchase_keeps hbilled halts_keeps
  · exact editTicket_keeps fun _ => .halt .refl
  · exact deleteTicket_keeps halts_keeps

/-- It stays delivered over any calls. -/
theorem Delivered.after (hbilled : Billed E A) : ∀ (calls : List Call) {db : Database}, Delivered reference db →
    Delivered reference (execAll db (calls.map (·.prog E A)))
  | [], _, h => h
  | c :: calls, _, h => Delivered.after hbilled calls ((c.keeps hbilled _).after .refl h)

end Keeps

/-! ### What the report finds -/

/-- The report of a successful charge of this amount. -/
def Confirms (E : Env) (data : List (String × Json)) (amount : ℕ) : Prop :=
  gatewayStatus E data = .ok "success" ∧ amountOf E data = .ok (amount : ℤ)

/-- The purchase exists and is delivered already, or it is `Pending` and costs this
amount at its ticket's price. -/
def Deliverable (reference : String) (amount : ℕ) (db : Database) : Prop :=
  ∃ p, db.row (.purchase reference) = some p ∧ (p.status = .Success ∨
    p.status = .Pending ∧ ∃ t, db.row (.ticket p.ticket) = some t ∧ t.price * p.quantity = amount)

/-- The call processes the report of the purchase: it is given it, or verifies the
reference, which is no payment's, and is answered with it. -/
inductive Processes (reference : String) (data : List (String × Json)) (db : Database) : Tickets.Call → Prop
  | given : Processes reference data db (.applyTicketResult reference data)
  | verified (q : GatewayCall) : q.reference = reference → db.row (.payment reference) = none →
    Processes reference data db (.verifyAndApply q (some data))
  | expiring (q : GatewayCall) : q.reference = reference → db.row (.payment reference) = none →
    Processes reference data db (.expirePurchase q (some data))

section Report

variable {E : Env} {A : Adapters} {reference : String} {data : List (String × Json)} {amount : ℕ} {db : Database}

theorem not_delivered_of_status {p : PurchaseRow} (hp : db.row (.purchase reference) = some p) (hs : p.status ≠ .Success) :
    ¬ Delivered reference db := by
  rintro ⟨p', hp', hs'⟩
  obtain rfl := Option.some.inj (hp.symm.trans hp')
  exact hs hs'

/-- A purchase that is not `Pending` is deliverable if it is delivered. -/
theorem delivered_iff_settled (hsettled : ∀ p t, db.row (.purchase reference) = some p → p.status = .Pending →
    db.row (.ticket p.ticket) = some t → t.price * p.quantity ≠ amount) :
    Delivered reference db ↔ Deliverable reference amount db := by
  constructor
  · rintro ⟨p, hp, hs⟩
    exact ⟨p, hp, Or.inl hs⟩
  · rintro ⟨p, hp, hs | ⟨hs, t, ht, hcost⟩⟩
    · exact ⟨p, hp, hs⟩
    · exact absurd hcost (hsettled p t hp hs ht)

/-- The report goes on without an error, and delivers what is deliverable. -/
theorem applyTicketResult_exec {k : Except Failure (Option PurchaseRow) → Program} (h : Confirms E data amount) :
    ∃ r db', (∀ log, (applyTicketResult E reference data k).exec db [] log = (k (.ok r)).exec db' [] log) ∧
      (Delivered reference db' ↔ Deliverable reference amount db) := by
  unfold applyTicketResult
  rcases hp : db.row (.purchase reference) with _ | p
  · refine ⟨none, db, fun log => ?_, delivered_iff_settled fun p t hp' => ?_⟩
    · rw [Prog.exec_lockRow_none (show (db.apply []).row _ = none from hp)]
      rfl
    · rw [hp] at hp'
      cases hp'
  have hview : (db.apply []).row (.purchase reference) = some p := hp
  rcases ht : db.row (.ticket p.ticket) with _ | t
  · refine ⟨none, db, fun log => ?_, delivered_iff_settled fun p' t hp' _ ht' => ?_⟩
    · rw [Prog.exec_lockRow hview, Prog.exec_lockRow_none (show (db.apply []).row _ = none from ht)]
      rfl
    · obtain rfl := Option.some.inj (hp.symm.trans hp')
      rw [ht] at ht'
      cases ht'
  have hview' : (db.apply []).row (.ticket p.ticket) = some t := ht
  by_cases hpending : p.status ≠ .Pending
  · refine ⟨some p, db, fun log => ?_, delivered_iff_settled fun p' t hp' hs _ => ?_⟩
    · rw [Prog.exec_lockRow hview, Prog.exec_lockRow hview']
      dsimp only
      rw [if_pos hpending]
      rfl
    · obtain rfl := Option.some.inj (hp.symm.trans hp')
      exact absurd hs hpending
  by_cases hcost : (amount : ℤ) ≠ (t.price * p.quantity : ℕ)
  · refine ⟨some p, db, fun log => ?_, delivered_iff_settled fun p' t' hp' _ ht' heq => ?_⟩
    · rw [Prog.exec_lockRow hview, Prog.exec_lockRow hview']
      dsimp only
      rw [if_neg hpending, h.1]
      dsimp only
      rw [if_pos rfl, h.2]
      dsimp only
      rw [if_pos hcost]
      rfl
    · obtain rfl := Option.some.inj (hp.symm.trans hp')
      obtain rfl := Option.some.inj (ht.symm.trans ht')
      exact hcost (by rw [heq])
  refine ⟨some { p with status := .Success }, db.set (.purchase reference) (some { p with status := .Success }),
    fun log => ?_, ?_⟩
  · rw [Prog.exec_lockRow hview, Prog.exec_lockRow hview']
    dsimp only
    rw [if_neg hpending, h.1]
    dsimp only
    rw [if_pos rfl, h.2]
    dsimp only
    rw [if_neg hcost]
    rfl
  · have hnow : Delivered reference (db.set (.purchase reference) (some { p with status := .Success })) :=
      ⟨_, Db.set_row_self _ _ _, rfl⟩
    have hbefore : Deliverable reference amount db := ⟨p, hp, Or.inr ⟨not_not.mp hpending, t, ht, by omega⟩⟩
    exact iff_of_true hnow hbefore

/-- **What the report leaves**: the purchase is delivered if and only if it was
found deliverable. -/
theorem reported_iff {c : Tickets.Call} (hc : Processes reference data db c) (h : Confirms E data amount) :
    Delivered reference ((c.prog E A).after db) ↔ Deliverable reference amount db := by
  -- a reference that is no payment's is verified as a purchase's
  have hverify : ∀ (q : GatewayCall) (k : Except Failure Verified → Program), q.reference = reference →
      db.row (.payment reference) = none → ∃ r db', (verifyAndApply E A q (some data) k).exec db [] [] =
        (k (.ok r)).exec db' [] [] ∧ (Delivered reference db' ↔ Deliverable reference amount db) := by
    rintro q k rfl hpayment
    have hno : ((db.apply []).row (.payment q.reference)).isSome ≠ true := by
      rw [Db.apply_nil, hpayment]
      simp
    unfold verifyAndApply
    dsimp only
    rw [Prog.exec_read, if_neg hno, Prog.exec_read]
    by_cases hpurchase : ((db.apply []).row (.purchase q.reference)).isSome = true
    · rw [if_pos hpurchase]
      have hreport : ∃ (r : Option PurchaseRow) (db' : Database), (∀ log,
          (applyTicketResult E q.reference data fun r => k (r.map .purchase)).exec db [] log =
          (k (.ok (.purchase r))).exec db' [] log) ∧
          (Delivered q.reference db' ↔ Deliverable q.reference amount db) := applyTicketResult_exec h
      obtain ⟨r, db', hexec, hiff⟩ := hreport
      exact ⟨_, db', hexec [], hiff⟩
    · rw [if_neg hpurchase]
      refine ⟨_, db, rfl, delivered_iff_settled fun p t hp => ?_⟩
      rw [Db.apply_nil, hp] at hpurchase
      exact absurd rfl hpurchase
  rcases hc with _ | ⟨q, hq, hpayment⟩ | ⟨q, hq, hpayment⟩
  · have hreport : ∃ _ : Option PurchaseRow, ∃ db', (∀ log,
        (applyTicketResult E reference data fun _ => .halt).exec db [] log = (Prog.halt : Program).exec db' [] log) ∧
        (Delivered reference db' ↔ Deliverable reference amount db) := applyTicketResult_exec h
    obtain ⟨-, db', hexec, hiff⟩ := hreport
    show Delivered reference ((applyTicketResult E reference data fun _ => .halt).exec db [] []).db ↔ _
    rw [hexec []]
    exact hiff
  · obtain ⟨r, db', hexec, hiff⟩ := hverify q (fun _ => .halt) hq hpayment
    show Delivered reference ((verifyAndApply E A q (some data) fun _ => .halt).exec db [] []).db ↔ _
    rw [hexec]
    exact hiff
  · -- what is still `Pending` then expires
    unfold Tickets.Call.prog Tickets.expirePurchase Prog.after
    obtain ⟨r, db', hexec, hiff⟩ := hverify q _ hq hpayment
    rw [hexec, ← hiff]
    subst hq
    dsimp only
    by_cases hpending : ∃ p, (db'.apply []).row (.purchase q.reference) = some p ∧ p.status = .Pending
    · obtain ⟨p, hp, hs⟩ := hpending
      rw [Prog.exec_update hp (by simpa using hs)]
      refine iff_of_false (not_delivered_of_status (Db.set_row_self _ _ _) (by simp [failed])) ?_
      exact not_delivered_of_status hp (by simp [hs])
    · rw [Prog.exec_update_none fun p hp => by
        by_contra hs
        exact hpending ⟨p, hp, by simpa using hs⟩]
      exact Iff.rfl

end Report

/-! ### Every order of calls -/

/-- A purchase, started when the tables were `db₀` by a call that asked the gateway
to charge the amount; the calls until a report that just this was charged; and the
call that processes the report. -/
structure Paid (E : Env) (A : Adapters) (db₀ : Database) where
  reference : String
  amount : ℕ
  start : Tickets.Call
  asked : Note.charging reference amount ∈ ((start.prog E A).exec db₀ [] []).log
  before : List Call
  data : List (String × Json)
  confirms : Confirms E data amount
  report : Tickets.Call
  processes : Processes reference data (execAll db₀ (((.ticket start :: before : List Call)).map (·.prog E A))) report

/-- The tables the report finds. -/
def Paid.found {E : Env} {A : Adapters} {db₀ : Database} (P : Paid E A db₀) : Database :=
  execAll db₀ (((.ticket P.start :: P.before : List Call)).map (·.prog E A))

/-- The tables after the report and the calls `later`. -/
def Paid.after {E : Env} {A : Adapters} {db₀ : Database} (P : Paid E A db₀) (later : List Call) : Database :=
  execAll P.found (((.ticket P.report :: later : List Call)).map (·.prog E A))

/-- **A purchase that was paid for is delivered**, and stays so whatever is called
later, if and only if the report finds it deliverable. -/
theorem paid_delivered {E : Env} {A : Adapters} (hbilled : Billed E A) {db₀ : Database} (P : Paid E A db₀) :
    (∀ later, Delivered P.reference (P.after later)) ↔ Deliverable P.reference P.amount P.found := by
  have hreport : Delivered P.reference (P.after []) ↔ Deliverable P.reference P.amount P.found :=
    reported_iff P.processes P.confirms
  constructor
  · intro h
    exact hreport.mp (h [])
  · intro h later
    exact (hreport.mpr h).after hbilled later

/-- One ticket is bought for 500, and paid for at once. -/
def prompt : Paid .plain Transitions.shopAdapters oneLeft where
  reference := "a"
  amount := 500
  start := .buyTicket { ticket := 1, email := "ama@x", reference := "a", now := 0 }
  asked := by decide +kernel
  before := []
  data := [("status", .str "success"), ("amount", .int 500)]
  confirms := ⟨rfl, rfl⟩
  report := .applyTicketResult "a" [("status", .str "success"), ("amount", .int 500)]
  processes := .given

theorem paid_delivered_prompt : Delivered "a" (prompt.after []) := by
  have hfound : prompt.found.row (.purchase "a") =
        some { ticket := 1, event := 1, buyerName := "", buyerEmail := "ama@x" } ∧
      prompt.found.row (.ticket 1) = some { event := 1, price := 500, quantityAvailable := 1 } := by
    decide +kernel
  exact (paid_delivered Transitions.shopAdapters_billed prompt).mpr
    ⟨_, hfound.1, Or.inr ⟨rfl, _, hfound.2, rfl⟩⟩ []

/-- The ticket's price is raised to 600 before the report of the 500 is processed. -/
def repriced : Paid .plain Transitions.shopAdapters oneLeft where
  reference := "a"
  amount := 500
  start := .buyTicket { ticket := 1, email := "ama@x", reference := "a", now := 0 }
  asked := by decide +kernel
  before := [.ticket (.editTicket { ticket := 1, price := 600, quantityAvailable := 1, isActive := true })]
  data := [("status", .str "success"), ("amount", .int 500)]
  confirms := ⟨rfl, rfl⟩
  report := .applyTicketResult "a" [("status", .str "success"), ("amount", .int 500)]
  processes := .given

/-- **What was paid for is not always delivered.** -/
theorem not_paid_delivered : ¬ ∀ (E : Env) (A : Adapters) (db₀ : Database) (P : Paid E A db₀), Billed E A →
    ∀ later, Delivered P.reference (P.after later) := by
  intro h
  have hleft : ((repriced.after []).row (.purchase "a")).map (·.status) = some .Pending := by decide +kernel
  obtain ⟨p, hp, hs⟩ := Option.map_eq_some_iff.mp hleft
  exact not_delivered_of_status hp (by simp [hs]) (h _ _ _ repriced Transitions.shopAdapters_billed [])

end Delivery
end FlexyVotes
