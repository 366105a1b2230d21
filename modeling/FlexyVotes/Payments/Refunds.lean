/-
# Refunds

A refund is requested within what is left of its payment (`requestRefund`),
approved and handed to the gateway (`approveRefund`), and completed when the
gateway reports it (`completeRefund`, by `webhookRefund`). An approval runs
statement by statement, or inside the transaction of an approved request
(`refundExecutor`): `sep` is what ends a statement.

An approval reads the refund without a lock and saves what the gateway
answered later, whatever the row has become; the completion and the report of
a failure run beside it.

Key definitions: `requestRefund`, `approveRefund`, `completeRefund`, `webhookRefund`.
-/
import FlexyVotes.Elections.Integrity
import FlexyVotes.Payments.Service

namespace FlexyVotes
namespace Payments

open Transactions Audit Integrity

/-! ### Completing -/

/-- `update_fields` of one refund: the row has to be there. -/
def saveRefund (id : String) (g : RefundRow → RefundRow) (fail : Failure → Program) (k : Program) : Program :=
  .update (.refund id) (fun _ => true) g fun
    | true => k
    | false => fail (.crash "DatabaseError")

def processed (r : RefundRow) (now : Time) : RefundRow := { r with status := .PROCESSED, processedAt := some now }

/-- The payment with the amount refunded. -/
def refunded (p : PaymentRow) (amount : ℕ) : PaymentRow := { p with refundedAmount := p.refundedAmount + amount }

/-- Where a completed refund takes its payment. -/
def refundTarget (p : PaymentRow) : PaymentStatus :=
  if p.amountMinor ≤ p.refundedAmount then .REFUNDED else .PARTIALLY_REFUNDED

/-- The log entry about a refund. -/
def refundEntry (what : String) (actor : Option User) (request : Option Request) (event : Option ℕ)
    (organization : Option ℕ) (id summary reason : String) (now : Time) : Entry where
  eventType := what
  request := request
  actor := actor
  event := event.map fun e => (e, organization)
  targetType := "payments.Refund"
  targetId := id
  summary := summary
  reason := reason
  createdAt := now

/-- `audit.record` of a refund: the event's organization is read with it. -/
def recordRefund (E : Env) (a : Option ℕ → Entry) (event : Option ℕ) (fail k : Program) : Program :=
  .read fun db => record E (a (organizationOf db event)) fail k

/-- `_complete_refund`; `sep` ends its transaction, or goes on in the one that
is there. -/
def completeRefund (sep : Program → Program) (fail : Failure → Program) (E : Env) (id : String) (now : ℕ → Time)
    (k : Program) : Program :=
  .lockRow (.refund id) fun
    | none => fail (.crash "Refund.DoesNotExist")
    | some r =>
      if r.status = .PROCESSED then sep k
      else
        .lockRow (.payment r.payment) fun
          | none => fail (.crash "Payment.DoesNotExist")
          | some p =>
            let p' := refunded p r.amount
            .put (.refund id) (some (processed r (now 0))) <|
            .put (.payment r.payment) (some p') <|
            saveTransition r.payment p' (refundTarget p') (now 1) <|
            let done : Program := sep <|
              recordRefund E (fun o => refundEntry "REFUND_PROCESSED" none none p.event o id
                ("Refund " ++ money r.amount ++ " processed") "" (now 2)) p.event (fail (.crash "DatabaseError")) (sep k)
            if r.reverseVotes then reverseVotes r.payment done else done

/-! ### Approving -/

/-- One call of `approve_refund`, with what the gateway answers: its id of the
refund, or its error. -/
structure ApproveCall where
  refund : String
  approver : User
  viaApproval : Bool
  answer : Except String String
  /-- `paystack.fake_mode()`. -/
  fake : Bool := false
  now : ℕ → Time

def approved (approver : ℕ) (r : RefundRow) : RefundRow := { r with status := .APPROVED, approvedBy := some approver }

/-- The gateway took the refund. -/
def processing (gatewayId : String) (r : RefundRow) : RefundRow :=
  { r with status := .PROCESSING, gatewayRefundId := truncate 40 gatewayId }

/-- The gateway refused the refund. -/
def refusedRefund (error : String) (r : RefundRow) : RefundRow :=
  { r with status := .FAILED, error := truncate 1000 error }

/-- `approve_refund`, with the refund it returns. -/
def approveRefund (sep : Program → Program) (fail : Failure → Program) (E : Env) (q : ApproveCall)
    (k : RefundRow → Program) : Program :=
  .read fun db =>
    match db.row (.refund q.refund) with
    | none => fail (.crash "Refund.DoesNotExist")
    | some r =>
      let event := (db.row (.payment r.payment)).bind (·.event)
      if !q.viaApproval ∧ !q.approver.may "refund.approve" event then fail .permission
      else if !q.viaApproval ∧ q.approver.pk = r.requestedBy then
        fail (.payment "Separation of duties: a different person must approve this refund." "invalid")
      else if r.status ≠ .REQUESTED then k r
      else
        .note (.approving q.refund) <|
        saveRefund q.refund (approved q.approver.pk) fail <| sep <|
        match q.answer with
        | .error e =>
          saveRefund q.refund (refusedRefund e) fail <| sep <| .note (.submitted q.refund) <|
          k (refusedRefund e (approved q.approver.pk r))
        | .ok gatewayId =>
          saveRefund q.refund (processing gatewayId) fail <| sep <| .note (.submitted q.refund) <|
          let r' := processing gatewayId (approved q.approver.pk r)
          recordRefund E (fun o => refundEntry "REFUND_APPROVED" (some q.approver) none event o q.refund
            ("Refund " ++ money r.amount ++ " approved and submitted") "" (q.now 0)) event
            (fail (.crash "DatabaseError")) <| sep <|
          if q.fake then completeRefund sep fail E q.refund (fun n => q.now (n + 1)) (k r') else k r'

/-- What is left of a call statement by statement: a failure first rolls back
what its own statement did. -/
def failing {α : Type} (k : Except Failure α → Program) (e : Failure) : Program := .rollback (k (.error e))

/-- `_exec_refund`; the executors of the other actions are about an election and
do not run here. -/
def refundExecutor (E : Env) (answer : Except String String) (fake : Bool) (now : ℕ → Time) : Executor :=
  fun row approver fail k =>
    match row.action, row.payload with
    | .REFUND, .obj payload =>
      match Json.get? payload "refund_id" with
      | some (.str id) =>
        approveRefund (fun p => p) fail E
          { refund := id, approver := approver, viaApproval := true, answer := answer, fake := fake, now := now }
          fun r => k (.obj [("refund", .str id), ("status", .str r.status.value)])
      | _ => fail (.crash "KeyError")
    | _, _ => fail (.crash "KeyError")

/-! ### Requesting -/

/-- One call of `request_refund`: what is asked for, and what the call draws and
the gateway answers. -/
structure RefundCall where
  reference : String
  /-- In hundredths. -/
  amount : ℤ
  reason : String
  actor : User
  reverse : Bool := true
  request : Option Request := none
  /-- The primary keys the refund, and the request for its approval, will get. -/
  refund : String
  approval : ℕ
  /-- `REFUND_DUAL_APPROVAL_THRESHOLD`, in hundredths. -/
  threshold : ℕ
  answer : Except String String
  fake : Bool := false
  now : ℕ → Time

/-- The refund that is requested. -/
def RefundCall.row (q : RefundCall) : RefundRow where
  payment := q.reference
  amount := q.amount.toNat
  reason := q.reason
  reverseVotes := q.reverse
  requestedBy := q.actor.pk
  requestedAt := q.now 0

/-- `payment.amount - payment.refunded_amount`. -/
def refundable (p : PaymentRow) : ℤ := p.amountMinor - p.refundedAmount

/-- What is wrong with the request. -/
def RefundCall.wrong (q : RefundCall) (p : PaymentRow) : Option Failure :=
  if !q.actor.may "refund.create" p.event then some .permission
  else if p.status ≠ .SUCCESS ∧ p.status ≠ .PARTIALLY_REFUNDED ∧ p.status ≠ .DISPUTED then
    some (.payment "Only successful payments can be refunded." "invalid")
  else if q.amount ≤ 0 ∨ refundable p < q.amount then
    some (.payment ("Refund amount must be between 0.01 and " ++ (if refundable p < 0 then "-" else "") ++
      money (refundable p).natAbs ++ ".") "invalid")
  else none

def RefundCall.entry (q : RefundCall) (p : PaymentRow) (organization : Option ℕ) : Entry :=
  refundEntry "REFUND_REQUESTED" (some q.actor) q.request p.event organization q.refund
    ("Refund " ++ money q.amount.toNat ++ " " ++ p.currency ++ " requested for " ++ q.reference) q.reason (q.now 0)

/-- `request_refund`. -/
def requestRefund (E : Env) (q : RefundCall) (k : Except Failure Unit → Program) : Program :=
  .read fun db =>
    match db.row (.payment q.reference) with
    | none => k (.error (.crash "Payment.DoesNotExist"))
    | some p =>
      match q.wrong p with
      | some e => k (.error e)
      | none =>
        let event := p.event.bind fun e => (db.row (.event e)).map fun ev => (e, ev)
        .note (.asking q.reference) <|
        .insertOr (.refund q.refund) q.row (.rollback (k (.error (.crash "IntegrityError")))) <| .commit <|
        .note (.asked q.reference) <|
        recordRefund E (q.entry p) p.event (.rollback (k (.error (.crash "DatabaseError")))) <| .commit <|
        if q.threshold < q.amount then
          requestApproval E (refundExecutor E q.answer q.fake fun n => q.now (n + 2))
            { event := event, action := .REFUND, payload := .obj [("refund_id", .str q.refund)], reason := q.reason,
              requester := q.actor, request := q.request, approval := q.approval, now := q.now 1 } k
        else if q.actor.may "refund.approve" p.event then
          approveRefund .commit (failing k) E
            { refund := q.refund, approver := q.actor, viaApproval := true, answer := q.answer, fake := q.fake,
              now := fun n => q.now (n + 1) } fun _ => k (.ok ())
        else k (.ok ())

/-- One call of `reject_held_payment`, of the payment as the view has read it,
with what a refund of it draws. -/
structure RejectCall where
  reference : String
  analyst : User
  notes : String := ""
  refund : String
  approval : ℕ
  threshold : ℕ
  answer : Except String String
  fake : Bool := false
  now : ℕ → Time

def RejectCall.entry (q : RejectCall) (p : PaymentRow) (organization : Option ℕ) : Entry where
  eventType := "PAYMENT_HOLD_REJECTED"
  actor := some q.analyst
  event := p.event.map fun e => (e, organization)
  targetType := "payments.Payment"
  targetId := q.reference
  reason := q.notes
  createdAt := q.now 0

/-- The refund of all of the payment. -/
def RejectCall.call (q : RejectCall) (p : PaymentRow) : RefundCall where
  reference := q.reference
  amount := p.amountMinor
  reason := "Rejected by fraud review: " ++ q.notes
  actor := q.analyst
  refund := q.refund
  approval := q.approval
  threshold := q.threshold
  answer := q.answer
  fake := q.fake
  now := fun n => q.now (n + 1)

/-- `reject_held_payment`. -/
def rejectHeldPayment (E : Env) (q : RejectCall) (k : Except Failure Unit → Program) : Program :=
  .read fun db =>
    match db.row (.payment q.reference) with
    | none => k (.error (.crash "Http404"))
    | some p =>
      recordNow E (q.entry p (organizationOf db p.event)) (k (.error (.crash "DatabaseError"))) <|
      if p.status = .SUCCESS ∧ q.analyst.may "refund.create" p.event then requestRefund E (q.call p) k else k (.ok ())

/-! ### The gateway's reports -/

/-- `(data.get('transaction') or {}).get(key)`. -/
def ofTransaction (data : List (String × Json)) (key : String) : Except Failure Json :=
  let value := (Json.get? data "transaction").getD .null
  if value.falsy then .ok .null
  else
    match value with
    | .obj fields => .ok ((Json.get? fields key).getD .null)
    | _ => .error (.crash "AttributeError")

/-- `a or b`. -/
def pyOr (a b : Json) : Json := if a.falsy then b else a

/-- The reference a refund report is about. -/
def refundReference (E : Env) (data : List (String × Json)) : Except Failure String :=
  (ofTransaction data "reference").map fun r =>
    Ballot.pyStr E (pyOr (pyOr r ((Json.get? data "transaction_reference").getD .null)) (.str ""))

/-- The refunds of a payment a report can be about, the latest first. -/
def openRefunds (db : Database) (reference : String) : List (String × RefundRow) :=
  (db.collect fun
    | .refund id => fun r =>
      if r.payment = reference ∧ r.status ≠ .PROCESSED ∧ r.status ≠ .REJECTED then some (id, r) else none
    | _ => fun _ => none).insertionSort fun a b => b.2.requestedAt ≤ a.2.requestedAt

/-- The gateway failed the refund. -/
def failedRefund (E : Env) (data : List (String × Json)) (r : RefundRow) : RefundRow :=
  { r with status := .FAILED, error := truncate 500 (Ballot.pyStr E ((Json.get? data "status").getD (.str ""))) }

/-- One report of the gateway. -/
structure WebhookCall where
  eventType : String
  data : List (String × Json)
  now : ℕ → Time

/-- `_webhook_refund`. -/
def webhookRefund (E : Env) (q : WebhookCall) (k : Except Failure Unit → Program) : Program :=
  match refundReference E q.data with
  | .error e => k (.error e)
  | .ok reference =>
    .read fun db =>
      match (openRefunds db reference).head? with
      | none => k (.ok ())
      | some (id, _) =>
        if q.eventType = "refund.processed" then completeRefund .commit (failing k) E id q.now (k (.ok ()))
        else if q.eventType = "refund.failed" then
          .note (.failing id) <|
          .update (.refund id) (fun _ => true) (failedRefund E q.data) fun _ => .commit <| k (.ok ())
        else k (.ok ())

end Payments
end FlexyVotes
