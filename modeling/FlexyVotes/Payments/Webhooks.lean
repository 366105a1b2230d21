/-
# Webhooks

What the gateway reports by itself: charges, refunds and disputes
(`dispatchWebhook`). A dispute is applied under the payment's lock. One that is
opened reverses the payment's votes; one that is lost only moves the payment.

Key definitions: `webhookDispute`, `dispatchWebhook`.
-/
import FlexyVotes.Payments.Refunds
import FlexyVotes.Payments.Tickets

namespace FlexyVotes
namespace Payments

open Transactions Audit Tickets

/-- `needle in haystack`. -/
def pyContains (needle haystack : String) : Bool := needle.toList <:+: haystack.toList

/-- The resolution a dispute report tells. -/
def resolutionOf (E : Env) (data : List (String × Json)) : String :=
  E.lower (Ballot.pyStr E (pyOr (pyOr ((Json.get? data "resolution").getD .null)
    ((Json.get? data "status").getD .null)) (.str "")))

/-- The dispute was resolved in the merchant's favour. -/
def merchantWon (E : Env) (data : List (String × Json)) : Bool :=
  pyContains "merchant" (resolutionOf E data) || resolutionOf E data = "declined" || resolutionOf E data = "won"

/-- The reference of the payment a dispute report is about. -/
def disputeReference (E : Env) (data : List (String × Json)) (reference : String) : Except Failure String :=
  if reference ≠ "" then .ok reference
  else (ofTransaction data "reference").map fun r => Ballot.pyStr E (pyOr r (.str ""))

/-- `_webhook_dispute`. -/
def webhookDispute (E : Env) (q : WebhookCall) (reference : String) (k : Except Failure Unit → Program) : Program :=
  match disputeReference E q.data reference with
  | .error e => k (.error e)
  | .ok reference =>
    .read fun db =>
      match db.row (.payment reference) with
      | none => k (.ok ())
      | some found =>
        .lockRow (.payment reference) fun
          | none => .rollback (k (.error (.crash "Payment.DoesNotExist")))
          | some p =>
            let audit : Program :=
              .read fun db =>
                recordNow E
                  { eventType := "PAYMENT_CHARGEBACK"
                    event := found.event.map fun e => (e, organizationOf db found.event)
                    targetType := "payments.Payment"
                    targetId := reference
                    summary := q.eventType ++ " for " ++ reference
                    createdAt := q.now 1 }
                  (k (.error (.crash "DatabaseError"))) (k (.ok ()))
            if q.eventType = "charge.dispute.create" then
              saveTransition reference p .DISPUTED (q.now 0) <|
              if changes p .DISPUTED then reverseVotes reference <| .commit audit else .commit audit
            else if q.eventType = "charge.dispute.resolve" then
              if merchantWon E q.data then saveTransition reference p .SUCCESS (q.now 0) <| .commit audit
              else
                saveTransition reference p .REVERSED (q.now 0) <| .commit <|
                if changes p .REVERSED then .note (.lost reference) audit else audit
            else .commit audit

/-- The reference of a report. -/
def webhookReference (E : Env) (data : List (String × Json)) : Except Failure String :=
  let own := (Json.get? data "reference").getD .null
  if own.falsy then
    (ofTransaction data "reference").map fun r => truncate 100 (Ballot.pyStr E (pyOr r (.str "")))
  else .ok (truncate 100 (Ballot.pyStr E own))

/-- `_dispatch_webhook`, of a report whose signature is good and whose payload is
new; `credit` is what crediting draws. -/
def dispatchWebhook (E : Env) (A : Adapters) (q : WebhookCall) (credit : CreditCall)
    (k : Except Failure Unit → Program) : Program :=
  match webhookReference E q.data with
  | .error e => k (.error e)
  | .ok reference =>
    let charge (data : List (String × Json)) : Program :=
      applyGatewayResult E A { reference := reference, data := data, credit := credit, now := q.now }
        fun r => k (r.map fun _ => ())
    if q.eventType = "charge.success" then
      .read fun db =>
        if (db.row (.payment reference)).isSome then charge q.data
        else
          .read fun db =>
            if (db.row (.purchase reference)).isSome then
              applyTicketResult E reference q.data fun r => k (r.map fun _ => ())
            else k (.ok ())
    else if q.eventType = "charge.failed" then
      .read fun db =>
        if (db.row (.payment reference)).isSome then charge (("status", .str "failed") :: q.data)
        else k (.ok ())
    else if "refund.".toList <+: q.eventType.toList then webhookRefund E q k
    else if "charge.dispute.".toList <+: q.eventType.toList then webhookDispute E q reference k
    else k (.ok ())

end Payments
end FlexyVotes
