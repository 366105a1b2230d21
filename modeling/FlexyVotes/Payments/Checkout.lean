/-
# Checkout

What a purchase of votes costs and whether it may be made (`quote`), and the
checkout (`initiateVotePayment`): the payment is recorded before the gateway is
asked, and then saved as PENDING, or as FAILED where the gateway refuses. The
limits per voter count the payments that are credited when the quote is made.

What is never completed is abandoned after a while (`expirePayment`), and
reconciliation applies what the gateway lists (`reconcileListed`).

Key definitions: `Quote`, `quote`, `initiateVotePayment`, `expirePayment`, `reconcileListed`.
-/
import FlexyVotes.Elections.Voters
import FlexyVotes.Payments.Tickets

namespace FlexyVotes
namespace Payments

open Transactions Audit Tickets Voters Casting

/-! ### Pricing -/

/-- What a purchase comes to; the amounts in hundredths. -/
structure Quote where
  votes : ℕ := 0
  bonusVotes : ℕ := 0
  unitPrice : ℕ := 0
  gross : ℕ := 0
  discount : ℕ := 0
  amount : ℕ := 0
  package : Option (ℕ × VotePackageRow) := none
  discountCode : Option ℕ := none
  errors : List String := []

/-- `Quote.total_votes`. -/
def Quote.totalVotes (q : Quote) : ℕ := q.votes + q.bonusVotes

/-- What is ordered, and by whom. -/
structure Order where
  votes : Json := .null
  package : Option (ℕ × VotePackageRow) := none
  discountCode : String := ""
  email : String := ""
  phone : String := ""

/-- `unit_price`. -/
def unitPrice (ev : EventRow) (category : Option (ℕ × CategoryRow)) : ℕ :=
  (category.bind (·.2.votePrice)).getD ev.votePrice

/-- A limit that is set. -/
def limit (n : Option ℕ) : Option ℕ := n.filter (· ≠ 0)

/-- The payments of a payer in an event, by e-mail or phone. -/
def inPayerScope (event : ℕ) (emailIndex phoneIndex : String) (p : PaymentRow) : Bool :=
  p.event = some event ∧
    (emailIndex ≠ "" ∧ p.payerEmailIndex = emailIndex ∨ phoneIndex ≠ "" ∧ p.payerPhoneIndex = phoneIndex)

/-- The payments the limits count. -/
def isPrior (event : ℕ) (emailIndex phoneIndex : String) (p : PaymentRow) : Bool :=
  inPayerScope event emailIndex phoneIndex p ∧ p.status = .SUCCESS ∧ p.votesCredited = true

/-- `Sum` of a column over the payments that meet `c`. -/
def sumPayments (db : Database) (c : PaymentRow → Bool) (f : PaymentRow → ℕ) : ℕ :=
  db.total fun
    | .payment _ => fun p => if c p then some (f p) else none
    | _ => fun _ => none

/-- The number of payments that meet `c`. -/
def countPayments (db : Database) (c : PaymentRow → Bool) : ℕ := sumPayments db c fun _ => 1

/-- `_find_discount`. -/
def findDiscount (E : Env) (db : Database) (event : ℕ) (ev : EventRow) (code : String) :
    Option (ℕ × DiscountCodeRow) :=
  if code = "" then none
  else
    ((db.collect fun
      | .discountCode pk => fun d => if d.code = E.upper (E.strip code) then some (pk, d) else none
      | _ => fun _ => none).head?).filter fun d =>
        (d.2.event.all fun e => e = event) && (d.2.organization.all fun o => some o = ev.organization)

/-- The votes asked for: nothing where the value is no number. -/
def votesOf (E : Env) (v : Json) : ℤ :=
  match Ballot.pyInt E (if v.falsy then .int 0 else v) with
  | .ok n => n
  | .error _ => 0

/-- The order without a package, priced by the vote. -/
def priceVotes (E : Env) (ev : EventRow) (price : ℕ) (v : Json) : Quote :=
  let votes := votesOf E v
  let least := max 1 ev.minVotesPerTransaction
  { votes := votes.toNat
    unitPrice := price
    gross := price * votes.toNat
    errors :=
      (if votes < least then ["Buy at least " ++ toString least ++ " vote(s)."] else []) ++
      ((limit ev.maxVotesPerTransaction).filter fun m => (m : ℤ) < votes).toList.map
        (fun m => "At most " ++ toString m ++ " votes per payment.") ++
      if price = 0 then ["Vote pricing has not been configured."] else [] }

/-- A share of `n` in hundredths of a percent, half up. -/
def percentOf (n share : ℕ) : ℕ := (n * share + 5000) / 10000

/-- The quote with the discount code applied. -/
def discounted (db : Database) (emailIndex : String) (q : Quote) : Option (ℕ × DiscountCodeRow) → Quote
  | none => q
  | some (pk, d) =>
    if (limit d.minAmount).any fun m => q.gross < m then
      { q with errors := q.errors ++
          ["That code needs a minimum purchase of " ++ money (d.minAmount.getD 0) ++ "."] }
    else if (limit d.perPayerLimit).any fun m => emailIndex ≠ "" ∧
        m ≤ countPayments db fun p => p.discount = some pk ∧ p.payerEmailIndex = emailIndex ∧ p.status = .SUCCESS then
      { q with errors := q.errors ++ ["You have already used that discount code."] }
    else
      let q := { q with discountCode := some pk }
      match d.kind with
      | .PERCENT => { q with discount := percentOf q.gross (min d.value 10000) }
      | .FIXED => { q with discount := min d.value q.gross }
      | .BONUS_VOTES => { q with bonusVotes := q.bonusVotes + d.value / 100 }

/-- The code, if one was given, has to be there and available. -/
def withDiscount (E : Env) (db : Database) (event : ℕ) (ev : EventRow) (o : Order) (emailIndex : String) (now : Time)
    (q : Quote) : Quote :=
  let found := (findDiscount E db event ev o.discountCode).filter fun d => d.2.isAvailable now
  let q := if o.discountCode ≠ "" ∧ found = none then
    { q with errors := q.errors ++ ["That discount code is not valid."] } else q
  discounted db emailIndex q found

/-- The amount to pay. -/
def withAmount (q : Quote) : Quote :=
  let q := { q with amount := q.gross - q.discount }
  if q.amount = 0 ∧ q.errors = [] then
    { q with errors := ["The amount to pay must be greater than zero."] }
  else q

/-- The candidate of an order, with its position. -/
structure Choice where
  pk : ℕ
  row : CandidateRow
  category : Option (ℕ × CategoryRow)

/-- `aggregate(...)` over the payments that are credited. -/
structure Prior where
  votes : ℕ
  onCandidate : ℕ
  inCategory : ℕ
  spent : ℕ
  packages : ℕ

def priorOf (db : Database) (event : ℕ) (c : Choice) (q : Quote) (emailIndex phoneIndex : String) : Prior :=
  let prior := isPrior event emailIndex phoneIndex
  { votes := sumPayments db prior (·.totalVotes)
    onCandidate := sumPayments db (fun p => prior p && p.candidate = some c.pk) (·.totalVotes)
    inCategory := sumPayments db (fun p => prior p && (c.category.any fun g =>
      (p.candidate.bind fun x => (db.row (.candidate x)).bind (·.category)) = some g.1)) (·.totalVotes)
    spent := sumPayments db prior (·.amountMinor)
    packages := countPayments db fun p => prior p && (q.package.any fun g => p.package = some g.1) }

/-- The limits per voter that the purchase would pass. -/
def overLimits (ev : EventRow) (c : Choice) (q : Quote) (prior : Prior) : List String :=
  ((limit ev.maxVotesPerVoter).filter fun m => m < prior.votes + q.totalVotes).toList.map (fun m =>
    "Each voter may buy at most " ++ toString m ++ " votes in this election (" ++ toString prior.votes ++
      " already purchased).") ++
  ((limit c.row.maxVotesPerVoter).filter fun m => m < prior.onCandidate + q.totalVotes).toList.map (fun m =>
    "Each voter may give " ++ c.row.name ++ " at most " ++ toString m ++ " votes.") ++
  ((c.category.bind fun g => limit g.2.maxVotesPerVoter).filter fun m => m < prior.inCategory + q.totalVotes).toList.map
    (fun m => "Each voter may cast at most " ++ toString m ++ " votes in \"" ++
      (c.category.map (·.2.name)).getD "" ++ "\".") ++
  ((limit ev.maxSpendPerVoter).filter fun m => m < prior.spent + q.amount).toList.map (fun m =>
    "Spending limit reached: at most " ++ money m ++ " " ++ ev.currency ++ " per voter.") ++
  ((q.package.bind fun g => limit g.2.maxPerPayer).filter fun m => m ≤ prior.packages).toList.map fun m =>
    "The \"" ++ (q.package.map (·.2.name)).getD "" ++ "\" package is limited to " ++ toString m ++ " per voter."

/-- `quote`. -/
def quote (E : Env) (db : Database) (event : ℕ) (ev : EventRow) (c : Choice) (o : Order) (now : Time) : Quote :=
  if ev.votingMode ≠ .PAY_TO_VOTE then { errors := ["This election does not use paid voting."] }
  else if c.row.event ≠ event then { errors := ["Invalid contestant."] }
  else
    let closed :=
      (if c.row.status ≠ .ACTIVE then [c.row.name ++ " is no longer accepting votes."] else []) ++
      if acceptingVotes ev now then [] else ["Voting is not open right now."]
    let price := unitPrice ev c.category
    let priced : Quote ⊕ Quote :=
      match o.package with
      | some (pk, g) =>
        if g.event ≠ event ∨ !g.isAvailable now then
          .inl { unitPrice := price, errors := closed ++ ["That vote package is not available."] }
        else .inr { votes := g.votes, bonusVotes := g.bonusVotes, unitPrice := price, gross := g.price,
                    package := some (pk, g), errors := closed }
      | none =>
        let q := priceVotes E ev price o.votes
        .inr { q with errors := closed ++ q.errors }
    match priced with
    | .inl q => q
    | .inr q =>
      let emailIndex := if o.email = "" then "" else E.blindIndex o.email "email"
      let phoneIndex := if o.phone = "" then "" else E.blindIndex (normalizePhone E o.phone) "phone"
      let q := withAmount (withDiscount E db event ev o emailIndex now q)
      if emailIndex = "" ∧ phoneIndex = "" then q
      else { q with errors := q.errors ++ overLimits ev c q (priorOf db event c q emailIndex phoneIndex) }

/-! ### The checkout -/

/-- One call of `initiate_vote_payment`: the order, and what the call draws, the
risk engine says and the gateway answers. -/
structure InitiateCall where
  event : ℕ
  candidate : ℕ
  /-- The primary key of the package, if one is chosen. -/
  package : Option ℕ := none
  order : Order
  name : String := ""
  idempotencyKey : String := ""
  channelHint : String := ""
  ipAddress : Option String := none
  deviceHash : String := ""
  configured : Bool := true
  risk : Assessment
  /-- A challenge is asked for and was not passed. -/
  challenged : Bool := false
  reference : String
  /-- The gateway's checkout page and access code, or its error. -/
  answer : Except String (String × String)
  now : ℕ → Time

/-- `set_payer`. -/
def setPayer (E : Env) (p : PaymentRow) (email phone : String) : PaymentRow :=
  let email := E.lower (E.strip email)
  let phone := normalizePhone E phone
  { p with
    payerEmail := email
    payerEmailIndex := if email = "" then "" else E.blindIndex email "email"
    payerPhone := phone
    payerPhoneIndex := if phone = "" then "" else E.blindIndex phone "phone" }

/-- The payment of a quote. -/
def InitiateCall.row (E : Env) (q : InitiateCall) (ev : EventRow) (quote : Quote) : PaymentRow :=
  setPayer E
    { purpose := .VOTE
      event := some q.event
      candidate := some q.candidate
      package := quote.package.map (·.1)
      discount := quote.discountCode
      idempotencyKey := if q.idempotencyKey = "" then none else some q.idempotencyKey
      votes := quote.votes
      bonusVotes := quote.bonusVotes
      unitPrice := quote.unitPrice
      grossAmount := quote.gross
      discountAmount := quote.discount
      amountMinor := quote.amount
      currency := ev.currency
      gateway := { channel := q.channelHint }
      riskScore := some q.risk.score
      riskDecision := q.risk.decision
      held := q.risk.held
      holdReason := if q.risk.held then "Risk score " ++ toString q.risk.score ++ " at checkout" else ""
      ipAddress := q.ipAddress
      deviceHash := q.deviceHash
      createdAt := q.now 0
      updatedAt := q.now 0 } q.order.email q.order.phone

/-- The payment as it is saved when the gateway refused it: by the status it
was created with. -/
def refusedPayment (now : Time) (p : PaymentRow) : PaymentRow := { p with status := .FAILED, updatedAt := now }

def withCheckout (page : String × String) (p : PaymentRow) : PaymentRow :=
  { p with authorizationUrl := page.1, accessCode := page.2 }

/-- After the payment is recorded: the gateway is asked. -/
def askGateway (q : InitiateCall) (k : Except Failure String → Program) : Program :=
  match q.answer with
  | .error e =>
    .commit <| .note (.refused q.reference) <|
    .update (.payment q.reference) (fun _ => true) (refusedPayment (q.now 1)) fun _ => .commit <|
    k (.error (.payment e "gateway"))
  | .ok page =>
    .commit <|
    .update (.payment q.reference) (fun _ => true) (withCheckout page) fun _ =>
    .read fun db =>
      match db.row (.payment q.reference) with
      | none => .rollback (k (.error (.crash "Payment.DoesNotExist")))
      | some p => saveTransition q.reference p .PENDING (q.now 1) <| .commit <| k (.ok q.reference)

/-- The payment is recorded, unless another call was first with the key. -/
def recordPayment (q : InitiateCall) (row : PaymentRow) (k : Except Failure String → Program) : Program :=
  let taken : Program := .rollback <|
    .read fun db =>
      match db.row (.paymentKey q.idempotencyKey) with
      | some reference => k (.ok reference)
      | none => k (.error (.crash "IntegrityError"))
  .insertOr (.payment q.reference) row taken <|
  if q.idempotencyKey = "" then askGateway q k
  else .insertOr (.paymentKey q.idempotencyKey) q.reference taken (askGateway q k)

/-- `initiate_vote_payment`, of the event, the candidate and the package as the
view has read them; the reference of the payment. -/
def initiateVotePayment (E : Env) (q : InitiateCall) (k : Except Failure String → Program) : Program :=
  .read fun db =>
    match db.row (.event q.event), db.row (.candidate q.candidate) with
    | some ev, some c =>
      let choice : Choice :=
        { pk := q.candidate, row := c, category := c.category.bind fun g => (db.row (.category g)).map fun r => (g, r) }
      let package := q.package.bind fun g => ((db.row (.votePackage g)).filter fun r => r.event = q.event).map fun r => (g, r)
      if !q.configured then
        k (.error (.payment "Paid voting is not available right now (payment provider not configured)." "unavailable"))
      else
        .read fun db =>
          match if q.idempotencyKey = "" then none else db.row (.paymentKey q.idempotencyKey) with
          | some reference =>
            match db.row (.payment reference) with
            | none => k (.error (.crash "Payment.DoesNotExist"))
            | some p =>
              if p.event ≠ some q.event ∨ p.candidate ≠ some q.candidate then
                k (.error (.payment "This request was already used for a different purchase." "idempotency_conflict"))
              else k (.ok reference)
          | none =>
            .read fun db =>
              let quoted := quote E db q.event ev choice { q.order with package := package } (q.now 0)
              match quoted.errors with
              | e :: _ => k (.error (.payment e "invalid"))
              | [] =>
                if q.order.email = "" ∧ q.order.phone = "" then
                  k (.error (.payment "Enter an email address or phone number for your receipt." "invalid"))
                else if q.challenged then
                  k (.error (.payment
                    "Additional verification is required. Complete the challenge and try again." "challenge"))
                else recordPayment q (q.row E ev quoted) k
    | _, _ => k (.error (.crash "Http404"))

/-! ### Housekeeping -/

/-- The expiry of one payment in `expire_abandoned`. -/
def expirePayment (E : Env) (A : Adapters) (q : GatewayCall) (answer : Option (List (String × Json))) (now : Time)
    (k : Except Failure Unit → Program) : Program :=
  verifyAndApply E A q answer fun
    | .error e => k (.error e)
    | .ok _ =>
      .read fun db =>
        match db.row (.payment q.reference) with
        | none => k (.error (.crash "Payment.DoesNotExist"))
        | some p =>
          if p.status = .INITIALIZED ∨ p.status = .PENDING then
            .lockRow (.payment q.reference) fun
              | none => .rollback (k (.error (.crash "Payment.DoesNotExist")))
              | some locked => saveTransition q.reference locked .ABANDONED now <| .commit <| k (.ok ())
          else k (.ok ())

/-- A row of the gateway's list does not go with the payment. -/
def mismatches (E : Env) (data : List (String × Json)) (p : PaymentRow) : Bool :=
  let status := E.lower (Ballot.pyStr E ((Json.get? data "status").getD (.str "")))
  let success : Bool := p.status = .SUCCESS ∨ p.status = .PARTIALLY_REFUNDED ∨ p.status = .REFUNDED ∨ p.status = .DISPUTED
  (status = "success") ≠ success ∨
    ((status = "failed" ∨ status = "abandoned") ∧ p.status ≠ .FAILED ∧ p.status ≠ .ABANDONED)

/-- One row of the gateway's list in `reconcile`. -/
def reconcileListed (E : Env) (A : Adapters) (q : GatewayCall) (k : Except Failure Unit → Program) : Program :=
  .read fun db =>
    match db.row (.payment q.reference) with
    | some p => if mismatches E q.data p then applyGatewayResult E A q fun r => k (r.map fun _ => ()) else k (.ok ())
    | none =>
      .read fun db =>
        match db.row (.purchase q.reference) with
        | some t =>
          if E.lower (Ballot.pyStr E ((Json.get? q.data "status").getD (.str ""))) = "success" ∧ t.status ≠ .Success then
            applyTicketResult E q.reference q.data fun r => k (r.map fun _ => ())
          else k (.ok ())
        | none => k (.ok ())

end Payments
end FlexyVotes
