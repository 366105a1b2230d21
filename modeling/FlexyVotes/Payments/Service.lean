/-
# Paid voting

    pay -> verify -> entitlement -> votes credited

What the gateway reports of a payment is applied under its row lock:
`applyGatewayResult` moves the payment along `ALLOWED_TRANSITIONS`, checks
amount and currency, asks the risk engine and credits the votes. The ledger
row of a payment is under two unique constraints, `paid` and `ledger`.

The history of a payment (`_record`), metrics and notifications are written
for readers outside the code and are left out.
-/
import FlexyVotes.Elections.Ballot
import FlexyVotes.Core.Audit

namespace FlexyVotes
namespace Payments

open Transactions Audit

/-- A decimal of two places, given in hundredths. -/
def money (n : ℕ) : String :=
  toString (n / 100) ++ "." ++ (if n % 100 < 10 then "0" else "") ++ toString (n % 100)

/-! ### The payment state machine -/

def ALLOWED_TRANSITIONS : PaymentStatus → List PaymentStatus
  | .INITIALIZED => [.PENDING, .SUCCESS, .FAILED, .ABANDONED]
  | .PENDING => [.SUCCESS, .FAILED, .ABANDONED]
  | .ABANDONED => [.SUCCESS, .FAILED]
  | .FAILED => [.SUCCESS]
  | .SUCCESS => [.REFUNDED, .PARTIALLY_REFUNDED, .REVERSED, .DISPUTED]
  | .PARTIALLY_REFUNDED => [.REFUNDED, .DISPUTED, .REVERSED]
  | .DISPUTED => [.SUCCESS, .REVERSED, .REFUNDED]
  | .REVERSED => []
  | .REFUNDED => []

/-- `transition` changes the payment. -/
def changes (p : PaymentRow) (target : PaymentStatus) : Bool := p.status ≠ target ∧ target ∈ ALLOWED_TRANSITIONS p.status

/-- The payment after `transition`. -/
def transition (p : PaymentRow) (target : PaymentStatus) (now : Time) : PaymentRow :=
  if changes p target then { p with status := target, updatedAt := now } else p

/-- The row is saved if the transition changes it. -/
def saveTransition (reference : String) (p : PaymentRow) (target : PaymentStatus) (now : Time) (k : Program) : Program :=
  if changes p target then .put (.payment reference) (some (transition p target now)) k else k

/-! ### Crediting -/

/-- What one call of `credit_votes` draws. -/
structure CreditCall where
  /-- The primary key the ledger row will get. -/
  ledgerId : ℕ
  now : Time

/-- The ledger row of a payment. -/
def ledgerRow (reference : String) (p : PaymentRow) (candidate : ℕ) : VoteTransactionRow where
  candidate := candidate
  payment := some reference
  voterEmail := "paid-vote@" ++ (p.event.map toString).getD "None" ++ ".flexyvotes.internal"
  amountMinor := p.amountMinor
  paystackReference := reference
  status := .SUCCESS
  voteType := .MAIN
  numberOfVotes := p.totalVotes

/-- The payment, credited. -/
def credited (p : PaymentRow) (now : Time) : PaymentRow := { p with votesCredited := true, creditedAt := some now }

/-- The votes of the payment are counted. -/
def creditable (p : PaymentRow) : Bool := !p.votesCredited && p.status = .SUCCESS && !p.held

/-- A redemption of the discount code. -/
def redeem (d : DiscountCodeRow) : DiscountCodeRow := { d with redemptionsCount := d.redemptionsCount + 1 }

/-- After the ledger row: the payment is marked, its discount code redeemed.
`sep` ends each statement: nothing inside a transaction, a commit outside. -/
def markCredited (sep : Program → Program) (c : CreditCall) (reference : String) (p : PaymentRow) (k : Program) :
    Program :=
  .update (.payment reference) (fun _ => true) (credited · c.now) fun _ => sep <|
    match p.discount with
    | some d => .update (.discountCode d) (fun _ => true) redeem fun _ => sep k
    | none => k

/-- `credit_votes` inside the transaction that holds the payment; an insert
that fails is undone to the savepoint. -/
def creditVotes (c : CreditCall) (reference : String) (p : PaymentRow) (k : Program) : Program :=
  if creditable p then
    match p.candidate with
    | none => k
    | some candidate =>
      .insertOr (.paid reference) c.ledgerId k <|
      .insertOr (.ledger reference) c.ledgerId (.put (.paid reference) none k) <|
      .insertOr (.voteTransaction c.ledgerId) (ledgerRow reference p candidate)
        (.put (.ledger reference) none (.put (.paid reference) none k)) <|
      markCredited id c reference p k
  else k

/-- `credit_votes` on its own, of a payment as its caller has read it: the
ledger row is committed first. -/
def creditVotesNow (c : CreditCall) (reference : String) (p : PaymentRow) (k : Program) : Program :=
  if creditable p then
    match p.candidate with
    | none => k
    | some candidate =>
      .insertOr (.paid reference) c.ledgerId (.rollback k) <|
      .insertOr (.ledger reference) c.ledgerId (.rollback k) <|
      .insertOr (.voteTransaction c.ledgerId) (ledgerRow reference p candidate) (.rollback k) <|
      .commit <| markCredited .commit c reference p k
  else k

/-- A counted ledger row of the payment. -/
def countedOf (reference : String) : (k : Key) → Row k → Bool
  | .voteTransaction _ => fun r => r.payment = some reference && r.status = .SUCCESS
  | _ => fun _ => false

def reverse : (k : Key) → Row k → Row k
  | .voteTransaction _ => fun r => { r with status := .REVERSED }
  | _ => id

/-- `reverse_votes`. -/
def reverseVotes (reference : String) (k : Program) : Program := .updateWhere (countedOf reference) reverse k

/-! ### Applying gateway truth -/

/-- What the risk engine says of a payment. -/
structure Assessment where
  score : ℕ
  decision : String
  deriving DecidableEq

/-- `Assessment.held`. -/
def Assessment.held (a : Assessment) : Bool := a.decision = "HOLD"

/-- What stands beside the state machine: the columns a success report fills,
or the exception reading them raises, the risk engine, and the billing of a
paid invoice. -/
structure Adapters where
  details : List (String × Json) → PaymentRow → Except Failure GatewayDetails
  assess : Database → PaymentRow → Assessment
  markInvoicePaid : ℕ → String → Program → Program

/-- One call of `apply_gateway_result`. -/
structure GatewayCall where
  reference : String
  data : List (String × Json)
  credit : CreditCall
  now : ℕ → Time

/-- `(data.get(key) or default)` where the code goes on with a method of `str`. -/
def textOr (data : List (String × Json)) (key default : String) : Except Failure String :=
  let value := (Json.get? data key).getD .null
  if value.falsy then .ok default
  else
    match value with
    | .str s => .ok s
    | _ => .error (.crash "AttributeError")

/-- The status the gateway reports. -/
def gatewayStatus (E : Env) (data : List (String × Json)) : Except Failure String :=
  (textOr data "status" "").map E.lower

/-- The amount the gateway reports, in the minor unit. -/
def amountOf (E : Env) (data : List (String × Json)) : Except Failure ℤ :=
  let value := (Json.get? data "amount").getD .null
  match Ballot.pyInt E (if value.falsy then .int 0 else value) with
  | .ok n => .ok n
  | .error .invalid => .error (.crash "ValueError")
  | .error .overflow => .error (.crash "OverflowError")

/-- The currency the gateway reports, the payment's own if it reports none. -/
def currencyOf (data : List (String × Json)) (p : PaymentRow) : Except Failure String := textOr data "currency" p.currency

/-- The amount and the currency reported. -/
def amountsOf (E : Env) (data : List (String × Json)) (p : PaymentRow) : Except Failure (ℤ × String) :=
  match amountOf E data, currencyOf data p with
  | .ok amount, .ok currency => .ok (amount, currency)
  | .error e, _ => .error e
  | .ok _, .error e => .error e

/-- `amount_ok and currency_ok`: the currency without regard to case. -/
def amountsMatch (E : Env) (p : PaymentRow) (amount : ℤ) (currency : String) : Bool :=
  amount = p.amountMinor && E.upper currency = E.upper p.currency

/-- `payment.save()` of a success report. -/
def reported (p : PaymentRow) (status : String) (d : GatewayDetails) (now : Time) : PaymentRow :=
  { p with
    gatewayStatus := truncate 30 status
    gateway := d
    verifiedAt := some now
    updatedAt := now }

/-- The hold of a payment whose amount or currency is not what was asked. -/
def mismatched (E : Env) (data : List (String × Json)) (p : PaymentRow) : PaymentRow :=
  { p with
    held := true
    holdReason := "Amount/currency mismatch: expected " ++ toString p.amountMinor ++ " " ++ p.currency ++
      ", gateway reported " ++ Ballot.pyStr E ((Json.get? data "amount").getD .null) ++ " " ++
      Ballot.pyStr E ((Json.get? data "currency").getD .null) }

/-- The payment after the risk engine has looked at it. -/
def assessed (p : PaymentRow) (risk : Assessment) : PaymentRow :=
  let score := max (p.riskScore.getD 0) risk.score
  { p with
    riskScore := some score
    riskDecision := if score ≤ risk.score then risk.decision else p.riskDecision
    held := p.held || risk.held
    holdReason := if risk.held then "Risk score " ++ toString risk.score ++ " after payment" else p.holdReason }

/-- One call of `mark_invoice_paid`: its clock, and the free subscription an
organization without one gets. -/
structure InvoiceCall where
  free : SubscriptionRow
  now : Time

/-- The subscription once the invoice is paid. -/
def extended (i : InvoiceRow) (s : SubscriptionRow) : SubscriptionRow :=
  { status := .ACTIVE, currentPeriodStart := i.periodStart, currentPeriodEnd := max s.currentPeriodEnd i.periodEnd }

/-- `mark_invoice_paid`; `fail` is what a failure leaves to do. -/
def markInvoicePaid (E : Env) (q : InvoiceCall) (fail : Program) (invoice : ℕ) (reference : String) (k : Program) :
    Program :=
  .lockRow (.invoice invoice) fun
    | none => fail
    | some i =>
      if i.status = .PAID then k
      else
        .put (.invoice invoice) (some { i with status := .PAID, paidAt := some q.now }) <|
        let activate (s : SubscriptionRow) : Program :=
          .update (.subscription i.organization) (fun _ => true) (fun _ => extended i s) fun _ =>
          record E
            { eventType := "BILLING_INVOICE_PAID"
              organization := some i.organization
              targetType := "billing.Invoice"
              targetId := toString invoice
              summary := "Invoice " ++ i.number ++ " paid"
              metadata := .obj [("payment", .str reference)]
              createdAt := q.now } fail k
        .read fun db =>
          match db.row (.subscription i.organization) with
          | some s => activate s
          | none =>
            .insert (.subscription i.organization) q.free fun
              | true => activate q.free
              | false =>
                .read fun db =>
                  match db.row (.subscription i.organization) with
                  | some s => activate s
                  | none => fail

/-- The payment has still to be assessed. -/
def toAssess (p : PaymentRow) : Bool := p.purpose = .VOTE && !p.held && !p.votesCredited

/-- Votes for a vote payment that is not held, the invoice otherwise. -/
def fulfil (A : Adapters) (q : GatewayCall) (p : PaymentRow) (matching : Bool) (k : Program) : Program :=
  if p.purpose = .VOTE ∧ p.held = false then creditVotes q.credit q.reference p k
  else
    match p.purpose, p.invoice with
    | .INVOICE, some i => if matching then A.markInvoicePaid i q.reference k else k
    | _, _ => k

/-- A success report, once its columns are read. -/
def confirm (E : Env) (A : Adapters) (q : GatewayCall) (p : PaymentRow)
    (k : Except Failure (Option PaymentRow) → Program) : Program :=
  .put (.payment q.reference) (some p) <|
  match amountsOf E q.data p with
  | .error e => .rollback (k (.error e))
  | .ok (amount, currency) =>
    let done (p' : PaymentRow) : Program :=
      .commit <| .note (.succeeded q.reference amount currency) <| k (.ok (some p'))
    let p₁ := transition p .SUCCESS (q.now 1)
    saveTransition q.reference p .SUCCESS (q.now 1) <|
    if p₁.status ≠ .SUCCESS then done p₁
    else if !amountsMatch E p amount currency then
      let p₂ := mismatched E q.data p₁
      .put (.payment q.reference) (some p₂) <|
      fulfil A q p₂ false (done p₂)
    else if toAssess p₁ then
      .read fun db =>
        let p₂ := assessed p₁ (A.assess db p₁)
        .put (.payment q.reference) (some p₂) <|
        fulfil A q p₂ true (done p₂)
    else fulfil A q p₁ true (done p₁)

/-- `apply_gateway_result`. -/
def applyGatewayResult (E : Env) (A : Adapters) (q : GatewayCall)
    (k : Except Failure (Option PaymentRow) → Program) : Program :=
  .lockRow (.payment q.reference) fun
    | none => .commit (k (.ok none))
    | some p =>
      match gatewayStatus E q.data with
      | .error e => .rollback (k (.error e))
      | .ok status =>
        let settle (target : PaymentStatus) : Program :=
          saveTransition q.reference p target (q.now 0) <| .commit <| k (.ok (some (transition p target (q.now 0))))
        if status = "success" then
          match A.details q.data p with
          | .error e => .rollback (k (.error e))
          | .ok d => confirm E A q (reported p status d (q.now 0)) k
        else if status = "failed" then settle .FAILED
        else if status = "abandoned" then settle .ABANDONED
        else if status = "reversed" then
          saveTransition q.reference p .REVERSED (q.now 0) <|
          if changes p .REVERSED then
            reverseVotes q.reference <| .commit <| k (.ok (some (transition p .REVERSED (q.now 0))))
          else .commit <| k (.ok (some p))
        else
          let p' := { p with gatewayStatus := truncate 30 status }
          .put (.payment q.reference) (some p') <|
          saveTransition q.reference p' .PENDING (q.now 0) <| .commit <|
          k (.ok (some (transition p' .PENDING (q.now 0))))

/-! ### Holds and reconciliation -/

/-- One call of `release_held_payment`. -/
structure ReleaseCall where
  reference : String
  analyst : User
  notes : String
  credit : CreditCall
  now : ℕ → Time

/-- The payment without its hold. -/
def unheld (p : PaymentRow) : PaymentRow := { p with held := false, holdReason := "" }

def ReleaseCall.entry (q : ReleaseCall) (p : PaymentRow) (organization : Option ℕ) : Entry where
  eventType := "PAYMENT_HOLD_RELEASED"
  actor := some q.analyst
  event := p.event.map fun e => (e, organization)
  targetType := "payments.Payment"
  targetId := q.reference
  reason := q.notes
  createdAt := q.now 0

/-- The organization of an event. -/
def organizationOf (db : Database) (event : Option ℕ) : Option ℕ :=
  event.bind fun e => (db.row (.event e)).bind (·.organization)

/-- `release_held_payment`. -/
def releaseHeldPayment (E : Env) (q : ReleaseCall) (k : Except Failure Unit → Program) : Program :=
  .lockRow (.payment q.reference) fun
    | none => .rollback (k (.error (.crash "Payment.DoesNotExist")))
    | some p =>
      .put (.payment q.reference) (some (unheld p)) <|
      creditVotes q.credit q.reference (unheld p) <|
      .commit <|
      let audit : Program :=
        .read fun db => recordNow E (q.entry p (organizationOf db p.event)) (k (.error (.crash "DatabaseError")))
          (k (.ok ()))
      if p.status = .SUCCESS then .note (.released q.reference) audit else audit

/-- The payment, as the query of `reconcile` finds it: successful, not held and
not credited; then `credit_votes` of that object. -/
def reconcileUncredited (reference : String) (c : CreditCall) : Program :=
  .read fun db =>
    match db.row (.payment reference) with
    | none => .halt
    | some p =>
      if p.purpose = .VOTE ∧ creditable p then .note (.uncredited reference) <| creditVotesNow c reference p .halt
      else .halt

@[simp] theorem transition_purpose (p : PaymentRow) (target : PaymentStatus) (now : Time) :
    (transition p target now).purpose = p.purpose := by
  unfold transition
  split <;> rfl

@[simp] theorem reported_purpose (p : PaymentRow) (status : String) (d : GatewayDetails) (now : Time) :
    (reported p status d now).purpose = p.purpose := rfl

@[simp] theorem assessed_purpose (p : PaymentRow) (risk : Assessment) : (assessed p risk).purpose = p.purpose := rfl

/-! ### What crediting writes -/

/-- A constraint of the ledger row is taken. -/
def Taken (c : CreditCall) (reference : String) (v : Database) : Prop :=
  v.row (.paid reference) ≠ none ∨ v.row (.ledger reference) ≠ none ∨ v.row (.voteTransaction c.ledgerId) ≠ none

/-- The rows crediting writes. -/
def isCredit (c : CreditCall) (reference : String) : Key → Bool
  | .payment r => r = reference
  | .paid r => r = reference
  | .ledger r => r = reference
  | .voteTransaction pk => pk = c.ledgerId
  | .discountCode _ => true
  | _ => false

/-- The ledger row is there, and the payment is marked. -/
structure Credited (c : CreditCall) (reference : String) (p : PaymentRow) (v v' : Database) : Prop where
  ready : creditable p = true
  row : ∃ candidate, p.candidate = some candidate ∧
    v'.row (.voteTransaction c.ledgerId) = some (ledgerRow reference p candidate)
  free : ¬ Taken c reference v
  paid : v'.row (.paid reference) = some c.ledgerId
  ledger : v'.row (.ledger reference) = some c.ledgerId
  payment : v'.row (.payment reference) = (v.row (.payment reference)).map (credited · c.now)
  others : ∀ k, isCredit c reference k = false → v'.row k = v.row k

/-- Crediting in a database with the same rows. -/
theorem Credited.congr {c : CreditCall} {reference : String} {p : PaymentRow} {v v₁ v' : Database}
    (h : Credited c reference p v v') (hrows : ∀ x, v.row x = v₁.row x) : Credited c reference p v₁ v' := by
  refine ⟨h.ready, h.row, fun htaken => h.free ?_, h.paid, h.ledger, ?_, fun x hx => ?_⟩
  · unfold Taken at htaken ⊢
    rw [hrows, hrows, hrows]
    exact htaken
  · rw [h.payment, hrows]
  · rw [h.others x hx, hrows]

/-- The rows `own` are the same. -/
def Held (own : List Key) (db db' : Database) : Prop := ∀ x ∈ own, db'.row x = db.row x

section Ok

variable {S : Spec Row Note} (hS : S.Sound) {log : List Note} {c : CreditCall} {reference : String}
  {p : PaymentRow} {k : Program}

include hS in
/-- The discount code is redeemed, which no other row shows. -/
theorem redeem_ok {db : Database} {own : List Key} {w : Writes Row}
    (hk : ∀ db' own' w', Stable S own log db db' → (∀ x ∈ own, x ∈ own') →
      (∀ (db'' : Database) x, (∀ d, x ≠ .discountCode d) → (db''.apply w').row x = (db''.apply w).row x) →
      Ok S k db' own' w' log)
    (hinv : S.inv db) : Ok S (match p.discount with
      | some d => .update (.discountCode d) (fun _ => true) redeem fun _ => k
      | none => k) db own w log := by
  rcases p.discount with _ | d
  · exact hk db own w (.refl hS hinv) (fun _ h => h) fun _ _ _ => rfl
  · refine Ok.update hS (fun db₁ r h₁ _ _ => ?_) fun db₁ h₁ _ => hk db₁ own w h₁ (fun _ h => h) fun _ _ _ => rfl
    exact hk db₁ _ _ h₁ (fun x hx => List.mem_cons_of_mem _ hx) fun db'' x hx => by
      rw [Db.apply_cons, Db.set_row_ne _ _ (hx d)]

/-- The rows of the ledger of a payment, written over `w`. -/
def ledgerWrites (c : CreditCall) (reference : String) (p : PaymentRow) (candidate : ℕ) (w : Writes Row) : Writes Row :=
  ⟨.voteTransaction c.ledgerId, some (ledgerRow reference p candidate)⟩ ::
    ⟨.ledger reference, some c.ledgerId⟩ :: ⟨.paid reference, some c.ledgerId⟩ :: w

/-- Three free rows are written and the payment is marked. -/
theorem Credited.of_writes {candidate : ℕ} {db : Database} {w w' : Writes Row} (hc : creditable p = true)
    (hcand : p.candidate = some candidate) (hfree : ¬ Taken c reference (db.apply w))
    (hpay : (db.apply w').row (.payment reference) = ((db.apply w).row (.payment reference)).map (credited · c.now))
    (hrows : ∀ x, x ≠ .payment reference → (∀ d, x ≠ .discountCode d) →
      (db.apply w').row x = (db.apply (ledgerWrites c reference p candidate w)).row x) :
    Credited c reference p (db.apply w) (db.apply w') := by
  unfold ledgerWrites at hrows
  refine ⟨hc, ⟨candidate, hcand, ?_⟩, hfree, ?_, ?_, hpay, fun x hx => ?_⟩
  · rw [hrows _ (by simp) (by simp)]
    simp
  · rw [hrows _ (by simp) (by simp)]
    simp
  · rw [hrows _ (by simp) (by simp)]
    simp
  · have hx₁ : x ≠ .payment reference := fun h => by simp [h, isCredit] at hx
    have hx₂ : ∀ d, x ≠ .discountCode d := fun d h => by simp [h, isCredit] at hx
    have hx₃ : x ≠ .voteTransaction c.ledgerId := fun h => by simp [h, isCredit] at hx
    have hx₄ : x ≠ .ledger reference := fun h => by simp [h, isCredit] at hx
    have hx₅ : x ≠ .paid reference := fun h => by simp [h, isCredit] at hx
    rw [hrows x hx₁ hx₂, Db.apply_cons, Db.set_row_ne _ _ hx₃, Db.apply_cons, Db.set_row_ne _ _ hx₄,
      Db.apply_cons, Db.set_row_ne _ _ hx₅]

/-- What is left to show of crediting: that the rest goes on where nothing was
written, and then there was a reason, and where the votes are credited. -/
structure CreditGoesOn (S : Spec Row Note) (c : CreditCall) (reference : String) (p : PaymentRow) (k : Program)
    (db : Database) (own : List Key) (w : Writes Row) (log : List Note) : Prop where
  skip : ∀ db' own' w', Stable S own log db db' → (∀ x ∈ own, x ∈ own') →
    (∀ db'', Held own' db' db'' → ∀ x, (db''.apply w').row x = (db''.apply w).row x) →
    (creditable p = true → p.candidate ≠ none →
      ∃ db₁, Stable S own log db db₁ ∧ Taken c reference (db₁.apply w)) → Ok S k db' own' w' log
  credit : ∀ db' own' w', Stable S own log db db' → (∀ x ∈ own, x ∈ own') →
    .paid reference ∈ own' → .voteTransaction c.ledgerId ∈ own' →
    (∀ db'', Held own' db' db'' → Credited c reference p (db''.apply w) (db''.apply w')) → Ok S k db' own' w' log

include hS in
/-- The payment is marked and the code redeemed, after the ledger row. -/
theorem markCredited_ok {candidate : ℕ} {db : Database} {own : List Key} {w : Writes Row}
    (hpaid : .paid reference ∈ own) (hledger : .ledger reference ∈ own)
    (hrow : .voteTransaction c.ledgerId ∈ own) (hheld : .payment reference ∈ own) (hc : creditable p = true)
    (hcand : p.candidate = some candidate) (hfree : ¬ Taken c reference (db.apply w))
    (hk : ∀ db' own' w', Stable S own log db db' → (∀ x ∈ own, x ∈ own') →
      (∀ db'', Held own' db' db'' → Credited c reference p (db''.apply w) (db''.apply w')) → Ok S k db' own' w' log) :
    Ok S (markCredited id c reference p k) db own (ledgerWrites c reference p candidate w) log := by
  have hlasts : ∀ db', Held own db db' → ¬ Taken c reference (db'.apply w) := by
    rintro db' hst (h | h | h)
    · exact hfree (Or.inl (Db.apply_row_congr (hst _ hpaid) w ▸ h))
    · exact hfree (Or.inr (Or.inl (Db.apply_row_congr (hst _ hledger) w ▸ h)))
    · exact hfree (Or.inr (Or.inr (Db.apply_row_congr (hst _ hrow) w ▸ h)))
  have hview : ∀ db' : Database,
      (db'.apply (ledgerWrites c reference p candidate w)).row (.payment reference) =
        (db'.apply w).row (.payment reference) := fun db' => by simp [ledgerWrites]
  unfold markCredited
  refine Ok.update hS (fun db₁ r h₁ hr _ => ?_) fun db₁ h₁ hnone => ?_
  · have hown : ∀ x ∈ own, x ∈ Key.payment reference :: own := fun x hx => List.mem_cons_of_mem _ hx
    refine redeem_ok hS (fun db' own' w' hst hsub hrows => ?_) h₁.inv
    refine hk db' own' w' (h₁.trans hS (hst.sub hS hown)) (fun x hx => hsub x (hown x hx)) fun db'' hheld' => ?_
    have hheld'' : Held own db db'' := fun x hx =>
      (hheld' x (hsub x (hown x hx))).trans ((hst.held x (hown x hx)).trans (h₁.held x hx))
    refine Credited.of_writes hc hcand (hlasts db'' hheld'') ?_ fun x hx hd => ?_
    · have hrow'' : (db''.apply w).row (.payment reference) = some r := by
        rw [← hr, hview, Db.apply_row_congr _ w]
        exact (hheld' _ (hsub _ (hown _ hheld))).trans (hst.held _ (hown _ hheld))
      rw [hrows _ _ (by simp), Db.apply_cons, Db.set_row_self, hrow'']
      rfl
    · rw [hrows _ x hd, Db.apply_cons, Db.set_row_ne _ _ hx]
  · refine redeem_ok hS (fun db' own' w' hst hsub hrows => ?_) h₁.inv
    refine hk db' own' w' (h₁.trans hS hst) hsub fun db'' hheld' => ?_
    have hheld'' : Held own db db'' := fun x hx =>
      (hheld' x (hsub x hx)).trans ((hst.held x hx).trans (h₁.held x hx))
    refine Credited.of_writes hc hcand (hlasts db'' hheld'') ?_ fun x hx hd => ?_
    · have hnone' : (db''.apply w).row (.payment reference) = none := by
        rw [Db.apply_row_congr ((hheld' _ (hsub _ hheld)).trans (hst.held _ hheld)) w, ← hview]
        rcases hr : (db₁.apply (ledgerWrites c reference p candidate w)).row (.payment reference) with _ | r
        · rfl
        · exact absurd (hnone r hr) (by simp)
      rw [hrows _ _ (by simp), hview, hnone']
      rfl
    · rw [hrows _ x hd]

include hS in
/-- **Crediting inside a transaction** writes the ledger row and marks the
payment, or writes nothing. -/
theorem creditVotes_ok {db : Database} {own : List Key} {w : Writes Row} (hinv : S.inv db)
    (hheld : .payment reference ∈ own) (h : CreditGoesOn S c reference p k db own w log) :
    Ok S (creditVotes c reference p k) db own w log := by
  have hrefl : Stable S own log db db := .refl hS hinv
  unfold creditVotes
  by_cases hc : creditable p = true
  swap
  · rw [if_neg hc]
    exact h.skip db own w hrefl (fun _ h => h) (fun _ _ _ => rfl) fun h => absurd h hc
  rw [if_pos hc]
  rcases hcand : p.candidate with _ | candidate
  · exact h.skip db own w hrefl (fun _ h => h) (fun _ _ _ => rfl) fun _ hne => absurd hcand hne
  dsimp only
  intro db₁ h₁
  refine ⟨fun hpaid db₂ h₂ => ?_, fun htaken =>
    h.skip db₁ own w h₁ (fun _ h => h) (fun _ _ _ => rfl) fun _ _ => ⟨db₁, h₁, Or.inl htaken⟩⟩
  have hsub₁ : ∀ x ∈ own, x ∈ Key.paid reference :: own := fun x hx => List.mem_cons_of_mem _ hx
  have h₁₂ := h₁.trans hS (h₂.sub hS hsub₁)
  have hpaid₂ : (db₂.apply w).row (.paid reference) = none :=
    (Db.apply_row_congr (h₂.held _ List.mem_cons_self) w).trans hpaid
  refine ⟨fun hledger db₃ h₃ => ?_, fun htaken => ⟨by simp, fun db₃ h₃ => ?_⟩⟩
  swap
  · -- the reference is taken: back to the savepoint
    refine h.skip db₃ _ _ (h₁₂.trans hS (h₃.sub hS hsub₁)) hsub₁ (fun db'' hh x => ?_) fun _ _ =>
      ⟨db₂, h₁₂, Or.inr (Or.inl (by simpa using htaken))⟩
    by_cases hx : x = .paid reference
    · have hrow := (hh (.paid reference) List.mem_cons_self).trans (h₃.held _ List.mem_cons_self)
      rw [hx, Db.apply_cons, Db.set_row_self, Db.apply_row_congr hrow w, hpaid₂]
    · rw [Db.apply_cons, Db.set_row_ne _ _ hx, Db.apply_cons, Db.set_row_ne _ _ hx]
  have hsub₂ : ∀ x ∈ own, x ∈ Key.ledger reference :: Key.paid reference :: own :=
    fun x hx => List.mem_cons_of_mem _ (hsub₁ x hx)
  have h₁₃ := h₁₂.trans hS (h₃.sub hS hsub₂)
  have hledger₂ : (db₂.apply w).row (.ledger reference) = none := by simpa using hledger
  have hpaid₃ : (db₃.apply w).row (.paid reference) = none :=
    (Db.apply_row_congr (h₃.held _ (by simp)) w).trans hpaid₂
  have hledger₃ : (db₃.apply w).row (.ledger reference) = none :=
    (Db.apply_row_congr (h₃.held _ List.mem_cons_self) w).trans hledger₂
  refine ⟨fun hrow => ?_, fun htaken => ⟨by simp, fun db₄ h₄ => ⟨by simp, fun db₅ h₅ => ?_⟩⟩⟩
  · have hfree : ¬ Taken c reference (db₃.apply w) := by
      rintro (ht | ht | ht)
      · exact ht hpaid₃
      · exact ht hledger₃
      · exact ht (by simpa using hrow)
    have hsub₃ : ∀ x ∈ own, x ∈ Key.voteTransaction c.ledgerId :: Key.ledger reference :: Key.paid reference :: own :=
      fun x hx => List.mem_cons_of_mem _ (hsub₂ x hx)
    refine markCredited_ok hS (by simp) (by simp) (by simp) (hsub₃ _ hheld) hc hcand hfree
      fun db' own' w' hst hsub hrel => ?_
    exact h.credit db' own' w' (h₁₃.trans hS (hst.sub hS hsub₃)) (fun x hx => hsub x (hsub₃ x hx))
      (hsub _ (by simp)) (hsub _ (by simp)) hrel
  · -- the primary key is taken: back to the savepoint
    have h₃₅ := h₄.trans hS h₅
    refine h.skip db₅ _ _ (h₁₃.trans hS (h₃₅.sub hS hsub₂)) hsub₂ (fun db'' hh x => ?_) fun _ _ =>
      ⟨db₃, h₁₃, Or.inr (Or.inr (by simpa using htaken))⟩
    have hrow : ∀ y ∈ Key.ledger reference :: Key.paid reference :: own, db''.row y = db₃.row y := fun y hy =>
      (hh y hy).trans (h₃₅.held y hy)
    by_cases hx : x = .paid reference
    · rw [hx, Db.apply_cons, Db.set_row_self, Db.apply_row_congr (hrow _ (by simp)) w, hpaid₃]
    · rw [Db.apply_cons, Db.set_row_ne _ _ hx]
      by_cases hx' : x = .ledger reference
      · rw [hx', Db.apply_cons, Db.set_row_self, Db.apply_row_congr (hrow _ (by simp)) w, hledger₃]
      · rw [Db.apply_cons, Db.set_row_ne _ _ hx', Db.apply_cons, Db.set_row_ne _ _ hx', Db.apply_cons,
          Db.set_row_ne _ _ hx]

end Ok

/-! ### What a report comes to -/

/-- What a report does beside the payment's own row. -/
inductive Effect
  | nothing | credit | reverse
  deriving DecidableEq

/-- What a report comes to, for a vote payment. -/
structure Decision where
  payment : PaymentRow
  effect : Effect
  /-- The amount and the currency of a success report. -/
  report : Option (ℤ × String)

/-- A success report, from the payment with its columns filled. -/
def decideSuccess (E : Env) (q : GatewayCall) (risk : PaymentRow → Assessment) (p : PaymentRow) :
    Except Failure Decision :=
  match amountsOf E q.data p with
  | .error e => .error e
  | .ok (amount, currency) =>
    let p₁ := transition p .SUCCESS (q.now 1)
    if p₁.status ≠ .SUCCESS then .ok ⟨p₁, .nothing, some (amount, currency)⟩
    else if !amountsMatch E p amount currency then
      .ok ⟨mismatched E q.data p₁, .nothing, some (amount, currency)⟩
    else
      let p₂ := if toAssess p₁ then assessed p₁ (risk p₁) else p₁
      .ok ⟨p₂, if p₂.held then .nothing else .credit, some (amount, currency)⟩

/-- The decision of `apply_gateway_result` on the payment it has locked. -/
def decideReport (E : Env) (A : Adapters) (q : GatewayCall) (risk : PaymentRow → Assessment) (p : PaymentRow) :
    Except Failure Decision :=
  match gatewayStatus E q.data with
  | .error e => .error e
  | .ok status =>
    if status = "success" then
      match A.details q.data p with
      | .error e => .error e
      | .ok d => decideSuccess E q risk (reported p status d (q.now 0))
    else if status = "failed" then .ok ⟨transition p .FAILED (q.now 0), .nothing, none⟩
    else if status = "abandoned" then .ok ⟨transition p .ABANDONED (q.now 0), .nothing, none⟩
    else if status = "reversed" then
      .ok ⟨transition p .REVERSED (q.now 0), if changes p .REVERSED then .reverse else .nothing, none⟩
    else .ok ⟨transition { p with gatewayStatus := truncate 30 status } .PENDING (q.now 0), .nothing, none⟩

section Decide

variable {E : Env} {A : Adapters} {q : GatewayCall} {risk : PaymentRow → Assessment} {p : PaymentRow}

theorem decide_success {d : GatewayDetails} (hs : gatewayStatus E q.data = .ok "success")
    (hd : A.details q.data p = .ok d) :
    decideReport E A q risk p = decideSuccess E q risk (reported p "success" d (q.now 0)) := by simp [decideReport, hs, hd]

theorem decide_failed (hs : gatewayStatus E q.data = .ok "failed") :
    decideReport E A q risk p = .ok ⟨transition p .FAILED (q.now 0), .nothing, none⟩ := by simp [decideReport, hs]

theorem decide_abandoned (hs : gatewayStatus E q.data = .ok "abandoned") :
    decideReport E A q risk p = .ok ⟨transition p .ABANDONED (q.now 0), .nothing, none⟩ := by simp [decideReport, hs]

theorem decide_reversed (hs : gatewayStatus E q.data = .ok "reversed") : decideReport E A q risk p =
    .ok ⟨transition p .REVERSED (q.now 0), if changes p .REVERSED then .reverse else .nothing, none⟩ := by
  simp [decideReport, hs]

theorem decide_pending {status : String} (hs : gatewayStatus E q.data = .ok status) (h₁ : status ≠ "success")
    (h₂ : status ≠ "failed") (h₃ : status ≠ "abandoned") (h₄ : status ≠ "reversed") : decideReport E A q risk p =
    .ok ⟨transition { p with gatewayStatus := truncate 30 status } .PENDING (q.now 0), .nothing, none⟩ := by
  simp [decideReport, hs, h₁, h₂, h₃, h₄]

/-- The payment goes on to SUCCESS, or is there. -/
def Succeeds (q : GatewayCall) (p : PaymentRow) : Prop := (transition p .SUCCESS (q.now 1)).status = .SUCCESS

theorem decideSuccess_stays {amount : ℤ} {currency : String} (hm : amountsOf E q.data p = .ok (amount, currency))
    (hs : ¬ Succeeds q p) :
    decideSuccess E q risk p = .ok ⟨transition p .SUCCESS (q.now 1), .nothing, some (amount, currency)⟩ := by
  unfold Succeeds at hs
  simp [decideSuccess, hm, hs]

theorem decideSuccess_mismatched {amount : ℤ} {currency : String}
    (hm : amountsOf E q.data p = .ok (amount, currency)) (hs : Succeeds q p)
    (hmatch : amountsMatch E p amount currency = false) : decideSuccess E q risk p =
      .ok ⟨mismatched E q.data (transition p .SUCCESS (q.now 1)), .nothing, some (amount, currency)⟩ := by
  unfold Succeeds at hs
  simp [decideSuccess, hm, hs, hmatch]

/-- The payment a matching report credits, unless it is held. -/
def looked (risk : PaymentRow → Assessment) (p : PaymentRow) : PaymentRow :=
  if toAssess p then assessed p (risk p) else p

theorem decideSuccess_matching {amount : ℤ} {currency : String}
    (hm : amountsOf E q.data p = .ok (amount, currency)) (hs : Succeeds q p)
    (hmatch : amountsMatch E p amount currency = true) :
    decideSuccess E q risk p = .ok ⟨looked risk (transition p .SUCCESS (q.now 1)),
      if (looked risk (transition p .SUCCESS (q.now 1))).held then .nothing else .credit,
      some (amount, currency)⟩ := by
  unfold Succeeds at hs
  unfold decideSuccess
  rw [hm]
  dsimp only
  rw [if_neg (not_not.mpr hs), if_neg (by simp [hmatch])]
  rfl

end Decide

/-- What the effect of a decision makes of the database `v`, in which the
payment is saved; `taken` tells that a credit found a constraint taken, `alone`
that nobody writes ledger rows meanwhile. -/
inductive Made (c : CreditCall) (reference : String) (d : Decision) (taken alone : Prop) (v v' : Database) : Prop
  | nothing (h : d.effect = .nothing) (hrows : ∀ x, v'.row x = v.row x)
  | skipped (h : d.effect = .credit) (hrows : ∀ x, v'.row x = v.row x)
    (why : creditable d.payment = true → d.payment.candidate ≠ none → taken)
  | credited (h : d.effect = .credit) (hcredit : Credited c reference d.payment v v')
  | reversed (h : d.effect = .reverse)
    (hrows : ∀ x, v'.row x = v.row x ∨ v'.row x = (v.row x).map (updated (countedOf reference) reverse x))
    (hall : alone → ∀ x, v'.row x = (v.row x).map (updated (countedOf reference) reverse x))

/-- A decision's effect leaves the rows that are not the payment's, its ledger's
or a code's. -/
theorem Made.row {c : CreditCall} {reference : String} {d : Decision} {taken alone : Prop} {v v' : Database}
    (h : Made c reference d taken alone v v') {x : Key} (hx : isCredit c reference x = false)
    (hx' : ∀ r, countedOf reference x r = false) : v'.row x = v.row x := by
  rcases h with ⟨-, hrows⟩ | ⟨-, hrows, -⟩ | ⟨-, hcredit⟩ | ⟨-, hrows, -⟩
  · exact hrows x
  · exact hrows x
  · exact hcredit.others x hx
  · rcases hrows x with h | h
    · exact h
    · rw [h]
      rcases v.row x with _ | r
      · rfl
      · simp [updated, hx' r]

/-- A decision's effect does no more to a payment than to mark it credited. -/
theorem Made.payment {c : CreditCall} {reference : String} {d : Decision} {taken alone : Prop} {v v' : Database}
    (h : Made c reference d taken alone v v') (r : String) : v'.row (.payment r) = v.row (.payment r) ∨
      r = reference ∧ d.effect = .credit ∧ v'.row (.payment r) = (v.row (.payment r)).map (Payments.credited · c.now) := by
  by_cases hr : r = reference
  · subst hr
    rcases h with ⟨-, hrows⟩ | ⟨-, hrows, -⟩ | ⟨hd, hcredit⟩ | ⟨-, hrows, -⟩
    · exact Or.inl (hrows _)
    · exact Or.inl (hrows _)
    · exact Or.inr ⟨rfl, hd, hcredit.payment⟩
    · rcases hrows (.payment r) with h | h
      · exact Or.inl h
      · refine Or.inl (h.trans ?_)
        rcases v.row (.payment r) with _ | p <;> rfl
  · exact Or.inl (h.row (by simp [isCredit, hr]) fun _ => rfl)

/-- A ledger row that counts after a decision's effect counted before, or is the
one just credited. -/
theorem Made.ledger {c : CreditCall} {reference : String} {d : Decision} {taken alone : Prop} {v v' : Database}
    (h : Made c reference d taken alone v v') {pk : ℕ} {l : VoteTransactionRow}
    (hl : v'.row (.voteTransaction pk) = some l) (hs : l.status = .SUCCESS) :
    v.row (.voteTransaction pk) = some l ∨ l.payment = some reference ∧ creditable d.payment = true ∧
      v'.row (.payment reference) = (v.row (.payment reference)).map (Payments.credited · c.now) := by
  rcases h with ⟨-, hrows⟩ | ⟨-, hrows, -⟩ | ⟨-, hcredit⟩ | ⟨-, hrows, -⟩
  · exact Or.inl ((hrows _).symm.trans hl)
  · exact Or.inl ((hrows _).symm.trans hl)
  · by_cases hpk : pk = c.ledgerId
    · subst hpk
      obtain ⟨candidate, -, hrow⟩ := hcredit.row
      obtain rfl := Option.some.inj (hl.symm.trans hrow)
      exact Or.inr ⟨rfl, hcredit.ready, hcredit.payment⟩
    · exact Or.inl ((hcredit.others _ (by simpa [isCredit] using hpk)).symm.trans hl)
  · rcases hrows (.voteTransaction pk) with h | h
    · exact Or.inl (h.symm.trans hl)
    · rw [hl] at h
      obtain ⟨l₀, hl₀, h⟩ := Option.map_eq_some_iff.mp h.symm
      unfold updated at h
      by_cases hcount : countedOf reference (.voteTransaction pk) l₀ = true
      · rw [if_pos hcount] at h
        have hreversed : l.status = .REVERSED := by rw [← h]; rfl
        rw [hreversed] at hs
        cases hs
      · rw [if_neg hcount] at h
        exact Or.inl (h ▸ hl₀)

/-- The database with the payment saved. -/
def saved (db : Database) (reference : String) (p : PaymentRow) : Database := db.set (.payment reference) (some p)

/-- The writes `w` amount to the payment `p` saved, while its row is held. -/
def Saves (reference : String) (p : PaymentRow) (w : Writes Row) (db : Database) : Prop :=
  ∀ db' : Database, db'.row (.payment reference) = db.row (.payment reference) →
    ∀ x, (db'.apply w).row x = (saved db' reference p).row x

theorem Saves.nil {reference : String} {p : PaymentRow} {db : Database} (h : db.row (.payment reference) = some p) :
    Saves reference p [] db := by
  intro db' hrow x
  unfold saved
  by_cases hx : x = .payment reference
  · subst hx
    rw [Db.set_row_self, Db.apply_nil, hrow, h]
  · rw [Db.set_row_ne _ _ hx, Db.apply_nil]

theorem Saves.put {reference : String} {p p' : PaymentRow} {w : Writes Row} {db : Database}
    (h : Saves reference p w db) : Saves reference p' (⟨.payment reference, some p'⟩ :: w) db := by
  intro db' hrow x
  have hx' := h db' hrow x
  unfold saved at *
  by_cases hx : x = .payment reference
  · subst hx
    rw [Db.set_row_self, Db.apply_cons, Db.set_row_self]
  · rw [Db.set_row_ne _ _ hx] at hx' ⊢
    rw [Db.apply_cons, Db.set_row_ne _ _ hx, hx']

theorem Saves.held {reference : String} {p : PaymentRow} {w : Writes Row} {db db' : Database}
    (h : Saves reference p w db) (hrow : db'.row (.payment reference) = db.row (.payment reference)) :
    Saves reference p w db' := fun db'' hrow' => h db'' (hrow'.trans hrow)

/-- The rows a paid invoice writes. -/
def isInvoice : Key → Bool
  | .invoice _ => true
  | .subscription _ => true
  | .auditHead _ => true
  | .auditEvent _ _ => true
  | _ => false

theorem isInvoice_of_audit {x : Key} (hx : isAudit x = true) : isInvoice x = true := by
  cases x <;> first
    | rfl
    | cases hx

section Ok

variable {S : Spec Row Note} (hS : S.Sound) {E : Env} {A : Adapters} {q : GatewayCall} {log : List Note}
  {k : Except Failure (Option PaymentRow) → Program}

/-- What follows the commit of a decision. -/
def afterReport (reference : String) (d : Decision) (k : Except Failure (Option PaymentRow) → Program) : Program :=
  match d.report with
  | some (amount, currency) => .note (.succeeded reference amount currency) (k (.ok (some d.payment)))
  | none => k (.ok (some d.payment))

/-- A credit met a row that was there beside its own transaction. -/
def MetTaken (S : Spec Row Note) (c : CreditCall) (reference : String) (p : PaymentRow) (db : Database) : Prop :=
  ∃ own log db₀ db₁, Stable S own log db₀ db ∧ Stable S own log db₀ db₁ ∧ Taken c reference (saved db₁ reference p)

/-- Whoever holds the payment sees no ledger row of it begin to count. -/
def Alone (S : Spec Row Note) (reference : String) : Prop :=
  ∀ own log, .payment reference ∈ own → NoneBegins S (countedOf reference) own log

/-- What a report has to show of its commit. -/
def ReportCommits (S : Spec Row Note) (E : Env) (A : Adapters) (q : GatewayCall)
    (k : Except Failure (Option PaymentRow) → Program) (log : List Note) : Prop :=
  ∀ own db db' db₀ p d, S.inv db → .payment q.reference ∈ own → db.row (.payment q.reference) = some p →
    decideReport E A q (A.assess db₀) p = .ok d →
    Made q.credit q.reference d (MetTaken S q.credit q.reference d.payment db)
      (Alone S q.reference) (saved db q.reference d.payment) db' →
    S.inv db' ∧ S.guar own ((afterReport q.reference d k).settle log).2 db db' ∧
      Ok S (afterReport q.reference d k) db' [] [] log

/-- The commit of a decision. -/
theorem finish_ok (hdone : ReportCommits S E A q k log) {d : Decision} {db db₀ : Database} {own : List Key}
    {w : Writes Row} {p : PaymentRow} (hown : .payment q.reference ∈ own)
    (hp : db.row (.payment q.reference) = some p) (hd : decideReport E A q (A.assess db₀) p = .ok d)
    (hmade : ∀ db', Stable S own log db db' →
      Made q.credit q.reference d (MetTaken S q.credit q.reference d.payment db')
        (Alone S q.reference) (saved db' q.reference d.payment) (db'.apply w)) :
    Ok S (.commit (afterReport q.reference d k)) db own w log := by
  intro db' h'
  exact hdone own db' (db'.apply w) db₀ p d h'.inv hown ((h'.held _ hown).trans hp) hd (hmade db' h')

/-- The commit of a decision that only saves the payment. -/
theorem save_ok (hdone : ReportCommits S E A q k log) {d : Decision} {db db₀ : Database} {own : List Key}
    {w : Writes Row} {p : PaymentRow} (hown : .payment q.reference ∈ own)
    (hp : db.row (.payment q.reference) = some p) (hd : decideReport E A q (A.assess db₀) p = .ok d)
    (heffect : d.effect = .nothing) (hw : Saves q.reference d.payment w db) :
    Ok S (.commit (afterReport q.reference d k)) db own w log :=
  finish_ok hdone hown hp hd fun db' h' => .nothing heffect (hw db' (h'.held _ hown))

include hS in
/-- The row of a transition is saved, if it changes. -/
theorem saveTransition_ok {db : Database} {own : List Key} {w : Writes Row} {p : PaymentRow} {target : PaymentStatus}
    {now : Time} {rest : Program} (hinv : S.inv db) (hown : .payment q.reference ∈ own)
    (hw : Saves q.reference p w db)
    (hrest : ∀ db' w', Stable S own log db db' → Saves q.reference (transition p target now) w' db' →
      (∀ e ∈ w, e.1 = .payment q.reference) → (∀ e ∈ w', e.1 = .payment q.reference) → Ok S rest db' own w' log)
    (hkeys : ∀ e ∈ w, e.1 = .payment q.reference) :
    Ok S (saveTransition q.reference p target now rest) db own w log := by
  unfold saveTransition
  by_cases hc : changes p target = true
  · rw [if_pos hc]
    refine ⟨hown, fun db' h' => hrest db' _ h' (hw.held (h'.held _ hown)).put hkeys fun e he => ?_⟩
    rcases List.mem_cons.mp he with rfl | he
    · rfl
    · exact hkeys e he
  · rw [if_neg hc]
    refine hrest db w (.refl hS hinv) ?_ hkeys hkeys
    unfold transition
    rw [if_neg hc]
    exact hw

include hS in
/-- Votes are credited or not, and the decision is committed. -/
theorem fulfil_ok (hdone : ReportCommits S E A q k log) {d : Decision} {matching : Bool} {db db₀ : Database}
    {own : List Key} {w : Writes Row} {p : PaymentRow} (hinv : S.inv db) (hown : .payment q.reference ∈ own)
    (hp : db.row (.payment q.reference) = some p) (hd : decideReport E A q (A.assess db₀) p = .ok d)
    (hvote : d.payment.purpose = .VOTE) (heffect : d.effect = if d.payment.held then .nothing else .credit)
    (hw : Saves q.reference d.payment w db) :
    Ok S (fulfil A q d.payment matching (.commit (afterReport q.reference d k))) db own w log := by
  unfold fulfil
  by_cases hheld : d.payment.held = true
  · have hnot : ¬ (d.payment.purpose = .VOTE ∧ d.payment.held = false) := by simp [hheld]
    rw [if_neg hnot, hvote]
    rw [if_pos hheld] at heffect
    exact save_ok hdone hown hp hd heffect hw
  · have hfree : d.payment.held = false := by simpa using hheld
    rw [if_pos ⟨hvote, hfree⟩]
    rw [if_neg hheld] at heffect
    refine creditVotes_ok hS hinv hown ⟨fun db' own' w' h' hsub hrows hwhy => ?_,
      fun db' own' w' h' hsub _ _ hcredit => ?_⟩
    · refine finish_ok hdone (hsub _ hown) ((h'.held _ hown).trans hp) hd fun db'' h'' => ?_
      have hst : Stable S own log db db'' := h'.trans hS (h''.sub hS hsub)
      refine .skipped heffect (fun x => (hrows db'' h''.held x).trans (hw db'' (hst.held _ hown) x)) fun hc hne => ?_
      obtain ⟨db₁, h₁, htaken⟩ := hwhy hc hne
      have hview := hw db₁ (h₁.held _ hown)
      refine ⟨own, log, db, db₁, hst, h₁, ?_⟩
      unfold Taken at htaken ⊢
      rw [← hview, ← hview, ← hview]
      exact htaken
    · refine finish_ok hdone (hsub _ hown) ((h'.held _ hown).trans hp) hd fun db'' h'' => .credited heffect ?_
      have hst : Stable S own log db db'' := h'.trans hS (h''.sub hS hsub)
      exact (hcredit db'' h''.held).congr (hw db'' (hst.held _ hown))

include hS in
/-- A success report, its columns read. -/
theorem confirm_ok (hk : FailsOk S k log) (hdone : ReportCommits S E A q k log) {p p₀ : PaymentRow}
    {db : Database} {own : List Key} (hown : .payment q.reference ∈ own)
    (hp : db.row (.payment q.reference) = some p₀) (hvote : p.purpose = .VOTE)
    (hd : ∀ db', decideReport E A q (A.assess db') p₀ = decideSuccess E q (A.assess db') p) :
    Ok S (confirm E A q p k) db own [] log := by
  unfold confirm
  refine ⟨hown, fun db₁ h₁ => ?_⟩
  have hp₁ : db₁.row (.payment q.reference) = some p₀ := (h₁.held _ hown).trans hp
  have hw₁ : Saves q.reference p [⟨.payment q.reference, some p⟩] db₁ := (Saves.nil hp₁).put
  rcases hm : amountsOf E q.data p with e | ⟨amount, currency⟩
  · exact hk.rollback
  dsimp only
  refine saveTransition_ok hS h₁.inv hown hw₁ (fun db₂ w₂ h₂ hw₂ _ _ => ?_) (by simp)
  have hp₂ : db₂.row (.payment q.reference) = some p₀ := (h₂.held _ hown).trans hp₁
  have hvote₂ : (transition p .SUCCESS (q.now 1)).purpose = .VOTE := by rw [transition_purpose, hvote]
  by_cases hs : (transition p .SUCCESS (q.now 1)).status ≠ .SUCCESS
  · rw [if_pos hs]
    have hd₂ := (hd db₂).trans (decideSuccess_stays hm hs)
    exact save_ok hdone hown hp₂ hd₂ rfl hw₂
  rw [if_neg hs]
  have hs' : Succeeds q p := not_not.mp hs
  rcases hmatch : amountsMatch E p amount currency with _ | _
  · -- the amount or the currency is another
    rw [if_pos (show (!false) = true from rfl)]
    refine ⟨hown, fun db₃ h₃ => ?_⟩
    have hd₃ := (hd db₃).trans (decideSuccess_mismatched hm hs' hmatch)
    exact fulfil_ok hS hdone h₃.inv hown ((h₃.held _ hown).trans hp₂) hd₃ hvote₂ rfl (hw₂.held (h₃.held _ hown)).put
  rw [if_neg (by simp)]
  have hd' := fun db' => (hd db').trans (decideSuccess_matching hm hs' hmatch)
  unfold looked at hd'
  by_cases ha : toAssess (transition p .SUCCESS (q.now 1)) = true
  · rw [if_pos ha]
    simp only [if_pos ha] at hd'
    intro db₃ h₃
    have hp₃ := (h₃.held _ hown).trans hp₂
    refine ⟨hown, fun db₄ h₄ => ?_⟩
    have hw₄ := (hw₂.held (h₃.held _ hown)).held (h₄.held _ hown)
    exact fulfil_ok hS hdone h₄.inv hown ((h₄.held _ hown).trans hp₃) (hd' _) hvote₂ rfl hw₄.put
  · rw [if_neg ha]
    simp only [if_neg ha] at hd'
    exact fulfil_ok hS hdone h₂.inv hown hp₂ (hd' db₂) hvote₂ rfl hw₂

include hS in
/-- A report that only moves the payment. -/
theorem settle_ok (hdone : ReportCommits S E A q k log) {p p₀ : PaymentRow} {target : PaymentStatus} {now : Time}
    {w : Writes Row} {db : Database} {own : List Key} (hinv : S.inv db) (hown : .payment q.reference ∈ own)
    (hp : db.row (.payment q.reference) = some p₀) (hw : Saves q.reference p w db)
    (hkeys : ∀ e ∈ w, e.1 = .payment q.reference)
    (hd : decideReport E A q (A.assess db) p₀ = .ok ⟨transition p target now, .nothing, none⟩) :
    Ok S (saveTransition q.reference p target now <| .commit <| k (.ok (some (transition p target now)))) db own w
      log := by
  refine saveTransition_ok hS hinv hown hw (fun db₁ w₁ h₁ hw₁ _ _ => ?_) hkeys
  exact save_ok hdone (d := ⟨transition p target now, .nothing, none⟩) hown ((h₁.held _ hown).trans hp) hd rfl hw₁

theorem reverse_uncounts {reference : String} (x : Key) (r : Row x) (h : countedOf reference x r = true) :
    countedOf reference x (reverse x r) = false := by
  cases x <;> first
    | cases h
    | simp [countedOf, reverse]

/-- Ledger rows written over a saved payment. -/
theorem saved_over {reference : String} {p : PaymentRow} {u w : Writes Row} {db db' : Database}
    (hw : Saves reference p w db) (hrow : db'.row (.payment reference) = db.row (.payment reference))
    (hu : ∀ e ∈ u, ∃ r, db'.row e.1 = some r ∧ countedOf reference e.1 r = true) (x : Key) :
    x = .payment reference ∧ (db'.apply (u ++ w)).row x = (saved db' reference p).row x ∨
      (saved db' reference p).row x = db'.row x ∧ (db'.apply (u ++ w)).row x = (db'.apply u).row x := by
  have hview := hw db' hrow x
  rw [Db.apply_append]
  by_cases hx : x = .payment reference
  · refine Or.inl ⟨hx, ?_⟩
    rw [← hview]
    refine Db.apply_row_of_notMem _ x u fun e he heq => ?_
    obtain ⟨r, -, hr⟩ := hu e he
    obtain ⟨y, v⟩ := e
    obtain rfl : y = .payment reference := heq.trans hx
    cases hr
  · have hsaved : (saved db' reference p).row x = db'.row x := Db.set_row_ne _ _ hx
    exact Or.inr ⟨hsaved, Db.apply_row_congr (hview.trans hsaved) u⟩

include hS in
/-- `reverse_votes` over the saved payment: ledger rows of the payment are
reversed, all that counted if none begins to count. -/
theorem reverseVotes_ok {reference : String} {p : PaymentRow} {w : Writes Row} {db : Database} {own : List Key}
    {rest : Program} (hown : .payment reference ∈ own) (hw : Saves reference p w db)
    (hkeys : ∀ e ∈ w, e.1 = .payment reference)
    (hrest : ∀ db' own' w', Stable S own log db db' → (∀ k ∈ own, k ∈ own') →
      (∀ db'', Stable S own' log db' db'' →
        (∀ x, (db''.apply w').row x = (saved db'' reference p).row x ∨ (db''.apply w').row x =
          ((saved db'' reference p).row x).map (updated (countedOf reference) reverse x)) ∧
        (Alone S reference → ∀ x, (db''.apply w').row x =
          ((saved db'' reference p).row x).map (updated (countedOf reference) reverse x))) →
      Ok S rest db' own' w' log) : Ok S (reverseVotes reference rest) db own w log := by
  have hw₀ : ∀ e ∈ w, ∀ r, countedOf reference e.1 r = false := fun ⟨x, _⟩ he r => by
    have hx : x = .payment reference := hkeys _ he
    subst hx
    rfl
  refine Ok.updateWhere_if_over hS hw₀ reverse_uncounts fun db₁ own₁ u h₁ hsub hpart hall => ?_
  refine hrest db₁ own₁ (u ++ w) h₁ hsub fun db₂ h₂ => ?_
  have hrow : db₂.row (.payment reference) = db.row (.payment reference) :=
    (h₂.held _ (hsub _ hown)).trans (h₁.held _ hown)
  have hpart₂ := hpart.stable (fun _ h => h) h₂
  refine ⟨fun x => ?_, fun halone x => ?_⟩
  · rcases saved_over hw hrow hpart₂.meets x with ⟨-, h⟩ | ⟨hx, h⟩
    · exact Or.inl h
    · rw [hx, h]
      exact hpart₂.rows x
  · have hupd := (hall (halone _ _ hown)).stable (halone own₁ log (hsub _ hown)) (fun _ h => h) h₂
    rcases saved_over hw hrow hupd.meets x with ⟨rfl, h⟩ | ⟨hx, h⟩
    · rw [h]
      exact Option.map_id'.symm
    · rw [hx, h]
      exact hupd.rows x

include hS in
/-- A reversal: the counted ledger rows of the payment are reversed. -/
theorem reverse_ok (hdone : ReportCommits S E A q k log) {p : PaymentRow} {w : Writes Row} {db db₀ : Database}
    {own : List Key} (hown : .payment q.reference ∈ own) (hp : db.row (.payment q.reference) = some p)
    (hw : Saves q.reference (transition p .REVERSED (q.now 0)) w db)
    (hkeys : ∀ e ∈ w, e.1 = .payment q.reference)
    (hd : decideReport E A q (A.assess db₀) p = .ok ⟨transition p .REVERSED (q.now 0), .reverse, none⟩) :
    Ok S (reverseVotes q.reference <| .commit <| k (.ok (some (transition p .REVERSED (q.now 0))))) db own w
      log := by
  refine reverseVotes_ok hS hown hw hkeys fun db₁ own₁ w₁ h₁ hsub hview => ?_
  refine finish_ok hdone (hsub _ hown) ((h₁.held _ hown).trans hp) hd fun db₂ h₂ => ?_
  obtain ⟨hrows, hall⟩ := hview db₂ h₂
  exact .reversed rfl hrows hall

include hS in
/-- Applying a report commits what `decideReport` comes to, if a report of a
success does. -/
theorem applyGatewayResult_of (hk : FailsOk S k log) (hdone : ReportCommits S E A q k log) {db : Database}
    (hconfirm : ∀ db p d, S.inv db → db.row (.payment q.reference) = some p → gatewayStatus E q.data = .ok "success" →
      A.details q.data p = .ok d →
      Ok S (confirm E A q (reported p "success" d (q.now 0)) k) db [.payment q.reference] [] log)
    (hnone : ∀ own db, S.inv db → S.guar own ((k (.ok none)).settle log).2 db db ∧ Ok S (k (.ok none)) db [] [] log) :
    Ok S (applyGatewayResult E A q k) db [] [] log := by
  unfold applyGatewayResult
  refine Ok.lockRow (fun db₁ p h₁ hp => ?_) fun db₁ h₁ db₂ h₂ => ?_
  swap
  · exact ⟨h₂.inv, hnone _ _ h₂.inv⟩
  have hown : Key.payment q.reference ∈ [Key.payment q.reference] := by simp
  have hp₁ : db₁.row (.payment q.reference) = some p := by simpa using hp
  have hnil : ∀ e ∈ ([] : Writes Row), e.1 = .payment q.reference := by simp
  rcases hs : gatewayStatus E q.data with e | status
  · exact hk.rollback
  dsimp only
  by_cases hsucc : status = "success"
  · subst hsucc
    rw [if_pos rfl]
    rcases hcols : A.details q.data p with e | d
    · exact hk.rollback
    exact hconfirm db₁ p d h₁.inv hp₁ hs hcols
  rw [if_neg hsucc]
  by_cases hfail : status = "failed"
  · subst hfail
    rw [if_pos rfl]
    exact settle_ok hS hdone h₁.inv hown hp₁ (.nil hp₁) hnil (decide_failed hs)
  rw [if_neg hfail]
  by_cases haban : status = "abandoned"
  · subst haban
    rw [if_pos rfl]
    exact settle_ok hS hdone h₁.inv hown hp₁ (.nil hp₁) hnil (decide_abandoned hs)
  rw [if_neg haban]
  by_cases hrev : status = "reversed"
  · subst hrev
    rw [if_pos rfl]
    refine saveTransition_ok hS h₁.inv hown (.nil hp₁) (fun db₂ w₂ h₂ hw₂ _ hkeys => ?_) hnil
    have hp₂ := (h₂.held _ hown).trans hp₁
    have hd₂ : decideReport E A q (A.assess db₂) p = _ := decide_reversed hs
    by_cases hc : changes p .REVERSED = true
    · rw [if_pos hc] at hd₂ ⊢
      exact reverse_ok hS hdone hown hp₂ hw₂ hkeys hd₂
    · have hsame : transition p .REVERSED (q.now 0) = p := if_neg hc
      rw [if_neg hc, hsame] at hd₂
      rw [if_neg hc]
      rw [hsame] at hw₂
      exact save_ok hdone (d := ⟨p, .nothing, none⟩) hown hp₂ hd₂ rfl hw₂
  · rw [if_neg hrev]
    refine ⟨hown, fun db₂ h₂ => ?_⟩
    have hp₂ := (h₂.held _ hown).trans hp₁
    exact settle_ok hS hdone h₂.inv hown hp₂ ((Saves.nil hp₂).put) (by simp)
      (decide_pending hs hsucc hfail haban hrev)

include hS in
/-- **Applying a report** to a vote payment commits what `decideReport` comes to. -/
theorem applyGatewayResult_ok (hk : FailsOk S k log) (hdone : ReportCommits S E A q k log) {db : Database}
    (hvote : ∀ db p, S.inv db → db.row (.payment q.reference) = some p → p.purpose = .VOTE)
    (hnone : ∀ own db, S.inv db → S.guar own ((k (.ok none)).settle log).2 db db ∧ Ok S (k (.ok none)) db [] [] log) :
    Ok S (applyGatewayResult E A q k) db [] [] log :=
  applyGatewayResult_of hS hk hdone (fun db p _ hinv hp hs hcols =>
    confirm_ok hS hk hdone (by simp) hp (hvote db p hinv hp) fun _ => decide_success hs hcols) hnone

include hS in
/-- **Marking an invoice paid** writes the invoice, its subscription and audit rows. -/
theorem markInvoicePaid_ok {c : InvoiceCall} {fail rest : Program} {invoice : ℕ} {reference : String} {p : Key → Bool}
    (hp : ∀ x, isInvoice x = true → p x = true) {db : Database} {own : List Key} {w : Writes Row}
    (hfail : ExitsTo S fail db own log) (hrest : GoesOn S p rest db own w log) :
    Ok S (markInvoicePaid E c fail invoice reference rest) db own w log := by
  refine Ok.lockRow (fun db₁ i h₁ _ => ?_) fun db₁ h₁ => hfail _ _ _ h₁ fun _ h => h
  have hsub : ∀ x ∈ own, x ∈ Key.invoice invoice :: own := fun x hx => List.mem_cons_of_mem _ hx
  dsimp only
  by_cases hpaid : i.status = .PAID
  · rw [if_pos hpaid]
    exact hrest db₁ _ [] h₁ hsub .nil
  rw [if_neg hpaid]
  refine ⟨by simp, fun db₂ h₂ => ?_⟩
  have hst := h₁.trans hS (h₂.sub hS hsub)
  have hactivate : ∀ (s : SubscriptionRow) (a : Entry) db' own' w', Stable S own log db db' → (∀ x ∈ own, x ∈ own') →
      Db.Only p w' → Ok S (.update (.subscription i.organization) (fun _ => true) (fun _ => extended i s) fun _ =>
        record E a fail rest) db' own' (w' ++ w) log := by
    intro s a db' own' w' h' hsub' hw'
    have hrecord : GoesOn S p (record E a fail rest) db' own' (w' ++ w) log := fun db'' own'' u h'' hsub'' hu => by
      have hst'' := h'.trans hS (h''.sub hS hsub')
      have hsub₂ : ∀ x ∈ own, x ∈ own'' := fun x hx => hsub'' x (hsub' x hx)
      refine record_ok hS (hfail.mono hS hst'' hsub₂) ?_
      rw [← List.append_assoc]
      exact (hrest.mono hS hst'' hsub₂ (hu.append hw')).weaken fun x hx => hp x (isInvoice_of_audit hx)
    exact GoesOn.update hS (hp _ rfl) hrecord
  have hmine : Db.Only p ([⟨.invoice invoice, some { i with status := .PAID, paidAt := some c.now }⟩] : Writes Row) :=
    .cons (hp _ rfl) .nil
  intro db₃ h₃
  have hst₃ := hst.trans hS (h₃.sub hS hsub)
  dsimp only
  rcases (db₃.apply _).row (.subscription i.organization) with _ | s
  swap
  · exact hactivate s _ db₃ _ _ hst₃ hsub hmine
  refine fun db₄ h₄ => ⟨fun _ => ?_, fun _ => ?_⟩
  · exact hactivate _ _ db₄ _ (_ :: [_]) (hst₃.trans hS (h₄.sub hS hsub))
      (fun x hx => List.mem_cons_of_mem _ (hsub x hx)) (.cons (hp _ rfl) hmine)
  · intro db₅ h₅
    have hst₅ := (hst₃.trans hS (h₄.sub hS hsub)).trans hS (h₅.sub hS hsub)
    dsimp only
    rcases (db₅.apply _).row (.subscription i.organization) with _ | s
    · exact hfail _ _ _ hst₅ hsub
    · exact hactivate s _ db₅ _ _ hst₅ hsub hmine

end Ok

/-! ### Holds and reconciliation -/

section Ok

variable {S : Spec Row Note} (hS : S.Sound) {E : Env} {log : List Note}

/-- The log at the commit of a release. -/
def releaseLog (reference : String) (p : PaymentRow) (log : List Note) : List Note :=
  if p.status = .SUCCESS then .released reference :: log else log

/-- What a release has to show of its commit. -/
structure ReleaseCommits (S : Spec Row Note) (q : ReleaseCall) (log : List Note) : Prop where
  commit : ∀ own db db' p, S.inv db → .payment q.reference ∈ own → db.row (.payment q.reference) = some p →
    ((∀ x, db'.row x = (saved db q.reference (unheld p)).row x) ∨
      Credited q.credit q.reference (unheld p) (saved db q.reference (unheld p)) db') →
    S.inv db' ∧ S.guar own (releaseLog q.reference p log) db db' ∧
      (p.status = .SUCCESS → S.fact (.released q.reference) db')

include hS in
/-- **Releasing a hold** commits the payment without it, and its votes. -/
theorem releaseHeldPayment_ok {q : ReleaseCall} {k : Except Failure Unit → Program} (haudit : Quiet S isAudit)
    (hk : ∀ log', FailsOk S k log') (hk' : ∀ log' db, S.inv db → Ok S (k (.ok ())) db [] [] log')
    (hdone : ReleaseCommits S q log) {db : Database} : Ok S (releaseHeldPayment E q k) db [] [] log := by
  unfold releaseHeldPayment
  refine Ok.lockRow (fun db₁ p h₁ hp => ?_) fun db₁ h₁ => (hk log).rollback
  have hp₁ : db₁.row (.payment q.reference) = some p := by simpa using hp
  have hown : Key.payment q.reference ∈ [Key.payment q.reference] := by simp
  refine ⟨hown, fun db₂ h₂ => ?_⟩
  have hp₂ := (h₂.held _ hown).trans hp₁
  have hw : Saves q.reference (unheld p) [⟨.payment q.reference, some (unheld p)⟩] db₂ := (Saves.nil hp₂).put
  have hrest : ∀ db' own' w', Stable S [Key.payment q.reference] log db₂ db' → .payment q.reference ∈ own' →
      (∀ db'', Stable S own' log db' db'' →
        (∀ x, (db''.apply w').row x = (saved db'' q.reference (unheld p)).row x) ∨
          Credited q.credit q.reference (unheld p) (saved db'' q.reference (unheld p)) (db''.apply w')) →
      Ok S (.commit <|
        let audit : Program :=
          .read fun db => recordNow E (q.entry p (organizationOf db p.event)) (k (.error (.crash "DatabaseError")))
            (k (.ok ()))
        if p.status = .SUCCESS then .note (.released q.reference) audit else audit) db' own' w' log := by
    intro db' own' w' h' hown' hview db'' h''
    have hp'' := ((h''.held _ hown').trans (h'.held _ hown)).trans hp₂
    obtain ⟨hinv, hguar, hfact⟩ := hdone.commit own' db'' _ p h''.inv hown' hp'' (hview db'' h'')
    have haudit' : ∀ log', Ok S (.read fun db => recordNow E (q.entry p (organizationOf db p.event))
        (k (.error (.crash "DatabaseError"))) (k (.ok ()))) (db''.apply w') [] [] log' := fun log' db₃ h₃ =>
      recordNow_ok hS haudit .trivial trivial (fun db₄ => hk log' db₄ _) fun db₄ hi _ => hk' log' db₄ hi
    refine ⟨hinv, ?_, ?_⟩
    · unfold releaseLog at hguar
      dsimp only
      by_cases hs : p.status = .SUCCESS
      · rw [if_pos hs] at hguar ⊢
        exact hguar
      · rw [if_neg hs] at hguar ⊢
        exact hguar
    · dsimp only
      by_cases hs : p.status = .SUCCESS
      · rw [if_pos hs]
        exact ⟨hfact hs, haudit' _⟩
      · rw [if_neg hs]
        exact haudit' log
  refine creditVotes_ok hS h₂.inv hown ⟨fun db' own' w' h' hsub hrows _ => ?_,
    fun db' own' w' h' hsub _ _ hcredit => ?_⟩
  · refine hrest db' own' w' h' (hsub _ hown) fun db'' h'' => Or.inl fun x => ?_
    rw [hrows db'' h''.held x]
    exact hw db'' ((h''.held _ (hsub _ hown)).trans (h'.held _ hown)) x
  · refine hrest db' own' w' h' (hsub _ hown) fun db'' h'' => Or.inr ?_
    have hview := hw db'' ((h''.held _ (hsub _ hown)).trans (h'.held _ hown))
    exact (hcredit db'' h''.held).congr hview

/-- What crediting outside a transaction has to show: of the commit of the
ledger row, of the payment that was read, and of the commits that mark it. -/
structure ReconcileCommits (S : Spec Row Note) (reference : String) (c : CreditCall) (log : List Note) : Prop where
  found : ∀ db p, S.inv db → db.row (.payment reference) = some p → creditable p = true →
    S.fact (.uncredited reference) db
  ledger : ∀ own db₀ db p candidate, S.inv db₀ → db₀.row (.payment reference) = some p → creditable p = true →
    p.candidate = some candidate → S.inv db → ¬ Taken c reference db →
    S.inv (db.apply (ledgerWrites c reference p candidate [])) ∧
      S.guar own (.uncredited reference :: log) db (db.apply (ledgerWrites c reference p candidate []))
  mark : ∀ own db p, S.inv db → db.row (.payment reference) = some p →
    S.inv (saved db reference (credited p c.now)) ∧
      S.guar own (.uncredited reference :: log) db (saved db reference (credited p c.now))
  discount : Quiet S fun
    | .discountCode _ => true
    | _ => false

include hS in
/-- The payment is marked and the code redeemed, each in a commit of its own. -/
theorem markCreditedNow_ok {reference : String} {c : CreditCall} (hdone : ReconcileCommits S reference c log)
    {p : PaymentRow} {db : Database} :
    Ok S (markCredited .commit c reference p .halt) db [] [] (.uncredited reference :: log) := by
  have hdiscount : ∀ db, S.inv db → Ok S (match p.discount with
      | some d => .update (.discountCode d) (fun _ => true) redeem fun _ => .commit .halt
      | none => .halt) db [] [] (.uncredited reference :: log) := by
    intro db _
    rcases p.discount with _ | d
    · trivial
    · have hgo : GoesOn S (fun | .discountCode _ => true | _ => false) (.commit (.halt : Program)) db [] []
          (.uncredited reference :: log) := fun db' own' w' _ _ hw => by
        rw [List.append_nil]
        exact hdone.discount.commit .trivial hw trivial fun _ _ _ => trivial
      exact GoesOn.update hS rfl hgo
  have hcommit : ∀ (db : Database) own w, S.inv db → (∀ db', Stable S own (.uncredited reference :: log) db db' →
      S.inv (db'.apply w) ∧ S.guar own (.uncredited reference :: log) db' (db'.apply w)) →
      Ok S (.commit (match p.discount with
        | some d => .update (.discountCode d) (fun _ => true) redeem fun _ => .commit .halt
        | none => .halt)) db own w (.uncredited reference :: log) := by
    intro db own w _ hw db' h'
    obtain ⟨hinv, hguar⟩ := hw db' h'
    refine ⟨hinv, ?_, hdiscount _ hinv⟩
    rcases p.discount with _ | d
    · exact hguar
    · exact hguar
  unfold markCredited
  refine Ok.update hS (fun db₁ r h₁ hr _ => ?_) fun db₁ h₁ _ => ?_
  · refine hcommit db₁ _ _ h₁.inv fun db₂ h₂ => ?_
    have hr₂ : db₂.row (.payment reference) = some r := (h₂.held _ (by simp)).trans (by simpa using hr)
    exact hdone.mark _ db₂ r h₂.inv hr₂
  · exact hcommit db₁ _ _ h₁.inv fun db₂ h₂ => hdone.discount _ _ db₂ [] h₂.inv .nil

include hS in
/-- **Crediting by reconciliation** commits the ledger row under the constraints
of the payment, and then marks the payment. -/
theorem reconcileUncredited_ok {reference : String} {c : CreditCall} (hdone : ReconcileCommits S reference c log)
    {db : Database} : Ok S (reconcileUncredited reference c) db [] [] log := by
  unfold reconcileUncredited
  intro db₀ h₀
  dsimp only
  rw [Db.apply_nil]
  rcases hp : db₀.row (.payment reference) with _ | p
  · trivial
  dsimp only
  by_cases hc : p.purpose = .VOTE ∧ creditable p = true
  swap
  · rw [if_neg hc]
    trivial
  rw [if_pos hc]
  refine ⟨hdone.found db₀ p h₀.inv hp hc.2, ?_⟩
  unfold creditVotesNow
  rw [if_pos hc.2]
  rcases hcand : p.candidate with _ | candidate
  · trivial
  dsimp only
  have hhalt : ∀ (db' : Database) own' w', Ok S (.rollback .halt) db' own' w' (.uncredited reference :: log) :=
    fun _ _ _ _ _ => trivial
  refine fun db₁ h₁ => ⟨fun hpaid => ?_, fun _ => hhalt _ _ _⟩
  refine fun db₂ h₂ => ⟨fun hledger => ?_, fun _ => hhalt _ _ _⟩
  refine fun db₃ h₃ => ⟨fun hrow => ?_, fun _ => hhalt _ _ _⟩
  intro db₄ h₄
  have hfree : ¬ Taken c reference db₄ := by
    rintro (ht | ht | ht)
    · rw [h₄.held _ (by simp), h₃.held _ (by simp), h₂.held _ (by simp)] at ht
      exact ht hpaid
    · rw [h₄.held _ (by simp), h₃.held _ (by simp)] at ht
      exact ht (by simpa using hledger)
    · rw [h₄.held _ (by simp)] at ht
      exact ht (by simpa using hrow)
  obtain ⟨hinv, hguar⟩ := hdone.ledger _ db₀ db₄ p candidate h₀.inv hp hc.2 hcand h₄.inv hfree
  exact ⟨hinv, hguar, markCreditedNow_ok hS hdone⟩

end Ok

end Payments
end FlexyVotes
