/-
# Subscriptions and invoices

Every organization has a subscription to a plan, with a period that ends. Its
plan is changed, it can begin a trial, and once its period has ended it is
renewed; changes to a plan with a price and renewals issue an invoice, and an
invoice that is paid sets the subscription to the invoice's period.

Beside what is stored, an invoice tells the plan it was issued for and the usage
records it counted, a subscription how many usage records there were when a
renewal opened its period, and the state which periods were renewed.

Key definitions: `generateInvoice`, `changePlan`, `renewOne`, `markInvoicePaid`,
`Step`, `step`.
-/
import Mathlib.Data.Rat.Floor
import FlexyVotes.Billing.Calendar
import FlexyVotes.Lib.Steps
import FlexyVotes.Models

namespace FlexyVotes
namespace Billing

/-! ### Rows -/

/-- `Plan`. -/
structure Plan where
  code : String
  name : String
  currency : String := "GHS"
  monthlyPrice : ℚ := 0
  annualPrice : ℚ := 0
  pricePerElection : ℚ := 0
  pricePerVoter : ℚ := 0
  includedVoters : ℕ := 0
deriving DecidableEq

/-- `Subscription.Status`. -/
inductive SubscriptionStatus
  | TRIALING | ACTIVE | PAST_DUE | CANCELED
  deriving DecidableEq

/-- `Subscription.Cycle`. -/
inductive Cycle
  | MONTHLY | ANNUAL
  deriving DecidableEq

/-- `get_billing_cycle_display`. -/
def Cycle.display : Cycle → String
  | .MONTHLY => "Monthly"
  | .ANNUAL => "Annual"

/-- The months of a cycle. -/
def Cycle.months : Cycle → ℕ
  | .MONTHLY => 1
  | .ANNUAL => 12

/-- `Coupon.Kind`. -/
inductive CouponKind
  | PERCENT | FIXED
  deriving DecidableEq

/-- `Coupon`. -/
structure Coupon where
  code : String
  kind : CouponKind := .PERCENT
  value : ℚ
  durationMonths : Option ℕ := none
  maxRedemptions : Option ℕ := none
  redemptions : ℕ := 0
  validUntil : Option DateTime := none
  isActive : Bool := true

/-- `Subscription`. -/
structure Subscription where
  plan : Plan
  status : SubscriptionStatus := .TRIALING
  billingCycle : Cycle := .MONTHLY
  trialEndsAt : Option DateTime := none
  currentPeriodStart : DateTime
  currentPeriodEnd : DateTime
  cancelAtPeriodEnd : Bool := false
  /-- The code of its coupon. -/
  coupon : Option String := none
  couponAppliedAt : Option DateTime := none
  /-- How many usage records there were when a renewal opened the period. -/
  renewedWith : Option ℕ := none

/-- `UsageRecord.Metric`. -/
inductive Metric
  | ELECTION_CREATED | VOTERS_IMPORTED | BALLOTS_CAST | SMS_SENT | EMAILS_SENT
  deriving DecidableEq

/-- `UsageRecord`; its pk is its place in the table. -/
structure UsageRecord where
  pk : ℕ
  organization : ℕ
  metric : Metric
  quantity : ℕ
  recordedAt : DateTime
  invoice : Option ℕ := none
deriving DecidableEq

/-- `Invoice.Status`. -/
inductive InvoiceStatus
  | DRAFT | OPEN | PAID | VOID
  deriving DecidableEq

/-- `InvoiceLine`. -/
structure InvoiceLine where
  description : String
  quantity : ℕ
  unitPrice : ℚ
  amount : ℚ

/-- `Invoice`; its pk is its place in the table. -/
structure Invoice where
  pk : ℕ
  organization : ℕ
  status : InvoiceStatus
  currency : String
  periodStart : DateTime
  periodEnd : DateTime
  lines : List InvoiceLine
  subtotal : ℚ
  discount : ℚ
  vatRate : ℚ
  vat : ℚ
  levyRate : ℚ
  levy : ℚ
  total : ℚ
  coupon : Option String
  issuedAt : DateTime
  dueAt : DateTime
  paidAt : Option DateTime
  /-- The plan it was issued for. -/
  plan : Plan
  /-- The usage records it counted. -/
  counted : List ℕ

structure Settings where
  trialDays : ℕ := 14
  vatRate : ℚ := 15
  levyRate : ℚ := 6
  /-- The seeded and edited plans, by their codes. -/
  plans : String → Option Plan
  /-- The plan `FREE`. -/
  free : Plan

structure State where
  clock : DateTime
  subscriptions : ℕ → Option Subscription := fun _ => none
  coupons : List Coupon := []
  usage : List UsageRecord := []
  invoices : List Invoice := []
  /-- The periods that were renewed at their end. -/
  renewed : List (ℕ × DateTime × DateTime) := []

namespace State

variable (s : State)

/-- `subscription.save()`. -/
def save (o : ℕ) (subscription : Subscription) : State :=
  { s with subscriptions := fun x => if x = o then some subscription else s.subscriptions x }

end State

variable (S : Settings) (E : Env)

/-! ### Invoices -/

/-- `_money`. -/
def money (x : ℚ) : ℚ := if 0 ≤ x then ⌊x * 100 + 1 / 2⌋ / 100 else -(⌊-x * 100 + 1 / 2⌋ / 100)

/-- The record falls into the period. -/
def UsageRecord.within (o : ℕ) (start finish : DateTime) (u : UsageRecord) : Bool :=
  u.organization = o && start ≤ u.recordedAt && u.recordedAt < finish

/-- `usage_summary`, at one metric. -/
def usageSummary (o : ℕ) (start finish : DateTime) (s : State) (metric : Metric) : ℕ :=
  (((s.usage.filter (·.within o start finish)).filter (·.metric = metric)).map (·.quantity)).sum

def SMS_UNIT_PRICE : ℚ := 5 / 100

/-- What an invoice line is made of: description, quantity and unit price. -/
def invoiceItems (plan : Plan) (cycle : Cycle) (usage : Option (Metric → ℕ)) : List (String × ℕ × ℚ) :=
  let base := if cycle = .ANNUAL then plan.annualPrice else plan.monthlyPrice
  (if 0 < base then [(plan.name ++ " plan (" ++ cycle.display ++ ")", 1, base)] else []) ++
  match usage with
  | none => []
  | some usage =>
    let elections := usage .ELECTION_CREATED
    let billable := usage .VOTERS_IMPORTED - plan.includedVoters
    let sms := usage .SMS_SENT
    (if elections ≠ 0 ∧ 0 < plan.pricePerElection then [("Elections created", elections, plan.pricePerElection)] else []) ++
    (if billable ≠ 0 ∧ 0 < plan.pricePerVoter then
      [("Voters beyond the " ++ toString plan.includedVoters ++ " included", billable, plan.pricePerVoter)] else []) ++
    (if sms ≠ 0 then [("SMS messages", sms, SMS_UNIT_PRICE)] else [])

def invoiceLines (items : List (String × ℕ × ℚ)) : List InvoiceLine :=
  items.map fun x => ⟨x.1, x.2.1, x.2.2, money (x.2.1 * x.2.2)⟩

/-- The months between the moment a coupon was applied and the period's start. -/
def monthsUsed (appliedAt : Option DateTime) (start : DateTime) : ℤ :=
  match appliedAt with
  | none => 0
  | some t => ((start.year : ℤ) - t.year) * 12 + start.month - t.month

/-- The coupon, if it still gives a discount. -/
def currentCoupon (coupons : List Coupon) (subscription : Subscription) (start : DateTime) : Option Coupon :=
  (subscription.coupon.bind fun code => coupons.find? (·.code = code)).filter fun coupon =>
    coupon.isActive && coupon.durationMonths.all fun months => monthsUsed subscription.couponAppliedAt start < months

def discountOf (coupon : Option Coupon) (subtotal : ℚ) : ℚ :=
  match coupon with
  | none => 0
  | some coupon =>
    min (money (if coupon.kind = .PERCENT then subtotal * coupon.value / 100 else coupon.value)) subtotal

/-- Discount, levy, VAT and total of an invoice. -/
def totals (coupon : Option Coupon) (subtotal : ℚ) : ℚ × ℚ × ℚ × ℚ :=
  let discount := discountOf coupon subtotal
  let taxable := subtotal - discount
  let levy := money (taxable * S.levyRate / 100)
  let vat := money ((taxable + levy) * S.vatRate / 100)
  (discount, levy, vat, money (taxable + levy + vat))

/-- The invoice that `generate_invoice` makes for a subscription. -/
def invoiceFor (o : ℕ) (subscription : Subscription) (start finish : DateTime) (includeUsage : Bool) (s : State) :
    Invoice :=
  let plan := subscription.plan
  let lines := invoiceLines (invoiceItems plan subscription.billingCycle
    (if includeUsage then some (usageSummary o start finish s) else none))
  let subtotal := (lines.map (·.amount)).sum
  let coupon := currentCoupon s.coupons subscription start
  let (discount, levy, vat, total) := totals S coupon subtotal
  { pk := s.invoices.length
    organization := o
    status := if 0 < total then .OPEN else .PAID
    currency := plan.currency
    periodStart := start
    periodEnd := finish
    lines := lines
    subtotal := money subtotal
    discount := discount
    vatRate := S.vatRate
    vat := vat
    levyRate := S.levyRate
    levy := levy
    total := total
    coupon := coupon.map (·.code)
    issuedAt := s.clock
    dueAt := addDays s.clock 7
    paidAt := if total = 0 then some s.clock else none
    plan := plan
    counted := if includeUsage then (s.usage.filter (·.within o start finish)).map (·.pk) else [] }

/-- The records of the period that no invoice is set for get this one. -/
def UsageRecord.billed (o : ℕ) (start finish : DateTime) (invoice : ℕ) (u : UsageRecord) : UsageRecord :=
  if u.within o start finish && u.invoice.isNone then { u with invoice := some invoice } else u

/-- `generate_invoice`. -/
def generateInvoice (o : ℕ) (subscription : Subscription) (start finish : DateTime) (includeUsage : Bool) (s : State) :
    Invoice × State :=
  let invoice := invoiceFor S o subscription start finish includeUsage s
  (invoice, { s with
    invoices := s.invoices ++ [invoice]
    usage := if includeUsage then s.usage.map (·.billed o start finish invoice.pk) else s.usage })

/-! ### Subscriptions -/

/-- The subscription an organization gets when it is first asked for. -/
def freeSubscription (s : State) : Subscription where
  plan := S.free
  status := .ACTIVE
  currentPeriodStart := s.clock
  currentPeriodEnd := addMonths s.clock 1

/-- `get_subscription`. -/
def getSubscription (o : ℕ) (s : State) : Subscription := (s.subscriptions o).getD (freeSubscription S s)

/-- `start_trial`. -/
def startTrial (o : ℕ) (code : String) (s : State) : State :=
  match S.plans code with
  | none => s
  | some plan =>
    let trialEndsAt := addDays s.clock S.trialDays
    s.save o { getSubscription S o s with
      plan := plan, status := .TRIALING, trialEndsAt := some trialEndsAt
      currentPeriodStart := s.clock, currentPeriodEnd := trialEndsAt, renewedWith := none }

/-- The coupon of the code, if it can be redeemed. -/
def redeemable (code : String) (s : State) : Option Coupon :=
  (s.coupons.find? fun c => c.code = E.upper (E.strip code) && c.isActive).filter fun c =>
    ¬ (c.validUntil.any (· < s.clock) || c.maxRedemptions.any (· ≤ c.redemptions))

/-- The coupon's redemptions are counted. -/
def redeem (coupon : Coupon) (s : State) : State :=
  { s with coupons := s.coupons.map fun c => if c.code = coupon.code then { c with redemptions := c.redemptions + 1 } else c }

/-- The subscription and the coupons once `change_plan` has looked at the
coupon, if it is accepted. -/
def withCoupon (code : String) (subscription : Subscription) (s : State) : Option (Subscription × State) :=
  if code = "" then some (subscription, s)
  else (redeemable E code s).map fun coupon =>
    ({ subscription with coupon := some coupon.code, couponAppliedAt := some s.clock }, redeem coupon s)

/-- `change_plan`. -/
def changePlan (o : ℕ) (code : String) (cycle : Cycle) (coupon : String) (s : State) : State :=
  match S.plans code with
  | none => s
  | some plan =>
    let subscription := { getSubscription S o s with plan := plan, billingCycle := cycle }
    match withCoupon E coupon subscription s with
    | none => s.save o (getSubscription S o s)
    | some (subscription, s) =>
      let subscription := if plan.monthlyPrice = 0 then { subscription with status := .ACTIVE } else subscription
      let s := s.save o subscription
      if 0 < plan.monthlyPrice ∧ subscription.status ≠ .TRIALING then
        let finish := addMonths s.clock cycle.months
        let (_, s) := generateInvoice S o subscription s.clock finish false s
        s.save o { subscription with status := .PAST_DUE }
      else s

/-- `renew_due_subscriptions`, at the subscription of one organization. -/
def renewOne (o : ℕ) (s : State) : State :=
  match s.subscriptions o with
  | none => s
  | some subscription =>
    if s.clock < subscription.currentPeriodEnd ∨ subscription.status = .CANCELED then s
    else if subscription.cancelAtPeriodEnd then s.save o { subscription with status := .CANCELED }
    else
      let start := subscription.currentPeriodEnd
      let finish := addMonths start subscription.billingCycle.months
      let (invoice, s) := generateInvoice S o subscription start finish true s
      { s.save o { subscription with
          currentPeriodStart := start
          currentPeriodEnd := finish
          trialEndsAt := if subscription.status = .TRIALING then none else subscription.trialEndsAt
          status := if invoice.status = .PAID then .ACTIVE else .PAST_DUE
          renewedWith := some s.usage.length } with
        renewed := (o, subscription.currentPeriodStart, start) :: s.renewed }

/-- `mark_invoice_paid`. -/
def markInvoicePaid (pk : ℕ) (s : State) : State :=
  match s.invoices.find? (·.pk = pk) with
  | none => s
  | some invoice =>
    if invoice.status = .PAID then s
    else
      let s := { s with invoices := s.invoices.map fun i =>
        if i.pk = pk then { i with status := .PAID, paidAt := some s.clock } else i }
      let subscription := getSubscription S invoice.organization s
      s.save invoice.organization { subscription with
        status := .ACTIVE
        currentPeriodStart := invoice.periodStart
        currentPeriodEnd := max subscription.currentPeriodEnd invoice.periodEnd
        renewedWith := none }

/-- `record_usage`. -/
def recordUsage (o : ℕ) (metric : Metric) (quantity : ℕ) (s : State) : State :=
  if quantity = 0 then s
  else { s with usage := s.usage ++ [⟨s.usage.length, o, metric, quantity, s.clock, none⟩] }

/-- The action `cancel` of `billing_home`. -/
def toggleCancel (o : ℕ) (s : State) : State :=
  let subscription := getSubscription S o s
  s.save o { subscription with cancelAtPeriodEnd := ¬ subscription.cancelAtPeriodEnd }

/-! ### Runs -/

inductive Step
  | recordUsage (o : ℕ) (metric : Metric) (quantity : ℕ)
  | startTrial (o : ℕ) (code : String)
  | changePlan (o : ℕ) (code : String) (cycle : Cycle) (coupon : String)
  /-- One round of the loop of `renew_due_subscriptions`. -/
  | renew (o : ℕ)
  | markInvoicePaid (pk : ℕ)
  | toggleCancel (o : ℕ)

def step : Step → State → State
  | .recordUsage o metric quantity => recordUsage o metric quantity
  | .startTrial o code => startTrial S o code
  | .changePlan o code cycle coupon => changePlan S E o code cycle coupon
  | .renew o => renewOne S o
  | .markInvoicePaid pk => markInvoicePaid S pk
  | .toggleCancel o => toggleCancel S o

/-- A step at its moment. -/
def tick (x : DateTime × Step) (s : State) : State := step S E x.2 { s with clock := x.1 }

/-- The moments of the steps follow one another, and a step meets `C` in the
state it is taken in. -/
def Timely (C : Step → State → Prop) (x : DateTime × Step) (s : State) : Prop :=
  s.clock ≤ x.1 ∧ C x.2 { s with clock := x.1 }

end Billing
end FlexyVotes
