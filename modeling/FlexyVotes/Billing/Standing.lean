/-
# Subscriptions in good standing

A subscription that is active on a plan with a price should have paid for it, and
one that is past due should have something to pay. Renewals keep to this. A
change of plan says past due without asking whether its invoice is open, and an
invoice that is paid makes the subscription active whatever plan it was issued
for and whatever is left of the period.

Key definitions: `Standing`, `Regular`.
Key theorems: `Ledger.step`, `standing_run`.
-/
import FlexyVotes.Billing.Usage

namespace FlexyVotes
namespace Billing

/-- The invoice was issued for the plan and covers the period. -/
def Invoice.Covers (i : Invoice) (plan : Plan) (start finish : DateTime) : Prop :=
  i.plan = plan ∧ i.periodStart ≤ start ∧ finish ≤ i.periodEnd

instance (i : Invoice) (plan : Plan) (start finish : DateTime) : Decidable (i.Covers plan start finish) :=
  inferInstanceAs (Decidable (_ ∧ _ ∧ _))

/-- An active subscription to a plan with a price has paid for its period, and one
that is past due has an open invoice. -/
structure InStanding (invoices : List Invoice) (o : ℕ) (r : Subscription) : Prop where
  active : r.status = .ACTIVE → 0 < r.plan.monthlyPrice → ∃ i ∈ invoices, i.organization = o ∧ i.status = .PAID ∧
    i.Covers r.plan r.currentPeriodStart r.currentPeriodEnd
  pastDue : r.status = .PAST_DUE → ∃ i ∈ invoices, i.organization = o ∧ i.status = .OPEN

def Standing (s : State) : Prop := ∀ o r, s.subscriptions o = some r → InStanding s.invoices o r

/-- The price of a plan for a cycle, if it has one. -/
def Plan.price (plan : Plan) (cycle : Cycle) : ℚ :=
  max 0 (if cycle = .ANNUAL then plan.annualPrice else plan.monthlyPrice)

/-- The price with the coupon's discount, levy and VAT is more than nothing. -/
def Chargeable (S : Settings) (plan : Plan) (cycle : Cycle) (coupon : Option Coupon) : Prop :=
  0 < (totals S coupon (money (plan.price cycle))).2.2.2

/-- A change to a plan with a price leaves something to pay, and an invoice is
paid when it, or one paid before, was issued for the plan and covers the period
that comes of it. -/
def Regular (S : Settings) (E : Env) : Step → State → Prop
  | .changePlan o code cycle coupon, s =>
    (s.subscriptions o = none → S.free.monthlyPrice ≤ 0) ∧
      ∀ plan ∈ S.plans code, 0 < plan.monthlyPrice → (getSubscription S o s).status ≠ .TRIALING →
        ∀ x ∈ withCoupon E coupon { getSubscription S o s with plan := plan, billingCycle := cycle } s,
          Chargeable S plan cycle (currentCoupon x.2.coupons x.1 s.clock) ∨
            ∃ i ∈ s.invoices, i.organization = o ∧ i.status = .OPEN
  | .markInvoicePaid pk, s =>
    ∀ i ∈ s.invoices.find? (·.pk = pk), i.status ≠ .PAID →
      let r := getSubscription S i.organization s
      0 < r.plan.monthlyPrice → ∃ j ∈ s.invoices, j.organization = i.organization ∧ (j.pk = pk ∨ j.status = .PAID) ∧
        j.Covers r.plan i.periodStart (max r.currentPeriodEnd i.periodEnd)
  | .toggleCancel o, s => s.subscriptions o = none → S.free.monthlyPrice ≤ 0
  | _, _ => True

/-- What every step keeps. -/
structure Ledger (s : State) : Prop where
  pks : s.invoices.map (·.pk) = List.range s.invoices.length
  standing : Standing s

variable {S : Settings} {E : Env} {s : State} {o : ℕ}

theorem InStanding.mono {invoices invoices' : List Invoice} {r : Subscription} (h : InStanding invoices o r)
    (hsub : ∀ i ∈ invoices, i ∈ invoices') : InStanding invoices' o r where
  active ha hp := by
    obtain ⟨i, hi, hrest⟩ := h.active ha hp
    exact ⟨i, hsub i hi, hrest⟩
  pastDue hd := by
    obtain ⟨i, hi, hrest⟩ := h.pastDue hd
    exact ⟨i, hsub i hi, hrest⟩

/-- Neither active nor past due. -/
theorem InStanding.idle {invoices : List Invoice} {r : Subscription} (ha : r.status ≠ .ACTIVE)
    (hd : r.status ≠ .PAST_DUE) : InStanding invoices o r :=
  ⟨fun h => absurd h ha, fun h => absurd h hd⟩

theorem money_zero : money 0 = 0 := by
  have hfloor : ⌊(0 * 100 + 1 / 2 : ℚ)⌋ = 0 := by decide +kernel
  rw [money, if_pos le_rfl, hfloor]
  simp

/-- An invoice without usage is for the price. -/
theorem subtotal_price (plan : Plan) (cycle : Cycle) :
    ((invoiceLines (invoiceItems plan cycle none)).map (·.amount)).sum = money (plan.price cycle) := by
  unfold invoiceLines invoiceItems Plan.price
  dsimp only
  generalize (if cycle = .ANNUAL then plan.annualPrice else plan.monthlyPrice) = base
  by_cases hbase : 0 < base
  · simp [if_pos hbase, max_eq_right hbase.le]
  · simp [if_neg hbase, max_eq_left (not_lt.1 hbase), money_zero]

theorem invoiceFor_status {r : Subscription} {start finish : DateTime}
    (h : Chargeable S r.plan r.billingCycle (currentCoupon s.coupons r start)) :
    (invoiceFor S o r start finish false s).status = .OPEN := by
  unfold Chargeable at h
  rw [← subtotal_price] at h
  exact if_pos h

theorem invoiceFor_open_or_paid {r : Subscription} {start finish : DateTime} {includeUsage : Bool} :
    (invoiceFor S o r start finish includeUsage s).status = .OPEN ∨
      (invoiceFor S o r start finish includeUsage s).status = .PAID := by
  by_cases hpos : 0 < (invoiceFor S o r start finish includeUsage s).total
  · exact Or.inl (if_pos hpos)
  · exact Or.inr (if_neg hpos)

/-- What `change_plan` does with a coupon leaves the subscriptions, the invoices
and the rest of the subscription alone. -/
theorem withCoupon_rest {code : String} {r r' : Subscription} {s' : State}
    (hr : withCoupon E code r s = some (r', s')) :
    s'.subscriptions = s.subscriptions ∧ s'.invoices = s.invoices ∧ s'.clock = s.clock ∧ r'.plan = r.plan ∧
      r'.billingCycle = r.billingCycle ∧ r'.status = r.status := by
  unfold withCoupon at hr
  split at hr
  · cases hr
    exact ⟨rfl, rfl, rfl, rfl, rfl, rfl⟩
  · obtain ⟨coupon, -, he⟩ := Option.map_eq_some_iff.1 hr
    cases he
    exact ⟨rfl, rfl, rfl, rfl, rfl, rfl⟩

namespace Ledger

theorem save (h : Ledger s) {r : Subscription} (hr : InStanding s.invoices o r) : Ledger (s.save o r) where
  pks := h.pks
  standing o' r' hr' := by
    unfold State.save at hr'
    dsimp only at hr'
    split at hr'
    · rename_i ho
      cases hr'
      exact ho ▸ hr
    · exact h.standing o' r' hr'

/-- One more invoice, and the subscription of its organization. -/
theorem issue (h : Ledger s) {t : State} {i : Invoice} {r : Subscription} (hpk : i.pk = s.invoices.length)
    (hi : t.invoices = s.invoices ++ [i]) (hothers : ∀ o', o' ≠ o → t.subscriptions o' = s.subscriptions o')
    (hmine : t.subscriptions o = some r) (hr : InStanding (s.invoices ++ [i]) o r) : Ledger t where
  pks := by
    rw [hi, List.map_append, h.pks, List.length_append]
    simp [hpk, List.range_succ]
  standing o' r' hr' := by
    rw [hi]
    by_cases ho : o' = o
    · rw [ho, hmine] at hr'
      cases hr'
      exact ho ▸ hr
    · rw [hothers o' ho] at hr'
      exact (h.standing o' r' hr').mono fun i hi => List.mem_append_left _ hi

theorem getSubscription (h : Ledger s) (hfree : s.subscriptions o = none → S.free.monthlyPrice ≤ 0) :
    InStanding s.invoices o (Billing.getSubscription S o s) := by
  unfold Billing.getSubscription
  cases hr : s.subscriptions o with
  | some r => exact h.standing o r hr
  | none => exact ⟨fun _ hp => absurd hp (not_lt.2 (hfree hr)), nofun⟩

theorem startTrial (h : Ledger s) {code : String} : Ledger (Billing.startTrial S o code s) := by
  unfold Billing.startTrial
  split
  · exact h
  · exact h.save (.idle nofun nofun)

theorem changePlan (h : Ledger s) {code coupon : String} {cycle : Cycle}
    (hx : Regular S E (.changePlan o code cycle coupon) s) : Ledger (Billing.changePlan S E o code cycle coupon s) := by
  have hold := h.getSubscription hx.1
  unfold Billing.changePlan
  split
  · exact h
  · rename_i plan hplan
    dsimp only
    split
    · exact h.save hold
    · rename_i r s₁ hr
      have hreg := hx.2 plan hplan
      obtain ⟨hs₁, hi, hc, hrplan, hcycle, hstatus⟩ := withCoupon_rest hr
      have h₁ : Ledger s₁ := ⟨hi ▸ h.pks, fun o' r' hr' => hi ▸ h.standing o' r' (hs₁ ▸ hr')⟩
      by_cases hzero : plan.monthlyPrice = 0
      · rw [if_pos hzero, if_neg fun hp => absurd hp.1 (hzero ▸ lt_irrefl _)]
        refine h₁.save ⟨fun _ hp => ?_, nofun⟩
        rw [hrplan, hzero] at hp
        exact absurd hp (lt_irrefl _)
      · rw [if_neg hzero]
        split
        · rename_i hpriced
          let i := invoiceFor S o r s₁.clock (addMonths s₁.clock cycle.months) false (s₁.save o r)
          have hopen : ∃ j ∈ s₁.invoices ++ [i], j.organization = o ∧ j.status = .OPEN := by
            rcases hreg hpriced.1 (hstatus ▸ hpriced.2) _ hr with hcharge | ⟨j, hj, hrest⟩
            · refine ⟨i, List.mem_append_right _ (List.mem_singleton_self _), rfl, invoiceFor_status ?_⟩
              rw [hrplan, hcycle]
              exact hc ▸ hcharge
            · exact ⟨j, List.mem_append_left _ (hi ▸ hj), hrest⟩
          refine h₁.issue rfl rfl (fun o' ho => ?_) (if_pos rfl) ⟨nofun, fun _ => hopen⟩
          exact (if_neg ho).trans (if_neg ho)
        · rename_i hpriced
          refine h₁.save ⟨fun ha hp => ?_, fun hd => ?_⟩
          · rw [hrplan] at hp
            exact absurd ⟨hp, by rw [ha]; decide⟩ hpriced
          · rw [hi]
            exact hold.pastDue (hstatus ▸ hd)

/-- **A renewal** leaves the subscription active with a paid invoice for the new
period, or past due with an open one. -/
theorem renewOne (h : Ledger s) : Ledger (Billing.renewOne S o s) := by
  unfold Billing.renewOne
  split
  · exact h
  · rename_i r hr
    split
    · exact h
    · split
      · exact h.save (.idle nofun nofun)
      · let finish := addMonths r.currentPeriodEnd r.billingCycle.months
        let i := invoiceFor S o r r.currentPeriodEnd finish true s
        have hi : i ∈ s.invoices ++ [i] := List.mem_append_right _ (List.mem_singleton_self _)
        refine h.issue (i := i) rfl rfl (fun o' ho => if_neg ho) (if_pos rfl) ⟨fun ha _ => ?_, fun hd => ?_⟩
        · have hpaid : i.status = .PAID := by
            by_contra hne
            exact absurd ((if_neg hne).symm.trans ha) nofun
          exact ⟨i, hi, rfl, hpaid, rfl, le_rfl, le_rfl⟩
        · have hopen : i.status = .OPEN := by
            have hstatus : i.status = .OPEN ∨ i.status = .PAID := invoiceFor_open_or_paid
            rcases hstatus with hopen | hpaid
            · exact hopen
            · exact absurd ((if_pos hpaid).symm.trans hd) nofun
          exact ⟨i, hi, rfl, hopen⟩

theorem markInvoicePaid (h : Ledger s) {pk : ℕ} (hx : Regular S E (.markInvoicePaid pk) s) :
    Ledger (Billing.markInvoicePaid S pk s) := by
  unfold Billing.markInvoicePaid
  split
  · exact h
  · rename_i i hi
    split
    · exact h
    · rename_i hunpaid
      have hmem := List.mem_of_find?_eq_some hi
      have hipk : i.pk = pk := by simpa using List.find?_some hi
      let pay := fun j : Invoice => if j.pk = pk then { j with status := .PAID, paidAt := some s.clock } else j
      have hpay : ∀ j, (pay j).pk = j.pk ∧ (pay j).organization = j.organization ∧ (pay j).plan = j.plan ∧
          (pay j).periodStart = j.periodStart ∧ (pay j).periodEnd = j.periodEnd := by
        intro j
        by_cases hj : j.pk = pk <;> simp [pay, hj]
      have hpaid : ∀ j, j.pk = pk ∨ j.status = .PAID → (pay j).status = .PAID := by
        intro j hj
        by_cases hpk : j.pk = pk
        · simp [pay, hpk]
        · simpa [pay, hpk] using hj
      have hcovers : ∀ j plan start finish, j.Covers plan start finish → (pay j).Covers plan start finish := by
        intro j plan start finish hj
        obtain ⟨-, -, hplan, hstart, hend⟩ := hpay j
        unfold Invoice.Covers
        rw [hplan, hstart, hend]
        exact hj
      refine ⟨?_, fun o' r' hr' => ?_⟩
      · show (s.invoices.map pay).map (·.pk) = List.range (s.invoices.map pay).length
        rw [List.map_map, List.length_map, ← h.pks]
        exact List.map_congr_left fun j _ => (hpay j).1
      · show InStanding (s.invoices.map pay) o' r'
        by_cases ho : o' = i.organization
        · have he : r' = { Billing.getSubscription S i.organization s with
              status := .ACTIVE
              currentPeriodStart := i.periodStart
              currentPeriodEnd := max (Billing.getSubscription S i.organization s).currentPeriodEnd i.periodEnd
              renewedWith := none } := (Option.some.inj ((if_pos ho).symm.trans hr')).symm
          rw [he]
          refine ⟨fun _ hp => ?_, nofun⟩
          obtain ⟨j, hj, horg, hpk, hj'⟩ := hx i hi hunpaid hp
          exact ⟨pay j, List.mem_map_of_mem hj, (hpay j).2.1.trans (horg.trans ho.symm), hpaid j hpk,
            hcovers _ _ _ _ hj'⟩
        · have hold := h.standing o' r' ((if_neg ho).symm.trans hr')
          refine ⟨fun ha hp => ?_, fun hd => ?_⟩
          · obtain ⟨j, hj, horg, hstatus, hj'⟩ := hold.active ha hp
            exact ⟨pay j, List.mem_map_of_mem hj, (hpay j).2.1.trans horg, hpaid j (Or.inr hstatus), hcovers _ _ _ _ hj'⟩
          · obtain ⟨j, hj, horg, hstatus⟩ := hold.pastDue hd
            -- an invoice of another organization has another pk
            have hne : j.pk ≠ pk := by
              intro hpk
              have hnodup : (s.invoices.map (·.pk)).Nodup := h.pks ▸ List.nodup_range
              have hji : j = i := List.inj_on_of_nodup_map hnodup hj hmem (hpk.trans hipk.symm)
              exact ho (horg.symm.trans (congrArg Invoice.organization hji))
            refine ⟨pay j, List.mem_map_of_mem hj, (hpay j).2.1.trans horg, ?_⟩
            simpa [pay, hne] using hstatus

theorem toggleCancel (h : Ledger s) (hx : Regular S E (.toggleCancel o) s) : Ledger (Billing.toggleCancel S o s) := by
  have hold := h.getSubscription (S := S) hx
  exact h.save ⟨hold.active, hold.pastDue⟩

theorem recordUsage (h : Ledger s) {metric : Metric} {quantity : ℕ} :
    Ledger (Billing.recordUsage o metric quantity s) := by
  unfold Billing.recordUsage
  split
  · exact h
  · exact ⟨h.pks, h.standing⟩

theorem step (h : Ledger s) {x : Step} (hx : Regular S E x s) : Ledger (Billing.step S E x s) := by
  cases x with
  | recordUsage o metric quantity => exact h.recordUsage
  | startTrial o code => exact h.startTrial
  | changePlan o code cycle coupon => exact h.changePlan hx
  | renew o => exact h.renewOne
  | markInvoicePaid pk => exact h.markInvoicePaid hx
  | toggleCancel o => exact h.toggleCancel hx

end Ledger

theorem State.Blank.ledger (h : s.Blank) : Ledger s := by
  refine ⟨by rw [h.invoices]; rfl, fun o r hr => ?_⟩
  rw [h.subscriptions] at hr
  cases hr

/-- The operations that move a subscription. -/
def Step.Moving : Step → Prop
  | .startTrial _ _ | .changePlan _ _ _ _ | .renew _ | .markInvoicePaid _ => True
  | .recordUsage _ _ _ | .toggleCancel _ => False

instance : ∀ x : Step, Decidable x.Moving
  | .startTrial _ _ | .changePlan _ _ _ _ | .renew _ | .markInvoicePaid _ => .isTrue trivial
  | .recordUsage _ _ _ | .toggleCancel _ => .isFalse id

/-- Two plans with a price, and the free one. -/
def priced : Settings where
  plans := fun code =>
    if code = "PROFESSIONAL" then some { code := "PROFESSIONAL", name := "Professional", monthlyPrice := 500 }
    else if code = "ENTERPRISE" then some { code := "ENTERPRISE", name := "Enterprise", monthlyPrice := 2500 }
    else none
  free := { code := "FREE", name := "Free" }

instance (plan : Plan) (cycle : Cycle) (coupon : Option Coupon) : Decidable (Chargeable S plan cycle coupon) :=
  inferInstanceAs (Decidable (0 < _))

instance : ∀ (x : Step) (s : State), Decidable (Regular S E x s)
  | .changePlan _ _ _ _, _ => inferInstanceAs (Decidable (_ ∧ ∀ plan ∈ _, _ → _ → ∀ x ∈ _, _ ∨ ∃ i ∈ _, _))
  | .markInvoicePaid _, _ => inferInstanceAs (Decidable (∀ i ∈ _, _ → _ → ∃ j ∈ _, _))
  | .toggleCancel _, _ => inferInstanceAs (Decidable (_ → _))
  | .recordUsage _ _ _, _ | .startTrial _ _, _ | .renew _, _ => .isTrue trivial

end Billing
end FlexyVotes
