/-
# What is billed of the usage

A renewal counts the usage of the period it opens, as far as there is any yet,
and no invoice counts the usage of the period that has just ended. So a record is
never counted twice, but one that is made while its period runs is counted by
nobody: of a period that is renewed at its end, exactly the records are billed
that were there before a late renewal opened it.

Key definitions: `Invoiced`, `BilledOnce`, `Metered`, `Accounts`.
Key theorems: `Accounts.step`, `usage_billed`.
-/
import FlexyVotes.Billing.Service

namespace FlexyVotes
namespace Billing

/-- How many invoices counted the record. -/
def State.times (s : State) (pk : ℕ) : ℕ := s.invoices.countP fun i => pk ∈ i.counted

/-- No record is counted twice, and the records made during a period that was
renewed at its end are counted. -/
structure BilledOnce (s : State) : Prop where
  atMost : ∀ u ∈ s.usage, s.times u.pk ≤ 1
  renewed : ∀ p ∈ s.renewed, ∀ u ∈ s.usage, u.within p.1 p.2.1 p.2.2 = true → s.times u.pk = 1

/-- The operations that make, count or move usage. -/
def Step.Metering : Step → Prop
  | .recordUsage _ _ _ | .startTrial _ _ | .changePlan _ _ _ _ | .renew _ => True
  | .markInvoicePaid _ | .toggleCancel _ => False

/-- When a subscription is renewed, the records made during the period that has
ended were there when a renewal opened it; and a trial takes some days. -/
def Metered (S : Settings) : Step → State → Prop
  | .startTrial _ _, _ => 0 < S.trialDays
  | .renew o, s => ∀ r ∈ s.subscriptions o, r.currentPeriodEnd ≤ s.clock →
    ∀ u ∈ s.usage, u.within o r.currentPeriodStart r.currentPeriodEnd = true → ∃ n ∈ r.renewedWith, u.pk < n
  | x, _ => x.Metering

/-- What every step keeps: a record that was counted was made before the end of
its organization's period, and a period that a renewal opened has the records
counted that were there. -/
structure Accounts (s : State) : Prop where
  pks : s.usage.map (·.pk) = List.range s.usage.length
  past : ∀ u ∈ s.usage, u.recordedAt ≤ s.clock
  counted : ∀ i ∈ s.invoices, ∀ pk ∈ i.counted, ∃ u ∈ s.usage, u.pk = pk ∧
    ∃ r, s.subscriptions u.organization = some r ∧ u.recordedAt < r.currentPeriodEnd
  once : ∀ u ∈ s.usage, s.times u.pk ≤ 1
  opened : ∀ o r n, s.subscriptions o = some r → r.renewedWith = some n → n ≤ s.usage.length ∧
    ∀ u ∈ s.usage, u.within o r.currentPeriodStart r.currentPeriodEnd = true → u.pk < n → s.times u.pk = 1
  renewed : ∀ p ∈ s.renewed, p.2.2 ≤ s.clock ∧
    ∀ u ∈ s.usage, u.within p.1 p.2.1 p.2.2 = true → s.times u.pk = 1

variable {S : Settings} {E : Env} {s : State} {o : ℕ}

theorem within_iff {u : UsageRecord} {start finish : DateTime} :
    u.within o start finish = true ↔ u.organization = o ∧ start ≤ u.recordedAt ∧ u.recordedAt < finish := by
  simp [UsageRecord.within, and_assoc]

theorem billed_pk (u : UsageRecord) (start finish : DateTime) (invoice : ℕ) :
    (u.billed o start finish invoice).pk = u.pk := by
  unfold UsageRecord.billed
  split <;> rfl

theorem billed_organization (u : UsageRecord) (start finish : DateTime) (invoice : ℕ) :
    (u.billed o start finish invoice).organization = u.organization := by
  unfold UsageRecord.billed
  split <;> rfl

theorem billed_recordedAt (u : UsageRecord) (start finish : DateTime) (invoice : ℕ) :
    (u.billed o start finish invoice).recordedAt = u.recordedAt := by
  unfold UsageRecord.billed
  split <;> rfl

namespace Accounts

theorem pk_lt (h : Accounts s) {u : UsageRecord} (hu : u ∈ s.usage) : u.pk < s.usage.length := by
  have hmem : u.pk ∈ s.usage.map (·.pk) := List.mem_map_of_mem hu
  rw [h.pks] at hmem
  exact List.mem_range.1 hmem

theorem eq_of_pk (h : Accounts s) {u v : UsageRecord} (hu : u ∈ s.usage) (hv : v ∈ s.usage) (he : u.pk = v.pk) :
    u = v := by
  have hnodup : (s.usage.map (·.pk)).Nodup := h.pks ▸ List.nodup_range
  exact List.inj_on_of_nodup_map hnodup hu hv he

/-- A record that was counted was made before the period's end. -/
theorem lt_end (h : Accounts s) {u : UsageRecord} (hu : u ∈ s.usage) (ht : 0 < s.times u.pk) :
    ∃ r, s.subscriptions u.organization = some r ∧ u.recordedAt < r.currentPeriodEnd := by
  obtain ⟨i, hi, hpk⟩ := List.countP_pos_iff.1 ht
  obtain ⟨v, hv, he, hr⟩ := h.counted i hi u.pk (by simpa using hpk)
  rwa [h.eq_of_pk hv hu he] at hr

theorem times_zero (h : Accounts s) {u : UsageRecord} {r : Subscription} (hu : u ∈ s.usage)
    (hr : s.subscriptions u.organization = some r) (he : r.currentPeriodEnd ≤ u.recordedAt) : s.times u.pk = 0 := by
  by_contra hne
  obtain ⟨r', hr', hlt⟩ := h.lt_end hu (Nat.pos_of_ne_zero hne)
  rw [hr] at hr'
  cases hr'
  exact absurd hlt (not_lt.2 he)

/-- Time passes. -/
theorem later (h : Accounts s) {now : DateTime} (hc : s.clock ≤ now) : Accounts { s with clock := now } where
  pks := h.pks
  past u hu := (h.past u hu).trans hc
  counted := h.counted
  once := h.once
  opened := h.opened
  renewed p hp := ⟨(h.renewed p hp).1.trans hc, (h.renewed p hp).2⟩

/-- The subscription of an organization is stored. -/
theorem save (h : Accounts s) {r : Subscription}
    (hend : ∀ u ∈ s.usage, u.organization = o → 0 < s.times u.pk → u.recordedAt < r.currentPeriodEnd)
    (hopened : ∀ n, r.renewedWith = some n → n ≤ s.usage.length ∧
      ∀ u ∈ s.usage, u.within o r.currentPeriodStart r.currentPeriodEnd = true → u.pk < n → s.times u.pk = 1) :
    Accounts (s.save o r) where
  pks := h.pks
  past := h.past
  counted i hi pk hpk := by
    obtain ⟨u, hu, he, r', hr', hlt⟩ := h.counted i hi pk hpk
    by_cases ho : u.organization = o
    · have ht : 0 < s.times u.pk := List.countP_pos_iff.2 ⟨i, hi, by simpa [he] using hpk⟩
      exact ⟨u, hu, he, r, if_pos ho, hend u hu ho ht⟩
    · exact ⟨u, hu, he, r', (if_neg ho).trans hr', hlt⟩
  once := h.once
  opened o' r' n hr' hn := by
    unfold State.save at hr'
    dsimp only at hr'
    split at hr'
    · rename_i ho
      cases hr'
      exact ho ▸ hopened n hn
    · exact h.opened o' r' n hr' hn
  renewed := h.renewed

/-- The subscription that `get_subscription` returns. -/
theorem getSubscription_end (h : Accounts s) {u : UsageRecord} (hu : u ∈ s.usage) (ho : u.organization = o)
    (ht : 0 < s.times u.pk) : u.recordedAt < (getSubscription S o s).currentPeriodEnd := by
  obtain ⟨r, hr, hlt⟩ := h.lt_end hu ht
  rw [ho] at hr
  rw [getSubscription, hr]
  exact hlt

theorem getSubscription_opened (h : Accounts s) {n : ℕ} (hn : (getSubscription S o s).renewedWith = some n) :
    n ≤ s.usage.length ∧ ∀ u ∈ s.usage, u.within o (getSubscription S o s).currentPeriodStart
      (getSubscription S o s).currentPeriodEnd = true → u.pk < n → s.times u.pk = 1 := by
  unfold getSubscription at *
  cases hr : s.subscriptions o with
  | none =>
    rw [hr] at hn
    cases hn
  | some r =>
    rw [hr] at hn
    exact h.opened o r n hr hn

/-- The subscription is stored with its period as it was. -/
theorem save_same (h : Accounts s) {r : Subscription}
    (hstart : r.currentPeriodStart = (getSubscription S o s).currentPeriodStart)
    (hend : r.currentPeriodEnd = (getSubscription S o s).currentPeriodEnd)
    (hwith : r.renewedWith = (getSubscription S o s).renewedWith) : Accounts (s.save o r) := by
  refine h.save (fun u hu ho ht => ?_) fun n hn => ?_
  · rw [hend]
    exact h.getSubscription_end hu ho ht
  · rw [hstart, hend]
    exact h.getSubscription_opened (hwith ▸ hn)

theorem times_append {i : Invoice} {pk : ℕ} :
    ({ s with invoices := s.invoices ++ [i] } : State).times pk = s.times pk + if pk ∈ i.counted then 1 else 0 := by
  unfold State.times
  rw [List.countP_append]
  by_cases hi : pk ∈ i.counted <;> simp [hi]

/-- An invoice is issued that counts no usage. -/
theorem issue (h : Accounts s) {i : Invoice} (hi : i.counted = []) :
    Accounts { s with invoices := s.invoices ++ [i] } := by
  have htimes : ∀ pk, ({ s with invoices := s.invoices ++ [i] } : State).times pk = s.times pk := by
    intro pk
    rw [times_append, hi]
    simp
  refine ⟨h.pks, h.past, fun j hj pk hpk => ?_, fun u hu => ?_, fun o r n hr hn => ?_, fun p hp => ?_⟩
  · rcases List.mem_append.1 hj with hj | hj
    · exact h.counted j hj pk hpk
    · rw [List.mem_singleton.1 hj, hi] at hpk
      cases hpk
  · rw [htimes]
    exact h.once u hu
  · refine ⟨(h.opened o r n hr hn).1, fun u hu hw hlt => ?_⟩
    rw [htimes]
    exact (h.opened o r n hr hn).2 u hu hw hlt
  · refine ⟨(h.renewed p hp).1, fun u hu hw => ?_⟩
    rw [htimes]
    exact (h.renewed p hp).2 u hu hw

theorem redeem (h : Accounts s) {coupon : Coupon} : Accounts (Billing.redeem coupon s) :=
  ⟨h.pks, h.past, h.counted, h.once, h.opened, h.renewed⟩

theorem recordUsage (h : Accounts s) {metric : Metric} {quantity : ℕ} :
    Accounts (Billing.recordUsage o metric quantity s) := by
  unfold Billing.recordUsage
  split
  · exact h
  · have hfresh : s.times s.usage.length = 0 := by
      by_contra hne
      obtain ⟨i, hi, hpk⟩ := List.countP_pos_iff.1 (Nat.pos_of_ne_zero hne)
      obtain ⟨u, hu, he, -⟩ := h.counted i hi s.usage.length (by simpa using hpk)
      exact absurd (h.pk_lt hu) (he ▸ lt_irrefl _)
    refine ⟨?_, ?_, ?_, ?_, ?_, ?_⟩
    · simp [h.pks, List.range_succ]
    · intro u hu
      rcases List.mem_append.1 hu with hu | hu
      · exact h.past u hu
      · rw [List.mem_singleton.1 hu]
    · intro i hi pk hpk
      obtain ⟨u, hu, he⟩ := h.counted i hi pk hpk
      exact ⟨u, List.mem_append_left _ hu, he⟩
    · intro u hu
      rcases List.mem_append.1 hu with hu | hu
      · exact h.once u hu
      · rw [List.mem_singleton.1 hu]
        exact hfresh.le.trans zero_le_one
    · intro o' r n hr hn
      obtain ⟨hle, hcount⟩ := h.opened o' r n hr hn
      refine ⟨hle.trans (by simp), fun u hu hw hlt => ?_⟩
      rcases List.mem_append.1 hu with hu | hu
      · exact hcount u hu hw hlt
      · rw [List.mem_singleton.1 hu] at hlt
        exact absurd hlt (not_lt.2 hle)
    · intro p hp
      obtain ⟨hle, hcount⟩ := h.renewed p hp
      refine ⟨hle, fun u hu hw => ?_⟩
      rcases List.mem_append.1 hu with hu | hu
      · exact hcount u hu hw
      · rw [List.mem_singleton.1 hu, within_iff] at hw
        exact absurd hw.2.2 (not_lt.2 hle)

/-- What `change_plan` does with a coupon leaves the period and the usage alone. -/
theorem withCoupon_same (h : Accounts s) {code : String} {r r' : Subscription} {s' : State}
    (hr : withCoupon E code r s = some (r', s')) :
    r'.currentPeriodStart = r.currentPeriodStart ∧ r'.currentPeriodEnd = r.currentPeriodEnd ∧
      r'.renewedWith = r.renewedWith ∧ Accounts s' ∧ getSubscription S o s' = getSubscription S o s := by
  unfold withCoupon at hr
  split at hr
  · cases hr
    exact ⟨rfl, rfl, rfl, h, rfl⟩
  · obtain ⟨coupon, -, he⟩ := Option.map_eq_some_iff.1 hr
    cases he
    exact ⟨rfl, rfl, rfl, h.redeem, rfl⟩

/-- A subscription whose period has ended is renewed, and the invoice counts what
was recorded since. -/
theorem renewal (h : Accounts s) {r : Subscription} (r' : Subscription) (i : Invoice) {t : State}
    (hr : s.subscriptions o = some r)
    (hend : r.currentPeriodEnd ≤ s.clock)
    (hx : ∀ u ∈ s.usage, u.within o r.currentPeriodStart r.currentPeriodEnd = true →
      ∃ n ∈ r.renewedWith, u.pk < n)
    (hlater : r.currentPeriodEnd < r'.currentPeriodEnd) (hstart : r'.currentPeriodStart = r.currentPeriodEnd)
    (hwith : r'.renewedWith = some s.usage.length)
    (hi : i.counted = (s.usage.filter (·.within o r'.currentPeriodStart r'.currentPeriodEnd)).map (·.pk))
    (hclock : t.clock = s.clock) (hsub : t.subscriptions = (s.save o r').subscriptions)
    (husage : t.usage = s.usage.map (·.billed o r'.currentPeriodStart r'.currentPeriodEnd i.pk))
    (hinvoices : t.invoices = s.invoices ++ [i])
    (hrenewed : t.renewed = (o, r.currentPeriodStart, r.currentPeriodEnd) :: s.renewed) : Accounts t := by
  have hmem : ∀ u' ∈ t.usage, ∃ u ∈ s.usage, u'.pk = u.pk ∧ u'.organization = u.organization ∧
      u'.recordedAt = u.recordedAt := by
    intro u' hu'
    rw [husage] at hu'
    obtain ⟨u, hu, rfl⟩ := List.mem_map.1 hu'
    exact ⟨u, hu, billed_pk _ _ _ _, billed_organization _ _ _ _, billed_recordedAt _ _ _ _⟩
  have hcounted : ∀ u ∈ s.usage, u.pk ∈ i.counted ↔
      u.organization = o ∧ r.currentPeriodEnd ≤ u.recordedAt ∧ u.recordedAt < r'.currentPeriodEnd := by
    intro u hu
    rw [hi, hstart, ← within_iff]
    constructor
    · intro hpk
      obtain ⟨v, hv, he⟩ := List.mem_map.1 hpk
      rw [← h.eq_of_pk (List.mem_filter.1 hv).1 hu he]
      exact (List.mem_filter.1 hv).2
    · exact fun hw => List.mem_map_of_mem (List.mem_filter.2 ⟨hu, hw⟩)
  have htimes : ∀ u ∈ s.usage, t.times u.pk = s.times u.pk +
      if u.organization = o ∧ r.currentPeriodEnd ≤ u.recordedAt ∧ u.recordedAt < r'.currentPeriodEnd then 1 else 0 := by
    intro u hu
    have he : t.times u.pk = ({ s with invoices := s.invoices ++ [i] } : State).times u.pk := by
      unfold State.times
      rw [hinvoices]
    rw [he, times_append]
    simp only [hcounted u hu]
  have hzero : ∀ u ∈ s.usage, u.organization = o → r.currentPeriodEnd ≤ u.recordedAt → s.times u.pk = 0 :=
    fun u hu ho hle => h.times_zero hu (ho ▸ hr) hle
  -- what was counted once stays so
  have hstay : ∀ u ∈ s.usage, s.times u.pk = 1 → t.times u.pk = 1 := by
    intro u hu h1
    rw [htimes u hu, if_neg, h1]
    rintro ⟨ho, hle, -⟩
    rw [hzero u hu ho hle] at h1
    cases h1
  refine ⟨?_, ?_, ?_, ?_, ?_, ?_⟩
  · rw [husage, List.map_map, List.length_map, ← h.pks]
    exact List.map_congr_left fun u _ => billed_pk u _ _ _
  · intro u' hu'
    obtain ⟨u, hu, -, -, hat⟩ := hmem u' hu'
    rw [hat, hclock]
    exact h.past u hu
  · intro j hj pk hpk
    have hfind : ∃ u ∈ s.usage, u.pk = pk ∧
        ∃ r'', (s.save o r').subscriptions u.organization = some r'' ∧ u.recordedAt < r''.currentPeriodEnd := by
      rw [hinvoices] at hj
      rcases List.mem_append.1 hj with hj | hj
      · obtain ⟨u, hu, he, r'', hr'', hlt⟩ := h.counted j hj pk hpk
        by_cases ho : u.organization = o
        · rw [ho, hr] at hr''
          cases hr''
          exact ⟨u, hu, he, r', if_pos ho, hlt.trans hlater⟩
        · exact ⟨u, hu, he, r'', (if_neg ho).trans hr'', hlt⟩
      · rw [List.mem_singleton.1 hj, hi] at hpk
        obtain ⟨u, hu, he⟩ := List.mem_map.1 hpk
        obtain ⟨hu, hw⟩ := List.mem_filter.1 hu
        obtain ⟨ho, -, hlt⟩ := within_iff.1 hw
        exact ⟨u, hu, he, r', if_pos ho, hlt⟩
    obtain ⟨u, hu, he, r'', hr'', hlt⟩ := hfind
    refine ⟨u.billed o r'.currentPeriodStart r'.currentPeriodEnd i.pk, ?_, ?_, r'', ?_, ?_⟩
    · rw [husage]
      exact List.mem_map_of_mem hu
    · rw [billed_pk, he]
    · rw [billed_organization, hsub, hr'']
    · rw [billed_recordedAt]
      exact hlt
  · intro u' hu'
    obtain ⟨u, hu, hpk, -, -⟩ := hmem u' hu'
    rw [hpk, htimes u hu]
    split
    · rename_i hw
      rw [hzero u hu hw.1 hw.2.1]
    · exact h.once u hu
  · intro o' r'' n hr'' hn
    rw [hsub] at hr''
    have hlength : t.usage.length = s.usage.length := by rw [husage, List.length_map]
    unfold State.save at hr''
    dsimp only at hr''
    rw [hlength]
    split at hr''
    · rename_i ho
      cases hr''
      rw [hwith] at hn
      cases hn
      refine ⟨le_rfl, fun u' hu' hw _ => ?_⟩
      obtain ⟨u, hu, hpk, horg, hat⟩ := hmem u' hu'
      rw [within_iff, horg, hat, hstart, ho] at hw
      rw [hpk, htimes u hu, if_pos hw, hzero u hu hw.1 hw.2.1]
    · obtain ⟨hle, hcount⟩ := h.opened o' r'' n hr'' hn
      refine ⟨hle, fun u' hu' hw hlt => ?_⟩
      obtain ⟨u, hu, hpk, horg, hat⟩ := hmem u' hu'
      rw [within_iff, horg, hat] at hw
      rw [hpk] at hlt ⊢
      exact hstay u hu (hcount u hu (within_iff.2 hw) hlt)
  · intro p hp
    rw [hrenewed] at hp
    rw [hclock]
    rcases List.mem_cons.1 hp with rfl | hp
    · refine ⟨hend, fun u' hu' hw => ?_⟩
      obtain ⟨u, hu, hpk, horg, hat⟩ := hmem u' hu'
      rw [within_iff, horg, hat, ← within_iff] at hw
      obtain ⟨n, hn, hlt⟩ := hx u hu hw
      rw [hpk]
      exact hstay u hu ((h.opened o r n hr hn).2 u hu hw hlt)
    · obtain ⟨hle, hcount⟩ := h.renewed p hp
      refine ⟨hle, fun u' hu' hw => ?_⟩
      obtain ⟨u, hu, hpk, horg, hat⟩ := hmem u' hu'
      rw [within_iff, horg, hat, ← within_iff] at hw
      rw [hpk]
      exact hstay u hu (hcount u hu hw)

theorem startTrial (h : Accounts s) {code : String} (hdays : 0 < S.trialDays) :
    Accounts (Billing.startTrial S o code s) := by
  unfold Billing.startTrial
  split
  · exact h
  · refine h.save (fun u hu _ _ => ?_) fun n hn => by cases hn
    exact (h.past u hu).trans_lt (lt_addDays _ hdays)

theorem changePlan (h : Accounts s) {code coupon : String} {cycle : Cycle} :
    Accounts (Billing.changePlan S E o code cycle coupon s) := by
  unfold Billing.changePlan
  split
  · exact h
  · rename_i plan _
    dsimp only
    split
    · exact h.save_same rfl rfl rfl
    · rename_i r s₁ hr
      obtain ⟨hstart, hend, hwith, hs₁, hsub⟩ := withCoupon_same h hr
      have hget : getSubscription S o s₁ = getSubscription S o s := hsub
      have hsaved : ∀ r' : Subscription, r'.currentPeriodStart = r.currentPeriodStart →
          r'.currentPeriodEnd = r.currentPeriodEnd → r'.renewedWith = r.renewedWith → Accounts (s₁.save o r') := by
        intro r' h₁ h₂ h₃
        refine hs₁.save_same (S := S) ?_ ?_ ?_
        · rw [hget, h₁, hstart]
        · rw [hget, h₂, hend]
        · rw [hget, h₃, hwith]
      have hactive : ∀ r' : Subscription, r' = (if plan.monthlyPrice = 0 then { r with status := .ACTIVE } else r) →
          r'.currentPeriodStart = r.currentPeriodStart ∧ r'.currentPeriodEnd = r.currentPeriodEnd ∧
            r'.renewedWith = r.renewedWith := by
        rintro r' rfl
        split <;> exact ⟨rfl, rfl, rfl⟩
      generalize hr' : (if plan.monthlyPrice = 0 then { r with status := .ACTIVE } else r) = r' at *
      obtain ⟨h₁, h₂, h₃⟩ := hactive r' rfl
      have hfirst := hsaved r' h₁ h₂ h₃
      split
      · refine (hfirst.issue (i := invoiceFor S o r' s₁.clock (addMonths s₁.clock cycle.months) false (s₁.save o r'))
          rfl).save_same (S := S) ?_ ?_ ?_ <;> simp [getSubscription, State.save]
      · exact hfirst

/-- **A renewal** counts the records made from the end of the period on, which
nobody has counted. -/
theorem renewOne (h : Accounts s) (hx : Metered S (.renew o) s) : Accounts (Billing.renewOne S o s) := by
  unfold Billing.renewOne
  split
  · exact h
  · rename_i r hr
    split
    · exact h
    · rename_i hdue
      split
      · refine h.save (fun u hu ho ht => ?_) fun n hn => h.opened o r n hr hn
        obtain ⟨r', hr', hlt⟩ := h.lt_end hu ht
        rw [ho, hr] at hr'
        cases hr'
        exact hlt
      · have hend : r.currentPeriodEnd ≤ s.clock := not_lt.1 fun hlt => hdue (Or.inl hlt)
        have hmonths : 0 < r.billingCycle.months := by cases r.billingCycle <;> decide
        let finish := addMonths r.currentPeriodEnd r.billingCycle.months
        let i := invoiceFor S o r r.currentPeriodEnd finish true s
        have hlength : (s.usage.map (·.billed o r.currentPeriodEnd finish i.pk)).length = s.usage.length :=
          List.length_map _
        refine h.renewal { r with
          currentPeriodStart := r.currentPeriodEnd
          currentPeriodEnd := finish
          trialEndsAt := if r.status = .TRIALING then none else r.trialEndsAt
          status := if i.status = .PAID then .ACTIVE else .PAST_DUE
          renewedWith := some s.usage.length } i hr hend (hx r hr hend) (lt_addMonths _ hmonths) rfl rfl rfl rfl ?_ rfl
          rfl rfl
        show _ = (s.save o _).subscriptions
        rw [← hlength]
        rfl

theorem step (h : Accounts s) {x : Step} (hx : Metered S x s) : Accounts (Billing.step S E x s) := by
  cases x with
  | recordUsage o metric quantity => exact h.recordUsage
  | startTrial o code => exact h.startTrial hx
  | changePlan o code cycle coupon => exact h.changePlan
  | renew o => exact h.renewOne hx
  | markInvoicePaid pk => exact hx.elim
  | toggleCancel o => exact hx.elim

theorem billedOnce (h : Accounts s) : BilledOnce s := ⟨h.once, fun p hp => (h.renewed p hp).2⟩

end Accounts

/-- Nothing is recorded or billed yet. -/
structure State.Blank (s : State) : Prop where
  subscriptions : ∀ o, s.subscriptions o = none
  usage : s.usage = []
  invoices : s.invoices = []
  renewed : s.renewed = []

theorem State.Blank.accounts (h : s.Blank) : Accounts s := by
  refine ⟨by rw [h.usage]; rfl, fun u hu => ?_, fun i hi => ?_, fun u hu => ?_, fun o r n hr => ?_, fun p hp => ?_⟩
  · rw [h.usage] at hu
    cases hu
  · rw [h.invoices] at hi
    cases hi
  · rw [h.usage] at hu
    cases hu
  · rw [h.subscriptions] at hr
    cases hr
  · rw [h.renewed] at hp
    cases hp

/-- **Usage is billed once** in a run where the records made during a period that
is renewed at its end were all made before a late renewal opened it. -/
theorem usage_billed (S : Settings) (E : Env) {s : State} {xs : List (DateTime × Step)} (hs : s.Blank)
    (h : Steps.Always (tick S E) (Timely (Metered S)) xs s) : BilledOnce (Steps.run (tick S E) xs s) := by
  have hrun : Accounts (Steps.run (tick S E) xs s) :=
    Steps.Always.run (I := Accounts) (fun _ _ h hx => (h.later hx.1).step hx.2) hs.accounts h
  exact hrun.billedOnce

instance (x : Step) : Decidable x.Metering := by
  cases x <;> unfold Step.Metering <;> infer_instance

instance (x : Step) (s : State) : Decidable (Metered S x s) := by
  cases x <;> unfold Metered <;> infer_instance

instance {C : Step → State → Prop} [∀ x s, Decidable (C x s)] (x : DateTime × Step) (s : State) :
    Decidable (Timely C x s) := inferInstanceAs (Decidable (_ ∧ _))

theorem january_bounds : 1 ≤ 1 ∧ 1 ≤ 12 := by decide

theorem DAY_pos : 0 < DAY := by decide

/-- Midnight of a day in January 2026. -/
def january (day : ℕ) (h : 1 ≤ day ∧ day ≤ 31 := by decide) : DateTime where
  year := 2026
  month := 1
  day := day
  month_bounds := january_bounds
  day_bounds := h
  micros_lt := DAY_pos

def basic : Settings where
  plans := fun code => if code = "BASIC" then some { code := "BASIC", name := "Basic" } else none
  free := { code := "FREE", name := "Free" }

/-- A message sent when the trial is over and not renewed yet is counted by the
late renewal, and not again by the next one. -/
theorem usage_billed_late : BilledOnce (Steps.run (tick basic Env.plain)
    [(january 1, .startTrial 0 "BASIC"), (january 16, .recordUsage 0 .SMS_SENT 1), (january 17, .renew 0),
      (addMonths (january 20) 1, .renew 0)] { clock := january 1 }) :=
  usage_billed basic Env.plain ⟨fun _ => rfl, rfl, rfl, rfl⟩ (by decide +kernel)

/-- A message sent during a trial is counted by no invoice when the trial is renewed. -/
theorem not_usage_billed : ¬ ∀ (S : Settings) (E : Env) (s : State) (xs : List (DateTime × Step)), s.Blank →
    Steps.Always (tick S E) (Timely fun x _ => x.Metering) xs s → BilledOnce (Steps.run (tick S E) xs s) := by
  intro h
  let xs : List (DateTime × Step) :=
    [(january 1, .startTrial 0 "BASIC"), (january 3, .recordUsage 0 .SMS_SENT 1), (january 15, .renew 0)]
  have hrun := (h basic Env.plain { clock := january 1 } xs ⟨fun _ => rfl, rfl, rfl, rfl⟩ (by decide +kernel)).renewed
  have htimes : (Steps.run (tick basic Env.plain) xs { clock := january 1 }).times 0 = 0 := by decide +kernel
  have h1 := hrun (0, january 1, january 15) (by decide +kernel) ⟨0, 0, .SMS_SENT, 1, january 3, none⟩
    (by decide +kernel) (by decide +kernel)
  rw [htimes] at h1
  cases h1

end Billing
end FlexyVotes
