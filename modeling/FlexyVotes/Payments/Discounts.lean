/-
# The limits of a discount code over a sequence of purchases

`quote` compares the redemptions of a code with its limits, and a redemption is
counted when its payment is credited; `per_payer_limit` looks at the payments
of the e-mail address that are successful. What was bought with the code before
and is not yet there counts for nothing. So the limits hold over a sequence of
checkouts and reports in which a new payment with a code finds no other that may
yet redeem it, or leaves room for those there are (`Apart`).

Each call moves a code's counter with what is redeemed of it (`Redeems`).

Key definitions: `CodeCap`, `Within`, `Apart`, `Redeems`.
Key theorems: `Call.redeems`, `within_codes`.
-/
import FlexyVotes.Payments.Caps

namespace FlexyVotes
namespace Discounts

open Transactions Audit Payments Runs Transitions Caps

/-! ### What is redeemed of a code -/

/-- The payment is credited, or may yet be without a hold being released. -/
def mayRedeem (p : PaymentRow) : Bool := p.votesCredited || (!p.held && p.status ≠ .REVERSED && p.status ≠ .REFUNDED)

/-- A limit of a code: on all its redemptions, or on those of an e-mail address,
by its index. -/
inductive CodeCap
  | total
  | payer (index : String)

/-- The payments the limit is about. -/
def CodeCap.scope : CodeCap → PaymentRow → Bool
  | .total => fun _ => true
  | .payer index => fun p => index ≠ "" && p.payerEmailIndex = index

def CodeCap.of (d : DiscountCodeRow) : CodeCap → Option ℕ
  | .total => d.maxRedemptions
  | .payer _ => limit d.perPayerLimit

/-- What `quote` looks at for the limit: the counter, which goes with the
credited payments, or the successful payments. -/
def CodeCap.seen : CodeCap → PaymentRow → Bool
  | .total => fun p => p.votesCredited
  | .payer _ => fun p => p.status = .SUCCESS

/-- The payments with the code that the limit is about and that meet `c`. -/
def codeCount (db : Database) (code : ℕ) (cap : CodeCap) (c : PaymentRow → Bool) : ℕ :=
  countPayments db fun p => p.discount = some code && cap.scope p && c p

/-- **The limits**: the credited payments with a code. -/
def Within (db : Database) : Prop :=
  ∀ code d (cap : CodeCap) m, db.row (.discountCode code) = some d → cap.of d = some m →
    codeCount db code cap (·.votesCredited) ≤ m

/-- A code's counter has counted its credited payments, and what may be redeemed
in the end is within its limits. -/
structure Covered (db : Database) : Prop where
  counted : ∀ code d, db.row (.discountCode code) = some d →
    codeCount db code .total (·.votesCredited) ≤ d.redemptionsCount
  within : ∀ code d (cap : CodeCap) m, db.row (.discountCode code) = some d → cap.of d = some m →
    codeCount db code cap mayRedeem ≤ m

/-- A new payment with a code finds none the limit is about that may be redeemed
and is not seen, or fits beside what there is. -/
def Apart (db db' : Database) : Prop :=
  ∀ reference p code d (cap : CodeCap) m, db.row (.payment reference) = none → db'.row (.payment reference) = some p →
    p.discount = some code → cap.scope p = true → db.row (.discountCode code) = some d → cap.of d = some m →
    codeCount db code cap (fun p => mayRedeem p && !cap.seen p) = 0 ∨ codeCount db code cap mayRedeem + 1 ≤ m

/-- Each call of the sequence keeps apart. -/
def AllApart (E : Env) (A : Adapters) : Database → List Caps.Call → Prop
  | _, [] => True
  | db, c :: cs => Apart db (c.after E A db) ∧ AllApart E A (c.after E A db) cs

section Counts

variable {v v' : Database} {code : ℕ} {cap : CodeCap} {c c' : PaymentRow → Bool}

theorem codeCount_le (h : ∀ p, c p = true → c' p = true) : codeCount v code cap c ≤ codeCount v code cap c' :=
  sumPayments_le fun _ p hp hc => by
    simp only [Bool.and_eq_true] at hc ⊢
    exact ⟨p, hp, ⟨hc.1, h p hc.2⟩, le_rfl⟩

/-- What may be redeemed is seen or not. -/
theorem codeCount_split : codeCount v code cap mayRedeem ≤
    codeCount v code cap (fun p => mayRedeem p && !cap.seen p) + codeCount v code cap cap.seen := by
  have hadd : codeCount v code cap mayRedeem = codeCount v code cap (fun p => mayRedeem p && !cap.seen p) +
      codeCount v code cap (fun p => mayRedeem p && cap.seen p) := by
    unfold codeCount countPayments
    rw [sumPayments_eq, sumPayments_eq, sumPayments_eq]
    refine Db.total_add fun x => ?_
    by_cases hx : ∃ reference, x = .payment reference
    swap
    · rw [Caps.weight_other fun r h => hx ⟨r, h⟩, Caps.weight_other fun r h => hx ⟨r, h⟩,
        Caps.weight_other fun r h => hx ⟨r, h⟩]
    obtain ⟨reference, rfl⟩ := hx
    rcases hp : v.row (.payment reference) with _ | p
    · rw [Caps.weight_none hp, Caps.weight_none hp, Caps.weight_none hp]
    rw [Caps.weight_payment hp, Caps.weight_payment hp, Caps.weight_payment hp]
    rcases hs : cap.seen p with _ | _ <;> simp [hs]
  have hle : codeCount v code cap (fun p => mayRedeem p && cap.seen p) ≤ codeCount v code cap cap.seen :=
    codeCount_le fun p hp => (Bool.and_eq_true_iff.mp hp).2
  omega

/-- Rows that are no payments count for nothing. -/
theorem codeCount_congr (code : ℕ) (cap : CodeCap) (c : PaymentRow → Bool) (h : ∀ reference, v'.row (.payment reference) = v.row (.payment reference)) :
    codeCount v' code cap c ≤ codeCount v code cap c :=
  sumPayments_le fun _ p hp hc => ⟨p, (h _).symm.trans hp, hc, le_rfl⟩

/-- One payment of the code is written. -/
theorem codeCount_set (v : Database) (code : ℕ) (cap : CodeCap) (c : PaymentRow → Bool) (reference : String)
    (p' : PaymentRow) :
    codeCount (v.set (.payment reference) (some p')) code cap c +
        ((v.row (.payment reference)).elim 0 fun p => if p.discount = some code && cap.scope p && c p then 1 else 0) =
      codeCount v code cap c + if p'.discount = some code && cap.scope p' && c p' then 1 else 0 := by
  have hone := @Db.total_of_ne Key Row _ v (v.set (.payment reference) (some p'))
    (column (fun p => p.discount = some code && cap.scope p && c p) fun _ => 1) (.payment reference) fun x hx => by
      unfold Db.weight
      rw [Db.set_row_ne _ _ hx]
  rw [Caps.weight_payment (Db.set_row_self _ _ _)] at hone
  unfold codeCount countPayments
  rw [sumPayments_eq, sumPayments_eq]
  rcases hp : v.row (.payment reference) with _ | p
  · rw [Caps.weight_none hp] at hone
    exact hone
  · rw [Caps.weight_payment hp] at hone
    exact hone

end Counts

/-! ### What a call moves -/

/-- The payment stays with its code and payer, and does not come to be
redeemable. -/
structure Stays (p p' : PaymentRow) : Prop where
  discount : p'.discount = p.discount
  email : p'.payerEmailIndex = p.payerEmailIndex
  redeem : mayRedeem p' = true → mayRedeem p = true

theorem Stays.refl (p : PaymentRow) : Stays p p := ⟨rfl, rfl, id⟩

theorem Stays.trans {p p' p'' : PaymentRow} (h : Stays p p') (h' : Stays p' p'') : Stays p p'' :=
  ⟨h'.discount.trans h.discount, h'.email.trans h.email, fun hm => h.redeem (h'.redeem hm)⟩

/-- A code's counter grows with what is redeemed of it, and no payment begins,
except the one that is opened. -/
structure Redeems (opening : Option (String × PaymentRow)) (v v' : Database) : Prop where
  codes : ∀ code d, v.row (.discountCode code) = some d → ∃ n,
    v'.row (.discountCode code) = some { d with redemptionsCount := d.redemptionsCount + n } ∧
      codeCount v' code .total (·.votesCredited) ≤ codeCount v code .total (·.votesCredited) + n
  noCodes : ∀ code, v.row (.discountCode code) = none → v'.row (.discountCode code) = none
  kept : ∀ r p, v.row (.payment r) = some p → ∃ p', v'.row (.payment r) = some p' ∧ Stays p p'
  new : ∀ r p', v.row (.payment r) = none → v'.row (.payment r) = some p' → ∃ p, opening = some (r, p) ∧ Stays p p'

section Relation

variable {opening : Option (String × PaymentRow)} {v v' v'' : Database}

theorem Redeems.refl (v : Database) : Redeems opening v v :=
  ⟨fun _ d hd => ⟨0, hd, le_rfl⟩, fun _ h => h, fun _ p hp => ⟨p, hp, .refl p⟩, fun _ _ h h' => by
    rw [h] at h'
    cases h'⟩

theorem Redeems.trans (h : Redeems opening v v') (h' : Redeems opening v' v'') : Redeems opening v v'' := by
  refine ⟨fun code d hd => ?_, fun code hcode => h'.noCodes _ (h.noCodes _ hcode), fun r p hp => ?_, fun r p'' hp hp'' => ?_⟩
  · obtain ⟨n, hd', hle⟩ := h.codes code d hd
    obtain ⟨n', hd'', hle'⟩ := h'.codes code _ hd'
    refine ⟨n + n', ?_, by omega⟩
    rw [hd'', Nat.add_assoc]
  · obtain ⟨p', hp', hs⟩ := h.kept r p hp
    obtain ⟨p'', hp'', hs'⟩ := h'.kept r p' hp'
    exact ⟨p'', hp'', hs.trans hs'⟩
  · rcases hp' : v'.row (.payment r) with _ | p'
    · exact h'.new r p'' hp' hp''
    · obtain ⟨p, ho, hs⟩ := h.new r p' hp hp'
      obtain ⟨p₂, hp₂, hs'⟩ := h'.kept r p' hp'
      obtain rfl := Option.some.inj (hp''.symm.trans hp₂)
      exact ⟨p, ho, hs.trans hs'⟩

/-- The rows `Redeems` does not look at. -/
def isAside : Key → Bool
  | .payment _ => false
  | .discountCode _ => false
  | _ => true

theorem ignores_aside : Ignores (Redeems opening) isAside := by
  intro v k r hk
  have hpayment : ∀ reference, (v.set k r).row (.payment reference) = v.row (.payment reference) := fun reference =>
    Db.set_row_ne _ _ fun h => by
      rw [← h] at hk
      cases hk
  have hcode : ∀ code, (v.set k r).row (.discountCode code) = v.row (.discountCode code) := fun code =>
    Db.set_row_ne _ _ fun h => by
      rw [← h] at hk
      cases hk
  refine ⟨fun code d hd => ⟨0, (hcode code).trans hd, codeCount_congr _ _ _ hpayment⟩, fun code h => (hcode code).trans h,
    fun r p hp => ⟨p, (hpayment r).trans hp, .refl p⟩, fun r p' h h' => ?_⟩
  rw [hpayment, h] at h'
  cases h'

/-- A payment is saved that is credited as before. -/
theorem Redeems.save {reference : String} {p p' : PaymentRow} (hp : v.row (.payment reference) = some p)
    (hcredited : p'.votesCredited = p.votesCredited) (hs : Stays p p') :
    Redeems opening v (v.set (.payment reference) (some p')) := by
  have hcode : ∀ code, (v.set (.payment reference) (some p')).row (.discountCode code) = v.row (.discountCode code) :=
    fun code => Db.set_row_ne _ _ (by simp)
  refine ⟨fun code d hd => ⟨0, (hcode code).trans hd, ?_⟩, fun code h => (hcode code).trans h, fun r p₁ hp₁ => ?_,
    fun r p₁ h h' => ?_⟩
  · have hset := codeCount_set v code .total (·.votesCredited) reference p'
    rw [hp, hs.discount, hcredited] at hset
    rw [Option.elim_some] at hset
    have hscope : CodeCap.scope .total p' = CodeCap.scope .total p := rfl
    rw [hscope] at hset
    omega
  · by_cases hr : r = reference
    · subst hr
      obtain rfl := Option.some.inj (hp.symm.trans hp₁)
      exact ⟨p', Db.set_row_self _ _ _, hs⟩
    · exact ⟨p₁, (Db.set_row_ne _ _ (by simpa using hr)).trans hp₁, .refl p₁⟩
  · by_cases hr : r = reference
    · rw [hr, hp] at h
      cases h
    · rw [Db.set_row_ne _ _ (by simpa using hr), h] at h'
      cases h'

/-- The payment that is opened. -/
theorem Redeems.open {reference : String} {p : PaymentRow} (hfree : v.row (.payment reference) = none)
    (hcredited : p.votesCredited = false) :
    Redeems (some (reference, p)) v (v.set (.payment reference) (some p)) := by
  have hcode : ∀ code, (v.set (.payment reference) (some p)).row (.discountCode code) = v.row (.discountCode code) :=
    fun code => Db.set_row_ne _ _ (by simp)
  refine ⟨fun code d hd => ⟨0, (hcode code).trans hd, ?_⟩, fun code h => (hcode code).trans h, fun r p₁ hp₁ => ?_,
    fun r p₁ h h' => ?_⟩
  · have hset := codeCount_set v code .total (·.votesCredited) reference p
    rw [hfree, hcredited] at hset
    simp only [Bool.and_false, Option.elim_none, Bool.false_eq_true, if_false] at hset
    omega
  · have hr : r ≠ reference := by
      rintro rfl
      rw [hfree] at hp₁
      cases hp₁
    exact ⟨p₁, (Db.set_row_ne _ _ (by simpa using hr)).trans hp₁, .refl p₁⟩
  · by_cases hr : r = reference
    · subst hr
      rw [Db.set_row_self] at h'
      obtain rfl := Option.some.inj h'
      exact ⟨p, rfl, .refl p⟩
    · rw [Db.set_row_ne _ _ (by simpa using hr), h] at h'
      cases h'

end Relation

/-! ### The programs -/

section Programs

variable {E : Env} {A : Adapters} {opening : Option (String × PaymentRow)} {v : Database} {reference : String}
  {p : PaymentRow} {rest : Program}

theorem redeems_trans (v v' v'' : Database) (h : Redeems opening v v') (h' : Redeems opening v' v'') :
    Redeems opening v v'' := h.trans h'

theorem stays_transition (p : PaymentRow) (target : PaymentStatus) (now : Time) : Stays p (transition p target now) := by
  unfold transition
  split_ifs with hc
  swap
  · exact .refl p
  refine ⟨rfl, rfl, fun h => ?_⟩
  unfold changes at hc
  simp only [mayRedeem, Bool.or_eq_true, Bool.and_eq_true, decide_eq_true_eq] at h hc ⊢
  refine h.imp_right fun h => ⟨⟨h.1.1, fun hs => ?_⟩, fun hs => ?_⟩
  · rw [hs] at hc
    exact absurd hc.2 (by simp [ALLOWED_TRANSITIONS])
  · rw [hs] at hc
    exact absurd hc.2 (by simp [ALLOWED_TRANSITIONS])

theorem transition_credited (p : PaymentRow) (target : PaymentStatus) (now : Time) :
    (transition p target now).votesCredited = p.votesCredited := by
  unfold transition
  split_ifs <;> rfl

theorem saveTransition_keeps {target : PaymentStatus} {now : Time} (hp : v.row (.payment reference) = some p)
    (hrest : ∀ v', v'.row (.payment reference) = some (transition p target now) → rest.Keeps (Redeems opening) v') :
    (saveTransition reference p target now rest).Keeps (Redeems opening) v := by
  unfold saveTransition
  by_cases hc : changes p target = true
  · rw [if_pos hc]
    exact .put redeems_trans (.save hp (transition_credited _ _ _) (stays_transition _ _ _))
      (hrest _ (Db.set_row_self _ _ _))
  · rw [if_neg hc]
    have hsame : transition p target now = p := if_neg hc
    exact hrest v (hsame.symm ▸ hp)

/-- A payment is credited, and then its code redeemed. -/
theorem markCredited_keeps {c : CreditCall} (hp : v.row (.payment reference) = some p) (hc : creditable p = true)
    (hrest : rest.KeepsAll (Redeems opening)) : (markCredited id c reference p rest).Keeps (Redeems opening) v := by
  simp only [creditable, Bool.and_eq_true, Bool.not_eq_true', decide_eq_true_eq] at hc
  have hstays : Stays p (credited p c.now) :=
    ⟨rfl, rfl, fun _ => by simp [mayRedeem, hc.1.2, hc.2]⟩
  -- the payment alone
  have hset : ∀ code, codeCount (v.set (.payment reference) (some (credited p c.now))) code .total (·.votesCredited) =
      codeCount v code .total (·.votesCredited) + if p.discount = some code then 1 else 0 := fun code => by
    have h := codeCount_set v code .total (·.votesCredited) reference (credited p c.now)
    rw [hp, Option.elim_some, hc.1.1, Bool.and_false, if_neg (by simp), Nat.add_zero] at h
    rw [h]
    by_cases hd : p.discount = some code
    · have hcounts : (decide ((credited p c.now).discount = some code) && CodeCap.total.scope (credited p c.now) &&
          (credited p c.now).votesCredited) = true := by simp [credited, hd, CodeCap.scope]
      rw [if_pos hcounts, if_pos hd]
    · have hcounts : (decide ((credited p c.now).discount = some code) && CodeCap.total.scope (credited p c.now) &&
          (credited p c.now).votesCredited) = false := by simp [credited, hd]
      rw [hcounts, if_neg hd]
      rfl
  have hkept : ∀ v' : Database, (∀ r, v'.row (.payment r) =
      (v.set (.payment reference) (some (credited p c.now))).row (.payment r)) → (∀ r p₁, v.row (.payment r) = some p₁ →
      ∃ p', v'.row (.payment r) = some p' ∧ Stays p₁ p') ∧ ∀ r p', v.row (.payment r) = none →
      v'.row (.payment r) = some p' → ∃ p, opening = some (r, p) ∧ Stays p p' := by
    intro v' hrows
    refine ⟨fun r p₁ hp₁ => ?_, fun r p' hnone hsome => ?_⟩
    · by_cases hr : r = reference
      · subst hr
        obtain rfl := Option.some.inj (hp.symm.trans hp₁)
        exact ⟨_, (hrows _).trans (Db.set_row_self _ _ _), hstays⟩
      · exact ⟨p₁, (hrows _).trans ((Db.set_row_ne _ _ (by simpa using hr)).trans hp₁), .refl p₁⟩
    · by_cases hr : r = reference
      · rw [hr, hp] at hnone
        cases hnone
      · rw [hrows, Db.set_row_ne _ _ (by simpa using hr), hnone] at hsome
        cases hsome
  intro db w log hv hR
  unfold markCredited
  rw [Prog.exec_update (hv ▸ hp) rfl]
  have hview : db.apply (⟨.payment reference, some (credited p c.now)⟩ :: w) =
      v.set (.payment reference) (some (credited p c.now)) := by rw [Db.apply_cons, hv]
  rcases hd : p.discount with _ | code
  · refine hrest _ db _ log hview (hR.trans ⟨fun code d hrow => ⟨0, ?_, ?_⟩, fun code h => ?_, ?_, ?_⟩)
    · exact (Db.set_row_ne _ _ (by simp)).trans hrow
    · rw [hset code, hd, if_neg (by simp)]
    · exact (Db.set_row_ne _ _ (by simp)).trans h
    · exact (hkept _ fun _ => rfl).1
    · exact (hkept _ fun _ => rfl).2
  dsimp only [id]
  rcases hrow : v.row (.discountCode code) with _ | d
  · -- the code is gone
    have hnone : (db.apply (⟨.payment reference, some (credited p c.now)⟩ :: w)).row (.discountCode code) = none := by
      rw [hview]
      exact (Db.set_row_ne _ _ (by simp)).trans hrow
    rw [Prog.exec_update_none fun r hr => by rw [hnone] at hr; cases hr]
    refine hrest _ db _ log hview (hR.trans ⟨fun code' d hrow' => ⟨0, ?_, ?_⟩, fun code h => ?_, ?_, ?_⟩)
    · exact (Db.set_row_ne _ _ (by simp)).trans hrow'
    · have hne : p.discount ≠ some code' := fun h => by
        rw [hd] at h
        obtain rfl := Option.some.inj h
        rw [hrow] at hrow'
        cases hrow'
      rw [hset code', if_neg hne]
    · exact (Db.set_row_ne _ _ (by simp)).trans h
    · exact (hkept _ fun _ => rfl).1
    · exact (hkept _ fun _ => rfl).2
  have hsome : (db.apply (⟨.payment reference, some (credited p c.now)⟩ :: w)).row (.discountCode code) = some d := by
    rw [hview]
    exact (Db.set_row_ne _ _ (by simp)).trans hrow
  rw [Prog.exec_update hsome rfl]
  have hpayments : ∀ r, ((v.set (.payment reference) (some (credited p c.now))).set (.discountCode code)
      (some (redeem d))).row (.payment r) = (v.set (.payment reference) (some (credited p c.now))).row (.payment r) :=
    fun r => Db.set_row_ne _ _ (by simp)
  refine hrest _ db _ log (by rw [Db.apply_cons, hview])
    (hR.trans ⟨fun code' d' hrow' => ?_, fun code' h => ?_, (hkept _ hpayments).1, (hkept _ hpayments).2⟩)
  · have hle := codeCount_congr code' .total (·.votesCredited) hpayments
    have hcount := hset code'
    rw [hd] at hcount
    by_cases hcode : code' = code
    · subst hcode
      obtain rfl := Option.some.inj (hrow.symm.trans hrow')
      rw [if_pos rfl] at hcount
      exact ⟨1, Db.set_row_self _ _ _, by omega⟩
    · rw [if_neg fun h => hcode (Option.some.inj h).symm] at hcount
      refine ⟨0, ?_, by omega⟩
      rw [Db.set_row_ne _ _ (by simpa using hcode), Db.set_row_ne _ _ (by simp)]
      exact hrow'
  · have hcode : code' ≠ code := by
      rintro rfl
      rw [hrow] at h
      cases h
    rw [Db.set_row_ne _ _ (by simpa using hcode), Db.set_row_ne _ _ (by simp)]
    exact h

theorem creditVotes_keeps {c : CreditCall} (hp : v.row (.payment reference) = some p)
    (hrest : rest.KeepsAll (Redeems opening)) : (creditVotes c reference p rest).Keeps (Redeems opening) v := by
  have hput : ∀ {k : Key} {r : Option (Row k)} {q : Program}, isAside k = true → q.KeepsAll (Redeems opening) →
      (Prog.put k r q).KeepsAll (Redeems opening) := fun hk hq _ => .put redeems_trans (ignores_aside _ _ _ hk) (hq _)
  unfold creditVotes
  by_cases hc : creditable p = true
  swap
  · rw [if_neg hc]
    exact hrest v
  rw [if_pos hc]
  rcases p.candidate with _ | candidate
  · exact hrest v
  refine .insertOr redeems_trans (fun _ => ignores_aside _ _ _ rfl) (fun _ => ?_) (hrest v)
  refine .insertOr redeems_trans (fun _ => ignores_aside _ _ _ rfl) (fun _ => ?_) (hput rfl hrest _)
  refine .insertOr redeems_trans (fun _ => ignores_aside _ _ _ rfl) (fun _ => ?_) (hput rfl (hput rfl hrest) _)
  refine markCredited_keeps ?_ hc hrest
  rw [Db.set_row_ne _ _ (by simp), Db.set_row_ne _ _ (by simp), Db.set_row_ne _ _ (by simp)]
  exact hp

theorem commits_keeps (hrest : rest.KeepsAll (Redeems opening)) : (Prog.commit rest).KeepsAll (Redeems opening) :=
  fun v => .commit redeems_trans .refl (hrest v)

theorem reverseVotes_keeps (hrest : rest.KeepsAll (Redeems opening)) :
    (reverseVotes reference rest).Keeps (Redeems opening) v :=
  .updateWhere redeems_trans ignores_aside (fun k r h => by
    cases k <;> first
      | rfl
      | cases h) hrest

theorem ignores_audit : Ignores (Redeems opening) isAudit := fun v k r hk => by
  refine ignores_aside v k r ?_
  cases k <;> first
    | rfl
    | cases hk

theorem markInvoicePaid_keeps {c : InvoiceCall} {fail : Program} {invoice : ℕ}
    (hfail : fail.KeepsAll (Redeems opening)) (hrest : rest.KeepsAll (Redeems opening)) :
    (markInvoicePaid E c fail invoice reference rest).KeepsAll (Redeems opening) := by
  intro v
  unfold markInvoicePaid
  refine .lockRow (fun _ => hfail v) fun i _ => ?_
  dsimp only
  split_ifs
  · exact hrest v
  have hactivate : ∀ (s : SubscriptionRow) (v : Database), (Prog.update (.subscription i.organization) (fun _ => true)
      (fun _ => extended i s) fun _ => record E
        { eventType := "BILLING_INVOICE_PAID"
          organization := some i.organization
          targetType := "billing.Invoice"
          targetId := toString invoice
          summary := "Invoice " ++ i.number ++ " paid"
          metadata := .obj [("payment", .str reference)]
          createdAt := c.now } fail rest : Program).Keeps (Redeems opening) v := fun s v =>
    have hrecord : ∀ v : Database, (record E _ fail rest).Keeps (Redeems opening) v := fun v =>
      record_keeps redeems_trans ignores_audit (fun _ _ => hfail _) fun _ _ => hrest _
    .update redeems_trans (fun _ _ _ => ignores_aside _ _ _ rfl) (fun _ _ _ => hrecord _) (hrecord v)
  refine .put redeems_trans (ignores_aside _ _ _ rfl) (.read ?_)
  split
  · exact hactivate _ _
  · refine .insert redeems_trans (fun _ => ignores_aside _ _ _ rfl) (fun _ => hactivate _ _) fun _ => .read ?_
    split
    · exact hactivate _ _
    · exact hfail _

theorem fulfil_keeps {q : GatewayCall} {matching : Bool} (hbilled : Billed E A)
    (hp : v.row (.payment q.reference) = some p) (hrest : rest.KeepsAll (Redeems opening)) :
    (fulfil A q p matching rest).Keeps (Redeems opening) v := by
  unfold fulfil
  split
  · exact creditVotes_keeps hp hrest
  split
  · split
    · obtain ⟨c, hc⟩ := hbilled
      rw [hc]
      exact markInvoicePaid_keeps (fun v => .rollback .refl fun v => .halt .refl) hrest v
    · exact hrest v
  · exact hrest v

theorem stays_reported (p : PaymentRow) (status : String) (d : GatewayDetails) (now : Time) :
    Stays p (reported p status d now) := ⟨rfl, rfl, id⟩

theorem stays_held {p p' : PaymentRow} (hdiscount : p'.discount = p.discount)
    (hemail : p'.payerEmailIndex = p.payerEmailIndex) (hcredited : p'.votesCredited = p.votesCredited)
    (hstatus : p'.status = p.status) (hheld : p.held = true → p'.held = true) : Stays p p' := by
  refine ⟨hdiscount, hemail, fun h => ?_⟩
  simp only [mayRedeem, Bool.or_eq_true, Bool.and_eq_true, Bool.not_eq_true', decide_eq_true_eq, hcredited, hstatus] at h ⊢
  refine h.imp_right fun h => ⟨⟨?_, h.1.2⟩, h.2⟩
  by_contra hne
  rw [hheld (by simpa using hne)] at h
  cases h.1.1

theorem confirm_keeps {q : GatewayCall} {k : Except Failure (Option PaymentRow) → Program} {p₀ : PaymentRow}
    (hbilled : Billed E A) (hp : v.row (.payment q.reference) = some p₀) (hstays : Stays p₀ p)
    (hcredited : p.votesCredited = p₀.votesCredited) (hk : ∀ r, (k r).KeepsAll (Redeems opening)) :
    (confirm E A q p k).Keeps (Redeems opening) v := by
  unfold confirm
  refine .put redeems_trans (.save hp hcredited hstays) ?_
  rcases amountsOf E q.data p with e | ⟨amount, currency⟩
  · exact .rollback .refl (hk _)
  have hdone : ∀ p', (Prog.commit (.note (.succeeded q.reference amount currency) (k (.ok (some p'))))).KeepsAll
      (Redeems opening) := fun p' => commits_keeps fun v => .note (hk _ v)
  dsimp only
  refine saveTransition_keeps (Db.set_row_self _ _ _) fun v₁ hp₁ => ?_
  split_ifs
  · exact hdone _ v₁
  · refine .put redeems_trans (.save hp₁ rfl ?_) (fulfil_keeps hbilled (Db.set_row_self _ _ _) (hdone _))
    exact stays_held rfl rfl rfl rfl fun _ => rfl
  · refine .read (.put redeems_trans (.save hp₁ rfl ?_) (fulfil_keeps hbilled (Db.set_row_self _ _ _) (hdone _)))
    exact stays_held rfl rfl rfl rfl fun h => by simp [assessed, h]
  · exact fulfil_keeps hbilled hp₁ (hdone _)

/-- **A report** moves codes and payments together. -/
theorem applyGatewayResult_keeps {q : GatewayCall} {k : Except Failure (Option PaymentRow) → Program}
    (hbilled : Billed E A) (hk : ∀ r, (k r).KeepsAll (Redeems opening)) :
    (applyGatewayResult E A q k).KeepsAll (Redeems opening) := by
  intro v
  unfold applyGatewayResult
  refine .lockRow (fun _ => commits_keeps (hk _) v) fun p hp => ?_
  dsimp only
  rcases gatewayStatus E q.data with e | status
  · exact .rollback .refl (hk _)
  dsimp only
  have hsettle : ∀ target : PaymentStatus, (saveTransition q.reference p target (q.now 0) <| .commit <|
      k (.ok (some (transition p target (q.now 0))))).Keeps (Redeems opening) v := fun target =>
    saveTransition_keeps hp fun v' _ => commits_keeps (hk _) v'
  split_ifs
  · rcases A.details q.data p with e | d
    · exact .rollback .refl (hk _)
    · exact confirm_keeps hbilled hp (stays_reported _ _ _ _) rfl hk
  · exact hsettle _
  · exact hsettle _
  · exact saveTransition_keeps hp fun v' _ => reverseVotes_keeps (commits_keeps (hk _))
  · exact saveTransition_keeps hp fun v' _ => commits_keeps (hk _) v'
  · refine .put redeems_trans (.save hp rfl ⟨rfl, rfl, id⟩) ?_
    exact saveTransition_keeps (Db.set_row_self _ _ _) fun v' _ => commits_keeps (hk _) v'

theorem applyTicketResult_keeps {data : List (String × Json)} {k : Except Failure (Option PurchaseRow) → Program}
    (hk : ∀ r, (k r).KeepsAll (Redeems opening)) :
    (Tickets.applyTicketResult E reference data k).KeepsAll (Redeems opening) := by
  intro v
  unfold Tickets.applyTicketResult
  have hcommit : ∀ r, (Prog.commit (k r)).Keeps (Redeems opening) v := fun r => commits_keeps (hk r) v
  refine .lockRow (fun _ => hcommit _) fun p _ => .lockRow (fun _ => hcommit _) fun t _ => ?_
  dsimp only
  have hsave : ∀ status, (Prog.put (.purchase reference) (some { p with status := status }) <|
      .commit (k (.ok (some { p with status := status })))).Keeps (Redeems opening) v := fun _ =>
    .put redeems_trans (ignores_aside _ _ _ rfl) (commits_keeps (hk _) _)
  split_ifs
  · exact hcommit _
  rcases gatewayStatus E data with e | status
  · exact .rollback .refl (hk _)
  dsimp only
  split_ifs
  · rcases amountOf E data with e | amount
    · exact .rollback .refl (hk _)
    dsimp only
    split_ifs
    · exact hcommit _
    · exact hsave _
  · exact hsave _
  · exact hcommit _

theorem verifyAndApply_keeps {q : GatewayCall} {answer : Option (List (String × Json))}
    {k : Except Failure Tickets.Verified → Program} (hbilled : Billed E A)
    (hk : ∀ r, (k r).KeepsAll (Redeems opening)) :
    (Tickets.verifyAndApply E A q answer k).KeepsAll (Redeems opening) := by
  intro v
  unfold Tickets.verifyAndApply
  rcases answer with _ | data
  · exact hk _ v
  refine .read ?_
  split_ifs
  · exact applyGatewayResult_keeps hbilled (fun _ => hk _) v
  refine .read ?_
  split_ifs
  · exact applyTicketResult_keeps (fun _ => hk _) v
  · exact hk _ v

theorem expirePayment_keeps {q : GatewayCall} {answer : Option (List (String × Json))} {now : Time}
    {k : Except Failure Unit → Program} (hbilled : Billed E A) (hk : ∀ r, (k r).KeepsAll (Redeems opening)) :
    (expirePayment E A q answer now k).KeepsAll (Redeems opening) := by
  refine verifyAndApply_keeps hbilled fun r => ?_
  rcases r with e | r
  · exact hk _
  intro v
  refine .read ?_
  rcases v.row (.payment q.reference) with _ | p
  · exact hk _ v
  dsimp only
  split_ifs
  · exact .lockRow (fun _ => .rollback .refl (hk _)) fun locked hlocked =>
      saveTransition_keeps hlocked fun v' _ => commits_keeps (hk _) v'
  · exact hk _ v

theorem reconcileListed_keeps {q : GatewayCall} {k : Except Failure Unit → Program} (hbilled : Billed E A)
    (hk : ∀ r, (k r).KeepsAll (Redeems opening)) : (reconcileListed E A q k).KeepsAll (Redeems opening) := by
  intro v
  refine .read ?_
  rcases v.row (.payment q.reference) with _ | p
  · refine .read ?_
    rcases v.row (.purchase q.reference) with _ | t
    · exact hk _ v
    dsimp only
    split_ifs
    · exact applyTicketResult_keeps (fun _ => hk _) v
    · exact hk _ v
  dsimp only
  split_ifs
  · exact applyGatewayResult_keeps hbilled (fun _ => hk _) v
  · exact hk _ v

theorem completeRefund_keeps {fail : Failure → Program} {id : String} {now : ℕ → Time}
    (hfail : ∀ e, (fail e).KeepsAll (Redeems opening)) (hrest : rest.KeepsAll (Redeems opening)) :
    (completeRefund .commit fail E id now rest).KeepsAll (Redeems opening) := by
  intro v
  unfold completeRefund
  refine .lockRow (fun _ => hfail _ v) fun r _ => ?_
  dsimp only
  split
  · exact commits_keeps hrest v
  refine .lockRow (fun _ => hfail _ v) fun p hp => ?_
  have hput : (v.set (.refund id) (some (processed r (now 0)))).row (.payment r.payment) = some p :=
    (Db.set_row_ne _ _ (by simp)).trans hp
  refine .put redeems_trans (ignores_aside _ _ _ rfl) (.put redeems_trans (.save hput rfl ⟨rfl, rfl, fun h => h⟩) ?_)
  refine saveTransition_keeps (Db.set_row_self _ _ _) fun v' _ => ?_
  have hdone : (recordRefund E (fun o => refundEntry "REFUND_PROCESSED" none none p.event o id
      ("Refund " ++ money r.amount ++ " processed") "" (now 2)) p.event (fail (.crash "DatabaseError"))
      (.commit rest)).KeepsAll (Redeems opening) := fun v =>
    .read (record_keeps redeems_trans ignores_audit (fun _ _ => hfail _ _) fun _ _ => commits_keeps hrest _)
  split
  · exact reverseVotes_keeps (commits_keeps hdone)
  · exact commits_keeps hdone v'

theorem webhookRefund_keeps {q : WebhookCall} {k : Except Failure Unit → Program}
    (hk : ∀ r, (k r).KeepsAll (Redeems opening)) : (webhookRefund E q k).KeepsAll (Redeems opening) := by
  intro v
  unfold webhookRefund
  rcases refundReference E q.data with e | reference
  · exact hk _ v
  refine .read ?_
  rcases (openRefunds v reference).head? with _ | ⟨id, r⟩
  · exact hk _ v
  dsimp only
  split_ifs
  · exact completeRefund_keeps (fun _ _ => .rollback .refl (hk _)) (hk _) v
  · exact .note (.update redeems_trans (fun _ _ _ => ignores_aside _ _ _ rfl) (fun _ _ _ => commits_keeps (hk _) _)
      (commits_keeps (hk _) v))
  · exact hk _ v

theorem webhookDispute_keeps {q : WebhookCall} {k : Except Failure Unit → Program}
    (hk : ∀ r, (k r).KeepsAll (Redeems opening)) : (webhookDispute E q reference k).KeepsAll (Redeems opening) := by
  intro v
  unfold webhookDispute
  rcases disputeReference E q.data reference with e | reference
  · exact hk _ v
  refine .read ?_
  rcases v.row (.payment reference) with _ | found
  · exact hk _ v
  refine .lockRow (fun _ => .rollback .refl (hk _)) fun p hp => ?_
  have haudit : (Prog.read fun db => recordNow E
      { eventType := "PAYMENT_CHARGEBACK"
        event := found.event.map fun e => (e, organizationOf db found.event)
        targetType := "payments.Payment"
        targetId := reference
        summary := q.eventType ++ " for " ++ reference
        createdAt := q.now 1 }
      (k (.error (.crash "DatabaseError"))) (k (.ok ())) : Program).KeepsAll (Redeems opening) := fun v =>
    .read (record_keeps redeems_trans ignores_audit (fun _ _ => .rollback .refl (hk _)) fun _ _ => commits_keeps (hk _) _)
  dsimp only
  split_ifs
  · exact saveTransition_keeps hp fun v' _ => reverseVotes_keeps (commits_keeps haudit)
  · exact saveTransition_keeps hp fun v' _ => commits_keeps haudit v'
  · exact saveTransition_keeps hp fun v' _ => commits_keeps haudit v'
  · exact saveTransition_keeps hp fun v' _ => commits_keeps (fun v => .note (haudit v)) v'
  · exact saveTransition_keeps hp fun v' _ => commits_keeps haudit v'
  · exact commits_keeps haudit v

/-- **A webhook** moves codes and payments together. -/
theorem dispatchWebhook_keeps {q : WebhookCall} {credit : CreditCall} {k : Except Failure Unit → Program}
    (hbilled : Billed E A) (hk : ∀ r, (k r).KeepsAll (Redeems opening)) :
    (dispatchWebhook E A q credit k).KeepsAll (Redeems opening) := by
  intro v
  unfold dispatchWebhook
  rcases webhookReference E q.data with e | reference
  · exact hk _ v
  dsimp only
  split_ifs
  · refine .read ?_
    split_ifs
    · exact applyGatewayResult_keeps hbilled (fun _ => hk _) v
    refine .read ?_
    split_ifs
    · exact applyTicketResult_keeps (fun _ => hk _) v
    · exact hk _ v
  · refine .read ?_
    split_ifs
    · exact applyGatewayResult_keeps hbilled (fun _ => hk _) v
    · exact hk _ v
  · exact webhookRefund_keeps hk v
  · exact webhookDispute_keeps hk v
  · exact hk _ v

end Programs

/-! ### A checkout -/

section Checkout

variable {E : Env} {db : Database}

/-- A code that is found comes on a quote if the payer has not used it up. -/
theorem discounted_code {emailIndex : String} {q : Quote} {found : Option (ℕ × DiscountCodeRow)} {code : ℕ}
    (hq : q.discountCode = none) (h : (discounted db emailIndex q found).discountCode = some code) :
    ∃ d, found = some (code, d) ∧ ∀ m, limit d.perPayerLimit = some m → emailIndex ≠ "" →
      countPayments db (fun p => p.discount = some code ∧ p.payerEmailIndex = emailIndex ∧ p.status = .SUCCESS) < m := by
  have hnone : q.discountCode ≠ some code := fun h' => by
    rw [hq] at h'
    cases h'
  rcases found with _ | ⟨pk, d⟩
  · exact absurd h hnone
  unfold discounted at h
  dsimp only at h
  split at h
  · exact absurd h hnone
  split at h
  · exact absurd h hnone
  rename_i hlimit
  have hpk : pk = code := by
    split at h <;> exact Option.some.inj h
  subst hpk
  refine ⟨d, rfl, fun m hm hne => ?_⟩
  rw [hm] at hlimit
  by_contra hle
  exact hlimit (by simpa [hne] using Nat.le_of_not_lt hle)

/-- A code comes on a quote only if it is there, available, and not used up by
the payer. -/
theorem withDiscount_code {event : ℕ} {ev : EventRow} {o : Order} {emailIndex : String} {now : Time} {q : Quote}
    {code : ℕ} (hq : q.discountCode = none) (h : (withDiscount E db event ev o emailIndex now q).discountCode = some code) :
    ∃ d, db.row (.discountCode code) = some d ∧ d.isAvailable now = true ∧ ∀ m, limit d.perPayerLimit = some m →
      emailIndex ≠ "" →
      countPayments db (fun p => p.discount = some code ∧ p.payerEmailIndex = emailIndex ∧ p.status = .SUCCESS) < m := by
  unfold withDiscount at h
  obtain ⟨d, hfound, hpayer⟩ := discounted_code (by split_ifs <;> exact hq) h
  obtain ⟨hfind, havailable⟩ := Option.filter_eq_some_iff.mp hfound
  refine ⟨d, ?_, havailable, hpayer⟩
  unfold findDiscount at hfind
  split_ifs at hfind
  obtain ⟨hhead, -⟩ := Option.filter_eq_some_iff.mp hfind
  obtain ⟨x, r, hr, hx⟩ := (Db.mem_collect _ _ _).mp (List.mem_of_head? hhead)
  cases x with
  | discountCode pk' =>
    dsimp only at hx
    split_ifs at hx
    obtain ⟨rfl, rfl⟩ := Prod.mk.inj (Option.some.inj hx)
    exact hr
  | _ => cases hx

theorem quote_code {event : ℕ} {ev : EventRow} {c : Choice} {o : Order} {now : Time} {code : ℕ}
    (h : (quote E db event ev c o now).discountCode = some code) :
    ∃ d, db.row (.discountCode code) = some d ∧ d.isAvailable now = true ∧ ∀ m, limit d.perPayerLimit = some m →
      emailIndexOf E o ≠ "" → countPayments db
        (fun p => p.discount = some code ∧ p.payerEmailIndex = emailIndexOf E o ∧ p.status = .SUCCESS) < m := by
  have hwith : ∀ q : Quote, q.discountCode = none → ∀ index, index = emailIndexOf E o →
      (withAmount (withDiscount E db event ev o index now q)).discountCode = some code →
      ∃ d, db.row (.discountCode code) = some d ∧ d.isAvailable now = true ∧ ∀ m, limit d.perPayerLimit = some m →
        emailIndexOf E o ≠ "" → countPayments db
          (fun p => p.discount = some code ∧ p.payerEmailIndex = emailIndexOf E o ∧ p.status = .SUCCESS) < m := by
    rintro q hq _ rfl h
    have hamount : ∀ q : Quote, (withAmount q).discountCode = q.discountCode := fun q => by
      unfold withAmount
      dsimp only
      split_ifs <;> rfl
    rw [hamount] at h
    exact withDiscount_code hq h
  have hlast : ∀ (b : Prop) [Decidable b] (q : Quote) (es : List String),
      (if b then q else { q with errors := es }).discountCode = some code → q.discountCode = some code := by
    intro b _ q es h
    split at h
    · exact h
    · exact h
  unfold quote at h
  split at h
  · cases h
  split at h
  · cases h
  dsimp only at h
  rcases hpackage : o.package with _ | ⟨pk, g⟩
  · rw [hpackage] at h
    dsimp only at h
    exact hwith _ rfl _ rfl (hlast _ _ _ h)
  rw [hpackage] at h
  dsimp only at h
  by_cases havailable : g.event ≠ event ∨ (!g.isAvailable now) = true
  · rw [if_pos havailable] at h
    cases h
  rw [if_neg havailable] at h
  dsimp only at h
  exact hwith _ rfl _ rfl (hlast _ _ _ h)

/-- **A new payment with a code finds room** beside what the quote sees. -/
theorem quote_room (hE : Lowers E) (hdb : Covered db) {q : InitiateCall} {ev : EventRow} {c : Choice} {o : Order}
    {now : Time} {code m : ℕ} {d : DiscountCodeRow} {cap : CodeCap} (hemail : o.email = q.order.email)
    (hcode : (q.row E ev (quote E db q.event ev c o now)).discount = some code)
    (hscope : cap.scope (q.row E ev (quote E db q.event ev c o now)) = true)
    (hd : db.row (.discountCode code) = some d) (hcap : cap.of d = some m) : codeCount db code cap cap.seen < m := by
  obtain ⟨d', hd', havailable, hpayer⟩ := quote_code (show (quote E db q.event ev c o now).discountCode = some code from hcode)
  obtain rfl := Option.some.inj (hd.symm.trans hd')
  rcases cap with _ | index
  · have hmax : d.maxRedemptions = some m := hcap
    have hcounted := hdb.counted code d hd
    unfold DiscountCodeRow.isAvailable at havailable
    rw [hmax] at havailable
    simp only [Option.any_some, Bool.and_eq_true, Bool.not_eq_true', decide_eq_false_iff_not] at havailable
    have hseen : codeCount db code .total (CodeCap.seen .total) = codeCount db code .total (·.votesCredited) := rfl
    omega
  · obtain ⟨votes, package, text, email, phone⟩ := o
    dsimp only at hemail
    subst hemail
    simp only [CodeCap.scope, Bool.and_eq_true, decide_eq_true_eq] at hscope
    obtain ⟨hne, hindex⟩ := hscope
    have hlooked : emailIndexOf E ⟨votes, package, text, q.order.email, phone⟩ = index :=
      (emailIndexOf_row hE _ q.order.email q.order.phone votes package text (by rw [← hindex] at hne; exact hne)).trans hindex
    have hlt := hpayer m hcap (by rw [hlooked]; exact hne)
    rw [hlooked] at hlt
    have hle : codeCount db code (.payer index) (CodeCap.seen (.payer index)) ≤
        countPayments db fun p => p.discount = some code ∧ p.payerEmailIndex = index ∧ p.status = .SUCCESS := by
      refine sumPayments_le fun r p hp hc => ⟨p, hp, ?_, le_rfl⟩
      simp only [CodeCap.scope, CodeCap.seen, Bool.and_eq_true, decide_eq_true_eq] at hc ⊢
      exact ⟨hc.1.1, hc.1.2.2, hc.2⟩
    exact Nat.lt_of_le_of_lt hle hlt

/-- The payment that the gateway has answered waits for its payer. -/
theorem answered_keeps {q : InitiateCall} {row : PaymentRow} : (Prog.read fun db =>
      match db.row (.payment q.reference) with
      | none => .rollback .halt
      | some p => saveTransition q.reference p .PENDING (q.now 1) <| .commit .halt : Program).KeepsAll
        (Redeems (some (q.reference, row))) := by
  have hhalt : (Prog.halt : Program).KeepsAll (Redeems (some (q.reference, row))) := fun _ => .halt .refl
  intro v
  refine .read ?_
  rcases hp : v.row (.payment q.reference) with _ | p
  · exact .rollback .refl hhalt
  · exact saveTransition_keeps hp fun v' _ => commits_keeps hhalt v'

/-- Nothing is recorded under a key that was taken meanwhile. -/
theorem keyTaken_keeps {q : InitiateCall} {row : PaymentRow} : (Prog.rollback <| .read fun db =>
      match db.row (.paymentKey q.idempotencyKey) with
      | some _ => .halt
      | none => .halt : Program).KeepsAll (Redeems (some (q.reference, row))) := by
  have hhalt : (Prog.halt : Program).KeepsAll (Redeems (some (q.reference, row))) := fun _ => .halt .refl
  exact fun v => .rollback .refl fun v => .read (by split <;> exact hhalt v)

/-- What is recorded is one payment, and the gateway's answer to it. -/
theorem recordPayment_keeps {q : InitiateCall} {row : PaymentRow} (hcredited : row.votesCredited = false)
    (hstatus : row.status = .INITIALIZED) :
    (recordPayment q row fun _ => .halt).KeepsAll (Redeems (some (q.reference, row))) := by
  have hhalt : (Prog.halt : Program).KeepsAll (Redeems (some (q.reference, row))) := fun _ => .halt .refl
  have hask : ∀ v : Database, v.row (.payment q.reference) = some row →
      (askGateway q fun _ => .halt).Keeps (Redeems (some (q.reference, row))) v := by
    intro v hv
    unfold askGateway
    rcases q.answer with e | page
    · refine .commit redeems_trans .refl (.note (.update redeems_trans (fun r hr _ => ?_)
        (fun _ _ _ => commits_keeps hhalt _) (commits_keeps hhalt v)))
      obtain rfl := Option.some.inj (hv.symm.trans hr)
      refine .save hv rfl ⟨rfl, rfl, fun h => ?_⟩
      simpa [mayRedeem, refusedPayment, hstatus] using h
    · refine .commit redeems_trans .refl (.update redeems_trans (fun r hr _ => ?_) (fun _ _ _ => answered_keeps _)
        (answered_keeps v))
      exact .save hr rfl ⟨rfl, rfl, fun h => h⟩
  intro v
  unfold recordPayment
  refine .insertOr redeems_trans (fun hfree => .open hfree hcredited) (fun _ => ?_) (keyTaken_keeps v)
  split
  · exact hask _ (Db.set_row_self _ _ _)
  · refine .insertOr redeems_trans (fun _ => ignores_aside _ _ _ rfl) (fun _ => hask _ ?_) (keyTaken_keeps _)
    exact (Db.set_row_ne _ _ (by simp)).trans (Db.set_row_self _ _ _)

/-- **A checkout** opens the payment of a quote without errors, or none. -/
theorem initiate_redeems (q : InitiateCall) (db : Database) :
    Redeems none db ((initiateVotePayment E q fun _ => .halt).after db) ∨
      ∃ ev c o, o.email = q.order.email ∧ Redeems (some (q.reference, q.row E ev (quote E db q.event ev c o (q.now 0)))) db
        ((initiateVotePayment E q fun _ => .halt).after db) := by
  have hnone : ∀ log, Redeems none db ((Prog.halt : Program).exec db [] log).db := fun _ => .refl db
  unfold Prog.after initiateVotePayment
  rw [Prog.exec_read, Db.apply_nil]
  rcases db.row (.event q.event) with _ | ev
  · exact Or.inl (hnone _)
  rcases db.row (.candidate q.candidate) with _ | c
  · exact Or.inl (hnone _)
  dsimp only
  by_cases hconf : (!q.configured) = true
  · rw [if_pos hconf]
    exact Or.inl (hnone _)
  rw [if_neg hconf, Prog.exec_read, Db.apply_nil]
  rcases (if q.idempotencyKey = "" then none else db.row (.paymentKey q.idempotencyKey)) with _ | reference
  swap
  · dsimp only
    rcases db.row (.payment reference) with _ | p
    · exact Or.inl (hnone _)
    · dsimp only
      split_ifs
      · exact Or.inl (hnone _)
      · exact Or.inl (hnone _)
  dsimp only
  rw [Prog.exec_read, Db.apply_nil]
  rcases (quote E db q.event ev _ _ (q.now 0)).errors with _ | ⟨e, es⟩
  swap
  · exact Or.inl (hnone _)
  dsimp only
  by_cases hpayer : q.order.email = "" ∧ q.order.phone = ""
  · rw [if_pos hpayer]
    exact Or.inl (hnone _)
  rw [if_neg hpayer]
  by_cases hchallenged : q.challenged = true
  · rw [if_pos hchallenged]
    exact Or.inl (hnone _)
  rw [if_neg hchallenged]
  refine Or.inr ⟨ev, _, _, ?_, Prog.Keeps.after .refl (recordPayment_keeps ?_ ?_ db)⟩
  · rfl
  · rfl
  · rfl

end Checkout

/-! ### Over a sequence of calls -/

section Sequence

variable {E : Env} {A : Adapters}

/-- The payment a call opens, if it does: that of a quote. -/
def Opens (E : Env) (db : Database) (c : Caps.Call) (opening : Option (String × PaymentRow)) : Prop :=
  opening = none ∨ ∃ q ev choice o, c = .initiateVotePayment q ∧ o.email = q.order.email ∧
    opening = some (q.reference, q.row E ev (quote E db q.event ev choice o (q.now 0)))

/-- **A call** moves codes and payments together. -/
theorem Call.redeems (hbilled : Billed E A) (c : Caps.Call) (db : Database) :
    ∃ opening, Opens E db c opening ∧ Redeems opening db (c.after E A db) := by
  have hhalt : ∀ {α : Type} (r : α), ((fun _ : α => (.halt : Program)) r).KeepsAll (Redeems none) :=
    fun _ _ => .halt .refl
  rcases c with q | ⟨q, credit⟩ | ⟨q, answer⟩ | q | ⟨q, answer, now⟩
  · rcases initiate_redeems q db with h | ⟨ev, choice, o, hemail, h⟩
    · exact ⟨none, Or.inl rfl, h⟩
    · exact ⟨_, Or.inr ⟨q, ev, choice, o, rfl, hemail, rfl⟩, h⟩
  · exact ⟨none, Or.inl rfl, (dispatchWebhook_keeps hbilled hhalt db).after .refl⟩
  · exact ⟨none, Or.inl rfl, (verifyAndApply_keeps hbilled hhalt db).after .refl⟩
  · exact ⟨none, Or.inl rfl, (reconcileListed_keeps hbilled hhalt db).after .refl⟩
  · exact ⟨none, Or.inl rfl, (expirePayment_keeps hbilled hhalt db).after .refl⟩

theorem Stays.scope {p p' : PaymentRow} (h : Stays p p') (cap : CodeCap) : cap.scope p' = cap.scope p := by
  rcases cap with _ | index
  · rfl
  · simp only [CodeCap.scope, h.email]

/-- A payment that was there counts for no more than it did. -/
theorem Redeems.counts {opening : Option (String × PaymentRow)} {db db' : Database} (h : Redeems opening db db')
    {code : ℕ} {cap : CodeCap} {r : String} {p' : PaymentRow} (hr : db.row (.payment r) ≠ none)
    (hp' : db'.row (.payment r) = some p')
    (hc : (p'.discount = some code && cap.scope p' && mayRedeem p') = true) :
    ∃ p, db.row (.payment r) = some p ∧ (p.discount = some code && cap.scope p && mayRedeem p) = true ∧ 1 ≤ 1 := by
  obtain ⟨p, hp⟩ := Option.ne_none_iff_exists'.mp hr
  obtain ⟨p₁, hp₁, hstays⟩ := h.kept r p hp
  obtain rfl := Option.some.inj (hp'.symm.trans hp₁)
  rw [hstays.scope, hstays.discount] at hc
  rw [Bool.and_eq_true, Bool.and_eq_true] at hc
  exact ⟨p, hp, by rw [hc.1.1, hc.1.2, hstays.redeem hc.2]; rfl, le_rfl⟩

/-- **One call** keeps what may be redeemed within the limits. -/
theorem Covered.after (hE : Lowers E) (hbilled : Billed E A) {db : Database} {c : Caps.Call} (hdb : Covered db)
    (hapart : Apart db (c.after E A db)) : Covered (c.after E A db) := by
  obtain ⟨opening, hopens, hredeems⟩ := Call.redeems hbilled c db
  have hbefore : ∀ code d', (c.after E A db).row (.discountCode code) = some d' →
      ∃ d n, db.row (.discountCode code) = some d ∧ d' = { d with redemptionsCount := d.redemptionsCount + n } ∧
        codeCount (c.after E A db) code .total (·.votesCredited) ≤ codeCount db code .total (·.votesCredited) + n := by
    intro code d' hd'
    rcases hd : db.row (.discountCode code) with _ | d
    · rw [hredeems.noCodes code hd] at hd'
      cases hd'
    · obtain ⟨n, hrow, hle⟩ := hredeems.codes code d hd
      exact ⟨d, n, rfl, Option.some.inj (hd'.symm.trans hrow), hle⟩
  refine ⟨fun code d' hd' => ?_, fun code d' cap m hd' hcap => ?_⟩
  · obtain ⟨d, n, hd, rfl, hle⟩ := hbefore code d' hd'
    exact hle.trans (Nat.add_le_add_right (hdb.counted code d hd) n)
  obtain ⟨d, n, hd, rfl, -⟩ := hbefore code d' hd'
  have hcap : cap.of d = some m := by
    rw [← hcap]
    rcases cap with _ | index <;> rfl
  have hwithin := hdb.within code d cap m hd hcap
  by_cases hnew : ∃ r p', db.row (.payment r) = none ∧ (c.after E A db).row (.payment r) = some p' ∧
      p'.discount = some code ∧ cap.scope p' = true
  swap
  · -- no new payment with the code that the limit is about
    refine Nat.le_trans (sumPayments_le fun r q' hq' hc => ?_) hwithin
    refine hredeems.counts (fun hnone => hnew ⟨r, q', hnone, hq', ?_⟩) hq' hc
    simp only [Bool.and_eq_true, decide_eq_true_eq] at hc
    exact hc.1
  obtain ⟨r, p', hp, hp', hcode, hscope⟩ := hnew
  obtain ⟨p, hopening, hstays⟩ := hredeems.new r p' hp hp'
  rcases hopens with rfl | ⟨q, ev, choice, o, rfl, hemail, rfl⟩
  · cases hopening
  obtain ⟨rfl, rfl⟩ := Prod.mk.inj (Option.some.inj hopening)
  have hone : codeCount (Caps.Call.after E A (.initiateVotePayment q) db) code cap mayRedeem ≤
      codeCount db code cap mayRedeem + if p'.discount = some code && cap.scope p' && mayRedeem p' then 1 else 0 := by
    refine sumPayments_new hp' fun r q' hr hq' hc => hredeems.counts (fun hnone => hr ?_) hq' hc
    obtain ⟨_, hother, -⟩ := hredeems.new r q' hnone hq'
    exact (Prod.mk.inj (Option.some.inj hother)).1.symm
  have hone : codeCount (Caps.Call.after E A (.initiateVotePayment q) db) code cap mayRedeem ≤
      codeCount db code cap mayRedeem + 1 := by
    refine hone.trans (Nat.add_le_add_left ?_ _)
    split_ifs
    · exact le_rfl
    · exact Nat.zero_le _
  have hroom := quote_room hE hdb hemail (hstays.discount ▸ hcode) (hstays.scope cap ▸ hscope) hd hcap
  rcases hapart q.reference p' code d cap m hp hp' hcode hscope hd hcap with hzero | hfits
  · have hsplit : codeCount db code cap mayRedeem ≤ _ := codeCount_split
    omega
  · exact hone.trans hfits

/-- **The limits of a code hold** after any sequence of checkouts and reports in
which the payments with it keep apart. -/
theorem within_codes (hE : Lowers E) (hbilled : Billed E A) : ∀ (cs : List Caps.Call) {db : Database}, Covered db →
    AllApart E A db cs → Within (execAll db (cs.map (Caps.Call.prog E A)))
  | [], db, hdb, _ => fun code d cap m hd hcap =>
    (codeCount_le fun p hp => by simp [mayRedeem, hp]).trans (hdb.within code d cap m hd hcap)
  | c :: cs, db, hdb, hcs => within_codes hE hbilled cs (hdb.after hE hbilled hcs.1) hcs.2

end Sequence

/-! ### A code for one purchase, used twice -/

/-- An open election with one candidate, and a code for one redemption. -/
def coded : Database :=
  limited.set (.discountCode 3) (some { code := "HALF", value := 5000, maxRedemptions := some 1 })

/-- A purchase with the code. -/
def buyWith (reference email : String) : Caps.Call :=
  let q := purchase reference (.ok ("page", "code"))
  .initiateVotePayment { q with order := { q.order with email := email, discountCode := "HALF" } }

theorem coded_covered : Covered coded :=
  ⟨fun _ _ _ => Nat.zero_le _, fun _ _ _ _ _ _ => Nat.zero_le _⟩

/-- The gateway's report that half the price is paid, with the ledger row `pk`. -/
def payHalf (reference : String) (pk : ℕ) : Caps.Call :=
  .webhook { paid reference with
    data := [("reference", .str reference), ("status", .str "success"), ("amount", .int 100), ("currency", .str "GHS")] }
    ⟨pk, 2⟩

/-- Two payments are credited with a code for one. -/
theorem not_within_codes :
    ¬ ∀ (E : Env) (A : Adapters) (cs : List Caps.Call) (db : Database), Lowers E → Billed E A → Covered db →
      Within (execAll db (cs.map (Caps.Call.prog E A))) := by
  intro h
  have hend : ∀ db', db' = execAll coded (([buyWith "a" "ama@x", buyWith "b" "kofi@x", payHalf "a" 1, payHalf "b" 2]).map
      (Caps.Call.prog .plain shopAdapters)) →
      (db'.row (.discountCode 3)).map (fun d => CodeCap.of d .total) = some (some 1) ∧
      codeCount db' 3 .total (·.votesCredited) = 2 := by
    rintro _ rfl
    decide +kernel
  obtain ⟨hcap, hcount⟩ := hend _ rfl
  obtain ⟨d, hd, hcap⟩ := Option.map_eq_some_iff.mp hcap
  have hle := h .plain shopAdapters _ coded plain_lowers shopAdapters_billed coded_covered 3 d .total 1 hd hcap
  omega

/-- No payment with a new payment's code may yet be redeemed, to be computed. -/
def apart (db db' : Database) : Bool :=
  db'.keys.all fun
    | .payment reference =>
      match db.row (.payment reference), db'.row (.payment reference) with
      | none, some p => p.discount.all fun code =>
          [CodeCap.total, CodeCap.payer p.payerEmailIndex].all fun cap =>
            codeCount db code cap (fun p => mayRedeem p && !cap.seen p) = 0
      | _, _ => true
    | _ => true

theorem apart_sound {db db' : Database} (h : apart db db' = true) : Apart db db' := by
  intro reference p code d cap m hp hp' hcode hscope _ _
  have hrow := List.all_eq_true.mp h _ (db'.cover (.payment reference) (by rw [hp']; rfl))
  simp only [hp, hp', hcode, Option.all_some, List.all_cons, List.all_nil, Bool.and_true, Bool.and_eq_true,
    decide_eq_true_eq] at hrow
  obtain ⟨htotal, hpayer⟩ := hrow
  refine Or.inl ?_
  rcases cap with _ | index
  · exact htotal
  · simp only [CodeCap.scope, Bool.and_eq_true, decide_eq_true_eq] at hscope
    obtain ⟨-, rfl⟩ := hscope
    exact hpayer

/-- A purchase that is paid before the next, which is turned down. -/
def inTurn : List Caps.Call := [buyWith "a" "ama@x", payHalf "a" 1, buyWith "b" "kofi@x"]

theorem inTurn_apart : AllApart .plain shopAdapters coded inTurn := by
  refine ⟨apart_sound ?_, apart_sound ?_, apart_sound ?_, trivial⟩
  all_goals decide +kernel

theorem within_codes_inTurn :
    codeCount (execAll coded (inTurn.map (Caps.Call.prog .plain shopAdapters))) 3 .total (·.votesCredited) = 1 ∧
      Within (execAll coded (inTurn.map (Caps.Call.prog .plain shopAdapters))) :=
  ⟨by decide +kernel, within_codes plain_lowers shopAdapters_billed inTurn coded_covered inTurn_apart⟩

end Discounts
end FlexyVotes
