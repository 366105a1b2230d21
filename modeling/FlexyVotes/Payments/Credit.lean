/-
# A payment is credited at most once

Reports of the gateway, reconciliation and the release of a hold may race on
one vote payment. The ledger row of a payment is under a unique constraint,
so there is never a second one (`Consistent`); and as long as no report of the
right amount and currency and no release of a successful payment has been
committed, the payment is not one whose votes count (`Counts`), whoever is
between its read and its write.

Key definitions: `Call`, `Consistent`, `Counts`, `Caused`, `spec`.
Key theorems: `credited_once`.
-/
import FlexyVotes.Payments.Service

namespace FlexyVotes
namespace Credit

open Transactions Audit Payments

/-- A call about a vote payment. -/
inductive Call
  | applyGatewayResult (q : GatewayCall)
  | releaseHeldPayment (q : ReleaseCall)
  | creditVotes (reference : String) (c : CreditCall)

def Call.reference : Call → String
  | .applyGatewayResult q => q.reference
  | .releaseHeldPayment q => q.reference
  | .creditVotes reference _ => reference

def Call.prog (E : Env) (A : Adapters) : Call → Program
  | .applyGatewayResult q => Payments.applyGatewayResult E A q fun _ => .halt
  | .releaseHeldPayment q => Payments.releaseHeldPayment E q fun _ => .halt
  | .creditVotes reference c => reconcileUncredited reference c

/-- What nothing changes about a payment. -/
structure Same (p₀ p : PaymentRow) : Prop where
  purpose : p.purpose = p₀.purpose
  candidate : p.candidate = p₀.candidate
  votes : p.votes = p₀.votes
  bonusVotes : p.bonusVotes = p₀.bonusVotes
  amountMinor : p.amountMinor = p₀.amountMinor
  currency : p.currency = p₀.currency

theorem Same.refl (p : PaymentRow) : Same p p := ⟨rfl, rfl, rfl, rfl, rfl, rfl⟩

theorem Same.trans {p p' p'' : PaymentRow} (h : Same p p') (h' : Same p' p'') : Same p p'' :=
  ⟨h'.purpose.trans h.purpose, h'.candidate.trans h.candidate, h'.votes.trans h.votes,
    h'.bonusVotes.trans h.bonusVotes, h'.amountMinor.trans h.amountMinor, h'.currency.trans h.currency⟩

theorem Same.transition (p : PaymentRow) (target : PaymentStatus) (now : Time) :
    Same p (transition p target now) := by
  unfold Payments.transition
  by_cases h : changes p target = true
  · rw [if_pos h]
    exact ⟨rfl, rfl, rfl, rfl, rfl, rfl⟩
  · rw [if_neg h]
    exact .refl p

theorem Same.looked (risk : PaymentRow → Assessment) (p : PaymentRow) : Same p (looked risk p) := by
  unfold Payments.looked
  by_cases h : toAssess p = true
  · rw [if_pos h]
    exact ⟨rfl, rfl, rfl, rfl, rfl, rfl⟩
  · rw [if_neg h]
    exact .refl p

/-- The report of a decision is a success of the payment's amount and currency. -/
def Matching (E : Env) (p₀ : PaymentRow) (report : Option (ℤ × String)) : Prop :=
  ∃ amount currency, report = some (amount, currency) ∧ amountsMatch E p₀ amount currency = true

/-- The payment is successful and not held. -/
def Ready (p : PaymentRow) : Prop := p.status = .SUCCESS ∧ p.held = false

/-- Only a transition to SUCCESS makes a payment ready. -/
theorem Ready.of_transition {p : PaymentRow} {target : PaymentStatus} {now : Time} (ht : target ≠ .SUCCESS)
    (h : Ready (transition p target now)) : Ready p := by
  unfold Payments.transition at h
  by_cases hc : changes p target = true
  · rw [if_pos hc] at h
    exact absurd h.1 ht
  · rwa [if_neg hc] at h

section Decide

variable {E : Env} {A : Adapters} {q : GatewayCall} {risk : PaymentRow → Assessment} {p : PaymentRow} {d : Decision}

/-- **A decision keeps what the payment is for**, and makes it ready only by a
success report of its amount and currency. -/
theorem decideSuccess_spec (h : decideSuccess E q risk p = .ok d) :
    Same p d.payment ∧ (Ready d.payment → Matching E p d.report) := by
  rcases hm : amountsOf E q.data p with e | ⟨amount, currency⟩
  · unfold decideSuccess at h
    rw [hm] at h
    cases h
  by_cases hs : Succeeds q p
  swap
  · rw [decideSuccess_stays hm hs] at h
    cases h
    exact ⟨.transition p _ _, fun hr => absurd hr.1 hs⟩
  rcases hmatch : amountsMatch E p amount currency with _ | _
  · rw [decideSuccess_mismatched hm hs hmatch] at h
    cases h
    refine ⟨(Same.transition p _ _).trans ⟨rfl, rfl, rfl, rfl, rfl, rfl⟩, fun hr => ?_⟩
    exact absurd hr.2 (by simp [mismatched])
  · rw [decideSuccess_matching hm hs hmatch] at h
    cases h
    exact ⟨(Same.transition p _ _).trans (.looked _ _), fun _ => ⟨amount, currency, rfl, hmatch⟩⟩

theorem decideReport_spec (h : decideReport E A q risk p = .ok d) :
    Same p d.payment ∧ (Ready d.payment → Ready p ∨ Matching E p d.report) := by
  rcases hs : gatewayStatus E q.data with e | status
  · unfold decideReport at h
    rw [hs] at h
    cases h
  by_cases hsucc : status = "success"
  · subst hsucc
    rcases hcols : A.details q.data p with e | columns
    · unfold decideReport at h
      rw [hs] at h
      simp [hcols] at h
    · rw [decide_success hs hcols] at h
      obtain ⟨hsame, hready⟩ := decideSuccess_spec h
      have hcolumns : Same p (reported p "success" columns (q.now 0)) := ⟨rfl, rfl, rfl, rfl, rfl, rfl⟩
      exact ⟨hcolumns.trans hsame, fun hr => Or.inr (hready hr)⟩
  by_cases hfail : status = "failed"
  · subst hfail
    rw [decide_failed hs] at h
    cases h
    exact ⟨.transition p _ _, fun hr => Or.inl (hr.of_transition (by simp))⟩
  by_cases haban : status = "abandoned"
  · subst haban
    rw [decide_abandoned hs] at h
    cases h
    exact ⟨.transition p _ _, fun hr => Or.inl (hr.of_transition (by simp))⟩
  by_cases hrev : status = "reversed"
  · subst hrev
    rw [decide_reversed hs] at h
    cases h
    exact ⟨.transition p _ _, fun hr => Or.inl (hr.of_transition (by simp))⟩
  · rw [decide_pending hs hsucc hfail haban hrev] at h
    cases h
    have hstatus : Same p { p with gatewayStatus := truncate 30 status } := ⟨rfl, rfl, rfl, rfl, rfl, rfl⟩
    refine ⟨hstatus.trans (.transition _ _ _), fun hr => Or.inl ?_⟩
    have hready : Ready { p with gatewayStatus := truncate 30 status } := Ready.of_transition (by simp) hr
    exact hready

end Decide

/-! ### What every commit keeps -/

section Invariant

variable (reference : String) (db₀ : Database)

/-- The payments are what they were at first, and the ledger rows of the
payment `reference` are under its constraint. -/
structure Consistent (db : Database) : Prop where
  same : ∀ r p, db.row (.payment r) = some p → ∃ p₀, db₀.row (.payment r) = some p₀ ∧ Same p₀ p
  paid : ∀ pk v, db.row (.voteTransaction pk) = some v → v.payment = some reference →
    db.row (.paid reference) = some pk
  ledger : ∀ pk v, db.row (.voteTransaction pk) = some v → v.payment = some reference →
    ∃ p₀, db₀.row (.payment reference) = some p₀ ∧ v.numberOfVotes = p₀.totalVotes ∧ p₀.candidate = some v.candidate

/-- The payment has a ledger row, or its votes may be credited. -/
def Counts (db : Database) : Prop :=
  (∃ pk v, db.row (.voteTransaction pk) = some v ∧ v.payment = some reference) ∨
    ∃ p, db.row (.payment reference) = some p ∧ Ready p

variable {reference db₀} {db db' : Database}

/-- Rows of other kinds do not matter. -/
theorem Consistent.congr (h : Consistent reference db₀ db)
    (hpayment : ∀ r, db'.row (.payment r) = db.row (.payment r))
    (hledger : ∀ pk, db'.row (.voteTransaction pk) = db.row (.voteTransaction pk))
    (hpaid : db'.row (.paid reference) = db.row (.paid reference)) : Consistent reference db₀ db' := by
  refine ⟨fun r p hp => ?_, fun pk v hv hr => ?_, fun pk v hv hr => ?_⟩
  · rw [hpayment] at hp
    exact h.same r p hp
  · rw [hledger] at hv
    rw [hpaid]
    exact h.paid pk v hv hr
  · rw [hledger] at hv
    exact h.ledger pk v hv hr

theorem Consistent.saved (h : Consistent reference db₀ db) {r : String} {p p' : PaymentRow}
    (hp : db.row (.payment r) = some p) (hs : Same p p') : Consistent reference db₀ (saved db r p') := by
  refine ⟨fun r' p'' hp'' => ?_, fun pk v hv hr => h.paid pk v hv hr, fun pk v hv hr => h.ledger pk v hv hr⟩
  obtain ⟨p₀, hp₀, hs₀⟩ := h.same r p hp
  by_cases hr : r' = r
  · subst hr
    unfold Payments.saved at hp''
    rw [Db.set_row_self] at hp''
    obtain rfl := Option.some.inj hp''
    exact ⟨p₀, hp₀, hs₀.trans hs⟩
  · unfold Payments.saved at hp''
    rw [Db.set_row_ne _ _ (by simpa using hr)] at hp''
    exact h.same r' p'' hp''

/-- A ledger row that is there rules out a second one. -/
theorem Consistent.inserted (h : Consistent reference db₀ db) {pk : ℕ} {r : String} {p : PaymentRow} {candidate : ℕ}
    (hs : ∃ p₀, db₀.row (.payment r) = some p₀ ∧ Same p₀ p) (hcand : p.candidate = some candidate)
    (hfree : db.row (.paid r) = none) (hrow : db'.row (.voteTransaction pk) = some (ledgerRow r p candidate))
    (hpaid : db'.row (.paid r) = some pk)
    (hpayment : ∀ r' p', db'.row (.payment r') = some p' → ∃ p₁, db.row (.payment r') = some p₁ ∧ Same p₁ p')
    (hrows : ∀ pk', pk' ≠ pk → db'.row (.voteTransaction pk') = db.row (.voteTransaction pk'))
    (hpaids : ∀ r', r' ≠ r → db'.row (.paid r') = db.row (.paid r')) : Consistent reference db₀ db' := by
  refine ⟨fun r' p' hp' => ?_, fun pk' v hv hr => ?_, fun pk' v hv hr => ?_⟩
  · obtain ⟨p₁, hp₁, hs₁⟩ := hpayment r' p' hp'
    obtain ⟨p₀, hp₀, hs₀⟩ := h.same r' p₁ hp₁
    exact ⟨p₀, hp₀, hs₀.trans hs₁⟩
  · by_cases hpk : pk' = pk
    · subst hpk
      rw [hrow] at hv
      obtain rfl := Option.some.inj hv
      obtain rfl : r = reference := Option.some.inj hr
      exact hpaid
    · rw [hrows pk' hpk] at hv
      have hpaid' := h.paid pk' v hv hr
      by_cases hr' : reference = r
      · subst hr'
        rw [hfree] at hpaid'
        cases hpaid'
      · rw [hpaids reference hr']
        exact hpaid'
  · by_cases hpk : pk' = pk
    · subst hpk
      rw [hrow] at hv
      obtain rfl := Option.some.inj hv
      obtain rfl : r = reference := Option.some.inj hr
      obtain ⟨p₀, hp₀, hs₀⟩ := hs
      refine ⟨p₀, hp₀, ?_, ?_⟩
      · show p.votes + p.bonusVotes = p₀.votes + p₀.bonusVotes
        rw [hs₀.votes, hs₀.bonusVotes]
      · rw [← hs₀.candidate, hcand]
        rfl
    · rw [hrows pk' hpk] at hv
      exact h.ledger pk' v hv hr

theorem Consistent.credited (h : Consistent reference db₀ db) {c : CreditCall} {r : String} {p : PaymentRow}
    (hs : ∃ p₀, db₀.row (.payment r) = some p₀ ∧ Same p₀ p) (hc : Credited c r p db db') :
    Consistent reference db₀ db' := by
  obtain ⟨candidate, hcand, hrow⟩ := hc.row
  have hfree : db.row (.paid r) = none := by
    by_contra hne
    exact hc.free (Or.inl hne)
  refine h.inserted hs hcand hfree hrow hc.paid (fun r' p' hp' => ?_)
    (fun pk hpk => hc.others _ (by simpa [isCredit] using hpk)) fun r' hr' =>
      hc.others _ (by simpa [isCredit] using hr')
  by_cases hr : r' = r
  · subst hr
    rw [hc.payment] at hp'
    obtain ⟨p₁, hp₁, rfl⟩ := Option.map_eq_some_iff.mp hp'
    exact ⟨p₁, hp₁, rfl, rfl, rfl, rfl, rfl, rfl⟩
  · rw [hc.others _ (by simpa [isCredit] using hr)] at hp'
    exact ⟨p', hp', .refl p'⟩

/-- A reversal changes only the status of ledger rows. -/
theorem reversed_rows {r : String}
    (hrows : ∀ x, db'.row x = db.row x ∨ db'.row x = (db.row x).map (updated (countedOf r) reverse x)) :
    (∀ x : Key, (∀ v, countedOf r x v = false) → db'.row x = db.row x) ∧
      ∀ pk v, db'.row (.voteTransaction pk) = some v → ∃ v₀, db.row (.voteTransaction pk) = some v₀ ∧
        v.payment = v₀.payment ∧ v.numberOfVotes = v₀.numberOfVotes ∧ v.candidate = v₀.candidate := by
  refine ⟨fun x hx => ?_, fun pk v hv => ?_⟩
  · rcases hrows x with hx' | hx'
    · exact hx'
    · rw [hx']
      rcases db.row x with _ | v
      · rfl
      · simp [updated, hx v]
  · rcases hrows (.voteTransaction pk) with hx | hx <;> rw [hv] at hx
    · exact ⟨v, hx.symm, rfl, rfl, rfl⟩
    · obtain ⟨v₀, hv₀, rfl⟩ := Option.map_eq_some_iff.mp hx.symm
      refine ⟨v₀, hv₀, ?_⟩
      unfold updated
      by_cases hcount : countedOf r (.voteTransaction pk) v₀ = true
      · rw [if_pos hcount]
        exact ⟨rfl, rfl, rfl⟩
      · rw [if_neg hcount]
        exact ⟨rfl, rfl, rfl⟩

theorem Consistent.made (h : Consistent reference db₀ db) {c : CreditCall} {r : String} {d : Decision}
    {taken alone : Prop} (hs : ∃ p₀, db₀.row (.payment r) = some p₀ ∧ Same p₀ d.payment)
    (hm : Made c r d taken alone db db') : Consistent reference db₀ db' := by
  have hkeep : (∀ x, db'.row x = db.row x) → Consistent reference db₀ db' := fun hrows =>
    h.congr (fun _ => hrows _) (fun _ => hrows _) (hrows _)
  rcases hm with ⟨-, hrows⟩ | ⟨-, hrows, -⟩ | ⟨-, hcredit⟩ | ⟨-, hrows, -⟩
  · exact hkeep hrows
  · exact hkeep hrows
  · exact h.credited hs hcredit
  · obtain ⟨hother, hledger⟩ := reversed_rows hrows
    refine ⟨fun r' p hp => ?_, fun pk v hv hr => ?_, fun pk v hv hr => ?_⟩
    · rw [hother _ fun _ => rfl] at hp
      exact h.same r' p hp
    · obtain ⟨v₀, hv₀, hpay, -, -⟩ := hledger pk v hv
      rw [hother _ fun _ => rfl]
      exact h.paid pk v₀ hv₀ (hpay ▸ hr)
    · obtain ⟨v₀, hv₀, hpay, hvotes, hcand⟩ := hledger pk v hv
      rw [hvotes, hcand]
      exact h.ledger pk v₀ hv₀ (hpay ▸ hr)

/-- A payment begins to count where it is saved ready. -/
theorem Counts.of_made {c : CreditCall} {r : String} {d : Decision} {taken alone : Prop}
    (hm : Made c r d taken alone (saved db r d.payment) db') (h : Counts reference db') :
    Counts reference db ∨ (r = reference ∧ Ready d.payment) := by
  have hpayment : ∀ p, (saved db r d.payment).row (.payment reference) = some p → Ready p →
      Counts reference db ∨ (r = reference ∧ Ready d.payment) := fun p hp hr => by
    unfold Payments.saved at hp
    by_cases hr' : reference = r
    · subst hr'
      rw [Db.set_row_self] at hp
      obtain rfl := Option.some.inj hp
      exact Or.inr ⟨rfl, hr⟩
    · rw [Db.set_row_ne _ _ (by simpa using hr')] at hp
      exact Or.inl (Or.inr ⟨p, hp, hr⟩)
  have hkeep : (∀ x, db'.row x = (saved db r d.payment).row x) →
      Counts reference db ∨ (r = reference ∧ Ready d.payment) := fun hrows => by
    rcases h with ⟨pk, v, hv, hpay⟩ | ⟨p, hp, hr⟩
    · rw [hrows] at hv
      exact Or.inl (Or.inl ⟨pk, v, hv, hpay⟩)
    · rw [hrows] at hp
      exact hpayment p hp hr
  rcases hm with ⟨-, hrows⟩ | ⟨-, hrows, -⟩ | ⟨-, hc⟩ | ⟨-, hrows, -⟩
  · exact hkeep hrows
  · exact hkeep hrows
  · have hready : Ready d.payment := by
      have := hc.ready
      unfold creditable at this
      simp only [Bool.and_eq_true, decide_eq_true_eq, Bool.not_eq_true'] at this
      exact ⟨this.1.2, this.2⟩
    rcases h with ⟨pk, v, hv, hpay⟩ | ⟨p, hp, hr⟩
    · by_cases hpk : pk = c.ledgerId
      · subst hpk
        obtain ⟨candidate, -, hrow⟩ := hc.row
        rw [hrow] at hv
        obtain rfl := Option.some.inj hv
        exact Or.inr ⟨Option.some.inj hpay, hready⟩
      · rw [hc.others _ (by simpa [isCredit] using hpk)] at hv
        exact Or.inl (Or.inl ⟨pk, v, hv, hpay⟩)
    · by_cases hr' : reference = r
      · exact Or.inr ⟨hr'.symm, hready⟩
      · rw [hc.others _ (by simpa [isCredit] using hr')] at hp
        exact hpayment p hp hr
  · obtain ⟨hother, hledger⟩ := reversed_rows hrows
    rcases h with ⟨pk, v, hv, hpay⟩ | ⟨p, hp, hr⟩
    · obtain ⟨v₀, hv₀, hpay₀, -, -⟩ := hledger pk v hv
      exact Or.inl (Or.inl ⟨pk, v₀, hv₀, hpay₀ ▸ hpay⟩)
    · rw [hother _ fun _ => rfl] at hp
      exact hpayment p hp hr

end Invariant

/-! ### Every interleaving -/

variable (E : Env) (A : Adapters) (reference : String) (db₀ : Database)

/-- A log tells of a success report of the payment's amount and currency, or of
a release of the successful payment. -/
def Caused (log : List Note) : Prop :=
  (∃ p₀ amount currency, db₀.row (.payment reference) = some p₀ ∧ amountsMatch E p₀ amount currency = true ∧
    .succeeded reference amount currency ∈ log) ∨ .released reference ∈ log

/-- While no log tells of a cause (`still`), nothing makes the payment count. -/
def spec (still : Prop) : Spec Row Note where
  inv := Consistent reference db₀
  rely := fun _ _ db db' => still → ¬ Counts reference db → ¬ Counts reference db'
  guar := fun _ log db db' => still → ¬ Caused E reference db₀ log → ¬ Counts reference db → ¬ Counts reference db'
  fact := fun _ _ => True

theorem spec_sound (still : Prop) : (spec E reference db₀ still).Sound where
  refl := fun _ _ _ _ h => h
  trans := fun _ _ _ _ _ h h' hs hc => h' hs (h hs hc)
  sub := fun _ _ _ _ _ _ h => h
  fact := fun _ _ _ _ _ _ _ _ _ => trivial

/-- No thread has logged a cause. -/
def Still (s : State Row Note) : Prop := ∀ u, ¬ Caused E reference db₀ (s.thr u).log

theorem spec_fits : (spec E reference db₀ False).Fits Any := fun _ _ _ _ _ _ _ _ _ _ _ _ _ _ h => h.elim

theorem spec_fits_still : (spec E reference db₀ True).Fits fun _ _ s => Still E reference db₀ s :=
  fun _ t _ _ hC _ _ hg _ _ _ _ _ _ => fun hs => hg hs (hC t)

variable {E A reference db₀}

theorem Caused.mono {log log' : List Note} (h : Caused E reference db₀ log) (hl : log <:+ log') :
    Caused E reference db₀ log' := by
  rcases h with ⟨p₀, amount, currency, hp, hm, hn⟩ | hn
  · exact Or.inl ⟨p₀, amount, currency, hp, hm, hl.mem hn⟩
  · exact Or.inr (hl.mem hn)

theorem amountsMatch_same {p₀ p : PaymentRow} (h : Same p₀ p) (amount : ℤ) (currency : String) :
    amountsMatch E p amount currency = amountsMatch E p₀ amount currency := by
  unfold amountsMatch
  rw [h.amountMinor, h.currency]

variable {still : Prop}

theorem applyGatewayResult_spec {q : GatewayCall}
    (hvote : ∀ p, db₀.row (.payment q.reference) = some p → p.purpose = .VOTE) {db : Database} {log : List Note} :
    Ok (spec E reference db₀ still) (Payments.applyGatewayResult E A q fun _ => .halt) db [] [] log := by
  refine applyGatewayResult_ok (spec_sound E reference db₀ still) .halt ?_ (fun db p hinv hp => ?_)
    fun own db hinv => ⟨fun _ _ h => h, trivial⟩
  · intro own db db' db₁ p d hinv _ hp hd hmade
    obtain ⟨hsame, hready⟩ := decideReport_spec hd
    obtain ⟨p₀, hp₀, hs₀⟩ := hinv.same _ p hp
    refine ⟨(hinv.saved hp hsame).made ⟨p₀, hp₀, hs₀.trans hsame⟩ hmade, fun _ hno hcounts hcounts' => ?_, ?_⟩
    · rcases hcounts'.of_made hmade with h | ⟨rfl, hr⟩
      · exact hcounts h
      rcases hready hr with h | ⟨amount, currency, hreport, hmatch⟩
      · exact hcounts (Or.inr ⟨p, hp, h⟩)
      · refine hno (Or.inl ⟨p₀, amount, currency, hp₀, ?_, ?_⟩)
        · rw [← amountsMatch_same hs₀]
          exact hmatch
        · unfold afterReport
          rw [hreport]
          simp [Prog.settle]
    · unfold afterReport
      rcases d.report with _ | ⟨amount, currency⟩
      · trivial
      · exact ⟨trivial, trivial⟩
  · obtain ⟨p₀, hp₀, hs₀⟩ := hinv.same _ p hp
    exact hs₀.purpose.trans (hvote p₀ hp₀)

theorem releaseHeldPayment_spec {q : ReleaseCall} {db : Database} {log : List Note} :
    Ok (spec E reference db₀ still) (Payments.releaseHeldPayment E q fun _ => .halt) db [] [] log := by
  refine releaseHeldPayment_ok (spec_sound E reference db₀ still) (fun own log db w hinv hw => ?_) (fun _ => .halt)
    (fun _ _ _ => trivial) ⟨fun own db db' p hinv _ hp hrows => ?_⟩
  · have hrow : ∀ x, isAudit x = false → (db.apply w).row x = db.row x := fun x hx => hw.apply_row db hx
    refine ⟨hinv.congr (fun _ => hrow _ rfl) (fun _ => hrow _ rfl) (hrow _ rfl), fun _ _ hc hc' => hc ?_⟩
    rcases hc' with ⟨pk, v, hv, hpay⟩ | ⟨p, hp, hr⟩
    · rw [hrow _ rfl] at hv
      exact Or.inl ⟨pk, v, hv, hpay⟩
    · rw [hrow _ rfl] at hp
      exact Or.inr ⟨p, hp, hr⟩
  · have hsame : Same p (unheld p) := ⟨rfl, rfl, rfl, rfl, rfl, rfl⟩
    obtain ⟨p₀, hp₀, hs₀⟩ := hinv.same _ p hp
    have hmade : ∃ d : Decision, d.payment = unheld p ∧
        Made q.credit q.reference d True True (saved db q.reference d.payment) db' := by
      rcases hrows with h | h
      · exact ⟨⟨unheld p, .nothing, none⟩, rfl, .nothing rfl h⟩
      · exact ⟨⟨unheld p, .credit, none⟩, rfl, .credited rfl h⟩
    obtain ⟨d, hd, hmade⟩ := hmade
    rw [← hd] at hsame
    refine ⟨(hinv.saved hp hsame).made ⟨p₀, hp₀, hs₀.trans hsame⟩ hmade, fun _ hno hc hc' => ?_, fun _ => trivial⟩
    rcases hc'.of_made hmade with h | ⟨rfl, hr⟩
    · exact hc h
    · rw [hd] at hr
      refine hno (Or.inr ?_)
      have hs : p.status = .SUCCESS := hr.1
      unfold releaseLog
      rw [if_pos hs]
      simp

/-- Writes that leave the ledger and the payment leave what counts. -/
theorem Counts.congr {db db' : Database} (hledger : ∀ pk, db'.row (.voteTransaction pk) = db.row (.voteTransaction pk) ∨
      ∃ v, db'.row (.voteTransaction pk) = some v ∧ v.payment ≠ some reference)
    (hpayment : db'.row (.payment reference) = db.row (.payment reference)) (h : Counts reference db') :
    Counts reference db := by
  rcases h with ⟨pk, v, hv, hpay⟩ | ⟨p, hp, hr⟩
  · rcases hledger pk with hrow | ⟨v', hv', hne⟩
    · exact Or.inl ⟨pk, v, hrow ▸ hv, hpay⟩
    · rw [hv] at hv'
      exact absurd hpay (Option.some.inj hv' ▸ hne)
  · exact Or.inr ⟨p, hpayment ▸ hp, hr⟩

/-- Reconciliation of another payment, or where nothing is to be shown. -/
theorem reconcileUncredited_other {r : String} {c : CreditCall} {db : Database} {log : List Note}
    (hother : still → r ≠ reference) :
    Ok (spec E reference db₀ still) (reconcileUncredited r c) db [] [] log := by
  refine reconcileUncredited_ok (spec_sound E reference db₀ still) ⟨fun _ _ _ _ _ => trivial, ?_, ?_, ?_⟩
  · intro own db₁ db p candidate hinv₁ hp _ hcand hinv hfree
    have hnone : db.row (.paid r) = none := by
      by_contra hne
      exact hfree (Or.inl hne)
    have hpayment : ∀ r', (db.apply (ledgerWrites c r p candidate [])).row (.payment r') = db.row (.payment r') :=
      fun r' => by simp [ledgerWrites]
    have hrows : ∀ pk, pk ≠ c.ledgerId →
        (db.apply (ledgerWrites c r p candidate [])).row (.voteTransaction pk) = db.row (.voteTransaction pk) :=
      fun pk hpk => by simp [ledgerWrites, hpk]
    have hrow : (db.apply (ledgerWrites c r p candidate [])).row (.voteTransaction c.ledgerId) =
        some (ledgerRow r p candidate) := by simp [ledgerWrites]
    refine ⟨hinv.inserted (hinv₁.same r p hp) hcand hnone hrow (by simp [ledgerWrites])
      (fun r' p' hp' => ⟨p', hpayment r' ▸ hp', .refl p'⟩) hrows fun r' hr' => by simp [ledgerWrites, hr'],
      fun hs _ hc hc' => hc (hc'.congr (fun pk => ?_) (hpayment _))⟩
    by_cases hpk : pk = c.ledgerId
    · subst hpk
      refine Or.inr ⟨_, hrow, fun heq => hother hs ?_⟩
      exact Option.some.inj heq
    · exact Or.inl (hrows pk hpk)
  · intro own db p hinv hp
    refine ⟨hinv.saved hp ⟨rfl, rfl, rfl, rfl, rfl, rfl⟩, fun hs _ hc hc' => hc ?_⟩
    have hrow : (saved db r (credited p c.now)).row (.payment reference) = db.row (.payment reference) :=
      Db.set_row_ne _ _ (by simpa using (hother hs).symm)
    refine Counts.congr (fun pk => ?_) hrow hc'
    exact Or.inl rfl
  · intro own log db w hinv hw
    have hrow : ∀ x : Key, (∀ d, x ≠ .discountCode d) → (db.apply w).row x = db.row x := fun x hx =>
      hw.apply_row db (by cases x <;> first | rfl | exact absurd rfl (hx _))
    exact ⟨hinv.congr (fun _ => hrow _ (by simp)) (fun _ => hrow _ (by simp)) (hrow _ (by simp)),
      fun _ _ hc hc' => hc (hc'.congr (fun _ => Or.inl (hrow _ (by simp))) (hrow _ (by simp)))⟩

/-- Reconciliation that starts before the payment counts finds nothing to credit. -/
theorem reconcileUncredited_spec {r : String} {c : CreditCall} {db : Database} {log : List Note}
    (hstart : ¬ Counts reference db) : Ok (spec E reference db₀ still) (reconcileUncredited r c) db [] [] log := by
  by_cases hsame : still ∧ r = reference
  swap
  · exact reconcileUncredited_other fun hs hr => hsame ⟨hs, hr⟩
  obtain ⟨hs, rfl⟩ := hsame
  unfold reconcileUncredited
  intro db₁ h₁
  have hno : ¬ Counts r db₁ := h₁.rely hs hstart
  dsimp only
  rw [Db.apply_nil]
  rcases hp : db₁.row (.payment r) with _ | p
  · trivial
  have hnot : ¬ (p.purpose = .VOTE ∧ creditable p = true) := by
    rintro ⟨-, hc⟩
    unfold creditable at hc
    simp only [Bool.and_eq_true, decide_eq_true_eq, Bool.not_eq_true'] at hc
    exact hno (Or.inr ⟨p, hp, hc.1.2, hc.2⟩)
  dsimp only
  rw [if_neg hnot]
  trivial

theorem Call.spec {call : Call} (hvote : ∀ p, db₀.row (.payment call.reference) = some p → p.purpose = .VOTE)
    (hstart : still → ¬ Counts reference db₀) :
    Ok (spec E reference db₀ still) (call.prog E A) db₀ [] [] [] := by
  rcases call with q | q | ⟨r, c⟩
  · exact applyGatewayResult_spec hvote
  · exact releaseHeldPayment_spec
  · by_cases hs : still
    · exact reconcileUncredited_spec (hstart hs)
    · exact reconcileUncredited_other fun h => absurd h hs

theorem Consistent.init (h : ¬ Counts reference db₀) : Consistent reference db₀ db₀ where
  same := fun _ p hp => ⟨p, hp, .refl p⟩
  paid := fun pk v hv hr => absurd (Or.inl ⟨pk, v, hv, hr⟩) h
  ledger := fun pk v hv hr => absurd (Or.inl ⟨pk, v, hv, hr⟩) h

/-- While no thread has logged a cause, the payment does not count. -/
theorem Still.counts_not {calls : ℕ → Call} {s : State Row Note}
    (hcalls : ∀ t p, db₀.row (.payment (calls t).reference) = some p → p.purpose = .VOTE)
    (hstart : ¬ Counts reference db₀) (h : Run Any (.init db₀ fun t => (calls t).prog E A) s)
    (hs : Still E reference db₀ s) : ¬ Counts reference s.db := by
  have hmeets : Meets (Credit.spec E reference db₀ True) (State.init db₀ fun t => (calls t).prog E A) :=
    .init (Consistent.init hstart) fun t => Call.spec (hcalls t) fun _ => hstart
  have hrun := h.backward (D := Still E reference db₀) (fun s t s' hstep hs' u hc =>
    hs' u (hc.mono (hstep.log_suffix u))) hs
  exact hmeets.trail_of (R := fun db db' => ¬ Counts reference db → ¬ Counts reference db')
    (spec_sound E reference db₀ True) (spec_fits_still E reference db₀) (fun _ h => h)
    (fun _ _ _ h h' hc => h' (h hc)) (fun _ t _ _ hC _ hg => hg trivial (hC t)) hrun hstart

/-- **A payment is credited at most once**, with its votes to its candidate, and
only after a success report of its amount and currency or the release of its
hold, however the calls interleave. -/
theorem credited_once {calls : ℕ → Call} {p₀ : PaymentRow} {s : State Row Note}
    (hcalls : ∀ t p, db₀.row (.payment (calls t).reference) = some p → p.purpose = .VOTE)
    (hp₀ : db₀.row (.payment reference) = some p₀) (hstart : ¬ Counts reference db₀)
    (h : Run Any (.init db₀ fun t => (calls t).prog E A) s) :
    (∀ pk pk' v v', s.db.row (.voteTransaction pk) = some v → v.payment = some reference →
      s.db.row (.voteTransaction pk') = some v' → v'.payment = some reference → pk = pk') ∧
    (∀ pk v, s.db.row (.voteTransaction pk) = some v → v.payment = some reference →
      v.numberOfVotes = p₀.votes + p₀.bonusVotes ∧ p₀.candidate = some v.candidate ∧
      ∃ t, .released reference ∈ (s.thr t).log ∨ ∃ (amount : ℤ) (currency : String),
        .succeeded reference amount currency ∈ (s.thr t).log ∧ amount = p₀.amountMinor ∧
          E.upper currency = E.upper p₀.currency) := by
  have hmeets : Meets (Credit.spec E reference db₀ False) (State.init db₀ fun t => (calls t).prog E A) :=
    .init (Consistent.init hstart) fun t => Call.spec (hcalls t) fun hf => hf.elim
  have hinv : Consistent reference db₀ s.db :=
    (hmeets.run (spec_sound E reference db₀ False) (spec_fits E reference db₀) h).inv
  refine ⟨fun pk pk' v v' hv hpay hv' hpay' => ?_, fun pk v hv hpay => ?_⟩
  · have hpaid := hinv.paid pk v hv hpay
    rw [hinv.paid pk' v' hv' hpay'] at hpaid
    exact (Option.some.inj hpaid).symm
  · obtain ⟨p, hp, hvotes, hcand⟩ := hinv.ledger pk v hv hpay
    rw [hp₀] at hp
    obtain rfl := Option.some.inj hp
    refine ⟨hvotes, hcand, ?_⟩
    by_contra hnone
    refine Still.counts_not hcalls hstart h (fun t hc => hnone ⟨t, ?_⟩) (Or.inl ⟨pk, v, hv, hpay⟩)
    rcases hc with ⟨p, amount, currency, hp, hmatch, hn⟩ | hn
    · rw [hp₀] at hp
      obtain rfl := Option.some.inj hp
      unfold amountsMatch at hmatch
      simp only [Bool.and_eq_true, decide_eq_true_eq] at hmatch
      exact Or.inr ⟨amount, currency, hn, hmatch⟩
    · exact Or.inl hn

/-- A paid vote before its first report: two votes and a bonus vote. -/
def firstPayment : PaymentRow where
  candidate := some 4
  votes := 2
  bonusVotes := 1
  amountMinor := 200
  status := .PENDING

def firstTables : Database := Db.empty.set (.payment "ref") (some firstPayment)

/-- No cards, no risk and no invoices. -/
def plainAdapters : Adapters where
  details := fun _ _ => .ok {}
  assess := fun _ _ => ⟨0, "ALLOW"⟩
  markInvoicePaid := fun _ _ k => k

/-- A success report of 200, drawing the ledger key `pk`. -/
def successCall (pk : ℕ) : GatewayCall where
  reference := "ref"
  data := [("status", .str "success"), ("amount", .int 200), ("currency", .str "GHS")]
  credit := ⟨pk, 0⟩
  now := fun _ => 0

/-- The webhook and the verification, at the same time. -/
def bothCalls : ℕ → Call
  | 0 => .applyGatewayResult (successCall 1)
  | _ => .applyGatewayResult (successCall 2)

theorem credited_once_bothCalls :
    ∃ s, replay (.init firstTables fun t => (bothCalls t).prog .plain plainAdapters)
        (List.replicate 11 0 ++ List.replicate 3 1) = some s ∧
      ∃ v, s.db.row (.voteTransaction 1) = some v ∧ v.numberOfVotes = 3 ∧ v.candidate = 4 ∧
        ∀ pk v', s.db.row (.voteTransaction pk) = some v' → v'.payment = some "ref" → pk = 1 := by
  have hrow : (replay (.init firstTables fun t => (bothCalls t).prog .plain plainAdapters)
      (List.replicate 11 0 ++ List.replicate 3 1)).map (fun s => (s.db.row (.voteTransaction 1)).map (·.payment)) =
        some (some (some "ref")) := by decide +kernel
  have hcalls : ∀ t p, firstTables.row (.payment (bothCalls t).reference) = some p → p.purpose = .VOTE := by
    intro t p hp
    have href : (bothCalls t).reference = "ref" := by
      unfold bothCalls
      split <;> rfl
    rw [href] at hp
    obtain rfl : firstPayment = p := Option.some.inj hp
    rfl
  have hstart : ¬ Counts "ref" firstTables := by
    rintro (⟨pk, v, hv, -⟩ | ⟨p, hp, hr⟩)
    · cases hv
    · obtain rfl : firstPayment = p := Option.some.inj hp
      cases hr.1
  obtain ⟨s, hs, hv⟩ := Option.map_eq_some_iff.mp hrow
  obtain ⟨v, hv, hpay⟩ := Option.map_eq_some_iff.mp hv
  obtain ⟨hone, hvotes⟩ := credited_once hcalls
    (show firstTables.row (.payment "ref") = some firstPayment from rfl) hstart (Run.of_replay _ .refl hs)
  obtain ⟨hn, hc, -⟩ := hvotes 1 v hv hpay
  refine ⟨s, hs, v, hv, hn, ?_, fun pk v' hv' hpay' => hone pk 1 v' v hv' hpay' hv hpay⟩
  exact (Option.some.inj hc).symm

end Credit
end FlexyVotes
