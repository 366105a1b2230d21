/-
# A success report that comes again

A report of a success is delivered by webhooks, by the callback and by
reconciliation, at any time. What it makes of a payment that had one before
depends on what the payment has become: it takes a disputed payment back to
SUCCESS, and it holds a released payment again whose amount or currency it does
not match. Everywhere else it changes nothing that counts (`Steady`).

Key definitions: `Unchanged`, `Steady`, `Later`.
Key theorems: `unchanged_iff`, `replay_stable`.
-/
import FlexyVotes.Payments.Reversals
import FlexyVotes.Payments.Reports

namespace FlexyVotes
namespace Replays

open Transactions Audit Payments Reports Runs Transitions

/-- The report of `q`, applied alone. -/
def replayed (E : Env) (A : Adapters) (q : GatewayCall) (db : Database) : Database :=
  (applyGatewayResult E A q fun _ => .halt).after db

/-- The payment keeps its status and its hold, and the same of its ledger rows are
counted. -/
structure Unchanged (reference : String) (db db' : Database) : Prop where
  payment : ∀ p, db.row (.payment reference) = some p →
    ∃ p', db'.row (.payment reference) = some p' ∧ p'.status = p.status ∧ p'.held = p.held
  counted : ∀ pk v, countedOf reference (.voteTransaction pk) v = true →
    (db'.row (.voteTransaction pk) = some v ↔ db.row (.voteTransaction pk) = some v)

/-- The payment with the report's columns, as the risk engine sees it. -/
def seen (q : GatewayCall) (d : GatewayDetails) (p : PaymentRow) : PaymentRow := reported p "success" d (q.now 0)

/-- What an uncredited payment would get of the report: no hold, and no votes. -/
def Idle (A : Adapters) (q : GatewayCall) (db : Database) (d : GatewayDetails) (p : PaymentRow) : Prop :=
  (A.assess (saved db q.reference (seen q d p)) (seen q d p)).held = false ∧
    (p.candidate = none ∨ Taken q.credit q.reference db)

/-- The payment is not disputed, nor still to be paid; and where it is successful
and not held, the report is about the amount and the currency that were asked,
and the votes are credited (or would not be). -/
structure Settled (E : Env) (A : Adapters) (q : GatewayCall) (db : Database) (d : GatewayDetails) (amount : ℤ)
    (currency : String) (p : PaymentRow) : Prop where
  paid : ¬ Unpaid p.status
  undisputed : p.status ≠ .DISPUTED
  matching : p.status = .SUCCESS → p.held = false → amountsMatch E p amount currency = true
  credited : p.status = .SUCCESS → p.held = false → p.votesCredited = false → Idle A q db d p

/-- The report finds the payment settled, if it can be read. -/
def Steady (E : Env) (A : Adapters) (q : GatewayCall) (db : Database) (p : PaymentRow) : Prop :=
  ∀ d amount currency, A.details q.data p = .ok d → amountsOf E q.data p = .ok (amount, currency) →
    Settled E A q db d amount currency p

section Alone

variable {E : Env} {A : Adapters} {q : GatewayCall} {db : Database} {p : PaymentRow}

theorem unchanged_of_rows {db' : Database} (hrows : ∀ x, db'.row x = db.row x) : Unchanged q.reference db db' :=
  ⟨fun p hp => ⟨p, (hrows _).trans hp, rfl, rfl⟩, fun pk v _ => by rw [hrows]⟩

/-- The payment alone is saved, with its status and its hold. -/
theorem unchanged_of_saved {db' : Database} {p' : PaymentRow} (hp : db.row (.payment q.reference) = some p)
    (hrows : ∀ x, db'.row x = (saved db q.reference p').row x) (hstatus : p'.status = p.status)
    (hheld : p'.held = p.held) : Unchanged q.reference db db' := by
  refine ⟨fun p₁ hp₁ => ⟨p', ?_, ?_, ?_⟩, fun pk v _ => ?_⟩
  · rw [hrows, saved, Db.set_row_self]
  · rw [hstatus, Option.some.inj (hp.symm.trans hp₁)]
  · rw [hheld, Option.some.inj (hp.symm.trans hp₁)]
  · rw [hrows, saved, Db.set_row_ne _ _ (by simp)]

/-- The status of a payment that was saved otherwise has changed. -/
theorem saved_of_unchanged {c : CreditCall} {d : Decision} {db' : Database} (hp : db.row (.payment q.reference) = some p)
    (hmade : MadeAlone c q.reference d db db') (h : Unchanged q.reference db db') :
    d.payment.status = p.status ∧ d.payment.held = p.held := by
  obtain ⟨p', hp', hstatus, hheld⟩ := h.payment p hp
  have hsaved : (saved db q.reference d.payment).row (.payment q.reference) = some d.payment := Db.set_row_self _ _ _
  rcases hmade.payment q.reference with hrow | ⟨-, -, hrow⟩
  · rw [hp', hsaved] at hrow
    obtain rfl := Option.some.inj hrow
    exact ⟨hstatus, hheld⟩
  · rw [hp', hsaved, Option.map_some] at hrow
    obtain rfl := Option.some.inj hrow
    exact ⟨hstatus, hheld⟩

/-- A report that raises an exception leaves the database. -/
theorem replayed_unread (hp : db.row (.payment q.reference) = some p) (hsuccess : gatewayStatus E q.data = .ok "success")
    (hunread : ¬ ∃ d a, A.details q.data p = .ok d ∧ amountsOf E q.data p = .ok a) : replayed E A q db = db := by
  have hview : (db.apply []).row (.payment q.reference) = some p := hp
  unfold replayed Prog.after applyGatewayResult
  rw [Prog.exec_lockRow hview]
  dsimp only
  rw [hsuccess]
  dsimp only
  rw [if_pos rfl]
  rcases hd : A.details q.data p with e | d
  · rfl
  dsimp only
  unfold confirm
  have hsame : amountsOf E q.data (reported p "success" d (q.now 0)) = amountsOf E q.data p := rfl
  rw [hsame]
  rcases ha : amountsOf E q.data p with e | a
  · rfl
  · exact absurd ⟨d, a, hd, ha⟩ hunread

/-- A success report of a payment that is not yet assessed, with the view the risk
engine has. -/
theorem replayed_assessed {d : GatewayDetails} {amount : ℤ} {currency : String}
    (hp : db.row (.payment q.reference) = some p) (hvote : p.purpose = .VOTE)
    (hsuccess : gatewayStatus E q.data = .ok "success") (hd : A.details q.data p = .ok d)
    (ha : amountsOf E q.data p = .ok (amount, currency)) (hstatus : p.status = .SUCCESS)
    (hmatch : amountsMatch E p amount currency = true) (hassess : toAssess p = true) :
    let p₂ := assessed (seen q d p) (A.assess (saved db q.reference (seen q d p)) (seen q d p))
    MadeAlone q.credit q.reference ⟨p₂, if p₂.held then .nothing else .credit, some (amount, currency)⟩ db
      (replayed E A q db) := by
  intro p₂
  have hview : (db.apply []).row (.payment q.reference) = some p := hp
  have hsame : amountsOf E q.data (seen q d p) = .ok (amount, currency) := ha
  have hstays : changes (seen q d p) .SUCCESS = false := by simp [changes, seen, reported, hstatus]
  have hkept : transition (seen q d p) .SUCCESS (q.now 1) = seen q d p := by
    unfold transition
    rw [hstays]
    rfl
  unfold replayed Prog.after applyGatewayResult
  rw [Prog.exec_lockRow hview]
  dsimp only
  rw [hsuccess]
  dsimp only
  rw [if_pos rfl, hd]
  show MadeAlone _ _ _ db ((confirm E A q (seen q d p) fun _ => .halt).exec db [] []).db
  unfold confirm saveTransition
  rw [hsame]
  dsimp only
  rw [hstays, hkept]
  have hs : ¬ (seen q d p).status ≠ .SUCCESS := not_not.mpr hstatus
  have hm : ¬ (!amountsMatch E (seen q d p) amount currency) = true := by
    have hmatch' : amountsMatch E (seen q d p) amount currency = true := hmatch
    simp [hmatch']
  have hassess' : toAssess (seen q d p) = true := hassess
  rw [if_neg (by simp : ¬ false = true), if_neg hs, if_neg hm, if_pos hassess']
  exact fulfil_exec (d := ⟨p₂, if p₂.held then .nothing else .credit, some (amount, currency)⟩) hvote rfl
    (Saves.nil hp).put.put

/-- A payment that is not yet assessed, and a report that matches it. -/
theorem unchanged_assessed {d : GatewayDetails} {amount : ℤ} {currency : String}
    (hp : db.row (.payment q.reference) = some p) (hvote : p.purpose = .VOTE)
    (hsuccess : gatewayStatus E q.data = .ok "success") (hd : A.details q.data p = .ok d)
    (ha : amountsOf E q.data p = .ok (amount, currency)) (hstatus : p.status = .SUCCESS) (hheld : p.held = false)
    (hmatch : amountsMatch E p amount currency = true) (hcredited : p.votesCredited = false) :
    Unchanged q.reference db (replayed E A q db) ↔ Idle A q db d p := by
  have hassess : toAssess p = true := by simp [toAssess, hvote, hheld, hcredited]
  have hmade := replayed_assessed hp hvote hsuccess hd ha hstatus hmatch hassess
  dsimp only at hmade
  have htaken : Taken q.credit q.reference (saved db q.reference
      (assessed (seen q d p) (A.assess (saved db q.reference (seen q d p)) (seen q d p)))) ↔
      Taken q.credit q.reference db := by
    unfold Taken saved
    rw [Db.set_row_ne _ _ (by simp), Db.set_row_ne _ _ (by simp), Db.set_row_ne _ _ (by simp)]
  rcases hrisk : (A.assess (saved db q.reference (seen q d p)) (seen q d p)).held with _ | _
  swap
  · -- the payment would be held
    have hholds : (assessed (seen q d p) (A.assess (saved db q.reference (seen q d p)) (seen q d p))).held = true := by
      simp [assessed, hrisk]
    refine ⟨fun h => ?_, fun h => ?_⟩
    · have hkept := (saved_of_unchanged hp hmade h).2
      rw [hholds, hheld] at hkept
      cases hkept
    · have hfree := h.1
      rw [hrisk] at hfree
      cases hfree
  · have hfree : (assessed (seen q d p) (A.assess (saved db q.reference (seen q d p)) (seen q d p))).held = false := by
      show (p.held || (A.assess (saved db q.reference (seen q d p)) (seen q d p)).held) = false
      rw [hrisk, hheld]
      rfl
    have hready : creditable (assessed (seen q d p) (A.assess (saved db q.reference (seen q d p)) (seen q d p))) = true := by
      simp [creditable, hfree]
      exact ⟨hcredited, hstatus⟩
    rw [hfree, if_neg (by simp)] at hmade
    rcases hmade with ⟨hnothing, -⟩ | ⟨-, hrows, hwhy⟩ | ⟨-, hcredit⟩ | ⟨hreverse, -⟩
    · cases hnothing
    · have hidle : Idle A q db d p := by
        refine ⟨hrisk, ?_⟩
        by_cases hcandidate : p.candidate = none
        · exact Or.inl hcandidate
        · exact Or.inr (htaken.mp (hwhy hready hcandidate))
      exact ⟨fun _ => hidle, fun _ => unchanged_of_saved hp hrows rfl (hfree.trans hheld.symm)⟩
    · -- the votes are counted
      obtain ⟨candidate, hcandidate, hrow⟩ := hcredit.row
      have hnone : db.row (.voteTransaction q.credit.ledgerId) = none := by
        by_contra hne
        exact hcredit.free (htaken.mpr (Or.inr (Or.inr hne)))
      refine ⟨fun h => ?_, fun h => ?_⟩
      · have hcounts : countedOf q.reference (.voteTransaction q.credit.ledgerId)
            (ledgerRow q.reference (assessed (seen q d p) (A.assess (saved db q.reference (seen q d p)) (seen q d p)))
              candidate) = true := by simp [countedOf, ledgerRow]
        have hbefore := (h.counted _ _ hcounts).mp hrow
        rw [hnone] at hbefore
        cases hbefore
      · rcases h.2 with hno | htook
        · have hsome : p.candidate = some candidate := hcandidate
          rw [hno] at hsome
          cases hsome
        · exact absurd (htaken.mpr htook) hcredit.free
    · cases hreverse

theorem succeeds_iff : Succeeds q p ↔ p.status = .SUCCESS ∨ Unpaid p.status ∨ p.status = .DISPUTED := by
  unfold Succeeds transition changes
  rcases hs : p.status <;> simp [hs, ALLOWED_TRANSITIONS, Unpaid]

/-- What a report makes of a payment that goes on to SUCCESS, or is there. -/
theorem decided_success {d : GatewayDetails} {amount : ℤ} {currency : String} {risk : PaymentRow → Assessment}
    {decision : Decision} (ha : amountsOf E q.data (seen q d p) = .ok (amount, currency)) (hs : Succeeds q (seen q d p))
    (hdecision : decideSuccess E q risk (seen q d p) = .ok decision) : decision.payment.status = .SUCCESS := by
  rcases hmatch : amountsMatch E (seen q d p) amount currency with _ | _
  · rw [decideSuccess_mismatched ha hs hmatch] at hdecision
    rw [← Except.ok.inj hdecision]
    exact hs
  · rw [decideSuccess_matching ha hs hmatch] at hdecision
    rw [← Except.ok.inj hdecision]
    show (looked risk _).status = .SUCCESS
    unfold looked
    split
    · exact hs
    · exact hs

/-- A report that says nothing new of a successful payment, which is held or
credited. -/
theorem unchanged_success {d : GatewayDetails} {amount : ℤ} {currency : String}
    (hp : db.row (.payment q.reference) = some p) (hvote : p.purpose = .VOTE)
    (hsuccess : gatewayStatus E q.data = .ok "success") (hd : A.details q.data p = .ok d)
    (ha : amountsOf E q.data p = .ok (amount, currency)) (hstatus : p.status = .SUCCESS)
    (hdone : p.held = true ∨ amountsMatch E p amount currency = true ∧ p.votesCredited = true) :
    Unchanged q.reference db (replayed E A q db) := by
  have hsame : amountsOf E q.data (seen q d p) = .ok (amount, currency) := ha
  have hs : Succeeds q (seen q d p) := succeeds_iff.mpr (Or.inl hstatus)
  have hkept : transition (seen q d p) .SUCCESS (q.now 1) = seen q d p := by
    have hstays : changes (seen q d p) .SUCCESS = false := by simp [changes, seen, reported, hstatus]
    unfold transition
    rw [hstays]
    rfl
  have hdecide : ∀ risk, decideReport E A q risk p = decideSuccess E q risk (seen q d p) := fun risk =>
    decide_success hsuccess hd
  rcases hmatch : amountsMatch E p amount currency with _ | _
  · have hmatch' : amountsMatch E (seen q d p) amount currency = false := hmatch
    have hheld : p.held = true := hdone.resolve_right fun h => by
      rw [hmatch] at h
      cases h.1
    have hdecision := fun risk => (hdecide risk).trans (decideSuccess_mismatched hsame hs hmatch')
    obtain ⟨v, decision, hdec, hmade⟩ := applyGatewayResult_after hvote hp fun v => ⟨_, hdecision _⟩
    obtain rfl := Except.ok.inj ((hdecision _).symm.trans hdec)
    rw [hkept] at hmade
    rcases hmade with ⟨-, hrows⟩ | ⟨hcredit, -⟩ | ⟨hcredit, -⟩ | ⟨hreverse, -⟩
    · exact unchanged_of_saved hp hrows rfl hheld.symm
    · cases hcredit
    · cases hcredit
    · cases hreverse
  · have hmatch' : amountsMatch E (seen q d p) amount currency = true := hmatch
    have hlooked : ∀ risk, looked risk (seen q d p) = seen q d p := fun risk => by
      have hassess : toAssess (seen q d p) = false := by
        rcases hdone with hheld | ⟨-, hcredited⟩
        · simp [toAssess, seen, reported, hheld]
        · simp [toAssess, seen, reported, hcredited]
      unfold looked
      rw [hassess]
      rfl
    have hdecision := fun risk => (hdecide risk).trans (decideSuccess_matching hsame hs hmatch')
    obtain ⟨v, decision, hdec, hmade⟩ := applyGatewayResult_after hvote hp fun v => ⟨_, hdecision _⟩
    obtain rfl := Except.ok.inj ((hdecision _).symm.trans hdec)
    rw [hkept, hlooked] at hmade
    rcases hmade with ⟨-, hrows⟩ | ⟨-, hrows, -⟩ | ⟨-, hcredit⟩ | ⟨hreverse, -⟩
    · exact unchanged_of_saved hp hrows rfl rfl
    · exact unchanged_of_saved hp hrows rfl rfl
    · -- neither a held nor a credited payment is creditable
      have hready : creditable (seen q d p) = true := hcredit.ready
      rcases hdone with hheld | ⟨-, hcredited⟩
      · simp [creditable, seen, reported, hheld] at hready
      · simp [creditable, seen, reported, hcredited] at hready
    · dsimp only at hreverse
      split at hreverse <;> cases hreverse

/-- **A success report changes nothing** of a vote payment that counts, exactly
where it finds it settled. -/
theorem unchanged_iff (hp : db.row (.payment q.reference) = some p) (hvote : p.purpose = .VOTE)
    (hsuccess : gatewayStatus E q.data = .ok "success") :
    Unchanged q.reference db (replayed E A q db) ↔ Steady E A q db p := by
  by_cases hread : ∃ d a, A.details q.data p = .ok d ∧ amountsOf E q.data p = .ok a
  swap
  · rw [replayed_unread hp hsuccess hread]
    exact ⟨fun _ d amount currency hd ha => absurd ⟨d, _, hd, ha⟩ hread, fun _ => unchanged_of_rows fun _ => rfl⟩
  obtain ⟨d, ⟨amount, currency⟩, hd, ha⟩ := hread
  have hsteady : Steady E A q db p ↔ Settled E A q db d amount currency p := by
    refine ⟨fun h => h d amount currency hd ha, fun h d' amount' currency' hd' ha' => ?_⟩
    obtain rfl : d = d' := Except.ok.inj (hd.symm.trans hd')
    have heq := Except.ok.inj (ha.symm.trans ha')
    rw [Prod.mk.injEq] at heq
    obtain ⟨rfl, rfl⟩ := heq
    exact h
  rw [hsteady]
  have hsame : amountsOf E q.data (seen q d p) = .ok (amount, currency) := ha
  have hdecide : ∀ risk, decideReport E A q risk p = decideSuccess E q risk (seen q d p) := fun risk =>
    decide_success hsuccess hd
  by_cases hstatus : p.status = .SUCCESS
  · have hpaid : ¬ Unpaid p.status := by simp [hstatus, Unpaid]
    have hundisputed : p.status ≠ .DISPUTED := by simp [hstatus]
    rcases hheld : p.held with _ | _
    swap
    · refine ⟨fun _ => ⟨hpaid, hundisputed, fun _ hfree => ?_, fun _ hfree => ?_⟩, fun _ =>
        unchanged_success hp hvote hsuccess hd ha hstatus (Or.inl hheld)⟩
      · rw [hheld] at hfree
        cases hfree
      · rw [hheld] at hfree
        cases hfree
    rcases hmatch : amountsMatch E p amount currency with _ | _
    · -- the payment is held again
      have hmatch' : amountsMatch E (seen q d p) amount currency = false := hmatch
      have hs : Succeeds q (seen q d p) := succeeds_iff.mpr (Or.inl hstatus)
      have hdecision := fun risk => (hdecide risk).trans (decideSuccess_mismatched hsame hs hmatch')
      obtain ⟨v, decision, hdec, hmade⟩ := applyGatewayResult_after hvote hp fun v => ⟨_, hdecision _⟩
      obtain rfl := Except.ok.inj ((hdecision _).symm.trans hdec)
      refine ⟨fun h => ?_, fun h => ?_⟩
      · have hkept : true = p.held := (saved_of_unchanged hp hmade h).2
        rw [hheld] at hkept
        cases hkept
      · have hmatches := h.matching hstatus hheld
        rw [hmatch] at hmatches
        cases hmatches
    rcases hcredited : p.votesCredited with _ | _
    · rw [unchanged_assessed hp hvote hsuccess hd ha hstatus hheld hmatch hcredited]
      exact ⟨fun h => ⟨hpaid, hundisputed, fun _ _ => hmatch, fun _ _ _ => h⟩, fun h => h.credited hstatus hheld hcredited⟩
    · refine ⟨fun _ => ⟨hpaid, hundisputed, fun _ _ => hmatch, fun _ _ hno => ?_⟩, fun _ =>
        unchanged_success hp hvote hsuccess hd ha hstatus (Or.inr ⟨hmatch, hcredited⟩)⟩
      rw [hcredited] at hno
      cases hno
  by_cases hs : Succeeds q (seen q d p)
  · -- the payment moves to SUCCESS
    have hread : ∀ v, ∃ decision, decideReport E A q (A.assess v) p = .ok decision := fun v => by
      rw [hdecide]
      rcases hmatch : amountsMatch E (seen q d p) amount currency with _ | _
      · exact ⟨_, decideSuccess_mismatched hsame hs hmatch⟩
      · exact ⟨_, decideSuccess_matching hsame hs hmatch⟩
    obtain ⟨v, decision, hdec, hmade⟩ := applyGatewayResult_after hvote hp hread
    have hmoved := decided_success hsame hs ((hdecide _).symm.trans hdec)
    refine ⟨fun h => ?_, fun h => ?_⟩
    · exact absurd ((saved_of_unchanged hp hmade h).1.symm.trans hmoved) hstatus
    · rcases succeeds_iff.mp hs with h' | h' | h'
      · exact absurd h' hstatus
      · exact absurd h' h.paid
      · exact absurd h' h.undisputed
  · -- reversed or refunded
    have hstays : ∀ risk, decideReport E A q risk p =
        .ok ⟨transition (seen q d p) .SUCCESS (q.now 1), .nothing, some (amount, currency)⟩ := fun risk =>
      (hdecide risk).trans (decideSuccess_stays hsame hs)
    obtain ⟨v, decision, hdec, hmade⟩ := applyGatewayResult_after hvote hp fun v => ⟨_, hstays _⟩
    obtain rfl := Except.ok.inj ((hstays _).symm.trans hdec)
    have hkept : transition (seen q d p) .SUCCESS (q.now 1) = seen q d p := by
      unfold transition
      split
      · rename_i hchanges
        refine absurd ?_ hs
        unfold Succeeds transition
        rw [if_pos hchanges]
      · rfl
    rw [hkept] at hmade
    refine ⟨fun _ => ⟨fun h => ?_, fun h => ?_, fun h => absurd h hstatus, fun h => absurd h hstatus⟩, fun _ => ?_⟩
    · exact hs (succeeds_iff.mpr (Or.inr (Or.inl h)))
    · exact hs (succeeds_iff.mpr (Or.inr (Or.inr h)))
    · rcases hmade with ⟨-, hrows⟩ | ⟨hcredit, -⟩ | ⟨hcredit, -⟩ | ⟨hreverse, -⟩
      · exact unchanged_of_saved hp hrows rfl rfl
      · cases hcredit
      · cases hcredit
      · cases hreverse

end Alone

/-! ### Later -/

/-- What may happen to a payment after a report: any call, and a rejected hold. -/
inductive Later
  | call (c : Runs.Call)
  | rejectHeldPayment (q : RejectCall)

def Later.prog (E : Env) (A : Adapters) : Later → Program
  | .call c => c.prog E A
  | .rejectHeldPayment q => Payments.rejectHeldPayment E q fun _ => .halt

/-- Nothing is watched but that payments stay what they are about. -/
def watch : Watch := ⟨False, False, False, False, False, True⟩

section Later

variable {E : Env} {A : Adapters}

theorem books (db : Database) : Books watch db :=
  ⟨fun h => h.elim, fun h => h.elim, fun h => h.elim False.elim False.elim⟩

theorem spec_fits : (spec watch).Fits Any := fun _ _ _ _ _ _ _ hg _ _ _ _ _ _ =>
  .of_committed hg (fun h => h.elim) (fun h => h.elim) (fun h => h.elim) fun h => h.elim

theorem Later.rest (hbilled : Billed E A) (c : Later) : Rest (spec watch) (c.prog E A) := by
  have hhalt : ∀ r : Except Failure Unit, Rest (spec watch) ((fun _ => (.halt : Program)) r) := fun _ => Rest.halt
  rcases c with c | q
  · exact c.spec hbilled id trivial
  · refine Rest.read fun db _ => ?_
    rcases db.row (.payment q.reference) with _ | p
    · exact hhalt (.ok ())
    have haudit : Quiet (spec watch) isAudit := spec_quiet.mono fun x hx => by
      cases x <;> first
        | rfl
        | cases hx
    refine Rest.recordNow spec_sound haudit (hhalt (.ok ())) ?_
    split
    · exact requestRefund_rest hhalt
    · exact hhalt (.ok ())

/-- A payment stays, and what it is for. -/
theorem payment_stays {calls : ℕ → Later} {db₀ : Database} {s : State Row Note} (hbilled : Billed E A)
    (h : Run Any (.init db₀ fun t => (calls t).prog E A) s) {reference : String} {p₀ : PaymentRow}
    (hp₀ : db₀.row (.payment reference) = some p₀) :
    ∃ p, s.db.row (.payment reference) = some p ∧ p.purpose = p₀.purpose := by
  have hmeets : Meets (spec watch) (.init db₀ fun t => (calls t).prog E A) :=
    .init (books db₀) fun t => (calls t).rest hbilled db₀ []
  refine hmeets.trail (R := fun db db' => ∀ p, db.row (.payment reference) = some p →
    ∃ p', db'.row (.payment reference) = some p' ∧ p'.purpose = p.purpose) spec_sound spec_fits
    (fun _ p hp => ⟨p, hp, rfl⟩) (fun _ _ _ h₁ h₂ p hp => ?_) (fun _ _ db db' _ hg p hp => ?_) h p₀ hp₀
  · obtain ⟨p', hp', hsame⟩ := h₁ p hp
    obtain ⟨p'', hp'', hsame'⟩ := h₂ p' hp'
    exact ⟨p'', hp'', hsame'.trans hsame⟩
  · have hstep := hg.payments reference
    rw [hp] at hstep
    rcases hp' : db'.row (.payment reference) with _ | p'
    · rw [hp'] at hstep
      exact hstep.elim
    · rw [hp'] at hstep
      exact ⟨p', rfl, hstep.1.purpose⟩

/-- **A success report that comes again** changes nothing of a vote payment that
counts, in whatever state it finds it, exactly where the payment is settled. -/
theorem replay_stable {calls : ℕ → Later} {db₀ : Database} {s : State Row Note} (hbilled : Billed E A)
    (h : Run Any (.init db₀ fun t => (calls t).prog E A) s) {q : GatewayCall} {p₀ : PaymentRow}
    (hp₀ : db₀.row (.payment q.reference) = some p₀) (hvote : p₀.purpose = .VOTE)
    (hsuccess : gatewayStatus E q.data = .ok "success") :
    ∃ p, s.db.row (.payment q.reference) = some p ∧
      (Unchanged q.reference s.db (replayed E A q s.db) ↔ Steady E A q s.db p) := by
  obtain ⟨p, hp, hpurpose⟩ := payment_stays hbilled h hp₀
  exact ⟨p, hp, unchanged_iff hp (hpurpose.trans hvote) hsuccess⟩

end Later

/-! ### A report after a dispute -/

open Reversals

/-- The report of the success of `counted`. -/
def confirmed : GatewayCall where
  reference := "ref"
  data := reportOf .success
  credit := ⟨9, 9⟩
  now := fun _ => 9

/-- The payment is disputed after the report. -/
def disputed (_ : ℕ) : Later := .call (.webhook (dispute "charge.dispute.create" "") ⟨8, 8⟩)

/-- The disputed payment is successful again. -/
theorem not_replay_stable : ¬ ∀ (E : Env) (A : Adapters) (calls : ℕ → Later) (db₁ : Database) (s : State Row Note)
    (q : GatewayCall) (p₁ : PaymentRow), Billed E A → db₁.row (.payment q.reference) = some p₁ → p₁.purpose = .VOTE →
    gatewayStatus E q.data = .ok "success" → Run Any (.init (replayed E A q db₁) fun t => (calls t).prog E A) s →
    Unchanged q.reference s.db (replayed E A q s.db) := by
  intro h
  have hend : (replay (.init (replayed .plain shopAdapters confirmed counted) fun t => (disputed t).prog .plain shopAdapters)
      (List.replicate 14 0)).map (fun s => ((s.db.row (.payment "ref")).map (·.status),
        ((replayed .plain shopAdapters confirmed s.db).row (.payment "ref")).map (·.status))) =
      some (some .DISPUTED, some .SUCCESS) := by decide +kernel
  obtain ⟨s, hs, hend⟩ := Option.map_eq_some_iff.mp hend
  rw [Prod.mk.injEq] at hend
  obtain ⟨p, hp, hstatus⟩ := Option.map_eq_some_iff.mp hend.1
  obtain ⟨p', hp', hstatus'⟩ := Option.map_eq_some_iff.mp hend.2
  have hunchanged := h .plain shopAdapters disputed counted s confirmed paidPurchase shopAdapters_billed rfl rfl
    (by decide +kernel) (.of_replay _ .refl hs)
  obtain ⟨p₂, hp₂, hsame, -⟩ := hunchanged.payment p hp
  obtain rfl := Option.some.inj (hp'.symm.trans hp₂)
  rw [hstatus, hstatus'] at hsame
  cases hsame

/-- The dispute is won. -/
def won : ℕ → Later
  | 0 => .call (.webhook (dispute "charge.dispute.create" "") ⟨8, 8⟩)
  | _ => .call (.webhook (dispute "charge.dispute.resolve" "merchant-accepted") ⟨8, 8⟩)

theorem replay_stable_won : ∃ s, replay (.init (replayed .plain shopAdapters confirmed counted) fun t =>
      (won t).prog .plain shopAdapters) (List.replicate 14 0 ++ List.replicate 4 1) = some s ∧
    Unchanged "ref" s.db (replayed .plain shopAdapters confirmed s.db) := by
  have hend : (replay (.init (replayed .plain shopAdapters confirmed counted) fun t => (won t).prog .plain shopAdapters)
      (List.replicate 14 0 ++ List.replicate 4 1)).map (fun s => (s.db.row (.payment "ref")).map fun p =>
        (p.status, p.held, p.votesCredited, p.amountMinor, p.currency)) =
      some (some (.SUCCESS, false, true, 200, "GHS")) := by decide +kernel
  obtain ⟨s, hs, hend⟩ := Option.map_eq_some_iff.mp hend
  obtain ⟨p, hp, hend⟩ := Option.map_eq_some_iff.mp hend
  simp only [Prod.mk.injEq] at hend
  obtain ⟨hstatus, hheld, hcredited, hamount, hcurrency⟩ := hend
  have hstart : ((replayed .plain shopAdapters confirmed counted).row (.payment "ref")).map (·.purpose) = some .VOTE := by
    decide +kernel
  obtain ⟨p₀, hp₀, hvote⟩ := Option.map_eq_some_iff.mp hstart
  obtain ⟨p', hp', hiff⟩ := replay_stable shopAdapters_billed (.of_replay _ .refl hs) (q := confirmed) hp₀ hvote
    (by decide +kernel)
  obtain rfl := Option.some.inj (hp.symm.trans hp')
  refine ⟨s, hs, hiff.mpr fun d amount currency _ ha => ?_⟩
  have hread : amountsOf .plain confirmed.data p = .ok (200, "GHS") := rfl
  have heq := Except.ok.inj (hread.symm.trans ha)
  rw [Prod.mk.injEq] at heq
  obtain ⟨rfl, rfl⟩ := heq
  refine ⟨by simp [hstatus, Unpaid], by simp [hstatus], fun _ _ => ?_, fun _ _ hno => ?_⟩
  · unfold amountsMatch
    rw [hamount, hcurrency]
    rfl
  · rw [hcredited] at hno
    cases hno

end Replays
end FlexyVotes
