/-
# The assessment of a confirmation

A success report asks the risk engine about a vote payment that is neither held
nor credited yet. `assessment` is what the engine says in a report that is
applied alone: the payment it is asked about has its columns filled and is
successful, and the tables are as they were but for it.

What is assessed as held is not credited; what is not assessed is not credited
either, and keeps its hold.

Key definitions: `assessment`.
Key theorems: `assessed_after`, `unassessed_after`.
-/
import FlexyVotes.Payments.RefundRuns
import FlexyVotes.Payments.Reports

namespace FlexyVotes
namespace Assessments

open Transactions Audit Payments Runs Reports

/-! ### What a report leaves alone -/

/-- The rows a report of the payment can write, or the release of its hold. -/
def isReport (reference : String) : Key → Bool
  | .payment r => r = reference
  | .paid _ => true
  | .ledger _ => true
  | .voteTransaction _ => true
  | .discountCode _ => true
  | .invoice _ => true
  | .subscription _ => true
  | k => isAudit k

/-- The rows a paid invoice is marked in. -/
def isBilling : Key → Bool
  | .invoice _ => true
  | .subscription _ => true
  | k => isAudit k

section Aside

variable {E : Env} {A : Adapters} {reference : String} {n : Note → Bool} {out : Program → Prop} {rest : Program}

theorem isReport_of_audit {x : Key} (hx : isAudit x = true) : isReport reference x = true := by
  cases x <;> first
    | rfl
    | exact hx
    | cases hx

theorem saveTransition_apart {p : PaymentRow} {target : PaymentStatus} {now : Time}
    (hrest : rest.Apart (isReport reference) n out) :
    (saveTransition reference p target now rest).Apart (isReport reference) n out := by
  unfold saveTransition
  split
  · exact .put (by simp [isReport]) hrest
  · exact hrest

theorem reverseVotes_apart (hrest : rest.Apart (isReport reference) n out) :
    (reverseVotes reference rest).Apart (isReport reference) n out :=
  .updateWhere hrest fun k r h => by
    cases k <;> first
      | rfl
      | cases h

/-- What ends a statement may end it in its own way. -/
theorem markCredited_apart {sep : Program → Program} {c : CreditCall} {p : PaymentRow}
    (hsep : ∀ {q : Program}, q.Apart (isReport reference) n out → (sep q).Apart (isReport reference) n out)
    (hrest : rest.Apart (isReport reference) n out) :
    (markCredited sep c reference p rest).Apart (isReport reference) n out := by
  refine .update (by simp [isReport]) fun _ => hsep ?_
  split
  · exact .update rfl fun _ => hsep hrest
  · exact hrest

theorem creditVotes_apart {c : CreditCall} {p : PaymentRow} (hrest : rest.Apart (isReport reference) n out) :
    (creditVotes c reference p rest).Apart (isReport reference) n out := by
  unfold creditVotes
  split
  swap
  · exact hrest
  split
  · exact hrest
  exact .insertOr rfl hrest (.insertOr rfl (.put rfl hrest) (.insertOr rfl (.put rfl (.put rfl hrest))
    (markCredited_apart (fun h => h) hrest)))

theorem isBilling_of_audit {x : Key} (hx : isAudit x = true) : isBilling x = true := by
  cases x <;> first
    | rfl
    | exact hx

theorem markInvoicePaid_apart {p : Key → Bool} {c : InvoiceCall} {fail : Program} {invoice : ℕ} {r : String}
    (hp : ∀ x, isBilling x = true → p x = true) (hfail : fail.Apart p n out) (hrest : rest.Apart p n out) :
    (markInvoicePaid E c fail invoice r rest).Apart p n out := by
  refine .lockRow hfail fun i => ?_
  dsimp only
  split
  · exact hrest
  have hrecord : ∀ a : Entry, (record E a fail rest).Apart p n out := fun a =>
    record_apart (fun _ hx => hp _ (isBilling_of_audit hx)) hfail hrest
  refine .put (hp _ rfl) (.read fun db => ?_)
  split
  · exact .update (hp _ rfl) fun _ => hrecord _
  refine .insert (hp _ rfl) fun b => ?_
  rcases b with _ | _
  · refine .read fun db => ?_
    split
    · exact .update (hp _ rfl) fun _ => hrecord _
    · exact hfail
  · exact .update (hp _ rfl) fun _ => hrecord _

/-- What does not look at billing is kept by it, if by what comes after. -/
theorem markInvoicePaid_keeps {R : Database → Database → Prop} {p : Key → Bool} {c : InvoiceCall} {invoice : ℕ}
    {r : String} (hrefl : ∀ v, R v v) (htrans : ∀ v v' v'', R v v' → R v' v'' → R v v'') (hR : Ignores R p)
    (hp : ∀ x, isBilling x = true → p x = true) (hrest : rest.KeepsAll R) :
    (markInvoicePaid E c (.rollback .halt) invoice r rest).KeepsAll R := by
  have hapart : (markInvoicePaid E c (.rollback .halt) invoice r rest).Apart p (fun _ => true) (· = rest) :=
    markInvoicePaid_apart hp (.rollback .halt) (.out rfl)
  exact hapart.keepsAll hrefl htrans hR fun q hq => hq ▸ hrest

theorem fulfil_apart {q : GatewayCall} {p : PaymentRow} {matching : Bool} (hbilled : Billed E A)
    (hrest : rest.Apart (isReport q.reference) n out) :
    (fulfil A q p matching rest).Apart (isReport q.reference) n out := by
  obtain ⟨c, hc⟩ := hbilled
  unfold fulfil
  rw [hc]
  split
  · exact creditVotes_apart hrest
  split
  · split
    · refine markInvoicePaid_apart (fun x hx => ?_) (.rollback .halt) hrest
      cases x <;> first
        | rfl
        | exact hx
        | cases hx
    · exact hrest
  · exact hrest

/-- **A report** writes the rows of its own payment. -/
theorem applyGatewayResult_apart {q : GatewayCall} {k : Except Failure (Option PaymentRow) → Program}
    (hbilled : Billed E A) :
    (applyGatewayResult E A q k).Apart (isReport q.reference) (fun _ => true) fun p => ∃ r, p = k r := by
  have hk : ∀ r, (k r).Apart (isReport q.reference) (fun _ => true) fun p => ∃ r, p = k r := fun r => .out ⟨r, rfl⟩
  have hself : isReport q.reference (.payment q.reference) = true := by simp [isReport]
  refine .lockRow (.commit (hk _)) fun p => ?_
  dsimp only
  rcases gatewayStatus E q.data with e | status
  · exact .rollback (hk _)
  dsimp only
  split_ifs
  · rcases A.details q.data p with e | d
    · exact .rollback (hk _)
    refine .put hself ?_
    rcases amountsOf E q.data (reported p status d (q.now 0)) with e | ⟨amount, currency⟩
    · exact .rollback (hk _)
    have hdone : ∀ p', (Prog.commit (.note (.succeeded q.reference amount currency) (k (.ok (some p')))) : Program).Apart
        (isReport q.reference) (fun _ => true) fun p => ∃ r, p = k r := fun _ => .commit (.note rfl (hk _))
    refine saveTransition_apart ?_
    dsimp only
    split_ifs
    · exact hdone _
    · exact .put hself (fulfil_apart hbilled (hdone _))
    · exact .read fun _ => .put hself (fulfil_apart hbilled (hdone _))
    · exact fulfil_apart hbilled (hdone _)
  · exact saveTransition_apart (.commit (hk _))
  · exact saveTransition_apart (.commit (hk _))
  · exact saveTransition_apart (reverseVotes_apart (.commit (hk _)))
  · exact saveTransition_apart (.commit (hk _))
  · exact .put hself (saveTransition_apart (.commit (hk _)))

/-- Releasing a hold writes the rows of its own payment. -/
theorem releaseHeldPayment_apart {q : ReleaseCall} :
    (releaseHeldPayment E q fun _ => .halt).Apart (isReport q.reference) (fun _ => true) fun _ => False := by
  refine .lockRow (.rollback .halt) fun p => .put (by simp [isReport]) (creditVotes_apart (.commit ?_))
  have hrecord : (Prog.read fun db => recordNow E (q.entry p (organizationOf db p.event)) .halt .halt : Program).Apart
      (isReport q.reference) (fun _ => true) fun _ => False :=
    .read fun _ => record_apart (fun _ hx => isReport_of_audit hx) (.rollback .halt) (.commit .halt)
  dsimp only
  split_ifs
  · exact .note rfl hrecord
  · exact hrecord

/-- Crediting by reconciliation writes the rows of its own payment. -/
theorem reconcileUncredited_apart {c : CreditCall} :
    (reconcileUncredited reference c).Apart (isReport reference) (fun _ => true) fun _ => False := by
  refine .read fun db => ?_
  split
  · exact .halt
  split
  swap
  · exact .halt
  refine .note rfl ?_
  unfold creditVotesNow
  split
  swap
  · exact .halt
  split
  · exact .halt
  exact .insertOr rfl (.rollback .halt) (.insertOr rfl (.rollback .halt) (.insertOr rfl (.rollback .halt)
    (.commit (markCredited_apart .commit .halt))))

/-- What is apart from a row leaves it, when it runs alone. -/
theorem after_row {p : Program} {db : Database} {ends : Program → Prop} (h : p.Apart (isReport reference) n ends)
    (hends : ∀ q, ends q → q = .halt) {x : Key} (hx : isReport reference x = false) : (p.after db).row x = db.row x := by
  let same (v v' : Database) : Prop := v'.row x = v.row x
  have hrefl : ∀ v, same v v := fun _ => rfl
  have htrans : ∀ v v' v'', same v v' → same v' v'' → same v v'' := fun _ _ _ h₁ h₂ => Eq.trans h₂ h₁
  have hignores : Ignores same (isReport reference) := fun v k r hk => Db.set_row_ne _ _ fun heq => by
    rw [← heq, hx] at hk
    cases hk
  have hkeeps : p.KeepsAll same := h.keepsAll hrefl htrans hignores fun q hq => hends q hq ▸ fun _ => .halt hrefl
  exact (hkeeps db).after hrefl

end Aside

/-! ### What the engine says -/

/-- The payment a success report asks about. -/
def confirmed (q : GatewayCall) (p : PaymentRow) (d : GatewayDetails) : PaymentRow :=
  transition (reported p "success" d (q.now 0)) .SUCCESS (q.now 1)

/-- The tables the engine looks at. -/
def viewOf (q : GatewayCall) (db : Database) (p : PaymentRow) (d : GatewayDetails) : Database :=
  db.apply <|
    (if changes (reported p "success" d (q.now 0)) .SUCCESS then [⟨.payment q.reference, some (confirmed q p d)⟩] else []) ++
      [⟨.payment q.reference, some (reported p "success" d (q.now 0))⟩]

/-- The report matches the payment, which goes on to SUCCESS and has still to be assessed. -/
def asks (E : Env) (q : GatewayCall) (p : PaymentRow) (d : GatewayDetails) : Bool :=
  match amountsOf E q.data (reported p "success" d (q.now 0)) with
  | .error _ => false
  | .ok (amount, currency) =>
    (confirmed q p d).status = .SUCCESS && amountsMatch E (reported p "success" d (q.now 0)) amount currency &&
      toAssess (confirmed q p d)

/-- What the risk engine says in a report, if it is asked. -/
def assessment (E : Env) (A : Adapters) (q : GatewayCall) (db : Database) : Option Assessment :=
  match db.row (.payment q.reference), gatewayStatus E q.data with
  | some p, .ok "success" =>
    match A.details q.data p with
    | .ok d => if asks E q p d then some (A.assess (viewOf q db p d) (confirmed q p d)) else none
    | .error _ => none
  | _, _ => none

section Report

variable {E : Env} {A : Adapters} {q : GatewayCall} {db : Database} {a : Assessment}

/-- The report as it is applied alone. -/
def reportAfter (E : Env) (A : Adapters) (q : GatewayCall) (db : Database) : Database :=
  (applyGatewayResult E A q fun _ => .halt).after db

/-- An assessment is of a payment that is there, and of a report that matches it. -/
theorem assessment_some (h : assessment E A q db = some a) : ∃ p d, db.row (.payment q.reference) = some p ∧
    gatewayStatus E q.data = .ok "success" ∧ A.details q.data p = .ok d ∧ asks E q p d = true ∧
    a = A.assess (viewOf q db p d) (confirmed q p d) := by
  unfold assessment at h
  split at h
  · rename_i p hp hs
    split at h
    · rename_i d hd
      split at h
      · rename_i hasks
        exact ⟨p, d, hp, hs, hd, hasks, (Option.some.inj h).symm⟩
      · cases h
    · cases h
  · cases h

/-- The payment that is asked about is a vote payment, successful, neither held
nor credited; and so it was before, but for its status. -/
theorem asks_payment {p : PaymentRow} {d : GatewayDetails} (h : asks E q p d = true) :
    ∃ amount currency, amountsOf E q.data (reported p "success" d (q.now 0)) = .ok (amount, currency) ∧
      (confirmed q p d).status = .SUCCESS ∧ amountsMatch E (reported p "success" d (q.now 0)) amount currency = true ∧
      p.purpose = .VOTE ∧ p.held = false ∧ p.votesCredited = false := by
  unfold asks at h
  split at h
  · cases h
  · rename_i amount currency ha
    simp only [Bool.and_eq_true, decide_eq_true_eq] at h
    obtain ⟨⟨hs, hm⟩, hassess⟩ := h
    have hsame : (confirmed q p d).purpose = p.purpose ∧ (confirmed q p d).held = p.held ∧
        (confirmed q p d).votesCredited = p.votesCredited := by
      unfold confirmed transition
      split_ifs
      · exact ⟨rfl, rfl, rfl⟩
      · exact ⟨rfl, rfl, rfl⟩
    unfold toAssess at hassess
    simp only [Bool.and_eq_true, decide_eq_true_eq, Bool.not_eq_true'] at hassess
    obtain ⟨⟨hp, hh⟩, hc⟩ := hassess
    exact ⟨amount, currency, ha, hs, hm, hsame.1.symm.trans hp, hsame.2.1.symm.trans hh, hsame.2.2.symm.trans hc⟩

/-- **A report that asks the engine** saves what it says, and credits the votes
unless they are held. -/
theorem assessed_after {p : PaymentRow} {d : GatewayDetails} (hp : db.row (.payment q.reference) = some p)
    (hs : gatewayStatus E q.data = .ok "success") (hd : A.details q.data p = .ok d) (hasks : asks E q p d = true) :
    ∃ report, MadeAlone q.credit q.reference
      ⟨assessed (confirmed q p d) (A.assess (viewOf q db p d) (confirmed q p d)),
        if (A.assess (viewOf q db p d) (confirmed q p d)).held then .nothing else .credit, report⟩ db
      (reportAfter E A q db) := by
  obtain ⟨amount, currency, ha, hsuccess, hmatch, hvote, hheld, hcredited⟩ := asks_payment hasks
  refine ⟨some (amount, currency), ?_⟩
  have hview : (db.apply []).row (.payment q.reference) = some p := hp
  have hheld' : (assessed (confirmed q p d) (A.assess (viewOf q db p d) (confirmed q p d))).held =
      (A.assess (viewOf q db p d) (confirmed q p d)).held := by
    have hnot : (confirmed q p d).held = false := by
      unfold confirmed transition
      split_ifs
      · exact hheld
      · exact hheld
    simp [assessed, hnot]
  have hassess : toAssess (confirmed q p d) = true := by
    unfold asks at hasks
    rw [ha] at hasks
    simp only [Bool.and_eq_true] at hasks
    exact hasks.2
  unfold reportAfter Prog.after applyGatewayResult
  rw [Prog.exec_lockRow hview]
  dsimp only
  rw [hs]
  dsimp only
  rw [if_pos rfl, hd]
  dsimp only
  unfold confirm
  rw [ha]
  dsimp only
  have hpurpose : (assessed (confirmed q p d) (A.assess (viewOf q db p d) (confirmed q p d))).purpose = .VOTE := by
    rw [assessed_purpose, confirmed, transition_purpose]
    exact hvote
  have hlook : ∀ w, db.apply w = viewOf q db p d → Saves q.reference (confirmed q p d) w db →
      MadeAlone q.credit q.reference
        ⟨assessed (confirmed q p d) (A.assess (viewOf q db p d) (confirmed q p d)),
          if (A.assess (viewOf q db p d) (confirmed q p d)).held then .nothing else .credit, some (amount, currency)⟩ db
        ((Prog.read fun db' : Database =>
          .put (.payment q.reference) (some (assessed (confirmed q p d) (A.assess db' (confirmed q p d)))) <|
          fulfil A q (assessed (confirmed q p d) (A.assess db' (confirmed q p d))) true <| .commit <|
          .note (.succeeded q.reference amount currency) .halt : Program).exec db w []).db := by
    intro w hw hsaves
    rw [Prog.exec_read, hw]
    refine fulfil_exec (d := ⟨_, _, some (amount, currency)⟩) hpurpose ?_ hsaves.put
    dsimp only
    rw [hheld']
  have hnot : ¬ (transition (reported p "success" d (q.now 0)) .SUCCESS (q.now 1)).status ≠ .SUCCESS := not_not.mpr hsuccess
  have hmatch' : ¬ (!amountsMatch E (reported p "success" d (q.now 0)) amount currency) = true := by simp [hmatch]
  have hassess' : toAssess (transition (reported p "success" d (q.now 0)) .SUCCESS (q.now 1)) = true := hassess
  unfold saveTransition
  by_cases hc : changes (reported p "success" d (q.now 0)) .SUCCESS = true
  · rw [if_pos hc, if_neg hnot, if_neg hmatch', if_pos hassess', Prog.exec_put, Prog.exec_put]
    refine hlook _ ?_ (Saves.nil hp).put.put
    unfold viewOf
    rw [if_pos hc]
    rfl
  · have hsame : confirmed q p d = reported p "success" d (q.now 0) := if_neg hc
    rw [if_neg hc, if_neg hnot, if_neg hmatch', if_pos hassess', Prog.exec_put]
    refine hlook _ ?_ (hsame ▸ (Saves.nil hp).put)
    unfold viewOf
    rw [if_neg hc]
    rfl

/-- What a report that asks nothing leaves of a payment. -/
structure Left (E : Env) (A : Adapters) (q : GatewayCall) (p p' : PaymentRow) : Prop where
  lasting : Lasting p p'
  credited : p'.votesCredited = p.votesCredited
  gateway : p'.gateway = p.gateway ∨ gatewayStatus E q.data = .ok "success" ∧ A.details q.data p = .ok p'.gateway

theorem Left.transition {p p' : PaymentRow} (h : Left E A q p p') (target : PaymentStatus) (now : Time) :
    Left E A q p (transition p' target now) := by
  unfold Payments.transition
  split_ifs
  · exact ⟨h.lasting.trans ⟨rfl, rfl, rfl, rfl, rfl, rfl, rfl⟩, h.credited, h.gateway⟩
  · exact h

/-- The payment of the report is there, as it is left. -/
def LeftIn (E : Env) (A : Adapters) (q : GatewayCall) (p : PaymentRow) (v : Database) : Prop :=
  ∃ p', v.row (.payment q.reference) = some p' ∧ Left E A q p p'

section Left

variable {p p' : PaymentRow} {rest : Program}

theorem put_keeps (hleft : Left E A q p p') (hrest : rest.KeepsAll (Preserves (LeftIn E A q p))) :
    (Prog.put (.payment q.reference) (some p') rest).KeepsAll (Preserves (LeftIn E A q p)) := fun _ =>
  .put Preserves.trans (fun _ => ⟨p', Db.set_row_self _ _ _, hleft⟩) (hrest _)

theorem saveTransition_keeps {target : PaymentStatus} {now : Time} (hleft : Left E A q p p')
    (hrest : rest.KeepsAll (Preserves (LeftIn E A q p))) :
    (saveTransition q.reference p' target now rest).KeepsAll (Preserves (LeftIn E A q p)) := by
  unfold saveTransition
  split
  · exact put_keeps (hleft.transition target now) hrest
  · exact hrest

theorem ignores_others : Ignores (Preserves (LeftIn E A q p)) fun k => k ≠ .payment q.reference := by
  rintro v k r hk ⟨p', hp', hleft⟩
  exact ⟨p', (Db.set_row_ne _ _ (Ne.symm (of_decide_eq_true hk))).trans hp', hleft⟩

theorem commits_keeps (hrest : rest.KeepsAll (Preserves (LeftIn E A q p))) :
    (Prog.commit rest).KeepsAll (Preserves (LeftIn E A q p)) := fun v => .commit Preserves.trans Preserves.refl (hrest v)

/-- Nothing is credited of a payment that is held or credited. -/
theorem fulfil_keeps {matching : Bool} (hbilled : Billed E A)
    (hdone : p'.purpose = .VOTE → p'.held = false → p'.votesCredited = true)
    (hrest : rest.KeepsAll (Preserves (LeftIn E A q p))) :
    (fulfil A q p' matching rest).KeepsAll (Preserves (LeftIn E A q p)) := by
  obtain ⟨c, hc⟩ := hbilled
  unfold fulfil
  rw [hc]
  split
  · rename_i hvote
    have hcreditable : ¬ creditable p' = true := by simp [creditable, hdone hvote.1 hvote.2]
    unfold creditVotes
    rw [if_neg hcreditable]
    exact hrest
  split
  · split
    · refine markInvoicePaid_keeps Preserves.refl Preserves.trans ignores_others (fun x hx => ?_) hrest
      cases x <;> first
        | rfl
        | cases hx
    · exact hrest
  · exact hrest

end Left

/-- **A report that does not ask the engine** credits nothing. -/
theorem unassessed_after {p : PaymentRow} (hbilled : Billed E A) (hp : db.row (.payment q.reference) = some p)
    (h : assessment E A q db = none) :
    ∃ p', (reportAfter E A q db).row (.payment q.reference) = some p' ∧ Left E A q p p' := by
  have hself : Left E A q p p := ⟨.refl p, rfl, Or.inl rfl⟩
  have hhalt : (.halt : Program).KeepsAll (Preserves (LeftIn E A q p)) := fun _ => .halt Preserves.refl
  have hcommit : (.commit .halt : Program).KeepsAll (Preserves (LeftIn E A q p)) := commits_keeps hhalt
  have hback : (.rollback .halt : Program).KeepsAll (Preserves (LeftIn E A q p)) := fun _ => .rollback Preserves.refl hhalt
  have hkeeps : (applyGatewayResult E A q fun _ => .halt).Keeps (Preserves (LeftIn E A q p)) db := by
    refine .lockRow (fun hnone => ?_) fun p₀ hp₀ => ?_
    · exact hcommit db
    obtain rfl := Option.some.inj (hp.symm.trans hp₀)
    dsimp only
    rcases hs : gatewayStatus E q.data with e | status
    · exact hback db
    dsimp only
    split_ifs with hsuccess
    · subst hsuccess
      rcases hd : A.details q.data p with e | d
      · exact hback db
      have hreported : Left E A q p (reported p "success" d (q.now 0)) :=
        ⟨⟨rfl, rfl, rfl, rfl, rfl, rfl, rfl⟩, rfl, Or.inr ⟨hs, hd⟩⟩
      have hconfirmed : Left E A q p (confirmed q p d) := hreported.transition .SUCCESS (q.now 1)
      refine put_keeps hreported ?_ db
      rcases ha : amountsOf E q.data (reported p "success" d (q.now 0)) with e | ⟨amount, currency⟩
      · exact hback
      have hdone : (Prog.commit (.note (.succeeded q.reference amount currency) .halt) : Program).KeepsAll
          (Preserves (LeftIn E A q p)) := commits_keeps fun v => .note (hhalt v)
      refine saveTransition_keeps hreported ?_
      dsimp only
      split_ifs with hstatus hmatch hassess
      · exact hdone
      · refine put_keeps ⟨hconfirmed.lasting.trans ⟨rfl, rfl, rfl, rfl, rfl, rfl, rfl⟩, hconfirmed.credited,
          hconfirmed.gateway⟩ (fulfil_keeps hbilled (fun _ hheld => ?_) hdone)
        cases hheld
      · -- here the engine is asked
        have hasks : asks E q p d = true := by
          unfold asks
          rw [ha]
          simp only [Bool.and_eq_true, decide_eq_true_eq]
          exact ⟨⟨not_not.mp hstatus, by simpa using hmatch⟩, hassess⟩
        unfold assessment at h
        rw [hp, hs] at h
        simp only [hd, if_pos hasks] at h
        cases h
      · refine fulfil_keeps hbilled (fun hvote hheld => ?_) hdone
        by_contra hcredited
        refine hassess ?_
        unfold toAssess
        rw [hvote, hheld, Bool.eq_false_iff.mpr hcredited]
        rfl
    · exact saveTransition_keeps hself hcommit db
    · exact saveTransition_keeps hself hcommit db
    · refine saveTransition_keeps hself ?_ db
      refine fun v => .updateWhere Preserves.trans ignores_others (fun k r hk => ?_) hcommit
      cases k <;> first
        | rfl
        | cases hk
    · exact saveTransition_keeps hself hcommit db
    · have hpending : Left E A q p { p with gatewayStatus := truncate 30 status } :=
        ⟨⟨rfl, rfl, rfl, rfl, rfl, rfl, rfl⟩, rfl, Or.inl rfl⟩
      exact put_keeps hpending (saveTransition_keeps hpending hcommit) db
  exact hkeeps.after Preserves.refl ⟨p, hp, hself⟩

end Report

end Assessments
end FlexyVotes
