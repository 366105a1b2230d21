/-
# The limits per voter over a sequence of purchases

`quote` compares a purchase with what its payer's payments have been credited
so far; what was bought before and is not yet credited counts for nothing. So
the limits hold over a sequence of checkouts and reports of the gateway in
which a payer's new payment finds no other that may yet be credited, or leaves
room for those there are (`Apart`).

A payer is known by the index of an e-mail address or of a phone number, and
the quote looks at both.

Key definitions: `Payer`, `Within`, `Apart`.
Key theorems: `quote_fits`, `within_caps`.
-/
import FlexyVotes.Lib.Serial
import FlexyVotes.Payments.RefundRuns
import FlexyVotes.Payments.Transitions

namespace FlexyVotes
namespace Caps

open Transactions Audit Payments Runs Transitions Voters

/-! ### The calls -/

/-- Checkouts, and whatever confirms what was paid. -/
inductive Call
  | initiateVotePayment (q : InitiateCall)
  | webhook (q : WebhookCall) (credit : CreditCall)
  | verifyAndApply (q : GatewayCall) (answer : Option (List (String × Json)))
  | reconcileListed (q : GatewayCall)
  | expirePayment (q : GatewayCall) (answer : Option (List (String × Json))) (now : Time)

/-- The program of a call. -/
def Call.prog (E : Env) (A : Adapters) : Call → Program
  | .initiateVotePayment q => Payments.initiateVotePayment E q fun _ => .halt
  | .webhook q credit => dispatchWebhook E A q credit fun _ => .halt
  | .verifyAndApply q answer => Tickets.verifyAndApply E A q answer fun _ => .halt
  | .reconcileListed q => Payments.reconcileListed E A q fun _ => .halt
  | .expirePayment q answer now => Payments.expirePayment E A q answer now fun _ => .halt

/-- The database after a call. -/
def Call.after (E : Env) (A : Adapters) (c : Call) (db : Database) : Database := (c.prog E A).after db

/-! ### What the payments of a payer come to -/

/-- A payer, by the index of the e-mail address or of the phone number. -/
inductive Payer
  | email (index : String)
  | phone (index : String)

/-- The payment is the payer's, in the event. -/
def Payer.made (event : ℕ) : Payer → PaymentRow → Bool
  | .email index => fun p => p.event = some event && index ≠ "" && p.payerEmailIndex = index
  | .phone index => fun p => p.event = some event && index ≠ "" && p.payerPhoneIndex = index

/-- The votes of the payment are credited. -/
def isCredited (p : PaymentRow) : Bool := p.status = .SUCCESS && p.votesCredited

/-- The votes are credited, or may yet be without a hold being released. -/
def mayCount (p : PaymentRow) : Bool :=
  (p.votesCredited || !p.held) && p.status ≠ .REVERSED && p.status ≠ .REFUNDED

/-- The votes may yet be credited. -/
def isOpen (p : PaymentRow) : Bool := mayCount p && !isCredited p

/-- The sum of a column over the payer's payments in the event that meet `c`. -/
def payerSum (db : Database) (event : ℕ) (payer : Payer) (c : PaymentRow → Bool) (f : PaymentRow → ℕ) : ℕ :=
  sumPayments db (fun p => payer.made event p && c p) f

/-- A limit of an event, and the column it limits. -/
inductive Cap
  | votes
  | spend

def Cap.column : Cap → PaymentRow → ℕ
  | .votes => (·.totalVotes)
  | .spend => (·.amountMinor)

def Cap.of (ev : EventRow) : Cap → Option ℕ
  | .votes => limit ev.maxVotesPerVoter
  | .spend => limit ev.maxSpendPerVoter

/-- **The limits**: what is credited of a payer's payments in an event. -/
def Within (db : Database) : Prop :=
  ∀ event ev payer (cap : Cap) m, db.row (.event event) = some ev → cap.of ev = some m →
    payerSum db event payer isCredited cap.column ≤ m

/-- The same of what may count in the end. -/
def Covered (db : Database) : Prop :=
  ∀ event ev payer (cap : Cap) m, db.row (.event event) = some ev → cap.of ev = some m →
    payerSum db event payer mayCount cap.column ≤ m

/-- A new payment finds no other of its payer that may yet be credited, or fits
beside what there is. -/
def Apart (db db' : Database) : Prop :=
  ∀ reference p event ev payer (cap : Cap) m, db.row (.payment reference) = none →
    db'.row (.payment reference) = some p → Payer.made event payer p = true → db.row (.event event) = some ev →
    cap.of ev = some m → payerSum db event payer isOpen cap.column = 0 ∨
      payerSum db event payer mayCount cap.column + cap.column p ≤ m

/-- Each call of the sequence keeps apart. -/
def AllApart (E : Env) (A : Adapters) : Database → List Call → Prop
  | _, [] => True
  | db, c :: cs => Apart db (c.after E A db) ∧ AllApart E A (c.after E A db) cs

section Sums

variable {db db' : Database} {c c' : PaymentRow → Bool} {f f' : PaymentRow → ℕ}

/-- What a sum over payments reads off a row. -/
def column (c : PaymentRow → Bool) (f : PaymentRow → ℕ) : (k : Key) → Row k → Option ℕ
  | .payment _ => fun p => if c p then some (f p) else none
  | _ => fun _ => none

theorem sumPayments_eq (db : Database) (c : PaymentRow → Bool) (f : PaymentRow → ℕ) :
    sumPayments db c f = db.total (column c f) := rfl

theorem weight_payment {reference : String} {p : PaymentRow} (hp : db.row (.payment reference) = some p) :
    db.weight (column c f) (.payment reference) = if c p then f p else 0 := by
  unfold Db.weight
  rw [hp]
  show (if c p = true then some (f p) else none).getD 0 = _
  split_ifs <;> rfl

theorem weight_none {reference : String} (hp : db.row (.payment reference) = none) :
    db.weight (column c f) (.payment reference) = 0 := by
  unfold Db.weight
  rw [hp]
  rfl

/-- Other rows count for nothing. -/
theorem weight_other {x : Key} (hx : ∀ reference, x ≠ .payment reference) : db.weight (column c f) x = 0 := by
  unfold Db.weight
  cases x with
  | payment reference => exact absurd rfl (hx reference)
  | _ => rcases db.row _ with _ | r <;> rfl

/-- A sum in which every payment counts no more than it did. -/
theorem sumPayments_le (h : ∀ reference p', db'.row (.payment reference) = some p' → c' p' = true →
    ∃ p, db.row (.payment reference) = some p ∧ c p = true ∧ f' p' ≤ f p) :
    sumPayments db' c' f' ≤ sumPayments db c f := by
  rw [sumPayments_eq, sumPayments_eq]
  refine Db.total_le fun x => ?_
  by_cases hx : ∃ reference, x = .payment reference
  swap
  · rw [weight_other fun reference h => hx ⟨reference, h⟩]
    exact Nat.zero_le _
  obtain ⟨reference, rfl⟩ := hx
  rcases hp' : db'.row (.payment reference) with _ | p'
  · rw [weight_none hp']
    exact Nat.zero_le _
  rw [weight_payment hp']
  by_cases hc : c' p' = true
  · obtain ⟨p, hp, hcp, hle⟩ := h reference p' hp' hc
    rw [weight_payment hp, if_pos hc, if_pos hcp]
    exact hle
  · rw [if_neg hc]
    exact Nat.zero_le _

/-- One payment more. -/
theorem sumPayments_new {reference : String} {p' : PaymentRow} (hp' : db'.row (.payment reference) = some p')
    (h : ∀ r q', r ≠ reference → db'.row (.payment r) = some q' → c q' = true →
      ∃ q, db.row (.payment r) = some q ∧ c q = true ∧ f q' ≤ f q) :
    sumPayments db' c f ≤ sumPayments db c f + if c p' then f p' else 0 := by
  have hwithout : sumPayments (db'.set (.payment reference) none) c f ≤ sumPayments db c f := by
    refine sumPayments_le fun r q' hq' hc => ?_
    by_cases hr : r = reference
    · subst hr
      rw [Db.set_row_self] at hq'
      cases hq'
    · rw [Db.set_row_ne _ _ (by simpa using hr)] at hq'
      exact h r q' hr hq' hc
  have hone : db'.total (column c f) + (db'.set (.payment reference) none).weight (column c f) (.payment reference) =
      (db'.set (.payment reference) none).total (column c f) + db'.weight (column c f) (.payment reference) :=
    Db.total_of_ne _ fun x hx => by
      unfold Db.weight
      rw [Db.set_row_ne _ _ hx]
  rw [weight_none (Db.set_row_self _ _ _), weight_payment hp'] at hone
  rw [sumPayments_eq] at hwithout ⊢
  omega

/-- What may count is open or credited. -/
theorem mayCount_eq (p : PaymentRow) : mayCount p = (isOpen p || isCredited p) ∧ (isOpen p && isCredited p) = false := by
  unfold isOpen
  rcases hc : isCredited p with _ | _
  · simp
  · refine ⟨?_, by simp⟩
    unfold isCredited at hc
    simp only [Bool.and_eq_true, decide_eq_true_eq] at hc
    simp [mayCount, hc.1, hc.2]

theorem payerSum_split (db : Database) (event : ℕ) (payer : Payer) (f : PaymentRow → ℕ) :
    payerSum db event payer mayCount f = payerSum db event payer isOpen f + payerSum db event payer isCredited f := by
  unfold payerSum
  rw [sumPayments_eq, sumPayments_eq, sumPayments_eq]
  refine Db.total_add fun x => ?_
  by_cases hx : ∃ reference, x = .payment reference
  swap
  · rw [weight_other fun r h => hx ⟨r, h⟩, weight_other fun r h => hx ⟨r, h⟩, weight_other fun r h => hx ⟨r, h⟩]
  obtain ⟨reference, rfl⟩ := hx
  rcases hp : db.row (.payment reference) with _ | p
  · rw [weight_none hp, weight_none hp, weight_none hp]
  rw [weight_payment hp, weight_payment hp, weight_payment hp]
  obtain ⟨heq, hdisj⟩ := mayCount_eq p
  rw [heq]
  rcases hm : payer.made event p with _ | _
  · simp
  · rcases ho : isOpen p with _ | _
    · simp
    · rw [ho, Bool.true_and] at hdisj
      simp [hdisj]

end Sums

/-! ### What the quote looks at -/

section Quotes

variable {E : Env} {db : Database}

/-- `str.lower` of a stripped text is stripped and in lower case. -/
structure Lowers (E : Env) : Prop where
  empty : E.lower "" = ""
  again : ∀ s, E.lower (E.strip (E.lower (E.strip s))) = E.lower (E.strip s)

theorem limit_fits {m : Option ℕ} {n : ℕ} {texts : ℕ → String}
    (h : ((limit m).filter fun m => m < n).toList.map texts = []) : ∀ k, limit m = some k → n ≤ k := by
  intro k hk
  rw [hk] at h
  by_contra hlt
  rw [Option.filter_some, if_pos (by simpa using hlt)] at h
  cases h

/-- The indexes of the payer, as the quote looks for them. -/
def emailIndexOf (E : Env) (o : Order) : String := if o.email = "" then "" else E.blindIndex o.email "email"

def phoneIndexOf (E : Env) (o : Order) : String := if o.phone = "" then "" else E.blindIndex (normalizePhone E o.phone) "phone"

/-- **A quote without errors fits**: with what the payer is credited already, the
purchase is within the limits. -/
theorem quote_fits {event : ℕ} {ev : EventRow} {c : Choice} {o : Order} {now : Time}
    (h : (quote E db event ev c o now).errors = []) (hpayer : ¬ (emailIndexOf E o = "" ∧ phoneIndexOf E o = "")) :
    (∀ m, limit ev.maxVotesPerVoter = some m →
      sumPayments db (isPrior event (emailIndexOf E o) (phoneIndexOf E o)) (·.totalVotes) +
        (quote E db event ev c o now).totalVotes ≤ m) ∧
    ∀ m, limit ev.maxSpendPerVoter = some m →
      sumPayments db (isPrior event (emailIndexOf E o) (phoneIndexOf E o)) (·.amountMinor) +
        (quote E db event ev c o now).amount ≤ m := by
  unfold quote at h ⊢
  by_cases hmode : ev.votingMode ≠ .PAY_TO_VOTE
  · rw [if_pos hmode] at h
    cases h
  rw [if_neg hmode] at h ⊢
  by_cases hevent : c.row.event ≠ event
  · rw [if_pos hevent] at h
    cases h
  rw [if_neg hevent] at h ⊢
  have hlimits : ∀ q : Quote, ∀ es : List String, es ++ overLimits ev c q
      (priorOf db event c q (emailIndexOf E o) (phoneIndexOf E o)) = [] →
      (∀ m, limit ev.maxVotesPerVoter = some m →
        sumPayments db (isPrior event (emailIndexOf E o) (phoneIndexOf E o)) (·.totalVotes) + q.totalVotes ≤ m) ∧
      ∀ m, limit ev.maxSpendPerVoter = some m →
        sumPayments db (isPrior event (emailIndexOf E o) (phoneIndexOf E o)) (·.amountMinor) + q.amount ≤ m := by
    intro q es hes
    unfold overLimits at hes
    simp only [List.append_eq_nil_iff] at hes
    obtain ⟨-, ⟨⟨⟨hvotes, -⟩, -⟩, hspend⟩, -⟩ := hes
    exact ⟨limit_fits hvotes, limit_fits hspend⟩
  unfold emailIndexOf phoneIndexOf at hpayer hlimits
  rcases hpackage : o.package with _ | ⟨pk, g⟩
  · rw [hpackage] at h
    dsimp only at h ⊢
    rw [if_neg hpayer] at h ⊢
    exact hlimits _ _ h
  rw [hpackage] at h
  dsimp only at h ⊢
  by_cases havailable : g.event ≠ event ∨ (!g.isAvailable now) = true
  · rw [if_pos havailable] at h
    simp at h
  rw [if_neg havailable] at h ⊢
  dsimp only at h ⊢
  rw [if_neg hpayer] at h ⊢
  exact hlimits _ _ h

/-- The quote looks for the payer of the payment it is made for. -/
theorem emailIndexOf_row (hE : Lowers E) (p : PaymentRow) (email phone : String) (votes : Json)
    (package : Option (ℕ × VotePackageRow)) (code : String)
    (h : (setPayer E p email phone).payerEmailIndex ≠ "") :
    emailIndexOf E ⟨votes, package, code, email, phone⟩ = (setPayer E p email phone).payerEmailIndex := by
  have hrow : (setPayer E p email phone).payerEmailIndex =
      if E.lower (E.strip email) = "" then "" else E.blindIndex (E.lower (E.strip email)) "email" := rfl
  rw [hrow] at h ⊢
  have hlower : E.lower (E.strip email) ≠ "" := fun h' => h (if_pos h')
  have hstrip : E.strip email ≠ "" := fun h' => hlower (by rw [h', hE.empty])
  have hemail : email ≠ "" := fun h' => hstrip (by rw [h']; rfl)
  unfold emailIndexOf
  rw [if_neg hemail, if_neg hlower]
  unfold Env.blindIndex at h ⊢
  rw [if_neg hlower] at h
  have hagain : E.strip (E.lower (E.strip email)) ≠ "" := fun h' => h (if_pos h')
  rw [if_neg hstrip, if_neg hagain, hE.again]

theorem phoneIndexOf_row (p : PaymentRow) (email phone : String) (votes : Json)
    (package : Option (ℕ × VotePackageRow)) (code : String)
    (h : (setPayer E p email phone).payerPhoneIndex ≠ "") :
    phoneIndexOf E ⟨votes, package, code, email, phone⟩ = (setPayer E p email phone).payerPhoneIndex := by
  have hrow : (setPayer E p email phone).payerPhoneIndex =
      if normalizePhone E phone = "" then "" else E.blindIndex (normalizePhone E phone) "phone" := rfl
  rw [hrow] at h ⊢
  have hnormal : normalizePhone E phone ≠ "" := fun h' => h (if_pos h')
  have hphone : phone ≠ "" := fun h' => hnormal (by rw [h']; rfl)
  unfold phoneIndexOf
  rw [if_neg hphone, if_neg hnormal]

/-- **A new payment fits** beside what its payer is credited. -/
theorem quote_covers (hE : Lowers E) {q : InitiateCall} {ev : EventRow} {c : Choice} {o : Order} {now : Time}
    {payer : Payer} (hemail : o.email = q.order.email) (hphone : o.phone = q.order.phone)
    (hquote : (quote E db q.event ev c o now).errors = [])
    (hmade : payer.made q.event (q.row E ev (quote E db q.event ev c o now)) = true) {cap : Cap} {m : ℕ}
    (hcap : cap.of ev = some m) : payerSum db q.event payer isCredited cap.column +
      cap.column (q.row E ev (quote E db q.event ev c o now)) ≤ m := by
  obtain ⟨votes, package, code, email, phone⟩ := o
  dsimp only at hemail hphone
  subst hemail hphone
  have hprior : ¬ (emailIndexOf E ⟨votes, package, code, q.order.email, q.order.phone⟩ = "" ∧
      phoneIndexOf E ⟨votes, package, code, q.order.email, q.order.phone⟩ = "") ∧
      ∀ p, payer.made q.event p = true → inPayerScope q.event
        (emailIndexOf E ⟨votes, package, code, q.order.email, q.order.phone⟩)
        (phoneIndexOf E ⟨votes, package, code, q.order.email, q.order.phone⟩) p = true := by
    rcases payer with index | index
    · simp only [Payer.made, Bool.and_eq_true, decide_eq_true_eq] at hmade
      obtain ⟨⟨-, hne⟩, hindex⟩ := hmade
      have hlooked := emailIndexOf_row hE _ _ _ votes package code (by rw [← hindex] at hne; exact hne)
      have hlooked : emailIndexOf E ⟨votes, package, code, q.order.email, q.order.phone⟩ = index := hlooked.trans hindex
      refine ⟨fun h => hne (hlooked ▸ h.1), fun p hp => ?_⟩
      simp only [Payer.made, Bool.and_eq_true, decide_eq_true_eq] at hp
      simp [inPayerScope, hlooked, hp]
    · simp only [Payer.made, Bool.and_eq_true, decide_eq_true_eq] at hmade
      obtain ⟨⟨-, hne⟩, hindex⟩ := hmade
      have hlooked := phoneIndexOf_row _ _ _ votes package code (by rw [← hindex] at hne; exact hne)
      have hlooked : phoneIndexOf E ⟨votes, package, code, q.order.email, q.order.phone⟩ = index := hlooked.trans hindex
      refine ⟨fun h => hne (hlooked ▸ h.2), fun p hp => ?_⟩
      simp only [Payer.made, Bool.and_eq_true, decide_eq_true_eq] at hp
      simp [inPayerScope, hlooked, hp]
  obtain ⟨hpayer, hscope⟩ := hprior
  have hle : ∀ f, payerSum db q.event payer isCredited f ≤ sumPayments db (isPrior q.event
      (emailIndexOf E ⟨votes, package, code, q.order.email, q.order.phone⟩)
      (phoneIndexOf E ⟨votes, package, code, q.order.email, q.order.phone⟩)) f := fun f =>
    sumPayments_le fun r p hp hc => by
      rw [Bool.and_eq_true] at hc
      have hcredited := hc.2
      simp only [isCredited, Bool.and_eq_true, decide_eq_true_eq] at hcredited
      exact ⟨p, hp, by simp [isPrior, hscope p hc.1, hcredited], le_rfl⟩
  obtain ⟨hvotes, hspend⟩ := quote_fits hquote hpayer
  rcases cap with _ | _
  · exact (Nat.add_le_add_right (hle _) _).trans (hvotes m hcap)
  · exact (Nat.add_le_add_right (hle _) _).trans (hspend m hcap)

end Quotes

/-! ### What a call does -/

/-- Nothing but the holds is watched; the calls open no payments, unless they
are checkouts. -/
def watch (opening : Prop) : Watch := ⟨False, False, True, False, True, opening⟩

/-- The payments stay, and what did not count does not come to count. -/
structure Carries (opening : Prop) (db db' : Database) : Prop where
  events : ∀ e, db'.row (.event e) = db.row (.event e)
  kept : ∀ r p, db.row (.payment r) = some p → ∃ p', db'.row (.payment r) = some p' ∧ Lasting p p' ∧
    (mayCount p' = true → mayCount p = true)
  new : ∀ r p', db.row (.payment r) = none → db'.row (.payment r) = some p' → opening

theorem Carries.refl {opening : Prop} (db : Database) : Carries opening db db :=
  ⟨fun _ => rfl, fun _ p hp => ⟨p, hp, .refl p, fun h => h⟩, fun _ _ h h' => by rw [h] at h'; cases h'⟩

theorem Carries.trans {opening : Prop} {db db' db'' : Database} (h : Carries opening db db')
    (h' : Carries opening db' db'') : Carries opening db db'' := by
  refine ⟨fun e => (h'.events e).trans (h.events e), fun r p hp => ?_, fun r p'' hp hp'' => ?_⟩
  · obtain ⟨p', hp', hl, hc⟩ := h.kept r p hp
    obtain ⟨p'', hp'', hl', hc'⟩ := h'.kept r p' hp'
    exact ⟨p'', hp'', hl.trans hl', fun hm => hc (hc' hm)⟩
  · rcases hp' : db'.row (.payment r) with _ | p'
    · exact h'.new r p'' hp' hp''
    · exact h.new r p' hp hp'

/-- No payment comes back from a reversal or a refund. -/
theorem mayCount_moves {p p' : PaymentRow} (hmoves : Moves p p') (hpassed : Passed p' → Passed p)
    (h : mayCount p' = true) : mayCount p = true := by
  simp only [mayCount, Bool.and_eq_true, Bool.or_eq_true, Bool.not_eq_true', decide_eq_true_eq] at h ⊢
  obtain ⟨⟨hpass, hrev⟩, href⟩ := h
  refine ⟨⟨hpassed hpass, fun hs => ?_⟩, fun hs => ?_⟩
  · rcases hmoves with hm | hm
    · exact hrev (hm.trans hs)
    · rw [hs] at hm
      cases hm
  · rcases hmoves with hm | hm
    · exact href (hm.trans hs)
    · rw [hs] at hm
      cases hm

theorem carries_of_committed {opening : Prop} {own : List Key} {log : List Note} {db db' : Database}
    (h : Committed (watch opening) own log db db') : Carries opening db db' := by
  refine ⟨h.events, fun r p hp => ?_, fun r p' hp hp' => ?_⟩
  · have hstep := h.payments r
    rw [hp] at hstep
    rcases hp' : db'.row (.payment r) with _ | p'
    · rw [hp'] at hstep
      exact hstep.elim
    · rw [hp'] at hstep
      obtain ⟨hlasting, hmoves, hpassed⟩ := hstep
      exact ⟨p', rfl, hlasting, mayCount_moves (hmoves trivial) (hpassed trivial)⟩
  · have hstep := h.payments r
    rw [hp, hp'] at hstep
    exact hstep.1

/-- What keeps the spec carries the payments, when it runs alone. -/
theorem carries_of_rest {opening : Prop} {p : Program} (h : Rest (spec (watch opening)) p) (db : Database) :
    Carries opening db (p.after db) :=
  (Ok.exec spec_sound .refl (fun _ _ _ => .trans) (fun _ _ _ _ _ => carries_of_committed) p (h db [])
    ⟨fun h => h.elim, fun h => h.elim, fun h => by rcases h with h | h <;> exact h.elim⟩).2

/-- **A call that is no checkout** opens no payment. -/
theorem Call.carries {E : Env} {A : Adapters} (hbilled : Billed E A) (c : Call) (db : Database) :
    Carries (∃ q, c = .initiateVotePayment q) db (c.after E A db) := by
  have hhalt : ∀ {α : Type} {W : Watch} (r : α), Rest (spec W) ((fun _ : α => (.halt : Program)) r) := fun _ => Rest.halt
  rcases c with q | ⟨q, credit⟩ | ⟨q, answer⟩ | q | ⟨q, answer, now⟩
  · have hcheckout : ∃ q', Call.initiateVotePayment q = .initiateVotePayment q' := ⟨q, rfl⟩
    exact carries_of_rest (initiateVotePayment_rest hcheckout hhalt) db
  · exact carries_of_rest (dispatchWebhook_rest hbilled (webhookRefund_rest hhalt) hhalt) db
  · exact carries_of_rest (verifyAndApply_rest hbilled hhalt) db
  · exact carries_of_rest (reconcileListed_rest hbilled hhalt) db
  · exact carries_of_rest (expirePayment_rest hbilled hhalt) db

/-- What the gateway is asked about is recorded, and moves no further than to
PENDING or FAILED. -/
theorem askGateway_new {q : InitiateCall} {row : PaymentRow} {db : Database} {w : Writes Row} {log : List Note}
    (hrow : (db.apply w).row (.payment q.reference) = some row)
    (hother : ∀ r, r ≠ q.reference → (db.apply w).row (.payment r) = db.row (.payment r)) {r : String} {p' : PaymentRow}
    (hp : db.row (.payment r) = none)
    (hp' : ((askGateway q fun _ => .halt).exec db w log).db.row (.payment r) = some p') :
    r = q.reference ∧ Lasting row p' := by
  have hnew : ∀ db' : Database, db'.row (.payment r) = some p' → (∃ p, db'.row (.payment q.reference) = some p ∧
      Lasting row p) → (∀ r, r ≠ q.reference → db'.row (.payment r) = db.row (.payment r)) →
      r = q.reference ∧ Lasting row p' := by
    intro db' hp' ⟨p, hp₁, hlasting⟩ hother'
    by_cases hr : r = q.reference
    · subst hr
      obtain rfl := Option.some.inj (hp₁.symm.trans hp')
      exact ⟨rfl, hlasting⟩
    · rw [hother' r hr, hp] at hp'
      cases hp'
  have hset : ∀ (p : PaymentRow) r, r ≠ q.reference →
      ((db.apply w).apply [⟨.payment q.reference, some p⟩]).row (.payment r) = db.row (.payment r) := fun p r hr => by
    rw [Db.apply_cons, Db.apply_nil, Db.set_row_ne _ _ (by simpa using hr)]
    exact hother r hr
  unfold askGateway at hp'
  rcases hanswer : q.answer with e | page
  · rw [hanswer] at hp'
    dsimp only at hp'
    rw [Prog.exec_commit, Prog.exec_note, Prog.exec_update (by simpa using hrow) rfl] at hp'
    refine hnew _ hp' ⟨refusedPayment (q.now 1) row, ?_, ⟨rfl, rfl, rfl, rfl, rfl, rfl, rfl⟩⟩ (hset _)
    simp [Prog.exec]
  · rw [hanswer] at hp'
    dsimp only at hp'
    rw [Prog.exec_commit, Prog.exec_update (by simpa using hrow) rfl, Prog.exec_read] at hp'
    have hread : ((db.apply w).apply [⟨.payment q.reference, some (withCheckout page row)⟩]).row (.payment q.reference) =
        some (withCheckout page row) := by simp
    rw [hread] at hp'
    dsimp only at hp'
    have hsame : Lasting row (withCheckout page row) := ⟨rfl, rfl, rfl, rfl, rfl, rfl, rfl⟩
    have hmoved : Lasting row (transition (withCheckout page row) .PENDING (q.now 1)) :=
      hsame.trans ((Alike.refl _).transition _ _).lasting
    unfold saveTransition at hp'
    by_cases hc : changes (withCheckout page row) .PENDING = true
    · rw [if_pos hc] at hp'
      refine hnew _ hp' ⟨_, ?_, hmoved⟩ fun r hr => ?_
      · simp [Prog.exec]
      · have hne : Key.payment r ≠ .payment q.reference := by simpa using hr
        simp only [Prog.exec, Db.apply_cons, Db.apply_nil, Db.set_row_ne _ _ hne]
        exact hother r hr
    · rw [if_neg hc] at hp'
      exact hnew _ hp' ⟨_, hread, hsame⟩ (hset _)

/-- Under a key that was taken meanwhile no payment is recorded. -/
theorem keyTaken_row {q : InitiateCall} {db : Database} {r : String} (hp : db.row (.payment r) = none) (w : Writes Row)
    (log : List Note) : ((Prog.rollback (.read fun db : Database =>
      match db.row (.paymentKey q.idempotencyKey) with
      | some _ => (.halt : Program)
      | none => .halt)).exec db w log).db.row (.payment r) = none := by
  rw [Prog.exec_rollback, Prog.exec_read, Db.apply_nil]
  rcases db.row (.paymentKey q.idempotencyKey) with _ | reference
  · exact hp
  · exact hp

/-- What is recorded is the payment of the quote, or nothing. -/
theorem recordPayment_new {q : InitiateCall} {row : PaymentRow} {db : Database} {log : List Note} {r : String}
    {p' : PaymentRow} (hp : db.row (.payment r) = none)
    (hp' : ((recordPayment q row fun _ => .halt).exec db [] log).db.row (.payment r) = some p') :
    r = q.reference ∧ Lasting row p' := by
  unfold recordPayment at hp'
  dsimp only at hp'
  rcases hfree : db.row (.payment q.reference) with _ | p
  swap
  · rw [Prog.exec_insertOr_taken (by simp [hfree])] at hp'
    exact absurd (hp'.symm.trans (keyTaken_row hp _ _)) (by simp)
  rw [Prog.exec_insertOr (by simpa using hfree)] at hp'
  by_cases hkeyless : q.idempotencyKey = ""
  · rw [if_pos hkeyless] at hp'
    exact askGateway_new (by simp) (fun r hr => by simp [hr]) hp hp'
  rw [if_neg hkeyless] at hp'
  rcases hkey : db.row (.paymentKey q.idempotencyKey) with _ | reference
  · rw [Prog.exec_insertOr (by simpa using hkey)] at hp'
    exact askGateway_new (by simp) (fun r hr => by simp [hr]) hp hp'
  · rw [Prog.exec_insertOr_taken (by simp [hkey])] at hp'
    exact absurd (hp'.symm.trans (keyTaken_row hp _ _)) (by simp)

/-- **A checkout** opens no other payment than the one of its quote. -/
theorem initiate_new {E : Env} (q : InitiateCall) (db : Database) {r : String} {p' : PaymentRow}
    (hp : db.row (.payment r) = none)
    (hp' : ((initiateVotePayment E q fun _ => .halt).after db).row (.payment r) = some p') :
    r = q.reference ∧ ∃ ev c o, db.row (.event q.event) = some ev ∧ o.email = q.order.email ∧ o.phone = q.order.phone ∧
      (quote E db q.event ev c o (q.now 0)).errors = [] ∧
      Lasting (q.row E ev (quote E db q.event ev c o (q.now 0))) p' := by
  have hnone : ∀ log, ((Prog.halt : Program).exec db [] log).db.row (.payment r) ≠ some p' := fun _ h => by
    have hsame : db.row (.payment r) = some p' := h
    rw [hp] at hsame
    cases hsame
  unfold Prog.after initiateVotePayment at hp'
  rw [Prog.exec_read, Db.apply_nil] at hp'
  rcases hev : db.row (.event q.event) with _ | ev
  · rw [hev] at hp'
    exact absurd hp' (hnone _)
  rw [hev] at hp'
  rcases hc : db.row (.candidate q.candidate) with _ | c
  · rw [hc] at hp'
    exact absurd hp' (hnone _)
  rw [hc] at hp'
  dsimp only at hp'
  by_cases hconf : (!q.configured) = true
  · rw [if_pos hconf] at hp'
    exact absurd hp' (hnone _)
  rw [if_neg hconf, Prog.exec_read, Db.apply_nil] at hp'
  rcases hkey : (if q.idempotencyKey = "" then none else db.row (.paymentKey q.idempotencyKey)) with _ | reference
  swap
  · rw [hkey] at hp'
    dsimp only at hp'
    rcases hfound : db.row (.payment reference) with _ | p
    · rw [hfound] at hp'
      exact absurd hp' (hnone _)
    · rw [hfound] at hp'
      dsimp only at hp'
      split_ifs at hp'
      · exact absurd hp' (hnone _)
      · exact absurd hp' (hnone _)
  rw [hkey] at hp'
  dsimp only at hp'
  rw [Prog.exec_read, Db.apply_nil] at hp'
  rcases herrors : (quote E db q.event ev _ _ (q.now 0)).errors with _ | ⟨e, es⟩
  swap
  · rw [herrors] at hp'
    exact absurd hp' (hnone _)
  rw [herrors] at hp'
  dsimp only at hp'
  split_ifs at hp'
  · exact absurd hp' (hnone _)
  · exact absurd hp' (hnone _)
  obtain ⟨hr, hlasting⟩ := recordPayment_new hp hp'
  refine ⟨hr, ev, _, _, rfl, ?_, ?_, herrors, hlasting⟩
  · rfl
  · rfl

/-! ### Over a sequence of calls -/

section Sequence

variable {E : Env} {A : Adapters}

theorem made_lasting {p p' : PaymentRow} (h : Lasting p p') (event : ℕ) (payer : Payer) :
    payer.made event p' = payer.made event p := by
  rcases payer with index | index
  · simp only [Payer.made, h.event, h.email]
  · simp only [Payer.made, h.event, h.phone]

theorem made_event {event : ℕ} {payer : Payer} {p : PaymentRow} (h : payer.made event p = true) :
    p.event = some event := by
  rcases payer with index | index
  · simp only [Payer.made, Bool.and_eq_true, decide_eq_true_eq] at h
    exact h.1.1
  · simp only [Payer.made, Bool.and_eq_true, decide_eq_true_eq] at h
    exact h.1.1

theorem column_lasting {p p' : PaymentRow} (h : Lasting p p') (cap : Cap) : cap.column p' = cap.column p := by
  rcases cap with _ | _
  · simp only [Cap.column, PaymentRow.totalVotes, h.votes, h.bonus]
  · exact h.amount

/-- **One call** keeps what may count within the limits. -/
theorem Covered.after (hE : Lowers E) (hbilled : Billed E A) {db : Database} {c : Call} (hdb : Covered db)
    (hapart : Apart db (c.after E A db)) : Covered (c.after E A db) := by
  intro event ev payer cap m hev hcap
  have hcarries := c.carries hbilled db
  rw [hcarries.events] at hev
  have hbefore := hdb event ev payer cap m hev hcap
  have hkept : ∀ r q', db.row (.payment r) ≠ none → (c.after E A db).row (.payment r) = some q' →
      (payer.made event q' && mayCount q') = true → ∃ q, db.row (.payment r) = some q ∧
        (payer.made event q && mayCount q) = true ∧ cap.column q' ≤ cap.column q := by
    intro r q' hne hq' hc
    obtain ⟨q, hq⟩ := Option.ne_none_iff_exists'.mp hne
    obtain ⟨q'', hq'', hlasting, hcount⟩ := hcarries.kept r q hq
    obtain rfl := Option.some.inj (hq'.symm.trans hq'')
    rw [Bool.and_eq_true, made_lasting hlasting] at hc
    exact ⟨q, hq, by rw [hc.1, hcount hc.2]; rfl, (column_lasting hlasting cap).le⟩
  by_cases hnew : ∃ r p', db.row (.payment r) = none ∧ (c.after E A db).row (.payment r) = some p' ∧
      payer.made event p' = true
  swap
  · -- no new payment of the payer
    refine Nat.le_trans (sumPayments_le fun r q' hq' hc => ?_) hbefore
    refine hkept r q' (fun hnone => hnew ⟨r, q', hnone, hq', ?_⟩) hq' hc
    rw [Bool.and_eq_true] at hc
    exact hc.1
  obtain ⟨r, p', hp, hp', hmade⟩ := hnew
  obtain ⟨q, hq⟩ := hcarries.new r p' hp hp'
  subst hq
  obtain ⟨hr, ev', choice, o, hev', hemail, hphone, hquote, hlasting⟩ := initiate_new q db hp hp'
  subst hr
  rw [made_lasting hlasting] at hmade
  have hsame : q.event = event := Option.some.inj (made_event hmade)
  subst hsame
  obtain rfl := Option.some.inj (hev.symm.trans hev')
  have hcovers := quote_covers hE hemail hphone hquote hmade hcap
  have hsum : payerSum (Call.after E A (.initiateVotePayment q) db) q.event payer mayCount cap.column ≤
      payerSum db q.event payer mayCount cap.column + cap.column p' := by
    have hone : payerSum (Call.after E A (.initiateVotePayment q) db) q.event payer mayCount cap.column ≤
        payerSum db q.event payer mayCount cap.column + if payer.made q.event p' && mayCount p' then cap.column p' else 0 :=
      sumPayments_new hp' fun r q' hr hq' hc => hkept r q' (fun hnone => hr (initiate_new q db hnone hq').1) hq' hc
    refine Nat.le_trans hone (Nat.add_le_add_left ?_ _)
    split_ifs
    · exact le_rfl
    · exact Nat.zero_le _
  rw [← made_lasting hlasting] at hmade
  rcases hapart q.reference p' q.event ev payer cap m hp hp' hmade hev hcap with hzero | hfits
  · have hsplit := payerSum_split db q.event payer cap.column
    have hsame := column_lasting hlasting cap
    omega
  · exact hsum.trans hfits

/-- **The limits per voter hold** after any sequence of checkouts and reports in
which a payer's payments keep apart. -/
theorem within_caps (hE : Lowers E) (hbilled : Billed E A) : ∀ (cs : List Call) {db : Database}, Covered db →
    AllApart E A db cs → Within (execAll db (cs.map (Call.prog E A)))
  | [], db, hdb, _ => fun event ev payer cap m hev hcap => by
    have hsplit := payerSum_split db event payer cap.column
    have hcovered := hdb event ev payer cap m hev hcap
    rw [List.map_nil, execAll_nil]
    omega
  | c :: cs, db, hdb, hcs => within_caps hE hbilled cs (hdb.after hE hbilled hcs.1) hcs.2

end Sequence

/-! ### Three purchases at once -/

/-- An open election in which a voter may buy four votes, with one candidate. -/
def limited : Database :=
  (Db.empty.set (.event 1) (some { startDate := 0, endDate := 10, status := .OPEN, maxVotesPerVoter := some 4 })).set
    (.candidate 7) (some { category := none, event := 1, name := "Ama" })

/-- A purchase of two votes that the gateway takes. -/
def buy (reference : String) : Call := .initiateVotePayment (purchase reference (.ok ("page", "code")))

/-- The gateway's report that it is paid, with the ledger row `pk`. -/
def pay (reference : String) (pk : ℕ) : Call := .webhook (paid reference) ⟨pk, 2⟩

theorem limited_covered : Covered limited := fun _ _ _ _ _ _ _ => Nat.zero_le _

theorem plain_lowers : Lowers .plain := ⟨rfl, fun s => Env.strip_strip _ s⟩

/-- Six votes are credited where four are allowed. -/
theorem not_within_caps :
    ¬ ∀ (E : Env) (A : Adapters) (cs : List Call) (db : Database), Lowers E → Billed E A → Covered db →
      Within (execAll db (cs.map (Call.prog E A))) := by
  intro h
  have hend : ∀ db', db' = execAll limited (([buy "a", buy "b", buy "c", pay "a" 1, pay "b" 2, pay "c" 3]).map
      (Call.prog .plain shopAdapters)) → (db'.row (.event 1)).map (fun ev => Cap.of ev .votes) = some (some 4) ∧
      payerSum db' 1 (.email "email:ama@x") isCredited (Cap.column .votes) = 6 := by
    rintro _ rfl
    decide +kernel
  obtain ⟨hcap, hsum⟩ := hend _ rfl
  obtain ⟨ev, hev, hcap⟩ := Option.map_eq_some_iff.mp hcap
  have hle := h .plain shopAdapters _ limited plain_lowers shopAdapters_billed limited_covered 1 ev
    (.email "email:ama@x") .votes 4 hev hcap
  omega

/-- Nothing of a new payment's payer is open, to be computed. -/
def apart (db db' : Database) : Bool :=
  db'.keys.all fun
    | .payment reference =>
      match db.row (.payment reference), db'.row (.payment reference) with
      | none, some p => p.event.all fun event =>
          [Payer.email p.payerEmailIndex, Payer.phone p.payerPhoneIndex].all fun payer =>
            [Cap.votes, Cap.spend].all fun cap => payerSum db event payer isOpen cap.column = 0
      | _, _ => true
    | _ => true

theorem apart_sound {db db' : Database} (h : apart db db' = true) : Apart db db' := by
  intro reference p event ev payer cap m hp hp' hmade _ _
  have hrow := List.all_eq_true.mp h _ (db'.cover (.payment reference) (by rw [hp']; rfl))
  simp only [hp, hp', made_event hmade, Option.all_some, List.all_cons, List.all_nil, Bool.and_true, Bool.and_eq_true,
    decide_eq_true_eq] at hrow
  obtain ⟨⟨hvotes, hspend⟩, hvotes', hspend'⟩ := hrow
  refine Or.inl ?_
  rcases payer with index | index
  · simp only [Payer.made, Bool.and_eq_true, decide_eq_true_eq] at hmade
    obtain ⟨-, rfl⟩ := hmade
    rcases cap with _ | _
    · exact hvotes
    · exact hspend
  · simp only [Payer.made, Bool.and_eq_true, decide_eq_true_eq] at hmade
    obtain ⟨-, rfl⟩ := hmade
    rcases cap with _ | _
    · exact hvotes'
    · exact hspend'

/-- One purchase after the other, and a third that is turned down. -/
def inTurn : List Call := [buy "a", pay "a" 1, buy "b", pay "b" 2, buy "c"]

theorem inTurn_apart : AllApart .plain shopAdapters limited inTurn := by
  refine ⟨apart_sound ?_, apart_sound ?_, apart_sound ?_, apart_sound ?_, apart_sound ?_, trivial⟩
  all_goals decide +kernel

theorem within_caps_inTurn :
    payerSum (execAll limited (inTurn.map (Call.prog .plain shopAdapters))) 1 (.email "email:ama@x") isCredited
        (Cap.column .votes) = 4 ∧
      Within (execAll limited (inTurn.map (Call.prog .plain shopAdapters))) :=
  ⟨by decide +kernel, within_caps plain_lowers shopAdapters_billed inTurn limited_covered inTurn_apart⟩

end Caps
end FlexyVotes
