/-
# The gateway's reports, in any order

`applyGatewayResult` is to come to the same books in whatever order, and
however often, the reports of one payment arrive. What a report does alone is
a step of `Books`, the part of the tables the claim is about
(`Reads.report`); the steps are `Steady` unless a reversal can
come before the success it reverses.

Key definitions: `Books`, `Books.step`, `Reads`, `OrderIndependent`.
Key theorems: `applyGatewayResult_after`, `Reads.report`, `order_independent`.
-/
import FlexyVotes.Payments.Service
import FlexyVotes.Payments.Credit
import FlexyVotes.Lib.Serial
import FlexyVotes.Lib.Confluence

namespace FlexyVotes
namespace Reports

open Transactions Payments Credit Confluence

/-! ### A report alone -/

section Alone

variable {E : Env} {A : Adapters} {q : GatewayCall} {c : CreditCall} {reference : String} {p : PaymentRow}
  {db : Database} {w : Writes Row} {rest : Program}

/-- What is left commits what was written. -/
def Commits (rest : Program) (db : Database) : Prop := ∀ w, (rest.exec db w []).db = db.apply w

theorem redeem_exec (p : PaymentRow) (db : Database) (w : Writes Row) (rest : Program) : ∃ w', (match p.discount with
      | some d => .update (.discountCode d) (fun _ => true) redeem fun _ => rest
      | none => rest : Program).exec db w [] = rest.exec db w' [] ∧
    ∀ x, (∀ d, x ≠ .discountCode d) → (db.apply w').row x = (db.apply w).row x := by
  rcases p.discount with _ | d
  · exact ⟨w, rfl, fun _ _ => rfl⟩
  · rcases hr : (db.apply w).row (.discountCode d) with _ | r
    · exact ⟨w, Prog.exec_update_none (by simp [hr]), fun _ _ => rfl⟩
    · refine ⟨_, Prog.exec_update hr rfl, fun x hx => ?_⟩
      rw [Db.apply_cons, Db.set_row_ne _ _ (hx d)]

theorem markCredited_exec {candidate : ℕ} (hend : Commits rest db) (hc : creditable p = true)
    (hcand : p.candidate = some candidate) (hfree : ¬ Taken c reference (db.apply w)) :
    Credited c reference p (db.apply w)
      ((markCredited id c reference p rest).exec db (ledgerWrites c reference p candidate w) []).db := by
  have hview : (db.apply (ledgerWrites c reference p candidate w)).row (.payment reference) =
      (db.apply w).row (.payment reference) := by simp [ledgerWrites]
  have hmark : ∃ w', (markCredited id c reference p rest).exec db (ledgerWrites c reference p candidate w) [] =
      rest.exec db w' [] ∧
      (db.apply w').row (.payment reference) = ((db.apply w).row (.payment reference)).map (credited · c.now) ∧
      ∀ x, x ≠ .payment reference → (∀ d, x ≠ .discountCode d) →
        (db.apply w').row x = (db.apply (ledgerWrites c reference p candidate w)).row x := by
    unfold markCredited
    rcases hr : (db.apply w).row (.payment reference) with _ | r
    · rw [Prog.exec_update_none (by simp [hview, hr])]
      obtain ⟨w', hw', hrows⟩ := redeem_exec p db (ledgerWrites c reference p candidate w) rest
      exact ⟨w', hw', by rw [hrows _ (by simp), hview, hr]; rfl, fun x _ hd => hrows x hd⟩
    · rw [Prog.exec_update (hview.trans hr) rfl]
      obtain ⟨w', hw', hrows⟩ := redeem_exec p db
        (⟨.payment reference, some (credited r c.now)⟩ :: ledgerWrites c reference p candidate w) rest
      refine ⟨w', hw', by rw [hrows _ (by simp)]; simp, fun x hx hd => ?_⟩
      rw [hrows x hd, Db.apply_cons, Db.set_row_ne _ _ hx]
  obtain ⟨w', hw', hpay, hrows⟩ := hmark
  rw [hw', hend w']
  exact .of_writes hc hcand hfree hpay hrows

/-- Crediting alone writes the ledger row exactly if nothing is in the way. -/
theorem creditVotes_exec (hend : Commits rest db) :
    (creditable p = true → p.candidate ≠ none → ¬ Taken c reference (db.apply w) →
      Credited c reference p (db.apply w) ((creditVotes c reference p rest).exec db w []).db) ∧
    (¬ (creditable p = true ∧ p.candidate ≠ none ∧ ¬ Taken c reference (db.apply w)) →
      ∀ x, ((creditVotes c reference p rest).exec db w []).db.row x = (db.apply w).row x) := by
  unfold creditVotes
  by_cases hc : creditable p = true
  swap
  · rw [if_neg hc, hend w]
    exact ⟨fun h => absurd h hc, fun _ _ => rfl⟩
  rw [if_pos hc]
  rcases hcand : p.candidate with _ | candidate
  · exact ⟨fun _ h => absurd rfl h, fun _ x => by rw [hend w]⟩
  dsimp only
  by_cases hpaid : (db.apply w).row (.paid reference) = none
  swap
  · rw [Prog.exec_insertOr_taken hpaid, hend w]
    exact ⟨fun _ _ h => absurd (Or.inl hpaid) h, fun _ _ => rfl⟩
  rw [Prog.exec_insertOr hpaid]
  by_cases hledger : (db.apply w).row (.ledger reference) = none
  swap
  · refine ⟨fun _ _ h => absurd (Or.inr (Or.inl hledger)) h, fun _ x => ?_⟩
    rw [Prog.exec_insertOr_taken (by simpa using hledger)]
    show (rest.exec db _ []).db.row x = _
    rw [hend]
    by_cases hx : x = .paid reference
    · subst hx
      simp [hpaid]
    · simp [Db.set_row_ne _ _ hx]
  rw [Prog.exec_insertOr (by simpa using hledger)]
  by_cases hrow : (db.apply w).row (.voteTransaction c.ledgerId) = none
  swap
  · refine ⟨fun _ _ h => absurd (Or.inr (Or.inr hrow)) h, fun _ x => ?_⟩
    rw [Prog.exec_insertOr_taken (by simpa using hrow)]
    show (rest.exec db _ []).db.row x = _
    rw [hend]
    by_cases hx : x = .paid reference
    · subst hx
      simp [hpaid]
    · by_cases hx' : x = .ledger reference
      · subst hx'
        simp [hledger]
      · simp [Db.set_row_ne _ _ hx, Db.set_row_ne _ _ hx']
  rw [Prog.exec_insertOr (by simpa using hrow)]
  have hfree : ¬ Taken c reference (db.apply w) := by
    rintro (h | h | h)
    · exact h hpaid
    · exact h hledger
    · exact h hrow
  refine ⟨fun _ _ _ => markCredited_exec hend hc hcand hfree, fun h => absurd ⟨hc, by simp, hfree⟩ h⟩

/-- What holds after the rest, for any writes that save the payment, holds. -/
theorem saveTransition_exec {target : PaymentStatus} {now : Time} {Q : Outcome Row Note → Prop}
    (hw : Saves reference p w db)
    (hrest : ∀ w', Saves reference (transition p target now) w' db → Q (rest.exec db w' [])) :
    Q ((saveTransition reference p target now rest).exec db w []) := by
  unfold saveTransition
  by_cases hc : changes p target = true
  · rw [if_pos hc]
    exact hrest _ hw.put
  · rw [if_neg hc]
    have hsame : transition p target now = p := if_neg hc
    exact hrest w (hsame.symm ▸ hw)

theorem commits_report (d : Decision) : Commits (.commit (afterReport reference d fun _ => .halt)) db := fun w => by
  unfold afterReport
  rcases d.report with _ | ⟨amount, currency⟩
  · rfl
  · rfl

/-- What a report alone makes of the database. -/
abbrev MadeAlone (c : CreditCall) (reference : String) (d : Decision) (db db' : Database) : Prop :=
  Made c reference d (Taken c reference (saved db reference d.payment)) True (saved db reference d.payment) db'

theorem Taken.congr {v v' : Database} (hrows : ∀ x, v.row x = v'.row x) (h : Taken c reference v) :
    Taken c reference v' := by
  unfold Taken at h ⊢
  rwa [← hrows, ← hrows, ← hrows]

theorem saves_exec {d : Decision} (heffect : d.effect = .nothing) (hw : Saves reference d.payment w db) :
    MadeAlone c reference d db
      ((Prog.commit (afterReport reference d fun _ => .halt) : Program).exec db w []).db := by
  rw [commits_report]
  exact .nothing heffect (hw db rfl)

theorem fulfil_exec {d : Decision} {matching : Bool} (hvote : d.payment.purpose = .VOTE)
    (heffect : d.effect = if d.payment.held then .nothing else .credit)
    (hw : Saves q.reference d.payment w db) : MadeAlone q.credit q.reference d db
      ((fulfil A q d.payment matching (.commit (afterReport q.reference d fun _ => .halt))).exec db w []).db := by
  unfold fulfil
  by_cases hheld : d.payment.held = true
  · have hnot : ¬ (d.payment.purpose = .VOTE ∧ d.payment.held = false) := by simp [hheld]
    rw [if_neg hnot, hvote]
    rw [if_pos hheld] at heffect
    exact saves_exec heffect hw
  · have hfree : d.payment.held = false := by simpa using hheld
    rw [if_pos ⟨hvote, hfree⟩]
    rw [if_neg hheld] at heffect
    have hview := hw db rfl
    have hend : Commits (.commit (afterReport q.reference d fun _ => .halt)) db := commits_report d
    obtain ⟨hcredit, hskip⟩ := creditVotes_exec (c := q.credit) (p := d.payment) (w := w) hend
    by_cases hready : creditable d.payment = true ∧ d.payment.candidate ≠ none ∧
        ¬ Taken q.credit q.reference (db.apply w)
    · exact .credited heffect ((hcredit hready.1 hready.2.1 hready.2.2).congr hview)
    · refine .skipped heffect (fun x => (hskip hready x).trans (hview x)) fun hc hne => ?_
      by_contra htaken
      exact hready ⟨hc, hne, fun h => htaken (Taken.congr hview h)⟩

/-- A report that only moves the payment. -/
theorem settle_exec {p₀ : PaymentRow} {target : PaymentStatus} {now : Time} {v : Database}
    (hd : decideReport E A q (A.assess v) p₀ = .ok ⟨transition p target now, .nothing, none⟩)
    (hw : Saves q.reference p w db) : ∃ v d, decideReport E A q (A.assess v) p₀ = .ok d ∧
      MadeAlone q.credit q.reference d db
        ((saveTransition q.reference p target now (.commit .halt)).exec db w []).db := by
  refine saveTransition_exec (Q := fun o => ∃ v d, decideReport E A q (A.assess v) p₀ = .ok d ∧
    MadeAlone q.credit q.reference d db o.db) hw fun w' hw' => ?_
  exact ⟨v, _, hd, .nothing rfl (hw' db rfl)⟩

theorem reverse_exec {p₀ : PaymentRow} {v : Database}
    (hd : decideReport E A q (A.assess v) p₀ = .ok ⟨p, .reverse, none⟩) (hw : Saves q.reference p w db) :
    ∃ v d, decideReport E A q (A.assess v) p₀ = .ok d ∧
      MadeAlone q.credit q.reference d db ((reverseVotes q.reference (.commit .halt)).exec db w []).db := by
  obtain ⟨u, hexec, hrows⟩ : ∃ u : Writes Row,
      (reverseVotes q.reference (.commit .halt)).exec db w [] = (Prog.commit .halt : Program).exec db u [] ∧ _ :=
    Prog.exec_updateWhere
  rw [hexec]
  have hrows' : ∀ x, (db.apply u).row x =
      ((saved db q.reference p).row x).map (updated (countedOf q.reference) reverse x) := fun x => by
    rw [hrows x, hw db rfl x]
  exact ⟨v, _, hd, .reversed rfl (fun x => Or.inr (hrows' x)) fun _ => hrows'⟩

theorem confirm_exec {p₀ : PaymentRow} (hvote : p.purpose = .VOTE) (hp : db.row (.payment q.reference) = some p₀)
    (hread : ∃ a, amountsOf E q.data p = .ok a)
    (hd : ∀ v, decideReport E A q (A.assess v) p₀ = decideSuccess E q (A.assess v) p) :
    ∃ v d, decideReport E A q (A.assess v) p₀ = .ok d ∧
      MadeAlone q.credit q.reference d db ((confirm E A q p fun _ => .halt).exec db [] []).db := by
  obtain ⟨⟨amount, currency⟩, hm⟩ := hread
  unfold confirm
  rw [hm]
  have hw₁ : Saves q.reference p [⟨.payment q.reference, some p⟩] db := (Saves.nil hp).put
  have hvote₂ : (transition p .SUCCESS (q.now 1)).purpose = .VOTE := by rw [transition_purpose, hvote]
  refine saveTransition_exec (Q := fun o => ∃ v d, decideReport E A q (A.assess v) p₀ = .ok d ∧
    MadeAlone q.credit q.reference d db o.db) hw₁ fun w₂ hw₂ => ?_
  dsimp only
  by_cases hs : (transition p .SUCCESS (q.now 1)).status ≠ .SUCCESS
  · rw [if_pos hs]
    exact ⟨db, _, (hd db).trans (decideSuccess_stays hm hs), saves_exec rfl hw₂⟩
  rw [if_neg hs]
  have hs' : Succeeds q p := not_not.mp hs
  rcases hmatch : amountsMatch E p amount currency with _ | _
  · -- the amount or the currency is another
    rw [if_pos (show (!false) = true from rfl)]
    exact ⟨db, _, (hd db).trans (decideSuccess_mismatched hm hs' hmatch), fulfil_exec hvote₂ rfl hw₂.put⟩
  rw [if_neg (by simp)]
  have hd' := fun v => (hd v).trans (decideSuccess_matching hm hs' hmatch)
  unfold looked at hd'
  by_cases ha : toAssess (transition p .SUCCESS (q.now 1)) = true
  · rw [if_pos ha]
    simp only [if_pos ha] at hd'
    exact ⟨db.apply w₂, _, hd' _, fulfil_exec hvote₂ rfl hw₂.put⟩
  · rw [if_neg ha]
    simp only [if_neg ha] at hd'
    exact ⟨db, _, hd' db, fulfil_exec hvote₂ rfl hw₂⟩

/-- **A report alone** does what `decideReport` comes to. -/
theorem applyGatewayResult_after (hvote : p.purpose = .VOTE) (hp : db.row (.payment q.reference) = some p)
    (hread : ∀ v, ∃ d, decideReport E A q (A.assess v) p = .ok d) :
    ∃ v d, decideReport E A q (A.assess v) p = .ok d ∧ MadeAlone q.credit q.reference d db
      ((applyGatewayResult E A q fun _ => .halt).after db) := by
  have hview : (db.apply []).row (.payment q.reference) = some p := hp
  unfold Prog.after applyGatewayResult
  rw [Prog.exec_lockRow hview]
  dsimp only
  rcases hs : gatewayStatus E q.data with e | status
  · obtain ⟨d, hd⟩ := hread db
    unfold decideReport at hd
    rw [hs] at hd
    cases hd
  dsimp only
  by_cases hsucc : status = "success"
  · subst hsucc
    rw [if_pos rfl]
    obtain ⟨d, hd⟩ := hread db
    rcases hcols : A.details q.data p with e | columns
    · unfold decideReport at hd
      rw [hs] at hd
      simp [hcols] at hd
    rw [decide_success hs hcols] at hd
    refine confirm_exec hvote hp ?_ fun v => decide_success hs hcols
    rcases ha : amountsOf E q.data (reported p "success" columns (q.now 0)) with e | a
    · unfold decideSuccess at hd
      rw [ha] at hd
      cases hd
    · exact ⟨a, rfl⟩
  rw [if_neg hsucc]
  by_cases hfail : status = "failed"
  · subst hfail
    rw [if_pos rfl]
    exact settle_exec (v := db) (decide_failed hs) (.nil hp)
  rw [if_neg hfail]
  by_cases haban : status = "abandoned"
  · subst haban
    rw [if_pos rfl]
    exact settle_exec (v := db) (decide_abandoned hs) (.nil hp)
  rw [if_neg haban]
  by_cases hrev : status = "reversed"
  · subst hrev
    rw [if_pos rfl]
    refine saveTransition_exec (Q := fun o => ∃ v d, decideReport E A q (A.assess v) p = .ok d ∧
      MadeAlone q.credit q.reference d db o.db) (.nil hp) fun w' hw' => ?_
    have hd : decideReport E A q (A.assess db) p = _ := decide_reversed hs
    by_cases hc : changes p .REVERSED = true
    · rw [if_pos hc] at hd ⊢
      exact reverse_exec hd hw'
    · have hsame : transition p .REVERSED (q.now 0) = p := if_neg hc
      rw [if_neg hc, hsame] at hd
      rw [if_neg hc]
      rw [hsame] at hw'
      exact ⟨db, _, hd, .nothing rfl (hw' db rfl)⟩
  · rw [if_neg hrev]
    exact settle_exec (v := db) (decide_pending hs hsucc hfail haban hrev) (Saves.nil hp).put

end Alone

/-! ### The books of a payment -/

/-- The reports the claim is about. -/
inductive Kind
  | success | failed | abandoned | reversed
  deriving DecidableEq

/-- What a payment is credited with: its ledger row, with the row's votes. -/
structure Account where
  held : Bool
  votesCredited : Bool
  ledger : Option (LedgerStatus × ℕ)
  deriving DecidableEq

/-- The books of a payment. -/
structure Books where
  status : PaymentStatus
  account : Account
  deriving DecidableEq

/-- The status after `transition`. -/
def moved (s target : PaymentStatus) : PaymentStatus := if target ∈ ALLOWED_TRANSITIONS s then target else s

/-- The votes counted. -/
def Account.counted (a : Account) : ℕ :=
  match a.ledger with
  | some (.SUCCESS, n) => n
  | _ => 0

/-- A successful payment is assessed and credited: `risk` tells that the risk
engine holds it, `votes` what its candidate gets. -/
def Account.credit (risk : Bool) (votes : Option ℕ) (a : Account) : Account :=
  if a.held || a.votesCredited then a
  else if risk then { a with held := true }
  else
    match a.ledger, votes with
    | none, some n => { a with votesCredited := true, ledger := some (.SUCCESS, n) }
    | _, _ => a

/-- The account after the risk engine has looked at it. -/
def Account.look (risk : Bool) (a : Account) : Account := { a with held := a.held || (!a.votesCredited && risk) }

/-- A ledger row after `reverse_votes`. -/
def reversal (l : LedgerStatus × ℕ) : LedgerStatus × ℕ := if l.1 = .SUCCESS then (.REVERSED, l.2) else l

def Account.reverse (a : Account) : Account := { a with ledger := a.ledger.map reversal }

section Account

variable {risk : Bool} {votes : Option ℕ}

theorem Account.credit_held (a : Account) (h : (a.look risk).held = true) : a.credit risk votes = a.look risk := by
  obtain ⟨held, credited, ledger⟩ := a
  rcases held with _ | _ <;> rcases credited with _ | _ <;> rcases risk with _ | _ <;> first
    | rfl
    | cases h

theorem Account.credit_skip (a : Account) (h : (a.look risk).held = false)
    (hwhy : a.votesCredited = true ∨ a.ledger ≠ none ∨ votes = none) : a.credit risk votes = a.look risk := by
  obtain ⟨held, credited, ledger⟩ := a
  rcases held with _ | _
  · rcases credited with _ | _
    · rcases risk with _ | _
      · rcases ledger with _ | l
        · rcases votes with _ | n
          · rfl
          · simp at hwhy
        · rfl
      · cases h
    · rfl
  · cases h

theorem Account.credit_free (a : Account) (h : (a.look risk).held = false) (hc : a.votesCredited = false)
    (hl : a.ledger = none) {n : ℕ} : a.credit risk (some n) = ⟨false, true, some (.SUCCESS, n)⟩ := by
  obtain ⟨held, credited, ledger⟩ := a
  obtain rfl : credited = false := hc
  obtain rfl : ledger = none := hl
  rcases held with _ | _ <;> rcases risk with _ | _ <;> first
    | rfl
    | cases h

end Account

namespace Books

/-- A report. -/
def step (risk : Bool) (votes : Option ℕ) (b : Books) : Kind → Books
  | .success => if moved b.status .SUCCESS = .SUCCESS then ⟨.SUCCESS, b.account.credit risk votes⟩ else b
  | .failed => ⟨moved b.status .FAILED, b.account⟩
  | .abandoned => ⟨moved b.status .ABANDONED, b.account⟩
  | .reversed => if .REVERSED ∈ ALLOWED_TRANSITIONS b.status then ⟨.REVERSED, b.account.reverse⟩ else b

/-- Before its first success report. -/
def Early (b : Books) : Prop :=
  .SUCCESS ∈ ALLOWED_TRANSITIONS b.status ∧ .REVERSED ∉ ALLOWED_TRANSITIONS b.status

variable {risk : Bool} {votes : Option ℕ}

theorem step_success (b : Books) : b.step risk votes .success =
    if moved b.status .SUCCESS = .SUCCESS then ⟨.SUCCESS, b.account.credit risk votes⟩ else b := rfl

theorem step_reversed (b : Books) : b.step risk votes .reversed =
    if .REVERSED ∈ ALLOWED_TRANSITIONS b.status then ⟨.REVERSED, b.account.reverse⟩ else b := rfl

theorem Early.status {b : Books} (h : b.Early) :
    b.status = .INITIALIZED ∨ b.status = .PENDING ∨ b.status = .ABANDONED ∨ b.status = .FAILED := by
  obtain ⟨hs, hr⟩ := h
  rcases b with ⟨s, account⟩
  cases s <;> simp_all [ALLOWED_TRANSITIONS]

theorem credit_credit (a : Account) :
    (a.credit risk votes).credit risk votes = a.credit risk votes := by
  rcases a with ⟨held, credited, ledger⟩
  rcases held with _ | _
  · rcases credited with _ | _
    · rcases risk with _ | _
      · rcases ledger with _ | l <;> rcases votes with _ | n <;> rfl
      · rfl
    · rfl
  · rfl

theorem reverse_counted (a : Account) : a.reverse.counted = 0 := by
  rcases a with ⟨held, credited, _ | ⟨s, n⟩⟩
  · rfl
  · rcases s with _ | _ | _ | _ <;> rfl

/-- **Without a reversal** the order of reports does not matter. -/
theorem steady_forward : Steady (step risk votes) (fun _ => True) (· ≠ .reversed) where
  keeps := fun _ _ _ _ => trivial
  comm := by
    rintro ⟨s, account⟩ k k' - hk hk'
    rcases k with _ | _ | _ | _ <;> rcases k' with _ | _ | _ | _ <;> first
      | rfl
      | exact absurd rfl hk
      | exact absurd rfl hk'
      | rcases s with _ | _ | _ | _ | _ | _ | _ | _ | _ <;> rfl
  idem := by
    rintro ⟨s, account⟩ k - hk
    rcases k with _ | _ | _ | _
    · rw [step_success ⟨s, account⟩]
      by_cases hs : moved s .SUCCESS = .SUCCESS
      · rw [if_pos hs, step_success, if_pos (show moved .SUCCESS .SUCCESS = .SUCCESS from rfl), credit_credit]
      · rw [if_neg hs, step_success, if_neg hs]
    · rcases s with _ | _ | _ | _ | _ | _ | _ | _ | _ <;> rfl
    · rcases s with _ | _ | _ | _ | _ | _ | _ | _ | _ <;> rfl
    · exact absurd rfl hk

/-- **Before a success report** a reversal is ignored. -/
theorem steady_early (a : Account) :
    Steady (step risk votes) (fun b => b.Early ∧ b.account = a) (· ≠ .success) where
  keeps := by
    rintro ⟨s, account⟩ k ⟨hb, rfl⟩ hk
    rcases hb.status with h | h | h | h <;> obtain rfl := h <;> rcases k with _ | _ | _ | _ <;> first
      | exact absurd rfl hk
      | exact ⟨by simp [Early, step, moved, ALLOWED_TRANSITIONS], rfl⟩
  comm := by
    rintro ⟨s, account⟩ k k' ⟨hb, -⟩ hk hk'
    rcases hb.status with h | h | h | h <;> obtain rfl := h <;>
      rcases k with _ | _ | _ | _ <;> rcases k' with _ | _ | _ | _ <;> first
        | rfl
        | exact absurd rfl hk
        | exact absurd rfl hk'
  idem := by
    rintro ⟨s, account⟩ k ⟨hb, -⟩ hk
    rcases hb.status with h | h | h | h <;> obtain rfl := h <;> rcases k with _ | _ | _ | _ <;> first
      | rfl
      | exact absurd rfl hk

/-- Where no transition is left, a report changes nothing. -/
theorem step_final {b : Books} (h : ALLOWED_TRANSITIONS b.status = []) (k : Kind) : b.step risk votes k = b := by
  have hmoved : ∀ target, moved b.status target = b.status := fun target => by simp [moved, h]
  rcases k with _ | _ | _ | _
  · rw [step_success, hmoved]
    have hne : b.status ≠ .SUCCESS := fun hs => by simp [hs, ALLOWED_TRANSITIONS] at h
    rw [if_neg hne]
  · show Books.mk (moved b.status .FAILED) b.account = b
    rw [hmoved]
  · show Books.mk (moved b.status .ABANDONED) b.account = b
    rw [hmoved]
  · rw [step_reversed, h, if_neg (by simp)]

theorem foldl_final {b : Books} (h : ALLOWED_TRANSITIONS b.status = []) (ks : List Kind) :
    ks.foldl (step risk votes) b = b := by
  induction ks with
  | nil => rfl
  | cons k ks ih => rw [List.foldl_cons, step_final h, ih]

/-- A payment that can be reversed stays so until it is. -/
theorem step_reversible {b : Books} (h : .REVERSED ∈ ALLOWED_TRANSITIONS b.status) {k : Kind} (hk : k ≠ .reversed) :
    .REVERSED ∈ ALLOWED_TRANSITIONS (b.step risk votes k).status := by
  rcases b with ⟨s, account⟩
  rcases k with _ | _ | _ | _
  · rw [step_success]
    split
    · simp [ALLOWED_TRANSITIONS]
    · exact h
  · cases s <;> simp_all [ALLOWED_TRANSITIONS, step, moved]
  · cases s <;> simp_all [ALLOWED_TRANSITIONS, step, moved]
  · exact absurd rfl hk

/-- **A reversal that is allowed wins**: the payment ends reversed, without votes. -/
theorem foldl_reversed : ∀ (ks : List Kind) {b : Books}, .REVERSED ∈ ALLOWED_TRANSITIONS b.status →
    .reversed ∈ ks →
    (ks.foldl (step risk votes) b).status = .REVERSED ∧ (ks.foldl (step risk votes) b).account.counted = 0
  | k :: ks, b, hb, hk => by
    rw [List.foldl_cons]
    by_cases hr : k = .reversed
    · subst hr
      rw [step_reversed, if_pos hb, foldl_final rfl]
      exact ⟨rfl, reverse_counted _⟩
    · exact foldl_reversed ks (step_reversible hb hr) ((List.mem_cons.mp hk).resolve_left (Ne.symm hr))

theorem foldl_success_stays : ∀ (ks : List Kind) {b : Books}, b.status = .SUCCESS → (∀ k ∈ ks, k ≠ .reversed) →
    (ks.foldl (step risk votes) b).status = .SUCCESS
  | [], _, hb, _ => hb
  | k :: ks, b, hb, hks => by
    rw [List.foldl_cons]
    refine foldl_success_stays ks ?_ fun k' hk' => hks k' (List.mem_cons_of_mem _ hk')
    rcases b with ⟨s, account⟩
    obtain rfl : s = .SUCCESS := hb
    rcases k with _ | _ | _ | _
    · rfl
    · rfl
    · rfl
    · exact absurd rfl (hks _ List.mem_cons_self)

/-- An early payment with a success report ends successful, if nothing reverses it. -/
theorem foldl_success : ∀ (ks : List Kind) {b : Books}, b.Early → (∀ k ∈ ks, k ≠ .reversed) → .success ∈ ks →
    (ks.foldl (step risk votes) b).status = .SUCCESS
  | k :: ks, b, hb, hks, hs => by
    have hrest : ∀ k' ∈ ks, k' ≠ .reversed := fun k' hk' => hks k' (List.mem_cons_of_mem _ hk')
    rw [List.foldl_cons]
    by_cases hk : k = .success
    · subst hk
      refine foldl_success_stays ks ?_ hrest
      have hmoved : moved b.status .SUCCESS = .SUCCESS := if_pos hb.1
      rw [step_success, if_pos hmoved]
    · exact foldl_success ks ((steady_early b.account).keeps b k ⟨hb, rfl⟩ hk).1 hrest
        ((List.mem_cons.mp hs).resolve_left (Ne.symm hk))

/-- Reversals of an early payment are dropped. -/
theorem foldl_dropped {b : Books} (hb : b.Early) : ∀ ks : List Kind, (∀ k ∈ ks, k = .reversed) →
    ks.foldl (step risk votes) b = b
  | [], _ => rfl
  | k :: ks, hks => by
    obtain rfl : k = .reversed := hks k List.mem_cons_self
    rw [List.foldl_cons, step_reversed, if_neg hb.2]
    exact foldl_dropped hb ks fun k' hk' => hks k' (List.mem_cons_of_mem _ hk')

end Books

/-! ### The tables and the books -/

section Reading

/-- The ledger row of the payment, alone and under its constraint, or none. -/
def LedgerIs (reference : String) (db : Database) : Option (LedgerStatus × ℕ) → Prop
  | none => (∀ pk v, db.row (.voteTransaction pk) = some v → v.payment ≠ some reference) ∧
      db.row (.paid reference) = none ∧ db.row (.ledger reference) = none
  | some (s, n) => ∃ pk v, db.row (.paid reference) = some pk ∧ db.row (.voteTransaction pk) = some v ∧
      v.payment = some reference ∧ v.status = s ∧ v.numberOfVotes = n ∧
      ∀ pk' v', db.row (.voteTransaction pk') = some v' → v'.payment = some reference → pk' = pk

/-- The books `b` are those of the tables `db`, which were `db₀` and the payment `p₀`. -/
structure Reads (reference : String) (db₀ : Database) (p₀ : PaymentRow) (b : Books) (db : Database) : Prop where
  payment : ∃ p, db.row (.payment reference) = some p ∧ Same p₀ p ∧ p.status = b.status ∧
    p.held = b.account.held ∧ p.votesCredited = b.account.votesCredited
  ledger : LedgerIs reference db b.account.ledger
  fresh : b.account.ledger = none → ∀ pk, db.row (.voteTransaction pk) = db₀.row (.voteTransaction pk)

/-- The books of a payment with this ledger row. -/
def booksOf (p : PaymentRow) (ledger : Option (LedgerStatus × ℕ)) : Books :=
  ⟨p.status, ⟨p.held, p.votesCredited, ledger⟩⟩

variable {reference : String} {db₀ db db' : Database} {p₀ p : PaymentRow} {ledger : Option (LedgerStatus × ℕ)}

theorem LedgerIs.congr (h : LedgerIs reference db ledger)
    (hrows : ∀ pk, db'.row (.voteTransaction pk) = db.row (.voteTransaction pk))
    (hpaid : db'.row (.paid reference) = db.row (.paid reference))
    (hledger : db'.row (.ledger reference) = db.row (.ledger reference)) : LedgerIs reference db' ledger := by
  rcases ledger with _ | ⟨s, n⟩
  · obtain ⟨hno, hp, hl⟩ := h
    exact ⟨fun pk v hv => hno pk v (hrows pk ▸ hv), hpaid.trans hp, hledger.trans hl⟩
  · obtain ⟨pk, v, hp, hv, hpay, hs, hn, hone⟩ := h
    exact ⟨pk, v, hpaid.trans hp, (hrows pk).trans hv, hpay, hs, hn, fun pk' v' hv' => hone pk' v' (hrows pk' ▸ hv')⟩

theorem Reads.of_saved {b : Books} (h : Reads reference db₀ p₀ b db) (hs : Same p₀ p)
    (hrows : ∀ x, db'.row x = (saved db reference p).row x) :
    Reads reference db₀ p₀ (booksOf p b.account.ledger) db' := by
  have hrow : ∀ x : Key, x ≠ .payment reference → db'.row x = db.row x := fun x hx =>
    (hrows x).trans (Db.set_row_ne _ _ hx)
  refine ⟨⟨p, (hrows _).trans (Db.set_row_self _ _ _), hs, rfl, rfl, rfl⟩,
    h.ledger.congr (fun _ => hrow _ (by simp)) (hrow _ (by simp)) (hrow _ (by simp)), fun hnone pk => ?_⟩
  exact (hrow _ (by simp)).trans (h.fresh hnone pk)

theorem updated_ledger (pk : ℕ) {v : VoteTransactionRow} (hpay : v.payment = some reference) :
    ((updated (countedOf reference) reverse (.voteTransaction pk) v).status,
      (updated (countedOf reference) reverse (.voteTransaction pk) v).numberOfVotes) =
      reversal (v.status, v.numberOfVotes) := by
  obtain ⟨candidate, payment, email, amount, paystack, s, type, n⟩ := v
  obtain rfl : payment = some reference := hpay
  cases s <;> simp [updated, countedOf, reversal, Payments.reverse]

theorem Reads.of_reversed {b : Books} (h : Reads reference db₀ p₀ b db) (hs : Same p₀ p)
    (hrows : ∀ x, db'.row x = ((saved db reference p).row x).map (updated (countedOf reference) reverse x)) :
    Reads reference db₀ p₀ (booksOf p (b.account.ledger.map reversal)) db' := by
  have hother : ∀ x : Key, (∀ v, countedOf reference x v = false) → db'.row x = (saved db reference p).row x :=
    (reversed_rows fun x => Or.inr (hrows x)).1
  have hledger : ∀ pk, db'.row (.voteTransaction pk) =
      (db.row (.voteTransaction pk)).map (updated (countedOf reference) reverse (.voteTransaction pk)) := fun pk =>
    hrows (.voteTransaction pk)
  have hpaid : db'.row (.paid reference) = db.row (.paid reference) := hother _ fun _ => rfl
  have hunique : db'.row (.ledger reference) = db.row (.ledger reference) := hother _ fun _ => rfl
  have hpayment : db'.row (.payment reference) = some p := (hother _ fun _ => rfl).trans (Db.set_row_self _ _ _)
  have hkept : ∀ pk v, (updated (countedOf reference) reverse (.voteTransaction pk) v).payment = v.payment :=
    fun pk v => by
      unfold updated
      split <;> rfl
  refine ⟨⟨p, hpayment, hs, rfl, rfl, rfl⟩, ?_, fun hnone pk => ?_⟩
  · have hl := h.ledger
    show LedgerIs reference db' (b.account.ledger.map reversal)
    rcases hb : b.account.ledger with _ | ⟨s, n⟩ <;> rw [hb] at hl
    · obtain ⟨hno, hp, hl⟩ := hl
      refine ⟨fun pk v hv => ?_, hpaid.trans hp, hunique.trans hl⟩
      rw [hledger] at hv
      obtain ⟨v₀, hv₀, rfl⟩ := Option.map_eq_some_iff.mp hv
      rw [hkept]
      exact hno pk v₀ hv₀
    · obtain ⟨pk, v, hp, hv, hpay, rfl, rfl, hone⟩ := hl
      refine ⟨pk, updated (countedOf reference) reverse (.voteTransaction pk) v, hpaid.trans hp, ?_,
        (hkept pk v).trans hpay, ?_, ?_, fun pk' v' hv' hpay' => ?_⟩
      · rw [hledger, hv]
        rfl
      · exact congrArg Prod.fst (updated_ledger pk hpay)
      · exact congrArg Prod.snd (updated_ledger pk hpay)
      · rw [hledger] at hv'
        obtain ⟨v₀, hv₀, rfl⟩ := Option.map_eq_some_iff.mp hv'
        rw [hkept] at hpay'
        exact hone pk' v₀ hv₀ hpay'
  · have hnone' : b.account.ledger = none := Option.map_eq_none_iff.mp hnone
    rw [hledger, ← h.fresh hnone' pk]
    rcases hv : db.row (.voteTransaction pk) with _ | v
    · rfl
    · have hl := h.ledger
      rw [hnone'] at hl
      have hc : countedOf reference (.voteTransaction pk) v = false := by
        simp [countedOf, hl.1 pk v hv]
      simp [updated, hc]

theorem Reads.of_credited {b : Books} (h : Reads reference db₀ p₀ b db) (hnone : b.account.ledger = none)
    (hs : Same p₀ p) {c : CreditCall} (hc : Credited c reference p (saved db reference p) db') :
    Reads reference db₀ p₀ ⟨p.status, ⟨p.held, true, some (.SUCCESS, p₀.totalVotes)⟩⟩ db' := by
  obtain ⟨candidate, -, hrow⟩ := hc.row
  have hpayment : db'.row (.payment reference) = some (credited p c.now) := by
    rw [hc.payment]
    unfold saved
    rw [Db.set_row_self]
    rfl
  refine ⟨⟨_, hpayment, hs.trans ⟨rfl, rfl, rfl, rfl, rfl, rfl⟩, rfl, rfl, rfl⟩, ?_, fun h => by cases h⟩
  have hl := h.ledger
  rw [hnone] at hl
  refine ⟨c.ledgerId, _, hc.paid, hrow, rfl, rfl, ?_, fun pk v hv hpay => ?_⟩
  · show p.votes + p.bonusVotes = p₀.votes + p₀.bonusVotes
    rw [hs.votes, hs.bonusVotes]
  · by_contra hpk
    rw [hc.others _ (by simpa [isCredit] using hpk)] at hv
    exact hl.1 pk v hv hpay

/-! ### What is reported -/

def Kind.text : Kind → String
  | .success => "success"
  | .failed => "failed"
  | .abandoned => "abandoned"
  | .reversed => "reversed"

/-- The kind of a report. -/
def kindOf (E : Env) (data : List (String × Json)) : Option Kind :=
  match gatewayStatus E data with
  | .ok status => [Kind.success, .failed, .abandoned, .reversed].find? fun k => k.text = status
  | .error _ => none

/-- A report of one of the kinds; a success is of the payment's amount and
currency, and its columns can be read. -/
structure IsReport (E : Env) (A : Adapters) (p₀ : PaymentRow) (data : List (String × Json)) : Prop where
  kind : kindOf E data ≠ none
  amount : kindOf E data = some .success → amountOf E data = .ok (p₀.amountMinor : ℤ)
  currency : kindOf E data = some .success → ∃ currency, currencyOf data p₀ = .ok currency ∧
    E.upper currency = E.upper p₀.currency
  columns : kindOf E data = some .success → ∀ p, Same p₀ p → ∃ d, A.details data p = .ok d

theorem gatewayStatus_of_kind {E : Env} {data : List (String × Json)} {k : Kind} (h : kindOf E data = some k) :
    gatewayStatus E data = .ok k.text := by
  unfold kindOf at h
  rcases hs : gatewayStatus E data with e | status
  · rw [hs] at h
    cases h
  · rw [hs] at h
    have := List.find?_some h
    simp only [decide_eq_true_eq] at this
    rw [this]

/-- The votes the payment's candidate gets. -/
def votesOf (p : PaymentRow) : Option ℕ := p.candidate.map fun _ => p.totalVotes

theorem moved_of_ne {s target : PaymentStatus} (h : moved s target ≠ target) : moved s target = s := by
  unfold moved at h ⊢
  by_cases hm : target ∈ ALLOWED_TRANSITIONS s
  · rw [if_pos hm] at h
    exact absurd rfl h
  · rw [if_neg hm]

theorem booksOf_transition (p : PaymentRow) (target : PaymentStatus) (now : Time)
    (ledger : Option (LedgerStatus × ℕ)) : booksOf (transition p target now) ledger =
      ⟨moved p.status target, ⟨p.held, p.votesCredited, ledger⟩⟩ := by
  unfold booksOf transition changes moved
  by_cases hm : target ∈ ALLOWED_TRANSITIONS p.status
  · by_cases hs : p.status = target
    · simp [hs]
    · simp [hm, hs]
  · simp [hm]

theorem transition_status (p : PaymentRow) (target : PaymentStatus) (now : Time) :
    (transition p target now).status = moved p.status target :=
  congrArg Books.status (booksOf_transition p target now none)

variable {E : Env} {A : Adapters} {q : GatewayCall} {risk : Bool} {b : Books}

theorem amountsOf_report {data : List (String × Json)} (h : IsReport E A p₀ data)
    (hk : kindOf E data = some .success) (hs : Same p₀ p) :
    ∃ currency, amountsOf E data p = .ok ((p₀.amountMinor : ℤ), currency) ∧
      amountsMatch E p p₀.amountMinor currency = true := by
  obtain ⟨currency, hc, hup⟩ := h.currency hk
  have hc' : currencyOf data p = .ok currency := by
    unfold currencyOf at hc ⊢
    rw [hs.currency]
    exact hc
  refine ⟨currency, ?_, ?_⟩
  · unfold amountsOf
    rw [h.amount hk, hc']
  · unfold amountsMatch
    rw [hs.amountMinor, hs.currency]
    simp [hup]

theorem readable (h : IsReport E A p₀ q.data) (hs : Same p₀ p) (v : PaymentRow → Assessment) :
    ∃ d, decideReport E A q v p = .ok d := by
  obtain ⟨k, hk⟩ := Option.ne_none_iff_exists'.mp h.kind
  have hstatus := gatewayStatus_of_kind hk
  rcases k with _ | _ | _ | _
  · obtain ⟨columns, hcols⟩ := h.columns hk p hs
    obtain ⟨currency, ha, hm⟩ := amountsOf_report (p := reported p "success" columns (q.now 0)) h hk
      (hs.trans ⟨rfl, rfl, rfl, rfl, rfl, rfl⟩)
    rw [decide_success hstatus hcols]
    by_cases hsucc : Succeeds q (reported p "success" columns (q.now 0))
    · exact ⟨_, decideSuccess_matching ha hsucc hm⟩
    · exact ⟨_, decideSuccess_stays ha hsucc⟩
  · exact ⟨_, decide_failed hstatus⟩
  · exact ⟨_, decide_abandoned hstatus⟩
  · exact ⟨_, decide_reversed hstatus⟩

/-- The books are the tables', row by row. -/
theorem Reads.books (h : Reads reference db₀ p₀ b db) : ∃ p, db.row (.payment reference) = some p ∧ Same p₀ p ∧
    b = booksOf p b.account.ledger := by
  obtain ⟨p, hp, hs, h₁, h₂, h₃⟩ := h.payment
  refine ⟨p, hp, hs, ?_⟩
  unfold booksOf
  rw [h₁, h₂, h₃]

theorem made_nothing {c : CreditCall} {d : Decision} (hm : MadeAlone c reference d db db') (hd : d.effect = .nothing) :
    ∀ x, db'.row x = (saved db reference d.payment).row x := by
  rcases hm with ⟨-, hrows⟩ | ⟨he, -, -⟩ | ⟨he, -⟩ | ⟨he, -, -⟩
  · exact hrows
  · rw [hd] at he
    cases he
  · rw [hd] at he
    cases he
  · rw [hd] at he
    cases he

/-- Nothing is in the way of a payment without a ledger row. -/
theorem Reads.free (h : Reads reference db₀ p₀ b db) (hnone : b.account.ledger = none) {c : CreditCall}
    (hfresh : db₀.row (.voteTransaction c.ledgerId) = none) (p : PaymentRow) :
    ¬ Taken c reference (saved db reference p) := by
  have hl := h.ledger
  rw [hnone] at hl
  rintro (ht | ht | ht)
  · exact ht hl.2.1
  · exact ht hl.2.2
  · exact ht ((h.fresh hnone c.ledgerId).trans hfresh)

/-- A ledger row is in the way. -/
theorem Reads.taken (h : Reads reference db₀ p₀ b db) {l : LedgerStatus × ℕ} (hl : b.account.ledger = some l)
    (c : CreditCall) (p : PaymentRow) : Taken c reference (saved db reference p) := by
  obtain ⟨s, n⟩ := l
  have hledger := h.ledger
  rw [hl] at hledger
  obtain ⟨pk, -, hp, -⟩ := hledger
  refine Or.inl (fun hnone => ?_)
  have hpaid : db.row (.paid reference) = none := hnone
  rw [hp] at hpaid
  cases hpaid

/-- A success report that goes through: the payment is assessed and credited. -/
theorem Reads.succeeds (h : Reads reference db₀ p₀ b db) (hs : Same p₀ p) (hstatus : p.status = .SUCCESS)
    (hp : p.held = b.account.held ∧ p.votesCredited = b.account.votesCredited) (hvote : p₀.purpose = .VOTE)
    {assess : PaymentRow → Assessment} (hrisk : ∀ p, Same p₀ p → (assess p).held = risk) {c : CreditCall}
    (hfresh : db₀.row (.voteTransaction c.ledgerId) = none) {report : Option (ℤ × String)}
    (hm : MadeAlone c reference ⟨looked assess p, if (looked assess p).held then .nothing else .credit, report⟩ db db') :
    Reads reference db₀ p₀ ⟨.SUCCESS, b.account.credit risk (votesOf p₀)⟩ db' := by
  have hsame : Same p₀ (looked assess p) := hs.trans (.looked assess p)
  have hbooks : booksOf (looked assess p) b.account.ledger = ⟨.SUCCESS, b.account.look risk⟩ := by
    unfold booksOf looked toAssess Account.look
    rw [hs.purpose, hvote, hp.1, hp.2]
    rcases hheld : b.account.held with _ | _ <;> rcases hcred : b.account.votesCredited with _ | _ <;>
      simp [hstatus, hp.1, hp.2, hheld, hcred, assessed, hrisk p hs]
  have hheld : (looked assess p).held = (b.account.look risk).held := congrArg (fun b => b.account.held) hbooks
  have hcredited : (looked assess p).votesCredited = b.account.votesCredited :=
    congrArg (fun b => b.account.votesCredited) hbooks
  have hsucc : (looked assess p).status = .SUCCESS := congrArg Books.status hbooks
  have hsaved : (∀ x, db'.row x = (saved db reference (looked assess p)).row x) →
      b.account.credit risk (votesOf p₀) = b.account.look risk →
      Reads reference db₀ p₀ ⟨.SUCCESS, b.account.credit risk (votesOf p₀)⟩ db' := fun hrows haccount => by
    rw [haccount, ← hbooks]
    exact h.of_saved hsame hrows
  by_cases hh : (looked assess p).held = true
  · rw [if_pos hh] at hm
    exact hsaved (made_nothing hm rfl) (b.account.credit_held (hheld ▸ hh))
  rw [if_neg hh] at hm
  have hno : (b.account.look risk).held = false := by simpa [hheld] using hh
  have hcand : (looked assess p).candidate = p₀.candidate := hsame.candidate
  rcases hm with ⟨he, -⟩ | ⟨-, hrows, hwhy⟩ | ⟨-, hcredit⟩ | ⟨he, -, -⟩
  · cases he
  · -- nothing was credited: the ledger row is there, or there is nobody to credit
    refine hsaved hrows (b.account.credit_skip hno ?_)
    by_contra hready
    simp only [not_or, Bool.not_eq_true, not_not] at hready
    obtain ⟨hc, hl, hv⟩ := hready
    refine h.free hl hfresh _ (hwhy ?_ fun hnone => hv ?_)
    · unfold creditable
      rw [hcredited, hc, hsucc]
      simpa using hh
    · unfold votesOf
      rw [← hcand, hnone]
      rfl
  · have hready := hcredit.ready
    unfold creditable at hready
    simp only [Bool.and_eq_true, Bool.not_eq_true', hcredited] at hready
    obtain ⟨candidate, hcand', -⟩ := hcredit.row
    have hl : b.account.ledger = none := by
      rcases hl : b.account.ledger with _ | l
      · rfl
      · exact absurd (h.taken hl c _) hcredit.free
    have hv : votesOf p₀ = some p₀.totalVotes := by
      unfold votesOf
      rw [← hcand, hcand']
      rfl
    rw [hv, b.account.credit_free hno hready.1.1 hl]
    have hreads := h.of_credited hl hsame hcredit
    rw [hsucc, hheld, hno] at hreads
    exact hreads
  · cases he

/-- **A report is a step of the books.** -/
theorem Reads.report (h : Reads reference db₀ p₀ b db) (hvote : p₀.purpose = .VOTE)
    (hrisk : ∀ v p, Same p₀ p → (A.assess v p).held = risk) (hq : q.reference = reference)
    (hreport : IsReport E A p₀ q.data) (hfresh : db₀.row (.voteTransaction q.credit.ledgerId) = none) {k : Kind}
    (hk : kindOf E q.data = some k) : Reads reference db₀ p₀ (b.step risk (votesOf p₀) k)
      ((applyGatewayResult E A q fun _ => .halt).after db) := by
  subst hq
  obtain ⟨p, hp, hs, hb⟩ := h.books
  have hstatus := gatewayStatus_of_kind hk
  obtain ⟨v, d, hd, hm⟩ := applyGatewayResult_after (E := E) (hs.purpose.trans hvote) hp
    fun v => readable hreport hs (A.assess v)
  rcases k with _ | _ | _ | _
  · obtain ⟨columns, hcols⟩ := hreport.columns hk p hs
    have hs' : Same p₀ (reported p "success" columns (q.now 0)) := hs.trans ⟨rfl, rfl, rfl, rfl, rfl, rfl⟩
    have hs'' : Same p₀ (transition (reported p "success" columns (q.now 0)) .SUCCESS (q.now 1)) :=
      hs'.trans (.transition _ _ _)
    have hbooks := booksOf_transition (reported p "success" columns (q.now 0)) .SUCCESS (q.now 1) b.account.ledger
    obtain ⟨currency, hamounts, hmatch⟩ := amountsOf_report hreport hk hs'
    rw [decide_success hstatus hcols] at hd
    rw [Books.step_success]
    have hbs : b.status = p.status := congrArg Books.status hb
    by_cases hsucc : Succeeds q (reported p "success" columns (q.now 0))
    · rw [decideSuccess_matching hamounts hsucc hmatch] at hd
      cases hd
      have hmoved : moved b.status .SUCCESS = .SUCCESS := by
        rw [hbs]
        exact (transition_status (reported p "success" columns (q.now 0)) .SUCCESS (q.now 1)).symm.trans hsucc
      rw [if_pos hmoved]
      refine h.succeeds hs'' hsucc ⟨?_, ?_⟩ hvote (hrisk v) hfresh hm
      · exact (congrArg (fun b => b.account.held) hbooks).trans (congrArg (fun b => b.account.held) hb).symm
      · exact (congrArg (fun b => b.account.votesCredited) hbooks).trans
          (congrArg (fun b => b.account.votesCredited) hb).symm
    · rw [decideSuccess_stays hamounts hsucc] at hd
      cases hd
      have hmoved : ¬ moved b.status .SUCCESS = .SUCCESS := fun hmoved => hsucc <| by
        rw [hbs] at hmoved
        exact (transition_status _ _ _).trans hmoved
      have hreads := h.of_saved hs'' (made_nothing hm rfl)
      have hstays : moved (reported p "success" columns (q.now 0)).status .SUCCESS = p.status :=
        moved_of_ne fun hne => hmoved (hbs ▸ hne)
      rw [hbooks, hstays] at hreads
      rw [if_neg hmoved, hb]
      exact hreads
  · rw [decide_failed hstatus] at hd
    cases hd
    have hreads := h.of_saved (hs.trans (.transition p _ _)) (made_nothing hm rfl)
    rw [booksOf_transition] at hreads
    rw [hb]
    exact hreads
  · rw [decide_abandoned hstatus] at hd
    cases hd
    have hreads := h.of_saved (hs.trans (.transition p _ _)) (made_nothing hm rfl)
    rw [booksOf_transition] at hreads
    rw [hb]
    exact hreads
  · rw [decide_reversed hstatus] at hd
    cases hd
    have hbs : b.status = p.status := congrArg Books.status hb
    rw [Books.step_reversed, hbs]
    by_cases hc : changes p .REVERSED = true
    · have hmem : .REVERSED ∈ ALLOWED_TRANSITIONS p.status := by
        unfold changes at hc
        exact (of_decide_eq_true hc).2
      rw [if_pos hc] at hm
      rcases hm with ⟨he, -⟩ | ⟨he, -, -⟩ | ⟨he, -⟩ | ⟨-, -, hall⟩
      · cases he
      · cases he
      · cases he
      have hreads := h.of_reversed (hs.trans (.transition p _ _)) (hall trivial)
      rw [booksOf_transition, show moved p.status .REVERSED = .REVERSED from if_pos hmem] at hreads
      rw [if_pos hmem, hb]
      exact hreads
    · have hmem : .REVERSED ∉ ALLOWED_TRANSITIONS p.status := fun hmem => hc <| by
        have hne : p.status ≠ .REVERSED := fun heq => by
          rw [heq] at hmem
          cases hmem
        unfold changes
        simp [hne, hmem]
      rw [if_neg hc] at hm
      have hsame : transition p .REVERSED (q.now 0) = p := if_neg hc
      have hreads := h.of_saved (hs.trans (.transition p _ _)) (made_nothing hm rfl)
      rw [hsame] at hreads
      rw [if_neg hmem, hb]
      exact hreads

theorem Reads.status (h : Reads reference db₀ p₀ b db) :
    (db.row (.payment reference)).map (·.status) = some b.status := by
  obtain ⟨p, hp, -, hb⟩ := h.books
  rw [hp, hb]
  rfl

end Reading

/-! ### Deliveries -/

/-- The votes of the counted ledger rows of a payment. -/
def countedVotes (db : Database) (reference : String) : ℕ :=
  (db.collect fun
    | .voteTransaction pk => fun r => if countedOf reference (.voteTransaction pk) r then some r.numberOfVotes else none
    | _ => fun _ => none).sum

/-- The tables after the reports, one after the other. -/
def deliver (E : Env) (A : Adapters) (db : Database) (l : List GatewayCall) : Database :=
  execAll db (l.map fun q => applyGatewayResult E A q fun _ => .halt)

/-- The calls deliver these reports of the payment, each at least once; every
call draws a primary key that no ledger row has. -/
structure Delivers (db : Database) (reference : String) (reports : List (List (String × Json)))
    (l : List GatewayCall) : Prop where
  each : ∀ q ∈ l, q.reference = reference ∧ q.data ∈ reports ∧ db.row (.voteTransaction q.credit.ledgerId) = none
  all : ∀ data ∈ reports, ∃ q ∈ l, q.data = data

/-- One of the reports is of the kind. -/
def Has (E : Env) (reports : List (List (String × Json))) (k : Kind) : Prop := ∃ data ∈ reports, kindOf E data = some k

/-- Whatever the order and the repetitions, the status and the counted votes
are the same, and a reported reversal leaves no counted votes. -/
def OrderIndependent (E : Env) (A : Adapters) (db : Database) (reference : String)
    (reports : List (List (String × Json))) : Prop :=
  ∀ l l', Delivers db reference reports l → Delivers db reference reports l' →
    ((deliver E A db l).row (.payment reference)).map (·.status) =
      ((deliver E A db l').row (.payment reference)).map (·.status) ∧
    countedVotes (deliver E A db l) reference = countedVotes (deliver E A db l') reference ∧
    (Has E reports .reversed → countedVotes (deliver E A db l) reference = 0)

section Deliveries

variable {E : Env} {A : Adapters} {reference : String} {db₀ db : Database} {p₀ : PaymentRow} {risk : Bool} {b : Books}
  {reports : List (List (String × Json))} {l : List GatewayCall}

theorem Reads.counted (h : Reads reference db₀ p₀ b db) : countedVotes db reference = b.account.counted := by
  have hl := h.ledger
  unfold countedVotes Account.counted
  rcases hb : b.account.ledger with _ | ⟨s, n⟩ <;> rw [hb] at hl
  · have hnil : (db.collect fun
        | .voteTransaction pk => fun r =>
          if countedOf reference (.voteTransaction pk) r then some r.numberOfVotes else none
        | _ => fun _ => none) = [] := by
      rw [List.eq_nil_iff_forall_not_mem]
      intro n hn
      obtain ⟨x, r, hr, hx⟩ := (db.mem_collect _ _).mp hn
      cases x <;> simp [countedOf] at hx
      exact hl.1 _ _ hr hx.1.1
    rw [hnil]
    rfl
  · obtain ⟨pk, v, -, hv, hpay, rfl, rfl, hone⟩ := hl
    rw [Db.collect_eq_toList (.voteTransaction pk), hv]
    · rcases hs : v.status with _ | _ | _ | _ <;> simp [countedOf, hpay, hs]
    · intro x r hr hx
      cases x <;> simp only [countedOf]
      rename_i pk'
      have hpay' : r.payment ≠ some reference := fun hpay' => hx (by rw [hone pk' r hr hpay'])
      simp [hpay']

/-- The kinds of the reports delivered. -/
def kinds (E : Env) (l : List GatewayCall) : List Kind := l.filterMap fun q => kindOf E q.data

/-- **A delivery is a run of the books.** -/
theorem Reads.deliver (hvote : p₀.purpose = .VOTE) (hrisk : ∀ v p, Same p₀ p → (A.assess v p).held = risk) :
    ∀ (l : List GatewayCall) {b : Books} {db : Database}, Reads reference db₀ p₀ b db →
      (∀ q ∈ l, q.reference = reference ∧ IsReport E A p₀ q.data ∧
        db₀.row (.voteTransaction q.credit.ledgerId) = none) →
      Reads reference db₀ p₀ ((kinds E l).foldl (Books.step risk (votesOf p₀)) b) (Reports.deliver E A db l)
  | [], _, _, h, _ => h
  | q :: l, b, db, h, hl => by
    obtain ⟨hq, hreport, hfresh⟩ := hl q List.mem_cons_self
    obtain ⟨k, hk⟩ := Option.ne_none_iff_exists'.mp hreport.kind
    have hstep := h.report hvote hrisk hq hreport hfresh hk
    have hrest := Reads.deliver hvote hrisk l hstep fun q' hq' => hl q' (List.mem_cons_of_mem _ hq')
    unfold kinds at hrest ⊢
    rw [List.filterMap_cons, hk]
    exact hrest

theorem Delivers.mem_kinds (h : Delivers db reference reports l) (k : Kind) :
    k ∈ kinds E l ↔ Has E reports k := by
  unfold kinds Has
  rw [List.mem_filterMap]
  refine ⟨fun ⟨q, hq, hk⟩ => ⟨q.data, (h.each q hq).2.1, hk⟩, fun ⟨data, hdata, hk⟩ => ?_⟩
  obtain ⟨q, hq, rfl⟩ := h.all data hdata
  exact ⟨q, hq, hk⟩

/-- Where neither a success nor a reversal is allowed, nothing is. -/
theorem final_of_not (s : PaymentStatus) (hs : .SUCCESS ∉ ALLOWED_TRANSITIONS s) (hr : .REVERSED ∉ ALLOWED_TRANSITIONS s) :
    ALLOWED_TRANSITIONS s = [] := by
  cases s <;> simp_all [ALLOWED_TRANSITIONS]

/-- Unless a success report can follow a reversal that was dropped, the books
are told by which reports were delivered. -/
theorem books_agree {votes : Option ℕ} {ks ks' : List Kind} (hmem : ∀ k, k ∈ ks ↔ k ∈ ks')
    (hr : .reversed ∈ ks → .REVERSED ∉ ALLOWED_TRANSITIONS b.status → .success ∈ ks →
      .SUCCESS ∉ ALLOWED_TRANSITIONS b.status) :
    (ks.foldl (Books.step risk votes) b).status = (ks'.foldl (Books.step risk votes) b).status ∧
    (ks.foldl (Books.step risk votes) b).account.counted = (ks'.foldl (Books.step risk votes) b).account.counted := by
  by_cases hrev : .reversed ∈ ks
  swap
  · have hsteady : Steady (Books.step risk votes) (fun _ => True) (· ≠ .reversed) := Books.steady_forward
    rw [hsteady.foldl_eq (fun k hk heq => hrev (heq ▸ hk)) trivial hmem]
    exact ⟨rfl, rfl⟩
  by_cases hallowed : .REVERSED ∈ ALLOWED_TRANSITIONS b.status
  · have hall : ∀ ks : List Kind, .reversed ∈ ks → (ks.foldl (Books.step risk votes) b).status = .REVERSED ∧
        (ks.foldl (Books.step risk votes) b).account.counted = 0 := fun ks => Books.foldl_reversed ks hallowed
    obtain ⟨h₁, h₂⟩ := hall ks hrev
    obtain ⟨h₁', h₂'⟩ := hall ks' ((hmem _).mp hrev)
    exact ⟨h₁.trans h₁'.symm, h₂.trans h₂'.symm⟩
  by_cases hsucc : .SUCCESS ∈ ALLOWED_TRANSITIONS b.status
  · have hno : .success ∉ ks := fun hs => hr hrev hallowed hs hsucc
    have hsteady : Steady (Books.step risk votes) _ _ := Books.steady_early b.account
    rw [hsteady.foldl_eq (fun k hk heq => hno (heq ▸ hk)) ⟨⟨hsucc, hallowed⟩, rfl⟩ hmem]
    exact ⟨rfl, rfl⟩
  · have hfinal := final_of_not b.status hsucc hallowed
    rw [Books.foldl_final hfinal, Books.foldl_final hfinal]
    exact ⟨rfl, rfl⟩

/-- A payment that cannot be reversed keeps its votes, if no success report counts. -/
theorem counted_kept {votes : Option ℕ} {ks : List Kind} (hallowed : .REVERSED ∉ ALLOWED_TRANSITIONS b.status)
    (hs : .success ∈ ks → .SUCCESS ∉ ALLOWED_TRANSITIONS b.status) :
    (ks.foldl (Books.step risk votes) b).account.counted = b.account.counted := by
  by_cases hsucc : .SUCCESS ∈ ALLOWED_TRANSITIONS b.status
  · have hsteady : Steady (Books.step risk votes) _ _ := Books.steady_early b.account
    rw [(hsteady.foldl_keeps ks (fun k hk heq => hs (heq ▸ hk) hsucc) ⟨⟨hsucc, hallowed⟩, rfl⟩).2]
  · rw [Books.foldl_final (final_of_not b.status hsucc hallowed)]

/-- One call for each report, all drawing the free key `pk`. -/
def callsOf (reference : String) (pk : ℕ) (reports : List (List (String × Json))) : List GatewayCall :=
  reports.map fun data => ⟨reference, data, ⟨pk, 0⟩, fun _ => 0⟩

theorem callsOf_delivers {pk : ℕ} (hfree : db.row (.voteTransaction pk) = none) {ds : List (List (String × Json))}
    (hmem : ∀ data, data ∈ ds ↔ data ∈ reports) : Delivers db reference reports (callsOf reference pk ds) := by
  refine ⟨fun q hq => ?_, fun data hdata => ?_⟩
  · obtain ⟨data, hdata, rfl⟩ := List.mem_map.mp hq
    exact ⟨rfl, (hmem data).mp hdata, hfree⟩
  · exact ⟨_, List.mem_map.mpr ⟨data, (hmem data).mpr hdata, rfl⟩, rfl⟩

/-- The reports with the reversals first, and with them last. -/
def reversalsFirst (E : Env) (reports : List (List (String × Json))) : List (List (String × Json)) :=
  reports.filter (kindOf E · = some .reversed) ++ reports.filter (kindOf E · ≠ some .reversed)

def reversalsLast (E : Env) (reports : List (List (String × Json))) : List (List (String × Json)) :=
  reports.filter (kindOf E · ≠ some .reversed) ++ reports.filter (kindOf E · = some .reversed)

theorem mem_reversalsFirst (data : List (String × Json)) : data ∈ reversalsFirst E reports ↔ data ∈ reports := by
  unfold reversalsFirst
  by_cases h : kindOf E data = some .reversed <;> simp [h]

theorem mem_reversalsLast (data : List (String × Json)) : data ∈ reversalsLast E reports ↔ data ∈ reports := by
  unfold reversalsLast
  by_cases h : kindOf E data = some .reversed <;> simp [h]

theorem kinds_callsOf (pk : ℕ) (ds : List (List (String × Json))) :
    kinds E (callsOf reference pk ds) = ds.filterMap (kindOf E) := by
  unfold kinds callsOf
  rw [List.filterMap_map]
  rfl

/-- **A reversal that overtakes the success is lost.** -/
theorem overtaken {votes : Option ℕ} (pk : ℕ) (hb : b.Early) (hrev : Has E reports .reversed)
    (hsucc : Has E reports .success) :
    ((kinds E (callsOf reference pk (reversalsFirst E reports))).foldl (Books.step risk votes) b).status = .SUCCESS ∧
    ((kinds E (callsOf reference pk (reversalsLast E reports))).foldl (Books.step risk votes) b).status = .REVERSED := by
  have hrs : ∀ k ∈ (reports.filter (kindOf E · = some .reversed)).filterMap (kindOf E), k = .reversed := by
    intro k hk
    obtain ⟨data, hdata, hk⟩ := List.mem_filterMap.mp hk
    rw [of_decide_eq_true (List.mem_filter.mp hdata).2] at hk
    exact (Option.some.inj hk).symm
  have hks : ∀ k ∈ (reports.filter (kindOf E · ≠ some .reversed)).filterMap (kindOf E), k ≠ .reversed := by
    rintro k hk rfl
    obtain ⟨data, hdata, hk⟩ := List.mem_filterMap.mp hk
    exact of_decide_eq_true (List.mem_filter.mp hdata).2 hk
  have hs : .success ∈ (reports.filter (kindOf E · ≠ some .reversed)).filterMap (kindOf E) := by
    obtain ⟨data, hdata, hk⟩ := hsucc
    exact List.mem_filterMap.mpr ⟨data, List.mem_filter.mpr ⟨hdata, by simp [hk]⟩, hk⟩
  have hr : .reversed ∈ (reports.filter (kindOf E · = some .reversed)).filterMap (kindOf E) := by
    obtain ⟨data, hdata, hk⟩ := hrev
    exact List.mem_filterMap.mpr ⟨data, List.mem_filter.mpr ⟨hdata, by simp [hk]⟩, hk⟩
  rw [kinds_callsOf, kinds_callsOf]
  unfold reversalsFirst reversalsLast
  rw [List.filterMap_append, List.filterMap_append, List.foldl_append, List.foldl_append, Books.foldl_dropped hb _ hrs]
  refine ⟨Books.foldl_success _ hb hks hs, (Books.foldl_reversed _ ?_ hr).1⟩
  rw [Books.foldl_success _ hb hks hs]
  simp [ALLOWED_TRANSITIONS]

end Deliveries

/-- A report of the kind, of the amount asked. -/
def reportOf (k : Kind) : List (String × Json) := [("status", .str k.text), ("amount", .int 200), ("currency", .str "GHS")]

theorem isReport_reportOf (k : Kind) : IsReport .plain plainAdapters firstPayment (reportOf k) where
  kind := by cases k <;> decide +kernel
  amount := fun _ => rfl
  currency := fun _ => ⟨"GHS", rfl, rfl⟩
  columns := fun _ _ _ => ⟨{}, rfl⟩

theorem firstTables_ledger : LedgerIs "ref" firstTables none :=
  ⟨fun _ _ hv => (by cases hv), rfl, rfl⟩

end Reports
end FlexyVotes
