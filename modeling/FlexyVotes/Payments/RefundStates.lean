/-
# The state of a payment and what is refunded of it

A completed refund moves the payment to what its amounts come to, and every
other move leaves them. So a successful payment has nothing refunded and a
refunded one all of it, but for one edge of the table: DISPUTED is left for
SUCCESS, when the dispute is won or the charge reported again, whatever has been
refunded before the dispute or beside it. In a run where no such report finds a
disputed payment with a refund (`Resolved`), states and amounts agree.

Key definitions: `Agrees`, `Sound`, `Call`, `Resolved`.
Key theorems: `Call.sound`, `status_agrees`.
-/
import FlexyVotes.Payments.Assessments
import FlexyVotes.Payments.FourEyes

namespace FlexyVotes
namespace RefundStates

open Transactions Audit Payments Runs Integrity RefundReports

/-- The state says how much is refunded. -/
structure Agrees (p : PaymentRow) : Prop where
  success : p.status = .SUCCESS → p.refundedAmount = 0
  partly : p.status = .PARTIALLY_REFUNDED → 0 < p.refundedAmount ∧ p.refundedAmount < p.amountMinor
  whole : p.status = .REFUNDED → p.amountMinor ≤ p.refundedAmount

/-- States and amounts agree, nothing is refunded of what was never paid, and
refunds are of something. -/
structure Sound (db : Database) : Prop where
  agrees : ∀ reference p, db.row (.payment reference) = some p → Agrees p
  unpaid : ∀ reference p, db.row (.payment reference) = some p → Unpaid p.status → p.refundedAmount = 0
  refunds : ∀ id r, db.row (.refund id) = some r →
    0 < r.amount ∧ ∃ p, db.row (.payment r.payment) = some p ∧ ¬ Unpaid p.status

/-! ### The calls -/

/-- A report of the gateway, a request, approval or decision about refunds, and
the gateway's reports of a refund and of a dispute. -/
inductive Call
  | report (A : Adapters) (q : GatewayCall)
  | refund (c : FourEyes.Call)
  | refundReport (q : WebhookCall)
  | dispute (q : WebhookCall) (reference : String)

/-- The program of a call, under a threshold of two approvals. -/
def Call.prog (E : Env) (threshold : ℕ) : Call → Program
  | .report A q => applyGatewayResult E A q fun _ => .halt
  | .refund c => c.prog E threshold
  | .refundReport q => webhookRefund E q fun _ => .halt
  | .dispute q reference => webhookDispute E q reference fun _ => .halt

/-- Invoices are marked paid as the billing service does it. -/
def Call.Billed (E : Env) : Call → Prop
  | .report A _ => Runs.Billed E A
  | _ => True

/-- The report of a success that is applied. -/
def Confirms (E : Env) (A : Adapters) (q : GatewayCall) (p : PaymentRow) : Prop :=
  gatewayStatus E q.data = .ok "success" ∧ ∃ d amounts, A.details q.data p = .ok d ∧
    amountsOf E q.data (reported p "success" d (q.now 0)) = .ok amounts

/-- The call finds no disputed payment with a refund to make successful. -/
def Resolved (E : Env) (db : Database) : Call → Prop
  | .report A q => ∀ p, db.row (.payment q.reference) = some p → Confirms E A q p → p.status = .DISPUTED →
      p.refundedAmount = 0
  | .dispute q reference => ∀ r p, disputeReference E q.data reference = .ok r → db.row (.payment r) = some p →
      q.eventType = "charge.dispute.resolve" → merchantWon E q.data = true → p.status = .DISPUTED → p.refundedAmount = 0
  | _ => True

/-- The calls, one after the other. -/
def run (E : Env) (threshold : ℕ) (calls : List Call) (db : Database) : Database :=
  execAll db (calls.map (·.prog E threshold))

/-- Each call finds no such payment. -/
def AllResolved (E : Env) (threshold : ℕ) : Database → List Call → Prop
  | _, [] => True
  | db, c :: calls => Resolved E db c ∧ AllResolved E threshold ((c.prog E threshold).after db) calls

/-! ### Writes -/

section Writes

variable {v v' : Database} {reference id : String} {p p' : PaymentRow} {r r' : RefundRow}

/-- The rows the invariant does not look at. -/
def isAside : Key → Bool
  | .refund _ => false
  | .payment _ => false
  | _ => true

theorem isAside_of_audit {x : Key} (hx : isAudit x = true) : isAside x = true := by
  cases x <;> first
    | rfl
    | cases hx

theorem isAside_of_billing {x : Key} (hx : Assessments.isBilling x = true) : isAside x = true := by
  cases x <;> first
    | rfl
    | cases hx

theorem Sound.congr (h : Sound v) (hrow : ∀ x, isAside x = false → v'.row x = v.row x) : Sound v' := by
  refine ⟨fun reference p hp => ?_, fun reference p hp => ?_, fun id r hr => ?_⟩
  · rw [hrow _ rfl] at hp
    exact h.agrees reference p hp
  · rw [hrow _ rfl] at hp
    exact h.unpaid reference p hp
  · rw [hrow _ rfl] at hr ⊢
    exact h.refunds id r hr

theorem ignores_aside : Ignores (Preserves Sound) isAside := fun v k r hk h =>
  h.congr fun x hx => Db.set_row_ne _ _ fun heq => by
    rw [heq, hk] at hx
    cases hx

theorem ignores_audit : Ignores (Preserves Sound) isAudit := fun v k r hk => ignores_aside v k r (isAside_of_audit hk)

/-- A payment is saved in a state that agrees with its amounts; one that was
paid stays so. -/
theorem Sound.payment (h : Sound v) (hp : v.row (.payment reference) = some p) (hagrees : Agrees p')
    (hunpaid : Unpaid p'.status → p'.refundedAmount = 0 ∧ Unpaid p.status) :
    Sound (v.set (.payment reference) (some p')) := by
  refine ⟨fun reference' p₁ hp₁ => ?_, fun reference' p₁ hp₁ hu => ?_, fun id r hr => ?_⟩
  · by_cases heq : reference' = reference
    · subst heq
      rw [Db.set_row_self] at hp₁
      rwa [← Option.some.inj hp₁]
    · rw [Db.set_row_ne _ _ (by simpa using heq)] at hp₁
      exact h.agrees reference' p₁ hp₁
  · by_cases heq : reference' = reference
    · subst heq
      rw [Db.set_row_self] at hp₁
      obtain rfl := Option.some.inj hp₁
      exact (hunpaid hu).1
    · rw [Db.set_row_ne _ _ (by simpa using heq)] at hp₁
      exact h.unpaid reference' p₁ hp₁ hu
  · rw [Db.set_row_ne _ _ (by simp)] at hr
    obtain ⟨hpos, p₁, hp₁, hpaid⟩ := h.refunds id r hr
    refine ⟨hpos, ?_⟩
    by_cases heq : r.payment = reference
    · refine ⟨p', by rw [heq, Db.set_row_self], fun hu => hpaid ?_⟩
      rw [heq, hp] at hp₁
      rw [← Option.some.inj hp₁]
      exact (hunpaid hu).2
    · exact ⟨p₁, (Db.set_row_ne _ _ (by simpa using heq)).trans hp₁, hpaid⟩

/-- The state and the amounts are saved as they were. -/
theorem Sound.alike (h : Sound v) (hp : v.row (.payment reference) = some p) (hstatus : p'.status = p.status)
    (hrefunded : p'.refundedAmount = p.refundedAmount) (hamount : p'.amountMinor = p.amountMinor) :
    Sound (v.set (.payment reference) (some p')) := by
  have hagrees := h.agrees reference p hp
  have hunpaid := h.unpaid reference p hp
  refine h.payment hp ⟨fun hs => ?_, fun hs => ?_, fun hs => ?_⟩ fun hu => ?_
  · rw [hrefunded]
    exact hagrees.success (hstatus ▸ hs)
  · rw [hrefunded, hamount]
    exact hagrees.partly (hstatus ▸ hs)
  · rw [hrefunded, hamount]
    exact hagrees.whole (hstatus ▸ hs)
  · have hu' : Unpaid p.status := hstatus ▸ hu
    exact ⟨hrefunded.trans (hunpaid hu'), hu'⟩

/-- The edges of the table into SUCCESS. -/
theorem into_success {s : PaymentStatus} (h : .SUCCESS ∈ ALLOWED_TRANSITIONS s) : Unpaid s ∨ s = .DISPUTED := by
  cases s <;> simp_all [ALLOWED_TRANSITIONS, Unpaid]

/-- **A move that is not a refund's**: out of a dispute it must find nothing
refunded. -/
theorem Sound.moves (h : Sound v) (hp : v.row (.payment reference) = some p) {target : PaymentStatus} {now : Time}
    (htarget : target ≠ .REFUNDED ∧ target ≠ .PARTIALLY_REFUNDED)
    (hfree : target = .SUCCESS → p.status = .DISPUTED → p.refundedAmount = 0) :
    Sound (v.set (.payment reference) (some (transition p target now))) := by
  by_cases hc : changes p target = true
  swap
  · have hsame : transition p target now = p := if_neg hc
    rw [hsame]
    exact h.alike hp rfl rfl rfl
  have hto : transition p target now = { p with status := target, updatedAt := now } := if_pos hc
  rw [hto]
  have hunpaid := h.unpaid reference p hp
  unfold changes at hc
  simp only [decide_eq_true_eq] at hc
  obtain ⟨-, hallowed⟩ := hc
  refine h.payment hp ⟨fun hs => ?_, fun hs => absurd hs htarget.2, fun hs => absurd hs htarget.1⟩ fun hu => ?_
  · have hs : target = .SUCCESS := hs
    subst hs
    rcases into_success hallowed with hu | hdisputed
    · exact hunpaid hu
    · exact hfree rfl hdisputed
  · -- an unpaid state is reached from an unpaid one
    have hu' : Unpaid p.status := by
      by_contra hpaid
      exact absurd hu (Transitions.moves_paid (Or.inr hallowed) hpaid)
    exact ⟨hunpaid hu', hu'⟩

/-- A refund of a payment that was paid. -/
theorem Sound.asks (h : Sound v) (hp : v.row (.payment r.payment) = some p) (hpaid : ¬ Unpaid p.status)
    (hpos : 0 < r.amount) : Sound (v.set (.refund id) (some r)) := by
  have hkept : ∀ reference, (v.set (.refund id) (some r)).row (.payment reference) = v.row (.payment reference) :=
    fun _ => Db.set_row_ne _ _ (by simp)
  refine ⟨fun reference p hp => ?_, fun reference p hp => ?_, fun id' r₁ hr₁ => ?_⟩
  · exact h.agrees reference p ((hkept _).symm.trans hp)
  · exact h.unpaid reference p ((hkept _).symm.trans hp)
  · rw [hkept]
    by_cases hid : id' = id
    · subst hid
      rw [Db.set_row_self] at hr₁
      obtain rfl := Option.some.inj hr₁
      exact ⟨hpos, p, hp, hpaid⟩
    · rw [Db.set_row_ne _ _ (by simpa using hid)] at hr₁
      exact h.refunds id' r₁ hr₁

/-- A refund is saved as it was asked for. -/
theorem Sound.refund (h : Sound v) (hr : v.row (.refund id) = some r) (hsame : FourEyes.SameAsk r r') :
    Sound (v.set (.refund id) (some r')) := by
  obtain ⟨hpos, p, hp, hpaid⟩ := h.refunds id r hr
  exact h.asks (hsame.payment ▸ hp) hpaid (hsame.amount ▸ hpos)

/-- **A completed refund** takes its payment to the state of its amounts, or
leaves it disputed or reversed. -/
theorem settled_agrees (h : Agrees p) (hpaid : ¬ Unpaid p.status) (hpos : 0 < r.amount) (now : Time) :
    Agrees (settled p r now) ∧ ¬ Unpaid (settled p r now).status := by
  have hamounts : (refunded p r.amount).refundedAmount = p.refundedAmount + r.amount ∧
      (refunded p r.amount).amountMinor = p.amountMinor := ⟨rfl, rfl⟩
  have hmoved : Moved (refunded p r.amount) (settled p r now) (refundTarget (refunded p r.amount)) :=
    (Alike.refl _).transition _ _
  refine ⟨?_, Transitions.moves_paid hmoved.moves hpaid⟩
  have htarget : refundTarget (refunded p r.amount) =
      if p.amountMinor ≤ p.refundedAmount + r.amount then .REFUNDED else .PARTIALLY_REFUNDED := rfl
  by_cases hc : changes (refunded p r.amount) (refundTarget (refunded p r.amount)) = true
  · -- the state is that of the amounts
    have hstatus : (settled p r now).status = refundTarget (refunded p r.amount) := by
      unfold settled transition
      rw [if_pos hc]
    rw [htarget] at hstatus
    have hrefunded := hmoved.refunded
    have hamount := hmoved.lasting.amount
    refine ⟨fun hs => ?_, fun hs => ?_, fun hs => ?_⟩ <;> rw [hstatus] at hs <;> split_ifs at hs with hle
    · omega
    · omega
  · -- the state stays: the move is not in the table, or to where it is
    have hsame : settled p r now = refunded p r.amount := if_neg hc
    rw [hsame]
    have hstays : p.status = refundTarget (refunded p r.amount) ∨
        refundTarget (refunded p r.amount) ∉ ALLOWED_TRANSITIONS p.status := by
      by_contra hno
      push Not at hno
      exact hc (decide_eq_true hno)
    rw [htarget] at hstays
    refine ⟨fun hs => ?_, fun hs => ?_, fun hs => ?_⟩
    · have hs : p.status = .SUCCESS := hs
      rw [hs] at hstays
      split_ifs at hstays <;> simp [ALLOWED_TRANSITIONS] at hstays
    · have hs : p.status = .PARTIALLY_REFUNDED := hs
      have hpartly := h.partly hs
      rw [hs] at hstays
      split_ifs at hstays with hle
      · simp [ALLOWED_TRANSITIONS] at hstays
      · omega
    · have hwhole := h.whole hs
      omega

end Writes

/-! ### The programs -/

section Programs

variable {E : Env} {A : Adapters} {v : Database} {reference id : String} {p : PaymentRow} {k rest : Program}

theorem commits_keeps (hrest : rest.KeepsAll (Preserves Sound)) : (Prog.commit rest).KeepsAll (Preserves Sound) :=
  fun v => .commit Preserves.trans Preserves.refl (hrest v)

theorem halt_keeps : (.halt : Program).KeepsAll (Preserves Sound) := fun _ => .halt Preserves.refl

theorem rollbacks_keeps (hrest : rest.KeepsAll (Preserves Sound)) : (Prog.rollback rest).KeepsAll (Preserves Sound) :=
  fun _ => .rollback Preserves.refl hrest

theorem notes_keeps {n : Note} (hrest : rest.KeepsAll (Preserves Sound)) : (Prog.note n rest).KeepsAll (Preserves Sound) :=
  fun v => .note (hrest v)

/-- The log does not matter. -/
theorem logs_keeps {a : Database → Entry} {failure : Program} (hfailure : failure.KeepsAll (Preserves Sound))
    (hrest : rest.KeepsAll (Preserves Sound)) :
    (.read fun db => record E (a db) failure rest : Program).KeepsAll (Preserves Sound) := fun _ =>
  .read (record_keeps Preserves.trans ignores_audit (fun v' _ => hfailure v') fun v' _ => hrest v')

/-- A row that does not matter is written. -/
theorem aside_keeps {x : Key} {r : Row x} {failure : Program} (hx : isAside x = true)
    (hfailure : failure.KeepsAll (Preserves Sound)) (hrest : rest.KeepsAll (Preserves Sound)) :
    (Prog.insertOr x r failure rest).KeepsAll (Preserves Sound) := fun v =>
  .insertOr Preserves.trans (fun _ => ignores_aside v x _ hx) (fun _ => hrest _) (hfailure v)

theorem put_keeps {x : Key} {r : Option (Row x)} (hx : isAside x = true) (hrest : rest.KeepsAll (Preserves Sound)) :
    (Prog.put x r rest).KeepsAll (Preserves Sound) := fun v => .put Preserves.trans (ignores_aside v x r hx) (hrest _)

theorem saveTransition_keeps {target : PaymentStatus} {now : Time} (hp : v.row (.payment reference) = some p)
    (htarget : target ≠ .REFUNDED ∧ target ≠ .PARTIALLY_REFUNDED)
    (hfree : target = .SUCCESS → p.status = .DISPUTED → p.refundedAmount = 0)
    (hrest : ∀ v', v'.row (.payment reference) = some (transition p target now) → rest.Keeps (Preserves Sound) v') :
    (saveTransition reference p target now rest).Keeps (Preserves Sound) v := by
  unfold saveTransition
  split
  · exact .put Preserves.trans (fun h => h.moves hp htarget hfree) (hrest _ (Db.set_row_self _ _ _))
  · rename_i hc
    have hsame : transition p target now = p := if_neg hc
    exact hrest v (hp.trans (congrArg some hsame.symm))

theorem reverseVotes_keeps (hrest : rest.KeepsAll (Preserves Sound)) :
    (reverseVotes reference rest).KeepsAll (Preserves Sound) := fun _ =>
  .updateWhere Preserves.trans ignores_aside (fun k r h => by
    cases k <;> first
      | rfl
      | cases h) hrest

/-- The payment is saved with nothing that matters changed. -/
theorem saves_keeps {p' : PaymentRow} (hp : v.row (.payment reference) = some p) (hstatus : p'.status = p.status)
    (hrefunded : p'.refundedAmount = p.refundedAmount) (hamount : p'.amountMinor = p.amountMinor)
    (hrest : ∀ v', v'.row (.payment reference) = some p' → rest.Keeps (Preserves Sound) v') :
    (Prog.put (.payment reference) (some p') rest).Keeps (Preserves Sound) v :=
  .put Preserves.trans (fun h => h.alike hp hstatus hrefunded hamount) (hrest _ (Db.set_row_self _ _ _))

/-- The discount is redeemed, if there is one. -/
theorem redeemed_keeps (hrest : rest.KeepsAll (Preserves Sound)) : (match p.discount with
      | some d => .update (.discountCode d) (fun _ => true) redeem fun _ => rest
      | none => rest : Program).KeepsAll (Preserves Sound) := by
  split
  · exact fun v => .update Preserves.trans (fun _ _ _ => ignores_aside v _ _ rfl) (fun _ _ _ => hrest _) (hrest v)
  · exact hrest

theorem creditVotes_keeps {c : CreditCall} (hrest : rest.KeepsAll (Preserves Sound)) :
    (creditVotes c reference p rest).KeepsAll (Preserves Sound) := by
  unfold creditVotes
  split
  swap
  · exact hrest
  split
  · exact hrest
  refine aside_keeps rfl hrest (aside_keeps rfl (put_keeps rfl hrest) (aside_keeps rfl
    (put_keeps rfl (put_keeps rfl hrest)) fun v => ?_))
  exact .update Preserves.trans (fun p₀ hp₀ _ h => h.alike hp₀ rfl rfl rfl) (fun _ _ _ => redeemed_keeps hrest _)
    (redeemed_keeps hrest v)

theorem fulfil_keeps {q : GatewayCall} {matching : Bool} (hbilled : Billed E A)
    (hrest : rest.KeepsAll (Preserves Sound)) : (fulfil A q p matching rest).KeepsAll (Preserves Sound) := by
  obtain ⟨c, hc⟩ := hbilled
  unfold fulfil
  rw [hc]
  split
  · exact creditVotes_keeps hrest
  split
  · split
    · exact Assessments.markInvoicePaid_keeps Preserves.refl Preserves.trans ignores_aside (fun _ => isAside_of_billing)
        hrest
    · exact hrest
  · exact hrest

/-- **A report**, alone. -/
theorem applyGatewayResult_keeps {q : GatewayCall} (hbilled : Billed E A) (h : Resolved E v (.report A q)) :
    (applyGatewayResult E A q fun _ => .halt).Keeps (Preserves Sound) v := by
  have hcommit : (.commit .halt : Program).KeepsAll (Preserves Sound) := commits_keeps halt_keeps
  have hback : (.rollback .halt : Program).KeepsAll (Preserves Sound) := rollbacks_keeps halt_keeps
  refine .lockRow (fun _ => hcommit v) fun p hp => ?_
  dsimp only
  rcases hs : gatewayStatus E q.data with e | status
  · exact hback v
  dsimp only
  split_ifs with hsuccess
  · subst hsuccess
    rcases hd : A.details q.data p with e | d
    · exact hback v
    refine saves_keeps hp rfl rfl rfl fun v' hp' => ?_
    rcases ha : amountsOf E q.data (reported p "success" d (q.now 0)) with e | ⟨amount, currency⟩
    · exact hback v'
    have hfree : p.status = .DISPUTED → p.refundedAmount = 0 := h p hp ⟨hs, d, _, hd, ha⟩
    have hdone : (Prog.commit (.note (.succeeded q.reference amount currency) .halt) : Program).KeepsAll
        (Preserves Sound) := commits_keeps (notes_keeps halt_keeps)
    refine saveTransition_keeps hp' (by decide) (fun _ => hfree) fun v₁ hp₁ => ?_
    dsimp only
    split_ifs
    · exact hdone v₁
    · exact saves_keeps hp₁ rfl rfl rfl fun v₂ _ => fulfil_keeps hbilled hdone v₂
    · exact .read (saves_keeps hp₁ rfl rfl rfl fun v₂ _ => fulfil_keeps hbilled hdone v₂)
    · exact fulfil_keeps hbilled hdone v₁
  · exact saveTransition_keeps hp (by decide) (fun hs => by cases hs) fun v' _ => hcommit v'
  · exact saveTransition_keeps hp (by decide) (fun hs => by cases hs) fun v' _ => hcommit v'
  · exact saveTransition_keeps hp (by decide) (fun hs => by cases hs) fun v' _ => reverseVotes_keeps hcommit v'
  · exact saveTransition_keeps hp (by decide) (fun hs => by cases hs) fun v' _ => hcommit v'
  · exact saves_keeps hp rfl rfl rfl fun v' hp' =>
      saveTransition_keeps hp' (by decide) (fun hs => by cases hs) fun v'' _ => hcommit v''

/-- **A report of a dispute**, alone. -/
theorem webhookDispute_keeps {q : WebhookCall} {r : String} (h : Resolved E v (.dispute q r)) :
    (webhookDispute E q r fun _ => .halt).Keeps (Preserves Sound) v := by
  unfold webhookDispute
  rcases hr : disputeReference E q.data r with e | reference
  · exact halt_keeps v
  refine .read ?_
  dsimp only
  rcases v.row (.payment reference) with _ | found
  · exact halt_keeps v
  refine .lockRow (fun _ => rollbacks_keeps halt_keeps v) fun p hp => ?_
  have haudit : ∀ a : Database → Entry, (.read fun db => recordNow E (a db) .halt .halt : Program).KeepsAll
      (Preserves Sound) := fun a => logs_keeps (rollbacks_keeps halt_keeps) (commits_keeps halt_keeps)
  dsimp only
  by_cases hcreate : q.eventType = "charge.dispute.create"
  · rw [if_pos hcreate]
    refine saveTransition_keeps hp (by decide) (fun hs => by cases hs) fun v' _ => ?_
    split
    · exact reverseVotes_keeps (commits_keeps (haudit _)) v'
    · exact commits_keeps (haudit _) v'
  rw [if_neg hcreate]
  by_cases hresolve : q.eventType = "charge.dispute.resolve"
  swap
  · rw [if_neg hresolve]
    exact commits_keeps (haudit _) v
  rw [if_pos hresolve]
  by_cases hwon : merchantWon E q.data = true
  · rw [if_pos hwon]
    exact saveTransition_keeps hp (by decide) (fun _ hs => h reference p hr hp hresolve hwon hs) fun v' _ =>
      commits_keeps (haudit _) v'
  · rw [if_neg hwon]
    refine saveTransition_keeps hp (by decide) (fun hs => by cases hs) fun v' _ => commits_keeps (fun v => ?_) v'
    split
    · exact notes_keeps (haudit _) v
    · exact haudit _ v

/-! ### Refunds -/

section Refunds

variable {sep : Program → Program} {fail : Failure → Program}

/-- **The completion of a refund** moves its payment at once. -/
theorem completeRefund_keeps {now : ℕ → Time} (hsep : FourEyes.Ends (Preserves Sound) sep)
    (hfail : ∀ e, (fail e).KeepsAll (Preserves Sound)) (hk : k.KeepsAll (Preserves Sound)) :
    (completeRefund sep fail E id now k).KeepsAll (Preserves Sound) := by
  intro v
  refine .given fun hsound => .lockRow (fun _ => hfail _ v) fun r hr => ?_
  dsimp only
  split
  · exact hsep v _ (hk v)
  refine .lockRow (fun _ => hfail _ v) fun p hp => ?_
  dsimp only
  have hdone : (sep (recordRefund E (fun o => refundEntry "REFUND_PROCESSED" none none p.event o id
      ("Refund " ++ money r.amount ++ " processed") "" (now 2)) p.event (fail (.crash "DatabaseError"))
      (sep k))).KeepsAll (Preserves Sound) := fun v =>
    hsep v _ (logs_keeps (hfail _) (fun v => hsep v _ (hk v)) v)
  have hput : (v.set (.refund id) (some (processed r (now 0)))).row (.payment r.payment) = some p :=
    (Db.set_row_ne _ _ (by simp)).trans hp
  obtain ⟨hpos, p₁, hp₁, hpaid⟩ := hsound.refunds id r hr
  obtain rfl := Option.some.inj (hp.symm.trans hp₁)
  have hsettled := settled_agrees (hsound.agrees _ p hp) hpaid hpos (now 1)
  have hsame : FourEyes.SameAsk r (processed r (now 0)) := ⟨rfl, rfl, rfl⟩
  have hwritten : Sound ((v.set (.refund id) (some (processed r (now 0)))).set (.payment r.payment)
      (some (settled p r (now 1)))) :=
    (hsound.refund hr hsame).payment hput hsettled.1 fun hu => absurd hu hsettled.2
  have hrest : (if r.reverseVotes = true then reverseVotes r.payment (sep (recordRefund E (fun o =>
      refundEntry "REFUND_PROCESSED" none none p.event o id ("Refund " ++ money r.amount ++ " processed") "" (now 2))
      p.event (fail (.crash "DatabaseError")) (sep k))) else sep (recordRefund E (fun o =>
      refundEntry "REFUND_PROCESSED" none none p.event o id ("Refund " ++ money r.amount ++ " processed") "" (now 2))
      p.event (fail (.crash "DatabaseError")) (sep k)) : Program).KeepsAll (Preserves Sound) := by
    split
    · exact reverseVotes_keeps hdone
    · exact hdone
  unfold saveTransition
  by_cases hc : changes (refunded p r.amount) (refundTarget (refunded p r.amount)) = true
  · rw [if_pos hc]
    refine .of_exec Preserves.trans fun db w log hv => ⟨⟨.payment r.payment, some (settled p r (now 1))⟩ ::
      ⟨.payment r.payment, some (refunded p r.amount)⟩ :: ⟨.refund id, some (processed r (now 0))⟩ :: w, ?_, fun _ => ?_,
      hrest _⟩
    · rw [Prog.exec_put, Prog.exec_put, Prog.exec_put]
      rfl
    · rw [Db.apply_cons, Db.apply_cons, Db.apply_cons, hv]
      refine hwritten.congr fun x _ => ?_
      by_cases hx : x = .payment r.payment
      · subst hx
        rw [Db.set_row_self, Db.set_row_self]
      · rw [Db.set_row_ne _ _ hx, Db.set_row_ne _ _ hx, Db.set_row_ne _ _ hx]
  · have hstays : settled p r (now 1) = refunded p r.amount := if_neg hc
    rw [if_neg hc]
    refine .of_exec Preserves.trans fun db w log hv => ⟨⟨.payment r.payment, some (refunded p r.amount)⟩ ::
      ⟨.refund id, some (processed r (now 0))⟩ :: w, ?_, fun _ => ?_, hrest _⟩
    · rw [Prog.exec_put, Prog.exec_put]
    · rw [Db.apply_cons, Db.apply_cons, hv, ← hstays]
      exact hwritten

/-- The fields of a refund are saved. -/
theorem saveRefund_keeps {g : RefundRow → RefundRow} (hg : ∀ r, FourEyes.SameAsk r (g r))
    (hfail : ∀ e, (fail e).KeepsAll (Preserves Sound)) (hk : k.KeepsAll (Preserves Sound)) :
    (saveRefund id g fail k).KeepsAll (Preserves Sound) := fun v =>
  .update Preserves.trans (fun r hr _ h => h.refund hr (hg r)) (fun _ _ _ => hk _) (hfail _ v)

theorem approveRefund_keeps {q : ApproveCall} {next : RefundRow → Program} (hsep : FourEyes.Ends (Preserves Sound) sep)
    (hfail : ∀ e, (fail e).KeepsAll (Preserves Sound)) (hk : ∀ r, (next r).KeepsAll (Preserves Sound)) :
    (approveRefund sep fail E q next).KeepsAll (Preserves Sound) := by
  have hends : ∀ {q : Program}, q.KeepsAll (Preserves Sound) → (sep q).KeepsAll (Preserves Sound) := fun h v =>
    hsep v _ (h v)
  refine fun v => .read ?_
  rcases v.row (.refund q.refund) with _ | r
  · exact hfail _ v
  dsimp only
  split
  · exact hfail _ v
  split
  · exact hfail _ v
  split
  · exact hk _ v
  have happroved : ∀ r, FourEyes.SameAsk r (approved q.approver.pk r) := fun _ => ⟨rfl, rfl, rfl⟩
  refine notes_keeps (saveRefund_keeps happroved hfail (hends ?_)) v
  rcases q.answer with e | gatewayId
  · exact saveRefund_keeps (fun _ => ⟨rfl, rfl, rfl⟩) hfail (hends (notes_keeps (hk _)))
  · refine saveRefund_keeps (fun _ => ⟨rfl, rfl, rfl⟩) hfail (hends (notes_keeps (logs_keeps (hfail _) (hends ?_))))
    split
    · exact completeRefund_keeps hsep hfail (hk _)
    · exact hk _

theorem ends_commit : FourEyes.Ends (Preserves Sound) .commit := fun _ _ => .commit Preserves.trans Preserves.refl

theorem ends_nested : FourEyes.Ends (Preserves Sound) fun q => q := fun _ _ h => h

theorem refundExecutor_keeps {answer : Except String String} {fake : Bool} {times : ℕ → Time} {row : ApprovalRow}
    {approver : User} {next : Json → Program} (hfail : ∀ e, (fail e).KeepsAll (Preserves Sound))
    (hnext : ∀ r, (next r).KeepsAll (Preserves Sound)) :
    (refundExecutor E answer fake times row approver fail next).KeepsAll (Preserves Sound) := by
  unfold refundExecutor
  split
  · split
    · exact approveRefund_keeps ends_nested hfail fun _ => hnext _
    · exact hfail _
  · exact hfail _

/-- Requests for approvals do not matter. -/
theorem updates_keeps {pk : ℕ} {g : ApprovalRow → ApprovalRow} (hk : k.KeepsAll (Preserves Sound)) :
    (.update (.approval pk) (fun _ => true) g fun _ => k : Program).KeepsAll (Preserves Sound) := fun v =>
  .update Preserves.trans (fun _ _ _ => ignores_aside v _ _ rfl) (fun _ _ _ => hk _) (hk v)

theorem execute_keeps {answer : Except String String} {fake : Bool} {times : ℕ → Time} {pk : ℕ} {row : ApprovalRow}
    {approver : User} {request : Option Request} {now : Time} :
    (execute E (refundExecutor E answer fake times) pk row approver request now fun _ => .halt).KeepsAll
      (Preserves Sound) := by
  have hfinish : ∀ (row : ApprovalRow) (a : Entry), (.update (.approval pk) (fun _ => true) (fun _ => row) fun _ =>
      .commit <| .note (.decision pk .executed) <| recordNow E a .halt .halt : Program).KeepsAll (Preserves Sound) :=
    fun row a => updates_keeps (commits_keeps (notes_keeps fun v => record_keeps Preserves.trans ignores_audit
      (fun _ _ => rollbacks_keeps halt_keeps _) fun _ _ => commits_keeps halt_keeps _))
  refine notes_keeps (refundExecutor_keeps (fun e => rollbacks_keeps ?_) fun r => commits_keeps ?_)
  · exact hfinish _ _
  · exact hfinish _ _

theorem requestApproval_keeps {answer : Except String String} {fake : Bool} {times : ℕ → Time} {q : ApprovalCall} :
    (requestApproval E (refundExecutor E answer fake times) q fun _ => .halt).KeepsAll (Preserves Sound) := by
  unfold requestApproval
  split_ifs
  · exact halt_keeps
  · exact halt_keeps
  · refine aside_keeps rfl (rollbacks_keeps halt_keeps) (commits_keeps fun v => ?_)
    exact record_keeps Preserves.trans ignores_audit (fun _ _ => rollbacks_keeps halt_keeps _) fun _ _ =>
      commits_keeps halt_keeps _
  · refine aside_keeps rfl (rollbacks_keeps halt_keeps) (commits_keeps fun v => ?_)
    exact record_keeps Preserves.trans ignores_audit (fun _ _ => rollbacks_keeps halt_keeps _) fun _ _ =>
      commits_keeps (updates_keeps (commits_keeps execute_keeps)) _

/-- **Asking for a refund** of what was paid. -/
theorem requestRefund_keeps {q : RefundCall} : (requestRefund E q fun _ => .halt).KeepsAll (Preserves Sound) := by
  have hback : ∀ e : Failure, (failing (fun _ : Except Failure Unit => (.halt : Program)) e).KeepsAll (Preserves Sound) :=
    fun _ => rollbacks_keeps halt_keeps
  refine fun v => .read ?_
  rcases hp : v.row (.payment q.reference) with _ | p
  · exact halt_keeps v
  dsimp only
  rcases hwrong : q.wrong p with _ | e
  swap
  · exact halt_keeps v
  have hright : ¬ Unpaid p.status ∧ 0 < q.row.amount := by
    unfold RefundCall.wrong at hwrong
    split_ifs at hwrong with hmay hpaid hamount
    refine ⟨fun hu => ?_, ?_⟩
    · rcases hu with hs | hs | hs | hs <;> exact hpaid (by simp [hs])
    · show 0 < q.amount.toNat
      omega
  refine .note (.insertOr Preserves.trans (fun _ h => h.asks hp hright.1 hright.2) (fun _ => ?_)
    (rollbacks_keeps halt_keeps v))
  refine commits_keeps (notes_keeps (logs_keeps (rollbacks_keeps halt_keeps) (commits_keeps ?_))) _
  split_ifs
  · exact requestApproval_keeps
  · exact approveRefund_keeps ends_commit hback fun _ => halt_keeps
  · exact halt_keeps

theorem rejectHeldPayment_keeps {q : RejectCall} :
    (rejectHeldPayment E q fun _ => .halt).KeepsAll (Preserves Sound) := by
  refine fun v => .read ?_
  rcases v.row (.payment q.reference) with _ | p
  · exact halt_keeps v
  refine record_keeps Preserves.trans ignores_audit (fun _ _ => rollbacks_keeps halt_keeps _) fun _ _ =>
    commits_keeps ?_ _
  split_ifs
  · exact requestRefund_keeps
  · exact halt_keeps

theorem decideApproval_keeps {answer : Except String String} {fake : Bool} {times : ℕ → Time} {q : DecideCall} :
    (decideApproval E (refundExecutor E answer fake times) q fun _ => .halt).KeepsAll (Preserves Sound) := by
  refine fun v => .read ?_
  rcases v.row (.approval q.approval) with _ | row
  · exact halt_keeps v
  show (decideRead E (refundExecutor E answer fake times) q row fun _ => .halt).Keeps (Preserves Sound) v
  unfold decideRead
  split_ifs with hdecided hexpired hmay hself happrove
  · exact halt_keeps v
  · exact notes_keeps (updates_keeps (commits_keeps (notes_keeps halt_keeps))) v
  · exact halt_keeps v
  · exact halt_keeps v
  · refine notes_keeps (updates_keeps (commits_keeps (notes_keeps fun v => ?_))) v
    exact record_keeps Preserves.trans ignores_audit (fun _ _ => rollbacks_keeps halt_keeps _) fun _ _ =>
      commits_keeps execute_keeps _
  · refine notes_keeps (updates_keeps (commits_keeps (notes_keeps fun v => ?_))) v
    exact record_keeps Preserves.trans ignores_audit (fun _ _ => rollbacks_keeps halt_keeps _) fun _ _ =>
      commits_keeps halt_keeps _

/-- **A report of a refund**, alone. -/
theorem webhookRefund_keeps {q : WebhookCall} : (webhookRefund E q fun _ => .halt).KeepsAll (Preserves Sound) := by
  unfold webhookRefund
  rcases refundReference E q.data with e | reference
  · exact halt_keeps
  refine fun v => .read ?_
  dsimp only
  rcases (openRefunds v reference).head? with _ | ⟨id, r⟩
  · exact halt_keeps v
  dsimp only
  split_ifs
  · exact completeRefund_keeps ends_commit (fun _ => rollbacks_keeps halt_keeps) halt_keeps v
  · refine .note (.update Preserves.trans (fun r hr _ h => h.refund hr ⟨rfl, rfl, rfl⟩) (fun _ _ _ => ?_) ?_)
    · exact commits_keeps halt_keeps _
    · exact commits_keeps halt_keeps _
  · exact halt_keeps v

end Refunds

end Programs

/-! ### The calls, one after the other -/

section Runs

variable {E : Env} {threshold : ℕ} {db : Database}

/-- **A call** keeps states and amounts in agreement. -/
theorem Call.sound (c : Call) (hbilled : c.Billed E) (hresolved : Resolved E db c) (h : Sound db) :
    Sound ((c.prog E threshold).after db) := by
  have hkeeps : (c.prog E threshold).Keeps (Preserves Sound) db := by
    rcases c with ⟨A, q⟩ | c | q | ⟨q, reference⟩
    · exact applyGatewayResult_keeps hbilled hresolved
    · rcases c with q | q | q | ⟨answer, fake, now, q⟩
      · exact requestRefund_keeps db
      · exact approveRefund_keeps ends_commit (fun _ => rollbacks_keeps halt_keeps) (fun _ => halt_keeps) db
      · exact rejectHeldPayment_keeps db
      · exact decideApproval_keeps db
    · exact webhookRefund_keeps db
    · exact webhookDispute_keeps hresolved
  exact hkeeps.after Preserves.refl h

theorem run_sound : ∀ (calls : List Call) {db : Database}, (∀ c ∈ calls, c.Billed E) → AllResolved E threshold db calls →
    Sound db → Sound (run E threshold calls db)
  | [], _, _, _, h => h
  | c :: calls, _, hbilled, ⟨hresolved, hrest⟩, h =>
    run_sound calls (fun c' hc => hbilled c' (List.mem_cons_of_mem _ hc)) hrest
      (c.sound (hbilled c List.mem_cons_self) hresolved h)

/-- **The state of a payment says how much of it is refunded**, in whatever order
the calls come. -/
theorem status_agrees {calls : List Call} (hbilled : ∀ c ∈ calls, c.Billed E) (h : Sound db)
    (hresolved : AllResolved E threshold db calls) {reference : String} {p : PaymentRow}
    (hp : (run E threshold calls db).row (.payment reference) = some p) : Agrees p :=
  (run_sound calls hbilled hresolved h).agrees reference p hp

end Runs

/-! ### A dispute about what is left -/

/-- The refund of half of a payment that counts, in the gateway's hands. -/
def halfInHand : Database :=
  Reversals.counted.set (.refund "a") (some { (RefundLimits.ask "a" 100).row with status := .PROCESSING })

theorem halfInHand_sound : Sound halfInHand := by
  have hpayment : ∀ {reference : String} {p : PaymentRow}, halfInHand.row (.payment reference) = some p →
      p = Reversals.paidPurchase := by
    intro reference p hp
    by_cases heq : reference = "ref"
    · subst heq
      exact (Option.some.inj hp).symm
    · have hnone : halfInHand.row (.payment reference) = none := by
        simp [halfInHand, Reversals.counted, Transitions.shop, heq]
      rw [hnone] at hp
      cases hp
  refine ⟨fun reference p hp => ?_, fun reference p hp _ => ?_, fun id r hr => ?_⟩
  · rw [hpayment hp]
    exact ⟨fun _ => rfl, fun hs => (by cases hs), fun hs => (by cases hs)⟩
  · rw [hpayment hp]
    rfl
  · by_cases heq : id = "a"
    · subst heq
      obtain rfl := Option.some.inj hr
      exact ⟨by decide, Reversals.paidPurchase, rfl, by simp [Unpaid, Reversals.paidPurchase]⟩
    · have hnone : halfInHand.row (.refund id) = none := by
        simp [halfInHand, Reversals.counted, Transitions.shop, heq]
      rw [hnone] at hr
      cases hr

/-- The refund is processed, and the rest disputed. -/
def refundedThenDisputed (resolution : String) : List Call :=
  [.refundReport { eventType := "refund.processed", data := [("transaction_reference", .str "ref")], now := fun _ => 5 },
    .dispute (Reversals.dispute "charge.dispute.create" "") "ref",
    .dispute (Reversals.dispute "charge.dispute.resolve" resolution) "ref"]

theorem refundedThenDisputed_billed (resolution : String) : ∀ c ∈ refundedThenDisputed resolution, c.Billed .plain := by
  intro c hc
  simp only [refundedThenDisputed, List.mem_cons, List.not_mem_nil, or_false] at hc
  rcases hc with rfl | rfl | rfl <;> trivial

/-- The dispute is lost. -/
theorem status_agrees_lost : ∃ p, (run .plain 1000 (refundedThenDisputed "lost") halfInHand).row (.payment "ref") = some p ∧
    (p.status, p.refundedAmount) = (.REVERSED, 100) ∧ Agrees p := by
  have hend : ((run .plain 1000 (refundedThenDisputed "lost") halfInHand).row (.payment "ref")).map (fun p =>
      (p.status, p.refundedAmount)) = some (.REVERSED, 100) := by decide +kernel
  obtain ⟨p, hp, hend⟩ := Option.map_eq_some_iff.mp hend
  refine ⟨p, hp, hend, status_agrees (refundedThenDisputed_billed _) halfInHand_sound ⟨trivial, ?_, ?_, trivial⟩ hp⟩
  · exact fun _ _ _ _ hresolve => absurd hresolve (by decide)
  · exact fun _ _ _ _ _ hwon => absurd hwon (by decide +kernel)

/-- The dispute is won: the payment is successful, and half of it refunded. -/
theorem not_status_agrees :
    ¬ ∀ (E : Env) (threshold : ℕ) (calls : List Call) (db : Database) (reference : String) (p : PaymentRow),
      (∀ c ∈ calls, c.Billed E) → Sound db → (run E threshold calls db).row (.payment reference) = some p → Agrees p := by
  intro h
  have hend : ((run .plain 1000 (refundedThenDisputed "merchant-accepted") halfInHand).row (.payment "ref")).map (fun p =>
      (p.status, p.refundedAmount)) = some (.SUCCESS, 100) := by decide +kernel
  obtain ⟨p, hp, hend⟩ := Option.map_eq_some_iff.mp hend
  obtain ⟨hstatus, hrefunded⟩ := Prod.mk.inj hend
  have hagrees := h .plain 1000 _ _ "ref" p (refundedThenDisputed_billed _) halfInHand_sound hp
  have hzero := hagrees.success hstatus
  rw [hrefunded] at hzero
  cases hzero

end RefundStates
end FlexyVotes
