/-
# Two people for a large refund

A refund above the threshold is approved by somebody else than who asked for it,
by whatever route it gets to the gateway, if its election asks for two: a direct
approval compares the two, a request for an approval is decided by another
person than asked for it, and who asked for the approval of a refund is who
asked for the refund (`Separate`).

Key definitions: `Call`, `TwoPeople`, `Separate`.
Key theorems: `approveRefund_keeps`, `Call.separate`, `large_refunds_separated`.
-/
import FlexyVotes.Payments.RefundReports

namespace FlexyVotes
namespace FourEyes

open Transactions Audit Payments Integrity Transitions Reversals RefundLimits

/-! ### The calls -/

/-- Requests and approvals of refunds, under one threshold. -/
inductive Call
  | requestRefund (q : RefundCall)
  | approveRefund (q : ApproveCall)
  | rejectHeldPayment (q : RejectCall)
  | decideApproval (answer : Except String String) (fake : Bool) (now : ℕ → Time) (q : DecideCall)

/-- The program of a call; the view of a payment approves refunds directly. -/
def Call.prog (E : Env) (threshold : ℕ) : Call → Program
  | .requestRefund q => Payments.requestRefund E { q with threshold := threshold } fun _ => .halt
  | .approveRefund q => Payments.approveRefund .commit (failing fun _ : Except Failure Unit => .halt) E
      { q with viaApproval := false } fun _ => .halt
  | .rejectHeldPayment q => Payments.rejectHeldPayment E { q with threshold := threshold } fun _ => .halt
  | .decideApproval answer fake now q => Integrity.decideApproval E (refundExecutor E answer fake now) q fun _ => .halt

/-! ### Who asked and who approved -/

/-- The refund was approved by somebody else than who asked for it. -/
def TwoPeople (r : RefundRow) : Prop := ∃ a, r.approvedBy = some a ∧ a ≠ r.requestedBy

/-- The election of a refund. -/
def eventOf (db : Database) (r : RefundRow) : Option ℕ := (db.row (.payment r.payment)).bind (·.event)

/-- The refund is above the threshold, in the election. -/
def Large (event threshold : ℕ) (db : Database) (r : RefundRow) : Prop :=
  threshold < r.amount ∧ eventOf db r = some event

/-- The request is for the approval of the refund `id`. -/
def Names (row : ApprovalRow) (id : String) : Prop :=
  row.action = .REFUND ∧ ∃ payload, row.payload = .obj payload ∧ Json.get? payload "refund_id" = some (.str id)

theorem Names.of_same {row row' : ApprovalRow} {id : String} (h : Names row' id) (haction : row'.action = row.action)
    (hpayload : row'.payload = row.payload) : Names row id := by
  unfold Names at h ⊢
  rwa [haction, hpayload] at h

/-- Two people stand behind every large refund of the election that was handed
to the gateway. -/
structure Separate (event threshold : ℕ) (db : Database) : Prop where
  dual : ∃ ev, db.row (.event event) = some ev ∧ ev.dualApprovalRequired = true
  approved : ∀ id r, db.row (.refund id) = some r → Large event threshold db r → r.status ≠ .REQUESTED → TwoPeople r
  asked : ∀ pk row id, db.row (.approval pk) = some row → Names row id →
    ∃ r, db.row (.refund id) = some r ∧ r.requestedBy = row.requestedBy

/-- The refund stays as it was asked for. -/
structure SameAsk (r r' : RefundRow) : Prop where
  requestedBy : r'.requestedBy = r.requestedBy
  payment : r'.payment = r.payment
  amount : r'.amount = r.amount

theorem SameAsk.refl (r : RefundRow) : SameAsk r r := ⟨rfl, rfl, rfl⟩

theorem SameAsk.trans {r r' r'' : RefundRow} (h : SameAsk r r') (h' : SameAsk r' r'') : SameAsk r r'' :=
  ⟨h'.requestedBy.trans h.requestedBy, h'.payment.trans h.payment, h'.amount.trans h.amount⟩

/-- The refunds of `db` are there, as they were asked for. -/
def Since (db v : Database) : Prop := ∀ id r, db.row (.refund id) = some r →
  ∃ r', v.row (.refund id) = some r' ∧ SameAsk r r' ∧ eventOf v r' = eventOf db r

/-- What the programs keep, from the database `db` on. -/
structure Inv (event threshold : ℕ) (db v : Database) : Prop where
  separate : Separate event threshold v
  since : Since db v

section Writes

variable {event threshold : ℕ} {db v : Database}

theorem Inv.start (h : Separate event threshold db) : Inv event threshold db db :=
  ⟨h, fun _ r hr => ⟨r, hr, .refl r, rfl⟩⟩

/-- The rows the invariant does not look at. -/
def isAside : Key → Bool
  | .refund _ => false
  | .payment _ => false
  | .approval _ => false
  | .event _ => false
  | _ => true

theorem Inv.congr {v' : Database} (h : Inv event threshold db v)
    (hrefunds : ∀ id, v'.row (.refund id) = v.row (.refund id)) (hpayments : ∀ r, (v'.row (.payment r)).bind (·.event) =
      (v.row (.payment r)).bind (·.event)) (hevent : v'.row (.event event) = v.row (.event event))
    (hasked : ∀ pk row id, v'.row (.approval pk) = some row → Names row id →
      ∃ r, v.row (.refund id) = some r ∧ r.requestedBy = row.requestedBy) : Inv event threshold db v' := by
  have hof : ∀ r, eventOf v' r = eventOf v r := fun r => hpayments r.payment
  refine ⟨⟨?_, fun id r hr hlarge hs => ?_, fun pk row id hrow hnames => ?_⟩, fun id r hr => ?_⟩
  · rw [hevent]
    exact h.separate.dual
  · rw [hrefunds] at hr
    exact h.separate.approved id r hr ⟨hlarge.1, (hof r).symm.trans hlarge.2⟩ hs
  · rw [hrefunds]
    exact hasked pk row id hrow hnames
  · obtain ⟨r', hr', hsame, hevent'⟩ := h.since id r hr
    exact ⟨r', (hrefunds id).trans hr', hsame, (hof r').trans hevent'⟩

theorem ignores_aside : Ignores (Preserves (Inv event threshold db)) isAside := fun v k r hk h => by
  have hrow : ∀ x, isAside x = false → (v.set k r).row x = v.row x := fun x hx =>
    Db.set_row_ne _ _ fun heq => by
      rw [heq, hk] at hx
      cases hx
  refine h.congr (fun _ => hrow _ rfl) (fun _ => by rw [hrow _ rfl]) (hrow _ rfl) fun pk row id hrow' hnames => ?_
  rw [hrow _ rfl] at hrow'
  exact h.separate.asked pk row id hrow' hnames

theorem ignores_audit : Ignores (Preserves (Inv event threshold db)) isAudit := fun v k r hk => by
  refine ignores_aside v k r ?_
  cases k <;> first
    | rfl
    | cases hk

/-- A payment of the same election. -/
theorem Inv.payment {reference : String} {p p' : PaymentRow} (h : Inv event threshold db v)
    (hp : v.row (.payment reference) = some p) (hevent : p'.event = p.event) :
    Inv event threshold db (v.set (.payment reference) (some p')) := by
  refine h.congr (fun _ => Db.set_row_ne _ _ (by simp)) (fun r => ?_) (Db.set_row_ne _ _ (by simp))
    fun pk row id hrow hnames => ?_
  · by_cases hr : r = reference
    · subst hr
      rw [Db.set_row_self, hp]
      exact hevent
    · rw [Db.set_row_ne _ _ (by simpa using hr)]
  · rw [Db.set_row_ne _ _ (by simp)] at hrow
    exact h.separate.asked pk row id hrow hnames

/-- A request for an approval of a refund by who asked for it. -/
theorem Inv.approval {pk : ℕ} {row : ApprovalRow} (h : Inv event threshold db v)
    (hasked : ∀ id, Names row id → ∃ r, v.row (.refund id) = some r ∧ r.requestedBy = row.requestedBy) :
    Inv event threshold db (v.set (.approval pk) (some row)) := by
  refine h.congr (fun _ => Db.set_row_ne _ _ (by simp)) (fun _ => by rw [Db.set_row_ne _ _ (by simp)])
    (Db.set_row_ne _ _ (by simp)) fun pk' row' id hrow hnames => ?_
  by_cases hpk : pk' = pk
  · subst hpk
    rw [Db.set_row_self] at hrow
    obtain rfl := Option.some.inj hrow
    exact hasked id hnames
  · rw [Db.set_row_ne _ _ (by simpa using hpk)] at hrow
    exact h.separate.asked pk' row' id hrow hnames

/-- A request of the same kind is for the approval of refunds that are still there. -/
theorem Inv.asked {row row' : ApprovalRow} (h : Inv event threshold db v)
    (hasked : ∀ id, Names row id → ∃ r, db.row (.refund id) = some r ∧ r.requestedBy = row'.requestedBy)
    (haction : row'.action = row.action) (hpayload : row'.payload = row.payload) :
    ∀ id, Names row' id → ∃ r, v.row (.refund id) = some r ∧ r.requestedBy = row'.requestedBy := by
  intro id hnames
  obtain ⟨r, hr, hby⟩ := hasked id (hnames.of_same haction hpayload)
  obtain ⟨r', hr', hsame, -⟩ := h.since id r hr
  exact ⟨r', hr', hsame.requestedBy.trans hby⟩

/-- A refund is saved as it was asked for. -/
theorem Inv.refund {id : String} {r r' : RefundRow} (h : Inv event threshold db v) (hr : v.row (.refund id) = some r)
    (hsame : SameAsk r r') (heyes : Large event threshold v r → r'.status ≠ .REQUESTED → TwoPeople r') :
    Inv event threshold db (v.set (.refund id) (some r')) := by
  have hof : ∀ r, eventOf (v.set (.refund id) (some r')) r = eventOf v r := fun r => by
    unfold eventOf
    rw [Db.set_row_ne _ _ (by simp)]
  have hrow : ∀ id', id' ≠ id → (v.set (.refund id) (some r')).row (.refund id') = v.row (.refund id') := fun id' hid =>
    Db.set_row_ne _ _ (by simpa using hid)
  have hsince : ∀ id' r₁, v.row (.refund id') = some r₁ →
      ∃ r₂, (v.set (.refund id) (some r')).row (.refund id') = some r₂ ∧ SameAsk r₁ r₂ := fun id' r₁ hr₁ => by
    by_cases hid : id' = id
    · subst hid
      obtain rfl := Option.some.inj (hr.symm.trans hr₁)
      exact ⟨r', Db.set_row_self _ _ _, hsame⟩
    · exact ⟨r₁, (hrow id' hid).trans hr₁, .refl r₁⟩
  refine ⟨⟨?_, fun id' r₁ hr₁ hlarge hs => ?_, fun pk row id' hrow' hnames => ?_⟩, fun id' r₀ hr₀ => ?_⟩
  · rw [Db.set_row_ne _ _ (by simp)]
    exact h.separate.dual
  · by_cases hid : id' = id
    · subst hid
      rw [Db.set_row_self] at hr₁
      obtain rfl := Option.some.inj hr₁
      refine heyes ⟨hsame.amount ▸ hlarge.1, ?_⟩ hs
      have hevent := hlarge.2
      rw [hof] at hevent
      unfold eventOf at hevent ⊢
      rwa [hsame.payment] at hevent
    · rw [hrow id' hid] at hr₁
      exact h.separate.approved id' r₁ hr₁ ⟨hlarge.1, (hof r₁).symm.trans hlarge.2⟩ hs
  · rw [Db.set_row_ne _ _ (by simp)] at hrow'
    obtain ⟨r₁, hr₁, hby⟩ := h.separate.asked pk row id' hrow' hnames
    obtain ⟨r₂, hr₂, hsame'⟩ := hsince id' r₁ hr₁
    exact ⟨r₂, hr₂, hsame'.requestedBy.trans hby⟩
  · obtain ⟨r₁, hr₁, hsame₁, hevent⟩ := h.since id' r₀ hr₀
    obtain ⟨r₂, hr₂, hsame₂⟩ := hsince id' r₁ hr₁
    refine ⟨r₂, hr₂, hsame₁.trans hsame₂, ?_⟩
    rw [hof, ← hevent]
    unfold eventOf
    rw [hsame₂.payment]

/-- A new refund waits for its approval. -/
theorem Inv.asks {id : String} {r : RefundRow} (h : Inv event threshold db v) (hfree : v.row (.refund id) = none)
    (hs : r.status = .REQUESTED) : Inv event threshold db (v.set (.refund id) (some r)) := by
  have hof : ∀ r', eventOf (v.set (.refund id) (some r)) r' = eventOf v r' := fun r' => by
    unfold eventOf
    rw [Db.set_row_ne _ _ (by simp)]
  have hrow : ∀ id' r₁, v.row (.refund id') = some r₁ → (v.set (.refund id) (some r)).row (.refund id') = some r₁ := by
    intro id' r₁ hr₁
    have hid : id' ≠ id := by
      rintro rfl
      rw [hfree] at hr₁
      cases hr₁
    exact (Db.set_row_ne _ _ (by simpa using hid)).trans hr₁
  refine ⟨⟨?_, fun id' r₁ hr₁ hlarge hs' => ?_, fun pk row id' hrow' hnames => ?_⟩, fun id' r₀ hr₀ => ?_⟩
  · rw [Db.set_row_ne _ _ (by simp)]
    exact h.separate.dual
  · by_cases hid : id' = id
    · subst hid
      rw [Db.set_row_self] at hr₁
      obtain rfl := Option.some.inj hr₁
      exact absurd hs hs'
    · rw [Db.set_row_ne _ _ (by simpa using hid)] at hr₁
      exact h.separate.approved id' r₁ hr₁ ⟨hlarge.1, (hof r₁).symm.trans hlarge.2⟩ hs'
  · rw [Db.set_row_ne _ _ (by simp)] at hrow'
    obtain ⟨r₁, hr₁, hby⟩ := h.separate.asked pk row id' hrow' hnames
    exact ⟨r₁, hrow id' r₁ hr₁, hby⟩
  · obtain ⟨r₁, hr₁, hsame, hevent⟩ := h.since id' r₀ hr₀
    exact ⟨r₁, hrow id' r₁ hr₁, hsame, (hof r₁).trans hevent⟩

end Writes

/-! ### The programs -/

section Programs

variable {E : Env} {event threshold : ℕ} {db v : Database} {id : String} {k rest : Program}

theorem commits_keeps (hrest : rest.KeepsAll (Preserves (Inv event threshold db))) :
    (Prog.commit rest).KeepsAll (Preserves (Inv event threshold db)) :=
  fun v => .commit Preserves.trans Preserves.refl (hrest v)

theorem transition_event (p : PaymentRow) (target : PaymentStatus) (now : Time) :
    (transition p target now).event = p.event := by
  unfold transition
  split_ifs <;> rfl

theorem saveTransition_keeps {reference : String} {p : PaymentRow} {target : PaymentStatus} {now : Time}
    (hp : v.row (.payment reference) = some p) (hrest : rest.KeepsAll (Preserves (Inv event threshold db))) :
    (saveTransition reference p target now rest).Keeps (Preserves (Inv event threshold db)) v := by
  unfold saveTransition
  split
  · exact .put Preserves.trans (fun h => h.payment hp (transition_event _ _ _)) (hrest _)
  · exact hrest v

theorem reverseVotes_keeps {reference : String} (hrest : rest.KeepsAll (Preserves (Inv event threshold db))) :
    (reverseVotes reference rest).Keeps (Preserves (Inv event threshold db)) v :=
  .updateWhere Preserves.trans ignores_aside (fun k r h => by
    cases k <;> first
      | rfl
      | cases h) hrest

/-- What ends a statement: a commit, or nothing. -/
def Ends (R : Database → Database → Prop) (sep : Program → Program) : Prop := ∀ v q, q.Keeps R v → (sep q).Keeps R v

theorem ends_commit : Ends (Preserves (Inv event threshold db)) .commit := fun _ _ =>
  .commit Preserves.trans Preserves.refl

theorem ends_nested : Ends (Preserves (Inv event threshold db)) fun q => q := fun _ _ h => h

/-- The fields of a refund that was approved are saved. -/
theorem saveRefund_keeps {r : RefundRow} {g : RefundRow → RefundRow} {fail : Failure → Program}
    (hr : v.row (.refund id) = some r) (hsame : SameAsk r (g r)) (heyes : Inv event threshold db v →
      Large event threshold v r → (g r).status ≠ .REQUESTED → TwoPeople (g r))
    (hk : k.Keeps (Preserves (Inv event threshold db)) (v.set (.refund id) (some (g r))))
    (hfail : ∀ e, (fail e).KeepsAll (Preserves (Inv event threshold db))) :
    (saveRefund id g fail k).Keeps (Preserves (Inv event threshold db)) v := by
  refine .update Preserves.trans (fun r' hr' _ h => ?_) (fun r' hr' _ => ?_) (hfail _ v)
  · obtain rfl := Option.some.inj (hr.symm.trans hr')
    exact h.refund hr hsame (heyes h)
  · obtain rfl := Option.some.inj (hr.symm.trans hr')
    exact hk

theorem completeRefund_keeps {sep : Program → Program} {fail : Failure → Program} {now : ℕ → Time} {r : RefundRow}
    (hsep : Ends (Preserves (Inv event threshold db)) sep) (hr : v.row (.refund id) = some r) (hs : r.status ≠ .REQUESTED)
    (hfail : ∀ e, (fail e).KeepsAll (Preserves (Inv event threshold db)))
    (hk : k.KeepsAll (Preserves (Inv event threshold db))) :
    (completeRefund sep fail E id now k).Keeps (Preserves (Inv event threshold db)) v := by
  unfold completeRefund
  refine .lockRow (fun _ => hfail _ v) fun r' hr' => ?_
  obtain rfl := Option.some.inj (hr.symm.trans hr')
  dsimp only
  split
  · exact hsep v _ (hk v)
  refine .lockRow (fun _ => hfail _ v) fun p hp => ?_
  have hput : (v.set (.refund id) (some (processed r (now 0)))).row (.payment r.payment) = some p :=
    (Db.set_row_ne _ _ (by simp)).trans hp
  refine .put Preserves.trans (fun h => h.refund hr ⟨rfl, rfl, rfl⟩ fun hlarge _ => ?_) ?_
  · exact h.separate.approved id r hr hlarge hs
  refine .put Preserves.trans (fun h => h.payment hput rfl) ?_
  have hdone : (sep (recordRefund E (fun o => refundEntry "REFUND_PROCESSED" none none p.event o id
      ("Refund " ++ money r.amount ++ " processed") "" (now 2)) p.event (fail (.crash "DatabaseError"))
      (sep k))).KeepsAll (Preserves (Inv event threshold db)) := fun v => by
    refine hsep v _ (.read (record_keeps Preserves.trans ignores_audit (fun _ _ => hfail _ _) fun _ _ => ?_))
    exact hsep _ _ (hk _)
  refine saveTransition_keeps (Db.set_row_self _ _ _) fun v' => ?_
  split
  · exact reverseVotes_keeps hdone
  · exact hdone v'

/-- **An approval** by somebody else than who asked, or of a refund that needs no
two people. -/
theorem approveRefund_keeps {sep : Program → Program} {fail : Failure → Program} {q : ApproveCall}
    {next : RefundRow → Program} (hsep : Ends (Preserves (Inv event threshold db)) sep)
    (hfair : q.viaApproval = true → ∃ r, db.row (.refund q.refund) = some r ∧
      (q.approver.pk ≠ r.requestedBy ∨ ¬ Large event threshold db r))
    (hfail : ∀ e, (fail e).KeepsAll (Preserves (Inv event threshold db)))
    (hk : ∀ r, (next r).KeepsAll (Preserves (Inv event threshold db))) :
    (approveRefund sep fail E q next).KeepsAll (Preserves (Inv event threshold db)) := by
  intro v
  refine .read (.given fun hinv => ?_)
  rcases hr : v.row (.refund q.refund) with _ | r
  · exact hfail _ v
  dsimp only
  by_cases hpermission : (!q.viaApproval) = true ∧ (!q.approver.may "refund.approve"
      ((v.row (.payment r.payment)).bind (·.event))) = true
  · rw [if_pos hpermission]
    exact hfail _ v
  rw [if_neg hpermission]
  by_cases hself : (!q.viaApproval) = true ∧ q.approver.pk = r.requestedBy
  · rw [if_pos hself]
    exact hfail _ v
  rw [if_neg hself]
  by_cases hopen : r.status ≠ .REQUESTED
  · rw [if_pos hopen]
    exact hk _ v
  rw [if_neg hopen]
  have hother : Large event threshold v r → q.approver.pk ≠ r.requestedBy := by
    intro hlarge
    rcases hvia : q.viaApproval with _ | _
    · exact fun heq => hself ⟨by simp [hvia], heq⟩
    obtain ⟨r₀, hr₀, hor⟩ := hfair hvia
    obtain ⟨r', hr', hsame, hevent⟩ := hinv.since _ r₀ hr₀
    obtain rfl := Option.some.inj (hr.symm.trans hr')
    rcases hor with hne | hsmall
    · rwa [hsame.requestedBy]
    · exact absurd ⟨hsame.amount ▸ hlarge.1, hevent.symm.trans hlarge.2⟩ hsmall
  refine .note (saveRefund_keeps hr ⟨rfl, rfl, rfl⟩ (fun _ hlarge _ => ?_) (hsep _ _ ?_) hfail)
  · exact ⟨_, rfl, hother hlarge⟩
  have hrow : (v.set (.refund q.refund) (some (approved q.approver.pk r))).row (.refund q.refund) =
      some (approved q.approver.pk r) := Db.set_row_self _ _ _
  have happroved : Inv event threshold db (v.set (.refund q.refund) (some (approved q.approver.pk r))) →
      Large event threshold (v.set (.refund q.refund) (some (approved q.approver.pk r))) (approved q.approver.pk r) →
      TwoPeople (approved q.approver.pk r) := fun h hlarge =>
    h.separate.approved _ _ hrow hlarge (by simp [approved])
  rcases q.answer with e | gatewayId
  · refine saveRefund_keeps hrow ⟨rfl, rfl, rfl⟩ (fun h hlarge _ => happroved h hlarge)
      (hsep _ _ (.note (hk _ _))) hfail
  · refine saveRefund_keeps hrow ⟨rfl, rfl, rfl⟩ (fun h hlarge _ => happroved h hlarge)
      (hsep _ _ (.note (.read ?_))) hfail
    refine record_keeps Preserves.trans ignores_audit (fun _ _ => hfail _ _) fun v' hoff => hsep _ _ ?_
    split
    · refine completeRefund_keeps hsep ((hoff _ rfl).trans (Db.set_row_self _ _ _)) ?_ hfail (hk _)
      simp [processing]
    · exact hk _ v'

/-- The action on a refund keeps the invariant where its ends do. -/
theorem refundExecutor_keeps {answer : Except String String} {fake : Bool} {times : ℕ → Time} {row : ApprovalRow}
    {approver : User} {fail : Failure → Program} {next : Json → Program}
    (hfair : ∀ id, Names row id → ∃ r, db.row (.refund id) = some r ∧
      (approver.pk ≠ r.requestedBy ∨ ¬ Large event threshold db r))
    (hfail : ∀ e, (fail e).KeepsAll (Preserves (Inv event threshold db)))
    (hnext : ∀ r, (next r).KeepsAll (Preserves (Inv event threshold db))) :
    (refundExecutor E answer fake times row approver fail next).KeepsAll (Preserves (Inv event threshold db)) := by
  unfold refundExecutor
  split
  · rename_i payload haction hpayload
    split
    · rename_i id hid
      exact approveRefund_keeps ends_nested (fun _ => hfair id ⟨haction, payload, hpayload, hid⟩) hfail fun _ => hnext _
    · exact hfail _
  · exact hfail _

/-- The outcome of an action is noted on its request. -/
theorem execute_keeps {answer : Except String String} {fake : Bool} {times : ℕ → Time} {pk : ℕ} {row : ApprovalRow}
    {approver : User} {request : Option Request} {now : Time} {k : Except Failure Unit → Program}
    (hfair : ∀ id, Names row id → ∃ r, db.row (.refund id) = some r ∧ r.requestedBy = row.requestedBy ∧
      (approver.pk ≠ r.requestedBy ∨ ¬ Large event threshold db r))
    (hk : ∀ r, (k r).KeepsAll (Preserves (Inv event threshold db))) :
    (execute E (refundExecutor E answer fake times) pk row approver request now k).KeepsAll
      (Preserves (Inv event threshold db)) := by
  have hfinish : ∀ (row' : ApprovalRow) (entry : Entry), row'.action = row.action → row'.payload = row.payload →
      row'.requestedBy = row.requestedBy → (Prog.update (.approval pk) (fun _ => true) (fun _ => row') fun _ => .commit <|
        .note (.decision pk .executed) <| recordNow E entry (k (.error (.crash "DatabaseError"))) (k (.ok ())) :
        Program).KeepsAll (Preserves (Inv event threshold db)) := by
    intro row' entry haction hpayload hby v
    have hrecord : (Prog.commit (.note (.decision pk .executed) <|
        recordNow E entry (k (.error (.crash "DatabaseError"))) (k (.ok ()))) : Program).KeepsAll
        (Preserves (Inv event threshold db)) :=
      commits_keeps fun v => .note (record_keeps Preserves.trans ignores_audit
        (fun _ _ => .rollback Preserves.refl (hk _)) fun _ _ => commits_keeps (hk _) _)
    refine .update Preserves.trans (fun _ _ _ h => h.approval (h.asked (fun id hnames => ?_) haction hpayload))
      (fun _ _ _ => hrecord _) (hrecord v)
    obtain ⟨r, hr, hasked, -⟩ := hfair id hnames
    exact ⟨r, hr, hasked.trans hby.symm⟩
  intro v
  refine .note (refundExecutor_keeps (fun id hnames => ?_) ?_ ?_ v)
  · obtain ⟨r, hr, -, hor⟩ := hfair id hnames
    exact ⟨r, hr, hor⟩
  · exact fun e _ => .rollback Preserves.refl (hfinish _ _ rfl rfl rfl)
  · exact fun _ => commits_keeps (hfinish _ _ rfl rfl rfl)

end Programs

/-! ### The calls, one after the other -/

section Calls

variable {E : Env} {event threshold : ℕ} {db : Database}

/-- **Asking for an approval** of a refund by who asked for it; it runs at once
only where two people are not needed. -/
theorem requestApproval_keeps {answer : Except String String} {fake : Bool} {times : ℕ → Time} {q : ApprovalCall}
    {k : Except Failure Unit → Program} (hasked : ∀ id, Names (q.row E) id → ∃ r, db.row (.refund id) = some r ∧
      r.requestedBy = q.requester.pk ∧ (q.event.all (·.2.dualApprovalRequired) = true ∨ ¬ Large event threshold db r))
    (hk : ∀ r, (k r).KeepsAll (Preserves (Inv event threshold db))) :
    (requestApproval E (refundExecutor E answer fake times) q k).KeepsAll (Preserves (Inv event threshold db)) := by
  intro v
  unfold requestApproval
  split
  · exact hk _ v
  split
  · exact hk _ v
  have hrow : ∀ {v' : Database} {row : ApprovalRow}, Inv event threshold db v' → row.action = (q.row E).action →
      row.payload = (q.row E).payload → row.requestedBy = q.requester.pk → ∀ id, Names row id →
      ∃ r, v'.row (.refund id) = some r ∧ r.requestedBy = row.requestedBy := by
    intro v' row h haction hpayload hby
    refine h.asked (fun id hnames => ?_) haction hpayload
    obtain ⟨r, hr, hasked, -⟩ := hasked id hnames
    exact ⟨r, hr, hasked.trans hby.symm⟩
  refine .insertOr Preserves.trans (fun _ h => h.approval (hrow h rfl rfl rfl)) (fun _ => commits_keeps (fun v => ?_) _)
    (.rollback Preserves.refl (hk _))
  refine record_keeps Preserves.trans ignores_audit (fun _ _ => .rollback Preserves.refl (hk _)) fun _ _ =>
    commits_keeps (fun v => ?_) _
  split
  · exact hk _ v
  rename_i hdual
  have hexecute : ∀ (row : ApprovalRow), row.action = (q.row E).action → row.payload = (q.row E).payload →
      row.requestedBy = q.requester.pk → (Prog.commit (execute E (refundExecutor E answer fake times) q.approval row
        q.requester q.request q.now k)).KeepsAll (Preserves (Inv event threshold db)) := by
    intro row haction hpayload hby
    refine commits_keeps (execute_keeps (fun id hnames => ?_) hk)
    obtain ⟨r, hr, hasked, hor⟩ := hasked id (hnames.of_same haction hpayload)
    exact ⟨r, hr, hasked.trans hby.symm, Or.inr (hor.resolve_left hdual)⟩
  refine .update Preserves.trans (fun _ _ _ h => h.approval (hrow h rfl rfl rfl)) (fun _ _ _ => ?_) ?_
  · refine hexecute _ ?_ ?_ ?_ _ <;> rfl
  · refine hexecute _ ?_ ?_ ?_ v <;> rfl

theorem halts_keeps {α : Type} (r : α) : ((fun _ : α => (.halt : Program)) r).KeepsAll (Preserves (Inv event threshold db)) :=
  fun _ => .halt Preserves.refl

/-- **Asking for a refund**, alone. -/
theorem requestRefund_separate {q : RefundCall} (hq : q.threshold = threshold) (log : List Note)
    (h : Separate event threshold db) :
    Separate event threshold ((requestRefund E q fun _ => .halt).exec db [] log).db := by
  unfold requestRefund
  rw [Prog.exec_read, Db.apply_nil]
  rcases hp : db.row (.payment q.reference) with _ | p
  · exact h
  dsimp only
  rcases hwrong : q.wrong p with _ | e
  swap
  · exact h
  dsimp only
  rw [Prog.exec_note]
  by_cases hfree : db.row (.refund q.refund) = none
  swap
  · rw [Prog.exec_insertOr_taken (by simpa using hfree)]
    exact h
  rw [Prog.exec_insertOr (by simpa using hfree), Prog.exec_commit, Db.apply_cons, Db.apply_nil]
  have hinv : Inv event threshold db (db.set (.refund q.refund) (some q.row)) := (Inv.start h).asks hfree rfl
  have hrow : (db.set (.refund q.refund) (some q.row)).row (.refund q.refund) = some q.row := Db.set_row_self _ _ _
  have hevent : eventOf (db.set (.refund q.refund) (some q.row)) q.row = p.event := by
    have hpayment : (db.set (.refund q.refund) (some q.row)).row (.payment q.reference) = some p :=
      (Db.set_row_ne _ _ (by simp)).trans hp
    unfold eventOf
    rw [show q.row.payment = q.reference from rfl, hpayment]
    rfl
  have hpositive : 0 < q.amount := by
    unfold RefundCall.wrong at hwrong
    split_ifs at hwrong
    omega
  have hamount : (q.row.amount : ℤ) = q.amount := Int.toNat_of_nonneg hpositive.le
  have hhalt : ∀ r : Except Failure Unit, ((fun _ => (.halt : Program)) r).KeepsAll
      (Preserves (Inv event threshold (db.set (.refund q.refund) (some q.row)))) := halts_keeps
  refine (?_ : Preserves (Inv event threshold (db.set (.refund q.refund) (some q.row))) _ _) (.start hinv.separate) |>.separate
  refine Prog.Keeps.note (.read (record_keeps Preserves.trans ignores_audit
    (fun _ _ => .rollback Preserves.refl (hhalt (.error (.crash "DatabaseError")))) fun v' _ =>
      commits_keeps (fun v => ?_) v')) _ [] _ rfl fun h => h
  split_ifs
  · refine requestApproval_keeps (fun id hnames => ?_) halts_keeps v
    obtain ⟨-, payload, hpayload, hid⟩ := hnames
    have hid : id = q.refund := by
      have hpayload : Json.obj [("refund_id", .str q.refund)] = .obj payload := hpayload
      injection hpayload with hpayload
      rw [← hpayload] at hid
      have hstr : Json.str q.refund = .str id := Option.some.inj hid
      injection hstr with hstr
      exact hstr.symm
    subst hid
    refine ⟨_, hrow, rfl, ?_⟩
    by_cases hlarge : Large event threshold (db.set (.refund q.refund) (some q.row)) q.row
    swap
    · exact Or.inr hlarge
    refine Or.inl ?_
    obtain ⟨ev, hev, hdual⟩ := h.dual
    rw [hevent.symm.trans hlarge.2, Option.bind_some, hev]
    exact hdual
  · refine approveRefund_keeps ends_commit (fun _ => ⟨_, hrow, Or.inr fun hlarge => ?_⟩) ?_ ?_ v
    · have hlt := hlarge.1
      omega
    · exact fun e _ => .rollback Preserves.refl (hhalt (.error e))
    · exact fun _ => hhalt (.ok ())
  · exact hhalt (.ok ()) v

theorem ignores_audit_separate : Ignores (Preserves (Separate event threshold)) isAudit := fun v k r hk h =>
  (ignores_audit v k r hk (.start h)).separate

/-- **A rejected hold**, alone. -/
theorem rejectHeldPayment_separate {q : RejectCall} (hq : q.threshold = threshold) (h : Separate event threshold db) :
    Separate event threshold ((rejectHeldPayment E q fun _ => .halt).after db) := by
  unfold Prog.after rejectHeldPayment
  rw [Prog.exec_read, Db.apply_nil]
  rcases db.row (.payment q.reference) with _ | p
  · exact h
  refine record_keeps (v := db) Preserves.trans ignores_audit_separate
    (fun _ _ => .rollback Preserves.refl fun _ => .halt Preserves.refl)
    (fun v' _ => .commit_exec Preserves.trans fun log h' => ?_) db [] [] rfl (fun h => h) h
  split
  · exact requestRefund_separate hq log h'
  · exact h'

theorem decideRead_keeps {answer : Except String String} {fake : Bool} {now : ℕ → Time} {q : DecideCall} {row : ApprovalRow}
    (h : Separate event threshold db) (hrow : db.row (.approval q.approval) = some row) :
    (decideRead E (refundExecutor E answer fake now) q row fun _ => .halt).KeepsAll (Preserves (Inv event threshold db)) := by
  have hhalt : ∀ r : Except Failure Unit, ((fun _ => (.halt : Program)) r).KeepsAll (Preserves (Inv event threshold db)) :=
    halts_keeps
  have hasked : ∀ {row' : ApprovalRow} {v : Database}, Inv event threshold db v → row'.action = row.action →
      row'.payload = row.payload → row'.requestedBy = row.requestedBy → ∀ id, Names row' id →
      ∃ r, v.row (.refund id) = some r ∧ r.requestedBy = row'.requestedBy := by
    intro row' v hinv haction hpayload hby
    refine hinv.asked (fun id hnames => ?_) haction hpayload
    obtain ⟨r, hr, hasked⟩ := h.asked _ row id hrow hnames
    exact ⟨r, hr, hasked.trans hby.symm⟩
  intro v
  unfold decideRead
  split
  · exact hhalt (.ok ()) v
  split
  · have hclosed : (.commit <| .note (.decision q.approval .closed) .halt : Program).KeepsAll
        (Preserves (Inv event threshold db)) := commits_keeps fun v => .note (hhalt (.ok ()) v)
    refine .note (.update Preserves.trans (fun r hr _ hinv => hinv.approval fun id hnames => ?_)
      (fun _ _ _ => hclosed _) (hclosed v))
    exact hinv.separate.asked _ r id hr hnames
  split
  · exact hhalt (.ok ()) v
  split
  · exact hhalt (.ok ()) v
  rename_i hself
  have hrest : (Prog.commit <| .note (.decision q.approval (if q.approve then .approved else .closed)) <|
      recordNow E (approvalEntry q.approval (q.row row) (if q.approve then "APPROVED" else "REJECTED")
        (if q.approve then "approved" else "rejected") q.approver q.request q.note (.obj []) .SUCCESS q.now)
        .halt <|
      if q.approve then execute E (refundExecutor E answer fake now) q.approval (q.row row) q.approver q.request q.now
        fun _ => .halt else .halt : Program).KeepsAll (Preserves (Inv event threshold db)) := by
    refine commits_keeps fun v => .note (record_keeps Preserves.trans ignores_audit
      (fun _ _ => .rollback Preserves.refl (hhalt (.ok ()))) fun v' _ => commits_keeps (fun v => ?_) v')
    split
    · refine execute_keeps (fun id hnames => ?_) hhalt v
      obtain ⟨r, hr, hasked⟩ := h.asked _ row id hrow hnames
      exact ⟨r, hr, hasked, Or.inl fun heq => hself (heq.trans hasked)⟩
    · exact hhalt (.ok ()) v
  exact .note (.update Preserves.trans (fun r hr _ hinv => hinv.approval (hasked hinv rfl rfl rfl))
    (fun _ _ _ => hrest _) (hrest v))

/-- **A decision**, alone. -/
theorem decideApproval_separate {answer : Except String String} {fake : Bool} {now : ℕ → Time} {q : DecideCall}
    (h : Separate event threshold db) :
    Separate event threshold ((decideApproval E (refundExecutor E answer fake now) q fun _ => .halt).after db) := by
  unfold Prog.after decideApproval
  rw [Prog.exec_read, Db.apply_nil]
  rcases hrow : db.row (.approval q.approval) with _ | row
  · exact h
  · exact (decideRead_keeps h hrow db db [] [] rfl (fun h => h) (.start h)).separate

/-- **A call** keeps two people behind every large refund. -/
theorem Call.separate (c : Call) (h : Separate event threshold db) :
    Separate event threshold ((c.prog E threshold).after db) := by
  rcases c with q | q | q | ⟨answer, fake, now, q⟩
  · exact requestRefund_separate (q := { q with threshold := threshold }) rfl [] h
  · have hvia : ∀ {P : Prop}, ({ q with viaApproval := false } : ApproveCall).viaApproval = true → P := fun hvia => by
      cases hvia
    have hkeeps : (Call.prog E threshold (.approveRefund q)).KeepsAll (Preserves (Inv event threshold db)) := by
      refine approveRefund_keeps ends_commit hvia ?_ ?_
      · exact fun _ _ => .rollback Preserves.refl fun _ => .halt Preserves.refl
      · exact fun _ _ => .halt Preserves.refl
    exact (Prog.Keeps.after Preserves.refl (hkeeps db) (.start h)).separate
  · exact rejectHeldPayment_separate (q := { q with threshold := threshold }) rfl h
  · exact decideApproval_separate h

/-- Nothing is handed to the gateway yet, and no approval of a refund asked for. -/
structure Untouched (db : Database) : Prop where
  requested : ∀ id r, db.row (.refund id) = some r → r.status = .REQUESTED
  unasked : ∀ pk row, db.row (.approval pk) = some row → row.action ≠ .REFUND

theorem Untouched.separate (h : Untouched db)
    (hdual : ∃ ev, db.row (.event event) = some ev ∧ ev.dualApprovalRequired = true) : Separate event threshold db :=
  ⟨hdual, fun id r hr _ hs => absurd (h.requested id r hr) hs, fun pk row _ hrow hnames =>
    absurd hnames.1 (h.unasked pk row hrow)⟩

theorem execAll_separate {calls : List Call} (h : Separate event threshold db) :
    Separate event threshold (execAll db (calls.map (Call.prog E threshold))) := by
  have hall : Separate event threshold (execAll db (calls.map (Call.prog E threshold))) ∧ True := by
    refine execAll_induct (fun _ => trivial) (fun _ _ _ _ _ => trivial) (fun q hq db' h' => ?_) h
    obtain ⟨c, -, rfl⟩ := List.mem_map.mp hq
    exact ⟨c.separate h', trivial⟩
  exact hall.1

/-- **Two people stand behind every large refund** that was handed to the gateway,
after any sequence of calls. -/
theorem large_refunds_separated {calls : List Call} (h : Untouched db)
    (hdual : ∃ ev, db.row (.event event) = some ev ∧ ev.dualApprovalRequired = true) {id : String} {r : RefundRow}
    {p : PaymentRow} (hr : (execAll db (calls.map (Call.prog E threshold))).row (.refund id) = some r)
    (hp : (execAll db (calls.map (Call.prog E threshold))).row (.payment r.payment) = some p)
    (hevent : p.event = some event) (hamount : threshold < r.amount) (hs : r.status ≠ .REQUESTED) : TwoPeople r := by
  refine (execAll_separate (h.separate hdual)).approved id r hr ⟨hamount, ?_⟩ hs
  unfold eventOf
  rw [hp]
  exact hevent

end Calls

/-- A second person of the treasury. -/
def auditor : User := ⟨6, "auditor", fun _ _ => true, fun _ => false⟩

/-- The counted payment, in an election that asks for two people. -/
def dualCounted : Database :=
  counted.set (.event 1) (some { startDate := 0, endDate := 10, status := .OPEN, dualApprovalRequired := true })

/-- A request for 150, its approval refused to who asked and given by another. -/
def approveInTurn : List Call :=
  [.requestRefund (ask "a" 150),
    .decideApproval (.ok "g") false (fun _ => 5) { approval := 1, approver := treasurer, approve := true, now := 5 },
    .decideApproval (.ok "g") false (fun _ => 6) { approval := 1, approver := auditor, approve := true, now := 6 }]

theorem large_refunds_separated_inTurn : ∃ r,
    (execAll dualCounted (approveInTurn.map (Call.prog .plain 100))).row (.refund "a") = some r ∧
      r.status = .PROCESSING ∧ TwoPeople r := by
  have hr : ((execAll dualCounted (approveInTurn.map (Call.prog .plain 100))).row (.refund "a")).map
      (fun r => (r.status, r.amount, r.payment)) = some (.PROCESSING, 150, "ref") := by decide +kernel
  have hp : ((execAll dualCounted (approveInTurn.map (Call.prog .plain 100))).row (.payment "ref")).map (·.event) =
      some (some 1) := by decide +kernel
  obtain ⟨r, hr, hdata⟩ := Option.map_eq_some_iff.mp hr
  obtain ⟨p, hp, hevent⟩ := Option.map_eq_some_iff.mp hp
  simp only [Prod.mk.injEq] at hdata
  obtain ⟨hstatus, hamount, hpayment⟩ := hdata
  have hdual : ∃ ev, dualCounted.row (.event 1) = some ev ∧ ev.dualApprovalRequired = true := ⟨_, rfl, rfl⟩
  have huntouched : Untouched dualCounted := ⟨fun _ _ hr => (nomatch hr), fun _ _ hrow => (nomatch hrow)⟩
  refine ⟨r, hr, hstatus, large_refunds_separated huntouched hdual hr (by rwa [hpayment]) hevent ?_ ?_⟩
  · rw [hamount]
    decide
  · rw [hstatus]
    decide

end FourEyes
end FlexyVotes
