/-
# A refund is settled once

An approval reads its refund without a lock, saves it as approved, submits it to
the gateway and saves what the gateway answered. Where no completion comes in
between, no approval is written over another and none is rolled back
(`Untangled`), every refund is approved once, what is processed stays processed,
and what is refunded of a payment is the sum of its processed refunds.

Key definitions: `Approves`, `Untangled`.
Key theorems: `settled_once`.
-/
import FlexyVotes.Payments.RefundLimits

namespace FlexyVotes
namespace Settlement

open Transactions Audit Payments Runs Transitions Reversals RefundLimits

/-- The step writes the approval of the refund; the call then submits it. -/
def Approves (s : State Row Note) (t : ℕ) (id : String) (s' : State Row Note) : Prop :=
  ∃ r, (s'.thr t).pend = ⟨.refund id, some r⟩ :: (s.thr t).pend ∧ r.status = .APPROVED

/-- The call has written the approval of the refund, and not ended its transaction. -/
def Approved (s : State Row Note) (t : ℕ) (id : String) : Prop :=
  ∃ r : RefundRow, ⟨.refund id, some r⟩ ∈ (s.thr t).pend ∧ r.status = .APPROVED

/-- The refund is committed as more than requested. -/
def Taken (db : Database) (id : String) : Prop := ∃ r, db.row (.refund id) = some r ∧ r.status ≠ .REQUESTED

/-- The step keeps out of the way of the approvals. -/
structure Untangled (s : State Row Note) (t : ℕ) (s' : State Row Note) : Prop where
  /-- No refund is completed while another call is about to settle it. -/
  completed : ∀ u id, u ≠ t → (s.thr u).prog ≠ .halt → Settling (s.thr u).log id → Open s.db id → Open s'.db id
  /-- An approval is written of a refund that is still requested. -/
  requested : ∀ id, Approves s t id s' →
    (∃ r, s.db.row (.refund id) = some r ∧ r.status = .REQUESTED) ∧ ∀ e ∈ (s.thr t).pend, e.1 ≠ .refund id
  /-- An approval that is written is committed. -/
  kept : ∀ id, Approved s t id → Approved s' t id ∨ Taken s'.db id

/-- Approvals are watched. -/
def watch : Watch := ⟨False, True, False, False, False, True⟩

theorem spec_fits : (spec watch).Fits Untangled := fun _ _ _ _ hC _ _ hg u _ hu hh _ _ =>
  .of_committed hg (fun h => h.elim) (fun _ id hid hopen => hC.completed u id hu hh hid hopen) (fun h => h.elim)
    fun h => h.elim

section Steps

variable {s s' : State Row Note} {t : ℕ}

/-- A refund that is there keeps its amount and its payment, and stays processed. -/
theorem refund_kept (hm : Meets (spec watch) s) (hs : Step s t s') (hC : Untangled s t s') {id : String} {r : RefundRow}
    (hr : s.db.row (.refund id) = some r) : ∃ r', s'.db.row (.refund id) = some r' ∧ r'.amount = r.amount ∧
      r'.payment = r.payment ∧ (r'.status = .REQUESTED → r' = r) ∧ (r.status = .PROCESSED → r'.status = .PROCESSED) := by
  rcases (hm.step spec_sound spec_fits hs hC).2 with h | ⟨own, -, -, hg⟩
  · rw [h]
    exact ⟨r, hr, rfl, rfl, fun _ => rfl, fun h => h⟩
  · have hstep := hg.refunds id
    rw [hr] at hstep
    rcases hr' : s'.db.row (.refund id) with _ | r'
    · rw [hr'] at hstep
      exact hstep.elim
    · rw [hr'] at hstep
      exact ⟨r', rfl, hstep.1, hstep.2.1, hstep.2.2.1, hstep.2.2.2 trivial⟩

theorem taken_kept (hm : Meets (spec watch) s) (hs : Step s t s') (hC : Untangled s t s') {id : String}
    (h : Taken s.db id) : Taken s'.db id := by
  obtain ⟨r, hr, hstatus⟩ := h
  obtain ⟨r', hr', -, -, hsame, -⟩ := refund_kept hm hs hC hr
  exact ⟨r', hr', fun h => hstatus (hsame h ▸ h)⟩

/-- Once its approval is written, a refund is taken, or about to be. -/
theorem approval_kept (hm : Meets (spec watch) s) (hs : Step s t s') (hC : Untangled s t s') {id : String}
    (h : Taken s.db id ∨ ∃ u, Approved s u id) : Taken s'.db id ∨ ∃ u, Approved s' u id := by
  rcases h with h | ⟨u, h⟩
  · exact Or.inl (taken_kept hm hs hC h)
  · by_cases hut : u = t
    · subst hut
      rcases hC.kept id h with h | h
      · exact Or.inr ⟨u, h⟩
      · exact Or.inl h
    · obtain ⟨r, hr, hstatus⟩ := h
      exact Or.inr ⟨u, r, by rw [hs.thr_ne hut]; exact hr, hstatus⟩

/-- Then no other approval of it is written. -/
theorem not_approves (hm : Meets (spec watch) s) (hs : Step s t s') (hC : Untangled s t s') {id : String}
    (h : Taken s.db id ∨ ∃ u, Approved s u id) : ¬ Approves s t id s' := by
  intro ha
  obtain ⟨⟨r, hr, hstatus⟩, hfirst⟩ := hC.requested id ha
  obtain ⟨row, hpend, -⟩ := ha
  rcases h with ⟨r', hr', hne⟩ | ⟨u, ru, hu, -⟩
  · obtain rfl := Option.some.inj (hr.symm.trans hr')
    exact hne hstatus
  by_cases hut : u = t
  · subst hut
    exact hfirst _ hu rfl
  · -- the other transaction holds the refund
    have hm' := (hm.step spec_sound spec_fits hs hC).1
    have hmine := hm'.pend t ⟨.refund id, some row⟩ (by rw [hpend]; simp)
    have hother := hm'.pend u ⟨.refund id, some ru⟩ (by rw [hs.thr_ne hut]; exact hu)
    exact hut (Option.some.inj (hother.symm.trans hmine))

end Steps

/-- In the state what is refunded of a payment is the sum of its processed refunds;
in the runs of `C` from there a processed refund stays one, and the approval of
a refund is written, and the refund so submitted, at most once. -/
def SettledOnce (C : State Row Note → ℕ → State Row Note → Prop) (s : State Row Note) : Prop :=
  (∀ reference p, s.db.row (.payment reference) = some p → p.refundedAmount = processedSum s.db reference) ∧
  (∀ s', Run C s s' → ∀ id r, s.db.row (.refund id) = some r → r.status = .PROCESSED →
    ∃ r', s'.db.row (.refund id) = some r' ∧ r'.status = .PROCESSED ∧ r'.amount = r.amount ∧ r'.payment = r.payment) ∧
  (∀ t s₁ id, Step s t s₁ → C s t s₁ → Approves s t id s₁ → ∀ s₂ t' s₃, Run C s₁ s₂ →
    Step s₂ t' s₃ → C s₂ t' s₃ → ¬ Approves s₂ t' id s₃)

/-- **A refund is settled once**, however the calls interleave. -/
theorem settled_once {E : Env} {A : Adapters} {calls : ℕ → Call} {db₀ : Database} {s : State Row Note}
    (hbilled : Billed E A) (hbooks : Books watch db₀)
    (h : Run Untangled (.init db₀ fun t => (calls t).prog E A) s) : SettledOnce Untangled s := by
  have hmeets : Meets (spec watch) s := (Call.meets hbilled id trivial hbooks).run spec_sound spec_fits h
  refine ⟨hmeets.inv.exact trivial, fun s' hr id r hrow hstatus => ?_, fun t s₁ id hs hC ha s₂ t' s₃ hr hs' hC' => ?_⟩
  · induction hr with
    | refl => exact ⟨r, hrow, hstatus, rfl, rfl⟩
    | step hr hs hC ih =>
      obtain ⟨r₁, hr₁, hstatus₁, hamount, hpayment⟩ := ih
      obtain ⟨r₂, hr₂, hamount', hpayment', -, hprocessed⟩ :=
        refund_kept (hmeets.run spec_sound spec_fits hr) hs hC hr₁
      exact ⟨r₂, hr₂, hprocessed hstatus₁, hamount'.trans hamount, hpayment'.trans hpayment⟩
  · have hmeets₁ := (hmeets.step spec_sound spec_fits hs hC).1
    have hwritten : ∀ s₂, Run Untangled s₁ s₂ → Taken s₂.db id ∨ ∃ u, Approved s₂ u id := by
      intro s₂ hr
      induction hr with
      | refl =>
        obtain ⟨row, hpend, hstatus⟩ := ha
        exact Or.inr ⟨t, row, by rw [hpend]; simp, hstatus⟩
      | step hr hs hC ih => exact approval_kept (hmeets₁.run spec_sound spec_fits hr) hs hC ih
    exact not_approves (hmeets₁.run spec_sound spec_fits hr) hs' hC' (hwritten s₂ hr)

/-! ### A report that overtakes the gateway's answer -/

/-- A request for all of the payment. -/
def request : RefundRow where
  payment := "ref"
  amount := 200
  reason := "duplicate"
  requestedBy := 5
  requestedAt := 4

/-- A refund of the payment is requested. -/
def requested : Database := counted.set (.refund "a") (some request)

/-- The approval of the refund, which the gateway takes. -/
def approve : ApproveCall where
  refund := "a"
  approver := ⟨6, "auditor", fun _ _ => true, fun _ => false⟩
  viaApproval := false
  answer := .ok "g"
  now := fun _ => 5

/-- The report that the refund is processed. -/
def processedReport : WebhookCall where
  eventType := "refund.processed"
  data := [("transaction_reference", .str "ref")]
  now := fun _ => 6

def approveAndReport : ℕ → Call
  | 0 => .approveRefund approve
  | _ => .webhook processedReport ⟨9, 9⟩

theorem requested_books : Books watch requested := by
  have hzero : ∀ reference, processedSum requested reference = 0 := fun reference => by
    have hother : ∀ id, id ≠ "a" → requested.row (.refund id) = counted.row (.refund id) := fun id hid => by
      simp [requested, hid]
    have hmoves := refundSum_moves (· = .PROCESSED) reference hother
    have hrow : requested.row (.refund "a") = some request := rfl
    rw [weight_none rfl, weight_refund hrow] at hmoves
    have hshare : share (· = .PROCESSED) reference request = 0 := by simp [share, request]
    rw [hshare] at hmoves
    exact hmoves
  refine ⟨fun h => h.elim, fun _ reference p hp => ?_, fun _ id r hr => ?_⟩
  · rw [hzero]
    by_cases hr : reference = "ref"
    · subst hr
      obtain rfl : paidPurchase = p := Option.some.inj hp
      rfl
    · have hnone : requested.row (.payment reference) = none := by simp [requested, counted, shop, hr]
      rw [hnone] at hp
      cases hp
  · by_cases hid : id = "a"
    · subst hid
      obtain rfl : request = r := Option.some.inj hr
      have hrow : requested.row (.payment request.payment) = some paidPurchase := rfl
      rw [hrow]
      simp
    · have hnone : requested.row (.refund id) = none := by simp [requested, counted, shop, hid]
      rw [hnone] at hr
      cases hr

/-- The report comes before the gateway's answer is saved: 200 are refunded, and no
refund is processed. -/
theorem not_settled_once :
    ¬ ∀ (E : Env) (A : Adapters) (calls : ℕ → Call) (db₀ : Database) (s : State Row Note), Billed E A →
      Books watch db₀ → Run Any (.init db₀ fun t => (calls t).prog E A) s → SettledOnce Any s := by
  intro h
  have hend : (replay (.init requested fun t => (approveAndReport t).prog .plain shopAdapters)
      (List.replicate 4 0 ++ List.replicate 17 1 ++ List.replicate 3 0)).map (fun s =>
        ((s.db.row (.payment "ref")).map (·.refundedAmount), processedSum s.db "ref")) = some (some 200, 0) := by
    decide +kernel
  obtain ⟨s, hs, hend⟩ := Option.map_eq_some_iff.mp hend
  rw [Prod.mk.injEq] at hend
  obtain ⟨p, hp, hamount⟩ := Option.map_eq_some_iff.mp hend.1
  have hexact := (h .plain shopAdapters approveAndReport requested s shopAdapters_billed requested_books
    (.of_replay _ .refl hs)).1 "ref" p hp
  rw [hend.2, hamount] at hexact
  cases hexact

/-- Enough for `Untangled`, to be computed for the first `n` threads. -/
def untangled (n : ℕ) (s : State Row Note) (t : ℕ) (s' : State Row Note) : Bool :=
  ((List.range n).all fun u => u = t || (s.thr u).prog.ended || (s.thr u).log.isEmpty) &&
  (match (s'.thr t).pend with
    | ⟨.refund id, some r⟩ :: pend => r.status ≠ .APPROVED ||
        (s.db.row (.refund id)).any (·.status = .REQUESTED) && pend.all (·.1 ≠ .refund id)
    | _ => true) &&
  (s.thr t).pend.all fun
    | ⟨.refund id, some r⟩ => r.status ≠ .APPROVED || (s'.db.row (.refund id)).any (·.status ≠ .REQUESTED)
    | _ => true

theorem untangled_sound {n : ℕ} (s : State Row Note) (t : ℕ) (s' : State Row Note) (hn : Silent n s)
    (h : untangled n s t s' = true) : Untangled s t s' := by
  unfold untangled at h
  rw [Bool.and_eq_true, Bool.and_eq_true, List.all_eq_true, List.all_eq_true] at h
  obtain ⟨⟨hthreads, hwritten⟩, hpend⟩ := h
  refine ⟨fun u id hu hh hlog => ?_, fun id ⟨r, hr, hstatus⟩ => ?_, fun id ⟨r, hr, hstatus⟩ => Or.inr ?_⟩
  · have hempty : (s.thr u).log = [] := by
      by_cases hlt : u < n
      · have hcheck := hthreads u (List.mem_range.mpr hlt)
        simp only [Bool.or_eq_true, decide_eq_true_eq, Prog.ended_iff, List.isEmpty_iff] at hcheck
        rcases hcheck with (h | h) | h
        · exact absurd h hu
        · exact absurd h hh
        · exact h
      · exact hn u (by omega)
    rw [hempty] at hlog
    rcases hlog with h | h <;> cases h
  · rw [hr] at hwritten
    simp only [hstatus, ne_eq, not_true_eq_false, decide_false, Bool.false_or, Bool.and_eq_true, List.all_eq_true,
      decide_eq_true_eq, Option.any_eq_true] at hwritten
    exact hwritten
  · have hcheck := hpend _ hr
    simp only [hstatus, ne_eq, not_true_eq_false, decide_false, Bool.false_or, Option.any_eq_true,
      decide_eq_true_eq] at hcheck
    exact hcheck

/-- The refund is approved, then reported. -/
theorem settled_once_inTurn :
    ∃ s, replayIf 2 (untangled 2) (.init requested fun t => (approveAndReport t).prog .plain shopAdapters)
        (List.replicate 14 0 ++ List.replicate 16 1) = some s ∧
      (s.db.row (.payment "ref")).map (·.refundedAmount) = some 200 ∧ processedSum s.db "ref" = 200 ∧
      SettledOnce Untangled s := by
  have hend : (replayIf 2 (untangled 2) (.init requested fun t => (approveAndReport t).prog .plain shopAdapters)
      (List.replicate 14 0 ++ List.replicate 16 1)).map (fun s =>
        ((s.db.row (.payment "ref")).map (·.refundedAmount), processedSum s.db "ref")) = some (some 200, 200) := by
    decide +kernel
  obtain ⟨s, hs, hend⟩ := Option.map_eq_some_iff.mp hend
  rw [Prod.mk.injEq] at hend
  have hsilent : Silent 2 (State.init requested fun t => (approveAndReport t).prog .plain shopAdapters) := fun u hu => by
    obtain ⟨n, rfl⟩ := Nat.exists_eq_add_of_le hu
    rw [Nat.add_comm]
    rfl
  exact ⟨s, hs, hend.1, hend.2, settled_once shopAdapters_billed requested_books
    (Run.of_replayIf untangled_sound _ hsilent .refl hs)⟩

end Settlement
end FlexyVotes
