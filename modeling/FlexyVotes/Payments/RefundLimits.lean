/-
# What is refunded of a payment stays within it

A request compares its amount with what has been refunded so far. Refunds that
are requested or on their way count for nothing, so the limit holds of runs in
which none are under way at a request, or there is still room for the amount
beside them, and a refund the gateway failed is not taken up again beyond it
(`Limited`).

Key definitions: `Limited`, `Fine`.
Key theorems: `within_payment`.
-/
import FlexyVotes.Payments.Reversals

namespace FlexyVotes
namespace RefundLimits

open Transactions Audit Payments Runs Transitions Reversals

/-- Not failed or rejected. -/
def live (s : RefundStatus) : Bool := s ≠ .FAILED && s ≠ .REJECTED

/-- Requested, or on its way. -/
def underWay (s : RefundStatus) : Bool := s = .REQUESTED || s = .APPROVED || s = .PROCESSING

/-- Submitted to the gateway. -/
def submitted (s : RefundStatus) : Bool := s = .PROCESSING || s = .PROCESSED

/-- The refunds that are not given up are within the payment. -/
def Fine (db : Database) : Prop :=
  ∀ reference p, db.row (.payment reference) = some p → refundSum live db reference ≤ p.amountMinor

/-- The step keeps to the limit where the code does not look. -/
structure Limited (s : State Row Note) (t : ℕ) (s' : State Row Note) : Prop where
  /-- No refund of a payment is completed while another is being asked for. -/
  asking : ∀ u reference, u ≠ t → (s.thr u).prog ≠ .halt → Runs.asking reference (s.thr u).log = true → ∀ p p',
    s.db.row (.payment reference) = some p → s'.db.row (.payment reference) = some p' →
    p'.refundedAmount ≤ p.refundedAmount
  /-- A new refund finds no other under way, or room beside them. -/
  requested : ∀ id r p, s.db.row (.refund id) = none → s'.db.row (.refund id) = some r →
    s.db.row (.payment r.payment) = some p →
    refundSum underWay s.db r.payment = 0 ∨ r.amount + refundSum underWay s.db r.payment + p.refundedAmount ≤ p.amountMinor
  /-- A refund that was given up and is taken up again finds room. -/
  resumed : ∀ id r r' p, s.db.row (.refund id) = some r → s'.db.row (.refund id) = some r' → live r.status = false →
    live r'.status = true → s.db.row (.payment r.payment) = some p →
    r.amount + refundSum live s.db r.payment ≤ p.amountMinor

/-- Requests are watched. -/
def watch : Watch := ⟨True, False, False, False, False, True⟩

theorem spec_fits : (spec watch).Fits Limited := fun _ _ _ _ hC _ _ hg u _ hu hh _ _ =>
  .of_committed hg (fun _ reference hlog => hC.asking u reference hu hh hlog) (fun h => h.elim) (fun h => h.elim)
    fun h => h.elim

section Sums

variable {db db' : Database} {reference : String}

/-- A sum over some of the refunds is at most one over more. -/
theorem refundSum_le {c c' : RefundStatus → Bool} (h : ∀ s, c s = true → c' s = true) :
    refundSum c db reference ≤ refundSum c' db reference := by
  refine Db.total_le fun x => ?_
  unfold Db.weight
  rcases db.row x with _ | r
  · exact le_rfl
  cases x with
  | refund id =>
    show (if r.payment = reference ∧ c r.status = true then some r.amount else none).getD 0 ≤
      (if r.payment = reference ∧ c' r.status = true then some r.amount else none).getD 0
    by_cases hc : r.payment = reference ∧ c r.status = true
    · rw [if_pos hc, if_pos ⟨hc.1, h _ hc.2⟩]
    · rw [if_neg hc]
      exact Nat.zero_le _
  | _ => exact le_rfl

/-- What is not given up is under way or processed. -/
theorem live_eq : refundSum live db reference = refundSum underWay db reference + processedSum db reference := by
  refine Db.total_add fun x => ?_
  unfold Db.weight
  rcases db.row x with _ | r
  · rfl
  cases x with
  | refund id =>
    simp only [Option.bind_some, Runs.amountOf]
    by_cases hp : r.payment = reference
    · rcases hs : r.status <;> simp [hp, live, underWay]
    · simp [hp]
  | _ => rfl

end Sums

/-- **A step within the limits** leaves the refunds within their payments. -/
theorem Fine.step {s s' : State Row Note} {t : ℕ} {own : List Key} {log : List Note} (hfine : Fine s.db)
    (hb : Books watch s.db) (hg : Committed watch own log s.db s'.db) (hC : Limited s t s') : Fine s'.db := by
  intro reference p' hp'
  obtain ⟨id, hone⟩ := hg.one
  have hmoves := refundSum_moves live reference hone
  have hrefund := hg.refunds id
  have hpayment := hg.payments reference
  rw [hp'] at hpayment
  rcases hp : s.db.row (.payment reference) with _ | p
  · -- a new payment has no refunds
    have hzero := hb.sum_absent (Or.inl trivial) hp live
    have hweight : s'.db.weight (Runs.amountOf live reference) (.refund id) = 0 := by
      rcases hr' : s'.db.row (.refund id) with _ | r'
      · exact weight_none hr'
      · rw [weight_refund hr']
        have hne : r'.payment ≠ reference := by
          rw [hr'] at hrefund
          rcases hr : s.db.row (.refund id) with _ | r
          · rw [hr] at hrefund
            obtain ⟨p, hp₁, -⟩ := hrefund.2 trivial
            intro h
            rw [h, hp] at hp₁
            cases hp₁
          · rw [hr] at hrefund
            intro h
            exact hb.absent (Or.inl trivial) id r hr (hrefund.2.1 ▸ h ▸ hp)
        simp [share, hne]
    omega
  rw [hp] at hpayment
  have hamount : p'.amountMinor = p.amountMinor := hpayment.1.amount
  have hbefore := hfine reference p hp
  rcases hr' : s'.db.row (.refund id) with _ | r'
  · rw [weight_none hr'] at hmoves
    omega
  rw [weight_refund hr'] at hmoves
  rw [hr'] at hrefund
  rcases hr : s.db.row (.refund id) with _ | r
  · -- a new refund
    rw [hr] at hrefund
    rw [weight_none hr] at hmoves
    by_cases hne : r'.payment = reference
    swap
    · have hzero : share live reference r' = 0 := by simp [share, hne]
      omega
    subst hne
    have hshare : share live r'.payment r' = r'.amount := by simp [share, hrefund.1, live]
    have hcovered := hb.covered trivial _ p hp
    have hlive : refundSum live s.db r'.payment = refundSum underWay s.db r'.payment +
        processedSum s.db r'.payment := live_eq
    rcases hC.requested id r' p hr hr' hp with hzero | hroom
    · obtain ⟨p₁, hp₁, hfits⟩ := hrefund.2 trivial
      obtain rfl := Option.some.inj (hp.symm.trans hp₁)
      omega
    · omega
  · -- a refund that moves
    rw [hr] at hrefund
    rw [weight_refund hr] at hmoves
    obtain ⟨hsame, hto, -, -⟩ := hrefund
    by_cases hne : r.payment = reference
    swap
    · have hzero : share live reference r = 0 ∧ share live reference r' = 0 := by simp [share, hto, hne]
      omega
    subst hne
    rcases hwas : live r.status with _ | _
    · rcases his : live r'.status with _ | _
      · have hzero : share live r.payment r' = 0 := by simp [share, his]
        omega
      · have hroom := hC.resumed id r r' p hr hr' hwas his hp
        have hshare : share live r.payment r' = r.amount := by simp [share, his, hto, hsame]
        omega
    · have hshare : share live r.payment r = r.amount := by simp [share, hwas]
      have hle : share live r.payment r' ≤ r.amount := by
        unfold share
        split_ifs
        · exact hsame.le
        · exact Nat.zero_le _
      omega

/-- **What was submitted to the gateway of a payment's refunds is within the
payment**, however the calls interleave. -/
theorem within_payment {E : Env} {A : Adapters} {calls : ℕ → Call} {db₀ : Database} {s : State Row Note}
    (hbilled : Billed E A) (hbooks : Books watch db₀) (hstart : Fine db₀)
    (h : Run Limited (.init db₀ fun t => (calls t).prog E A) s) {reference : String} {p : PaymentRow}
    (hp : s.db.row (.payment reference) = some p) : refundSum submitted s.db reference ≤ p.amountMinor := by
  have hmeets : Meets (spec watch) (State.init db₀ fun t => (calls t).prog E A) := Call.meets hbilled id trivial hbooks
  have hfine : Fine s.db := hmeets.trail_of (R := fun db db' => Fine db → Fine db') spec_sound spec_fits (fun _ h => h)
    (fun _ _ _ h h' hs => h' (h hs)) (fun _ _ _ _ hC hinv hg hfine => hfine.step hinv hg hC) h hstart
  refine (refundSum_le fun s hs => ?_).trans (hfine reference p hp)
  cases s <;> first
    | rfl
    | cases hs

/-! ### Two refunds of the whole payment -/

/-- Who may ask for refunds and approve them. -/
def treasurer : User := ⟨5, "treasurer", fun _ _ => true, fun _ => false⟩

/-- A request below the threshold of a second approval, taken by the gateway. -/
def ask (refund : String) (amount : ℤ) : RefundCall where
  reference := "ref"
  amount := amount
  reason := "duplicate"
  actor := treasurer
  refund := refund
  approval := 1
  threshold := 1000
  answer := .ok "g"
  now := fun _ => 4

/-- Two requests for all of the payment. -/
def askTwice : ℕ → Call
  | 0 => .requestRefund (ask "a" 200)
  | _ => .requestRefund (ask "b" 200)

theorem counted_books : Books watch counted :=
  ⟨fun _ reference p hp => by
    have hzero : processedSum counted reference = 0 := rfl
    rw [hzero]
    exact Nat.zero_le _, fun h => h.elim, fun _ id r hr => by cases hr⟩

theorem counted_fine : Fine counted := fun _ _ _ => Nat.zero_le _

/-- 400 are submitted of a payment of 200. -/
theorem not_within_payment :
    ¬ ∀ (E : Env) (A : Adapters) (calls : ℕ → Call) (db₀ : Database) (s : State Row Note) (reference : String)
      (p : PaymentRow), Billed E A → Books watch db₀ → Fine db₀ → Run Any (.init db₀ fun t => (calls t).prog E A) s →
      s.db.row (.payment reference) = some p → refundSum submitted s.db reference ≤ p.amountMinor := by
  intro h
  have hend : (replay (.init counted fun t => (askTwice t).prog .plain shopAdapters)
      (List.replicate 23 0 ++ List.replicate 22 1)).map (fun s =>
        ((s.db.row (.payment "ref")).map (·.amountMinor), refundSum submitted s.db "ref")) = some (some 200, 400) := by
    decide +kernel
  obtain ⟨s, hs, hend⟩ := Option.map_eq_some_iff.mp hend
  rw [Prod.mk.injEq] at hend
  obtain ⟨p, hp, hamount⟩ := Option.map_eq_some_iff.mp hend.1
  have hle := h .plain shopAdapters askTwice counted s "ref" p shopAdapters_billed counted_books counted_fine
    (.of_replay _ .refl hs) hp
  rw [hend.2, hamount] at hle
  omega

/-- A refund, its report, and a refund of the rest. -/
def askInTurn : ℕ → Call
  | 0 => .requestRefund (ask "a" 150)
  | 1 => .webhook { eventType := "refund.processed", data := [("transaction_reference", .str "ref")], now := fun _ => 5 }
      ⟨9, 9⟩
  | _ => .requestRefund (ask "b" 50)

/-- Enough for `Limited`, to be computed for the first `n` threads. -/
def limited (n : ℕ) (s : State Row Note) (t : ℕ) (s' : State Row Note) : Bool :=
  ((List.range n).all fun u => u = t || (s.thr u).prog.ended || (s.thr u).log.isEmpty) &&
  s'.db.keys.all fun
    | .refund id =>
      match s.db.row (.refund id), s'.db.row (.refund id) with
      | none, some r => (s.db.row (.payment r.payment)).all fun p =>
          refundSum underWay s.db r.payment = 0 ||
            r.amount + refundSum underWay s.db r.payment + p.refundedAmount ≤ p.amountMinor
      | some r, some r' => live r.status || !live r'.status
      | _, _ => true
    | _ => true

theorem limited_sound {n : ℕ} (s : State Row Note) (t : ℕ) (s' : State Row Note) (hn : Silent n s)
    (h : limited n s t s' = true) : Limited s t s' := by
  unfold limited at h
  rw [Bool.and_eq_true, List.all_eq_true, List.all_eq_true] at h
  obtain ⟨hthreads, hrows⟩ := h
  have hkey : ∀ id r, s'.db.row (.refund id) = some r → Key.refund id ∈ s'.db.keys := fun id r hr =>
    s'.db.cover _ (by rw [hr]; rfl)
  refine ⟨fun u reference hu hh hlog => ?_, fun id r p hr hr' hp => ?_, fun id r r' p hr hr' hwas his _ => ?_⟩
  · have hempty : (s.thr u).log = [] := by
      by_cases hlt : u < n
      · have hcheck := hthreads u (List.mem_range.mpr hlt)
        simp only [Bool.or_eq_true, decide_eq_true_eq, Prog.ended_iff, List.isEmpty_iff] at hcheck
        rcases hcheck with (h | h) | h
        · exact absurd h hu
        · exact absurd h hh
        · exact h
      · exact hn u (by omega)
    rw [hempty] at hlog
    cases hlog
  · have hcheck := hrows _ (hkey id r hr')
    simp only [hr, hr', hp, Option.all_some, Bool.or_eq_true, decide_eq_true_eq] at hcheck
    exact hcheck
  · have hcheck := hrows _ (hkey id r' hr')
    simp only [hr, hr', hwas, his, Bool.not_true, Bool.or_false] at hcheck
    cases hcheck

theorem within_payment_askInTurn :
    ∃ s p, replayIf 3 (limited 3) (.init counted fun t => (askInTurn t).prog .plain shopAdapters)
        (List.replicate 23 0 ++ List.replicate 16 1 ++ List.replicate 22 2) = some s ∧
      s.db.row (.payment "ref") = some p ∧ p.amountMinor = 200 ∧ refundSum submitted s.db "ref" = 200 ∧
      refundSum submitted s.db "ref" ≤ p.amountMinor := by
  have hend : (replayIf 3 (limited 3) (.init counted fun t => (askInTurn t).prog .plain shopAdapters)
      (List.replicate 23 0 ++ List.replicate 16 1 ++ List.replicate 22 2)).map (fun s =>
        ((s.db.row (.payment "ref")).map (·.amountMinor), refundSum submitted s.db "ref")) = some (some 200, 200) := by
    decide +kernel
  obtain ⟨s, hs, hend⟩ := Option.map_eq_some_iff.mp hend
  rw [Prod.mk.injEq] at hend
  obtain ⟨p, hp, hamount⟩ := Option.map_eq_some_iff.mp hend.1
  have hsilent : Silent 3 (State.init counted fun t => (askInTurn t).prog .plain shopAdapters) := fun u hu => by
    obtain ⟨n, rfl⟩ := Nat.exists_eq_add_of_le hu
    rw [Nat.add_comm]
    rfl
  exact ⟨s, p, hs, hp, hamount, hend.2, within_payment shopAdapters_billed counted_books counted_fine
    (Run.of_replayIf limited_sound _ hsilent .refl hs) hp⟩

end RefundLimits
end FlexyVotes
