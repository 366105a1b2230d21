/-
# A refund that reverses votes reverses all of them

A completed refund that was asked to reverse votes reverses every counted row of
the payment's ledger (`Processes.after`), whatever part of the amount it pays
back. So the votes keep to the part that is not refunded exactly where the
payment has no votes, or its first such refund pays back all of it.

Key definitions: `Processes`, `Lawful`.
Key theorems: `Processes.after`, `lawful_iff`.
-/
import FlexyVotes.Payments.RefundReports
import FlexyVotes.Payments.Reports

namespace FlexyVotes
namespace Proportions

open Transactions Payments Transitions Reports Reversals RefundReports

/-- The refund is completed, at the gateway's report. -/
def complete (E : Env) (id : String) (now : ℕ → Time) (db : Database) : Database :=
  (completeRefund .commit (failing fun _ : Except Failure Unit => .halt) E id now .halt).after db

/-- What happens to other rows: a refund is asked for, approved or handed to the
gateway. -/
structure Unmoved (reference : String) (db db' : Database) : Prop where
  payment : db'.row (.payment reference) = db.row (.payment reference)
  ledger : ∀ pk, db'.row (.voteTransaction pk) = db.row (.voteTransaction pk)

/-- A refund of `amount` of the payment is processed, with its votes to be
reversed. -/
def Processes (E : Env) (reference : String) (db : Database) (amount : ℕ) (db' : Database) : Prop :=
  ∃ before id r now, Unmoved reference db before ∧ before.row (.refund id) = some r ∧ r.payment = reference ∧
    r.reverseVotes = true ∧ r.status ≠ .PROCESSED ∧ r.amount = amount ∧ db' = complete E id now before

/-- The amounts are processed one after the other, with the tables after each. -/
def AllProcessed (E : Env) (reference : String) : Database → List (ℕ × Database) → Prop
  | _, [] => True
  | db, (amount, db') :: l => Processes E reference db amount db' ∧ AllProcessed E reference db' l

/-- The votes that count are those of the part not refunded, but for one vote. -/
def Proportional (reference : String) (votes : ℕ) (db : Database) : Prop :=
  ∃ p, db.row (.payment reference) = some p ∧
    countedVotes db reference * p.amountMinor ≤ votes * (p.amountMinor - p.refundedAmount) + p.amountMinor ∧
    votes * (p.amountMinor - p.refundedAmount) ≤ countedVotes db reference * p.amountMinor + p.amountMinor

/-- No more votes are reversed than are the share of the amount. -/
def Shared (reference : String) (votes : ℕ) (db : Database) (amount : ℕ) (db' : Database) : Prop :=
  ∃ p, db'.row (.payment reference) = some p ∧
    (countedVotes db reference - countedVotes db' reference) * p.amountMinor ≤ votes * amount

/-- Each refund reverses at most its share and leaves the votes of the rest. -/
def Lawful (reference : String) (votes : ℕ) : Database → List (ℕ × Database) → Prop
  | _, [] => True
  | db, (amount, db') :: l => (Proportional reference votes db' ∧ Shared reference votes db amount db') ∧
      Lawful reference votes db' l

section Refunds

variable {E : Env} {db db' : Database} {reference : String} {p : PaymentRow} {amount votes : ℕ}

theorem Unmoved.countedVotes (h : Unmoved reference db db') :
    countedVotes db' reference = countedVotes db reference := by
  refine Db.total_congr fun x => ?_
  unfold Db.weight
  cases x with
  | voteTransaction pk => rw [h.ledger pk]
  | _ => simp

/-- No counted row is left. -/
theorem countedVotes_eq_zero
    (h : ∀ pk v, db.row (.voteTransaction pk) = some v → countedOf reference (.voteTransaction pk) v = false) :
    countedVotes db reference = 0 := by
  refine List.sum_eq_zero fun n hn => ?_
  obtain ⟨x, v, hv, hx⟩ := (db.mem_collect _ _).mp hn
  cases x with
  | voteTransaction pk =>
    dsimp only at hx
    rw [h pk v hv] at hx
    cases hx
  | _ => cases hx

/-- **A processed refund** adds its amount to what is refunded and leaves no
vote that counts. -/
theorem Processes.after (h : Processes E reference db amount db') (hp : db.row (.payment reference) = some p) :
    countedVotes db' reference = 0 ∧ ∃ p', db'.row (.payment reference) = some p' ∧
      p'.refundedAmount = p.refundedAmount + amount ∧ p'.amountMinor = p.amountMinor := by
  obtain ⟨before, id, r, now, hunmoved, hr, rfl, hreverse, hopen, rfl, rfl⟩ := h
  have hp' : before.row (.payment r.payment) = some p := hunmoved.payment.trans hp
  have hrow : ∀ {x : Key}, Audit.isAudit x = false →
      (complete E id now before).row x = settledRow before id r p now x := fun hx => completeRefund_row hr hopen hp' hx
  refine ⟨countedVotes_eq_zero fun pk v hv => ?_, settled p r (now 1), ?_, transition_refundedAmount _ _ _, ?_⟩
  · rw [hrow rfl, settledRow, Option.map_eq_some_iff] at hv
    obtain ⟨v₀, -, rfl⟩ := hv
    rw [if_pos hreverse]
    unfold updated
    split_ifs with hcount
    · simp [reverse, countedOf]
    · simpa using hcount
  · rw [hrow rfl, settledRow, Db.set_row_self, Option.map_some, if_pos hreverse]
    rfl
  · unfold settled transition
    split_ifs <;> rfl

/-- With no votes left that count, and none that should, refunds change nothing
about it. -/
theorem lawful_of_settled : ∀ {l : List (ℕ × Database)} {db : Database} {p : PaymentRow}, AllProcessed E reference db l →
    db.row (.payment reference) = some p → countedVotes db reference = 0 →
    votes * (p.amountMinor - p.refundedAmount) = 0 → Lawful reference votes db l
  | [], _, _, _, _, _, _ => trivial
  | (amount, db') :: l, db, p, ⟨hfirst, hrest⟩, hp, hcounted, hleft => by
    obtain ⟨hnone, p', hp', hrefunded, hamount⟩ := hfirst.after hp
    have hless : p'.amountMinor - p'.refundedAmount ≤ p.amountMinor - p.refundedAmount := by omega
    have hleft' : votes * (p'.amountMinor - p'.refundedAmount) = 0 :=
      Nat.le_zero.mp ((Nat.mul_le_mul_left votes hless).trans hleft.le)
    refine ⟨⟨⟨p', hp', ?_, ?_⟩, p', hp', ?_⟩, lawful_of_settled hrest hp' hnone hleft'⟩
    · rw [hnone, Nat.zero_mul]
      exact Nat.zero_le _
    · rw [hleft']
      exact Nat.zero_le _
    · rw [hcounted, Nat.zero_sub, Nat.zero_mul]
      exact Nat.zero_le _

end Refunds

/-- **The votes follow the refunds** exactly where there are none, or the first
refund pays back the whole amount. -/
theorem lawful_iff {E : Env} {db : Database} {reference : String} {p : PaymentRow} {l : List (ℕ × Database)}
    (hp : db.row (.payment reference) = some p) (hrefunded : p.refundedAmount = 0)
    (hcounted : countedVotes db reference = p.totalVotes) (h : AllProcessed E reference db l) :
    Lawful reference p.totalVotes db l ↔ ∀ amount ∈ (l.map Prod.fst).head?, p.totalVotes = 0 ∨ p.amountMinor ≤ amount := by
  rcases l with _ | ⟨⟨amount, db'⟩, l⟩
  · simp [Lawful]
  obtain ⟨hfirst, hrest⟩ := h
  obtain ⟨hnone, p', hp', hrefunded', hamount⟩ := hfirst.after hp
  rw [hrefunded, Nat.zero_add] at hrefunded'
  have hmem : (∀ a ∈ (((amount, db') :: l).map Prod.fst).head?, p.totalVotes = 0 ∨ p.amountMinor ≤ a) ↔
      p.totalVotes = 0 ∨ p.amountMinor ≤ amount := by simp
  rw [hmem]
  refine ⟨?_, fun hwhole => ?_⟩
  · -- all the votes are reversed, and have to be a share of the amount
    rintro ⟨⟨-, p₁, hp₁, hshare⟩, -⟩
    obtain rfl := Option.some.inj (hp'.symm.trans hp₁)
    rw [hcounted, hnone, Nat.sub_zero, hamount] at hshare
    rcases Nat.eq_zero_or_pos p.totalVotes with hzero | hpos
    · exact Or.inl hzero
    · exact Or.inr (Nat.le_of_mul_le_mul_left hshare hpos)
  · have hleft : p.totalVotes * (p'.amountMinor - p'.refundedAmount) = 0 := by
      rcases hwhole with hzero | hle
      · rw [hzero, Nat.zero_mul]
      · have hall : p'.amountMinor - p'.refundedAmount = 0 := by omega
        rw [hall, Nat.mul_zero]
    refine ⟨⟨⟨p', hp', ?_, ?_⟩, p', hp', ?_⟩, lawful_of_settled hrest hp' hnone hleft⟩
    · rw [hnone, Nat.zero_mul]
      exact Nat.zero_le _
    · rw [hleft]
      exact Nat.zero_le _
    · rw [hcounted, hnone, Nat.sub_zero, hamount]
      rcases hwhole with hzero | hle
      · rw [hzero, Nat.zero_mul]
        exact Nat.zero_le _
      · exact Nat.mul_le_mul_left _ hle

/-! ### Half of the amount -/

/-- A payment of ten votes, all of them counted. -/
def tenVotes : PaymentRow := { paidPurchase with votes := 10, amountMinor := 1000 }

/-- Refunds of it that the gateway has in hand: a half, and the whole. -/
def inHand : Database :=
  (((shop.set (.payment "ref") (some tenVotes)).set (.voteTransaction 1) (some (ledgerRow "ref" tenVotes 7))).set
    (.refund "half") (some { (RefundLimits.ask "half" 500).row with status := .PROCESSING })).set
    (.refund "whole") (some { (RefundLimits.ask "whole" 1000).row with status := .PROCESSING })

theorem inHand_processed {id : String} {r : RefundRow} (hr : inHand.row (.refund id) = some r) (hpay : r.payment = "ref")
    (hreverse : r.reverseVotes = true) (hopen : r.status ≠ .PROCESSED) :
    AllProcessed .plain "ref" inHand [(r.amount, complete .plain id (fun _ => 5) inHand)] :=
  ⟨⟨inHand, id, r, fun _ => 5, ⟨rfl, fun _ => rfl⟩, hr, hpay, hreverse, hopen, rfl, rfl⟩, trivial⟩

/-- The whole amount is refunded, and no vote counts. -/
theorem lawful_whole :
    Lawful "ref" tenVotes.totalVotes inHand [(1000, complete .plain "whole" (fun _ => 5) inHand)] :=
  (lawful_iff rfl rfl (by decide +kernel)
    (inHand_processed (r := { (RefundLimits.ask "whole" 1000).row with status := .PROCESSING }) rfl rfl rfl (by decide))).mpr
    fun amount hamount => Or.inr (by
      obtain rfl := Option.some.inj hamount
      exact le_rfl)

/-- Half of the amount is refunded, and no vote counts. -/
theorem not_lawful :
    ¬ ∀ (E : Env) (db : Database) (reference : String) (p : PaymentRow) (l : List (ℕ × Database)),
      db.row (.payment reference) = some p → p.votesCredited = true → p.refundedAmount = 0 →
      countedVotes db reference = p.totalVotes → AllProcessed E reference db l → Lawful reference p.totalVotes db l := by
  intro h
  have hhalf : AllProcessed .plain "ref" inHand [(500, complete .plain "half" (fun _ => 5) inHand)] :=
    inHand_processed (r := { (RefundLimits.ask "half" 500).row with status := .PROCESSING }) rfl rfl rfl (by decide)
  obtain ⟨⟨⟨p, hp, -, hvotes⟩, -⟩, -⟩ := h .plain inHand "ref" tenVotes _ rfl rfl rfl (by decide +kernel) hhalf
  have hend : ((complete .plain "half" (fun _ => 5) inHand).row (.payment "ref")).map (fun p =>
      (p.amountMinor, p.refundedAmount)) = some (1000, 500) ∧
      countedVotes (complete .plain "half" (fun _ => 5) inHand) "ref" = 0 := by decide +kernel
  obtain ⟨p', hp', hamounts⟩ := Option.map_eq_some_iff.mp hend.1
  obtain rfl := Option.some.inj (hp.symm.trans hp')
  obtain ⟨hamount, hrefunded⟩ := Prod.mk.inj hamounts
  rw [hend.2, hamount, hrefunded] at hvotes
  revert hvotes
  decide

end Proportions
end FlexyVotes
