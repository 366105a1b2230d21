/-
# A payment that is disputed or reversed counts no votes

Opening a dispute and a report of a reversal reverse the payment's ledger rows
while its row is held. Two places do not keep to that: a dispute that is lost
moves the payment to REVERSED without a look at its votes, which an earlier
report has not reversed if it never came; and reconciliation credits a payment
it has read some time before, without its lock. In a run where neither happens
(`Orderly`) no disputed or reversed payment has a counted ledger row.

Key definitions: `Clean`, `Orderly`.
Key theorems: `closed_uncounted`.
-/
import FlexyVotes.Payments.Transitions

namespace FlexyVotes
namespace Reversals

open Transactions Audit Payments Runs Transitions

/-- No disputed or reversed payment has a counted ledger row. -/
def Clean (db : Database) : Prop :=
  ∀ reference p, db.row (.payment reference) = some p → Closed p.status → ∀ pk v,
    db.row (.voteTransaction pk) = some v → countedOf reference (.voteTransaction pk) v = false

/-- The step does neither close a payment by a lost dispute, nor credit one by
reconciliation that is closed or held by another call. -/
structure Orderly (s : State Row Note) (t : ℕ) (s' : State Row Note) : Prop where
  lost : ∀ reference p p', .lost reference ∈ (s'.thr t).log → s.db.row (.payment reference) = some p →
    s'.db.row (.payment reference) = some p' → Closed p'.status → Closed p.status
  uncredited : ∀ reference pk v, .uncredited reference ∈ (s'.thr t).log →
    s'.db.row (.voteTransaction pk) = some v → countedOf reference (.voteTransaction pk) v = true →
    s.db.row (.voteTransaction pk) = some v ∨
      (∀ p, s.db.row (.payment reference) = some p → ¬ Closed p.status) ∧ ∀ u, u ≠ t → s.owner (.payment reference) ≠ some u

/-- Ledger rows are watched. -/
def watch : Watch := ⟨False, False, False, True, False, True⟩

/-- Ledger rows of a payment that is held by one call are not added by another. -/
theorem spec_fits : (spec watch).Fits Orderly := by
  intro s t s' own hC _ _ hg u own' hu _ hown' hdis
  refine .of_committed hg (fun h => h.elim) (fun h => h.elim) (fun h => h.elim) fun _ reference hr pk v hv hc => ?_
  rcases (hg.ledger reference).counted pk v hv hc with h | ⟨hown, -⟩ | ⟨hlog, -⟩
  · exact h
  · exact absurd hr (hdis _ hown)
  · rcases hC.uncredited reference pk v hlog hv hc with h | ⟨-, hfree⟩
    · exact h
    · exact absurd (hown' _ hr) (hfree u hu)

theorem books (db : Database) : Books watch db :=
  ⟨fun h => h.elim, fun h => h.elim, fun h => h.elim False.elim False.elim⟩

/-- A commit of an orderly step leaves the ledger clean. -/
theorem clean_of_committed {s s' : State Row Note} {t : ℕ} {own : List Key}
    (hg : Committed watch own (s'.thr t).log s.db s'.db) (hC : Orderly s t s') (hclean : Clean s.db) : Clean s'.db := by
  intro reference p' hp' hclosed pk v hv
  by_contra hc
  have hc : countedOf reference (.voteTransaction pk) v = true := by simpa using hc
  have hold : ∀ p, s.db.row (.payment reference) = some p → Closed p.status → s.db.row (.voteTransaction pk) ≠ some v :=
    fun p hp hcl hrow => by
      rw [hclean reference p hp hcl pk v hrow] at hc
      cases hc
  rcases (hg.ledger reference).closed p' hp' hclosed with ⟨p, hp, hcl⟩ | hall | ⟨hlog, p, hp, hopen⟩
  · rcases (hg.ledger reference).counted pk v hv hc with h | ⟨-, p₁, hp₁, hsuccess⟩ | ⟨hlog, -⟩
    · exact hold p hp hcl h
    · obtain rfl := Option.some.inj (hp'.symm.trans hp₁)
      rw [hsuccess] at hclosed
      simp [Closed] at hclosed
    · rcases hC.uncredited reference pk v hlog hv hc with h | ⟨hopen, -⟩
      · exact hold p hp hcl h
      · exact hopen p hp hcl
  · rw [hall trivial pk v hv] at hc
    cases hc
  · exact hopen (hC.lost reference p p' hlog hp hp' hclosed)

/-- **A disputed or reversed payment counts no votes**, however the calls
interleave. -/
theorem closed_uncounted {E : Env} {A : Adapters} {calls : ℕ → Call} {db₀ : Database} {s : State Row Note}
    (hbilled : Billed E A) (hstart : Clean db₀) (h : Run Orderly (.init db₀ fun t => (calls t).prog E A) s) :
    Clean s.db := by
  have hmeets : Meets (spec watch) (State.init db₀ fun t => (calls t).prog E A) := Call.meets hbilled id trivial (books db₀)
  exact hmeets.trail_of (R := fun db db' => Clean db → Clean db') spec_sound spec_fits (fun _ h => h)
    (fun _ _ _ h h' hs => h' (h hs)) (fun _ _ _ _ hC _ hg => clean_of_committed hg hC) h hstart

/-! ### A dispute that is lost before it is opened -/

/-- A successful payment of two votes. -/
def paidPurchase : PaymentRow where
  candidate := some 7
  event := some 1
  votes := 2
  amountMinor := 200
  status := .SUCCESS
  votesCredited := true

/-- The payment, its votes counted. -/
def counted : Database :=
  (shop.set (.payment "ref") (some paidPurchase)).set (.voteTransaction 1) (some (ledgerRow "ref" paidPurchase 7))

/-- A report about the dispute of the payment. -/
def dispute (eventType resolution : String) : WebhookCall where
  eventType := eventType
  data := [("reference", .str "ref"), ("resolution", .str resolution)]
  now := fun _ => 3

/-- The report of the opened dispute does not come before the one of its loss. -/
def lostFirst : ℕ → Call := fun _ => .webhook (dispute "charge.dispute.resolve" "lost") ⟨2, 3⟩

theorem counted_clean : Clean counted := by
  intro reference p hp hc pk v hv
  by_cases hr : reference = "ref"
  · subst hr
    have hp' : counted.row (.payment "ref") = some paidPurchase := rfl
    obtain rfl := Option.some.inj (hp'.symm.trans hp)
    simp [Closed, paidPurchase] at hc
  · have hnone : counted.row (.payment reference) = none := by simp [counted, shop, hr]
    rw [hnone] at hp
    cases hp

/-- The payment is reversed, its votes count. -/
theorem not_closed_uncounted :
    ¬ ∀ (E : Env) (A : Adapters) (calls : ℕ → Call) (db₀ : Database) (s : State Row Note), Billed E A → Clean db₀ →
      Run Any (.init db₀ fun t => (calls t).prog E A) s → Clean s.db := by
  intro h
  have hend : (replay (.init counted fun t => (lostFirst t).prog .plain shopAdapters) (List.replicate 4 0)).map (fun s =>
      ((s.db.row (.payment "ref")).map (·.status), (s.db.row (.voteTransaction 1)).map (countedOf "ref" (.voteTransaction 1)))) =
      some (some .REVERSED, some true) := by decide +kernel
  obtain ⟨s, hs, hend⟩ := Option.map_eq_some_iff.mp hend
  rw [Prod.mk.injEq] at hend
  obtain ⟨p, hp, hstatus⟩ := Option.map_eq_some_iff.mp hend.1
  obtain ⟨v, hv, hcounts⟩ := Option.map_eq_some_iff.mp hend.2
  have hclean := h .plain shopAdapters lostFirst counted s shopAdapters_billed counted_clean (.of_replay _ .refl hs)
    "ref" p hp (Or.inr hstatus) 1 v hv
  rw [hcounts] at hclean
  cases hclean

/-- The dispute is opened, then lost. -/
def openedFirst : ℕ → Call
  | 0 => .webhook (dispute "charge.dispute.create" "") ⟨2, 3⟩
  | _ => .webhook (dispute "charge.dispute.resolve" "lost") ⟨2, 3⟩

/-- `Closed`, to be computed. -/
def closed (s : PaymentStatus) : Bool := s = .DISPUTED || s = .REVERSED

theorem closed_iff {s : PaymentStatus} : closed s = true ↔ Closed s := by simp [closed, Closed]

/-- Enough for `Orderly`, to be computed. -/
def orderly (s : State Row Note) (t : ℕ) (s' : State Row Note) : Bool :=
  (s'.thr t).log.all fun
    | .lost reference => (s.db.row (.payment reference)).all fun p => (s'.db.row (.payment reference)).all fun p' =>
        !closed p'.status || closed p.status
    | .uncredited _ => false
    | _ => true

theorem orderly_sound {s : State Row Note} {t : ℕ} {s' : State Row Note} (h : orderly s t s' = true) :
    Orderly s t s' := by
  unfold orderly at h
  rw [List.all_eq_true] at h
  refine ⟨fun reference p p' hlog hp hp' hc => ?_, fun reference _ _ hlog => ?_⟩
  · have hcheck := h _ hlog
    simp only [hp, hp', Option.all_some, Bool.or_eq_true, Bool.not_eq_true'] at hcheck
    rcases hcheck with hopen | hclosed
    · rw [closed_iff.mpr hc] at hopen
      cases hopen
    · exact closed_iff.mp hclosed
  · have hcheck := h _ hlog
    cases hcheck

theorem closed_uncounted_openedFirst :
    ∃ s, replayIf 2 orderly (.init counted fun t => (openedFirst t).prog .plain shopAdapters)
        (List.replicate 14 0 ++ List.replicate 4 1) = some s ∧
      (s.db.row (.payment "ref")).map (·.status) = some .REVERSED ∧ Clean s.db := by
  have hend : (replayIf 2 orderly (.init counted fun t => (openedFirst t).prog .plain shopAdapters)
      (List.replicate 14 0 ++ List.replicate 4 1)).map (fun s => (s.db.row (.payment "ref")).map (·.status)) =
      some (some .REVERSED) := by decide +kernel
  obtain ⟨s, hs, hend⟩ := Option.map_eq_some_iff.mp hend
  have hsilent : Silent 2 (State.init counted fun t => (openedFirst t).prog .plain shopAdapters) := fun u hu => by
    obtain ⟨n, rfl⟩ := Nat.exists_eq_add_of_le hu
    rw [Nat.add_comm]
    rfl
  exact ⟨s, hs, hend, closed_uncounted shopAdapters_billed counted_clean
    (Run.of_replayIf (fun _ _ _ _ h => orderly_sound h) _ hsilent .refl hs)⟩

end Reversals
end FlexyVotes
