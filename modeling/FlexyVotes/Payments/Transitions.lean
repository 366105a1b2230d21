/-
# Payments move along their transitions

Every caller of `transition` but one holds the payment's row. The exit of a
refused checkout saves FAILED over whatever the payment has become since it was
created; where nobody pays it meanwhile (`Undisturbed`), the committed status
changes along `ALLOWED_TRANSITIONS` only.

Key definitions: `Undisturbed`.
Key theorems: `status_moves`.
-/
import FlexyVotes.Payments.RefundRuns

namespace FlexyVotes
namespace Transitions

open Transactions Audit Payments Runs

/-- While a refused checkout is under way, no other call takes its payment out of
the unpaid statuses. -/
def Undisturbed (s : State Row Note) (t : ℕ) (s' : State Row Note) : Prop :=
  ∀ u reference, u ≠ t → (s.thr u).prog ≠ .halt → .refused reference ∈ (s.thr u).log →
    (∀ p, s.db.row (.payment reference) = some p → Unpaid p.status) →
    ∀ p, s'.db.row (.payment reference) = some p → Unpaid p.status

/-- Checkouts are watched. -/
def watch : Watch := ⟨False, False, True, False, False, True⟩

theorem spec_fits : (spec watch).Fits Undisturbed := fun _ _ _ _ hC _ _ hg u _ hu hh _ _ =>
  .of_committed hg (fun h => h.elim) (fun h => h.elim) (fun _ reference hlog hopen => hC u reference hu hh hlog hopen)
    fun h => h.elim

/-- There are no books to keep. -/
theorem books (db : Database) : Books watch db :=
  ⟨fun h => h.elim, fun h => h.elim, fun h => h.elim False.elim False.elim⟩

/-- What was paid stays so. -/
theorem moves_paid {s s' : PaymentStatus} (h : s' = s ∨ s' ∈ ALLOWED_TRANSITIONS s) (hs : ¬ Unpaid s) : ¬ Unpaid s' := by
  rcases h with rfl | h
  · exact hs
  · cases s <;> cases s' <;> simp_all [Unpaid, ALLOWED_TRANSITIONS]

section Runs

variable {E : Env} {A : Adapters} {calls : ℕ → Call} {db₀ : Database} {s : State Row Note}

/-- One step moves a payment along the transitions. -/
theorem step_moves (hm : Meets (spec watch) s) {t : ℕ} {s' : State Row Note} (hs : Step s t s')
    (hC : Undisturbed s t s') {reference : String} {p : PaymentRow} (hp : s.db.row (.payment reference) = some p) :
    ∃ p', s'.db.row (.payment reference) = some p' ∧
      (p'.status = p.status ∨ p'.status ∈ ALLOWED_TRANSITIONS p.status) := by
  rcases (hm.step spec_sound spec_fits hs hC).2 with h | ⟨own, -, -, hg⟩
  · rw [h]
    exact ⟨p, hp, Or.inl rfl⟩
  · have hstep := hg.payments reference
    rw [hp] at hstep
    rcases hp' : s'.db.row (.payment reference) with _ | p'
    · rw [hp'] at hstep
      exact hstep.elim
    · rw [hp'] at hstep
      exact ⟨p', rfl, hstep.2.1 trivial⟩

/-- **The committed status of a payment changes along the transitions**, and what
is successful is never again pending, abandoned or failed. -/
theorem status_moves (hbilled : Billed E A)
    (h : Run Undisturbed (.init db₀ fun t => (calls t).prog E A) s) {reference : String} {p : PaymentRow}
    (hp : s.db.row (.payment reference) = some p) :
    (∀ t s', Step s t s' → Undisturbed s t s' → ∃ p', s'.db.row (.payment reference) = some p' ∧
      (p'.status = p.status ∨ p'.status ∈ ALLOWED_TRANSITIONS p.status)) ∧
    (p.status = .SUCCESS → ∀ s', Run Undisturbed s s' → ∃ p', s'.db.row (.payment reference) = some p' ∧
      p'.status ≠ .FAILED ∧ p'.status ≠ .ABANDONED ∧ p'.status ≠ .PENDING) := by
  have hmeets : Meets (spec watch) s := (Call.meets hbilled id trivial (books db₀)).run spec_sound spec_fits h
  refine ⟨fun t s' hs hC => step_moves hmeets hs hC hp, fun hsuccess s' hr => ?_⟩
  have hpaid : ∃ p', s'.db.row (.payment reference) = some p' ∧ ¬ Unpaid p'.status := by
    induction hr with
    | refl => exact ⟨p, hp, by simp [hsuccess, Unpaid]⟩
    | step hr hs hC ih =>
      obtain ⟨p₁, hp₁, hpaid⟩ := ih
      obtain ⟨p₂, hp₂, hmoves⟩ := step_moves (hmeets.run spec_sound spec_fits hr) hs hC hp₁
      exact ⟨p₂, hp₂, moves_paid hmoves hpaid⟩
  obtain ⟨p', hp', hpaid⟩ := hpaid
  exact ⟨p', hp', fun h => hpaid (by simp [Unpaid, h]), fun h => hpaid (by simp [Unpaid, h]),
    fun h => hpaid (by simp [Unpaid, h])⟩

end Runs

/-! ### A checkout that is refused, and paid -/

/-- An open election with one candidate. -/
def shop : Database :=
  (Db.empty.set (.event 1) (some { startDate := 0, endDate := 10, status := .OPEN })).set (.candidate 7)
    (some { category := none, event := 1, name := "Ama" })

/-- No cards and no risk; invoices as the billing service marks them. -/
def shopAdapters : Adapters where
  details := fun _ _ => .ok {}
  assess := fun _ _ => ⟨0, "ALLOW"⟩
  markInvoicePaid := markInvoicePaid .plain ⟨⟨.ACTIVE, 0, 0⟩, 0⟩ (.rollback .halt)

theorem shopAdapters_billed : Billed .plain shopAdapters := ⟨_, rfl⟩

/-- A purchase of two votes by `ama@x`. -/
def purchase (reference : String) (answer : Except String (String × String)) : InitiateCall where
  event := 1
  candidate := 7
  order := { votes := .int 2, email := "ama@x" }
  risk := ⟨0, "ALLOW"⟩
  reference := reference
  answer := answer
  now := fun _ => 1

/-- The gateway's report that a purchase of two votes is paid. -/
def paid (reference : String) : WebhookCall where
  eventType := "charge.success"
  data := [("reference", .str reference), ("status", .str "success"), ("amount", .int 200), ("currency", .str "GHS")]
  now := fun _ => 2

/-- A checkout whose answer is lost, and the report that it is paid. -/
def lostAnswer : ℕ → Call
  | 0 => .initiateVotePayment (purchase "ref" (.error "timeout"))
  | _ => .webhook (paid "ref") ⟨1, 2⟩

/-- The report is applied between the record of the payment and its failure. -/
def reportBetween : List ℕ := List.replicate 5 0 ++ List.replicate 12 1 ++ List.replicate 2 0

/-- A successful payment becomes FAILED. -/
theorem not_status_moves :
    ¬ ∀ (E : Env) (A : Adapters) (calls : ℕ → Call) (db₀ : Database) (s s' : State Row Note) (t : ℕ)
      (reference : String) (p p' : PaymentRow), Billed E A → Run Any (.init db₀ fun t => (calls t).prog E A) s →
      Step s t s' → s.db.row (.payment reference) = some p → s'.db.row (.payment reference) = some p' →
      p'.status = p.status ∨ p'.status ∈ ALLOWED_TRANSITIONS p.status := by
  intro h
  have hend : (replay (.init shop fun t => (lostAnswer t).prog .plain shopAdapters) reportBetween).bind (fun s =>
      (fire s 0).map fun s' => ((s.db.row (.payment "ref")).map (·.status), (s'.db.row (.payment "ref")).map (·.status))) =
      some (some .SUCCESS, some .FAILED) := by decide +kernel
  obtain ⟨s, hs, hend⟩ := Option.bind_eq_some_iff.mp hend
  obtain ⟨s', hs', hend⟩ := Option.map_eq_some_iff.mp hend
  rw [Prod.mk.injEq] at hend
  obtain ⟨p, hp, hstatus⟩ := Option.map_eq_some_iff.mp hend.1
  obtain ⟨p', hp', hstatus'⟩ := Option.map_eq_some_iff.mp hend.2
  have hmoves := h .plain shopAdapters lostAnswer shop s s' 0 "ref" p p' shopAdapters_billed (.of_replay _ .refl hs)
    (Or.inl hs') hp hp'
  rw [hstatus, hstatus'] at hmoves
  simp [ALLOWED_TRANSITIONS] at hmoves

/-- `Unpaid`, to be computed. -/
def unpaid (o : Option PaymentRow) : Bool := o.all fun p => p.status ∈ [.INITIALIZED, .PENDING, .ABANDONED, .FAILED]

theorem unpaid_iff {o : Option PaymentRow} : unpaid o = true ↔ ∀ p, o = some p → Unpaid p.status := by
  rcases o with _ | p
  · simp [unpaid]
  · simp [unpaid, Unpaid]

/-- `Undisturbed`, for the first `n` threads. -/
def undisturbed (n : ℕ) (s : State Row Note) (t : ℕ) (s' : State Row Note) : Bool :=
  (List.range n).all fun u => u = t || (s.thr u).prog.ended || (s.thr u).log.all fun
    | .refused reference => !unpaid (s.db.row (.payment reference)) || unpaid (s'.db.row (.payment reference))
    | _ => true

theorem undisturbed_sound {n : ℕ} (s : State Row Note) (t : ℕ) (s' : State Row Note) (hn : Silent n s)
    (h : undisturbed n s t s' = true) : Undisturbed s t s' := by
  intro u reference hu hh hlog hopen
  have hlt : u < n := by
    by_contra hlt
    rw [hn u (by omega)] at hlog
    cases hlog
  simp only [undisturbed, List.all_eq_true, List.mem_range, Bool.or_eq_true, Prog.ended_iff, decide_eq_true_eq] at h
  have hcheck := ((h u hlt).resolve_left fun h => h.elim hu hh) _ hlog
  dsimp only at hcheck
  rw [unpaid_iff.mpr hopen] at hcheck
  exact unpaid_iff.mp (by simpa using hcheck)

/-- The report after the failure: the payment is successful, and stays so. -/
theorem status_moves_inTurn :
    ∃ s p, replayIf 2 (undisturbed 2) (.init shop fun t => (lostAnswer t).prog .plain shopAdapters)
        (List.replicate 8 0 ++ List.replicate 12 1) = some s ∧
      s.db.row (.payment "ref") = some p ∧ p.status = .SUCCESS ∧
      (∀ t s', Step s t s' → Undisturbed s t s' → ∃ p', s'.db.row (.payment "ref") = some p' ∧
        (p'.status = p.status ∨ p'.status ∈ ALLOWED_TRANSITIONS p.status)) ∧
      (p.status = .SUCCESS → ∀ s', Run Undisturbed s s' → ∃ p', s'.db.row (.payment "ref") = some p' ∧
        p'.status ≠ .FAILED ∧ p'.status ≠ .ABANDONED ∧ p'.status ≠ .PENDING) := by
  have hend : (replayIf 2 (undisturbed 2) (.init shop fun t => (lostAnswer t).prog .plain shopAdapters)
      (List.replicate 8 0 ++ List.replicate 12 1)).map (fun s => (s.db.row (.payment "ref")).map (·.status)) =
      some (some .SUCCESS) := by decide +kernel
  obtain ⟨s, hs, hend⟩ := Option.map_eq_some_iff.mp hend
  obtain ⟨p, hp, hstatus⟩ := Option.map_eq_some_iff.mp hend
  have hsilent : Silent 2 (State.init shop fun t => (lostAnswer t).prog .plain shopAdapters) := fun u hu => by
    obtain ⟨n, rfl⟩ := Nat.exists_eq_add_of_le hu
    rw [Nat.add_comm]
    rfl
  exact ⟨s, p, hs, hp, hstatus, status_moves shopAdapters_billed
    (Run.of_replayIf undisturbed_sound _ hsilent .refl hs) hp⟩

end Transitions
end FlexyVotes
