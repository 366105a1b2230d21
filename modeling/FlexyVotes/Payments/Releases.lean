/-
# Risky payments wait for an analyst

What the risk engine says when a payment is confirmed is to be looked at by a
human from CHALLENGE on. A payment that is held is not credited by a report, by
reconciliation, or by the release of another payment (`Call.waiting`), so what
is assessed as HOLD waits for its release; what is assessed as CHALLENGE is not
held, and is credited by the very report.

Key definitions: `Call`, `Call.assessment`, `Waits`, `Unchallenged`.
Key theorems: `Call.waiting`, `risky_waits`.
-/
import FlexyVotes.Fraud.Engine
import FlexyVotes.Payments.Assessments
import FlexyVotes.Payments.Transitions

namespace FlexyVotes
namespace Releases

open Transactions Audit Payments Runs Reports Assessments

/-! ### The calls -/

/-- A report of the gateway, of a webhook, a callback or a verification; a row
of the gateway's list and an uncredited payment of a reconciliation run; and the
release of a hold. Each report has its own answer of the risk engine. -/
inductive Call
  | report (A : Adapters) (q : GatewayCall)
  | listed (A : Adapters) (q : GatewayCall)
  | uncredited (reference : String) (c : CreditCall)
  | release (q : ReleaseCall)

variable (E : Env)

def Call.prog : Call → Program
  | .report A q => applyGatewayResult E A q fun _ => .halt
  | .listed A q => reconcileListed E A q fun _ => .halt
  | .uncredited reference c => reconcileUncredited reference c
  | .release q => releaseHeldPayment E q fun _ => .halt

/-- Invoices are marked paid as the billing service does it. -/
def Call.Billed : Call → Prop
  | .report A _ => Runs.Billed E A
  | .listed A _ => Runs.Billed E A
  | _ => True

/-- The calls, one after the other. -/
def run (calls : List Call) (db : Database) : Database := execAll db (calls.map (·.prog E))

/-- What the risk engine says of the payment in the call, if it is asked. -/
def Call.assessment (reference : String) (db : Database) : Call → Option Assessment
  | .report A q => if q.reference = reference then Assessments.assessment E A q db else none
  | .listed A q =>
    if q.reference = reference ∧ (db.row (.payment q.reference)).any (mismatches E q.data) then
      Assessments.assessment E A q db
    else none
  | _ => none

/-- The bands of the table of risks that ask for a human. -/
def Risky (a : Assessment) : Prop := a.decision = "CHALLENGE" ∨ a.decision = "HOLD"

/-- With the documented thresholds these are the scores from 61 on. -/
theorem risky_iff (n : ℕ) : Risky ⟨n, ({} : Fraud.Thresholds).decision n⟩ ↔ 61 ≤ n := by
  unfold Risky Fraud.Thresholds.decision
  split_ifs with h₁ h₂ h₃
  · simp only [or_true, true_iff]
    show 61 ≤ n
    exact le_trans (by decide) h₁
  · simp only [true_or, true_iff]
    exact h₂
  · simpa using h₂
  · simpa using h₂

/-- In the run of the calls, what is found risky is credited only after a release. -/
def Waits (reference : String) (db : Database) (calls : List Call) : Prop :=
  ∀ before c after a p, calls = before ++ c :: after → c.assessment E reference (run E before db) = some a → Risky a →
    (run E calls db).row (.payment reference) = some p → p.votesCredited = true →
    ∃ q, Call.release q ∈ after ∧ q.reference = reference

/-- No call's assessment of the payment is a challenge. -/
def Unchallenged (reference : String) (db : Database) (calls : List Call) : Prop :=
  ∀ before c after a, calls = before ++ c :: after → c.assessment E reference (run E before db) = some a →
    a.decision ≠ "CHALLENGE"

variable {E}

/-! ### What is held waits -/

/-- The payment is held, and its votes are not credited. -/
def Waiting (reference : String) (db : Database) : Prop :=
  ∃ p, db.row (.payment reference) = some p ∧ p.held = true ∧ p.votesCredited = false

section Waiting

variable {reference : String} {db : Database}

/-- Only the holds are watched, and no payment is opened. -/
def watch : Watch := ⟨False, False, False, False, True, False⟩

/-- What keeps the spec lets no held payment pass. -/
theorem waiting_of_rest {p : Program} (h : Rest (spec watch) p) (hw : Waiting reference db) :
    Waiting reference (p.after db) := by
  have hcommitted : ∀ own log db db', (spec watch).inv db → (spec watch).guar own log db db' →
      Waiting reference db → Waiting reference db' := by
    rintro own log db db' - hg ⟨p, hp, hheld, hcredited⟩
    have hstep := hg.payments reference
    rw [hp] at hstep
    rcases hp' : db'.row (.payment reference) with _ | p'
    · rw [hp'] at hstep
      exact hstep.elim
    rw [hp'] at hstep
    have hstays : ¬ Passed p' := fun hpassed => by
      rcases hstep.2.2 trivial hpassed with h | h
      · rw [h] at hcredited
        cases hcredited
      · rw [h] at hheld
        cases hheld
    refine ⟨p', hp', ?_, ?_⟩
    · by_contra hne
      exact hstays (Or.inr (by simpa using hne))
    · by_contra hne
      exact hstays (Or.inl (by simpa using hne))
  have hbooks : (spec watch).inv db := ⟨fun h => h.elim, fun h => h.elim, fun h => by rcases h with h | h <;> exact h.elim⟩
  exact (Ok.exec spec_sound (R := fun db db' => Waiting reference db → Waiting reference db') (fun _ h => h)
    (fun _ _ _ h h' hw => h' (h hw)) hcommitted p (h db []) hbooks).2 hw

/-- What leaves the payment leaves it waiting. -/
theorem Waiting.congr {db' : Database} (h : Waiting reference db)
    (hrow : db'.row (.payment reference) = db.row (.payment reference)) : Waiting reference db' := by
  obtain ⟨p, hp, hw⟩ := h
  exact ⟨p, hrow.trans hp, hw⟩

/-- **A call that does not release the payment** leaves it waiting. -/
theorem Call.waiting {c : Call} (hbilled : c.Billed E) (hc : ∀ q, c = .release q → q.reference ≠ reference)
    (h : Waiting reference db) : Waiting reference ((c.prog E).after db) := by
  have hother : ∀ {r : String}, r ≠ reference → isReport r (.payment reference) = false := fun {r} hr => by
    simp [isReport, Ne.symm hr]
  cases c with
  | report A q => exact waiting_of_rest (applyGatewayResult_rest hbilled fun _ => .halt) h
  | listed A q => exact waiting_of_rest (reconcileListed_rest hbilled fun _ => .halt) h
  | uncredited r c =>
    by_cases hr : r = reference
    · subst hr
      obtain ⟨p, hp, hheld, hcredited⟩ := h
      refine ⟨p, ?_, hheld, hcredited⟩
      have hnot : ¬ (p.purpose = .VOTE ∧ creditable p = true) := by simp [creditable, hheld]
      show ((reconcileUncredited r c).exec db [] []).db.row (.payment r) = some p
      unfold reconcileUncredited
      rw [Prog.exec_read, Db.apply_nil, hp]
      dsimp only
      rw [if_neg hnot]
      exact hp
    · exact h.congr (after_row reconcileUncredited_apart (fun _ h => h.elim) (hother hr))
  | release q => exact h.congr (after_row releaseHeldPayment_apart (fun _ h => h.elim) (hother (hc q rfl)))

/-- The same over a run. -/
theorem run_waiting : ∀ {calls : List Call} {db : Database}, (∀ c ∈ calls, c.Billed E) →
    (∀ q, Call.release q ∈ calls → q.reference ≠ reference) → Waiting reference db → Waiting reference (run E calls db)
  | [], _, _, _, h => h
  | c :: calls, db, hbilled, hno, h => by
    have hfirst : Waiting reference ((c.prog E).after db) :=
      Call.waiting (hbilled c (by simp)) (fun q hq => hno q (by simp [hq])) h
    have hrest : Waiting reference (run E calls ((c.prog E).after db)) :=
      run_waiting (fun c' hc => hbilled c' (List.mem_cons_of_mem _ hc))
        (fun q hq => hno q (List.mem_cons_of_mem _ hq)) hfirst
    exact hrest

end Waiting

/-! ### What is assessed as held -/

section Hold

variable {reference : String} {db : Database} {a : Assessment}

/-- What is assessed as held is saved so. -/
theorem waiting_of_hold {A : Adapters} {q : GatewayCall} (h : Assessments.assessment E A q db = some a)
    (ha : a.decision = "HOLD") : Waiting q.reference (reportAfter E A q db) := by
  obtain ⟨p, d, hp, hs, hd, hasks, rfl⟩ := assessment_some h
  obtain ⟨report, hmade⟩ := assessed_after hp hs hd hasks
  obtain ⟨-, -, -, -, -, -, -, hcredited⟩ := asks_payment hasks
  have hheld : (A.assess (viewOf q db p d) (confirmed q p d)).held = true := by simp [Assessment.held, ha]
  rw [if_pos hheld] at hmade
  refine ⟨assessed (confirmed q p d) (A.assess (viewOf q db p d) (confirmed q p d)), ?_, ?_, ?_⟩
  · rcases hmade.payment q.reference with hrow | ⟨-, heffect, -⟩
    · rw [hrow]
      simp [saved]
    · cases heffect
  · simp [assessed, hheld]
  · unfold confirmed transition
    split_ifs
    · exact hcredited
    · exact hcredited

theorem Call.waiting_of_hold {c : Call} (h : c.assessment E reference db = some a) (ha : a.decision = "HOLD") :
    Waiting reference ((c.prog E).after db) := by
  cases c with
  | report A q =>
    dsimp only [Call.assessment] at h
    split_ifs at h with hr
    subst hr
    exact Releases.waiting_of_hold h ha
  | listed A q =>
    dsimp only [Call.assessment] at h
    split_ifs at h with hr
    obtain ⟨rfl, hmismatch⟩ := hr
    obtain ⟨p, d, hp, -⟩ := assessment_some h
    have hreport : ((Call.listed A q).prog E).after db = reportAfter E A q db := by
      show ((reconcileListed E A q fun _ => .halt).exec db [] []).db = _
      rw [hp] at hmismatch
      unfold reconcileListed
      rw [Prog.exec_read, Db.apply_nil, hp]
      dsimp only
      rw [if_pos (by simpa using hmismatch)]
      rfl
    rw [hreport]
    exact Releases.waiting_of_hold h ha
  | uncredited r c => cases h
  | release q => cases h

end Hold

/-- **Risky payments wait for an analyst**, where none is challenged. -/
theorem risky_waits {reference : String} {db : Database} {calls : List Call} (hbilled : ∀ c ∈ calls, c.Billed E)
    (h : Unchallenged E reference db calls) : Waits E reference db calls := by
  intro before c after a p hcalls ha hrisky hp hcredited
  have hhold : a.decision = "HOLD" := hrisky.resolve_left (h before c after a hcalls ha)
  have hwaiting : Waiting reference ((c.prog E).after (run E before db)) := Call.waiting_of_hold ha hhold
  have hrun : run E calls db = run E after ((c.prog E).after (run E before db)) := by
    unfold run
    rw [hcalls, List.map_append, execAll_append, List.map_cons, execAll_cons]
  by_contra hno
  have hstays : Waiting reference (run E after ((c.prog E).after (run E before db))) := by
    refine run_waiting (fun c' hc => hbilled c' (by simp [hcalls, hc])) (fun q hq heq => hno ⟨q, hq, heq⟩) hwaiting
  rw [hrun] at hp
  obtain ⟨p', hp', -, hnot⟩ := hstays
  obtain rfl := Option.some.inj (hp.symm.trans hp')
  rw [hnot] at hcredited
  cases hcredited

/-- A payment of two votes that is not confirmed yet. -/
def unconfirmed : Database :=
  Transitions.shop.set (.payment "ref")
    (some { candidate := some 7, event := some 1, votes := 2, amountMinor := 200, status := .PENDING })

/-- The report that it is paid, and what the risk engine says of it. -/
def judged (score : ℕ) (decision : String) : Call :=
  .report { Transitions.shopAdapters with assess := fun _ _ => ⟨score, decision⟩ }
    { reference := "ref", data := (Transitions.paid "ref").data, credit := ⟨1, 2⟩, now := fun _ => 2 }

theorem judged_billed (score : ℕ) (decision : String) : (judged score decision).Billed .plain := ⟨_, rfl⟩

/-- An analyst releases the payment. -/
def released : ReleaseCall where
  reference := "ref"
  analyst := { pk := 1, username := "analyst", hasPerm := fun _ _ => true }
  notes := ""
  credit := ⟨1, 3⟩
  now := fun _ => 3

/-- A payment that is held, and released. -/
def reviewed : List Call := [judged 90 "HOLD", .release released]

theorem risky_waits_reviewed : Waits .plain "ref" unconfirmed reviewed := by
  refine risky_waits (fun c hc => ?_) fun before c after a hcalls ha => ?_
  · simp only [reviewed, List.mem_cons, List.not_mem_nil, or_false] at hc
    rcases hc with rfl | rfl
    · exact judged_billed _ _
    · trivial
  · rcases before with _ | ⟨c₁, _ | ⟨c₂, before⟩⟩
    · obtain ⟨rfl, -⟩ := List.cons.inj hcalls
      have hassessed : (judged 90 "HOLD").assessment .plain "ref" unconfirmed = some ⟨90, "HOLD"⟩ := rfl
      obtain rfl := Option.some.inj (hassessed.symm.trans ha)
      decide
    · obtain ⟨-, hcalls⟩ := List.cons.inj hcalls
      obtain ⟨rfl, -⟩ := List.cons.inj hcalls
      cases ha
    · have hlength := congrArg List.length hcalls
      simp [reviewed] at hlength

/-- A challenged payment is credited by the report that confirms it. -/
theorem not_risky_waits : ¬ ∀ (E : Env) (reference : String) (db : Database) (calls : List Call),
    (∀ c ∈ calls, c.Billed E) → Waits E reference db calls := by
  intro h
  have hcredited : ((run .plain [judged 70 "CHALLENGE"] unconfirmed).row (.payment "ref")).map (·.votesCredited) =
      some true := by decide +kernel
  obtain ⟨p, hp, hflag⟩ := Option.map_eq_some_iff.mp hcredited
  have hbilled : ∀ c ∈ [judged 70 "CHALLENGE"], c.Billed .plain := fun c hc => by
    obtain rfl := List.mem_singleton.mp hc
    exact judged_billed _ _
  obtain ⟨q, hq, -⟩ := h .plain "ref" unconfirmed [judged 70 "CHALLENGE"] hbilled [] (judged 70 "CHALLENGE") []
    ⟨70, "CHALLENGE"⟩ p rfl rfl (Or.inl rfl) hp hflag
  cases hq

end Releases
end FlexyVotes
