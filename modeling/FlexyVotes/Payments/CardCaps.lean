/-
# The votes of a card

The engine adds up the votes of the payments that are credited on a card, and
holds a confirmation that would take them beyond the limit of its event. Two
things are not added up: the bonus votes of what is credited already, and the
votes a card comes to when a later report names it for a credited payment. In a
sequence of confirmations where neither happens (`Ordinary`) the votes and the
bonus votes of a card stay within the limit.

Key definitions: `Confirmation`, `Ordinary`, `cardVotes`.
Key theorems: `unheld_fits`, `card_capped`.
-/
import FlexyVotes.Fraud.Engine
import FlexyVotes.Payments.Assessments
import FlexyVotes.Payments.Caps

namespace FlexyVotes
namespace CardCaps

open Transactions Payments Runs Reports Assessments Caps Fraud

/-! ### The engine -/

/-- A signal weighs on the score. -/
theorem weight_le_score {x : Signal} {ss : List Signal} (hx : x ∈ ss) : min 100 x.weight ≤ score ss :=
  min_le_min_left 100 (List.single_le_sum (fun _ _ => Nat.zero_le _) _ (List.mem_map_of_mem hx))

/-- **What is not held fits**: with the votes that are credited on its card, the
payment is within the limit of its event. -/
theorem unheld_fits {E : Env} {w : Sources} {db : Database} {p : PaymentRow} {event m : ℕ} {ev : EventRow}
    (h : (assessPaid E {} w db p).held = false) (hevent : p.event = some event) (hev : db.row (.event event) = some ev)
    (hm : limit ev.maxVotesPerVoter = some m) (hcard : p.gateway.cardSignature ≠ "") :
    sumPayments db (onCard event p.gateway.cardSignature) (·.votes) + p.totalVotes ≤ m := by
  by_contra hover
  have hlimit : ⟨"card_vote_limit", 85, "Card exceeds the " ++ toString m ++ "-vote limit"⟩ ∈
      signals E {} w db (paidSubject db p) := by
    have hsubject : (paidSubject db p).event = some (event, ev) := by simp [paidSubject, hevent, hev]
    have hmem : ⟨"card_vote_limit", 85, "Card exceeds the " ++ toString m ++ "-vote limit"⟩ ∈
        limitSignals db (paidSubject db p) := by
      have hlt : m < sumPayments db (onCard event (paidSubject db p).cardSignature) (·.votes) +
          (paidSubject db p).votes := Nat.lt_of_not_le hover
      unfold limitSignals
      rw [hsubject]
      dsimp only
      rw [hm, Option.filter_some, if_pos (decide_eq_true hlt)]
      simp
    have hcards : limitSignals db (paidSubject db p) ⊆ cardSignals w db (paidSubject db p) := fun x hx => by
      have hnamed : (paidSubject db p).cardSignature ≠ "" := hcard
      unfold cardSignals
      rw [if_neg hnamed]
      exact List.mem_append_right _ hx
    unfold signals
    simp only [List.mem_append]
    exact Or.inl (Or.inl (Or.inr (hcards hmem)))
  have hscore : 85 ≤ score (signals E {} w db (paidSubject db p)) := weight_le_score hlimit
  have hheld : (assessPaid E {} w db p).held = true :=
    (Thresholds.held_iff {} _).mpr (le_trans (by decide) hscore)
  rw [hheld] at h
  cases h

/-! ### Confirmations -/

/-- A report of the gateway, with what the engine reads of it beside the
database; the thresholds are the documented ones. -/
structure Confirmation (E : Env) where
  adapters : Adapters
  sources : Sources
  call : GatewayCall
  engine : ∀ db p, adapters.assess db p = assessPaid E {} sources db p
  billed : Billed E adapters

/-- The tables after a report. -/
def Confirmation.after {E : Env} (c : Confirmation E) (db : Database) : Database := reportAfter E c.adapters c.call db

/-- The tables after the reports, one after the other. -/
def run {E : Env} : List (Confirmation E) → Database → Database
  | [], db => db
  | c :: cs, db => run cs (c.after db)

/-- The votes and bonus votes that are credited on a card. -/
def cardVotes (db : Database) (event : ℕ) (signature : String) : ℕ :=
  sumPayments db (onCard event signature) (·.totalVotes)

/-- The report names the card for a payment of the event. -/
def Confirmation.names {E : Env} (c : Confirmation E) (event : ℕ) (signature : String) (p : PaymentRow) : Prop :=
  gatewayStatus E c.call.data = .ok "success" ∧ p.event = some event ∧
    ∃ d, c.adapters.details c.call.data p = .ok d ∧ d.cardSignature = signature

/-- The card has no bonus votes when another payment is confirmed with it, and
is not named for a payment that was credited on another. -/
structure Ordinary {E : Env} (event : ℕ) (signature : String) (db : Database) (c : Confirmation E) : Prop where
  bonus : ∀ p, db.row (.payment c.call.reference) = some p → p.votesCredited = false → c.names event signature p →
    ∀ reference p', db.row (.payment reference) = some p' → onCard event signature p' = true → p'.bonusVotes = 0
  card : ∀ p, db.row (.payment c.call.reference) = some p → p.votesCredited = true → c.names event signature p →
    p.gateway.cardSignature = signature

/-- Each report is ordinary. -/
def AllOrdinary {E : Env} (event : ℕ) (signature : String) : Database → List (Confirmation E) → Prop
  | _, [] => True
  | db, c :: cs => Ordinary event signature db c ∧ AllOrdinary event signature (c.after db) cs

section Reports

variable {E : Env} {db : Database} {c : Confirmation E} {event m : ℕ} {signature : String} {ev : EventRow} {p : PaymentRow}

theorem onCard_iff : onCard event signature p = true ↔
    p.event = some event ∧ p.gateway.cardSignature = signature ∧ p.votesCredited = true := by simp [onCard]

/-- A report leaves the rows of others. -/
theorem reportAfter_row {x : Key} (hx : isReport c.call.reference x = false) :
    (c.after db).row x = db.row x := by
  have hapart : (applyGatewayResult E c.adapters c.call fun _ => .halt).Apart (isReport c.call.reference)
      (fun _ => true) fun p => ∃ r : Except Failure (Option PaymentRow), p = (fun _ => .halt) r :=
    applyGatewayResult_apart c.billed
  refine after_row hapart (fun q hq => ?_) hx
  obtain ⟨r, rfl⟩ := hq
  rfl

theorem reportAfter_payment {reference : String} (hne : reference ≠ c.call.reference) :
    (c.after db).row (.payment reference) = db.row (.payment reference) :=
  reportAfter_row (by simpa [isReport] using hne)

/-- Where the payment of the report counts for the card only if it did, the
votes of the card are no more. -/
theorem cardVotes_le (h : ∀ p', (c.after db).row
    (.payment c.call.reference) = some p' → onCard event signature p' = true → ∃ p,
      db.row (.payment c.call.reference) = some p ∧ onCard event signature p = true ∧ p'.totalVotes ≤ p.totalVotes) :
    cardVotes (c.after db) event signature ≤ cardVotes db event signature := by
  refine sumPayments_le fun reference p' hp' hc => ?_
  by_cases hreference : reference = c.call.reference
  · subst hreference
    exact h p' hp' hc
  · rw [reportAfter_payment hreference] at hp'
    exact ⟨p', hp', hc, le_rfl⟩

/-- What the report does to the columns that count. -/
theorem confirmed_columns {q : GatewayCall} {d : GatewayDetails} : Lasting p (confirmed q p d) ∧
    (confirmed q p d).gateway = d ∧ (confirmed q p d).votesCredited = p.votesCredited := by
  unfold confirmed transition
  split_ifs <;> exact ⟨⟨rfl, rfl, rfl, rfl, rfl, rfl, rfl⟩, rfl, rfl⟩

theorem viewOf_row {q : GatewayCall} {d : GatewayDetails} {x : Key} (hx : x ≠ .payment q.reference) :
    (viewOf q db p d).row x = db.row x := by
  unfold viewOf
  split_ifs <;> simp [hx]

/-- A payment that counts for the card after a report that asks the engine was
not held. -/
theorem credited_of_asks {p' : PaymentRow} {d : GatewayDetails} (hp : db.row (.payment c.call.reference) = some p)
    (hs : gatewayStatus E c.call.data = .ok "success") (hd : c.adapters.details c.call.data p = .ok d)
    (hasks : asks E c.call p d = true) (hp' : (c.after db).row (.payment c.call.reference) = some p')
    (hcredited : p'.votesCredited = true) :
    (assessPaid E {} c.sources (viewOf c.call db p d) (confirmed c.call p d)).held = false ∧ Lasting p p' ∧
      p'.gateway = d := by
  obtain ⟨hlasting, hgateway, hwas⟩ := confirmed_columns (p := p) (q := c.call) (d := d)
  obtain ⟨-, -, -, -, -, -, -, hnot⟩ := asks_payment hasks
  obtain ⟨report, hmade⟩ := assessed_after hp hs hd hasks
  rw [c.engine] at hmade
  have hsaved : ∀ P : PaymentRow, (saved db c.call.reference P).row (.payment c.call.reference) = some P := fun P =>
    Db.set_row_self _ _ _
  have huncredited : (c.after db).row (.payment c.call.reference) = some (assessed (confirmed c.call p d)
      (assessPaid E {} c.sources (viewOf c.call db p d) (confirmed c.call p d))) → False := fun h => by
    obtain rfl := Option.some.inj (hp'.symm.trans h)
    have hfalse : p.votesCredited = true := hwas.symm.trans hcredited
    rw [hnot] at hfalse
    cases hfalse
  rcases hmade with ⟨-, hrows⟩ | ⟨-, hrows, -⟩ | ⟨heffect, hcredit⟩ | ⟨heffect, -⟩
  · exact (huncredited ((hrows _).trans (hsaved _))).elim
  · exact (huncredited ((hrows _).trans (hsaved _))).elim
  · have hrow := hcredit.payment
    rw [hsaved] at hrow
    obtain rfl := Option.some.inj (hp'.symm.trans hrow)
    refine ⟨?_, hlasting.trans ⟨rfl, rfl, rfl, rfl, rfl, rfl, rfl⟩, hgateway⟩
    dsimp only at heffect
    split_ifs at heffect with hheld
    exact Bool.eq_false_iff.mpr hheld
  · dsimp only at heffect
    split_ifs at heffect

/-- **An ordinary report** keeps the votes of the card within the limit. -/
theorem Ordinary.capped (h : Ordinary event signature db c)
    (hev : db.row (.event event) = some ev) (hm : limit ev.maxVotesPerVoter = some m) (hcard : signature ≠ "")
    (hcapped : cardVotes db event signature ≤ m) :
    cardVotes (c.after db) event signature ≤ m := by
  rcases hp : db.row (.payment c.call.reference) with _ | p
  · -- there is no such payment
    refine (cardVotes_le fun p' hp' _ => ?_).trans hcapped
    have hnone : (db.apply []).row (.payment c.call.reference) = none := hp
    unfold Confirmation.after reportAfter Prog.after applyGatewayResult at hp'
    rw [Prog.exec_lockRow_none hnone] at hp'
    have hnone' : db.row (.payment c.call.reference) = some p' := hp'
    rw [hp] at hnone'
    cases hnone'
  rcases hassess : assessment E c.adapters c.call db with _ | a
  · -- the engine is not asked: what counts for the card did
    obtain ⟨p', hp', hleft⟩ := unassessed_after c.billed hp hassess
    refine (cardVotes_le fun p₁ hp₁ hc => ⟨p, hp, ?_, ?_⟩).trans hcapped
    · obtain rfl := Option.some.inj (hp'.symm.trans hp₁)
      obtain ⟨hevent, hsignature, hcredited⟩ := onCard_iff.mp hc
      have hwas : p.votesCredited = true := hleft.credited.symm.trans hcredited
      have hof : p.event = some event := hleft.lasting.event.symm.trans hevent
      refine onCard_iff.mpr ⟨hof, ?_, hwas⟩
      rcases hleft.gateway with hsame | ⟨hs, hd⟩
      · rw [← hsame]
        exact hsignature
      · exact h.card p hp hwas ⟨hs, hof, _, hd, hsignature⟩
    · obtain rfl := Option.some.inj (hp'.symm.trans hp₁)
      unfold PaymentRow.totalVotes
      rw [hleft.lasting.votes, hleft.lasting.bonus]
  obtain ⟨p₀, d, hp₀, hs, hd, hasks, -⟩ := assessment_some hassess
  obtain rfl := Option.some.inj (hp.symm.trans hp₀)
  by_cases hcounts : ∃ p', (c.after db).row (.payment c.call.reference) = some p' ∧ onCard event signature p' = true
  swap
  · exact (cardVotes_le fun p' hp' hc => absurd ⟨p', hp', hc⟩ hcounts).trans hcapped
  obtain ⟨p', hp', hc⟩ := hcounts
  obtain ⟨hevent, hsignature, hcredited⟩ := onCard_iff.mp hc
  obtain ⟨hunheld, hlasting, hgateway⟩ := credited_of_asks hp hs hd hasks hp' hcredited
  obtain ⟨hlasting₁, hgateway₁, -⟩ := confirmed_columns (p := p) (q := c.call) (d := d)
  obtain ⟨-, -, -, -, -, -, -, hnot⟩ := asks_payment hasks
  have hof : p.event = some event := hlasting.event.symm.trans hevent
  have hnamed : (confirmed c.call p d).gateway.cardSignature = signature := by rw [hgateway₁, ← hgateway, hsignature]
  have hfits := unheld_fits hunheld (hlasting₁.event.trans hof) ((viewOf_row (by simp)).trans hev) hm (hnamed ▸ hcard)
  rw [hnamed] at hfits
  -- none of the votes that count are bonus votes
  have hbefore : cardVotes db event signature ≤
      sumPayments (viewOf c.call db p d) (onCard event signature) (·.votes) := by
    refine sumPayments_le fun reference p₁ hp₁ hc₁ => ?_
    have hne : reference ≠ c.call.reference := by
      rintro rfl
      obtain rfl := Option.some.inj (hp.symm.trans hp₁)
      rw [(onCard_iff.mp hc₁).2.2] at hnot
      cases hnot
    have hbonus := h.bonus p hp hnot ⟨hs, hof, d, hd, by rw [← hgateway, hsignature]⟩ reference p₁ hp₁ hc₁
    refine ⟨p₁, (viewOf_row (by simpa using hne)).trans hp₁, hc₁, ?_⟩
    unfold PaymentRow.totalVotes
    rw [hbonus, Nat.add_zero]
  have hafter : cardVotes (c.after db) event signature ≤
      cardVotes db event signature + if onCard event signature p' then p'.totalVotes else 0 :=
    sumPayments_new hp' fun r p₁ hr hp₁ hc₁ => by
      rw [reportAfter_payment hr] at hp₁
      exact ⟨p₁, hp₁, hc₁, le_rfl⟩
  rw [if_pos hc] at hafter
  have hvotes : p'.totalVotes = (confirmed c.call p d).totalVotes := by
    unfold PaymentRow.totalVotes
    rw [hlasting.votes, hlasting.bonus, hlasting₁.votes, hlasting₁.bonus]
  omega

end Reports

/-- **The votes of a card are within the limit of its event**, after any sequence
of confirmations. -/
theorem card_capped {E : Env} {event m : ℕ} {signature : String} {ev : EventRow} (hcard : signature ≠ "")
    (hm : limit ev.maxVotesPerVoter = some m) : ∀ (cs : List (Confirmation E)) (db : Database),
    db.row (.event event) = some ev → cardVotes db event signature ≤ m → AllOrdinary event signature db cs →
    cardVotes (run cs db) event signature ≤ m
  | [], _, _, hcapped, _ => hcapped
  | c :: cs, db, hev, hcapped, ⟨hordinary, hrest⟩ =>
    card_capped hcard hm cs (c.after db) ((reportAfter_row rfl).trans hev) (hordinary.capped hev hm hcard hcapped) hrest

/-! ### Two payments of a card -/

/-- An election with at most four votes for each voter. -/
def atMostFour : EventRow := { startDate := 0, endDate := 10, status := .OPEN, maxVotesPerVoter := some 4 }

/-- A purchase that waits for its confirmation. -/
def waiting (votes bonus : ℕ) : PaymentRow where
  candidate := some 7
  event := some 1
  votes := votes
  bonusVotes := bonus
  amountMinor := 200
  status := .PENDING

/-- Two purchases of two votes, the first with bonus votes. -/
def twoPurchases (bonus : ℕ) : Database :=
  ((Db.empty.set (.event 1) (some atMostFour)).set (.payment "a") (some (waiting 2 bonus))).set (.payment "b")
    (some (waiting 2 0))

/-- The purchase is paid by the card. -/
def byCard (reference : String) (ledgerId : ℕ) : Confirmation .plain where
  adapters :=
    { Transitions.shopAdapters with
      details := fun _ _ => .ok { cardSignature := "card" }
      assess := assessPaid .plain {} { now := 2 } }
  sources := { now := 2 }
  call := { reference := reference, data := (Transitions.paid reference).data, credit := ⟨ledgerId, 2⟩, now := fun _ => 2 }
  engine := fun _ _ => rfl
  billed := ⟨_, rfl⟩

theorem twoPurchases_row {bonus : ℕ} {reference : String} {p : PaymentRow}
    (hp : (twoPurchases bonus).row (.payment reference) = some p) : p.votesCredited = false ∧ p.bonusVotes ≤ bonus := by
  unfold twoPurchases at hp
  by_cases hb : reference = "b"
  · subst hb
    rw [Db.set_row_self] at hp
    obtain rfl := Option.some.inj hp
    exact ⟨rfl, Nat.zero_le _⟩
  by_cases ha : reference = "a"
  · subst ha
    rw [Db.set_row_ne _ _ (by simp), Db.set_row_self] at hp
    obtain rfl := Option.some.inj hp
    exact ⟨rfl, le_rfl⟩
  · rw [Db.set_row_ne _ _ (by simpa using hb), Db.set_row_ne _ _ (by simpa using ha), Db.set_row_ne _ _ (by simp)] at hp
    cases hp

/-- Without bonus votes the card comes to four. -/
theorem card_capped_plain : cardVotes (run [byCard "a" 1, byCard "b" 2] (twoPurchases 0)) 1 "card" = 4 ∧
    cardVotes (run [byCard "a" 1, byCard "b" 2] (twoPurchases 0)) 1 "card" ≤ 4 := by
  have hlimit : limit atMostFour.maxVotesPerVoter = some 4 := rfl
  refine ⟨by decide +kernel, card_capped (by decide) hlimit _ _ rfl (by decide +kernel) ⟨?_, ?_, trivial⟩⟩
  · refine ⟨fun _ _ _ _ reference p hp _ => Nat.le_zero.mp (twoPurchases_row hp).2, fun p hp hcredited => ?_⟩
    rw [(twoPurchases_row hp).1] at hcredited
    cases hcredited
  · refine ⟨fun _ _ _ _ reference p hp _ => ?_, fun p hp hcredited => ?_⟩
    · by_cases ha : reference = "a"
      · subst ha
        have hbonus : (((byCard "a" 1).after (twoPurchases 0)).row (.payment "a")).map (·.bonusVotes) = some 0 := by
          decide +kernel
        rw [hp] at hbonus
        exact Option.some.inj hbonus
      · rw [reportAfter_payment ha] at hp
        exact Nat.le_zero.mp (twoPurchases_row hp).2
    · rw [reportAfter_payment (by decide)] at hp
      rw [(twoPurchases_row hp).1] at hcredited
      cases hcredited

/-- With bonus votes it comes to six. -/
theorem not_card_capped :
    ¬ ∀ (E : Env) (event m : ℕ) (signature : String) (ev : EventRow) (cs : List (Confirmation E)) (db : Database),
      signature ≠ "" → limit ev.maxVotesPerVoter = some m → db.row (.event event) = some ev →
      cardVotes db event signature ≤ m → cardVotes (run cs db) event signature ≤ m := by
  intro h
  have hle := h .plain 1 4 "card" atMostFour [byCard "a" 1, byCard "b" 2] (twoPurchases 2) (by decide) rfl rfl
    (by decide +kernel)
  have hsix : cardVotes (run [byCard "a" 1, byCard "b" 2] (twoPurchases 2)) 1 "card" = 6 := by decide +kernel
  rw [hsix] at hle
  omega

end CardCaps
end FlexyVotes
