/-
# Votes by USSD

A caller enters a nominee code and a number of votes, is shown what they cost
and confirms (`ussdVote`). The screens multiply the event's price per vote; the
payment is priced by `quote`, at the price of the candidate's position where it
has one, and a session that was answered before gets the payment of then.

Key definitions: `VoteScreen`, `ussdVote`, `Session`, `Session.Priced`.
Key theorems: `initiateVotePayment_exec`, `confirmed_charged`.
-/
import FlexyVotes.Payments.Checkout

namespace FlexyVotes
namespace UssdVotes

open Transactions Audit Payments Tickets Casting

/-! ### Screens -/

/-- A screen of `_ussd_vote`. -/
inductive VoteScreen
  | plain (text : String)
  /-- What is to be confirmed. -/
  | confirm (currency : String) (total votes : ℕ) (name : String)
  /-- The final message of a payment that is started. -/
  | approve (currency : String) (total votes : ℕ) (name reference : String)
  deriving DecidableEq

/-- The text the caller reads. -/
def VoteScreen.text : VoteScreen → String
  | .plain text => text
  | .confirm currency total votes name =>
    "CON Pay " ++ currency ++ " " ++ money total ++ " for " ++ toString votes ++ " votes for " ++ name ++
      "?\n1. Confirm\n2. Cancel"
  | .approve currency total votes name reference =>
    "END Approve the " ++ currency ++ " " ++ money total ++ " prompt on your phone. Your " ++ toString votes ++
      " votes for " ++ name ++ " count once payment is confirmed. Ref: " ++ reference

/-- One request of `_ussd_vote`: the inputs so far, and what the call draws, the
risk engine says and the gateway answers. -/
structure VoteRequest where
  inputs : List String
  sessionId : String := ""
  phoneNumber : String
  ipAddress : Option String := none
  deviceHash : String := ""
  configured : Bool := true
  risk : Assessment
  challenged : Bool := false
  reference : String
  answer : Except String (String × String) := .ok ("", "")
  now : ℕ → Time

/-- The candidate of a nominee code, with its event. -/
def nominee (E : Env) (db : Database) (code : String) : Option ((ℕ × CandidateRow) × EventRow) :=
  ((db.collect fun
    | .candidate pk => fun c => if c.nomineeCode = some (E.upper (E.strip code)) then some (pk, c) else none
    | _ => fun _ => none).head?).bind fun c => (db.row (.event c.2.event)).map fun ev => (c, ev)

/-- The checkout of a session: by phone, under the key of the session. -/
def VoteRequest.call (q : VoteRequest) (candidate : ℕ) (c : CandidateRow) (votes : ℤ) : InitiateCall where
  event := c.event
  candidate := candidate
  order := { votes := .int votes, phone := q.phoneNumber }
  idempotencyKey := if truncate 100 q.sessionId = "" then "" else "ussd:" ++ truncate 100 q.sessionId
  channelHint := "mobile_money"
  ipAddress := q.ipAddress
  deviceHash := q.deviceHash
  configured := q.configured
  risk := q.risk
  challenged := q.challenged
  reference := q.reference
  answer := q.answer
  now := q.now

/-- `_ussd_vote`, of a session whose first input was `1`. -/
def ussdVote (E : Env) (q : VoteRequest) (k : Except Failure VoteScreen → Program) : Program :=
  let plain (text : String) : Program := k (.ok (.plain text))
  match q.inputs.drop 1 with
  | [] => plain "CON Enter Nominee Code:"
  | code :: rest =>
    .read fun db =>
      match nominee E db code with
      | none => plain "END Invalid nominee code or voting is closed."
      | some ((pk, c), ev) =>
        if ev.votingMode ≠ .PAY_TO_VOTE ∨ !acceptingVotes ev (q.now 0) then
          plain "END Invalid nominee code or voting is closed."
        else
          match rest with
          | [] => plain ("CON You selected " ++ c.name ++ ".\nEnter number of votes (" ++ ev.currency ++ " " ++
              money ev.votePrice ++ " each):")
          | raw :: rest =>
            match E.parseInt raw with
            | none => plain "END Invalid input. Please enter a number."
            | some votes =>
              if votes < 1 then plain "END Invalid number of votes."
              else
                let total := ev.votePrice * votes.toNat
                match rest with
                | [] => k (.ok (.confirm ev.currency total votes.toNat c.name))
                | confirm :: _ =>
                  if confirm ≠ "1" then plain "END Transaction cancelled."
                  else if (ghanaMomoProvider E q.phoneNumber).1 = none then
                    plain "END Mobile money is not supported for this number."
                  else
                    initiateVotePayment E (q.call pk c votes) fun
                      | .ok reference => k (.ok (.approve ev.currency total votes.toNat c.name reference))
                      | .error (.payment message _) => plain ("END " ++ truncate 120 message)
                      | .error e => k (.error e)

/-! ### The checkout alone -/

section Checkout

variable {E : Env} {db : Database}

/-- The checkout returns the payment `p`, in the tables `db'`. -/
def Returns (E : Env) (c : InitiateCall) (db : Database) (reference : String) (p : PaymentRow) (db' : Database) : Prop :=
  db'.row (.payment reference) = some p ∧ ∃ log, ∀ k : Except Failure String → Program,
    (initiateVotePayment E c k).exec db [] [] = (k (.ok reference)).exec db' [] log

/-- The checkout fails. -/
def Fails (E : Env) (c : InitiateCall) (db : Database) : Prop :=
  ∃ e db' log, ∀ k : Except Failure String → Program,
    (initiateVotePayment E c k).exec db [] [] = (k (.error e)).exec db' [] log

/-- The payment under the key of the call. -/
def existing (c : InitiateCall) (db : Database) : Option PaymentRow :=
  if c.idempotencyKey = "" then none
  else (db.row (.paymentKey c.idempotencyKey)).bind fun reference => db.row (.payment reference)

/-- A number of votes is as it was given. -/
theorem votesOf_int (n : ℤ) : Payments.votesOf E (.int n) = n := by
  unfold Payments.votesOf
  split
  · rename_i m hm
    by_cases hn : n = 0
    · subst hn
      exact (Except.ok.inj hm).symm
    · have hfalsy : (Json.int n).falsy = false := by simp [Json.falsy, Json.number?, hn]
      rw [hfalsy, if_neg Bool.false_ne_true] at hm
      exact (Except.ok.inj hm).symm
  · rename_i e he
    split at he <;> cases he

/-- Without a package and a code, what is to be paid is the unit price of each vote. -/
theorem quote_amount {event : ℕ} {ev : EventRow} {c : Choice} {o : Order} {now : Time} {n : ℤ}
    (hvotes : o.votes = .int n) (hpackage : o.package = none) (hcode : o.discountCode = "")
    (herrors : (quote E db event ev c o now).errors = []) :
    (quote E db event ev c o now).amount = unitPrice ev c.category * n.toNat := by
  unfold quote at herrors ⊢
  by_cases hmode : ev.votingMode ≠ .PAY_TO_VOTE
  · rw [if_pos hmode] at herrors
    cases herrors
  by_cases hevent : c.row.event ≠ event
  · rw [if_neg hmode, if_pos hevent] at herrors
    cases herrors
  rw [if_neg hmode, if_neg hevent]
  have hnone : findDiscount E db event ev o.discountCode = none := by
    unfold findDiscount
    rw [if_pos hcode]
  have hamount : ∀ (index : String) (q : Quote), q.discount = 0 →
      (withAmount (withDiscount E db event ev o index now q)).amount = q.gross := fun index q hq => by
    have hsame : withDiscount E db event ev o index now q = q := by
      unfold withDiscount
      rw [hnone]
      simp [hcode, discounted]
    rw [hsame]
    unfold withAmount
    dsimp only
    split_ifs
    · show q.gross - q.discount = q.gross
      omega
    · show q.gross - q.discount = q.gross
      omega
  have hlimits : ∀ (P : Prop) [Decidable P] (q : Quote) (errors : List String),
      (if P then q else { q with errors := errors }).amount = q.amount := fun P _ q errors => by
    split_ifs
    · rfl
    · rfl
  rw [hpackage]
  dsimp only
  rw [hlimits, hamount _ _ rfl]
  simp only [priceVotes, hvotes, votesOf_int]

/-- The gateway is asked about a payment that is written: it is saved with the
same amount and currency, or the checkout fails. -/
theorem askGateway_exec {c : InitiateCall} {row : PaymentRow} {w : Writes Row}
    (hrow : (db.apply w).row (.payment c.reference) = some row) :
    (∃ e db' log, ∀ k : Except Failure String → Program, (askGateway c k).exec db w [] = (k (.error e)).exec db' [] log) ∨
      ∃ p db', (db'.row (.payment c.reference) = some p ∧ p.amountMinor = row.amountMinor ∧ p.currency = row.currency) ∧
        ∃ log, ∀ k : Except Failure String → Program, (askGateway c k).exec db w [] = (k (.ok c.reference)).exec db' [] log := by
  rcases hanswer : c.answer with e | page
  · left
    refine ⟨.payment e "gateway", (db.apply w).set (.payment c.reference) (some (refusedPayment (c.now 1) row)),
      [.refused c.reference], fun k => ?_⟩
    unfold askGateway
    rw [hanswer]
    dsimp only
    rw [Prog.exec_commit, Prog.exec_note, Prog.exec_update (by simpa using hrow) rfl]
    rfl
  · right
    have hsaved : ((db.apply w).apply [⟨.payment c.reference, some (withCheckout page row)⟩]).row (.payment c.reference) =
        some (withCheckout page row) := by simp
    have hexec : ∀ k : Except Failure String → Program, (askGateway c k).exec db w [] =
        (saveTransition c.reference (withCheckout page row) .PENDING (c.now 1) <| .commit <| k (.ok c.reference)).exec
          (db.apply w) [⟨.payment c.reference, some (withCheckout page row)⟩] [] := fun k => by
      unfold askGateway
      rw [hanswer]
      dsimp only
      rw [Prog.exec_commit, Prog.exec_update (by simpa using hrow) rfl, Prog.exec_read, hsaved]
    by_cases hchanges : changes (withCheckout page row) .PENDING = true
    · have hmoved : transition (withCheckout page row) .PENDING (c.now 1) =
          { withCheckout page row with status := .PENDING, updatedAt := c.now 1 } := if_pos hchanges
      refine ⟨transition (withCheckout page row) .PENDING (c.now 1), (db.apply w).apply
        [⟨.payment c.reference, some (transition (withCheckout page row) .PENDING (c.now 1))⟩,
          ⟨.payment c.reference, some (withCheckout page row)⟩], ⟨by simp, ?_, ?_⟩, [], fun k => ?_⟩
      · rw [hmoved]
        rfl
      · rw [hmoved]
        rfl
      · rw [hexec k]
        unfold saveTransition
        rw [if_pos hchanges, Prog.exec_put, Prog.exec_commit]
    · refine ⟨withCheckout page row, _, ⟨hsaved, rfl, rfl⟩, [], fun k => ?_⟩
      rw [hexec k]
      unfold saveTransition
      rw [if_neg hchanges, Prog.exec_commit]

/-- A payment under a new reference is recorded, and the gateway asked. -/
theorem recordPayment_exec {c : InitiateCall} {row : PaymentRow} (hnew : db.row (.payment c.reference) = none)
    (hkey : c.idempotencyKey = "" ∨ db.row (.paymentKey c.idempotencyKey) = none) :
    ∃ w, (db.apply w).row (.payment c.reference) = some row ∧ ∀ k : Except Failure String → Program,
      (recordPayment c row k).exec db [] [] = (askGateway c k).exec db w [] := by
  by_cases hk : c.idempotencyKey = ""
  · refine ⟨[⟨.payment c.reference, some row⟩], by simp, fun k => ?_⟩
    unfold recordPayment
    rw [Prog.exec_insertOr (by simpa using hnew), if_pos hk]
  · have hfree := hkey.resolve_left hk
    refine ⟨[⟨.paymentKey c.idempotencyKey, some c.reference⟩, ⟨.payment c.reference, some row⟩], by simp, fun k => ?_⟩
    unfold recordPayment
    rw [Prog.exec_insertOr (by simpa using hnew), if_neg hk, Prog.exec_insertOr (by simpa using hfree)]

/-- What the checkout does under a free key. -/
theorem initiateVotePayment_free {c : InitiateCall} {ev : EventRow} {row : CandidateRow} {quoted : Quote}
    (hev : db.row (.event c.event) = some ev) (hrow : db.row (.candidate c.candidate) = some row)
    (hpackage : c.package = none) (hconfigured : c.configured = true)
    (hkey : (if c.idempotencyKey = "" then none else db.row (.paymentKey c.idempotencyKey)) = none)
    (hquoted : quote E db c.event ev
      ⟨c.candidate, row, row.category.bind fun g => (db.row (.category g)).map fun r => (g, r)⟩
      { c.order with package := none } (c.now 0) = quoted) (k : Except Failure String → Program) :
    (initiateVotePayment E c k).exec db [] [] =
      (match quoted.errors with
        | e :: _ => k (.error (.payment e "invalid"))
        | [] =>
          if c.order.email = "" ∧ c.order.phone = "" then
            k (.error (.payment "Enter an email address or phone number for your receipt." "invalid"))
          else if c.challenged then
            k (.error (.payment
              "Additional verification is required. Complete the challenge and try again." "challenge"))
          else recordPayment c (c.row E ev quoted) k).exec db [] [] := by
  subst hquoted
  unfold initiateVotePayment
  rw [Prog.exec_read, Db.apply_nil, hev, hrow]
  dsimp only
  rw [hconfigured, hpackage, if_neg (by simp), Prog.exec_read, Db.apply_nil, hkey]
  rfl

/-- What it does under the key of another call. -/
theorem initiateVotePayment_taken {c : InitiateCall} {ev : EventRow} {row : CandidateRow} {reference : String}
    (hev : db.row (.event c.event) = some ev) (hrow : db.row (.candidate c.candidate) = some row)
    (hconfigured : c.configured = true)
    (hkey : (if c.idempotencyKey = "" then none else db.row (.paymentKey c.idempotencyKey)) = some reference)
    (k : Except Failure String → Program) : (initiateVotePayment E c k).exec db [] [] =
      ((db.row (.payment reference)).elim (k (.error (.crash "Payment.DoesNotExist"))) fun p : PaymentRow =>
        if p.event ≠ some c.event ∨ p.candidate ≠ some c.candidate then
          k (.error (.payment "This request was already used for a different purchase." "idempotency_conflict"))
        else k (.ok reference)).exec db [] [] := by
  unfold initiateVotePayment
  rw [Prog.exec_read, Db.apply_nil, hev, hrow]
  dsimp only
  rw [hconfigured, if_neg (by simp), Prog.exec_read, Db.apply_nil]
  generalize (if c.idempotencyKey = "" then none else db.row (.paymentKey c.idempotencyKey)) = found at hkey ⊢
  subst hkey
  dsimp only
  rcases db.row (.payment reference) with _ | p
  · rfl
  · rfl

/-- **The checkout alone** fails, returns the payment of its key, or makes one
of the amount that is quoted. -/
theorem initiateVotePayment_exec {c : InitiateCall} {ev : EventRow} {row : CandidateRow}
    (hev : db.row (.event c.event) = some ev) (hrow : db.row (.candidate c.candidate) = some row)
    (hnew : db.row (.payment c.reference) = none) (hpackage : c.package = none) (hcode : c.order.discountCode = "")
    {n : ℤ} (hvotes : c.order.votes = .int n) :
    Fails E c db ∨
    (∃ reference p, existing c db = some p ∧ Returns E c db reference p db) ∨
    (existing c db = none ∧ ∃ p db', p.currency = ev.currency ∧ Returns E c db c.reference p db' ∧
      p.amountMinor = unitPrice ev (row.category.bind fun g => (db.row (.category g)).map fun r => (g, r)) * n.toNat) := by
  by_cases hconfigured : c.configured = true
  swap
  · refine Or.inl ⟨.payment "Paid voting is not available right now (payment provider not configured)." "unavailable",
      db, [], fun k => ?_⟩
    unfold initiateVotePayment
    rw [Prog.exec_read, Db.apply_nil, hev, hrow]
    simp [hconfigured]
  let choice : Choice :=
    ⟨c.candidate, row, row.category.bind fun g => (db.row (.category g)).map fun r => (g, r)⟩
  let quoted : Quote := quote E db c.event ev choice { c.order with package := none } (c.now 0)
  rcases hkey : (if c.idempotencyKey = "" then none else db.row (.paymentKey c.idempotencyKey)) with _ | reference
  · -- the key is free
    have hkey' : c.idempotencyKey = "" ∨ db.row (.paymentKey c.idempotencyKey) = none := by
      by_cases hk : c.idempotencyKey = ""
      · exact Or.inl hk
      · rw [if_neg hk] at hkey
        exact Or.inr hkey
    have hnone : existing c db = none := by
      unfold existing
      rcases hkey' with hk | hk
      · rw [if_pos hk]
      · split_ifs
        · rfl
        · rw [hk]
          rfl
    have hquote : quote E db c.event ev choice { c.order with package := none } (c.now 0) = quoted := rfl
    have hexec := initiateVotePayment_free hev hrow hpackage hconfigured hkey hquote
    rcases herrors : quoted.errors with _ | ⟨e, es⟩
    swap
    · exact Or.inl ⟨.payment e "invalid", db, [], fun k => by rw [hexec k, herrors]⟩
    by_cases hpayer : c.order.email = "" ∧ c.order.phone = ""
    · exact Or.inl ⟨_, db, [], fun k => by rw [hexec k, herrors]; dsimp only; rw [if_pos hpayer]⟩
    by_cases hchallenged : c.challenged = true
    · exact Or.inl ⟨_, db, [], fun k => by rw [hexec k, herrors]; dsimp only; rw [if_neg hpayer, if_pos hchallenged]⟩
    obtain ⟨w, hw, hrecord⟩ : ∃ w, (db.apply w).row (.payment c.reference) = some (c.row E ev quoted) ∧
        ∀ k : Except Failure String → Program, (recordPayment c (c.row E ev quoted) k).exec db [] [] =
          (askGateway c k).exec db w [] := recordPayment_exec hnew hkey'
    have hask : ∀ k : Except Failure String → Program, (initiateVotePayment E c k).exec db [] [] =
        (askGateway c k).exec db w [] := fun k => by
      rw [hexec k, herrors]
      dsimp only
      rw [if_neg hpayer, if_neg hchallenged, hrecord k]
    rcases askGateway_exec hw with ⟨e, db', log, hgateway⟩ | ⟨p, db', ⟨hp, hamount, hcurrency⟩, log, hgateway⟩
    · exact Or.inl ⟨e, db', log, fun k => (hask k).trans (hgateway k)⟩
    refine Or.inr (Or.inr ⟨hnone, p, db', hcurrency, ⟨hp, log, fun k => (hask k).trans (hgateway k)⟩, ?_⟩)
    have hquoted : quoted.amount = unitPrice ev choice.category * n.toNat := quote_amount hvotes rfl hcode herrors
    rw [hamount]
    exact hquoted
  · -- another call was first with the key
    have hk : c.idempotencyKey ≠ "" := fun hk => by
      rw [if_pos hk] at hkey
      cases hkey
    have hexec := initiateVotePayment_taken (E := E) hev hrow hconfigured hkey
    rcases hp : db.row (.payment reference) with _ | p
    · exact Or.inl ⟨_, db, [], fun k => by rw [hexec k, hp, Option.elim_none]⟩
    by_cases hother : p.event ≠ some c.event ∨ p.candidate ≠ some c.candidate
    · exact Or.inl ⟨_, db, [], fun k => by rw [hexec k, hp, Option.elim_some, if_pos hother]⟩
    refine Or.inr (Or.inl ⟨reference, p, ?_, hp, [], fun k => ?_⟩)
    · unfold existing
      rw [if_neg hk] at hkey ⊢
      rw [hkey]
      exact hp
    · rw [hexec k, hp, Option.elim_some, if_neg hother]

end Checkout

/-! ### One request -/

section Request

variable {E : Env} {q : VoteRequest} {db : Database}

/-- What the checkout's result is answered with. -/
def answered (ev : EventRow) (c : CandidateRow) (votes : ℤ) (k : Except Failure VoteScreen → Program) :
    Except Failure String → Program
  | .ok reference => k (.ok (.approve ev.currency (ev.votePrice * votes.toNat) votes.toNat c.name reference))
  | .error (.payment message _) => k (.ok (.plain ("END " ++ truncate 120 message)))
  | .error e => k (.error e)

/-- The inputs name a candidate whose event takes paid votes, and a number of votes. -/
structure Chosen (E : Env) (q : VoteRequest) (db : Database) (more : List String) (pk : ℕ) (c : CandidateRow)
    (ev : EventRow) (votes : ℤ) : Prop where
  inputs : ∃ first code raw, q.inputs = first :: code :: raw :: more ∧ nominee E db code = some ((pk, c), ev) ∧
    E.parseInt raw = some votes
  accepting : ev.votingMode = .PAY_TO_VOTE ∧ acceptingVotes ev (q.now 0) = true
  votes : 1 ≤ votes

/-- A request is answered by a text, by the screen to confirm, or by a checkout. -/
theorem ussdVote_exec (E : Env) (q : VoteRequest) (db : Database) :
    (∃ text, ∀ k log, (ussdVote E q k).exec db [] log = (k (.ok (.plain text))).exec db [] log) ∨
    ∃ more pk c ev votes, Chosen E q db more pk c ev votes ∧
      (more = [] ∧ (∀ k log, (ussdVote E q k).exec db [] log =
          (k (.ok (.confirm ev.currency (ev.votePrice * votes.toNat) votes.toNat c.name))).exec db [] log) ∨
        more ≠ [] ∧ ∀ k log, (ussdVote E q k).exec db [] log =
          (initiateVotePayment E (q.call pk c votes) (answered ev c votes k)).exec db [] log) := by
  match hinputs : q.inputs with
  | [] => exact Or.inl ⟨_, fun k log => by unfold ussdVote; rw [hinputs]; rfl⟩
  | [_] => exact Or.inl ⟨_, fun k log => by unfold ussdVote; rw [hinputs]; rfl⟩
  | first :: code :: rest =>
    rcases hnominee : nominee E db code with _ | ⟨⟨pk, c⟩, ev⟩
    · refine Or.inl ⟨"END Invalid nominee code or voting is closed.", fun k log => ?_⟩
      unfold ussdVote
      rw [hinputs]
      simp only [List.drop_succ_cons, List.drop_zero, Prog.exec_read, Db.apply_nil, hnominee]
    by_cases hopen : ev.votingMode ≠ .PAY_TO_VOTE ∨ (!acceptingVotes ev (q.now 0)) = true
    · refine Or.inl ⟨"END Invalid nominee code or voting is closed.", fun k log => ?_⟩
      unfold ussdVote
      rw [hinputs]
      simp only [List.drop_succ_cons, List.drop_zero, Prog.exec_read, Db.apply_nil, hnominee, if_pos hopen]
    have haccepting : ev.votingMode = .PAY_TO_VOTE ∧ acceptingVotes ev (q.now 0) = true := by
      refine ⟨not_not.mp fun h => hopen (Or.inl h), ?_⟩
      rcases ha : acceptingVotes ev (q.now 0) with _ | _
      · exact absurd (Or.inr (by rw [ha]; rfl)) hopen
      · rfl
    match rest with
    | [] =>
      refine Or.inl ⟨"CON You selected " ++ c.name ++ ".\nEnter number of votes (" ++ ev.currency ++ " " ++
        money ev.votePrice ++ " each):", fun k log => ?_⟩
      unfold ussdVote
      rw [hinputs]
      simp only [List.drop_succ_cons, List.drop_zero, Prog.exec_read, Db.apply_nil, hnominee, if_neg hopen]
    | raw :: more =>
      rcases hvotes : E.parseInt raw with _ | votes
      · refine Or.inl ⟨"END Invalid input. Please enter a number.", fun k log => ?_⟩
        unfold ussdVote
        rw [hinputs]
        simp only [List.drop_succ_cons, List.drop_zero, Prog.exec_read, Db.apply_nil, hnominee, if_neg hopen, hvotes]
      by_cases hpos : votes < 1
      · refine Or.inl ⟨"END Invalid number of votes.", fun k log => ?_⟩
        unfold ussdVote
        rw [hinputs]
        simp only [List.drop_succ_cons, List.drop_zero, Prog.exec_read, Db.apply_nil, hnominee, if_neg hopen, hvotes,
          if_pos hpos]
      have hchosen : Chosen E q db more pk c ev votes :=
        ⟨⟨first, code, raw, hinputs, hnominee, hvotes⟩, haccepting, by omega⟩
      match more with
      | [] =>
        refine Or.inr ⟨[], pk, c, ev, votes, hchosen, Or.inl ⟨rfl, fun k log => ?_⟩⟩
        unfold ussdVote
        rw [hinputs]
        simp only [List.drop_succ_cons, List.drop_zero, Prog.exec_read, Db.apply_nil, hnominee, if_neg hopen, hvotes,
          if_neg hpos]
      | confirm :: more =>
        by_cases hconfirm : confirm ≠ "1"
        · refine Or.inl ⟨"END Transaction cancelled.", fun k log => ?_⟩
          unfold ussdVote
          rw [hinputs]
          simp only [List.drop_succ_cons, List.drop_zero, Prog.exec_read, Db.apply_nil, hnominee, if_neg hopen, hvotes,
            if_neg hpos, if_pos hconfirm]
        by_cases hprovider : (ghanaMomoProvider E q.phoneNumber).1 = none
        · refine Or.inl ⟨"END Mobile money is not supported for this number.", fun k log => ?_⟩
          unfold ussdVote
          rw [hinputs]
          simp only [List.drop_succ_cons, List.drop_zero, Prog.exec_read, Db.apply_nil, hnominee, if_neg hopen, hvotes,
            if_neg hpos, if_neg hconfirm, if_pos hprovider]
        refine Or.inr ⟨_, pk, c, ev, votes, hchosen, Or.inr ⟨by simp, fun k log => ?_⟩⟩
        unfold ussdVote
        rw [hinputs]
        simp only [List.drop_succ_cons, List.drop_zero, Prog.exec_read, Db.apply_nil, hnominee, if_neg hopen, hvotes,
          if_neg hpos, if_neg hconfirm, if_neg hprovider]
        congr 2

/-- The request is answered by the screen, in the tables `db'`. -/
def Answers (E : Env) (q : VoteRequest) (db : Database) (screen : VoteScreen) (db' : Database) : Prop :=
  ∃ log, ∀ k : Except Failure VoteScreen → Program, (ussdVote E q k).exec db [] [] = (k (.ok screen)).exec db' [] log

/-- A request has one answer. -/
theorem Answers.unique {screen : VoteScreen} {db' : Database} (h : Answers E q db screen db') {r : Except Failure VoteScreen}
    {db₁ : Database} {log₁ : List Note}
    (h₁ : ∀ k : Except Failure VoteScreen → Program, (ussdVote E q k).exec db [] [] = (k r).exec db₁ [] log₁) :
    r = .ok screen ∧ db₁ = db' := by
  obtain ⟨log, h⟩ := h
  refine ⟨?_, congrArg Outcome.db ((h₁ fun _ => .halt).symm.trans (h fun _ => .halt))⟩
  have hlogs : log₁ = log := congrArg Outcome.log ((h₁ fun _ => .halt).symm.trans (h fun _ => .halt))
  by_contra hne
  -- what comes after tells the two apart
  let k : Except Failure VoteScreen → Program := fun
    | .ok screen' => if screen' = screen then .note (.charging "" 0) .halt else .halt
    | .error _ => .halt
  have hsame := congrArg Outcome.log ((h₁ k).symm.trans (h k))
  have hfirst : ((k (.ok screen)).exec db' [] log).log = .charging "" 0 :: log := by
    show ((if screen = screen then _ else _ : Program).exec db' [] log).log = _
    rw [if_pos rfl]
    rfl
  have hsecond : ((k r).exec db₁ [] log₁).log = log₁ := by
    rcases r with e | screen'
    · rfl
    · have hother : screen' ≠ screen := fun heq => hne (by rw [heq])
      show ((if screen' = screen then _ else _ : Program).exec db₁ [] log₁).log = _
      rw [if_neg hother]
      rfl
  rw [hfirst, hsecond, hlogs] at hsame
  exact List.cons_ne_self _ _ hsame.symm

/-- The candidate of a code is one of the tables, and so is its event. -/
theorem nominee_rows {code : String} {pk : ℕ} {c : CandidateRow} {ev : EventRow}
    (h : nominee E db code = some ((pk, c), ev)) :
    db.row (.candidate pk) = some c ∧ db.row (.event c.event) = some ev := by
  obtain ⟨x, hx, hev⟩ := Option.bind_eq_some_iff.mp h
  obtain ⟨ev', hev', heq⟩ := Option.map_eq_some_iff.mp hev
  injection heq with hc he
  subst hc he
  refine ⟨?_, hev'⟩
  obtain ⟨key, r, hr, hsome⟩ := (Db.mem_collect _ _ _).mp (List.mem_of_head? hx)
  cases key with
  | candidate pk' =>
    dsimp only at hsome
    split at hsome
    · cases hsome
      exact hr
    · cases hsome
  | _ => cases hsome

theorem Chosen.unique {more more' : List String} {pk pk' : ℕ} {c c' : CandidateRow} {ev ev' : EventRow} {n n' : ℤ}
    (h : Chosen E q db more pk c ev n) (h' : Chosen E q db more' pk' c' ev' n') :
    more = more' ∧ pk = pk' ∧ c = c' ∧ ev = ev' ∧ n = n' := by
  obtain ⟨first, code, raw, hinputs, hnominee, hvotes⟩ := h.inputs
  obtain ⟨first', code', raw', hinputs', hnominee', hvotes'⟩ := h'.inputs
  rw [hinputs] at hinputs'
  injection hinputs' with _ hinputs'
  injection hinputs' with hcode hinputs'
  injection hinputs' with hraw hmore
  subst hcode hraw
  rw [hnominee] at hnominee'
  rw [hvotes] at hvotes'
  cases hnominee'
  cases hvotes'
  exact ⟨hmore, rfl, rfl, rfl, rfl⟩

/-- The screen to confirm shows the event's price for each vote. -/
theorem confirm_answers (hlength : q.inputs.length ≤ 3) {db' : Database} {currency name : String} {total votes : ℕ}
    (h : Answers E q db (.confirm currency total votes name) db') :
    ∃ pk c ev n, Chosen E q db [] pk c ev n ∧ currency = ev.currency ∧ total = ev.votePrice * n.toNat := by
  rcases ussdVote_exec E q db with ⟨text, hexec⟩ | ⟨more, pk, c, ev, n, hchosen, ⟨rfl, hexec⟩ | ⟨hmore, -⟩⟩
  · have heq := (h.unique fun k => hexec k []).1
    cases heq
  · have heq := (h.unique fun k => hexec k []).1
    cases heq
    exact ⟨pk, c, ev, n, hchosen, rfl, rfl⟩
  · obtain ⟨first, code, raw, hinputs, -⟩ := hchosen.inputs
    rw [hinputs] at hlength
    rcases more with _ | ⟨a, more⟩
    · exact absurd rfl hmore
    · simp only [List.length_cons] at hlength
      omega

theorem Chosen.answers {pk : ℕ} {c : CandidateRow} {ev : EventRow} {n : ℤ} (h : Chosen E q db [] pk c ev n) :
    Answers E q db (.confirm ev.currency (ev.votePrice * n.toNat) n.toNat c.name) db := by
  rcases ussdVote_exec E q db with ⟨text, hexec⟩ | ⟨more, pk', c', ev', n', hchosen, ⟨rfl, hexec⟩ | ⟨hmore, -⟩⟩
  · obtain ⟨first, code, raw, hinputs, hnominee, hvotes⟩ := h.inputs
    refine ⟨[], fun k => ?_⟩
    have hclosed : ¬ (ev.votingMode ≠ .PAY_TO_VOTE ∨ (!acceptingVotes ev (q.now 0)) = true) := by
      simp [h.accepting.1, h.accepting.2]
    have hpos : ¬ n < 1 := by
      have := h.votes
      omega
    unfold ussdVote
    rw [hinputs]
    simp only [List.drop_succ_cons, List.drop_zero, Prog.exec_read, Db.apply_nil, hnominee, if_neg hclosed, hvotes,
      if_neg hpos]
  · obtain ⟨-, -, rfl, rfl, rfl⟩ := h.unique hchosen
    exact ⟨[], fun k => hexec k []⟩
  · exact absurd (h.unique hchosen).1.symm hmore

/-- What a payment that is started is for: the payment of the key, or a new one
at the unit price. -/
theorem approve_answers (hnew : db.row (.payment q.reference) = none) {db' : Database} {currency name reference : String}
    {total votes : ℕ} (h : Answers E q db (.approve currency total votes name reference) db') :
    ∃ more pk c ev n p, Chosen E q db more pk c ev n ∧ currency = ev.currency ∧ total = ev.votePrice * n.toNat ∧
      db'.row (.payment reference) = some p ∧
      (existing (q.call pk c n) db = some p ∨
        existing (q.call pk c n) db = none ∧ p.currency = ev.currency ∧ p.amountMinor =
          unitPrice ev (c.category.bind fun g => (db.row (.category g)).map fun r => (g, r)) * n.toNat) := by
  rcases ussdVote_exec E q db with ⟨text, hexec⟩ | ⟨more, pk, c, ev, n, hchosen, ⟨rfl, hexec⟩ | ⟨-, hexec⟩⟩
  · have heq := (h.unique fun k => hexec k []).1
    cases heq
  · have heq := (h.unique fun k => hexec k []).1
    cases heq
  obtain ⟨first, code, raw, -, hnominee, -⟩ := hchosen.inputs
  obtain ⟨hrow, hev⟩ := nominee_rows hnominee
  have hreturns : ∀ reference' p db₁, Returns E (q.call pk c n) db reference' p db₁ →
      currency = ev.currency ∧ total = ev.votePrice * n.toNat ∧ reference' = reference ∧ db₁ = db' := by
    rintro reference' p db₁ ⟨-, log, hret⟩
    obtain ⟨heq, hdb⟩ := h.unique fun k => (hexec k []).trans (hret _)
    cases heq
    exact ⟨rfl, rfl, rfl, hdb⟩
  rcases initiateVotePayment_exec (c := q.call pk c n) (E := E) hev hrow hnew rfl rfl rfl with
    ⟨e, db₁, log, hfail⟩ | ⟨reference', p, hexisting, hret⟩ | ⟨hnone, p, db₁, hcurrency, hret, hamount⟩
  · -- a failure is no final message
    by_cases hpayment : ∃ message code, e = .payment message code
    · obtain ⟨message, code, rfl⟩ := hpayment
      have heq := (h.unique fun k => (hexec k []).trans (hfail _)).1
      cases heq
    · have heq := (h.unique (r := .error e) fun k => (hexec k []).trans ((hfail _).trans (by
        cases e <;> first
          | rfl
          | exact absurd ⟨_, _, rfl⟩ hpayment))).1
      cases heq
  · obtain ⟨hcur, htotal, rfl, rfl⟩ := hreturns _ _ _ hret
    exact ⟨more, pk, c, ev, n, p, hchosen, hcur, htotal, hret.1, Or.inl hexisting⟩
  · obtain ⟨hcur, htotal, rfl, rfl⟩ := hreturns _ _ _ hret
    exact ⟨more, pk, c, ev, n, p, hchosen, hcur, htotal, hret.1, Or.inr ⟨hnone, hcurrency, hamount⟩⟩

end Request

/-! ### Sessions -/

/-- A session of `_ussd_vote`: its last request, with all inputs, the tables it
finds, and the tables and the time of the request that showed the total. -/
structure Session where
  request : VoteRequest
  db : Database
  shown : Option (Database × (ℕ → Time))

/-- The request that is to be confirmed. -/
def Session.step (s : Session) (now : ℕ → Time) : VoteRequest :=
  { s.request with inputs := s.request.inputs.take 3, now := now }

/-- The caller confirmed what the payment is for. -/
def Session.Confirmed (E : Env) (s : Session) (p : PaymentRow) : Prop :=
  ∃ db now votes name db', s.shown = some (db, now) ∧
    Answers E (s.step now) db (.confirm p.currency p.amountMinor votes name) db'

/-- The total was shown, at the price and in the currency of the last request;
and that price is the candidate's unit price, or, where the session already has
a payment, comes to its amount. -/
structure Session.Priced (E : Env) (s : Session) : Prop where
  confirm : ∀ more pk c ev n, Chosen E s.request s.db more pk c ev n → ∃ db now pk₀ c₀ ev₀, s.shown = some (db, now) ∧
    Chosen E (s.step now) db [] pk₀ c₀ ev₀ n ∧ ev₀.currency = ev.currency ∧ ev₀.votePrice = ev.votePrice
  price : ∀ more pk c ev n, Chosen E s.request s.db more pk c ev n →
    match existing (s.request.call pk c n) s.db with
    | none => unitPrice ev (c.category.bind fun g => (s.db.row (.category g)).map fun r => (g, r)) = ev.votePrice
    | some p => p.amountMinor = ev.votePrice * n.toNat ∧ p.currency = ev.currency

/-- The inputs that were shown are those of the last request. -/
theorem Chosen.step {E : Env} {s : Session} {now : ℕ → Time} {db : Database} {more more₀ : List String} {pk pk₀ : ℕ}
    {c c₀ : CandidateRow} {ev ev₀ : EventRow} {n n₀ : ℤ} (h : Chosen E s.request s.db more pk c ev n)
    (h₀ : Chosen E (s.step now) db more₀ pk₀ c₀ ev₀ n₀) : n₀ = n := by
  obtain ⟨first, code, raw, hinputs, -, hvotes⟩ := h.inputs
  obtain ⟨first₀, code₀, raw₀, hinputs₀, -, hvotes₀⟩ := h₀.inputs
  have htake : s.request.inputs.take 3 = first₀ :: code₀ :: raw₀ :: more₀ := hinputs₀
  rw [hinputs] at htake
  simp only [List.take_succ_cons, List.take_zero, List.cons.injEq] at htake
  obtain ⟨-, -, rfl, -⟩ := htake
  exact Option.some.inj (hvotes₀.symm.trans hvotes)

/-- **What a USSD caller confirms is what is charged**, where the price shown is
the candidate's own and the session starts no second purchase. -/
theorem confirmed_charged (E : Env) (s : Session) (hnew : s.db.row (.payment s.request.reference) = none)
    {currency name reference : String} {total votes : ℕ} {db' : Database}
    (h : Answers E s.request s.db (.approve currency total votes name reference) db') :
    ∃ p, db'.row (.payment reference) = some p ∧
      ((p.amountMinor = total ∧ p.currency = currency ∧ s.Confirmed E p) ↔ s.Priced E) := by
  obtain ⟨more, pk, c, ev, n, p, hchosen, rfl, rfl, hp, hfor⟩ := approve_answers hnew h
  have hpos : 0 < n.toNat := by
    have := hchosen.votes
    omega
  refine ⟨p, hp, ⟨fun ⟨hamount, hcurrency, hconfirmed⟩ => ⟨?_, ?_⟩, fun hpriced => ?_⟩⟩
  · intro more' pk' c' ev' n' hchosen'
    obtain ⟨-, -, -, rfl, rfl⟩ := hchosen.unique hchosen'
    obtain ⟨db, now, votes, name, db₁, hshown, hanswers⟩ := hconfirmed
    have hlength : (s.step now).inputs.length ≤ 3 := List.length_take_le _ _
    obtain ⟨pk₀, c₀, ev₀, n₀, hchosen₀, hcur₀, htotal₀⟩ := confirm_answers hlength hanswers
    obtain rfl := hchosen.step hchosen₀
    refine ⟨db, now, pk₀, c₀, ev₀, hshown, hchosen₀, hcur₀.symm.trans hcurrency, ?_⟩
    exact Nat.eq_of_mul_eq_mul_right hpos (htotal₀.symm.trans hamount)
  · intro more' pk' c' ev' n' hchosen'
    obtain ⟨-, rfl, rfl, rfl, rfl⟩ := hchosen.unique hchosen'
    rcases hfor with hexisting | ⟨hnone, -, hunit⟩
    · rw [hexisting]
      exact ⟨hamount, hcurrency⟩
    · rw [hnone]
      exact Nat.eq_of_mul_eq_mul_right hpos (hunit.symm.trans hamount)
  · have hprice := hpriced.price more pk c ev n hchosen
    obtain ⟨db, now, pk₀, c₀, ev₀, hshown, hchosen₀, hcur₀, hprice₀⟩ := hpriced.confirm more pk c ev n hchosen
    have hboth : p.amountMinor = ev.votePrice * n.toNat ∧ p.currency = ev.currency := by
      rcases hfor with hexisting | ⟨hnone, hcurrency, hunit⟩
      · rw [hexisting] at hprice
        exact hprice
      · rw [hnone] at hprice
        exact ⟨hunit.trans (congrArg (· * n.toNat) hprice), hcurrency⟩
    refine ⟨hboth.1, hboth.2, db, now, n.toNat, c₀.name, db, hshown, ?_⟩
    rw [hboth.1, hboth.2, ← hcur₀, ← hprice₀]
    exact hchosen₀.answers

/-- The number a caller enters. -/
def four : Env := { Env.plain with parseInt := fun text => if text = "4" then some 4 else none }

/-- A candidate of an event at 1.00 a vote, in a position with the price given. -/
def standing (price : Option ℕ) : Database :=
  ((Db.empty.set (.event 1) (some { startDate := 0, endDate := 10, status := .OPEN, votePrice := 100 })).set (.category 5)
    (some { event := 1, name := "Best", votePrice := price })).set (.candidate 7)
    (some { category := some 5, event := 1, name := "Ama", nomineeCode := some "AB12" })

/-- Four votes for the candidate, confirmed. -/
def session (price : Option ℕ) : Session where
  request := { inputs := ["1", "AB12", "4", "1"], phoneNumber := "0241234567", risk := ⟨0, "ALLOW"⟩, reference := "FV-1",
               now := fun _ => 5 }
  db := standing price
  shown := some (standing price, fun _ => 4)

theorem session_answers (price : Option ℕ) (hprice : price = none ∨ price = some 200) :
    ∃ db' p, Answers four (session price).request (session price).db (.approve "GHS" 400 4 "Ama" "FV-1") db' ∧
      db'.row (.payment "FV-1") = some p ∧ p.amountMinor = price.getD 100 * 4 := by
  rcases hprice with rfl | rfl
  · exact ⟨_, _, ⟨_, fun k => rfl⟩, rfl, rfl⟩
  · exact ⟨_, _, ⟨_, fun k => rfl⟩, rfl, rfl⟩

theorem confirmed_charged_plain : ∃ (db' : Database) (p : PaymentRow), db'.row (.payment "FV-1") = some p ∧
    ((p.amountMinor = 400 ∧ p.currency = "GHS" ∧ (session none).Confirmed four p) ↔ (session none).Priced four) := by
  obtain ⟨db', -, hanswers, -⟩ := session_answers none (Or.inl rfl)
  exact ⟨db', confirmed_charged four (session none) rfl hanswers⟩

/-- At a position's own price the caller confirms half of what is charged. -/
theorem not_confirmed_charged : ¬ ∀ (E : Env) (s : Session), s.db.row (.payment s.request.reference) = none →
    ∀ currency name reference total votes db', Answers E s.request s.db (.approve currency total votes name reference) db' →
      ∃ p, db'.row (.payment reference) = some p ∧ p.amountMinor = total ∧ p.currency = currency ∧ s.Confirmed E p := by
  intro h
  obtain ⟨db', p, hanswers, hp, hamount⟩ := session_answers (some 200) (Or.inr rfl)
  obtain ⟨p', hp', hamount', -⟩ := h four (session (some 200)) rfl _ _ _ _ _ db' hanswers
  obtain rfl := Option.some.inj (hp.symm.trans hp')
  rw [hamount] at hamount'
  exact absurd hamount' (by decide)

end UssdVotes
end FlexyVotes
