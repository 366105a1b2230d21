/-
# Tickets

A purchase is recorded `Pending` before the buyer pays, on the web
(`buyTicket`) and by USSD (`ussdTicket`), both under the lock of the ticket's
row, which counts what is sold and what is still pending (`reserved_count`).
The gateway's answer settles it (`applyTicketResult`), and what is never paid
expires (`expirePurchase`).

Whoever adds to what is reserved holds the ticket's row, and nothing takes a
`Failed` purchase up again; so a ticket whose quantity is not lowered is never
oversold.

Key definitions: `reserve`, `buyTicket`, `ussdTicket`, `applyTicketResult`,
`verifyAndApply`, `Call`, `spec`.
Key theorems: `never_oversold`.
-/
import FlexyVotes.Payments.Credit

namespace FlexyVotes
namespace Tickets

open Transactions Audit Payments

/-- `parse_non_negative_int` of a value that is required. -/
def parseNonNegativeInt (E : Env) (raw label : String) : Except String ℕ :=
  if E.strip raw = "" then .error (label ++ " is required.")
  else
    match E.parseInt raw with
    | none => .error (label ++ " must be a whole number.")
    | some n => if n < 0 then .error (label ++ " cannot be negative.") else .ok n.toNat

/-! ### Buying -/

/-- The quantity of a purchase that is sold or still pending. -/
def reservedOf (ticket : ℕ) : (k : Key) → Row k → Option ℕ
  | .purchase _ => fun r =>
    if r.ticket = ticket ∧ (r.status = .Success ∨ r.status = .Pending) then some r.quantity else none
  | _ => fun _ => none

/-- `Ticket.reserved_count`. -/
def reservedCount (db : Database) (ticket : ℕ) : ℕ := db.total (reservedOf ticket)

/-- The transaction of a purchase: the ticket is locked, and the purchase
recorded if enough are left. -/
def reserve (ticket : ℕ) (reference : String) (row : PurchaseRow) (soldOut : Program) (fail : Failure → Program)
    (k : Program) : Program :=
  .lockRow (.ticket ticket) fun
    | none => .rollback (fail (.crash "Ticket.DoesNotExist"))
    | some locked =>
      .read fun db =>
        if locked.quantityAvailable < reservedCount db ticket + row.quantity then .commit soldOut
        else .insertOr (.purchase reference) row (.rollback (fail (.crash "IntegrityError"))) (.commit k)

/-- The purchase whose payment could not be started. -/
def failed (r : PurchaseRow) : PurchaseRow := { r with status := .Failed }

/-- `filter(paystack_reference=reference).update(status='Failed')`. -/
def failPurchase (reference : String) (k : Program) : Program :=
  .update (.purchase reference) (fun _ => true) failed fun _ => .commit k

/-- What a buyer is shown. -/
inductive Reply
  /-- A redirect with a message. -/
  | message (text : String)
  /-- A redirect to the gateway's checkout. -/
  | checkout
  /-- The text of a USSD screen. -/
  | screen (text : String)
  deriving DecidableEq

/-- One call of `buy_ticket`: the form, and what the call draws and the gateway
answers. -/
structure BuyRequest where
  ticket : ℕ
  name : String := ""
  email : String
  quantity : Option String := none
  /-- `paystack.configured()`. -/
  configured : Bool := true
  reference : String
  /-- The error of `paystack.initialize`, if it fails. -/
  refused : Option String := none
  now : Time

/-- The quantity ordered, or what is wrong with the form. -/
def BuyRequest.order (E : Env) (q : BuyRequest) : Except String ℕ :=
  match (match q.quantity with
    | none => .ok 1
    | some raw => parseNonNegativeInt E raw "Quantity" : Except String ℕ) with
  | .error e => .error e
  | .ok quantity =>
    if !E.validEmail (E.strip q.email) then .error "Enter a valid email address."
    else if quantity < 1 ∨ 50 < quantity then .error "Please enter a valid quantity (1-50)."
    else .ok quantity

/-- The purchase of an order. -/
def BuyRequest.row (E : Env) (q : BuyRequest) (t : TicketRow) (quantity : ℕ) : PurchaseRow where
  ticket := q.ticket
  event := t.event
  buyerName := truncate 150 (E.strip q.name)
  buyerEmail := E.strip q.email
  quantity := quantity
  purchasedAt := q.now

/-- `buy_ticket`. -/
def buyTicket (E : Env) (q : BuyRequest) (k : Except Failure Reply → Program) : Program :=
  .read fun db =>
    match db.row (.ticket q.ticket) with
    | none => k (.error (.crash "Http404"))
    | some t =>
      if !t.isActive then k (.error (.crash "Http404"))
      else
        match q.order E with
        | .error text => k (.ok (.message text))
        | .ok quantity =>
          if !q.configured then k (.ok (.message "Ticket payments are unavailable right now."))
          else
            reserve q.ticket q.reference (q.row E t quantity)
              (k (.ok (.message "Not enough tickets available for this request."))) (fun e => k (.error e)) <|
            .note (.charging q.reference (t.price * quantity)) <|
            match q.refused with
            | some e => failPurchase q.reference (k (.ok (.message ("Could not initialize payment: " ++ e))))
            | none => k (.ok .checkout)

/-! ### Buying by USSD -/

/-- `l[i]`: from the end where `i` is negative. -/
def pyIndex {α : Type} (l : List α) (i : ℤ) : Option α :=
  if 0 ≤ i then l[i.toNat]?
  else if -i ≤ l.length then l[l.length - (-i).toNat]?
  else none

/-- `Event.PUBLIC_STATUSES`. -/
def PUBLIC_STATUSES : List EventStatus := [.SCHEDULED, .OPEN, .PAUSED, .CLOSED, .TALLYING, .CERTIFIED, .PUBLISHED]

/-- The active tickets of an event, by primary key. -/
def ticketsOf (db : Database) (e : ℕ) : List (ℕ × TicketRow) :=
  (db.collect fun
    | .ticket pk => fun r => if r.event = e ∧ r.isActive then some (pk, r) else none
    | _ => fun _ => none).insertionSort fun a b => a.1 ≤ b.1

/-- `_ussd_events`. -/
def ussdEvents (db : Database) : List (ℕ × EventRow) :=
  (db.collect fun
    | .event pk => fun r =>
      if r.isActive ∧ r.status ∈ PUBLIC_STATUSES ∧ ticketsOf db pk ≠ [] then some (pk, r) else none
    | _ => fun _ => none).insertionSort fun a b => a.1 ≤ b.1

/-- The lines of a menu, numbered from one. -/
def menu (lines : List String) : String :=
  "\n".intercalate ((List.range lines.length).zipWith (fun i l => toString (i + 1) ++ ". " ++ l) lines)

/-- The mobile money providers of Ghana, with their prefixes. -/
def GH_PROVIDERS : List (String × List String) :=
  [("mtn", ["024", "025", "053", "054", "055", "059"]), ("vod", ["020", "050"]),
    ("atl", ["026", "027", "056", "057"])]

/-- `ghana_momo_provider`: the provider, and the number in its local form. -/
def ghanaMomoProvider (E : Env) (phone : String) : Option String × String :=
  let digits := phone.toList.filter E.isDigit
  let digits := if "233".toList <+: digits then '0' :: digits.drop 3 else digits
  ((GH_PROVIDERS.find? fun p => String.ofList (digits.take 3) ∈ p.2).map (·.1), String.ofList digits)

/-- One screen of `_ussd_ticket`: the inputs of the session so far, and what
the call draws and the gateway answers. -/
structure UssdRequest where
  inputs : List String
  phoneNumber : String
  configured : Bool := true
  reference : String
  /-- `paystack.charge_mobile_money` fails. -/
  refused : Bool := false
  now : Time

/-- The purchase of a USSD session. -/
def UssdRequest.row (E : Env) (q : UssdRequest) (event ticket quantity : ℕ) (name : String) : PurchaseRow where
  ticket := ticket
  event := event
  buyerName := truncate 150 (E.strip name)
  buyerEmail := String.ofList (q.phoneNumber.toList.filter fun c => c ≠ '+' ∧ c ≠ ' ') ++ "@ussd.vote"
  quantity := quantity
  purchaseMethod := .USSD
  purchasedAt := q.now

/-- The screens of `_ussd_ticket` once the ticket is selected. -/
def ussdOrder (E : Env) (q : UssdRequest) (event : ℕ × EventRow) (ticket : ℕ × TicketRow)
    (k : Except Failure Reply → Program) : Program :=
  let show' (text : String) : Program := k (.ok (.screen text))
  match q.inputs.drop 3 with
  | [] => show' ("CON You selected " ++ ticket.2.name ++ " (" ++ event.2.currency ++ " " ++ money ticket.2.price ++
      ").\nEnter Quantity:")
  | raw :: rest =>
    match E.parseInt raw with
    | none => show' "END Invalid quantity."
    | some n =>
      if n < 1 ∨ 20 < n then show' "END Invalid quantity."
      else
        let quantity := n.toNat
        let total := money (ticket.2.price * quantity)
        match rest with
        | [] => show' ("CON Total: " ++ event.2.currency ++ " " ++ total ++ " for " ++ toString quantity ++ " " ++
            ticket.2.name ++ ".\nEnter your full name:")
        | [name] => show' ("CON Pay " ++ event.2.currency ++ " " ++ total ++ " for " ++ toString quantity ++ " " ++
            ticket.2.name ++ " for " ++ truncate 150 (E.strip name) ++ "?\n1. Confirm\n2. Cancel")
        | name :: confirm :: _ =>
          if confirm ≠ "1" then show' "END Transaction cancelled."
          else if (ghanaMomoProvider E q.phoneNumber).1 = none ∨ q.configured = false then
            show' "END Mobile money payment is unavailable for this number."
          else
            reserve ticket.1 q.reference (q.row E event.1 ticket.1 quantity name)
              ( show' "END Sorry, not enough tickets available for this request.") (fun e => k (.error e)) <|
            .note (.charging q.reference (ticket.2.price * quantity)) <|
            if q.refused then
              failPurchase q.reference ( show' "END Could not start the mobile money payment. Please try again.")
            else show' ("END Approve the " ++ event.2.currency ++ " " ++ total ++ " prompt on your phone.\nRef: " ++
              q.reference ++ "\nVisit FlexyVotes.com/retrieve-ticket after payment.")

/-- `_ussd_ticket`, of a session whose first input was `2`. -/
def ussdTicket (E : Env) (q : UssdRequest) (k : Except Failure Reply → Program) : Program :=
  .read fun db =>
    let events := ussdEvents db
    match q.inputs.drop 1 with
    | [] =>
      k (.ok (.screen (if events = [] then "END No events are selling tickets right now."
        else "CON Select Event:\n" ++ menu (events.map (·.2.title)))))
    | raw :: rest =>
      match (E.parseInt raw).bind fun n => pyIndex events (n - 1) with
      | none => k (.ok (.screen "END Invalid event selected."))
      | some event =>
        .read fun db =>
          let tickets := ticketsOf db event.1
          match rest with
          | [] =>
            k (.ok (.screen (if tickets = [] then "END No tickets available for this event."
              else "CON Select Ticket for " ++ event.2.title ++ ":\n" ++
                menu (tickets.map fun t => t.2.name ++ " - " ++ event.2.currency ++ " " ++ money t.2.price))))
          | raw :: _ =>
            match (E.parseInt raw).bind fun n => pyIndex tickets (n - 1) with
            | none => k (.ok (.screen "END Invalid ticket selected."))
            | some ticket => ussdOrder E q event ticket k

/-! ### Settling -/

/-- `apply_ticket_result`: the purchase and, joined to it, its ticket are locked. -/
def applyTicketResult (E : Env) (reference : String) (data : List (String × Json))
    (k : Except Failure (Option PurchaseRow) → Program) : Program :=
  .lockRow (.purchase reference) fun
    | none => .commit (k (.ok none))
    | some p =>
      .lockRow (.ticket p.ticket) fun
        | none => .commit (k (.ok none))
        | some t =>
          if p.status ≠ .Pending then .commit (k (.ok (some p)))
          else
            let save (status : PurchaseStatus) : Program :=
              .put (.purchase reference) (some { p with status := status }) <|
              .commit (k (.ok (some { p with status := status })))
            match gatewayStatus E data with
            | .error e => .rollback (k (.error e))
            | .ok status =>
              if status = "success" then
                match amountOf E data with
                | .error e => .rollback (k (.error e))
                | .ok amount =>
                  if amount ≠ (t.price * p.quantity : ℕ) then .commit (k (.ok (some p))) else save .Success
              else if status = "failed" ∨ status = "abandoned" ∨ status = "reversed" then save .Failed
              else .commit (k (.ok (some p)))

/-- What `verify_and_apply` found. -/
inductive Verified
  | payment (p : Option PaymentRow)
  | purchase (p : Option PurchaseRow)
  | nothing

/-- `verify_and_apply`: `answer` is what `paystack.verify` returns, or nothing
where it fails. -/
def verifyAndApply (E : Env) (A : Adapters) (q : GatewayCall) (answer : Option (List (String × Json)))
    (k : Except Failure Verified → Program) : Program :=
  match answer with
  | none => k (.ok .nothing)
  | some data =>
    .read fun db =>
      if (db.row (.payment q.reference)).isSome then
        applyGatewayResult E A { q with data := data } fun r => k (r.map .payment)
      else
        .read fun db =>
          if (db.row (.purchase q.reference)).isSome then
            applyTicketResult E q.reference data fun r => k (r.map .purchase)
          else k (.ok .nothing)

/-- The expiry of one purchase in `expire_abandoned`. -/
def expirePurchase (E : Env) (A : Adapters) (q : GatewayCall) (answer : Option (List (String × Json)))
    (k : Except Failure Unit → Program) : Program :=
  verifyAndApply E A q answer fun
    | .error e => k (.error e)
    | .ok _ => .update (.purchase q.reference) (fun p => p.status = .Pending) failed fun _ => .commit (k (.ok ()))

/-! ### Editing a ticket -/

/-- One call of `edit_ticket`: the columns the form sets. -/
structure EditTicket where
  ticket : ℕ
  name : String := ""
  price : ℕ
  quantityAvailable : ℕ
  isActive : Bool

/-- The row `edit_ticket` saves, whole, from the ticket it has read. -/
def EditTicket.row (E : Env) (q : EditTicket) (t : TicketRow) : TicketRow :=
  { t with name := truncate 100 (E.strip (if q.name = "" then t.name else q.name)), price := q.price,
           quantityAvailable := q.quantityAvailable, isActive := q.isActive }

/-- `edit_ticket`, of a valid form. -/
def editTicket (E : Env) (q : EditTicket) (k : Program) : Program :=
  .read fun db =>
    match db.row (.ticket q.ticket) with
    | none => k
    | some t => .update (.ticket q.ticket) (fun _ => true) (fun _ => q.row E t) fun _ => .commit k

/-! ### What is reserved -/

section Reserved

variable {ticket : ℕ} {db db' : Database}

/-- Only purchases are counted. -/
theorem weight_other {x : Key} (hx : ∀ reference, x ≠ .purchase reference) :
    db.weight (reservedOf ticket) x = 0 := by
  unfold Db.weight
  rcases db.row x with _ | r
  · rfl
  · cases x <;> first
      | rfl
      | exact absurd rfl (hx _)

/-- Where every purchase reserves no more, no more is reserved. -/
theorem reservedCount_le (h : ∀ reference, db'.weight (reservedOf ticket) (.purchase reference) ≤
    db.weight (reservedOf ticket) (.purchase reference)) : reservedCount db' ticket ≤ reservedCount db ticket := by
  refine Db.total_le fun x => ?_
  by_cases hx : ∃ reference, x = .purchase reference
  · obtain ⟨reference, rfl⟩ := hx
    exact h reference
  · rw [weight_other fun reference hr => hx ⟨reference, hr⟩]
    omega

theorem reservedCount_congr (h : ∀ reference, db'.row (.purchase reference) = db.row (.purchase reference)) :
    reservedCount db' ticket ≤ reservedCount db ticket := by
  refine reservedCount_le fun reference => ?_
  unfold Db.weight
  rw [h reference]

variable (ticket db) in
/-- One purchase changes. -/
theorem reservedCount_set (reference : String) (row : PurchaseRow) :
    reservedCount (db.set (.purchase reference) (some row)) ticket + db.weight (reservedOf ticket) (.purchase reference) =
      reservedCount db ticket + (reservedOf ticket (.purchase reference) row).getD 0 := by
  have hother : ∀ x, x ≠ .purchase reference → (db.set (.purchase reference) (some row)).weight (reservedOf ticket) x =
      db.weight (reservedOf ticket) x := fun x hx => by
    unfold Db.weight
    rw [Db.set_row_ne _ _ hx]
  have h := Db.total_of_ne _ hother
  unfold reservedCount
  rw [h]
  unfold Db.weight
  rw [Db.set_row_self]
  rfl

variable (ticket) in
/-- What a purchase reserves is at most its quantity. -/
theorem reservedOf_le (reference : String) (row : PurchaseRow) :
    (reservedOf ticket (.purchase reference) row).getD 0 ≤ row.quantity := by
  unfold reservedOf
  dsimp only
  split_ifs
  · exact le_rfl
  · exact Nat.zero_le _

/-- A purchase that is settled, whatever the result, reserves no more. -/
theorem reservedCount_settled {reference : String} {p p' : PurchaseRow} (hp : db.row (.purchase reference) = some p)
    (ht : p'.ticket = p.ticket) (hq : p'.quantity = p.quantity) (hs : p'.status = .Failed ∨ p.status = .Pending) :
    reservedCount (db.set (.purchase reference) (some p')) ticket ≤ reservedCount db ticket := by
  have h := reservedCount_set ticket db reference p'
  have hle : (reservedOf ticket (.purchase reference) p').getD 0 ≤ db.weight (reservedOf ticket) (.purchase reference) := by
    unfold Db.weight
    rw [hp]
    show (reservedOf ticket (.purchase reference) p').getD 0 ≤ (reservedOf ticket (.purchase reference) p).getD 0
    rcases hs with hs | hs
    · have hnone : reservedOf ticket (.purchase reference) p' = none := if_neg (by simp [hs])
      rw [hnone]
      exact Nat.zero_le _
    · by_cases htk : p.ticket = ticket
      · have hsome : reservedOf ticket (.purchase reference) p = some p.quantity := if_pos ⟨htk, Or.inr hs⟩
        rw [hsome]
        exact (reservedOf_le ticket reference p').trans hq.le
      · have hnone : reservedOf ticket (.purchase reference) p' = none := if_neg fun h => htk (ht.symm.trans h.1)
        rw [hnone]
        exact Nat.zero_le _
  omega

end Reserved

/-! ### What every commit keeps -/

/-- A commit lowers what is reserved of the ticket, or its thread holds the
ticket's row and leaves no more reserved than are available. -/
structure Keeps (ticket : ℕ) (own : List Key) (db db' : Database) : Prop where
  absent : db.row (.ticket ticket) = none → db'.row (.ticket ticket) = none
  reserved : reservedCount db' ticket ≤ reservedCount db ticket ∨
    .ticket ticket ∈ own ∧ db'.row (.ticket ticket) = db.row (.ticket ticket) ∧
      ∃ t, db.row (.ticket ticket) = some t ∧ reservedCount db' ticket ≤ t.quantityAvailable

/-- The calls' payments, the payments under `named`, are vote payments; what is
reserved of a ticket whose row is held does not grow. -/
def spec (ticket : ℕ) (named : String → Prop) : Spec Row Note where
  inv := fun db => ∀ r p, named r → db.row (.payment r) = some p → p.purpose = .VOTE
  rely := fun own _ db db' => .ticket ticket ∈ own → reservedCount db' ticket ≤ reservedCount db ticket
  guar := fun own _ => Keeps ticket own
  fact := fun _ _ => True

section Spec

variable {ticket : ℕ} {named : String → Prop}

theorem spec_sound : (spec ticket named).Sound where
  refl := fun _ _ _ _ => le_rfl
  trans := fun _ _ _ _ _ h h' hk => (h' hk).trans (h hk)
  sub := fun _ _ _ _ _ hs h hk => h (hs _ hk)
  fact := fun _ _ _ _ _ _ _ _ _ => trivial

theorem spec_fits : (spec ticket named).Fits Any := fun _ _ _ _ _ _ _ hg _ own' _ _ _ hdis hk => by
  rcases hg.reserved with h | ⟨hown, -, -⟩
  · exact h
  · exact absurd hk (hdis _ hown)

/-- A commit that leaves payments, tickets and purchases. -/
theorem Keeps.of_rows {own : List Key} {db db' : Database}
    (hticket : db'.row (.ticket ticket) = db.row (.ticket ticket))
    (hpurchase : ∀ reference, db'.row (.purchase reference) = db.row (.purchase reference)) :
    Keeps ticket own db db' := ⟨fun h => hticket.trans h, Or.inl (reservedCount_congr hpurchase)⟩

/-- A commit of one purchase that reserves no more than before. -/
theorem Keeps.of_set {own : List Key} {db : Database} {reference : String} {p : PurchaseRow}
    (h : reservedCount (db.set (.purchase reference) (some p)) ticket ≤ reservedCount db ticket) :
    Keeps ticket own db (db.set (.purchase reference) (some p)) := ⟨fun hrow => by simpa using hrow, Or.inl h⟩

theorem spec_quiet : Quiet (spec ticket named) fun _ => false := fun own log db w hinv hw => by
  have hrow : ∀ x, (db.apply w).row x = db.row x := fun x => hw.apply_row db rfl
  exact ⟨fun r p hr hp => hinv r p hr (hrow _ ▸ hp), .of_rows (hrow _) fun _ => hrow _⟩

/-- **A reservation leaves no more reserved than are available.** -/
theorem reserve_ok {t : ℕ} {reference : String} {row : PurchaseRow} {soldOut k : Program} {fail : Failure → Program}
    (ht : row.ticket = t) (hsold : Rest (spec ticket named) soldOut) (hfail : ∀ e, Rest (spec ticket named) (fail e))
    (hk : Rest (spec ticket named) k) {db : Database} {log : List Note} :
    Ok (spec ticket named) (reserve t reference row soldOut fail k) db [] [] log := by
  unfold reserve
  refine Ok.lockRow (fun db₁ locked h₁ hlocked => ?_) fun db₁ h₁ => (hfail _).rollback
  intro db₂ h₂
  dsimp only
  rw [Db.apply_nil]
  by_cases henough : locked.quantityAvailable < reservedCount db₂ t + row.quantity
  · rw [if_pos henough]
    exact hsold.commit spec_quiet .nil
  rw [if_neg henough]
  refine Ok.insertOr (fun db₃ h₃ hfree db₄ h₄ => ?_) fun db₃ h₃ => (hfail _).rollback
  rw [Db.apply_nil] at hfree
  have hfree₄ : db₄.row (.purchase reference) = none := (h₄.held _ (by simp)).trans hfree
  rw [Db.apply_cons, Db.apply_nil]
  have hinv : (spec ticket named).inv (db₄.set (.purchase reference) (some row)) := fun r p hr hp =>
    h₄.inv r p hr (by simpa using hp)
  refine ⟨hinv, ?_, hk _ _⟩
  have hset := reservedCount_set ticket db₄ reference row
  have hzero : db₄.weight (reservedOf ticket) (.purchase reference) = 0 := by
    unfold Db.weight
    rw [hfree₄]
    rfl
  by_cases hticket : t = ticket
  · subst hticket
    have hrow : db₄.row (.ticket t) = some locked :=
      (((h₄.held _ (by simp)).trans (h₃.held _ (by simp))).trans (h₂.held _ (by simp))).trans (by simpa using hlocked)
    have h₂₃ : reservedCount db₃ t ≤ reservedCount db₂ t := h₃.rely (by simp)
    have h₃₄ : reservedCount db₄ t ≤ reservedCount db₃ t := h₄.rely (by simp)
    have hle := reservedOf_le t reference row
    refine ⟨fun h => by simpa using h, Or.inr ⟨by simp, by simp, locked, hrow, ?_⟩⟩
    omega
  · have hnone : (reservedOf ticket (.purchase reference) row).getD 0 = 0 := by
      unfold reservedOf
      dsimp only
      rw [if_neg fun h => hticket (ht.symm.trans h.1)]
      rfl
    exact .of_set (by omega)

/-- A purchase is given up. -/
theorem failed_ok {reference : String} {c : PurchaseRow → Bool} {k : Program} (hk : Rest (spec ticket named) k)
    {db : Database} {log : List Note} :
    Ok (spec ticket named) (.update (.purchase reference) c failed fun _ => .commit k) db [] [] log := by
  refine Ok.update spec_sound (fun db₁ p h₁ hp _ db₂ h₂ => ?_) fun db₁ h₁ _ => hk.commit spec_quiet .nil
  have hp₂ : db₂.row (.purchase reference) = some p := (h₂.held _ (by simp)).trans (by simpa using hp)
  have hinv : (spec ticket named).inv (db₂.set (.purchase reference) (some (failed p))) := fun r p hr hp =>
    h₂.inv r p hr (by simpa using hp)
  exact ⟨hinv, .of_set (reservedCount_settled hp₂ rfl rfl (Or.inl rfl)), hk _ _⟩

variable {E : Env} {A : Adapters}

/-- **The result of a purchase** only lowers what is reserved. -/
theorem applyTicketResult_ok {reference : String} {data : List (String × Json)}
    {k : Except Failure (Option PurchaseRow) → Program} (hk : ∀ r, Rest (spec ticket named) (k r)) {db : Database}
    {log : List Note} : Ok (spec ticket named) (applyTicketResult E reference data k) db [] [] log := by
  unfold applyTicketResult
  refine Ok.lockRow (fun db₁ p h₁ hp => ?_) fun db₁ h₁ => (hk _).commit spec_quiet .nil
  refine Ok.lockRow (fun db₂ t h₂ ht => ?_) fun db₂ h₂ => (hk _).commit spec_quiet .nil
  dsimp only
  by_cases hpending : p.status ≠ .Pending
  · rw [if_pos hpending]
    exact (hk _).commit spec_quiet .nil
  rw [if_neg hpending]
  have hstatus : p.status = .Pending := not_not.mp hpending
  have hp₂ : db₂.row (.purchase reference) = some p := (h₂.held _ (by simp)).trans (by simpa using hp)
  have hsave : ∀ status : PurchaseStatus, Ok (spec ticket named)
      (.put (.purchase reference) (some { p with status := status }) <|
        .commit (k (.ok (some { p with status := status })))) db₂ [.ticket p.ticket, .purchase reference] [] log := by
    intro status
    refine ⟨by simp, fun db₃ h₃ db₄ h₄ => ?_⟩
    have hp₄ : db₄.row (.purchase reference) = some p :=
      ((h₄.held _ (by simp)).trans (h₃.held _ (by simp))).trans hp₂
    have hinv : (spec ticket named).inv (db₄.set (.purchase reference) (some { p with status := status })) :=
      fun r p hr hp => h₄.inv r p hr (by simpa using hp)
    exact ⟨hinv, .of_set (reservedCount_settled hp₄ rfl rfl (Or.inr hstatus)), hk _ _ _⟩
  rcases gatewayStatus E data with e | status
  · exact (hk _).rollback
  dsimp only
  by_cases hsucc : status = "success"
  · rw [if_pos hsucc]
    rcases amountOf E data with e | amount
    · exact (hk _).rollback
    dsimp only
    split_ifs
    · exact (hk _).commit spec_quiet .nil
    · exact hsave _
  · rw [if_neg hsucc]
    split_ifs
    · exact hsave _
    · exact (hk _).commit spec_quiet .nil

/-- The report of a vote payment leaves the tickets. -/
theorem applyGatewayResult_keeps {q : GatewayCall} {k : Except Failure (Option PaymentRow) → Program}
    (hnamed : named q.reference) (hk : ∀ r, Rest (spec ticket named) (k r)) {db : Database} {log : List Note} :
    Ok (spec ticket named) (applyGatewayResult E A q k) db [] [] log := by
  have hdone : ReportCommits (spec ticket named) E A q k log := by
    intro own db db' db₀ p d hinv _ hp hd hmade
    have hsame : d.payment.purpose = p.purpose := (Credit.decideReport_spec hd).1.purpose
    have hsaved : ∀ r p', named r → (saved db q.reference d.payment).row (.payment r) = some p' → p'.purpose = .VOTE := by
      intro r p' hr hp'
      by_cases hr' : r = q.reference
      · subst hr'
        obtain rfl : d.payment = p' := by simpa [saved] using hp'
        exact hsame.trans (hinv _ p hnamed hp)
      · exact hinv r p' hr (by simpa [saved, hr'] using hp')
    have hinv' : (spec ticket named).inv db' := by
      intro r p' hr hp'
      rcases hmade.payment r with h | ⟨-, -, h⟩
      · exact hsaved r p' hr (h ▸ hp')
      · rw [h] at hp'
        obtain ⟨p₁, hp₁, rfl⟩ := Option.map_eq_some_iff.mp hp'
        exact hsaved r p₁ hr hp₁
    refine ⟨hinv', .of_rows ?_ fun reference => ?_, ?_⟩
    · exact (hmade.row rfl fun _ => rfl).trans (by simp [saved])
    · exact (hmade.row rfl fun _ => rfl).trans (by simp [saved])
    · unfold afterReport
      rcases d.report with _ | ⟨amount, currency⟩
      · exact hk _ _ _
      · exact ⟨trivial, hk _ _ _⟩
  refine applyGatewayResult_ok spec_sound (fun db e => hk _ db log) hdone (fun db p hinv hp => hinv _ p hnamed hp)
    fun own db _ => ⟨.of_rows rfl fun _ => rfl, hk _ db log⟩

/-- **Verifying a reference** keeps what is reserved of every ticket. -/
theorem verifyAndApply_ok {q : GatewayCall} {answer : Option (List (String × Json))}
    {k : Except Failure Verified → Program} (hnamed : named q.reference) (hk : ∀ r, Rest (spec ticket named) (k r)) :
    Rest (spec ticket named) (verifyAndApply E A q answer k) := by
  unfold verifyAndApply
  rcases answer with _ | data
  · exact hk _
  intro db log db₁ _
  dsimp only
  split_ifs
  · exact applyGatewayResult_keeps (q := { q with data := data }) hnamed fun _ => hk _
  · intro db₂ _
    dsimp only
    split_ifs
    · exact applyTicketResult_ok fun _ => hk _
    · exact hk _ _ _

theorem expirePurchase_ok {q : GatewayCall} {answer : Option (List (String × Json))}
    {k : Except Failure Unit → Program} (hnamed : named q.reference) (hk : ∀ r, Rest (spec ticket named) (k r)) :
    Rest (spec ticket named) (expirePurchase E A q answer k) := by
  refine verifyAndApply_ok hnamed fun r => ?_
  rcases r with e | v
  · exact hk _
  · exact fun _ _ => failed_ok (hk _)

theorem buyTicket_ok {q : BuyRequest} {k : Except Failure Reply → Program} (hk : ∀ r, Rest (spec ticket named) (k r)) :
    Rest (spec ticket named) (buyTicket E q k) := by
  intro db log db₁ _
  dsimp only
  rcases (db₁.apply []).row (.ticket q.ticket) with _ | t
  · exact hk _ _ _
  dsimp only
  by_cases hactive : (!t.isActive) = true
  · rw [if_pos hactive]
    exact hk _ _ _
  rw [if_neg hactive]
  rcases q.order E with text | quantity
  · exact hk _ _ _
  dsimp only
  by_cases hconfigured : (!q.configured) = true
  · rw [if_pos hconfigured]
    exact hk _ _ _
  rw [if_neg hconfigured]
  have hticket : (q.row E t quantity).ticket = q.ticket := rfl
  refine reserve_ok hticket (hk _) (fun e => hk _) (.note (fun _ => trivial) ?_)
  rcases q.refused with _ | e
  · exact hk _
  · exact fun _ _ => failed_ok (hk _)

theorem ussdOrder_ok {q : UssdRequest} {event : ℕ × EventRow} {t : ℕ × TicketRow} {k : Except Failure Reply → Program}
    (hk : ∀ r, Rest (spec ticket named) (k r)) : Rest (spec ticket named) (ussdOrder E q event t k) := by
  unfold ussdOrder
  dsimp only
  rcases q.inputs.drop 3 with _ | ⟨raw, rest⟩
  · exact hk _
  dsimp only
  rcases E.parseInt raw with _ | n
  · exact hk _
  dsimp only
  by_cases hn : n < 1 ∨ 20 < n
  · rw [if_pos hn]
    exact hk _
  rw [if_neg hn]
  rcases rest with _ | ⟨name, _ | ⟨confirm, _⟩⟩
  · exact hk _
  · exact hk _
  have hticket : (q.row E event.1 t.1 n.toNat name).ticket = t.1 := rfl
  dsimp only
  split_ifs
  · exact hk _
  · exact hk _
  · exact fun _ _ => reserve_ok hticket (hk _) (fun _ => hk _) 
      (.note (fun _ => trivial) fun _ _ => failed_ok (hk _))
  · exact fun _ _ => reserve_ok hticket (hk _) (fun _ => hk _) (.note (fun _ => trivial) (hk _))

theorem ussdTicket_ok {q : UssdRequest} {k : Except Failure Reply → Program} (hk : ∀ r, Rest (spec ticket named) (k r)) :
    Rest (spec ticket named) (ussdTicket E q k) := by
  intro db log db₁ _
  dsimp only
  rcases q.inputs.drop 1 with _ | ⟨raw, rest⟩
  · exact hk _ _ _
  dsimp only
  rcases (E.parseInt raw).bind _ with _ | event
  · exact hk _ _ _
  intro db₂ _
  dsimp only
  rcases rest with _ | ⟨raw, _⟩
  · exact hk _ _ _
  dsimp only
  rcases (E.parseInt raw).bind _ with _ | t
  · exact hk _ _ _
  · exact ussdOrder_ok hk _ _

/-- Editing the ticket leaves what is reserved. -/
theorem editTicket_ok {q : EditTicket} {k : Program} (hk : Rest (spec ticket named) k) :
    Rest (spec ticket named) (editTicket E q k) := by
  intro db log db₁ _
  dsimp only
  rcases (db₁.apply []).row (.ticket q.ticket) with _ | t
  · exact hk _ _
  refine Ok.update spec_sound (fun db₂ t₂ h₂ ht₂ _ db₃ h₃ => ?_) fun db₂ h₂ _ => hk.commit spec_quiet .nil
  have ht₃ : db₃.row (.ticket q.ticket) = some t₂ := (h₃.held _ (by simp)).trans (by simpa using ht₂)
  refine ⟨fun r p hr hp => h₃.inv r p hr (by simpa using hp), ⟨fun hnone => ?_, Or.inl ?_⟩, hk _ _⟩
  · by_cases hticket : ticket = q.ticket
    · subst hticket
      rw [ht₃] at hnone
      cases hnone
    · simpa [hticket] using hnone
  · exact reservedCount_congr fun reference => by simp

end Spec

/-! ### Every interleaving -/

/-- A call about tickets. -/
inductive Call
  | buyTicket (q : BuyRequest)
  | ussdTicket (q : UssdRequest)
  /-- A result reported for a purchase: by a webhook, or in the list of reconciliation. -/
  | applyTicketResult (reference : String) (data : List (String × Json))
  /-- A reference verified with the gateway: at the callback, or by reconciliation. -/
  | verifyAndApply (q : GatewayCall) (answer : Option (List (String × Json)))
  | expirePurchase (q : GatewayCall) (answer : Option (List (String × Json)))
  | editTicket (q : EditTicket)

def Call.prog (E : Env) (A : Adapters) : Call → Program
  | .buyTicket q => Tickets.buyTicket E q fun _ => .halt
  | .ussdTicket q => Tickets.ussdTicket E q fun _ => .halt
  | .applyTicketResult reference data => Tickets.applyTicketResult E reference data fun _ => .halt
  | .verifyAndApply q answer => Tickets.verifyAndApply E A q answer fun _ => .halt
  | .expirePurchase q answer => Tickets.expirePurchase E A q answer fun _ => .halt
  | .editTicket q => Tickets.editTicket E q .halt

/-- The reference a call asks the gateway about. -/
def Call.verifies : Call → Option String
  | .verifyAndApply q _ => some q.reference
  | .expirePurchase q _ => some q.reference
  | _ => none

/-- No more is sold or pending than is available. -/
def NotOversold (ticket : ℕ) (db : Database) : Prop :=
  ∀ t, db.row (.ticket ticket) = some t → reservedCount db ticket ≤ t.quantityAvailable

/-- The step does not lower the ticket's quantity. -/
def NotLowered (ticket : ℕ) (s : State Row Note) (_ : ℕ) (s' : State Row Note) : Prop :=
  ∀ t t', s.db.row (.ticket ticket) = some t → s'.db.row (.ticket ticket) = some t' →
    t.quantityAvailable ≤ t'.quantityAvailable

theorem Call.spec {E : Env} {A : Adapters} {ticket : ℕ} {named : String → Prop} (call : Call)
    (hnamed : ∀ r, call.verifies = some r → named r) (db : Database) :
    Ok (spec ticket named) (call.prog E A) db [] [] [] := by
  have hhalt : ∀ {α : Type} (r : α), Rest (Tickets.spec ticket named) ((fun _ => .halt : α → Program) r) := fun _ => .halt
  rcases call with q | q | ⟨reference, data⟩ | ⟨q, answer⟩ | ⟨q, answer⟩ | q
  · exact buyTicket_ok hhalt db []
  · exact ussdTicket_ok hhalt db []
  · exact applyTicketResult_ok hhalt
  · exact verifyAndApply_ok (hnamed _ rfl) hhalt db []
  · exact expirePurchase_ok (hnamed _ rfl) hhalt db []
  · exact editTicket_ok .halt db []

/-- A commit of a step that does not lower the quantity oversells nothing. -/
theorem Keeps.notOversold {ticket : ℕ} {own : List Key} {s s' : State Row Note} {t : ℕ}
    (h : Keeps ticket own s.db s'.db) (hC : NotLowered ticket s t s') (hs : NotOversold ticket s.db) :
    NotOversold ticket s'.db := by
  intro r' hr'
  rcases hr : s.db.row (.ticket ticket) with _ | r
  · rw [h.absent hr] at hr'
    cases hr'
  have hle := hC r r' hr hr'
  rcases h.reserved with hless | ⟨-, -, r₀, hr₀, hless⟩
  · have hsold := hs r hr
    omega
  · obtain rfl : r = r₀ := Option.some.inj (hr.symm.trans hr₀)
    omega

/-- **A ticket whose quantity is not lowered is never oversold**, however
purchases, results, reconciliation and expiry interleave. -/
theorem never_oversold {E : Env} {A : Adapters} {ticket : ℕ} {calls : ℕ → Call} {db₀ : Database}
    {s : State Row Note}
    (hcalls : ∀ t r p, (calls t).verifies = some r → db₀.row (.payment r) = some p → p.purpose = .VOTE)
    (hstart : NotOversold ticket db₀)
    (h : Run (NotLowered ticket) (.init db₀ fun t => (calls t).prog E A) s) : NotOversold ticket s.db := by
  have hmeets : Meets (spec ticket fun r => ∃ t, (calls t).verifies = some r)
      (State.init db₀ fun t => (calls t).prog E A) :=
    .init (fun r p ⟨t, ht⟩ hp => hcalls t r p ht hp) fun t => Call.spec _ (fun r hr => ⟨t, hr⟩) _
  have hfits : (spec ticket fun r => ∃ t, (calls t).verifies = some r).Fits (NotLowered ticket) :=
    fun s t s' own _ => spec_fits s t s' own trivial
  exact hmeets.trail_of (R := fun db db' => NotOversold ticket db → NotOversold ticket db') spec_sound hfits
    (fun _ h => h) (fun _ _ _ h h' hs => h' (h hs)) (fun _ _ _ _ hC _ hg => Keeps.notOversold hg hC) h hstart

/-- `NotLowered`, to be computed. -/
def notLowered (ticket : ℕ) (s : State Row Note) (_ : ℕ) (s' : State Row Note) : Bool :=
  (s.db.row (.ticket ticket)).all fun t => (s'.db.row (.ticket ticket)).all fun t' =>
    t.quantityAvailable ≤ t'.quantityAvailable

theorem notLowered_sound {ticket : ℕ} {s : State Row Note} {t : ℕ} {s' : State Row Note}
    (h : notLowered ticket s t s' = true) : NotLowered ticket s t s' := by
  intro r r' hr hr'
  unfold notLowered at h
  rw [hr, hr'] at h
  simpa using h

/-- One ticket is left. -/
def oneLeft : Database := Db.empty.set (.ticket 1) (some { event := 1, price := 500, quantityAvailable := 1 })

/-- Two buyers of the last ticket, and the payment of the first. -/
def twoBuyers : ℕ → Call
  | 0 => .buyTicket { ticket := 1, email := "ama@x", reference := "a", now := 0 }
  | 1 => .buyTicket { ticket := 1, email := "kofi@x", reference := "b", now := 0 }
  | _ => .applyTicketResult "a" [("status", .str "success"), ("amount", .int 500)]

theorem never_oversold_twoBuyers :
    ∃ s, replayIf 3 (notLowered 1) (.init oneLeft fun t => (twoBuyers t).prog .plain Credit.plainAdapters)
        [0, 1, 0, 0, 0, 0, 1, 1, 1, 2, 2, 2, 2] = some s ∧
      (s.db.row (.purchase "a")).map (·.status) = some .Success ∧ s.db.row (.purchase "b") = none ∧
        NotOversold 1 s.db := by
  have hrun : (replayIf 3 (notLowered 1) (.init oneLeft fun t => (twoBuyers t).prog .plain Credit.plainAdapters)
      [0, 1, 0, 0, 0, 0, 1, 1, 1, 2, 2, 2, 2]).map (fun s =>
        ((s.db.row (.purchase "a")).map (·.status), s.db.row (.purchase "b"))) = some (some .Success, none) := by
    decide +kernel
  obtain ⟨s, hs, hend⟩ := Option.map_eq_some_iff.mp hrun
  rw [Prod.mk.injEq] at hend
  have hcalls : ∀ t r p, (twoBuyers t).verifies = some r → oneLeft.row (.payment r) = some p → p.purpose = .VOTE :=
    fun _ _ _ _ hp => by cases hp
  have hstart : NotOversold 1 oneLeft := fun t ht => by
    obtain rfl := Option.some.inj ht
    show reservedCount oneLeft 1 ≤ 1
    decide +kernel
  have hsilent : Silent 3 (State.init oneLeft fun t => (twoBuyers t).prog .plain Credit.plainAdapters) := fun u hu => by
    obtain ⟨n, rfl⟩ := Nat.exists_eq_add_of_le hu
    rw [Nat.add_comm]
    rfl
  exact ⟨s, hs, hend.1, hend.2, never_oversold hcalls hstart
    (Run.of_replayIf (fun _ _ _ _ h => notLowered_sound h) _ hsilent .refl hs)⟩

end Tickets
end FlexyVotes
